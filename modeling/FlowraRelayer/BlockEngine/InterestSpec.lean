/-
  BlockEngine/InterestSpec.lean --- what the block engine is sent, said without caches.

  The specification reads the log of a connection: what was announced and when, and
  whether a wildcard was.  `Wanted` decides one packet from that log, the time and
  the lookup tables, and mentions no other packet.  `stream_refines_interest` shows
  that the code, with its two caches, their evicting reads and its short-circuiting
  loops, sends exactly the wanted packets of every batch, in order.

  `Knows` is the invariant: both caches track the announcements, and the sticky flag
  is the wildcard.  Every function of the filter has one lemma that says what it
  answers and that it keeps `Knows`.
-/
import FlowraRelayer.BlockEngine.PacketStream

set_option autoImplicit false

namespace FlowraRelayer.BlockEngine

open FlowraRelayer.Foundation
open FlowraRelayer.Solana
open FlowraRelayer.Protos
open FlowraRelayer.Core

/-! ## The specification -/

/-- The texts of an AOI message. -/
def Arm.accounts : Arm → List String
  | .aoi (.ok (some accounts)) => accounts
  | _ => []

/-- The texts of a POI message. -/
def Arm.programs : Arm → List String
  | .poi (.ok (some programs)) => programs
  | _ => []

/-- When a key was last announced in the messages `texts` looks at. -/
def lastAnnounced (texts : Arm → List String) (log : List (Time × Arm)) (pubkey : Pubkey) :
    Option Time :=
  log.foldl (fun last ev => if pubkey ∈ announcedPubkeys (texts ev.2) then some ev.1 else last) none

/-- Some message so far contained the wildcard. -/
def WildcardAnnounced (log : List (Time × Arm)) : Prop :=
  ∃ ev ∈ log, "*" ∈ ev.2.accounts ∨ "*" ∈ ev.2.programs

instance (log : List (Time × Arm)) : Decidable (WildcardAnnounced log) :=
  inferInstanceAs (Decidable (∃ ev ∈ log, _))

/-- A key announced at `last`, if at all, is of interest for `ttl` seconds. -/
def Announced (ttl : Nat) (now : Time) (last : Option Time) : Prop :=
  ∃ s, last = some s ∧ now - s < ttl * nanosPerSecond

instance (ttl : Nat) (now : Time) : (last : Option Time) → Decidable (Announced ttl now last)
  | none => isFalse (by simp [Announced])
  | some s => decidable_of_iff (now - s < ttl * nanosPerSecond) (by simp [Announced])

/-- An account is of interest as a writable account or as a program. -/
def AccountWanted (ttl : Nat) (now : Time) (accounts programs : Pubkey → Option Time)
    (account : Pubkey × Bool) : Prop :=
  (account.2 = true ∧ Announced ttl now (accounts account.1)) ∨
    Announced ttl now (programs account.1)

instance (ttl : Nat) (now : Time) (accounts programs : Pubkey → Option Time)
    (account : Pubkey × Bool) : Decidable (AccountWanted ttl now accounts programs account) :=
  inferInstanceAs (Decidable (_ ∨ _))

/-- A transaction is wanted: none of its accounts is in the OFAC set, and a wildcard
was announced or one of its accounts is of interest. -/
def TxWanted (cfg : StreamConfig) (log : List (Time × Arm)) (now : Time) (cache : LookupTableCache)
    (tx : VersionedTransaction) : Prop :=
  (∀ account ∈ resolvedAccounts cache.tables tx.message,
      account.1 ∉ cfg.filter.ofacAddresses) ∧
    (WildcardAnnounced log ∨
      ∃ account ∈ resolvedAccounts cache.tables tx.message,
        AccountWanted cfg.aoiCacheTtlS now (lastAnnounced Arm.accounts log)
          (lastAnnounced Arm.programs log) account)

instance (cfg : StreamConfig) (log : List (Time × Arm)) (now : Time) (cache : LookupTableCache)
    (tx : VersionedTransaction) : Decidable (TxWanted cfg log now cache tx) :=
  inferInstanceAs (Decidable (_ ∧ _))

/-- A packet is wanted: not discarded, its data available, and it deserialises to a
wanted transaction. -/
def Wanted (cfg : StreamConfig) (log : List (Time × Arm)) (now : Time) (cache : LookupTableCache)
    (packet : Packet) : Prop :=
  packet.discard = false ∧ packet.data.isSome = true ∧
    ∃ tx, packet.deserializeSlice cfg.filter.decode = some tx ∧ TxWanted cfg log now cache tx

instance (cfg : StreamConfig) (log : List (Time × Arm)) (now : Time) (cache : LookupTableCache)
    (packet : Packet) : Decidable (Wanted cfg log now cache packet) :=
  match h : packet.deserializeSlice cfg.filter.decode with
  | none => isFalse (by simp [Wanted, h])
  | some tx =>
      decidable_of_iff
        (packet.discard = false ∧ packet.data.isSome = true ∧ TxWanted cfg log now cache tx)
        (by simp [Wanted, h])

/-- The wanted packets of a batch, in input order, as they go on the wire. -/
def wantedPackets (cfg : StreamConfig) (log : List (Time × Arm)) (now : Time)
    (cache : LookupTableCache) (batch : BankingPacketBatch) : List ProtoPacket :=
  (batch.flatten.filter fun packet => decide (Wanted cfg log now cache packet)).filterMap
    packetToProtoPacket

/-- What a batch filtered at `now` is owed to the block engine as. -/
def wantedBatch (cfg : StreamConfig) (log : List (Time × Arm)) (now : Time)
    (cache : LookupTableCache) (batches : BlockEnginePackets) : Option ExpiringPacketBatch :=
  let packets := wantedPackets cfg log now cache batches.bankingPacketBatch
  if packets = [] then none else some ⟨batches.stamp, packets, batches.expiration⟩

/-- What an event of the log owes the block engine, given the log before it. -/
def owedBatch (cfg : StreamConfig) (log : List (Time × Arm)) :
    Time × Arm → Option ExpiringPacketBatch
  | (now, .batches (some batches) cache _) => wantedBatch cfg log now cache batches
  | _ => none

/-- What a whole log owes the block engine: each batch judged by the log before it. -/
def owedBatches (cfg : StreamConfig) (log : List (Time × Arm)) : List ExpiringPacketBatch :=
  (List.range log.length).filterMap fun i => log[i]?.bind (owedBatch cfg (log.take i))

/-! ## The filter, function by function -/

section Filter

variable {timed : TimedCache Pubkey} {ttl : Nat} {now : Time}
  {accounts programs : Pubkey → Option Time} {wildcard : Prop}

/-- What a connection knows about the interest of the block engine at `now`. -/
structure Knows (timed : TimedCache Pubkey) (ttl : Nat) (now : Time)
    (accounts programs : Pubkey → Option Time) (wildcard : Prop) (s : InterestState timed) :
    Prop where
  accounts_tracked : Tracks timed ttl now accounts s.accountsOfInterest
  programs_tracked : Tracks timed ttl now programs s.programsOfInterest
  wildcard_iff : s.forwardAll = true ↔ wildcard

theorem cacheGet_iff_announced {lastSet : Pubkey → Option Time} {c : timed.Cache}
    (h : Tracks timed ttl now lastSet c) (pubkey : Pubkey) :
    (timed.cacheGet now pubkey c).1 = true ↔ Announced ttl now (lastSet pubkey) := by
  rw [h.cacheGet_eq_true_iff]
  simp only [Announced, fresh_iff]

theorem isInteresting_spec {s : InterestState timed}
    (h : Knows timed ttl now accounts programs wildcard s) (account : Pubkey × Bool) :
    ((isInteresting now account s).1 = true ↔ AccountWanted ttl now accounts programs account) ∧
      Knows timed ttl now accounts programs wildcard (isInteresting now account s).2 := by
  obtain ⟨pubkey, writable⟩ := account
  have haccounts := cacheGet_iff_announced h.accounts_tracked pubkey
  have hprograms := cacheGet_iff_announced h.programs_tracked pubkey
  unfold isInteresting AccountWanted
  cases writable with
  | false =>
    simp only [Bool.false_eq_true, if_false, false_and, false_or]
    exact ⟨hprograms, h.accounts_tracked, h.programs_tracked.cacheGet pubkey, h.wildcard_iff⟩
  | true =>
    simp only [if_true, true_and]
    split
    · rename_i hhit
      exact ⟨by simp [haccounts.mp hhit], h.accounts_tracked.cacheGet pubkey, h.programs_tracked,
        h.wildcard_iff⟩
    · rename_i hmiss
      rw [haccounts] at hmiss
      refine ⟨?_, h.accounts_tracked.cacheGet pubkey, h.programs_tracked.cacheGet pubkey,
        h.wildcard_iff⟩
      rw [hprograms]
      simp [hmiss]

theorem anyInteresting_spec :
    ∀ (list : List (Pubkey × Bool)) {s : InterestState timed},
      Knows timed ttl now accounts programs wildcard s →
      ((anyInteresting now list s).1 = true ↔
        ∃ account ∈ list, AccountWanted ttl now accounts programs account) ∧
        Knows timed ttl now accounts programs wildcard (anyInteresting now list s).2 := by
  intro list
  induction list with
  | nil =>
    intro s h
    exact ⟨by simp [anyInteresting], h⟩
  | cons account rest ih =>
    intro s h
    obtain ⟨hiff, hknows⟩ := isInteresting_spec h account
    unfold anyInteresting
    dsimp only
    split
    · rename_i hhit
      exact ⟨by simp [hiff.mp hhit], hknows⟩
    · rename_i hmiss
      rw [hiff] at hmiss
      obtain ⟨hrest, hknows'⟩ := ih hknows
      exact ⟨by simp [hrest, hmiss], hknows'⟩

theorem anyTableInteresting_spec (cache : LookupTableCache) :
    ∀ (tables : List MessageAddressTableLookup) {s : InterestState timed},
      Knows timed ttl now accounts programs wildcard s →
      ((anyTableInteresting now cache tables s).1 = true ↔
        ∃ account ∈ tables.flatMap (tableAccounts cache.tables),
          AccountWanted ttl now accounts programs account) ∧
        Knows timed ttl now accounts programs wildcard (anyTableInteresting now cache tables s).2 := by
  intro tables
  induction tables with
  | nil =>
    intro s h
    exact ⟨by simp [anyTableInteresting], h⟩
  | cons table rest ih =>
    intro s h
    unfold anyTableInteresting
    rw [List.flatMap_cons]
    cases hcache : cache table.accountKey with
    | none =>
      have hnone : tableAccounts cache.tables table = [] := by
        simp [tableAccounts, LookupTableCache.tables, hcache]
      rw [hnone, List.nil_append]
      exact ih h
    | some lookupInfo =>
      have hsome : tableAccounts cache.tables table =
          (selectAddresses lookupInfo.addresses table.writableIndexes).map (·, true) ++
            (selectAddresses lookupInfo.addresses table.readonlyIndexes).map (·, false) := by
        simp [tableAccounts, LookupTableCache.tables, hcache]
      obtain ⟨hwritable, hknows⟩ := anyInteresting_spec
        ((selectAddresses lookupInfo.addresses table.writableIndexes).map (·, true)) h
      rw [hsome]
      simp only [List.mem_append, or_and_right, exists_or]
      split
      · rename_i hhit
        exact ⟨iff_of_true rfl (.inl (.inl (hwritable.mp hhit))), hknows⟩
      · rename_i hmiss
        rw [hwritable] at hmiss
        obtain ⟨hreadonly, hknows'⟩ := anyInteresting_spec
          ((selectAddresses lookupInfo.addresses table.readonlyIndexes).map (·, false)) hknows
        split
        · rename_i hhit
          exact ⟨iff_of_true rfl (.inl (.inr (hreadonly.mp hhit))), hknows'⟩
        · rename_i hmiss'
          rw [hreadonly] at hmiss'
          obtain ⟨hrest, hknows''⟩ := ih hknows'
          refine ⟨hrest.trans ?_, hknows''⟩
          rw [or_iff_right (not_or.mpr ⟨hmiss, hmiss'⟩)]

theorem isOfInterest_spec {s : InterestState timed}
    (h : Knows timed ttl now accounts programs wildcard s) (tx : VersionedTransaction)
    (cache : LookupTableCache) :
    ((isOfInterest now tx cache s).1 = true ↔
      wildcard ∨ ∃ account ∈ resolvedAccounts cache.tables tx.message,
        AccountWanted ttl now accounts programs account) ∧
      Knows timed ttl now accounts programs wildcard (isOfInterest now tx cache s).2 := by
  unfold isOfInterest resolvedAccounts
  simp only [List.mem_append, or_and_right, exists_or]
  split
  · rename_i hall
    exact ⟨iff_of_true rfl (.inl (h.wildcard_iff.mp hall)), h⟩
  · rename_i hnone
    rw [h.wildcard_iff] at hnone
    obtain ⟨hstatic, hknows⟩ := anyInteresting_spec (staticAccounts tx.message) h
    unfold isAoiInStaticKeys
    split
    · rename_i hhit
      exact ⟨iff_of_true rfl (.inr (.inl (hstatic.mp hhit))), hknows⟩
    · rename_i hmiss
      rw [hstatic] at hmiss
      rw [or_iff_right hnone, or_iff_right hmiss]
      unfold isAoiInLookupTable lookupAccounts
      cases tx.message.addressTableLookups with
      | none => exact ⟨by simp, hknows⟩
      | some lookupTables => exact anyTableInteresting_spec cache lookupTables hknows

theorem not_mentions_iff {ofacAddresses : Finset Pubkey} {list : List (Pubkey × Bool)} :
    ¬ Mentions ofacAddresses list ↔ ∀ account ∈ list, account.1 ∉ ofacAddresses := by
  simp only [Mentions, not_exists, not_and]

theorem isForwardable_spec {s : InterestState timed}
    (h : Knows timed ttl now accounts programs wildcard s) (cfg : FilterConfig)
    (tx : VersionedTransaction) (cache : LookupTableCache) :
    ((isForwardable cfg now tx cache s).1 = true ↔
      (∀ account ∈ resolvedAccounts cache.tables tx.message, account.1 ∉ cfg.ofacAddresses) ∧
        (wildcard ∨ ∃ account ∈ resolvedAccounts cache.tables tx.message,
          AccountWanted ttl now accounts programs account)) ∧
      Knows timed ttl now accounts programs wildcard (isForwardable cfg now tx cache s).2 := by
  obtain ⟨hiff, hknows⟩ := isOfInterest_spec h tx cache
  have hofac := isTxOfacRelated_iff tx cfg.ofacAddresses cache
  rw [← not_mentions_iff]
  unfold isForwardable
  split
  · rename_i hempty
    refine ⟨hiff.trans (and_iff_right ?_).symm, hknows⟩
    simp [Mentions, hempty]
  · split
    · rename_i hrelated
      exact ⟨iff_of_false (by simp) fun hand => hand.1 (hofac.mp hrelated), h⟩
    · rename_i hunrelated
      exact ⟨hiff.trans (and_iff_right fun hm => hunrelated (hofac.mpr hm)).symm, hknows⟩

end Filter

/-! ## The filter as a whole -/

section Log

variable {timed : TimedCache Pubkey}

/-- The state of a connection knows what its log says. -/
def KnowsLog (timed : TimedCache Pubkey) (cfg : StreamConfig) (log : List (Time × Arm))
    (now : Time) (s : InterestState timed) : Prop :=
  Knows timed cfg.aoiCacheTtlS now (lastAnnounced Arm.accounts log)
    (lastAnnounced Arm.programs log) (WildcardAnnounced log) s

theorem filterPacket_spec {cfg : StreamConfig} {log : List (Time × Arm)} {now : Time}
    {s : InterestState timed} (h : KnowsLog timed cfg log now s) (cache : LookupTableCache)
    (packet : Packet) :
    (filterPacket cfg.filter now cache packet s).1 = wantedPackets cfg log now cache [[packet]] ∧
      KnowsLog timed cfg log now (filterPacket cfg.filter now cache packet s).2 := by
  have hone : wantedPackets cfg log now cache [[packet]] =
      if Wanted cfg log now cache packet then (packetToProtoPacket packet).toList else [] := by
    unfold wantedPackets
    by_cases hw : Wanted cfg log now cache packet
    · cases hproto : packetToProtoPacket packet <;> simp [hw, hproto]
    · simp [hw]
  rw [hone]
  unfold filterPacket
  split
  · rename_i hdiscard
    exact ⟨by simp [Wanted, hdiscard], h⟩
  · rename_i hkept
    cases htx : packet.deserializeSlice cfg.filter.decode with
    | none => exact ⟨by simp [Wanted, htx], h⟩
    | some tx =>
      have hdata : packet.data.isSome = true := by
        cases hd : packet.data with
        | none => simp [Packet.deserializeSlice, hd] at htx
        | some data => rfl
      have hwanted : Wanted cfg log now cache packet ↔ TxWanted cfg log now cache tx := by
        simp [Wanted, hkept, hdata, htx]
      obtain ⟨hiff, hknows⟩ := isForwardable_spec h cfg.filter tx cache
      refine ⟨?_, hknows⟩
      dsimp only
      simp only [hwanted, TxWanted, hiff]

theorem wantedPackets_append (cfg : StreamConfig) (log : List (Time × Arm)) (now : Time)
    (cache : LookupTableCache) (left right : BankingPacketBatch) :
    wantedPackets cfg log now cache (left ++ right) =
      wantedPackets cfg log now cache left ++ wantedPackets cfg log now cache right := by
  simp [wantedPackets]

theorem filterBatch_spec {cfg : StreamConfig} {log : List (Time × Arm)} {now : Time}
    (cache : LookupTableCache) :
    ∀ (batch : List Packet) {s : InterestState timed}, KnowsLog timed cfg log now s →
      (filterBatch cfg.filter now cache batch s).1 = wantedPackets cfg log now cache [batch] ∧
        KnowsLog timed cfg log now (filterBatch cfg.filter now cache batch s).2 := by
  intro batch
  induction batch with
  | nil =>
    intro s h
    exact ⟨rfl, h⟩
  | cons packet rest ih =>
    intro s h
    obtain ⟨hpacket, hknows⟩ := filterPacket_spec h cache packet
    obtain ⟨hrest, hknows'⟩ := ih hknows
    refine ⟨?_, hknows'⟩
    have hsplit : wantedPackets cfg log now cache [packet :: rest] =
        wantedPackets cfg log now cache ([[packet]] ++ [rest]) := by
      simp [wantedPackets]
    rw [hsplit, wantedPackets_append, ← hpacket, ← hrest]
    rfl

theorem filterBatches_spec {cfg : StreamConfig} {log : List (Time × Arm)} {now : Time}
    (cache : LookupTableCache) :
    ∀ (batches : BankingPacketBatch) {s : InterestState timed}, KnowsLog timed cfg log now s →
      (filterBatches cfg.filter now cache batches s).1 = wantedPackets cfg log now cache batches ∧
        KnowsLog timed cfg log now (filterBatches cfg.filter now cache batches s).2 := by
  intro batches
  induction batches with
  | nil =>
    intro s h
    exact ⟨rfl, h⟩
  | cons batch rest ih =>
    intro s h
    obtain ⟨hbatch, hknows⟩ := filterBatch_spec cache batch h
    obtain ⟨hrest, hknows'⟩ := ih hknows
    refine ⟨?_, hknows'⟩
    rw [← List.singleton_append, wantedPackets_append, ← hbatch, ← hrest]
    rfl

/-- `filter_packets` is the specification, as long as the state knows the log. -/
theorem filterPackets_spec {cfg : StreamConfig} {log : List (Time × Arm)} {now : Time}
    {s : InterestState timed} (h : KnowsLog timed cfg log now s) (batches : BlockEnginePackets)
    (cache : LookupTableCache) :
    (filterPackets cfg.filter now batches cache s).1 = wantedBatch cfg log now cache batches ∧
      KnowsLog timed cfg log now (filterPackets cfg.filter now batches cache s).2 := by
  obtain ⟨hpackets, hknows⟩ := filterBatches_spec cache batches.bankingPacketBatch h
  unfold filterPackets wantedBatch
  dsimp only
  rw [hpackets]
  split
  · exact ⟨rfl, hknows⟩
  · exact ⟨rfl, hknows⟩

/-! ## Events and the log -/

theorem lastAnnounced_concat (texts : Arm → List String) (log : List (Time × Arm))
    (ev : Time × Arm) :
    lastAnnounced texts (log ++ [ev]) = fun pubkey =>
      if pubkey ∈ announcedPubkeys (texts ev.2) then some ev.1 else lastAnnounced texts log pubkey := by
  funext pubkey
  simp [lastAnnounced, List.foldl_append]

theorem lastAnnounced_concat_of_nil {texts : Arm → List String} {ev : Time × Arm}
    (hnil : texts ev.2 = []) (log : List (Time × Arm)) :
    lastAnnounced texts (log ++ [ev]) = lastAnnounced texts log := by
  rw [lastAnnounced_concat]
  simp [hnil, announcedPubkeys]

theorem wildcardAnnounced_concat (log : List (Time × Arm)) (ev : Time × Arm) :
    WildcardAnnounced (log ++ [ev]) ↔
      WildcardAnnounced log ∨ "*" ∈ ev.2.accounts ∨ "*" ∈ ev.2.programs := by
  simp only [WildcardAnnounced, List.mem_append, List.mem_singleton, or_and_right, exists_or,
    exists_eq_left]

/-- Setting all announced keys is one more message in the history. -/
theorem tracks_cacheSetAll {ttl : Nat} {now : Time} :
    ∀ (pubkeys : List Pubkey) {lastSet : Pubkey → Option Time} {c : timed.Cache},
      Tracks timed ttl now lastSet c →
      Tracks timed ttl now (fun pubkey => if pubkey ∈ pubkeys then some now else lastSet pubkey)
        (cacheSetAll now pubkeys c) := by
  intro pubkeys
  induction pubkeys with
  | nil =>
    intro lastSet c h
    simpa [cacheSetAll] using h
  | cons pubkey rest ih =>
    intro lastSet c h
    have hrest := ih (h.cacheSet pubkey)
    have hfun : (fun k => if k ∈ rest then some now else Function.update lastSet pubkey (some now) k) =
        fun k => if k ∈ pubkey :: rest then some now else lastSet k := by
      funext k
      by_cases hk : k = pubkey
      · subst hk
        simp
      · simp [hk]
    rw [hfun] at hrest
    exact hrest

theorem any_wildcard_iff (texts : List String) :
    (texts.any fun a => decide (a = "*")) = true ↔ "*" ∈ texts := by
  simp

/-- An event that announces nothing adds nothing to the log. -/
theorem KnowsLog.concat_of_silent {cfg : StreamConfig} {log : List (Time × Arm)} {now : Time}
    {s : InterestState timed} (h : KnowsLog timed cfg log now s) {ev : Time × Arm}
    (haccounts : ev.2.accounts = []) (hprograms : ev.2.programs = []) :
    KnowsLog timed cfg (log ++ [ev]) now s := by
  have hwildcard : WildcardAnnounced (log ++ [ev]) ↔ WildcardAnnounced log := by
    simp [wildcardAnnounced_concat, haccounts, hprograms]
  refine ⟨?_, ?_, h.wildcard_iff.trans hwildcard.symm⟩
  · rw [lastAnnounced_concat_of_nil haccounts]
    exact h.accounts_tracked
  · rw [lastAnnounced_concat_of_nil hprograms]
    exact h.programs_tracked

theorem knowsLog_handleAoi {cfg : StreamConfig} {log : List (Time × Arm)} {now : Time}
    {s s' : InterestState timed} {maybeAoi : Except String (Option (List String))} {n : Nat}
    (h : KnowsLog timed cfg log now s) (hok : handleAoi maybeAoi now s = .ok (s', n)) :
    KnowsLog timed cfg (log ++ [(now, .aoi maybeAoi)]) now s' := by
  unfold handleAoi at hok
  split at hok
  · rename_i accounts
    cases hok
    refine ⟨?_, ?_, ?_⟩
    · rw [lastAnnounced_concat]
      exact tracks_cacheSetAll _ h.accounts_tracked
    · rw [lastAnnounced_concat_of_nil rfl]
      exact h.programs_tracked
    · rw [Bool.or_eq_true, h.wildcard_iff, any_wildcard_iff, wildcardAnnounced_concat]
      simp [Arm.accounts, Arm.programs]
  · cases hok
  · cases hok

theorem knowsLog_handlePoi {cfg : StreamConfig} {log : List (Time × Arm)} {now : Time}
    {s s' : InterestState timed} {maybePoi : Except String (Option (List String))} {n : Nat}
    (h : KnowsLog timed cfg log now s) (hok : handlePoi maybePoi now s = .ok (s', n)) :
    KnowsLog timed cfg (log ++ [(now, .poi maybePoi)]) now s' := by
  unfold handlePoi at hok
  split at hok
  · rename_i programs
    cases hok
    refine ⟨?_, ?_, ?_⟩
    · rw [lastAnnounced_concat_of_nil rfl]
      exact h.accounts_tracked
    · rw [lastAnnounced_concat]
      exact tracks_cacheSetAll _ h.programs_tracked
    · rw [Bool.or_eq_true, h.wildcard_iff, any_wildcard_iff, wildcardAnnounced_concat]
      simp [Arm.accounts, Arm.programs]
  · cases hok
  · cases hok

/-- One arm: the state knows the log with the event added, and what was sent is what
the event owed. -/
theorem knowsLog_handleArm {cfg : StreamConfig} {log : List (Time × Arm)} {s s' : StreamState timed}
    {arm : Arm} (h : KnowsLog timed cfg log s.now s.interest) (hok : handleArm cfg s arm = .ok s') :
    s'.now = s.now ∧ KnowsLog timed cfg (log ++ [(s.now, arm)]) s'.now s'.interest ∧
      s'.sent.filterMap PacketBatchUpdate.batch? =
        s.sent.filterMap PacketBatchUpdate.batch? ++ (owedBatch cfg log (s.now, arm)).toList := by
  cases arm with
  | response maybeResponse =>
    cases maybeResponse with
    | error e => cases hok
    | ok response =>
      cases response with
      | none => cases hok
      | some reply =>
        cases hok
        exact ⟨rfl, h.concat_of_silent rfl rfl, by simp [owedBatch]⟩
  | heartbeat sendOk =>
    simp only [handleArm] at hok
    split at hok
    · cases hok
      exact ⟨rfl, h.concat_of_silent rfl rfl, by simp [owedBatch, PacketBatchUpdate.batch?]⟩
    · cases hok
  | aoi maybeAoi =>
    simp only [handleArm] at hok
    cases haoi : handleAoi maybeAoi s.now s.interest with
    | error e => rw [haoi] at hok; cases hok
    | ok result =>
      rw [haoi] at hok
      cases hok
      exact ⟨rfl, knowsLog_handleAoi h haoi, by simp [owedBatch]⟩
  | poi maybePoi =>
    simp only [handleArm] at hok
    cases hpoi : handlePoi maybePoi s.now s.interest with
    | error e => rw [hpoi] at hok; cases hok
    | ok result =>
      rw [hpoi] at hok
      cases hok
      exact ⟨rfl, knowsLog_handlePoi h hpoi, by simp [owedBatch]⟩
  | batches maybeBatches cache sendOk =>
    cases maybeBatches with
    | none => cases hok
    | some batches =>
      obtain ⟨hfilter, hknows⟩ := filterPackets_spec h batches cache
      simp only [handleArm, hfilter] at hok
      cases hbatch : wantedBatch cfg log s.now cache batches with
      | none =>
        rw [hbatch] at hok
        cases hok
        exact ⟨rfl, hknows.concat_of_silent rfl rfl, by simp [owedBatch, hbatch]⟩
      | some batch =>
        rw [hbatch] at hok
        simp only [forwardPackets] at hok
        split at hok
        · cases hok
          exact ⟨rfl, hknows.concat_of_silent rfl rfl,
            by simp [owedBatch, hbatch, PacketBatchUpdate.batch?]⟩
        · cases hok
  | authRefresh result =>
    cases result with
    | error e => cases hok
    | ok refreshed =>
      cases hok
      exact ⟨rfl, h.concat_of_silent rfl rfl, by simp [owedBatch]⟩
  | metrics =>
    simp only [handleArm] at hok
    split at hok
    · cases hok
    · cases hok
      have hflushed : KnowsLog timed cfg log s.now
          { s.interest with
            accountsOfInterest := timed.flush s.now s.interest.accountsOfInterest
            programsOfInterest := timed.flush s.now s.interest.programsOfInterest } :=
        ⟨h.accounts_tracked.flush, h.programs_tracked.flush, h.wildcard_iff⟩
      exact ⟨rfl, hflushed.concat_of_silent rfl rfl, by simp [owedBatch]⟩

theorem KnowsLog.later {cfg : StreamConfig} {log : List (Time × Arm)} {now later : Time}
    {s : InterestState timed} (h : KnowsLog timed cfg log now s) (hle : now ≤ later) :
    KnowsLog timed cfg log later s :=
  ⟨h.accounts_tracked.later hle, h.programs_tracked.later hle, h.wildcard_iff⟩

theorem owedBatches_concat (cfg : StreamConfig) (log : List (Time × Arm)) (ev : Time × Arm) :
    owedBatches cfg (log ++ [ev]) = owedBatches cfg log ++ (owedBatch cfg log ev).toList := by
  unfold owedBatches
  rw [List.length_append, List.length_singleton, List.range_succ, List.filterMap_append]
  congr 1
  · apply List.filterMap_congr
    intro i hi
    have hlt : i < log.length := List.mem_range.mp hi
    rw [List.getElem?_append_left hlt, List.take_append_of_le_length hlt.le]
  · cases howed : owedBatch cfg log ev <;> simp [howed]

/-- A whole run: the state knows its log, and the batches sent are the ones owed. -/
theorem knowsLog_runSteps {cfg : StreamConfig} {start : Time} :
    ∀ (log : List (Time × Arm)) {s : StreamState timed},
      runSteps (streamStep cfg) (StreamState.new timed cfg start) log = some s →
      KnowsLog timed cfg log s.now s.interest ∧
        s.sent.filterMap PacketBatchUpdate.batch? = owedBatches cfg log := by
  intro log
  induction log using List.reverseRecOn with
  | nil =>
    intro s h
    cases h
    refine ⟨⟨tracks_withLifespan timed _ _, tracks_withLifespan timed _ _, ?_⟩, rfl⟩
    simp [StreamState.new, InterestState.new, WildcardAnnounced]
  | append_singleton log ev ih =>
    intro s' h
    rw [runSteps_concat] at h
    obtain ⟨s, hrun, hstep⟩ := Option.bind_eq_some_iff.mp h
    obtain ⟨hknows, hsent⟩ := ih hrun
    obtain ⟨hle, harm⟩ := streamStep_eq_some_iff.mp hstep
    have hready : KnowsLog timed cfg log ev.1 s.interest := hknows.later hle
    obtain ⟨_, hknows', hsent'⟩ := knowsLog_handleArm (s := { s with now := ev.1 }) hready harm
    refine ⟨hknows', ?_⟩
    rw [hsent', hsent, owedBatches_concat]

end Log

/-- The block-engine stream is the interest specification in every run of one
connection: whatever batch is filtered next yields its wanted packets, and the
batches sent so far are the ones owed. -/
theorem stream_refines_interest (timed : TimedCache Pubkey) (cfg : StreamConfig) (start : Time)
    (log : List (Time × Arm)) (s : StreamState timed)
    (hrun : runSteps (streamStep cfg) (StreamState.new timed cfg start) log = some s) :
    (∀ (now : Time) (batches : BlockEnginePackets) (cache : LookupTableCache), s.now ≤ now →
      (filterPackets cfg.filter now batches cache s.interest).1 =
        wantedBatch cfg log now cache batches) ∧
    s.sent.filterMap PacketBatchUpdate.batch? = owedBatches cfg log := by
  obtain ⟨hknows, hsent⟩ := knowsLog_runSteps log hrun
  refine ⟨fun now batches cache hle => ?_, hsent⟩
  exact (filterPackets_spec (hknows.later hle) batches cache).1

/-! ## A connection with one account of interest -/

/-- The system program, whose text is 32 times the digit one. -/
def systemProgram : Pubkey := ⟨List.replicate pubkeyBytes 0, by simp⟩

/-- Every payload decodes to a transaction that writes to the system program. -/
def oneAccountConfig : StreamConfig where
  filter := ⟨fun _ => some ⟨⟨[systemProgram], none, fun _ => true⟩⟩, ∅⟩
  aoiCacheTtlS := 5

/-- The batch of one packet. -/
def onePacket : BlockEnginePackets where
  bankingPacketBatch := [[oneBytePacket 1]]
  stamp := 0
  expiration := 50

/-- The account is announced at second 1, and the same batch comes before and after
the announcement expires. -/
def announcedRun : List (Time × Arm) :=
  [ (nanosPerSecond, .aoi (.ok (some ["11111111111111111111111111111111"])))
  , (3 * nanosPerSecond, .batches (some onePacket) (fun _ => none) true)
  , (6 * nanosPerSecond, .batches (some onePacket) (fun _ => none) true) ]

theorem stream_refines_interest_announcedRun :
    ∃ s, runSteps (streamStep oneAccountConfig)
        (StreamState.new (mapCache Pubkey) oneAccountConfig 0) announcedRun = some s ∧
      (s.sent.filterMap PacketBatchUpdate.batch?).length = 1 ∧
      (∀ (now : Time) (batches : BlockEnginePackets) (cache : LookupTableCache), s.now ≤ now →
        (filterPackets oneAccountConfig.filter now batches cache s.interest).1 =
          wantedBatch oneAccountConfig announcedRun now cache batches) ∧
      s.sent.filterMap PacketBatchUpdate.batch? = owedBatches oneAccountConfig announcedRun := by
  have hrun : ((runSteps (streamStep oneAccountConfig)
      (StreamState.new (mapCache Pubkey) oneAccountConfig 0) announcedRun).map fun s =>
        (s.sent.filterMap PacketBatchUpdate.batch?).length) = some 1 := by decide
  obtain ⟨s, hs, hlength⟩ := Option.map_eq_some_iff.mp hrun
  exact ⟨s, hs, hlength, stream_refines_interest _ oneAccountConfig 0 announcedRun s hs⟩

end FlowraRelayer.BlockEngine
