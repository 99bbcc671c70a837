/-
  Relayer/ChallengeBound.lean --- how many challenges are stored at once.

  `generate_auth_challenge` compares the length of the store with
  `AUTH_CHALLENGES_CAPACITY` under one lock and pushes under another.  Requests that have
  passed the comparison and not yet pushed are not counted by it, so that any number of
  them may push into a store that has no room for them (`challenge_store_overfull`).

  The bound holds for the stored challenges and the requests between the two locks taken
  together: `load` is their number, only the comparison adds to it, and a run keeps it
  below the capacity if every request that passes the comparison finds room next to those
  that have passed before (`challenges_bounded`).  A server that let one request through
  to its push before the next comparison would do so always.
-/
import FlowraRelayer.Foundation.Tally
import FlowraRelayer.Relayer.ChallengeStore

set_option autoImplicit false

namespace FlowraRelayer.Relayer

open FlowraRelayer.Foundation
open FlowraRelayer.Solana

variable {Ip : Type}

/-! ## The load -/

/-- The request has passed the comparison and may still push. -/
def Call.mayPush : Call Ip → Bool
  | .challengeGet _ _ | .challengePush _ => true
  | _ => false

/-- The step compares the length of the store with the capacity. -/
def AuthLabel.comparesLen : AuthLabel Ip → Bool
  | .challengeLen _ => true
  | _ => false

/-- The stored challenges and the requests that may still push one. -/
def load (s : AuthState Ip) : Nat := s.challenges.len + tally Call.mayPush s.calls

/-- A request that passes the comparison finds room for its challenge next to those of the
requests that have passed before. -/
def LeavesRoom (s : AuthState Ip) (label : AuthLabel Ip) : Prop :=
  label.comparesLen = true → s.challenges.len < authChallengesCapacity →
    load s < authChallengesCapacity

instance (s : AuthState Ip) (label : AuthLabel Ip) : Decidable (LeavesRoom s label) :=
  inferInstanceAs (Decidable (label.comparesLen = true →
    s.challenges.len < authChallengesCapacity → load s < authChallengesCapacity))

/-! ## What a step adds to the load -/

section Steps

variable {env : AuthEnv Ip} {decode : List UInt8 → Option VersionedTransaction} {cfg : LoopConfig}
  {s s' : AuthState Ip} {label : AuthLabel Ip} {id : Nat}

theorem load_erase_le (s : AuthState Ip) (id : Nat) :
    load { s with calls := s.calls.erase id } ≤ load s :=
  Nat.add_le_add_left (tally_erase_le _ _ _) _

theorem load_settle_le (s : AuthState Ip) (id : Nat) (reply : Reply Ip) :
    load (s.settle id reply) ≤ load s :=
  load_erase_le s id

/-- A request that cannot push goes on to wait. -/
theorem load_wait_le {call : Call Ip} (hcall : call.mayPush = false) :
    load (s.wait id call) ≤ load s :=
  Nat.add_le_add_left (tally_insert_of_not _ _ _ hcall) _

/-- The request that has looked its client up leaves the load to its push. -/
theorem load_wait_of_mayPush {call old : Call Ip} (hold : s.calls.lookup id = some old)
    (hpush : old.mayPush = true) : load (s.wait id call) ≤ load s :=
  Nat.add_le_add_left (tally_insert_of_lookup _ _ hold hpush) _

theorem load_wait_le_succ (s : AuthState Ip) (id : Nat) (call : Call Ip) :
    load (s.wait id call) ≤ load s + 1 :=
  Nat.add_le_add_left (tally_insert_le _ _ _ _) _

variable [DecidableEq Ip]

theorem AuthChallenges.len_push_le (queue : AuthChallenges Ip) (ip : Ip)
    (challenge : StoredChallenge Ip) : (queue.push ip challenge).len ≤ queue.len + 1 := by
  unfold AuthChallenges.len AuthChallenges.push
  rw [← tally_true, ← tally_true]
  exact tally_insert_le _ _ _ _

theorem AuthChallenges.len_remove_le (queue : AuthChallenges Ip) (ip : Ip) :
    (queue.remove ip).len ≤ queue.len := by
  unfold AuthChallenges.len AuthChallenges.remove
  rw [← tally_true, ← tally_true]
  exact tally_erase_le _ _ _

theorem AuthChallenges.len_removeAllExpired_le :
    ∀ (readings : List (Ip × Int)) {queue swept : AuthChallenges Ip},
      queue.removeAllExpired readings = some swept → swept.len ≤ queue.len := by
  intro readings
  induction readings with
  | nil =>
    intro queue swept h
    rw [AuthChallenges.removeAllExpired, Option.ite_none_right_eq_some, Option.some.injEq] at h
    rw [h.2]
  | cons reading rest ih =>
    intro queue swept h
    obtain ⟨ip, now⟩ := reading
    simp only [AuthChallenges.removeAllExpired] at h
    split at h
    · cases h
    · rw [Option.ite_none_right_eq_some] at h
      obtain ⟨-, h⟩ := h
      split at h
      · exact (ih h).trans (AuthChallenges.len_remove_le queue ip)
      · rw [Option.ite_none_right_eq_some, Option.some.injEq] at h
        rw [h.2]

/-- A push moves a request from between the locks into the store. -/
theorem load_push_le {pending : PendingPush Ip} {reply : Reply Ip}
    (hcall : s.calls.lookup id = some (.challengePush pending)) :
    load ((s.pushChallenge pending).settle id reply) ≤ load s := by
  have hcalls : tally Call.mayPush s.calls = tally Call.mayPush (s.calls.erase id) + 1 :=
    tally_erase_of_lookup Call.mayPush hcall
  have hstore := s.challenges.len_push_le pending.ip ⟨s.history.length, pending.challenge⟩
  unfold load
  change (s.challenges.push _ _).len + tally _ (s.calls.erase id) ≤ _
  omega

omit [DecidableEq Ip] in
/-- The comparison lets a request through only below the capacity. -/
theorem load_compare_le {req : ChallengeRequest Ip} :
    load (s.resume id do
        let ip ← challengeAfterLen s.challenges.len req
        pure (.challengeGet ip req)) ≤ load s ∨
      s.challenges.len < authChallengesCapacity ∧
        load (s.resume id do
          let ip ← challengeAfterLen s.challenges.len req
          pure (.challengeGet ip req)) ≤ load s + 1 := by
  cases hpassed : challengeAfterLen s.challenges.len req with
  | error failure => exact .inl (load_settle_le s id _)
  | ok ip => exact .inr ⟨(challengeAfterLen_eq_ok hpassed).1, load_wait_le_succ s id _⟩

theorem load_callStep {call : Call Ip} (hcall : s.calls.lookup id = some call)
    (h : callStep env s id label call = some s') :
    load s' ≤ load s ∨ label.comparesLen = true ∧ s.challenges.len < authChallengesCapacity ∧
      load s' ≤ load s + 1 := by
  unfold callStep at h
  split at h
  · cases h
    exact load_compare_le.imp_right fun hpassed => ⟨rfl, hpassed⟩
  · left
    simp only [AuthChallenges.getPriority] at h
    split at h <;> cases h
    · exact load_settle_le s id _
    · exact load_settle_le s id _
    · exact load_wait_of_mayPush hcall rfl
  · cases h
    exact .inl (load_push_le hcall)
  · left
    simp only [AuthChallenges.getPriority] at h
    split at h <;> cases h
    · exact load_settle_le s id _
    · exact load_wait_le rfl
  · left
    rename_i ip push access refresh
    cases h
    refine (load_settle_le _ id _).trans ?_
    exact Nat.add_le_add_right (s.challenges.len_remove_le ip) _
  · left
    split at h
    · cases h
      exact load_settle_le s id _
    · split at h
      · split at h <;> cases h
        exact load_settle_le _ id _
      · cases h
        exact load_settle_le s id _
  · cases h
    exact .inl (load_erase_le s id)
  · cases h

omit [DecidableEq Ip] in
theorem load_arrivalStep (h : arrivalStep env s id label = some s') : load s' ≤ load s := by
  cases label with
  | challengeRequest id' req =>
    cases h
    cases challengeStart s.health with
    | error failure => exact load_settle_le s id _
    | ok start => exact load_wait_le rfl
  | tokensRequest id' req =>
    cases h
    cases tokensStart env s.health req with
    | error failure => exact load_settle_le s id _
    | ok start => exact load_wait_le rfl
  | refresh id' clock req =>
    simp only [arrivalStep] at h
    split at h <;> cases h
    · exact load_settle_le s id _
    · exact load_settle_le _ id _
  | intercept id' now req =>
    simp only [arrivalStep] at h
    split at h <;> cases h
    · exact load_settle_le s id _
    · exact load_wait_le rfl
  | _ => cases h

theorem load_backgroundStep (h : backgroundStep decode cfg s label = some s') :
    load s' ≤ load s := by
  have hcalls := (frame_backgroundStep h).1
  have hstore : s'.challenges.len ≤ s.challenges.len := by
    cases label with
    | sweep readings =>
      simp only [backgroundStep, Option.map_eq_some_iff] at h
      obtain ⟨challenges, hswept, rfl⟩ := h
      exact AuthChallenges.len_removeAllExpired_le readings hswept
    | loopTurn event =>
      simp only [backgroundStep, Option.ite_none_right_eq_some, Option.bind_eq_some_iff,
        Option.map_eq_some_iff] at h
      obtain ⟨-, queue, -, loopState, -, rfl⟩ := h
      exact Nat.le_refl _
    | _ =>
      cases h <;> exact Nat.le_refl _
  unfold load
  rw [hcalls]
  exact Nat.add_le_add_right hstore _

/-- Only the comparison adds to the load, one at a time. -/
theorem load_authStep (h : authStep env decode cfg s label = some s') :
    load s' ≤ load s ∨ label.comparesLen = true ∧ s.challenges.len < authChallengesCapacity ∧
      load s' ≤ load s + 1 := by
  unfold authStep at h
  split at h
  · exact .inl (load_backgroundStep h)
  · split at h
    · exact .inl (load_arrivalStep h)
    · cases h
  · split at h
    · cases h
    · rename_i hcall
      exact load_callStep hcall h

theorem load_le_of_step (hload : load s ≤ authChallengesCapacity) (hroom : LeavesRoom s label)
    (hstep : authStep env decode cfg s label = some s') : load s' ≤ authChallengesCapacity := by
  rcases load_authStep hstep with hle | ⟨hcompares, hbelow, hle⟩
  · exact hle.trans hload
  · exact hle.trans (hroom hcompares hbelow)

end Steps

variable [DecidableEq Ip]

/-- In every run in which each request that passes the comparison finds room next to the
requests that have passed before, the store never holds more challenges than its capacity,
nor two of one address. -/
theorem challenges_bounded (env : AuthEnv Ip)
    (decode : List UInt8 → Option VersionedTransaction) (cfg : LoopConfig) (health : HealthState)
    (auther : Pubkey → Bool) (ls : List (AuthLabel Ip)) (s : AuthState Ip)
    (hroom : StepsMeet (authStep env decode cfg) LeavesRoom (AuthState.init health auther) ls)
    (hrun : runSteps (authStep env decode cfg) (AuthState.init health auther) ls = some s) :
    s.challenges.len ≤ authChallengesCapacity ∧ s.challenges.keys.Nodup := by
  have hload : load s ≤ authChallengesCapacity :=
    runSteps_invariant_of_meets (fun s => load s ≤ authChallengesCapacity)
      (fun _ _ _ hload hcond hstep => load_le_of_step hload hcond hstep)
      ls (Nat.zero_le _) hroom hrun
  exact ⟨(Nat.le_add_right _ _).trans hload, s.challenges.keys_nodup⟩

/-- Two clients pass the comparison before either of them pushes. -/
def twoClientsRun : List (AuthLabel Peer) :=
  [ .challengeRequest 0 ⟨some .first, 2, (uniformKey 7).bytes⟩
  , .challengeRequest 1 ⟨some .second, 2, (uniformKey 7).bytes⟩
  , .challengeLen 0
  , .challengeLen 1
  , .challengeGet 0 (clockAt (second 0)) otherToken
  , .challengeGet 1 (clockAt (second 0)) otherToken
  , .challengePush 1
  , .challengePush 0 ]

theorem challenges_bounded_twoClients :
    ∃ s, runSteps (defaultStep []) clientStart twoClientsRun = some s ∧
      s.challenges.keys = [.first, .second] ∧
      s.challenges.len ≤ authChallengesCapacity ∧ s.challenges.keys.Nodup := by
  have hrun : (runSteps (defaultStep []) clientStart twoClientsRun).map
      (fun s => s.challenges.keys) = some [.first, .second] := by decide
  have hroom : StepsMeet (defaultStep []) LeavesRoom clientStart twoClientsRun := by
    unfold StepsMeet
    decide
  obtain ⟨s, hs, hkeys⟩ := Option.map_eq_some_iff.mp hrun
  exact ⟨s, hs, hkeys, challenges_bounded _ _ _ _ _ _ s hroom hs⟩

/-! ## IPv4 addresses -/

/-- An octet in decimal. -/
def octetText (octet : Nat) : List Char := Nat.toDigits 10 octet

/-- The octet with the given text; leading zeros are not accepted. -/
def parseOctet (text : List Char) : Option Nat :=
  let octet := text.foldl (fun value digit => 10 * value + (digit.toNat - '0'.toNat)) 0
  if octet < 256 ∧ octetText octet = text then some octet else none

theorem parseOctet_octetText : ∀ octet < 256, parseOctet (octetText octet) = some octet := by
  decide +kernel

theorem dot_notMem_octetText : ∀ octet < 256, '.' ∉ octetText octet := by
  decide +kernel

/-- The four octets of an address, the first one first. -/
def octets (ip : UInt32) : List Nat :=
  [ip.toNat / 2 ^ 24, ip.toNat / 2 ^ 16 % 256, ip.toNat / 2 ^ 8 % 256, ip.toNat % 256]

theorem octets_lt (ip : UInt32) : ∀ octet ∈ octets ip, octet < 256 := by
  have hip := ip.toNat_lt
  intro octet hmem
  simp only [octets, List.mem_cons, List.not_mem_nil, or_false] at hmem
  omega

/-- The address with the given octets. -/
def ofOctets : List Nat → Option UInt32
  | [a, b, c, d] => some (UInt32.ofNat (a * 2 ^ 24 + b * 2 ^ 16 + c * 2 ^ 8 + d))
  | _ => none

theorem ofOctets_octets (ip : UInt32) : ofOctets (octets ip) = some ip := by
  have hsum : ip.toNat / 2 ^ 24 * 2 ^ 24 + ip.toNat / 2 ^ 16 % 256 * 2 ^ 16 +
      ip.toNat / 2 ^ 8 % 256 * 2 ^ 8 + ip.toNat % 256 = ip.toNat := by omega
  rw [octets, ofOctets, hsum, UInt32.ofNat_toNat]

theorem mapM_parseOctet {list : List Nat} (h : ∀ octet ∈ list, octet < 256) :
    (list.map octetText).mapM parseOctet = some list := by
  induction list with
  | nil => rfl
  | cons octet rest ih =>
    rw [List.map_cons, List.mapM_cons, parseOctet_octetText octet (h octet List.mem_cons_self),
      ih fun other hother => h other (List.mem_cons_of_mem octet hother)]
    rfl

/-- `Ipv4Addr`: four decimal octets with dots between them. -/
def ipv4Format : IpFormat UInt32 where
  toText ip := String.ofList (['.'].intercalate ((octets ip).map octetText))
  fromStr text := ((text.toList.splitOn '.').mapM parseOctet).bind ofOctets
  fromStr_toText := by
    intro ip
    have hdots : ∀ text ∈ (octets ip).map octetText, '.' ∉ text := by
      intro text hmem
      obtain ⟨octet, hoctet, rfl⟩ := List.mem_map.mp hmem
      exact dot_notMem_octetText octet (octets_lt ip octet hoctet)
    rw [String.toList_ofList, List.splitOn_intercalate '.' hdots (by simp [octets]),
      mapM_parseOctet (octets_lt ip)]
    exact ofOctets_octets ip

example : ipv4Format.toText 0x7F000001 = "127.0.0.1" := by decide

/-! ## More requests than the capacity -/

/-- A server for clients with IPv4 addresses, with the lifetimes of `main.rs`. -/
def floodEnv : AuthEnv UInt32 where
  calendar := epochCalendar
  ips := ipv4Format
  jwt := clientJwt []
  ed25519 := (clientEnv [] 1800 180000).ed25519
  validatorRole := 2
  accessTokenTtl := 1800 * nanosPerSecond
  refreshTokenTtl := 180000 * nanosPerSecond
  challengeTtl := 1800 * nanosPerSecond

/-- The step function of that server. -/
abbrev floodStep : AuthState UInt32 → AuthLabel UInt32 → Option (AuthState UInt32) :=
  authStep floodEnv (fun _ => none) ⟨∅, 4, true, 5⟩

/-- The start of a healthy server that accepts the clients. -/
abbrev floodStart : AuthState UInt32 := AuthState.init .healthy fun key => key = uniformKey 7

/-- Request number `i` comes from address `i`. -/
def floodRequest (i : Nat) : ChallengeRequest UInt32 :=
  ⟨some (UInt32.ofNat i), 2, (uniformKey 7).bytes⟩

/-- Request number `i` arrives, passes the comparison and looks its client up. -/
def floodComparison (i : Nat) : List (AuthLabel UInt32) :=
  [ .challengeRequest i (floodRequest i)
  , .challengeLen i
  , .challengeGet i (clockAt (second 0)) otherToken ]

/-- The first `n` requests pass the comparison, and then they push. -/
def floodRun (n : Nat) : List (AuthLabel UInt32) :=
  (List.range n).flatMap floodComparison ++ (List.range n).map .challengePush

/-- The push of request number `i`. -/
def floodPush (i : Nat) : PendingPush UInt32 where
  ip := UInt32.ofNat i
  challenge :=
    { challenge := otherToken.text
      accessClaims := ⟨UInt32.ofNat i, uniformKey 7, second 0 + (1800 * nanosPerSecond : Nat)⟩
      refreshClaims := ⟨UInt32.ofNat i, uniformKey 7, second 0 + (180000 * nanosPerSecond : Nat)⟩
      expiresAtUtc := second 0 + (1800 * nanosPerSecond : Nat) }
  clock := clockAt (second 0)
  verdict := true
  autherVersion := 0

theorem challengeAfterGetPriority_flood (i : Nat) :
    challengeAfterGetPriority floodEnv (fun key => decide (key = uniformKey 7)) none
      (clockAt (second 0)) otherToken (UInt32.ofNat i) (floodRequest i) =
      .ok (.push (floodPush i).challenge) := by
  have hkey : Pubkey.tryFrom (uniformKey 7).bytes = some (uniformKey 7) := by decide
  have hbytes : (uniformKey 7).bytes.length = pubkeyBytes := by decide
  have hexpiry : ∀ ttl : Nat, expiry floodEnv (second 0) ttl = .ok (second 0 + ttl) := by
    intro ttl
    rw [expiry_eq_ok_iff]
    refine ⟨?_, rfl⟩
    have hpos : 0 ≤ second 0 := by decide
    exact decide_eq_true (by omega)
  simp only [challengeAfterGetPriority, newChallenge, Option.filter_none, bind_eq_ok_iff,
    ensure_eq_ok_iff, okOr_eq_ok_iff, pure_eq_ok_iff]
  refine ⟨_, ⟨(), rfl, (), hbytes, uniformKey 7, hkey, (), by simp, _, hexpiry _, _, hexpiry _, _,
    hexpiry _, rfl⟩, rfl⟩

/-- The server as it starts, but for the requests in flight. -/
def floodedWith (calls : Calls UInt32) : AuthState UInt32 := { floodStart with calls }

theorem wait_floodedWith (calls : Calls UInt32) (n : Nat) (call call' : Call UInt32) :
    (floodedWith (calls.insert n call)).wait n call' = floodedWith (calls.insert n call') :=
  congrArg floodedWith (AList.insert_insert calls)

theorem floodStep_arrives {calls : Calls UInt32} {n : Nat} (hfresh : calls.lookup n = none) :
    floodStep (floodedWith calls) (.challengeRequest n (floodRequest n)) =
      some (floodedWith (calls.insert n (.challengeLen (floodRequest n)))) := by
  simp only [authStep, AuthLabel.request, floodedWith, hfresh]
  rfl

theorem floodStep_compares (calls : Calls UInt32) (n : Nat) :
    floodStep (floodedWith (calls.insert n (.challengeLen (floodRequest n))))
        (.challengeLen n) =
      some (floodedWith
        (calls.insert n (.challengeGet (UInt32.ofNat n) (floodRequest n)))) := by
  have hpasses : challengeAfterLen (floodStart).challenges.len (floodRequest n) =
      .ok (UInt32.ofNat n) := rfl
  simp only [authStep, AuthLabel.request, floodedWith, AList.lookup_insert, callStep, hpasses]
  exact congrArg some (wait_floodedWith calls n _ _)

theorem floodStep_gets (calls : Calls UInt32) (n : Nat) :
    floodStep
        (floodedWith (calls.insert n (.challengeGet (UInt32.ofNat n) (floodRequest n))))
        (.challengeGet n (clockAt (second 0)) otherToken) =
      some (floodedWith (calls.insert n (.challengePush (floodPush n)))) := by
  have hnone : (floodStart).challenges.getPriority (UInt32.ofNat n) = none := rfl
  simp only [authStep, AuthLabel.request, floodedWith, AList.lookup_insert, callStep, hnone,
    Option.map_none]
  have hdecision := challengeAfterGetPriority_flood n
  simp only [AuthState.init, hdecision]
  exact congrArg some (wait_floodedWith calls n _ _)

/-- The requests in flight after the first `n` have passed the comparison. -/
def floodCalls : Nat → Calls UInt32
  | 0 => ∅
  | n + 1 => (floodCalls n).insert n (.challengePush (floodPush n))

theorem lookup_floodCalls (n i : Nat) :
    (floodCalls n).lookup i = if i < n then some (.challengePush (floodPush i)) else none := by
  induction n with
  | zero => rfl
  | succ n ih =>
    rw [floodCalls]
    by_cases hi : i = n
    · subst hi
      rw [if_pos (Nat.lt_succ_self i), AList.lookup_insert]
    · have hiff : i < n + 1 ↔ i < n := by omega
      rw [AList.lookup_insert_ne hi, ih]
      simp only [hiff]

/-- Any number of requests pass the comparison of the empty store, and none of them finds a
challenge of its client. -/
theorem runSteps_floodComparisons (n : Nat) :
    runSteps floodStep floodStart ((List.range n).flatMap floodComparison) =
      some (floodedWith (floodCalls n)) := by
  induction n with
  | zero => rfl
  | succ n ih =>
    have hfresh : (floodCalls n).lookup n = none := by
      rw [lookup_floodCalls, if_neg (Nat.lt_irrefl n)]
    rw [List.range_succ, List.flatMap_append, runSteps_append, ih]
    simp only [List.flatMap_cons, List.flatMap_nil, List.append_nil, floodComparison,
      Option.bind_some, runSteps_cons, runSteps_nil, floodStep_arrives hfresh,
      floodStep_compares, floodStep_gets, floodCalls]

/-- The state after the first `k` of `n` requests have pushed. -/
structure Pushed (n k : Nat) (s : AuthState UInt32) : Prop where
  len : s.challenges.len = k
  keys : ∀ ip ∈ s.challenges, ∃ i < k, ip = UInt32.ofNat i
  calls : ∀ i, k ≤ i → i < n → s.calls.lookup i = some (.challengePush (floodPush i))

/-- Each request pushes under an address of its own. -/
theorem Pushed.step {n k : Nat} {s : AuthState UInt32} (hpushed : Pushed n k s) (hk : k < n)
    (hn : n ≤ 2 ^ 32) :
    ∃ s', floodStep s (.challengePush k) = some s' ∧ Pushed n (k + 1) s' := by
  have hcall := hpushed.calls k (Nat.le_refl k) hk
  have hstep : floodStep s (.challengePush k) =
      some ((s.pushChallenge (floodPush k)).settle k
        (.challenge (UInt32.ofNat k) otherToken.text)) := by
    simp only [authStep, AuthLabel.request, hcall]
    rfl
  refine ⟨_, hstep, ⟨?_, ?_, ?_⟩⟩
  · have hfresh : UInt32.ofNat k ∉ s.challenges := by
      intro hmem
      obtain ⟨i, hi, heq⟩ := hpushed.keys _ hmem
      have hsize : n ≤ UInt32.size := hn
      have hnat := congrArg UInt32.toNat heq
      rw [UInt32.toNat_ofNat_of_lt' (by omega), UInt32.toNat_ofNat_of_lt' (by omega)] at hnat
      omega
    change (s.challenges.insert (UInt32.ofNat k) _).entries.length = k + 1
    rw [AList.entries_insert_of_notMem hfresh, List.length_cons]
    exact congrArg (· + 1) hpushed.len
  · intro ip hmem
    rcases (AList.mem_insert _).mp hmem with rfl | hold
    · exact ⟨k, Nat.lt_succ_self k, rfl⟩
    · obtain ⟨i, hi, heq⟩ := hpushed.keys ip hold
      exact ⟨i, Nat.lt_succ_of_lt hi, heq⟩
  · intro i hki hin
    have hne : i ≠ k := by omega
    exact (AList.lookup_erase_ne hne).trans (hpushed.calls i (by omega) hin)

theorem runSteps_floodPushes {n : Nat} (hn : n ≤ 2 ^ 32) :
    ∀ k ≤ n, ∃ s, runSteps floodStep (floodedWith (floodCalls n))
      ((List.range k).map .challengePush) = some s ∧ Pushed n k s := by
  intro k
  induction k with
  | zero =>
    intro _
    refine ⟨_, rfl, ⟨rfl, ?_, ?_⟩⟩
    · intro ip hmem
      exact absurd hmem (AList.notMem_empty ip)
    · intro i _ hi
      exact (lookup_floodCalls n i).trans (if_pos hi)
  | succ k ih =>
    intro hk
    obtain ⟨s, hs, hpushed⟩ := ih (by omega)
    obtain ⟨s', hs', hpushed'⟩ := hpushed.step hk hn
    refine ⟨s', ?_, hpushed'⟩
    rw [List.range_succ, List.map_append, List.map_singleton, runSteps_concat, hs]
    exact hs'

/-- As many challenges are stored as requests have passed the comparison. -/
theorem exists_flood {n : Nat} (hn : n ≤ 2 ^ 32) :
    ∃ s, runSteps floodStep floodStart (floodRun n) = some s ∧ s.challenges.len = n := by
  obtain ⟨s, hs, hpushed⟩ := runSteps_floodPushes hn n (Nat.le_refl n)
  refine ⟨s, ?_, hpushed.len⟩
  rw [floodRun, runSteps_append, runSteps_floodComparisons]
  exact hs

/-- One request more than the capacity passes the comparison while the store is empty, and
then all of them push. -/
theorem challenge_store_overfull :
    ¬ ∀ (ls : List (AuthLabel UInt32)) (s : AuthState UInt32),
      runSteps floodStep floodStart ls = some s →
      s.challenges.len ≤ authChallengesCapacity ∧ s.challenges.keys.Nodup := by
  intro hall
  have hn : authChallengesCapacity + 1 ≤ 2 ^ 32 := by decide
  obtain ⟨s, hs, hlen⟩ := exists_flood hn
  have hbound := (hall _ s hs).1
  omega

end FlowraRelayer.Relayer
