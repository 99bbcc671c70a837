/-
  TransactionRelayer/OfacPolicy.lean --- what "the transaction will be dropped" comes to.

  `--ofac-addresses` promises that a transaction that mentions one of the addresses
  is dropped.  A transaction mentions the addresses its positions select in lookup
  tables on chain; the relayer looks them up in its cache.  Both outgoing paths drop
  a packet exactly if they can see the mention, and a table that is not in the cache,
  or that grew since it was cached, hides it (`dropped_iff_mention_visible`).
-/
import FlowraRelayer.TransactionRelayer.LookupTables
import FlowraRelayer.TransactionRelayer.PathAgreement

set_option autoImplicit false

namespace FlowraRelayer.TransactionRelayer

open FlowraRelayer.Foundation
open FlowraRelayer.Solana
open FlowraRelayer.Protos
open FlowraRelayer.Core
open FlowraRelayer.Relayer
open FlowraRelayer.BlockEngine

/-! ## The two outgoing paths -/

/-- A packet both paths may let out: not discarded, and deserialising to a
transaction the OFAC check has nothing against. -/
def Cleared (decode : List UInt8 → Option VersionedTransaction) (ofacAddresses : Finset Pubkey)
    (cache : LookupTableCache) (p : Packet) : Prop :=
  p.discard = false ∧
    ∃ tx, p.deserializeSlice decode = some tx ∧ isTxOfacRelated tx ofacAddresses cache = false

/-- Packets with the same wire form are cleared together. -/
theorem cleared_congr {decode : List UInt8 → Option VersionedTransaction}
    {ofacAddresses : Finset Pubkey} {cache : LookupTableCache} {p p' : Packet} {q : ProtoPacket}
    (hp : packetToProtoPacket p = some q) (hp' : packetToProtoPacket p' = some q)
    (h : Cleared decode ofacAddresses cache p) : Cleared decode ofacAddresses cache p' := by
  have hdata : p.data = p'.data :=
    (packetToProtoPacket_data hp).trans (packetToProtoPacket_data hp').symm
  have hdiscard : p.discard = p'.discard := packetToProtoPacket_discard hp hp'
  obtain ⟨hkept, tx, htx, hofac⟩ := h
  refine ⟨hdiscard ▸ hkept, tx, ?_, hofac⟩
  unfold Packet.deserializeSlice at htx ⊢
  rw [← hdata]
  exact htx

/-- With a nonempty OFAC set, whatever validators are shown is cleared. -/
theorem cleared_of_mem_filterForwardable {decode : List UInt8 → Option VersionedTransaction}
    {ofacAddresses : Finset Pubkey} (hofac : ofacAddresses ≠ ∅) {cache : LookupTableCache}
    {batch : BankingPacketBatch} {q : ProtoPacket}
    (hq : q ∈ filterForwardable decode ofacAddresses cache batch) :
    ∃ p, packetToProtoPacket p = some q ∧ Cleared decode ofacAddresses cache p := by
  rw [filterForwardable_eq] at hq
  obtain ⟨p, hp, hproto⟩ := List.mem_filterMap.mp hq
  obtain ⟨hkept, htx⟩ := of_decide_eq_true (List.mem_filter.mp hp).2
  exact ⟨p, hproto, hkept, htx hofac⟩

section BlockEnginePath

variable {timed : TimedCache Pubkey} {cfg : FilterConfig} {now : Time} {cache : LookupTableCache}
  {q : ProtoPacket}

/-- Everything `filter_packets` lets out is cleared: validators are shown it too. -/
theorem mem_filterPackets (hofac : cfg.ofacAddresses ≠ ∅) {batches : BlockEnginePackets}
    {s : InterestState timed} {out : ExpiringPacketBatch}
    (hout : (filterPackets cfg now batches cache s).1 = some out) (hq : q ∈ out.packets) :
    ∃ p, packetToProtoPacket p = some q ∧ Cleared cfg.decode cfg.ofacAddresses cache p := by
  have hpackets : (filterBatches cfg now cache batches.bankingPacketBatch s).1 = out.packets := by
    rw [← packetsOf_filterPackets, hout]
    rfl
  have hmem : q ∈ (filterBatches cfg now cache batches.bankingPacketBatch s).1 := by
    rw [hpackets]
    exact hq
  exact cleared_of_mem_filterForwardable hofac ((filterBatches_sublist _ s).subset hmem)

/-- With the wildcard set, `filter_packets` lets a cleared packet out. -/
theorem filterPackets_of_cleared {p : Packet} (hp : packetToProtoPacket p = some q)
    (h : Cleared cfg.decode cfg.ofacAddresses cache p) (s : InterestState timed)
    (hall : s.forwardAll = true) :
    (filterPackets cfg now ⟨[[p]], 0, 0⟩ cache s).1 = some ⟨0, [q], 0⟩ := by
  obtain ⟨hkept, tx, htx, hofac⟩ := h
  have hinterest : isOfInterest now tx cache s = (true, s) := by simp [isOfInterest, hall]
  have hforwardable : isForwardable cfg now tx cache s = (true, s) := by
    unfold isForwardable
    simp [hinterest, hofac]
  have hpacket : filterPacket cfg now cache p s = ([q], s) := by
    simp [filterPacket, hkept, htx, hforwardable, hp]
  simp [filterPackets, filterBatches, filterBatch, hpacket]

end BlockEnginePath

/-- Everything `forward_packets` of the relayer sends in a packet event is cleared. -/
theorem mem_packetOffers {decode : List UInt8 → Option VersionedTransaction} {cfg : LoopConfig}
    (hofac : cfg.ofacAddresses ≠ ∅) (hsize : cfg.validatorPacketBatchSize ≠ 0) {s : LoopState}
    {batches : RelayerPacketBatches} {cache : LookupTableCache} {order : List Pubkey}
    {env : ForwardEnv} {offer : Offer} {packets : List ProtoPacket} {q : ProtoPacket}
    (hoffer : offer ∈ packetOffers decode cfg s batches cache order env)
    (hpackets : offer.packets? = some packets) (hq : q ∈ packets) :
    ∃ p, packetToProtoPacket p = some q ∧ Cleared decode cfg.ofacAddresses cache p := by
  obtain ⟨piece, hpiece, heq⟩ := packets?_of_mem_batchOffers _ _ hoffer
  rw [hpackets] at heq
  cases heq
  have hpos : 1 ≤ cfg.validatorPacketBatchSize.toNat := by
    rcases Nat.eq_zero_or_pos cfg.validatorPacketBatchSize.toNat with hzero | hpos
    · exact absurd (UInt64.toNat_inj.mp hzero) hsize
    · exact hpos
  have hmem : q ∈ filterForwardable decode cfg.ofacAddresses cache batches.bankingPacketBatch := by
    have hflatten := (isChunking_chunks hpos
      (filterForwardable decode cfg.ofacAddresses cache batches.bankingPacketBatch)).flatten_eq
    rw [← hflatten]
    exact List.mem_flatten.mpr ⟨packets, hpiece, hq⟩
  exact cleared_of_mem_filterForwardable hofac hmem

/-! ## The promise -/

/-- Neither outgoing path lets the packet out, whatever batch it comes in: not
`filter_packets` in any state of interest, and not `forward_packets` in any state of
the event loop. -/
structure Dropped (decode : List UInt8 → Option VersionedTransaction)
    (ofacAddresses : Finset Pubkey) (cache : LookupTableCache) (p : Packet) : Prop where
  block_engine : ∀ (timed : TimedCache Pubkey) (now : Time) (batches : BlockEnginePackets)
    (s : InterestState timed) (out : ExpiringPacketBatch) (q : ProtoPacket),
    p ∈ batches.bankingPacketBatch.flatten →
    (filterPackets ⟨decode, ofacAddresses⟩ now batches cache s).1 = some out →
    packetToProtoPacket p = some q → q ∉ out.packets
  validators : ∀ (cfg : LoopConfig) (s s' : LoopState) (batches : RelayerPacketBatches)
    (order : List Pubkey) (env : ForwardEnv) (offer : Offer) (packets : List ProtoPacket)
    (q : ProtoPacket), cfg.ofacAddresses = ofacAddresses →
    p ∈ batches.bankingPacketBatch.flatten →
    eventStep decode cfg s (.packets (some batches) cache order env) = some s' →
    offer ∈ s'.offers.drop s.offers.length → offer.packets? = some packets →
    packetToProtoPacket p = some q → q ∉ packets

/-- The mention the relayer can see: a static key, or a position that selects an
address in what the cache holds for a named table. -/
def VisibleMention (ofacAddresses : Finset Pubkey) (cache : LookupTableCache)
    (tx : VersionedTransaction) : Prop :=
  (∃ acc ∈ tx.message.staticAccountKeys, acc ∈ ofacAddresses) ∨
    ∃ table ∈ tx.message.addressTableLookups.getD [], ∃ lookupInfo,
      cache table.accountKey = some lookupInfo ∧
        ∃ idx ∈ table.writableIndexes ++ table.readonlyIndexes, ∃ account,
          lookupInfo.addresses[idx.toNat]? = some account ∧ account ∈ ofacAddresses

theorem isTxOfacRelated_iff_visible (tx : VersionedTransaction) (ofacAddresses : Finset Pubkey)
    (cache : LookupTableCache) :
    isTxOfacRelated tx ofacAddresses cache = true ↔ VisibleMention ofacAddresses cache tx := by
  rw [isTxOfacRelated_iff, resolvedAccounts, mentions_append, VisibleMention]
  refine or_congr ?_ ?_
  · rw [← isOfacAddressInStaticKeys_iff]
    simp [isOfacAddressInStaticKeys]
  · rw [mentions_lookupAccounts_iff]
    refine exists_congr fun table => and_congr_right fun _ => ?_
    rw [mentions_tableAccounts_iff]
    simp only [LookupTableCache.tables]
    cases cache table.accountKey with
    | none => simp
    | some lookupInfo => simp only [Option.map_some, Option.some.injEq, exists_eq_left']

/-- What is not cleared is dropped. -/
theorem dropped_of_not_cleared {decode : List UInt8 → Option VersionedTransaction}
    {ofacAddresses : Finset Pubkey} (hofac : ofacAddresses ≠ ∅) {cache : LookupTableCache}
    {p : Packet} (h : ¬ Cleared decode ofacAddresses cache p) :
    Dropped decode ofacAddresses cache p where
  block_engine := by
    intro timed now batches s out q _ hout hp hq
    obtain ⟨p', hp', hcleared⟩ := mem_filterPackets hofac hout hq
    exact h (cleared_congr hp' hp hcleared)
  validators := by
    intro cfg s s' batches order env offer packets q hcfg _ hstep hoffer hpackets hp hq
    subst hcfg
    rcases eventStep_cases hstep with ⟨_, _, hev, _⟩ | ⟨batches', cache', order', env', hev, hsize, _, rfl⟩ |
      ⟨_, _, hev, _⟩ | ⟨_, _, hev, _⟩ | ⟨_, _, hev, _⟩ | ⟨hev, _⟩
    all_goals cases hev
    have hnew : offer ∈ packetOffers decode cfg s batches cache order env := by
      simpa [dropConnections, applyAll_eq] using hoffer
    obtain ⟨p', hp', hcleared⟩ := mem_packetOffers hofac hsize hnew hpackets hq
    exact h (cleared_congr hp' hp hcleared)

/-- What is cleared can be let out. -/
theorem not_dropped_of_cleared {decode : List UInt8 → Option VersionedTransaction}
    {ofacAddresses : Finset Pubkey} {cache : LookupTableCache} {p : Packet}
    (h : Cleared decode ofacAddresses cache p) : ¬ Dropped decode ofacAddresses cache p := by
  intro hdropped
  have hcleared := h
  obtain ⟨_, tx, htx, _⟩ := hcleared
  have hdata : p.data.isSome = true := by
    cases hd : p.data with
    | none => simp [Packet.deserializeSlice, hd] at htx
    | some data => rfl
  obtain ⟨q, hq⟩ := Option.isSome_iff_exists.mp ((isSome_packetToProtoPacket p).trans hdata)
  have hout : (filterPackets ⟨decode, ofacAddresses⟩ 0 ⟨[[p]], 0, 0⟩ cache wildcardInterest).1 =
      some ⟨0, [q], 0⟩ := filterPackets_of_cleared hq h wildcardInterest rfl
  exact hdropped.block_engine _ _ _ _ _ q (by simp) hout hq (by simp)

/-- The promise of `--ofac-addresses`, for a packet that deserialises to `tx`, the
tables `chain` and any cache a history of refreshes leaves: a mention is dropped
exactly if the packet is discarded anyway, nothing is mentioned, or the mention is
visible. -/
theorem dropped_iff_mention_visible (decode : List UInt8 → Option VersionedTransaction)
    (deserialize : List UInt8 → Option (List Pubkey)) (ofacAddresses : Finset Pubkey)
    (hofac : ofacAddresses ≠ ∅) (p : Packet) (tx : VersionedTransaction)
    (htx : p.deserializeSlice decode = some tx) (chain : Pubkey → Option (List Pubkey))
    (history : List ProgramAccounts) :
    (Mentions ofacAddresses (resolvedAccounts chain tx.message) →
        Dropped decode ofacAddresses (cacheAfter deserialize history) p) ↔
      p.discard = true ∨ ¬ Mentions ofacAddresses (resolvedAccounts chain tx.message) ∨
        VisibleMention ofacAddresses (cacheAfter deserialize history) tx := by
  have hcleared : Cleared decode ofacAddresses (cacheAfter deserialize history) p ↔
      p.discard = false ∧ ¬ VisibleMention ofacAddresses (cacheAfter deserialize history) tx := by
    rw [← isTxOfacRelated_iff_visible]
    simp [Cleared, htx]
  constructor
  · intro hpromise
    by_cases hmention : Mentions ofacAddresses (resolvedAccounts chain tx.message)
    · by_contra hnone
      simp only [not_or, Bool.not_eq_true] at hnone
      exact not_dropped_of_cleared (hcleared.mpr ⟨hnone.1, hnone.2.2⟩) (hpromise hmention)
    · exact .inr (.inl hmention)
  · intro hwhen hmention
    refine dropped_of_not_cleared hofac fun hc => ?_
    obtain ⟨hkept, hhidden⟩ := hcleared.mp hc
    rcases hwhen with hdiscard | hnot | hvisible
    · rw [hkept] at hdiscard
      cases hdiscard
    · exact hnot hmention
    · exact hhidden hvisible

/-! ## A table the relayer never fetched -/

/-- A transaction with the given static keys that selects the first address of the
table `uniformKey 2`. -/
def lookupTransaction (staticAccountKeys : List Pubkey) : VersionedTransaction :=
  ⟨⟨staticAccountKeys, some [⟨uniformKey 2, [0], []⟩], fun _ => true⟩⟩

/-- On chain the table holds the address `uniformKey 3`. -/
def chainTables (key : Pubkey) : Option (List Pubkey) :=
  if key = uniformKey 2 then some [uniformKey 3] else none

theorem mention_hidden_without_refresh :
    ¬ ∀ (decode : List UInt8 → Option VersionedTransaction)
      (deserialize : List UInt8 → Option (List Pubkey)) (ofacAddresses : Finset Pubkey) (p : Packet)
      (tx : VersionedTransaction) (chain : Pubkey → Option (List Pubkey))
      (history : List ProgramAccounts), ofacAddresses ≠ ∅ → p.deserializeSlice decode = some tx →
      Mentions ofacAddresses (resolvedAccounts chain tx.message) →
      Dropped decode ofacAddresses (cacheAfter deserialize history) p := by
  intro hall
  -- the default: no refresh at all
  have hdropped := hall (fun _ => some (lookupTransaction [uniformKey 1])) (fun _ => none)
    {uniformKey 3} (oneBytePacket 1) (lookupTransaction [uniformKey 1]) chainTables [] (by simp) rfl
    ⟨(uniformKey 3, true), by decide, by simp⟩
  refine not_dropped_of_cleared ?_ hdropped
  exact ⟨rfl, lookupTransaction [uniformKey 1], rfl, by decide⟩

/-- The same transaction once the table has been fetched. -/
theorem dropped_iff_mention_visible_refreshed :
    Dropped (fun _ => some (lookupTransaction [uniformKey 1])) {uniformKey 3}
      (cacheAfter (fun _ => some [uniformKey 3]) [none, some [(uniformKey 2, [])]])
      (oneBytePacket 1) := by
  have hiff := dropped_iff_mention_visible (fun _ => some (lookupTransaction [uniformKey 1]))
    (fun _ => some [uniformKey 3]) {uniformKey 3} (by simp) (oneBytePacket 1)
    (lookupTransaction [uniformKey 1]) rfl chainTables [none, some [(uniformKey 2, [])]]
  refine hiff.mpr (.inr (.inr (.inr ⟨⟨uniformKey 2, [0], []⟩, by decide, ⟨uniformKey 2, [uniformKey 3]⟩,
    by decide, 0, by decide, uniformKey 3, by decide, by simp⟩))) ⟨(uniformKey 3, true), by decide, by simp⟩

end FlowraRelayer.TransactionRelayer
