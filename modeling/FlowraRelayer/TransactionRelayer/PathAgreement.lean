/-
  TransactionRelayer/PathAgreement.lean --- the two outgoing paths compared.

  `filter_packets` of the block engine handler is a pair of nested loops that threads
  the interest caches; the filter of the relayer's `forward_packets` is a chain of
  iterators.  Packet by packet the first shows the block engine what the second shows
  validators, or nothing (`filterPacket_sublist`), so on the same inputs the block engine
  gets a sublist of what validators get, whatever the block engine is interested in
  (`outgoing_paths_agree`).
-/
import FlowraRelayer.BlockEngine.Interest
import FlowraRelayer.Relayer.StreamExactness

set_option autoImplicit false

namespace FlowraRelayer.TransactionRelayer

open FlowraRelayer.Foundation
open FlowraRelayer.Solana
open FlowraRelayer.Protos
open FlowraRelayer.Core
open FlowraRelayer.Relayer
open FlowraRelayer.BlockEngine

/-- The packets of what `filter_packets` returns. -/
def packetsOf (out : Option ExpiringPacketBatch) : List ProtoPacket :=
  (out.map (·.packets)).getD []

/-- The packet deserialises as a `VersionedTransaction`. -/
def deserializes (decode : List UInt8 → Option VersionedTransaction) (p : Packet) : Bool :=
  (p.deserializeSlice decode).isSome

/-- What validators are shown of one packet. -/
def shown (decode : List UInt8 → Option VersionedTransaction) (ofacAddresses : Finset Pubkey)
    (cache : LookupTableCache) (p : Packet) : List ProtoPacket :=
  if Forwardable decode ofacAddresses cache p then (packetToProtoPacket p).toList else []

/-- The filter of `forward_packets`, packet by packet. -/
theorem filterForwardable_eq_shown (decode : List UInt8 → Option VersionedTransaction)
    (ofacAddresses : Finset Pubkey) (cache : LookupTableCache) (batch : BankingPacketBatch) :
    filterForwardable decode ofacAddresses cache batch =
      batch.flatMap fun packets => packets.flatMap (shown decode ofacAddresses cache) := by
  have hpackets : ∀ packets : List Packet,
      (packets.filter fun p => decide (Forwardable decode ofacAddresses cache p)).filterMap
        packetToProtoPacket = packets.flatMap (shown decode ofacAddresses cache) := by
    intro packets
    induction packets with
    | nil => rfl
    | cons p rest ih =>
      rw [List.flatMap_cons, ← ih]
      by_cases hforwardable : Forwardable decode ofacAddresses cache p
      · cases hproto : packetToProtoPacket p <;> simp [shown, hforwardable, hproto]
      · simp [shown, hforwardable]
  unfold filterForwardable
  simp only [filterMap_passOfac, hpackets]

/-! ## One packet -/

section OnePacket

variable {timed : TimedCache Pubkey} {cfg : FilterConfig} {now : Time} {cache : LookupTableCache}

/-- A packet that deserialises and that the block engine may see is one validators see. -/
theorem forwardable_of_isForwardable {packet : Packet} {tx : VersionedTransaction}
    {s : InterestState timed} (hkept : packet.discard = false)
    (htx : packet.deserializeSlice cfg.decode = some tx)
    (hforwardable : (isForwardable cfg now tx cache s).1 = true) :
    Forwardable cfg.decode cfg.ofacAddresses cache packet := by
  refine ⟨hkept, fun hofac => ⟨tx, htx, ?_⟩⟩
  unfold isForwardable at hforwardable
  rw [if_neg hofac] at hforwardable
  split at hforwardable
  · cases hforwardable
  · rename_i hunrelated
    simpa using hunrelated

/-- Of one packet the block engine is shown what validators are shown, or nothing. -/
theorem filterPacket_sublist (packet : Packet) (s : InterestState timed) :
    List.Sublist (filterPacket cfg now cache packet s).1
      (shown cfg.decode cfg.ofacAddresses cache packet) := by
  unfold filterPacket
  split
  · exact List.nil_sublist _
  · rename_i hkept
    split
    · exact List.nil_sublist _
    · rename_i tx htx
      dsimp only
      split
      · rename_i hforwardable
        have hshown := forwardable_of_isForwardable (by simpa using hkept) htx hforwardable
        rw [shown, if_pos hshown]
      · exact List.nil_sublist _

/-- With the wildcard set, every transaction that validators are shown is shown to the
block engine, and the interest caches are not read. -/
theorem filterPacket_of_forwardAll (packet : Packet) {s : InterestState timed}
    (hall : s.forwardAll = true) :
    filterPacket cfg now cache packet s =
      (if deserializes cfg.decode packet then shown cfg.decode cfg.ofacAddresses cache packet
        else [], s) := by
  cases hdiscard : packet.discard with
  | true => simp [filterPacket, shown, Forwardable, hdiscard]
  | false =>
    cases htx : packet.deserializeSlice cfg.decode with
    | none => simp [filterPacket, deserializes, hdiscard, htx]
    | some tx =>
      have hinterest : isOfInterest now tx cache s = (true, s) := by simp [isOfInterest, hall]
      by_cases hofac : cfg.ofacAddresses = ∅
      · simp [filterPacket, deserializes, shown, Forwardable, isForwardable, hdiscard, htx,
          hinterest, hofac]
      · cases hrelated : isTxOfacRelated tx cfg.ofacAddresses cache <;>
          simp [filterPacket, deserializes, shown, Forwardable, isForwardable, hdiscard, htx,
            hinterest, hofac, hrelated]

/-- With a nonempty OFAC set validators are shown only what deserialises. -/
theorem shown_of_not_deserializes (hofac : cfg.ofacAddresses ≠ ∅) {packet : Packet}
    (hnot : deserializes cfg.decode packet = false) :
    shown cfg.decode cfg.ofacAddresses cache packet = [] := by
  unfold shown
  rw [if_neg]
  rintro ⟨-, htx⟩
  obtain ⟨tx, htx, -⟩ := htx hofac
  simp [deserializes, htx] at hnot

/-! ## The two loops -/

theorem filterBatch_sublist :
    ∀ (batch : List Packet) (s : InterestState timed),
      List.Sublist (filterBatch cfg now cache batch s).1
        (batch.flatMap (shown cfg.decode cfg.ofacAddresses cache)) := by
  intro batch
  induction batch with
  | nil =>
    intro s
    exact List.Sublist.slnil
  | cons packet rest ih =>
    intro s
    exact (filterPacket_sublist packet s).append (ih _)

theorem filterBatches_sublist :
    ∀ (batches : BankingPacketBatch) (s : InterestState timed),
      List.Sublist (filterBatches cfg now cache batches s).1
        (filterForwardable cfg.decode cfg.ofacAddresses cache batches) := by
  intro batches
  induction batches with
  | nil =>
    intro s
    exact List.nil_sublist _
  | cons batch rest ih =>
    intro s
    rw [filterForwardable_eq_shown, List.flatMap_cons, ← filterForwardable_eq_shown]
    exact (filterBatch_sublist batch s).append (ih _)

theorem filterBatch_of_forwardAll {s : InterestState timed} (hall : s.forwardAll = true) :
    ∀ batch : List Packet,
      filterBatch cfg now cache batch s =
        ((batch.filter (deserializes cfg.decode)).flatMap
          (shown cfg.decode cfg.ofacAddresses cache), s) := by
  intro batch
  induction batch with
  | nil => rfl
  | cons packet rest ih =>
    simp only [filterBatch, filterPacket_of_forwardAll packet hall, ih]
    by_cases hpacket : deserializes cfg.decode packet = true
    · simp [hpacket]
    · simp [hpacket]

/-- With the wildcard set, the block engine is shown what validators would be shown of the
packets that deserialise. -/
theorem filterBatches_of_forwardAll {s : InterestState timed} (hall : s.forwardAll = true) :
    ∀ batches : BankingPacketBatch,
      filterBatches cfg now cache batches s =
        (filterForwardable cfg.decode cfg.ofacAddresses cache
          (batches.map (List.filter (deserializes cfg.decode))), s) := by
  intro batches
  induction batches with
  | nil => rfl
  | cons batch rest ih =>
    simp only [filterBatches, filterBatch_of_forwardAll hall, ih, filterForwardable_eq_shown,
      List.map_cons, List.flatMap_cons]

/-- With a nonempty OFAC set the packets that do not deserialise make no difference. -/
theorem filterForwardable_filter_deserializes (hofac : cfg.ofacAddresses ≠ ∅)
    (batches : BankingPacketBatch) :
    filterForwardable cfg.decode cfg.ofacAddresses cache
        (batches.map (List.filter (deserializes cfg.decode))) =
      filterForwardable cfg.decode cfg.ofacAddresses cache batches := by
  have hpackets : ∀ packets : List Packet,
      (packets.filter (deserializes cfg.decode)).flatMap
          (shown cfg.decode cfg.ofacAddresses cache) =
        packets.flatMap (shown cfg.decode cfg.ofacAddresses cache) := by
    intro packets
    induction packets with
    | nil => rfl
    | cons packet rest ih =>
      rw [List.flatMap_cons, ← ih]
      by_cases hpacket : deserializes cfg.decode packet = true
      · simp [hpacket]
      · rw [Bool.not_eq_true] at hpacket
        simp [hpacket, shown_of_not_deserializes hofac hpacket]
  simp only [filterForwardable_eq_shown, List.flatMap_map, hpackets]

end OnePacket

theorem packetsOf_filterPackets {timed : TimedCache Pubkey} (cfg : FilterConfig) (now : Time)
    (batches : BlockEnginePackets) (cache : LookupTableCache) (s : InterestState timed) :
    packetsOf (filterPackets cfg now batches cache s).1 =
      (filterBatches cfg now cache batches.bankingPacketBatch s).1 := by
  unfold filterPackets
  dsimp only
  split
  · rename_i hempty
    rw [hempty]
    rfl
  · rfl

/-- On the same batch, OFAC set and lookup tables, in every state of interest, the block
engine gets a sublist of what validators get.  With the wildcard set it gets the same list if
the OFAC set is not empty, and otherwise what deserialises of it. -/
theorem outgoing_paths_agree (timed : TimedCache Pubkey) (cfg : FilterConfig) (now : Time)
    (batches : BlockEnginePackets) (cache : LookupTableCache) (s : InterestState timed) :
    List.Sublist (packetsOf (filterPackets cfg now batches cache s).1)
        (filterForwardable cfg.decode cfg.ofacAddresses cache batches.bankingPacketBatch) ∧
      (s.forwardAll = true → cfg.ofacAddresses ≠ ∅ →
        packetsOf (filterPackets cfg now batches cache s).1 =
          filterForwardable cfg.decode cfg.ofacAddresses cache batches.bankingPacketBatch) ∧
      (s.forwardAll = true → cfg.ofacAddresses = ∅ →
        packetsOf (filterPackets cfg now batches cache s).1 =
          filterForwardable cfg.decode cfg.ofacAddresses cache
            (batches.bankingPacketBatch.map (List.filter (deserializes cfg.decode)))) := by
  rw [packetsOf_filterPackets]
  refine ⟨filterBatches_sublist _ s, ?_, ?_⟩
  · intro hall hofac
    rw [filterBatches_of_forwardAll hall, filterForwardable_filter_deserializes hofac]
  · intro hall _
    rw [filterBatches_of_forwardAll hall]

/-- A connection on which the block engine has announced the wildcard. -/
def wildcardInterest : InterestState (mapCache Pubkey) :=
  { InterestState.new (mapCache Pubkey) 300 with forwardAll := true }

/-- Only the byte 1 decodes; no address is under sanctions. -/
def oneDecodes : FilterConfig where
  decode data := if data = [1] then some ⟨⟨[uniformKey 1], none, fun _ => true⟩⟩ else none
  ofacAddresses := ∅

/-- A batch with a packet that decodes and one that does not. -/
def mixedPackets : BlockEnginePackets := ⟨[[oneBytePacket 1, oneBytePacket 2]], 0, 50⟩

theorem outgoing_paths_agree_mixedPackets :
    (filterForwardable oneDecodes.decode ∅ (fun _ => none)
        mixedPackets.bankingPacketBatch).length = 2 ∧
      (packetsOf (filterPackets oneDecodes 0 mixedPackets (fun _ => none)
        wildcardInterest).1).length = 1 ∧
      packetsOf (filterPackets oneDecodes 0 mixedPackets (fun _ => none) wildcardInterest).1 =
        filterForwardable oneDecodes.decode ∅ (fun _ => none)
          (mixedPackets.bankingPacketBatch.map (List.filter (deserializes oneDecodes.decode))) :=
  ⟨by decide, by decide,
    (outgoing_paths_agree _ oneDecodes 0 mixedPackets (fun _ => none) wildcardInterest).2.2 rfl rfl⟩

end FlowraRelayer.TransactionRelayer
