/-
  Relayer/MessageOrigin.lean --- where a message to a validator comes from.

  Every `try_send` of a run was made in one turn of the event loop (`offer_origin`), to
  the sender that stood in the subscription map when that turn began.  A batch message
  was made in a turn that took a batch from the delayed packets: its packets are
  forwardable packets of that batch, and its receiver is a leader of the slots ahead
  unless everything goes to everyone (`batchMessage_origin`).
-/
import FlowraRelayer.Relayer.Subscriptions

set_option autoImplicit false

namespace FlowraRelayer.Relayer

open FlowraRelayer.Foundation
open FlowraRelayer.Solana
open FlowraRelayer.Protos
open FlowraRelayer.Core

variable {decode : List UInt8 → Option VersionedTransaction} {cfg : LoopConfig}
  {s s' : LoopState} {event : LoopEvent} {events : List LoopEvent} {offer : Offer}
  {packets : List ProtoPacket}

/-- Only the slot arm changes the leaders. -/
theorem slotLeaders_eventStep (h : eventStep decode cfg s event = some s') :
    s'.slotLeaders = s.slotLeaders ∨ ∃ slot schedule, event = .slot (some slot) schedule ∧
      s'.slotLeaders = leadersForSlots schedule (slotWindow slot cfg.slotLookahead) := by
  rcases eventStep_cases h with ⟨slot, schedule, rfl, rfl⟩ | ⟨_, _, _, _, rfl, -, -, rfl⟩ |
    ⟨_, _, rfl, rfl⟩ | ⟨_, _, rfl, -, rfl⟩ | ⟨_, _, rfl, -, rfl⟩ | ⟨rfl, rfl⟩
  · exact .inr ⟨slot, schedule, rfl, rfl⟩
  · simp [dropConnections, applyAll_eq]
  · exact .inl rfl
  · simp [dropConnections, applyAll_eq]
  · exact .inl rfl
  · exact .inl rfl

/-- The turn of a run in which a `try_send` was made. -/
structure MadeIn (decode : List UInt8 → Option VersionedTransaction) (cfg : LoopConfig)
    (done : List LoopEvent) (event : LoopEvent) (before after : LoopState) (offer : Offer) :
    Prop where
  reached : runSteps (eventStep decode cfg) LoopState.init done = some before
  turn : eventStep decode cfg before event = some after
  made : offer ∈ eventOffers decode cfg before event

/-- Every `try_send` of a run was made in one of its turns. -/
theorem offer_origin
    (hrun : runSteps (eventStep decode cfg) LoopState.init events = some s)
    (hoffer : offer ∈ s.offers) :
    ∃ done event rest before after, events = done ++ event :: rest ∧
      MadeIn decode cfg done event before after offer := by
  rcases runSteps_log_origin (fun _ _ _ h => offers_eventStep h) hrun hoffer with
    hstart | ⟨done, event, rest, before, after, heq, hdone, hturn, hmade⟩
  · cases hstart
  · exact ⟨done, event, rest, before, after, heq, hdone, hturn, hmade⟩

/-- What a batch message is made of. -/
structure BatchMessage (decode : List UInt8 → Option VersionedTransaction) (cfg : LoopConfig)
    (before : LoopState) (batch : RelayerPacketBatches) (cache : LookupTableCache) (offer : Offer)
    (packets : List ProtoPacket) : Prop where
  /-- the receiver is subscribed -/
  stored : before.packetSubscriptions.lookup offer.pubkey = some offer.sender
  /-- and is to get packets -/
  target : cfg.forwardAll = true ∨ offer.pubkey ∈ before.slotLeaders
  /-- the packets are forwardable packets of the batch -/
  packets : ∀ packet ∈ packets, ∃ raw ∈ batch.bankingPacketBatch.flatten,
    Forwardable decode cfg.ofacAddresses cache raw ∧ packetToProtoPacket raw = some packet

theorem one_le_batchSize (hsize : cfg.validatorPacketBatchSize ≠ 0) :
    1 ≤ cfg.validatorPacketBatchSize.toNat :=
  Nat.one_le_iff_ne_zero.mpr fun hzero => hsize (UInt64.toNat_inj.mp hzero)

/-- The packets of a chunk are forwardable packets of the batch that was cut. -/
theorem forwardable_of_mem_chunk (hsize : cfg.validatorPacketBatchSize ≠ 0)
    {cache : LookupTableCache} {batch : BankingPacketBatch}
    (hchunk : packets ∈ chunks cfg.validatorPacketBatchSize.toNat
      (filterForwardable decode cfg.ofacAddresses cache batch)) :
    ∀ packet ∈ packets, ∃ raw ∈ batch.flatten,
      Forwardable decode cfg.ofacAddresses cache raw ∧ packetToProtoPacket raw = some packet := by
  intro packet hpacket
  have hflatten := (isChunking_chunks (one_le_batchSize hsize)
    (filterForwardable decode cfg.ofacAddresses cache batch)).flatten_eq
  have hmem : packet ∈ filterForwardable decode cfg.ofacAddresses cache batch := by
    rw [← hflatten]
    exact List.mem_flatten.mpr ⟨packets, hchunk, hpacket⟩
  rw [filterForwardable_eq, List.mem_filterMap] at hmem
  obtain ⟨raw, hraw, hconvert⟩ := hmem
  obtain ⟨hbatch, hforwardable⟩ := List.mem_filter.mp hraw
  exact ⟨raw, hbatch, of_decide_eq_true hforwardable, hconvert⟩

/-- A batch message of a turn comes from the batch that turn took. -/
theorem batchMessage_origin (hstep : eventStep decode cfg s event = some s')
    (hmade : offer ∈ eventOffers decode cfg s event) (hpackets : offer.packets? = some packets) :
    ∃ batch cache order env, event = .packets (some batch) cache order env ∧
      BatchMessage decode cfg s batch cache offer packets := by
  rcases eventStep_cases hstep with ⟨_, _, rfl, -⟩ |
    ⟨batch, cache, order, env, rfl, hsize, horder, -⟩ | ⟨_, _, rfl, -⟩ |
    ⟨order, trySend, rfl, -, -⟩ | ⟨_, _, rfl, -⟩ | ⟨rfl, -⟩
  · cases hmade
  · obtain ⟨horderMem, hstored⟩ := mem_subscribersIn.mp (subscriber_of_mem_batchOffers _ _ hmade)
    obtain ⟨chunk, hchunk, heq⟩ := packets?_of_mem_batchOffers _ _ hmade
    rw [hpackets, Option.some.injEq] at heq
    subst heq
    exact ⟨batch, cache, order, env, rfl, hstored, (mem_order_iff horder hstored).mp horderMem,
      forwardable_of_mem_chunk hsize hchunk⟩
  · cases hmade
  · -- a heartbeat carries no packets
    obtain ⟨subscriber, -, rfl⟩ := List.mem_map.mp hmade
    cases hpackets
  · cases hmade
  · cases hmade

end FlowraRelayer.Relayer
