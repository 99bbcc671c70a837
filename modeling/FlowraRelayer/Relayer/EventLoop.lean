/-
  Relayer/EventLoop.lean --- the event loop of `relayer/src/relayer.rs`.

  `run_event_loop` owns the subscription map and serves one select arm at a time:
  a slot, a delayed packet batch, a subscription, a heartbeat tick or a metrics
  tick.  `handleEvent` is one turn of that loop, assembled from the functions of
  the source under their own names.

  What the environment decides stands in the event: the leader schedule and the
  lookup tables at that moment, the iteration order of the hash collections, the
  answer of every `try_send`, the clock.  The fields `offers`, `delivered`,
  `window` and `reported` record what happened; no function reads them.

  Left out: the latency histograms, the channel-length high-water marks and the
  data points sent to the metrics backend.
-/
import FlowraRelayer.Core.Ofac
import FlowraRelayer.Protos.Packet
import FlowraRelayer.Foundation.Channel
import FlowraRelayer.Foundation.Chunks
import FlowraRelayer.Foundation.Run
import Mathlib.Data.List.AList

set_option autoImplicit false

namespace FlowraRelayer.Relayer

open FlowraRelayer.Foundation
open FlowraRelayer.Solana
open FlowraRelayer.Protos
open FlowraRelayer.Core

/-! ## Shared types -/

/-- `health_manager::HealthState`. -/
inductive HealthState where
  | unhealthy
  | healthy
  deriving DecidableEq

/-- The slot-to-leader map of `schedule_cache.rs`, as it stands at one moment. -/
abbrev LeaderSchedule : Type := Slot → Option Pubkey

/-- `LeaderScheduleUpdatingHandle::leaders_for_slots`. -/
def leadersForSlots (schedule : LeaderSchedule) (slots : List Slot) : Finset Pubkey :=
  (slots.filterMap schedule).toFinset

/-- The identity of one `channel(SUBSCRIBER_QUEUE_CAPACITY)` of
`subscribe_packets`. -/
abbrev Sender : Type := Nat

/-- `HashMap<Pubkey, TokioSender<..>>`. -/
abbrev PacketSubscriptions : Type := AList fun _ : Pubkey => Sender

/-- `RelayerPacketBatches`. -/
structure RelayerPacketBatches where
  stamp : Time
  bankingPacketBatch : BankingPacketBatch

/-- `subscribe_packets_response::Msg`. -/
inductive Msg where
  | heartbeat (count : UInt64)
  | batch (packets : List ProtoPacket)
  deriving DecidableEq

/-- `SubscribePacketsResponse`; the header holds a timestamp. -/
structure SubscribePacketsResponse where
  header : Option Time
  msg : Msg
  deriving DecidableEq

/-- One `try_send` with its answer. -/
structure Offer where
  pubkey : Pubkey
  sender : Sender
  response : SubscribePacketsResponse
  result : TrySendResult
  deriving DecidableEq

/-- The packets of a batch message; `none` for a heartbeat. -/
def Offer.packets? (offer : Offer) : Option (List ProtoPacket) :=
  match offer.response.msg with
  | .heartbeat _ => none
  | .batch packets => some packets

/-! ## Metrics -/

/-- `u64::MAX`. -/
def u64Max : Nat := 2 ^ 64 - 1

/-- `saturating_add_assign!` on a `u64`. -/
def saturatingAdd (a b : Nat) : Nat := min (a + b) u64Max

/-- `PacketForwardStats`. -/
structure PacketForwardStats where
  numPacketsForwarded : Nat
  numPacketsDropped : Nat
  deriving DecidableEq

/-- The counters of `RelayerMetrics`. -/
structure RelayerMetrics where
  highestSlot : Slot
  numAddedConnections : UInt64
  numRemovedConnections : UInt64
  numCurrentConnections : UInt64
  numHeartbeats : UInt64
  numTrySendChannelFull : UInt64
  packetStatsPerValidator : Pubkey → Option PacketForwardStats

namespace RelayerMetrics

/-- `RelayerMetrics::new`. -/
def new : RelayerMetrics where
  highestSlot := 0
  numAddedConnections := 0
  numRemovedConnections := 0
  numCurrentConnections := 0
  numHeartbeats := 0
  numTrySendChannelFull := 0
  packetStatsPerValidator := fun _ => none

/-- `entry(k).and_modify(modify).or_insert(fresh)` on the per-validator map. -/
def upsertStats (m : RelayerMetrics) (validatorId : Pubkey)
    (modify : PacketForwardStats → PacketForwardStats) (fresh : PacketForwardStats) :
    RelayerMetrics :=
  { m with
    packetStatsPerValidator :=
      Function.update m.packetStatsPerValidator validatorId
        (some (((m.packetStatsPerValidator validatorId).map modify).getD fresh)) }

/-- `increment_packets_forwarded`. -/
def incrementPacketsForwarded (m : RelayerMetrics) (validatorId : Pubkey) (numPackets : Nat) :
    RelayerMetrics :=
  m.upsertStats validatorId
    (fun entry =>
      { entry with numPacketsForwarded := saturatingAdd entry.numPacketsForwarded numPackets })
    { numPacketsForwarded := numPackets, numPacketsDropped := 0 }

/-- `increment_packets_dropped`. -/
def incrementPacketsDropped (m : RelayerMetrics) (validatorId : Pubkey) (numPackets : Nat) :
    RelayerMetrics :=
  m.upsertStats validatorId
    (fun entry =>
      { entry with numPacketsDropped := saturatingAdd entry.numPacketsDropped numPackets })
    { numPacketsForwarded := 0, numPacketsDropped := numPackets }

end RelayerMetrics

/-! ## Configuration and state -/

/-- The arguments of `run_event_loop` that do not change.  `usize` is 64 bits
wide. -/
structure LoopConfig where
  ofacAddresses : Finset Pubkey
  validatorPacketBatchSize : UInt64
  forwardAll : Bool
  slotLookahead : UInt64

/-- The local variables of `run_event_loop`, the shared subscription map, and the
record of what was offered to whom. -/
structure LoopState where
  highestSlot : Slot
  slotLeaders : Finset Pubkey
  packetSubscriptions : PacketSubscriptions
  metrics : RelayerMetrics
  /-- every `try_send` so far -/
  offers : List Offer
  /-- the `try_send`s whose message went into the channel -/
  delivered : List Offer
  /-- the `try_send`s since the metrics were last reset -/
  window : List Offer
  /-- what `report` published, each with the `try_send`s of its interval -/
  reported : List (RelayerMetrics × List Offer)

/-- The state in which `run_event_loop` starts. -/
def LoopState.init : LoopState where
  highestSlot := 0
  slotLeaders := ∅
  packetSubscriptions := ∅
  metrics := RelayerMetrics.new
  offers := []
  delivered := []
  window := []
  reported := []

/-- Record one `try_send`. -/
def LoopState.record (s : LoopState) (offer : Offer) : LoopState :=
  { s with
    offers := s.offers ++ [offer]
    delivered := if offer.result = .ok then s.delivered ++ [offer] else s.delivered
    window := s.window ++ [offer] }

/-- Why the loop thread stops before `exit` is set. -/
inductive LoopExit where
  /-- `RelayerError::Shutdown`: a channel the loop reads is disconnected -/
  | shutdown
  /-- the division by a batch size of zero panics -/
  | panic
  deriving DecidableEq

/-! ## The handlers -/

/-- `update_highest_slot`. -/
def updateHighestSlot (maybeSlot : Option Slot) (s : LoopState) : Except LoopExit LoopState :=
  match maybeSlot with
  | none => .error .shutdown
  | some slot => .ok { s with highestSlot := slot, metrics := { s.metrics with highestSlot := slot } }

/-- `drop_connections`. -/
def dropConnections (disconnectedPubkeys : List Pubkey) (s : LoopState) : LoopState :=
  { s with
    metrics :=
      { s.metrics with
        numRemovedConnections :=
          s.metrics.numRemovedConnections + UInt64.ofNat disconnectedPubkeys.length }
    packetSubscriptions :=
      disconnectedPubkeys.foldl (fun subscriptions pubkey => subscriptions.erase pubkey)
        s.packetSubscriptions }

/-- One subscriber's turn in `handle_heartbeat`. -/
def sendHeartbeat (trySend : Pubkey → TrySendResult) (acc : LoopState × List Pubkey)
    (subscriber : Pubkey × Sender) : LoopState × List Pubkey :=
  let (s, failed) := acc
  let (pubkey, sender) := subscriber
  let result := trySend pubkey
  let s := s.record
    { pubkey, sender, response := ⟨none, .heartbeat s.metrics.numHeartbeats⟩, result }
  match result with
  | .ok => (s, failed)
  | .closed => (s, failed ++ [pubkey])
  | .full =>
      ({ s with
          metrics :=
            { s.metrics with numTrySendChannelFull := s.metrics.numTrySendChannelFull + 1 } },
        failed)

/-- `handle_heartbeat`, over the subscribers in iteration order. -/
def handleHeartbeat (subscribers : List (Pubkey × Sender)) (trySend : Pubkey → TrySendResult)
    (s : LoopState) : LoopState × List Pubkey :=
  let (s, failed) := subscribers.foldl (sendHeartbeat trySend) (s, [])
  ({ s with metrics := { s.metrics with numHeartbeats := s.metrics.numHeartbeats + 1 } }, failed)

/-- The OFAC stage of `forward_packets`: with a nonempty set, only what
deserialises and is not OFAC related passes. -/
def passOfac (decode : List UInt8 → Option VersionedTransaction) (ofacAddresses : Finset Pubkey)
    (cache : LookupTableCache) (packet : Packet) : Option Packet :=
  if ofacAddresses ≠ ∅ then
    match packet.deserializeSlice decode with
    | none => none
    | some tx => if isTxOfacRelated tx ofacAddresses cache then none else some packet
  else some packet

/-- The packet filter of `forward_packets`: no discards, the OFAC stage, then the
conversion. -/
def filterForwardable (decode : List UInt8 → Option VersionedTransaction)
    (ofacAddresses : Finset Pubkey) (cache : LookupTableCache) (batch : BankingPacketBatch) :
    List ProtoPacket :=
  batch.flatMap fun packets =>
    ((packets.filter fun p => !p.discard).filterMap
      (passOfac decode ofacAddresses cache)).filterMap packetToProtoPacket

/-- The channel answers and clock readings of one packet event: what the channel
of a validator answers to the `k`-th batch, and the time stamped on it. -/
structure ForwardEnv where
  trySend : Pubkey → Nat → TrySendResult
  clock : Pubkey → Nat → Time

/-- One `try_send` of `forward_packets`: batch number `k` to one subscriber. -/
def sendBatch (env : ForwardEnv) (k : Nat) (packets : List ProtoPacket)
    (acc : LoopState × List Pubkey) (subscriber : Pubkey × Sender) : LoopState × List Pubkey :=
  let (s, failed) := acc
  let (pubkey, sender) := subscriber
  let result := env.trySend pubkey k
  let s := s.record
    { pubkey, sender, response := ⟨some (env.clock pubkey k), .batch packets⟩, result }
  match result with
  | .ok =>
      ({ s with metrics := s.metrics.incrementPacketsForwarded pubkey packets.length }, failed)
  | .full =>
      ({ s with metrics := s.metrics.incrementPacketsDropped pubkey packets.length }, failed)
  | .closed => (s, failed ++ [pubkey])

/-- The outer loop of `forward_packets` from batch number `k` on; an empty batch is
skipped. -/
def sendBatches (env : ForwardEnv) (senders : List (Pubkey × Sender)) :
    Nat → List (List ProtoPacket) → LoopState × List Pubkey → LoopState × List Pubkey
  | _, [], acc => acc
  | k, packets :: rest, acc =>
      sendBatches env senders (k + 1) rest
        (if packets = [] then acc else senders.foldl (sendBatch env k packets) acc)

/-- `forward_packets`.  `order` is the iteration order of the subscription map
when everything is forwarded to everyone, and of the leader set otherwise. -/
def forwardPackets (decode : List UInt8 → Option VersionedTransaction) (cfg : LoopConfig)
    (maybePacketBatches : Option RelayerPacketBatches) (cache : LookupTableCache)
    (order : List Pubkey) (env : ForwardEnv) (s : LoopState) :
    Except LoopExit (LoopState × List Pubkey) :=
  match maybePacketBatches with
  | none => .error .shutdown
  | some packetBatches =>
      let packets :=
        filterForwardable decode cfg.ofacAddresses cache packetBatches.bankingPacketBatch
      if cfg.validatorPacketBatchSize = 0 then .error .panic
      else
        let protoPacketBatches := chunks cfg.validatorPacketBatchSize.toNat packets
        let senders := order.filterMap fun pubkey =>
          (s.packetSubscriptions.lookup pubkey).map fun sender => (pubkey, sender)
        .ok (sendBatches env senders 0 protoPacketBatches (s, []))

/-- `handle_subscription`: a new key is counted, a known one has its sender
replaced. -/
def handleSubscription (maybeSubscription : Option (Pubkey × Sender)) (s : LoopState) :
    Except LoopExit LoopState :=
  match maybeSubscription with
  | none => .error .shutdown
  | some (pubkey, sender) =>
      let metrics :=
        if pubkey ∈ s.packetSubscriptions then s.metrics
        else { s.metrics with numAddedConnections := s.metrics.numAddedConnections + 1 }
      .ok { s with metrics, packetSubscriptions := s.packetSubscriptions.insert pubkey sender }

/-! ## One turn of the loop -/

/-- A select arm with everything the environment decides in it.  `none` in place of
a message is a disconnected channel. -/
inductive LoopEvent where
  | slot (maybeSlot : Option Slot) (schedule : LeaderSchedule)
  | packets (maybePacketBatches : Option RelayerPacketBatches) (cache : LookupTableCache)
      (order : List Pubkey) (env : ForwardEnv)
  | subscription (maybeSubscription : Option (Pubkey × Sender))
  | heartbeat (health : HealthState) (order : List Pubkey) (trySend : Pubkey → TrySendResult)
  | metrics

/-- `order` lists the elements of `keys`, each once: an iteration order of the
hash collection. -/
def Enumerates (order : List Pubkey) (keys : Finset Pubkey) : Prop :=
  order.Nodup ∧ order.toFinset = keys

instance (order : List Pubkey) (keys : Finset Pubkey) : Decidable (Enumerates order keys) :=
  inferInstanceAs (Decidable (_ ∧ _))

/-- The keys of the subscription map. -/
def PacketSubscriptions.keySet (subscriptions : PacketSubscriptions) : Finset Pubkey :=
  subscriptions.keys.toFinset

/-- The hash collection an event iterates over. -/
def LoopEvent.iterated (cfg : LoopConfig) (s : LoopState) : LoopEvent → Option (List Pubkey × Finset Pubkey)
  | .packets _ _ order _ =>
      some (order, if cfg.forwardAll then s.packetSubscriptions.keySet else s.slotLeaders)
  | .heartbeat _ order _ => some (order, s.packetSubscriptions.keySet)
  | _ => none

/-- The iteration order an event carries is one of the collection it iterates. -/
def LoopEvent.Valid (cfg : LoopConfig) (s : LoopState) (ev : LoopEvent) : Prop :=
  ∀ p ∈ ev.iterated cfg s, Enumerates p.1 p.2

instance (cfg : LoopConfig) (s : LoopState) (ev : LoopEvent) : Decidable (ev.Valid cfg s) :=
  inferInstanceAs (Decidable (∀ p ∈ ev.iterated cfg s, _))

/-- `highest_slot..highest_slot + slot_lookahead`.  The sum is one of `u64`s: without overflow
checks it wraps, and a range that ends before it starts is empty. -/
def slotWindow (highestSlot : Slot) (slotLookahead : UInt64) : List Slot :=
  let stop := (UInt64.ofNat highestSlot + slotLookahead).toNat
  List.range' highestSlot (stop - highestSlot)

/-- A slot is in the window if it is one of the next slots and the sum does not wrap. -/
theorem mem_slotWindow {highestSlot slot : Nat} {slotLookahead : UInt64} :
    slot ∈ slotWindow highestSlot slotLookahead ↔ highestSlot ≤ slot ∧
      slot < highestSlot + slotLookahead.toNat ∧
      highestSlot + slotLookahead.toNat < UInt64.size := by
  have hlookahead : slotLookahead.toNat < UInt64.size := slotLookahead.toNat_lt
  have hstop : (UInt64.ofNat highestSlot + slotLookahead).toNat =
      (highestSlot + slotLookahead.toNat) % UInt64.size := by
    rw [UInt64.toNat_add, UInt64.toNat_ofNat', Nat.mod_add_mod]
  rw [slotWindow, List.mem_range'_1, hstop]
  by_cases hfits : highestSlot + slotLookahead.toNat < UInt64.size
  · rw [Nat.mod_eq_of_lt hfits]
    omega
  · -- a sum that wraps is smaller than either summand
    have hwraps : (highestSlot + slotLookahead.toNat) % UInt64.size ≤ highestSlot := by
      rw [Nat.mod_eq_sub_mod (Nat.le_of_not_lt hfits)]
      exact (Nat.mod_le _ _).trans (by omega)
    omega

/-- One arm of the `select!` in `run_event_loop`. -/
def handleEvent (decode : List UInt8 → Option VersionedTransaction) (cfg : LoopConfig)
    (s : LoopState) : LoopEvent → Except LoopExit LoopState
  | .slot maybeSlot schedule => do
      let s ← updateHighestSlot maybeSlot s
      let slots := slotWindow s.highestSlot cfg.slotLookahead
      pure { s with slotLeaders := leadersForSlots schedule slots }
  | .packets maybePacketBatches cache order env => do
      let (s, failedForwards) ← forwardPackets decode cfg maybePacketBatches cache order env s
      pure (dropConnections failedForwards s)
  | .subscription maybeSubscription => handleSubscription maybeSubscription s
  | .heartbeat .healthy order trySend =>
      let subscribers := order.filterMap fun pubkey =>
        (s.packetSubscriptions.lookup pubkey).map fun sender => (pubkey, sender)
      let (s, pubkeysToDrop) := handleHeartbeat subscribers trySend s
      pure (dropConnections pubkeysToDrop s)
  | .heartbeat .unhealthy order _ => pure (dropConnections order s)
  | .metrics =>
      let current := UInt64.ofNat s.packetSubscriptions.keys.length
      pure
        { s with
          metrics := RelayerMetrics.new
          window := []
          reported := s.reported ++ [({ s.metrics with numCurrentConnections := current }, s.window)] }

/-- The loop as a partial step function: no successor when the event's iteration
order is not one of the collection, or when the loop ends. -/
def eventStep (decode : List UInt8 → Option VersionedTransaction) (cfg : LoopConfig)
    (s : LoopState) (ev : LoopEvent) : Option LoopState :=
  if ev.Valid cfg s then (handleEvent decode cfg s ev).toOption else none

end FlowraRelayer.Relayer
