/-
  TransactionRelayer/Forwarder.lean --- the forwarder thread of
  `transaction-relayer/src/forwarder.rs`.

  A forwarder thread receives verified batches, offers each to the block engine at
  once, and holds it back for `packet_delay_ms` before it passes it to the event
  loop.  `forwarderTurn` is one turn of its loop.

  The clock is monotone and moves between any two readings: the state holds the
  last reading, and the input of a turn says by how much each later reading is
  ahead of the one before it.  How long a blocked `send` waits is part of the next
  such step.  The fields `received`, `sent`, `offered` and `reported` record what
  happened; no function reads them.

  Left out: the high-water marks of the queue lengths, which only feed the metrics
  backend.
-/
import FlowraRelayer.Foundation.Checks
import FlowraRelayer.Relayer.EventLoop

set_option autoImplicit false

namespace FlowraRelayer.TransactionRelayer

open FlowraRelayer.Foundation
open FlowraRelayer.Protos
open FlowraRelayer.Relayer

/-- `BLOCK_ENGINE_FORWARDER_QUEUE_CAPACITY`. -/
def blockEngineForwarderQueueCapacity : Nat := 5000

/-! ## Metrics -/

/-- The counters of `ForwarderMetrics`; `u64` arithmetic wraps. -/
structure ForwarderMetrics where
  numBatchesReceived : UInt64
  numPacketsReceived : UInt64
  numBePacketsForwarded : UInt64
  numBePacketsDropped : UInt64
  numBeSenderFull : UInt64
  numRelayerPacketsForwarded : UInt64
  deriving DecidableEq

/-- `ForwarderMetrics::new`. -/
def ForwarderMetrics.new : ForwarderMetrics := ⟨0, 0, 0, 0, 0, 0⟩

/-- `iter().map(|b| b.len() as u64).sum::<u64>()`. -/
def numPackets (batch : BankingPacketBatch) : UInt64 := UInt64.ofNat batch.numPackets

/-! ## State -/

/-- The arguments of `start_forward_and_delay_thread` that matter to one thread. -/
structure ForwarderConfig where
  packetDelayMs : UInt32
  disableMempool : Bool
  deriving DecidableEq

/-- `packet_delay`. -/
def ForwarderConfig.packetDelay (cfg : ForwarderConfig) : Time :=
  cfg.packetDelayMs.toNat * nanosPerMilli

/-- `metrics_interval`. -/
def metricsInterval : Time := nanosPerSecond

/-- The local variables of a forwarder thread and the record of what it did. -/
structure ForwarderState where
  /-- the last reading of the clock -/
  now : Time
  lastMetricsUpload : Time
  metrics : ForwarderMetrics
  bufferedPacketBatches : List RelayerPacketBatches
  /-- the batches received, each with its receipt stamp -/
  received : List RelayerPacketBatches
  /-- the batches sent on `delay_packet_sender`, each with the reading at its check -/
  sent : List (Time × RelayerPacketBatches)
  /-- the batches offered to the block engine, each with the answer -/
  offered : List (BlockEnginePackets × TrySendResult)
  /-- the metrics reported -/
  reported : List ForwarderMetrics

/-- A thread as it starts. -/
def ForwarderState.init (now : Time) : ForwarderState where
  now := now
  lastMetricsUpload := now
  metrics := ForwarderMetrics.new
  bufferedPacketBatches := []
  received := []
  sent := []
  offered := []
  reported := []

/-- Read the clock, `ahead` after the last reading. -/
def ForwarderState.tick (ahead : Time) (s : ForwarderState) : ForwarderState :=
  { s with now := s.now + ahead }

/-! ## One turn of the loop -/

/-- The panics of the thread, by their message. -/
inductive ForwarderPanic where
  /-- "error sending packet batch to block engine handler" -/
  | blockEngineClosed
  /-- "packet receiver disconnected" -/
  | receiverDisconnected
  /-- "exiting forwarding delayed packets" -/
  | delaySenderClosed
  deriving DecidableEq

/-- The answer of `verified_receiver.recv_timeout`. -/
inductive RecvResult where
  | ok (bankingPacketBatch : BankingPacketBatch)
  | timeout
  | disconnected

/-- What the environment decides in one turn. -/
structure TurnInput where
  /-- clock, up to the check of `last_metrics_upload` -/
  untilMetricsCheck : Time
  /-- clock, from there to the new `last_metrics_upload` -/
  untilUploaded : Time
  recv : RecvResult
  /-- clock, up to the receipt stamp -/
  untilReceived : Time
  systemTime : Time
  trySend : TrySendResult
  /-- clock, up to the `k`-th check of the release loop -/
  untilCheck : Nat → Time
  /-- whether the `k`-th `delay_packet_sender.send` succeeds -/
  sendOk : Nat → Bool

/-- The metrics part of a turn. -/
def uploadMetrics (input : TurnInput) (s : ForwarderState) : ForwarderState :=
  let s := s.tick input.untilMetricsCheck
  if metricsInterval ≤ s.now - s.lastMetricsUpload then
    let s := { s with reported := s.reported ++ [s.metrics], metrics := ForwarderMetrics.new }
    let s := s.tick input.untilUploaded
    { s with lastMetricsUpload := s.now }
  else s

/-- The counters moved by the answer of the block engine's channel. -/
def ForwarderMetrics.countOffer (m : ForwarderMetrics) (packets : UInt64) :
    TrySendResult → Except ForwarderPanic ForwarderMetrics
  | .ok => .ok { m with numBePacketsForwarded := m.numBePacketsForwarded + packets }
  | .closed => .error .blockEngineClosed
  | .full =>
      .ok
        { m with
          numBePacketsDropped := m.numBePacketsDropped + packets
          numBeSenderFull := m.numBeSenderFull + 1 }

/-- The receive part of a turn. -/
def receiveBatch (cfg : ForwarderConfig) (input : TurnInput) (s : ForwarderState) :
    Except ForwarderPanic ForwarderState :=
  match input.recv with
  | .timeout => .ok s
  | .disconnected => .error .receiverDisconnected
  | .ok bankingPacketBatch => do
      let s := s.tick input.untilReceived
      let packets := numPackets bankingPacketBatch
      let metrics :=
        { s.metrics with
          numBatchesReceived := s.metrics.numBatchesReceived + 1
          numPacketsReceived := s.metrics.numPacketsReceived + packets }
      let batch : RelayerPacketBatches := ⟨s.now, bankingPacketBatch⟩
      let s :=
        { s with
          metrics
          bufferedPacketBatches := s.bufferedPacketBatches ++ [batch]
          received := s.received ++ [batch] }
      if cfg.disableMempool then pure s
      else
        let metrics ← s.metrics.countOffer packets input.trySend
        let offer : BlockEnginePackets := ⟨bankingPacketBatch, input.systemTime, cfg.packetDelayMs⟩
        pure { s with metrics, offered := s.offered ++ [(offer, input.trySend)] }

/-- The release loop from its `k`-th check on, with the given batches buffered. -/
def releaseLoop (cfg : ForwarderConfig) (input : TurnInput) :
    Nat → List RelayerPacketBatches → ForwarderState → Except ForwarderPanic ForwarderState
  | _, [], s => .ok { s with bufferedPacketBatches := [] }
  | k, batch :: rest, s =>
      let s := s.tick (input.untilCheck k)
      if s.now - batch.stamp < cfg.packetDelay then
        .ok { s with bufferedPacketBatches := batch :: rest }
      else
        let packets := numPackets batch.bankingPacketBatch
        let s :=
          { s with
            metrics :=
              { s.metrics with
                numRelayerPacketsForwarded := s.metrics.numRelayerPacketsForwarded + packets } }
        if input.sendOk k then
          releaseLoop cfg input (k + 1) rest { s with sent := s.sent ++ [(s.now, batch)] }
        else .error .delaySenderClosed

/-- One turn of the thread's loop. -/
def forwarderTurn (cfg : ForwarderConfig) (s : ForwarderState) (input : TurnInput) :
    Except ForwarderPanic ForwarderState := do
  let s ← receiveBatch cfg input (uploadMetrics input s)
  releaseLoop cfg input 0 s.bufferedPacketBatches s

theorem forwarderTurn_eq_ok_iff {cfg : ForwarderConfig} {input : TurnInput}
    {s s' : ForwarderState} :
    forwarderTurn cfg s input = .ok s' ↔
      ∃ middle, receiveBatch cfg input (uploadMetrics input s) = .ok middle ∧
        releaseLoop cfg input 0 middle.bufferedPacketBatches middle = .ok s' :=
  bind_eq_ok_iff

/-- The loop as a partial step function: no successor when the thread panics. -/
def forwarderStep (cfg : ForwarderConfig) (s : ForwarderState) (input : TurnInput) :
    Option ForwarderState :=
  (forwarderTurn cfg s input).toOption

theorem forwarderStep_eq_some_iff {cfg : ForwarderConfig} {input : TurnInput}
    {s s' : ForwarderState} :
    forwarderStep cfg s input = some s' ↔ forwarderTurn cfg s input = .ok s' :=
  toOption_eq_some_iff

end FlowraRelayer.TransactionRelayer
