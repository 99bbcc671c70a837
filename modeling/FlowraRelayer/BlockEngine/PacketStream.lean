/-
  BlockEngine/PacketStream.lean --- one connection to the block engine: the loop of
  `handle_packet_stream`.

  Each turn of the loop serves one arm of its `select!`.  An event is an arm with
  everything the environment decides in it, stamped with the time at which it is
  served; the clock does not go back.  `sent` records what went out on the packet
  stream.

  Left out: the statistics, and the inside of `maybe_refresh_auth`, of which the
  loop only sees whether it failed.
-/
import FlowraRelayer.BlockEngine.Interest
import FlowraRelayer.Foundation.Checks

set_option autoImplicit false

namespace FlowraRelayer.BlockEngine

open FlowraRelayer.Foundation
open FlowraRelayer.Solana
open FlowraRelayer.Protos

/-- `BLOCK_ENGINE_RESPONSE_TIMEOUT`. -/
def blockEngineResponseTimeout : Time := 30 * nanosPerSecond

/-- `packet_batch_update::Msg`. -/
inductive PacketBatchUpdate where
  | heartbeat (count : UInt64)
  | batches (batch : ExpiringPacketBatch)
  deriving DecidableEq

/-- The batch of a message; `none` for a heartbeat. -/
def PacketBatchUpdate.batch? : PacketBatchUpdate → Option ExpiringPacketBatch
  | .heartbeat _ => none
  | .batches batch => some batch

/-- The arguments of `handle_packet_stream` that do not change. -/
structure StreamConfig where
  filter : FilterConfig
  aoiCacheTtlS : Nat

/-- The local variables of `handle_packet_stream` and the record of what it sent. -/
structure StreamState (timed : TimedCache Pubkey) where
  now : Time
  interest : InterestState timed
  heartbeatCount : UInt64
  lastResponseAt : Time
  sent : List PacketBatchUpdate

/-- The state in which the loop starts. -/
def StreamState.new (timed : TimedCache Pubkey) (cfg : StreamConfig) (now : Time) :
    StreamState timed where
  now := now
  interest := InterestState.new timed cfg.aoiCacheTtlS
  heartbeatCount := 0
  lastResponseAt := now
  sent := []

/-- The arms of the `select!`.  An `Except` is a stream's answer, with the text of
its status when it failed; `sendOk` is whether `send_timeout` succeeded. -/
inductive Arm where
  | response (maybeResponse : Except String (Option Unit))
  | heartbeat (sendOk : Bool)
  | aoi (maybeAoi : Except String (Option (List String)))
  | poi (maybePoi : Except String (Option (List String)))
  | batches (maybeBatches : Option BlockEnginePackets) (cache : LookupTableCache) (sendOk : Bool)
  | authRefresh (result : Except BlockEngineError Bool)
  | metrics

variable {timed : TimedCache Pubkey}

/-- `forward_packets` of the block engine handler. -/
def forwardPackets (batch : ExpiringPacketBatch) (sendOk : Bool) (s : StreamState timed) :
    Except BlockEngineError (StreamState timed) :=
  if sendOk then .ok { s with sent := s.sent ++ [.batches batch] }
  else .error (.blockEngineFailure "error forwarding packets")

/-- One arm, served at time `s.now`. -/
def handleArm (cfg : StreamConfig) (s : StreamState timed) :
    Arm → Except BlockEngineError (StreamState timed)
  | .response (.ok (some _)) => .ok { s with lastResponseAt := s.now }
  | .response (.ok none) => .error (.blockEngineFailure "block engine packet response stream closed")
  | .response (.error e) => .error (.blockEngineFailure e)
  | .heartbeat sendOk =>
      if sendOk then
        .ok
          { s with
            sent := s.sent ++ [.heartbeat s.heartbeatCount]
            heartbeatCount := s.heartbeatCount + 1 }
      else .error (.blockEngineFailure "error sending heartbeat")
  | .aoi maybeAoi => do
      let (interest, _) ← handleAoi maybeAoi s.now s.interest
      pure { s with interest }
  | .poi maybePoi => do
      let (interest, _) ← handlePoi maybePoi s.now s.interest
      pure { s with interest }
  | .batches none _ _ => .error (.blockEngineFailure "block engine packet receiver disconnected")
  | .batches (some blockEngineBatches) cache sendOk =>
      let (filteredPackets, interest) :=
        filterPackets cfg.filter s.now blockEngineBatches cache s.interest
      match filteredPackets with
      | none => .ok { s with interest }
      | some batch => forwardPackets batch sendOk { s with interest }
  | .authRefresh (.ok _) => .ok s
  | .authRefresh (.error e) => .error e
  | .metrics =>
      if blockEngineResponseTimeout < s.now - s.lastResponseAt then
        .error (.blockEngineFailure "no response from block engine in 30s, reconnecting")
      else
        .ok
          { s with
            interest :=
              { s.interest with
                accountsOfInterest := timed.flush s.now s.interest.accountsOfInterest
                programsOfInterest := timed.flush s.now s.interest.programsOfInterest } }

/-- What an arm sends: the heartbeat arm the next count, the arm that takes a batch what the
filter leaves of it, the others nothing. -/
theorem handleArm_sends {cfg : StreamConfig} {s s' : StreamState timed} {arm : Arm}
    (h : handleArm cfg s arm = .ok s') :
    arm = .heartbeat true ∧ s'.sent = s.sent ++ [.heartbeat s.heartbeatCount] ∧
        s'.heartbeatCount = s.heartbeatCount + 1 ∨
      s'.heartbeatCount = s.heartbeatCount ∧
        (s'.sent = s.sent ∨
          ∃ blockEngineBatches cache batch, arm = .batches (some blockEngineBatches) cache true ∧
            (filterPackets cfg.filter s.now blockEngineBatches cache s.interest).1 = some batch ∧
            s'.sent = s.sent ++ [.batches batch]) := by
  cases arm with
  | response maybeResponse =>
    cases maybeResponse with
    | error e => cases h
    | ok maybeReply =>
      cases maybeReply with
      | none => cases h
      | some reply =>
        cases h
        exact .inr ⟨rfl, .inl rfl⟩
  | heartbeat sendOk =>
    cases sendOk with
    | false => cases h
    | true =>
      cases h
      exact .inl ⟨rfl, rfl, rfl⟩
  | aoi maybeAoi =>
    simp only [handleArm, bind_eq_ok_iff, pure_eq_ok_iff] at h
    obtain ⟨_, -, rfl⟩ := h
    exact .inr ⟨rfl, .inl rfl⟩
  | poi maybePoi =>
    simp only [handleArm, bind_eq_ok_iff, pure_eq_ok_iff] at h
    obtain ⟨_, -, rfl⟩ := h
    exact .inr ⟨rfl, .inl rfl⟩
  | batches maybeBatches cache sendOk =>
    cases maybeBatches with
    | none => cases h
    | some blockEngineBatches =>
      simp only [handleArm] at h
      split at h
      · cases h
        exact .inr ⟨rfl, .inl rfl⟩
      · rename_i batch hbatch
        cases sendOk with
        | false => cases h
        | true =>
          cases h
          exact .inr ⟨rfl, .inr ⟨blockEngineBatches, cache, batch, rfl, hbatch, rfl⟩⟩
  | authRefresh result =>
    cases result with
    | error e => cases h
    | ok didRefresh =>
      cases h
      exact .inr ⟨rfl, .inl rfl⟩
  | metrics =>
    simp only [handleArm] at h
    split at h
    · cases h
    · cases h
      exact .inr ⟨rfl, .inl rfl⟩

/-- The loop as a partial step function: no successor when the clock would go back
or the connection ends. -/
def streamStep (cfg : StreamConfig) (s : StreamState timed) (ev : Time × Arm) :
    Option (StreamState timed) :=
  if s.now ≤ ev.1 then (handleArm cfg { s with now := ev.1 } ev.2).toOption else none

theorem streamStep_eq_some_iff {cfg : StreamConfig} {s s' : StreamState timed} {ev : Time × Arm} :
    streamStep cfg s ev = some s' ↔
      s.now ≤ ev.1 ∧ handleArm cfg { s with now := ev.1 } ev.2 = .ok s' := by
  rw [streamStep, Option.ite_none_right_eq_some, toOption_eq_some_iff]

end FlowraRelayer.BlockEngine
