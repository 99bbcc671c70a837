/-
  Relayer/HealthManager.lean --- `relayer/src/health_manager.rs`.

  The manager thread sits between the load balancer and the event loop: it
  forwards every slot it receives and remembers when, and a periodic check turns
  that memory into the shared health state.

  Left out: what the channel-length tick reports to the metrics backend.
-/
import FlowraRelayer.Relayer.EventLoop

set_option autoImplicit false

namespace FlowraRelayer.Relayer

open FlowraRelayer.Foundation
open FlowraRelayer.Solana

/-- Where the manager thread stands. -/
inductive ManagerPhase where
  /-- at the `select!` -/
  | selecting
  /-- a slot is received and not yet forwarded -/
  | forwarding (slot : Slot)
  /-- the thread has returned or panicked -/
  | stopped
  deriving DecidableEq

/-- The slot the manager holds between its two channels. -/
def ManagerPhase.holding : ManagerPhase → List Slot
  | .forwarding slot => [slot]
  | _ => []

/-- The manager thread with the health state it shares. -/
structure HealthManager where
  phase : ManagerPhase
  state : HealthState
  lastUpdate : Time
  deriving DecidableEq

/-- `HealthManager::new`, with the clock reading of the new thread. -/
def HealthManager.new (now : Time) : HealthManager where
  phase := .selecting
  state := .unhealthy
  lastUpdate := now

/-- The arm of `check_and_metrics_tick`. -/
def HealthManager.check (missingSlotUnhealthyThreshold now : Time) (m : HealthManager) :
    HealthManager :=
  { m with
    state :=
      if now - m.lastUpdate ≤ missingSlotUnhealthyThreshold then .healthy else .unhealthy }

/-- The end of the `slot_receiver` arm, once the slot is sent on. -/
def HealthManager.forwarded (now : Time) (m : HealthManager) : HealthManager :=
  { m with phase := .selecting, lastUpdate := now }

end FlowraRelayer.Relayer
