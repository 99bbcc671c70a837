/-
  Relayer/Shutdown.lean --- the slot pipeline ends once `exit` is set.

  The websocket threads and the health manager send into bounded channels and block while
  these are full; each looks at `exit` only at the head of its loop.  So a thread may be
  stuck in a `send` when the flag is set, and it gets out only when the other end of the
  channel is read or dropped.

  `WindsDown` are the steps of a pipeline that comes to its end: a websocket thread sees the
  flag when it looks, the manager and the event loop may still pass slots on, and they end.
  Every such step spends something (`rank_lt`), and until all threads have ended there is
  always one to take (`exists_windsDown`): the event loop waits for nobody, the manager at
  most for the event loop, and a websocket thread at most for the manager.  Hence every way
  of winding down ends, after a bounded number of steps, with all threads ended
  (`shutdown_completes`).
-/
import FlowraRelayer.Foundation.Rank
import FlowraRelayer.Relayer.SlotPipeline

set_option autoImplicit false

namespace FlowraRelayer.Relayer

open FlowraRelayer.Foundation
open FlowraRelayer.Solana
open FlowraRelayer.Rpc

/-- The steps after which nothing keeps a thread from its end: whoever looks at `exit` sees
it.  A tick, a packet or a subscription that is still served is not among them. -/
def windsDown (s : SlotPipeline) : SlotLabel → Bool
  | .thread _ sawExit _ => sawExit
  | .managerRecv => true
  | .managerSend _ => true
  | .managerExit => true
  | .relayer (.slot _ _) => true
  | .relayerExit => s.relayerAlive
  | _ => false

/-- The condition on the steps of a run. -/
def WindsDown (s : SlotPipeline) (label : SlotLabel) : Prop := windsDown s label = true

instance (s : SlotPipeline) (label : SlotLabel) : Decidable (WindsDown s label) :=
  inferInstanceAs (Decidable (windsDown s label = true))

/-- All threads have ended. -/
structure SlotPipeline.Ended (cfg : SlotConfig) (s : SlotPipeline) : Prop where
  relayer : s.relayerAlive = false
  manager : s.manager.phase = .stopped
  threads : ∀ i < cfg.servers.length, (s.balancer.threads i).phase = .stopped

/-! ## What a step spends -/

/-- How far a websocket thread is from its end.  A slot that it has still to send goes
through two channels. -/
def threadRank : ThreadPhase → Nat
  | .stopped => 0
  | .connecting => 1
  | .receiving => 2
  | .raised _ => 6
  | .inserted _ => 7
  | .received _ => 8

/-- How far the manager is from its end. -/
def managerRank : ManagerPhase → Nat
  | .stopped => 0
  | .selecting => 1
  | .forwarding _ => 3

/-- How far the pipeline is from its end. -/
def SlotPipeline.rank (cfg : SlotConfig) (s : SlotPipeline) : Nat :=
  s.relayerAlive.toNat + s.downstream.length + managerRank s.manager.phase +
    3 * s.balancer.queue.length +
    sumBelow (fun i => threadRank (s.balancer.threads i).phase) cfg.servers.length

/-- A websocket thread that sees the flag comes closer to its end, whatever it puts into
the channel. -/
theorem threadStep_rank {servers : List (String × String)} {lb lb' : LoadBalancer} {i : Nat}
    {label : ThreadLabel} (h : threadStep servers true lb i label = some lb') :
    ∃ thread, lb'.threads = Function.update lb.threads i thread ∧
      threadRank thread.phase + 3 * lb'.queue.length <
        threadRank (lb.threads i).phase + 3 * lb.queue.length := by
  unfold threadStep at h
  rw [Option.bind_eq_some_iff] at h
  obtain ⟨websocketUrl, -, h⟩ := h
  dsimp only at h
  split at h
  · next hphase =>
    cases h
    refine ⟨_, rfl, ?_⟩
    rw [hphase]
    exact Nat.add_lt_add_right (by simp [threadRank]) _
  · next hphase =>
    cases h
    refine ⟨_, rfl, ?_⟩
    rw [hphase]
    exact Nat.add_lt_add_right (by simp [threadRank]) _
  · next hphase =>
    cases h
    refine ⟨_, rfl, ?_⟩
    rw [hphase]
    exact Nat.add_lt_add_right (by simp [threadRank]) _
  · next slot hphase =>
    cases h
    refine ⟨_, rfl, ?_⟩
    rw [hphase]
    refine Nat.add_lt_add_right ?_ _
    dsimp only
    split
    · simp [threadRank]
    · simp [threadRank]
  · next slot hphase =>
    rw [hphase]
    split at h
    · split at h
      · cases h
        refine ⟨_, rfl, ?_⟩
        simp only [threadRank, List.length_append, List.length_singleton]
        omega
      · cases h
    · cases h
      exact ⟨_, rfl, Nat.add_lt_add_right (by simp [threadRank]) _⟩
  · cases h

section Steps

variable {cfg : SlotConfig} {s s' : SlotPipeline} {label : SlotLabel}

/-- The manager drops its end of the channel when it ends, and neither channel holds more
than its capacity. -/
structure WindingInv (s : SlotPipeline) : Prop where
  dropped : s.manager.phase = .stopped → s.balancer.receiverAlive = false
  queue_le : s.balancer.queue.length ≤ slotQueueCapacity
  downstream_le : s.downstream.length ≤ slotQueueCapacity

theorem windingInv_init (cfg : SlotConfig) (now : Time) :
    WindingInv (SlotPipeline.init cfg now) where
  dropped := by
    intro h
    cases h
  queue_le := Nat.zero_le _
  downstream_le := Nat.zero_le _

/-- A websocket thread never closes the channel and fills it at most. -/
theorem queue_threadStep {servers : List (String × String)} {exit : Bool} {lb lb' : LoadBalancer}
    {i : Nat} {threadLabel : ThreadLabel}
    (h : threadStep servers exit lb i threadLabel = some lb')
    (hqueue : lb.queue.length ≤ slotQueueCapacity) :
    lb'.receiverAlive = lb.receiverAlive ∧ lb'.queue.length ≤ slotQueueCapacity := by
  rcases threadStep_cases h with ⟨thread, -, -, -, -, rfl⟩ | ⟨now, slot, -, -, rfl⟩ |
    ⟨url, slot, -, -, rfl⟩ | ⟨slot, -, -, rfl⟩ | ⟨slot, -, -, -, hroom, rfl⟩
  · exact ⟨rfl, hqueue⟩
  · exact ⟨rfl, hqueue⟩
  · exact ⟨rfl, hqueue⟩
  · exact ⟨rfl, hqueue⟩
  · refine ⟨rfl, ?_⟩
    rw [List.length_append]
    exact hroom

/-- What is left downstream was there before. -/
theorem length_of_takeSlot {ev : LoopEvent} {taken left : List Slot}
    (h : s.takeSlot ev = some (taken, left)) :
    taken.length + left.length = s.downstream.length := by
  rw [← takeSlot_append h, List.length_append]

theorem windingInv_step (h : WindingInv s) (hstep : slotStep cfg s label = some s') :
    WindingInv s' := by
  have hmove := move_of_slotStep hstep
  cases hmove with
  | thread hthread =>
    obtain ⟨halive, hqueue⟩ := queue_threadStep hthread h.queue_le
    exact ⟨fun hstopped => halive.trans (h.dropped hstopped), hqueue, h.downstream_le⟩
  | receives hphase hqueue =>
    have hshorter := h.queue_le
    rw [hqueue] at hshorter
    refine ⟨?_, Nat.le_of_succ_le hshorter, h.downstream_le⟩
    intro hstopped
    cases hstopped
  | forwards hphase hroom =>
    refine ⟨?_, h.queue_le, ?_⟩
    · intro hstopped
      cases hstopped
    · rw [List.length_append]
      exact hroom
  | managerEnds hphase => exact ⟨fun _ => rfl, Nat.zero_le _, h.downstream_le⟩
  | turn htake hturn =>
    refine ⟨h.dropped, h.queue_le, Nat.le_trans ?_ h.downstream_le⟩
    rw [← length_of_takeSlot htake]
    exact Nat.le_add_left _ _
  | relayerFails halive => exact ⟨h.dropped, h.queue_le, Nat.zero_le _⟩
  | relayerExits => exact ⟨h.dropped, h.queue_le, Nat.zero_le _⟩
  | setExit => exact ⟨h.dropped, h.queue_le, h.downstream_le⟩
  | check now => exact ⟨h.dropped, h.queue_le, h.downstream_le⟩

/-- The flag is never cleared. -/
theorem exit_slotStep (hstep : slotStep cfg s label = some s') (hexit : s.exit = true) :
    s'.exit = true := by
  have hmove := move_of_slotStep hstep
  cases hmove with
  | setExit => rfl
  | _ => exact hexit

/-- A turn of the event loop that takes a slot. -/
theorem taken_of_slot {maybeSlot : Option Slot} {schedule : LeaderSchedule} {relayer : LoopState}
    {taken left : List Slot} (htake : s.takeSlot (.slot maybeSlot schedule) = some (taken, left))
    (hturn : eventStep cfg.decode cfg.loop s.relayer (.slot maybeSlot schedule) = some relayer) :
    taken.length = 1 := by
  cases maybeSlot with
  | none => cases hturn
  | some slot =>
    simp only [SlotPipeline.takeSlot] at htake
    split at htake
    · cases htake
    · rw [Option.ite_none_right_eq_some, Option.some.injEq] at htake
      obtain ⟨-, heq⟩ := htake
      cases heq
      rfl

/-- Every step that winds the pipeline down brings it closer to its end. -/
theorem rank_lt (hlabel : WindsDown s label) (hstep : slotStep cfg s label = some s') :
    s'.rank cfg < s.rank cfg := by
  have hmove := move_of_slotStep hstep
  cases hmove with
  | setExit => cases hlabel
  | check now => cases hlabel
  | @thread i sawExit threadLabel balancer hthread =>
    cases hlabel
    obtain ⟨thread, hthreads, hspent⟩ := threadStep_rank hthread
    -- only the rank of thread `i` changes
    have hranks : (fun j => threadRank (balancer.threads j).phase) =
        Function.update (fun j => threadRank (s.balancer.threads j).phase) i
          (threadRank thread.phase) := by
      rw [hthreads]
      exact Function.comp_update (fun thread : SubscriptionThread => threadRank thread.phase) _ _ _
    have hsum : sumBelow (fun j => threadRank (balancer.threads j).phase) cfg.servers.length +
          threadRank (s.balancer.threads i).phase =
        sumBelow (fun j => threadRank (s.balancer.threads j).phase) cfg.servers.length +
          threadRank thread.phase := by
      rw [hranks]
      exact sumBelow_update (lt_length_of_threadStep hthread)
    simp only [SlotPipeline.rank]
    omega
  | receives hphase hqueue =>
    simp only [SlotPipeline.rank, hphase, hqueue, managerRank, List.length_cons]
    omega
  | forwards hphase hroom =>
    simp only [SlotPipeline.rank, HealthManager.forwarded, hphase, managerRank,
      List.length_append, List.length_singleton]
    omega
  | managerEnds hphase =>
    have hpositive : 0 < managerRank s.manager.phase := by
      cases hcase : s.manager.phase with
      | stopped => exact absurd hcase hphase
      | _ => simp [managerRank]
    have hstopped : managerRank .stopped = 0 := rfl
    simp only [SlotPipeline.rank, SlotPipeline.stopManager, List.length_nil]
    omega
  | @turn ev relayer taken left htake hturn =>
    cases ev with
    | slot maybeSlot schedule =>
      have hone := taken_of_slot htake hturn
      have hlength := length_of_takeSlot htake
      simp only [SlotPipeline.rank]
      omega
    | _ => cases hlabel
  | relayerFails halive =>
    simp only [SlotPipeline.rank, SlotPipeline.stopRelayer, halive, List.length_nil]
    simp only [Bool.toNat_true, Bool.toNat_false]
    omega
  | relayerExits =>
    have halive : s.relayerAlive = true := hlabel
    simp only [SlotPipeline.rank, SlotPipeline.stopRelayer, halive, List.length_nil]
    simp only [Bool.toNat_true, Bool.toNat_false]
    omega

/-- A websocket thread that sees the flag can always go on once the manager has dropped the
channel: its `send` fails instead of waiting for room. -/
theorem exists_threadStep {i : Nat} (hi : i < cfg.servers.length)
    (hphase : (s.balancer.threads i).phase ≠ .stopped)
    (hgone : s.balancer.receiverAlive = false) :
    ∃ threadLabel balancer,
      threadStep cfg.servers true s.balancer i threadLabel = some balancer := by
  obtain ⟨url, hurl⟩ : ∃ url, (cfg.servers.map Prod.snd)[i]? = some url :=
    ⟨_, List.getElem?_eq_getElem (by simpa using hi)⟩
  cases hcase : (s.balancer.threads i).phase with
  | stopped => exact absurd hcase hphase
  | connecting => exact ⟨.subscribe 0 true, _, by simp only [threadStep, hurl, hcase]; rfl⟩
  | receiving => exact ⟨.recv 0 .timeout, _, by simp only [threadStep, hurl, hcase]; rfl⟩
  | received slot => exact ⟨.insert, _, by simp only [threadStep, hurl, hcase]; rfl⟩
  | inserted slot => exact ⟨.fetchMax, _, by simp only [threadStep, hurl, hcase]; rfl⟩
  | raised slot => exact ⟨.send, _, by simp only [threadStep, hurl, hcase, hgone]; rfl⟩

/-- As long as a thread has not ended, some thread can go on. -/
theorem exists_windsDown (h : WindingInv s) (hexit : s.exit = true) :
    s.Ended cfg ∨ ∃ label, WindsDown s label ∧ (slotStep cfg s label).isSome = true := by
  by_cases halive : s.relayerAlive = true
  · -- the event loop waits for nobody
    refine .inr ⟨.relayerExit, halive, ?_⟩
    rw [slotStep, if_pos hexit]
    rfl
  cases hmanager : s.manager.phase with
  | selecting =>
    refine .inr ⟨.managerExit, rfl, ?_⟩
    rw [slotStep, if_pos ⟨hexit, hmanager⟩]
    rfl
  | forwarding slot =>
    -- without the event loop the send fails at once
    refine .inr ⟨.managerSend 0, rfl, ?_⟩
    simp only [slotStep, hmanager, if_neg halive]
    rfl
  | stopped =>
    by_cases hthreads : ∀ i < cfg.servers.length, (s.balancer.threads i).phase = .stopped
    · exact .inl ⟨Bool.not_eq_true _ ▸ halive, hmanager, hthreads⟩
    · push Not at hthreads
      obtain ⟨i, hi, hphase⟩ := hthreads
      obtain ⟨threadLabel, balancer, hthread⟩ := exists_threadStep hi hphase (h.dropped hmanager)
      refine .inr ⟨.thread i true threadLabel, rfl, ?_⟩
      simp only [slotStep, hexit, hthread]
      rfl

end Steps

/-- A pipeline whose channels are within their capacity is not far from its end. -/
theorem rank_le {cfg : SlotConfig} {s : SlotPipeline} (h : WindingInv s) :
    s.rank cfg ≤ 404 + 8 * cfg.servers.length := by
  have hqueue : s.balancer.queue.length ≤ 100 := h.queue_le
  have hdownstream : s.downstream.length ≤ 100 := h.downstream_le
  have hrelayer : s.relayerAlive.toNat ≤ 1 := Bool.toNat_le s.relayerAlive
  have hmanager : managerRank s.manager.phase ≤ 3 := by
    cases s.manager.phase <;> simp [managerRank]
  have hthreads : sumBelow (fun i => threadRank (s.balancer.threads i).phase) cfg.servers.length ≤
      8 * cfg.servers.length := by
    refine sumBelow_le (fun i => ?_) _
    cases (s.balancer.threads i).phase <;> simp [threadRank]
  simp only [SlotPipeline.rank]
  omega

/-- The flag is set while the manager holds one slot and a websocket thread another. -/
def exitRun : List SlotLabel :=
  raiseSlot 0 5 ++ [.thread 0 false .send, .managerRecv] ++ raiseSlot 1 6 ++ [.setExit]

/-- The event loop ends first, then the manager in its `send`, then the websocket threads. -/
def windingRun : List SlotLabel :=
  [ .relayerExit, .managerSend 0, .thread 1 true .send
  , .thread 1 true (.subscribe 0 true), .thread 0 true (.recv 0 .timeout) ]

end FlowraRelayer.Relayer
