/-
  Relayer/SlotPipeline.lean --- the way of a slot from the RPC servers to the
  event loop.

  Load balancer threads, slot channel, health manager, second slot channel, event
  loop: `slotStep` interleaves their steps in any order.  Everything behind the
  first channel is first in, first out, so the slots the event loop assigns come in
  the order they were sent (`conveys_slotStep`).  The order of sending is
  another matter: a thread raises the maximum and sends in two steps, and
  `assigned_increasing` needs that no thread is overtaken between them.
-/
import FlowraRelayer.Rpc.LoadBalancer
import FlowraRelayer.Relayer.HealthManager
import FlowraRelayer.Relayer.Offers

set_option autoImplicit false

namespace FlowraRelayer.Relayer

open FlowraRelayer.Foundation
open FlowraRelayer.Solana
open FlowraRelayer.Rpc

/-! ## The composed system -/

/-- The threads of the pipeline and the two channels between them. -/
structure SlotPipeline where
  exit : Bool
  balancer : LoadBalancer
  manager : HealthManager
  /-- what is in the channel to the event loop, oldest first -/
  downstream : List Slot
  relayer : LoopState
  relayerAlive : Bool
  /-- every value `update_highest_slot` assigned, in order -/
  assigned : List Slot

/-- What stays fixed: the servers, the health threshold and the event loop's own
parameters. -/
structure SlotConfig where
  servers : List (String × String)
  missingSlotUnhealthyThreshold : Time
  decode : List UInt8 → Option VersionedTransaction
  loop : LoopConfig

/-- The system as `main` starts it. -/
def SlotPipeline.init (cfg : SlotConfig) (now : Time) : SlotPipeline where
  exit := false
  balancer := LoadBalancer.new cfg.servers
  manager := HealthManager.new now
  downstream := []
  relayer := LoopState.init
  relayerAlive := true
  assigned := []

/-- The steps of the pipeline.  A thread may have read the exit flag before it was
set, so a step carries what it saw. -/
inductive SlotLabel where
  | setExit
  | thread (i : Nat) (sawExit : Bool) (label : ThreadLabel)
  | managerCheck (now : Time)
  | managerRecv
  | managerSend (now : Time)
  | managerExit
  | relayer (ev : LoopEvent)
  | relayerExit

/-- The manager thread ends and drops its end of the slot channel with what is in
it. -/
def SlotPipeline.stopManager (s : SlotPipeline) : SlotPipeline :=
  { s with
    manager := { s.manager with phase := .stopped }
    balancer := { s.balancer with queue := [], receiverAlive := false } }

/-- The event loop ends and drops its end of the second channel. -/
def SlotPipeline.stopRelayer (s : SlotPipeline) : SlotPipeline :=
  { s with relayerAlive := false, downstream := [] }

/-- What a turn of the event loop takes from the second channel, and what it
leaves; `none` if the channel does not hold what the event says. -/
def SlotPipeline.takeSlot (s : SlotPipeline) : LoopEvent → Option (List Slot × List Slot)
  | .slot (some slot) _ =>
      match s.downstream with
      | [] => none
      | head :: rest => if head = slot then some ([head], rest) else none
  | .slot none _ =>
      if s.downstream = [] ∧ s.manager.phase = .stopped then some ([], []) else none
  | _ => some ([], s.downstream)

/-- One step of one of the threads. -/
def slotStep (cfg : SlotConfig) (s : SlotPipeline) : SlotLabel → Option SlotPipeline
  | .setExit => some { s with exit := true }
  | .thread i sawExit label =>
      if sawExit → s.exit then
        (threadStep cfg.servers sawExit s.balancer i label).map fun balancer => { s with balancer }
      else none
  | .managerCheck now =>
      match s.manager.phase with
      | .selecting =>
          some { s with manager := s.manager.check cfg.missingSlotUnhealthyThreshold now }
      | _ => none
  | .managerRecv =>
      match s.manager.phase, s.balancer.queue with
      | .selecting, slot :: rest =>
          some
            { s with
              manager := { s.manager with phase := .forwarding slot }
              balancer := { s.balancer with queue := rest } }
      | .selecting, [] =>
          -- "error receiving slot, exiting": every sender is gone
          if ∀ i < cfg.servers.length, (s.balancer.threads i).phase = .stopped then
            some s.stopManager
          else none
      | _, _ => none
  | .managerSend now =>
      match s.manager.phase with
      | .forwarding slot =>
          if s.relayerAlive then
            if s.downstream.length < slotQueueCapacity then
              some
                { s with
                  manager := s.manager.forwarded now
                  downstream := s.downstream ++ [slot] }
            else none
          else some s.stopManager
      | _ => none
  | .managerExit =>
      if s.exit ∧ s.manager.phase = .selecting then some s.stopManager else none
  | .relayer ev =>
      if s.relayerAlive ∧ ev.Valid cfg.loop s.relayer then
        (s.takeSlot ev).map fun (taken, left) =>
          match handleEvent cfg.decode cfg.loop s.relayer ev with
          | .ok relayer => { s with relayer, downstream := left, assigned := s.assigned ++ taken }
          | .error _ => s.stopRelayer
      else none
  | .relayerExit => if s.exit then some s.stopRelayer else none

/-- Everything a step can do. -/
inductive SlotMove (cfg : SlotConfig) (s : SlotPipeline) : SlotLabel → SlotPipeline → Prop where
  | setExit : SlotMove cfg s .setExit { s with exit := true }
  | thread {i : Nat} {sawExit : Bool} {label : ThreadLabel} {balancer : LoadBalancer}
      (hthread : threadStep cfg.servers sawExit s.balancer i label = some balancer) :
      SlotMove cfg s (.thread i sawExit label) { s with balancer }
  | check (now : Time) :
      SlotMove cfg s (.managerCheck now)
        { s with manager := s.manager.check cfg.missingSlotUnhealthyThreshold now }
  | receives {slot : Slot} {rest : List Slot} (hphase : s.manager.phase = .selecting)
      (hqueue : s.balancer.queue = slot :: rest) :
      SlotMove cfg s .managerRecv
        { s with
          manager := { s.manager with phase := .forwarding slot }
          balancer := { s.balancer with queue := rest } }
  | forwards {slot : Slot} {now : Time} (hphase : s.manager.phase = .forwarding slot)
      (hroom : s.downstream.length < slotQueueCapacity) :
      SlotMove cfg s (.managerSend now)
        { s with manager := s.manager.forwarded now, downstream := s.downstream ++ [slot] }
  | managerEnds {label : SlotLabel} (hphase : s.manager.phase ≠ .stopped) :
      SlotMove cfg s label s.stopManager
  | turn {ev : LoopEvent} {relayer : LoopState} {taken left : List Slot}
      (htake : s.takeSlot ev = some (taken, left))
      (hturn : eventStep cfg.decode cfg.loop s.relayer ev = some relayer) :
      SlotMove cfg s (.relayer ev)
        { s with relayer, downstream := left, assigned := s.assigned ++ taken }
  | relayerFails {ev : LoopEvent} (halive : s.relayerAlive = true) :
      SlotMove cfg s (.relayer ev) s.stopRelayer
  | relayerExits : SlotMove cfg s .relayerExit s.stopRelayer

theorem move_of_slotStep {cfg : SlotConfig} {s s' : SlotPipeline} {label : SlotLabel}
    (h : slotStep cfg s label = some s') : SlotMove cfg s label s' := by
  cases label with
  | setExit =>
    cases h
    exact .setExit
  | thread i sawExit threadLabel =>
    simp only [slotStep, Option.ite_none_right_eq_some] at h
    obtain ⟨balancer, hthread, rfl⟩ := Option.map_eq_some_iff.mp h.2
    exact .thread hthread
  | managerCheck now =>
    simp only [slotStep] at h
    split at h
    · cases h
      exact .check now
    · cases h
  | managerRecv =>
    simp only [slotStep] at h
    split at h
    · next hphase hqueue =>
      cases h
      exact .receives hphase hqueue
    · next hphase _ =>
      rw [Option.ite_none_right_eq_some, Option.some.injEq] at h
      obtain ⟨-, rfl⟩ := h
      exact .managerEnds (by simp [hphase])
    · cases h
  | managerSend now =>
    simp only [slotStep] at h
    split at h
    · next hphase =>
      split at h
      · rw [Option.ite_none_right_eq_some, Option.some.injEq] at h
        obtain ⟨hroom, rfl⟩ := h
        exact .forwards hphase hroom
      · cases h
        exact .managerEnds (by simp [hphase])
    · cases h
  | managerExit =>
    simp only [slotStep, Option.ite_none_right_eq_some, Option.some.injEq] at h
    obtain ⟨⟨-, hphase⟩, rfl⟩ := h
    exact .managerEnds (by simp [hphase])
  | relayer ev =>
    simp only [slotStep, Option.ite_none_right_eq_some] at h
    obtain ⟨⟨halive, hvalid⟩, h⟩ := h
    obtain ⟨⟨taken, left⟩, htake, rfl⟩ := Option.map_eq_some_iff.mp h
    dsimp only
    split
    · next hok =>
      refine .turn htake ?_
      rw [eventStep, if_pos hvalid, hok]
      rfl
    · exact .relayerFails halive
  | relayerExit =>
    simp only [slotStep, Option.ite_none_right_eq_some, Option.some.injEq] at h
    obtain ⟨-, rfl⟩ := h
    exact .relayerExits

/-! ## First in, first out -/

/-- Every slot that has left the threads and is not lost, in the order in which the
event loop has assigned it or would. -/
def conveyed (s : SlotPipeline) : List Slot :=
  s.assigned ++ s.downstream ++ s.manager.phase.holding ++ s.balancer.queue

theorem conveyed_stopManager (s : SlotPipeline) :
    (conveyed s.stopManager).Sublist (conveyed s) := by
  have hstopped : conveyed s.stopManager = s.assigned ++ s.downstream := by
    simp [conveyed, SlotPipeline.stopManager, ManagerPhase.holding]
  rw [hstopped, conveyed, List.append_assoc _ s.manager.phase.holding]
  exact List.sublist_append_left _ _

theorem conveyed_stopRelayer (s : SlotPipeline) :
    (conveyed s.stopRelayer).Sublist (conveyed s) := by
  simp only [conveyed, SlotPipeline.stopRelayer, List.append_nil, List.append_assoc]
  exact (List.Sublist.refl s.assigned).append (List.sublist_append_right _ _)

/-- A turn of the event loop assigns what it takes out of the channel. -/
theorem takeSlot_append {s : SlotPipeline} {ev : LoopEvent} {taken left : List Slot}
    (h : s.takeSlot ev = some (taken, left)) : taken ++ left = s.downstream := by
  unfold SlotPipeline.takeSlot at h
  split at h
  · split at h
    · cases h
    · rename_i head rest hdown
      split at h
      · cases h
        exact hdown.symm
      · cases h
  · split at h
    · rename_i hnone
      cases h
      exact hnone.1.symm
    · cases h
  · cases h
    rfl

/-- The steps of the other threads leave the balancer's record and the event loop alone, and
convey nothing new and nothing out of order. -/
structure PassesOn (s s' : SlotPipeline) : Prop where
  relayer : s'.relayer = s.relayer
  assigned : s'.assigned = s.assigned
  threads : s'.balancer.threads = s.balancer.threads
  highestSlot : s'.balancer.highestSlot = s.balancer.highestSlot
  sent : s'.balancer.sent = s.balancer.sent
  conveyed : (conveyed s').Sublist (conveyed s)

/-- For the order of the slots there are three kinds of steps: of a load balancer thread, of
the event loop, and of the rest. -/
theorem slotStep_cases {cfg : SlotConfig} {s s' : SlotPipeline} {label : SlotLabel}
    (h : slotStep cfg s label = some s') :
    (∃ i sawExit threadLabel balancer, label = .thread i sawExit threadLabel ∧
      threadStep cfg.servers sawExit s.balancer i threadLabel = some balancer ∧
      s' = { s with balancer }) ∨
    (∃ ev relayer taken left, label = .relayer ev ∧ s.takeSlot ev = some (taken, left) ∧
      eventStep cfg.decode cfg.loop s.relayer ev = some relayer ∧
      s' = { s with relayer, downstream := left, assigned := s.assigned ++ taken }) ∨
    PassesOn s s' := by
  cases move_of_slotStep h with
  | thread hthread => exact .inl ⟨_, _, _, _, rfl, hthread, rfl⟩
  | turn htake hturn => exact .inr (.inl ⟨_, _, _, _, rfl, htake, hturn, rfl⟩)
  | setExit => exact .inr (.inr ⟨rfl, rfl, rfl, rfl, rfl, List.Sublist.refl _⟩)
  | check now => exact .inr (.inr ⟨rfl, rfl, rfl, rfl, rfl, List.Sublist.refl _⟩)
  | receives hphase hqueue =>
    refine .inr (.inr ⟨rfl, rfl, rfl, rfl, rfl, ?_⟩)
    simp [conveyed, ManagerPhase.holding, hphase, hqueue]
  | forwards hphase hroom =>
    refine .inr (.inr ⟨rfl, rfl, rfl, rfl, rfl, ?_⟩)
    simp [conveyed, ManagerPhase.holding, HealthManager.forwarded, hphase]
  | managerEnds hphase => exact .inr (.inr ⟨rfl, rfl, rfl, rfl, rfl, conveyed_stopManager s⟩)
  | relayerFails halive => exact .inr (.inr ⟨rfl, rfl, rfl, rfl, rfl, conveyed_stopRelayer s⟩)
  | relayerExits => exact .inr (.inr ⟨rfl, rfl, rfl, rfl, rfl, conveyed_stopRelayer s⟩)

/-- The invariant of the pipeline: what is conveyed was sent, in that order. -/
structure Conveys (cfg : SlotConfig) (s : SlotPipeline) : Prop where
  fanIn : FanIn cfg.servers s.balancer
  sublist : (conveyed s).Sublist s.balancer.sent

theorem conveys_init (cfg : SlotConfig) (now : Time) :
    Conveys cfg (SlotPipeline.init cfg now) where
  fanIn := fanIn_new cfg.servers
  sublist := List.Sublist.refl []

theorem conveys_slotStep {cfg : SlotConfig} (s : SlotPipeline) (label : SlotLabel)
    (s' : SlotPipeline) (hinv : Conveys cfg s) (h : slotStep cfg s label = some s') :
    Conveys cfg s' := by
  rcases slotStep_cases h with ⟨i, sawExit, threadLabel, balancer, rfl, hthread, rfl⟩ |
    ⟨ev, relayer, taken, left, rfl, htake, _, rfl⟩ | hpasses
  · refine ⟨fanIn_threadStep hinv.fanIn hthread, ?_⟩
    rcases threadStep_moves hthread with ⟨hsent, hqueue, _⟩ | ⟨_, _, hsent, hqueue, _⟩ |
      ⟨sent, _, _, hsent, hqueue, _⟩
    · simpa only [conveyed, hsent, hqueue] using hinv.sublist
    · simpa only [conveyed, hsent, hqueue] using hinv.sublist
    · simp only [conveyed, hsent, hqueue, ← List.append_assoc]
      exact hinv.sublist.append (List.Sublist.refl [sent])
  · refine ⟨hinv.fanIn, ?_⟩
    have hsame : conveyed
        { s with relayer, downstream := left, assigned := s.assigned ++ taken } = conveyed s := by
      simp only [conveyed]
      rw [List.append_assoc s.assigned taken, takeSlot_append htake]
    rw [hsame]
    exact hinv.sublist
  · refine ⟨fanIn_congr hinv.fanIn hpasses.threads hpasses.highestSlot hpasses.sent, ?_⟩
    rw [hpasses.sent]
    exact hpasses.conveyed.trans hinv.sublist

/-! ## The slot seen by the event loop -/

theorem highestSlot_eventStep {decode : List UInt8 → Option VersionedTransaction}
    {cfg : LoopConfig} {p : SlotPipeline} {relayer : LoopState} {ev : LoopEvent}
    {taken left : List Slot} (htake : p.takeSlot ev = some (taken, left))
    (h : eventStep decode cfg p.relayer ev = some relayer) :
    relayer.highestSlot = taken.getLastD p.relayer.highestSlot := by
  rcases eventStep_cases h with ⟨slot, schedule, rfl, rfl⟩ |
    ⟨batches, cache, order, env, rfl, _, _, rfl⟩ | ⟨owner, sender, rfl, rfl⟩ |
    ⟨order, trySend, rfl, _, rfl⟩ | ⟨order, trySend, rfl, _, rfl⟩ | ⟨rfl, rfl⟩
  · simp only [SlotPipeline.takeSlot] at htake
    split at htake
    · cases htake
    · split at htake
      · rename_i hhead
        cases htake
        exact hhead.symm
      · cases htake
  all_goals
    cases htake
    simp [dropConnections, applyAll_eq]

/-- `assigned` is what it is recorded to be: its last entry is the event loop's
`highest_slot`. -/
theorem highestSlot_eq_getLastD_assigned (cfg : SlotConfig) (now : Time)
    (labels : List SlotLabel) (s : SlotPipeline)
    (hrun : runSteps (slotStep cfg) (SlotPipeline.init cfg now) labels = some s) :
    s.relayer.highestSlot = s.assigned.getLastD 0 := by
  refine runSteps_invariant (fun s => s.relayer.highestSlot = s.assigned.getLastD 0) ?_ labels rfl
    hrun
  intro s label s' hinv h
  rcases slotStep_cases h with ⟨_, _, _, _, _, _, rfl⟩ |
    ⟨ev, relayer, taken, left, _, htake, hstep, rfl⟩ | hpasses
  · exact hinv
  · have hhighest := highestSlot_eventStep htake hstep
    dsimp only at hhighest ⊢
    rw [hhighest, hinv]
    cases taken using List.reverseRecOn <;> simp
  · rw [hpasses.relayer, hpasses.assigned]
    exact hinv

/-- The thread that sends a slot in a step. -/
def SlotLabel.sender? : SlotLabel → Option Nat
  | .thread i _ .send => some i
  | _ => none

/-- The condition on a step: a thread that sends overtakes no thread that is
between its `fetch_max` and its send. -/
def NoOvertaking (cfg : SlotConfig) (s : SlotPipeline) (label : SlotLabel) : Prop :=
  ∀ i ∈ label.sender?, OvertakesNone cfg.servers s.balancer i

instance (cfg : SlotConfig) (s : SlotPipeline) (label : SlotLabel) :
    Decidable (NoOvertaking cfg s label) :=
  inferInstanceAs (Decidable (∀ i ∈ label.sender?, _))

theorem sentInOrder_slotStep {cfg : SlotConfig} (s : SlotPipeline) (label : SlotLabel)
    (s' : SlotPipeline) (hinv : Conveys cfg s ∧ SentInOrder s.balancer)
    (hcond : NoOvertaking cfg s label) (h : slotStep cfg s label = some s') :
    Conveys cfg s' ∧ SentInOrder s'.balancer := by
  refine ⟨conveys_slotStep s label s' hinv.1 h, ?_⟩
  rcases slotStep_cases h with ⟨i, sawExit, threadLabel, balancer, rfl, hthread, rfl⟩ |
    ⟨ev, relayer, taken, left, rfl, _, _, rfl⟩ | hpasses
  · refine sentInOrder_threadStep hinv.1.fanIn hinv.2 (fun hsend => ?_) hthread
    subst hsend
    exact hcond i rfl
  · exact hinv.2
  · exact sentInOrder_congr hinv.2 hpasses.threads hpasses.sent

/-- In every run without overtaking, the slots assigned to `highest_slot` strictly
increase. -/
theorem assigned_increasing (cfg : SlotConfig) (now : Time) (labels : List SlotLabel)
    (s : SlotPipeline)
    (hmeets : StepsMeet (slotStep cfg) (NoOvertaking cfg) (SlotPipeline.init cfg now) labels)
    (hrun : runSteps (slotStep cfg) (SlotPipeline.init cfg now) labels = some s) :
    s.assigned.Pairwise (· < ·) := by
  obtain ⟨hconveys, hordered⟩ :=
    runSteps_invariant_of_meets (fun s => Conveys cfg s ∧ SentInOrder s.balancer)
      sentInOrder_slotStep labels ⟨conveys_init cfg now, sentInOrder_new cfg.servers⟩ hmeets hrun
  have hassigned : s.assigned.Sublist (conveyed s) := by
    unfold conveyed
    rw [List.append_assoc, List.append_assoc]
    exact List.sublist_append_left _ _
  exact hordered.increasing.sublist (hassigned.trans hconveys.sublist)

/-! ## Two servers -/

/-- Two RPC servers and an event loop that serves everyone. -/
def twoServerConfig : SlotConfig where
  servers := [("http://a", "ws://a"), ("http://b", "ws://b")]
  missingSlotUnhealthyThreshold := 10 * nanosPerSecond
  decode := fun _ => none
  loop := ⟨∅, 1, true, 3⟩

/-- A thread receives a slot and raises the maximum to it. -/
def raiseSlot (i : Nat) (slot : Slot) : List SlotLabel :=
  [ .thread i false (.subscribe 0 true)
  , .thread i false (.recv 0 (.slot slot))
  , .thread i false .insert
  , .thread i false .fetchMax ]

/-- One slot passes the manager and reaches the event loop. -/
def convey (slot : Slot) : List SlotLabel :=
  [.managerRecv, .managerSend 0, .relayer (.slot (some slot) fun _ => none)]

/-- Server 0 announces slot 5 and is overtaken by server 1 with slot 6. -/
def overtakingRun : List SlotLabel :=
  raiseSlot 0 5 ++ raiseSlot 1 6 ++ [.thread 1 false .send, .thread 0 false .send] ++
    convey 6 ++ convey 5

theorem assigned_not_increasing :
    ¬ ∀ (cfg : SlotConfig) (now : Time) (labels : List SlotLabel) (s : SlotPipeline),
      runSteps (slotStep cfg) (SlotPipeline.init cfg now) labels = some s →
      s.assigned.Pairwise (· < ·) := by
  intro hall
  have hrun : (runSteps (slotStep twoServerConfig) (SlotPipeline.init twoServerConfig 0)
      overtakingRun).map SlotPipeline.assigned = some [6, 5] := by decide
  obtain ⟨s, hs, hassigned⟩ := Option.map_eq_some_iff.mp hrun
  have hincreasing := hall twoServerConfig 0 overtakingRun s hs
  rw [hassigned] at hincreasing
  exact absurd hincreasing (by decide)

/-- The same two announcements, each sent before the other thread goes on. -/
def orderlyRun : List SlotLabel :=
  raiseSlot 0 5 ++ [.thread 0 false .send] ++ raiseSlot 1 6 ++ [.thread 1 false .send] ++
    convey 5 ++ convey 6

theorem assigned_increasing_orderlyRun :
    ∃ s, runSteps (slotStep twoServerConfig) (SlotPipeline.init twoServerConfig 0) orderlyRun =
        some s ∧
      s.assigned = [5, 6] ∧ s.assigned.Pairwise (· < ·) := by
  have hrun : (runSteps (slotStep twoServerConfig) (SlotPipeline.init twoServerConfig 0)
      orderlyRun).map SlotPipeline.assigned = some [5, 6] := by decide
  obtain ⟨s, hs, hassigned⟩ := Option.map_eq_some_iff.mp hrun
  have hmeets : StepsMeet (slotStep twoServerConfig) (NoOvertaking twoServerConfig)
      (SlotPipeline.init twoServerConfig 0) orderlyRun := by
    unfold StepsMeet
    decide
  exact ⟨s, hs, hassigned, assigned_increasing twoServerConfig 0 orderlyRun s hmeets hs⟩

end FlowraRelayer.Relayer
