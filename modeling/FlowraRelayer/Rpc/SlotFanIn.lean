/-
  Rpc/SlotFanIn.lean --- what the subscription threads put into the slot channel, over
  whole runs.

  `fanInStep` interleaves the steps of all subscription threads with a receiver that
  takes slots at any time and may go away at any time.  Three things follow for every
  interleaving: no slot is sent twice, nothing is sent that no server announced, and the
  maximum is never lost unless a send fails.

  The decision to send and the send are two steps.  `SlotsAccounted` carries the slot in
  between: the shared maximum has been sent, or the thread that raised it still holds it.

  The fields `compared` and `failedSends` record what happened; no step reads them.
-/
import FlowraRelayer.Rpc.LoadBalancer

set_option autoImplicit false

namespace FlowraRelayer.Rpc

open FlowraRelayer.Foundation
open FlowraRelayer.Solana

/-! ## Threads and receiver -/

/-- The subscription threads with the exit flag they share. -/
structure FanInState where
  exit : Bool
  balancer : LoadBalancer
  /-- every slot a thread passed to `fetch_max` -/
  compared : List Slot
  /-- every slot whose `send` failed -/
  failedSends : List Slot

/-- The threads as `LoadBalancer::new` starts them. -/
def FanInState.init (servers : List (String × String)) : FanInState where
  exit := false
  balancer := LoadBalancer.new servers
  compared := []
  failedSends := []

/-- The steps.  A thread may have read the exit flag before it was set, so its step
carries what it saw. -/
inductive FanInLabel where
  | setExit
  | thread (i : Nat) (sawExit : Bool) (label : ThreadLabel)
  | takeSlot
  | dropReceiver
  deriving DecidableEq

/-- The slot a step of thread `i` passes to `fetch_max`. -/
def LoadBalancer.comparing? (lb : LoadBalancer) (i : Nat) (label : ThreadLabel) : Option Slot :=
  match (lb.threads i).phase, label with
  | .inserted slot, .fetchMax => some slot
  | _, _ => none

/-- The slot a step of thread `i` fails to send. -/
def LoadBalancer.failing? (lb : LoadBalancer) (i : Nat) (label : ThreadLabel) : Option Slot :=
  match (lb.threads i).phase, label with
  | .raised slot, .send => if lb.receiverAlive then none else some slot
  | _, _ => none

/-- One step of a thread or of the receiver. -/
def fanInStep (servers : List (String × String)) (s : FanInState) :
    FanInLabel → Option FanInState
  | .setExit => some { s with exit := true }
  | .thread i sawExit label =>
      if sawExit → s.exit then
        (threadStep servers sawExit s.balancer i label).map fun balancer =>
          { s with
            balancer
            compared := s.compared ++ (s.balancer.comparing? i label).toList
            failedSends := s.failedSends ++ (s.balancer.failing? i label).toList }
      else none
  | .takeSlot =>
      match s.balancer.queue with
      | [] => none
      | _ :: rest => some { s with balancer := { s.balancer with queue := rest } }
  | .dropReceiver =>
      some { s with balancer := { s.balancer with queue := [], receiverAlive := false } }

/-! ## One step of a thread -/

/-- The slot a thread holds between receiving it and being done with it. -/
def ThreadPhase.held? : ThreadPhase → Option Slot
  | .received slot => some slot
  | .inserted slot => some slot
  | .raised slot => some slot
  | _ => none

section ThreadStep

variable {servers : List (String × String)} {exit : Bool} {lb lb' : LoadBalancer} {i j : Nat}
  {label : ThreadLabel} {slot : Slot}

/-- A thread that has noted a slot compares it next. -/
theorem threadStep_of_inserted (hphase : (lb.threads i).phase = .inserted slot)
    (h : threadStep servers exit lb i label = some lb') :
    label = .fetchMax ∧ lb' =
      { lb.setThread i
          { lb.threads i with
            phase := if lb.highestSlot < slot then .raised slot else .receiving } with
        highestSlot := max lb.highestSlot slot } := by
  unfold threadStep at h
  rw [Option.bind_eq_some_iff] at h
  obtain ⟨_, _, h⟩ := h
  simp only [hphase] at h
  cases label with
  | fetchMax => exact ⟨rfl, (Option.some.inj h).symm⟩
  | subscribe | recv | insert | send => cases h

/-- A thread that has raised the maximum sends next, and the slot goes into the channel
if there still is a receiver. -/
theorem threadStep_of_raised (hphase : (lb.threads i).phase = .raised slot)
    (h : threadStep servers exit lb i label = some lb') :
    label = .send ∧ (lb.receiverAlive = true → lb'.sent = lb.sent ++ [slot]) := by
  unfold threadStep at h
  rw [Option.bind_eq_some_iff] at h
  obtain ⟨_, _, h⟩ := h
  simp only [hphase] at h
  cases label with
  | send =>
    refine ⟨rfl, fun halive => ?_⟩
    simp only [if_pos halive, Option.ite_none_right_eq_some] at h
    obtain ⟨-, h⟩ := h
    cases h
    rfl
  | subscribe | recv | insert | fetchMax => cases h

theorem comparing?_eq_some_iff :
    lb.comparing? i label = some slot ↔
      (lb.threads i).phase = .inserted slot ∧ label = .fetchMax := by
  unfold LoadBalancer.comparing?
  cases (lb.threads i).phase <;> cases label <;> simp

theorem failing?_eq_some_iff :
    lb.failing? i label = some slot ↔
      (lb.threads i).phase = .raised slot ∧ label = .send ∧ lb.receiverAlive = false := by
  unfold LoadBalancer.failing?
  cases (lb.threads i).phase <;> cases label <;> simp [and_comm]

/-- The maximum moves only when a slot is compared. -/
theorem highestSlot_of_comparing?_eq_none (hnone : lb.comparing? i label = none)
    (h : threadStep servers exit lb i label = some lb') : lb'.highestSlot = lb.highestSlot := by
  rcases threadStep_cases h with ⟨_, _, _, _, _, rfl⟩ | ⟨_, _, _, _, rfl⟩ |
    ⟨_, _, _, _, rfl⟩ | ⟨slot, hlabel, hphase, _⟩ | ⟨_, _, _, _, _, rfl⟩
  · rfl
  · rfl
  · rfl
  · rw [comparing?_eq_some_iff.mpr ⟨hphase, hlabel⟩] at hnone
    cases hnone
  · rfl

/-- The shared maximum is raised by what is passed to `fetch_max`, and by nothing else. -/
theorem highestSlot_threadStep (h : threadStep servers exit lb i label = some lb') :
    lb'.highestSlot = (lb.comparing? i label).toList.foldl max lb.highestSlot := by
  cases hcompared : lb.comparing? i label with
  | none => exact highestSlot_of_comparing?_eq_none hcompared h
  | some slot =>
    obtain ⟨hphase, -⟩ := comparing?_eq_some_iff.mp hcompared
    obtain ⟨-, rfl⟩ := threadStep_of_inserted hphase h
    rfl

/-- The thread that moves the maximum holds it. -/
theorem pending_of_highestSlot_ne (h : threadStep servers exit lb i label = some lb')
    (hne : lb'.highestSlot ≠ lb.highestSlot) : lb'.Pending i lb'.highestSlot := by
  cases hcompared : lb.comparing? i label with
  | none => exact absurd (highestSlot_of_comparing?_eq_none hcompared h) hne
  | some slot =>
    obtain ⟨hphase, -⟩ := comparing?_eq_some_iff.mp hcompared
    obtain ⟨-, rfl⟩ := threadStep_of_inserted hphase h
    by_cases hlt : lb.highestSlot < slot
    · simp [LoadBalancer.Pending, LoadBalancer.setThread, hlt, Nat.max_eq_right hlt.le]
    · exact absurd (Nat.max_eq_left (Nat.le_of_not_lt hlt)) hne

theorem sent_subset_threadStep (h : threadStep servers exit lb i label = some lb') :
    lb.sent ⊆ lb'.sent := by
  rcases threadStep_moves h with ⟨hsent, _⟩ | ⟨_, _, hsent, _⟩ | ⟨_, _, _, hsent, _⟩
  · rw [hsent]
    exact List.Subset.refl _
  · rw [hsent]
    exact List.Subset.refl _
  · rw [hsent]
    exact List.subset_append_left _ _

/-- A slot that is still to be sent stays so, or is sent, unless its send fails. -/
theorem pending_threadStep (hok : lb.failing? i label = none)
    (h : threadStep servers exit lb i label = some lb') (hpending : lb.Pending j slot) :
    lb'.Pending j slot ∨ slot ∈ lb'.sent := by
  by_cases hj : j = i
  · subst hj
    obtain ⟨hlabel, hsent⟩ := threadStep_of_raised hpending h
    cases halive : lb.receiverAlive with
    | false =>
      rw [failing?_eq_some_iff.mpr ⟨hpending, hlabel, halive⟩] at hok
      cases hok
    | true =>
      rw [hsent halive]
      exact .inr (by simp)
  · -- the other threads are left alone
    have hother : ∀ thread, (lb.setThread i thread).Pending j slot := by
      intro thread
      rw [pending_setThread, if_neg hj]
      exact hpending
    rcases threadStep_cases h with ⟨_, _, _, _, _, rfl⟩ | ⟨_, _, _, _, rfl⟩ |
      ⟨_, _, _, _, rfl⟩ | ⟨_, _, _, rfl⟩ | ⟨_, _, _, _, _, rfl⟩
    all_goals exact .inl (hother _)

end ThreadStep

/-! ## Nothing is sent that was not received -/

/-- Every slot that is held or was sent was received. -/
structure FromServers (lb : LoadBalancer) : Prop where
  held : ∀ i slot, (lb.threads i).phase.held? = some slot → slot ∈ lb.received
  sent : ∀ slot ∈ lb.sent, slot ∈ lb.received

theorem fromServers_new (servers : List (String × String)) :
    FromServers (LoadBalancer.new servers) where
  held := by simp [LoadBalancer.new, ThreadPhase.held?]
  sent := by simp [LoadBalancer.new]

/-- A thread may be replaced by one whose slot was received. -/
theorem held?_setThread {lb : LoadBalancer} (hinv : FromServers lb) {i : Nat}
    {thread : SubscriptionThread}
    (hthread : ∀ slot, thread.phase.held? = some slot → slot ∈ lb.received) :
    ∀ j slot, ((lb.setThread i thread).threads j).phase.held? = some slot → slot ∈ lb.received := by
  intro j slot hheld
  by_cases hj : j = i
  · subst hj
    simp only [LoadBalancer.setThread, Function.update_self] at hheld
    exact hthread slot hheld
  · simp only [LoadBalancer.setThread, Function.update_of_ne hj] at hheld
    exact hinv.held j slot hheld

theorem fromServers_threadStep {servers : List (String × String)} {exit : Bool}
    {lb lb' : LoadBalancer} {i : Nat} {label : ThreadLabel} (hinv : FromServers lb)
    (h : threadStep servers exit lb i label = some lb') : FromServers lb' := by
  rcases threadStep_cases h with ⟨thread, hreceived, hinserted, hraised, _, rfl⟩ |
    ⟨now, slot, _, _, rfl⟩ | ⟨_, slot, _, hphase, rfl⟩ | ⟨slot, _, hphase, rfl⟩ |
    ⟨slot, _, hphase, _, _, rfl⟩
  · refine ⟨held?_setThread hinv ?_, hinv.sent⟩
    intro slot hheld
    cases hphase : thread.phase with
    | received slot => exact absurd hphase (hreceived slot)
    | inserted slot => exact absurd hphase (hinserted slot)
    | raised slot => exact absurd hphase (hraised slot)
    | connecting | receiving | stopped =>
      rw [hphase] at hheld
      cases hheld
  · -- the record grows by the slot that the thread now holds
    refine ⟨?_, fun other hother => List.mem_append_left _ (hinv.sent other hother)⟩
    intro j other hheld
    by_cases hj : j = i
    · subst hj
      simp only [LoadBalancer.setThread, Function.update_self, ThreadPhase.held?,
        Option.some.injEq] at hheld
      simp [hheld]
    · simp only [LoadBalancer.setThread, Function.update_of_ne hj] at hheld
      exact List.mem_append_left _ (hinv.held j other hheld)
  · have hslot : slot ∈ lb.received := hinv.held i slot (by rw [hphase]; rfl)
    refine ⟨held?_setThread hinv ?_, hinv.sent⟩
    intro other hheld
    cases hheld
    exact hslot
  · have hslot : slot ∈ lb.received := hinv.held i slot (by rw [hphase]; rfl)
    refine ⟨held?_setThread hinv ?_, hinv.sent⟩
    intro other hheld
    dsimp only at hheld
    split at hheld
    · cases hheld
      exact hslot
    · cases hheld
  · have hslot : slot ∈ lb.received := hinv.held i slot (by rw [hphase]; rfl)
    refine ⟨held?_setThread hinv (by simp [ThreadPhase.held?]), ?_⟩
    intro other hother
    rcases List.mem_append.mp hother with hold | hnew
    · exact hinv.sent other hold
    · rw [List.mem_singleton.mp hnew]
      exact hslot

/-! ## Nothing is sent twice -/

/-- The slots sent are distinct, and none of them is still to be sent. -/
structure SentOnce (lb : LoadBalancer) : Prop where
  nodup : lb.sent.Nodup
  pending : ∀ i slot, lb.Pending i slot → slot ∉ lb.sent

theorem sentOnce_new (servers : List (String × String)) : SentOnce (LoadBalancer.new servers) where
  nodup := List.nodup_nil
  pending := by simp [LoadBalancer.new]

theorem sentOnce_threadStep {servers : List (String × String)} {exit : Bool}
    {lb lb' : LoadBalancer} {i : Nat} {label : ThreadLabel} (hfan : FanIn servers lb)
    (hinv : SentOnce lb) (h : threadStep servers exit lb i label = some lb') : SentOnce lb' := by
  rcases threadStep_moves h with ⟨hsent, _, _, hpending⟩ |
    ⟨raised, hlt, hsent, _, _, hpending⟩ | ⟨sent, _, hmine, hsent, _, _, hpending⟩
  · refine ⟨by rw [hsent]; exact hinv.nodup, ?_⟩
    intro j slot hj
    rw [hsent]
    exact hinv.pending j slot (hpending j slot hj)
  · refine ⟨by rw [hsent]; exact hinv.nodup, ?_⟩
    intro j slot hj
    rw [hsent]
    rcases hpending j slot hj with ⟨_, rfl⟩ | hold
    · -- a slot that raises the maximum is above everything sent
      intro hmem
      exact Nat.not_le_of_lt hlt (hfan.sent_le slot hmem)
    · exact hinv.pending j slot hold
  · refine ⟨?_, ?_⟩
    · rw [hsent, ← List.concat_eq_append]
      exact hinv.nodup.concat (hinv.pending i sent hmine)
    · intro j slot hj hmem
      obtain ⟨hne, hold⟩ := hpending j slot hj
      rw [hsent] at hmem
      rcases List.mem_append.mp hmem with hbefore | hnow
      · exact hinv.pending j slot hold hbefore
      · rw [List.mem_singleton.mp hnow] at hold
        exact hne (hfan.pending_unique j i sent hold hmine)

/-! ## Whole runs -/

/-- What holds of the fan-in in every state: the slots sent were received and are
distinct, the shared maximum is that of the slots compared, and as long as no send fails
it has been sent or a thread is about to send it. -/
structure SlotsAccounted (servers : List (String × String)) (s : FanInState) : Prop where
  fanIn : FanIn servers s.balancer
  fromServers : FromServers s.balancer
  sentOnce : SentOnce s.balancer
  highest : s.balancer.highestSlot = s.compared.foldl max 0
  carried : s.failedSends = [] → 0 < s.balancer.highestSlot →
    s.balancer.highestSlot ∈ s.balancer.sent ∨ ∃ i, s.balancer.Pending i s.balancer.highestSlot

theorem slotsAccounted_init (servers : List (String × String)) :
    SlotsAccounted servers (FanInState.init servers) where
  fanIn := fanIn_new servers
  fromServers := fromServers_new servers
  sentOnce := sentOnce_new servers
  highest := rfl
  carried := fun _ hpos => absurd hpos (Nat.lt_irrefl 0)

/-- A step of a thread. -/
theorem slotsAccounted_thread {servers : List (String × String)} {s : FanInState} {exit : Bool}
    {i : Nat} {label : ThreadLabel} {balancer : LoadBalancer} (hinv : SlotsAccounted servers s)
    (h : threadStep servers exit s.balancer i label = some balancer) :
    SlotsAccounted servers
      { s with
        balancer
        compared := s.compared ++ (s.balancer.comparing? i label).toList
        failedSends := s.failedSends ++ (s.balancer.failing? i label).toList } where
  fanIn := fanIn_threadStep hinv.fanIn h
  fromServers := fromServers_threadStep hinv.fromServers h
  sentOnce := sentOnce_threadStep hinv.fanIn hinv.sentOnce h
  highest := by
    rw [List.foldl_append, ← hinv.highest]
    exact highestSlot_threadStep h
  carried := by
    intro hnone hpos
    dsimp only at hnone hpos ⊢
    rw [List.append_eq_nil_iff, Option.toList_eq_nil_iff] at hnone
    by_cases hsame : balancer.highestSlot = s.balancer.highestSlot
    · rw [hsame] at hpos ⊢
      rcases hinv.carried hnone.1 hpos with hsent | ⟨j, hpending⟩
      · exact .inl (sent_subset_threadStep h hsent)
      · rcases pending_threadStep hnone.2 h hpending with hstill | hsent
        · exact .inr ⟨j, hstill⟩
        · exact .inl hsent
    · exact .inr ⟨i, pending_of_highestSlot_ne h hsame⟩

/-- The receiver touches neither the threads nor the record. -/
theorem slotsAccounted_receiver {servers : List (String × String)} {s : FanInState}
    (hinv : SlotsAccounted servers s) (queue : List Slot) (receiverAlive : Bool) :
    SlotsAccounted servers { s with balancer := { s.balancer with queue, receiverAlive } } where
  fanIn := fanIn_congr hinv.fanIn rfl rfl rfl
  fromServers := ⟨hinv.fromServers.held, hinv.fromServers.sent⟩
  sentOnce := ⟨hinv.sentOnce.nodup, hinv.sentOnce.pending⟩
  highest := hinv.highest
  carried := hinv.carried

theorem slotsAccounted_fanInStep {servers : List (String × String)} {s s' : FanInState}
    {label : FanInLabel} (hinv : SlotsAccounted servers s)
    (h : fanInStep servers s label = some s') : SlotsAccounted servers s' := by
  cases label with
  | setExit =>
    cases h
    exact ⟨hinv.fanIn, hinv.fromServers, hinv.sentOnce, hinv.highest, hinv.carried⟩
  | thread i sawExit label =>
    simp only [fanInStep, Option.ite_none_right_eq_some, Option.map_eq_some_iff] at h
    obtain ⟨-, balancer, hthread, rfl⟩ := h
    exact slotsAccounted_thread hinv hthread
  | takeSlot =>
    simp only [fanInStep] at h
    split at h
    · cases h
    · cases h
      exact slotsAccounted_receiver hinv _ _
  | dropReceiver =>
    cases h
    exact slotsAccounted_receiver hinv _ _

theorem slotsAccounted_of_run (servers : List (String × String)) (ls : List FanInLabel)
    {s : FanInState} (hrun : runSteps (fanInStep servers) (FanInState.init servers) ls = some s) :
    SlotsAccounted servers s :=
  runSteps_invariant (SlotsAccounted servers)
    (fun _ _ _ hinv hstep => slotsAccounted_fanInStep hinv hstep) ls (slotsAccounted_init servers)
    hrun

/-- For every interleaving of the subscription threads: no slot is sent twice, every slot
sent was received, and where no thread stands between its `fetch_max` and its `send` and
no send has failed, the greatest slot sent is the greatest slot compared. -/
theorem fan_in_complete_without_duplicates (servers : List (String × String))
    (ls : List FanInLabel) (s : FanInState)
    (hrun : runSteps (fanInStep servers) (FanInState.init servers) ls = some s) :
    s.balancer.sent.Nodup ∧ (∀ slot ∈ s.balancer.sent, slot ∈ s.balancer.received) ∧
      ((∀ i slot, ¬ s.balancer.Pending i slot) → s.failedSends = [] →
        ∀ m, s.compared.max? = some m → 0 < m → s.balancer.sent.max? = some m) := by
  have hinv := slotsAccounted_of_run servers ls hrun
  refine ⟨hinv.sentOnce.nodup, hinv.fromServers.sent, ?_⟩
  intro hnone hok m hmax hpos
  have hhighest : s.balancer.highestSlot = m := by
    rw [hinv.highest, List.foldl_max, hmax]
    exact Nat.max_eq_right (Nat.zero_le m)
  rw [List.max?_eq_some_iff]
  constructor
  · rw [← hhighest] at hpos ⊢
    rcases hinv.carried hok hpos with hsent | ⟨i, hpending⟩
    · exact hsent
    · exact absurd hpending (hnone i _)
  · intro slot hslot
    rw [← hhighest]
    exact hinv.fanIn.sent_le slot hslot

/-- Two servers. -/
def twoServers : List (String × String) := [("rpc-a", "ws-a"), ("rpc-b", "ws-b")]

/-- A thread takes a slot up to the comparison. -/
def announce (i : Nat) (slot : Slot) : List FanInLabel :=
  [ .thread i false (.recv 1 (.slot slot))
  , .thread i false .insert
  , .thread i false .fetchMax ]

/-- Slot 7 overtakes slot 5 between comparison and send, and is then announced again by
the other server. -/
def overtakingRun : List FanInLabel :=
  [.thread 0 false (.subscribe 0 true), .thread 1 false (.subscribe 0 true)] ++
  announce 0 5 ++ announce 1 7 ++
  [.thread 1 false .send, .takeSlot, .thread 0 false .send] ++ announce 0 7

theorem fan_in_complete_without_duplicates_overtaking :
    ∃ s, runSteps (fanInStep twoServers) (FanInState.init twoServers) overtakingRun = some s ∧
      s.balancer.sent = [7, 5] ∧ s.compared = [5, 7, 7] ∧ s.balancer.sent.Nodup ∧
      (∀ slot ∈ s.balancer.sent, slot ∈ s.balancer.received) ∧
      s.balancer.sent.max? = some 7 := by
  have hrun : (runSteps (fanInStep twoServers) (FanInState.init twoServers) overtakingRun).map
      (fun s => (s.balancer.sent, s.compared, s.failedSends,
        (s.balancer.threads 0).phase, (s.balancer.threads 1).phase)) =
      some ([7, 5], [5, 7, 7], [], .receiving, .receiving) := by decide
  obtain ⟨s, hs, hv⟩ := Option.map_eq_some_iff.mp hrun
  simp only [Prod.mk.injEq] at hv
  obtain ⟨hsent, hcompared, hfailed, hzero, hone⟩ := hv
  obtain ⟨hnodup, hreceived, hmax⟩ := fan_in_complete_without_duplicates twoServers _ s hs
  refine ⟨s, hs, hsent, hcompared, hnodup, hreceived, hmax ?_ hfailed 7 ?_ (by decide)⟩
  · intro i slot hpending
    have hlt := (slotsAccounted_of_run twoServers _ hs).fanIn.pending_lt i slot hpending
    unfold LoadBalancer.Pending at hpending
    match i, hlt with
    | 0, _ => rw [hzero] at hpending; cases hpending
    | 1, _ => rw [hone] at hpending; cases hpending
  · rw [hcompared]
    decide

end FlowraRelayer.Rpc
