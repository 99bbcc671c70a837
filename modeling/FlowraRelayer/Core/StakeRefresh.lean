/-
  Core/StakeRefresh.lean --- how old the stakes are that the QUIC servers go by.

  The loop of the updater thread asks for the vote accounts when the last refresh is more than
  `PK_TO_STAKE_REFRESH_DURATION` ago, and sleeps a second if it is not.  After an error it
  sleeps for the whole duration, and since the time of the last refresh has not moved it asks
  again as soon as it wakes.

  `StakeThread` is this loop with a clock.  From outside come only how late a thread may wake
  or go on (`slack`), how long a call may take (`answer`) and how many calls in a row may
  fail: that it rests at most six seconds and twice the slack between two calls is derived
  from its own sleeps (`stakePace`).  Once the vote accounts have stood for longer than the
  staleness of that pace, the shared stakes are made from them (`stakes_settle`).
-/
import FlowraRelayer.Core.StakedNodes
import FlowraRelayer.Foundation.Polling

set_option autoImplicit false

namespace FlowraRelayer.Core

open FlowraRelayer.Foundation
open FlowraRelayer.Solana

/-! ## State and steps -/

/-- The sleep of `try_refresh_pk_to_stake`. -/
def shortSleep : Time := nanosPerSecond

/-- Where the thread is. -/
inductive StakePhase where
  /-- at the head of the loop, since `since` -/
  | looking (since : Time)
  | sleeping (began length : Time)
  /-- in `get_vote_accounts`, since `began` -/
  | asking (began : Time)
  | stopped
  deriving DecidableEq

/-- The thread, what it shares and the cluster.  The last four fields are a record: when the
last call ended (before the first, when the thread started), whether one has succeeded, when
the last one that did began, and how many have failed since. -/
structure StakeThread where
  updater : StakedNodesUpdater
  now : Time
  /-- the vote accounts of the cluster, the current ones first, each with the time of the change -/
  versions : List (Time × VoteAccounts)
  exit : Bool
  phase : StakePhase
  ended : Time
  seeded : Bool
  asked : Time
  failed : Nat

/-- The thread as it starts; `StakedNodes::default` has no stakes. -/
def StakeThread.init (start : Time) (voteAccounts : VoteAccounts) : StakeThread where
  updater := ⟨start, ⟨∅, ∅⟩⟩
  now := start
  versions := [(start, voteAccounts)]
  exit := false
  phase := .looking start
  ended := start
  seeded := false
  asked := start
  failed := 0

inductive StakeEvent where
  /-- the vote accounts of the cluster change -/
  | publish (voteAccounts : VoteAccounts)
  | setExit
  /-- `exit` is loaded and the time since the last refresh is looked at -/
  | look
  | wake
  /-- the answer to `get_vote_accounts`; `none` is an error -/
  | answer (voteAccounts : Option VoteAccounts)
  deriving DecidableEq

structure StakeLabel where
  now : Time
  event : StakeEvent

/-- One step of the cluster or of the thread. -/
def stakeStep (overrides : StakeMap) (s : StakeThread) (label : StakeLabel) : Option StakeThread :=
  if s.now ≤ label.now then
    match label.event, s.phase with
    | .publish voteAccounts, _ =>
        some
          { s with now := label.now, versions := (label.now, voteAccounts) :: s.versions }
    | .setExit, _ => some { s with now := label.now, exit := true }
    | .look, .looking _ =>
        some
          { s with
            now := label.now
            phase :=
              if s.exit then .stopped
              else if pkToStakeRefreshDuration < label.now - s.updater.lastStakes then
                .asking label.now
              else .sleeping label.now shortSleep }
    | .wake, .sleeping began length =>
        if began + length ≤ label.now then
          some { s with now := label.now, phase := .looking label.now }
        else none
    | .answer none, .asking began =>
        some
          { s with
            updater := s.updater.turn overrides began label.now none
            now := label.now
            phase := .sleeping label.now pkToStakeRefreshDuration
            ended := label.now
            failed := s.failed + 1 }
    | .answer (some voteAccounts), .asking began =>
        -- the server answers with what was current during the call
        if voteAccounts ∈ inForceSince began s.versions then
          some
            { s with
              updater := s.updater.turn overrides began label.now (some voteAccounts)
              now := label.now
              phase := .looking label.now
              ended := label.now
              seeded := true
              asked := began
              failed := 0 }
        else none
    | _, _ => none
  else none

/-! ## Time -/

/-- What the thread cannot know. -/
structure StakeTiming where
  /-- how late the thread goes on, or wakes, at most -/
  slack : Time
  /-- how long a call takes at most -/
  answer : Time
  /-- how many calls in a row may fail -/
  failures : Nat

/-- By when the thread goes on. -/
def StakePhase.due (timing : StakeTiming) : StakePhase → Option Time
  | .looking since => some (since + timing.slack)
  | .sleeping began length => some (began + length + timing.slack)
  | .asking began => some (began + timing.answer)
  | .stopped => none

/-- The thread is on time, and not too many calls in a row fail. -/
def StakesInTime (timing : StakeTiming) (s : StakeThread) (label : StakeLabel) : Prop :=
  (∃ due ∈ s.phase.due timing, label.now ≤ due) ∧
    (label.event = .answer none → s.failed < timing.failures)

instance (timing : StakeTiming) (s : StakeThread) (label : StakeLabel) :
    Decidable (StakesInTime timing s label) :=
  inferInstanceAs (Decidable ((∃ due ∈ s.phase.due timing, _) ∧ (_ → _)))

/-- The longest the thread sleeps on purpose between two calls. -/
def longestRest : Time := pkToStakeRefreshDuration + shortSleep

/-- The pace that follows from the sleeps of the thread. -/
def stakePace (timing : StakeTiming) : Pace where
  rest := longestRest + timing.slack + timing.slack
  answer := timing.answer
  failures := timing.failures

def StakePhase.turn (ended : Time) : StakePhase → Turn
  | .looking _ | .sleeping _ _ => .resting ended
  | .asking began => .asking began
  | .stopped => .stopped

/-- A thread that rests has been at it for as long as its sleeps took. -/
def StakePhase.Rested (timing : StakeTiming) (ended : Time) : StakePhase → Prop
  | .looking since => since ≤ ended + longestRest + timing.slack
  | .sleeping began length => began + length ≤ ended + longestRest
  | _ => True

/-- A thread that goes on when it is due keeps the pace. -/
theorem StakePhase.Rested.deadline {timing : StakeTiming} {ended due : Time} {phase : StakePhase}
    (h : phase.Rested timing ended) (hdue : due ∈ phase.due timing) :
    ∃ deadline, (phase.turn ended).deadline (stakePace timing) = some deadline ∧ due ≤ deadline := by
  cases phase with
  | looking since =>
    cases hdue
    refine ⟨_, rfl, ?_⟩
    calc since + timing.slack ≤ ended + longestRest + timing.slack + timing.slack :=
          Nat.add_le_add_right h _
      _ = ended + (longestRest + timing.slack + timing.slack) := by simp only [Nat.add_assoc]
  | sleeping began length =>
    cases hdue
    refine ⟨_, rfl, ?_⟩
    calc began + length + timing.slack ≤ ended + longestRest + timing.slack :=
          Nat.add_le_add_right h _
      _ ≤ ended + longestRest + timing.slack + timing.slack := Nat.le_add_right _ _
      _ = ended + (longestRest + timing.slack + timing.slack) := by simp only [Nat.add_assoc]
  | asking began =>
    cases hdue
    exact ⟨_, rfl, Nat.le_refl _⟩
  | stopped => cases hdue

/-! ## What every step keeps -/

/-- The call under way was made because the last refresh is long ago. -/
def StakePhase.Sound (now lastStakes : Time) : StakePhase → Prop
  | .asking began => began ≤ now ∧ pkToStakeRefreshDuration < began - lastStakes
  | _ => True

/-- What holds in every state. -/
structure StakeInv (overrides : StakeMap) (timing : StakeTiming) (start : Time) (s : StakeThread) :
    Prop where
  current : ∃ begin voteAccounts older, s.versions = (begin, voteAccounts) :: older ∧ start ≤ begin
  started : start ≤ s.now
  sound : s.phase.Sound s.now s.updater.lastStakes
  rested : s.phase.Rested timing s.ended
  last_le : s.updater.lastStakes ≤ s.ended
  ended_le : s.ended ≤ s.now
  asked_le : s.asked ≤ s.now
  unseeded : s.seeded = false → s.asked = start
  copied : s.seeded = true → ∃ voteAccounts ∈ inForceSince s.asked s.versions,
    s.updater.sharedStakedNodes = ⟨collectStakes voteAccounts, overrides⟩
  kept : (stakePace timing).Kept s.asked s.failed s.now (s.phase.turn s.ended)

section Steps

variable {overrides : StakeMap} {timing : StakeTiming} {start : Time} {s s' : StakeThread}

theorem stakeInv_init (start : Time) (voteAccounts : VoteAccounts) :
    StakeInv overrides timing start (StakeThread.init start voteAccounts) where
  current := ⟨start, voteAccounts, [], rfl, Nat.le_refl _⟩
  started := Nat.le_refl _
  sound := trivial
  rested := Nat.le_trans (Nat.le_add_right _ _) (Nat.le_add_right _ _)
  last_le := Nat.le_refl _
  ended_le := Nat.le_refl _
  asked_le := Nat.le_refl _
  unseeded := fun _ => rfl
  copied := by
    intro h
    cases h
  kept := by
    have hstart : start ≤ (stakePace timing).latest start 0 := by
      rw [Pace.latest_zero]
      exact Nat.le_add_right _ _
    exact Pace.kept_resting (Nat.zero_le _) hstart

/-- A turn that has asked and got an answer publishes it. -/
theorem turn_some {u : StakedNodesUpdater} {checked : Time}
    (hlong : pkToStakeRefreshDuration < checked - u.lastStakes) (overrides : StakeMap) (now : Time)
    (voteAccounts : VoteAccounts) :
    u.turn overrides checked now (some voteAccounts) =
      ⟨now, ⟨collectStakes voteAccounts, overrides⟩⟩ := by
  simp only [StakedNodesUpdater.turn, tryRefreshPkToStake, if_pos hlong]

/-- Without an answer the thread goes on with what it has. -/
theorem StakeInv.goesOn (h : StakeInv overrides timing start s) {now : Time} (hnow : s.now ≤ now)
    {phase : StakePhase} (exit : Bool) (hsound : phase.Sound now s.updater.lastStakes)
    (hrested : phase.Rested timing s.ended)
    (hkept : (stakePace timing).Kept s.asked s.failed now (phase.turn s.ended)) :
    StakeInv overrides timing start { s with now, phase, exit } where
  current := h.current
  started := Nat.le_trans h.started hnow
  sound := hsound
  rested := hrested
  last_le := h.last_le
  ended_le := Nat.le_trans h.ended_le hnow
  asked_le := Nat.le_trans h.asked_le hnow
  unseeded := h.unseeded
  copied := h.copied
  kept := hkept

theorem StakePhase.Sound.later {phase : StakePhase} {now now' lastStakes : Time}
    (h : phase.Sound now lastStakes) (hnow : now ≤ now') : phase.Sound now' lastStakes := by
  cases phase with
  | asking began => exact ⟨Nat.le_trans h.1 hnow, h.2⟩
  | _ => trivial

theorem stakeInv_step {label : StakeLabel} (h : StakeInv overrides timing start s)
    (hcond : StakesInTime timing s label) (hstep : stakeStep overrides s label = some s') :
    StakeInv overrides timing start s' := by
  obtain ⟨now, event⟩ := label
  obtain ⟨⟨due, hdue, hintime⟩, hfails⟩ := hcond
  obtain ⟨deadline, hdeadline, hdue_le⟩ := h.rested.deadline hdue
  have hkept := h.kept.later hdeadline (Nat.le_trans hintime hdue_le)
  have hrested := h.rested
  have hsound := h.sound
  simp only [stakeStep, Option.ite_none_right_eq_some] at hstep
  obtain ⟨hnow, hstep⟩ := hstep
  split at hstep
  · -- the vote accounts change
    cases hstep
    refine ⟨⟨now, _, _, rfl, Nat.le_trans h.started hnow⟩, Nat.le_trans h.started hnow,
      hsound.later hnow, hrested, h.last_le, Nat.le_trans h.ended_le hnow,
      Nat.le_trans h.asked_le hnow, h.unseeded, ?_, hkept⟩
    intro hseeded
    obtain ⟨voteAccounts, hmem, hshared⟩ := h.copied hseeded
    exact ⟨voteAccounts, inForceSince_subset_cons (Nat.le_trans h.asked_le hnow) hmem, hshared⟩
  · cases hstep
    exact h.goesOn hnow true (hsound.later hnow) hrested hkept
  · -- the head of the loop
    next since hphase =>
    cases hstep
    rw [hphase] at hkept hdeadline
    cases hdeadline
    split
    · exact h.goesOn hnow s.exit trivial trivial hkept.stops
    · split
      · next hlong =>
        exact h.goesOn hnow s.exit ⟨Nat.le_refl _, hlong⟩ trivial
          (hkept.asks (Nat.le_trans hintime hdue_le))
      · next hrecent =>
        refine h.goesOn hnow s.exit trivial ?_ hkept
        have hlast : now ≤ s.updater.lastStakes + pkToStakeRefreshDuration :=
          Nat.sub_le_iff_le_add'.mp (Nat.le_of_not_lt hrecent)
        calc now + shortSleep ≤ s.updater.lastStakes + pkToStakeRefreshDuration + shortSleep :=
              Nat.add_le_add_right hlast _
          _ ≤ s.ended + pkToStakeRefreshDuration + shortSleep :=
              Nat.add_le_add_right (Nat.add_le_add_right h.last_le _) _
          _ = s.ended + longestRest := Nat.add_assoc _ _ _
  · -- the end of a sleep
    next began length hphase =>
    rw [Option.ite_none_right_eq_some, Option.some.injEq] at hstep
    obtain ⟨-, rfl⟩ := hstep
    rw [hphase] at hkept hrested hdue
    cases hdue
    refine h.goesOn hnow s.exit trivial ?_ hkept
    exact Nat.le_trans hintime (Nat.add_le_add_right hrested _)
  · -- an error
    next began hphase =>
    cases hstep
    rw [hphase] at hkept hdue
    cases hdue
    rw [turn_none]
    have hlast : s.updater.lastStakes ≤ now :=
      Nat.le_trans h.last_le (Nat.le_trans h.ended_le hnow)
    have hrests : now + pkToStakeRefreshDuration ≤ now + longestRest :=
      Nat.add_le_add_left (Nat.le_add_right _ _) _
    exact ⟨h.current, Nat.le_trans h.started hnow, trivial, hrests, hlast, Nat.le_refl _,
      Nat.le_trans h.asked_le hnow, h.unseeded, h.copied, hkept.fails hintime (hfails rfl)⟩
  · -- an answer
    next voteAccounts began hphase =>
    rw [Option.ite_none_right_eq_some, Option.some.injEq] at hstep
    obtain ⟨hmem, rfl⟩ := hstep
    rw [hphase] at hsound hdue
    cases hdue
    rw [turn_some hsound.2]
    have hrests : now ≤ now + longestRest + timing.slack :=
      Nat.le_trans (Nat.le_add_right _ _) (Nat.le_add_right _ _)
    refine ⟨h.current, Nat.le_trans h.started hnow, trivial, hrests, Nat.le_refl _, Nat.le_refl _,
      Nat.le_trans hsound.1 hnow, ?_, fun _ => ⟨voteAccounts, hmem, rfl⟩, Pace.kept_copied hintime⟩
    intro hunseeded
    cases hunseeded
  · cases hstep

end Steps

/-- Half a second late at most, calls of one second at most, one of which may fail. -/
def promptTiming : StakeTiming where
  slack := 500 * nanosPerMilli
  answer := nanosPerSecond
  failures := 1

/-- A step at a whole second. -/
def stakeAt (second : Nat) (event : StakeEvent) : StakeLabel := ⟨second * nanosPerSecond, event⟩

/-- A look at the clock that is too early, and the sleep after it. -/
def earlyLook (second : Nat) : List StakeLabel := [stakeAt second .look, stakeAt (second + 1) .wake]

/-- The thread sleeps until the first refresh is due; the call fails, and the one after it
succeeds. -/
def failingRun : List StakeLabel :=
  [0, 1, 2, 3, 4, 5].flatMap earlyLook ++
  [ stakeAt 6 .look, stakeAt 7 (.answer none), stakeAt 12 .wake
  , stakeAt 12 .look, stakeAt 13 (.answer (some twoVoteAccounts)) ] ++
  [13, 14, 15, 16, 17].flatMap earlyLook ++ [stakeAt 18 .setExit]

end FlowraRelayer.Core
