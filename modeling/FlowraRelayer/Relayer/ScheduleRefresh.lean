/-
  Relayer/ScheduleRefresh.lean --- when the leader cache is right.

  `refresh_thread` updates the cache, sleeps ten seconds and updates it again.  An update
  asks two questions, and if the epoch ends between them the schedule of the new epoch is
  stored for the slots of the old one (`shifted_schedule`); after the end of an epoch the
  cache holds a schedule that is over.

  Neither lasts.  `ScheduleThread` is the thread with its sleeps and a clock, on top of
  `refreshStep`.  Once an epoch has lasted longer than the staleness of the thread's pace,
  the cache holds the leader of every slot of the epoch and nothing else
  (`leader_cache_settles`), whatever was in it before.
-/
import FlowraRelayer.Foundation.Polling
import FlowraRelayer.Relayer.ScheduleCache

set_option autoImplicit false

namespace FlowraRelayer.Relayer

open FlowraRelayer.Foundation
open FlowraRelayer.Solana

/-- Where the thread is. -/
inductive SchedulePhase where
  /-- in an update that began at `began` -/
  | updating (began : Time)
  /-- in the `sleep` after an update that was over at `ended` -/
  | sleeping (ended : Time)
  | stopped
  deriving DecidableEq

/-- The thread with a clock.  The last three fields are a record: whether an update has
succeeded, when the last one that did began (before the first, when the thread started), and
how many have failed since. -/
structure ScheduleThread where
  refresh : RefreshState
  now : Time
  /-- the epochs, the current one first, each with the time at which it began -/
  epochs : List (Time × Nat)
  exit : Bool
  phase : SchedulePhase
  seeded : Bool
  asked : Time
  failed : Nat

def ScheduleThread.init (start : Time) (epoch : Nat) : ScheduleThread where
  refresh := RefreshState.init epoch
  now := start
  epochs := [(start, epoch)]
  exit := false
  phase := .updating start
  seeded := false
  asked := start
  failed := 0

/-- The `sleep` between two updates. -/
def scheduleSleep : Time := 10 * nanosPerSecond

inductive ScheduleEvent where
  /-- the cluster moves on, or a call of the update is answered -/
  | refresh (label : RefreshLabel)
  | setExit
  /-- the `sleep` is over, and `exit` is loaded -/
  | wake

structure ScheduleLabel where
  now : Time
  event : ScheduleEvent

/-- What becomes of the thread when a call of its update is answered. -/
inductive CallOutcome where
  | asksOn
  | succeeds
  | fails
  deriving DecidableEq

/-- Without the epoch information there is no second question, and only a schedule makes
the update succeed. -/
def RefreshLabel.outcome : RefreshLabel → Option CallOutcome
  | .advance => none
  | .getEpochInfo (some _) => some .asksOn
  | .getEpochInfo none => some .fails
  | .getLeaderSchedule (some (some _)) => some .succeeds
  | .getLeaderSchedule _ => some .fails

/-- One step of the cluster or of the thread. -/
def scheduleStep (c : Cluster) (s : ScheduleThread) (label : ScheduleLabel) :
    Option ScheduleThread :=
  if s.now ≤ label.now then
    match label.event, s.phase with
    | .refresh call, phase =>
        (refreshStep c s.refresh call).bind fun refresh =>
          match call.outcome, phase with
          | none, _ =>
              some
                { s with
                  refresh
                  now := label.now
                  epochs := (label.now, refresh.epoch) :: s.epochs }
          | some .asksOn, .updating _ => some { s with refresh, now := label.now }
          | some .succeeds, .updating began =>
              some
                { s with
                  refresh
                  now := label.now
                  phase := .sleeping label.now
                  seeded := true
                  asked := began
                  failed := 0 }
          | some .fails, .updating _ =>
              some
                { s with
                  refresh
                  now := label.now
                  phase := .sleeping label.now
                  failed := s.failed + 1 }
          | some _, _ => none
    | .setExit, _ => some { s with now := label.now, exit := true }
    | .wake, .sleeping ended =>
        if ended + scheduleSleep ≤ label.now then
          some
            { s with
              now := label.now
              phase := if s.exit then .stopped else .updating label.now }
        else none
    | .wake, _ => none
  else none

/-- What the thread is at. -/
def SchedulePhase.turn : SchedulePhase → Turn
  | .updating began => .asking began
  | .sleeping ended => .resting ended
  | .stopped => .stopped

def ScheduleEvent.outcome : ScheduleEvent → Option CallOutcome
  | .refresh call => call.outcome
  | _ => none

/-- The thread is on time, and not too many updates in a row fail. -/
def UpdatesInTime (pace : Pace) (s : ScheduleThread) (label : ScheduleLabel) : Prop :=
  (∃ deadline ∈ s.phase.turn.deadline pace, label.now ≤ deadline) ∧
    (label.event.outcome = some .fails → s.failed < pace.failures)

instance (pace : Pace) (s : ScheduleThread) (label : ScheduleLabel) :
    Decidable (UpdatesInTime pace s label) :=
  inferInstanceAs (Decidable ((∃ deadline ∈ s.phase.turn.deadline pace, _) ∧ (_ → _)))

/-! ## What a step does -/

/-- The steps, by what they do. -/
inductive ScheduleMove (c : Cluster) (s : ScheduleThread) (now : Time) :
    ScheduleEvent → ScheduleThread → Prop where
  | advance :
      ScheduleMove c s now (.refresh .advance)
        { s with
          refresh := { s.refresh with epoch := s.refresh.epoch + 1 }
          now
          epochs := (now, s.refresh.epoch + 1) :: s.epochs }
  | asks {began : Time} {slotIndex : Nat} (hphase : s.phase = .updating began) :
      ScheduleMove c s now (.refresh (.getEpochInfo (some slotIndex)))
        { s with
          refresh :=
            { s.refresh with asked := some (s.refresh.epoch, c.epochInfo s.refresh.epoch slotIndex) }
          now }
  | succeeds {began : Time} {epoch : Nat} {info : EpochInfo} {answer : RpcLeaderSchedule}
      (hphase : s.phase = .updating began) (hasked : s.refresh.asked = some (epoch, info))
      (hanswer : c.Describes s.refresh.epoch answer) :
      ScheduleMove c s now (.refresh (.getLeaderSchedule (some (some answer))))
        { s with
          refresh := { s.refresh with asked := none, schedule := newSchedule info answer }
          now
          phase := .sleeping now
          seeded := true
          asked := began
          failed := 0 }
  | fails {began : Time} {call : RefreshLabel} (hphase : s.phase = .updating began)
      (hcall : call.outcome = some .fails) :
      ScheduleMove c s now (.refresh call)
        { s with
          refresh := { s.refresh with asked := none }
          now
          phase := .sleeping now
          failed := s.failed + 1 }
  | setExit : ScheduleMove c s now .setExit { s with now, exit := true }
  | stops {ended : Time} (hphase : s.phase = .sleeping ended) :
      ScheduleMove c s now .wake { s with now, phase := .stopped }
  | wakes {ended : Time} (hphase : s.phase = .sleeping ended) :
      ScheduleMove c s now .wake { s with now, phase := .updating now }

section Steps

variable {c : Cluster} {pace : Pace} {start now : Time} {s s' : ScheduleThread}

/-- What a successful answer leaves of the refresh. -/
theorem refreshStep_succeeds {r r' : RefreshState} {answer : RpcLeaderSchedule}
    (h : refreshStep c r (.getLeaderSchedule (some (some answer))) = some r') :
    ∃ epoch info, r.asked = some (epoch, info) ∧ c.Describes r.epoch answer ∧
      r' = { r with asked := none, schedule := newSchedule info answer } := by
  simp only [refreshStep] at h
  split at h
  · cases h
  · next epoch info hasked =>
    rw [Option.ite_none_right_eq_some, Option.some.injEq] at h
    obtain ⟨htruly, rfl⟩ := h
    exact ⟨epoch, info, hasked, htruly _ rfl _ rfl, rfl⟩

/-- A failed call leaves the cache as it is. -/
theorem refreshStep_fails {r r' : RefreshState} {call : RefreshLabel}
    (hcall : call.outcome = some .fails) (h : refreshStep c r call = some r') :
    r' = { r with asked := none } := by
  cases call with
  | advance => cases hcall
  | getEpochInfo slotIndex =>
    cases slotIndex with
    | some slotIndex => cases hcall
    | none =>
      obtain ⟨epoch, asked, schedule⟩ := r
      cases asked with
      | some asked => cases h
      | none =>
        cases h
        rfl
  | getLeaderSchedule answer =>
    simp only [refreshStep] at h
    split at h
    · cases h
    · rw [Option.ite_none_right_eq_some, Option.some.injEq] at h
      obtain ⟨-, rfl⟩ := h
      cases answer with
      | none => rfl
      | some maybeSchedule =>
        cases maybeSchedule with
        | none => rfl
        | some leaderSchedule => cases hcall

/-- An answer to the first question. -/
theorem refreshStep_asks {r r' : RefreshState} {slotIndex : Nat}
    (h : refreshStep c r (.getEpochInfo (some slotIndex)) = some r') :
    r' = { r with asked := some (r.epoch, c.epochInfo r.epoch slotIndex) } := by
  simp only [refreshStep] at h
  split at h
  · cases h
  · next hnone => cases hnone
  · next hsome =>
    cases hsome
    rw [Option.ite_none_right_eq_some, Option.some.injEq] at h
    exact h.2.symm

theorem RefreshLabel.eq_advance {call : RefreshLabel} (h : call.outcome = none) :
    call = .advance := by
  unfold RefreshLabel.outcome at h
  split at h
  · rfl
  all_goals cases h

theorem RefreshLabel.eq_getEpochInfo {call : RefreshLabel} (h : call.outcome = some .asksOn) :
    ∃ slotIndex, call = .getEpochInfo (some slotIndex) := by
  unfold RefreshLabel.outcome at h
  split at h
  case h_2 slotIndex => exact ⟨slotIndex, rfl⟩
  all_goals cases h

theorem RefreshLabel.eq_getLeaderSchedule {call : RefreshLabel}
    (h : call.outcome = some .succeeds) :
    ∃ answer, call = .getLeaderSchedule (some (some answer)) := by
  unfold RefreshLabel.outcome at h
  split at h
  case h_4 answer => exact ⟨answer, rfl⟩
  all_goals cases h

theorem move_of_scheduleStep {label : ScheduleLabel} (h : scheduleStep c s label = some s') :
    s.now ≤ label.now ∧ ScheduleMove c s label.now label.event s' := by
  obtain ⟨now, event⟩ := label
  simp only [scheduleStep, Option.ite_none_right_eq_some] at h
  obtain ⟨hnow, h⟩ := h
  refine ⟨hnow, ?_⟩
  cases event with
  | refresh call =>
    obtain ⟨refresh, hrefresh, h⟩ := Option.bind_eq_some_iff.mp h
    split at h
    · next hcall =>
      cases h
      cases RefreshLabel.eq_advance hcall
      cases hrefresh
      exact .advance
    · next hcall hphase =>
      cases h
      obtain ⟨slotIndex, rfl⟩ := RefreshLabel.eq_getEpochInfo hcall
      rw [refreshStep_asks hrefresh]
      exact .asks hphase
    · next hcall hphase =>
      cases h
      obtain ⟨answer, rfl⟩ := RefreshLabel.eq_getLeaderSchedule hcall
      obtain ⟨epoch, info, hasked, hanswer, rfl⟩ := refreshStep_succeeds hrefresh
      exact .succeeds hphase hasked hanswer
    · next hcall hphase =>
      cases h
      rw [refreshStep_fails hcall hrefresh]
      exact .fails hphase hcall
    · cases h
  | setExit =>
    cases h
    exact .setExit
  | wake =>
    cases hphase : s.phase with
    | sleeping ended =>
      simp only [hphase, Option.ite_none_right_eq_some, Option.some.injEq] at h
      obtain ⟨-, rfl⟩ := h
      split
      · exact .stops hphase
      · exact .wakes hphase
    | updating began | stopped =>
      rw [hphase] at h
      cases h

/-! ## The cache is a copy -/

/-- The map was made from answers to two questions, each about an epoch of the time since
`since`. -/
def Copies (c : Cluster) (epochs : List (Time × Nat)) (since : Time) (schedule : LeaderSchedule) :
    Prop :=
  ∃ epoch ∈ inForceSince since epochs, ∃ epoch' ∈ inForceSince since epochs, ∃ slotIndex answer,
    c.Describes epoch' answer ∧ schedule = newSchedule (c.epochInfo epoch slotIndex) answer

/-- The epoch information of an update is of an epoch of the time since it began; between
updates there is none. -/
def SchedulePhase.Sound (c : Cluster) (s : ScheduleThread) : SchedulePhase → Prop
  | .updating began => began ≤ s.now ∧ ∀ asked ∈ s.refresh.asked,
      asked.1 ∈ inForceSince began s.epochs ∧ ∃ slotIndex, asked.2 = c.epochInfo asked.1 slotIndex
  | _ => s.refresh.asked = none

/-- What holds in every state. -/
structure ScheduleInv (c : Cluster) (pace : Pace) (start : Time) (s : ScheduleThread) : Prop where
  current : ∃ begin older, s.epochs = (begin, s.refresh.epoch) :: older ∧ start ≤ begin
  started : start ≤ s.now
  sound : s.phase.Sound c s
  asked_le : s.asked ≤ s.now
  unseeded : s.seeded = false → s.asked = start
  copied : s.seeded = true → Copies c s.epochs s.asked s.refresh.schedule
  kept : pace.Kept s.asked s.failed s.now s.phase.turn

theorem scheduleInv_init (start : Time) (epoch : Nat) :
    ScheduleInv c pace start (ScheduleThread.init start epoch) where
  current := ⟨start, [], rfl, Nat.le_refl _⟩
  started := Nat.le_refl _
  sound := ⟨Nat.le_refl _, fun _ h => nomatch h⟩
  asked_le := Nat.le_refl _
  unseeded := fun _ => rfl
  copied := by
    intro h
    cases h
  kept := Pace.kept_start start

theorem Copies.advance {epochs : List (Time × Nat)} {since : Time} {schedule : LeaderSchedule}
    (h : Copies c epochs since schedule) (hnow : since ≤ now) (epoch : Nat) :
    Copies c ((now, epoch) :: epochs) since schedule := by
  obtain ⟨first, hfirst, second, hsecond, hrest⟩ := h
  exact ⟨first, inForceSince_subset_cons hnow hfirst, second,
    inForceSince_subset_cons hnow hsecond, hrest⟩

/-- The current epoch is in force. -/
theorem ScheduleInv.current_mem (h : ScheduleInv c pace start s) (since : Time) :
    s.refresh.epoch ∈ inForceSince since s.epochs := by
  obtain ⟨begin, older, hepochs, -⟩ := h.current
  rw [hepochs]
  exact List.mem_cons_self

/-- The epoch ends. -/
theorem ScheduleInv.advance (h : ScheduleInv c pace start s) (hnow : s.now ≤ now)
    (hkept : pace.Kept s.asked s.failed now s.phase.turn) :
    ScheduleInv c pace start
      { s with
        refresh := { s.refresh with epoch := s.refresh.epoch + 1 }
        now
        epochs := (now, s.refresh.epoch + 1) :: s.epochs } := by
  have hstarted : start ≤ now := Nat.le_trans h.started hnow
  have hasked : s.asked ≤ now := Nat.le_trans h.asked_le hnow
  refine ⟨⟨now, s.epochs, rfl, hstarted⟩, hstarted, ?_, hasked, h.unseeded,
    fun hseeded => (h.copied hseeded).advance hasked _, hkept⟩
  have hsound := h.sound
  dsimp only
  cases hphase : s.phase with
  | updating began =>
    rw [hphase] at hsound
    obtain ⟨hbegan, hinfo⟩ := hsound
    refine ⟨Nat.le_trans hbegan hnow, fun asked hmem => ?_⟩
    obtain ⟨hepoch, hof⟩ := hinfo asked hmem
    exact ⟨inForceSince_subset_cons (Nat.le_trans hbegan hnow) hepoch, hof⟩
  | sleeping ended | stopped =>
    rw [hphase] at hsound
    exact hsound

/-- The thread goes on, and the cache and the epoch stay as they are. -/
theorem ScheduleInv.goesOn (h : ScheduleInv c pace start s) (hnow : s.now ≤ now) {exit : Bool}
    {info : Option (Nat × EpochInfo)} {phase : SchedulePhase} {failed : Nat}
    (hsound : phase.Sound c
      { s with refresh := { s.refresh with asked := info }, now, exit, phase, failed })
    (hkept : pace.Kept s.asked failed now phase.turn) :
    ScheduleInv c pace start
      { s with refresh := { s.refresh with asked := info }, now, exit, phase, failed } where
  current := h.current
  started := Nat.le_trans h.started hnow
  sound := hsound
  asked_le := Nat.le_trans h.asked_le hnow
  unseeded := h.unseeded
  copied := h.copied
  kept := hkept

/-- Time passes. -/
theorem ScheduleInv.later (h : ScheduleInv c pace start s) (hnow : s.now ≤ now) (exit : Bool)
    (hkept : pace.Kept s.asked s.failed now s.phase.turn) :
    ScheduleInv c pace start { s with now, exit } := by
  have hsound := h.sound
  refine h.goesOn hnow ?_ hkept
  cases hphase : s.phase with
  | updating began =>
    rw [hphase] at hsound
    exact ⟨Nat.le_trans hsound.1 hnow, hsound.2⟩
  | sleeping ended | stopped =>
    rw [hphase] at hsound
    exact hsound

theorem scheduleInv_step {label : ScheduleLabel} (h : ScheduleInv c pace start s)
    (hcond : UpdatesInTime pace s label) (hstep : scheduleStep c s label = some s') :
    ScheduleInv c pace start s' := by
  obtain ⟨now, event⟩ := label
  obtain ⟨⟨deadline, hdeadline, hintime⟩, hfails⟩ := hcond
  obtain ⟨hnow, hmove⟩ := move_of_scheduleStep hstep
  have hkept := h.kept.later hdeadline hintime
  have hsound := h.sound
  cases hmove with
  | advance => exact h.advance hnow hkept
  | asks hphase =>
    rw [hphase] at hsound
    refine h.goesOn hnow ?_ hkept
    rw [hphase]
    refine ⟨Nat.le_trans hsound.1 hnow, ?_⟩
    rintro asked ⟨⟩
    exact ⟨h.current_mem _, _, rfl⟩
  | @succeeds began epoch info answer hphase hasked hanswer =>
    rw [hphase] at hsound hdeadline
    cases hdeadline
    obtain ⟨hbegan, hinfo⟩ := hsound
    obtain ⟨hepoch, slotIndex, hof⟩ := hinfo _ hasked
    have hcopies : Copies c s.epochs began (newSchedule info answer) :=
      ⟨epoch, hepoch, s.refresh.epoch, h.current_mem _, slotIndex, answer, hanswer, by rw [← hof]⟩
    refine ⟨h.current, Nat.le_trans h.started hnow, rfl, Nat.le_trans hbegan hnow, ?_,
      fun _ => hcopies, Pace.kept_copied hintime⟩
    intro hunseeded
    cases hunseeded
  | fails hphase hcall =>
    rw [hphase] at hkept hdeadline
    cases hdeadline
    exact h.goesOn hnow rfl (hkept.fails hintime (hfails hcall))
  | setExit => exact h.later hnow true hkept
  | stops hphase =>
    rw [hphase] at hsound
    exact h.goesOn hnow hsound hkept.stops
  | wakes hphase =>
    rw [hphase] at hsound hkept hdeadline
    cases hdeadline
    refine h.goesOn hnow ⟨Nat.le_refl _, ?_⟩ (hkept.asks hintime)
    intro asked hasked
    rw [show s.refresh.asked = none from hsound] at hasked
    cases hasked

end Steps

/-- What the readers of the cache get in the epoch: the leader of each of its slots, the
leaders of any list of slots as far as these are of the epoch, and nothing else. -/
structure ServesEpoch (c : Cluster) (epoch : Nat) (schedule : LeaderSchedule) : Prop where
  leader_for_slot : ∀ slot pubkey,
    schedule slot = some pubkey ↔ c.InEpoch epoch slot ∧ pubkey = c.leader slot
  leaders_for_slots : ∀ slots pubkey, pubkey ∈ leadersForSlots schedule slots ↔
    ∃ slot ∈ slots, c.InEpoch epoch slot ∧ pubkey = c.leader slot

/-- A copy with both answers from one epoch serves it. -/
theorem servesEpoch_of_copies {c : Cluster} {begin since : Time} {epoch : Nat}
    {older : List (Time × Nat)} {schedule : LeaderSchedule}
    (h : Copies c ((begin, epoch) :: older) since schedule) (hbegin : begin < since) :
    ServesEpoch c epoch schedule := by
  obtain ⟨first, hfirst, second, hsecond, slotIndex, answer, hanswer, rfl⟩ := h
  cases eq_of_mem_inForceSince hbegin hfirst
  cases eq_of_mem_inForceSince hbegin hsecond
  have hleader : ∀ slot pubkey, newSchedule (c.epochInfo epoch slotIndex) answer slot = some pubkey ↔
      c.InEpoch epoch slot ∧ pubkey = c.leader slot :=
    fun slot pubkey => Cluster.newSchedule_of_sameEpoch hanswer
  refine ⟨hleader, ?_⟩
  intro slots pubkey
  simp only [leadersForSlots, List.mem_toFinset, List.mem_filterMap, hleader]

/-- Once the epoch has lasted longer than the staleness, the cache serves it. -/
theorem ScheduleInv.serves {c : Cluster} {pace : Pace} {start : Time} {s : ScheduleThread}
    (h : ScheduleInv c pace start s) :
    ∃ begin older, s.epochs = (begin, s.refresh.epoch) :: older ∧
      (begin + pace.staleness < s.now → ServesEpoch c s.refresh.epoch s.refresh.schedule) := by
  obtain ⟨begin, older, hepochs, hstart⟩ := h.current
  refine ⟨begin, older, hepochs, fun hlong => ?_⟩
  have hbegin : begin < s.asked :=
    Nat.lt_of_add_lt_add_right (Nat.lt_of_lt_of_le hlong h.kept.le_staleness)
  -- before the first update the thread is not older than the epoch
  have hseeded : s.seeded = true := by
    cases hunseeded : s.seeded with
    | true => rfl
    | false =>
      rw [h.unseeded hunseeded] at hbegin
      exact absurd hbegin (Nat.not_lt_of_le hstart)
  have hcopies := h.copied hseeded
  rw [hepochs] at hcopies
  exact servesEpoch_of_copies hcopies hbegin

/-- A thread that wakes a second late at most and whose updates take two at most. -/
def promptPace : Pace where
  rest := 11 * nanosPerSecond
  answer := 2 * nanosPerSecond
  failures := 0

/-- The epoch ends between the two answers of the first update; the second update is a
sleep later. -/
def shiftedRun : List ScheduleLabel :=
  [ ⟨nanosPerSecond, .refresh (.getEpochInfo (some 1))⟩
  , ⟨1500 * nanosPerMilli, .refresh .advance⟩
  , ⟨2 * nanosPerSecond, .refresh (.getLeaderSchedule (some (some (pairSchedule 1))))⟩
  , ⟨12 * nanosPerSecond, .wake⟩
  , ⟨13 * nanosPerSecond, .refresh (.getEpochInfo (some 0))⟩
  , ⟨14 * nanosPerSecond, .refresh (.getLeaderSchedule (some (some (pairSchedule 1))))⟩
  , ⟨17 * nanosPerSecond, .setExit⟩ ]

end FlowraRelayer.Relayer
