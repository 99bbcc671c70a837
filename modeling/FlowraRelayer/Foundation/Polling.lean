/-
  Foundation/Polling.lean --- copies of something that changes, kept by asking for it again
  and again.

  `inForceSince since versions` are the versions that were in force at some time from
  `since` on.  An answer to a question that was asked at `asked` is one of
  `inForceSince asked versions`, and it stays one whatever is published later.

  A thread asks, rests and asks again.  `Pace` says how long it rests at most, how long an
  answer takes and how many answers in a row may fail.  `Pace.Kept` is the account of such a
  thread, with a rule for each turn it takes, and `Kept.le_staleness` is what it is for: how
  old the question behind the copy can be.

  The module names nothing of the relayer.
-/
import FlowraRelayer.Foundation.Run

set_option autoImplicit false

namespace FlowraRelayer.Foundation

variable {α : Type}

/-! ## Versions -/

/-- The versions in force at some time from `since` on.  `versions` has the newest first,
each with the time at which it came into force. -/
def inForceSince (since : Time) : List (Time × α) → List α
  | [] => []
  | (start, version) :: older =>
      version :: if since ≤ start then inForceSince since older else []

section InForce

variable {since since' start : Time} {version : α} {versions : List (Time × α)}

/-- What was in force stays so when a new version is published. -/
theorem inForceSince_subset_cons (hstart : since ≤ start) :
    inForceSince since versions ⊆ inForceSince since ((start, version) :: versions) := by
  rw [inForceSince, if_pos hstart]
  exact List.subset_cons_self _ _

/-- A version that came into force before `since` and was not replaced is the only one. -/
theorem eq_of_mem_inForceSince {other : α} (hstart : start < since)
    (hmem : other ∈ inForceSince since ((start, version) :: versions)) : other = version := by
  rw [inForceSince, if_neg (Nat.not_le_of_lt hstart)] at hmem
  exact List.mem_singleton.mp hmem

/-- The later one asks, the fewer versions there were. -/
theorem inForceSince_anti (hsince : since ≤ since') :
    inForceSince since' versions ⊆ inForceSince since versions := by
  induction versions with
  | nil => exact List.Subset.refl _
  | cons head older ih =>
    obtain ⟨start, version⟩ := head
    refine List.cons_subset_cons version ?_
    by_cases hstart : since' ≤ start
    · rw [if_pos hstart, if_pos (Nat.le_trans hsince hstart)]
      exact ih
    · rw [if_neg hstart]
      exact List.nil_subset _

theorem mem_of_mem_inForceSince (hmem : version ∈ inForceSince since versions) :
    version ∈ versions.map Prod.snd := by
  induction versions with
  | nil => cases hmem
  | cons head older ih =>
    rcases List.mem_cons.mp hmem with rfl | hold
    · exact List.mem_cons_self
    · split at hold
      · exact List.mem_cons_of_mem _ (ih hold)
      · cases hold

end InForce

/-! ## The pace of a thread that asks -/

/-- How a thread keeps its copy. -/
structure Pace where
  /-- the longest time between the end of an answer and the next question -/
  rest : Time
  /-- the longest time from a question until its answer is dealt with -/
  answer : Time
  /-- how many answers in a row may fail -/
  failures : Nat

namespace Pace

variable (pace : Pace)

/-- The latest time at which the thread is done with the question of its copy, asked at
`asked`, and with `failed` questions after it that failed. -/
def latest (asked : Time) (failed : Nat) : Time :=
  asked + pace.answer + failed * (pace.rest + pace.answer)

/-- How long ago the question behind the copy was asked, at most. -/
def staleness : Time := pace.answer + (pace.failures + 1) * (pace.rest + pace.answer)

variable {pace} {asked : Time} {failed : Nat}

theorem latest_zero : pace.latest asked 0 = asked + pace.answer := by
  rw [latest, Nat.zero_mul, Nat.add_zero]

/-- One more question that fails. -/
theorem latest_succ :
    pace.latest asked (failed + 1) = pace.latest asked failed + pace.rest + pace.answer := by
  rw [latest, latest, Nat.succ_mul]
  simp only [Nat.add_assoc]

end Pace

/-- What the thread is at. -/
inductive Turn where
  | asking (began : Time)
  | resting (ended : Time)
  | stopped

namespace Turn

/-- By when the thread goes on; a thread that has stopped does not. -/
def deadline (pace : Pace) : Turn → Option Time
  | asking began => some (began + pace.answer)
  | resting ended => some (ended + pace.rest)
  | stopped => none

/-- The thread was done with its last question by `done` and has gone on in time. -/
def Paced (pace : Pace) (done : Time) : Turn → Prop
  | asking began => began ≤ done + pace.rest
  | resting ended => ended ≤ done
  | stopped => True

theorem Paced.deadline_le {pace : Pace} {turn : Turn} {done deadline : Time}
    (h : turn.Paced pace done) (hdeadline : turn.deadline pace = some deadline) :
    deadline ≤ done + pace.rest + pace.answer := by
  cases turn with
  | asking began =>
    cases hdeadline
    exact Nat.add_le_add_right h _
  | resting ended =>
    cases hdeadline
    exact Nat.le_trans (Nat.add_le_add_right h _) (Nat.le_add_right _ _)
  | stopped => cases hdeadline

end Turn

namespace Pace

variable {pace : Pace} {asked began ended now now' deadline : Time} {failed : Nat} {turn : Turn}

/-- The account of a thread whose copy answers the question it asked at `asked`, after which
`failed` questions failed; or which started at `asked` and has no copy yet. -/
structure Kept (pace : Pace) (asked : Time) (failed : Nat) (now : Time) (turn : Turn) : Prop where
  few_failures : failed ≤ pace.failures
  in_time : now ≤ pace.latest asked failed + pace.rest + pace.answer
  paced : turn.Paced pace (pace.latest asked failed)

/-- The thread starts with a question. -/
theorem kept_start (start : Time) : pace.Kept start 0 start (.asking start) := by
  have hlatest : start ≤ pace.latest start 0 + pace.rest := by
    rw [latest_zero]
    exact Nat.le_trans (Nat.le_add_right _ _) (Nat.le_add_right _ _)
  exact ⟨Nat.zero_le _, Nat.le_trans hlatest (Nat.le_add_right _ _), hlatest⟩

/-- Time passes, as long as the thread is not late. -/
theorem Kept.later (h : pace.Kept asked failed now turn)
    (hdeadline : turn.deadline pace = some deadline) (hintime : now' ≤ deadline) :
    pace.Kept asked failed now' turn :=
  ⟨h.few_failures, Nat.le_trans hintime (h.paced.deadline_le hdeadline), h.paced⟩

/-- The thread asks again. -/
theorem Kept.asks (h : pace.Kept asked failed now (.resting ended))
    (hintime : now' ≤ ended + pace.rest) : pace.Kept asked failed now' (.asking now') where
  few_failures := h.few_failures
  in_time := (h.later rfl hintime).in_time
  paced := Nat.le_trans hintime (Nat.add_le_add_right h.paced _)

/-- The thread stops. -/
theorem Kept.stops (h : pace.Kept asked failed now turn) : pace.Kept asked failed now .stopped :=
  ⟨h.few_failures, h.in_time, trivial⟩

/-- The thread is done with a question in time. -/
theorem kept_resting (hfailed : failed ≤ pace.failures) (hlatest : now ≤ pace.latest asked failed) :
    pace.Kept asked failed now (.resting now) where
  few_failures := hfailed
  in_time := Nat.le_trans hlatest (Nat.le_trans (Nat.le_add_right _ _) (Nat.le_add_right _ _))
  paced := hlatest

/-- A question fails, and the copy stays. -/
theorem Kept.fails (h : pace.Kept asked failed now (.asking began))
    (hintime : now' ≤ began + pace.answer) (hfailed : failed < pace.failures) :
    pace.Kept asked (failed + 1) now' (.resting now') := by
  refine kept_resting hfailed ?_
  rw [latest_succ]
  exact (h.later rfl hintime).in_time

/-- A question succeeds: there is a new copy. -/
theorem kept_copied (hintime : now ≤ began + pace.answer) :
    pace.Kept began 0 now (.resting now) := by
  refine kept_resting (Nat.zero_le _) ?_
  rw [latest_zero]
  exact hintime

/-- The question behind the copy was asked at most `staleness` ago. -/
theorem Kept.le_staleness (h : pace.Kept asked failed now turn) :
    now ≤ asked + pace.staleness := by
  have hcycles : (failed + 1) * (pace.rest + pace.answer) ≤
      (pace.failures + 1) * (pace.rest + pace.answer) :=
    Nat.mul_le_mul_right _ (Nat.succ_le_succ h.few_failures)
  calc now ≤ pace.latest asked (failed + 1) := by
        rw [latest_succ]
        exact h.in_time
    _ = asked + pace.answer + (failed + 1) * (pace.rest + pace.answer) := rfl
    _ ≤ asked + pace.answer + (pace.failures + 1) * (pace.rest + pace.answer) :=
      Nat.add_le_add_left hcycles _
    _ = asked + pace.staleness := Nat.add_assoc _ _ _

end Pace

end FlowraRelayer.Foundation
