/-
  Foundation/Log.lean --- append-only logs whose every entry is justified by what
  stands before it.

  `Grounded just log` says that each entry `e` of the log satisfies `just` with
  the entries before `e`.  A component that appends only justified entries keeps
  its log grounded, and a property of a grounded log is proved by induction over
  the order in which it was written.

  `HeldSince starts ends log` says that some entry of the log starts something which
  no later entry ends: what a table that is set and cleared by events holds.

  A segment of a log that starts at `start` is a front part of `log.drop start`.

  The module names nothing of the relayer.
-/
import Mathlib.Data.List.Basic

set_option autoImplicit false

namespace FlowraRelayer.Foundation

variable {α : Type} {just : List α → α → Prop}

/-- Every entry is justified by the entries before it. -/
inductive Grounded (just : List α → α → Prop) : List α → Prop where
  | nil : Grounded just []
  | concat {log : List α} {entry : α} (before : Grounded just log) (justified : just log entry) :
      Grounded just (log ++ [entry])

/-- An entry of a log stays where it is when the log grows. -/
theorem getElem?_append_of_some {log : List α} {i : Nat} {entry : α}
    (h : log[i]? = some entry) (more : List α) : (log ++ more)[i]? = some entry := by
  obtain ⟨hi, -⟩ := List.getElem?_eq_some_iff.mp h
  rw [List.getElem?_append_left hi]
  exact h

/-- The entry written last is where the log ended. -/
theorem getElem?_concat_length (log : List α) (entry : α) :
    (log ++ [entry])[log.length]? = some entry := by
  simp

/-- An entry of a log that grew by one is an old entry or the new one. -/
theorem getElem?_concat_cases {log : List α} {i : Nat} {entry last : α}
    (h : (log ++ [last])[i]? = some entry) :
    log[i]? = some entry ∨ i = log.length ∧ last = entry := by
  rcases Nat.lt_trichotomy i log.length with hi | hi | hi
  · rw [List.getElem?_append_left hi] at h
    exact .inl h
  · subst hi
    rw [getElem?_concat_length] at h
    exact .inr ⟨rfl, Option.some.inj h⟩
  · rw [List.getElem?_eq_none (by simp; omega)] at h
    exact absurd h (by simp)

/-- An entry among the first `n` is an entry of the log before position `n`. -/
theorem getElem?_take_eq_some {log : List α} {n i : Nat} {entry : α}
    (h : (log.take n)[i]? = some entry) : i < n ∧ log[i]? = some entry := by
  rw [List.getElem?_take] at h
  split at h
  · rename_i hi
    exact ⟨hi, h⟩
  · cases h

/-- Each entry of a grounded log, with the part of the log that justifies it. -/
theorem Grounded.justified_at {log : List α} (hlog : Grounded just log) :
    ∀ {i : Nat} {entry : α}, log[i]? = some entry → just (log.take i) entry := by
  induction hlog with
  | nil =>
    intro i entry h
    simp at h
  | @concat log last _ hlast ih =>
    intro i entry h
    rcases getElem?_concat_cases h with hold | ⟨rfl, rfl⟩
    · obtain ⟨hi, -⟩ := List.getElem?_eq_some_iff.mp hold
      rw [List.take_append_of_le_length (Nat.le_of_lt hi)]
      exact ih hold
    · simpa using hlast

/-- Entries that are justified whatever stands before them may be appended together. -/
theorem Grounded.append {log : List α} (hlog : Grounded just log) :
    ∀ {more : List α}, (∀ before, ∀ entry ∈ more, just before entry) →
      Grounded just (log ++ more) := by
  intro more
  induction more generalizing log with
  | nil =>
    intro _
    rwa [List.append_nil]
  | cons entry rest ih =>
    intro hmore
    rw [List.append_cons]
    refine ih (hlog.concat (hmore log entry List.mem_cons_self)) ?_
    intro before other hother
    exact hmore before other (List.mem_cons_of_mem entry hother)

/-! ## Since -/

/-- Some entry starts it, and no entry after that one ends it. -/
def HeldSince (starts ends : α → Prop) (log : List α) : Prop :=
  ∃ before entry after, log = before ++ entry :: after ∧ starts entry ∧ ∀ e ∈ after, ¬ ends e

variable {starts ends : α → Prop}

theorem not_heldSince_nil : ¬ HeldSince starts ends [] := by
  rintro ⟨before, entry, after, heq, -⟩
  simp at heq

/-- The last entry starts it, or it was held before and the last entry does not end it. -/
theorem heldSince_concat {log : List α} {last : α} :
    HeldSince starts ends (log ++ [last]) ↔
      starts last ∨ HeldSince starts ends log ∧ ¬ ends last := by
  constructor
  · rintro ⟨before, entry, after, heq, hstarts, hends⟩
    rcases List.eq_nil_or_concat' after with rfl | ⟨rest, e, rfl⟩
    · obtain ⟨-, hlast⟩ := List.append_inj' heq rfl
      cases hlast
      exact .inl hstarts
    · rw [← List.cons_append, ← List.append_assoc] at heq
      obtain ⟨rfl, hlast⟩ := List.append_inj' heq rfl
      cases hlast
      refine .inr ⟨⟨before, entry, rest, rfl, hstarts, ?_⟩, hends _ (by simp)⟩
      intro e he
      exact hends e (List.mem_append_left _ he)
  · rintro (hstarts | ⟨⟨before, entry, after, rfl, hstarts, hends⟩, hlast⟩)
    · exact ⟨log, last, [], rfl, hstarts, by simp⟩
    · refine ⟨before, entry, after ++ [last], by simp, hstarts, ?_⟩
      intro e he
      rcases List.mem_append.mp he with hold | hnew
      · exact hends e hold
      · rw [List.mem_singleton.mp hnew]
        exact hlast

/-! ## Segments -/

/-- A segment of a log stays one when the log grows. -/
theorem prefix_drop_append {segment log : List α} {start : Nat}
    (h : segment <+: log.drop start) (hstart : start ≤ log.length) (more : List α) :
    segment <+: (log ++ more).drop start := by
  rw [List.drop_append_of_le_length hstart]
  exact h.trans (List.prefix_append _ _)

/-- A segment that reaches up to an entry of the log may take that entry in. -/
theorem prefix_drop_concat {segment before after : List α} {entry : α} {start : Nat}
    (h : segment <+: (before ++ entry :: after).drop start)
    (hlength : before.length = start + segment.length) :
    segment ++ [entry] <+: (before ++ entry :: after).drop start := by
  rw [List.drop_append_of_le_length (by omega)] at h ⊢
  have hsegment : segment = before.drop start := by
    have hle : segment.length = (before.drop start).length := by
      rw [List.length_drop]
      omega
    exact (List.prefix_of_prefix_length_le h (List.prefix_append _ _) (Nat.le_of_eq hle)).eq_of_length
      hle
  rw [← hsegment]
  exact List.prefix_append_right_inj segment |>.mpr ⟨after, rfl⟩

end FlowraRelayer.Foundation
