/-
  Foundation/Checks.lean --- fallible code written as a chain of checks.

  A request handler tests one thing after another and returns the first failure.
  In `Except` such a handler is a `do` block of `ensure` and `okOr`, and what a
  successful run of it means is read off with `bind_eq_ok_iff`: every test held
  and every lookup found its value.

  The module names nothing of the relayer.
-/
import Mathlib.Logic.Basic

set_option autoImplicit false

namespace FlowraRelayer.Foundation

variable {ε α β : Type}

/-- Fail with `failure` unless `cond` holds. -/
def ensure (cond : Prop) [Decidable cond] (failure : ε) : Except ε Unit :=
  if cond then .ok () else .error failure

/-- `Option::ok_or`. -/
def okOr (failure : ε) : Option α → Except ε α
  | none => .error failure
  | some a => .ok a

/-- A chain succeeds exactly when its first step does and the rest succeeds on
what that step gave. -/
@[simp] theorem bind_eq_ok_iff {x : Except ε α} {f : α → Except ε β} {b : β} :
    (x >>= f) = .ok b ↔ ∃ a, x = .ok a ∧ f a = .ok b := by
  cases x with
  | error e => simp [bind, Except.bind]
  | ok a => simp [bind, Except.bind]

/-- A chain fails where its first step does, or later. -/
theorem bind_eq_error_iff {x : Except ε α} {f : α → Except ε β} {e : ε} :
    (x >>= f) = .error e ↔ x = .error e ∨ ∃ a, x = .ok a ∧ f a = .error e := by
  cases x with
  | error e => simp [bind, Except.bind]
  | ok a => simp [bind, Except.bind]

/-- A chain none of whose steps fails with `e` does not. -/
theorem bind_ne_error {x : Except ε α} {f : α → Except ε β} {e : ε} (hx : x ≠ .error e)
    (hf : ∀ a, x = .ok a → f a ≠ .error e) : (x >>= f) ≠ .error e := by
  intro h
  rcases bind_eq_error_iff.mp h with hfirst | ⟨a, ha, hrest⟩
  · exact hx hfirst
  · exact hf a ha hrest

/-- A sequence of computations fails where one of them does. -/
theorem exists_of_mapM_eq_error {f : α → Except ε β} {e : ε} :
    ∀ {l : List α}, l.mapM f = .error e → ∃ a ∈ l, f a = .error e := by
  intro l
  induction l with
  | nil =>
    intro h
    cases h
  | cons a l ih =>
    intro h
    rw [List.mapM_cons, bind_eq_error_iff] at h
    rcases h with hfirst | ⟨b, -, hrest⟩
    · exact ⟨a, List.mem_cons_self, hfirst⟩
    · rcases bind_eq_error_iff.mp hrest with hlater | ⟨_, -, hpure⟩
      · obtain ⟨other, hother, herror⟩ := ih hlater
        exact ⟨other, List.mem_cons_of_mem a hother, herror⟩
      · cases hpure

@[simp] theorem ensure_eq_ok_iff {cond : Prop} [Decidable cond] {failure : ε} {u : Unit} :
    ensure cond failure = .ok u ↔ cond := by
  unfold ensure
  split <;> simp_all

theorem ensure_ne_error {cond : Prop} [Decidable cond] {failure e : ε} (h : failure ≠ e) :
    ensure cond failure ≠ .error e := by
  unfold ensure
  split <;> simp [h]

theorem okOr_ne_error {failure e : ε} {x : Option α} (h : failure ≠ e) :
    okOr failure x ≠ .error e := by
  cases x <;> simp [okOr, h]

@[simp] theorem okOr_eq_ok_iff {failure : ε} {x : Option α} {a : α} :
    okOr failure x = .ok a ↔ x = some a := by
  cases x <;> simp [okOr]

@[simp] theorem pure_eq_ok_iff {a b : α} : (pure a : Except ε α) = .ok b ↔ a = b := by
  simp [pure, Except.pure]

theorem pure_ne_error {a : α} {e : ε} : (pure a : Except ε α) ≠ .error e := by
  simp [pure, Except.pure]

@[simp] theorem toOption_eq_some_iff {x : Except ε α} {a : α} :
    x.toOption = some a ↔ x = .ok a := by
  cases x <;> simp [Except.toOption]

@[simp] theorem mapError_eq_ok_iff {ε' : Type} {f : ε → ε'} {x : Except ε α} {a : α} :
    x.mapError f = .ok a ↔ x = .ok a := by
  cases x with
  | error e => constructor <;> intro h <;> cases h
  | ok b =>
    constructor
    · intro h
      cases h
      rfl
    · intro h
      cases h
      rfl

theorem mapError_eq_error_iff {ε' : Type} {f : ε → ε'} {x : Except ε α} {e' : ε'} :
    x.mapError f = .error e' ↔ ∃ e, x = .error e ∧ f e = e' := by
  cases x with
  | error e =>
    constructor
    · intro h
      cases h
      exact ⟨e, rfl, rfl⟩
    · rintro ⟨_, he, rfl⟩
      cases he
      rfl
  | ok b =>
    constructor
    · intro h
      cases h
    · rintro ⟨_, he, -⟩
      cases he

end FlowraRelayer.Foundation
