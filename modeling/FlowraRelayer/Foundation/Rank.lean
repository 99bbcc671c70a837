/-
  Foundation/Rank.lean --- runs that end because every step spends something.

  If every step of a run lowers a rank, the run is not longer than the rank it starts with
  (`runSteps_rank`).  The rank of a system of `n` threads is `sumBelow f n`, the sum of the
  ranks `f i` of its threads, and a step of one thread changes one summand
  (`sumBelow_update`).

  The module names nothing of the relayer.
-/
import FlowraRelayer.Foundation.Run
import Mathlib.Logic.Function.Basic

set_option autoImplicit false

namespace FlowraRelayer.Foundation

/-! ## Sums over threads -/

/-- `f 0 + … + f (n - 1)`. -/
def sumBelow (f : Nat → Nat) : Nat → Nat
  | 0 => 0
  | n + 1 => sumBelow f n + f n

variable {f : Nat → Nat} {i n value bound : Nat}

/-- A value beyond the end does not count. -/
theorem sumBelow_update_of_le (hn : n ≤ i) :
    sumBelow (Function.update f i value) n = sumBelow f n := by
  induction n with
  | zero => rfl
  | succ n ih =>
    have hne : n ≠ i := Nat.ne_of_lt hn
    rw [sumBelow, sumBelow, ih (Nat.le_of_succ_le hn), Function.update_of_ne hne]

/-- One summand is replaced. -/
theorem sumBelow_update (hi : i < n) :
    sumBelow (Function.update f i value) n + f i = sumBelow f n + value := by
  induction n with
  | zero => cases hi
  | succ n ih =>
    rw [sumBelow, sumBelow]
    rcases Nat.lt_succ_iff_lt_or_eq.mp hi with hlt | rfl
    · have hne : n ≠ i := Nat.ne_of_gt hlt
      rw [Function.update_of_ne hne]
      have := ih hlt
      omega
    · rw [sumBelow_update_of_le (Nat.le_refl i), Function.update_self]
      omega

theorem sumBelow_le (hbound : ∀ i, f i ≤ bound) (n : Nat) : sumBelow f n ≤ bound * n := by
  induction n with
  | zero => exact Nat.le_refl 0
  | succ n ih =>
    rw [sumBelow, Nat.mul_succ]
    exact Nat.add_le_add ih (hbound n)

/-! ## Runs -/

variable {σ ι : Type}

/-- A run in which every step lowers the rank is not longer than the rank allows. -/
theorem runSteps_rank {step : σ → ι → Option σ} {cond : σ → ι → Prop} (Inv : σ → Prop)
    (rank : σ → Nat)
    (hstep : ∀ s l s', Inv s → cond s l → step s l = some s' → Inv s' ∧ rank s' < rank s) :
    ∀ (ls : List ι) {s s' : σ}, Inv s → StepsMeet step cond s ls →
      runSteps step s ls = some s' → ls.length + rank s' ≤ rank s := by
  intro ls
  induction ls with
  | nil =>
    intro s s' _ _ h
    cases h
    exact Nat.le_of_eq (Nat.zero_add _)
  | cons l ls ih =>
    intro s s'' hinv hmeets h
    obtain ⟨s', hs, hrest⟩ := runSteps_cons_eq_some h
    obtain ⟨hcond, hmeets'⟩ := stepsMeet_cons hmeets hs
    obtain ⟨hinv', hlower⟩ := hstep s l s' hinv hcond hs
    have hlength := ih hinv' hmeets' hrest
    rw [List.length_cons]
    omega

end FlowraRelayer.Foundation
