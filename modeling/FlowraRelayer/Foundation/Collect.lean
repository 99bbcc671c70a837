/-
  Foundation/Collect.lean --- maps that are filled one pair after the other.

  Inserting a key that is already there replaces its value, so of several pairs with one
  key the last one stays.  `lastOf pairs key` is what stays.  It is what a loop of
  insertions leaves in a table (`lookup_foldl_insert`) and in a function that is updated
  point by point (`foldl_update_apply`), each on top of what was there before.

  Where no key has two values the order of the pairs does not matter
  (`lastOf_eq_some_iff_mem`).

  The module names nothing of the relayer.
-/
import Mathlib.Data.List.AList
import Mathlib.Logic.Function.Basic

set_option autoImplicit false

namespace FlowraRelayer.Foundation

variable {K V : Type} [DecidableEq K]

/-- The value of the last pair with this key. -/
def lastOf : List (K × V) → K → Option V
  | [], _ => none
  | pair :: rest, key => (lastOf rest key).or (if pair.1 = key then some pair.2 else none)

@[simp] theorem lastOf_nil (key : K) : lastOf ([] : List (K × V)) key = none := rfl

theorem lastOf_cons (pair : K × V) (rest : List (K × V)) (key : K) :
    lastOf (pair :: rest) key =
      (lastOf rest key).or (if pair.1 = key then some pair.2 else none) := rfl

theorem lastOf_append (front back : List (K × V)) (key : K) :
    lastOf (front ++ back) key = (lastOf back key).or (lastOf front key) := by
  induction front with
  | nil => simp
  | cons pair rest ih => rw [List.cons_append, lastOf_cons, ih, lastOf_cons, Option.or_assoc]

theorem lastOf_eq_none_iff {pairs : List (K × V)} {key : K} :
    lastOf pairs key = none ↔ ∀ pair ∈ pairs, pair.1 ≠ key := by
  induction pairs with
  | nil => simp
  | cons pair rest ih =>
    rw [lastOf_cons, Option.or_eq_none_iff, ih]
    simp [and_comm]

/-- The value stays exactly if a pair with it is followed by no other pair of the key. -/
theorem lastOf_eq_some_iff {pairs : List (K × V)} {key : K} {value : V} :
    lastOf pairs key = some value ↔
      ∃ before after, pairs = before ++ (key, value) :: after ∧ ∀ pair ∈ after, pair.1 ≠ key := by
  constructor
  · induction pairs with
    | nil => simp
    | cons pair rest ih =>
      intro h
      rw [lastOf_cons, Option.or_eq_some_iff] at h
      rcases h with hrest | ⟨hnone, hpair⟩
      · obtain ⟨before, after, rfl, hafter⟩ := ih hrest
        exact ⟨pair :: before, after, rfl, hafter⟩
      · rw [Option.ite_none_right_eq_some, Option.some.injEq] at hpair
        obtain ⟨rfl, rfl⟩ := hpair
        exact ⟨[], rest, rfl, lastOf_eq_none_iff.mp hnone⟩
  · rintro ⟨before, after, rfl, hafter⟩
    rw [lastOf_append, lastOf_cons, lastOf_eq_none_iff.mpr hafter]
    simp

theorem mem_of_lastOf {pairs : List (K × V)} {key : K} {value : V}
    (h : lastOf pairs key = some value) : (key, value) ∈ pairs := by
  obtain ⟨before, after, rfl, -⟩ := lastOf_eq_some_iff.mp h
  simp

/-- Where no key has two values, what stays is what is listed. -/
theorem lastOf_eq_some_iff_mem {pairs : List (K × V)} {key : K}
    (hunique : ∀ a b, (key, a) ∈ pairs → (key, b) ∈ pairs → a = b) {value : V} :
    lastOf pairs key = some value ↔ (key, value) ∈ pairs := by
  constructor
  · exact mem_of_lastOf
  · intro hmem
    cases hlast : lastOf pairs key with
    | none => exact absurd rfl (lastOf_eq_none_iff.mp hlast _ hmem)
    | some last => rw [hunique last value (mem_of_lastOf hlast) hmem]

/-- Keys may be renamed as long as they stay apart. -/
theorem lastOf_map_key {L : Type} [DecidableEq L] {f : K → L} (hf : Function.Injective f)
    (pairs : List (K × V)) (key : K) :
    lastOf (pairs.map fun pair => (f pair.1, pair.2)) (f key) = lastOf pairs key := by
  induction pairs with
  | nil => rfl
  | cons pair rest ih =>
    rw [List.map_cons, lastOf_cons, lastOf_cons, ih]
    simp only [hf.eq_iff]

/-- A loop of insertions into a table. -/
theorem lookup_foldl_insert (pairs : List (K × V)) (key : K) :
    ∀ table : AList fun _ : K => V,
      (pairs.foldl (fun table pair => table.insert pair.1 pair.2) table).lookup key =
        (lastOf pairs key).or (table.lookup key) := by
  induction pairs with
  | nil =>
    intro table
    simp
  | cons pair rest ih =>
    intro table
    rw [List.foldl_cons, ih, lastOf_cons, Option.or_assoc]
    congr 1
    by_cases heq : pair.1 = key
    · subst heq
      simp [AList.lookup_insert]
    · rw [AList.lookup_insert_ne (Ne.symm heq), if_neg heq]
      simp

/-- A loop of updates of a function. -/
theorem foldl_update_apply (pairs : List (K × V)) (key : K) :
    ∀ f : K → Option V,
      pairs.foldl (fun (f : K → Option V) pair => Function.update f pair.1 (some pair.2)) f key =
        (lastOf pairs key).or (f key) := by
  induction pairs with
  | nil =>
    intro f
    simp
  | cons pair rest ih =>
    intro f
    rw [List.foldl_cons, ih, lastOf_cons, Option.or_assoc]
    congr 1
    by_cases heq : pair.1 = key
    · subst heq
      simp
    · rw [Function.update_of_ne (Ne.symm heq), if_neg heq]
      simp

end FlowraRelayer.Foundation
