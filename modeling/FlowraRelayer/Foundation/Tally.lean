/-
  Foundation/Tally.lean --- how many entries of a table have a value of some kind.

  `tally p table` counts the entries whose value meets `p`.  Setting or erasing one key
  moves the count by what that key had and gets.

  The module names nothing of the relayer.
-/
import Mathlib.Data.List.AList

set_option autoImplicit false

namespace FlowraRelayer.Foundation

variable {K V : Type} [DecidableEq K] {table : AList fun _ : K => V} {key : K} {value : V}

/-- The number of entries with a value that meets `p`. -/
def tally (p : V → Bool) (table : AList fun _ : K => V) : Nat :=
  table.entries.countP fun entry => p entry.2

omit [DecidableEq K] in
@[simp] theorem tally_empty (p : V → Bool) : tally p (∅ : AList fun _ : K => V) = 0 := rfl

omit [DecidableEq K] in
/-- All entries together. -/
theorem tally_true (table : AList fun _ : K => V) :
    tally (fun _ => true) table = table.entries.length :=
  congrFun List.countP_true _

theorem countP_kerase (p : V → Bool) :
    ∀ {entries : List (Sigma fun _ : K => V)}, entries.dlookup key = some value →
      entries.countP (fun entry => p entry.2) =
        (entries.kerase key).countP (fun entry => p entry.2) + if p value then 1 else 0 := by
  intro entries
  induction entries with
  | nil =>
    intro h
    cases h
  | cons entry rest ih =>
    intro h
    by_cases hkey : key = entry.1
    · subst hkey
      rw [List.dlookup_cons_eq, Option.some.injEq] at h
      rw [List.kerase_cons_eq rfl, List.countP_cons, h]
    · rw [List.dlookup_cons_ne rest entry hkey] at h
      rw [List.kerase_cons_ne hkey, List.countP_cons, List.countP_cons, ih h]
      omega

/-- Erasing a key takes away what it had. -/
theorem tally_erase_of_lookup (p : V → Bool) (h : table.lookup key = some value) :
    tally p table = tally p (table.erase key) + if p value then 1 else 0 :=
  countP_kerase p h

theorem tally_erase_le (p : V → Bool) (table : AList fun _ : K => V) (key : K) :
    tally p (table.erase key) ≤ tally p table :=
  (List.kerase_sublist key table.entries).countP_le

/-- Setting a key replaces what it had. -/
theorem tally_insert (p : V → Bool) (table : AList fun _ : K => V) (key : K) (value : V) :
    tally p (table.insert key value) =
      tally p (table.erase key) + if p value then 1 else 0 := by
  unfold tally
  rw [AList.entries_insert, List.countP_cons]
  rfl

theorem tally_insert_le (p : V → Bool) (table : AList fun _ : K => V) (key : K) (value : V) :
    tally p (table.insert key value) ≤ tally p table + 1 := by
  have hold := tally_erase_le p table key
  rw [tally_insert]
  split <;> omega

/-- A value that does not count adds nothing. -/
theorem tally_insert_of_not (p : V → Bool) (table : AList fun _ : K => V) (key : K)
    (hvalue : p value = false) : tally p (table.insert key value) ≤ tally p table := by
  have hold := tally_erase_le p table key
  rw [tally_insert, hvalue]
  exact hold

/-- A value in the place of one that counts adds nothing. -/
theorem tally_insert_of_lookup {old : V} (p : V → Bool) (value : V)
    (hold : table.lookup key = some old) (hcounts : p old = true) :
    tally p (table.insert key value) ≤ tally p table := by
  have herase := tally_erase_of_lookup p hold
  rw [hcounts, if_pos rfl] at herase
  rw [tally_insert]
  split <;> omega

end FlowraRelayer.Foundation
