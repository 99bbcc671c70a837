/-
  Foundation/Split.lean --- `str::split` by a separator text.

  Rust splits from the left, at occurrences that do not overlap: after a match the
  search goes on behind it, and text without a match is one piece.  `splitFrom`
  reads the text one element at a time; its counter says how many elements of the
  current occurrence of the separator are still to be passed over.

  A text has one piece exactly if the separator does not occur in it
  (`splitBy_eq_singleton_iff`), and a separator in front only adds an empty piece
  (`splitBy_append`).

  The module names nothing of the relayer.
-/
import Mathlib.Data.List.Basic

set_option autoImplicit false

namespace FlowraRelayer.Foundation

variable {α : Type} [DecidableEq α]

/-- Put an element in front of the first piece. -/
def consPiece (a : α) : List (List α) → List (List α)
  | [] => [[a]]
  | piece :: pieces => (a :: piece) :: pieces

/-- The pieces of a text of which the first `skip` elements belong to the
separator just found. -/
def splitFrom (sep : List α) : Nat → List α → List (List α)
  | _, [] => [[]]
  | skip + 1, _ :: rest => splitFrom sep skip rest
  | 0, a :: rest =>
      if sep.isPrefixOf (a :: rest) then [] :: splitFrom sep (sep.length - 1) rest
      else consPiece a (splitFrom sep 0 rest)

/-- `text.split(sep).collect()`. -/
def splitBy (sep text : List α) : List (List α) := splitFrom sep 0 text

example : splitBy [1, 1] [0, 1, 1, 1, 2] = [[0], [1, 2]] := by decide
example : splitBy [1, 1] [1, 1] = [[], []] := by decide

variable {sep text piece : List α}

omit [DecidableEq α] in
theorem consPiece_eq_singleton_iff {a : α} {pieces : List (List α)} (hne : pieces ≠ []) :
    consPiece a pieces = [piece] ↔ ∃ rest, pieces = [rest] ∧ piece = a :: rest := by
  cases pieces with
  | nil => exact absurd rfl hne
  | cons first others =>
    simp only [consPiece, List.cons.injEq]
    constructor
    · rintro ⟨rfl, rfl⟩
      exact ⟨first, ⟨rfl, rfl⟩, rfl⟩
    · rintro ⟨rest, ⟨rfl, rfl⟩, rfl⟩
      exact ⟨rfl, rfl⟩

/-- There is always a piece. -/
theorem splitFrom_ne_nil (sep : List α) : ∀ (text : List α) (skip : Nat),
    splitFrom sep skip text ≠ [] := by
  intro text
  induction text with
  | nil =>
    intro skip
    cases skip <;> simp [splitFrom]
  | cons a rest ih =>
    intro skip
    cases skip with
    | succ skip => exact ih skip
    | zero =>
      rw [splitFrom]
      split
      · exact List.cons_ne_nil _ _
      · cases hpieces : splitFrom sep 0 rest with
        | nil => exact absurd hpieces (ih 0)
        | cons piece pieces => exact List.cons_ne_nil _ _

/-- Passing over the elements of an occurrence. -/
theorem splitFrom_length_append (sep : List α) : ∀ (passed text : List α),
    splitFrom sep passed.length (passed ++ text) = splitFrom sep 0 text := by
  intro passed
  induction passed with
  | nil =>
    intro text
    rfl
  | cons a passed ih =>
    intro text
    exact ih text

/-- A separator in front is an empty piece in front. -/
theorem splitBy_append (hsep : sep ≠ []) (text : List α) :
    splitBy sep (sep ++ text) = [] :: splitBy sep text := by
  obtain ⟨a, rest, rfl⟩ := List.exists_cons_of_ne_nil hsep
  have hfront : (a :: rest).isPrefixOf (a :: (rest ++ text)) = true :=
    List.isPrefixOf_iff_prefix.mpr (List.prefix_append (a :: rest) text)
  rw [splitBy, List.cons_append, splitFrom, if_pos hfront]
  exact congrArg ([] :: ·) (splitFrom_length_append (a :: rest) rest text)

/-- A text is one piece, itself, exactly if the separator does not occur in it. -/
theorem splitBy_eq_singleton_iff (hsep : sep ≠ []) :
    splitBy sep text = [piece] ↔ piece = text ∧ ¬ sep <:+: text := by
  unfold splitBy
  induction text generalizing piece with
  | nil =>
    have hnot : ¬ sep <:+: [] := fun h => hsep (List.infix_nil.mp h)
    simp [splitFrom, hnot, eq_comm]
  | cons a rest ih =>
    rw [splitFrom, List.infix_cons_iff]
    split
    · -- an occurrence right here cuts the text
      rename_i hfront
      have hoccurs : sep <+: a :: rest := List.isPrefixOf_iff_prefix.mp hfront
      simp [hoccurs, splitFrom_ne_nil]
    · rename_i hfront
      have hnot : ¬ sep <+: a :: rest := fun h => hfront (List.isPrefixOf_iff_prefix.mpr h)
      rw [consPiece_eq_singleton_iff (splitFrom_ne_nil sep rest 0)]
      constructor
      · rintro ⟨first, hpieces, rfl⟩
        obtain ⟨rfl, hrest⟩ := ih.mp hpieces
        exact ⟨rfl, fun h => h.elim hnot hrest⟩
      · rintro ⟨rfl, hoccurs⟩
        exact ⟨rest, ih.mpr ⟨rfl, fun h => hoccurs (.inr h)⟩, rfl⟩

end FlowraRelayer.Foundation
