import Mathlib.Data.List.Basic
set_option autoImplicit false

/-!
# Foundation: cutting a list into chunks

`chunks n l` is `slice::chunks(n)` for `1 ≤ n`: consecutive pieces of length `n`,
the last one possibly shorter, none of them empty.  `IsChunking` states that
without mentioning how the pieces are computed.

The module names nothing of the relayer.
-/

namespace FlowraRelayer.Foundation

variable {α : Type}

/-- `fuel` bounds the number of pieces; the length of the list is enough. -/
def chunksFuel (n : Nat) : Nat → List α → List (List α)
  | 0, _ => []
  | _ + 1, [] => []
  | fuel + 1, a :: l => (a :: l).take n :: chunksFuel n fuel ((a :: l).drop n)

/-- The consecutive pieces of length `n` of a list. -/
def chunks (n : Nat) (l : List α) : List (List α) := chunksFuel n l.length l

/-- `pieces` cuts `l` into consecutive nonempty pieces, all of length `n` except
possibly the last. -/
structure IsChunking (n : Nat) (l : List α) (pieces : List (List α)) : Prop where
  flatten_eq : pieces.flatten = l
  ne_nil : ∀ piece ∈ pieces, piece ≠ []
  length_le : ∀ piece ∈ pieces, piece.length ≤ n
  length_eq : ∀ piece ∈ pieces.dropLast, piece.length = n

theorem isChunking_nil (n : Nat) : IsChunking n ([] : List α) [] where
  flatten_eq := rfl
  ne_nil := by simp
  length_le := by simp
  length_eq := by simp

/-- A full first piece in front of a chunking of the rest. -/
theorem IsChunking.cons {n : Nat} {first rest : List α} {pieces : List (List α)}
    (hne : first ≠ []) (hle : first.length ≤ n) (hfull : rest ≠ [] → first.length = n)
    (h : IsChunking n rest pieces) : IsChunking n (first ++ rest) (first :: pieces) where
  flatten_eq := by rw [List.flatten_cons, h.flatten_eq]
  ne_nil := by
    intro piece hpiece
    rcases List.mem_cons.mp hpiece with rfl | hpiece
    · exact hne
    · exact h.ne_nil piece hpiece
  length_le := by
    intro piece hpiece
    rcases List.mem_cons.mp hpiece with rfl | hpiece
    · exact hle
    · exact h.length_le piece hpiece
  length_eq := by
    intro piece hpiece
    cases pieces with
    | nil => simp at hpiece
    | cons next pieces =>
      rw [List.dropLast_cons_of_ne_nil (List.cons_ne_nil next pieces)] at hpiece
      rcases List.mem_cons.mp hpiece with rfl | hpiece
      · apply hfull
        intro hnil
        have hflat := h.flatten_eq
        rw [hnil, List.flatten_cons] at hflat
        exact h.ne_nil next (by simp) (List.append_eq_nil_iff.mp hflat).1
      · exact h.length_eq piece hpiece

theorem isChunking_chunksFuel {n : Nat} (hn : 1 ≤ n) :
    ∀ (fuel : Nat) (l : List α), l.length ≤ fuel → IsChunking n l (chunksFuel n fuel l) := by
  intro fuel
  induction fuel with
  | zero =>
    intro l hl
    rw [List.length_eq_zero_iff.mp (Nat.le_zero.mp hl)]
    exact isChunking_nil n
  | succ fuel ih =>
    intro l hl
    cases l with
    | nil => exact isChunking_nil n
    | cons a l =>
      have hdrop : ((a :: l).drop n).length ≤ fuel := by
        rw [List.length_drop, List.length_cons] at *
        omega
      have hsplit : (a :: l).take n ++ (a :: l).drop n = a :: l := List.take_append_drop n (a :: l)
      have hrest := ih ((a :: l).drop n) hdrop
      rw [← hsplit]
      have hpieces : chunksFuel n (fuel + 1) ((a :: l).take n ++ (a :: l).drop n) =
          (a :: l).take n :: chunksFuel n fuel ((a :: l).drop n) := by
        rw [hsplit]
        rfl
      rw [hpieces]
      refine IsChunking.cons ?_ ?_ ?_ hrest
      · intro hnil
        have hlen := congrArg List.length hnil
        rw [List.length_take, List.length_cons, List.length_nil] at hlen
        omega
      · rw [List.length_take]
        omega
      · intro hne
        have hpos := List.length_pos_iff.mpr hne
        rw [List.length_drop] at hpos
        rw [List.length_take]
        omega

/-- For a positive piece length, `chunks` cuts the list. -/
theorem isChunking_chunks {n : Nat} (hn : 1 ≤ n) (l : List α) : IsChunking n l (chunks n l) :=
  isChunking_chunksFuel hn l.length l (Nat.le_refl _)

end FlowraRelayer.Foundation
