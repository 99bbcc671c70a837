/-
  Foundation/Base58.lean --- change of base with leading zeros kept, and the
  Base58 text form of a byte string.

  Base58 writes a byte string as the base-58 digits of the number it denotes,
  most significant digit first, with one '1' for every leading zero byte.  Both
  directions are one operation on digit lists, `rebase`, which is its own inverse
  with the two bases exchanged (`rebase_rebase`); the text form only adds an
  alphabet.

  The module names nothing of the relayer.
-/
import Mathlib.Data.Nat.Digits.Lemmas

set_option autoImplicit false

namespace FlowraRelayer.Foundation

/-! ## Change of base -/

/-- The number of zeros a digit list starts with. -/
def leadingZeros (l : List Nat) : Nat := (l.takeWhile (· = 0)).length

/-- Most significant digit first: rewrite a base-`b` digit list in base `c`,
keeping as many leading zeros as it had. -/
def rebase (b c : Nat) (l : List Nat) : List Nat :=
  List.replicate (leadingZeros l) 0 ++ (Nat.digits c (Nat.ofDigits b l.reverse)).reverse

/-- Every digit list is its leading zeros followed by a list that is empty or
starts with a nonzero digit. -/
theorem eq_replicate_append_dropWhile (l : List Nat) :
    l = List.replicate (leadingZeros l) 0 ++ l.dropWhile (· = 0) := by
  have hzero : l.takeWhile (· = 0) = List.replicate (leadingZeros l) 0 := by
    rw [List.eq_replicate_iff]
    refine ⟨rfl, ?_⟩
    intro x hx
    have hall := List.all_takeWhile (p := fun d => decide (d = 0)) (l := l)
    exact of_decide_eq_true (List.all_eq_true.mp hall x hx)
  calc l = l.takeWhile (· = 0) ++ l.dropWhile (· = 0) := List.takeWhile_append_dropWhile.symm
    _ = _ := by rw [hzero]

theorem leadingZeros_replicate_append (z : Nat) {l : List Nat} (h : l.head? ≠ some 0) :
    leadingZeros (List.replicate z 0 ++ l) = z := by
  induction z with
  | zero =>
    cases l with
    | nil => rfl
    | cons d l => simp_all [leadingZeros]
  | succ z ih =>
    have hcons : leadingZeros (0 :: (List.replicate z 0 ++ l)) =
        leadingZeros (List.replicate z 0 ++ l) + 1 := by
      simp only [leadingZeros]
      rw [List.takeWhile_cons_of_pos (by simp), List.length_cons]
    rw [List.replicate_succ, List.cons_append, hcons, ih]

/-- The digits of a number, most significant first, do not start with a zero. -/
theorem head?_reverse_digits_ne_zero (c n : Nat) :
    (Nat.digits c n).reverse.head? ≠ some 0 := by
  rw [List.head?_reverse]
  intro hlast
  have hne : Nat.digits c n ≠ [] := by
    intro hnil
    simp [hnil] at hlast
  have hpos : n ≠ 0 := Nat.digits_ne_nil_iff_ne_zero.mp hne
  rw [List.getLast?_eq_getLast_of_ne_nil hne] at hlast
  exact Nat.getLast_digit_ne_zero c hpos (Option.some.inj hlast)

theorem leadingZeros_rebase (b c : Nat) (l : List Nat) :
    leadingZeros (rebase b c l) = leadingZeros l :=
  leadingZeros_replicate_append _ (head?_reverse_digits_ne_zero c _)

/-- Rewriting in another base keeps the number. -/
theorem ofDigits_reverse_rebase (b c : Nat) (l : List Nat) :
    Nat.ofDigits c (rebase b c l).reverse = Nat.ofDigits b l.reverse := by
  simp [rebase, Nat.ofDigits_append_replicate_zero, Nat.ofDigits_digits]

/-- The digits of the number a list denotes are the list without its leading
zeros. -/
theorem reverse_digits_ofDigits_reverse {b : Nat} (hb : 1 < b) {l : List Nat}
    (hl : ∀ d ∈ l, d < b) :
    (Nat.digits b (Nat.ofDigits b l.reverse)).reverse = l.dropWhile (· = 0) := by
  have hvalue : Nat.ofDigits b l.reverse = Nat.ofDigits b (l.dropWhile (· = 0)).reverse := by
    conv_lhs => rw [eq_replicate_append_dropWhile l]
    simp [Nat.ofDigits_append_replicate_zero]
  have hdigits : Nat.digits b (Nat.ofDigits b (l.dropWhile (· = 0)).reverse) =
      (l.dropWhile (· = 0)).reverse := by
    apply Nat.digits_ofDigits b hb
    · intro d hd
      exact hl d ((List.dropWhile_sublist _).subset (List.mem_reverse.mp hd))
    · intro hne
      rw [List.getLast_reverse]
      simpa using List.head_dropWhile_not (p := fun d => decide (d = 0)) (l := l)
        (by simpa using hne)
  rw [hvalue, hdigits, List.reverse_reverse]

/-- `rebase` is inverted by `rebase` with the bases exchanged. -/
theorem rebase_rebase {b : Nat} (c : Nat) (hb : 1 < b) {l : List Nat} (hl : ∀ d ∈ l, d < b) :
    rebase c b (rebase b c l) = l := by
  calc rebase c b (rebase b c l)
      = List.replicate (leadingZeros (rebase b c l)) 0 ++
          (Nat.digits b (Nat.ofDigits c (rebase b c l).reverse)).reverse := rfl
    _ = List.replicate (leadingZeros l) 0 ++ l.dropWhile (· = 0) := by
        rw [leadingZeros_rebase, ofDigits_reverse_rebase, reverse_digits_ofDigits_reverse hb hl]
    _ = l := (eq_replicate_append_dropWhile l).symm

theorem rebase_lt {b c : Nat} (hc : 1 < c) {l : List Nat} : ∀ d ∈ rebase b c l, d < c := by
  intro d hd
  rw [rebase, List.mem_append] at hd
  rcases hd with hd | hd
  · rw [List.eq_of_mem_replicate hd]
    omega
  · exact Nat.digits_lt_base hc (List.mem_reverse.mp hd)

/-! ## The Base58 alphabet -/

/-- The 58 characters, in digit order: no `0`, `O`, `I` or `l`. -/
def base58Alphabet : List Char :=
  "123456789ABCDEFGHJKLMNPQRSTUVWXYZabcdefghijkmnopqrstuvwxyz".toList

/-- The character of a digit. -/
def base58Char (d : Nat) : Char := base58Alphabet.getD d '1'

/-- The digit of a character. -/
def base58Digit (c : Char) : Option Nat := base58Alphabet.idxOf? c

theorem base58Digit_base58Char : ∀ d < 58, base58Digit (base58Char d) = some d := by
  decide

/-! ## Bytes and text -/

/-- The Base58 text of a byte string. -/
def base58Encode (bytes : List UInt8) : String :=
  String.ofList ((rebase 256 58 (bytes.map UInt8.toNat)).map base58Char)

/-- The byte string of a Base58 text; `none` on a character outside the
alphabet. -/
def base58Decode (text : String) : Option (List UInt8) :=
  (text.toList.mapM base58Digit).map fun digits =>
    (rebase 58 256 digits).map UInt8.ofNat

theorem mapM_base58Digit_map_base58Char :
    ∀ digits : List Nat, (∀ d ∈ digits, d < 58) →
      (digits.map base58Char).mapM base58Digit = some digits := by
  intro digits
  induction digits with
  | nil => intro _; rfl
  | cons d digits ih =>
    intro hlt
    have hd : base58Digit (base58Char d) = some d := base58Digit_base58Char d (hlt d (by simp))
    have hrest := ih fun e he => hlt e (by simp [he])
    simp [List.mapM_cons, hd, hrest]

/-- Decoding the text of a byte string gives the byte string back. -/
theorem base58Decode_base58Encode (bytes : List UInt8) :
    base58Decode (base58Encode bytes) = some bytes := by
  have hbytes : ∀ d ∈ bytes.map UInt8.toNat, d < 256 := by
    intro d hd
    obtain ⟨byte, _, rfl⟩ := List.mem_map.mp hd
    exact byte.toNat_lt
  unfold base58Decode base58Encode
  rw [String.toList_ofList,
    mapM_base58Digit_map_base58Char _ (rebase_lt (by decide)), Option.map_some,
    rebase_rebase 58 (by decide) hbytes]
  simp [Function.comp_def]

theorem base58Char_toNat : ∀ d < 58, 49 ≤ (base58Char d).toNat ∧ (base58Char d).toNat ≤ 122 := by
  decide

/-- The text of a nonempty byte string starts with a character from `1` to `z`. -/
theorem exists_first_base58Encode {bytes : List UInt8} (hne : bytes ≠ []) :
    ∃ first rest, (base58Encode bytes).toList = first :: rest ∧
      49 ≤ first.toNat ∧ first.toNat ≤ 122 := by
  cases htext : (base58Encode bytes).toList with
  | nil =>
    have hdecode := base58Decode_base58Encode bytes
    rw [base58Decode, htext] at hdecode
    exact absurd (Option.some.inj hdecode).symm hne
  | cons first rest =>
    have hmem : first ∈ (rebase 256 58 (bytes.map UInt8.toNat)).map base58Char := by
      rw [base58Encode, String.toList_ofList] at htext
      rw [htext]
      exact List.mem_cons_self
    obtain ⟨d, hd, rfl⟩ := List.mem_map.mp hmem
    exact ⟨_, rest, rfl, base58Char_toNat d (rebase_lt (by decide) d hd)⟩

/-- A byte string of `n` bytes has a Base58 text of at most `n + k` characters as
soon as `256 ^ n ≤ 58 ^ (n + k)`. -/
theorem length_base58Encode_le {n k : Nat} (hnk : 256 ^ n ≤ 58 ^ (n + k)) {bytes : List UInt8}
    (hlen : bytes.length = n) : (base58Encode bytes).length ≤ n + k := by
  let digits := bytes.map UInt8.toNat
  let rest := digits.dropWhile (· = 0)
  have hsplit : leadingZeros digits + rest.length = n := by
    have h := congrArg List.length (eq_replicate_append_dropWhile digits)
    simp only [List.length_append, List.length_replicate] at h
    have hdigits : digits.length = n := by simp [digits, hlen]
    exact h.symm.trans hdigits
  have hrest : ∀ d ∈ rest.reverse, d < 256 := by
    intro d hd
    have hmem := (List.dropWhile_sublist (l := digits) (· = 0)).subset (List.mem_reverse.mp hd)
    obtain ⟨byte, _, rfl⟩ := List.mem_map.mp hmem
    exact byte.toNat_lt
  have hvalue : Nat.ofDigits 256 digits.reverse = Nat.ofDigits 256 rest.reverse := by
    conv_lhs => rw [eq_replicate_append_dropWhile digits]
    simp [Nat.ofDigits_append_replicate_zero, rest]
  -- the digits after the leading zeros: 256 ^ m ≤ 58 ^ (m + k) for every m ≤ n
  have hpow : 256 ^ rest.length ≤ 58 ^ (rest.length + k) := by
    have h1 : 58 ^ leadingZeros digits * 256 ^ rest.length ≤ 256 ^ n := by
      rw [← hsplit, Nat.pow_add]
      exact Nat.mul_le_mul_right _ (Nat.pow_le_pow_left (by decide) _)
    have h2 : 58 ^ (n + k) = 58 ^ leadingZeros digits * 58 ^ (rest.length + k) := by
      rw [← Nat.pow_add]
      congr 1
      omega
    have h3 := (h1.trans hnk).trans_eq h2
    exact Nat.le_of_mul_le_mul_left h3 (Nat.pow_pos (by decide))
  have hdigits : (Nat.digits 58 (Nat.ofDigits 256 digits.reverse)).length ≤ rest.length + k := by
    rw [Nat.digits_length_le_iff (by decide), hvalue]
    have hlt := Nat.ofDigits_lt_base_pow_length (b := 256) (by decide) hrest
    rw [List.length_reverse] at hlt
    omega
  have hlength : (base58Encode bytes).length =
      leadingZeros digits + (Nat.digits 58 (Nat.ofDigits 256 digits.reverse)).length := by
    simp [base58Encode, rebase, digits]
  omega

end FlowraRelayer.Foundation
