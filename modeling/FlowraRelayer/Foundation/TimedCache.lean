/-
  Foundation/TimedCache.lean --- a cache whose entries expire.

  `TimedCache` is an interface: a cache with a lifespan in whole seconds whose
  reads may evict what has expired, together with what its documentation promises
  about each operation.  The promises are about one operation at a time and speak
  of the stamps the cache still holds.

  What a user wants to know is about histories: is a key found exactly if it was
  last set less than a lifespan ago?  `Tracks` is the invariant that connects the
  two.  Every operation keeps it, at any later time, and under it a read answers
  what the history says (`Tracks.cacheGet_eq_true_iff`).

  The module names nothing of the relayer.
-/
import FlowraRelayer.Foundation.Run
import Mathlib.Algebra.Group.Nat.Defs
import Mathlib.Logic.Function.Basic

set_option autoImplicit false

namespace FlowraRelayer.Foundation

/-- A stamp is fresh while its age in whole seconds is below the lifespan. -/
def Fresh (seconds : Nat) (now stamp : Time) : Prop := (now - stamp) / nanosPerSecond < seconds

instance (seconds : Nat) (now stamp : Time) : Decidable (Fresh seconds now stamp) :=
  inferInstanceAs (Decidable (_ < _))

theorem fresh_iff {seconds : Nat} {now stamp : Time} :
    Fresh seconds now stamp ↔ now - stamp < seconds * nanosPerSecond :=
  Nat.div_lt_iff_lt_mul (by decide)

theorem fresh_of_le {seconds : Nat} {now later stamp : Time} (hle : now ≤ later)
    (h : Fresh seconds later stamp) : Fresh seconds now stamp := by
  rw [fresh_iff] at h ⊢
  exact Nat.lt_of_le_of_lt (Nat.sub_le_sub_right hle stamp) h

/-- A cache with expiring entries, and what is promised of it.  `stamp` is the time
at which the entry a cache holds for a key was set. -/
structure TimedCache (K : Type) [DecidableEq K] where
  Cache : Type
  withLifespan : Nat → Cache
  cacheSet : Time → K → Cache → Cache
  /-- whether the key was found, and the cache after the read -/
  cacheGet : Time → K → Cache → Bool × Cache
  flush : Time → Cache → Cache
  seconds : Cache → Nat
  stamp : Cache → K → Option Time
  seconds_withLifespan : ∀ n, seconds (withLifespan n) = n
  stamp_withLifespan : ∀ n k, stamp (withLifespan n) k = none
  seconds_cacheSet : ∀ now k c, seconds (cacheSet now k c) = seconds c
  stamp_cacheSet : ∀ now k c, stamp (cacheSet now k c) = Function.update (stamp c) k (some now)
  cacheGet_eq_true_iff : ∀ now k c,
    (cacheGet now k c).1 = true ↔ ∃ s, stamp c k = some s ∧ Fresh (seconds c) now s
  seconds_cacheGet : ∀ now k c, seconds (cacheGet now k c).2 = seconds c
  /-- a read drops nothing that is still fresh -/
  stamp_cacheGet : ∀ now k c k', stamp (cacheGet now k c).2 k' = stamp c k' ∨
    (stamp (cacheGet now k c).2 k' = none ∧ ∀ s, stamp c k' = some s → ¬ Fresh (seconds c) now s)
  seconds_flush : ∀ now c, seconds (flush now c) = seconds c
  /-- a flush drops nothing that is still fresh -/
  stamp_flush : ∀ now c k', stamp (flush now c) k' = stamp c k' ∨
    (stamp (flush now c) k' = none ∧ ∀ s, stamp c k' = some s → ¬ Fresh (seconds c) now s)

variable {K : Type} [DecidableEq K] {timed : TimedCache K}

/-! ## Histories -/

/-- The cache holds what the history says, except for what has expired by `now`. -/
structure Tracks (timed : TimedCache K) (seconds : Nat) (now : Time) (lastSet : K → Option Time)
    (c : timed.Cache) : Prop where
  seconds_eq : timed.seconds c = seconds
  stamp_eq : ∀ k, timed.stamp c k = lastSet k ∨
    (timed.stamp c k = none ∧ ∀ s, lastSet k = some s → ¬ Fresh seconds now s)

theorem tracks_withLifespan (timed : TimedCache K) (seconds : Nat) (now : Time) :
    Tracks timed seconds now (fun _ => none) (timed.withLifespan seconds) where
  seconds_eq := timed.seconds_withLifespan seconds
  stamp_eq := fun k => .inl (timed.stamp_withLifespan seconds k)

theorem Tracks.later {seconds : Nat} {now later : Time} {lastSet : K → Option Time}
    {c : timed.Cache} (h : Tracks timed seconds now lastSet c) (hle : now ≤ later) :
    Tracks timed seconds later lastSet c where
  seconds_eq := h.seconds_eq
  stamp_eq := by
    intro k
    rcases h.stamp_eq k with hsame | ⟨hnone, hexpired⟩
    · exact .inl hsame
    · exact .inr ⟨hnone, fun s hs hfresh => hexpired s hs (fresh_of_le hle hfresh)⟩

/-- An operation that keeps the lifespan and drops only what has expired. -/
theorem Tracks.of_evicts {seconds : Nat} {now : Time} {lastSet : K → Option Time}
    {c c' : timed.Cache} (h : Tracks timed seconds now lastSet c)
    (hseconds : timed.seconds c' = timed.seconds c)
    (hstamp : ∀ k, timed.stamp c' k = timed.stamp c k ∨
      (timed.stamp c' k = none ∧ ∀ s, timed.stamp c k = some s → ¬ Fresh (timed.seconds c) now s)) :
    Tracks timed seconds now lastSet c' where
  seconds_eq := hseconds.trans h.seconds_eq
  stamp_eq := by
    intro k
    rcases hstamp k with hkept | ⟨hgone, hstale⟩
    · rw [hkept]
      exact h.stamp_eq k
    · refine .inr ⟨hgone, fun s hs => ?_⟩
      rcases h.stamp_eq k with hsame | ⟨_, hexpired⟩
      · rw [← h.seconds_eq]
        exact hstale s (hsame.trans hs)
      · exact hexpired s hs

theorem Tracks.cacheGet {seconds : Nat} {now : Time} {lastSet : K → Option Time} {c : timed.Cache}
    (h : Tracks timed seconds now lastSet c) (k : K) :
    Tracks timed seconds now lastSet (timed.cacheGet now k c).2 :=
  h.of_evicts (timed.seconds_cacheGet now k c) (timed.stamp_cacheGet now k c)

theorem Tracks.flush {seconds : Nat} {now : Time} {lastSet : K → Option Time} {c : timed.Cache}
    (h : Tracks timed seconds now lastSet c) : Tracks timed seconds now lastSet (timed.flush now c) :=
  h.of_evicts (timed.seconds_flush now c) (timed.stamp_flush now c)

theorem Tracks.cacheSet {seconds : Nat} {now : Time} {lastSet : K → Option Time} {c : timed.Cache}
    (h : Tracks timed seconds now lastSet c) (k : K) :
    Tracks timed seconds now (Function.update lastSet k (some now)) (timed.cacheSet now k c) where
  seconds_eq := (timed.seconds_cacheSet now k c).trans h.seconds_eq
  stamp_eq := by
    intro k'
    rw [timed.stamp_cacheSet]
    by_cases hk : k' = k
    · subst hk
      simp
    · simp only [Function.update_of_ne hk]
      exact h.stamp_eq k'

/-- A read finds a key exactly if the history set it less than a lifespan ago. -/
theorem Tracks.cacheGet_eq_true_iff {seconds : Nat} {now : Time} {lastSet : K → Option Time}
    {c : timed.Cache} (h : Tracks timed seconds now lastSet c) (k : K) :
    (timed.cacheGet now k c).1 = true ↔ ∃ s, lastSet k = some s ∧ Fresh seconds now s := by
  rw [timed.cacheGet_eq_true_iff, h.seconds_eq]
  rcases h.stamp_eq k with hsame | ⟨hnone, hexpired⟩
  · rw [hsame]
  · constructor
    · intro ⟨s, hs, _⟩
      rw [hnone] at hs
      cases hs
    · intro ⟨s, hs, hfresh⟩
      exact absurd hfresh (hexpired s hs)

/-! ## An implementation -/

/-- A cache as a lifespan and a map of stamps, whose reads evict the expired entry
they meet. -/
def mapCache (K : Type) [DecidableEq K] : TimedCache K where
  Cache := Nat × (K → Option Time)
  withLifespan := fun n => (n, fun _ => none)
  cacheSet := fun now k c => (c.1, Function.update c.2 k (some now))
  cacheGet := fun now k c =>
    match c.2 k with
    | none => (false, c)
    | some s =>
        if Fresh c.1 now s then (true, c) else (false, (c.1, Function.update c.2 k none))
  flush := fun now c => (c.1, fun k => (c.2 k).filter fun s => Fresh c.1 now s)
  seconds := Prod.fst
  stamp := Prod.snd
  seconds_withLifespan := fun _ => rfl
  stamp_withLifespan := fun _ _ => rfl
  seconds_cacheSet := fun _ _ _ => rfl
  stamp_cacheSet := fun _ _ _ => rfl
  cacheGet_eq_true_iff := by
    intro now k c
    cases hstamp : c.2 k with
    | none => simp
    | some s => by_cases hfresh : Fresh c.1 now s <;> simp [hfresh]
  seconds_cacheGet := by
    intro now k c
    split
    · rfl
    · split <;> rfl
  stamp_cacheGet := by
    intro now k c k'
    split
    · exact .inl rfl
    · rename_i s hs
      split
      · exact .inl rfl
      · rename_i hstale
        by_cases hk : k' = k
        · subst hk
          refine .inr ⟨by simp, fun s' hs' => ?_⟩
          rw [hs] at hs'
          cases hs'
          exact hstale
        · exact .inl (Function.update_of_ne hk _ _)
  seconds_flush := fun _ _ => rfl
  stamp_flush := by
    intro now c k'
    cases hstamp : c.2 k' with
    | none => simp [hstamp]
    | some s => by_cases hfresh : Fresh c.1 now s <;> simp [hstamp, Option.filter, hfresh]

end FlowraRelayer.Foundation
