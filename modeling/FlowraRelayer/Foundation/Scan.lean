/-
  Foundation/Scan.lean --- the largest entry of a map that is written meanwhile.

  A scan reads the keys of a map one after the other, in any order, and keeps the largest
  entry it has read.  Anything may be written between two reads.  Locks are not part of the
  module: a map that has some lets fewer writes through, so what holds of every scan here
  holds of its scans as well.

  The map a scan describes need not have existed at any one time.  What a scan does give is
  `Scan.Chosen`: its entry was in the map at some time during the scan, and every key had,
  at some time during the scan, no larger value.

  The keys of the map stay the same.  The module names nothing of the relayer.
-/
import Mathlib.Data.List.Basic
import Mathlib.Order.Lattice

set_option autoImplicit false

namespace FlowraRelayer.Foundation

variable {K V : Type}

/-- A scan in progress. -/
structure Scan (K V : Type) where
  unread : List K
  best : Option (K × V)

namespace Scan

def start (keys : List K) : Scan K V := ⟨keys, none⟩

variable [LinearOrder V]

/-- Of two entries with the same value the later one is kept. -/
def better (best : Option (K × V)) (entry : K × V) : K × V :=
  match best with
  | none => entry
  | some best => if entry.2 < best.2 then best else entry

/-- One of the keys is read; the scan passes over a key that is not in the map. -/
def read [DecidableEq K] (map : K → Option V) (key : K) (scan : Scan K V) : Option (Scan K V) :=
  if key ∈ scan.unread then
    some
      { unread := scan.unread.erase key
        best :=
          match map key with
          | none => scan.best
          | some value => some (better scan.best (key, value)) }
  else none

theorem le_better_left {best : Option (K × V)} {entry old : K × V} (hold : old ∈ best) :
    old.2 ≤ (better best entry).2 := by
  obtain rfl : best = some old := hold
  simp only [better]
  split
  · exact le_rfl
  · next hlt => exact not_lt.mp hlt

theorem le_better_right (best : Option (K × V)) (entry : K × V) :
    entry.2 ≤ (better best entry).2 := by
  cases best with
  | none => exact le_rfl
  | some old =>
    simp only [better]
    split
    · next hlt => exact hlt.le
    · exact le_rfl

theorem better_cases (best : Option (K × V)) (entry : K × V) :
    better best entry = entry ∨ better best entry ∈ best := by
  cases best with
  | none => exact .inl rfl
  | some old =>
    simp only [better]
    split
    · exact .inr rfl
    · exact .inl rfl

/-! ## What a scan knows -/

/-- The key had the value at one of the given times. -/
def Seen (past : List (K → Option V)) (key : K) (value : V) : Prop :=
  ∃ map ∈ past, map key = some value

/-- No value of the key was above the bound, at one of the given times. -/
def NotAbove (past : List (K → Option V)) (key : K) (best : Option (K × V)) : Prop :=
  ∃ map ∈ past, ∀ value, map key = some value → ∃ entry ∈ best, value ≤ entry.2

/-- What a scan knows of the map as it has been since the scan began. -/
structure Knows (keys : List K) (past : List (K → Option V)) (scan : Scan K V) : Prop where
  unread : scan.unread ⊆ keys
  best : ∀ entry ∈ scan.best, entry.1 ∈ keys ∧ Seen past entry.1 entry.2
  covered : ∀ key ∈ keys, key ∈ scan.unread ∨ NotAbove past key scan.best

/-- What a finished scan has found. -/
structure Chosen (keys : List K) (past : List (K → Option V)) (entry : K × V) : Prop where
  key : entry.1 ∈ keys
  had : Seen past entry.1 entry.2
  topmost : ∀ key ∈ keys, NotAbove past key (some entry)

section Steps

variable {keys : List K} {past past' : List (K → Option V)} {scan scan' : Scan K V}

theorem knows_start (keys : List K) (past : List (K → Option V)) :
    Knows keys past (start keys) where
  unread := List.Subset.refl keys
  best := by
    intro entry hentry
    cases hentry
  covered := fun key hkey => .inl hkey

omit [LinearOrder V] in
theorem Seen.mono (hpast : past ⊆ past') {key : K} {value : V} (h : Seen past key value) :
    Seen past' key value := by
  obtain ⟨map, hmap, hvalue⟩ := h
  exact ⟨map, hpast hmap, hvalue⟩

/-- A bound stays one when time goes on and the best entry grows. -/
theorem NotAbove.mono (hpast : past ⊆ past') {best best' : Option (K × V)}
    (hbest : ∀ entry ∈ best, ∃ entry' ∈ best', entry.2 ≤ entry'.2) {key : K}
    (h : NotAbove past key best) : NotAbove past' key best' := by
  obtain ⟨map, hmap, hvalues⟩ := h
  refine ⟨map, hpast hmap, ?_⟩
  intro value hvalue
  obtain ⟨entry, hentry, hle⟩ := hvalues value hvalue
  obtain ⟨entry', hentry', hle'⟩ := hbest entry hentry
  exact ⟨entry', hentry', hle.trans hle'⟩

/-- Whatever is written, a scan knows what it knew. -/
theorem Knows.mono (hpast : past ⊆ past') (h : Knows keys past scan) : Knows keys past' scan where
  unread := h.unread
  best := fun entry hentry => (h.best entry hentry).imp_right (Seen.mono hpast)
  covered := fun key hkey =>
    (h.covered key hkey).imp_right (NotAbove.mono hpast fun entry hentry => ⟨entry, hentry, le_rfl⟩)

theorem Knows.read [DecidableEq K] {map : K → Option V} {key : K} (hmap : map ∈ past)
    (h : Knows keys past scan) (hread : scan.read map key = some scan') :
    Knows keys past scan' := by
  simp only [Scan.read, Option.ite_none_right_eq_some, Option.some.injEq] at hread
  obtain ⟨hkey, rfl⟩ := hread
  have hunread : scan.unread.erase key ⊆ keys :=
    List.Subset.trans List.erase_subset h.unread
  have hother : ∀ other, other ≠ key → other ∈ scan.unread → other ∈ scan.unread.erase key :=
    fun other hne hmem => (List.mem_erase_of_ne hne).mpr hmem
  cases hvalue : map key with
  | none =>
    refine ⟨hunread, h.best, ?_⟩
    intro other hmem
    by_cases heq : other = key
    · subst heq
      refine .inr ⟨map, hmap, ?_⟩
      intro value hsome
      rw [hvalue] at hsome
      cases hsome
    · exact (h.covered other hmem).imp_left (hother other heq)
  | some value =>
    have hkept : ∀ entry ∈ scan.best, ∃ entry' ∈ some (better scan.best (key, value)),
        entry.2 ≤ entry'.2 := fun entry hentry => ⟨_, rfl, le_better_left hentry⟩
    refine ⟨hunread, ?_, ?_⟩
    · rintro entry hentry
      obtain rfl := Option.some.inj hentry
      rcases better_cases scan.best (key, value) with heq | hold
      · rw [heq]
        exact ⟨h.unread hkey, map, hmap, hvalue⟩
      · exact h.best _ hold
    · intro other hmem
      by_cases heq : other = key
      · -- the key just read
        subst heq
        refine .inr ⟨map, hmap, ?_⟩
        intro found hfound
        obtain rfl := Option.some.inj (hvalue.symm.trans hfound)
        exact ⟨_, rfl, le_better_right scan.best (other, value)⟩
      · exact (h.covered other hmem).imp (hother other heq)
          (NotAbove.mono (List.Subset.refl past) hkept)

/-- A scan that has read every key has chosen. -/
theorem Knows.chosen (h : Knows keys past scan) (hdone : scan.unread = []) {entry : K × V}
    (hbest : scan.best = some entry) : Chosen keys past entry := by
  obtain ⟨hkey, hhad⟩ := h.best entry hbest
  refine ⟨hkey, hhad, ?_⟩
  intro key hmem
  rcases h.covered key hmem with htodo | hread
  · rw [hdone] at htodo
    cases htodo
  · rwa [hbest] at hread

/-- A scan of a map in which a key always has a value finds something. -/
theorem Knows.isSome_best (h : Knows keys past scan) (hdone : scan.unread = []) {key : K}
    (hkey : key ∈ keys) (hpresent : ∀ map ∈ past, (map key).isSome = true) :
    scan.best.isSome = true := by
  rcases h.covered key hkey with htodo | ⟨map, hmap, hvalues⟩
  · rw [hdone] at htodo
    cases htodo
  · obtain ⟨value, hvalue⟩ := Option.isSome_iff_exists.mp (hpresent map hmap)
    obtain ⟨entry, hentry, -⟩ := hvalues value hvalue
    exact Option.isSome_iff_exists.mpr ⟨entry, hentry⟩

theorem Chosen.mono (hpast : past ⊆ past') {entry : K × V} (h : Chosen keys past entry) :
    Chosen keys past' entry where
  key := h.key
  had := h.had.mono hpast
  topmost := fun key hkey =>
    (h.topmost key hkey).mono hpast fun entry hentry => ⟨entry, hentry, le_rfl⟩

end Steps

/-! ## Values that do not fall -/

section Rising

variable {keys : List K} {past : List (K → Option V)} {map : K → Option V} {key : K} {value : V}

/-- No value falls from one time to a later one. -/
def Rising (past : List (K → Option V)) : Prop :=
  past.Pairwise fun before after => ∀ key value value', before key = some value →
    after key = some value' → value ≤ value'

theorem Rising.le_of_head? (h : Rising past) {first : K → Option V}
    (hfirst : past.head? = some first) (hmap : map ∈ past) {value' : V}
    (hvalue : first key = some value) (hvalue' : map key = some value') : value ≤ value' := by
  obtain ⟨rest, rfl⟩ := List.head?_eq_some_iff.mp hfirst
  rcases List.mem_cons.mp hmap with rfl | hlater
  · exact (Option.some.inj (hvalue.symm.trans hvalue')).le
  · exact (List.pairwise_cons.mp h).1 map hlater key value value' hvalue hvalue'

theorem Rising.le_of_getLast? (h : Rising past) {last : K → Option V}
    (hlast : past.getLast? = some last) (hmap : map ∈ past) {value' : V}
    (hvalue : map key = some value) (hvalue' : last key = some value') : value ≤ value' := by
  obtain ⟨before, rfl⟩ := List.getLast?_eq_some_iff.mp hlast
  rcases List.mem_append.mp hmap with hearlier | heq
  · exact (List.pairwise_append.mp h).2.2 map hearlier last List.mem_cons_self key value value'
      hvalue hvalue'
  · obtain rfl := List.mem_singleton.mp heq
    exact (Option.some.inj (hvalue.symm.trans hvalue')).le

/-- The choice is at least as large as every value was when the scan began. -/
theorem Chosen.le_of_rising {entry : K × V} (h : Chosen keys past entry) (hrising : Rising past)
    {first : K → Option V} (hfirst : past.head? = some first) (hkey : key ∈ keys)
    (hpresent : ∀ map ∈ past, (map key).isSome = true) (hvalue : first key = some value) :
    value ≤ entry.2 := by
  obtain ⟨map, hmap, hvalues⟩ := h.topmost key hkey
  obtain ⟨read, hread⟩ := Option.isSome_iff_exists.mp (hpresent map hmap)
  obtain ⟨_, ⟨⟩, hle⟩ := hvalues read hread
  exact (hrising.le_of_head? hfirst hmap hvalue hread).trans hle

/-- The key chosen still has that value in the end, or a larger one. -/
theorem Chosen.le_last_of_rising {entry : K × V} (h : Chosen keys past entry)
    (hrising : Rising past) {last : K → Option V} (hlast : past.getLast? = some last)
    (hvalue : last entry.1 = some value) : entry.2 ≤ value := by
  obtain ⟨map, hmap, hread⟩ := h.had
  exact hrising.le_of_getLast? hlast hmap hread hvalue

end Rising

end Scan

end FlowraRelayer.Foundation
