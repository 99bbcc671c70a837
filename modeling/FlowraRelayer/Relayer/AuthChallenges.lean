/-
  Relayer/AuthChallenges.lean --- `relayer/src/auth_challenges.rs`.

  The challenge store is one mutex around a keyed priority queue from IP address to
  challenge.  Each method takes the lock once, so each is one atomic function on the
  queue here.  The queue orders by expiry alone, reversed, so that `peek` and `pop`
  return an entry that expires first; between entries with the same expiry the queue
  is free to choose.

  Every stored challenge carries the number of the push that stored it.  The code has
  no such number; it is there to tell two pushes apart.
-/
import FlowraRelayer.Relayer.AuthInterceptor
import Mathlib.Data.List.AList

set_option autoImplicit false

namespace FlowraRelayer.Relayer

open FlowraRelayer.Foundation
open FlowraRelayer.Solana

/-! ## Tables -/

section Tables

variable {K V : Type} [DecidableEq K] {table : AList fun _ : K => V} {key key' : K} {value value' : V}

/-- An entry of a table in which one key was set is the new entry or an old one. -/
theorem lookup_insert_cases (h : (table.insert key value).lookup key' = some value') :
    key' = key ∧ value' = value ∨ table.lookup key' = some value' := by
  by_cases heq : key' = key
  · subst heq
    rw [AList.lookup_insert, Option.some.injEq] at h
    exact .inl ⟨rfl, h.symm⟩
  · rw [AList.lookup_insert_ne heq] at h
    exact .inr h

/-- An entry of a table from which one key was erased is an old entry under another
key. -/
theorem lookup_erase_cases (h : (table.erase key).lookup key' = some value) :
    key' ≠ key ∧ table.lookup key' = some value := by
  by_cases heq : key' = key
  · subst heq
    rw [AList.lookup_erase] at h
    exact absurd h (by simp)
  · rw [AList.lookup_erase_ne heq] at h
    exact ⟨heq, h⟩

end Tables

/-! ## The store -/

variable {Ip : Type} [DecidableEq Ip]

/-- `AuthChallenge`. -/
structure AuthChallenge (Ip : Type) where
  challenge : String
  accessClaims : Claims Ip
  refreshClaims : Claims Ip
  expiresAtUtc : Int
  deriving DecidableEq

/-- `AuthChallenge::is_expired`. -/
def AuthChallenge.isExpired (challenge : AuthChallenge Ip) (now : Int) : Bool :=
  decide (challenge.expiresAtUtc ≤ now)

/-- A challenge in the store, with the number of its push. -/
structure StoredChallenge (Ip : Type) where
  push : Nat
  challenge : AuthChallenge Ip
  deriving DecidableEq

/-- `KeyedPriorityQueue<IpAddr, Reverse<AuthChallenge>>`. -/
abbrev AuthChallenges (Ip : Type) : Type := AList fun _ : Ip => StoredChallenge Ip

namespace AuthChallenges

/-- `push`: a new entry, or a new priority for a known key. -/
def push (queue : AuthChallenges Ip) (ip : Ip) (challenge : StoredChallenge Ip) :
    AuthChallenges Ip :=
  queue.insert ip challenge

/-- `len`. -/
def len (queue : AuthChallenges Ip) : Nat := queue.entries.length

/-- `get_priority`. -/
def getPriority (queue : AuthChallenges Ip) (ip : Ip) : Option (StoredChallenge Ip) :=
  queue.lookup ip

/-- `remove`. -/
def remove (queue : AuthChallenges Ip) (ip : Ip) : AuthChallenges Ip := queue.erase ip

/-- `stored` is an entry `peek` may return: none of the queue expires before it. -/
def IsHead (queue : AuthChallenges Ip) (stored : StoredChallenge Ip) : Prop :=
  ∀ entry ∈ queue.entries, stored.challenge.expiresAtUtc ≤ entry.2.challenge.expiresAtUtc

instance (queue : AuthChallenges Ip) (stored : StoredChallenge Ip) :
    Decidable (queue.IsHead stored) :=
  inferInstanceAs (Decidable (∀ entry ∈ queue.entries, _))

/-- `remove_all_expired`.  One element of `readings` is one pass of the loop: the key
`peek` returned and the clock reading `is_expired` took.  `none` when the queue cannot
have answered so. -/
def removeAllExpired : AuthChallenges Ip → List (Ip × Int) → Option (AuthChallenges Ip)
  | queue, [] => if queue.entries = [] then some queue else none
  | queue, (ip, now) :: rest =>
      match queue.lookup ip with
      | none => none
      | some stored =>
          if queue.IsHead stored then
            if stored.challenge.isExpired now then removeAllExpired (queue.erase ip) rest
            else if rest = [] then some queue else none
          else none

/-- The sweep only takes entries away. -/
theorem lookup_of_removeAllExpired :
    ∀ (readings : List (Ip × Int)) {queue swept : AuthChallenges Ip},
      queue.removeAllExpired readings = some swept →
      ∀ {ip : Ip} {stored : StoredChallenge Ip},
        swept.lookup ip = some stored → queue.lookup ip = some stored := by
  intro readings
  induction readings with
  | nil =>
    intro queue swept h ip stored hlookup
    simp only [removeAllExpired, Option.ite_none_right_eq_some, Option.some.injEq] at h
    rw [h.2]
    exact hlookup
  | cons reading rest ih =>
    intro queue swept h ip stored hlookup
    obtain ⟨head, now⟩ := reading
    simp only [removeAllExpired] at h
    split at h
    · exact absurd h (by simp)
    · simp only [Option.ite_none_right_eq_some] at h
      obtain ⟨-, h⟩ := h
      split at h
      · exact (lookup_erase_cases (ih h hlookup)).2
      · simp only [Option.ite_none_right_eq_some, Option.some.injEq] at h
        rw [h.2]
        exact hlookup

/-- The sweep takes only entries away that it finds expired. -/
theorem lookup_removeAllExpired :
    ∀ (readings : List (Ip × Int)) {queue swept : AuthChallenges Ip},
      queue.removeAllExpired readings = some swept →
      ∀ {ip : Ip} {stored : StoredChallenge Ip}, queue.lookup ip = some stored →
        swept.lookup ip = some stored ∨
          ∃ now, (ip, now) ∈ readings ∧ stored.challenge.isExpired now = true := by
  intro readings
  induction readings with
  | nil =>
    intro queue swept h ip stored hlookup
    simp only [removeAllExpired, Option.ite_none_right_eq_some, Option.some.injEq] at h
    rw [← h.2]
    exact .inl hlookup
  | cons reading rest ih =>
    intro queue swept h ip stored hlookup
    obtain ⟨head, now⟩ := reading
    simp only [removeAllExpired] at h
    split at h
    · exact absurd h (by simp)
    · rename_i first hfirst
      simp only [Option.ite_none_right_eq_some] at h
      obtain ⟨-, h⟩ := h
      split at h
      · rename_i hexpired
        by_cases heq : ip = head
        · subst heq
          rw [hlookup, Option.some.injEq] at hfirst
          subst hfirst
          exact .inr ⟨now, List.mem_cons_self, hexpired⟩
        · rcases ih h ((AList.lookup_erase_ne heq).trans hlookup) with hkept | ⟨later, hmem, hlater⟩
          · exact .inl hkept
          · exact .inr ⟨later, List.mem_cons_of_mem _ hmem, hlater⟩
      · simp only [Option.ite_none_right_eq_some, Option.some.injEq] at h
        rw [← h.2]
        exact .inl hlookup

/-- What the sweep leaves is not expired at one of its readings: it stops at the head, and
nothing expires before the head. -/
theorem unexpired_of_removeAllExpired :
    ∀ (readings : List (Ip × Int)) {queue swept : AuthChallenges Ip},
      queue.removeAllExpired readings = some swept →
      ∀ {ip : Ip} {stored : StoredChallenge Ip}, swept.lookup ip = some stored →
        ∃ reading ∈ readings, stored.challenge.isExpired reading.2 = false := by
  intro readings
  induction readings with
  | nil =>
    intro queue swept h ip stored hlookup
    simp only [removeAllExpired, Option.ite_none_right_eq_some, Option.some.injEq] at h
    obtain ⟨hempty, rfl⟩ := h
    have hmem := AList.mem_lookup_iff.mp hlookup
    rw [hempty] at hmem
    cases hmem
  | cons reading rest ih =>
    intro queue swept h ip stored hlookup
    obtain ⟨head, now⟩ := reading
    simp only [removeAllExpired] at h
    split at h
    · exact absurd h (by simp)
    · rename_i first hfirst
      simp only [Option.ite_none_right_eq_some] at h
      obtain ⟨hhead, h⟩ := h
      split at h
      · obtain ⟨later, hmem, hlater⟩ := ih h hlookup
        exact ⟨later, List.mem_cons_of_mem _ hmem, hlater⟩
      · rename_i hunexpired
        simp only [Option.ite_none_right_eq_some, Option.some.injEq] at h
        obtain ⟨-, rfl⟩ := h
        refine ⟨(head, now), List.mem_cons_self, ?_⟩
        have hle := hhead _ (AList.mem_lookup_iff.mp hlookup)
        simp only [AuthChallenge.isExpired, decide_eq_true_eq, decide_eq_false_iff_not, not_le]
          at hunexpired ⊢
        exact lt_of_lt_of_le hunexpired hle

/-! ## The loop -/

/-- What `peek` and `pop` may return: nothing of an empty queue, and a key of one of the
entries that expire first otherwise. -/
def Returns (queue : AuthChallenges Ip) : Option Ip → Prop
  | none => queue.entries = []
  | some ip => ∃ stored, queue.lookup ip = some stored ∧ queue.IsHead stored

end AuthChallenges

/-- The keyed priority queue's choice among entries that expire first, which may differ
from pass to pass and between `peek` and `pop`. -/
structure QueueHeads (Ip : Type) [DecidableEq Ip] where
  peek : Nat → AuthChallenges Ip → Option Ip
  pop : Nat → AuthChallenges Ip → Option Ip
  peek_returns : ∀ pass (queue : AuthChallenges Ip), queue.Returns (peek pass queue)
  pop_returns : ∀ pass (queue : AuthChallenges Ip), queue.Returns (pop pass queue)

namespace AuthChallenges

/-- The loop of `remove_all_expired` from pass number `pass` on, with `clock` the readings
of its passes: the passes it makes, each with the key it removes or, in the last, the key
it stops at, and the queue it leaves.  `none` if it needs more than `fuel` passes. -/
def sweepLoop (heads : QueueHeads Ip) (clock : Nat → Int) :
    Nat → Nat → AuthChallenges Ip → Option (List (Ip × Int) × AuthChallenges Ip)
  | 0, _, _ => none
  | fuel + 1, pass, queue =>
      match heads.peek pass queue with
      | none => some ([], queue)
      | some ip =>
          match queue.lookup ip with
          | none => none
          | some stored =>
              if stored.challenge.isExpired (clock pass) then
                match heads.pop pass queue with
                | none => none
                | some popped =>
                    (sweepLoop heads clock fuel (pass + 1) (queue.erase popped)).map
                      fun (passes, swept) => ((popped, clock pass) :: passes, swept)
              else some ([(ip, clock pass)], queue)

theorem len_erase_lt {queue : AuthChallenges Ip} {ip : Ip} {stored : StoredChallenge Ip}
    (h : queue.lookup ip = some stored) : len (queue.erase ip) < len queue := by
  have hmem : ip ∈ queue.keys := List.mem_map_of_mem (AList.mem_lookup_iff.mp h)
  have hlen : ∀ q : AuthChallenges Ip, len q = q.keys.length := fun q => List.length_map _ |>.symm
  rw [hlen, hlen, AList.keys_erase, List.length_erase_of_mem hmem]
  exact Nat.sub_one_lt_of_lt (List.length_pos_of_mem hmem)

/-- The entries that expire first expire together. -/
theorem isExpired_of_isHead {queue : AuthChallenges Ip} {ip : Ip}
    {stored popped : StoredChallenge Ip} {now : Int} (hpopped : queue.IsHead popped)
    (hstored : queue.lookup ip = some stored) (hexpired : stored.challenge.isExpired now = true) :
    popped.challenge.isExpired now = true := by
  have hle := hpopped _ (AList.mem_lookup_iff.mp hstored)
  simp only [AuthChallenge.isExpired, decide_eq_true_eq] at hexpired ⊢
  exact le_trans hle hexpired

/-- The loop ends, after one pass for each entry and one more at most, and it is a sweep
as `removeAllExpired` has it, with one clock reading for each pass. -/
theorem exists_sweepLoop (heads : QueueHeads Ip) (clock : Nat → Int) :
    ∀ (fuel pass : Nat) (queue : AuthChallenges Ip), len queue < fuel →
      ∃ passes swept, sweepLoop heads clock fuel pass queue = some (passes, swept) ∧
        queue.removeAllExpired passes = some swept ∧
        passes.map Prod.snd = (List.range' pass passes.length).map clock := by
  intro fuel
  induction fuel with
  | zero =>
    intro pass queue hfuel
    exact absurd hfuel (Nat.not_lt_zero _)
  | succ fuel ih =>
    intro pass queue hfuel
    have hpeek := heads.peek_returns pass queue
    unfold sweepLoop
    cases hhead : heads.peek pass queue with
    | none =>
      rw [hhead] at hpeek
      exact ⟨[], queue, rfl, if_pos hpeek, rfl⟩
    | some ip =>
      rw [hhead] at hpeek
      obtain ⟨stored, hstored, hfirst⟩ := hpeek
      simp only [hstored]
      by_cases hexpired : stored.challenge.isExpired (clock pass) = true
      · have hpop := heads.pop_returns pass queue
        cases hpopped : heads.pop pass queue with
        | none =>
          -- the queue is not empty: `peek` has just returned an entry
          rw [hpopped] at hpop
          have hmem := AList.mem_lookup_iff.mp hstored
          rw [show queue.entries = [] from hpop] at hmem
          cases hmem
        | some popped =>
          rw [hpopped] at hpop
          obtain ⟨other, hother, hotherFirst⟩ := hpop
          obtain ⟨passes, swept, hloop, hsweep, hclock⟩ := ih (pass + 1) (queue.erase popped)
            (Nat.lt_of_lt_of_le (len_erase_lt hother) (Nat.le_of_lt_succ hfuel))
          refine ⟨(popped, clock pass) :: passes, swept, ?_, ?_, ?_⟩
          · simp only [if_pos hexpired, hloop, Option.map_some]
          · simp only [removeAllExpired, hother, if_pos hotherFirst,
              if_pos (isExpired_of_isHead hotherFirst hstored hexpired), hsweep]
          · rw [List.map_cons, List.length_cons, List.range'_succ, List.map_cons, hclock]
      · refine ⟨[(ip, clock pass)], queue, if_neg hexpired, ?_, rfl⟩
        simp only [removeAllExpired, hstored, if_pos hfirst, if_neg hexpired, if_true]

omit [DecidableEq Ip] in
/-- The readings of a sweep that starts with pass 0 are those of its passes. -/
theorem exists_pass_of_mem {clock : Nat → Int} {passes : List (Ip × Int)} {ip : Ip} {now : Int}
    (hclock : passes.map Prod.snd = (List.range' 0 passes.length).map clock)
    (hmem : (ip, now) ∈ passes) : ∃ pass < passes.length, now = clock pass := by
  have hnow : now ∈ passes.map Prod.snd := List.mem_map_of_mem hmem
  rw [hclock] at hnow
  obtain ⟨pass, hpass, rfl⟩ := List.mem_map.mp hnow
  rw [List.mem_range'_1] at hpass
  exact ⟨pass, by simpa using hpass.2, rfl⟩

omit [DecidableEq Ip] in
theorem isExpired_mono {challenge : AuthChallenge Ip} {earlier later : Int} (hle : earlier ≤ later)
    (h : challenge.isExpired earlier = true) : challenge.isExpired later = true := by
  simp only [AuthChallenge.isExpired, decide_eq_true_eq] at h ⊢
  exact le_trans h hle

end AuthChallenges

/-- For every content of the store, every choice of the queue among entries that expire
first and every clock that does not go back: `remove_all_expired` ends, what it removes was
expired when it was checked, what was expired at the first reading is removed, and what is
not expired at the last reading is kept as it was. -/
theorem sweep_removes_exactly_expired (heads : QueueHeads Ip) (clock : Nat → Int)
    (hclock : ∀ {pass later}, pass ≤ later → clock pass ≤ clock later) (queue : AuthChallenges Ip) :
    ∃ passes swept,
      AuthChallenges.sweepLoop heads clock (queue.len + 1) 0 queue = some (passes, swept) ∧
      (∀ ip stored, swept.lookup ip = some stored → queue.lookup ip = some stored) ∧
      (∀ ip stored, queue.lookup ip = some stored → swept.lookup ip = none →
        ∃ pass < passes.length, (ip, clock pass) ∈ passes ∧
          stored.challenge.isExpired (clock pass) = true) ∧
      (∀ ip stored, queue.lookup ip = some stored →
        stored.challenge.isExpired (clock 0) = true → swept.lookup ip = none) ∧
      ∀ ip stored, queue.lookup ip = some stored →
        stored.challenge.isExpired (clock (passes.length - 1)) = false →
        swept.lookup ip = some stored := by
  obtain ⟨passes, swept, hloop, hsweep, hreadings⟩ :=
    AuthChallenges.exists_sweepLoop heads clock (queue.len + 1) 0 queue (Nat.lt_succ_self _)
  refine ⟨passes, swept, hloop, ?_, ?_, ?_, ?_⟩
  · intro ip stored
    exact AuthChallenges.lookup_of_removeAllExpired passes hsweep
  · intro ip stored hstored hgone
    rcases AuthChallenges.lookup_removeAllExpired passes hsweep hstored with
      hkept | ⟨now, hmem, hexpired⟩
    · rw [hgone] at hkept
      cases hkept
    · obtain ⟨pass, hpass, rfl⟩ := AuthChallenges.exists_pass_of_mem hreadings hmem
      exact ⟨pass, hpass, hmem, hexpired⟩
  · intro ip stored hstored hexpired
    by_contra hkept
    obtain ⟨left, hleft⟩ := Option.ne_none_iff_exists'.mp hkept
    have hsame := AuthChallenges.lookup_of_removeAllExpired passes hsweep hleft
    rw [hstored, Option.some.injEq] at hsame
    subst hsame
    -- an entry that is left was not expired at some reading, so not at the first either
    obtain ⟨⟨key, now⟩, hmem, hunexpired⟩ :=
      AuthChallenges.unexpired_of_removeAllExpired passes hsweep hleft
    obtain ⟨pass, -, rfl⟩ := AuthChallenges.exists_pass_of_mem hreadings hmem
    rw [AuthChallenges.isExpired_mono (hclock (Nat.zero_le pass)) hexpired] at hunexpired
    cases hunexpired
  · intro ip stored hstored hunexpired
    rcases AuthChallenges.lookup_removeAllExpired passes hsweep hstored with
      hkept | ⟨now, hmem, hexpired⟩
    · exact hkept
    · obtain ⟨pass, hpass, rfl⟩ := AuthChallenges.exists_pass_of_mem hreadings hmem
      have hlast := AuthChallenges.isExpired_mono (hclock (Nat.le_sub_one_of_lt hpass)) hexpired
      rw [hlast] at hunexpired
      cases hunexpired

/-- An entry that expires first, the first such one in the table. -/
def AuthChallenges.firstHead (queue : AuthChallenges Ip) : Option Ip :=
  (queue.entries.find? fun entry => decide (queue.IsHead entry.2)).map Sigma.fst

/-- A table that is not empty has an entry that expires first. -/
theorem AuthChallenges.returns_firstHead (queue : AuthChallenges Ip) :
    queue.Returns queue.firstHead := by
  unfold AuthChallenges.firstHead
  cases hfind : queue.entries.find? fun entry => decide (queue.IsHead entry.2) with
  | some entry =>
    exact ⟨entry.2, AList.mem_lookup_iff.mpr (List.mem_of_find?_eq_some hfind),
      by simpa using List.find?_some hfind⟩
  | none =>
    rw [List.find?_eq_none] at hfind
    cases hmin : (queue.entries.map fun entry => entry.2.challenge.expiresAtUtc).min? with
    | none =>
      rw [List.min?_eq_none_iff, List.map_eq_nil_iff] at hmin
      exact hmin
    | some least =>
      obtain ⟨hmem, hle⟩ := List.min?_eq_some_iff.mp hmin
      obtain ⟨entry, hentry, rfl⟩ := List.mem_map.mp hmem
      refine absurd ?_ (hfind entry hentry)
      rw [decide_eq_true_eq]
      intro other hother
      exact hle _ (List.mem_map_of_mem hother)

/-- A queue that takes the first of several entries that expire together. -/
def QueueHeads.first : QueueHeads Ip where
  peek _ queue := queue.firstHead
  pop _ queue := queue.firstHead
  peek_returns _ queue := queue.returns_firstHead
  pop_returns _ queue := queue.returns_firstHead

/-- A challenge of address `ip` that expires at `expiresAtUtc`. -/
def challengeUntil (ip : Nat) (expiresAtUtc : Int) : StoredChallenge Nat where
  push := ip
  challenge :=
    { challenge := "challenge"
      accessClaims := ⟨ip, uniformKey 1, expiresAtUtc⟩
      refreshClaims := ⟨ip, uniformKey 1, expiresAtUtc⟩
      expiresAtUtc }

/-- Two challenges that expire together and, between them, one that was pushed again with
a later expiry. -/
def threeChallenges : AuthChallenges Nat :=
  ((((∅ : AuthChallenges Nat).push 1 (challengeUntil 1 1)).push 2 (challengeUntil 2 0)).push 3
    (challengeUntil 3 1)).push 2 (challengeUntil 2 9)

theorem sweep_removes_exactly_expired_threeChallenges :
    ∃ passes swept,
      AuthChallenges.sweepLoop QueueHeads.first (fun pass => (pass : Int) + 1)
        (threeChallenges.len + 1) 0 threeChallenges = some (passes, swept) ∧
      swept.lookup 1 = none ∧ swept.lookup 3 = none ∧
      swept.lookup 2 = some (challengeUntil 2 9) := by
  have hclock : ∀ {pass later : Nat}, pass ≤ later → (pass : Int) + 1 ≤ (later : Int) + 1 := by
    intro pass later hle
    exact Int.add_le_add_right (Int.ofNat_le.mpr hle) 1
  obtain ⟨passes, swept, hloop, -, -, hremoved, hkept⟩ :=
    sweep_removes_exactly_expired QueueHeads.first (fun pass => (pass : Int) + 1) hclock
      threeChallenges
  have hpasses : (AuthChallenges.sweepLoop QueueHeads.first (fun pass => (pass : Int) + 1)
      (threeChallenges.len + 1) 0 threeChallenges).map (fun result => result.1.length) =
      some 3 := by decide
  rw [hloop, Option.map_some, Option.some.injEq] at hpasses
  refine ⟨passes, swept, hloop, hremoved 1 (challengeUntil 1 1) (by decide) (by decide),
    hremoved 3 (challengeUntil 3 1) (by decide) (by decide), ?_⟩
  refine hkept 2 (challengeUntil 2 9) (by decide) ?_
  rw [hpasses]
  decide

end FlowraRelayer.Relayer
