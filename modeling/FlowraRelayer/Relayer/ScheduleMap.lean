/-
  Relayer/ScheduleMap.lean --- the leader schedule as the hash map of `u64` slots that
  `schedule_cache.rs` keeps.

  `ScheduleCache.lean` reads the schedule slot by slot, as a function on numbers; here it
  is the map itself, with its entries, which `is_scheduled_validator` goes through, and
  with the arithmetic of `u64`.  `leader_cache_exact` says what a successful update
  leaves in it; `lookup_buildSchedule` says that the function is the map wherever no slot
  number overflows.
-/
import FlowraRelayer.Relayer.ScheduleCache

set_option autoImplicit false

namespace FlowraRelayer.Relayer

open FlowraRelayer.Foundation
open FlowraRelayer.Solana

/-! ## The map -/

/-- What `update_leader_cache` reads of an `EpochInfo`, in its own types. -/
structure RpcEpochInfo where
  absoluteSlot : UInt64
  slotIndex : UInt64
  deriving DecidableEq

/-- `RpcLeaderSchedule` in its own types; `usize` is 64 bits wide.  The entries come in
the iteration order of the hash map. -/
abbrev RpcScheduleAnswer : Type := List (String × List UInt64)

/-- `HashMap<Slot, Pubkey>`. -/
abbrev ScheduleMap : Type := AList fun _ : UInt64 => Pubkey

/-- The body of the inner loop. -/
def insertScheduled (epochOffset : UInt64) (pkStr : String) (schedule : ScheduleMap)
    (slot : UInt64) : ScheduleMap :=
  match Pubkey.fromStr pkStr with
  | some pubkey => schedule.insert (slot + epochOffset) pubkey
  | none => schedule

/-- The two loops. -/
def buildSchedule (epochInfo : RpcEpochInfo) (leaderSchedule : RpcScheduleAnswer) : ScheduleMap :=
  let epochOffset := epochInfo.absoluteSlot - epochInfo.slotIndex
  leaderSchedule.foldl
    (fun schedule entry => entry.2.foldl (insertScheduled epochOffset entry.1) schedule) ∅

/-- `update_leader_cache`: whether it succeeded, and the map afterwards.  `none` in place
of an answer is an RPC error; the server may also know no schedule. -/
def updateScheduleMap (epochInfo : Option RpcEpochInfo)
    (leaderSchedule : Option (Option RpcScheduleAnswer)) (schedule : ScheduleMap) :
    Bool × ScheduleMap :=
  match epochInfo, leaderSchedule with
  | some epochInfo, some (some leaderSchedule) => (true, buildSchedule epochInfo leaderSchedule)
  | _, _ => (false, schedule)

/-- `is_scheduled_validator`. -/
def isScheduledValidator (schedule : ScheduleMap) (pubkey : Pubkey) : Bool :=
  schedule.entries.any fun entry => decide (entry.2 = pubkey)

/-! ## What an answer lists -/

/-- The answer lists slot number `i` of the epoch under a text that parses to the key. -/
def Lists (answer : RpcScheduleAnswer) (pubkey : Pubkey) (i : UInt64) : Prop :=
  ∃ entry ∈ answer, Pubkey.fromStr entry.1 = some pubkey ∧ i ∈ entry.2

/-- No slot number is listed under two keys. -/
def ListedOnce (answer : RpcScheduleAnswer) : Prop :=
  ∀ first second i, Lists answer first i → Lists answer second i → first = second

theorem lists_perm {answer order : RpcScheduleAnswer} (hperm : order.Perm answer)
    {pubkey : Pubkey} {i : UInt64} : Lists order pubkey i ↔ Lists answer pubkey i := by
  simp only [Lists, hperm.mem_iff]

theorem mem_schedulePairs_iff_lists {epochOffset : UInt64} {answer : RpcScheduleAnswer}
    {slot : UInt64} {pubkey : Pubkey} :
    (slot, pubkey) ∈ schedulePairs epochOffset answer ↔
      ∃ i, Lists answer pubkey i ∧ slot = epochOffset + i := by
  rw [mem_schedulePairs]
  constructor
  · rintro ⟨entry, hentry, hpubkey, i, hi, rfl⟩
    exact ⟨i, ⟨entry, hentry, hpubkey, hi⟩, UInt64.add_comm _ _⟩
  · rintro ⟨i, ⟨entry, hentry, hpubkey, hi⟩, rfl⟩
    exact ⟨entry, hentry, hpubkey, i, hi, UInt64.add_comm _ _⟩

/-! ## What the map holds -/

/-- A slot has the leader that was inserted last. -/
theorem lookup_buildSchedule_lastOf (epochInfo : RpcEpochInfo) (answer : RpcScheduleAnswer)
    (slot : UInt64) :
    (buildSchedule epochInfo answer).lookup slot =
      lastOf (schedulePairs (epochInfo.absoluteSlot - epochInfo.slotIndex) answer) slot := by
  have hloops : buildSchedule epochInfo answer =
      (schedulePairs (epochInfo.absoluteSlot - epochInfo.slotIndex) answer).foldl
        (fun (schedule : ScheduleMap) pair => schedule.insert pair.1 pair.2) ∅ := by
    refine foldl_schedulePairs (insertScheduled _) ?_ answer _
    intro pkStr schedule slot
    rfl
  rw [hloops, lookup_foldl_insert]
  simp

/-- With no slot number under two keys, a slot has exactly the leader it is listed
under. -/
theorem lookup_buildSchedule_eq_some_iff {epochInfo : RpcEpochInfo} {answer : RpcScheduleAnswer}
    (honce : ListedOnce answer) {slot : UInt64} {pubkey : Pubkey} :
    (buildSchedule epochInfo answer).lookup slot = some pubkey ↔
      ∃ i, Lists answer pubkey i ∧ slot = (epochInfo.absoluteSlot - epochInfo.slotIndex) + i := by
  rw [lookup_buildSchedule_lastOf, lastOf_eq_some_iff_mem, mem_schedulePairs_iff_lists]
  intro first second hfirst hsecond
  obtain ⟨i, hi, hslot⟩ := mem_schedulePairs_iff_lists.mp hfirst
  obtain ⟨j, hj, hslot'⟩ := mem_schedulePairs_iff_lists.mp hsecond
  -- the addition of `u64`s wraps around, but keeps different numbers apart
  have hsame : i = j := (UInt64.add_right_inj _).mp (hslot.symm.trans hslot')
  subst hsame
  exact honce first second i hi hj

theorem isScheduledValidator_iff {schedule : ScheduleMap} {pubkey : Pubkey} :
    isScheduledValidator schedule pubkey = true ↔ ∃ slot, schedule.lookup slot = some pubkey := by
  simp only [isScheduledValidator, List.any_eq_true, decide_eq_true_eq]
  constructor
  · rintro ⟨⟨slot, found⟩, hmem, rfl⟩
    exact ⟨slot, AList.mem_lookup_iff.mpr hmem⟩
  · rintro ⟨slot, hslot⟩
    exact ⟨⟨slot, pubkey⟩, AList.mem_lookup_iff.mp hslot, rfl⟩

/-- For every answer in which no slot number stands under two keys, in whatever order its
entries come and whatever the map was before: a successful update maps exactly the slots
listed under a key to that key, and a key is scheduled exactly if a slot is listed under
it.  An update that lacks one of the two answers fails and leaves the map alone. -/
theorem leader_cache_exact (epochInfo : RpcEpochInfo) (answer : RpcScheduleAnswer)
    (honce : ListedOnce answer) :
    (∀ (order : RpcScheduleAnswer) (old : ScheduleMap), order.Perm answer →
      ∃ new, updateScheduleMap (some epochInfo) (some (some order)) old = (true, new) ∧
        (∀ slot pubkey, new.lookup slot = some pubkey ↔
          ∃ i, Lists answer pubkey i ∧
            slot = (epochInfo.absoluteSlot - epochInfo.slotIndex) + i) ∧
        ∀ pubkey, isScheduledValidator new pubkey = true ↔ ∃ i, Lists answer pubkey i) ∧
    ∀ (maybeInfo : Option RpcEpochInfo) (maybeAnswer : Option (Option RpcScheduleAnswer))
      (old : ScheduleMap), maybeInfo = none ∨ maybeAnswer = none ∨ maybeAnswer = some none →
      updateScheduleMap maybeInfo maybeAnswer old = (false, old) := by
  constructor
  · intro order old hperm
    have honceOrder : ListedOnce order := by
      intro first second i hfirst hsecond
      exact honce first second i ((lists_perm hperm).mp hfirst) ((lists_perm hperm).mp hsecond)
    have hlookup : ∀ slot pubkey, (buildSchedule epochInfo order).lookup slot = some pubkey ↔
        ∃ i, Lists answer pubkey i ∧
          slot = (epochInfo.absoluteSlot - epochInfo.slotIndex) + i := by
      intro slot pubkey
      rw [lookup_buildSchedule_eq_some_iff honceOrder]
      simp only [lists_perm hperm]
    refine ⟨buildSchedule epochInfo order, rfl, hlookup, ?_⟩
    intro pubkey
    simp only [isScheduledValidator_iff, hlookup]
    constructor
    · rintro ⟨slot, i, hi, -⟩
      exact ⟨i, hi⟩
    · rintro ⟨i, hi⟩
      exact ⟨_, i, hi, rfl⟩
  · rintro maybeInfo maybeAnswer old (rfl | rfl | rfl)
    · rfl
    · cases maybeInfo <;> rfl
    · cases maybeInfo <;> rfl

/-- Two leaders and a text that is not a key. -/
def mixedSchedule : RpcScheduleAnswer :=
  [((uniformKey 1).toText, [0, 2]), ("leader", [0, 1]), ((uniformKey 2).toText, [1])]

theorem listedOnce_mixedSchedule : ListedOnce mixedSchedule := by
  have hpairs : ∀ pair ∈ schedulePairs 0 mixedSchedule, ∀ other ∈ schedulePairs 0 mixedSchedule,
      pair.1 = other.1 → pair.2 = other.2 := by decide +kernel
  intro first second i hfirst hsecond
  exact hpairs (i, first) (mem_schedulePairs_iff_lists.mpr ⟨i, hfirst, (UInt64.zero_add i).symm⟩)
    (i, second) (mem_schedulePairs_iff_lists.mpr ⟨i, hsecond, (UInt64.zero_add i).symm⟩) rfl

theorem leader_cache_exact_mixedSchedule :
    ∃ new, updateScheduleMap (some ⟨10, 1⟩) (some (some mixedSchedule)) ∅ = (true, new) ∧
      new.lookup 10 = some (uniformKey 2) ∧ isScheduledValidator new (uniformKey 3) = false ∧
      ∀ slot pubkey, new.lookup slot = some pubkey ↔
        ∃ i, Lists mixedSchedule pubkey i ∧ slot = (10 - 1) + i := by
  obtain ⟨new, hnew, hlookup, -⟩ := (leader_cache_exact ⟨10, 1⟩ mixedSchedule
    listedOnce_mixedSchedule).1 mixedSchedule ∅ (List.Perm.refl _)
  have hbuilt : new = buildSchedule ⟨10, 1⟩ mixedSchedule := (Prod.mk.inj hnew).2.symm
  refine ⟨new, hnew, ?_, ?_, hlookup⟩
  · rw [hbuilt]
    decide +kernel
  · rw [hbuilt]
    decide +kernel

/-! ## The function and the map -/

/-- An answer with its slot numbers read as numbers. -/
def RpcScheduleAnswer.toNat (answer : RpcScheduleAnswer) : RpcLeaderSchedule :=
  answer.map fun entry => (entry.1, entry.2.map UInt64.toNat)

/-- The entries of the map and those of the function are the same, where no addition
overflows. -/
theorem schedulePairs_toNat {epochOffset : UInt64} {answer : RpcScheduleAnswer}
    (hfits : ∀ entry ∈ answer, ∀ i ∈ entry.2, i.toNat + epochOffset.toNat < 2 ^ 64) :
    schedulePairs epochOffset.toNat answer.toNat =
      (schedulePairs epochOffset answer).map fun pair => (pair.1.toNat, pair.2) := by
  unfold schedulePairs RpcScheduleAnswer.toNat
  rw [List.flatMap_map, List.map_flatMap]
  refine List.flatMap_congr ?_
  intro entry hentry
  dsimp only
  split
  · rw [List.map_map, List.map_map]
    refine List.map_congr_left ?_
    intro i hi
    have hsum : (i + epochOffset).toNat = i.toNat + epochOffset.toNat := by
      rw [UInt64.toNat_add, Nat.mod_eq_of_lt (hfits entry hentry i hi)]
    simp only [Function.comp_apply, hsum]
  · rfl

/-- Where no slot number overflows, the map is the function of `ScheduleCache.lean`. -/
theorem lookup_buildSchedule {epochInfo : RpcEpochInfo} {answer : RpcScheduleAnswer}
    (hindex : epochInfo.slotIndex ≤ epochInfo.absoluteSlot)
    (hfits : ∀ entry ∈ answer, ∀ i ∈ entry.2,
      i.toNat + (epochInfo.absoluteSlot.toNat - epochInfo.slotIndex.toNat) < 2 ^ 64)
    (slot : UInt64) :
    (buildSchedule epochInfo answer).lookup slot =
      newSchedule ⟨epochInfo.absoluteSlot.toNat, epochInfo.slotIndex.toNat⟩ answer.toNat
        slot.toNat := by
  have hoffset : (epochInfo.absoluteSlot - epochInfo.slotIndex).toNat =
      epochInfo.absoluteSlot.toNat - epochInfo.slotIndex.toNat :=
    UInt64.toNat_sub_of_le _ _ hindex
  rw [lookup_buildSchedule_lastOf, newSchedule_apply]
  dsimp only
  rw [← hoffset] at hfits ⊢
  rw [schedulePairs_toNat hfits]
  exact (lastOf_map_key (fun _ _ h => UInt64.toNat_inj.mp h) _ _).symm

end FlowraRelayer.Relayer
