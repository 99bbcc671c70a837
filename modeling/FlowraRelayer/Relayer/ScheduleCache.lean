/-
  Relayer/ScheduleCache.lean --- the leader schedule cache of
  `relayer/src/schedule_cache.rs`.

  A thread asks an RPC server for the epoch and for the schedule of the current epoch,
  in two calls, and replaces the whole cache by what it can make of the two answers.
  The event loop asks the cache for the leaders of the next slots.

  `Cluster.newSchedule_eq_some_iff` says what the cache is made of when the offset comes
  from one epoch and the schedule from another.  Two properties follow, each with the
  condition it needs:

      coverage     the window of the event loop contains every upcoming leader only as
                   far as the epoch reaches (`lookahead_covers_iff`, `leader_missed`)
      correctness  the cache is right as long as the epoch does not change between the
                   two calls (`cached_leaders_true`, `shifted_schedule`)
-/
import FlowraRelayer.Foundation.Collect
import FlowraRelayer.Relayer.Offers

set_option autoImplicit false

namespace FlowraRelayer.Relayer

open FlowraRelayer.Foundation
open FlowraRelayer.Solana

/-! ## `update_leader_cache` -/

/-- What `update_leader_cache` reads of an `EpochInfo`. -/
structure EpochInfo where
  absoluteSlot : Slot
  slotIndex : Nat
  deriving DecidableEq

/-- `RpcLeaderSchedule`: the texts of the leaders, each with its slots counted from the
start of the epoch, in the iteration order of the hash map. -/
abbrev RpcLeaderSchedule : Type := List (String × List Nat)

/-- One `insert` into the new map, skipped when the text is not a key. -/
def insertSlot (epochOffset : Nat) (pkStr : String) (schedule : LeaderSchedule) (slot : Nat) :
    LeaderSchedule :=
  match Pubkey.fromStr pkStr with
  | some pubkey => Function.update schedule (slot + epochOffset) (some pubkey)
  | none => schedule

/-- The inner loop: the slots of one leader. -/
def insertSlots (epochOffset : Nat) (schedule : LeaderSchedule) (entry : String × List Nat) :
    LeaderSchedule :=
  entry.2.foldl (insertSlot epochOffset entry.1) schedule

/-- The new map.  The subtraction is one of `u64`s; an index into an epoch does not exceed
the absolute slot. -/
def newSchedule (epochInfo : EpochInfo) (leaderSchedule : RpcLeaderSchedule) : LeaderSchedule :=
  leaderSchedule.foldl (insertSlots (epochInfo.absoluteSlot - epochInfo.slotIndex)) fun _ => none

/-- `update_leader_cache`: whether it succeeded, and the cache afterwards.  `none` in place
of an answer is an RPC error; the server may also know no schedule. -/
def updateLeaderCache (epochInfo : Option EpochInfo)
    (leaderSchedule : Option (Option RpcLeaderSchedule)) (schedule : LeaderSchedule) :
    Bool × LeaderSchedule :=
  match epochInfo, leaderSchedule with
  | some epochInfo, some (some leaderSchedule) => (true, newSchedule epochInfo leaderSchedule)
  | _, _ => (false, schedule)

/-! ## What the new map holds -/

section NewMap

variable {S : Type} [Add S]

/-- The entries the two loops insert, in their order. -/
def schedulePairs (epochOffset : S) (answer : List (String × List S)) : List (S × Pubkey) :=
  answer.flatMap fun entry =>
    match Pubkey.fromStr entry.1 with
    | some pubkey => entry.2.map fun slot => (slot + epochOffset, pubkey)
    | none => []

theorem mem_schedulePairs {epochOffset : S} {answer : List (String × List S)} {slot : S}
    {pubkey : Pubkey} :
    (slot, pubkey) ∈ schedulePairs epochOffset answer ↔
      ∃ entry ∈ answer, Pubkey.fromStr entry.1 = some pubkey ∧
        ∃ i ∈ entry.2, i + epochOffset = slot := by
  simp only [schedulePairs, List.mem_flatMap]
  constructor
  · rintro ⟨entry, hentry, hmem⟩
    split at hmem
    · next found hfound =>
      obtain ⟨i, hi, heq⟩ := List.mem_map.mp hmem
      cases heq
      exact ⟨entry, hentry, hfound, i, hi, rfl⟩
    · cases hmem
  · rintro ⟨entry, hentry, hpubkey, i, hi, rfl⟩
    refine ⟨entry, hentry, ?_⟩
    rw [hpubkey]
    exact List.mem_map.mpr ⟨i, hi, rfl⟩

/-- Two nested loops, the inner one skipping what is not under a key, are one loop over
the entries. -/
theorem foldl_schedulePairs {M : Type} {epochOffset : S} {insert : M → S × Pubkey → M}
    (insertOne : String → M → S → M)
    (hone : ∀ pkStr m slot, insertOne pkStr m slot =
      match Pubkey.fromStr pkStr with
      | some pubkey => insert m (slot + epochOffset, pubkey)
      | none => m) (answer : List (String × List S)) :
    ∀ m : M, answer.foldl (fun m entry => entry.2.foldl (insertOne entry.1) m) m =
      (schedulePairs epochOffset answer).foldl insert m := by
  have hinner : ∀ (pkStr : String) (slots : List S) (m : M),
      slots.foldl (insertOne pkStr) m =
        (schedulePairs epochOffset [(pkStr, slots)]).foldl insert m := by
    intro pkStr slots
    cases hpubkey : Pubkey.fromStr pkStr with
    | none =>
      have hskip : insertOne pkStr = fun m _ => m := by
        funext m slot
        simp [hone, hpubkey]
      intro m
      simp [schedulePairs, hpubkey, hskip]
    | some pubkey =>
      have hinsert : insertOne pkStr = fun m slot => insert m (slot + epochOffset, pubkey) := by
        funext m slot
        simp [hone, hpubkey]
      intro m
      simp [schedulePairs, hpubkey, hinsert, List.foldl_map]
  induction answer with
  | nil =>
    intro m
    rfl
  | cons entry rest ih =>
    intro m
    rw [List.foldl_cons, ih, hinner]
    simp [schedulePairs]

end NewMap

/-- A slot has the leader that was inserted last. -/
theorem newSchedule_apply (epochInfo : EpochInfo) (answer : RpcLeaderSchedule) (slot : Slot) :
    newSchedule epochInfo answer slot =
      lastOf (schedulePairs (epochInfo.absoluteSlot - epochInfo.slotIndex) answer) slot := by
  have hloops : newSchedule epochInfo answer =
      (schedulePairs (epochInfo.absoluteSlot - epochInfo.slotIndex) answer).foldl
        (fun (schedule : LeaderSchedule) pair =>
          Function.update schedule pair.1 (some pair.2)) fun _ => none := by
    refine foldl_schedulePairs (insertSlot _) ?_ answer _
    intro pkStr schedule slot
    rfl
  rw [hloops, foldl_update_apply, Option.or_none]

/-! ## The cluster -/

/-- The epochs of the cluster and its leaders. -/
structure Cluster where
  firstSlot : Nat → Slot
  slotsIn : Nat → Nat
  firstSlot_succ : ∀ epoch, firstSlot (epoch + 1) = firstSlot epoch + slotsIn epoch
  leader : Slot → Pubkey

namespace Cluster

variable (c : Cluster)

/-- The slot is one of the epoch. -/
def InEpoch (epoch : Nat) (slot : Slot) : Prop :=
  c.firstSlot epoch ≤ slot ∧ slot < c.firstSlot (epoch + 1)

/-- The answer of `get_epoch_info` at slot number `slotIndex` of the epoch. -/
def epochInfo (epoch slotIndex : Nat) : EpochInfo where
  absoluteSlot := c.firstSlot epoch + slotIndex
  slotIndex := slotIndex

/-- A true answer of `get_leader_schedule` in the epoch: every slot of the epoch stands
under the text of its leader, and nothing else does. -/
def Describes (epoch : Nat) (answer : RpcLeaderSchedule) : Prop :=
  (∀ entry ∈ answer, ∀ i ∈ entry.2,
    i < c.slotsIn epoch ∧ entry.1 = (c.leader (c.firstSlot epoch + i)).toText) ∧
  ∀ i, i < c.slotsIn epoch →
    ∃ entry ∈ answer, entry.1 = (c.leader (c.firstSlot epoch + i)).toText ∧ i ∈ entry.2

instance (epoch : Nat) (answer : RpcLeaderSchedule) : Decidable (c.Describes epoch answer) :=
  inferInstanceAs (Decidable ((∀ entry ∈ answer, ∀ i ∈ entry.2, _ ∧ _) ∧
    ∀ i, i < c.slotsIn epoch → ∃ entry ∈ answer, _ ∧ _))

variable {c}

/-- The entries of a true answer: the leaders of `epoch'`, moved to the start of `epoch`. -/
theorem mem_schedulePairs_iff {epoch epoch' : Nat} {answer : RpcLeaderSchedule}
    (hanswer : c.Describes epoch' answer) {slot : Slot} {pubkey : Pubkey} :
    (slot, pubkey) ∈ schedulePairs (c.firstSlot epoch) answer ↔
      ∃ i, i < c.slotsIn epoch' ∧ slot = c.firstSlot epoch + i ∧
        pubkey = c.leader (c.firstSlot epoch' + i) := by
  rw [mem_schedulePairs]
  constructor
  · rintro ⟨entry, hmem, htext, i, hi, rfl⟩
    obtain ⟨hlt, hleader⟩ := hanswer.1 entry hmem i hi
    rw [hleader, Pubkey.fromStr_toText, Option.some.injEq] at htext
    exact ⟨i, hlt, Nat.add_comm _ _, htext.symm⟩
  · rintro ⟨i, hi, rfl, rfl⟩
    obtain ⟨entry, hmem, htext, hlisted⟩ := hanswer.2 i hi
    refine ⟨entry, hmem, ?_, i, hlisted, Nat.add_comm _ _⟩
    rw [htext, Pubkey.fromStr_toText]

/-- The new map when the offset comes from `epoch` and the schedule from `epoch'`: the
leaders of `epoch'`, moved to the start of `epoch`. -/
theorem newSchedule_eq_some_iff {epoch epoch' slotIndex : Nat} {answer : RpcLeaderSchedule}
    (hanswer : c.Describes epoch' answer) {slot : Slot} {pubkey : Pubkey} :
    newSchedule (c.epochInfo epoch slotIndex) answer slot = some pubkey ↔
      ∃ i, i < c.slotsIn epoch' ∧ slot = c.firstSlot epoch + i ∧
        pubkey = c.leader (c.firstSlot epoch' + i) := by
  have hoffset : (c.epochInfo epoch slotIndex).absoluteSlot - (c.epochInfo epoch slotIndex).slotIndex =
      c.firstSlot epoch := Nat.add_sub_cancel _ _
  rw [newSchedule_apply, hoffset, lastOf_eq_some_iff_mem, mem_schedulePairs_iff hanswer]
  -- a slot determines its number in the epoch, and that its leader
  intro first second hfirst hsecond
  obtain ⟨i, -, hi, rfl⟩ := (mem_schedulePairs_iff hanswer).mp hfirst
  obtain ⟨j, -, hj, rfl⟩ := (mem_schedulePairs_iff hanswer).mp hsecond
  rw [Nat.add_left_cancel (hi.symm.trans hj)]

/-- With both answers from one epoch, the new map holds the leader of every slot of the
epoch, and nothing else. -/
theorem newSchedule_of_sameEpoch {epoch slotIndex : Nat} {answer : RpcLeaderSchedule}
    (hanswer : c.Describes epoch answer) {slot : Slot} {pubkey : Pubkey} :
    newSchedule (c.epochInfo epoch slotIndex) answer slot = some pubkey ↔
      c.InEpoch epoch slot ∧ pubkey = c.leader slot := by
  rw [newSchedule_eq_some_iff hanswer]
  constructor
  · rintro ⟨i, hi, rfl, rfl⟩
    refine ⟨⟨Nat.le_add_right _ _, ?_⟩, rfl⟩
    rw [c.firstSlot_succ]
    exact Nat.add_lt_add_left hi _
  · rintro ⟨⟨hfirst, hlast⟩, rfl⟩
    obtain ⟨i, rfl⟩ := Nat.exists_eq_add_of_le hfirst
    rw [c.firstSlot_succ] at hlast
    exact ⟨i, Nat.lt_of_add_lt_add_left hlast, rfl, rfl⟩

end Cluster

/-! ## The look-ahead window -/

/-- The leaders the event loop computes after an update with two answers from one epoch:
those of the slots of the window that lie in the epoch. -/
theorem mem_leadersForSlots_iff {c : Cluster} {epoch slotIndex : Nat}
    {answer : RpcLeaderSchedule} (hanswer : c.Describes epoch answer) {slots : List Slot}
    {pubkey : Pubkey} :
    pubkey ∈ leadersForSlots (newSchedule (c.epochInfo epoch slotIndex) answer) slots ↔
      ∃ slot ∈ slots, c.InEpoch epoch slot ∧ c.leader slot = pubkey := by
  simp only [leadersForSlots, List.mem_toFinset, List.mem_filterMap,
    Cluster.newSchedule_of_sameEpoch hanswer, eq_comm]

/-- After a successful update whose answers are of one epoch, when a slot of that epoch
arrives: the leader of every slot of the look-ahead window is among `slot_leaders` exactly
if the end of the window is a `u64`, and every slot of the window behind the end of the epoch
has a leader that also leads a slot of the window before it. -/
theorem lookahead_covers_iff (c : Cluster) (epoch slotIndex : Nat) (answer : RpcLeaderSchedule)
    (hanswer : c.Describes epoch answer) (old : LeaderSchedule)
    (decode : List UInt8 → Option VersionedTransaction) (cfg : LoopConfig) (s s' : LoopState)
    (h : UInt64) (hslot : c.InEpoch epoch h.toNat)
    (hturn : eventStep decode cfg s (.slot (some h.toNat) (updateLeaderCache
      (some (c.epochInfo epoch slotIndex)) (some (some answer)) old).2) = some s') :
    (∀ slot, h.toNat ≤ slot → slot < h.toNat + cfg.slotLookahead.toNat →
        c.leader slot ∈ s'.slotLeaders) ↔
      h.toNat + cfg.slotLookahead.toNat < UInt64.size ∧
      ∀ slot, h.toNat ≤ slot → slot < h.toNat + cfg.slotLookahead.toNat →
        c.firstSlot (epoch + 1) ≤ slot →
        ∃ other, h.toNat ≤ other ∧ other < h.toNat + cfg.slotLookahead.toNat ∧
          other < c.firstSlot (epoch + 1) ∧ c.leader other = c.leader slot := by
  have hleaders : s'.slotLeaders = leadersForSlots (newSchedule (c.epochInfo epoch slotIndex) answer)
      (slotWindow h.toNat cfg.slotLookahead) := by
    rcases eventStep_cases hturn with ⟨_, _, heq, rfl⟩ | ⟨_, _, _, _, heq, -⟩ | ⟨_, _, heq, -⟩ |
      ⟨_, _, heq, -⟩ | ⟨_, _, heq, -⟩ | ⟨heq, -⟩
    · cases heq
      rfl
    all_goals cases heq
  simp only [hleaders, mem_leadersForSlots_iff hanswer, mem_slotWindow]
  constructor
  · intro hcovers
    refine ⟨?_, ?_⟩
    · -- the leader of the first slot is missed when the end of the window wraps
      by_contra hwraps
      have hlast : h.toNat < h.toNat + cfg.slotLookahead.toNat :=
        Nat.lt_of_lt_of_le h.toNat_lt (Nat.le_of_not_lt hwraps)
      obtain ⟨_, ⟨-, -, hfits⟩, -⟩ := hcovers h.toNat (Nat.le_refl _) hlast
      exact hwraps hfits
    · intro slot hfirst hlast _
      obtain ⟨other, ⟨hother, hlt, -⟩, hepoch, hleader⟩ := hcovers slot hfirst hlast
      exact ⟨other, hother, hlt, hepoch.2, hleader⟩
  · rintro ⟨hfits, hshared⟩ slot hfirst hlast
    by_cases hepoch : slot < c.firstSlot (epoch + 1)
    · exact ⟨slot, ⟨hfirst, hlast, hfits⟩, ⟨Nat.le_trans hslot.1 hfirst, hepoch⟩, rfl⟩
    · obtain ⟨other, hother, hlt, hinside, hleader⟩ :=
        hshared slot hfirst hlast (Nat.le_of_not_lt hepoch)
      exact ⟨other, ⟨hother, hlt, hfits⟩, ⟨Nat.le_trans hslot.1 hother, hinside⟩, hleader⟩

/-- Epochs of two slots, each with one leader. -/
def pairCluster : Cluster where
  firstSlot epoch := 2 * epoch
  slotsIn _ := 2
  firstSlot_succ epoch := Nat.mul_succ 2 epoch
  leader slot := uniformKey (UInt8.ofNat (slot / 2))

/-- The true schedule of an epoch of that cluster. -/
def pairSchedule (epoch : Nat) : RpcLeaderSchedule :=
  [((uniformKey (UInt8.ofNat epoch)).toText, [0, 1])]

/-- A loop that forwards to the leaders of the next slots only. -/
abbrev lookaheadConfig (slotLookahead : UInt64) : LoopConfig := ⟨∅, 4, false, slotLookahead⟩

theorem lookahead_covers_iff_lastSlot :
    ∃ s', eventStep (fun _ => none) (lookaheadConfig 1) LoopState.init
        (.slot (some 1) (updateLeaderCache (some (pairCluster.epochInfo 0 1))
          (some (some (pairSchedule 0))) fun _ => none).2) = some s' ∧
      ((∀ slot, 1 ≤ slot → slot < 1 + 1 → pairCluster.leader slot ∈ s'.slotLeaders) ↔
        1 + 1 < UInt64.size ∧
        ∀ slot, 1 ≤ slot → slot < 1 + 1 → pairCluster.firstSlot (0 + 1) ≤ slot →
          ∃ other, 1 ≤ other ∧ other < 1 + 1 ∧ other < pairCluster.firstSlot (0 + 1) ∧
            pairCluster.leader other = pairCluster.leader slot) :=
  ⟨_, rfl, lookahead_covers_iff pairCluster 0 1 (pairSchedule 0) (by decide) (fun _ => none)
    (fun _ => none) (lookaheadConfig 1) LoopState.init _ 1 (by unfold Cluster.InEpoch; decide) rfl⟩

/-- At the last slot of an epoch the leader of the next slot is missed. -/
theorem leader_missed :
    ¬ ∀ (c : Cluster) (epoch slotIndex : Nat) (answer : RpcLeaderSchedule) (old : LeaderSchedule)
      (cfg : LoopConfig) (s s' : LoopState) (h : UInt64),
      c.Describes epoch answer → c.InEpoch epoch h.toNat →
      h.toNat + cfg.slotLookahead.toNat < UInt64.size →
      eventStep (fun _ => none) cfg s (.slot (some h.toNat) (updateLeaderCache
        (some (c.epochInfo epoch slotIndex)) (some (some answer)) old).2) = some s' →
      ∀ slot, h.toNat ≤ slot → slot < h.toNat + cfg.slotLookahead.toNat →
        c.leader slot ∈ s'.slotLeaders := by
  intro hall
  have hmem := hall pairCluster 0 1 (pairSchedule 0) (fun _ => none) (lookaheadConfig 5)
    LoopState.init _ 1 (by decide) (by unfold Cluster.InEpoch; decide) (by decide) rfl 2
    (by decide) (by decide)
  exact absurd hmem (by decide)

/-! ## The epoch moves on -/

/-- The cluster and the refresh thread.  `asked` is the answer of `get_epoch_info` while
the thread waits for the schedule, with the epoch in which it was given. -/
structure RefreshState where
  epoch : Nat
  asked : Option (Nat × EpochInfo)
  schedule : LeaderSchedule

/-- The thread before its first update. -/
def RefreshState.init (epoch : Nat) : RefreshState where
  epoch := epoch
  asked := none
  schedule := fun _ => none

/-- The steps: the cluster moves to its next epoch, or a server answers a call of
`update_leader_cache`.  `none` in place of an answer is an error. -/
inductive RefreshLabel where
  | advance
  | getEpochInfo (slotIndex : Option Nat)
  | getLeaderSchedule (answer : Option (Option RpcLeaderSchedule))

/-- A schedule that is handed out is that of the current epoch. -/
def AnswersTruly (c : Cluster) (epoch : Nat) (answer : Option (Option RpcLeaderSchedule)) : Prop :=
  ∀ maybeSchedule ∈ answer, ∀ leaderSchedule ∈ maybeSchedule, c.Describes epoch leaderSchedule

instance (c : Cluster) (epoch : Nat) (answer : Option (Option RpcLeaderSchedule)) :
    Decidable (AnswersTruly c epoch answer) :=
  inferInstanceAs (Decidable (∀ maybeSchedule ∈ answer, ∀ leaderSchedule ∈ maybeSchedule, _))

/-- The refresh thread against a cluster that moves on: every call is answered truly for
the epoch in which it is served. -/
def refreshStep (c : Cluster) (s : RefreshState) : RefreshLabel → Option RefreshState
  | .advance => some { s with epoch := s.epoch + 1 }
  | .getEpochInfo slotIndex =>
      match s.asked, slotIndex with
      | some _, _ => none
      | none, none => some { s with schedule := (updateLeaderCache none none s.schedule).2 }
      | none, some slotIndex =>
          if slotIndex < c.slotsIn s.epoch then
            some { s with asked := some (s.epoch, c.epochInfo s.epoch slotIndex) }
          else none
  | .getLeaderSchedule answer =>
      match s.asked with
      | none => none
      | some (_, epochInfo) =>
          if AnswersTruly c s.epoch answer then
            some
              { s with
                asked := none
                schedule := (updateLeaderCache (some epochInfo) answer s.schedule).2 }
          else none

/-- Every entry of the cache names the leader of its slot. -/
def CacheTrue (c : Cluster) (s : RefreshState) : Prop :=
  ∀ slot pubkey, s.schedule slot = some pubkey → pubkey = c.leader slot

/-- A step in which a schedule is handed out. -/
def RefreshLabel.handsOut : RefreshLabel → Bool
  | .getLeaderSchedule (some (some _)) => true
  | _ => false

/-- A schedule is handed out in the epoch in which the epoch information was. -/
def SameEpoch (s : RefreshState) (label : RefreshLabel) : Prop :=
  label.handsOut = true → ∀ asked ∈ s.asked, asked.1 = s.epoch

instance (s : RefreshState) (label : RefreshLabel) : Decidable (SameEpoch s label) :=
  inferInstanceAs (Decidable (_ → ∀ asked ∈ s.asked, _))

/-- The epoch information the thread holds is that of the epoch in which it asked. -/
def AskedTrue (c : Cluster) (s : RefreshState) : Prop :=
  ∀ asked ∈ s.asked, ∃ slotIndex, asked.2 = c.epochInfo asked.1 slotIndex

/-- One step keeps the cache true, if a schedule that is handed out belongs to the epoch
of the epoch information. -/
theorem cacheTrue_refreshStep {c : Cluster} {s s' : RefreshState} {label : RefreshLabel}
    (hasked : AskedTrue c s) (htrue : CacheTrue c s) (hsame : SameEpoch s label)
    (hstep : refreshStep c s label = some s') : AskedTrue c s' ∧ CacheTrue c s' := by
  cases label with
  | advance =>
    cases hstep
    exact ⟨hasked, htrue⟩
  | getEpochInfo slotIndex =>
    simp only [refreshStep] at hstep
    split at hstep
    · cases hstep
    · cases hstep
      exact ⟨hasked, htrue⟩
    · rw [Option.ite_none_right_eq_some, Option.some.injEq] at hstep
      obtain ⟨-, rfl⟩ := hstep
      refine ⟨?_, htrue⟩
      intro asked hmem
      cases hmem
      exact ⟨_, rfl⟩
  | getLeaderSchedule answer =>
    simp only [refreshStep] at hstep
    split at hstep
    · cases hstep
    · rename_i epoch info hwaiting
      rw [Option.ite_none_right_eq_some, Option.some.injEq] at hstep
      obtain ⟨htruly, rfl⟩ := hstep
      refine ⟨fun asked hmem => (nomatch hmem), ?_⟩
      intro slot pubkey hslot
      cases answer with
      | none => exact htrue slot pubkey hslot
      | some maybeSchedule =>
        cases maybeSchedule with
        | none => exact htrue slot pubkey hslot
        | some leaderSchedule =>
          obtain ⟨slotIndex, hinfo⟩ := hasked _ hwaiting
          have hepoch : epoch = s.epoch := hsame rfl _ hwaiting
          simp only [hepoch] at hinfo
          subst hinfo
          exact ((Cluster.newSchedule_of_sameEpoch (htruly _ rfl _ rfl)).mp hslot).2

/-- In every run in which every schedule is handed out in the epoch in which the epoch
information was, every entry of the cache names the leader of its slot. -/
theorem cached_leaders_true (c : Cluster) (epoch : Nat) (ls : List RefreshLabel) (s : RefreshState)
    (hsame : StepsMeet (refreshStep c) SameEpoch (RefreshState.init epoch) ls)
    (hrun : runSteps (refreshStep c) (RefreshState.init epoch) ls = some s) : CacheTrue c s := by
  have hinit : AskedTrue c (RefreshState.init epoch) ∧ CacheTrue c (RefreshState.init epoch) := by
    constructor
    · intro asked hmem
      cases hmem
    · intro slot pubkey hslot
      cases hslot
  have hboth := runSteps_invariant_of_meets (fun s => AskedTrue c s ∧ CacheTrue c s)
    (fun _ _ _ hinv hcond hstep => cacheTrue_refreshStep hinv.1 hinv.2 hcond hstep) ls hinit
    hsame hrun
  exact hboth.2

/-- An update in one epoch and one in the next. -/
def twoUpdates : List RefreshLabel :=
  [ .getEpochInfo (some 1)
  , .getLeaderSchedule (some (some (pairSchedule 0)))
  , .advance
  , .getEpochInfo (some 0)
  , .getLeaderSchedule (some (some (pairSchedule 1))) ]

theorem cached_leaders_true_twoUpdates :
    ∃ s, runSteps (refreshStep pairCluster) (RefreshState.init 0) twoUpdates = some s ∧
      s.schedule 2 = some (uniformKey 1) ∧ CacheTrue pairCluster s := by
  have hrun : (runSteps (refreshStep pairCluster) (RefreshState.init 0) twoUpdates).map
      (fun s => s.schedule 2) = some (some (uniformKey 1)) := by decide
  have hsame : StepsMeet (refreshStep pairCluster) SameEpoch (RefreshState.init 0) twoUpdates := by
    unfold StepsMeet
    decide
  obtain ⟨s, hs, hslot⟩ := Option.map_eq_some_iff.mp hrun
  exact ⟨s, hs, hslot, cached_leaders_true _ _ _ s hsame hs⟩

/-- The epoch advances between the two calls of an update. -/
def advanceBetween : List RefreshLabel :=
  [ .getEpochInfo (some 1)
  , .advance
  , .getLeaderSchedule (some (some (pairSchedule 1))) ]

/-- The schedule of the new epoch is stored for the slots of the old one. -/
theorem shifted_schedule :
    ¬ ∀ (c : Cluster) (epoch : Nat) (ls : List RefreshLabel) (s : RefreshState),
      runSteps (refreshStep c) (RefreshState.init epoch) ls = some s → CacheTrue c s := by
  intro hall
  have hrun : (runSteps (refreshStep pairCluster) (RefreshState.init 0) advanceBetween).map
      (fun s => s.schedule 1) = some (some (uniformKey 1)) := by decide
  obtain ⟨s, hs, hslot⟩ := Option.map_eq_some_iff.mp hrun
  exact absurd (hall pairCluster 0 advanceBetween s hs 1 _ hslot) (by decide)

end FlowraRelayer.Relayer
