/-
  TransactionRelayer/Refresher.lean --- the thread that keeps the lookup tables, and how
  late the OFAC check learns of a table.

  `start_lookup_table_refresher` seeds the table map and then refreshes it whenever
  `refresh_duration` has passed at a tick.  Meanwhile tables are created, extended and
  closed on chain, and the filters of the two outgoing paths look up one key at a time,
  also in the middle of a refresh.

  `Refresher` is the thread with the chain: each write of a refresh is a step.  If its ticks
  and calls keep a pace (and not too many calls in a row fail), the map is a copy of what
  the chain held at most `Pace.staleness` ago, also while it is being rewritten.  So an
  address that has stood in a table for that long is seen, and nothing is dropped for an
  address no table has held since (`ofac_window`).
-/
import FlowraRelayer.Foundation.Polling
import FlowraRelayer.TransactionRelayer.OfacPolicy

set_option autoImplicit false

namespace FlowraRelayer.TransactionRelayer

open FlowraRelayer.Foundation
open FlowraRelayer.Solana
open FlowraRelayer.Protos
open FlowraRelayer.Relayer

/-- The accounts of the lookup table program, with their data. -/
abbrev TableAccounts : Type := List (Pubkey × List UInt8)

/-- Where the thread is. -/
inductive RefresherPhase where
  /-- in `get_program_accounts`, in a refresh that began at `began` -/
  | fetching (began : Time)
  /-- between two writes of a refresh; `order` is the order in which `retain` visits the keys -/
  | writing (began : Time) (accounts : TableAccounts) (order : List Pubkey)
      (progress : RefreshProgress)
  /-- at the head of the loop, before the load of `exit` -/
  | looping (lastRefresh since : Time)
  /-- in `tick_receiver.recv()` -/
  | waiting (lastRefresh since : Time)
  | stopped

/-- The thread, the map it keeps and the chain.  The last three fields are a record: whether
a refresh has succeeded, when the last one that did began (before the first, when the thread
started), and how many have failed since. -/
structure Refresher where
  now : Time
  /-- the accounts on chain, the newest first, each with the time of the change -/
  versions : List (Time × TableAccounts)
  exit : Bool
  phase : RefresherPhase
  /-- the map as the last refresh left it -/
  settled : LookupTableCache
  keys : List Pubkey
  seeded : Bool
  asked : Time
  failed : Nat

/-- The thread starts with a refresh, whatever the chain holds. -/
def Refresher.init (start : Time) (accounts : TableAccounts) : Refresher where
  now := start
  versions := [(start, accounts)]
  exit := false
  phase := .fetching start
  settled := fun _ => none
  keys := []
  seeded := false
  asked := start
  failed := 0

/-- The map that the filters look up. -/
def Refresher.lookupTable (deserialize : List UInt8 → Option (List Pubkey)) (s : Refresher) :
    LookupTableCache :=
  match s.phase with
  | .writing _ accounts order progress => cacheDuring deserialize s.settled accounts order progress
  | _ => s.settled

inductive RefresherEvent where
  /-- the accounts on chain change -/
  | publish (accounts : TableAccounts)
  | setExit
  /-- `get_program_accounts` returns; `none` is an error -/
  | answer (accounts : ProgramAccounts) (order : List Pubkey)
  /-- the next write of the refresh, or its end -/
  | write
  | loadExit
  | tick

structure RefresherLabel where
  now : Time
  event : RefresherEvent

/-- The next write of a refresh, if there is one. -/
def RefreshProgress.next (accounts : TableAccounts) (order : List Pubkey) :
    RefreshProgress → Option RefreshProgress
  | .inserting served =>
      if served < accounts.length then some (.inserting (served + 1)) else some (.retaining 0)
  | .retaining seen => if seen < order.length then some (.retaining (seen + 1)) else none

/-- One step of the thread or of the chain. -/
def refresherStep (deserialize : List UInt8 → Option (List Pubkey)) (refreshDuration : Time)
    (s : Refresher) (label : RefresherLabel) : Option Refresher :=
  if s.now ≤ label.now then
    match label.event, s.phase with
    | .publish accounts, _ =>
        some { s with now := label.now, versions := (label.now, accounts) :: s.versions }
    | .setExit, _ => some { s with now := label.now, exit := true }
    | .answer none _, .fetching _ =>
        some
          { s with
            now := label.now
            phase := .looping label.now label.now
            failed := s.failed + 1 }
    | .answer (some accounts) order, .fetching began =>
        -- `retain` comes to every key that is in the map
        if ∀ key ∈ s.keys, key ∈ order then
          some { s with now := label.now, phase := .writing began accounts order (.inserting 0) }
        else none
    | .write, .writing began accounts order progress =>
        match progress.next accounts order with
        | some progress =>
            some { s with now := label.now, phase := .writing began accounts order progress }
        | none =>
            some
              { s with
                now := label.now
                phase := .looping label.now label.now
                settled := cacheDuring deserialize s.settled accounts order progress
                keys := (accounts.foldl (insertTable deserialize) (s.settled, [])).2
                seeded := true
                asked := began
                failed := 0 }
    | .loadExit, .looping lastRefresh since =>
        some
          { s with
            now := label.now
            phase := if s.exit then .stopped else .waiting lastRefresh since }
    | .tick, .waiting lastRefresh _ =>
        some
          { s with
            now := label.now
            phase :=
              if label.now - lastRefresh < refreshDuration then .looping lastRefresh label.now
              else .fetching label.now }
    | _, _ => none
  else none

/-! ## What a step does -/

/-- The steps, by what they do. -/
inductive RefresherMove (deserialize : List UInt8 → Option (List Pubkey)) (refreshDuration : Time)
    (s : Refresher) (now : Time) : RefresherEvent → Refresher → Prop where
  | publish (accounts : TableAccounts) :
      RefresherMove deserialize refreshDuration s now (.publish accounts)
        { s with now, versions := (now, accounts) :: s.versions }
  | setExit : RefresherMove deserialize refreshDuration s now .setExit { s with now, exit := true }
  | fails {began : Time} {order : List Pubkey} (hphase : s.phase = .fetching began) :
      RefresherMove deserialize refreshDuration s now (.answer none order)
        { s with now, phase := .looping now now, failed := s.failed + 1 }
  | answers {began : Time} {accounts : TableAccounts} {order : List Pubkey}
      (hphase : s.phase = .fetching began) (horder : ∀ key ∈ s.keys, key ∈ order) :
      RefresherMove deserialize refreshDuration s now (.answer (some accounts) order)
        { s with now, phase := .writing began accounts order (.inserting 0) }
  | writes {began : Time} {accounts : TableAccounts} {order : List Pubkey}
      {progress progress' : RefreshProgress} (hphase : s.phase = .writing began accounts order progress) :
      RefresherMove deserialize refreshDuration s now .write
        { s with now, phase := .writing began accounts order progress' }
  | settles {began : Time} {accounts : TableAccounts} {order : List Pubkey} {seen : Nat}
      (hphase : s.phase = .writing began accounts order (.retaining seen))
      (hseen : order.length ≤ seen) :
      RefresherMove deserialize refreshDuration s now .write
        { s with
          now
          phase := .looping now now
          settled := cacheDuring deserialize s.settled accounts order (.retaining seen)
          keys := (accounts.foldl (insertTable deserialize) (s.settled, [])).2
          seeded := true
          asked := began
          failed := 0 }
  | exits {lastRefresh since : Time} (hphase : s.phase = .looping lastRefresh since) :
      RefresherMove deserialize refreshDuration s now .loadExit { s with now, phase := .stopped }
  | waits {lastRefresh since : Time} (hphase : s.phase = .looping lastRefresh since) :
      RefresherMove deserialize refreshDuration s now .loadExit
        { s with now, phase := .waiting lastRefresh since }
  | early {lastRefresh since : Time} (hphase : s.phase = .waiting lastRefresh since)
      (hearly : now - lastRefresh < refreshDuration) :
      RefresherMove deserialize refreshDuration s now .tick
        { s with now, phase := .looping lastRefresh now }
  | begins {lastRefresh since : Time} (hphase : s.phase = .waiting lastRefresh since) :
      RefresherMove deserialize refreshDuration s now .tick { s with now, phase := .fetching now }

section Steps

variable {deserialize : List UInt8 → Option (List Pubkey)} {refreshDuration : Time}
  {s s' : Refresher} {now : Time} {event : RefresherEvent}

theorem RefreshProgress.next_eq_none {accounts : TableAccounts} {order : List Pubkey}
    {progress : RefreshProgress} (h : progress.next accounts order = none) :
    ∃ seen, progress = .retaining seen ∧ order.length ≤ seen := by
  cases progress with
  | inserting served =>
    simp only [RefreshProgress.next] at h
    split at h <;> cases h
  | retaining seen =>
    simp only [RefreshProgress.next] at h
    split at h
    · cases h
    · next hseen => exact ⟨seen, rfl, Nat.le_of_not_lt hseen⟩

theorem move_of_refresherStep {label : RefresherLabel}
    (h : refresherStep deserialize refreshDuration s label = some s') :
    s.now ≤ label.now ∧ RefresherMove deserialize refreshDuration s label.now label.event s' := by
  obtain ⟨now, event⟩ := label
  simp only [refresherStep, Option.ite_none_right_eq_some] at h
  obtain ⟨hnow, h⟩ := h
  refine ⟨hnow, ?_⟩
  split at h
  · cases h
    exact .publish _
  · cases h
    exact .setExit
  · next hphase =>
    cases h
    exact .fails hphase
  · next hphase =>
    rw [Option.ite_none_right_eq_some, Option.some.injEq] at h
    obtain ⟨horder, rfl⟩ := h
    exact .answers hphase horder
  · next hphase =>
    split at h
    · cases h
      exact .writes hphase
    · next hnext =>
      obtain ⟨seen, rfl, hseen⟩ := RefreshProgress.next_eq_none hnext
      cases h
      exact .settles hphase hseen
  · next hphase =>
    cases h
    split
    · exact .exits hphase
    · exact .waits hphase
  · next hphase =>
    cases h
    split
    · next hearly => exact .early hphase hearly
    · exact .begins hphase
  · cases h

end Steps

/-! ## The pace of the thread -/

/-- How the thread is held up: a `recv` returns within `tick` of the head of the loop, a
refresh is over within `answer`, and at most `failures` in a row fail. -/
structure RefresherPace where
  refreshDuration : Time
  tick : Time
  answer : Time
  failures : Nat

/-- Between two refreshes the thread rests `refresh_duration` and up to the next tick. -/
def RefresherPace.toPace (pace : RefresherPace) : Pace where
  rest := pace.refreshDuration + pace.tick
  answer := pace.answer
  failures := pace.failures

/-- By when the thread moves on; a thread that has stopped does not. -/
def RefresherPhase.deadline (pace : RefresherPace) : RefresherPhase → Option Time
  | .fetching began => some (began + pace.answer)
  | .writing began _ _ _ => some (began + pace.answer)
  | .looping _ since => some (since + pace.tick)
  | .waiting _ since => some (since + pace.tick)
  | .stopped => none

/-- When the refresh that waits for its answer began. -/
def RefresherPhase.asking : RefresherPhase → Option Time
  | .fetching began => some began
  | _ => none

def RefresherEvent.published : RefresherEvent → Option TableAccounts
  | .publish accounts => some accounts
  | _ => none

def RefresherEvent.answered : RefresherEvent → Option ProgramAccounts
  | .answer accounts _ => some accounts
  | _ => none

/-- The thread is on time; an address has one account; and the RPC server answers with the
accounts at some time since it was asked, or fails, but not too often. -/
def KeepsPace (pace : RefresherPace) (s : Refresher) (label : RefresherLabel) : Prop :=
  (∃ deadline ∈ s.phase.deadline pace, label.now ≤ deadline) ∧
    (∀ accounts ∈ label.event.published, (accounts.map Prod.fst).Nodup) ∧
    (label.event.answered = some none → s.failed < pace.failures) ∧
    ∀ answer ∈ label.event.answered, ∀ accounts ∈ answer, ∀ began ∈ s.phase.asking,
      accounts ∈ inForceSince began s.versions

instance (pace : RefresherPace) (s : Refresher) (label : RefresherLabel) :
    Decidable (KeepsPace pace s label) :=
  inferInstanceAs (Decidable ((∃ deadline ∈ s.phase.deadline pace, _) ∧
    (∀ accounts ∈ label.event.published, _) ∧ (_ → _) ∧
    ∀ answer ∈ label.event.answered, ∀ accounts ∈ answer, ∀ began ∈ s.phase.asking, _))

/-! ## The map is a copy of the chain -/

/-- The map holds the tables of these accounts. -/
def HoldsTables (deserialize : List UInt8 → Option (List Pubkey)) (lookupTable : LookupTableCache)
    (accounts : TableAccounts) : Prop :=
  ∀ key, lookupTable key = lastOf (loadedTables deserialize accounts) key

/-- What the thread is at: a refresh, or the wait for the next one. -/
def RefresherPhase.turn : RefresherPhase → Turn
  | .fetching began => .asking began
  | .writing began _ _ _ => .asking began
  | .looping lastRefresh _ => .resting lastRefresh
  | .waiting lastRefresh _ => .resting lastRefresh
  | .stopped => .stopped

/-- A refresh in progress began after the last one that succeeded, and writes what was on
chain since it began; a thread that waits has found `refresh_duration` not over yet. -/
def RefresherPhase.Sound (pace : RefresherPace) (s : Refresher) : RefresherPhase → Prop
  | .fetching began => began ≤ s.now ∧ s.asked ≤ began
  | .writing began accounts order _ =>
      (began ≤ s.now ∧ s.asked ≤ began) ∧
        accounts ∈ inForceSince began s.versions ∧ ∀ key ∈ s.keys, key ∈ order
  | .looping lastRefresh since => since ≤ lastRefresh + pace.refreshDuration
  | .waiting lastRefresh since => since ≤ lastRefresh + pace.refreshDuration
  | .stopped => True

/-- What holds in every state. -/
structure RefresherInv (deserialize : List UInt8 → Option (List Pubkey)) (pace : RefresherPace)
    (start : Time) (s : Refresher) : Prop where
  distinct : ∀ accounts ∈ s.versions.map Prod.snd, (accounts.map Prod.fst).Nodup
  keys : ∀ key, s.settled key ≠ none → key ∈ s.keys
  sound : s.phase.Sound pace s
  asked_le : s.asked ≤ s.now
  unseeded : s.seeded = false → s.asked = start
  copied : s.seeded = true →
    ∃ accounts ∈ inForceSince s.asked s.versions, HoldsTables deserialize s.settled accounts
  kept : pace.toPace.Kept s.asked s.failed s.now s.phase.turn

section Invariant

variable {deserialize : List UInt8 → Option (List Pubkey)} {pace : RefresherPace}
  {start : Time} {s s' : Refresher} {now : Time}

theorem refresherInv_init {accounts : TableAccounts}
    (haccounts : (accounts.map Prod.fst).Nodup) :
    RefresherInv deserialize pace start (Refresher.init start accounts) where
  distinct := by
    intro version hmem
    cases List.mem_singleton.mp hmem
    exact haccounts
  keys := by
    intro key h
    cases h rfl
  sound := ⟨Nat.le_refl _, Nat.le_refl _⟩
  asked_le := Nat.le_refl _
  unseeded := fun _ => rfl
  copied := by
    intro h
    cases h
  kept := Pace.kept_start start

/-- A wait that is on time ends before the next refresh is overdue. -/
theorem tick_le_rest {lastRefresh since : Time}
    (hsince : since ≤ lastRefresh + pace.refreshDuration) (hnow : now ≤ since + pace.tick) :
    now ≤ lastRefresh + pace.toPace.rest :=
  calc now ≤ since + pace.tick := hnow
    _ ≤ lastRefresh + pace.refreshDuration + pace.tick := Nat.add_le_add_right hsince _
    _ = lastRefresh + pace.toPace.rest := Nat.add_assoc _ _ _

/-- A thread that keeps the deadline of its phase keeps the one of its turn. -/
theorem RefresherPhase.Sound.in_time {phase : RefresherPhase} {deadline : Time}
    (h : phase.Sound pace s) (hdeadline : phase.deadline pace = some deadline)
    (hnow : now ≤ deadline) : ∃ turnDeadline,
      phase.turn.deadline pace.toPace = some turnDeadline ∧ now ≤ turnDeadline := by
  cases phase with
  | fetching began =>
    cases hdeadline
    exact ⟨_, rfl, hnow⟩
  | writing began accounts order progress =>
    cases hdeadline
    exact ⟨_, rfl, hnow⟩
  | looping lastRefresh since =>
    cases hdeadline
    exact ⟨_, rfl, tick_le_rest h hnow⟩
  | waiting lastRefresh since =>
    cases hdeadline
    exact ⟨_, rfl, tick_le_rest h hnow⟩
  | stopped => cases hdeadline

/-- A phase stays sound as time goes on and versions are added. -/
theorem RefresherPhase.Sound.later {phase : RefresherPhase} (h : phase.Sound pace s)
    (hnow : s.now ≤ s'.now) (hasked : s'.asked = s.asked) (hkeys : s'.keys = s.keys)
    (hversions : ∀ since, since ≤ s.now →
      inForceSince since s.versions ⊆ inForceSince since s'.versions) : phase.Sound pace s' := by
  cases phase with
  | fetching began =>
    obtain ⟨hbegan, hlater⟩ := h
    rw [← hasked] at hlater
    exact ⟨Nat.le_trans hbegan hnow, hlater⟩
  | writing began accounts order progress =>
    obtain ⟨⟨hbegan, hlater⟩, hmem, horder⟩ := h
    rw [← hasked] at hlater
    rw [← hkeys] at horder
    exact ⟨⟨Nat.le_trans hbegan hnow, hlater⟩, hversions began hbegan hmem, horder⟩
  | _ => exact h

/-- The chain changes, and the thread stays where it is. -/
theorem RefresherInv.publish (h : RefresherInv deserialize pace start s) (hnow : s.now ≤ now)
    (hkept : pace.toPace.Kept s.asked s.failed now s.phase.turn) {accounts : TableAccounts}
    (haccounts : (accounts.map Prod.fst).Nodup) :
    RefresherInv deserialize pace start { s with now, versions := (now, accounts) :: s.versions } := by
  have hversions : ∀ since, since ≤ s.now →
      inForceSince since s.versions ⊆ inForceSince since ((now, accounts) :: s.versions) :=
    fun since hsince => inForceSince_subset_cons (Nat.le_trans hsince hnow)
  refine ⟨?_, h.keys, h.sound.later hnow rfl rfl hversions, Nat.le_trans h.asked_le hnow,
    h.unseeded, ?_, hkept⟩
  · intro version hmem
    rcases List.mem_cons.mp hmem with rfl | hold
    · exact haccounts
    · exact h.distinct version hold
  · intro hseeded
    obtain ⟨copy, hcopy, hholds⟩ := h.copied hseeded
    exact ⟨copy, hversions s.asked h.asked_le hcopy, hholds⟩

/-- The thread goes on to another phase, and the map and the chain stay as they are. -/
theorem RefresherInv.goesOn (h : RefresherInv deserialize pace start s) (hnow : s.now ≤ now)
    {exit : Bool} {phase : RefresherPhase} {failed : Nat}
    (hsound : phase.Sound pace { s with now, exit, phase, failed })
    (hkept : pace.toPace.Kept s.asked failed now phase.turn) :
    RefresherInv deserialize pace start { s with now, exit, phase, failed } :=
  { h with sound := hsound, asked_le := Nat.le_trans h.asked_le hnow, kept := hkept }

/-- The map after the last write of a refresh. -/
theorem holdsTables_settled {accounts : TableAccounts} {order : List Pubkey} {seen : Nat}
    (hkeys : ∀ key, s.settled key ≠ none → key ∈ s.keys) (horder : ∀ key ∈ s.keys, key ∈ order)
    (hseen : order.length ≤ seen) :
    HoldsTables deserialize (cacheDuring deserialize s.settled accounts order (.retaining seen))
      accounts := by
  intro key
  rw [cacheDuring_retaining, List.take_of_length_le hseen]
  cases hlast : lastOf (loadedTables deserialize accounts) key with
  | some table => simp
  | none =>
    by_cases hcached : s.settled key = none
    · simp [hcached]
    · simp [horder key (hkeys key hcached)]

/-- A refresh is through: the map is a copy of what was on chain since it began. -/
theorem RefresherInv.settles (h : RefresherInv deserialize pace start s) (hnow : s.now ≤ now)
    {began : Time} {accounts : TableAccounts} {order : List Pubkey} {seen : Nat}
    (hphase : s.phase = .writing began accounts order (.retaining seen))
    (hseen : order.length ≤ seen) (hintime : now ≤ began + pace.answer) :
    RefresherInv deserialize pace start
      { s with
        now
        phase := .looping now now
        settled := cacheDuring deserialize s.settled accounts order (.retaining seen)
        keys := (accounts.foldl (insertTable deserialize) (s.settled, [])).2
        seeded := true
        asked := began
        failed := 0 } := by
  have hsound := h.sound
  rw [hphase] at hsound
  obtain ⟨⟨hbegan, -⟩, hmem, horder⟩ := hsound
  have hholds : HoldsTables deserialize
      (cacheDuring deserialize s.settled accounts order (.retaining seen)) accounts :=
    holdsTables_settled h.keys horder hseen
  refine ⟨h.distinct, ?_, Nat.le_add_right _ _, Nat.le_trans hbegan hnow, ?_,
    fun _ => ⟨accounts, hmem, hholds⟩, Pace.kept_copied hintime⟩
  · intro key hkey
    exact (mem_newPubkeys_iff accounts key).mpr ((hholds key) ▸ hkey)
  · intro hunseeded
    cases hunseeded

theorem refresherInv_step {label : RefresherLabel} (h : RefresherInv deserialize pace start s)
    (hcond : KeepsPace pace s label)
    (hstep : refresherStep deserialize pace.refreshDuration s label = some s') :
    RefresherInv deserialize pace start s' := by
  obtain ⟨now, event⟩ := label
  obtain ⟨⟨deadline, hdeadline, hintime⟩, hpublished, hfails, hanswers⟩ := hcond
  obtain ⟨hnow, hmove⟩ := move_of_refresherStep hstep
  obtain ⟨turnDeadline, hturn, hturnTime⟩ := h.sound.in_time hdeadline hintime
  have hkept := h.kept.later hturn hturnTime
  have hsound := h.sound
  cases hmove with
  | publish accounts => exact h.publish hnow hkept (hpublished accounts rfl)
  | setExit =>
    exact h.goesOn hnow (hsound.later hnow rfl rfl fun _ _ => List.Subset.refl _) hkept
  | fails hphase =>
    rw [hphase] at hkept hdeadline
    cases hdeadline
    exact h.goesOn hnow (Nat.le_add_right _ _) (hkept.fails hintime (hfails rfl))
  | @answers began accounts order hphase horder =>
    rw [hphase] at hsound hkept
    refine h.goesOn hnow ⟨⟨Nat.le_trans hsound.1 hnow, hsound.2⟩, ?_, horder⟩ hkept
    exact hanswers _ rfl accounts rfl began (by rw [hphase]; rfl)
  | writes hphase =>
    rw [hphase] at hsound hkept
    obtain ⟨⟨hbegan, hlater⟩, hmem, horder⟩ := hsound
    exact h.goesOn hnow ⟨⟨Nat.le_trans hbegan hnow, hlater⟩, hmem, horder⟩ hkept
  | settles hphase hseen =>
    rw [hphase] at hdeadline
    cases hdeadline
    exact h.settles hnow hphase hseen hintime
  | exits hphase => exact h.goesOn hnow trivial hkept.stops
  | waits hphase =>
    rw [hphase] at hsound hkept
    exact h.goesOn hnow hsound hkept
  | early hphase hearly =>
    rw [hphase] at hkept
    exact h.goesOn hnow (Nat.sub_le_iff_le_add'.mp (Nat.le_of_lt hearly)) hkept
  | begins hphase =>
    rw [hphase] at hkept hturn
    cases hturn
    exact h.goesOn hnow ⟨Nat.le_refl _, Nat.le_trans h.asked_le hnow⟩ (hkept.asks hturnTime)

end Invariant

/-! ## What the map shows -/

/-- The address at a position of the table of `key`. -/
def addressAt (deserialize : List UInt8 → Option (List Pubkey)) (accounts : TableAccounts)
    (key : Pubkey) (idx : Nat) : Option Pubkey :=
  (lastOf (loadedTables deserialize accounts) key).bind fun table => table.addresses[idx]?

section Shown

variable {deserialize : List UInt8 → Option (List Pubkey)} {pace : RefresherPace} {start : Time}
  {s : Refresher} {key : Pubkey} {idx : Nat} {account : Pubkey} {accounts : TableAccounts}
  {table : AddressLookupTableAccount}

/-- Where an address has one account, its table is the one that is listed. -/
theorem lastOf_of_mem_loadedTables (hdistinct : (accounts.map Prod.fst).Nodup)
    (hmem : (key, table) ∈ loadedTables deserialize accounts) :
    lastOf (loadedTables deserialize accounts) key = some table := by
  refine (lastOf_eq_some_iff_mem ?_).mpr hmem
  intro first second hfirst hsecond
  obtain ⟨a, ha, addresses, haddresses, hkey, rfl⟩ := mem_loadedTables.mp hfirst
  obtain ⟨b, hb, others, hothers, hkey', rfl⟩ := mem_loadedTables.mp hsecond
  have hsame : a = b := List.inj_on_of_nodup_map hdistinct ha hb (hkey.trans hkey'.symm)
  rw [hsame, hothers] at haddresses
  cases haddresses
  rfl

/-- What the map holds in the middle of a refresh was there before or is in the answer. -/
theorem cacheDuring_eq_some {cache : LookupTableCache} {order : List Pubkey}
    {progress : RefreshProgress}
    (h : cacheDuring deserialize cache accounts order progress key = some table) :
    cache key = some table ∨ (key, table) ∈ loadedTables deserialize accounts := by
  have hcases : ∀ {front : TableAccounts}, List.Sublist front accounts →
      (lastOf (loadedTables deserialize front) key).or (cache key) = some table →
      cache key = some table ∨ (key, table) ∈ loadedTables deserialize accounts := by
    intro front hfront hor
    rcases Option.or_eq_some_iff.mp hor with hlast | ⟨-, hold⟩
    · exact .inr ((hfront.filterMap _).subset (mem_of_lastOf hlast))
    · exact .inl hold
  cases progress with
  | inserting served =>
    change ((accounts.take served).foldl (insertTable deserialize) (cache, [])).1 key = _ at h
    rw [cache_foldl_insertTable] at h
    exact hcases (List.take_sublist served accounts) h
  | retaining seen =>
    rw [cacheDuring_retaining] at h
    split at h
    · cases h
    · exact hcases (List.Sublist.refl _) h

/-- The map while a refresh writes it, and otherwise. -/
theorem lookupTable_cases (s : Refresher) :
    (∃ began accounts order progress, s.phase = .writing began accounts order progress ∧
        s.lookupTable deserialize = cacheDuring deserialize s.settled accounts order progress) ∨
      s.lookupTable deserialize = s.settled := by
  cases hphase : s.phase with
  | writing began accounts order progress =>
    exact .inl ⟨began, accounts, order, progress, rfl, by rw [Refresher.lookupTable, hphase]⟩
  | _ => exact .inr (by rw [Refresher.lookupTable, hphase])

/-- What has been on chain at every time since the last refresh that succeeded began is in
the map, also in the middle of the next refresh. -/
theorem RefresherInv.shows (h : RefresherInv deserialize pace start s) (hseeded : s.seeded = true)
    (hall : ∀ accounts ∈ inForceSince s.asked s.versions,
      addressAt deserialize accounts key idx = some account) :
    ∃ table, s.lookupTable deserialize key = some table ∧ table.addresses[idx]? = some account := by
  obtain ⟨copy, hcopy, hholds⟩ := h.copied hseeded
  obtain ⟨old, hold, haccount⟩ := Option.bind_eq_some_iff.mp (hall copy hcopy)
  rw [← hholds key] at hold
  rcases lookupTable_cases s with ⟨began, accounts, order, progress, hphase, heq⟩ | heq
  · have hsound := h.sound
    rw [hphase] at hsound
    obtain ⟨⟨-, hlater⟩, hmem, -⟩ := hsound
    have hmem' : accounts ∈ inForceSince s.asked s.versions := inForceSince_anti hlater hmem
    obtain ⟨new, hnew, -⟩ := Option.bind_eq_some_iff.mp (hall accounts hmem')
    obtain ⟨table, htable, rfl | hlisted⟩ := cacheDuring_gapless hold
      ((refreshAddressLookupTable_some accounts key).trans hnew) order progress
    · exact ⟨table, heq ▸ htable, haccount⟩
    · have hlast : lastOf (loadedTables deserialize accounts) key = some table :=
        lastOf_of_mem_loadedTables (h.distinct accounts (mem_of_mem_inForceSince hmem)) hlisted
      have haddress := hall accounts hmem'
      rw [addressAt, hlast] at haddress
      exact ⟨table, heq ▸ htable, haddress⟩
  · exact ⟨old, heq ▸ hold, haccount⟩

/-- What is in the map has been on chain since the last refresh that succeeded began. -/
theorem RefresherInv.shown (h : RefresherInv deserialize pace start s) (hseeded : s.seeded = true)
    (htable : s.lookupTable deserialize key = some table) :
    ∃ accounts ∈ inForceSince s.asked s.versions,
      lastOf (loadedTables deserialize accounts) key = some table := by
  obtain ⟨copy, hcopy, hholds⟩ := h.copied hseeded
  have hsettled : s.settled key = some table → ∃ accounts ∈ inForceSince s.asked s.versions,
      lastOf (loadedTables deserialize accounts) key = some table :=
    fun hold => ⟨copy, hcopy, (hholds key).symm.trans hold⟩
  rcases lookupTable_cases s with ⟨began, accounts, order, progress, hphase, heq⟩ | heq
  · have hsound := h.sound
    rw [hphase] at hsound
    obtain ⟨⟨-, hlater⟩, hmem, -⟩ := hsound
    rcases cacheDuring_eq_some (heq ▸ htable) with hold | hlisted
    · exact hsettled hold
    · exact ⟨accounts, inForceSince_anti hlater hmem,
        lastOf_of_mem_loadedTables (h.distinct accounts (mem_of_mem_inForceSince hmem)) hlisted⟩
  · exact hsettled (heq ▸ htable)

end Shown

/-! ## The filters -/

/-- Time goes on, and what was on chain stays on record. -/
structure Refresher.Later (s s' : Refresher) : Prop where
  now_le : s.now ≤ s'.now
  versions : ∀ since, since ≤ s.now →
    inForceSince since s.versions ⊆ inForceSince since s'.versions

/-- What a filter finds that looks its keys up one by one, each at some time during `ls`. -/
def SeenDuring (deserialize : List UInt8 → Option (List Pubkey)) (refreshDuration : Time)
    (s : Refresher) (ls : List RefresherLabel) (view : LookupTableCache) : Prop :=
  ∀ key, ∃ front back between, ls = front ++ back ∧
    runSteps (refresherStep deserialize refreshDuration) s front = some between ∧
    view key = between.lookupTable deserialize key

/-- A static key is on the list, or a position of a table that satisfies `held` is. -/
def MentionsBy (ofacAddresses : Finset Pubkey) (tx : VersionedTransaction)
    (held : Pubkey → Nat → Pubkey → Prop) : Prop :=
  (∃ acc ∈ tx.message.staticAccountKeys, acc ∈ ofacAddresses) ∨
    ∃ table ∈ tx.message.addressTableLookups.getD [],
      ∃ idx ∈ table.writableIndexes ++ table.readonlyIndexes, ∃ account ∈ ofacAddresses,
        held table.accountKey idx.toNat account

/-- The mention has stood on chain at every time since. -/
def MentionedSince (deserialize : List UInt8 → Option (List Pubkey)) (ofacAddresses : Finset Pubkey)
    (versions : List (Time × TableAccounts)) (since : Time) (tx : VersionedTransaction) : Prop :=
  MentionsBy ofacAddresses tx fun key idx account =>
    ∀ accounts ∈ inForceSince since versions, addressAt deserialize accounts key idx = some account

/-- The mention has stood on chain at some time since. -/
def MentionedWithin (deserialize : List UInt8 → Option (List Pubkey))
    (ofacAddresses : Finset Pubkey) (versions : List (Time × TableAccounts)) (since : Time)
    (tx : VersionedTransaction) : Prop :=
  MentionsBy ofacAddresses tx fun key idx account =>
    ∃ accounts ∈ inForceSince since versions, addressAt deserialize accounts key idx = some account

section Filters

variable {deserialize : List UInt8 → Option (List Pubkey)} {refreshDuration : Time}
  {pace : RefresherPace} {start since : Time} {s s' : Refresher} {ls : List RefresherLabel}

theorem Refresher.Later.refl (s : Refresher) : s.Later s :=
  ⟨Nat.le_refl _, fun _ _ => List.Subset.refl _⟩

theorem later_step {s₀ : Refresher} {label : RefresherLabel} (h : s₀.Later s)
    (hstep : refresherStep deserialize refreshDuration s label = some s') : s₀.Later s' := by
  obtain ⟨now, event⟩ := label
  obtain ⟨hnow, hmove⟩ := move_of_refresherStep hstep
  have hnow' : s₀.now ≤ now := Nat.le_trans h.now_le hnow
  cases hmove with
  | publish accounts =>
    refine ⟨hnow', fun since hsince => ?_⟩
    exact List.Subset.trans (h.versions since hsince)
      (inForceSince_subset_cons (Nat.le_trans hsince hnow'))
  | _ => exact ⟨hnow', h.versions⟩

theorem later_run (hrun : runSteps (refresherStep deserialize refreshDuration) s ls = some s') :
    s.Later s' :=
  runSteps_invariant s.Later (fun _ _ _ h hstep => later_step h hstep) ls (Refresher.Later.refl s)
    hrun

/-- What a filter finds in the map at some time during `ls`: every address that has stood on
chain for the staleness, and none that has not stood there since. -/
theorem RefresherInv.seen (h : RefresherInv deserialize pace start s)
    (hcond : StepsMeet (refresherStep deserialize pace.refreshDuration) (KeepsPace pace) s ls)
    (hrun : runSteps (refresherStep deserialize pace.refreshDuration) s ls = some s')
    {view : LookupTableCache}
    (hview : SeenDuring deserialize pace.refreshDuration s ls view)
    (hstart : start < since) (hsince : since + pace.toPace.staleness ≤ s.now) (key : Pubkey)
    (idx : Nat) (account : Pubkey) :
    ((∀ accounts ∈ inForceSince since s'.versions,
        addressAt deserialize accounts key idx = some account) →
      ∃ table, view key = some table ∧ table.addresses[idx]? = some account) ∧
    ∀ table, view key = some table → table.addresses[idx]? = some account →
      ∃ accounts ∈ inForceSince since s'.versions,
        addressAt deserialize accounts key idx = some account := by
  obtain ⟨front, back, between, rfl, hfront, hkey⟩ := hview key
  obtain ⟨hcondFront, -⟩ := stepsMeet_append hcond hfront
  rw [runSteps_append, hfront, Option.bind_some] at hrun
  -- the state in which the key is looked up
  have hinv : RefresherInv deserialize pace start between := runSteps_invariant_of_meets _
    (fun _ _ _ h hcond hstep => refresherInv_step h hcond hstep) front h hcondFront hfront
  have hbefore : s.Later between := later_run hfront
  have hafter : between.Later s' := later_run hrun
  -- its map is not older than `since`, and so it is seeded
  have hfresh : since ≤ between.asked := Nat.le_of_add_le_add_right
    (Nat.le_trans hsince (Nat.le_trans hbefore.now_le hinv.kept.le_staleness))
  have hseeded : between.seeded = true := by
    cases hunseeded : between.seeded with
    | true => rfl
    | false =>
      rw [hinv.unseeded hunseeded] at hfresh
      exact absurd hstart (Nat.not_lt_of_le hfresh)
  have hversions : inForceSince between.asked between.versions ⊆ inForceSince since s'.versions :=
    List.Subset.trans (hafter.versions between.asked hinv.asked_le) (inForceSince_anti hfresh)
  rw [hkey]
  refine ⟨fun hall => hinv.shows hseeded fun accounts hmem => hall accounts (hversions hmem), ?_⟩
  intro table htable haccount
  obtain ⟨accounts, hmem, hlast⟩ := hinv.shown hseeded htable
  refine ⟨accounts, hversions hmem, ?_⟩
  rw [addressAt, hlast]
  exact haccount

end Filters

/-- A refresher that refreshes every two seconds, is held up for one at most, and whose
calls take one and fail once at most. -/
def quickPace : RefresherPace where
  refreshDuration := 2
  tick := 1
  answer := 1
  failures := 1

/-- The table is created right after the map is seeded.  The refresh of second 2 finds it,
the one of second 5 fails, and the one of second 8 finds it again. -/
def refreshRun : List RefresherLabel :=
  [ ⟨0, .answer (some []) []⟩, ⟨0, .write⟩, ⟨0, .write⟩, ⟨0, .loadExit⟩
  , ⟨0, .publish [(uniformKey 2, [])]⟩, ⟨1, .tick⟩, ⟨1, .loadExit⟩, ⟨2, .tick⟩
  , ⟨2, .answer (some [(uniformKey 2, [])]) []⟩, ⟨2, .write⟩, ⟨3, .write⟩, ⟨3, .write⟩
  , ⟨3, .loadExit⟩, ⟨4, .tick⟩, ⟨4, .loadExit⟩, ⟨5, .tick⟩
  , ⟨6, .answer none []⟩, ⟨6, .loadExit⟩, ⟨7, .tick⟩, ⟨7, .loadExit⟩, ⟨8, .tick⟩
  , ⟨9, .answer (some [(uniformKey 2, [])]) [uniformKey 2]⟩, ⟨9, .write⟩, ⟨9, .write⟩
  , ⟨9, .write⟩, ⟨9, .write⟩, ⟨9, .loadExit⟩, ⟨10, .tick⟩ ]

/-- The next refresh is in the middle of its writes. -/
def refreshTail : List RefresherLabel :=
  [ ⟨10, .loadExit⟩, ⟨11, .tick⟩
  , ⟨12, .answer (some [(uniformKey 2, [])]) [uniformKey 2]⟩, ⟨12, .write⟩ ]

end FlowraRelayer.TransactionRelayer
