/-
  Relayer/ChallengeLifetime.lean --- how long a challenge can be redeemed.

  `generate_auth_tokens` does not look at the expiry of the challenge it validates; an
  expired challenge is gone only once `start_challenge_expiration_task` has swept it.  So
  its real lifetime is the configured one and whatever passes until the next sweep.

  Here the auth service runs with a clock: a step reads the time between its beginning and
  its end, and the sweeps come at least every `interval`.  A handler may take its time
  between making a challenge and storing it, but not longer than the challenge lives.
  `redeemable_until_swept` is the bound: no challenge is in the store, and none is redeemed,
  later than `interval` after its expiry.
-/
import FlowraRelayer.Relayer.ChallengeStore

set_option autoImplicit false

namespace FlowraRelayer.Relayer

open FlowraRelayer.Foundation
open FlowraRelayer.Solana

variable {Ip : Type}

/-! ## A clock for the auth service -/

/-- The auth service with a clock. -/
structure ClockedAuth (Ip : Type) where
  services : AuthState Ip
  clock : Int
  /-- when the last sweep began; before the first one, the start -/
  sweptAt : Int

def ClockedAuth.init (start : Int) (health : HealthState) (auther : Pubkey → Bool) :
    ClockedAuth Ip where
  services := AuthState.init health auther
  clock := start
  sweptAt := start

/-- A step, with the times at which it begins and at which it is over. -/
structure ClockedLabel (Ip : Type) where
  began : Int
  now : Int
  label : AuthLabel Ip

def AuthLabel.sweeps : AuthLabel Ip → Bool
  | .sweep _ => true
  | _ => false

/-- A step of the auth service, which begins after the step before and reads the clock
between its beginning and its end. -/
def clockedStep [DecidableEq Ip] (env : AuthEnv Ip)
    (decode : List UInt8 → Option VersionedTransaction) (cfg : LoopConfig) (s : ClockedAuth Ip)
    (label : ClockedLabel Ip) : Option (ClockedAuth Ip) :=
  if s.clock ≤ label.began ∧ label.began ≤ label.now ∧
      ∀ reading ∈ label.label.readings, label.began ≤ reading ∧ reading ≤ label.now then
    (authStep env decode cfg s.services label.label).map fun services =>
      { services
        clock := label.now
        sweptAt := if label.label.sweeps then label.began else s.sweptAt }
  else none

/-- The request that stores its challenge in a step. -/
def AuthLabel.pusher : AuthLabel Ip → Option Nat
  | .challengePush id => some id
  | _ => none

/-- The challenge a request is about to store. -/
def Call.madeChallenge : Call Ip → Option (AuthChallenge Ip)
  | .challengePush pending => some pending.challenge
  | _ => none

/-- A step is over before the next sweep is overdue, and a challenge has time left when it
is stored. -/
def SweptEvery [DecidableEq Ip] (interval : Nat) (s : ClockedAuth Ip) (label : ClockedLabel Ip) :
    Prop :=
  label.now ≤ s.sweptAt + interval ∧
    ∀ id ∈ label.label.pusher, ∀ challenge ∈ (s.services.calls.lookup id).bind Call.madeChallenge,
      challenge.isExpired label.began = false

instance [DecidableEq Ip] (interval : Nat) (s : ClockedAuth Ip) (label : ClockedLabel Ip) :
    Decidable (SweptEvery interval s label) :=
  inferInstanceAs (Decidable (_ ∧ ∀ id ∈ label.label.pusher,
    ∀ challenge ∈ (s.services.calls.lookup id).bind Call.madeChallenge, _))

/-! ## The bound -/

/-- A redemption that read its challenge in time. -/
def RedeemedBy (env : AuthEnv Ip) (interval : Nat) (history : List (AuthEvent Ip))
    (redemption : Redemption Ip) : Prop :=
  ∃ record, history[redemption.push]? = some (.pushed record) ∧ redemption.ip = record.ip ∧
    redemption.now < record.clock.challenge + env.challengeTtl + interval

/-- How long challenges last. -/
structure LifetimesBounded [DecidableEq Ip] (env : AuthEnv Ip) (interval : Nat)
    (s : ClockedAuth Ip) : Prop where
  /-- what the store holds expired less than `interval` ago, if at all -/
  stored : ∀ ip entry, s.services.challenges.lookup ip = some entry →
    s.clock < entry.challenge.expiresAtUtc + interval
  /-- and a challenge is redeemed within its lifetime and one interval after it was made -/
  redeemed : ∀ redemption, .redeemed redemption ∈ s.services.history →
    RedeemedBy env interval s.services.history redemption

/-- What holds in every state. -/
structure LifetimeInv [DecidableEq Ip] (env : AuthEnv Ip) (interval : Nat) (s : ClockedAuth Ip) :
    Prop where
  auth : AuthInv env s.services
  swept : s.sweptAt ≤ s.clock ∧ s.clock ≤ s.sweptAt + interval
  stored : ∀ ip entry, s.services.challenges.lookup ip = some entry →
    s.sweptAt < entry.challenge.expiresAtUtc
  redeemed : ∀ redemption, .redeemed redemption ∈ s.services.history →
    RedeemedBy env interval s.services.history redemption

section Steps

variable [DecidableEq Ip] {env : AuthEnv Ip} {decode : List UInt8 → Option VersionedTransaction}
  {cfg : LoopConfig} {interval : Nat} {s s' : ClockedAuth Ip} {services : AuthState Ip} {began : Int}
  {label : AuthLabel Ip}

theorem lifetimeInv_init (start : Int) (health : HealthState) (auther : Pubkey → Bool) :
    LifetimeInv env interval (ClockedAuth.init start health auther : ClockedAuth Ip) where
  auth := AuthInv.init health auther
  swept := ⟨Int.le_refl _, Int.le_add_of_nonneg_right (Int.natCast_nonneg _)⟩
  stored := by
    intro ip entry h
    cases h
  redeemed := by
    intro redemption h
    cases h

/-- What the store holds after a step other than a sweep was there before, or is pushed with
time left. -/
theorem stored_move (hmove : Move env decode cfg s.services label services)
    (hpush : ∀ id ∈ label.pusher, ∀ challenge ∈ (s.services.calls.lookup id).bind
      Call.madeChallenge, challenge.isExpired began = false)
    (hlabel : label.sweeps = false) {ip : Ip} {entry : StoredChallenge Ip}
    (hentry : services.challenges.lookup ip = some entry) :
    s.services.challenges.lookup ip = some entry ∨ began < entry.challenge.expiresAtUtc := by
  cases hmove with
  | @pushed id pending hcall =>
    rcases lookup_insert_cases hentry with ⟨-, rfl⟩ | hold
    · have hlive := hpush id rfl pending.challenge (by rw [hcall]; rfl)
      right
      simpa [AuthChallenge.isExpired] using hlive
    · exact .inl hold
  | removed hcall => exact .inl (lookup_erase_cases hentry).2
  | swept hswept => cases hlabel
  | _ => exact .inl hentry

/-- What a sweep leaves had time left when it began. -/
theorem stored_sweep {readings : List (Ip × Int)}
    (hstep : authStep env decode cfg s.services (.sweep readings) = some services)
    (hreadings : ∀ reading ∈ (AuthLabel.sweep readings).readings, began ≤ reading)
    {ip : Ip} {entry : StoredChallenge Ip}
    (hentry : services.challenges.lookup ip = some entry) :
    began < entry.challenge.expiresAtUtc := by
  obtain ⟨challenges, hswept, rfl⟩ := Option.map_eq_some_iff.mp hstep
  obtain ⟨reading, hmem, hlive⟩ :=
    AuthChallenges.unexpired_of_removeAllExpired readings hswept hentry
  have htime : reading.2 < entry.challenge.expiresAtUtc := by
    simpa [AuthChallenge.isExpired] using hlive
  exact Int.lt_of_le_of_lt (hreadings reading.2 (List.mem_map_of_mem hmem)) htime

/-- Whatever the step, what it leaves in the store had time left when the last sweep began. -/
theorem stored_step (h : LifetimeInv env interval s)
    (hstep : authStep env decode cfg s.services label = some services)
    (hclock : s.clock ≤ began) (hreadings : ∀ reading ∈ label.readings, began ≤ reading)
    (hpush : ∀ id ∈ label.pusher, ∀ challenge ∈ (s.services.calls.lookup id).bind
      Call.madeChallenge, challenge.isExpired began = false)
    {ip : Ip} {entry : StoredChallenge Ip}
    (hentry : services.challenges.lookup ip = some entry) :
    (if label.sweeps then began else s.sweptAt) < entry.challenge.expiresAtUtc := by
  cases hlabel : label.sweeps with
  | true =>
    cases label with
    | sweep readings => exact stored_sweep hstep hreadings hentry
    | _ => cases hlabel
  | false =>
    rcases stored_move (move_of_authStep hstep) hpush hlabel hentry with hold | hlive
    · exact h.stored ip entry hold
    · exact Int.lt_of_le_of_lt (Int.le_trans h.swept.1 hclock) hlive

/-- A redemption finds its challenge in the store, where it expired less than an interval
ago. -/
theorem redeemedBy_of_stored (h : LifetimeInv env interval s) {ip : Ip}
    {entry : StoredChallenge Ip} (hstored : s.services.challenges.lookup ip = some entry)
    {redemption : Redemption Ip} (hpush : redemption.push = entry.push)
    (hip : redemption.ip = ip) (hnow : redemption.now ≤ s.sweptAt + interval) :
    RedeemedBy env interval s.services.history redemption := by
  obtain ⟨record, hrecord, rfl, hchallenge⟩ := h.auth.stored ip entry hstored
  refine ⟨record, by rw [hpush]; exact hrecord, hip, ?_⟩
  have hmade : record.Authorized env := h.auth.grounded.justified_at hrecord
  have hexpiry := hmade.made.expires_eq
  have hlive := h.stored record.ip entry hstored
  rw [← hchallenge, hexpiry] at hlive
  omega

/-- What a step writes to the record about redemptions. -/
theorem redeemed_step (h : LifetimeInv env interval s)
    (hmove : Move env decode cfg s.services label services)
    (hreadings : ∀ reading ∈ label.readings, reading ≤ s.sweptAt + interval) :
    ∀ redemption, .redeemed redemption ∈ services.history →
      RedeemedBy env interval services.history redemption := by
  obtain ⟨events, hhistory, hentries⟩ := hmove.entries
  intro redemption hmem
  rw [hhistory] at hmem ⊢
  have hlater : RedeemedBy env interval s.services.history redemption →
      RedeemedBy env interval (s.services.history ++ events) redemption := by
    rintro ⟨record, hpush, hrest⟩
    exact ⟨record, getElem?_append_of_some hpush events, hrest⟩
  apply hlater
  rcases List.mem_append.mp hmem with hold | hnew
  · exact h.redeemed redemption hold
  · cases hentries with
    | quiet hquiet => cases hquiet _ hnew
    | redeemed hcall hstored hchecks =>
      cases List.mem_singleton.mp hnew
      exact redeemedBy_of_stored h hstored rfl rfl (hreadings _ List.mem_cons_self)
    | removed hcall => cases List.mem_singleton.mp hnew
    | refreshed hchecks => simp at hnew
    | accepted hchecks => cases List.mem_singleton.mp hnew

theorem lifetimeInv_step {label : ClockedLabel Ip} (h : LifetimeInv env interval s)
    (hcond : SweptEvery interval s label) (hstep : clockedStep env decode cfg s label = some s') :
    LifetimeInv env interval s' := by
  obtain ⟨hintime, hpush⟩ := hcond
  simp only [clockedStep, Option.ite_none_right_eq_some, Option.map_eq_some_iff] at hstep
  obtain ⟨⟨hclock, hnow, hreadings⟩, services, hauth, rfl⟩ := hstep
  have hmove := move_of_authStep hauth
  have hafter : ∀ reading ∈ label.label.readings, label.began ≤ reading :=
    fun reading hmem => (hreadings reading hmem).1
  have hbefore : ∀ reading ∈ label.label.readings, reading ≤ s.sweptAt + interval :=
    fun reading hmem => Int.le_trans (hreadings reading hmem).2 hintime
  refine ⟨h.auth.move hmove, ?_, fun ip entry => stored_step h hauth hclock hafter hpush,
    redeemed_step h hmove hbefore⟩
  -- a sweep that begins now is not before the last one
  have hswept := h.swept
  dsimp only
  split <;> omega

end Steps

/-- In every run in which each sweep is over at most `interval` after the one before began,
and no challenge is stored when its time is over already, no challenge is in the store, and
none is redeemed, later than `interval` after its expiry. -/
theorem redeemable_until_swept [DecidableEq Ip] (env : AuthEnv Ip)
    (decode : List UInt8 → Option VersionedTransaction) (cfg : LoopConfig) (interval : Nat)
    (start : Int) (health : HealthState) (auther : Pubkey → Bool) (ls : List (ClockedLabel Ip))
    (s : ClockedAuth Ip)
    (hcond : StepsMeet (clockedStep env decode cfg) (SweptEvery interval)
      (ClockedAuth.init start health auther) ls)
    (hrun : runSteps (clockedStep env decode cfg) (ClockedAuth.init start health auther) ls =
      some s) : LifetimesBounded env interval s := by
  have hinv := runSteps_invariant_of_meets (LifetimeInv env interval)
    (fun _ _ _ hinv hcond hstep => lifetimeInv_step hinv hcond hstep) ls
    (lifetimeInv_init start health auther) hcond hrun
  refine ⟨?_, hinv.redeemed⟩
  intro ip entry hentry
  have hlive := hinv.stored ip entry hentry
  have hintime := hinv.swept.2
  omega

/-- The challenge of second 0 expires at second 1800.  The client redeems it at second
1850, after the sweep of second 1700 and before the next one, and leaves a second challenge
behind at second 2000. -/
def lateRun : List (ClockedLabel Peer) :=
  challengeRun.map (⟨second 0, second 0, ·⟩) ++
    [ ⟨second 900, second 900, .sweep [(.first, second 900)]⟩
    , ⟨second 1700, second 1701, .sweep [(.first, second 1700)]⟩
    , ⟨second 1849, second 1849, .tokensRequest 1 clientTokensRequest⟩
    , ⟨second 1850, second 1850, .tokensGet 1 (second 1850)⟩
    , ⟨second 1850, second 1851, .tokensRemove 1 (second 1850)⟩
    , ⟨second 2000, second 2000, .challengeRequest 2 ⟨some .first, 2, (uniformKey 7).bytes⟩⟩
    , ⟨second 2000, second 2000, .challengeLen 2⟩
    , ⟨second 2000, second 2000, .challengeGet 2 (clockAt (second 2000)) otherToken⟩
    , ⟨second 2001, second 2001, .challengePush 2⟩ ]

/-- The auth service of `defaultStep` with a clock. -/
abbrev defaultClockedStep : ClockedAuth Peer → ClockedLabel Peer → Option (ClockedAuth Peer) :=
  clockedStep (clientEnv [1800, 180000] 1800 180000) (fun _ => none) ⟨∅, 4, true, 5⟩

theorem redeemable_until_swept_late :
    ∃ s, runSteps defaultClockedStep
        (ClockedAuth.init (second 0) .healthy fun key => key = uniformKey 7) lateRun = some s ∧
      storedForFirst s.services = some ("jklmnopqr", second 3800) ∧
      s.services.history.filterMap (AuthEvent.readOf 0) = [second 1850] ∧
      LifetimesBounded (clientEnv [1800, 180000] 1800 180000) (900 * nanosPerSecond) s := by
  have hrun : (runSteps defaultClockedStep
      (ClockedAuth.init (second 0) .healthy fun key => key = uniformKey 7) lateRun).map
        (fun s => (storedForFirst s.services,
          s.services.history.filterMap (AuthEvent.readOf 0))) =
      some (some ("jklmnopqr", second 3800), [second 1850]) := by decide
  have hcond : StepsMeet defaultClockedStep (SweptEvery (900 * nanosPerSecond))
      (ClockedAuth.init (second 0) .healthy fun key => key = uniformKey 7) lateRun := by
    unfold StepsMeet
    decide
  obtain ⟨s, hs, hread⟩ := Option.map_eq_some_iff.mp hrun
  simp only [Prod.mk.injEq] at hread
  exact ⟨s, hs, hread.1, hread.2,
    redeemable_until_swept _ _ _ (900 * nanosPerSecond) _ _ _ _ s hcond hs⟩

end FlowraRelayer.Relayer
