/-
  Relayer/AuthIssuance.lean --- the lifetime of an access token when it is issued.

  `refresh_access_token` dates the token it issues when it issues it.  The access token of
  a redemption was dated when the challenge was generated, and the client may take as long
  as the challenge lasts to redeem it; the token is handed out with what is left of its
  lifetime (`lifetime_shortened_by_challenge`).

  `access_lifetimes_iff` says when both paths give the configured lifetime: exactly in the
  runs in which every challenge is redeemed within the second in which its claims were
  dated.

  The time at which a refresh returns is its second clock reading; the handler has no
  `await` after it.
-/
import FlowraRelayer.Relayer.AuthLifetimes
import FlowraRelayer.Relayer.ChallengeStore

set_option autoImplicit false

namespace FlowraRelayer.Relayer

open FlowraRelayer.Foundation
open FlowraRelayer.Solana

variable {Ip : Type} {env : AuthEnv Ip} {history : List (AuthEvent Ip)}

/-! ## Issued tokens -/

/-- The access token an entry hands out, and when. -/
def AuthEvent.issuedAt : AuthEvent Ip → Option (PbToken × Int)
  | .replied _ (.tokens _ now access _) => some (access, now)
  | .refreshed refresh => some (refresh.issued.token, refresh.clock.issue)
  | _ => none

/-- A token handed out at `now` has not run out, and runs out in the second that ends a
lifetime of `ttl` from then on. -/
structure HasLifetime (ttl : Nat) (token : PbToken) (now : Int) : Prop where
  live : now < token.expiresAtUtc * nanosPerSecond
  longer : now + ttl - nanosPerSecond < token.expiresAtUtc * nanosPerSecond
  atMost : token.expiresAtUtc * nanosPerSecond ≤ now + ttl

/-- Every access token that was handed out has the given lifetime. -/
def IssuedWithLifetime (ttl : Nat) (history : List (AuthEvent Ip)) : Prop :=
  ∀ event ∈ history, ∀ issued ∈ event.issuedAt, HasLifetime ttl issued.1 issued.2

/-- Tokens handed out at the same time run out at the same time. -/
def LivesEquallyLong (history : List (AuthEvent Ip)) : Prop :=
  ∀ event ∈ history, ∀ event' ∈ history, ∀ issued ∈ event.issuedAt, ∀ issued' ∈ event'.issuedAt,
    issued.2 = issued'.2 → issued.1.expiresAtUtc = issued'.1.expiresAtUtc

/-- Every access token that was handed out is one the server signed, with the expiry told
to the client in its claims. -/
def IssuedAsAdvertised (history : List (AuthEvent Ip)) : Prop :=
  ∀ event ∈ history, ∀ issued ∈ event.issuedAt, ∃ signed ∈ signedTokens history,
    signed.token = issued.1 ∧ signed.claims.expiresAtUnixTs = issued.1.expiresAtUtc

/-- A token dated at `dated` and handed out at `now` has its lifetime if both times lie in
one second, and only then. -/
theorem hasLifetime_iff {seconds ttl : Nat} (hseconds : 0 < seconds)
    (httl : ttl = seconds * nanosPerSecond) {token : PbToken} {dated now : Int}
    (htoken : token.expiresAtUtc = timestamp (dated + ttl)) :
    HasLifetime ttl token now ↔ timestamp now = timestamp dated := by
  have hwhole : timestamp (dated + ttl) = timestamp dated + seconds := by
    unfold timestamp nanosPerSecond at *
    omega
  rw [hwhole] at htoken
  have hdated := timestamp_mul_le dated
  have hnow := timestamp_mul_le now
  constructor
  · rintro ⟨-, hlonger, hatMost⟩
    rw [htoken] at hlonger hatMost
    unfold timestamp nanosPerSecond at *
    omega
  · intro hsecond
    rw [← hsecond] at htoken
    constructor <;> rw [htoken] <;> unfold timestamp nanosPerSecond at * <;> omega

/-- The lifetime determines the expiry. -/
theorem HasLifetime.expiresAtUtc_eq {ttl : Nat} {token token' : PbToken} {now : Int}
    (h : HasLifetime ttl token now) (h' : HasLifetime ttl token' now) :
    token.expiresAtUtc = token'.expiresAtUtc := by
  have hlonger := h.longer
  have hatMost := h.atMost
  have hlonger' := h'.longer
  have hatMost' := h'.atMost
  unfold nanosPerSecond at *
  omega

theorem livesEquallyLong_of_lifetime {ttl : Nat} (h : IssuedWithLifetime ttl history) :
    LivesEquallyLong history := by
  intro event hevent event' hevent' issued hissued issued' hissued' hsame
  have hfirst := h event hevent issued hissued
  have hsecond := h event' hevent' issued' hissued'
  rw [← hsame] at hsecond
  exact hfirst.expiresAtUtc_eq hsecond

/-- What is added to the record may hand tokens out as well. -/
theorem issuedWithLifetime_append {ttl : Nat} {more : List (AuthEvent Ip)} :
    IssuedWithLifetime ttl (history ++ more) ↔
      IssuedWithLifetime ttl history ∧ IssuedWithLifetime ttl more := by
  unfold IssuedWithLifetime
  simp only [List.mem_append, or_imp, forall_and]

theorem issuedWithLifetime_nil {ttl : Nat} :
    IssuedWithLifetime ttl ([] : List (AuthEvent Ip)) := by
  intro event hevent
  cases hevent

theorem issuedWithLifetime_singleton {ttl : Nat} {event : AuthEvent Ip} :
    IssuedWithLifetime ttl [event] ↔
      ∀ issued ∈ event.issuedAt, HasLifetime ttl issued.1 issued.2 := by
  unfold IssuedWithLifetime
  simp only [List.mem_singleton, forall_eq]

theorem AuthEvent.issuedAt_of_quiet {event : AuthEvent Ip} (h : event.quiet = true) :
    event.issuedAt = none := by
  cases event with
  | refreshed refresh => cases h
  | replied id reply =>
    cases reply with
    | tokens push now access refresh => cases h
    | _ => rfl
  | _ => rfl

/-- Whatever is asked of handed-out tokens holds of an entry that hands none out. -/
theorem AuthEvent.forall_issuedAt {P : PbToken × Int → Prop} {event : AuthEvent Ip}
    (hnone : event.issuedAt = none) : ∀ issued ∈ event.issuedAt, P issued := by
  intro issued hissued
  rw [hnone] at hissued
  cases hissued

/-! ## Requests that are about to return -/

variable [DecidableEq Ip]

/-- A request that has only its `remove` left holds tokens that were signed, and the access
token is dated at the generation of the challenge. -/
def ReturnsSigned (env : AuthEnv Ip) (s : AuthState Ip) : Prop :=
  ∀ {id ip push access refresh},
    s.calls.lookup id = some (.tokensRemove ip push access refresh) →
    access ∈ signedTokens s.history ∧
      ∃ record, s.history[push]? = some (.pushed record) ∧
        access.token.expiresAtUtc = timestamp (record.clock.access + env.accessTokenTtl)

section Steps

variable {decode : List UInt8 → Option VersionedTransaction} {cfg : LoopConfig}
  {s s' : AuthState Ip} {label : AuthLabel Ip}

omit [DecidableEq Ip] in
theorem returnsSigned_init (health : HealthState) (auther : Pubkey → Bool) :
    ReturnsSigned env (AuthState.init health auther : AuthState Ip) := by
  intro id ip push access refresh h
  simp [AuthState.init] at h

omit [DecidableEq Ip] in
theorem signedTokens_append (history more : List (AuthEvent Ip)) :
    signedTokens (history ++ more) = signedTokens history ++ signedTokens more :=
  List.flatMap_append

omit [DecidableEq Ip] in
/-- The tokens of a redemption are dated at the generation of its challenge. -/
theorem Redemption.Redeems.access_dated {redemption : Redemption Ip} {record : PushRecord Ip}
    (hredeems : redemption.Redeems env record) (hauthorized : record.Authorized env) :
    redemption.access.token.expiresAtUtc =
      timestamp (record.clock.access + env.accessTokenTtl) := by
  rw [hredeems.access_advertised, hredeems.access_eq, hauthorized.made.access_eq]
  rfl

/-- A request that has only its `remove` left had that before the step too, or has just
validated the challenge it found. -/
theorem Move.returning (hmove : Move env decode cfg s label s') {id push : Nat} {ip : Ip}
    {access refresh : SignedToken}
    (h : s'.calls.lookup id = some (.tokensRemove ip push access refresh)) :
    s.calls.lookup id = some (.tokensRemove ip push access refresh) ∨
      ∃ pubkey req entry now, s.calls.lookup id = some (.tokensGet ip pubkey req) ∧
        s.challenges.lookup ip = some entry ∧ entry.push = push ∧
        tokensAfterGetPriority env (some entry.challenge) pubkey req = .ok (access, refresh) ∧
        s'.history = s.history ++ [.redeemed
          { push, ip, pubkey, request := req, now, access, refresh }] := by
  cases hmove with
  | waiting id' hcall =>
    rcases lookup_insert_cases h with ⟨-, rfl⟩ | hold
    · exact False.elim hcall
    · exact .inl hold
  | made | accepted =>
    rcases lookup_insert_cases h with ⟨-, hnew⟩ | hold
    · cases hnew
    · exact .inl hold
  | redeemed hcall hstored hchecks =>
    rcases lookup_insert_cases h with ⟨rfl, hnew⟩ | hold
    · cases hnew
      exact .inr ⟨_, _, _, _, hcall, hstored, rfl, hchecks, rfl⟩
    · exact .inl hold
  | failed | reused | pushed | removed | refreshed | subscribed | abandoned =>
    exact .inl (lookup_erase_cases h).2
  | _ => exact .inl h

theorem returnsSigned_move (h : ReturnsSigned env s) (hinv : AuthInv env s)
    (hmove : Move env decode cfg s label s') : ReturnsSigned env s' := by
  intro id ip push access refresh hlookup
  rcases hmove.returning hlookup with
    hold | ⟨pubkey, req, entry, now, hcall, hstored, rfl, hchecks, hhistory⟩
  · obtain ⟨hsigned, record, hpush, hexpiry⟩ := h hold
    obtain ⟨events, hhistory, -⟩ := hmove.entries
    rw [hhistory, signedTokens_append]
    exact ⟨List.mem_append_left _ hsigned, record, getElem?_append_of_some hpush events, hexpiry⟩
  · have hredeemed : ∃ record, s.history[entry.push]? = some (.pushed record) ∧ record.ip = ip ∧
        Redemption.Redeems env ⟨entry.push, ip, pubkey, req, now, access, refresh⟩ record :=
      hinv.redeems hcall hstored hchecks
    obtain ⟨record, hpush, -, hredeems⟩ := hredeemed
    have hauthorized : record.Authorized env := hinv.grounded.justified_at hpush
    rw [hhistory, signedTokens_append]
    exact ⟨List.mem_append_right _ List.mem_cons_self, record, getElem?_append_of_some hpush _,
      hredeems.access_dated hauthorized⟩

/-! ## What each step hands out -/

/-- When the access claims of a challenge were dated. -/
def AuthEvent.datedAt : AuthEvent Ip → Option Int
  | .pushed record => some record.clock.access
  | _ => none

/-- A request for tokens returns in the second in which the claims of the challenge it
validated were dated. -/
def ReturnsInSecond (s : AuthState Ip) (label : AuthLabel Ip) : Prop :=
  ∀ returner ∈ label.returnsAt, ∀ push ∈ (s.calls.lookup returner.1).bind Call.validated,
    ∀ dated ∈ s.history[push]?.bind AuthEvent.datedAt, timestamp returner.2 = timestamp dated

instance (s : AuthState Ip) (label : AuthLabel Ip) : Decidable (ReturnsInSecond s label) :=
  inferInstanceAs (Decidable (∀ returner ∈ label.returnsAt,
    ∀ push ∈ (s.calls.lookup returner.1).bind Call.validated,
      ∀ dated ∈ s.history[push]?.bind AuthEvent.datedAt,
        timestamp returner.2 = timestamp dated))

/-- The step in which a request for tokens returns. -/
theorem authStep_tokensRemove {id : Nat} {now : Int}
    (h : authStep env decode cfg s (.tokensRemove id now) = some s') :
    ∃ ip push access refresh,
      s.calls.lookup id = some (.tokensRemove ip push access refresh) ∧
      s'.history = s.history ++ [.replied id (.tokens push now access.token refresh.token)] := by
  simp only [authStep, AuthLabel.request] at h
  split at h
  · cases h
  · rename_i call hcall
    cases call with
    | tokensRemove ip push access refresh =>
      cases h
      exact ⟨ip, push, access, refresh, hcall, rfl⟩
    | _ => cases h

omit [DecidableEq Ip] in
/-- A refresh hands out a token with the configured lifetime. -/
theorem hasLifetime_refreshed {seconds : Nat} (hseconds : 0 < seconds)
    (httl : env.accessTokenTtl = seconds * nanosPerSecond) {clock : RefreshClock}
    {req : RefreshRequest Ip} {presented : DeSerClaims} {issued : SignedToken}
    (hchecks : refreshAccessToken env s.health clock req = .ok (presented, issued)) :
    HasLifetime env.accessTokenTtl issued.token clock.issue := by
  obtain ⟨-, claims, -, -, -, hissued, hadvertised⟩ := refreshAccessToken_eq_ok hchecks
  refine (hasLifetime_iff hseconds httl ?_).mpr rfl
  rw [hadvertised, hissued]
  rfl

/-- Only the return of a request for tokens can break the lifetimes. -/
theorem issuedWithLifetime_move {seconds : Nat} (hseconds : 0 < seconds)
    (httl : env.accessTokenTtl = seconds * nanosPerSecond)
    (hlabel : label.returnsAt = none) (hmove : Move env decode cfg s label s') :
    IssuedWithLifetime env.accessTokenTtl s'.history ↔
      IssuedWithLifetime env.accessTokenTtl s.history := by
  obtain ⟨events, hhistory, hentries⟩ := hmove.entries
  rw [hhistory, issuedWithLifetime_append]
  refine and_iff_left ?_
  cases hentries with
  | quiet hevents =>
    intro event hmem
    exact AuthEvent.forall_issuedAt (AuthEvent.issuedAt_of_quiet (hevents event hmem))
  | redeemed hcall hstored hchecks =>
    exact issuedWithLifetime_singleton.mpr (AuthEvent.forall_issuedAt rfl)
  | removed hcall => cases hlabel
  | refreshed hchecks =>
    rw [← List.singleton_append, issuedWithLifetime_append, issuedWithLifetime_singleton,
      issuedWithLifetime_singleton]
    refine ⟨?_, AuthEvent.forall_issuedAt rfl⟩
    intro issued hissued
    cases hissued
    exact hasLifetime_refreshed hseconds httl hchecks
  | accepted hchecks => exact issuedWithLifetime_singleton.mpr (AuthEvent.forall_issuedAt rfl)

/-- A step keeps the lifetimes exactly if it does not return tokens in a later second. -/
theorem issuedWithLifetime_step {seconds : Nat} (hseconds : 0 < seconds)
    (httl : env.accessTokenTtl = seconds * nanosPerSecond) (hreturns : ReturnsSigned env s)
    (hstep : authStep env decode cfg s label = some s') :
    IssuedWithLifetime env.accessTokenTtl s'.history ↔
      IssuedWithLifetime env.accessTokenTtl s.history ∧ ReturnsInSecond s label := by
  cases hlabel : label.returnsAt with
  | none =>
    have hfree : ReturnsInSecond s label := by
      intro returner hreturner
      rw [hlabel] at hreturner
      cases hreturner
    rw [issuedWithLifetime_move hseconds httl hlabel (move_of_authStep hstep),
      and_iff_left hfree]
  | some returner =>
    cases label with
    | tokensRemove id now =>
      obtain ⟨ip, push, access, refresh, hcall, hhistory⟩ := authStep_tokensRemove hstep
      obtain ⟨-, record, hpush, hexpiry⟩ := hreturns hcall
      have hissued : IssuedWithLifetime env.accessTokenTtl
          [(.replied id (.tokens push now access.token refresh.token) : AuthEvent Ip)] ↔
          timestamp now = timestamp record.clock.access := by
        rw [issuedWithLifetime_singleton, ← hasLifetime_iff hseconds httl hexpiry]
        simp [AuthEvent.issuedAt]
      have hcond : ReturnsInSecond s (.tokensRemove id now) ↔
          timestamp now = timestamp record.clock.access := by
        simp [ReturnsInSecond, AuthLabel.returnsAt, hcall, Call.validated, hpush,
          AuthEvent.datedAt]
      rw [hhistory, issuedWithLifetime_append, hissued, hcond]
    | _ => cases hlabel

/-! ## What was handed out was signed -/

/-- The token an entry hands out was signed by then. -/
def HandsOutSigned (before : List (AuthEvent Ip)) (event : AuthEvent Ip) : Prop :=
  ∀ issued ∈ event.issuedAt, ∃ signed ∈ signedTokens (before ++ [event]), signed.token = issued.1

theorem handsOutSigned_move (hgrounded : Grounded HandsOutSigned s.history)
    (hreturns : ReturnsSigned env s) (hmove : Move env decode cfg s label s') :
    Grounded HandsOutSigned s'.history := by
  obtain ⟨events, hhistory, hentries⟩ := hmove.entries
  rw [hhistory]
  cases hentries with
  | quiet hevents =>
    refine hgrounded.append ?_
    intro before event hmem
    exact AuthEvent.forall_issuedAt (AuthEvent.issuedAt_of_quiet (hevents event hmem))
  | redeemed hcall hstored hchecks => exact hgrounded.concat (AuthEvent.forall_issuedAt rfl)
  | removed hcall =>
    refine hgrounded.concat ?_
    intro issued hissued
    cases hissued
    refine ⟨_, ?_, rfl⟩
    rw [signedTokens_append]
    exact List.mem_append_left _ (hreturns hcall).1
  | refreshed hchecks =>
    rw [List.append_cons]
    refine (hgrounded.concat ?_).concat (AuthEvent.forall_issuedAt rfl)
    intro issued hissued
    cases hissued
    refine ⟨_, ?_, rfl⟩
    rw [signedTokens_append]
    exact List.mem_append_right _ List.mem_cons_self
  | accepted hchecks => exact hgrounded.concat (AuthEvent.forall_issuedAt rfl)

omit [DecidableEq Ip] in
theorem issuedAsAdvertised_of_grounded (hjustified : Grounded (Justified env) history)
    (hsigned : Grounded HandsOutSigned history) : IssuedAsAdvertised history := by
  intro event hevent issued hissued
  obtain ⟨i, hi⟩ := List.mem_iff_getElem?.mp hevent
  obtain ⟨signed, hmem, htoken⟩ := hsigned.justified_at hi issued hissued
  have hsub : ∀ earlier ∈ history.take i ++ [event], earlier ∈ history := by
    intro earlier hearlier
    rcases List.mem_append.mp hearlier with hbefore | hlast
    · exact List.mem_of_mem_take hbefore
    · rw [List.mem_singleton.mp hlast]
      exact hevent
  obtain ⟨earlier, hearlier, hin⟩ := List.mem_flatMap.mp hmem
  have hall : signed ∈ signedTokens history :=
    List.mem_flatMap.mpr ⟨earlier, hsub earlier hearlier, hin⟩
  refine ⟨signed, hall, htoken, ?_⟩
  rw [← (signed_wellFormed hjustified hall).1, htoken]

/-- What holds in every reachable state. -/
structure IssuanceInv (env : AuthEnv Ip) (s : AuthState Ip) : Prop where
  record : AuthInv env s
  returns : ReturnsSigned env s
  signed : Grounded HandsOutSigned s.history

namespace IssuanceInv

theorem init (health : HealthState) (auther : Pubkey → Bool) :
    IssuanceInv env (AuthState.init health auther : AuthState Ip) where
  record := AuthInv.init health auther
  returns := returnsSigned_init health auther
  signed := Grounded.nil

theorem move (hinv : IssuanceInv env s) (hmove : Move env decode cfg s label s') :
    IssuanceInv env s' where
  record := hinv.record.move hmove
  returns := returnsSigned_move hinv.returns hinv.record hmove
  signed := handsOutSigned_move hinv.signed hinv.returns hmove

theorem run {health : HealthState} {auther : Pubkey → Bool} {ls : List (AuthLabel Ip)}
    (hrun : runSteps (authStep env decode cfg) (AuthState.init health auther) ls = some s) :
    IssuanceInv env s :=
  runSteps_invariant (IssuanceInv env)
    (fun _ _ _ hinv hstep => hinv.move (move_of_authStep hstep)) ls (init health auther) hrun

end IssuanceInv

end Steps

/-- In every run of a server with an access lifetime of at least one second, the access
tokens are the signed ones with the expiry told to the client; and both paths give them the
configured lifetime, so that tokens handed out at the same time live equally long, exactly
if every request for tokens returns in the second in which its challenge was generated. -/
theorem access_lifetimes_iff (env : AuthEnv Ip)
    (decode : List UInt8 → Option VersionedTransaction) (cfg : LoopConfig) (health : HealthState)
    (auther : Pubkey → Bool) (ls : List (AuthLabel Ip)) (s : AuthState Ip) (seconds : Nat)
    (hseconds : 0 < seconds) (httl : env.accessTokenTtl = seconds * nanosPerSecond)
    (hrun : runSteps (authStep env decode cfg) (AuthState.init health auther) ls = some s) :
    IssuedAsAdvertised s.history ∧
      (IssuedWithLifetime env.accessTokenTtl s.history ∧ LivesEquallyLong s.history ↔
        StepsMeet (authStep env decode cfg) ReturnsInSecond (AuthState.init health auther) ls) := by
  have hinv := IssuanceInv.run hrun
  refine ⟨issuedAsAdvertised_of_grounded hinv.record.grounded hinv.signed, ?_⟩
  have hiff : IssuedWithLifetime env.accessTokenTtl s.history ↔
      IssuedWithLifetime env.accessTokenTtl [] ∧
        StepsMeet (authStep env decode cfg) ReturnsInSecond (AuthState.init health auther) ls :=
    runSteps_iff_stepsMeet (IssuanceInv env)
      (fun s => IssuedWithLifetime env.accessTokenTtl s.history)
      (fun _ _ _ hinv hstep => hinv.move (move_of_authStep hstep))
      (fun _ _ _ hinv hstep => issuedWithLifetime_step hseconds httl hinv.returns hstep)
      ls (IssuanceInv.init health auther) hrun
  rw [and_iff_left_of_imp livesEquallyLong_of_lifetime, hiff]
  exact and_iff_right issuedWithLifetime_nil

/-- The client gets a challenge and redeems it within the same second. -/
def promptLoginRun : List (AuthLabel Peer) :=
  challengeRun ++
    [ .tokensRequest 1 clientTokensRequest
    , .tokensGet 1 (second 0)
    , .tokensRemove 1 (second 0 + 999999999) ]

theorem access_lifetimes_iff_promptClient :
    ∃ s, runSteps (defaultStep [1800, 180000, 3000]) clientStart
        (promptLoginRun ++ [refreshLabel 180000 1200]) = some s ∧
      s.history.filterMap AuthEvent.issuedAt =
        [(⟨"jwt-1800", 1700001800⟩, second 0 + 999999999),
          (⟨"jwt-3000", 1700003000⟩, second 1200)] ∧
      IssuedAsAdvertised s.history ∧
      IssuedWithLifetime (1800 * nanosPerSecond) s.history ∧ LivesEquallyLong s.history := by
  have hrun : (runSteps (defaultStep [1800, 180000, 3000]) clientStart
      (promptLoginRun ++ [refreshLabel 180000 1200])).map
        (fun s => s.history.filterMap AuthEvent.issuedAt) =
      some [(⟨"jwt-1800", 1700001800⟩, second 0 + 999999999),
        (⟨"jwt-3000", 1700003000⟩, second 1200)] := by decide
  have hmeets : StepsMeet (defaultStep [1800, 180000, 3000]) ReturnsInSecond clientStart
      (promptLoginRun ++ [refreshLabel 180000 1200]) := by
    unfold StepsMeet
    decide
  obtain ⟨s, hs, hissued⟩ := Option.map_eq_some_iff.mp hrun
  obtain ⟨hadvertised, hiff⟩ :=
    access_lifetimes_iff _ _ _ _ _ _ s 1800 (by decide) rfl hs
  exact ⟨s, hs, hissued, hadvertised, hiff.mpr hmeets⟩

/-- With the lifetimes `main.rs` starts with, an access token that is redeemed five seconds
after its challenge was generated has lost these five seconds. -/
theorem lifetime_shortened_by_challenge :
    ¬ ∀ (ls : List (AuthLabel Peer)) (s : AuthState Peer),
      runSteps (defaultStep [1800, 180000]) clientStart ls = some s →
      IssuedWithLifetime (1800 * nanosPerSecond) s.history := by
  intro hall
  have hrun : (runSteps (defaultStep [1800, 180000]) clientStart loginRun).map
      (fun s => s.history.filterMap AuthEvent.issuedAt) =
      some [(⟨"jwt-1800", 1700001800⟩, second 5)] := by decide
  obtain ⟨s, hs, hissued⟩ := Option.map_eq_some_iff.mp hrun
  have hmem : ((⟨"jwt-1800", 1700001800⟩, second 5) : PbToken × Int) ∈
      s.history.filterMap AuthEvent.issuedAt := by
    rw [hissued]
    exact List.mem_cons_self
  obtain ⟨event, hevent, htoken⟩ := List.mem_filterMap.mp hmem
  have hlifetime := hall loginRun s hs event hevent _ htoken
  exact absurd hlifetime.longer (by decide)

end FlowraRelayer.Relayer
