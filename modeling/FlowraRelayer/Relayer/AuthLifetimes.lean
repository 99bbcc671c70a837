/-
  Relayer/AuthLifetimes.lean --- how long a token can be used.

  Two limits are meant to hold, and the code enforces neither.

  The interceptor does not look at the expiry of the token it lets through, although
  `refresh_access_token` does (`expired_token_accepted`).  Where clients use a token only
  before the expiry they were told with it, no request is let through late
  (`expiry_enforced`).

  `refresh_access_token` takes any token of this server, and an access token differs from
  a refresh token in nothing but its expiry, so that a chain of access tokens can be
  continued for ever (`session_unbounded`).  Where only refresh tokens are presented, a
  session ends with its refresh token (`session_bounded`).
-/
import FlowraRelayer.Relayer.AuthSoundness

set_option autoImplicit false

namespace FlowraRelayer.Relayer

open FlowraRelayer.Foundation
open FlowraRelayer.Solana

variable {Ip : Type} {env : AuthEnv Ip} {history : List (AuthEvent Ip)}

/-- What the server signs: claims in chrono's range, and the expiry that stands in the token
told to the client. -/
theorem signed_wellFormed (hgrounded : Grounded (Justified env) history) {signed : SignedToken}
    (hsigned : signed ∈ signedTokens history) :
    signed.token.expiresAtUtc = signed.claims.expiresAtUnixTs ∧
      ∃ claims : Claims Ip, signed.claims = DeSerClaims.ofClaims env.ips claims ∧
        env.calendar.inRange claims.expiresAtUtc = true := by
  obtain ⟨i, event, hevent, hmem⟩ := mem_signedTokens_iff.mp hsigned
  have hjust := hgrounded.justified_at hevent
  cases event with
  | redeemed redemption =>
    obtain ⟨record, hpush, hredeems⟩ := hjust
    have hauthorized : record.Authorized env :=
      hgrounded.justified_at (getElem?_take_eq_some hpush).2
    simp only [AuthEvent.signed, List.mem_cons, List.not_mem_nil, or_false] at hmem
    rcases hmem with rfl | rfl
    · exact ⟨hredeems.access_advertised, _, hredeems.access_eq, hauthorized.made.access_inRange⟩
    · exact ⟨hredeems.refresh_advertised, _, hredeems.refresh_eq, hauthorized.made.refresh_inRange⟩
  | refreshed refresh =>
    obtain ⟨claims, hrenews⟩ := hjust
    simp only [AuthEvent.signed, List.mem_singleton] at hmem
    rw [hmem]
    exact ⟨hrenews.issued_advertised, _, hrenews.issued_eq, hrenews.issued_inRange⟩
  | _ => simp [AuthEvent.signed] at hmem

/-! ## Expiry at the interceptor -/

/-- The bearer text of a request to the relayer service, and the time of the request. -/
def AuthLabel.bearerAt : AuthLabel Ip → Option (String × Int)
  | .intercept _ now req => (bearerToken req.authorization).toOption.map (·, now)
  | _ => none

/-- A client uses a token this server gave out only before the expiry it was told. -/
def UsedInTime (env : AuthEnv Ip) (s : AuthState Ip) (label : AuthLabel Ip) : Prop :=
  ∀ use ∈ label.bearerAt, ∀ verified ∈ env.jwt.verify use.1, ∀ signed ∈ signedTokens s.history,
    signed.claims = verified.2 → use.2 < signed.token.expiresAtUtc * nanosPerSecond

instance (env : AuthEnv Ip) (s : AuthState Ip) (label : AuthLabel Ip) :
    Decidable (UsedInTime env s label) :=
  inferInstanceAs (Decidable (∀ use ∈ label.bearerAt, ∀ verified ∈ env.jwt.verify use.1,
    ∀ signed ∈ signedTokens s.history,
      signed.claims = verified.2 → use.2 < signed.token.expiresAtUtc * nanosPerSecond))

/-- The claims of an accepted token run out after the request. -/
def Acceptance.InTime (acceptance : Acceptance Ip) : Prop :=
  acceptance.now < acceptance.claims.expiresAtUtc

/-- Every request that was let through carried claims that had not run out, and every
subscriber comes from such a request. -/
def ExpiryEnforced (s : AuthState Ip) : Prop :=
  (∀ acceptance, .accepted acceptance ∈ s.history → acceptance.InTime) ∧
    ∀ pubkey ∈ s.loopState.packetSubscriptions, ∃ acceptance, .accepted acceptance ∈ s.history ∧
      acceptance.claims.clientPubkey = pubkey ∧ acceptance.InTime

/-- The entry is not an acceptance after the expiry. -/
def AcceptedInTime (_before : List (AuthEvent Ip)) (event : AuthEvent Ip) : Prop :=
  ∀ acceptance, event = .accepted acceptance → acceptance.InTime

section Expiry

variable [DecidableEq Ip] {decode : List UInt8 → Option VersionedTransaction} {cfg : LoopConfig}
  {s s' : AuthState Ip} {label : AuthLabel Ip}

/-- A token that was signed here and is used in time is let through in time. -/
theorem acceptedInTime_move (hgrounded : Grounded AcceptedInTime s.history)
    (hinv : AuthInv env s) (hunforged : Unforged env s label) (hinTime : UsedInTime env s label)
    (hmove : Move env decode cfg s label s') : Grounded AcceptedInTime s'.history := by
  refine grounded_move hgrounded hmove ?_ ?_ ?_
  · intro before event hnone acceptance heq
    rw [heq] at hnone
    cases hnone
  · intro id clock req presented issued _ _ acceptance heq
    cases heq
  · intro id now req token claims hlabel hchecks acceptance heq
    subst hlabel
    cases heq
    obtain ⟨⟨text, htext, hverify⟩, hparsed⟩ := interceptorCall_eq_ok hchecks
    have hmem := hunforged text (presented_intercept htext) (.rs256, token) hverify
    obtain ⟨signed, hsigned, hclaims⟩ := List.mem_map.mp hmem
    have hbearer : (AuthLabel.intercept id now req).bearerAt = some (text, now) := by
      simp only [AuthLabel.bearerAt, htext]
      rfl
    have hearly := hinTime (text, now) hbearer (.rs256, token) hverify signed hsigned hclaims
    rw [(signed_wellFormed hinv.grounded hsigned).1, hclaims] at hearly
    obtain ⟨-, -, hexpiry⟩ := Claims.ofDeSer_eq_ok hparsed
    rw [Acceptance.InTime, hexpiry]
    exact hearly

/-- In every run in which no forged token verifies and clients use their tokens only before
the expiry they were told, every request that is let through carries claims that have not
run out, and so does every request that leads to a subscription. -/
theorem expiry_enforced (env : AuthEnv Ip) (decode : List UInt8 → Option VersionedTransaction)
    (cfg : LoopConfig) (health : HealthState) (auther : Pubkey → Bool) (ls : List (AuthLabel Ip))
    (s : AuthState Ip)
    (hmeets : StepsMeet (authStep env decode cfg)
      (fun s label => Unforged env s label ∧ UsedInTime env s label)
      (AuthState.init health auther) ls)
    (hrun : runSteps (authStep env decode cfg) (AuthState.init health auther) ls = some s) :
    ExpiryEnforced s := by
  obtain ⟨hinv, hgrounded⟩ := runSteps_invariant_of_meets
    (fun s => AuthInv env s ∧ Grounded AcceptedInTime s.history)
    (fun _ _ _ hinvs hcond hstep =>
      ⟨hinvs.1.move (move_of_authStep hstep),
        acceptedInTime_move hinvs.2 hinvs.1 hcond.1 hcond.2 (move_of_authStep hstep)⟩)
    ls ⟨AuthInv.init health auther, Grounded.nil⟩ hmeets hrun
  have hall : ∀ acceptance, .accepted acceptance ∈ s.history → acceptance.InTime := by
    intro acceptance hmem
    obtain ⟨i, hi⟩ := List.mem_iff_getElem?.mp hmem
    exact hgrounded.justified_at hi acceptance rfl
  refine ⟨hall, ?_⟩
  intro pubkey hmem
  obtain ⟨sender, hlookup⟩ := Option.isSome_iff_exists.mp (AList.lookup_isSome.mpr hmem)
  obtain ⟨acceptance, haccepted, hpubkey⟩ := hinv.subscribed pubkey sender hlookup
  exact ⟨acceptance, haccepted, hpubkey, hall acceptance haccepted⟩

end Expiry

theorem expiry_enforced_timelyClient :
    ∃ s, runSteps (defaultStep [1800, 180000]) clientStart (loginRun ++ subscribeRun 1800 1300) =
        some s ∧
      s.loopState.packetSubscriptions.keys = [uniformKey 7] ∧ ExpiryEnforced s := by
  have hrun : (runSteps (defaultStep [1800, 180000]) clientStart
      (loginRun ++ subscribeRun 1800 1300)).map
        (fun s => s.loopState.packetSubscriptions.keys) = some [uniformKey 7] := by decide
  have hmeets : StepsMeet (defaultStep [1800, 180000])
      (fun s label => Unforged (clientEnv [1800, 180000] 1800 180000) s label ∧
        UsedInTime (clientEnv [1800, 180000] 1800 180000) s label)
      clientStart (loginRun ++ subscribeRun 1800 1300) := by
    unfold StepsMeet
    decide
  obtain ⟨s, hs, hkeys⟩ := Option.map_eq_some_iff.mp hrun
  exact ⟨s, hs, hkeys, expiry_enforced _ _ _ _ _ _ s hmeets hs⟩

/-- The time and the expiry of an acceptance. -/
def AuthEvent.acceptedAt : AuthEvent Ip → Option (Int × Int)
  | .accepted acceptance => some (acceptance.now, acceptance.claims.expiresAtUtc)
  | _ => none

/-- An access token that ran out 200 seconds ago still subscribes its client. -/
theorem expired_token_accepted :
    ¬ ∀ (ls : List (AuthLabel Peer)) (s : AuthState Peer),
      StepsMeet (defaultStep [1800, 180000]) (Unforged (clientEnv [1800, 180000] 1800 180000))
        clientStart ls →
      runSteps (defaultStep [1800, 180000]) clientStart ls = some s → ExpiryEnforced s := by
  intro hall
  have hunforged : StepsMeet (defaultStep [1800, 180000])
      (Unforged (clientEnv [1800, 180000] 1800 180000)) clientStart
      (loginRun ++ subscribeRun 1800 2000) := by
    unfold StepsMeet
    decide
  have hrun : (runSteps (defaultStep [1800, 180000]) clientStart
      (loginRun ++ subscribeRun 1800 2000)).map (fun s => s.history[4]?.bind AuthEvent.acceptedAt) =
      some (some (second 2000, second 1800)) := by decide
  obtain ⟨s, hs, haccepted⟩ := Option.map_eq_some_iff.mp hrun
  obtain ⟨event, hevent, htimes⟩ := Option.bind_eq_some_iff.mp haccepted
  cases event with
  | accepted acceptance =>
    simp only [AuthEvent.acceptedAt, Option.some.injEq, Prod.mk.injEq] at htimes
    have hinTime := (hall _ s hunforged hs).1 acceptance (List.mem_of_getElem? hevent)
    rw [Acceptance.InTime, htimes.1, htimes.2] at hinTime
    exact absurd hinTime (by decide)
  | _ => cases htimes

/-! ## Sessions -/

/-- The two uses a token is issued for. -/
inductive TokenKind where
  | access
  | refresh
  deriving DecidableEq

/-- The token with these claims, signed by entry `i` of the record, comes from the challenge
of push `push`: it was issued when that challenge was redeemed, or in exchange for such a
token. -/
inductive DerivedFrom (history : List (AuthEvent Ip)) (push : Nat) :
    Nat → TokenKind → DeSerClaims → Prop where
  | access {i : Nat} {redemption : Redemption Ip}
      (hentry : history[i]? = some (.redeemed redemption)) (hpush : redemption.push = push) :
      DerivedFrom history push i .access redemption.access.claims
  | refresh {i : Nat} {redemption : Redemption Ip}
      (hentry : history[i]? = some (.redeemed redemption)) (hpush : redemption.push = push) :
      DerivedFrom history push i .refresh redemption.refresh.claims
  | renewed {i j : Nat} {kind : TokenKind} {refresh : Refresh Ip}
      (hentry : history[j]? = some (.refreshed refresh)) (hlater : i < j)
      (hpresented : DerivedFrom history push i kind refresh.presented) :
      DerivedFrom history push j .access refresh.issued.claims

/-- Every access token that comes from a challenge runs out at most one refresh and one
access lifetime after the challenge was generated.  The time of generation is the clock
reading from which the refresh claims were made. -/
def SessionBounded (env : AuthEnv Ip) (history : List (AuthEvent Ip)) : Prop :=
  ∀ (push i : Nat) (record : PushRecord Ip) (claims : DeSerClaims),
    history[push]? = some (.pushed record) → DerivedFrom history push i .access claims →
    claims.expiresAtUnixTs * nanosPerSecond ≤
      record.clock.refresh + env.refreshTokenTtl + env.accessTokenTtl

/-- The access tokens an entry issued. -/
def AuthEvent.accessClaims : AuthEvent Ip → List DeSerClaims
  | .redeemed redemption => [redemption.access.claims]
  | .refreshed refresh => [refresh.issued.claims]
  | _ => []

/-- The token and the clock readings of a refresh. -/
def AuthLabel.exchangeAt : AuthLabel Ip → Option (String × RefreshClock)
  | .refresh _ clock req => some (req.refreshToken, clock)
  | _ => none

/-- The token presented for a refresh is none of the access tokens issued so far, and it
has not run out when the new expiry is computed, at the second clock reading. -/
def RefreshTokenOnly (env : AuthEnv Ip) (s : AuthState Ip) (label : AuthLabel Ip) : Prop :=
  ∀ exchange ∈ label.exchangeAt, ∀ verified ∈ env.jwt.verify exchange.1,
    verified.2 ∉ s.history.flatMap AuthEvent.accessClaims ∧
      exchange.2.issue < verified.2.expiresAtUnixTs * nanosPerSecond

instance (env : AuthEnv Ip) (s : AuthState Ip) (label : AuthLabel Ip) :
    Decidable (RefreshTokenOnly env s label) :=
  inferInstanceAs (Decidable (∀ exchange ∈ label.exchangeAt,
    ∀ verified ∈ env.jwt.verify exchange.1,
      verified.2 ∉ s.history.flatMap AuthEvent.accessClaims ∧
        exchange.2.issue < verified.2.expiresAtUnixTs * nanosPerSecond))

/-- The entry is not the exchange of an access token, nor one made too late. -/
def ExchangesRefreshToken (before : List (AuthEvent Ip)) (event : AuthEvent Ip) : Prop :=
  ∀ refresh, event = .refreshed refresh →
    refresh.presented ∉ before.flatMap AuthEvent.accessClaims ∧
      refresh.clock.issue < refresh.presented.expiresAtUnixTs * nanosPerSecond

section Sessions

variable [DecidableEq Ip] {decode : List UInt8 → Option VersionedTransaction} {cfg : LoopConfig}
  {s s' : AuthState Ip} {label : AuthLabel Ip}

theorem exchangesRefreshToken_move (hgrounded : Grounded ExchangesRefreshToken s.history)
    (honly : RefreshTokenOnly env s label) (hmove : Move env decode cfg s label s') :
    Grounded ExchangesRefreshToken s'.history := by
  refine grounded_move hgrounded hmove ?_ ?_ ?_
  · intro before event hnone refresh heq
    rw [heq] at hnone
    cases hnone
  · intro id clock req presented issued hlabel hchecks refresh heq
    subst hlabel
    cases heq
    obtain ⟨⟨algorithm, hverify⟩, -⟩ := refreshAccessToken_eq_ok hchecks
    exact honly (req.refreshToken, clock) rfl (algorithm, presented) hverify
  · intro id now req token claims _ _ refresh heq
    cases heq

end Sessions

/-- An access token stands among the access tokens of the entries up to its own. -/
theorem DerivedFrom.mem_accessClaims {push i : Nat} {claims : DeSerClaims}
    (h : DerivedFrom history push i .access claims) {n : Nat} (hn : i < n) :
    claims ∈ (history.take n).flatMap AuthEvent.accessClaims := by
  have hmem : ∀ {event : AuthEvent Ip}, history[i]? = some event →
      claims ∈ event.accessClaims → claims ∈ (history.take n).flatMap AuthEvent.accessClaims := by
    intro event hentry hclaims
    refine List.mem_flatMap.mpr ⟨event, ?_, hclaims⟩
    refine List.mem_of_getElem? (i := i) ?_
    rw [List.getElem?_take_of_lt hn]
    exact hentry
  cases h with
  | access hentry hpush => exact hmem hentry List.mem_cons_self
  | renewed hentry hlater hpresented => exact hmem hentry List.mem_cons_self

/-- The push a redemption redeems is the one its number names. -/
theorem redeems_of_pushed (hgrounded : Grounded (Justified env) history) {i : Nat}
    {redemption : Redemption Ip} {record : PushRecord Ip}
    (hentry : history[i]? = some (.redeemed redemption))
    (hpushed : history[redemption.push]? = some (.pushed record)) :
    redemption.Redeems env record ∧ record.Authorized env := by
  obtain ⟨record', hrecord, hredeems⟩ := hgrounded.justified_at hentry
  obtain ⟨-, hpushed'⟩ := getElem?_take_eq_some hrecord
  rw [hpushed] at hpushed'
  cases hpushed'
  exact ⟨hredeems, hgrounded.justified_at hpushed⟩

/-- A record without exchanged access tokens has bounded sessions. -/
theorem sessionBounded_of_grounded (hgrounded : Grounded (Justified env) history)
    (hexchanges : Grounded ExchangesRefreshToken history) : SessionBounded env history := by
  intro push i record claims hpushed hderived
  cases hderived with
  | @access _ redemption hentry hpush =>
    subst hpush
    obtain ⟨hredeems, hauthorized⟩ := redeems_of_pushed hgrounded hentry hpushed
    obtain ⟨-, horder, -⟩ := record.clock.ordered
    rw [hredeems.access_eq, hauthorized.made.access_eq]
    have hfloor := timestamp_mul_le (record.clock.access + env.accessTokenTtl)
    simp only [DeSerClaims.ofClaims]
    omega
  | @renewed k _ kind refresh hentry hlater hpresented =>
    obtain ⟨hnotAccess, hlive⟩ := hexchanges.justified_at hentry refresh rfl
    obtain ⟨renewed, hrenews⟩ := hgrounded.justified_at hentry
    have hissued := timestamp_mul_le (refresh.clock.issue + env.accessTokenTtl)
    rw [hrenews.issued_eq]
    simp only [DeSerClaims.ofClaims]
    generalize refresh.presented = presented at hpresented hlive hnotAccess
    -- Only the refresh token of the redemption is left to be presented.
    cases hpresented with
    | access hentry' hpush =>
      exact absurd ((DerivedFrom.access hentry' hpush).mem_accessClaims hlater) hnotAccess
    | renewed hentry' hlater' hpresented' =>
      exact absurd ((DerivedFrom.renewed hentry' hlater' hpresented').mem_accessClaims hlater)
        hnotAccess
    | @refresh _ redemption hentry' hpush =>
      subst hpush
      obtain ⟨hredeems, hauthorized⟩ := redeems_of_pushed hgrounded hentry' hpushed
      rw [hredeems.refresh_eq, hauthorized.made.refresh_eq] at hlive
      have hfloor := timestamp_mul_le (record.clock.refresh + env.refreshTokenTtl)
      simp only [DeSerClaims.ofClaims] at hlive
      omega

/-- In every run in which only refresh tokens are presented for a refresh, and none that
runs out meanwhile, every session is bounded by its refresh token. -/
theorem session_bounded [DecidableEq Ip] (env : AuthEnv Ip)
    (decode : List UInt8 → Option VersionedTransaction) (cfg : LoopConfig) (health : HealthState)
    (auther : Pubkey → Bool) (ls : List (AuthLabel Ip)) (s : AuthState Ip)
    (hmeets : StepsMeet (authStep env decode cfg) (RefreshTokenOnly env)
      (AuthState.init health auther) ls)
    (hrun : runSteps (authStep env decode cfg) (AuthState.init health auther) ls = some s) :
    SessionBounded env s.history := by
  have hexchanges := runSteps_invariant_of_meets
    (fun s => Grounded ExchangesRefreshToken s.history)
    (fun _ _ _ hgrounded hcond hstep =>
      exchangesRefreshToken_move hgrounded hcond (move_of_authStep hstep))
    ls Grounded.nil hmeets hrun
  exact sessionBounded_of_grounded (AuthInv.run hrun).grounded hexchanges

theorem session_bounded_refreshedClient :
    ∃ s, runSteps (defaultStep [1800, 180000, 3000]) clientStart
        (loginRun ++ [refreshLabel 180000 1200]) = some s ∧
      (signedTokens s.history).length = 3 ∧
      SessionBounded (clientEnv [1800, 180000, 3000] 1800 180000) s.history := by
  have hrun : (runSteps (defaultStep [1800, 180000, 3000]) clientStart
      (loginRun ++ [refreshLabel 180000 1200])).map
        (fun s => (signedTokens s.history).length) = some 3 := by decide
  have hmeets : StepsMeet (defaultStep [1800, 180000, 3000])
      (RefreshTokenOnly (clientEnv [1800, 180000, 3000] 1800 180000)) clientStart
      (loginRun ++ [refreshLabel 180000 1200]) := by
    unfold StepsMeet
    decide
  obtain ⟨s, hs, hlength⟩ := Option.map_eq_some_iff.mp hrun
  exact ⟨s, hs, hlength, session_bounded _ _ _ _ _ _ s hmeets hs⟩

/-! ## A session without end -/

/-- When a challenge was generated. -/
def AuthEvent.generatedAt : AuthEvent Ip → Option Int
  | .pushed record => some record.clock.refresh
  | _ => none

/-- The push that is redeemed, and the access token it gives. -/
def AuthEvent.grant : AuthEvent Ip → Option (Nat × DeSerClaims)
  | .redeemed redemption => some (redemption.push, redemption.access.claims)
  | _ => none

/-- What is presented and what is issued in exchange. -/
def AuthEvent.exchange : AuthEvent Ip → Option (DeSerClaims × DeSerClaims)
  | .refreshed refresh => some (refresh.presented, refresh.issued.claims)
  | _ => none

theorem derivedFrom_of_grant {push i : Nat} {claims : DeSerClaims}
    (h : history[i]?.bind AuthEvent.grant = some (push, claims)) :
    DerivedFrom history push i .access claims := by
  obtain ⟨event, hevent, hgrant⟩ := Option.bind_eq_some_iff.mp h
  cases event with
  | redeemed redemption =>
    cases hgrant
    exact .access hevent rfl
  | _ => cases hgrant

theorem DerivedFrom.of_exchange {push i j : Nat} {kind : TokenKind}
    {presented issued : DeSerClaims} (hpresented : DerivedFrom history push i kind presented)
    (hlater : i < j) (h : history[j]?.bind AuthEvent.exchange = some (presented, issued)) :
    DerivedFrom history push j .access issued := by
  obtain ⟨event, hevent, hexchange⟩ := Option.bind_eq_some_iff.mp h
  cases event with
  | refreshed refresh =>
    cases hexchange
    exact .renewed hevent hlater hpresented
  | _ => cases hexchange

/-- A server whose refresh tokens live for 3600 seconds and access tokens for 1800. -/
abbrev shortEnv : AuthEnv Peer := clientEnv [1800, 3600, 3599, 5398, 7197] 1800 3600

/-- Its step function. -/
abbrev shortStep : AuthState Peer → AuthLabel Peer → Option (AuthState Peer) :=
  authStep shortEnv (fun _ => none) ⟨∅, 4, true, 5⟩

/-- One second before it runs out, each access token is exchanged for the next. -/
def chainRun : List (AuthLabel Peer) :=
  loginRun ++ [refreshLabel 1800 1799, refreshLabel 3599 3598, refreshLabel 5398 5397]

/-- Three exchanges of access tokens give one that runs out 7197 seconds after the challenge,
although both lifetimes together are 5400 seconds. -/
theorem session_unbounded :
    ¬ ∀ (ls : List (AuthLabel Peer)) (s : AuthState Peer),
      StepsMeet shortStep (Unforged shortEnv) clientStart ls →
      runSteps shortStep clientStart ls = some s → SessionBounded shortEnv s.history := by
  intro hall
  have hunforged : StepsMeet shortStep (Unforged shortEnv) clientStart chainRun := by
    unfold StepsMeet
    decide
  have hrun : (runSteps shortStep clientStart chainRun).map (fun s =>
      (s.history[0]?.bind AuthEvent.generatedAt, s.history[2]?.bind AuthEvent.grant,
        [4, 6, 8].map fun j => s.history[j]?.bind AuthEvent.exchange)) =
      some (some (second 0), some (0, clientClaims 1800),
        [some (clientClaims 1800, clientClaims 3599), some (clientClaims 3599, clientClaims 5398),
          some (clientClaims 5398, clientClaims 7197)]) := by decide
  obtain ⟨s, hs, hv⟩ := Option.map_eq_some_iff.mp hrun
  simp only [List.map_cons, List.map_nil, Prod.mk.injEq, List.cons.injEq, and_true] at hv
  obtain ⟨hgenerated, hgrant, hfirst, hsecond, hthird⟩ := hv
  have hderived : DerivedFrom s.history 0 8 .access (clientClaims 7197) :=
    (((derivedFrom_of_grant hgrant).of_exchange (by decide) hfirst).of_exchange (by decide)
      hsecond).of_exchange (by decide) hthird
  obtain ⟨event, hevent, htime⟩ := Option.bind_eq_some_iff.mp hgenerated
  cases event with
  | pushed record =>
    have hbound := hall chainRun s hunforged hs 0 8 record _ hevent hderived
    simp only [AuthEvent.generatedAt, Option.some.injEq] at htime
    rw [htime] at hbound
    exact absurd hbound (by decide)
  | _ => cases htime

end FlowraRelayer.Relayer
