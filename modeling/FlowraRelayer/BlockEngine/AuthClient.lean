/-
  BlockEngine/AuthClient.lean --- how the handler authenticates with the block engine:
  `auth` and `maybe_refresh_auth`.

  The auth service is outside the relayer: `AuthServiceClient` says what it answers to
  each request, and every call may meet another one.  What prost makes of a protobuf
  timestamp and what tonic accepts as a header value are oracles of `ClientEnv`.  An
  `unwrap` that meets `None` or `Err` is a failure of its own kind, named after the
  call it stands behind, so that "the thread panics" can be said.

  The result of the module is about a connection that is left to its refresh ticks
  (`presented_tokens_unexpired`).  Its argument is one line: when a tick returns, the
  access token has the full margin left, because it had it already or because it was
  handed out a moment ago (`lasts_maybeRefreshAuth`).
-/
import FlowraRelayer.BlockEngine.Interest
import FlowraRelayer.Foundation.Checks
import FlowraRelayer.Foundation.Run

set_option autoImplicit false

namespace FlowraRelayer.BlockEngine

open FlowraRelayer.Foundation
open FlowraRelayer.Solana

/-! ## Messages -/

/-- `prost_types::Timestamp`. -/
structure Timestamp where
  seconds : Int64
  nanos : Int32
  deriving DecidableEq

/-- `auth::Token`, as the client receives it. -/
structure Token where
  value : String
  expiresAtUtc : Option Timestamp
  deriving DecidableEq

/-- `GenerateAuthChallengeRequest`. -/
structure GenerateAuthChallengeRequest where
  role : Int
  pubkey : List UInt8
  deriving DecidableEq

/-- `GenerateAuthTokensRequest`. -/
structure GenerateAuthTokensRequest where
  challenge : String
  clientPubkey : List UInt8
  signedChallenge : List UInt8
  deriving DecidableEq

/-- `GenerateAuthTokensResponse`. -/
structure GenerateAuthTokensResponse where
  accessToken : Option Token
  refreshToken : Option Token
  deriving DecidableEq

/-- `RefreshAccessTokenRequest`. -/
structure RefreshAccessTokenRequest where
  refreshToken : String
  deriving DecidableEq

/-- The auth service during one call of the handler: its answer to each request, or
the text of its status. -/
structure AuthServiceClient where
  generateAuthChallenge : GenerateAuthChallengeRequest → Except String String
  generateAuthTokens : GenerateAuthTokensRequest → Except String GenerateAuthTokensResponse
  refreshAccessToken : RefreshAccessTokenRequest → Except String (Option Token)

/-! ## What the client is built from -/

/-- `Keypair`; `signMessage` signs the bytes of a text. -/
structure Keypair where
  pubkey : Pubkey
  signMessage : String → List UInt8

/-- The libraries and the logging of the client.  `systemTimeTryFrom` gives the time
of a timestamp in nanoseconds since the epoch, `parseHeader` the header value a text
parses to; `relayerRole` is `Role::Relayer as i32`, and `infoEnabled` says whether the
arguments of `info!` are evaluated. -/
structure ClientEnv where
  systemTimeTryFrom : Timestamp → Option Int
  parseHeader : String → Option String
  relayerRole : Int
  infoEnabled : Bool

/-- The calls the client unwraps. -/
inductive Unwrap where
  /-- `expires_at_utc.as_ref().unwrap()` -/
  | expiresAtUtc
  /-- `SystemTime::try_from(..).unwrap()` -/
  | systemTimeTryFrom
  /-- `duration_since(SystemTime::now()).unwrap()` -/
  | durationSince
  /-- `format!("Bearer {}", ..).parse().unwrap()` -/
  | headerValue
  deriving DecidableEq

/-- How a call of the client ends when it does not end in `Ok`. -/
inductive ClientFailure where
  | failed (error : BlockEngineError)
  | panicked (site : Unwrap)
  deriving DecidableEq

/-- `refresh_token` and `shared_access_token`. -/
structure Tokens where
  refreshToken : Token
  sharedAccessToken : Token
  deriving DecidableEq

/-! ## `auth` -/

/-- `auth`, with the access token first. -/
def auth (env : ClientEnv) (authClient : AuthServiceClient) (keypair : Keypair) :
    Except BlockEngineError (Token × Token) := do
  let authResponse ←
    (authClient.generateAuthChallenge
      { role := env.relayerRole, pubkey := keypair.pubkey.bytes }).mapError .authServiceFailure
  let challenge := keypair.pubkey.toText ++ "-" ++ authResponse
  let response ←
    (authClient.generateAuthTokens
      { challenge
        clientPubkey := keypair.pubkey.bytes
        signedChallenge := keypair.signMessage challenge }).mapError .authServiceFailure
  match response.accessToken, response.refreshToken with
  | some accessToken, some refreshToken =>
      ensure (accessToken.expiresAtUtc.isSome ∧ refreshToken.expiresAtUtc.isSome)
        (.authServiceFailure "auth tokens don't have valid expiration time")
      pure (accessToken, refreshToken)
  | _, _ => .error (.authServiceFailure "failed to get valid auth tokens")

/-- What `auth` returns was handed out with an expiration each. -/
theorem auth_eq_ok {env : ClientEnv} {authClient : AuthServiceClient} {keypair : Keypair}
    {accessToken refreshToken : Token}
    (h : auth env authClient keypair = .ok (accessToken, refreshToken)) :
    (∃ request, authClient.generateAuthTokens request =
        .ok ⟨some accessToken, some refreshToken⟩) ∧
      accessToken.expiresAtUtc.isSome ∧ refreshToken.expiresAtUtc.isSome := by
  simp only [auth, bind_eq_ok_iff, mapError_eq_ok_iff] at h
  obtain ⟨challenge, -, ⟨maybeAccess, maybeRefresh⟩, htokens, h⟩ := h
  split at h
  · next access refresh haccess hrefresh =>
    simp only [bind_eq_ok_iff, ensure_eq_ok_iff, pure_eq_ok_iff, Prod.mk.injEq] at h
    obtain ⟨-, hexpirations, rfl, rfl⟩ := h
    simp only at haccess hrefresh
    subst haccess
    subst hrefresh
    exact ⟨⟨_, htokens⟩, hexpirations⟩
  · cases h

/-! ## `maybe_refresh_auth` -/

/-- `Duration::from_secs(5 * 60)`. -/
def refreshMargin : Nat := 5 * 60 * nanosPerSecond

/-- `SystemTime::duration_since`; `none` when `earlier` is the later of the two. -/
def durationSince (time earlier : Int) : Option Nat :=
  if earlier ≤ time then some (time - earlier).toNat else none

/-- The expiration of a token, with the two `unwrap`s on the way to it. -/
def expirationTime (env : ClientEnv) (token : Token) : Except Unwrap Int := do
  let timestamp ← okOr .expiresAtUtc token.expiresAtUtc
  okOr .systemTimeTryFrom (env.systemTimeTryFrom timestamp)

/-- The two matches on the time a token has left. -/
def isExpiringSoon : Option Nat → Bool
  | some dur => decide (dur < refreshMargin)
  | none => true

/-- What a call of `maybe_refresh_auth` comes to: how it returns, the tokens it
leaves, and the request it made of `refresh_access_token`. -/
structure RefreshOutcome where
  result : Except ClientFailure Bool
  tokens : Tokens
  refreshRequest : Option RefreshAccessTokenRequest

/-- Whether the refresh token and the access token are about to expire; the clock is
read once for each. -/
def expiringSoon (env : ClientEnv) (accessNow refreshNow : Int) (tokens : Tokens) :
    Except Unwrap (Bool × Bool) := do
  let accessTokenExpirationTime ← expirationTime env tokens.sharedAccessToken
  let refreshTokenExpirationTime ← expirationTime env tokens.refreshToken
  pure
    ( isExpiringSoon (durationSince refreshTokenExpirationTime refreshNow)
    , isExpiringSoon (durationSince accessTokenExpirationTime accessNow) )

/-- `maybe_refresh_auth`. -/
def maybeRefreshAuth (env : ClientEnv) (authClient : AuthServiceClient) (keypair : Keypair)
    (accessNow refreshNow : Int) (tokens : Tokens) : RefreshOutcome :=
  match expiringSoon env accessNow refreshNow tokens with
  | .error site => ⟨.error (.panicked site), tokens, none⟩
  | .ok (true, _) =>
      match auth env authClient keypair with
      | .error e => ⟨.error (.failed e), tokens, none⟩
      | .ok (accessToken, newRefreshToken) => ⟨.ok true, ⟨newRefreshToken, accessToken⟩, none⟩
  | .ok (false, true) =>
      let request : RefreshAccessTokenRequest := ⟨tokens.refreshToken.value⟩
      match authClient.refreshAccessToken request with
      | .error e => ⟨.error (.failed (.authServiceFailure e)), tokens, some request⟩
      | .ok none =>
          ⟨.error (.failed (.authServiceFailure "missing access token")), tokens, some request⟩
      -- unlike `auth`, this branch does not look at the expiration of what it got
      | .ok (some accessToken) =>
          ⟨.ok true, { tokens with sharedAccessToken := accessToken }, some request⟩
  | .ok (false, false) => ⟨.ok false, tokens, none⟩

/-! ## Reading an expiration -/

section Expirations

variable {env : ClientEnv} {token : Token} {now : Int}

/-- The token carries an expiration, and prost can convert it. -/
def Readable (env : ClientEnv) (token : Token) : Prop :=
  ∃ e, expirationTime env token = .ok e

/-- The token has at least the margin left at `now`. -/
def Lasts (env : ClientEnv) (now : Int) (token : Token) : Prop :=
  ∃ e, expirationTime env token = .ok e ∧ now + refreshMargin ≤ e

/-- The token has less than the margin left at `now`, or has expired. -/
def ExpiresSoon (env : ClientEnv) (now : Int) (token : Token) : Prop :=
  ∃ e, expirationTime env token = .ok e ∧ e < now + refreshMargin

/-- The token carries an expiration, and `now` is before it. -/
def Unexpired (env : ClientEnv) (now : Int) (token : Token) : Prop :=
  ∃ e, expirationTime env token = .ok e ∧ now < e

theorem expirationTime_eq_ok_iff {e : Int} :
    expirationTime env token = .ok e ↔
      ∃ timestamp, token.expiresAtUtc = some timestamp ∧
        env.systemTimeTryFrom timestamp = some e := by
  simp [expirationTime]

theorem Lasts.readable (h : Lasts env now token) : Readable env token := by
  obtain ⟨e, he, -⟩ := h
  exact ⟨e, he⟩

/-- A token with the margin left at one time is unexpired for as long as the margin. -/
theorem Lasts.unexpired {time : Int} (h : Lasts env now token)
    (htime : time < now + refreshMargin) : Unexpired env time token := by
  obtain ⟨e, he, hleft⟩ := h
  exact ⟨e, he, by omega⟩

theorem Lasts.not_expiresSoon (h : Lasts env now token) : ¬ ExpiresSoon env now token := by
  rintro ⟨e', he', hsoon⟩
  obtain ⟨e, he, hleft⟩ := h
  rw [he] at he'
  cases he'
  omega

/-- The code's test, on a token with an expiration. -/
theorem isExpiringSoon_iff {e : Int} :
    isExpiringSoon (durationSince e now) = true ↔ e < now + refreshMargin := by
  unfold durationSince
  split
  · simp only [isExpiringSoon, decide_eq_true_eq]
    omega
  · simp only [isExpiringSoon, true_iff]
    omega

/-- The code's test decides between the two cases. -/
theorem expiresSoon_or_lasts (now : Int) {e : Int} (he : expirationTime env token = .ok e) :
    (isExpiringSoon (durationSince e now) = true ∧ ExpiresSoon env now token) ∨
      (isExpiringSoon (durationSince e now) = false ∧ Lasts env now token) := by
  cases hsoon : isExpiringSoon (durationSince e now) with
  | true => exact .inl ⟨rfl, e, he, isExpiringSoon_iff.mp hsoon⟩
  | false =>
    have hleft : ¬ e < now + refreshMargin := by
      rw [← isExpiringSoon_iff, hsoon]
      exact Bool.false_ne_true
    exact .inr ⟨rfl, e, he, Int.not_lt.mp hleft⟩

end Expirations

/-! ## One call -/

section OneCall

variable {env : ClientEnv} {authClient : AuthServiceClient} {keypair : Keypair} {tokens : Tokens}
  {accessNow refreshNow : Int}

/-- The ways in which `maybe_refresh_auth` returns when both expirations can be read. -/
inductive RefreshCase (env : ClientEnv) (authClient : AuthServiceClient) (keypair : Keypair)
    (accessNow refreshNow : Int) (tokens : Tokens) : RefreshOutcome → Prop where
  | kept (hrefresh : Lasts env refreshNow tokens.refreshToken)
      (haccess : Lasts env accessNow tokens.sharedAccessToken) :
      RefreshCase env authClient keypair accessNow refreshNow tokens ⟨.ok false, tokens, none⟩
  | authFailed (e : BlockEngineError) :
      RefreshCase env authClient keypair accessNow refreshNow tokens
        ⟨.error (.failed e), tokens, none⟩
  | authenticated (accessToken newRefreshToken : Token)
      (hrefresh : ExpiresSoon env refreshNow tokens.refreshToken)
      (hauth : auth env authClient keypair = .ok (accessToken, newRefreshToken)) :
      RefreshCase env authClient keypair accessNow refreshNow tokens
        ⟨.ok true, ⟨newRefreshToken, accessToken⟩, none⟩
  | refreshFailed (e : BlockEngineError) (hrefresh : Lasts env refreshNow tokens.refreshToken) :
      RefreshCase env authClient keypair accessNow refreshNow tokens
        ⟨.error (.failed e), tokens, some ⟨tokens.refreshToken.value⟩⟩
  | refreshed (accessToken : Token) (hrefresh : Lasts env refreshNow tokens.refreshToken)
      (hanswer : authClient.refreshAccessToken ⟨tokens.refreshToken.value⟩ =
        .ok (some accessToken)) :
      RefreshCase env authClient keypair accessNow refreshNow tokens
        ⟨.ok true, ⟨tokens.refreshToken, accessToken⟩, some ⟨tokens.refreshToken.value⟩⟩

/-- Everything a call can do while the tokens it holds have expirations it can read:
in particular it does not panic. -/
theorem maybeRefreshAuth_cases (haccess : Readable env tokens.sharedAccessToken)
    (hrefresh : Readable env tokens.refreshToken) :
    RefreshCase env authClient keypair accessNow refreshNow tokens
      (maybeRefreshAuth env authClient keypair accessNow refreshNow tokens) := by
  obtain ⟨access, haccess⟩ := haccess
  obtain ⟨refresh, hrefresh⟩ := hrefresh
  have hsoon : expiringSoon env accessNow refreshNow tokens =
      .ok (isExpiringSoon (durationSince refresh refreshNow),
        isExpiringSoon (durationSince access accessNow)) := by
    simp [expiringSoon, haccess, hrefresh, bind, Except.bind, pure, Except.pure]
  unfold maybeRefreshAuth
  rw [hsoon]
  obtain ⟨hr, hrefreshSoon⟩ | ⟨hr, hrefreshLasts⟩ :=
    expiresSoon_or_lasts refreshNow hrefresh
  · rw [hr]
    cases hauth : auth env authClient keypair with
    | error e => exact .authFailed e
    | ok pair => exact .authenticated pair.1 pair.2 hrefreshSoon hauth
  · rw [hr]
    obtain ⟨ha, -⟩ | ⟨ha, haccessLasts⟩ := expiresSoon_or_lasts accessNow haccess
    · rw [ha]
      dsimp only
      cases hanswer : authClient.refreshAccessToken ⟨tokens.refreshToken.value⟩ with
      | error e => exact .refreshFailed _ hrefreshLasts
      | ok maybeToken =>
        cases maybeToken with
        | none => exact .refreshFailed _ hrefreshLasts
        | some accessToken => exact .refreshed accessToken hrefreshLasts hanswer
    · rw [ha]
      exact .kept hrefreshLasts haccessLasts

end OneCall

/-! ## A connection left to its refresh ticks -/

/-- One turn of the `auth_refresh_interval` arm, taken in no time. -/
structure RefreshTick where
  now : Int
  authClient : AuthServiceClient

/-- The tokens of a connection, and when they were last looked after. -/
structure Session where
  tokens : Tokens
  lastAt : Int
  deriving DecidableEq

/-- The tick's call of `maybe_refresh_auth`. -/
def Session.refresh (env : ClientEnv) (keypair : Keypair) (s : Session) (tick : RefreshTick) :
    RefreshOutcome :=
  maybeRefreshAuth env tick.authClient keypair tick.now tick.now s.tokens

/-- A tick; no successor when the call does not return `Ok`, which ends the
connection. -/
def sessionStep (env : ClientEnv) (keypair : Keypair) (s : Session) (tick : RefreshTick) :
    Option Session :=
  match (s.refresh env keypair tick).result with
  | .ok _ => some ⟨(s.refresh env keypair tick).tokens, tick.now⟩
  | .error _ => none

/-- Every token the service hands out at `now` carries an expiration at least the
margin away. -/
structure HandsOutLasting (env : ClientEnv) (now : Int) (authClient : AuthServiceClient) :
    Prop where
  accessToken : ∀ request response token, authClient.generateAuthTokens request = .ok response →
    response.accessToken = some token → Lasts env now token
  refreshToken : ∀ request response token, authClient.generateAuthTokens request = .ok response →
    response.refreshToken = some token → Lasts env now token
  refreshed : ∀ request token, authClient.refreshAccessToken request = .ok (some token) →
    Lasts env now token

/-- The tick comes before the margin is used up, and the service hands out lasting
tokens at it.  The clock may also go back. -/
def InTime (env : ClientEnv) (s : Session) (tick : RefreshTick) : Prop :=
  tick.now < s.lastAt + refreshMargin ∧ HandsOutLasting env tick.now tick.authClient

/-- What the next tick meets and does. -/
structure TokensLookedAfter (env : ClientEnv) (keypair : Keypair) (s : Session)
    (tick : RefreshTick) : Prop where
  /-- the access token is unexpired until the tick -/
  unexpired : ∀ time, time ≤ tick.now → Unexpired env time s.tokens.sharedAccessToken
  /-- a request for a new access token presents the refresh token while it lasts -/
  requested : ∀ request, (s.refresh env keypair tick).refreshRequest = some request →
    request = ⟨s.tokens.refreshToken.value⟩ ∧ Lasts env tick.now s.tokens.refreshToken
  /-- the call returns -/
  returned : ∀ site, (s.refresh env keypair tick).result ≠ .error (.panicked site)
  /-- `Ok(false)` and `Err` change nothing -/
  unchanged : (s.refresh env keypair tick).result ≠ .ok true →
    (s.refresh env keypair tick).tokens = s.tokens
  /-- `Ok(true)` with a refresh token about to expire: both tokens are new -/
  replacedBoth : (s.refresh env keypair tick).result = .ok true →
    ExpiresSoon env tick.now s.tokens.refreshToken →
    ∃ accessToken refreshToken,
      auth env tick.authClient keypair = .ok (accessToken, refreshToken) ∧
        (s.refresh env keypair tick).tokens = ⟨refreshToken, accessToken⟩
  /-- `Ok(true)` with a refresh token that lasts: only the access token is new -/
  replacedAccess : (s.refresh env keypair tick).result = .ok true →
    ¬ ExpiresSoon env tick.now s.tokens.refreshToken →
    ∃ accessToken,
      tick.authClient.refreshAccessToken ⟨s.tokens.refreshToken.value⟩ = .ok (some accessToken) ∧
        (s.refresh env keypair tick).tokens = ⟨s.tokens.refreshToken, accessToken⟩

section Sessions

variable {env : ClientEnv} {keypair : Keypair} {s s' : Session} {tick : RefreshTick}

/-- Between two ticks the access token has the margin of the last one, and the refresh
token an expiration. -/
def Session.Kept (env : ClientEnv) (s : Session) : Prop :=
  Lasts env s.lastAt s.tokens.sharedAccessToken ∧ Readable env s.tokens.refreshToken

/-- What `auth` returns lasts, when everything handed out does. -/
theorem HandsOutLasting.auth {authClient : AuthServiceClient} {now : Int}
    {accessToken refreshToken : Token} (h : HandsOutLasting env now authClient)
    (hauth : BlockEngine.auth env authClient keypair = .ok (accessToken, refreshToken)) :
    Lasts env now accessToken ∧ Lasts env now refreshToken := by
  obtain ⟨⟨request, hanswer⟩, -⟩ := auth_eq_ok hauth
  exact ⟨h.accessToken request _ _ hanswer rfl, h.refreshToken request _ _ hanswer rfl⟩

theorem Session.Kept.refreshCase (h : s.Kept env) (keypair : Keypair) (tick : RefreshTick) :
    RefreshCase env tick.authClient keypair tick.now tick.now s.tokens
      (s.refresh env keypair tick) :=
  maybeRefreshAuth_cases h.1.readable h.2

/-- After a tick that returns `Ok` the access token has the full margin again: it had
it, or it has just been handed out. -/
theorem kept_sessionStep (hkept : s.Kept env) (htime : InTime env s tick)
    (hstep : sessionStep env keypair s tick = some s') : s'.Kept env := by
  have hcase := hkept.refreshCase keypair tick
  unfold sessionStep at hstep
  generalize s.refresh env keypair tick = outcome at hstep hcase
  cases hcase with
  | kept hrefresh haccess =>
    cases hstep
    exact ⟨haccess, hrefresh.readable⟩
  | authFailed e => cases hstep
  | authenticated accessToken newRefreshToken hrefresh hauth =>
    cases hstep
    obtain ⟨haccess, hnew⟩ := htime.2.auth hauth
    exact ⟨haccess, hnew.readable⟩
  | refreshFailed e hrefresh => cases hstep
  | refreshed accessToken hrefresh hanswer =>
    cases hstep
    exact ⟨htime.2.refreshed _ _ hanswer, hrefresh.readable⟩

/-- What a tick in time meets and does. -/
theorem tokensLookedAfter_of_kept (hkept : s.Kept env) (htime : InTime env s tick) :
    TokensLookedAfter env keypair s tick := by
  have hcase := hkept.refreshCase keypair tick
  have hunexpired : ∀ time, time ≤ tick.now → Unexpired env time s.tokens.sharedAccessToken := by
    intro time hle
    exact hkept.1.unexpired (Int.lt_of_le_of_lt hle htime.1)
  constructor
  case unexpired => exact hunexpired
  all_goals generalize s.refresh env keypair tick = outcome at hcase ⊢
  case requested =>
    intro request hrequest
    cases hcase with
    | kept | authFailed | authenticated => cases hrequest
    | refreshFailed e hrefresh =>
      cases hrequest
      exact ⟨rfl, hrefresh⟩
    | refreshed accessToken hrefresh hanswer =>
      cases hrequest
      exact ⟨rfl, hrefresh⟩
  case returned =>
    intro site hresult
    cases hcase <;> cases hresult
  case unchanged =>
    intro hresult
    cases hcase with
    | kept | authFailed | refreshFailed => rfl
    | authenticated | refreshed => exact absurd rfl hresult
  case replacedBoth =>
    intro hresult hsoon
    cases hcase with
    | kept | authFailed | refreshFailed => cases hresult
    | authenticated accessToken newRefreshToken hrefresh hauth =>
      exact ⟨accessToken, newRefreshToken, hauth, rfl⟩
    | refreshed accessToken hrefresh hanswer => exact absurd hsoon hrefresh.not_expiresSoon
  case replacedAccess =>
    intro hresult hlasts
    cases hcase with
    | kept | authFailed | refreshFailed => cases hresult
    | authenticated accessToken newRefreshToken hrefresh hauth => exact absurd hrefresh hlasts
    | refreshed accessToken hrefresh hanswer => exact ⟨accessToken, hanswer, rfl⟩

end Sessions

/-- From a connection authenticated at `connectedAt`, and after any number of ticks in
time that all returned `Ok`, the tokens are looked after at the next tick in time,
whatever that one returns.  The next tick is any: so the access token is unexpired at
every time until the margin of the last tick is used up. -/
theorem presented_tokens_unexpired (env : ClientEnv) (keypair : Keypair)
    (authClient : AuthServiceClient) (connectedAt : Int) (accessToken refreshToken : Token)
    (hauth : auth env authClient keypair = .ok (accessToken, refreshToken))
    (hlasting : HandsOutLasting env connectedAt authClient) (ticks : List RefreshTick)
    (s : Session) (next : RefreshTick)
    (hmeets : StepsMeet (sessionStep env keypair) (InTime env)
      ⟨⟨refreshToken, accessToken⟩, connectedAt⟩ ticks)
    (hrun : runSteps (sessionStep env keypair) ⟨⟨refreshToken, accessToken⟩, connectedAt⟩ ticks =
      some s)
    (hnext : InTime env s next) : TokensLookedAfter env keypair s next := by
  obtain ⟨haccess, hrefresh⟩ := hlasting.auth hauth
  have hstart : Session.Kept env ⟨⟨refreshToken, accessToken⟩, connectedAt⟩ :=
    ⟨haccess, hrefresh.readable⟩
  have hkept : s.Kept env :=
    runSteps_invariant_of_meets (Session.Kept env)
      (fun s l s' hinv hcond hstep => kept_sessionStep hinv hcond hstep) ticks hstart hmeets hrun
  exact tokensLookedAfter_of_kept hkept hnext

/-- Timestamps and header values that are what they look like. -/
def plainClient : ClientEnv where
  systemTimeTryFrom timestamp :=
    some (timestamp.seconds.toInt * nanosPerSecond + timestamp.nanos.toInt)
  parseHeader text := some text
  relayerRole := 0
  infoEnabled := true

def plainKeypair : Keypair := ⟨uniformKey 1, fun _ => []⟩

/-- A token that expires at a second. -/
def tokenUntil (second : Int64) : Token := ⟨"token", some ⟨second, 0⟩⟩

/-- A service whose access tokens last until one second and its refresh tokens until
another. -/
def serviceUntil (access refresh : Int64) : AuthServiceClient where
  generateAuthChallenge _ := .ok "challenge"
  generateAuthTokens _ := .ok ⟨some (tokenUntil access), some (tokenUntil refresh)⟩
  refreshAccessToken _ := .ok (some (tokenUntil access))

theorem expirationTime_tokenUntil (second : Int64) :
    expirationTime plainClient (tokenUntil second) = .ok (second.toInt * nanosPerSecond) := by
  simp [expirationTime, tokenUntil, plainClient]

theorem lasts_tokenUntil {now : Int} {second : Int64}
    (h : now + refreshMargin ≤ second.toInt * nanosPerSecond) :
    Lasts plainClient now (tokenUntil second) :=
  ⟨_, expirationTime_tokenUntil second, h⟩

theorem handsOutLasting_serviceUntil {now : Int} {access refresh : Int64}
    (haccess : now + refreshMargin ≤ access.toInt * nanosPerSecond)
    (hrefresh : now + refreshMargin ≤ refresh.toInt * nanosPerSecond) :
    HandsOutLasting plainClient now (serviceUntil access refresh) := by
  constructor
  · intro request response token hanswer htoken
    cases hanswer
    cases htoken
    exact lasts_tokenUntil haccess
  · intro request response token hanswer htoken
    cases hanswer
    cases htoken
    exact lasts_tokenUntil hrefresh
  · intro request token hanswer
    cases hanswer
    exact lasts_tokenUntil haccess

/-- Connected at second 0 with an access token for 310 seconds and a refresh token for
800: the tick at second 299 gets a new access token, and the one at second 550, where
the refresh token has 250 seconds left, would authenticate anew. -/
theorem presented_tokens_unexpired_twoTicks :
    ∃ s, runSteps (sessionStep plainClient plainKeypair)
        ⟨⟨tokenUntil 800, tokenUntil 310⟩, 0⟩ [⟨299 * nanosPerSecond, serviceUntil 700 1800⟩] =
        some s ∧
      s.tokens = ⟨tokenUntil 800, tokenUntil 700⟩ ∧
      (s.refresh plainClient plainKeypair ⟨550 * nanosPerSecond, serviceUntil 1000 1800⟩).tokens =
        ⟨tokenUntil 1800, tokenUntil 1000⟩ ∧
      TokensLookedAfter plainClient plainKeypair s
        ⟨550 * nanosPerSecond, serviceUntil 1000 1800⟩ := by
  have hstep : sessionStep plainClient plainKeypair ⟨⟨tokenUntil 800, tokenUntil 310⟩, 0⟩
      ⟨299 * nanosPerSecond, serviceUntil 700 1800⟩ =
        some ⟨⟨tokenUntil 800, tokenUntil 700⟩, 299 * nanosPerSecond⟩ := by decide
  have hrun : runSteps (sessionStep plainClient plainKeypair)
      ⟨⟨tokenUntil 800, tokenUntil 310⟩, 0⟩ [⟨299 * nanosPerSecond, serviceUntil 700 1800⟩] =
        some ⟨⟨tokenUntil 800, tokenUntil 700⟩, 299 * nanosPerSecond⟩ := by
    rw [runSteps_cons, hstep]
    rfl
  refine ⟨_, hrun, rfl, by decide, ?_⟩
  refine presented_tokens_unexpired plainClient plainKeypair (serviceUntil 310 800) 0 _ _ rfl
    (handsOutLasting_serviceUntil (by decide) (by decide)) _ _ _ (.cons ?_ hstep .nil) hrun ?_
  · exact ⟨by decide, handsOutLasting_serviceUntil (by decide) (by decide)⟩
  · exact ⟨by decide, handsOutLasting_serviceUntil (by decide) (by decide)⟩

end FlowraRelayer.BlockEngine
