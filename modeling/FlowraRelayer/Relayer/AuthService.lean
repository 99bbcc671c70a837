/-
  Relayer/AuthService.lean --- the handlers of `relayer/src/auth_service.rs`.

  Each handler is an `async fn`; between two `await`s it runs without interruption.
  A handler is therefore given piece by piece: what it does before its first lock,
  and what it does after each lock with the value read under that lock.  A piece
  returns either a failure, or the state in which the handler waits for its next
  lock, or its answer.

      generate_auth_challenge    challengeStart, challengeAfterLen,
                                 challengeAfterGetPriority
      generate_auth_tokens       tokensStart, tokensAfterGetPriority
      refresh_access_token       refreshAccessToken
      subscribe_packets          subscribePackets   (of `relayer.rs`)

  What the environment decides is passed in: the health state, the verdict of the
  `ValidatorAuther`, the random text of a challenge, the clock readings.  The ed25519
  library is a parameter, as are the texts, calendar and tokens of `AuthEnv`.
-/
import FlowraRelayer.Relayer.AuthChallenges
import FlowraRelayer.Relayer.EventLoop

set_option autoImplicit false

namespace FlowraRelayer.Relayer

open FlowraRelayer.Foundation
open FlowraRelayer.Solana

variable {Ip : Type}

/-! ## What the service is built from -/

/-- `solana_sdk::signature::SIGNATURE_BYTES`. -/
def signatureBytes : Nat := 64

/-- `ed25519_dalek`, as oracles: which 32 bytes are a public key, which 64 bytes are
a signature, and whether a signature of a text verifies under a key. -/
structure Ed25519 where
  isPublicKey : Pubkey → Bool
  isSignature : List UInt8 → Bool
  verify : Pubkey → String → List UInt8 → Bool

/-- `PublicKey::from_bytes`, with the bytes `to_bytes` gives back. -/
def Ed25519.publicKeyFromBytes (ed25519 : Ed25519) (bytes : List UInt8) : Option Pubkey :=
  (Pubkey.tryFrom bytes).filter ed25519.isPublicKey

/-- `Signature::from_bytes`. -/
def Ed25519.signatureFromBytes (ed25519 : Ed25519) (bytes : List UInt8) : Option (List UInt8) :=
  if ed25519.isSignature bytes then some bytes else none

/-- The libraries and the configuration of `AuthServiceImpl`; the lifetimes are in
nanoseconds.  `validatorRole` is `Role::Validator as i32`. -/
structure AuthEnv (Ip : Type) where
  calendar : Calendar
  ips : IpFormat Ip
  jwt : Jwt
  ed25519 : Ed25519
  validatorRole : Int
  accessTokenTtl : Nat
  refreshTokenTtl : Nat
  challengeTtl : Nat

/-- `AUTH_CHALLENGES_CAPACITY`. -/
def authChallengesCapacity : Nat := 100000

/-- What `generate_challenge_token` can return: nine alphanumeric characters. -/
structure ChallengeToken where
  text : String
  length_eq : text.length = 9
  alphanumeric : text.toList.all Char.isAlphanum = true

/-! ## Requests and answers -/

/-- `GenerateAuthChallengeRequest`, with the peer address. -/
structure ChallengeRequest (Ip : Type) where
  remoteAddr : Option Ip
  role : Int
  pubkey : List UInt8
  deriving DecidableEq

/-- `GenerateAuthTokensRequest`, with the peer address. -/
structure TokensRequest (Ip : Type) where
  remoteAddr : Option Ip
  challenge : String
  clientPubkey : List UInt8
  signedChallenge : List UInt8
  deriving DecidableEq

/-- `RefreshAccessTokenRequest`, with the peer address, which the handler never
reads. -/
structure RefreshRequest (Ip : Type) where
  remoteAddr : Option Ip
  refreshToken : String

/-- `auth::Token`: the JWT and the expiry told to the client, in seconds. -/
structure PbToken where
  value : String
  expiresAtUtc : Int
  deriving DecidableEq

/-- A token the server signed: its claims and what the client gets. -/
structure SignedToken where
  claims : DeSerClaims
  token : PbToken
  deriving DecidableEq

/-! ## Shared steps -/

/-- `check_health`, of the auth service and of the relayer service alike. -/
def checkHealth (health : HealthState) : Except Failure Unit :=
  ensure (health = .healthy) (.internal "relayer is unhealthy")

/-- `client_ip`. -/
def clientIp (remoteAddr : Option Ip) : Except Failure Ip :=
  okOr (.internal "request is missing IP address") remoteAddr

/-- Sign claims and report their expiry. -/
def signToken (env : AuthEnv Ip) (failure : Failure) (claims : Claims Ip) :
    Except Failure SignedToken := do
  let text := DeSerClaims.ofClaims env.ips claims
  let value ← okOr failure (env.jwt.sign text)
  pure { claims := text, token := { value, expiresAtUtc := timestamp claims.expiresAtUtc } }

/-! ## `generate_auth_challenge` -/

/-- Before the lock of `len`. -/
def challengeStart (health : HealthState) : Except Failure Unit := checkHealth health

/-- Between the lock of `len` and that of `get_priority`. -/
def challengeAfterLen (len : Nat) (req : ChallengeRequest Ip) : Except Failure Ip := do
  ensure (len < authChallengesCapacity) (.resourceExhausted "System overloaded.")
  clientIp req.remoteAddr

theorem challengeAfterLen_eq_ok {len : Nat} {req : ChallengeRequest Ip} {ip : Ip}
    (h : challengeAfterLen len req = .ok ip) :
    len < authChallengesCapacity ∧ req.remoteAddr = some ip := by
  simp only [challengeAfterLen, clientIp, bind_eq_ok_iff, ensure_eq_ok_iff, okOr_eq_ok_iff] at h
  obtain ⟨-, hlen, hip⟩ := h
  exact ⟨hlen, hip⟩

/-- The clock readings between `get_priority` and `push`, in the order in which they
are taken: for `is_expired`, for the two claims, for the challenge. -/
structure ChallengeClock where
  stored : Int
  access : Int
  refresh : Int
  challenge : Int
  ordered : stored ≤ access ∧ access ≤ refresh ∧ refresh ≤ challenge

/-- `Utc::now().add(ttl).naive_utc()`. -/
def expiry (env : AuthEnv Ip) (now : Int) (ttl : Nat) : Except Failure Int :=
  okOr .panicked (env.calendar.add now ttl)

/-- The validation of a request for a new challenge and the challenge made for it. -/
def newChallenge (env : AuthEnv Ip) (isAuthorized : Pubkey → Bool) (clock : ChallengeClock)
    (token : ChallengeToken) (clientIp : Ip) (req : ChallengeRequest Ip) :
    Except Failure (AuthChallenge Ip) := do
  ensure (req.role = env.validatorRole) (.invalidArgument "Role must be validator.")
  ensure (req.pubkey.length = pubkeyBytes)
    (.invalidArgument "Pubkey must be 32 bytes in length")
  let pubkey ← okOr (.invalidArgument "Invalid pubkey supplied.") (Pubkey.tryFrom req.pubkey)
  ensure (isAuthorized pubkey)
    (.permissionDenied "The supplied pubkey is not authorized to generate a challenge.")
  let accessExpiry ← expiry env clock.access env.accessTokenTtl
  let refreshExpiry ← expiry env clock.refresh env.refreshTokenTtl
  let challengeExpiry ← expiry env clock.challenge env.challengeTtl
  pure
    { challenge := token.text
      accessClaims := { clientIp, clientPubkey := pubkey, expiresAtUtc := accessExpiry }
      refreshClaims := { clientIp, clientPubkey := pubkey, expiresAtUtc := refreshExpiry }
      expiresAtUtc := challengeExpiry }

/-- What the handler does once it has looked the client up. -/
inductive ChallengeDecision (Ip : Type) where
  /-- return the challenge the store holds for the client -/
  | reuse (challenge : String)
  /-- push a new one -/
  | push (challenge : AuthChallenge Ip)

/-- Between the lock of `get_priority` and that of `push`. -/
def challengeAfterGetPriority (env : AuthEnv Ip) (isAuthorized : Pubkey → Bool)
    (stored : Option (AuthChallenge Ip)) (clock : ChallengeClock) (token : ChallengeToken)
    (clientIp : Ip) (req : ChallengeRequest Ip) : Except Failure (ChallengeDecision Ip) :=
  match stored.filter fun challenge => !challenge.isExpired clock.stored with
  | some challenge => pure (.reuse challenge.challenge)
  | none => do
      let challenge ← newChallenge env isAuthorized clock token clientIp req
      pure (.push challenge)

/-- The content of a challenge made for a client at the given clock readings. -/
structure MadeFor (env : AuthEnv Ip) (clock : ChallengeClock) (ip : Ip) (pubkey : Pubkey)
    (challenge : AuthChallenge Ip) : Prop where
  access_eq : challenge.accessClaims = ⟨ip, pubkey, clock.access + env.accessTokenTtl⟩
  refresh_eq : challenge.refreshClaims = ⟨ip, pubkey, clock.refresh + env.refreshTokenTtl⟩
  expires_eq : challenge.expiresAtUtc = clock.challenge + env.challengeTtl
  access_inRange : env.calendar.inRange challenge.accessClaims.expiresAtUtc = true
  refresh_inRange : env.calendar.inRange challenge.refreshClaims.expiresAtUtc = true

theorem expiry_eq_ok_iff {env : AuthEnv Ip} {now time : Int} {ttl : Nat} :
    expiry env now ttl = .ok time ↔ env.calendar.inRange (now + ttl) = true ∧ time = now + ttl := by
  simp only [expiry, okOr_eq_ok_iff, Calendar.add, Calendar.represent_eq_some_iff]

/-- A new challenge is made for an authorised key, with claims for that key and for
the client's address. -/
theorem newChallenge_eq_ok {env : AuthEnv Ip} {isAuthorized : Pubkey → Bool}
    {clock : ChallengeClock} {token : ChallengeToken} {ip : Ip} {req : ChallengeRequest Ip}
    {challenge : AuthChallenge Ip}
    (h : newChallenge env isAuthorized clock token ip req = .ok challenge) :
    ∃ pubkey, Pubkey.tryFrom req.pubkey = some pubkey ∧ isAuthorized pubkey = true ∧
      req.role = env.validatorRole ∧ challenge.challenge = token.text ∧
      MadeFor env clock ip pubkey challenge := by
  simp only [newChallenge, bind_eq_ok_iff, ensure_eq_ok_iff, okOr_eq_ok_iff, pure_eq_ok_iff,
    expiry_eq_ok_iff] at h
  obtain ⟨-, hrole, -, -, pubkey, hpubkey, -, hauthorized, _, ⟨haccess, rfl⟩, _, ⟨hrefresh, rfl⟩,
    _, ⟨-, rfl⟩, rfl⟩ := h
  exact ⟨pubkey, hpubkey, hauthorized, hrole, rfl, ⟨rfl, rfl, rfl, haccess, hrefresh⟩⟩

/-- A challenge is pushed only if the store holds no unexpired one for the client. -/
theorem challengeAfterGetPriority_eq_push {env : AuthEnv Ip} {isAuthorized : Pubkey → Bool}
    {stored : Option (AuthChallenge Ip)} {clock : ChallengeClock} {token : ChallengeToken} {ip : Ip}
    {req : ChallengeRequest Ip} {challenge : AuthChallenge Ip}
    (h : challengeAfterGetPriority env isAuthorized stored clock token ip req =
      .ok (.push challenge)) :
    (∀ old ∈ stored, old.isExpired clock.stored = true) ∧
      newChallenge env isAuthorized clock token ip req = .ok challenge := by
  unfold challengeAfterGetPriority at h
  split at h
  · simp at h
  · rename_i hfilter
    simp only [bind_eq_ok_iff, pure_eq_ok_iff, ChallengeDecision.push.injEq] at h
    obtain ⟨_, hnew, rfl⟩ := h
    refine ⟨?_, hnew⟩
    intro old hold
    rw [Option.filter_eq_none_iff] at hfilter
    simpa using hfilter old hold

/-- The challenge returned without a push is the one the store holds, unexpired. -/
theorem challengeAfterGetPriority_eq_reuse {env : AuthEnv Ip} {isAuthorized : Pubkey → Bool}
    {stored : Option (AuthChallenge Ip)} {clock : ChallengeClock} {token : ChallengeToken} {ip : Ip}
    {req : ChallengeRequest Ip} {text : String}
    (h : challengeAfterGetPriority env isAuthorized stored clock token ip req =
      .ok (.reuse text)) :
    ∃ challenge, stored = some challenge ∧ challenge.isExpired clock.stored = false ∧
      text = challenge.challenge := by
  unfold challengeAfterGetPriority at h
  split at h
  · rename_i challenge hfilter
    rw [Option.filter_eq_some_iff] at hfilter
    simp only [pure_eq_ok_iff, ChallengeDecision.reuse.injEq] at h
    exact ⟨challenge, hfilter.1, by simpa using hfilter.2, h.symm⟩
  · simp only [bind_eq_ok_iff, pure_eq_ok_iff, reduceCtorEq, and_false, exists_false] at h

/-! ## `generate_auth_tokens` -/

/-- Before the lock of `get_priority`: the client's address and key. -/
def tokensStart (env : AuthEnv Ip) (health : HealthState) (req : TokensRequest Ip) :
    Except Failure (Ip × Pubkey) := do
  checkHealth health
  let ip ← clientIp req.remoteAddr
  let clientPubkey ← okOr (.invalidArgument "Invalid pubkey supplied.")
    (env.ed25519.publicKeyFromBytes req.clientPubkey)
  pure (ip, clientPubkey)

theorem tokensStart_eq_ok {env : AuthEnv Ip} {health : HealthState} {req : TokensRequest Ip}
    {ip : Ip} {pubkey : Pubkey} (h : tokensStart env health req = .ok (ip, pubkey)) :
    req.remoteAddr = some ip ∧
      env.ed25519.publicKeyFromBytes req.clientPubkey = some pubkey := by
  simp only [tokensStart, clientIp, bind_eq_ok_iff, okOr_eq_ok_iff, pure_eq_ok_iff,
    Prod.mk.injEq] at h
  obtain ⟨-, -, _, hip, _, hpubkey, rfl, rfl⟩ := h
  exact ⟨hip, hpubkey⟩

/-- The text a client has to sign. -/
def expectedChallenge (solanaPubkey : Pubkey) (challenge : String) : String :=
  solanaPubkey.toText ++ "-" ++ challenge

/-- Between the lock of `get_priority` and that of `remove`: the access and the
refresh token. -/
def tokensAfterGetPriority (env : AuthEnv Ip) (stored : Option (AuthChallenge Ip))
    (solanaPubkey : Pubkey) (req : TokensRequest Ip) :
    Except Failure (SignedToken × SignedToken) := do
  let authChallenge ← okOr
    (.permissionDenied "Must invoke the GenerateAuthChallenge method before calling any method.")
    stored
  ensure (authChallenge.accessClaims.clientPubkey = solanaPubkey)
    (.permissionDenied
      "The pubkey provided does not match the pubkey that generated the challenge.")
  let expected := expectedChallenge solanaPubkey authChallenge.challenge
  ensure (expected = req.challenge)
    (.invalidArgument
      ("The provided challenge does not match the expected challenge: " ++ expected))
  ensure (req.signedChallenge.length = signatureBytes)
    (.invalidArgument "Signature must be 64 bytes.")
  let signedChallenge ← okOr (.invalidArgument "Invalid signature.")
    (env.ed25519.signatureFromBytes req.signedChallenge)
  ensure (env.ed25519.verify solanaPubkey req.challenge signedChallenge)
    (.invalidArgument
      "Failed challenge verification. Did you sign with the supplied pubkey's corresponding private key?")
  let accessToken ← signToken env (.internal "Error signing access_token.")
    authChallenge.accessClaims
  let refreshToken ← signToken env (.internal "Error signing refresh_token.")
    authChallenge.refreshClaims
  pure (accessToken, refreshToken)

theorem signToken_eq_ok {env : AuthEnv Ip} {failure : Failure} {claims : Claims Ip}
    {signed : SignedToken} (h : signToken env failure claims = .ok signed) :
    signed.claims = DeSerClaims.ofClaims env.ips claims ∧
      signed.token.expiresAtUtc = signed.claims.expiresAtUnixTs := by
  simp only [signToken, bind_eq_ok_iff, okOr_eq_ok_iff, pure_eq_ok_iff] at h
  obtain ⟨_, -, rfl⟩ := h
  exact ⟨rfl, rfl⟩

/-- What a request for tokens has shown when its tokens are signed. -/
theorem tokensAfterGetPriority_eq_ok {env : AuthEnv Ip} {stored : Option (AuthChallenge Ip)}
    {solanaPubkey : Pubkey} {req : TokensRequest Ip} {access refresh : SignedToken}
    (h : tokensAfterGetPriority env stored solanaPubkey req = .ok (access, refresh)) :
    ∃ authChallenge, stored = some authChallenge ∧
      authChallenge.accessClaims.clientPubkey = solanaPubkey ∧
      req.challenge = expectedChallenge solanaPubkey authChallenge.challenge ∧
      env.ed25519.verify solanaPubkey req.challenge req.signedChallenge = true ∧
      access.claims = DeSerClaims.ofClaims env.ips authChallenge.accessClaims ∧
      access.token.expiresAtUtc = access.claims.expiresAtUnixTs ∧
      refresh.claims = DeSerClaims.ofClaims env.ips authChallenge.refreshClaims ∧
      refresh.token.expiresAtUtc = refresh.claims.expiresAtUnixTs := by
  simp only [tokensAfterGetPriority, bind_eq_ok_iff, ensure_eq_ok_iff, okOr_eq_ok_iff,
    pure_eq_ok_iff, Prod.mk.injEq, Ed25519.signatureFromBytes,
    Option.ite_none_right_eq_some, Option.some.injEq] at h
  obtain ⟨authChallenge, hstored, -, hpubkey, -, hexpected, -, -, _, ⟨-, rfl⟩, -, hverify, _,
    haccess, _, hrefresh, rfl, rfl⟩ := h
  obtain ⟨haccessClaims, haccessExpiry⟩ := signToken_eq_ok haccess
  obtain ⟨hrefreshClaims, hrefreshExpiry⟩ := signToken_eq_ok hrefresh
  exact ⟨authChallenge, hstored, hpubkey, hexpected.symm, hverify, haccessClaims, haccessExpiry,
    hrefreshClaims, hrefreshExpiry⟩

/-- The first piece lets a request with an address and a public key through while the
relayer is healthy. -/
theorem tokensStart_of_healthy {env : AuthEnv Ip} {req : TokensRequest Ip} {ip : Ip}
    {pubkey : Pubkey} (hip : req.remoteAddr = some ip)
    (hpubkey : env.ed25519.publicKeyFromBytes req.clientPubkey = some pubkey) :
    tokensStart env .healthy req = .ok (ip, pubkey) := by
  simp only [tokensStart, checkHealth, clientIp, bind_eq_ok_iff, ensure_eq_ok_iff, okOr_eq_ok_iff,
    pure_eq_ok_iff, Prod.mk.injEq]
  exact ⟨(), trivial, ip, hip, pubkey, hpubkey, rfl, rfl⟩

theorem signToken_of_signs {env : AuthEnv Ip} {claims : Claims Ip} (failure : Failure)
    (hsigns : (env.jwt.sign (DeSerClaims.ofClaims env.ips claims)).isSome = true) :
    ∃ signed, signToken env failure claims = .ok signed := by
  obtain ⟨value, hvalue⟩ := Option.isSome_iff_exists.mp hsigns
  simp only [signToken, bind_eq_ok_iff, okOr_eq_ok_iff, pure_eq_ok_iff]
  exact ⟨_, value, hvalue, rfl⟩

/-- The second piece signs tokens for a request that names the stored challenge behind the
key of its claims and carries a valid signature of it. -/
theorem tokensAfterGetPriority_of_signed {env : AuthEnv Ip} {challenge : AuthChallenge Ip}
    {pubkey : Pubkey} {req : TokensRequest Ip}
    (hsigns : ∀ claims : Claims Ip,
      (env.jwt.sign (DeSerClaims.ofClaims env.ips claims)).isSome = true)
    (hpubkey : challenge.accessClaims.clientPubkey = pubkey)
    (htext : req.challenge = expectedChallenge pubkey challenge.challenge)
    (hlength : req.signedChallenge.length = signatureBytes)
    (hsignature : env.ed25519.isSignature req.signedChallenge = true)
    (hverify : env.ed25519.verify pubkey req.challenge req.signedChallenge = true) :
    ∃ access refresh,
      tokensAfterGetPriority env (some challenge) pubkey req = .ok (access, refresh) := by
  obtain ⟨access, haccess⟩ := signToken_of_signs (.internal "Error signing access_token.")
    (hsigns challenge.accessClaims)
  obtain ⟨refresh, hrefresh⟩ := signToken_of_signs (.internal "Error signing refresh_token.")
    (hsigns challenge.refreshClaims)
  refine ⟨access, refresh, ?_⟩
  simp only [tokensAfterGetPriority, bind_eq_ok_iff, ensure_eq_ok_iff, okOr_eq_ok_iff,
    pure_eq_ok_iff, Ed25519.signatureFromBytes, Option.ite_none_right_eq_some, Option.some.injEq]
  exact ⟨challenge, rfl, (), hpubkey, (), htext.symm, (), hlength, _, ⟨hsignature, rfl⟩, (),
    hverify, access, haccess, refresh, hrefresh, rfl⟩

/-! ## `refresh_access_token` -/

/-- The two clock readings of `refresh_access_token`: for `is_expired` and for the
new expiry. -/
structure RefreshClock where
  check : Int
  issue : Int
  ordered : check ≤ issue

/-- `refresh_access_token`: the claims that were presented and the token issued for
them. -/
def refreshAccessToken (env : AuthEnv Ip) (health : HealthState) (clock : RefreshClock)
    (req : RefreshRequest Ip) : Except Failure (DeSerClaims × SignedToken) := do
  checkHealth health
  let (_, presented) ← okOr (.permissionDenied "Invalid refresh_token supplied")
    (env.jwt.verify req.refreshToken)
  let refreshClaims ← Claims.ofDeSer env.calendar env.ips presented
  ensure (refreshClaims.isExpired clock.check = false)
    (.permissionDenied
      "Client refresh_token has expired, please generate a new auth challenge to obtain a set of new access tokens.")
  let expiresAtUtc ← expiry env clock.issue env.accessTokenTtl
  let accessToken ← signToken env (.internal "Error signing access_token.")
    { refreshClaims with expiresAtUtc }
  pure (presented, accessToken)

/-- What a refresh reads and writes: the claims a verified token carries, not expired,
and a token for the same address and key. -/
theorem refreshAccessToken_eq_ok {env : AuthEnv Ip} {health : HealthState} {clock : RefreshClock}
    {req : RefreshRequest Ip} {presented : DeSerClaims} {issued : SignedToken}
    (h : refreshAccessToken env health clock req = .ok (presented, issued)) :
    (∃ algorithm, env.jwt.verify req.refreshToken = some (algorithm, presented)) ∧
    ∃ claims : Claims Ip, Claims.ofDeSer env.calendar env.ips presented = .ok claims ∧
      clock.check < claims.expiresAtUtc ∧
      env.calendar.inRange (clock.issue + env.accessTokenTtl) = true ∧
      issued.claims = DeSerClaims.ofClaims env.ips
        { claims with expiresAtUtc := clock.issue + env.accessTokenTtl } ∧
      issued.token.expiresAtUtc = issued.claims.expiresAtUnixTs := by
  simp only [refreshAccessToken, bind_eq_ok_iff, ensure_eq_ok_iff, okOr_eq_ok_iff, pure_eq_ok_iff,
    Prod.mk.injEq, expiry_eq_ok_iff] at h
  obtain ⟨-, -, ⟨algorithm, verified⟩, hverify, claims, hclaims, -, hexpired, _, ⟨hrange, rfl⟩, _,
    hsign, rfl, rfl⟩ := h
  obtain ⟨hissued, hexpiry⟩ := signToken_eq_ok hsign
  have hlive : clock.check < claims.expiresAtUtc := by
    simpa [Claims.isExpired] using hexpired
  exact ⟨⟨algorithm, hverify⟩, claims, hclaims, hlive, hrange, hissued, hexpiry⟩

/-! ## `subscribe_packets` -/

/-- `subscribe_packets` up to its `send`: the key the interceptor left with the
request. -/
def subscribePackets (health : HealthState) (extension : Option Pubkey) :
    Except Failure Pubkey := do
  checkHealth health
  okOr (.internal "internal error fetching public key") extension

end FlowraRelayer.Relayer
