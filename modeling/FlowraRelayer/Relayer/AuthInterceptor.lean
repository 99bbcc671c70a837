/-
  Relayer/AuthInterceptor.lean --- `relayer/src/auth_interceptor.rs`.

  A token is a JWT over `DeSerClaims`: the client's IP and public key as texts and
  the expiry in whole seconds.  `Claims` is the parsed form.  The interceptor in
  front of the relayer service verifies the token of the `authorization` header
  and hands the public key of its claims on with the request.

  Three things the code uses are not part of the repository and stand here as
  parameters: the text form of an IP address (`IpFormat`), the range of chrono's
  date-times (`Calendar`) and the JWT library with this server's key pair (`Jwt`).
  A law is stated only where the code relies on it.

  Times are nanoseconds since the Unix epoch.  An `unwrap` that fails and a failed
  assertion end the request as `Failure.panicked`.
-/
import FlowraRelayer.Foundation.Checks
import FlowraRelayer.Foundation.Run
import FlowraRelayer.Foundation.Split
import FlowraRelayer.Solana.Transaction

set_option autoImplicit false

namespace FlowraRelayer.Relayer

open FlowraRelayer.Foundation
open FlowraRelayer.Solana

/-! ## How a request fails -/

/-- The `tonic::Code`s the two services answer with. -/
inductive Code where
  | internal
  | invalidArgument
  | permissionDenied
  | resourceExhausted
  deriving DecidableEq

/-- `tonic::Status`. -/
structure Status where
  code : Code
  message : String
  deriving DecidableEq

/-- Why a request has no answer. -/
inductive Failure where
  | status (status : Status)
  | panicked
  deriving DecidableEq

namespace Failure

/-- `Status::internal`. -/
def internal (message : String) : Failure := .status ⟨.internal, message⟩

/-- `Status::invalid_argument`. -/
def invalidArgument (message : String) : Failure := .status ⟨.invalidArgument, message⟩

/-- `Status::permission_denied`. -/
def permissionDenied (message : String) : Failure := .status ⟨.permissionDenied, message⟩

/-- `Status::resource_exhausted`. -/
def resourceExhausted (message : String) : Failure := .status ⟨.resourceExhausted, message⟩

end Failure

/-! ## Times -/

/-- `DateTime::timestamp`: whole seconds, rounded down. -/
def timestamp (time : Int) : Int := time / nanosPerSecond

/-- The times chrono can represent.  The earliest one falls on a whole second, so
rounding down to a second does not leave the range. -/
structure Calendar where
  inRange : Int → Bool
  inRange_wholeSecond : ∀ time, inRange time → inRange (timestamp time * nanosPerSecond)

namespace Calendar

/-- A time, if chrono can represent it. -/
def represent (calendar : Calendar) (time : Int) : Option Int :=
  if calendar.inRange time then some time else none

/-- `DateTime::from_timestamp(seconds, 0)`. -/
def fromTimestamp (calendar : Calendar) (seconds : Int) : Option Int :=
  calendar.represent (seconds * nanosPerSecond)

/-- `now.add(ttl)`, which panics outside the range. -/
def add (calendar : Calendar) (now : Int) (ttl : Nat) : Option Int :=
  calendar.represent (now + ttl)

theorem represent_eq_some_iff {calendar : Calendar} {time time' : Int} :
    calendar.represent time = some time' ↔ calendar.inRange time = true ∧ time' = time := by
  unfold represent
  split
  · rename_i hin
    rw [Option.some.injEq, eq_comm]
    exact ⟨fun h => ⟨hin, h⟩, fun h => h.2⟩
  · rename_i hout
    exact ⟨fun h => (nomatch h), fun h => absurd h.1 hout⟩

end Calendar

theorem timestamp_mul_le (time : Int) : timestamp time * nanosPerSecond ≤ time := by
  unfold timestamp nanosPerSecond
  omega

/-! ## Claims -/

/-- The text form of an IP address: `Display` and `FromStr` of `IpAddr`. -/
structure IpFormat (Ip : Type) where
  toText : Ip → String
  fromStr : String → Option Ip
  fromStr_toText : ∀ ip, fromStr (toText ip) = some ip

/-- What a token is encoded with. -/
structure Claims (Ip : Type) where
  clientIp : Ip
  clientPubkey : Pubkey
  expiresAtUtc : Int
  deriving DecidableEq

/-- The claims as they stand in the token. -/
structure DeSerClaims where
  clientIp : String
  clientPubkey : String
  expiresAtUnixTs : Int
  deriving DecidableEq

section Claims

variable {Ip : Type}

/-- `Claims::is_expired`. -/
def Claims.isExpired (claims : Claims Ip) (now : Int) : Bool :=
  decide (claims.expiresAtUtc ≤ now)

/-- `From<Claims> for DeSerClaims`. -/
def DeSerClaims.ofClaims (ips : IpFormat Ip) (claims : Claims Ip) : DeSerClaims where
  clientIp := ips.toText claims.clientIp
  clientPubkey := claims.clientPubkey.toText
  expiresAtUnixTs := timestamp claims.expiresAtUtc

/-- `From<&DeSerClaims> for Claims`; each of its three `unwrap`s can panic. -/
def Claims.ofDeSer (calendar : Calendar) (ips : IpFormat Ip) (claims : DeSerClaims) :
    Except Failure (Claims Ip) := do
  let clientIp ← okOr .panicked (ips.fromStr claims.clientIp)
  let clientPubkey ← okOr .panicked (Pubkey.fromStr claims.clientPubkey)
  let expiresAtUtc ← okOr .panicked (calendar.fromTimestamp claims.expiresAtUnixTs)
  pure { clientIp, clientPubkey, expiresAtUtc }

/-- What a successful conversion read. -/
theorem Claims.ofDeSer_eq_ok {calendar : Calendar} {ips : IpFormat Ip} {text : DeSerClaims}
    {claims : Claims Ip} (h : Claims.ofDeSer calendar ips text = .ok claims) :
    ips.fromStr text.clientIp = some claims.clientIp ∧
      Pubkey.fromStr text.clientPubkey = some claims.clientPubkey ∧
      claims.expiresAtUtc = text.expiresAtUnixTs * nanosPerSecond := by
  simp only [Claims.ofDeSer, bind_eq_ok_iff, okOr_eq_ok_iff, pure_eq_ok_iff,
    Calendar.fromTimestamp, Calendar.represent_eq_some_iff] at h
  obtain ⟨ip, hip, pubkey, hpubkey, expiry, ⟨-, rfl⟩, rfl⟩ := h
  exact ⟨hip, hpubkey, rfl⟩

/-- The texts the server writes parse back: no `unwrap` fails on them, and only the
fraction of a second is lost. -/
theorem Claims.ofDeSer_ofClaims (calendar : Calendar) (ips : IpFormat Ip) (claims : Claims Ip)
    (hrange : calendar.inRange claims.expiresAtUtc = true) :
    Claims.ofDeSer calendar ips (DeSerClaims.ofClaims ips claims) =
      .ok { claims with expiresAtUtc := timestamp claims.expiresAtUtc * nanosPerSecond } := by
  have hsecond := calendar.inRange_wholeSecond claims.expiresAtUtc hrange
  simp [Claims.ofDeSer, DeSerClaims.ofClaims, ips.fromStr_toText, Pubkey.fromStr_toText, okOr,
    Calendar.fromTimestamp, Calendar.represent, hsecond]

end Claims

/-! ## Tokens -/

/-- `jwt::AlgorithmType`; only one of its members is named by the code. -/
inductive AlgorithmType where
  | rs256
  | other (name : String)
  deriving DecidableEq

/-- The JWT library with this server's keys.  `sign` is
`Token::new(header, claims).sign_with_key(signing_key)` with an RS256 header;
`verify` is `verify_with_key(verifying_key)` and returns the algorithm of the
header and the claims. -/
structure Jwt where
  sign : DeSerClaims → Option String
  verify : String → Option (AlgorithmType × DeSerClaims)

/-! ## The interceptor -/

/-- A value of the request metadata: a text, or bytes `to_str` refuses. -/
inductive MetadataValue where
  | text (value : String)
  | unreadable
  deriving DecidableEq

/-- A request of the relayer service before the interceptor: the peer address and
the value of `AUTHORIZATION_HEADER`. -/
structure InterceptedRequest (Ip : Type) where
  remoteAddr : Option Ip
  authorization : Option MetadataValue

/-- `BEARER`. -/
def bearer : String := "Bearer "

/-- The part of `jwt_from_header` before verification: the text that is verified. -/
def bearerToken (authorization : Option MetadataValue) : Except Failure String := do
  let value ← okOr (.permissionDenied "The authorization header is missing.") authorization
  match value with
  | .unreadable => .error (.invalidArgument "Failed to parse authorization header.")
  | .text authHeader =>
      ensure (bearer.toList.isPrefixOf authHeader.toList)
        (.permissionDenied
          "Invalid authorization header format. Must conform to `Authorization: Bearer $\x7btoken\x7d`.")
      match splitBy bearer.toList authHeader.toList with
      | [_, token] => pure (String.ofList token)
      | _ => .error (.permissionDenied "Missing jwt token.")

/-- `jwt_from_header`: the claims of the verified token. -/
def jwtFromHeader (jwt : Jwt) (expectedSigningAlgo : AlgorithmType)
    (authorization : Option MetadataValue) : Except Failure DeSerClaims := do
  let token ← bearerToken authorization
  let (algorithm, claims) ← okOr (.permissionDenied "Token failed verification.") (jwt.verify token)
  -- assert_eq!(jwt_token.header().algorithm, self.expected_signing_algo)
  ensure (algorithm = expectedSigningAlgo) .panicked
  pure claims

/-- `AuthInterceptor::call`: the claims of the token and their parsed form, whose
public key becomes the extension of the request.  The expiry is not looked at. -/
def interceptorCall {Ip : Type} (calendar : Calendar) (ips : IpFormat Ip) (jwt : Jwt)
    (expectedSigningAlgo : AlgorithmType) (request : InterceptedRequest Ip) :
    Except Failure (DeSerClaims × Claims Ip) := do
  let token ← jwtFromHeader jwt expectedSigningAlgo request.authorization
  let claims ← Claims.ofDeSer calendar ips token
  pure (token, claims)

/-- What a request the interceptor lets through carried: a bearer token that
verifies to claims that parse. -/
theorem interceptorCall_eq_ok {Ip : Type} {calendar : Calendar} {ips : IpFormat Ip} {jwt : Jwt}
    {expectedSigningAlgo : AlgorithmType} {request : InterceptedRequest Ip} {token : DeSerClaims}
    {claims : Claims Ip}
    (h : interceptorCall calendar ips jwt expectedSigningAlgo request = .ok (token, claims)) :
    (∃ text, bearerToken request.authorization = .ok text ∧
      jwt.verify text = some (expectedSigningAlgo, token)) ∧
    Claims.ofDeSer calendar ips token = .ok claims := by
  simp only [interceptorCall, jwtFromHeader, bind_eq_ok_iff, okOr_eq_ok_iff, ensure_eq_ok_iff,
    pure_eq_ok_iff, Prod.mk.injEq] at h
  obtain ⟨_, ⟨text, htext, ⟨algorithm, verified⟩, hverify, _, rfl, rfl⟩, _, hclaims, rfl, rfl⟩ := h
  exact ⟨⟨text, htext, hverify⟩, hclaims⟩

end FlowraRelayer.Relayer
