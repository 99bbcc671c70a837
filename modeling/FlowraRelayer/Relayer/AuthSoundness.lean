/-
  Relayer/AuthSoundness.lean --- who can be a subscriber.

  A key gets into the subscription map by a long way: a challenge is pushed, the
  challenge is redeemed for tokens, tokens are refreshed any number of times, one of
  them passes the interceptor, `subscribe_packets` queues a subscription and the event
  loop inserts it.  `subscriptions_authenticated` follows that way backwards through any
  interleaving of any number of requests.

  The one assumption is about the JWT library: a token verifies only if this server
  signed its claims before (`Unforged`).  The ed25519 library is an oracle.
-/
import FlowraRelayer.Relayer.AuthRecord

set_option autoImplicit false

namespace FlowraRelayer.Relayer

open FlowraRelayer.Foundation
open FlowraRelayer.Solana

variable {Ip : Type} {env : AuthEnv Ip} {history : List (AuthEvent Ip)}

/-! ## Tokens that were really signed -/

/-- The text a request hands to the JWT library. -/
def AuthLabel.presented : AuthLabel Ip → Option String
  | .refresh _ _ req => some req.refreshToken
  | .intercept _ _ req => (bearerToken req.authorization).toOption
  | _ => none

/-- If the token a request presents verifies, this server signed exactly its claims. -/
def Unforged (env : AuthEnv Ip) (s : AuthState Ip) (label : AuthLabel Ip) : Prop :=
  ∀ text ∈ label.presented, ∀ verified ∈ env.jwt.verify text,
    verified.2 ∈ (signedTokens s.history).map (·.claims)

instance (env : AuthEnv Ip) (s : AuthState Ip) (label : AuthLabel Ip) :
    Decidable (Unforged env s label) :=
  inferInstanceAs (Decidable (∀ text ∈ label.presented, ∀ verified ∈ env.jwt.verify text, _))

/-- What an entry took from a token, an earlier entry had signed. -/
def PresentedSigned (before : List (AuthEvent Ip)) (event : AuthEvent Ip) : Prop :=
  ∀ claims ∈ event.presented, claims ∈ (signedTokens before).map (·.claims)

theorem presentedSigned_of_verify {s : AuthState Ip} {label : AuthLabel Ip} {text : String}
    {algorithm : AlgorithmType} {claims : DeSerClaims} {event : AuthEvent Ip}
    (hunforged : Unforged env s label) (htext : label.presented = some text)
    (hverify : env.jwt.verify text = some (algorithm, claims))
    (hevent : event.presented = some claims) : PresentedSigned s.history event := by
  intro claims' hmem
  rw [hevent] at hmem
  cases hmem
  exact hunforged text htext (algorithm, claims) hverify

theorem presented_intercept {id : Nat} {now : Int} {req : InterceptedRequest Ip} {text : String}
    (h : bearerToken req.authorization = .ok text) :
    (AuthLabel.intercept id now req).presented = some text := by
  simp only [AuthLabel.presented, h]
  rfl

section Steps

variable [DecidableEq Ip] {decode : List UInt8 → Option VersionedTransaction} {cfg : LoopConfig}
  {s s' : AuthState Ip} {label : AuthLabel Ip}

/-- With unforged tokens only, every step keeps the record free of unsigned claims. -/
theorem presentedSigned_move (hgrounded : Grounded PresentedSigned s.history)
    (hunforged : Unforged env s label) (hmove : Move env decode cfg s label s') :
    Grounded PresentedSigned s'.history := by
  refine grounded_move hgrounded hmove ?_ ?_ ?_
  · intro before event hnone claims hmem
    rw [hnone] at hmem
    cases hmem
  · intro id clock req presented issued hlabel hchecks
    subst hlabel
    obtain ⟨⟨algorithm, hverify⟩, -⟩ := refreshAccessToken_eq_ok hchecks
    exact presentedSigned_of_verify hunforged rfl hverify rfl
  · intro id now req token claims hlabel hchecks
    subst hlabel
    obtain ⟨⟨text, htext, hverify⟩, -⟩ := interceptorCall_eq_ok hchecks
    exact presentedSigned_of_verify hunforged (presented_intercept htext) hverify rfl

/-- In a run with unforged tokens only, the record is free of unsigned claims. -/
theorem presentedSigned_run {health : HealthState} {auther : Pubkey → Bool}
    {ls : List (AuthLabel Ip)}
    (hunforged : StepsMeet (authStep env decode cfg) (Unforged env) (AuthState.init health auther) ls)
    (hrun : runSteps (authStep env decode cfg) (AuthState.init health auther) ls = some s) :
    Grounded PresentedSigned s.history :=
  runSteps_invariant_of_meets (fun s => Grounded PresentedSigned s.history)
    (fun _ _ _ hgrounded hcond hstep =>
      presentedSigned_move hgrounded hcond (move_of_authStep hstep))
    ls Grounded.nil hunforged hrun

end Steps

/-! ## From a token back to a redemption -/

theorem mem_signedTokens_iff {signed : SignedToken} :
    signed ∈ signedTokens history ↔
      ∃ (i : Nat) (event : AuthEvent Ip), history[i]? = some event ∧ signed ∈ event.signed := by
  rw [signedTokens, List.mem_flatMap]
  constructor
  · intro h
    obtain ⟨event, hmem, hsigned⟩ := h
    obtain ⟨i, hi⟩ := List.mem_iff_getElem?.mp hmem
    exact ⟨i, event, hi, hsigned⟩
  · intro h
    obtain ⟨i, event, hi, hsigned⟩ := h
    exact ⟨event, List.mem_of_getElem? hi, hsigned⟩

/-- The token carries the address and the key of the redemption. -/
def CarriesIdentityOf (env : AuthEnv Ip) (claims : DeSerClaims) (redemption : Redemption Ip) :
    Prop :=
  claims.clientIp = env.ips.toText redemption.ip ∧
    claims.clientPubkey = redemption.pubkey.toText

/-- Both tokens of a redemption carry its address and key. -/
theorem Redemption.Redeems.carries {redemption : Redemption Ip} {record : PushRecord Ip}
    (hauthorized : record.Authorized env) (hredeems : redemption.Redeems env record) :
    CarriesIdentityOf env redemption.access.claims redemption ∧
      CarriesIdentityOf env redemption.refresh.claims redemption := by
  unfold CarriesIdentityOf
  rw [hredeems.access_eq, hredeems.refresh_eq, hauthorized.made.access_eq,
    hauthorized.made.refresh_eq, hredeems.ip_eq, hredeems.pubkey_eq]
  exact ⟨⟨rfl, rfl⟩, ⟨rfl, rfl⟩⟩

/-- A refresh copies the address and the key through their texts. -/
theorem Refresh.Renews.carries {refresh : Refresh Ip} {claims : Claims Ip}
    {redemption : Redemption Ip} (hrenews : refresh.Renews env claims)
    (hpresented : CarriesIdentityOf env refresh.presented redemption) :
    CarriesIdentityOf env refresh.issued.claims redemption := by
  obtain ⟨hip, hpubkey, -⟩ := Claims.ofDeSer_eq_ok hrenews.parsed
  rw [hpresented.1, env.ips.fromStr_toText, Option.some.injEq] at hip
  rw [hpresented.2, Pubkey.fromStr_toText, Option.some.injEq] at hpubkey
  rw [hrenews.issued_eq]
  exact ⟨by rw [hip]; rfl, by rw [hpubkey]; rfl⟩

/-- Every token the server has signed carries the identity of a redemption. -/
theorem signed_carriesIdentity (hgrounded : Grounded (Justified env) history)
    (hpresented : Grounded PresentedSigned history) :
    ∀ (i : Nat) {event : AuthEvent Ip}, history[i]? = some event → ∀ signed ∈ event.signed,
      ∃ (j : Nat) (redemption : Redemption Ip), history[j]? = some (.redeemed redemption) ∧
        CarriesIdentityOf env signed.claims redemption := by
  intro i
  -- A refreshed token comes from one that was signed earlier in the record.
  induction i using Nat.strongRecOn with
  | ind i ih =>
    intro event hevent signed hsigned
    have hjust := hgrounded.justified_at hevent
    cases event with
    | redeemed redemption =>
      obtain ⟨record, hpush, hredeems⟩ := hjust
      have hauthorized := hgrounded.justified_at (getElem?_take_eq_some hpush).2
      obtain ⟨haccess, hrefresh⟩ := hredeems.carries hauthorized
      refine ⟨i, redemption, hevent, ?_⟩
      simp only [AuthEvent.signed, List.mem_cons, List.not_mem_nil, or_false] at hsigned
      rcases hsigned with rfl | rfl
      · exact haccess
      · exact hrefresh
    | refreshed refresh =>
      obtain ⟨claims, hrenews⟩ := hjust
      have hearlier := hpresented.justified_at hevent refresh.presented rfl
      obtain ⟨old, hold, hclaims⟩ := List.mem_map.mp hearlier
      obtain ⟨k, origin, hk, horigin⟩ := mem_signedTokens_iff.mp hold
      obtain ⟨hki, horiginAt⟩ := getElem?_take_eq_some hk
      obtain ⟨j, redemption, hj, hcarries⟩ := ih k hki horiginAt old horigin
      rw [hclaims] at hcarries
      simp only [AuthEvent.signed, List.mem_singleton] at hsigned
      rw [hsigned]
      exact ⟨j, redemption, hj, hrenews.carries hcarries⟩
    | _ => simp [AuthEvent.signed] at hsigned

/-! ## Authentication -/

/-- `pubkey` was authenticated from `ip`.  Entry `i` of the record is the push of a
challenge with claims for `ip` and `pubkey`, by a request to which `is_authorized` said
yes; the entry appears when `push` gets its lock, and the authoriser still says yes then
unless it was changed in between.  The later entry `j` is a redemption of that push: a
`generate_auth_tokens` request from the same address, whose challenge text is the key and
the challenge joined by a dash, and whose signature verifies under the key. -/
def AuthenticatedFrom (env : AuthEnv Ip) (history : List (AuthEvent Ip)) (ip : Ip)
    (pubkey : Pubkey) : Prop :=
  ∃ (i j : Nat) (record : PushRecord Ip) (redemption : Redemption Ip), i < j ∧
    history[i]? = some (.pushed record) ∧
    history[j]? = some (.redeemed redemption) ∧
    record.ip = ip ∧
    (record.challenge.accessClaims.clientIp = ip ∧
      record.challenge.accessClaims.clientPubkey = pubkey) ∧
    (record.challenge.refreshClaims.clientIp = ip ∧
      record.challenge.refreshClaims.clientPubkey = pubkey) ∧
    record.verdictAtCheck = true ∧
    (record.autherUnchanged = true → record.verdictAtPush = true) ∧
    redemption.push = i ∧
    redemption.request.remoteAddr = some ip ∧
    redemption.request.challenge = expectedChallenge pubkey record.challenge.challenge ∧
    env.ed25519.verify pubkey redemption.request.challenge
      redemption.request.signedChallenge = true

/-- Every redemption of the record authenticates its key. -/
theorem authenticatedFrom_of_redeemed (hgrounded : Grounded (Justified env) history) {j : Nat}
    {redemption : Redemption Ip} (hredeemed : history[j]? = some (.redeemed redemption)) :
    AuthenticatedFrom env history redemption.ip redemption.pubkey := by
  obtain ⟨record, hpush, hredeems⟩ := hgrounded.justified_at hredeemed
  obtain ⟨hlt, hpushed⟩ := getElem?_take_eq_some hpush
  have hauthorized : record.Authorized env := hgrounded.justified_at hpushed
  have haccess := hauthorized.made.access_eq
  have hrefresh := hauthorized.made.refresh_eq
  rw [hredeems.ip_eq, hredeems.pubkey_eq]
  refine ⟨redemption.push, j, record, redemption, hlt, hpushed, hredeemed, rfl, ?_, ?_,
    hauthorized.atCheck, hauthorized.atPush, rfl, hredeems.remoteAddr_eq, hredeems.challenge_eq,
    hredeems.verified⟩
  · rw [haccess]
    exact ⟨rfl, rfl⟩
  · rw [hrefresh]
    exact ⟨rfl, rfl⟩

/-- A signed token carries an address and a key that were authenticated. -/
theorem signed_authenticated (hgrounded : Grounded (Justified env) history)
    (hpresented : Grounded PresentedSigned history) {signed : SignedToken}
    (hsigned : signed ∈ signedTokens history) :
    ∃ (ip : Ip) (pubkey : Pubkey), signed.claims.clientIp = env.ips.toText ip ∧
      signed.claims.clientPubkey = pubkey.toText ∧ AuthenticatedFrom env history ip pubkey := by
  obtain ⟨i, event, hevent, hmem⟩ := mem_signedTokens_iff.mp hsigned
  obtain ⟨j, redemption, hj, hip, hpubkey⟩ :=
    signed_carriesIdentity hgrounded hpresented i hevent signed hmem
  exact ⟨redemption.ip, redemption.pubkey, hip, hpubkey,
    authenticatedFrom_of_redeemed hgrounded hj⟩

/-- A key the interceptor let through was authenticated. -/
theorem accepted_authenticated (hgrounded : Grounded (Justified env) history)
    (hpresented : Grounded PresentedSigned history) {pubkey : Pubkey}
    (haccepted : WasAccepted history pubkey) : ∃ ip, AuthenticatedFrom env history ip pubkey := by
  obtain ⟨acceptance, hmem, rfl⟩ := haccepted
  obtain ⟨i, hi⟩ := List.mem_iff_getElem?.mp hmem
  have hparsed : Claims.ofDeSer env.calendar env.ips acceptance.token = .ok acceptance.claims :=
    hgrounded.justified_at hi
  have hearlier := hpresented.justified_at hi acceptance.token rfl
  obtain ⟨signed, hsigned, hclaims⟩ := List.mem_map.mp hearlier
  obtain ⟨k, event, hk, hevent⟩ := mem_signedTokens_iff.mp hsigned
  have hmemAll : signed ∈ signedTokens history :=
    mem_signedTokens_iff.mpr ⟨k, event, (getElem?_take_eq_some hk).2, hevent⟩
  obtain ⟨ip, pubkey, -, hpubkey, hauthenticated⟩ :=
    signed_authenticated hgrounded hpresented hmemAll
  obtain ⟨-, hkey, -⟩ := Claims.ofDeSer_eq_ok hparsed
  rw [← hclaims, hpubkey, Pubkey.fromStr_toText, Option.some.injEq] at hkey
  rw [← hkey]
  exact ⟨ip, hauthenticated⟩

/-- Authentication soundness: in every run in which no forged token verifies, every key of
the subscription map was authenticated, and every token in circulation carries an address
and a key that were authenticated together. -/
theorem subscriptions_authenticated [DecidableEq Ip] (env : AuthEnv Ip)
    (decode : List UInt8 → Option VersionedTransaction) (cfg : LoopConfig) (health : HealthState)
    (auther : Pubkey → Bool) (ls : List (AuthLabel Ip)) (s : AuthState Ip)
    (hunforged : StepsMeet (authStep env decode cfg) (Unforged env) (AuthState.init health auther) ls)
    (hrun : runSteps (authStep env decode cfg) (AuthState.init health auther) ls = some s) :
    (∀ pubkey ∈ s.loopState.packetSubscriptions, ∃ ip, AuthenticatedFrom env s.history ip pubkey) ∧
      ∀ signed ∈ signedTokens s.history, ∃ (ip : Ip) (pubkey : Pubkey),
        signed.claims.clientIp = env.ips.toText ip ∧
          signed.claims.clientPubkey = pubkey.toText ∧
          AuthenticatedFrom env s.history ip pubkey := by
  have hinv := AuthInv.run hrun
  have hpresented := presentedSigned_run hunforged hrun
  constructor
  · intro pubkey hmem
    obtain ⟨sender, hlookup⟩ := Option.isSome_iff_exists.mp (AList.lookup_isSome.mpr hmem)
    exact accepted_authenticated hinv.grounded hpresented (hinv.subscribed pubkey sender hlookup)
  · intro signed hsigned
    exact signed_authenticated hinv.grounded hpresented hsigned

/-! ## The verdict at the push -/

/-- The authoriser is not replaced. -/
def AuthLabel.KeepsAuther (label : AuthLabel Ip) : Prop := ∀ auther, label ≠ .setAuther auther

/-- Nobody has asked another authoriser than the one there is. -/
structure AutherKept (s : AuthState Ip) : Prop where
  pending : ∀ id pending, s.calls.lookup id = some (.challengePush pending) →
    pending.autherVersion = s.autherVersion
  pushed : ∀ record, .pushed record ∈ s.history → record.autherUnchanged = true

section Auther

variable [DecidableEq Ip] {decode : List UInt8 → Option VersionedTransaction} {cfg : LoopConfig}
  {s s' : AuthState Ip} {label : AuthLabel Ip}

theorem autherVersion_move (hlabel : label.KeepsAuther) (hmove : Move env decode cfg s label s') :
    s'.autherVersion = s.autherVersion := by
  cases hmove with
  | setAuther auther => exact absurd rfl (hlabel auther)
  | _ => rfl

theorem autherKept_move (h : AutherKept s) (hlabel : label.KeepsAuther)
    (hmove : Move env decode cfg s label s') : AutherKept s' := by
  have hversion := autherVersion_move hlabel hmove
  constructor
  · intro id pending hpending
    rw [hversion]
    rcases pending_of_move hmove hpending with hold | ⟨-, hnew⟩
    · exact h.pending id pending hold
    · exact hnew
  · intro record hrecord
    rcases pushed_of_move hmove hrecord with hold | ⟨id, pending, hpending, -, hunchanged⟩
    · exact h.pushed record hold
    · rw [hunchanged]
      exact decide_eq_true (h.pending id pending hpending)

/-- In a run in which the authoriser is not replaced, it says yes at every push: to the request
and at the push itself. -/
theorem verdicts_of_autherKept {health : HealthState} {auther : Pubkey → Bool}
    {ls : List (AuthLabel Ip)}
    (hkept : StepsMeet (authStep env decode cfg) (fun _ label => label.KeepsAuther)
      (AuthState.init health auther) ls)
    (hrun : runSteps (authStep env decode cfg) (AuthState.init health auther) ls = some s)
    {record : PushRecord Ip} (hpushed : .pushed record ∈ s.history) :
    record.autherUnchanged = true ∧ record.verdictAtCheck = true ∧
      record.verdictAtPush = true := by
  have hauther : AutherKept s := by
    refine runSteps_invariant_of_meets AutherKept
      (fun _ _ _ h hlabel hstep => autherKept_move h hlabel (move_of_authStep hstep)) ls ?_ hkept
      hrun
    constructor
    · intro id pending hpending
      simp [AuthState.init] at hpending
    · intro record hrecord
      cases hrecord
  have hunchanged := hauther.pushed record hpushed
  obtain ⟨i, hi⟩ := List.mem_iff_getElem?.mp hpushed
  have hauthorized : record.Authorized env := (AuthInv.run hrun).grounded.justified_at hi
  exact ⟨hunchanged, hauthorized.atCheck, hauthorized.atPush hunchanged⟩

end Auther

/-! ## A client that logs in -/

/-- Two addresses of one network. -/
inductive Peer where
  | first
  | second
  deriving DecidableEq

/-- The texts of the two addresses. -/
def peerFormat : IpFormat Peer where
  toText
    | .first => "10.0.0.1"
    | .second => "10.0.0.2"
  fromStr text :=
    if text = "10.0.0.1" then some .first
    else if text = "10.0.0.2" then some .second
    else none
  fromStr_toText := by
    intro ip
    cases ip <;> decide

/-- The times from the Unix epoch on. -/
def epochCalendar : Calendar where
  inRange time := decide (0 ≤ time)
  inRange_wholeSecond := by
    intro time h
    have hpos := of_decide_eq_true h
    refine decide_eq_true ?_
    unfold timestamp nanosPerSecond
    omega

/-- Second number `n` of a run. -/
def second (n : Nat) : Int := (1700000000 + n : Nat) * nanosPerSecond

/-- The claims of the client with key `uniformKey 7` at the first address that run out
at second `n`. -/
def clientClaims (n : Nat) : DeSerClaims :=
  ⟨"10.0.0.1", (uniformKey 7).toText, (1700000000 + n : Nat)⟩

/-- The token for `clientClaims n`. -/
def tokenText (n : Nat) : String := "jwt-" ++ toString n

/-- The JWT library on the client's tokens that run out at one of `seconds`. -/
def clientJwt (seconds : List Nat) : Jwt where
  sign claims := (seconds.find? fun n => clientClaims n = claims).map tokenText
  verify text :=
    (seconds.find? fun n => tokenText n = text).map fun n => (.rs256, clientClaims n)

/-- A server with the given lifetimes, in seconds; the client signs with 64 copies of the
first byte of its key. -/
def clientEnv (seconds : List Nat) (accessTtl refreshTtl : Nat) : AuthEnv Peer where
  calendar := epochCalendar
  ips := peerFormat
  jwt := clientJwt seconds
  ed25519 :=
    { isPublicKey := fun _ => true
      isSignature := fun _ => true
      verify := fun key _ signature => signature = List.replicate signatureBytes (key.bytes.headD 0) }
  validatorRole := 2
  accessTokenTtl := accessTtl * nanosPerSecond
  refreshTokenTtl := refreshTtl * nanosPerSecond
  challengeTtl := 1800 * nanosPerSecond

/-- The client redeems the challenge `abcdefghi`. -/
def clientTokensRequest : TokensRequest Peer where
  remoteAddr := some .first
  challenge := expectedChallenge (uniformKey 7) "abcdefghi"
  clientPubkey := (uniformKey 7).bytes
  signedChallenge := List.replicate signatureBytes 7

/-- The client gets a challenge at second 0. -/
def challengeRun : List (AuthLabel Peer) :=
  [ .challengeRequest 0 ⟨some .first, 2, (uniformKey 7).bytes⟩
  , .challengeLen 0
  , .challengeGet 0 ⟨second 0, second 0, second 0, second 0, by simp⟩
      ⟨"abcdefghi", by decide, by decide⟩
  , .challengePush 0 ]

/-- The client gets a challenge and redeems it at second 5. -/
def loginRun : List (AuthLabel Peer) :=
  challengeRun ++
    [ .tokensRequest 1 clientTokensRequest
    , .tokensGet 1 (second 5)
    , .tokensRemove 1 (second 5) ]

/-- The token that runs out at `n` is exchanged at second `now`. -/
def refreshLabel (n now : Nat) : AuthLabel Peer :=
  .refresh 2 ⟨second now, second now, by simp⟩ ⟨some .first, tokenText n⟩

/-- With the token that runs out at `n`, the client subscribes at second `now`. -/
def subscribeRun (n now : Nat) : List (AuthLabel Peer) :=
  [ .intercept 3 (second now) ⟨some .first, some (.text ("Bearer " ++ tokenText n))⟩
  , .subscribe 3
  , .loopTurn (.subscription (some (uniformKey 7, 0))) ]

/-- The step function of the server with the default lifetimes of `main.rs`. -/
abbrev defaultStep (seconds : List Nat) : AuthState Peer → AuthLabel Peer → Option (AuthState Peer) :=
  authStep (clientEnv seconds 1800 180000) (fun _ => none) ⟨∅, 4, true, 5⟩

/-- The start of a healthy server that accepts the client. -/
abbrev clientStart : AuthState Peer := AuthState.init .healthy fun key => key = uniformKey 7

theorem subscriptions_authenticated_refreshedClient :
    ∃ s, runSteps (defaultStep [1800, 180000, 3000]) clientStart
        (loginRun ++ [refreshLabel 180000 1200] ++ subscribeRun 3000 1300) = some s ∧
      s.loopState.packetSubscriptions.keys = [uniformKey 7] ∧
      (signedTokens s.history).length = 3 ∧
      ∃ ip, AuthenticatedFrom (clientEnv [1800, 180000, 3000] 1800 180000) s.history ip
        (uniformKey 7) := by
  have hrun : (runSteps (defaultStep [1800, 180000, 3000]) clientStart
      (loginRun ++ [refreshLabel 180000 1200] ++ subscribeRun 3000 1300)).map
        (fun s => (s.loopState.packetSubscriptions.keys, (signedTokens s.history).length)) =
      some ([uniformKey 7], 3) := by decide
  have hunforged : StepsMeet (defaultStep [1800, 180000, 3000])
      (Unforged (clientEnv [1800, 180000, 3000] 1800 180000)) clientStart
      (loginRun ++ [refreshLabel 180000 1200] ++ subscribeRun 3000 1300) := by
    unfold StepsMeet
    decide
  obtain ⟨s, hs, hv⟩ := Option.map_eq_some_iff.mp hrun
  rw [Prod.mk.injEq] at hv
  obtain ⟨hkeys, hsigned⟩ := hv
  have hmem : uniformKey 7 ∈ s.loopState.packetSubscriptions := by
    rw [AList.mem_keys, hkeys]
    exact List.mem_cons_self
  exact ⟨s, hs, hkeys, hsigned,
    (subscriptions_authenticated _ _ _ _ _ _ s hunforged hs).1 (uniformKey 7) hmem⟩

end FlowraRelayer.Relayer
