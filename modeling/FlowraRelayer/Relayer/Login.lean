/-
  Relayer/Login.lean --- a validator that follows the protocol is let in.

  The results about the auth service so far say what the server refuses.  Here a validator
  takes part: it asks for a challenge, signs it, keeps the two tokens, renews the access
  token before the refresh token runs out, and subscribes with the access token.  Its
  requests are those that `auth` and the client interceptor of `block_engine.rs` make, with
  the role of a validator.  It reads nothing but the answers it gets.

  Between any two steps of the validator every other step of `AuthSystem.lean` may come:
  requests of other clients, the sweep, the health manager, the event loop.  What can still
  turn the validator away is listed in `NotHindered`:

      another client behind its address        the store is keyed by the address alone
      a sweep that finds its challenge expired it took too long to sign
      the health of the relayer, the size of the store, a key that is not authorised
      a refresh token that has run out, an event loop that has ended

  `honest_client_never_refused` says that there is nothing else, and `honest_client_completes`
  that no other client can keep it from getting on: it always reaches a subscription by its
  own steps and turns of the event loop.
-/
import FlowraRelayer.Relayer.ChallengeOwner
import FlowraRelayer.Relayer.Handshake

set_option autoImplicit false

namespace FlowraRelayer.Relayer

open FlowraRelayer.Foundation
open FlowraRelayer.Solana
open FlowraRelayer.Rpc

variable {Ip : Type}

/-! ## The validator -/

/-- A validator with its key pair.  `id` names its requests at the server, of which there is
one at a time. -/
structure ValidatorClient (env : AuthEnv Ip) where
  id : Nat
  ip : Ip
  pubkey : Pubkey
  sign : String → List UInt8
  isPublicKey : env.ed25519.isPublicKey pubkey = true
  length_sign : ∀ text, (sign text).length = signatureBytes
  isSignature_sign : ∀ text, env.ed25519.isSignature (sign text) = true
  verify_sign : ∀ text, env.ed25519.verify pubkey text (sign text) = true

namespace ValidatorClient

variable {env : AuthEnv Ip} (client : ValidatorClient env)

def challengeRequest : ChallengeRequest Ip where
  remoteAddr := some client.ip
  role := env.validatorRole
  pubkey := client.pubkey.bytes

def tokensRequest (challenge : String) : TokensRequest Ip where
  remoteAddr := some client.ip
  challenge := expectedChallenge client.pubkey challenge
  clientPubkey := client.pubkey.bytes
  signedChallenge := client.sign (expectedChallenge client.pubkey challenge)

def refreshRequest (refresh : PbToken) : RefreshRequest Ip where
  remoteAddr := some client.ip
  refreshToken := refresh.value

def subscribeRequest (access : PbToken) : InterceptedRequest Ip where
  remoteAddr := some client.ip
  authorization := some (.text (bearer ++ access.value))

/-- The claims made for the validator. -/
def claims (expiresAtUtc : Int) : Claims Ip where
  clientIp := client.ip
  clientPubkey := client.pubkey
  expiresAtUtc := expiresAtUtc

end ValidatorClient

/-- The JWT library verifies what it has signed for the validator, and its tokens hold no
space. -/
def TokensRoundTrip (env : AuthEnv Ip) (client : ValidatorClient env) : Prop :=
  ∀ expiresAtUtc, env.calendar.inRange expiresAtUtc = true →
    ∃ value, env.jwt.sign (DeSerClaims.ofClaims env.ips (client.claims expiresAtUtc)) = some value ∧
      env.jwt.verify value =
        some (.rs256, DeSerClaims.ofClaims env.ips (client.claims expiresAtUtc)) ∧
      ' ' ∉ value.toList

/-- How far the validator is. -/
inductive LoginPhase where
  | idle
  | asking
  | challenged (challenge : String)
  | redeeming (challenge : String)
  | loggedIn (access refresh : PbToken) (stream : Option Sender)
  | renewing (refresh : PbToken) (stream : Option Sender)
  | subscribing (access refresh : PbToken)
  | refused (failure : Failure)

/-- No answer is outstanding. -/
def LoginPhase.resting : LoginPhase → Bool
  | .idle | .challenged _ | .loggedIn _ _ _ => true
  | _ => false

/-- The validator gets an answer. -/
def LoginPhase.receive : LoginPhase → Reply Ip → LoginPhase
  | _, .failure failure => .refused failure
  | .asking, .challenge _ challenge => .challenged challenge
  | .redeeming _, .tokens _ _ access refresh => .loggedIn access refresh none
  | .renewing refresh stream, .accessToken access => .loggedIn access refresh stream
  | .subscribing access refresh, .stream sender => .loggedIn access refresh (some sender)
  | phase, _ => phase

/-- The server, its other clients, and the validator. -/
structure Login (Ip : Type) where
  services : AuthState Ip
  phase : LoginPhase

def Login.init (health : HealthState) (auther : Pubkey → Bool) : Login Ip where
  services := AuthState.init health auther
  phase := .idle

inductive LoginLabel (Ip : Type) where
  /-- the validator asks for a challenge -/
  | ask
  /-- it signs the challenge it has -/
  | redeem
  /-- it exchanges its refresh token -/
  | renew (clock : RefreshClock)
  /-- it subscribes with its access token -/
  | subscribe (now : Int)
  /-- the server goes on with the request of the validator -/
  | serve (label : AuthLabel Ip)
  /-- anything else happens -/
  | other (label : AuthLabel Ip)

/-- The answer to request `id` in an entry of the record. -/
def AuthEvent.replyTo (id : Nat) : AuthEvent Ip → Option (Reply Ip)
  | .replied id' reply => if id' = id then some reply else none
  | _ => none

/-- The server takes a step for the validator, which gets the answer if there is one. -/
def Login.take [DecidableEq Ip] {env : AuthEnv Ip} (client : ValidatorClient env)
    (decode : List UInt8 → Option VersionedTransaction) (cfg : LoopConfig) (s : Login Ip)
    (phase : LoginPhase) (label : AuthLabel Ip) : Option (Login Ip) :=
  (authStep env decode cfg s.services label).map fun services =>
    { services
      phase := ((services.history.drop s.services.history.length).filterMap
        (AuthEvent.replyTo client.id)).foldl LoginPhase.receive phase }

/-- The future of a request is dropped. -/
def AuthLabel.abandons : AuthLabel Ip → Bool
  | .abandon _ => true
  | _ => false

def loginStep [DecidableEq Ip] {env : AuthEnv Ip} (client : ValidatorClient env)
    (decode : List UInt8 → Option VersionedTransaction) (cfg : LoopConfig) (s : Login Ip) :
    LoginLabel Ip → Option (Login Ip)
  | .ask =>
      if s.phase.resting then
        s.take client decode cfg .asking (.challengeRequest client.id client.challengeRequest)
      else none
  | .redeem =>
      match s.phase with
      | .challenged challenge =>
          s.take client decode cfg (.redeeming challenge)
            (.tokensRequest client.id (client.tokensRequest challenge))
      | _ => none
  | .renew clock =>
      match s.phase with
      | .loggedIn _ refresh stream =>
          s.take client decode cfg (.renewing refresh stream)
            (.refresh client.id clock (client.refreshRequest refresh))
      | _ => none
  | .subscribe now =>
      match s.phase with
      | .loggedIn access refresh _ =>
          s.take client decode cfg (.subscribing access refresh)
            (.intercept client.id now (client.subscribeRequest access))
      | _ => none
  | .serve label =>
      if label.request = some (client.id, false) ∧ label.abandons = false then
        s.take client decode cfg s.phase label
      else none
  | .other label =>
      if label.request.map Prod.fst = some client.id then none
      else (authStep env decode cfg s.services label).map fun services => { s with services }

/-! ## What can turn the validator away -/

/-- The peer address of a request that reads or writes the store. -/
def AuthLabel.remoteAddr : AuthLabel Ip → Option Ip
  | .challengeRequest _ req => req.remoteAddr
  | .tokensRequest _ req => req.remoteAddr
  | _ => none

section Conditions

variable [DecidableEq Ip] {env : AuthEnv Ip} (client : ValidatorClient env)

/-- What the server has to find while it serves the validator. -/
def ServesWell (s : AuthState Ip) : AuthLabel Ip → Prop
  | .challengeLen _ => s.challenges.len < authChallengesCapacity
  | .challengeGet _ clock _ =>
      s.auther client.pubkey = true ∧
        env.calendar.inRange (clock.access + env.accessTokenTtl) = true ∧
        env.calendar.inRange (clock.refresh + env.refreshTokenTtl) = true ∧
        env.calendar.inRange (clock.challenge + env.challengeTtl) = true
  | .subscribe _ => s.health = .healthy ∧ s.loopRunning = true
  | _ => True

/-- Other steps leave the address of the validator alone: no other client asks from there,
and no sweep finds its challenge expired. -/
def LeavesAlone (s : AuthState Ip) : AuthLabel Ip → Prop
  | .sweep readings =>
      ∀ entry ∈ s.challenges.lookup client.ip, ∀ reading ∈ readings,
        entry.challenge.isExpired reading.2 = false
  | label => label.remoteAddr ≠ some client.ip

/-- The refresh token the validator holds. -/
def LoginPhase.refresh? : LoginPhase → Option PbToken
  | .loggedIn _ refresh _ => some refresh
  | _ => none

/-- Nothing stands in the way of a step. -/
def NotHindered (s : Login Ip) : LoginLabel Ip → Prop
  | .ask | .redeem => s.services.health = .healthy
  | .renew clock =>
      s.services.health = .healthy ∧
        (∀ refresh ∈ s.phase.refresh?, clock.check < refresh.expiresAtUtc * nanosPerSecond) ∧
        env.calendar.inRange (clock.issue + env.accessTokenTtl) = true
  | .subscribe _ => True
  | .serve label => ServesWell client s.services label
  | .other label => LeavesAlone client s.services label

instance (s : AuthState Ip) (label : AuthLabel Ip) : Decidable (ServesWell client s label) :=
  match label with
  | .challengeLen _ => inferInstanceAs (Decidable (_ < _))
  | .challengeGet _ _ _ => inferInstanceAs (Decidable (_ ∧ _))
  | .subscribe _ => inferInstanceAs (Decidable (_ ∧ _))
  | .setHealth _ | .setAuther _ | .challengeRequest _ _ | .challengePush _ | .tokensRequest _ _
  | .tokensGet _ _ | .tokensRemove _ _ | .refresh _ _ _ | .sweep _ | .intercept _ _ _ | .abandon _
  | .loopTurn _ | .loopEnd => inferInstanceAs (Decidable True)

instance (s : AuthState Ip) (label : AuthLabel Ip) : Decidable (LeavesAlone client s label) :=
  match label with
  | .sweep readings =>
      inferInstanceAs (Decidable (∀ entry ∈ s.challenges.lookup client.ip, ∀ reading ∈ readings, _))
  | .setHealth _ | .setAuther _ | .challengeRequest _ _ | .challengeLen _ | .challengeGet _ _ _
  | .challengePush _ | .tokensRequest _ _ | .tokensGet _ _ | .tokensRemove _ _ | .refresh _ _ _
  | .intercept _ _ _ | .subscribe _ | .abandon _ | .loopTurn _ | .loopEnd =>
      inferInstanceAs (Decidable (_ ≠ _))

instance (s : Login Ip) (label : LoginLabel Ip) : Decidable (NotHindered client s label) :=
  match label with
  | .ask | .redeem => inferInstanceAs (Decidable (_ = _))
  | .renew _ => inferInstanceAs (Decidable (_ ∧ _))
  | .subscribe _ => inferInstanceAs (Decidable True)
  | .serve _ => inferInstanceAs (Decidable (ServesWell _ _ _))
  | .other _ => inferInstanceAs (Decidable (LeavesAlone _ _ _))

end Conditions

/-! ## Where the validator stands -/

/-- The address a request in flight is about. -/
def Call.address : Call Ip → Option Ip
  | .challengeLen req => req.remoteAddr
  | .challengeGet ip _ => some ip
  | .challengePush pending => some pending.ip
  | .tokensGet ip _ _ => some ip
  | .tokensRemove ip _ _ _ => some ip
  | .subscribe _ => none

section Invariant

variable [DecidableEq Ip] {env : AuthEnv Ip} (client : ValidatorClient env)

/-- A token with claims for the validator, which the server will verify. -/
def HoldsToken (token : PbToken) : Prop :=
  ∃ expiresAtUtc, env.calendar.inRange expiresAtUtc = true ∧
    token.expiresAtUtc = timestamp expiresAtUtc ∧
    env.jwt.verify token.value =
      some (.rs256, DeSerClaims.ofClaims env.ips (client.claims expiresAtUtc)) ∧
    ' ' ∉ token.value.toList

/-- A challenge made for the validator. -/
def OwnChallenge (challenge : AuthChallenge Ip) : Prop :=
  ∃ clock, MadeFor env clock client.ip client.pubkey challenge

/-- The challenge that is stored for the address of the validator. -/
def StoresText (s : AuthState Ip) (challenge : String) : Prop :=
  ∃ entry, s.challenges.lookup client.ip = some entry ∧ entry.challenge.challenge = challenge

/-- How far the validator is, and where its request is at the server. -/
inductive Stands (s : AuthState Ip) : LoginPhase → Option (Call Ip) → Prop where
  | idle : Stands s .idle none
  | asksLen : Stands s .asking (some (.challengeLen client.challengeRequest))
  | asksGet : Stands s .asking (some (.challengeGet client.ip client.challengeRequest))
  | asksPush {pending : PendingPush Ip} (hip : pending.ip = client.ip)
      (hown : OwnChallenge client pending.challenge) :
      Stands s .asking (some (.challengePush pending))
  | challenged {challenge : String} (hstored : StoresText client s challenge) :
      Stands s (.challenged challenge) none
  | redeemsGet {challenge : String} (hstored : StoresText client s challenge) :
      Stands s (.redeeming challenge)
        (some (.tokensGet client.ip client.pubkey (client.tokensRequest challenge)))
  | redeemsRemove {challenge : String} {push : Nat} {access refresh : SignedToken}
      (haccess : HoldsToken client access.token) (hrefresh : HoldsToken client refresh.token) :
      Stands s (.redeeming challenge) (some (.tokensRemove client.ip push access refresh))
  | loggedIn {access refresh : PbToken} {stream : Option Sender}
      (haccess : HoldsToken client access) (hrefresh : HoldsToken client refresh) :
      Stands s (.loggedIn access refresh stream) none
  | subscribes {access refresh : PbToken} (haccess : HoldsToken client access)
      (hrefresh : HoldsToken client refresh) :
      Stands s (.subscribing access refresh) (some (.subscribe (some client.pubkey)))

/-- What is stored for the address of the validator was made for it. -/
def OwnsEntry (challenges : AuthChallenges Ip) : Prop :=
  ∀ entry, challenges.lookup client.ip = some entry → OwnChallenge client entry.challenge

/-- No other request is about the address of the validator. -/
def AloneAt (calls : Calls Ip) : Prop :=
  ∀ id call, id ≠ client.id → calls.lookup id = some call → call.address ≠ some client.ip

/-- What holds in every state of a validator that is not hindered. -/
structure LoginInv (s : Login Ip) : Prop where
  stands : Stands client s.services s.phase (s.services.calls.lookup client.id)
  owns : OwnsEntry client s.services.challenges
  alone : AloneAt client s.services.calls

variable {client} {s : Login Ip} {t : AuthState Ip}

theorem loginInv_init (health : HealthState) (auther : Pubkey → Bool) :
    LoginInv client (Login.init health auther) where
  stands := .idle
  owns := by
    intro entry hentry
    cases hentry
  alone := by
    intro id call hid hcall
    cases hcall

/-- Where the validator stands depends on its entry in the store alone. -/
theorem Stands.of_lookup {s : AuthState Ip} {phase : LoginPhase} {call : Option (Call Ip)}
    (h : Stands client s phase call)
    (hsame : t.challenges.lookup client.ip = s.challenges.lookup client.ip) :
    Stands client t phase call := by
  have hstores : ∀ {challenge}, StoresText client s challenge → StoresText client t challenge := by
    rintro challenge ⟨entry, hentry, htext⟩
    exact ⟨entry, hsame.trans hentry, htext⟩
  cases h with
  | idle => exact .idle
  | asksLen => exact .asksLen
  | asksGet => exact .asksGet
  | asksPush hip hown => exact .asksPush hip hown
  | challenged hstored => exact .challenged (hstores hstored)
  | redeemsGet hstored => exact .redeemsGet (hstores hstored)
  | redeemsRemove haccess hrefresh => exact .redeemsRemove haccess hrefresh
  | loggedIn haccess hrefresh => exact .loggedIn haccess hrefresh
  | subscribes haccess hrefresh => exact .subscribes haccess hrefresh

/-- In a phase without an outstanding answer the validator has no request at the server. -/
theorem Stands.eq_none {s : AuthState Ip} {phase : LoginPhase} {call : Option (Call Ip)}
    (h : Stands client s phase call) (hrest : phase.resting = true) : call = none := by
  cases h with
  | idle | challenged _ | loggedIn _ _ => rfl
  | asksLen | asksGet | asksPush _ _ | redeemsGet _ | redeemsRemove _ _ | subscribes _ _ =>
    cases hrest

omit [DecidableEq Ip] in
theorem AloneAt.insert {calls : Calls Ip} (h : AloneAt client calls) (call : Call Ip) :
    AloneAt client (calls.insert client.id call) := by
  intro id call' hid hcall
  rw [AList.lookup_insert_ne hid] at hcall
  exact h id call' hid hcall

omit [DecidableEq Ip] in
theorem AloneAt.erase {calls : Calls Ip} (h : AloneAt client calls) :
    AloneAt client (calls.erase client.id) := by
  intro id call hid hcall
  exact h id call hid (lookup_erase_cases hcall).2

/-- The request of the validator goes on to wait. -/
theorem LoginInv.waits {phase : LoginPhase} {call : Call Ip} (h : LoginInv client s)
    (hcalls : t.calls = s.services.calls.insert client.id call)
    (howns : OwnsEntry client t.challenges) (hstands : Stands client t phase (some call)) :
    LoginInv client ⟨t, phase⟩ where
  stands := by
    rw [hcalls, AList.lookup_insert]
    exact hstands
  owns := howns
  alone := hcalls ▸ h.alone.insert call

/-- The request of the validator is answered. -/
theorem LoginInv.rests {phase : LoginPhase} (h : LoginInv client s)
    (hcalls : t.calls = s.services.calls.erase client.id)
    (howns : OwnsEntry client t.challenges) (hstands : Stands client t phase none) :
    LoginInv client ⟨t, phase⟩ where
  stands := by
    rw [hcalls, AList.lookup_erase]
    exact hstands
  owns := howns
  alone := hcalls ▸ h.alone.erase

end Invariant

/-! ## Steps of the server for the validator -/

section Served

variable [DecidableEq Ip] {env : AuthEnv Ip} {client : ValidatorClient env}
  {decode : List UInt8 → Option VersionedTransaction} {cfg : LoopConfig} {s : Login Ip}
  {t : AuthState Ip} {phase : LoginPhase} {label : AuthLabel Ip}

/-- A step that answers nothing leaves the validator waiting. -/
theorem take_of_silent (events : List (AuthEvent Ip))
    (hstep : authStep env decode cfg s.services label = some t)
    (hhistory : t.history = s.services.history ++ events)
    (hsilent : events.filterMap (AuthEvent.replyTo client.id) = []) :
    s.take client decode cfg phase label = some ⟨t, phase⟩ := by
  rw [Login.take, hstep, Option.map_some, hhistory, List.drop_left, hsilent]
  rfl

/-- A step that ends the request of the validator with an answer. -/
theorem take_settle (events : List (AuthEvent Ip)) {reply : Reply Ip}
    (hstep : authStep env decode cfg s.services label = some (t.settle client.id reply))
    (hhistory : t.history = s.services.history ++ events)
    (hsilent : events.filterMap (AuthEvent.replyTo client.id) = []) :
    s.take client decode cfg phase label =
      some ⟨t.settle client.id reply, phase.receive reply⟩ := by
  have hreply : (events ++ [AuthEvent.replied client.id reply]).filterMap (AuthEvent.replyTo client.id) =
      [reply] := by
    rw [List.filterMap_append, hsilent]
    simp [AuthEvent.replyTo]
  rw [Login.take, hstep, Option.map_some, AuthState.settle, hhistory, List.append_assoc,
    List.drop_left, hreply]
  rfl

theorem serve_eq (hrequest : label.request = some (client.id, false))
    (hstays : label.abandons = false) :
    loginStep client decode cfg s (.serve label) = s.take client decode cfg s.phase label :=
  if_pos ⟨hrequest, hstays⟩

/-! ### `generate_auth_challenge` -/

variable (decode cfg) in
theorem ask_step (hhealthy : s.services.health = .healthy) (hrest : s.phase.resting = true)
    (hfree : s.services.calls.lookup client.id = none) :
    loginStep client decode cfg s .ask =
      some ⟨s.services.wait client.id (.challengeLen client.challengeRequest), .asking⟩ := by
  rw [loginStep, if_pos hrest]
  refine take_of_silent [] ?_ (List.append_nil _).symm rfl
  simp only [authStep, AuthLabel.request, hfree, arrivalStep, hhealthy]
  rfl

variable (decode cfg) in
theorem len_step (hcall : s.services.calls.lookup client.id =
      some (.challengeLen client.challengeRequest))
    (hroom : s.services.challenges.len < authChallengesCapacity) :
    loginStep client decode cfg s (.serve (.challengeLen client.id)) =
      some ⟨s.services.wait client.id (.challengeGet client.ip client.challengeRequest),
        s.phase⟩ := by
  have hlen : challengeAfterLen s.services.challenges.len client.challengeRequest =
      .ok client.ip := by
    simp only [challengeAfterLen, clientIp, bind_eq_ok_iff, ensure_eq_ok_iff, okOr_eq_ok_iff]
    exact ⟨(), hroom, rfl⟩
  rw [serve_eq rfl rfl]
  refine take_of_silent [] ?_ (List.append_nil _).symm rfl
  simp only [authStep, AuthLabel.request, hcall, callStep, hlen]
  rfl

omit [DecidableEq Ip] in
/-- A challenge can be made for the validator if its key is authorised and the expiries can
be represented. -/
theorem newChallenge_own {clock : ChallengeClock} {id : Nat} (token : ChallengeToken)
    (hserves : ServesWell client s.services (.challengeGet id clock token)) :
    ∃ challenge, newChallenge env s.services.auther clock token client.ip client.challengeRequest =
      .ok challenge := by
  obtain ⟨hauthorized, haccess, hrefresh, hchallenge⟩ := hserves
  simp only [newChallenge, bind_eq_ok_iff, ensure_eq_ok_iff, okOr_eq_ok_iff, pure_eq_ok_iff,
    expiry_eq_ok_iff]
  exact ⟨_, (), rfl, (), client.pubkey.length_eq, client.pubkey, Pubkey.tryFrom_bytes _, (),
    hauthorized, _, ⟨haccess, rfl⟩, _, ⟨hrefresh, rfl⟩, _, ⟨hchallenge, rfl⟩, rfl⟩

variable (decode cfg) in
/-- The lookup returns the challenge the store has for the validator, or makes one. -/
theorem get_step {clock : ChallengeClock} {token : ChallengeToken} (hphase : s.phase = .asking)
    (hcall : s.services.calls.lookup client.id =
      some (.challengeGet client.ip client.challengeRequest))
    (hserves : ServesWell client s.services (.challengeGet client.id clock token)) :
    (∃ entry, s.services.challenges.lookup client.ip = some entry ∧
      loginStep client decode cfg s (.serve (.challengeGet client.id clock token)) =
        some ⟨s.services.settle client.id (.challenge client.ip entry.challenge.challenge),
          .challenged entry.challenge.challenge⟩) ∨
    ∃ pending : PendingPush Ip, pending.ip = client.ip ∧ OwnChallenge client pending.challenge ∧
      loginStep client decode cfg s (.serve (.challengeGet client.id clock token)) =
        some ⟨s.services.wait client.id (.challengePush pending), .asking⟩ := by
  rw [serve_eq rfl rfl, hphase]
  cases hlive : ((s.services.challenges.lookup client.ip).map (·.challenge)).filter
      fun challenge => !challenge.isExpired clock.stored with
  | some challenge =>
    have hdecision : challengeAfterGetPriority env s.services.auther
        ((s.services.challenges.lookup client.ip).map (·.challenge)) clock token client.ip
        client.challengeRequest = .ok (.reuse challenge.challenge) := by
      rw [challengeAfterGetPriority, hlive]
      rfl
    obtain ⟨entry, hentry, rfl⟩ :=
      Option.map_eq_some_iff.mp (Option.filter_eq_some_iff.mp hlive).1
    have hstep : authStep env decode cfg s.services (.challengeGet client.id clock token) =
        some (s.services.settle client.id (.challenge client.ip entry.challenge.challenge)) := by
      simp only [authStep, AuthLabel.request, hcall, callStep, AuthChallenges.getPriority, hdecision]
    exact .inl ⟨entry, hentry, take_settle [] hstep (List.append_nil _).symm rfl⟩
  | none =>
    obtain ⟨challenge, hnew⟩ := newChallenge_own token hserves
    have hdecision : challengeAfterGetPriority env s.services.auther
        ((s.services.challenges.lookup client.ip).map (·.challenge)) clock token client.ip
        client.challengeRequest = .ok (.push challenge) := by
      rw [challengeAfterGetPriority, hlive]
      simp only [bind_eq_ok_iff, pure_eq_ok_iff]
      exact ⟨challenge, hnew, rfl⟩
    obtain ⟨pubkey, hpubkey, -, -, -, hmade⟩ := newChallenge_eq_ok hnew
    cases (Pubkey.tryFrom_bytes client.pubkey).symm.trans hpubkey
    let pending : PendingPush Ip :=
      { ip := client.ip, challenge, clock
        verdict := s.services.auther challenge.accessClaims.clientPubkey
        autherVersion := s.services.autherVersion }
    have hstep : authStep env decode cfg s.services (.challengeGet client.id clock token) =
        some (s.services.wait client.id (.challengePush pending)) := by
      simp only [authStep, AuthLabel.request, hcall, callStep, AuthChallenges.getPriority, hdecision,
        pending]
    exact .inr ⟨pending, rfl, ⟨clock, hmade⟩,
      take_of_silent [] hstep (List.append_nil _).symm rfl⟩

variable (decode cfg) in
theorem push_step {pending : PendingPush Ip} (hphase : s.phase = .asking)
    (hcall : s.services.calls.lookup client.id = some (.challengePush pending)) :
    loginStep client decode cfg s (.serve (.challengePush client.id)) =
      some ⟨(s.services.pushChallenge pending).settle client.id
        (.challenge pending.ip pending.challenge.challenge),
          .challenged pending.challenge.challenge⟩ := by
  rw [serve_eq rfl rfl, hphase]
  have hstep : authStep env decode cfg s.services (.challengePush client.id) =
      some ((s.services.pushChallenge pending).settle client.id
        (.challenge pending.ip pending.challenge.challenge)) := by
    simp only [authStep, AuthLabel.request, hcall, callStep]
  exact take_settle [_] hstep rfl rfl

/-! ### `generate_auth_tokens` -/

variable (decode cfg) in
theorem redeem_step {challenge : String} (hhealthy : s.services.health = .healthy)
    (hphase : s.phase = .challenged challenge)
    (hfree : s.services.calls.lookup client.id = none) :
    loginStep client decode cfg s .redeem =
      some ⟨s.services.wait client.id
        (.tokensGet client.ip client.pubkey (client.tokensRequest challenge)),
          .redeeming challenge⟩ := by
  have hpubkey : env.ed25519.publicKeyFromBytes (client.tokensRequest challenge).clientPubkey =
      some client.pubkey := by
    rw [Ed25519.publicKeyFromBytes, ValidatorClient.tokensRequest, Pubkey.tryFrom_bytes]
    exact Option.filter_eq_some_iff.mpr ⟨rfl, client.isPublicKey⟩
  rw [loginStep, hphase]
  exact take_of_silent [] (tokensRequest_step hhealthy hfree rfl hpubkey) (List.append_nil _).symm
    rfl

omit [DecidableEq Ip] in
/-- A token signed for the validator is one it can use. -/
theorem signToken_own (htokens : TokensRoundTrip env client) {expiresAtUtc : Int}
    (hrange : env.calendar.inRange expiresAtUtc = true) (failure : Failure) :
    ∃ signed, signToken env failure (client.claims expiresAtUtc) = .ok signed ∧
      HoldsToken client signed.token := by
  obtain ⟨value, hsign, hverify, hspace⟩ := htokens expiresAtUtc hrange
  refine ⟨⟨DeSerClaims.ofClaims env.ips (client.claims expiresAtUtc),
    ⟨value, timestamp expiresAtUtc⟩⟩, ?_, expiresAtUtc, hrange, rfl, hverify, hspace⟩
  simp only [signToken, bind_eq_ok_iff, okOr_eq_ok_iff, pure_eq_ok_iff]
  exact ⟨value, hsign, rfl⟩

omit [DecidableEq Ip] in
/-- The checks of `generate_auth_tokens` let the validator through with its own challenge. -/
theorem tokensAfterGetPriority_own (htokens : TokensRoundTrip env client)
    {challenge : AuthChallenge Ip} (hown : OwnChallenge client challenge) :
    ∃ access refresh, tokensAfterGetPriority env (some challenge) client.pubkey
        (client.tokensRequest challenge.challenge) = .ok (access, refresh) ∧
      HoldsToken client access.token ∧ HoldsToken client refresh.token := by
  obtain ⟨clock, hmade⟩ := hown
  obtain ⟨access, haccess, hholds⟩ := signToken_own htokens hmade.access_inRange
    (.internal "Error signing access_token.")
  obtain ⟨refresh, hrefresh, hholds'⟩ := signToken_own htokens hmade.refresh_inRange
    (.internal "Error signing refresh_token.")
  have haccessClaims : client.claims challenge.accessClaims.expiresAtUtc =
      challenge.accessClaims := by rw [hmade.access_eq]; rfl
  have hrefreshClaims : client.claims challenge.refreshClaims.expiresAtUtc =
      challenge.refreshClaims := by rw [hmade.refresh_eq]; rfl
  rw [haccessClaims] at haccess
  rw [hrefreshClaims] at hrefresh
  refine ⟨access, refresh, ?_, hholds, hholds'⟩
  simp only [tokensAfterGetPriority, bind_eq_ok_iff, ensure_eq_ok_iff, okOr_eq_ok_iff,
    pure_eq_ok_iff, Ed25519.signatureFromBytes, Option.ite_none_right_eq_some, Option.some.injEq]
  exact ⟨challenge, rfl, (), by rw [hmade.access_eq], (), rfl, (), client.length_sign _, _,
    ⟨client.isSignature_sign _, rfl⟩, (), client.verify_sign _, access, haccess, refresh, hrefresh,
    rfl⟩

variable (decode cfg) in
theorem redeemGet_step {challenge : String} (now : Int) (htokens : TokensRoundTrip env client)
    (howns : OwnsEntry client s.services.challenges)
    (hstored : StoresText client s.services challenge)
    (hcall : s.services.calls.lookup client.id =
      some (.tokensGet client.ip client.pubkey (client.tokensRequest challenge))) :
    ∃ redemption push access refresh, HoldsToken client access.token ∧
      HoldsToken client refresh.token ∧
      loginStep client decode cfg s (.serve (.tokensGet client.id now)) =
        some ⟨(s.services.log (.redeemed redemption)).wait client.id
          (.tokensRemove client.ip push access refresh), s.phase⟩ := by
  obtain ⟨entry, hentry, rfl⟩ := hstored
  obtain ⟨access, refresh, hchecks, haccess, hrefresh⟩ :=
    tokensAfterGetPriority_own htokens (howns entry hentry)
  rw [serve_eq rfl rfl]
  exact ⟨_, _, access, refresh, haccess, hrefresh,
    take_of_silent [_] (tokensGet_step hcall hentry hchecks) rfl rfl⟩

variable (decode cfg) in
theorem redeemRemove_step {challenge : String} (now : Int) {push : Nat}
    {access refresh : SignedToken} (hphase : s.phase = .redeeming challenge)
    (hcall : s.services.calls.lookup client.id =
      some (.tokensRemove client.ip push access refresh)) :
    loginStep client decode cfg s (.serve (.tokensRemove client.id now)) =
      some ⟨{ s.services with challenges := s.services.challenges.remove client.ip }.settle client.id
        (.tokens push now access.token refresh.token),
          .loggedIn access.token refresh.token none⟩ := by
  rw [serve_eq rfl rfl, hphase]
  exact take_settle [] (tokensRemove_step hcall) (List.append_nil _).symm rfl

/-! ### `refresh_access_token` -/

omit [DecidableEq Ip] in
/-- The claims of a token the validator holds parse back. -/
theorem HoldsToken.parses {token : PbToken} (h : HoldsToken client token) :
    ∃ text, env.jwt.verify token.value = some (.rs256, text) ∧
      Claims.ofDeSer env.calendar env.ips text =
        .ok (client.claims (token.expiresAtUtc * nanosPerSecond)) := by
  obtain ⟨expiresAtUtc, hrange, htold, hverify, -⟩ := h
  refine ⟨_, hverify, ?_⟩
  rw [Claims.ofDeSer_ofClaims env.calendar env.ips _ hrange, htold]
  rfl

variable (decode cfg) in
theorem renew_step {access refresh : PbToken} {stream : Option Sender} {clock : RefreshClock}
    (htokens : TokensRoundTrip env client) (hhealthy : s.services.health = .healthy)
    (hphase : s.phase = .loggedIn access refresh stream)
    (hfree : s.services.calls.lookup client.id = none) (hholds : HoldsToken client refresh)
    (htime : clock.check < refresh.expiresAtUtc * nanosPerSecond)
    (hrange : env.calendar.inRange (clock.issue + env.accessTokenTtl) = true) :
    ∃ (record : Refresh Ip) (renewed : SignedToken), HoldsToken client renewed.token ∧
      loginStep client decode cfg s (.renew clock) =
        some ⟨(s.services.log (.refreshed record)).settle client.id (.accessToken renewed.token),
          .loggedIn renewed.token refresh stream⟩ := by
  obtain ⟨text, hverify, hparses⟩ := hholds.parses
  obtain ⟨renewed, hsigned, hrenewed⟩ := signToken_own htokens hrange
    (.internal "Error signing access_token.")
  have hchecks : refreshAccessToken env s.services.health clock (client.refreshRequest refresh) =
      .ok (text, renewed) := by
    simp only [refreshAccessToken, checkHealth, bind_eq_ok_iff, ensure_eq_ok_iff, okOr_eq_ok_iff,
      pure_eq_ok_iff, expiry_eq_ok_iff, Prod.mk.injEq]
    refine ⟨(), hhealthy, (_, text), hverify, _, hparses, (), ?_, _, ⟨hrange, rfl⟩, renewed, hsigned,
      rfl, rfl⟩
    exact decide_eq_false (not_le.mpr htime)
  let record : Refresh Ip :=
    { request := client.refreshRequest refresh, clock, presented := text, issued := renewed }
  have hstep : authStep env decode cfg s.services
      (.refresh client.id clock (client.refreshRequest refresh)) =
        some ((s.services.log (.refreshed record)).settle client.id
          (.accessToken renewed.token)) := by
    simp only [authStep, AuthLabel.request, hfree, arrivalStep, hchecks, record]
  refine ⟨record, renewed, hrenewed, ?_⟩
  rw [loginStep, hphase]
  exact take_settle [_] hstep rfl rfl

/-! ### `AuthInterceptor::call` and `subscribe_packets` -/

omit [DecidableEq Ip] in
/-- The interceptor accepts a token the validator holds. -/
theorem HoldsToken.accepted {access : PbToken} (h : HoldsToken client access) :
    ∃ text, interceptorCall env.calendar env.ips env.jwt .rs256 (client.subscribeRequest access) =
      .ok (text, client.claims (access.expiresAtUtc * nanosPerSecond)) := by
  obtain ⟨text, hverify, hparses⟩ := h.parses
  obtain ⟨-, -, -, -, hspace⟩ := h
  have hbearer : bearerToken (client.subscribeRequest access).authorization = .ok access.value :=
    bearerToken_eq_ok_iff.mpr ⟨rfl, not_infix_of_no_space hspace⟩
  refine ⟨text, ?_⟩
  simp only [interceptorCall, jwtFromHeader, bind_eq_ok_iff, okOr_eq_ok_iff, ensure_eq_ok_iff,
    pure_eq_ok_iff, Prod.mk.injEq]
  exact ⟨text, ⟨_, hbearer, (_, text), hverify, (), rfl, rfl⟩, _, hparses, rfl, rfl⟩

variable (decode cfg) in
theorem subscribe_step {access refresh : PbToken} {stream : Option Sender} (now : Int)
    (hphase : s.phase = .loggedIn access refresh stream)
    (hfree : s.services.calls.lookup client.id = none) (hholds : HoldsToken client access) :
    ∃ acceptance, loginStep client decode cfg s (.subscribe now) =
      some ⟨(s.services.log (.accepted acceptance)).wait client.id
        (.subscribe (some client.pubkey)), .subscribing access refresh⟩ := by
  obtain ⟨text, hchecks⟩ := hholds.accepted
  let acceptance : Acceptance Ip :=
    { request := client.subscribeRequest access, now, token := text
      claims := client.claims (access.expiresAtUtc * nanosPerSecond) }
  have hstep : authStep env decode cfg s.services
      (.intercept client.id now (client.subscribeRequest access)) =
        some ((s.services.log (.accepted acceptance)).wait client.id
          (.subscribe (some client.pubkey))) := by
    simp only [authStep, AuthLabel.request, hfree, arrivalStep, hchecks, acceptance]
    rfl
  refine ⟨acceptance, ?_⟩
  rw [loginStep, hphase]
  exact take_of_silent [_] hstep rfl rfl

variable (decode cfg) in
/-- A subscription waits for room in the channel and is not refused. -/
theorem stream_step {access refresh : PbToken} (hphase : s.phase = .subscribing access refresh)
    (hcall : s.services.calls.lookup client.id = some (.subscribe (some client.pubkey)))
    (hserves : ServesWell client s.services (.subscribe client.id)) :
    loginStep client decode cfg s (.serve (.subscribe client.id)) =
      if s.services.subscriptionQueue.length < slotQueueCapacity then
        some ⟨{ s.services with
          subscriptionQueue := s.services.subscriptionQueue ++
            [(client.pubkey, s.services.nextSender)]
          nextSender := s.services.nextSender + 1 }.settle client.id
            (.stream s.services.nextSender),
          .loggedIn access refresh (some s.services.nextSender)⟩
      else none := by
  obtain ⟨hhealthy, hrunning⟩ := hserves
  have hchecks : subscribePackets s.services.health (some client.pubkey) = .ok client.pubkey := by
    simp only [subscribePackets, checkHealth, bind_eq_ok_iff, ensure_eq_ok_iff, okOr_eq_ok_iff]
    exact ⟨(), hhealthy, trivial⟩
  rw [serve_eq rfl rfl, hphase]
  split
  · rename_i hroom
    have hstep : authStep env decode cfg s.services (.subscribe client.id) =
        some ({ s.services with
          subscriptionQueue := s.services.subscriptionQueue ++
            [(client.pubkey, s.services.nextSender)]
          nextSender := s.services.nextSender + 1 }.settle client.id
            (.stream s.services.nextSender)) := by
      simp only [authStep, AuthLabel.request, hcall, callStep, hchecks, hrunning, if_true,
        if_pos hroom]
    exact take_settle [] hstep (List.append_nil _).symm rfl
  · rename_i hfull
    simp only [Login.take, authStep, AuthLabel.request, hcall, callStep, hchecks, hrunning, if_true,
      if_neg hfull, Option.map_none]

end Served

/-! ## The validator is not refused -/

/-- The piece of a handler that comes next for a request in flight. -/
def AuthLabel.continues : AuthLabel Ip → Call Ip → Bool
  | .challengeLen _, .challengeLen _ => true
  | .challengeGet _ _ _, .challengeGet _ _ => true
  | .challengePush _, .challengePush _ => true
  | .tokensGet _ _, .tokensGet _ _ _ => true
  | .tokensRemove _ _, .tokensRemove _ _ _ _ => true
  | .subscribe _, .subscribe _ => true
  | _, _ => false

section OwnSteps

variable [DecidableEq Ip] {env : AuthEnv Ip} {client : ValidatorClient env}
  {decode : List UInt8 → Option VersionedTransaction} {cfg : LoopConfig} {s t : Login Ip}
  {label : AuthLabel Ip}

theorem continues_of_callStep {s s' : AuthState Ip} {id : Nat} {call : Call Ip}
    (hstep : callStep env s id label call = some s') (hstays : label.abandons = false) :
    label.continues call = true := by
  unfold callStep at hstep
  split at hstep
  · rfl
  · rfl
  · rfl
  · rfl
  · rfl
  · rfl
  · cases hstays
  · cases hstep

/-- The server only goes on with a request where it stands. -/
theorem continues_of_serve (hstep : loginStep client decode cfg s (.serve label) = some t) :
    label.request = some (client.id, false) ∧
      ∃ call, s.services.calls.lookup client.id = some call ∧ label.continues call = true := by
  simp only [loginStep, Option.ite_none_right_eq_some, Login.take, Option.map_eq_some_iff] at hstep
  obtain ⟨⟨hrequest, hstays⟩, services, hauth, -⟩ := hstep
  simp only [authStep, hrequest] at hauth
  cases hcall : s.services.calls.lookup client.id with
  | none =>
    rw [hcall] at hauth
    cases hauth
  | some call =>
    rw [hcall] at hauth
    exact ⟨hrequest, call, rfl, continues_of_callStep hauth hstays⟩

theorem loginInv_ask (h : LoginInv client s) (hhealthy : s.services.health = .healthy)
    (hstep : loginStep client decode cfg s .ask = some t) : LoginInv client t := by
  have hrest : s.phase.resting = true := by
    rw [loginStep, Option.ite_none_right_eq_some] at hstep
    exact hstep.1
  rw [ask_step decode cfg hhealthy hrest (h.stands.eq_none hrest)] at hstep
  cases hstep
  exact h.waits rfl h.owns .asksLen

theorem LoginInv.of_challenged (h : LoginInv client s) {challenge : String}
    (hphase : s.phase = .challenged challenge) :
    s.services.calls.lookup client.id = none ∧ StoresText client s.services challenge := by
  have hstands := h.stands
  rw [hphase] at hstands
  generalize s.services.calls.lookup client.id = call at hstands
  cases hstands with
  | challenged hstored => exact ⟨rfl, hstored⟩

theorem LoginInv.of_loggedIn (h : LoginInv client s) {access refresh : PbToken}
    {stream : Option Sender} (hphase : s.phase = .loggedIn access refresh stream) :
    s.services.calls.lookup client.id = none ∧ HoldsToken client access ∧
      HoldsToken client refresh := by
  have hstands := h.stands
  rw [hphase] at hstands
  generalize s.services.calls.lookup client.id = call at hstands
  cases hstands with
  | loggedIn haccess hrefresh => exact ⟨rfl, haccess, hrefresh⟩

theorem loginInv_redeem (h : LoginInv client s) (hhealthy : s.services.health = .healthy)
    (hstep : loginStep client decode cfg s .redeem = some t) : LoginInv client t := by
  obtain ⟨challenge, hphase⟩ : ∃ challenge, s.phase = .challenged challenge := by
    rw [loginStep] at hstep
    split at hstep
    · exact ⟨_, by assumption⟩
    · cases hstep
  obtain ⟨hfree, hstored⟩ := h.of_challenged hphase
  rw [redeem_step decode cfg hhealthy hphase hfree] at hstep
  cases hstep
  exact h.waits rfl h.owns (.redeemsGet hstored)

theorem loginInv_renew {clock : RefreshClock} (htokens : TokensRoundTrip env client)
    (h : LoginInv client s) (hserves : NotHindered client s (.renew clock))
    (hstep : loginStep client decode cfg s (.renew clock) = some t) : LoginInv client t := by
  obtain ⟨access, refresh, stream, hphase⟩ :
      ∃ access refresh stream, s.phase = .loggedIn access refresh stream := by
    rw [loginStep] at hstep
    split at hstep
    · exact ⟨_, _, _, by assumption⟩
    · cases hstep
  obtain ⟨hhealthy, htime, hrange⟩ := hserves
  obtain ⟨hfree, -, hrefresh⟩ := h.of_loggedIn hphase
  have hlive := htime refresh (by rw [hphase]; rfl)
  obtain ⟨record, renewed, hrenewed, heq⟩ :=
    renew_step decode cfg htokens hhealthy hphase hfree hrefresh hlive hrange
  rw [heq] at hstep
  cases hstep
  exact h.rests rfl h.owns (.loggedIn hrenewed hrefresh)

theorem loginInv_subscribe {now : Int} (h : LoginInv client s)
    (hstep : loginStep client decode cfg s (.subscribe now) = some t) : LoginInv client t := by
  obtain ⟨access, refresh, stream, hphase⟩ :
      ∃ access refresh stream, s.phase = .loggedIn access refresh stream := by
    rw [loginStep] at hstep
    split at hstep
    · exact ⟨_, _, _, by assumption⟩
    · cases hstep
  obtain ⟨hfree, haccess, hrefresh⟩ := h.of_loggedIn hphase
  obtain ⟨acceptance, heq⟩ :=
    subscribe_step decode cfg now hphase hfree haccess
  rw [heq] at hstep
  cases hstep
  exact h.waits rfl h.owns (.subscribes haccess hrefresh)

/-- The server goes on with the request of the validator. -/
theorem loginInv_serve (htokens : TokensRoundTrip env client) (h : LoginInv client s)
    (hstep : loginStep client decode cfg s (.serve label) = some t)
    (hserves : ServesWell client s.services label) : LoginInv client t := by
  obtain ⟨hlabel, call, hcall, hnext⟩ := continues_of_serve hstep
  have hstands := h.stands
  rw [hcall] at hstands
  generalize hphase : s.phase = phase at hstands
  -- where the request stands decides which piece comes next
  cases hstands with
  | asksLen =>
    cases label with
    | challengeLen id =>
      cases hlabel
      rw [len_step decode cfg hcall hserves] at hstep
      cases hstep
      exact h.waits rfl h.owns (hphase ▸ .asksGet)
    | _ => cases hnext
  | asksGet =>
    cases label with
    | challengeGet id clock token =>
      cases hlabel
      rcases get_step decode cfg hphase hcall hserves with ⟨entry, hentry, heq⟩ |
        ⟨pending, hip, hown, heq⟩
      · rw [heq] at hstep
        cases hstep
        exact h.rests rfl h.owns (.challenged ⟨entry, hentry, rfl⟩)
      · rw [heq] at hstep
        cases hstep
        exact h.waits rfl h.owns (.asksPush hip hown)
    | _ => cases hnext
  | @asksPush pending hip hown =>
    cases label with
    | challengePush id =>
      cases hlabel
      rw [push_step decode cfg hphase hcall] at hstep
      cases hstep
      have hentry : (s.services.challenges.push pending.ip
          ⟨s.services.history.length, pending.challenge⟩).lookup client.ip =
            some ⟨s.services.history.length, pending.challenge⟩ := by
        rw [← hip]
        exact AList.lookup_insert _
      refine h.rests rfl ?_ (.challenged ⟨_, hentry, rfl⟩)
      intro entry hstored
      cases hentry.symm.trans hstored
      exact hown
    | _ => cases hnext
  | redeemsGet hstored =>
    cases label with
    | tokensGet id now =>
      cases hlabel
      obtain ⟨redemption, push, access, refresh, haccess, hrefresh, heq⟩ :=
        redeemGet_step decode cfg now htokens h.owns hstored hcall
      rw [heq] at hstep
      cases hstep
      exact h.waits rfl h.owns (hphase ▸ .redeemsRemove haccess hrefresh)
    | _ => cases hnext
  | redeemsRemove haccess hrefresh =>
    cases label with
    | tokensRemove id now =>
      cases hlabel
      rw [redeemRemove_step decode cfg now hphase hcall] at hstep
      cases hstep
      refine h.rests rfl ?_ (.loggedIn haccess hrefresh)
      intro entry hentry
      exact absurd rfl (lookup_erase_cases hentry).1
    | _ => cases hnext
  | subscribes haccess hrefresh =>
    cases label with
    | subscribe id =>
      cases hlabel
      rw [stream_step decode cfg hphase hcall hserves, Option.ite_none_right_eq_some] at hstep
      cases hstep.2
      exact h.rests rfl h.owns (.loggedIn haccess hrefresh)
    | _ => cases hnext

end OwnSteps

section OtherSteps

variable [DecidableEq Ip] {env : AuthEnv Ip} {client : ValidatorClient env}
  {decode : List UInt8 → Option VersionedTransaction} {cfg : LoopConfig} {s s' : AuthState Ip}
  {label : AuthLabel Ip}

omit [DecidableEq Ip] in
/-- A request in flight after a piece of a handler is one from before, or has just gone on to
wait. -/
theorem call_of_resume {id id' : Nat} {result : Except Failure (Call Ip)} {call : Call Ip}
    (hcall : (s.resume id' result).calls.lookup id = some call) :
    s.calls.lookup id = some call ∨ id = id' ∧ result = .ok call := by
  cases result with
  | error failure => exact .inl (lookup_erase_cases hcall).2
  | ok next =>
    rcases lookup_insert_cases hcall with ⟨rfl, rfl⟩ | hold
    · exact .inr ⟨rfl, rfl⟩
    · exact .inl hold

omit [DecidableEq Ip] in
/-- A request that arrives is about its peer address. -/
theorem address_arrivalStep {id id' : Nat} {call : Call Ip} {ip : Ip}
    (hstep : arrivalStep env s id' label = some s') (hcall : s'.calls.lookup id = some call)
    (haddress : call.address = some ip) :
    label.remoteAddr = some ip ∨ s.calls.lookup id = some call := by
  cases label with
  | challengeRequest _ req =>
    cases hstep
    rcases call_of_resume hcall with hold | ⟨-, hok⟩
    · exact .inr hold
    · simp only [bind_eq_ok_iff, pure_eq_ok_iff] at hok
      obtain ⟨-, -, rfl⟩ := hok
      exact .inl haddress
  | tokensRequest _ req =>
    cases hstep
    rcases call_of_resume hcall with hold | ⟨-, hok⟩
    · exact .inr hold
    · simp only [bind_eq_ok_iff, pure_eq_ok_iff] at hok
      obtain ⟨⟨ip', pubkey⟩, hstart, rfl⟩ := hok
      cases haddress
      exact .inl (tokensStart_eq_ok hstart).1
  | refresh _ clock req =>
    simp only [arrivalStep] at hstep
    split at hstep
    · cases hstep
      exact .inr (lookup_erase_cases hcall).2
    · cases hstep
      exact .inr (lookup_erase_cases hcall).2
  | intercept _ now req =>
    simp only [arrivalStep] at hstep
    split at hstep
    · cases hstep
      exact .inr (lookup_erase_cases hcall).2
    · cases hstep
      rcases lookup_insert_cases hcall with ⟨-, rfl⟩ | hold
      · cases haddress
      · exact .inr hold
  | _ => cases hstep

/-- A request keeps its address while it moves. -/
theorem address_callStep {id id' : Nat} {before call : Call Ip} {ip : Ip}
    (hbefore : s.calls.lookup id' = some before)
    (hstep : callStep env s id' label before = some s') (hcall : s'.calls.lookup id = some call)
    (haddress : call.address = some ip) :
    ∃ old, s.calls.lookup id = some old ∧ old.address = some ip := by
  have herased : (s.calls.erase id').lookup id = some call →
      ∃ old, s.calls.lookup id = some old ∧ old.address = some ip :=
    fun h => ⟨call, (lookup_erase_cases h).2, haddress⟩
  have hmoved : ∀ next : Call Ip, (s.calls.insert id' next).lookup id = some call →
      (next.address = some ip → before.address = some ip) →
      ∃ old, s.calls.lookup id = some old ∧ old.address = some ip := by
    intro next h hsame
    rcases lookup_insert_cases h with ⟨rfl, rfl⟩ | hold
    · exact ⟨before, hbefore, hsame haddress⟩
    · exact ⟨call, hold, haddress⟩
  unfold callStep at hstep
  split at hstep
  · cases hstep
    rcases call_of_resume hcall with hold | ⟨rfl, hok⟩
    · exact ⟨call, hold, haddress⟩
    · simp only [bind_eq_ok_iff, pure_eq_ok_iff] at hok
      obtain ⟨ip', hlen, rfl⟩ := hok
      cases haddress
      exact ⟨_, hbefore, (challengeAfterLen_eq_ok hlen).2⟩
  · simp only [AuthChallenges.getPriority] at hstep
    split at hstep
    · cases hstep
      exact herased hcall
    · cases hstep
      exact herased hcall
    · cases hstep
      exact hmoved _ hcall fun h => h
  · cases hstep
    exact herased hcall
  · simp only [AuthChallenges.getPriority] at hstep
    split at hstep
    · cases hstep
      exact herased hcall
    · cases hstep
      exact hmoved _ hcall fun h => h
    · cases hstep
  · cases hstep
    exact herased hcall
  · split at hstep
    · cases hstep
      exact herased hcall
    · split at hstep
      · split at hstep
        · cases hstep
          exact herased hcall
        · cases hstep
      · cases hstep
        exact herased hcall
  · cases hstep
    exact herased hcall
  · cases hstep

/-- Steps from other addresses bring no request to the address of the validator. -/
theorem AloneAt.step (h : AloneAt client s.calls) (hremote : label.remoteAddr ≠ some client.ip)
    (hstep : authStep env decode cfg s label = some s') : AloneAt client s'.calls := by
  intro id call hid hcall haddress
  unfold authStep at hstep
  split at hstep
  · rw [(frame_backgroundStep hstep).1] at hcall
    exact h id call hid hcall haddress
  · split at hstep
    · rcases address_arrivalStep hstep hcall haddress with hnew | hold
      · exact hremote hnew
      · exact h id call hid hold haddress
    · cases hstep
  · split at hstep
    · cases hstep
    · rename_i before hbefore
      obtain ⟨old, hold, hsame⟩ := address_callStep hbefore hstep hcall haddress
      exact h id old hid hold hsame

/-- The entry of the validator is only written by its own requests, and taken away by no
sweep that finds it unexpired. -/
theorem lookup_of_other (halone : AloneAt client s.calls) (hleaves : LeavesAlone client s label)
    (hother : ∀ arrives, label.request ≠ some (client.id, arrives))
    (hmove : Move env decode cfg s label s') :
    s'.challenges.lookup client.ip = s.challenges.lookup client.ip := by
  cases hmove with
  | @pushed id pending hcall =>
    have hne : id ≠ client.id := fun heq => hother false (heq ▸ rfl)
    have hip := halone id _ hne hcall
    exact AList.lookup_insert_ne fun heq => hip (congrArg some heq.symm)
  | @removed id now ip push access refresh hcall =>
    have hne : id ≠ client.id := fun heq => hother false (heq ▸ rfl)
    have hip := halone id _ hne hcall
    exact AList.lookup_erase_ne fun heq => hip (congrArg some heq.symm)
  | @swept readings challenges hswept =>
    change challenges.lookup client.ip = s.challenges.lookup client.ip
    cases hentry : s.challenges.lookup client.ip with
    | none =>
      cases hleft : challenges.lookup client.ip with
      | none => rfl
      | some entry =>
        rw [AuthChallenges.lookup_of_removeAllExpired readings hswept hleft] at hentry
        cases hentry
    | some entry =>
      rcases AuthChallenges.lookup_removeAllExpired readings hswept hentry with hkept |
        ⟨now, hnow, hexpired⟩
      · exact hkept
      · rw [hleaves entry hentry _ hnow] at hexpired
        cases hexpired
  | _ => rfl

/-- Whatever else happens, the validator stays where it is. -/
theorem loginInv_other {s t : Login Ip} (h : LoginInv client s)
    (hleaves : LeavesAlone client s.services label)
    (hstep : loginStep client decode cfg s (.other label) = some t) : LoginInv client t := by
  simp only [loginStep, Option.ite_none_left_eq_some, Option.map_eq_some_iff] at hstep
  obtain ⟨hother, services, hauth, rfl⟩ := hstep
  have hnames : ∀ arrives, label.request ≠ some (client.id, arrives) := by
    intro arrives heq
    exact hother ⟨_, heq, rfl⟩
  have hremote : label.remoteAddr ≠ some client.ip := by
    cases label with
    | sweep readings => exact fun h => nomatch h
    | _ => exact hleaves
  have hentry := lookup_of_other h.alone hleaves hnames (move_of_authStep hauth)
  exact
    { stands := by
        rw [lookup_calls_authStep hauth hnames]
        exact h.stands.of_lookup hentry
      owns := fun entry hstored => h.owns entry (hentry ▸ hstored)
      alone := h.alone.step hremote hauth }

theorem loginInv_step {s t : Login Ip} {label : LoginLabel Ip}
    (htokens : TokensRoundTrip env client) (h : LoginInv client s)
    (hcond : NotHindered client s label) (hstep : loginStep client decode cfg s label = some t) :
    LoginInv client t := by
  cases label with
  | ask => exact loginInv_ask h hcond hstep
  | redeem => exact loginInv_redeem h hcond hstep
  | renew clock => exact loginInv_renew htokens h hcond hstep
  | subscribe now => exact loginInv_subscribe h hstep
  | serve label => exact loginInv_serve htokens h hstep hcond
  | other label => exact loginInv_other h hcond hstep

theorem loginInv_run (htokens : TokensRoundTrip env client) {health : HealthState}
    {auther : Pubkey → Bool} {ls : List (LoginLabel Ip)} {s : Login Ip}
    (hcond : StepsMeet (loginStep client decode cfg) (NotHindered client) (Login.init health auther)
      ls)
    (hrun : runSteps (loginStep client decode cfg) (Login.init health auther) ls = some s) :
    LoginInv client s :=
  runSteps_invariant_of_meets (LoginInv client)
    (fun _ _ _ h hcond hstep => loginInv_step htokens h hcond hstep) ls
    (loginInv_init health auther) hcond hrun

end OtherSteps

/-- In every run in which nothing of `NotHindered` stands in the way, whatever other clients
do, the validator is never refused, and a token it holds is accepted as its own. -/
theorem honest_client_never_refused [DecidableEq Ip] (env : AuthEnv Ip)
    (decode : List UInt8 → Option VersionedTransaction) (cfg : LoopConfig)
    (client : ValidatorClient env) (htokens : TokensRoundTrip env client) (health : HealthState)
    (auther : Pubkey → Bool) (ls : List (LoginLabel Ip)) (s : Login Ip)
    (hcond : StepsMeet (loginStep client decode cfg) (NotHindered client) (Login.init health auther)
      ls)
    (hrun : runSteps (loginStep client decode cfg) (Login.init health auther) ls = some s) :
    (∀ failure, s.phase ≠ .refused failure) ∧
    ∀ access refresh stream, s.phase = .loggedIn access refresh stream →
      ∃ token claims, interceptorCall env.calendar env.ips env.jwt .rs256
          (client.subscribeRequest access) = .ok (token, claims) ∧
        claims.clientPubkey = client.pubkey ∧ claims.clientIp = client.ip := by
  have hinv := loginInv_run htokens hcond hrun
  refine ⟨?_, ?_⟩
  · intro failure hphase
    have hstands := hinv.stands
    rw [hphase] at hstands
    generalize s.services.calls.lookup client.id = call at hstands
    cases hstands
  · intro access refresh stream hphase
    obtain ⟨-, haccess, -⟩ := hinv.of_loggedIn hphase
    obtain ⟨text, hchecks⟩ := haccess.accepted
    exact ⟨text, _, hchecks, rfl, rfl⟩

/-! ## The validator gets on -/

/-- The steps of the validator, of the server for it, and of the event loop. -/
def LoginLabel.ownOrLoop : LoginLabel Ip → Bool
  | .other (.loopTurn _) => true
  | .other _ => false
  | _ => true

section Completes

variable [DecidableEq Ip] {env : AuthEnv Ip} (client : ValidatorClient env)
  (decode : List UInt8 → Option VersionedTransaction) (cfg : LoopConfig)

/-- The validator can get itself subscribed. -/
def Completes (s : Login Ip) : Prop :=
  ∃ labels t access refresh sender, (∀ label ∈ labels, LoginLabel.ownOrLoop label = true) ∧
    runSteps (loginStep client decode cfg) s labels = some t ∧
    t.phase = .loggedIn access refresh (some sender) ∧
    t.services.loopState.packetSubscriptions.lookup client.pubkey = some sender

/-- The relayer is up, knows the validator, and no subscription is queued. -/
structure Welcoming (s : AuthState Ip) : Prop where
  healthy : s.health = .healthy
  running : s.loopRunning = true
  authorized : s.auther client.pubkey = true
  queue : s.subscriptionQueue = []

variable {client decode cfg} {s t : Login Ip} {label : LoginLabel Ip}

theorem Completes.step (hown : label.ownOrLoop = true)
    (hstep : loginStep client decode cfg s label = some t) (h : Completes client decode cfg t) :
    Completes client decode cfg s := by
  obtain ⟨labels, u, access, refresh, sender, howns, hrun, hphase, hsubscribed⟩ := h
  refine ⟨label :: labels, u, access, refresh, sender, ?_, ?_, hphase, hsubscribed⟩
  · rintro l (_ | ⟨_, hl⟩)
    · exact hown
    · exact howns l hl
  · rw [runSteps_cons, hstep]
    exact hrun

variable (client decode cfg) in
/-- The event loop takes the subscription at the head of its channel. -/
theorem take_subscription {pubkey : Pubkey} {sender : Sender} {rest : List (Pubkey × Sender)}
    (hrunning : s.services.loopRunning = true)
    (hqueue : s.services.subscriptionQueue = (pubkey, sender) :: rest) :
    ∃ loopState : LoopState, loopState.packetSubscriptions.lookup pubkey = some sender ∧
      loginStep client decode cfg s (.other (.loopTurn (.subscription (some (pubkey, sender))))) =
        some { s with services := { s.services with subscriptionQueue := rest, loopState } } := by
  have hvalid : LoopEvent.Valid cfg s.services.loopState
      (.subscription (some (pubkey, sender))) := by
    intro p hp
    cases hp
  have hreceive : receive s.services (.subscription (some (pubkey, sender))) = some rest := by
    simp only [receive, hqueue, if_true]
  obtain ⟨loopState, hturn, hmap⟩ : ∃ loopState : LoopState,
      eventStep decode cfg s.services.loopState (.subscription (some (pubkey, sender))) =
        some loopState ∧ loopState.packetSubscriptions.lookup pubkey = some sender :=
    ⟨_, if_pos hvalid, AList.lookup_insert _⟩
  refine ⟨loopState, hmap, ?_⟩
  simp only [loginStep, AuthLabel.request, authStep, backgroundStep, hrunning, if_true, hreceive,
    Option.bind_some, hturn, Option.map_some]
  rfl

/-- The event loop empties the channel first. -/
theorem completes_of_drained (hrunning : s.services.loopRunning = true)
    (h : ∀ loopState, Completes client decode cfg
      { s with services := { s.services with subscriptionQueue := [], loopState } }) :
    Completes client decode cfg s := by
  generalize hqueue : s.services.subscriptionQueue = queue
  induction queue generalizing s with
  | nil =>
    have hsame := h s.services.loopState
    rw [← hqueue] at hsame
    exact hsame
  | cons head rest ih =>
    obtain ⟨loopState, -, hstep⟩ := take_subscription client decode cfg hrunning hqueue
    exact Completes.step rfl hstep (ih hrunning h rfl)

/-- With its subscription queued, the validator is one turn of the loop from the map. -/
theorem completes_of_queued {access refresh : PbToken} {sender : Sender}
    (hrunning : s.services.loopRunning = true)
    (hqueue : s.services.subscriptionQueue = [(client.pubkey, sender)])
    (hphase : s.phase = .loggedIn access refresh (some sender)) :
    Completes client decode cfg s := by
  obtain ⟨loopState, hmap, hstep⟩ := take_subscription client decode cfg hrunning hqueue
  refine Completes.step rfl hstep ⟨[], _, access, refresh, sender, ?_, rfl, hphase, hmap⟩
  intro label hlabel
  cases hlabel

theorem completes_of_subscribing {access refresh : PbToken} (hopen : Welcoming client s.services)
    (hphase : s.phase = .subscribing access refresh)
    (hcall : s.services.calls.lookup client.id = some (.subscribe (some client.pubkey))) :
    Completes client decode cfg s := by
  have hroom : s.services.subscriptionQueue.length < slotQueueCapacity := by
    rw [hopen.queue]
    decide
  have hstep := stream_step decode cfg hphase hcall
    ⟨hopen.healthy, hopen.running⟩
  rw [if_pos hroom] at hstep
  refine Completes.step rfl hstep (completes_of_queued hopen.running ?_ rfl)
  exact congrArg (· ++ [(client.pubkey, s.services.nextSender)]) hopen.queue

theorem completes_of_loggedIn {access refresh : PbToken} {stream : Option Sender}
    (h : LoginInv client s) (hopen : Welcoming client s.services)
    (hphase : s.phase = .loggedIn access refresh stream) : Completes client decode cfg s := by
  obtain ⟨hfree, haccess, -⟩ := h.of_loggedIn hphase
  obtain ⟨acceptance, hstep⟩ := subscribe_step decode cfg 0 hphase hfree haccess
  refine Completes.step rfl hstep (completes_of_subscribing ?_ rfl (AList.lookup_insert _))
  exact ⟨hopen.healthy, hopen.running, hopen.authorized, hopen.queue⟩

theorem completes_of_removing {challenge : String} {push : Nat} {access refresh : SignedToken}
    (htokens : TokensRoundTrip env client) (h : LoginInv client s)
    (hopen : Welcoming client s.services) (hphase : s.phase = .redeeming challenge)
    (hcall : s.services.calls.lookup client.id =
      some (.tokensRemove client.ip push access refresh)) : Completes client decode cfg s := by
  have hstep := redeemRemove_step decode cfg 0 hphase hcall
  refine Completes.step rfl hstep
    (completes_of_loggedIn (loginInv_serve htokens h hstep trivial) ?_ rfl)
  exact ⟨hopen.healthy, hopen.running, hopen.authorized, hopen.queue⟩

theorem completes_of_redeeming {challenge : String} (htokens : TokensRoundTrip env client)
    (h : LoginInv client s) (hopen : Welcoming client s.services)
    (hphase : s.phase = .redeeming challenge) (hstored : StoresText client s.services challenge)
    (hcall : s.services.calls.lookup client.id =
      some (.tokensGet client.ip client.pubkey (client.tokensRequest challenge))) :
    Completes client decode cfg s := by
  obtain ⟨redemption, push, access, refresh, -, -, hstep⟩ :=
    redeemGet_step decode cfg 0 htokens h.owns hstored hcall
  refine Completes.step rfl hstep (completes_of_removing htokens
    (loginInv_serve htokens h hstep trivial) ?_ hphase (AList.lookup_insert _))
  exact ⟨hopen.healthy, hopen.running, hopen.authorized, hopen.queue⟩

theorem completes_of_challenged {challenge : String} (htokens : TokensRoundTrip env client)
    (h : LoginInv client s) (hopen : Welcoming client s.services)
    (hphase : s.phase = .challenged challenge) : Completes client decode cfg s := by
  obtain ⟨hfree, hstored⟩ := h.of_challenged hphase
  have hstep := redeem_step decode cfg hopen.healthy hphase hfree
  refine Completes.step rfl hstep (completes_of_redeeming htokens
    (loginInv_redeem h hopen.healthy hstep) ?_ rfl hstored (AList.lookup_insert _))
  exact ⟨hopen.healthy, hopen.running, hopen.authorized, hopen.queue⟩

theorem completes_of_pushing {pending : PendingPush Ip} (htokens : TokensRoundTrip env client)
    (h : LoginInv client s) (hopen : Welcoming client s.services) (hphase : s.phase = .asking)
    (hcall : s.services.calls.lookup client.id = some (.challengePush pending)) :
    Completes client decode cfg s := by
  have hstep := push_step decode cfg hphase hcall
  refine Completes.step rfl hstep (completes_of_challenged htokens
    (loginInv_serve htokens h hstep trivial) ?_ rfl)
  exact ⟨hopen.healthy, hopen.running, hopen.authorized, hopen.queue⟩

section Asking

variable {clock : ChallengeClock} (token : ChallengeToken)
  (haccess : env.calendar.inRange (clock.access + env.accessTokenTtl) = true)
  (hrefresh : env.calendar.inRange (clock.refresh + env.refreshTokenTtl) = true)
  (hchallenge : env.calendar.inRange (clock.challenge + env.challengeTtl) = true)

include token haccess hrefresh hchallenge

theorem completes_of_getting (htokens : TokensRoundTrip env client) (h : LoginInv client s)
    (hopen : Welcoming client s.services) (hphase : s.phase = .asking)
    (hcall : s.services.calls.lookup client.id =
      some (.challengeGet client.ip client.challengeRequest)) : Completes client decode cfg s := by
  have hserves : ServesWell client s.services (.challengeGet client.id clock token) :=
    ⟨hopen.authorized, haccess, hrefresh, hchallenge⟩
  rcases get_step decode cfg hphase hcall hserves with ⟨entry, -, hstep⟩ | ⟨pending, -, -, hstep⟩
  · refine Completes.step rfl hstep (completes_of_challenged htokens
      (loginInv_serve htokens h hstep hserves) ?_ rfl)
    exact ⟨hopen.healthy, hopen.running, hopen.authorized, hopen.queue⟩
  · refine Completes.step rfl hstep (completes_of_pushing htokens
      (loginInv_serve htokens h hstep hserves) ?_ rfl (AList.lookup_insert _))
    exact ⟨hopen.healthy, hopen.running, hopen.authorized, hopen.queue⟩

theorem completes_of_asking (htokens : TokensRoundTrip env client) (h : LoginInv client s)
    (hopen : Welcoming client s.services) (hphase : s.phase = .asking)
    (hroom : s.services.challenges.len < authChallengesCapacity)
    (hcall : s.services.calls.lookup client.id = some (.challengeLen client.challengeRequest)) :
    Completes client decode cfg s := by
  have hstep := len_step decode cfg hcall hroom
  refine Completes.step rfl hstep (completes_of_getting token haccess hrefresh hchallenge htokens
    (loginInv_serve htokens h hstep hroom) ?_ hphase (AList.lookup_insert _))
  exact ⟨hopen.healthy, hopen.running, hopen.authorized, hopen.queue⟩

theorem completes_of_idle (htokens : TokensRoundTrip env client) (h : LoginInv client s)
    (hopen : Welcoming client s.services) (hphase : s.phase = .idle)
    (hroom : s.services.challenges.len < authChallengesCapacity) :
    Completes client decode cfg s := by
  have hrest : s.phase.resting = true := by rw [hphase]; rfl
  have hstep := ask_step decode cfg hopen.healthy hrest
    (h.stands.eq_none hrest)
  refine Completes.step rfl hstep (completes_of_asking token haccess hrefresh hchallenge htokens
    (loginInv_ask h hopen.healthy hstep) ?_ rfl hroom (AList.lookup_insert _))
  exact ⟨hopen.healthy, hopen.running, hopen.authorized, hopen.queue⟩

/-- Wherever the validator stands, it gets on. -/
theorem completes_of_loginInv (htokens : TokensRoundTrip env client) (h : LoginInv client s)
    (hopen : Welcoming client s.services)
    (hroom : s.services.challenges.len < authChallengesCapacity) :
    Completes client decode cfg s := by
  have hstands := h.stands
  generalize hphase : s.phase = phase at hstands
  generalize hcall : s.services.calls.lookup client.id = call at hstands
  cases hstands with
  | idle =>
    exact completes_of_idle token haccess hrefresh hchallenge htokens h hopen hphase hroom
  | asksLen =>
    exact completes_of_asking token haccess hrefresh hchallenge htokens h hopen hphase hroom hcall
  | asksGet =>
    exact completes_of_getting token haccess hrefresh hchallenge htokens h hopen hphase hcall
  | asksPush hip hown => exact completes_of_pushing htokens h hopen hphase hcall
  | challenged hstored => exact completes_of_challenged htokens h hopen hphase
  | redeemsGet hstored => exact completes_of_redeeming htokens h hopen hphase hstored hcall
  | redeemsRemove _ _ => exact completes_of_removing htokens h hopen hphase hcall
  | loggedIn _ _ => exact completes_of_loggedIn h hopen hphase
  | subscribes _ _ => exact completes_of_subscribing hopen hphase hcall

end Asking

end Completes

/-- From every state such a run can reach, as long as the relayer is up and has room in its
store, the validator gets itself into the subscription map, and nobody but the event loop
has to move for it. -/
theorem honest_client_completes [DecidableEq Ip] (env : AuthEnv Ip)
    (decode : List UInt8 → Option VersionedTransaction) (cfg : LoopConfig)
    (client : ValidatorClient env) (htokens : TokensRoundTrip env client) (health : HealthState)
    (auther : Pubkey → Bool) (ls : List (LoginLabel Ip)) (s : Login Ip)
    (hcond : StepsMeet (loginStep client decode cfg) (NotHindered client) (Login.init health auther)
      ls)
    (hrun : runSteps (loginStep client decode cfg) (Login.init health auther) ls = some s)
    (hhealthy : s.services.health = .healthy) (hrunning : s.services.loopRunning = true)
    (hauthorized : s.services.auther client.pubkey = true)
    (hroom : s.services.challenges.len < authChallengesCapacity) (clock : ChallengeClock)
    (token : ChallengeToken)
    (haccess : env.calendar.inRange (clock.access + env.accessTokenTtl) = true)
    (hrefresh : env.calendar.inRange (clock.refresh + env.refreshTokenTtl) = true)
    (hchallenge : env.calendar.inRange (clock.challenge + env.challengeTtl) = true) :
    Completes client decode cfg s := by
  have hinv := loginInv_run htokens hcond hrun
  refine completes_of_drained hrunning ?_
  intro loopState
  have hdrained : LoginInv client
      { s with services := { s.services with subscriptionQueue := [], loopState } } :=
    ⟨hinv.stands.of_lookup rfl, hinv.owns, hinv.alone⟩
  exact completes_of_loginInv token haccess hrefresh hchallenge htokens hdrained
    ⟨hhealthy, hrunning, hauthorized, rfl⟩ hroom

/-! ## Two validators log in -/

/-- A calendar of five seconds. -/
def fiveSeconds : Calendar where
  inRange time := decide (second 0 ≤ time ∧ time < second 5)
  inRange_wholeSecond := by
    intro time h
    have hbounds := of_decide_eq_true h
    refine decide_eq_true ?_
    unfold second timestamp nanosPerSecond at *
    omega

/-- A server whose tokens last for two and three seconds. -/
def briefEnv : AuthEnv Peer :=
  { clientEnv (List.range 5) 2 3 with
    calendar := fiveSeconds
    challengeTtl := 3 * nanosPerSecond }

/-- The validator with key `uniformKey 7` at the first address. -/
def firstValidator : ValidatorClient briefEnv where
  id := 0
  ip := .first
  pubkey := uniformKey 7
  sign := fun _ => List.replicate signatureBytes 7
  isPublicKey := rfl
  length_sign := fun _ => rfl
  isSignature_sign := fun _ => rfl
  verify_sign := fun _ => rfl

theorem tokensRoundTrip_firstValidator : TokensRoundTrip briefEnv firstValidator := by
  intro expiresAtUtc hrange
  have hbounds : second 0 ≤ expiresAtUtc ∧ expiresAtUtc < second 5 := of_decide_eq_true hrange
  obtain ⟨n, hn, hclaims⟩ : ∃ n < 5,
      DeSerClaims.ofClaims briefEnv.ips (firstValidator.claims expiresAtUtc) = clientClaims n := by
    refine ⟨(timestamp expiresAtUtc - 1700000000).toNat, ?_, ?_⟩
    · unfold second timestamp nanosPerSecond at *
      omega
    · have htime : timestamp expiresAtUtc =
          ((1700000000 + (timestamp expiresAtUtc - 1700000000).toNat : Nat) : Int) := by
        unfold second timestamp nanosPerSecond at *
        omega
      rw [clientClaims, ← htime]
      rfl
  rw [hclaims]
  have hall : ∀ n < 5, briefEnv.jwt.sign (clientClaims n) = some (tokenText n) ∧
      briefEnv.jwt.verify (tokenText n) = some (.rs256, clientClaims n) ∧
      ' ' ∉ (tokenText n).toList := by decide
  exact ⟨tokenText n, hall n hn⟩

/-- The step function of that server. -/
abbrev briefStep : Login Peer → LoginLabel Peer → Option (Login Peer) :=
  loginStep firstValidator (fun _ => none) ⟨∅, 4, true, 5⟩

/-- The validator gets its challenge and asks for tokens.  Another validator asks from the
second address meanwhile, and a sweep comes before the challenge runs out. -/
def overlappingLogins : List (LoginLabel Peer) :=
  [ .ask
  , .other (.challengeRequest 1 ⟨some .second, 2, (uniformKey 8).bytes⟩)
  , .serve (.challengeLen 0)
  , .serve (.challengeGet 0 (clockAt (second 0)) otherToken)
  , .other (.challengeLen 1)
  , .serve (.challengePush 0)
  , .other (.challengeGet 1 (clockAt (second 0)) otherToken)
  , .other (.sweep [(.first, second 1)])
  , .redeem ]

/-- It renews its access token, subscribes and is taken. -/
def renewedSubscription : List (LoginLabel Peer) :=
  [ .serve (.tokensGet 0 (second 1))
  , .other (.challengePush 1)
  , .serve (.tokensRemove 0 (second 1))
  , .renew ⟨second 1, second 1, by simp⟩
  , .subscribe (second 2)
  , .serve (.subscribe 0)
  , .other (.loopTurn (.subscription (some (uniformKey 7, 0)))) ]

abbrev bothAuthorized : Pubkey → Bool := fun key => key = uniformKey 7 ∨ key = uniformKey 8

theorem honest_client_never_refused_overlapping :
    ∃ s, runSteps briefStep (Login.init .healthy bothAuthorized)
        (overlappingLogins ++ renewedSubscription) = some s ∧
      s.services.loopState.packetSubscriptions.keys = [uniformKey 7] ∧
      s.services.history.length = 10 ∧ ∀ failure, s.phase ≠ .refused failure := by
  have hrun : (runSteps briefStep (Login.init .healthy bothAuthorized)
      (overlappingLogins ++ renewedSubscription)).map
        (fun s => (s.services.loopState.packetSubscriptions.keys, s.services.history.length)) =
          some ([uniformKey 7], 10) := by decide
  have hcond : StepsMeet briefStep (NotHindered firstValidator)
      (Login.init .healthy bothAuthorized) (overlappingLogins ++ renewedSubscription) := by
    unfold StepsMeet
    decide
  obtain ⟨s, hs, hvalues⟩ := Option.map_eq_some_iff.mp hrun
  obtain ⟨hkeys, hlength⟩ := Prod.mk.inj hvalues
  exact ⟨s, hs, hkeys, hlength, (honest_client_never_refused briefEnv _ _ firstValidator
    tokensRoundTrip_firstValidator _ _ _ s hcond hs).1⟩

theorem honest_client_completes_overlapping :
    ∃ s, runSteps briefStep (Login.init .healthy bothAuthorized) overlappingLogins = some s ∧
      s.services.calls.keys.length = 2 ∧
      Completes firstValidator (fun _ => none) ⟨∅, 4, true, 5⟩ s := by
  have hrun : (runSteps briefStep (Login.init .healthy bothAuthorized) overlappingLogins).map
      (fun s => (s.services.calls.keys.length, s.services.health, s.services.loopRunning,
        s.services.auther (uniformKey 7), s.services.challenges.len)) =
        some (2, .healthy, true, true, 1) := by decide
  have hcond : StepsMeet briefStep (NotHindered firstValidator)
      (Login.init .healthy bothAuthorized) overlappingLogins := by
    unfold StepsMeet
    decide
  obtain ⟨s, hs, hvalues⟩ := Option.map_eq_some_iff.mp hrun
  simp only [Prod.mk.injEq] at hvalues
  obtain ⟨hcalls, hhealthy, hrunning, hauthorized, hlen⟩ := hvalues
  refine ⟨s, hs, hcalls, ?_⟩
  exact honest_client_completes briefEnv _ _ firstValidator tokensRoundTrip_firstValidator _ _ _ s
    hcond hs hhealthy hrunning hauthorized (by rw [hlen]; decide) (clockAt (second 1)) otherToken
    (by decide) (by decide) (by decide)

end FlowraRelayer.Relayer
