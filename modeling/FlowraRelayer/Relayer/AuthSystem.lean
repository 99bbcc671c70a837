/-
  Relayer/AuthSystem.lean --- the auth service, the relayer service and the event
  loop as one concurrent system.

  Any number of requests are in flight.  A request moves from one lock to the next:
  each label below takes one lock (or is one piece of code without a lock) and runs
  the handler of `AuthService.lean` up to the next `await`.  Between two labels of
  one request any other request, the expiration sweep, the health manager, the
  authoriser and the event loop may move, and the future of a request may be dropped.

      generate_auth_challenge   challengeRequest, challengeLen, challengeGet, challengePush
      generate_auth_tokens      tokensRequest, tokensGet, tokensRemove
      refresh_access_token      refresh
      remove_all_expired        sweep
      AuthInterceptor::call     intercept
      subscribe_packets         subscribe
      run_event_loop            loopTurn, loopEnd

  `history` records what happened, in order; no handler reads it.  A push is known
  by its position there.

  The other method behind the interceptor, `get_tpu_configs`, changes nothing that is
  modelled here.
-/
import FlowraRelayer.Foundation.Log
import FlowraRelayer.Relayer.AuthService
import FlowraRelayer.Relayer.Offers
import FlowraRelayer.Rpc.LoadBalancer

set_option autoImplicit false

namespace FlowraRelayer.Relayer

open FlowraRelayer.Foundation
open FlowraRelayer.Solana
open FlowraRelayer.Rpc

variable {Ip : Type} [DecidableEq Ip]

/-! ## Requests in flight -/

/-- The argument of a `push` that waits for its lock.  `verdict` is what
`is_authorized` answered, `autherVersion` the version of the authoriser that
answered. -/
structure PendingPush (Ip : Type) where
  ip : Ip
  challenge : AuthChallenge Ip
  clock : ChallengeClock
  verdict : Bool
  autherVersion : Nat

/-- Where a request stands. -/
inductive Call (Ip : Type) where
  /-- `generate_auth_challenge`, before the lock of `len` -/
  | challengeLen (req : ChallengeRequest Ip)
  /-- `generate_auth_challenge`, before the lock of `get_priority` -/
  | challengeGet (ip : Ip) (req : ChallengeRequest Ip)
  /-- `generate_auth_challenge`, before the lock of `push` -/
  | challengePush (pending : PendingPush Ip)
  /-- `generate_auth_tokens`, before the lock of `get_priority` -/
  | tokensGet (ip : Ip) (pubkey : Pubkey) (req : TokensRequest Ip)
  /-- `generate_auth_tokens`, before the lock of `remove`; `push` is the challenge it
  validated -/
  | tokensRemove (ip : Ip) (push : Nat) (access refresh : SignedToken)
  /-- let through by the interceptor, before `subscribe_packets` -/
  | subscribe (extension : Option Pubkey)

/-- The requests in flight, by an identifier. -/
abbrev Calls (Ip : Type) : Type := AList fun _ : Nat => Call Ip

/-! ## What is recorded -/

/-- A challenge went into the store. -/
structure PushRecord (Ip : Type) where
  ip : Ip
  challenge : AuthChallenge Ip
  clock : ChallengeClock
  /-- what `is_authorized` answered to the request -/
  verdictAtCheck : Bool
  /-- what `is_authorized` would answer at the push itself -/
  verdictAtPush : Bool
  /-- whether the authoriser is still the one that was asked -/
  autherUnchanged : Bool

/-- The key a challenge was made for. -/
def PushRecord.pubkey (record : PushRecord Ip) : Pubkey :=
  record.challenge.accessClaims.clientPubkey

/-- A request for tokens passed every check and its tokens were signed. -/
structure Redemption (Ip : Type) where
  push : Nat
  ip : Ip
  pubkey : Pubkey
  request : TokensRequest Ip
  now : Int
  access : SignedToken
  refresh : SignedToken

/-- An access token was issued for a presented token. -/
structure Refresh (Ip : Type) where
  request : RefreshRequest Ip
  clock : RefreshClock
  presented : DeSerClaims
  issued : SignedToken

/-- The interceptor let a request through. -/
structure Acceptance (Ip : Type) where
  request : InterceptedRequest Ip
  now : Int
  token : DeSerClaims
  claims : Claims Ip

/-- What a client gets back. -/
inductive Reply (Ip : Type) where
  | challenge (ip : Ip) (challenge : String)
  | tokens (push : Nat) (now : Int) (access refresh : PbToken)
  | accessToken (token : PbToken)
  | stream (sender : Sender)
  | failure (failure : Failure)

/-- One entry of the record. -/
inductive AuthEvent (Ip : Type) where
  | pushed (record : PushRecord Ip)
  | redeemed (redemption : Redemption Ip)
  | refreshed (refresh : Refresh Ip)
  | accepted (acceptance : Acceptance Ip)
  | replied (id : Nat) (reply : Reply Ip)

/-- The tokens an entry says were signed. -/
def AuthEvent.signed : AuthEvent Ip → List SignedToken
  | .redeemed redemption => [redemption.access, redemption.refresh]
  | .refreshed refresh => [refresh.issued]
  | _ => []

/-- Every token the server has signed: the tokens in circulation. -/
def signedTokens (history : List (AuthEvent Ip)) : List SignedToken :=
  history.flatMap AuthEvent.signed

/-! ## State -/

/-- The state of the whole system. -/
structure AuthState (Ip : Type) where
  health : HealthState
  /-- `validator_auther.is_authorized` -/
  auther : Pubkey → Bool
  /-- how often the authoriser changed -/
  autherVersion : Nat
  challenges : AuthChallenges Ip
  calls : Calls Ip
  /-- the channel from `subscribe_packets` to the event loop -/
  subscriptionQueue : List (Pubkey × Sender)
  nextSender : Sender
  loopRunning : Bool
  loopState : LoopState
  history : List (AuthEvent Ip)

/-- The system as it starts. -/
def AuthState.init (health : HealthState) (auther : Pubkey → Bool) : AuthState Ip where
  health := health
  auther := auther
  autherVersion := 0
  challenges := ∅
  calls := ∅
  subscriptionQueue := []
  nextSender := 0
  loopRunning := true
  loopState := LoopState.init
  history := []

namespace AuthState

/-- A request goes on to wait. -/
def wait (s : AuthState Ip) (id : Nat) (call : Call Ip) : AuthState Ip :=
  { s with calls := s.calls.insert id call }

/-- A request ends with an answer. -/
def settle (s : AuthState Ip) (id : Nat) (reply : Reply Ip) : AuthState Ip :=
  { s with calls := s.calls.erase id, history := s.history ++ [.replied id reply] }

/-- Add an entry to the record. -/
def log (s : AuthState Ip) (event : AuthEvent Ip) : AuthState Ip :=
  { s with history := s.history ++ [event] }

/-- A request goes on to wait or fails. -/
def resume (s : AuthState Ip) (id : Nat) : Except Failure (Call Ip) → AuthState Ip
  | .error failure => s.settle id (.failure failure)
  | .ok call => s.wait id call

/-- A `push` that holds the lock. -/
def pushChallenge (s : AuthState Ip) (pending : PendingPush Ip) : AuthState Ip :=
  { s with challenges := s.challenges.push pending.ip ⟨s.history.length, pending.challenge⟩ }.log
    (.pushed
      { ip := pending.ip
        challenge := pending.challenge
        clock := pending.clock
        verdictAtCheck := pending.verdict
        verdictAtPush := s.auther pending.challenge.accessClaims.clientPubkey
        autherUnchanged := decide (pending.autherVersion = s.autherVersion) })

end AuthState

/-! ## Steps -/

/-- Which step is taken, with what the environment decides in it.  `now` is the time
of a step that reads no clock. -/
inductive AuthLabel (Ip : Type) where
  | setHealth (health : HealthState)
  | setAuther (auther : Pubkey → Bool)
  | challengeRequest (id : Nat) (req : ChallengeRequest Ip)
  | challengeLen (id : Nat)
  | challengeGet (id : Nat) (clock : ChallengeClock) (token : ChallengeToken)
  | challengePush (id : Nat)
  | tokensRequest (id : Nat) (req : TokensRequest Ip)
  | tokensGet (id : Nat) (now : Int)
  | tokensRemove (id : Nat) (now : Int)
  | refresh (id : Nat) (clock : RefreshClock) (req : RefreshRequest Ip)
  | sweep (readings : List (Ip × Int))
  | intercept (id : Nat) (now : Int) (req : InterceptedRequest Ip)
  | subscribe (id : Nat)
  | abandon (id : Nat)
  | loopTurn (event : LoopEvent)
  | loopEnd

/-- The pieces of `generate_auth_challenge` and `generate_auth_tokens` that run after
a lock. -/
def callStep (env : AuthEnv Ip) (s : AuthState Ip) (id : Nat) :
    AuthLabel Ip → Call Ip → Option (AuthState Ip)
  | .challengeLen _, .challengeLen req =>
      some (s.resume id do
        let ip ← challengeAfterLen s.challenges.len req
        pure (.challengeGet ip req))
  | .challengeGet _ clock token, .challengeGet ip req =>
      let stored := (s.challenges.getPriority ip).map (·.challenge)
      match challengeAfterGetPriority env s.auther stored clock token ip req with
      | .error failure => some (s.settle id (.failure failure))
      | .ok (.reuse challenge) => some (s.settle id (.challenge ip challenge))
      | .ok (.push challenge) =>
          some (s.wait id (.challengePush
            { ip, challenge, clock
              verdict := s.auther challenge.accessClaims.clientPubkey
              autherVersion := s.autherVersion }))
  | .challengePush _, .challengePush pending =>
      some ((s.pushChallenge pending).settle id
        (.challenge pending.ip pending.challenge.challenge))
  | .tokensGet _ now, .tokensGet ip pubkey req =>
      let stored := s.challenges.getPriority ip
      match tokensAfterGetPriority env (stored.map (·.challenge)) pubkey req, stored with
      | .error failure, _ => some (s.settle id (.failure failure))
      | .ok (access, refresh), some entry =>
          some ((s.log (.redeemed
            { push := entry.push, ip, pubkey, request := req, now, access, refresh })).wait id
              (.tokensRemove ip entry.push access refresh))
      | .ok _, none => none
  | .tokensRemove _ now, .tokensRemove ip push access refresh =>
      some ({ s with challenges := s.challenges.remove ip }.settle id
        (.tokens push now access.token refresh.token))
  | .subscribe _, .subscribe extension =>
      match subscribePackets s.health extension with
      | .error failure => some (s.settle id (.failure failure))
      | .ok pubkey =>
          if s.loopRunning then
            -- the channel is bounded: `send` blocks while it is full
            if s.subscriptionQueue.length < slotQueueCapacity then
              some ({ s with
                subscriptionQueue := s.subscriptionQueue ++ [(pubkey, s.nextSender)]
                nextSender := s.nextSender + 1 }.settle id (.stream s.nextSender))
            else none
          else some (s.settle id (.failure (.internal "internal error adding subscription")))
  | .abandon _, _ => some { s with calls := s.calls.erase id }
  | _, _ => none

/-- The requests that arrive: the piece of their handler that runs first. -/
def arrivalStep (env : AuthEnv Ip) (s : AuthState Ip) (id : Nat) :
    AuthLabel Ip → Option (AuthState Ip)
  | .challengeRequest _ req =>
      some (s.resume id do
        challengeStart s.health
        pure (.challengeLen req))
  | .tokensRequest _ req =>
      some (s.resume id do
        let (ip, pubkey) ← tokensStart env s.health req
        pure (.tokensGet ip pubkey req))
  | .refresh _ clock req =>
      match refreshAccessToken env s.health clock req with
      | .error failure => some (s.settle id (.failure failure))
      | .ok (presented, issued) =>
          some ((s.log (.refreshed { request := req, clock, presented, issued })).settle id
            (.accessToken issued.token))
  | .intercept _ now req =>
      match interceptorCall env.calendar env.ips env.jwt .rs256 req with
      | .error failure => some (s.settle id (.failure failure))
      | .ok (token, claims) =>
          some ((s.log (.accepted { request := req, now, token, claims })).wait id
            (.subscribe (some claims.clientPubkey)))
  | _ => none

/-- What the event loop takes from the channel in one turn; the heartbeat arm reads
the shared health state. -/
def receive (s : AuthState Ip) : LoopEvent → Option (List (Pubkey × Sender))
  | .subscription maybeSubscription =>
      match s.subscriptionQueue with
      | [] => none
      | head :: rest => if maybeSubscription = some head then some rest else none
  | .heartbeat health _ _ => if health = s.health then some s.subscriptionQueue else none
  | _ => some s.subscriptionQueue

/-- The identifier of the request a label moves, and whether the request arrives with
it. -/
def AuthLabel.request : AuthLabel Ip → Option (Nat × Bool)
  | .challengeRequest id _ | .tokensRequest id _ | .refresh id _ _ | .intercept id _ _ =>
      some (id, true)
  | .challengeLen id | .challengeGet id _ _ | .challengePush id | .tokensGet id _
  | .tokensRemove id _ | .subscribe id | .abandon id => some (id, false)
  | _ => none

/-- The steps of everything that is not a request. -/
def backgroundStep (decode : List UInt8 → Option VersionedTransaction) (cfg : LoopConfig)
    (s : AuthState Ip) : AuthLabel Ip → Option (AuthState Ip)
  | .setHealth health => some { s with health }
  | .setAuther auther => some { s with auther, autherVersion := s.autherVersion + 1 }
  | .sweep readings =>
      (s.challenges.removeAllExpired readings).map fun challenges => { s with challenges }
  | .loopTurn event =>
      if s.loopRunning then
        (receive s event).bind fun subscriptionQueue =>
          (eventStep decode cfg s.loopState event).map fun loopState =>
            { s with subscriptionQueue, loopState }
      else none
  | .loopEnd => some { s with loopRunning := false }
  | _ => none

/-- One step of the system. -/
def authStep (env : AuthEnv Ip) (decode : List UInt8 → Option VersionedTransaction)
    (cfg : LoopConfig) (s : AuthState Ip) (label : AuthLabel Ip) : Option (AuthState Ip) :=
  match label.request with
  | none => backgroundStep decode cfg s label
  | some (id, true) =>
      match s.calls.lookup id with
      | none => arrivalStep env s id label
      | some _ => none
  | some (id, false) =>
      match s.calls.lookup id with
      | none => none
      | some call => callStep env s id label call

/-! ## What a step can do -/

/-- What a waiting request remembers of its arrival: its peer address, and for a
request for tokens the key its bytes are.  The later places where a request waits are
reached by moves of their own. -/
def Call.JustArrived (env : AuthEnv Ip) : Call Ip → Prop
  | .challengeLen _ => True
  | .challengeGet ip req => req.remoteAddr = some ip
  | .tokensGet ip pubkey req =>
      req.remoteAddr = some ip ∧ env.ed25519.publicKeyFromBytes req.clientPubkey = some pubkey
  | _ => False

/-- The steps of the system, by what they do. -/
inductive Move (env : AuthEnv Ip) (decode : List UInt8 → Option VersionedTransaction)
    (cfg : LoopConfig) (s : AuthState Ip) : AuthLabel Ip → AuthState Ip → Prop where
  | setHealth (health : HealthState) :
      Move env decode cfg s (.setHealth health) { s with health }
  | setAuther (auther : Pubkey → Bool) :
      Move env decode cfg s (.setAuther auther)
        { s with auther, autherVersion := s.autherVersion + 1 }
  | failed {label : AuthLabel Ip} (id : Nat) (failure : Failure) :
      Move env decode cfg s label (s.settle id (.failure failure))
  | waiting {label : AuthLabel Ip} (id : Nat) {call : Call Ip} (hcall : call.JustArrived env) :
      Move env decode cfg s label (s.wait id call)
  | reused {id : Nat} {clock : ChallengeClock} {token : ChallengeToken} {ip : Ip}
      {req : ChallengeRequest Ip} {challenge : String}
      (hcall : s.calls.lookup id = some (.challengeGet ip req))
      (hdecision : challengeAfterGetPriority env s.auther
        ((s.challenges.lookup ip).map (·.challenge)) clock token ip req = .ok (.reuse challenge)) :
      Move env decode cfg s (.challengeGet id clock token) (s.settle id (.challenge ip challenge))
  | made {id : Nat} {clock : ChallengeClock} {token : ChallengeToken} {ip : Ip}
      {req : ChallengeRequest Ip} {challenge : AuthChallenge Ip}
      (hcall : s.calls.lookup id = some (.challengeGet ip req))
      (hdecision : challengeAfterGetPriority env s.auther
        ((s.challenges.lookup ip).map (·.challenge)) clock token ip req = .ok (.push challenge)) :
      Move env decode cfg s (.challengeGet id clock token)
        (s.wait id (.challengePush
          { ip, challenge, clock
            verdict := s.auther challenge.accessClaims.clientPubkey
            autherVersion := s.autherVersion }))
  | pushed {id : Nat} {pending : PendingPush Ip}
      (hcall : s.calls.lookup id = some (.challengePush pending)) :
      Move env decode cfg s (.challengePush id)
        ((s.pushChallenge pending).settle id (.challenge pending.ip pending.challenge.challenge))
  | redeemed {id : Nat} {now : Int} {ip : Ip} {pubkey : Pubkey} {req : TokensRequest Ip}
      {entry : StoredChallenge Ip} {access refresh : SignedToken}
      (hcall : s.calls.lookup id = some (.tokensGet ip pubkey req))
      (hstored : s.challenges.lookup ip = some entry)
      (hchecks : tokensAfterGetPriority env (some entry.challenge) pubkey req =
        .ok (access, refresh)) :
      Move env decode cfg s (.tokensGet id now)
        ((s.log (.redeemed
          { push := entry.push, ip, pubkey, request := req, now, access, refresh })).wait id
            (.tokensRemove ip entry.push access refresh))
  | removed {id : Nat} {now : Int} {ip : Ip} {push : Nat} {access refresh : SignedToken}
      (hcall : s.calls.lookup id = some (.tokensRemove ip push access refresh)) :
      Move env decode cfg s (.tokensRemove id now)
        ({ s with challenges := s.challenges.remove ip }.settle id
          (.tokens push now access.token refresh.token))
  | refreshed {id : Nat} {clock : RefreshClock} {req : RefreshRequest Ip}
      {presented : DeSerClaims} {issued : SignedToken}
      (hchecks : refreshAccessToken env s.health clock req = .ok (presented, issued)) :
      Move env decode cfg s (.refresh id clock req)
        ((s.log (.refreshed { request := req, clock, presented, issued })).settle id
          (.accessToken issued.token))
  | swept {readings : List (Ip × Int)} {challenges : AuthChallenges Ip}
      (hswept : s.challenges.removeAllExpired readings = some challenges) :
      Move env decode cfg s (.sweep readings) { s with challenges }
  | accepted {id : Nat} {now : Int} {req : InterceptedRequest Ip} {token : DeSerClaims}
      {claims : Claims Ip}
      (hchecks : interceptorCall env.calendar env.ips env.jwt .rs256 req = .ok (token, claims)) :
      Move env decode cfg s (.intercept id now req)
        ((s.log (.accepted { request := req, now, token, claims })).wait id
          (.subscribe (some claims.clientPubkey)))
  | subscribed {id : Nat} {extension : Option Pubkey} {pubkey : Pubkey}
      (hcall : s.calls.lookup id = some (.subscribe extension))
      (hchecks : subscribePackets s.health extension = .ok pubkey) :
      Move env decode cfg s (.subscribe id)
        ({ s with
          subscriptionQueue := s.subscriptionQueue ++ [(pubkey, s.nextSender)]
          nextSender := s.nextSender + 1 }.settle id (.stream s.nextSender))
  | abandoned (id : Nat) :
      Move env decode cfg s (.abandon id) { s with calls := s.calls.erase id }
  | loopTurn {event : LoopEvent} {subscriptionQueue : List (Pubkey × Sender)}
      {loopState : LoopState} (hreceive : receive s event = some subscriptionQueue)
      (hturn : eventStep decode cfg s.loopState event = some loopState) :
      Move env decode cfg s (.loopTurn event) { s with subscriptionQueue, loopState }
  | loopEnd : Move env decode cfg s .loopEnd { s with loopRunning := false }

section Moves

variable {env : AuthEnv Ip} {decode : List UInt8 → Option VersionedTransaction} {cfg : LoopConfig}
  {s s' : AuthState Ip} {label : AuthLabel Ip} {id : Nat}

omit [DecidableEq Ip] in
/-- A turn of the loop takes the subscription at the head of the channel, or nothing. -/
theorem receive_cases {event : LoopEvent} {rest : List (Pubkey × Sender)}
    (h : receive s event = some rest) :
    (∃ head, event = .subscription (some head) ∧ s.subscriptionQueue = head :: rest) ∨
      (∀ maybeSubscription, event ≠ .subscription maybeSubscription) ∧
        rest = s.subscriptionQueue := by
  cases event with
  | subscription maybeSubscription =>
    simp only [receive] at h
    split at h
    · cases h
    · rename_i head tail hqueue
      rw [Option.ite_none_right_eq_some, Option.some.injEq] at h
      obtain ⟨rfl, rfl⟩ := h
      exact .inl ⟨head, rfl, hqueue⟩
  | heartbeat health order trySend =>
    rw [receive, Option.ite_none_right_eq_some, Option.some.injEq] at h
    exact .inr ⟨fun _ => by simp, h.2.symm⟩
  | _ =>
    cases h
    exact .inr ⟨fun _ => by simp, rfl⟩

/-- A piece of a handler that goes on to wait, or fails. -/
theorem move_resume {result : Except Failure (Call Ip)}
    (hresult : ∀ call, result = .ok call → call.JustArrived env) :
    Move env decode cfg s label (s.resume id result) := by
  cases result with
  | error failure => exact .failed id failure
  | ok call => exact .waiting id (hresult call rfl)

/-- A request that is in flight moves on. -/
theorem move_of_callStep {call : Call Ip} (hcall : s.calls.lookup id = some call)
    (hid : label.request = some (id, false)) (h : callStep env s id label call = some s') :
    Move env decode cfg s label s' := by
  unfold callStep at h
  split at h
  · -- `len`
    cases h
    refine move_resume ?_
    intro call hok
    simp only [bind_eq_ok_iff, pure_eq_ok_iff] at hok
    obtain ⟨ip, hlen, rfl⟩ := hok
    exact (challengeAfterLen_eq_ok hlen).2
  · -- `get_priority` of `generate_auth_challenge`
    cases hid
    simp only [AuthChallenges.getPriority] at h
    split at h
    · cases h
      exact .failed _ _
    · rename_i hdecision
      cases h
      exact .reused hcall hdecision
    · rename_i hdecision
      cases h
      exact .made hcall hdecision
  · -- `push`
    cases hid
    cases h
    exact .pushed hcall
  · -- `get_priority` of `generate_auth_tokens`
    cases hid
    simp only [AuthChallenges.getPriority] at h
    split at h
    · cases h
      exact .failed _ _
    · rename_i hchecks hstored
      cases h
      rw [hstored] at hchecks
      exact .redeemed hcall hstored hchecks
    · cases h
  · -- `remove`
    cases hid
    cases h
    exact .removed hcall
  · -- `subscribe_packets`
    cases hid
    split at h
    · cases h
      exact .failed _ _
    · rename_i hchecks
      split at h
      · split at h
        · cases h
          exact .subscribed hcall hchecks
        · cases h
      · cases h
        exact .failed _ _
  · cases hid
    cases h
    exact .abandoned _
  · cases h

/-- A request that arrives runs the first piece of its handler. -/
theorem move_of_arrivalStep (hid : label.request = some (id, true))
    (h : arrivalStep env s id label = some s') : Move env decode cfg s label s' := by
  cases label with
  | challengeRequest id' req =>
    cases hid
    cases h
    refine move_resume ?_
    intro call hok
    simp only [bind_eq_ok_iff, pure_eq_ok_iff] at hok
    obtain ⟨-, -, rfl⟩ := hok
    exact trivial
  | tokensRequest id' req =>
    cases hid
    cases h
    refine move_resume ?_
    intro call hok
    simp only [bind_eq_ok_iff, pure_eq_ok_iff] at hok
    obtain ⟨⟨ip, pubkey⟩, hstart, rfl⟩ := hok
    exact tokensStart_eq_ok hstart
  | refresh id' clock req =>
    cases hid
    simp only [arrivalStep] at h
    split at h
    · cases h
      exact .failed _ _
    · rename_i hchecks
      cases h
      exact .refreshed hchecks
  | intercept id' now req =>
    cases hid
    simp only [arrivalStep] at h
    split at h
    · cases h
      exact .failed _ _
    · rename_i hchecks
      cases h
      exact .accepted hchecks
  | _ => cases h

/-- The sweep, the event loop and what the services share. -/
theorem move_of_backgroundStep (h : backgroundStep decode cfg s label = some s') :
    Move env decode cfg s label s' := by
  cases label with
  | setHealth health =>
    cases h
    exact .setHealth health
  | setAuther auther =>
    cases h
    exact .setAuther auther
  | sweep readings =>
    simp only [backgroundStep, Option.map_eq_some_iff] at h
    obtain ⟨challenges, hswept, rfl⟩ := h
    exact .swept hswept
  | loopTurn event =>
    simp only [backgroundStep, Option.ite_none_right_eq_some, Option.bind_eq_some_iff,
      Option.map_eq_some_iff] at h
    obtain ⟨-, queue, hreceive, loopState, hturn, rfl⟩ := h
    exact .loopTurn hreceive hturn
  | loopEnd =>
    cases h
    exact .loopEnd
  | _ => cases h

/-- Every step is one of the moves. -/
theorem move_of_authStep (h : authStep env decode cfg s label = some s') :
    Move env decode cfg s label s' := by
  unfold authStep at h
  split at h
  · exact move_of_backgroundStep h
  · rename_i hid
    split at h
    · exact move_of_arrivalStep hid h
    · cases h
  · rename_i hid
    split at h
    · cases h
    · rename_i hcall
      exact move_of_callStep hcall hid h

/-! ### What is written into the record -/

/-- A push, or a reply other than the tokens of a challenge. -/
def AuthEvent.quiet : AuthEvent Ip → Bool
  | .pushed _ => true
  | .replied _ (.tokens _ _ _ _) => false
  | .replied _ _ => true
  | _ => false

/-- What a move may write into the record. -/
inductive Entries (env : AuthEnv Ip) (s : AuthState Ip) :
    AuthLabel Ip → List (AuthEvent Ip) → Prop where
  | quiet {label : AuthLabel Ip} {events : List (AuthEvent Ip)}
      (hquiet : ∀ event ∈ events, event.quiet = true) : Entries env s label events
  | redeemed {id : Nat} {now : Int} {ip : Ip} {pubkey : Pubkey} {req : TokensRequest Ip}
      {entry : StoredChallenge Ip} {access refresh : SignedToken}
      (hcall : s.calls.lookup id = some (.tokensGet ip pubkey req))
      (hstored : s.challenges.lookup ip = some entry)
      (hchecks : tokensAfterGetPriority env (some entry.challenge) pubkey req =
        .ok (access, refresh)) :
      Entries env s (.tokensGet id now)
        [.redeemed { push := entry.push, ip, pubkey, request := req, now, access, refresh }]
  | removed {id : Nat} {now : Int} {ip : Ip} {push : Nat} {access refresh : SignedToken}
      (hcall : s.calls.lookup id = some (.tokensRemove ip push access refresh)) :
      Entries env s (.tokensRemove id now)
        [.replied id (.tokens push now access.token refresh.token)]
  | refreshed {id : Nat} {clock : RefreshClock} {req : RefreshRequest Ip}
      {presented : DeSerClaims} {issued : SignedToken}
      (hchecks : refreshAccessToken env s.health clock req = .ok (presented, issued)) :
      Entries env s (.refresh id clock req)
        [.refreshed { request := req, clock, presented, issued },
          .replied id (.accessToken issued.token)]
  | accepted {id : Nat} {now : Int} {req : InterceptedRequest Ip} {token : DeSerClaims}
      {claims : Claims Ip}
      (hchecks : interceptorCall env.calendar env.ips env.jwt .rs256 req = .ok (token, claims)) :
      Entries env s (.intercept id now req) [.accepted { request := req, now, token, claims }]

/-- The record only grows, and by entries of these kinds. -/
theorem Move.entries (hmove : Move env decode cfg s label s') :
    ∃ events, s'.history = s.history ++ events ∧ Entries env s label events := by
  cases hmove with
  | failed id failure => exact ⟨[_], rfl, .quiet (by simp [AuthEvent.quiet])⟩
  | reused hcall hdecision => exact ⟨[_], rfl, .quiet (by simp [AuthEvent.quiet])⟩
  | pushed hcall =>
    exact ⟨[_, _], List.append_assoc _ _ _, .quiet (by simp [AuthEvent.quiet])⟩
  | redeemed hcall hstored hchecks => exact ⟨[_], rfl, .redeemed hcall hstored hchecks⟩
  | removed hcall => exact ⟨[_], rfl, .removed hcall⟩
  | refreshed hchecks => exact ⟨[_, _], List.append_assoc _ _ _, .refreshed hchecks⟩
  | accepted hchecks => exact ⟨[_], rfl, .accepted hchecks⟩
  | subscribed hcall hchecks => exact ⟨[_], rfl, .quiet (by simp [AuthEvent.quiet])⟩
  | _ => exact ⟨[], (List.append_nil _).symm, .quiet (by simp)⟩

/-- Only the health manager sets the health state. -/
theorem Move.health_eq (hmove : Move env decode cfg s label s')
    (hlabel : ∀ health, label ≠ .setHealth health) : s'.health = s.health := by
  cases hmove with
  | setHealth health => exact absurd rfl (hlabel health)
  | _ => rfl

/-- Only a turn of the loop changes the state of the loop. -/
theorem Move.loopState_cases (hmove : Move env decode cfg s label s') :
    s'.loopState = s.loopState ∨ ∃ event, label = .loopTurn event ∧
      eventStep decode cfg s.loopState event = some s'.loopState := by
  cases hmove with
  | loopTurn hreceive hturn => exact .inr ⟨_, rfl, hturn⟩
  | _ => exact .inl rfl

theorem loopTurn_of_authStep {event : LoopEvent}
    (h : authStep env decode cfg s (.loopTurn event) = some s') :
    ∃ subscriptionQueue loopState, receive s event = some subscriptionQueue ∧
      eventStep decode cfg s.loopState event = some loopState ∧
      s' = { s with subscriptionQueue, loopState } := by
  simp only [authStep, AuthLabel.request, backgroundStep, Option.ite_none_right_eq_some,
    Option.bind_eq_some_iff, Option.map_eq_some_iff] at h
  obtain ⟨-, queue, hreceive, loopState, hturn, rfl⟩ := h
  exact ⟨queue, loopState, hreceive, hturn, rfl⟩

/-! ### Other requests -/

omit [DecidableEq Ip] in
theorem calls_resume (result : Except Failure (Call Ip)) :
    (∃ next, (s.resume id result).calls = s.calls.insert id next) ∨
      (s.resume id result).calls = s.calls.erase id := by
  cases result with
  | error failure => exact .inr rfl
  | ok call => exact .inl ⟨call, rfl⟩

/-- A request that moves on waits somewhere else or ends. -/
theorem calls_callStep {call : Call Ip} (h : callStep env s id label call = some s') :
    (∃ next, s'.calls = s.calls.insert id next) ∨ s'.calls = s.calls.erase id := by
  unfold callStep at h
  split at h
  · cases h
    exact calls_resume _
  · simp only [AuthChallenges.getPriority] at h
    split at h
    · cases h
      exact .inr rfl
    · cases h
      exact .inr rfl
    · cases h
      exact .inl ⟨_, rfl⟩
  · cases h
    exact .inr rfl
  · simp only [AuthChallenges.getPriority] at h
    split at h
    · cases h
      exact .inr rfl
    · cases h
      exact .inl ⟨_, rfl⟩
    · cases h
  · cases h
    exact .inr rfl
  · split at h
    · cases h
      exact .inr rfl
    · split at h
      · split at h
        · cases h
          exact .inr rfl
        · cases h
      · cases h
        exact .inr rfl
  · cases h
    exact .inr rfl
  · cases h

omit [DecidableEq Ip] in
/-- A request that arrives waits or ends. -/
theorem calls_arrivalStep (h : arrivalStep env s id label = some s') :
    (∃ next, s'.calls = s.calls.insert id next) ∨ s'.calls = s.calls.erase id := by
  cases label with
  | challengeRequest id' req =>
    cases h
    exact calls_resume _
  | tokensRequest id' req =>
    cases h
    exact calls_resume _
  | refresh id' clock req =>
    simp only [arrivalStep] at h
    split at h <;> cases h <;> exact .inr rfl
  | intercept id' now req =>
    simp only [arrivalStep] at h
    split at h
    · cases h
      exact .inr rfl
    · cases h
      exact .inl ⟨_, rfl⟩
  | _ => cases h

/-- The steps that are not of a request leave the requests where they are and answer
none. -/
theorem frame_backgroundStep (h : backgroundStep decode cfg s label = some s') :
    s'.calls = s.calls ∧ s'.history = s.history := by
  cases label with
  | setHealth health =>
    cases h
    exact ⟨rfl, rfl⟩
  | setAuther auther =>
    cases h
    exact ⟨rfl, rfl⟩
  | sweep readings =>
    simp only [backgroundStep, Option.map_eq_some_iff] at h
    obtain ⟨challenges, -, rfl⟩ := h
    exact ⟨rfl, rfl⟩
  | loopTurn event =>
    simp only [backgroundStep, Option.ite_none_right_eq_some, Option.bind_eq_some_iff,
      Option.map_eq_some_iff] at h
    obtain ⟨-, queue, -, loopState, -, rfl⟩ := h
    exact ⟨rfl, rfl⟩
  | loopEnd =>
    cases h
    exact ⟨rfl, rfl⟩
  | _ => cases h

/-- A step leaves every request where it is but the one its label names. -/
theorem lookup_calls_authStep (h : authStep env decode cfg s label = some s')
    (hother : ∀ arrives, label.request ≠ some (id, arrives)) :
    s'.calls.lookup id = s.calls.lookup id := by
  have hframe : ∀ id', id ≠ id' →
      (∃ next, s'.calls = s.calls.insert id' next) ∨ s'.calls = s.calls.erase id' →
      s'.calls.lookup id = s.calls.lookup id := by
    rintro id' hne (⟨next, heq⟩ | heq)
    · rw [heq, AList.lookup_insert_ne hne]
    · rw [heq, AList.lookup_erase_ne hne]
  unfold authStep at h
  split at h
  · rw [(frame_backgroundStep h).1]
  · rename_i id' hid
    split at h
    · exact hframe id' (fun heq => hother true (by rw [hid, heq])) (calls_arrivalStep h)
    · cases h
  · rename_i id' hid
    split at h
    · cases h
    · exact hframe id' (fun heq => hother false (by rw [hid, heq])) (calls_callStep h)

end Moves

end FlowraRelayer.Relayer
