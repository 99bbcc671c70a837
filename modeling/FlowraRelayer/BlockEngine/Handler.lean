/-
  BlockEngine/Handler.lean --- the thread of `BlockEngineRelayerHandler`: authenticate,
  open the streams, serve them, start over.

  `auth_and_connect` is cut where it waits for the block engine: the part up to the
  connection, the three calls of `start_event_loop`, each of which goes through the
  client's `AuthInterceptor`, and the loop of `handle_packet_stream`, whose refresh arm
  runs `maybe_refresh_auth`.  A label is one of these steps with the answers it meets.
  An `unwrap` that fails ends the thread, and with it the process.

  `auth_answers_never_panic` says which answers of the auth service the thread survives;
  `expirationless_refresh_panics` is a run it does not.

  Left out: the exit flag, which only ends a run, and the two second pause before the
  next attempt.
-/
import FlowraRelayer.BlockEngine.AuthClient
import FlowraRelayer.BlockEngine.PacketStream

set_option autoImplicit false

namespace FlowraRelayer.BlockEngine

open FlowraRelayer.Foundation
open FlowraRelayer.Solana

/-! ## Connecting -/

/-- The expirations `auth_and_connect` computes, and the `info!` that reports how far
away they are. -/
def logExpirations (env : ClientEnv) (accessNow refreshNow : Int)
    (accessToken refreshToken : Token) : Except Unwrap Unit := do
  let accessTokenExpiration ← expirationTime env accessToken
  let refreshTokenExpiration ← expirationTime env refreshToken
  if env.infoEnabled then
    let _ ← okOr .durationSince (durationSince accessTokenExpiration accessNow)
    let _ ← okOr .durationSince (durationSince refreshTokenExpiration refreshNow)

/-- `auth_and_connect`, up to the connection to the block engine. -/
def authAndConnect (env : ClientEnv) (keypair : Keypair) (authChannel : Except String Unit)
    (authClient : AuthServiceClient) (accessNow refreshNow : Int)
    (blockEngineChannel : Except String Unit) : Except ClientFailure Tokens := do
  authChannel.mapError fun e => .failed (.authServiceFailure e)
  let (accessToken, refreshToken) ← (auth env authClient keypair).mapError .failed
  (logExpirations env accessNow refreshNow accessToken refreshToken).mapError .panicked
  blockEngineChannel.mapError fun e => .failed (.blockEngineFailure e)
  pure { refreshToken, sharedAccessToken := accessToken }

/-- The client's `AuthInterceptor::call`: the header value it sets. -/
def interceptorCall (env : ClientEnv) (accessToken : Token) : Except Unwrap String :=
  okOr .headerValue (env.parseHeader ("Bearer " ++ accessToken.value))

/-- One of the three calls of `start_event_loop`, with the block engine's answer. -/
def openStream (env : ClientEnv) (accessToken : Token) (answer : Except String Unit) :
    Except ClientFailure Unit := do
  let _ ← (interceptorCall env accessToken).mapError .panicked
  answer.mapError fun e => .failed (.blockEngineFailure e)

/-! ## The thread -/

variable {timed : TimedCache Pubkey}

/-- Where the thread stands. -/
inductive HandlerState (timed : TimedCache Pubkey) where
  /-- about to call `auth_and_connect` -/
  | idle
  /-- in `start_event_loop`, with so many streams open -/
  | opening (tokens : Tokens) (opened : Nat)
  /-- in the loop of `handle_packet_stream` -/
  | streaming (tokens : Tokens) (stream : StreamState timed)
  | panicked (site : Unwrap)

/-- The tokens of an established connection. -/
def HandlerState.tokens : HandlerState timed → Option Tokens
  | .opening tokens _ => some tokens
  | .streaming tokens _ => some tokens
  | _ => none

/-- The `unwrap` the thread ended at. -/
def HandlerState.panic : HandlerState timed → Option Unwrap
  | .panicked site => some site
  | _ => none

/-- The steps of the thread.  `authChannel` and `blockEngineChannel` say how `connect`
answered. -/
inductive HandlerLabel where
  | connect (authChannel : Except String Unit) (authClient : AuthServiceClient)
      (accessNow refreshNow : Int) (blockEngineChannel : Except String Unit)
  | openStream (now : Time) (answer : Except String Unit)
  | refresh (now : Time) (authClient : AuthServiceClient) (accessNow refreshNow : Int)
  | arm (now : Time) (arm : Arm)

/-- A call that fails ends the connection, one that panics the thread. -/
def HandlerState.ofFailure : ClientFailure → HandlerState timed
  | .failed _ => .idle
  | .panicked site => .panicked site

/-- An arm that fails ends the connection. -/
def HandlerState.afterArm (tokens : Tokens) :
    Except BlockEngineError (StreamState timed) → HandlerState timed
  | .ok stream => .streaming tokens stream
  | .error _ => .idle

/-- The arm of `auth_refresh_interval`. -/
def refreshArm (cfg : StreamConfig) (stream : StreamState timed) (outcome : RefreshOutcome) :
    HandlerState timed :=
  match outcome.result with
  | .error (.panicked site) => .panicked site
  | .error (.failed e) => .afterArm outcome.tokens (handleArm cfg stream (.authRefresh (.error e)))
  | .ok didRefresh =>
      .afterArm outcome.tokens (handleArm cfg stream (.authRefresh (.ok didRefresh)))

/-- The thread as a partial step function. -/
def handlerStep (env : ClientEnv) (keypair : Keypair) (cfg : StreamConfig) :
    HandlerState timed → HandlerLabel → Option (HandlerState timed)
  | .idle, .connect authChannel authClient accessNow refreshNow blockEngineChannel =>
      match authAndConnect env keypair authChannel authClient accessNow refreshNow
          blockEngineChannel with
      | .ok tokens => some (.opening tokens 0)
      | .error failure => some (.ofFailure failure)
  | .opening tokens opened, .openStream now answer =>
      match openStream env tokens.sharedAccessToken answer with
      | .ok _ =>
          if opened < 2 then some (.opening tokens (opened + 1))
          else some (.streaming tokens (StreamState.new timed cfg now))
      | .error failure => some (.ofFailure failure)
  | .streaming tokens stream, .refresh now authClient accessNow refreshNow =>
      if stream.now ≤ now then
        some (refreshArm cfg { stream with now }
          (maybeRefreshAuth env authClient keypair accessNow refreshNow tokens))
      else none
  | .streaming _ _, .arm _ (.authRefresh _) => none
  | .streaming tokens stream, .arm now arm =>
      if stream.now ≤ now then some (.afterArm tokens (handleArm cfg { stream with now } arm))
      else none
  | _, _ => none

/-! ## The connection inside the thread -/

section Connection

variable {env : ClientEnv} {keypair : Keypair} {cfg : StreamConfig} {tokens tokens' : Tokens}
  {stream stream' : StreamState timed}

/-- The arms other than the refresh leave the tokens as they are. -/
theorem eq_afterArm_of_handlerStep {now : Time} {arm : Arm} {s' : HandlerState timed}
    (hstep : handlerStep env keypair cfg (.streaming tokens stream) (.arm now arm) = some s') :
    stream.now ≤ now ∧ s' = .afterArm tokens (handleArm cfg { stream with now } arm) := by
  cases arm with
  | authRefresh result => cases hstep
  | response | heartbeat | aoi | poi | batches | metrics =>
    simp only [handlerStep, Option.ite_none_right_eq_some, Option.some.injEq] at hstep
    exact ⟨hstep.1, hstep.2.symm⟩

theorem eq_ok_of_afterArm {result : Except BlockEngineError (StreamState timed)}
    (h : HandlerState.afterArm tokens result = .streaming tokens' stream') :
    result = .ok stream' := by
  cases result with
  | error e => cases h
  | ok stream =>
    cases h
    rfl

/-- A step of the thread inside a connection is a turn of the loop of
`handle_packet_stream`. -/
theorem streamStep_of_handlerStep {l : HandlerLabel}
    (hstep : handlerStep env keypair cfg (.streaming tokens stream) l =
      some (.streaming tokens' stream')) : ∃ ev, streamStep cfg stream ev = some stream' := by
  have hturn : ∀ {now : Time} {arm : Arm}, stream.now ≤ now →
      handleArm cfg { stream with now } arm = .ok stream' →
        streamStep cfg stream (now, arm) = some stream' := by
    intro now arm hle harm
    exact streamStep_eq_some_iff.mpr ⟨hle, harm⟩
  cases l with
  | connect | openStream => cases hstep
  | refresh now authClient accessNow refreshNow =>
    simp only [handlerStep, Option.ite_none_right_eq_some, Option.some.injEq, refreshArm] at hstep
    obtain ⟨hle, hstep⟩ := hstep
    split at hstep
    · cases hstep
    · exact ⟨_, hturn hle (eq_ok_of_afterArm hstep)⟩
    · exact ⟨_, hturn hle (eq_ok_of_afterArm hstep)⟩
  | arm now arm =>
    obtain ⟨hle, hafter⟩ := eq_afterArm_of_handlerStep hstep
    exact ⟨_, hturn hle (eq_ok_of_afterArm hafter.symm)⟩

/-- The stream of a connection is a run of its loop. -/
def HandlerState.OwnStream (cfg : StreamConfig) : HandlerState timed → Prop
  | .streaming _ stream =>
      ∃ now events,
        runSteps (streamStep cfg) (StreamState.new timed cfg now) events = some stream
  | _ => True

theorem ownStream_ofFailure (failure : ClientFailure) :
    (HandlerState.ofFailure failure : HandlerState timed).OwnStream cfg := by
  cases failure <;> trivial

theorem ownStream_handlerStep {s s' : HandlerState timed} {l : HandlerLabel}
    (hown : s.OwnStream cfg) (hstep : handlerStep env keypair cfg s l = some s') :
    s'.OwnStream cfg := by
  cases s with
  | idle =>
    cases l with
    | connect =>
      simp only [handlerStep] at hstep
      split at hstep
      · cases hstep
        trivial
      · cases hstep
        exact ownStream_ofFailure _
    | openStream | refresh | arm => cases hstep
  | opening tokens opened =>
    cases l with
    | openStream now answer =>
      simp only [handlerStep] at hstep
      split at hstep
      · split at hstep
        · cases hstep
          trivial
        · cases hstep
          exact ⟨now, [], rfl⟩
      · cases hstep
        exact ownStream_ofFailure _
    | connect | refresh | arm => cases hstep
  | streaming tokens stream =>
    cases s' with
    | idle | opening | panicked => trivial
    | streaming tokens' stream' =>
      obtain ⟨now, events, hevents⟩ := hown
      obtain ⟨ev, hev⟩ := streamStep_of_handlerStep hstep
      refine ⟨now, events ++ [ev], ?_⟩
      rw [runSteps_concat, hevents]
      exact hev
  | panicked site => cases l <;> cases hstep

/-- The stream of the thread, at any time, is what the loop of `handle_packet_stream`
makes of a new connection: what holds of every run of that loop holds inside every
connection of the thread. -/
theorem ownStream_of_run (ls : List HandlerLabel) {s : HandlerState timed}
    (hrun : runSteps (handlerStep env keypair cfg) .idle ls = some s) : s.OwnStream cfg :=
  runSteps_invariant (HandlerState.OwnStream cfg)
    (fun _ _ _ hown hstep => ownStream_handlerStep hown hstep) ls (s := .idle) trivial hrun

end Connection

/-! ## Answers the thread survives -/

/-- The expiration can be read and, where it is logged, is not yet past. -/
def ReadableFrom (env : ClientEnv) (now : Int) (token : Token) : Prop :=
  ∃ e, expirationTime env token = .ok e ∧ (env.infoEnabled = true → now ≤ e)

/-- What the thread relies on in the answers of the auth service.

On connecting: when two tokens with an expiration each are handed out, both expirations
can be converted and, where they are logged, are not past; and the access token is a
header value.  On a refresh: the expirations handed out can be converted, and the new
access token of `refresh_access_token` has one. -/
def SoundAnswers (env : ClientEnv) (_ : HandlerState timed) : HandlerLabel → Prop
  | .connect _ authClient accessNow refreshNow _ =>
      ∀ request accessToken refreshToken,
        authClient.generateAuthTokens request = .ok ⟨some accessToken, some refreshToken⟩ →
        accessToken.expiresAtUtc.isSome → refreshToken.expiresAtUtc.isSome →
        ReadableFrom env accessNow accessToken ∧ ReadableFrom env refreshNow refreshToken ∧
          (env.parseHeader ("Bearer " ++ accessToken.value)).isSome
  | .refresh _ authClient _ _ =>
      (∀ request accessToken refreshToken,
        authClient.generateAuthTokens request = .ok ⟨some accessToken, some refreshToken⟩ →
        accessToken.expiresAtUtc.isSome → refreshToken.expiresAtUtc.isSome →
        Readable env accessToken ∧ Readable env refreshToken) ∧
      ∀ request token, authClient.refreshAccessToken request = .ok (some token) →
        Readable env token
  | _ => True

section Survival

variable {env : ClientEnv} {keypair : Keypair} {cfg : StreamConfig}

theorem durationSince_isSome_iff {time earlier : Int} :
    (durationSince time earlier).isSome ↔ earlier ≤ time := by
  unfold durationSince
  split <;> simp_all

theorem Readable.isSome {token : Token} (h : Readable env token) : token.expiresAtUtc.isSome := by
  obtain ⟨e, he⟩ := h
  obtain ⟨timestamp, htimestamp, -⟩ := expirationTime_eq_ok_iff.mp he
  rw [htimestamp]
  rfl

theorem ReadableFrom.readable {now : Int} {token : Token} (h : ReadableFrom env now token) :
    Readable env token := by
  obtain ⟨e, he, -⟩ := h
  exact ⟨e, he⟩

/-- With readable expirations nothing is unwrapped in vain before the connection. -/
theorem logExpirations_eq_ok {accessNow refreshNow : Int} {accessToken refreshToken : Token}
    (haccess : ReadableFrom env accessNow accessToken)
    (hrefresh : ReadableFrom env refreshNow refreshToken) :
    logExpirations env accessNow refreshNow accessToken refreshToken = .ok () := by
  obtain ⟨access, haccess, haccessNow⟩ := haccess
  obtain ⟨refresh, hrefresh, hrefreshNow⟩ := hrefresh
  have hlogged : ∀ {time now : Int}, now ≤ time →
      ∃ dur, okOr Unwrap.durationSince (durationSince time now) = .ok dur := by
    intro time now hle
    obtain ⟨dur, hdur⟩ := Option.isSome_iff_exists.mp (durationSince_isSome_iff.mpr hle)
    exact ⟨dur, by rw [hdur]; rfl⟩
  simp only [logExpirations, bind_eq_ok_iff]
  refine ⟨access, haccess, refresh, hrefresh, ?_⟩
  split
  · next hinfo =>
    obtain ⟨left, hleft⟩ := hlogged (haccessNow hinfo)
    obtain ⟨left', hleft'⟩ := hlogged (hrefreshNow hinfo)
    simp only [bind_eq_ok_iff]
    exact ⟨left, hleft, left', hleft', rfl⟩
  · rfl

/-- What holds of the thread while the answers are sound. -/
def HandlerState.Alive (env : ClientEnv) : HandlerState timed → Prop
  | .idle => True
  | .opening tokens _ =>
      Readable env tokens.sharedAccessToken ∧ Readable env tokens.refreshToken ∧
        (env.parseHeader ("Bearer " ++ tokens.sharedAccessToken.value)).isSome
  | .streaming tokens _ =>
      Readable env tokens.sharedAccessToken ∧ Readable env tokens.refreshToken
  | .panicked _ => False

theorem alive_afterArm {tokens : Tokens}
    (h : Readable env tokens.sharedAccessToken ∧ Readable env tokens.refreshToken)
    (result : Except BlockEngineError (StreamState timed)) :
    (HandlerState.afterArm tokens result).Alive env := by
  cases result with
  | ok stream => exact h
  | error e => trivial

theorem alive_refreshArm {stream : StreamState timed} {outcome : RefreshOutcome}
    (hreturns : ∀ site, outcome.result ≠ .error (.panicked site))
    (h : Readable env outcome.tokens.sharedAccessToken ∧ Readable env outcome.tokens.refreshToken) :
    (refreshArm cfg stream outcome).Alive env := by
  unfold refreshArm
  split
  · next site hresult => exact absurd hresult (hreturns site)
  · exact alive_afterArm h _
  · exact alive_afterArm h _

/-- `auth_and_connect` does not panic on sound answers, and the tokens it goes on with
can be read and presented. -/
theorem alive_authAndConnect {authChannel blockEngineChannel : Except String Unit}
    {authClient : AuthServiceClient} {accessNow refreshNow : Int} {s s' : HandlerState timed}
    (hsound : SoundAnswers env s
      (.connect authChannel authClient accessNow refreshNow blockEngineChannel))
    (hstep : handlerStep env keypair cfg .idle
      (.connect authChannel authClient accessNow refreshNow blockEngineChannel) = some s') :
    s'.Alive env := by
  have hread : ∀ {accessToken refreshToken : Token},
      auth env authClient keypair = .ok (accessToken, refreshToken) →
      ReadableFrom env accessNow accessToken ∧ ReadableFrom env refreshNow refreshToken ∧
        (env.parseHeader ("Bearer " ++ accessToken.value)).isSome := by
    intro accessToken refreshToken hauth
    obtain ⟨⟨request, hanswer⟩, haccess, hrefresh⟩ := auth_eq_ok hauth
    exact hsound request accessToken refreshToken hanswer haccess hrefresh
  simp only [handlerStep] at hstep
  split at hstep
  · next tokens hconnect =>
    cases hstep
    simp only [authAndConnect, bind_eq_ok_iff, mapError_eq_ok_iff, pure_eq_ok_iff] at hconnect
    obtain ⟨-, -, ⟨accessToken, refreshToken⟩, hauth, -, -, -, -, rfl⟩ := hconnect
    obtain ⟨haccess, hrefresh, hheader⟩ := hread hauth
    exact ⟨haccess.readable, hrefresh.readable, hheader⟩
  · next failure hconnect =>
    cases hstep
    cases failure with
    | failed e => trivial
    | panicked site =>
      -- of the four fallible steps only the logged expirations could panic
      simp only [authAndConnect, bind_eq_error_iff, mapError_eq_error_iff, mapError_eq_ok_iff,
        reduceCtorEq, and_false, exists_false, false_or, or_false, ClientFailure.panicked.injEq,
        exists_eq_right, pure, Except.pure] at hconnect
      obtain ⟨-, -, ⟨accessToken, refreshToken⟩, hauth, hpanic⟩ := hconnect
      obtain ⟨haccess, hrefresh, -⟩ := hread hauth
      rw [logExpirations_eq_ok haccess hrefresh] at hpanic
      cases hpanic

/-- A call of `start_event_loop` does not panic when the access token is a header
value. -/
theorem alive_openStream {tokens : Tokens} {opened : Nat} {now : Time}
    {answer : Except String Unit} {s' : HandlerState timed}
    (halive : (HandlerState.opening tokens opened : HandlerState timed).Alive env)
    (hstep : handlerStep env keypair cfg (.opening tokens opened) (.openStream now answer) =
      some s') : s'.Alive env := by
  obtain ⟨haccess, hrefresh, hheader⟩ := halive
  obtain ⟨value, hvalue⟩ := Option.isSome_iff_exists.mp hheader
  simp only [handlerStep] at hstep
  split at hstep
  · split at hstep
    · cases hstep
      exact ⟨haccess, hrefresh, hheader⟩
    · cases hstep
      exact ⟨haccess, hrefresh⟩
  · next failure hopen =>
    cases hstep
    cases failure with
    | failed e => trivial
    | panicked site =>
      simp [openStream, bind_eq_error_iff, mapError_eq_error_iff, interceptorCall, hvalue,
        okOr] at hopen

/-- A refresh does not panic on tokens that can be read, and on sound answers leaves
such tokens. -/
theorem alive_refresh {tokens : Tokens} {stream : StreamState timed} {now : Time}
    {authClient : AuthServiceClient} {accessNow refreshNow : Int} {s s' : HandlerState timed}
    (halive : (HandlerState.streaming tokens stream).Alive env)
    (hsound : SoundAnswers env s (.refresh now authClient accessNow refreshNow))
    (hstep : handlerStep env keypair cfg (.streaming tokens stream)
      (.refresh now authClient accessNow refreshNow) = some s') : s'.Alive env := by
  obtain ⟨hauthSound, hrefreshSound⟩ := hsound
  have hcase : RefreshCase env authClient keypair accessNow refreshNow tokens
      (maybeRefreshAuth env authClient keypair accessNow refreshNow tokens) :=
    maybeRefreshAuth_cases halive.1 halive.2
  simp only [handlerStep] at hstep
  split at hstep
  · cases hstep
    generalize maybeRefreshAuth env authClient keypair accessNow refreshNow tokens = outcome
      at hcase ⊢
    apply alive_refreshArm
    · intro site hresult
      cases hcase <;> cases hresult
    · cases hcase with
      | kept | authFailed | refreshFailed => exact halive
      | authenticated accessToken newRefreshToken hrefresh hauth =>
        obtain ⟨⟨request, hanswer⟩, haccess, hnew⟩ := auth_eq_ok hauth
        exact hauthSound request _ _ hanswer haccess hnew
      | refreshed accessToken hrefresh hanswer =>
        exact ⟨hrefreshSound _ _ hanswer, hrefresh.readable⟩
  · cases hstep

/-- Every step with sound answers keeps the thread alive. -/
theorem alive_handlerStep {s s' : HandlerState timed} {l : HandlerLabel}
    (halive : s.Alive env) (hsound : SoundAnswers env s l)
    (hstep : handlerStep env keypair cfg s l = some s') : s'.Alive env := by
  cases s with
  | idle =>
    cases l with
    | connect => exact alive_authAndConnect hsound hstep
    | openStream | refresh | arm => cases hstep
  | opening tokens opened =>
    cases l with
    | openStream => exact alive_openStream halive hstep
    | connect | refresh | arm => cases hstep
  | streaming tokens stream =>
    cases l with
    | connect | openStream => cases hstep
    | refresh => exact alive_refresh halive hsound hstep
    | arm now arm =>
      rw [(eq_afterArm_of_handlerStep hstep).2]
      exact alive_afterArm halive _
  | panicked site => exact absurd halive id

end Survival

/-- In every run on sound answers the thread never panics, and the tokens of an
established connection carry an expiration each. -/
theorem auth_answers_never_panic (env : ClientEnv) (keypair : Keypair) (cfg : StreamConfig)
    (ls : List HandlerLabel) (s : HandlerState timed)
    (hmeets : StepsMeet (handlerStep env keypair cfg) (SoundAnswers env)
      (.idle : HandlerState timed) ls)
    (hrun : runSteps (handlerStep env keypair cfg) .idle ls = some s) :
    s.panic = none ∧
      ∀ tokens, s.tokens = some tokens →
        tokens.sharedAccessToken.expiresAtUtc.isSome ∧ tokens.refreshToken.expiresAtUtc.isSome := by
  have halive : s.Alive env :=
    runSteps_invariant_of_meets (HandlerState.Alive env)
      (fun s l s' hinv hcond hstep => alive_handlerStep hinv hcond hstep) ls
      (s := .idle) trivial hmeets hrun
  cases s with
  | idle =>
    refine ⟨rfl, ?_⟩
    intro tokens htokens
    cases htokens
  | opening tokens opened =>
    refine ⟨rfl, ?_⟩
    intro _ htokens
    cases htokens
    exact ⟨halive.1.isSome, halive.2.1.isSome⟩
  | streaming tokens stream =>
    refine ⟨rfl, ?_⟩
    intro _ htokens
    cases htokens
    exact ⟨halive.1.isSome, halive.2.isSome⟩
  | panicked site => exact absurd halive id

def quietConfig : StreamConfig := ⟨⟨fun _ => none, ∅⟩, 300⟩

/-- A connection authenticated at second 0, with an access token for 310 seconds and a
refresh token for 800, and its streams open. -/
def openedRun : List HandlerLabel :=
  [ .connect (.ok ()) (serviceUntil 310 800) 0 0 (.ok ())
  , .openStream 0 (.ok ())
  , .openStream 0 (.ok ())
  , .openStream 0 (.ok ()) ]

/-- The first tick after a minute, with a service whose new access tokens are good. -/
def refreshedRun : List HandlerLabel :=
  openedRun ++ [.refresh 0 (serviceUntil 910 1400) (60 * nanosPerSecond) (60 * nanosPerSecond)]

theorem auth_answers_never_panic_refreshed :
    ∃ s : HandlerState (mapCache Pubkey),
      runSteps (handlerStep plainClient plainKeypair quietConfig) .idle refreshedRun = some s ∧
        s.tokens = some ⟨tokenUntil 800, tokenUntil 910⟩ ∧ s.panic = none ∧
          ∀ tokens, s.tokens = some tokens →
            tokens.sharedAccessToken.expiresAtUtc.isSome ∧
              tokens.refreshToken.expiresAtUtc.isSome := by
  have hsound : ∀ s : HandlerState (mapCache Pubkey), ∀ l ∈ refreshedRun,
      SoundAnswers plainClient s l := by
    intro s l hl
    simp only [refreshedRun, openedRun, List.cons_append, List.nil_append, List.mem_cons,
      List.not_mem_nil, or_false] at hl
    rcases hl with rfl | rfl | rfl | rfl | rfl
    · intro request accessToken refreshToken hanswer _ _
      cases hanswer
      exact ⟨⟨_, expirationTime_tokenUntil 310, fun _ => by decide⟩,
        ⟨_, expirationTime_tokenUntil 800, fun _ => by decide⟩, rfl⟩
    · trivial
    · trivial
    · trivial
    · constructor
      · intro request accessToken refreshToken hanswer _ _
        cases hanswer
        exact ⟨⟨_, expirationTime_tokenUntil 910⟩, ⟨_, expirationTime_tokenUntil 1400⟩⟩
      · intro request token hanswer
        cases hanswer
        exact ⟨_, expirationTime_tokenUntil 910⟩
  have hrun : (runSteps (handlerStep plainClient plainKeypair quietConfig)
      (.idle : HandlerState (mapCache Pubkey)) refreshedRun).map HandlerState.tokens =
        some (some ⟨tokenUntil 800, tokenUntil 910⟩) := by decide
  obtain ⟨s, hs, htokens⟩ := Option.map_eq_some_iff.mp hrun
  have hmeets : StepsMeet (handlerStep plainClient plainKeypair quietConfig)
      (SoundAnswers plainClient) .idle refreshedRun :=
    fun p hp => hsound p.1 p.2 (label_mem_of_mem_visited hp)
  exact ⟨s, hs, htokens, auth_answers_never_panic _ _ _ _ s hmeets hs⟩

/-- A service that answers `refresh_access_token` with a token without expiration. -/
def expirationlessService : AuthServiceClient :=
  { serviceUntil 910 1400 with refreshAccessToken := fun _ => .ok (some ⟨"token", none⟩) }

/-- The tick after one minute accepts the token, the tick after two unwraps its
expiration. -/
def expirationlessRun : List HandlerLabel :=
  openedRun ++
    [ .refresh 0 expirationlessService (60 * nanosPerSecond) (60 * nanosPerSecond)
    , .refresh 0 (serviceUntil 910 1400) (120 * nanosPerSecond) (120 * nanosPerSecond) ]

theorem expirationless_refresh_panics :
    ¬ ∀ (ls : List HandlerLabel) (s : HandlerState (mapCache Pubkey)),
      runSteps (handlerStep plainClient plainKeypair quietConfig) .idle ls = some s →
        s.panic = none ∧
          ∀ tokens, s.tokens = some tokens →
            tokens.sharedAccessToken.expiresAtUtc.isSome ∧
              tokens.refreshToken.expiresAtUtc.isSome := by
  intro h
  have hrun : (runSteps (handlerStep plainClient plainKeypair quietConfig)
      (.idle : HandlerState (mapCache Pubkey)) expirationlessRun).map HandlerState.panic =
        some (some .expiresAtUtc) := by decide
  obtain ⟨s, hs, hpanic⟩ := Option.map_eq_some_iff.mp hrun
  rw [(h expirationlessRun s hs).1] at hpanic
  cases hpanic

end FlowraRelayer.BlockEngine
