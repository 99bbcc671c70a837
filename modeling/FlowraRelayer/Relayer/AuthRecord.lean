/-
  Relayer/AuthRecord.lean --- what the record of the auth system says in every
  reachable state.

  `Justified` says, entry by entry, what an entry of the record guarantees about the
  entries before it: a push was authorised, a redemption redeems a push that stands
  earlier in the record, a refresh renews claims that had not run out, an accepted
  request carried claims that parse.  `AuthInv` adds what ties the rest of the state to
  the record: the challenge store, the requests in flight, the channel to the event
  loop and the subscription map.

  The invariant needs no assumption about tokens or signatures; every step keeps it
  (`AuthInv.move`).
-/
import FlowraRelayer.Relayer.AuthSystem

set_option autoImplicit false

namespace FlowraRelayer.Relayer

open FlowraRelayer.Foundation
open FlowraRelayer.Solana

variable {Ip : Type}

/-! ## What an entry guarantees -/

/-- A challenge is pushed for a key the authoriser accepted when the request asked;
if the authoriser did not change meanwhile, it accepts the key at the push as well. -/
structure PushRecord.Authorized (env : AuthEnv Ip) (record : PushRecord Ip) : Prop where
  made : MadeFor env record.clock record.ip record.pubkey record.challenge
  atCheck : record.verdictAtCheck = true
  atPush : record.autherUnchanged = true → record.verdictAtPush = true

/-- The request comes from the address of the push, names the challenge behind the
key, and carries a signature of it that verifies under the key; the tokens are signed
for the claims of the challenge. -/
structure Redemption.Redeems (env : AuthEnv Ip) (redemption : Redemption Ip)
    (record : PushRecord Ip) : Prop where
  ip_eq : redemption.ip = record.ip
  remoteAddr_eq : redemption.request.remoteAddr = some record.ip
  pubkey_eq : redemption.pubkey = record.pubkey
  challenge_eq :
    redemption.request.challenge = expectedChallenge record.pubkey record.challenge.challenge
  verified :
    env.ed25519.verify record.pubkey redemption.request.challenge
      redemption.request.signedChallenge = true
  access_eq : redemption.access.claims = DeSerClaims.ofClaims env.ips record.challenge.accessClaims
  refresh_eq :
    redemption.refresh.claims = DeSerClaims.ofClaims env.ips record.challenge.refreshClaims
  access_advertised :
    redemption.access.token.expiresAtUtc = redemption.access.claims.expiresAtUnixTs
  refresh_advertised :
    redemption.refresh.token.expiresAtUtc = redemption.refresh.claims.expiresAtUnixTs

/-- The presented claims had not run out at the first clock reading, and the issued
ones are for the same address and key, from the second reading on. -/
structure Refresh.Renews (env : AuthEnv Ip) (refresh : Refresh Ip) (claims : Claims Ip) :
    Prop where
  parsed : Claims.ofDeSer env.calendar env.ips refresh.presented = .ok claims
  live : refresh.clock.check < claims.expiresAtUtc
  issued_inRange : env.calendar.inRange (refresh.clock.issue + env.accessTokenTtl) = true
  issued_eq : refresh.issued.claims = DeSerClaims.ofClaims env.ips
    { claims with expiresAtUtc := refresh.clock.issue + env.accessTokenTtl }
  issued_advertised : refresh.issued.token.expiresAtUtc = refresh.issued.claims.expiresAtUnixTs

/-- What an entry guarantees, given the entries before it. -/
def Justified (env : AuthEnv Ip) (before : List (AuthEvent Ip)) : AuthEvent Ip → Prop
  | .pushed record => record.Authorized env
  | .redeemed redemption =>
      ∃ record, before[redemption.push]? = some (.pushed record) ∧ redemption.Redeems env record
  | .refreshed refresh => ∃ claims, refresh.Renews env claims
  | .accepted acceptance =>
      Claims.ofDeSer env.calendar env.ips acceptance.token = .ok acceptance.claims
  | .replied _ (.tokens push _ _ _) => ∃ record, before[push]? = some (.pushed record)
  | .replied _ _ => True

/-- The interceptor let a request for `pubkey` through. -/
def WasAccepted (history : List (AuthEvent Ip)) (pubkey : Pubkey) : Prop :=
  ∃ acceptance, .accepted acceptance ∈ history ∧ acceptance.claims.clientPubkey = pubkey

theorem WasAccepted.append {history : List (AuthEvent Ip)} {pubkey : Pubkey}
    (h : WasAccepted history pubkey) (more : List (AuthEvent Ip)) :
    WasAccepted (history ++ more) pubkey := by
  obtain ⟨acceptance, hmem, hpubkey⟩ := h
  exact ⟨acceptance, List.mem_append_left more hmem, hpubkey⟩

/-- What a request in flight relies on: `history` has the push it validated or the
acceptance it comes from, and a pending push is for a key that the authoriser of the
version it asked accepts. -/
def CallJustified (env : AuthEnv Ip) (history : List (AuthEvent Ip)) (auther : Pubkey → Bool)
    (autherVersion : Nat) : Call Ip → Prop
  | .challengePush pending =>
      MadeFor env pending.clock pending.ip pending.challenge.accessClaims.clientPubkey
        pending.challenge ∧
      pending.verdict = true ∧
      pending.autherVersion ≤ autherVersion ∧
      (pending.autherVersion = autherVersion →
        auther pending.challenge.accessClaims.clientPubkey = true)
  | .tokensRemove ip push _ _ =>
      ∃ record, history[push]? = some (.pushed record) ∧ record.ip = ip
  | .subscribe extension => ∀ pubkey ∈ extension, WasAccepted history pubkey
  | call => call.JustArrived env

theorem Call.JustArrived.justified {env : AuthEnv Ip} {call : Call Ip} (h : call.JustArrived env)
    (history : List (AuthEvent Ip)) (auther : Pubkey → Bool) (autherVersion : Nat) :
    CallJustified env history auther autherVersion call := by
  cases call with
  | challengeLen _ => exact h
  | challengeGet _ _ => exact h
  | tokensGet _ _ _ => exact h
  | _ => exact False.elim h

theorem CallJustified.append {env : AuthEnv Ip} {history : List (AuthEvent Ip)}
    {auther : Pubkey → Bool} {autherVersion : Nat} {call : Call Ip}
    (h : CallJustified env history auther autherVersion call) (more : List (AuthEvent Ip)) :
    CallJustified env (history ++ more) auther autherVersion call := by
  cases call with
  | tokensRemove ip push access refresh =>
    obtain ⟨record, hpush, hip⟩ := h
    exact ⟨record, getElem?_append_of_some hpush more, hip⟩
  | subscribe extension => exact fun pubkey hmem => (h pubkey hmem).append more
  | _ => exact h

/-- A new authoriser has a new version, so that it owes nothing to a pending push. -/
theorem CallJustified.setAuther {env : AuthEnv Ip} {history : List (AuthEvent Ip)}
    {auther auther' : Pubkey → Bool} {autherVersion : Nat} {call : Call Ip}
    (h : CallJustified env history auther autherVersion call) :
    CallJustified env history auther' (autherVersion + 1) call := by
  cases call with
  | challengePush pending =>
    obtain ⟨hmade, hverdict, hversion, -⟩ := h
    exact ⟨hmade, hverdict, by omega, fun heq => by omega⟩
  | _ => exact h

/-! ## The invariant -/

variable [DecidableEq Ip]

/-- What holds in every reachable state. -/
structure AuthInv (env : AuthEnv Ip) (s : AuthState Ip) : Prop where
  grounded : Grounded (Justified env) s.history
  stored : ∀ ip entry, s.challenges.lookup ip = some entry →
    ∃ record, s.history[entry.push]? = some (.pushed record) ∧ record.ip = ip ∧
      record.challenge = entry.challenge
  calls : ∀ id call, s.calls.lookup id = some call →
    CallJustified env s.history s.auther s.autherVersion call
  queued : ∀ subscription ∈ s.subscriptionQueue, WasAccepted s.history subscription.1
  subscribed : ∀ pubkey sender, s.loopState.packetSubscriptions.lookup pubkey = some sender →
    WasAccepted s.history pubkey

namespace AuthInv

variable {env : AuthEnv Ip} {s s' : AuthState Ip}

theorem init (health : HealthState) (auther : Pubkey → Bool) :
    AuthInv env (AuthState.init health auther : AuthState Ip) where
  grounded := .nil
  stored := by
    intro ip entry h
    simp [AuthState.init] at h
  calls := by
    intro id call h
    simp [AuthState.init] at h
  queued := by simp [AuthState.init]
  subscribed := by
    intro pubkey sender h
    simp [AuthState.init, LoopState.init] at h

/-- A justified entry may be added to the record. -/
theorem log (hinv : AuthInv env s) {event : AuthEvent Ip}
    (hevent : Justified env s.history event) : AuthInv env (s.log event) where
  grounded := .concat hinv.grounded hevent
  stored := by
    intro ip entry h
    obtain ⟨record, hpush, hrecord⟩ := hinv.stored ip entry h
    exact ⟨record, getElem?_append_of_some hpush [event], hrecord⟩
  calls := fun id call h => (hinv.calls id call h).append [event]
  queued := fun subscription hmem => (hinv.queued subscription hmem).append [event]
  subscribed := fun pubkey sender h => (hinv.subscribed pubkey sender h).append [event]

theorem wait (hinv : AuthInv env s) {id : Nat} {call : Call Ip}
    (hcall : CallJustified env s.history s.auther s.autherVersion call) :
    AuthInv env (s.wait id call) :=
  { hinv with
    calls := by
      intro id' call' h
      rcases lookup_insert_cases h with ⟨-, rfl⟩ | hold
      · exact hcall
      · exact hinv.calls id' call' hold }

theorem dropCall (hinv : AuthInv env s) (id : Nat) :
    AuthInv env { s with calls := s.calls.erase id } :=
  { hinv with calls := fun id' call h => hinv.calls id' call (lookup_erase_cases h).2 }

theorem settle (hinv : AuthInv env s) {id : Nat} {reply : Reply Ip}
    (hreply : Justified env s.history (.replied id reply)) : AuthInv env (s.settle id reply) :=
  (hinv.dropCall id).log hreply

/-- Entries may leave the challenge store. -/
theorem shrinkStore (hinv : AuthInv env s) {challenges : AuthChallenges Ip}
    (hsub : ∀ {ip entry}, challenges.lookup ip = some entry →
      s.challenges.lookup ip = some entry) :
    AuthInv env { s with challenges } :=
  { hinv with stored := fun ip entry h => hinv.stored ip entry (hsub h) }

/-- A push puts an entry into the store and into the record at once. -/
theorem pushChallenge (hinv : AuthInv env s) {pending : PendingPush Ip}
    (hpending : CallJustified env s.history s.auther s.autherVersion (.challengePush pending)) :
    AuthInv env (s.pushChallenge pending) := by
  obtain ⟨hmade, hverdict, -, hauther⟩ := hpending
  have hlogged : AuthInv env (s.log (.pushed
      { ip := pending.ip
        challenge := pending.challenge
        clock := pending.clock
        verdictAtCheck := pending.verdict
        verdictAtPush := s.auther pending.challenge.accessClaims.clientPubkey
        autherUnchanged := decide (pending.autherVersion = s.autherVersion) })) :=
    hinv.log ⟨hmade, hverdict, fun h => hauther (of_decide_eq_true h)⟩
  refine { hlogged with stored := ?_ }
  intro ip entry h
  rcases lookup_insert_cases h with ⟨rfl, rfl⟩ | hold
  · exact ⟨_, getElem?_concat_length s.history _, rfl, rfl⟩
  · exact hlogged.stored ip entry hold

/-! ## Every step keeps it -/

variable {decode : List UInt8 → Option VersionedTransaction} {cfg : LoopConfig}
  {label : AuthLabel Ip}

omit [DecidableEq Ip] in
/-- A challenge made for a request is one an authorised key may push. -/
theorem madeCall (s : AuthState Ip) {clock : ChallengeClock} {token : ChallengeToken} {ip : Ip}
    {req : ChallengeRequest Ip} {challenge : AuthChallenge Ip}
    (hnew : newChallenge env s.auther clock token ip req = .ok challenge) :
    CallJustified env s.history s.auther s.autherVersion (.challengePush
      { ip, challenge, clock
        verdict := s.auther challenge.accessClaims.clientPubkey
        autherVersion := s.autherVersion }) := by
  obtain ⟨pubkey, -, hauthorized, -, -, hmade⟩ := newChallenge_eq_ok hnew
  have hpubkey : challenge.accessClaims.clientPubkey = pubkey := by rw [hmade.access_eq]
  subst hpubkey
  exact ⟨hmade, hauthorized, Nat.le_refl _, fun _ => hauthorized⟩

/-- The tokens of a redemption are signed for the challenge that was read from the
store. -/
theorem redeems (hinv : AuthInv env s) {id : Nat} {now : Int} {ip : Ip} {pubkey : Pubkey}
    {req : TokensRequest Ip} {entry : StoredChallenge Ip} {access refresh : SignedToken}
    (hcall : s.calls.lookup id = some (.tokensGet ip pubkey req))
    (hstored : s.challenges.lookup ip = some entry)
    (hchecks : tokensAfterGetPriority env (some entry.challenge) pubkey req =
      .ok (access, refresh)) :
    ∃ record, s.history[entry.push]? = some (.pushed record) ∧ record.ip = ip ∧
      Redemption.Redeems env
        { push := entry.push, ip, pubkey, request := req, now, access, refresh } record := by
  obtain ⟨record, hpush, rfl, hrecord⟩ := hinv.stored ip entry hstored
  obtain ⟨hremote, -⟩ := hinv.calls id _ hcall
  obtain ⟨authChallenge, heq, hpubkey, htext, hverify, haccess, haccessExpiry, hrefresh,
    hrefreshExpiry⟩ := tokensAfterGetPriority_eq_ok hchecks
  have hchallenge : record.challenge = authChallenge := hrecord.trans (Option.some.inj heq)
  subst hchallenge
  subst hpubkey
  exact ⟨record, hpush, rfl, ⟨rfl, hremote, rfl, htext, hverify, haccess, hrefresh,
    haccessExpiry, hrefreshExpiry⟩⟩

/-- The event loop takes subscriptions from the channel and from nowhere else. -/
theorem loopTurn (hinv : AuthInv env s) {event : LoopEvent}
    {subscriptionQueue : List (Pubkey × Sender)} {loopState : LoopState}
    (hreceive : receive s event = some subscriptionQueue)
    (hturn : eventStep decode cfg s.loopState event = some loopState) :
    AuthInv env { s with subscriptionQueue, loopState } := by
  rcases receive_cases hreceive with ⟨head, rfl, hqueue⟩ | ⟨hother, rfl⟩
  · refine { hinv with queued := ?_, subscribed := ?_ }
    · intro subscription hmem
      refine hinv.queued subscription ?_
      rw [hqueue]
      exact List.mem_cons_of_mem head hmem
    · intro pubkey sender hlookup
      rcases lookup_eventStep hturn hlookup with hold | hnew
      · exact hinv.subscribed pubkey sender hold
      · cases hnew
        refine hinv.queued (pubkey, sender) ?_
        rw [hqueue]
        exact List.mem_cons_self
  · refine { hinv with subscribed := ?_ }
    intro pubkey sender hlookup
    rcases lookup_eventStep hturn hlookup with hold | hnew
    · exact hinv.subscribed pubkey sender hold
    · exact absurd hnew (hother _)

/-- Every move keeps the invariant. -/
theorem move (hinv : AuthInv env s) (hmove : Move env decode cfg s label s') : AuthInv env s' := by
  cases hmove with
  | setHealth health => exact { hinv with }
  | setAuther auther =>
    exact { hinv with calls := fun id call h => (hinv.calls id call h).setAuther }
  | failed id failure => exact hinv.settle trivial
  | waiting id hcall => exact hinv.wait (hcall.justified _ _ _)
  | reused hcall hdecision => exact hinv.settle trivial
  | made hcall hdecision =>
    exact hinv.wait (madeCall s (challengeAfterGetPriority_eq_push hdecision).2)
  | pushed hcall => exact (hinv.pushChallenge (hinv.calls _ _ hcall)).settle trivial
  | redeemed hcall hstored hchecks =>
    obtain ⟨record, hpush, hip, hredeems⟩ := hinv.redeems hcall hstored hchecks
    refine AuthInv.wait (AuthInv.log hinv ?_) ?_
    · exact ⟨record, hpush, hredeems⟩
    · exact ⟨record, getElem?_append_of_some hpush _, hip⟩
  | removed hcall =>
    obtain ⟨record, hpush, -⟩ := hinv.calls _ _ hcall
    refine AuthInv.settle (AuthInv.shrinkStore hinv ?_) ⟨record, hpush⟩
    intro ip entry h
    exact (lookup_erase_cases h).2
  | refreshed hchecks =>
    obtain ⟨-, claims, hparsed, hlive, hrange, hissued, hadvertised⟩ :=
      refreshAccessToken_eq_ok hchecks
    refine AuthInv.settle (AuthInv.log hinv ?_) trivial
    exact ⟨claims, ⟨hparsed, hlive, hrange, hissued, hadvertised⟩⟩
  | swept hswept => exact hinv.shrinkStore (AuthChallenges.lookup_of_removeAllExpired _ hswept)
  | accepted hchecks =>
    refine AuthInv.wait (AuthInv.log hinv ?_) ?_
    · exact (interceptorCall_eq_ok hchecks).2
    · intro pubkey hmem
      cases hmem
      exact ⟨_, List.mem_append_right _ List.mem_cons_self, rfl⟩
  | @subscribed id extension pubkey hcall hchecks =>
    have hextension := hinv.calls _ _ hcall
    simp only [subscribePackets, bind_eq_ok_iff, okOr_eq_ok_iff] at hchecks
    obtain ⟨-, -, hpubkey⟩ := hchecks
    have hqueued : AuthInv env
        { s with
          subscriptionQueue := s.subscriptionQueue ++ [(pubkey, s.nextSender)]
          nextSender := s.nextSender + 1 } := by
      refine { hinv with queued := ?_ }
      intro subscription hmem
      rcases List.mem_append.mp hmem with hold | hnew
      · exact hinv.queued subscription hold
      · rw [List.mem_singleton] at hnew
        subst hnew
        exact hextension pubkey hpubkey
    exact hqueued.settle trivial
  | abandoned id => exact hinv.dropCall id
  | loopTurn hreceive hturn => exact hinv.loopTurn hreceive hturn
  | loopEnd => exact { hinv with }

/-- The invariant holds at the end of every run. -/
theorem run {health : HealthState} {auther : Pubkey → Bool} {ls : List (AuthLabel Ip)}
    (hrun : runSteps (authStep env decode cfg) (AuthState.init health auther) ls = some s) :
    AuthInv env s :=
  runSteps_invariant (AuthInv env)
    (fun _ _ _ hinv hstep => hinv.move (move_of_authStep hstep)) ls (init health auther) hrun

end AuthInv

/-! ## Where a push comes from -/

section Pushes

variable {env : AuthEnv Ip} {decode : List UInt8 → Option VersionedTransaction} {cfg : LoopConfig}
  {s s' : AuthState Ip} {label : AuthLabel Ip}

/-- A challenge waits to be pushed only after the authoriser of the time said yes. -/
theorem pending_of_move (hmove : Move env decode cfg s label s') {id : Nat}
    {pending : PendingPush Ip} (h : s'.calls.lookup id = some (.challengePush pending)) :
    s.calls.lookup id = some (.challengePush pending) ∨
      s.auther pending.challenge.accessClaims.clientPubkey = true ∧
        pending.autherVersion = s.autherVersion := by
  cases hmove with
  | setHealth | setAuther | swept | loopTurn | loopEnd => exact .inl h
  | failed | reused | pushed | removed | refreshed | subscribed | abandoned =>
    exact .inl (lookup_erase_cases h).2
  | waiting id' hcall =>
    rcases lookup_insert_cases h with ⟨-, heq⟩ | hold
    · rw [← heq] at hcall
      exact False.elim hcall
    · exact .inl hold
  | made hcall hdecision =>
    rcases lookup_insert_cases h with ⟨-, heq⟩ | hold
    · cases heq
      obtain ⟨-, -, -, hauther⟩ :=
        AuthInv.madeCall s (challengeAfterGetPriority_eq_push hdecision).2
      exact .inr ⟨hauther rfl, rfl⟩
    · exact .inl hold
  | redeemed | accepted =>
    rcases lookup_insert_cases h with ⟨-, heq⟩ | hold
    · cases heq
    · exact .inl hold

/-- Only a challenge that was waiting is pushed. -/
theorem pushed_of_move (hmove : Move env decode cfg s label s') {record : PushRecord Ip}
    (h : .pushed record ∈ s'.history) :
    .pushed record ∈ s.history ∨ ∃ id pending,
      s.calls.lookup id = some (.challengePush pending) ∧
        record.pubkey = pending.challenge.accessClaims.clientPubkey ∧
        record.autherUnchanged = decide (pending.autherVersion = s.autherVersion) := by
  cases hmove with
  | setHealth | setAuther | swept | loopTurn | loopEnd | waiting | made | abandoned => exact .inl h
  | failed | reused | removed | subscribed | redeemed | accepted =>
    rcases List.mem_append.mp h with hold | hnew
    · exact .inl hold
    · cases List.mem_singleton.mp hnew
  | refreshed =>
    rcases List.mem_append.mp h with hold | hnew
    · rcases List.mem_append.mp hold with hold | hnew
      · exact .inl hold
      · cases List.mem_singleton.mp hnew
    · cases List.mem_singleton.mp hnew
  | pushed hcall =>
    rcases List.mem_append.mp h with hold | hnew
    · rcases List.mem_append.mp hold with hold | hnew
      · exact .inl hold
      · cases List.mem_singleton.mp hnew
        exact .inr ⟨_, _, hcall, rfl, rfl⟩
    · cases List.mem_singleton.mp hnew

end Pushes

/-! ## Entries that come from a presented token -/

/-- The claims an entry of the record took from a presented token. -/
def AuthEvent.presented : AuthEvent Ip → Option DeSerClaims
  | .refreshed refresh => some refresh.presented
  | .accepted acceptance => some acceptance.token
  | _ => none

omit [DecidableEq Ip] in
theorem AuthEvent.presented_of_quiet {event : AuthEvent Ip} (h : event.quiet = true) :
    event.presented = none := by
  cases event with
  | refreshed refresh => cases h
  | accepted acceptance => cases h
  | _ => rfl

/-- To show that every step justifies what it records about presented tokens, it is
enough to look at a successful refresh and at a request that is let through. -/
theorem grounded_move {env : AuthEnv Ip} {decode : List UInt8 → Option VersionedTransaction}
    {cfg : LoopConfig} {s s' : AuthState Ip} {label : AuthLabel Ip}
    {just : List (AuthEvent Ip) → AuthEvent Ip → Prop} (hgrounded : Grounded just s.history)
    (hmove : Move env decode cfg s label s')
    (hquiet : ∀ before event, event.presented = none → just before event)
    (hrefresh : ∀ id clock req presented issued, label = .refresh id clock req →
      refreshAccessToken env s.health clock req = .ok (presented, issued) →
      just s.history (.refreshed { request := req, clock, presented, issued }))
    (haccept : ∀ id now req token claims, label = .intercept id now req →
      interceptorCall env.calendar env.ips env.jwt .rs256 req = .ok (token, claims) →
      just s.history (.accepted { request := req, now, token, claims })) :
    Grounded just s'.history := by
  obtain ⟨events, hhistory, hentries⟩ := hmove.entries
  rw [hhistory]
  cases hentries with
  | quiet hevents =>
    refine hgrounded.append ?_
    intro before event hmem
    exact hquiet before event (AuthEvent.presented_of_quiet (hevents event hmem))
  | redeemed hcall hstored hchecks => exact hgrounded.concat (hquiet _ _ rfl)
  | removed hcall => exact hgrounded.concat (hquiet _ _ rfl)
  | refreshed hchecks =>
    rw [List.append_cons]
    exact (hgrounded.concat (hrefresh _ _ _ _ _ rfl hchecks)).concat (hquiet _ _ rfl)
  | accepted hchecks => exact hgrounded.concat (haccept _ _ _ _ _ rfl hchecks)

end FlowraRelayer.Relayer
