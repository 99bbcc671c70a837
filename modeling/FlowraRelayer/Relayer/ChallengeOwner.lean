/-
  Relayer/ChallengeOwner.lean --- whose challenge `generate_auth_challenge` returns.

  The handler looks the peer address up before it looks at the request.  If the store
  holds an unexpired challenge for the address, that challenge is returned, whoever
  asks: role, key and authorisation are not read (`challenge_of_another_key`).

  `challenge_belongs_iff` says for every reachable state and every request exactly when
  the returned challenge is the requester's own, which is also when the requester can
  redeem it.
-/
import FlowraRelayer.Relayer.ChallengeStore

set_option autoImplicit false

namespace FlowraRelayer.Relayer

open FlowraRelayer.Foundation
open FlowraRelayer.Solana

variable {Ip : Type}

/-! ## A request that returns -/

/-- A request for tokens from `ip` that proves the possession of `pubkey`, a valid
ed25519 key, by a valid signature of challenge `c`. -/
structure Signs (env : AuthEnv Ip) (ip : Ip) (pubkey : Pubkey) (c : String)
    (req : TokensRequest Ip) : Prop where
  remoteAddr_eq : req.remoteAddr = some ip
  pubkey_eq : env.ed25519.publicKeyFromBytes req.clientPubkey = some pubkey
  challenge_eq : req.challenge = expectedChallenge pubkey c
  length_eq : req.signedChallenge.length = signatureBytes
  signature : env.ed25519.isSignature req.signedChallenge = true
  verified : env.ed25519.verify pubkey req.challenge req.signedChallenge = true

variable [DecidableEq Ip]

/-- Request `id`, about to look up its address in `s`, returns challenge `c` to `ip` and
leaves the system in `s'`: at once, or with a push, before which other requests may move. -/
inductive ReturnsChallenge (step : AuthState Ip → AuthLabel Ip → Option (AuthState Ip))
    (s : AuthState Ip) (id : Nat) (clock : ChallengeClock) (token : ChallengeToken) (ip : Ip)
    (c : String) : AuthState Ip → Prop where
  | atLookup {s' : AuthState Ip} (hget : step s (.challengeGet id clock token) = some s')
      (hreply : .replied id (.challenge ip c) ∈ s'.history.drop s.history.length) :
      ReturnsChallenge step s id clock token ip c s'
  | atPush {s₁ s₂ s' : AuthState Ip} (others : List (AuthLabel Ip))
      (hget : step s (.challengeGet id clock token) = some s₁)
      (hothers : runSteps step s₁ others = some s₂)
      (hnames : ∀ label ∈ others, ∀ arrives, label.request ≠ some (id, arrives))
      (hpush : step s₂ (.challengePush id) = some s')
      (hreply : .replied id (.challenge ip c) ∈ s'.history.drop s₂.history.length) :
      ReturnsChallenge step s id clock token ip c s'

variable (env : AuthEnv Ip) (decode : List UInt8 → Option VersionedTransaction) (cfg : LoopConfig)

/-- In every healthy state that holds the same entry for `ip` as `s`, `generate_auth_tokens`
succeeds for the holder of `pubkey` at `ip`. -/
def Redeemable (s : AuthState Ip) (ip : Ip) (pubkey : Pubkey) (c : String) : Prop :=
  ∀ later : AuthState Ip, later.health = .healthy →
    later.challenges.lookup ip = s.challenges.lookup ip →
    ∀ (id : Nat) (now : Int) (req : TokensRequest Ip), later.calls.lookup id = none →
      Signs env ip pubkey c req →
      ∃ s' push access refresh,
        runSteps (authStep env decode cfg) later
          [.tokensRequest id req, .tokensGet id now, .tokensRemove id now] = some s' ∧
        s'.history.getLast? = some (.replied id (.tokens push now access refresh))

/-- Challenge `c`, returned to `ip` for request `req`, is the challenge of `pubkey`: the
request, looked at in `s`, is one of an authorised validator with that key, and the store
afterwards, in `s'`, holds `c` with claims for the key and the address. -/
structure BelongsTo (s s' : AuthState Ip) (ip : Ip) (req : ChallengeRequest Ip) (c : String)
    (pubkey : Pubkey) : Prop where
  role_eq : req.role = env.validatorRole
  length_eq : req.pubkey.length = pubkeyBytes
  pubkey_eq : Pubkey.tryFrom req.pubkey = some pubkey
  authorized : s.auther pubkey = true
  stored : ∃ entry, s'.challenges.lookup ip = some entry ∧ entry.challenge.challenge = c ∧
    entry.challenge.accessClaims.clientPubkey = pubkey ∧
    entry.challenge.accessClaims.clientIp = ip ∧
    entry.challenge.refreshClaims.clientPubkey = pubkey ∧
    entry.challenge.refreshClaims.clientIp = ip
  redeemable : Redeemable env decode cfg s' ip pubkey c

/-- An unexpired challenge in the store is that of the requester: the request has the role
of a validator and an authorised key, which is the key of the challenge. -/
def StoredForRequester (s : AuthState Ip) (ip : Ip) (clock : ChallengeClock)
    (req : ChallengeRequest Ip) : Prop :=
  ∀ entry ∈ s.challenges.lookup ip, entry.challenge.isExpired clock.stored = false →
    req.role = env.validatorRole ∧
      Pubkey.tryFrom req.pubkey = some entry.challenge.accessClaims.clientPubkey ∧
      s.auther entry.challenge.accessClaims.clientPubkey = true

section

variable {env decode cfg} {s s' : AuthState Ip} {id : Nat} {clock : ChallengeClock}
  {token : ChallengeToken} {ip : Ip} {req : ChallengeRequest Ip}

/-! ## Steps of the two handlers -/

/-- What the lookup of `generate_auth_challenge` does. -/
theorem challengeGet_cases (hcall : s.calls.lookup id = some (.challengeGet ip req))
    (hstep : authStep env decode cfg s (.challengeGet id clock token) = some s') :
    (∃ failure, s' = s.settle id (.failure failure)) ∨
    (∃ entry, s.challenges.lookup ip = some entry ∧
      entry.challenge.isExpired clock.stored = false ∧
      s' = s.settle id (.challenge ip entry.challenge.challenge)) ∨
    ∃ challenge, (∀ entry ∈ s.challenges.lookup ip,
        entry.challenge.isExpired clock.stored = true) ∧
      newChallenge env s.auther clock token ip req = .ok challenge ∧
      s' = s.wait id (.challengePush
        { ip, challenge, clock
          verdict := s.auther challenge.accessClaims.clientPubkey
          autherVersion := s.autherVersion }) := by
  simp only [authStep, AuthLabel.request, hcall, callStep, AuthChallenges.getPriority] at hstep
  split at hstep
  · cases hstep
    exact .inl ⟨_, rfl⟩
  · rename_i hdecision
    cases hstep
    obtain ⟨challenge, hstored, hexpired, rfl⟩ := challengeAfterGetPriority_eq_reuse hdecision
    obtain ⟨entry, hentry, rfl⟩ := Option.map_eq_some_iff.mp hstored
    exact .inr (.inl ⟨entry, hentry, hexpired, rfl⟩)
  · rename_i hdecision
    cases hstep
    obtain ⟨hexpired, hnew⟩ := challengeAfterGetPriority_eq_push hdecision
    refine .inr (.inr ⟨_, ?_, hnew, rfl⟩)
    intro entry hentry
    exact hexpired entry.challenge (by rw [Option.mem_def.mp hentry]; rfl)

/-- What the push of `generate_auth_challenge` does. -/
theorem challengePush_eq {pending : PendingPush Ip}
    (hcall : s.calls.lookup id = some (.challengePush pending))
    (hstep : authStep env decode cfg s (.challengePush id) = some s') :
    s' = (s.pushChallenge pending).settle id (.challenge pending.ip pending.challenge.challenge) := by
  simp only [authStep, AuthLabel.request, hcall, callStep, Option.some.injEq] at hstep
  exact hstep.symm

/-- A request that is not in flight does not push. -/
theorem not_challengePush (hcall : s.calls.lookup id = none)
    (hstep : authStep env decode cfg s (.challengePush id) = some s') : False := by
  simp [authStep, AuthLabel.request, hcall] at hstep

/-- Steps that do not name a request leave it where it is. -/
theorem lookup_calls_runSteps {others : List (AuthLabel Ip)}
    (hnames : ∀ label ∈ others, ∀ arrives, label.request ≠ some (id, arrives))
    (hrun : runSteps (authStep env decode cfg) s others = some s') :
    s'.calls.lookup id = s.calls.lookup id := by
  induction others generalizing s with
  | nil =>
    cases hrun
    rfl
  | cons label others ih =>
    obtain ⟨t, hstep, hrest⟩ := runSteps_cons_eq_some hrun
    rw [ih (fun l hl => hnames l (List.mem_cons_of_mem _ hl)) hrest]
    exact lookup_calls_authStep hstep (hnames label List.mem_cons_self)

/-- A request for tokens that arrives while the relayer is healthy. -/
theorem tokensRequest_step {pubkey : Pubkey} {req : TokensRequest Ip}
    (hhealthy : s.health = .healthy) (hfree : s.calls.lookup id = none)
    (hip : req.remoteAddr = some ip)
    (hpubkey : env.ed25519.publicKeyFromBytes req.clientPubkey = some pubkey) :
    authStep env decode cfg s (.tokensRequest id req) =
      some (s.wait id (.tokensGet ip pubkey req)) := by
  simp only [authStep, AuthLabel.request, hfree, arrivalStep, hhealthy,
    tokensStart_of_healthy hip hpubkey]
  rfl

/-- A request for tokens that passes every check with the stored challenge. -/
theorem tokensGet_step {pubkey : Pubkey} {req : TokensRequest Ip} {now : Int}
    {entry : StoredChallenge Ip} {access refresh : SignedToken}
    (hcall : s.calls.lookup id = some (.tokensGet ip pubkey req))
    (hentry : s.challenges.lookup ip = some entry)
    (htokens : tokensAfterGetPriority env (some entry.challenge) pubkey req =
      .ok (access, refresh)) :
    authStep env decode cfg s (.tokensGet id now) =
      some ((s.log (.redeemed
        { push := entry.push, ip, pubkey, request := req, now, access, refresh })).wait id
          (.tokensRemove ip entry.push access refresh)) := by
  simp only [authStep, AuthLabel.request, hcall, callStep, AuthChallenges.getPriority, hentry,
    Option.map_some, htokens]

/-- A request for tokens that removes its challenge and returns. -/
theorem tokensRemove_step {push : Nat} {now : Int} {access refresh : SignedToken}
    (hcall : s.calls.lookup id = some (.tokensRemove ip push access refresh)) :
    authStep env decode cfg s (.tokensRemove id now) =
      some ({ s with challenges := s.challenges.remove ip }.settle id
        (.tokens push now access.token refresh.token)) := by
  simp only [authStep, AuthLabel.request, hcall, callStep]

/-- The holder of the key for which a challenge is stored gets tokens for it. -/
theorem redeemable_of_stored
    (hsigns : ∀ claims : Claims Ip,
      (env.jwt.sign (DeSerClaims.ofClaims env.ips claims)).isSome = true)
    {entry : StoredChallenge Ip} (hentry : s.challenges.lookup ip = some entry) :
    Redeemable env decode cfg s ip entry.challenge.accessClaims.clientPubkey
      entry.challenge.challenge := by
  intro later hhealthy hsame id now req hfree hreq
  obtain ⟨access, refresh, htokens⟩ := tokensAfterGetPriority_of_signed hsigns rfl
    hreq.challenge_eq hreq.length_eq hreq.signature hreq.verified
  obtain ⟨s₁, hrequest, hcall₁, hentry₁⟩ :
      ∃ s₁, authStep env decode cfg later (.tokensRequest id req) = some s₁ ∧
        s₁.calls.lookup id =
          some (.tokensGet ip entry.challenge.accessClaims.clientPubkey req) ∧
        s₁.challenges.lookup ip = some entry :=
    ⟨_, tokensRequest_step hhealthy hfree hreq.remoteAddr_eq hreq.pubkey_eq,
      AList.lookup_insert _, hsame.trans hentry⟩
  obtain ⟨s₂, hget, hcall₂⟩ :
      ∃ s₂, authStep env decode cfg s₁ (.tokensGet id now) = some s₂ ∧
        s₂.calls.lookup id = some (.tokensRemove ip entry.push access refresh) :=
    ⟨_, tokensGet_step hcall₁ hentry₁ htokens, AList.lookup_insert _⟩
  refine ⟨{ s₂ with challenges := s₂.challenges.remove ip }.settle id
    (.tokens entry.push now access.token refresh.token), entry.push, access.token, refresh.token,
    ?_, List.getLast?_concat⟩
  rw [runSteps_cons, hrequest, Option.bind_some, runSteps_cons, hget, Option.bind_some,
    runSteps_cons, tokensRemove_step hcall₂, Option.bind_some, runSteps_nil]

/-! ## Whose challenge it is -/

/-- The challenges in the store of a reachable state carry claims for the address under
which they are stored, both for one key. -/
theorem AuthInv.stored_claims (hinv : AuthInv env s) {entry : StoredChallenge Ip}
    (hentry : s.challenges.lookup ip = some entry) :
    entry.challenge.accessClaims.clientIp = ip ∧
      entry.challenge.refreshClaims.clientPubkey = entry.challenge.accessClaims.clientPubkey ∧
      entry.challenge.refreshClaims.clientIp = ip := by
  obtain ⟨record, hpushed, rfl, hchallenge⟩ := hinv.stored ip entry hentry
  have hauthorized : record.Authorized env := hinv.grounded.justified_at hpushed
  rw [← hchallenge]
  have haccess := hauthorized.made.access_eq
  have hrefresh := hauthorized.made.refresh_eq
  exact ⟨by rw [haccess], by rw [hrefresh]; rfl, by rw [hrefresh]⟩

/-- An unexpired challenge of the requester is returned as its own. -/
theorem belongsTo_of_stored
    (hsigns : ∀ claims : Claims Ip,
      (env.jwt.sign (DeSerClaims.ofClaims env.ips claims)).isSome = true)
    (hinv : AuthInv env s) {entry : StoredChallenge Ip}
    (hentry : s.challenges.lookup ip = some entry) (hsame : s'.challenges = s.challenges)
    (hrole : req.role = env.validatorRole)
    (hpubkey : Pubkey.tryFrom req.pubkey = some entry.challenge.accessClaims.clientPubkey)
    (hauthorized : s.auther entry.challenge.accessClaims.clientPubkey = true) :
    BelongsTo env decode cfg s s' ip req entry.challenge.challenge
      entry.challenge.accessClaims.clientPubkey := by
  have hentry' : s'.challenges.lookup ip = some entry := by rw [hsame, hentry]
  obtain ⟨haccessIp, hrefreshPubkey, hrefreshIp⟩ := hinv.stored_claims hentry
  exact ⟨hrole, Pubkey.length_of_tryFrom hpubkey, hpubkey, hauthorized,
    ⟨entry, hentry', rfl, rfl, haccessIp, hrefreshPubkey, hrefreshIp⟩,
    redeemable_of_stored hsigns hentry'⟩

/-- A challenge made for a request and pushed belongs to the requester. -/
theorem belongsTo_of_pushed
    (hsigns : ∀ claims : Claims Ip,
      (env.jwt.sign (DeSerClaims.ofClaims env.ips claims)).isSome = true)
    {challenge : AuthChallenge Ip}
    (hnew : newChallenge env s.auther clock token ip req = .ok challenge)
    {entry : StoredChallenge Ip} (hentry : s'.challenges.lookup ip = some entry)
    (hchallenge : entry.challenge = challenge) :
    BelongsTo env decode cfg s s' ip req challenge.challenge
      challenge.accessClaims.clientPubkey := by
  obtain ⟨pubkey, hpubkey, hauthorized, hrole, -, hmade⟩ := newChallenge_eq_ok hnew
  subst hchallenge
  have hkey : entry.challenge.accessClaims.clientPubkey = pubkey := by rw [hmade.access_eq]
  subst hkey
  refine ⟨hrole, Pubkey.length_of_tryFrom hpubkey, hpubkey, hauthorized, ?_,
    redeemable_of_stored hsigns hentry⟩
  exact ⟨entry, hentry, rfl, rfl, by rw [hmade.access_eq], by rw [hmade.refresh_eq],
    by rw [hmade.refresh_eq]⟩

end

/-- For every reachable state and every request that returns a challenge: the challenge is
the requester's own exactly if the store held no unexpired challenge for the address, or one
that is already the requester's. -/
theorem challenge_belongs_iff
    (hsigns : ∀ claims : Claims Ip,
      (env.jwt.sign (DeSerClaims.ofClaims env.ips claims)).isSome = true)
    (health : HealthState) (auther : Pubkey → Bool) (ls : List (AuthLabel Ip)) (s s' : AuthState Ip)
    (id : Nat) (clock : ChallengeClock) (token : ChallengeToken) (ip : Ip)
    (req : ChallengeRequest Ip) (c : String)
    (hrun : runSteps (authStep env decode cfg) (AuthState.init health auther) ls = some s)
    (hcall : s.calls.lookup id = some (.challengeGet ip req))
    (hreturns : ReturnsChallenge (authStep env decode cfg) s id clock token ip c s') :
    (∃ pubkey, BelongsTo env decode cfg s s' ip req c pubkey) ↔
      StoredForRequester env s ip clock req := by
  have hinv := AuthInv.run hrun
  cases hreturns with
  | atLookup hget hreply =>
    rcases challengeGet_cases hcall hget with ⟨failure, rfl⟩ | ⟨entry, hentry, hexpired, rfl⟩ |
      ⟨challenge, -, -, rfl⟩
    · simp [AuthState.settle] at hreply
    · simp only [AuthState.settle, List.drop_left, List.mem_singleton, AuthEvent.replied.injEq,
        Reply.challenge.injEq, true_and] at hreply
      subst hreply
      constructor
      · rintro ⟨pubkey, hbelongs⟩ entry' hentry' -
        obtain ⟨stored, hstored, -, rfl, -⟩ := hbelongs.stored
        cases Option.some.inj (hentry.symm.trans hstored)
        cases Option.some.inj (hentry.symm.trans hentry')
        exact ⟨hbelongs.role_eq, hbelongs.pubkey_eq, hbelongs.authorized⟩
      · intro hstored
        obtain ⟨hrole, hpubkey, hauthorized⟩ := hstored entry hentry hexpired
        exact ⟨_, belongsTo_of_stored hsigns hinv hentry rfl hrole hpubkey hauthorized⟩
    · simp [AuthState.wait] at hreply
  | @atPush s₁ s₂ _ others hget hothers hnames hpush hreply =>
    have hsame := lookup_calls_runSteps hnames hothers
    rcases challengeGet_cases hcall hget with ⟨failure, rfl⟩ | ⟨entry, -, -, rfl⟩ |
      ⟨challenge, hexpired, hnew, rfl⟩
    · exact absurd hpush (not_challengePush (hsame.trans (AList.lookup_erase _ _)))
    · exact absurd hpush (not_challengePush (hsame.trans (AList.lookup_erase _ _)))
    · cases challengePush_eq (hsame.trans (AList.lookup_insert _)) hpush
      simp only [AuthState.settle, AuthState.pushChallenge, AuthState.log, List.append_assoc,
        List.drop_left, List.mem_append, List.mem_singleton, AuthEvent.replied.injEq,
        Reply.challenge.injEq, reduceCtorEq, false_or, true_and] at hreply
      subst hreply
      constructor
      · intro _ entry hentry hlive
        rw [hexpired entry hentry] at hlive
        cases hlive
      · intro _
        exact ⟨_, belongsTo_of_pushed hsigns hnew (AList.lookup_insert _) rfl⟩

/-! ## Two validators behind one address -/

/-- A JWT library that signs every claim: the token spells the claims out. -/
def plainJwt : Jwt where
  sign claims :=
    some (claims.clientIp ++ "|" ++ claims.clientPubkey ++ "|" ++ toString claims.expiresAtUnixTs)
  verify token :=
    match splitBy "|".toList token.toList with
    | [clientIp, clientPubkey, expiresAt] =>
        (String.ofList expiresAt).toInt?.map fun expiresAtUnixTs =>
          (.rs256, ⟨String.ofList clientIp, String.ofList clientPubkey, expiresAtUnixTs⟩)
    | _ => none

/-- The server with the default lifetimes and that library. -/
def plainEnv : AuthEnv Peer := { clientEnv [] 1800 180000 with jwt := plainJwt }

/-- Its step function. -/
abbrev plainStep : AuthState Peer → AuthLabel Peer → Option (AuthState Peer) :=
  authStep plainEnv (fun _ => none) ⟨∅, 4, true, 5⟩

/-- The start of a healthy server that accepts two validators. -/
abbrev twoValidators : AuthState Peer :=
  AuthState.init .healthy fun key => key = uniformKey 7 ∨ key = uniformKey 8

/-- The first validator gets a challenge; then a validator with key `key` asks from the same
address and is about to look it up. -/
def secondAskRun (key : Pubkey) : List (AuthLabel Peer) :=
  challengeRun ++ [.challengeRequest 2 ⟨some .first, 2, key.bytes⟩, .challengeLen 2]

/-- The address and the request of a call that is about to look its address up. -/
def Call.asks : Call Ip → Option (Ip × ChallengeRequest Ip)
  | .challengeGet ip req => some (ip, req)
  | _ => none

omit [DecidableEq Ip] in
theorem Call.asks_eq_some {call : Call Ip} {ip : Ip} {req : ChallengeRequest Ip}
    (h : call.asks = some (ip, req)) : call = .challengeGet ip req := by
  unfold Call.asks at h
  split at h
  · cases h
    rfl
  · cases h

/-- What becomes of the second request: its call before the lookup, the challenges the
lookup returns, and the key for which the address has a challenge afterwards. -/
structure SecondAsk where
  asked : Option (Peer × ChallengeRequest Peer)
  returned : List (Nat × Peer × String)
  storedFor : Option Pubkey
  deriving DecidableEq

/-- The second request, served at second 3. -/
def secondAsk (key : Pubkey) : Option SecondAsk := do
  let s ← runSteps plainStep twoValidators (secondAskRun key)
  let s' ← plainStep s (.challengeGet 2 (clockAt (second 3)) otherToken)
  pure
    { asked := (s.calls.lookup 2).bind Call.asks
      returned := (s'.history.drop s.history.length).filterMap AuthEvent.returnsChallenge
      storedFor := (s'.challenges.lookup .first).map (·.challenge.accessClaims.clientPubkey) }

/-- A second request that is given the challenge of the first validator. -/
theorem secondAsk_returns (key : Pubkey) (req : ChallengeRequest Peer)
    (h : secondAsk key =
      some ⟨some (.first, req), [(2, .first, "abcdefghi")], some (uniformKey 7)⟩) :
    ∃ s s', runSteps plainStep twoValidators (secondAskRun key) = some s ∧
      s.calls.lookup 2 = some (.challengeGet .first req) ∧
      ReturnsChallenge plainStep s 2 (clockAt (second 3)) otherToken .first "abcdefghi" s' ∧
      (s'.challenges.lookup .first).map (·.challenge.accessClaims.clientPubkey) =
        some (uniformKey 7) := by
  simp only [secondAsk, Option.bind_eq_bind, Option.bind_eq_some_iff, Option.pure_def,
    Option.some.injEq, SecondAsk.mk.injEq] at h
  obtain ⟨s, hs, s', hs', ⟨call, hcall, hasks⟩, hreply, hstored⟩ := h
  cases Call.asks_eq_some hasks
  refine ⟨s, s', hs, hcall, .atLookup hs' (mem_of_returnsChallenge ?_), hstored⟩
  rw [hreply]
  exact List.mem_cons_self

/-- The first validator asks again and is given its own challenge. -/
theorem challenge_belongs_iff_sameKey :
    ∃ s s', runSteps plainStep twoValidators (secondAskRun (uniformKey 7)) = some s ∧
      ReturnsChallenge plainStep s 2 (clockAt (second 3)) otherToken .first "abcdefghi" s' ∧
      ((∃ pubkey, BelongsTo plainEnv (fun _ => none) ⟨∅, 4, true, 5⟩ s s' .first
          ⟨some .first, 2, (uniformKey 7).bytes⟩ "abcdefghi" pubkey) ↔
        StoredForRequester plainEnv s .first (clockAt (second 3))
          ⟨some .first, 2, (uniformKey 7).bytes⟩) := by
  have hsigns : ∀ claims : Claims Peer,
      (plainEnv.jwt.sign (DeSerClaims.ofClaims plainEnv.ips claims)).isSome = true :=
    fun _ => rfl
  obtain ⟨s, s', hs, hcall, hreturns, -⟩ := secondAsk_returns (uniformKey 7)
    ⟨some .first, 2, (uniformKey 7).bytes⟩ (by decide)
  exact ⟨s, s', hs, hreturns,
    challenge_belongs_iff plainEnv _ _ hsigns _ _ _ s s' 2 _ _ _ _ _ hs hcall hreturns⟩

/-- Another validator behind the address is given the challenge of the first. -/
theorem challenge_of_another_key :
    ¬ ∀ (ls : List (AuthLabel Peer)) (s s' : AuthState Peer) (id : Nat) (clock : ChallengeClock)
      (token : ChallengeToken) (ip : Peer) (req : ChallengeRequest Peer) (c : String),
      runSteps plainStep twoValidators ls = some s →
      s.calls.lookup id = some (.challengeGet ip req) →
      ReturnsChallenge plainStep s id clock token ip c s' →
        ∃ pubkey, BelongsTo plainEnv (fun _ => none) ⟨∅, 4, true, 5⟩ s s' ip req c pubkey := by
  intro hall
  obtain ⟨s, s', hs, hcall, hreturns, hstored⟩ := secondAsk_returns (uniformKey 8)
    ⟨some .first, 2, (uniformKey 8).bytes⟩ (by decide)
  obtain ⟨pubkey, hbelongs⟩ := hall _ s s' 2 _ _ _ _ _ hs hcall hreturns
  obtain ⟨entry, hentry, -, hkey, -⟩ := hbelongs.stored
  have hpubkey := hbelongs.pubkey_eq
  rw [Pubkey.tryFrom_bytes, Option.some.injEq] at hpubkey
  rw [hentry, Option.map_some, hkey, ← hpubkey, Option.some.injEq] at hstored
  exact absurd hstored (by decide)

end FlowraRelayer.Relayer
