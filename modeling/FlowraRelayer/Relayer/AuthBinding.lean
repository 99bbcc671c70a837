/-
  Relayer/AuthBinding.lean --- the address in a token against the address it is used from.

  The address of the client goes from the challenge request through the store and the
  claims into the token, and from there into every token that is refreshed from it.  But
  no one compares it: neither `AuthInterceptor::call` nor `refresh_access_token` looks at
  the peer of the request, so a token serves whoever holds it (`token_used_elsewhere`).

  Where clients present a token only from the address it was handed to, every use is from
  the address in the claims (`tokens_bound_to_address`).  The induction is over the order
  in which the tokens were issued: a refreshed token goes to the address its predecessor
  was presented from.
-/
import FlowraRelayer.Relayer.AuthSoundness

set_option autoImplicit false

namespace FlowraRelayer.Relayer

open FlowraRelayer.Foundation
open FlowraRelayer.Solana

variable {Ip : Type} {env : AuthEnv Ip} {history : List (AuthEvent Ip)}

/-! ## Where tokens go and where they come from -/

/-- The peer of the request behind an entry: whom its tokens are handed to, or who
presented one. -/
def AuthEvent.peer : AuthEvent Ip → Option Ip
  | .redeemed redemption => redemption.request.remoteAddr
  | .refreshed refresh => refresh.request.remoteAddr
  | .accepted acceptance => acceptance.request.remoteAddr
  | _ => none

/-- The peer of a request that presents a token. -/
def AuthLabel.peer : AuthLabel Ip → Option Ip
  | .refresh _ _ req => req.remoteAddr
  | .intercept _ _ req => req.remoteAddr
  | _ => none

/-- A request presents a token of this server only from where the token was handed to. -/
def PresentedWhereIssued [DecidableEq Ip] (env : AuthEnv Ip) (s : AuthState Ip)
    (label : AuthLabel Ip) : Prop :=
  ∀ text ∈ label.presented, ∀ verified ∈ env.jwt.verify text,
    ∀ event ∈ s.history, verified.2 ∈ event.signed.map (·.claims) → event.peer = label.peer

instance [DecidableEq Ip] (env : AuthEnv Ip) (s : AuthState Ip) (label : AuthLabel Ip) :
    Decidable (PresentedWhereIssued env s label) :=
  inferInstanceAs (Decidable (∀ text ∈ label.presented, ∀ verified ∈ env.jwt.verify text,
    ∀ event ∈ s.history, verified.2 ∈ event.signed.map (·.claims) → event.peer = label.peer))

/-- A request that was let through, and a refresh that succeeded, came from the address in
the claims of the token it presented. -/
def FromOwnAddress (env : AuthEnv Ip) (event : AuthEvent Ip) : Prop :=
  ∀ token ∈ event.presented, ∀ claims, Claims.ofDeSer env.calendar env.ips token = .ok claims →
    event.peer = some claims.clientIp

/-- The claims of a presented token stand only in tokens handed to the same peer. -/
def PresentedAtHome (before : List (AuthEvent Ip)) (event : AuthEvent Ip) : Prop :=
  ∀ token ∈ event.presented, ∀ earlier ∈ before, token ∈ earlier.signed.map (·.claims) →
    earlier.peer = event.peer

section Steps

variable [DecidableEq Ip] {decode : List UInt8 → Option VersionedTransaction} {cfg : LoopConfig}
  {s s' : AuthState Ip} {label : AuthLabel Ip}

theorem presentedAtHome_move (hgrounded : Grounded PresentedAtHome s.history)
    (hhome : PresentedWhereIssued env s label) (hmove : Move env decode cfg s label s') :
    Grounded PresentedAtHome s'.history := by
  refine grounded_move hgrounded hmove ?_ ?_ ?_
  · intro before event hnone token hmem
    rw [hnone] at hmem
    cases hmem
  · intro id clock req presented issued hlabel hchecks token hmem
    subst hlabel
    cases hmem
    obtain ⟨⟨algorithm, hverify⟩, -⟩ := refreshAccessToken_eq_ok hchecks
    exact hhome req.refreshToken rfl (algorithm, presented) hverify
  · intro id now req token claims hlabel hchecks token' hmem
    subst hlabel
    cases hmem
    obtain ⟨⟨text, htext, hverify⟩, -⟩ := interceptorCall_eq_ok hchecks
    exact hhome text (presented_intercept htext) (.rs256, token) hverify

theorem presentedAtHome_run {health : HealthState} {auther : Pubkey → Bool}
    {ls : List (AuthLabel Ip)}
    (hhome : StepsMeet (authStep env decode cfg) (PresentedWhereIssued env)
      (AuthState.init health auther) ls)
    (hrun : runSteps (authStep env decode cfg) (AuthState.init health auther) ls = some s) :
    Grounded PresentedAtHome s.history :=
  runSteps_invariant_of_meets (fun s => Grounded PresentedAtHome s.history)
    (fun _ _ _ hgrounded hcond hstep =>
      presentedAtHome_move hgrounded hcond (move_of_authStep hstep))
    ls Grounded.nil hhome hrun

end Steps

/-! ## The address in a token -/

/-- The tokens of an entry carry the address of its peer. -/
def HandedHome (env : AuthEnv Ip) (event : AuthEvent Ip) : Prop :=
  ∀ signed ∈ event.signed, ∃ ip, event.peer = some ip ∧ signed.claims.clientIp = env.ips.toText ip

/-- A presented token that an entry handed to its own peer comes from the address in it. -/
theorem peer_of_presented {earlier event : AuthEvent Ip} {token : DeSerClaims}
    {claims : Claims Ip} (hhanded : HandedHome env earlier)
    (hsigned : token ∈ earlier.signed.map (·.claims)) (hpeer : earlier.peer = event.peer)
    (hparsed : Claims.ofDeSer env.calendar env.ips token = .ok claims) :
    event.peer = some claims.clientIp := by
  obtain ⟨signed, hmem, rfl⟩ := List.mem_map.mp hsigned
  obtain ⟨ip, hip, htext⟩ := hhanded signed hmem
  obtain ⟨hclient, -, -⟩ := Claims.ofDeSer_eq_ok hparsed
  rw [htext, env.ips.fromStr_toText, Option.some.injEq] at hclient
  rw [← hpeer, hip, hclient]

/-- What an entry presents was handed out by an earlier entry to the same peer. -/
theorem exists_issuer (hsigned : Grounded PresentedSigned history)
    (hhome : Grounded PresentedAtHome history) {i : Nat} {event : AuthEvent Ip}
    (hevent : history[i]? = some event) {token : DeSerClaims} (htoken : event.presented = some token) :
    ∃ k < i, ∃ earlier, history[k]? = some earlier ∧ token ∈ earlier.signed.map (·.claims) ∧
      earlier.peer = event.peer := by
  obtain ⟨signed, hmem, hclaims⟩ := List.mem_map.mp (hsigned.justified_at hevent token htoken)
  obtain ⟨k, earlier, hk, hearlier⟩ := mem_signedTokens_iff.mp hmem
  have htokenEarlier : token ∈ earlier.signed.map (·.claims) :=
    List.mem_map.mpr ⟨signed, hearlier, hclaims⟩
  obtain ⟨hlt, hat⟩ := getElem?_take_eq_some hk
  exact ⟨k, hlt, earlier, hat, htokenEarlier,
    hhome.justified_at hevent token htoken earlier (List.mem_of_getElem? hk) htokenEarlier⟩

/-- Every token is handed to the address in its claims. -/
theorem handedHome_of_record (hjustified : Grounded (Justified env) history)
    (hsigned : Grounded PresentedSigned history) (hhome : Grounded PresentedAtHome history) :
    ∀ (i : Nat) {event : AuthEvent Ip}, history[i]? = some event → HandedHome env event := by
  intro i
  induction i using Nat.strongRecOn with
  | ind i ih =>
    intro event hevent
    have hjust := hjustified.justified_at hevent
    cases event with
    | redeemed redemption =>
      obtain ⟨record, hpush, hredeems⟩ := hjust
      have hauthorized : record.Authorized env :=
        hjustified.justified_at (getElem?_take_eq_some hpush).2
      obtain ⟨haccess, hrefresh⟩ := hredeems.carries hauthorized
      intro signed hmem
      refine ⟨redemption.ip, hredeems.remoteAddr_eq.trans (by rw [hredeems.ip_eq]), ?_⟩
      simp only [AuthEvent.signed, List.mem_cons, List.not_mem_nil, or_false] at hmem
      rcases hmem with rfl | rfl
      · exact haccess.1
      · exact hrefresh.1
    | refreshed refresh =>
      -- the token it was refreshed from came from the address in it
      obtain ⟨claims, hrenews⟩ := hjust
      obtain ⟨k, hk, earlier, hearlier, hpresented, hpeer⟩ :=
        exists_issuer hsigned hhome hevent rfl
      intro signed hmem
      simp only [AuthEvent.signed, List.mem_singleton] at hmem
      refine ⟨claims.clientIp,
        peer_of_presented (ih k hk hearlier) hpresented hpeer hrenews.parsed, ?_⟩
      rw [hmem, hrenews.issued_eq]
      rfl
    | _ =>
      intro signed hmem
      cases hmem

/-- In every run in which no forged token verifies and every token is presented only from
the address it was handed to, every request that is let through and every refresh that
succeeds comes from the address in the claims of the token it presents. -/
theorem tokens_bound_to_address [DecidableEq Ip] (env : AuthEnv Ip)
    (decode : List UInt8 → Option VersionedTransaction) (cfg : LoopConfig) (health : HealthState)
    (auther : Pubkey → Bool) (ls : List (AuthLabel Ip)) (s : AuthState Ip)
    (hunforged : StepsMeet (authStep env decode cfg) (Unforged env) (AuthState.init health auther) ls)
    (hhome : StepsMeet (authStep env decode cfg) (PresentedWhereIssued env)
      (AuthState.init health auther) ls)
    (hrun : runSteps (authStep env decode cfg) (AuthState.init health auther) ls = some s) :
    ∀ event ∈ s.history, FromOwnAddress env event := by
  have hjustified := (AuthInv.run hrun).grounded
  have hsigned := presentedSigned_run hunforged hrun
  have hatHome := presentedAtHome_run hhome hrun
  intro event hmem token htoken claims hparsed
  obtain ⟨i, hi⟩ := List.mem_iff_getElem?.mp hmem
  obtain ⟨k, -, earlier, hearlier, hpresented, hpeer⟩ := exists_issuer hsigned hatHome hi htoken
  exact peer_of_presented (handedHome_of_record hjustified hsigned hatHome k hearlier) hpresented
    hpeer hparsed

theorem tokens_bound_to_address_refreshedClient :
    ∃ s, runSteps (defaultStep [1800, 180000, 3000]) clientStart
        (loginRun ++ [refreshLabel 180000 1200] ++ subscribeRun 3000 1300) = some s ∧
      s.loopState.packetSubscriptions.keys = [uniformKey 7] ∧
      ∀ event ∈ s.history,
        FromOwnAddress (clientEnv [1800, 180000, 3000] 1800 180000) event := by
  have hrun : (runSteps (defaultStep [1800, 180000, 3000]) clientStart
      (loginRun ++ [refreshLabel 180000 1200] ++ subscribeRun 3000 1300)).map
        (fun s => s.loopState.packetSubscriptions.keys) = some [uniformKey 7] := by decide
  have hunforged : StepsMeet (defaultStep [1800, 180000, 3000])
      (Unforged (clientEnv [1800, 180000, 3000] 1800 180000)) clientStart
      (loginRun ++ [refreshLabel 180000 1200] ++ subscribeRun 3000 1300) := by
    unfold StepsMeet
    decide
  have hhome : StepsMeet (defaultStep [1800, 180000, 3000])
      (PresentedWhereIssued (clientEnv [1800, 180000, 3000] 1800 180000)) clientStart
      (loginRun ++ [refreshLabel 180000 1200] ++ subscribeRun 3000 1300) := by
    unfold StepsMeet
    decide
  obtain ⟨s, hs, hkeys⟩ := Option.map_eq_some_iff.mp hrun
  exact ⟨s, hs, hkeys, tokens_bound_to_address _ _ _ _ _ _ s hunforged hhome hs⟩

/-- The token of the first address is presented from the second. -/
def elsewhereRun : List (AuthLabel Peer) :=
  loginRun ++
    [ .intercept 3 (second 10) ⟨some .second, some (.text ("Bearer " ++ tokenText 1800))⟩
    , .refresh 4 ⟨second 10, second 10, by simp⟩ ⟨some .second, tokenText 180000⟩ ]

/-- The peer and the address in the claims, for the entries that present a token. -/
def presentations (env : AuthEnv Ip) (history : List (AuthEvent Ip)) : List (Option Ip × Option Ip) :=
  history.filterMap fun event => event.presented.map fun token =>
    (event.peer, ((Claims.ofDeSer env.calendar env.ips token).toOption).map (·.clientIp))

theorem presentations_fromOwnAddress {presentation : Option Ip × Option Ip}
    (hown : ∀ event ∈ history, FromOwnAddress env event)
    (hmem : presentation ∈ presentations env history) :
    ∀ ip ∈ presentation.2, presentation.1 = some ip := by
  obtain ⟨event, hevent, hpresented⟩ := List.mem_filterMap.mp hmem
  obtain ⟨token, htoken, rfl⟩ := Option.map_eq_some_iff.mp hpresented
  intro ip hip
  obtain ⟨claims, hclaims, rfl⟩ := Option.map_eq_some_iff.mp hip
  refine hown event hevent token htoken claims ?_
  cases hparsed : Claims.ofDeSer env.calendar env.ips token with
  | error failure =>
    rw [hparsed] at hclaims
    cases hclaims
  | ok parsed =>
    rw [hparsed] at hclaims
    cases hclaims
    rfl

/-- A token of one address serves another, at the interceptor and for a refresh. -/
theorem token_used_elsewhere :
    ¬ ∀ (env : AuthEnv Peer) (cfg : LoopConfig) (health : HealthState) (auther : Pubkey → Bool)
      (ls : List (AuthLabel Peer)) (s : AuthState Peer),
      StepsMeet (authStep env (fun _ => none) cfg) (Unforged env) (AuthState.init health auther) ls →
      runSteps (authStep env (fun _ => none) cfg) (AuthState.init health auther) ls = some s →
      ∀ event ∈ s.history, FromOwnAddress env event := by
  intro hall
  have hrun : (runSteps (defaultStep [1800, 180000, 1810]) clientStart elsewhereRun).map
      (fun s => presentations (clientEnv [1800, 180000, 1810] 1800 180000) s.history) =
      some [(some .second, some .first), (some .second, some .first)] := by decide
  have hunforged : StepsMeet (defaultStep [1800, 180000, 1810])
      (Unforged (clientEnv [1800, 180000, 1810] 1800 180000)) clientStart elsewhereRun := by
    unfold StepsMeet
    decide
  obtain ⟨s, hs, hpresentations⟩ := Option.map_eq_some_iff.mp hrun
  have hown := hall _ _ _ _ elsewhereRun s hunforged hs
  have hmem : (some Peer.second, some Peer.first) ∈
      presentations (clientEnv [1800, 180000, 1810] 1800 180000) s.history := by
    rw [hpresentations]
    exact List.mem_cons_self
  exact absurd (presentations_fromOwnAddress hown hmem .first rfl) (by decide)

end FlowraRelayer.Relayer
