/-
  Relayer/AuthSingleUse.lean --- how often one challenge is redeemed.

  `generate_auth_tokens` reads the challenge under one lock and removes it under
  another.  Two requests that carry the same signed challenge can both read it before
  either removes it, and both return tokens (`challenge_redeemed_twice`).

  If no request reads a challenge that another request has validated and not yet
  removed, each push is redeemed at most once (`challenge_single_use`).  The invariant
  behind it: a redeemed challenge is in nobody's hands any more, neither in the store
  nor with a request that still waits for `remove`.
-/
import FlowraRelayer.Relayer.AuthSoundness

set_option autoImplicit false

namespace FlowraRelayer.Relayer

open FlowraRelayer.Foundation
open FlowraRelayer.Solana

variable {Ip : Type}

/-! ## Redemptions that return -/

/-- The push an entry returns tokens for. -/
def AuthEvent.returnsTokensFor : AuthEvent Ip → Option Nat
  | .replied _ (.tokens push _ _ _) => some push
  | _ => none

/-- Entry `i` is the `Ok` of a `generate_auth_tokens` that redeemed push `push`. -/
def ReturnedFor (history : List (AuthEvent Ip)) (push i : Nat) : Prop :=
  history[i]?.bind AuthEvent.returnsTokensFor = some push

/-- Every push is redeemed by at most one request that returns `Ok`. -/
def SingleUse (history : List (AuthEvent Ip)) : Prop :=
  ∀ push i j, ReturnedFor history push i → ReturnedFor history push j → i = j

/-- The push a request has validated and is about to remove. -/
def Call.validated : Call Ip → Option Nat
  | .tokensRemove _ push _ _ => some push
  | _ => none

/-- The address whose challenge a request for tokens is about to read. -/
def Call.readsFor : Call Ip → Option Ip
  | .tokensGet ip _ _ => some ip
  | _ => none

/-- The request for tokens that a step lets read the store. -/
def AuthLabel.reader : AuthLabel Ip → Option Nat
  | .tokensGet id _ => some id
  | _ => none

section Condition

variable [DecidableEq Ip]

/-- A request for tokens does not read a challenge that another request has validated
and not yet removed. -/
def NoOverlap (s : AuthState Ip) (label : AuthLabel Ip) : Prop :=
  ∀ id ∈ label.reader, ∀ ip ∈ (s.calls.lookup id).bind Call.readsFor,
    ∀ entry ∈ s.challenges.lookup ip, ∀ call ∈ s.calls.entries,
      call.2.validated ≠ some entry.push

instance (s : AuthState Ip) (label : AuthLabel Ip) : Decidable (NoOverlap s label) :=
  inferInstanceAs (Decidable (∀ id ∈ label.reader,
    ∀ ip ∈ (s.calls.lookup id).bind Call.readsFor, ∀ entry ∈ s.challenges.lookup ip,
      ∀ call ∈ s.calls.entries, call.2.validated ≠ some entry.push))

end Condition

theorem returnedFor_append {history : List (AuthEvent Ip)} {event : AuthEvent Ip} {push i : Nat}
    (h : ReturnedFor (history ++ [event]) push i) :
    ReturnedFor history push i ∨ i = history.length ∧ event.returnsTokensFor = some push := by
  obtain ⟨found, hfound, hpush⟩ := Option.bind_eq_some_iff.mp h
  rcases getElem?_concat_cases hfound with hold | ⟨hi, rfl⟩
  · exact .inl (Option.bind_eq_some_iff.mpr ⟨found, hold, hpush⟩)
  · exact .inr ⟨hi, hpush⟩

/-- An entry that returns no tokens adds no redemption. -/
theorem returnedFor_of_append {history : List (AuthEvent Ip)} {event : AuthEvent Ip}
    (hevent : event.returnsTokensFor = none) {push i : Nat}
    (h : ReturnedFor (history ++ [event]) push i) : ReturnedFor history push i := by
  rcases returnedFor_append h with hold | ⟨-, hnew⟩
  · exact hold
  · rw [hevent] at hnew
    cases hnew

/-- A redemption that returned is of a push that stands in the record. -/
theorem returnedFor_lt {env : AuthEnv Ip} {history : List (AuthEvent Ip)}
    (hgrounded : Grounded (Justified env) history) {push i : Nat}
    (h : ReturnedFor history push i) : push < history.length := by
  obtain ⟨event, hevent, hpush⟩ := Option.bind_eq_some_iff.mp h
  have hjust := hgrounded.justified_at hevent
  unfold AuthEvent.returnsTokensFor at hpush
  split at hpush
  · cases hpush
    obtain ⟨record, hrecord⟩ := hjust
    obtain ⟨-, hpushed⟩ := getElem?_take_eq_some hrecord
    exact (List.getElem?_eq_some_iff.mp hpushed).1
  · cases hpush

theorem Call.JustArrived.validated {env : AuthEnv Ip} {call : Call Ip}
    (h : call.JustArrived env) : call.validated = none := by
  cases call with
  | tokensRemove ip push access refresh => exact False.elim h
  | _ => rfl

/-! ## The invariant -/

variable [DecidableEq Ip]

/-- A redeemed challenge is in nobody's hands, and a validated one in one request's. -/
structure UseInv (s : AuthState Ip) : Prop where
  once : SingleUse s.history
  spentStore : ∀ {push i}, ReturnedFor s.history push i →
    ∀ {ip entry}, s.challenges.lookup ip = some entry → entry.push ≠ push
  spentCalls : ∀ {push i}, ReturnedFor s.history push i →
    ∀ {id call}, s.calls.lookup id = some call → call.validated ≠ some push
  exclusive : ∀ {push id id' call call'}, s.calls.lookup id = some call →
    s.calls.lookup id' = some call' → call.validated = some push →
    call'.validated = some push → id = id'

namespace UseInv

variable {env : AuthEnv Ip} {decode : List UInt8 → Option VersionedTransaction} {cfg : LoopConfig}
  {s s' : AuthState Ip} {label : AuthLabel Ip}

theorem init (health : HealthState) (auther : Pubkey → Bool) :
    UseInv (AuthState.init health auther : AuthState Ip) where
  once := by
    intro push i j h
    simp [AuthState.init, ReturnedFor] at h
  spentStore := by
    intro push i h
    simp [AuthState.init, ReturnedFor] at h
  spentCalls := by
    intro push i h
    simp [AuthState.init, ReturnedFor] at h
  exclusive := by
    intro push id id' call call' h
    simp [AuthState.init] at h

/-- A step that returns no tokens, validates nothing and stores at most a challenge with a
new number keeps the invariant. -/
theorem frame (huse : UseInv s) (hinv : AuthInv env s)
    (hreturned : ∀ {push i}, ReturnedFor s'.history push i → ReturnedFor s.history push i)
    (hstore : ∀ {ip entry}, s'.challenges.lookup ip = some entry →
      s.challenges.lookup ip = some entry ∨ entry.push = s.history.length)
    (hcalls : ∀ {id call push}, s'.calls.lookup id = some call → call.validated = some push →
      s.calls.lookup id = some call) : UseInv s' where
  once := fun push i j hi hj => huse.once push i j (hreturned hi) (hreturned hj)
  spentStore := by
    intro push i h ip entry hentry
    rcases hstore hentry with hold | hnew
    · exact huse.spentStore (hreturned h) hold
    · have hlt := returnedFor_lt hinv.grounded (hreturned h)
      omega
  spentCalls := by
    intro push i h id call hcall hvalidated
    exact huse.spentCalls (hreturned h) (hcalls hcall hvalidated) hvalidated
  exclusive := by
    intro push id id' call call' hcall hcall' hpush hpush'
    exact huse.exclusive (hcalls hcall hpush) (hcalls hcall' hpush') hpush hpush'

/-- A request answers anything but tokens. -/
theorem settle (huse : UseInv s) (hinv : AuthInv env s) {id : Nat} {reply : Reply Ip}
    (hreply : (AuthEvent.replied id reply).returnsTokensFor = none) :
    UseInv (s.settle id reply) :=
  huse.frame hinv (returnedFor_of_append hreply) .inl fun h _ => (lookup_erase_cases h).2

/-- A request goes on to wait without having validated anything. -/
theorem wait (huse : UseInv s) (hinv : AuthInv env s) {id : Nat} {call : Call Ip}
    (hnone : call.validated = none) : UseInv (s.wait id call) := by
  refine huse.frame hinv (fun h => h) .inl ?_
  intro id' call' push h hpush
  rcases lookup_insert_cases h with ⟨-, rfl⟩ | hold
  · rw [hnone] at hpush
    cases hpush
  · exact hold

/-- An entry that returns no tokens is added to the record. -/
theorem log (huse : UseInv s) (hinv : AuthInv env s) {event : AuthEvent Ip}
    (hevent : event.returnsTokensFor = none) : UseInv (s.log event) :=
  huse.frame hinv (returnedFor_of_append hevent) .inl fun h _ => h

/-- A push stores a challenge under a new number. -/
theorem pushChallenge (huse : UseInv s) (hinv : AuthInv env s) (pending : PendingPush Ip) :
    UseInv (s.pushChallenge pending) := by
  refine huse.frame hinv (returnedFor_of_append rfl) ?_ fun h _ => h
  intro ip entry h
  rcases lookup_insert_cases h with ⟨-, rfl⟩ | hold
  · exact .inr rfl
  · exact .inl hold

/-- A request validates the stored challenge, which no other request holds. -/
theorem redeemed (huse : UseInv s) {id : Nat} {ip : Ip} {entry : StoredChallenge Ip}
    {redemption : Redemption Ip} {access refresh : SignedToken}
    (hstored : s.challenges.lookup ip = some entry)
    (hfree : ∀ call ∈ s.calls.entries, call.2.validated ≠ some entry.push) :
    UseInv ((s.log (.redeemed redemption)).wait id
      (.tokensRemove ip entry.push access refresh)) := by
  have hreturned : ∀ {push i}, ReturnedFor (s.history ++ [.redeemed redemption]) push i →
      ReturnedFor s.history push i := returnedFor_of_append rfl
  have hothers : ∀ {id' call}, s.calls.lookup id' = some call →
      call.validated ≠ some entry.push :=
    fun h => hfree ⟨_, _⟩ (AList.mem_lookup_iff.mp h)
  refine ⟨fun push i j hi hj => huse.once push i j (hreturned hi) (hreturned hj), ?_, ?_, ?_⟩
  · intro push i h ip' entry' hentry
    exact huse.spentStore (hreturned h) hentry
  · intro push i h id' call hcall
    rcases lookup_insert_cases hcall with ⟨-, rfl⟩ | hold
    · have hne := huse.spentStore (hreturned h) hstored
      exact fun heq => hne (Option.some.inj heq)
    · exact huse.spentCalls (hreturned h) hold
  · intro push id₁ id₂ call₁ call₂ hcall₁ hcall₂ hpush₁ hpush₂
    rcases lookup_insert_cases hcall₁ with ⟨rfl, rfl⟩ | hold₁ <;>
      rcases lookup_insert_cases hcall₂ with ⟨rfl, rfl⟩ | hold₂
    · rfl
    · cases hpush₁
      exact absurd hpush₂ (hothers hold₂)
    · cases hpush₂
      exact absurd hpush₁ (hothers hold₁)
    · exact huse.exclusive hold₁ hold₂ hpush₁ hpush₂

/-- A request removes the challenge it validated and returns. -/
theorem removed (huse : UseInv s) (hinv : AuthInv env s) {id : Nat} {now : Int} {ip : Ip}
    {push : Nat} {access refresh : SignedToken}
    (hcall : s.calls.lookup id = some (.tokensRemove ip push access refresh)) :
    UseInv ({ s with challenges := s.challenges.remove ip }.settle id
      (.tokens push now access.token refresh.token)) := by
  obtain ⟨record, hrecord, hip⟩ := hinv.calls id _ hcall
  refine ⟨?_, ?_, ?_, ?_⟩
  · intro push' i j hi hj
    rcases returnedFor_append hi with holdi | ⟨hi, hnewi⟩ <;>
      rcases returnedFor_append hj with holdj | ⟨hj, hnewj⟩
    · exact huse.once push' i j holdi holdj
    · exact absurd hnewj (huse.spentCalls holdi hcall)
    · exact absurd hnewi (huse.spentCalls holdj hcall)
    · rw [hi, hj]
  · intro push' i h ip' entry hentry
    obtain ⟨hne, hold⟩ := lookup_erase_cases hentry
    rcases returnedFor_append h with hreturned | ⟨-, hnew⟩
    · exact huse.spentStore hreturned hold
    · -- the challenge that was removed is stored under the address of its push only
      intro heq
      obtain ⟨record', hrecord', hip', -⟩ := hinv.stored ip' entry hold
      cases hnew
      rw [heq, hrecord] at hrecord'
      cases hrecord'
      exact hne (hip'.symm.trans hip)
  · intro push' i h id' call hcall'
    obtain ⟨hne, hold⟩ := lookup_erase_cases hcall'
    rcases returnedFor_append h with hreturned | ⟨-, hnew⟩
    · exact huse.spentCalls hreturned hold
    · cases hnew
      exact fun hvalidated => hne (huse.exclusive hold hcall hvalidated rfl)
  · intro push' id₁ id₂ call₁ call₂ hcall₁ hcall₂
    exact huse.exclusive (lookup_erase_cases hcall₁).2 (lookup_erase_cases hcall₂).2

/-- Every move without overlap keeps the invariant. -/
theorem move (huse : UseInv s) (hinv : AuthInv env s) (hoverlap : NoOverlap s label)
    (hmove : Move env decode cfg s label s') : UseInv s' := by
  cases hmove with
  | failed id failure => exact huse.settle hinv rfl
  | waiting id hcall => exact huse.wait hinv hcall.validated
  | reused hcall hdecision => exact huse.settle hinv rfl
  | made hcall hdecision => exact huse.wait hinv rfl
  | pushed hcall =>
    exact (huse.pushChallenge hinv _).settle (hinv.pushChallenge (hinv.calls _ _ hcall)) rfl
  | @redeemed id now ip pubkey req entry access refresh hcall hstored hchecks =>
    have hreads : (s.calls.lookup id).bind Call.readsFor = some ip := by rw [hcall]; rfl
    exact huse.redeemed hstored (hoverlap id rfl ip hreads entry hstored)
  | removed hcall => exact huse.removed hinv hcall
  | refreshed hchecks =>
    refine huse.frame hinv ?_ .inl fun h _ => (lookup_erase_cases h).2
    exact fun h => returnedFor_of_append rfl (returnedFor_of_append rfl h)
  | swept hswept =>
    refine huse.frame hinv (fun h => h) ?_ fun h _ => h
    exact fun h => .inl (AuthChallenges.lookup_of_removeAllExpired _ hswept h)
  | accepted hchecks =>
    refine huse.frame hinv (returnedFor_of_append rfl) .inl ?_
    intro id' call push h hpush
    rcases lookup_insert_cases h with ⟨-, rfl⟩ | hold
    · cases hpush
    · exact hold
  | subscribed hcall hchecks =>
    exact huse.frame hinv (returnedFor_of_append rfl) .inl fun h _ => (lookup_erase_cases h).2
  | abandoned id =>
    exact huse.frame hinv (fun h => h) .inl fun h _ => (lookup_erase_cases h).2
  | _ => exact huse.frame hinv (fun h => h) .inl fun h _ => h

end UseInv

/-- In every run in which no request for tokens reads a challenge that another one has
validated and not yet removed, every challenge is redeemed at most once. -/
theorem challenge_single_use (env : AuthEnv Ip)
    (decode : List UInt8 → Option VersionedTransaction) (cfg : LoopConfig) (health : HealthState)
    (auther : Pubkey → Bool) (ls : List (AuthLabel Ip)) (s : AuthState Ip)
    (hoverlap : StepsMeet (authStep env decode cfg) NoOverlap (AuthState.init health auther) ls)
    (hrun : runSteps (authStep env decode cfg) (AuthState.init health auther) ls = some s) :
    SingleUse s.history := by
  have hboth := runSteps_invariant_of_meets (fun s => AuthInv env s ∧ UseInv s)
    (fun _ _ _ hinvs hcond hstep =>
      ⟨hinvs.1.move (move_of_authStep hstep),
        hinvs.2.move hinvs.1 hcond (move_of_authStep hstep)⟩)
    ls ⟨AuthInv.init health auther, UseInv.init health auther⟩ hoverlap hrun
  exact hboth.2.once

/-! ## Two requests with one challenge -/

/-- The client sends the signed challenge again after the first request has returned. -/
def replayRun : List (AuthLabel Peer) :=
  loginRun ++ [.tokensRequest 4 clientTokensRequest, .tokensGet 4 (second 6)]

theorem challenge_single_use_replay :
    ∃ s, runSteps (defaultStep [1800, 180000]) clientStart replayRun = some s ∧
      s.history.length = 5 ∧ SingleUse s.history := by
  have hrun : (runSteps (defaultStep [1800, 180000]) clientStart replayRun).map
      (fun s => s.history.length) = some 5 := by decide
  have hoverlap : StepsMeet (defaultStep [1800, 180000]) NoOverlap clientStart replayRun := by
    unfold StepsMeet
    decide
  obtain ⟨s, hs, hlength⟩ := Option.map_eq_some_iff.mp hrun
  exact ⟨s, hs, hlength, challenge_single_use _ _ _ _ _ _ s hoverlap hs⟩

/-- Both requests read the challenge before either removes it. -/
def raceRun : List (AuthLabel Peer) :=
  challengeRun ++
    [ .tokensRequest 1 clientTokensRequest
    , .tokensRequest 2 clientTokensRequest
    , .tokensGet 1 (second 5)
    , .tokensGet 2 (second 5)
    , .tokensRemove 1 (second 5)
    , .tokensRemove 2 (second 5) ]

/-- Two requests return tokens for one push. -/
theorem challenge_redeemed_twice :
    ¬ ∀ (ls : List (AuthLabel Peer)) (s : AuthState Peer),
      runSteps (defaultStep [1800, 180000]) clientStart ls = some s → SingleUse s.history := by
  intro hall
  have hrun : (runSteps (defaultStep [1800, 180000]) clientStart raceRun).map
      (fun s => s.history.map AuthEvent.returnsTokensFor) =
        some [none, none, none, none, some 0, some 0] := by decide
  obtain ⟨s, hs, hreturns⟩ := Option.map_eq_some_iff.mp hrun
  have hreturned : ∀ i, i = 4 ∨ i = 5 → ReturnedFor s.history 0 i := by
    intro i hi
    have hat : (s.history.map AuthEvent.returnsTokensFor)[i]? = some (some 0) := by
      rw [hreturns]
      rcases hi with rfl | rfl <;> rfl
    rw [List.getElem?_map, Option.map_eq_some_iff] at hat
    exact Option.bind_eq_some_iff.mpr hat
  have heq := hall raceRun s hs 0 4 5 (hreturned 4 (.inl rfl)) (hreturned 5 (.inr rfl))
  exact absurd heq (by decide)

end FlowraRelayer.Relayer
