/-
  Relayer/ChallengeStore.lean --- what becomes of a challenge between the request that
  stored it and the requests that come for it.

  Two properties of whole runs, and the schedules under which the code has them:

      expiry   `generate_auth_tokens` never looks at the expiry of the challenge it
               validates, so a challenge that no sweep has reached yet is redeemed
               although it has run out (`expired_challenge_redeemed`).  Requests that
               come while the challenge has time left, and are answered in that time,
               redeem only live ones (`redeemed_while_alive`).

      loss     `get_priority` and the write that follows it are two critical sections
               keyed by the address alone.  A second request in between replaces a
               challenge that was just returned (`challenge_overwritten`).  If no
               request reads an address for which another one is about to write, a
               challenge stays until it expires or is redeemed (`challenge_kept`).
-/
import FlowraRelayer.Relayer.AuthSingleUse

set_option autoImplicit false

namespace FlowraRelayer.Relayer

open FlowraRelayer.Foundation
open FlowraRelayer.Solana

variable {Ip : Type}

/-! ## Redeemed while alive -/

/-- Every `generate_auth_tokens` that returned `Ok` validated a challenge that expires
after the time of the return. -/
def RedeemedAlive (history : List (AuthEvent Ip)) : Prop :=
  ∀ id push now access refresh, .replied id (.tokens push now access refresh) ∈ history →
    ∃ record, history[push]? = some (.pushed record) ∧ now < record.challenge.expiresAtUtc

/-- The time at which a request read the challenge of push `push` and validated it. -/
def AuthEvent.readOf (push : Nat) : AuthEvent Ip → Option Int
  | .redeemed redemption => if redemption.push = push then some redemption.now else none
  | _ => none

/-- The times at which the challenge of push `push` was read and validated. -/
def readTimes (history : List (AuthEvent Ip)) (push : Nat) : List Int :=
  history.filterMap (AuthEvent.readOf push)

/-- The request for tokens that reads the store in a step, and when. -/
def AuthLabel.readsAt : AuthLabel Ip → Option (Nat × Int)
  | .tokensGet id now => some (id, now)
  | _ => none

/-- The request for tokens that returns in a step, and when. -/
def AuthLabel.returnsAt : AuthLabel Ip → Option (Nat × Int)
  | .tokensRemove id now => some (id, now)
  | _ => none

/-- What an entry of the record owes to the expiry of the challenge it is about, when
requests take at most `delay` from their read to their return. -/
def AliveWithin (delay : Nat) (before : List (AuthEvent Ip)) : AuthEvent Ip → Prop
  | .redeemed redemption =>
      ∃ record, before[redemption.push]? = some (.pushed record) ∧
        redemption.now + delay < record.challenge.expiresAtUtc
  | .replied _ (.tokens push now _ _) =>
      ∃ record, before[push]? = some (.pushed record) ∧ now < record.challenge.expiresAtUtc
  | _ => True

theorem mem_readTimes {history : List (AuthEvent Ip)} {push : Nat} {time : Int} :
    time ∈ readTimes history push ↔
      ∃ redemption, .redeemed redemption ∈ history ∧ redemption.push = push ∧
        redemption.now = time := by
  unfold readTimes
  rw [List.mem_filterMap]
  constructor
  · rintro ⟨event, hmem, hread⟩
    unfold AuthEvent.readOf at hread
    split at hread
    · rename_i redemption
      rw [Option.ite_none_right_eq_some, Option.some.injEq] at hread
      exact ⟨redemption, hmem, hread⟩
    · cases hread
  · rintro ⟨redemption, hmem, hpush, htime⟩
    refine ⟨.redeemed redemption, hmem, ?_⟩
    simp [AuthEvent.readOf, hpush, htime]

theorem redeemedAlive_of_grounded {delay : Nat} {history : List (AuthEvent Ip)}
    (hgrounded : Grounded (AliveWithin delay) history) : RedeemedAlive history := by
  intro id push now access refresh hmem
  obtain ⟨i, hi⟩ := List.mem_iff_getElem?.mp hmem
  obtain ⟨record, hpushed, halive⟩ := hgrounded.justified_at hi
  exact ⟨record, (getElem?_take_eq_some hpushed).2, halive⟩

section Alive

variable [DecidableEq Ip]

/-- A request for tokens reads the store while the challenge of its address has more
than `delay` left, and returns at most `delay` after a read of that challenge. -/
def ServedInTime (delay : Nat) (s : AuthState Ip) (label : AuthLabel Ip) : Prop :=
  (∀ reader ∈ label.readsAt, ∀ ip ∈ (s.calls.lookup reader.1).bind Call.readsFor,
    ∀ entry ∈ s.challenges.lookup ip, entry.challenge.isExpired (reader.2 + delay) = false) ∧
  ∀ returner ∈ label.returnsAt, ∀ push ∈ (s.calls.lookup returner.1).bind Call.validated,
    ∃ time ∈ readTimes s.history push, returner.2 ≤ time + delay

instance (delay : Nat) (s : AuthState Ip) (label : AuthLabel Ip) :
    Decidable (ServedInTime delay s label) :=
  inferInstanceAs (Decidable ((∀ reader ∈ label.readsAt,
    ∀ ip ∈ (s.calls.lookup reader.1).bind Call.readsFor, ∀ entry ∈ s.challenges.lookup ip,
      entry.challenge.isExpired (reader.2 + delay) = false) ∧
    ∀ returner ∈ label.returnsAt, ∀ push ∈ (s.calls.lookup returner.1).bind Call.validated,
      ∃ time ∈ readTimes s.history push, returner.2 ≤ time + delay))

variable {env : AuthEnv Ip} {decode : List UInt8 → Option VersionedTransaction} {cfg : LoopConfig}
  {s s' : AuthState Ip} {label : AuthLabel Ip}

/-- A read that is in time validates a challenge with more than `delay` left. -/
theorem aliveWithin_redeemed {delay : Nat} (hinv : AuthInv env s) {ip : Ip} {pubkey : Pubkey}
    {req : TokensRequest Ip} {now : Int} {entry : StoredChallenge Ip} {access refresh : SignedToken}
    (hstored : s.challenges.lookup ip = some entry)
    (htime : entry.challenge.isExpired (now + delay) = false) :
    AliveWithin delay s.history
      (.redeemed { push := entry.push, ip, pubkey, request := req, now, access, refresh }) := by
  obtain ⟨record, hpushed, -, hchallenge⟩ := hinv.stored ip entry hstored
  refine ⟨record, hpushed, ?_⟩
  rw [hchallenge]
  simpa [AuthChallenge.isExpired] using htime

omit [DecidableEq Ip] in
/-- A return that is in time is of a challenge that is still alive. -/
theorem aliveWithin_returned {delay : Nat} (hgrounded : Grounded (AliveWithin delay) s.history)
    {id push : Nat} {now time : Int} {access refresh : PbToken}
    (hread : time ∈ readTimes s.history push) (htime : now ≤ time + delay) :
    AliveWithin delay s.history (.replied id (.tokens push now access refresh)) := by
  obtain ⟨redemption, hmem, rfl, rfl⟩ := mem_readTimes.mp hread
  obtain ⟨i, hi⟩ := List.mem_iff_getElem?.mp hmem
  obtain ⟨record, hpushed, halive⟩ := hgrounded.justified_at hi
  exact ⟨record, (getElem?_take_eq_some hpushed).2, by omega⟩

omit [DecidableEq Ip] in
theorem aliveWithin_of_quiet {delay : Nat} {before : List (AuthEvent Ip)} {event : AuthEvent Ip}
    (h : event.quiet = true) : AliveWithin delay before event := by
  cases event with
  | redeemed redemption => cases h
  | replied id reply =>
    cases reply with
    | tokens push now access refresh => cases h
    | _ => trivial
  | _ => trivial

/-- Every move of requests that are served in time keeps the record that way. -/
theorem aliveWithin_move {delay : Nat} (hgrounded : Grounded (AliveWithin delay) s.history)
    (hinv : AuthInv env s) (hintime : ServedInTime delay s label)
    (hmove : Move env decode cfg s label s') : Grounded (AliveWithin delay) s'.history := by
  obtain ⟨events, hhistory, hentries⟩ := hmove.entries
  rw [hhistory]
  cases hentries with
  | quiet hevents =>
    exact hgrounded.append fun before event hmem => aliveWithin_of_quiet (hevents event hmem)
  | @redeemed id now ip pubkey req entry access refresh hcall hstored hchecks =>
    have hreads : (s.calls.lookup id).bind Call.readsFor = some ip := by rw [hcall]; rfl
    exact hgrounded.concat
      (aliveWithin_redeemed hinv hstored (hintime.1 (id, now) rfl ip hreads entry hstored))
  | @removed id now ip push access refresh hcall =>
    have hvalidated : (s.calls.lookup id).bind Call.validated = some push := by rw [hcall]; rfl
    obtain ⟨time, hread, htime⟩ := hintime.2 (id, now) rfl push hvalidated
    exact hgrounded.concat (aliveWithin_returned hgrounded hread htime)
  | refreshed hchecks =>
    rw [List.append_cons]
    exact .concat (.concat hgrounded (by trivial)) (by trivial)
  | accepted hchecks => exact hgrounded.concat trivial

end Alive

/-- In every run in which requests for tokens read the store while the challenge of their
address has more than `delay` left, and return within `delay` of such a read, no challenge
is redeemed at or after its expiry. -/
theorem redeemed_while_alive [DecidableEq Ip] (delay : Nat) (env : AuthEnv Ip)
    (decode : List UInt8 → Option VersionedTransaction) (cfg : LoopConfig) (health : HealthState)
    (auther : Pubkey → Bool) (ls : List (AuthLabel Ip)) (s : AuthState Ip)
    (hintime : StepsMeet (authStep env decode cfg) (ServedInTime delay)
      (AuthState.init health auther) ls)
    (hrun : runSteps (authStep env decode cfg) (AuthState.init health auther) ls = some s) :
    RedeemedAlive s.history := by
  have hboth := runSteps_invariant_of_meets
    (fun s => AuthInv env s ∧ Grounded (AliveWithin delay) s.history)
    (fun _ _ _ hinvs hcond hstep =>
      ⟨hinvs.1.move (move_of_authStep hstep),
        aliveWithin_move hinvs.2 hinvs.1 hcond (move_of_authStep hstep)⟩)
    ls ⟨AuthInv.init health auther, .nil⟩ hintime hrun
  exact redeemedAlive_of_grounded hboth.2

/-- A login in which the request for tokens takes three seconds. -/
def slowLoginRun : List (AuthLabel Peer) :=
  challengeRun ++
    [ .tokensRequest 1 clientTokensRequest
    , .tokensGet 1 (second 1790)
    , .tokensRemove 1 (second 1793) ]

theorem redeemed_while_alive_slowLogin :
    ∃ s, runSteps (defaultStep [1800, 180000]) clientStart slowLoginRun = some s ∧
      s.history.length = 4 ∧ RedeemedAlive s.history := by
  have hrun : (runSteps (defaultStep [1800, 180000]) clientStart slowLoginRun).map
      (fun s => s.history.length) = some 4 := by decide
  have hintime : StepsMeet (defaultStep [1800, 180000]) (ServedInTime (3 * nanosPerSecond))
      clientStart slowLoginRun := by
    unfold StepsMeet
    decide
  obtain ⟨s, hs, hlength⟩ := Option.map_eq_some_iff.mp hrun
  exact ⟨s, hs, hlength, redeemed_while_alive (3 * nanosPerSecond) _ _ _ _ _ _ s hintime hs⟩

/-- The challenge of second 0 expires at second 1800.  A sweep at second 1700 leaves it
alone, and the client comes at second 1850, before the next sweep. -/
def lateLoginRun : List (AuthLabel Peer) :=
  challengeRun ++
    [ .sweep [(.first, second 1700)]
    , .tokensRequest 1 clientTokensRequest
    , .tokensGet 1 (second 1850)
    , .tokensRemove 1 (second 1850) ]

/-- What a reply of tokens and the push it is for say about time: the expiry of the
challenge and the time of the return. -/
def AuthEvent.redemptionTimes (history : List (AuthEvent Ip)) :
    AuthEvent Ip → Option (Option Int × Int)
  | .replied _ (.tokens push now _ _) =>
      some (history[push]?.bind fun event =>
        match event with
        | .pushed record => some record.challenge.expiresAtUtc
        | _ => none, now)
  | _ => none

/-- Tokens are returned for a challenge that has expired. -/
theorem expired_challenge_redeemed :
    ¬ ∀ (ls : List (AuthLabel Peer)) (s : AuthState Peer),
      runSteps (defaultStep [1800, 180000]) clientStart ls = some s →
        RedeemedAlive s.history := by
  intro hall
  have hrun : (runSteps (defaultStep [1800, 180000]) clientStart lateLoginRun).map
      (fun s => s.history.filterMap (AuthEvent.redemptionTimes s.history)) =
        some [(some (second 1800), second 1850)] := by decide
  obtain ⟨s, hs, htimes⟩ := Option.map_eq_some_iff.mp hrun
  have hmem : (some (second 1800), second 1850) ∈
      s.history.filterMap (AuthEvent.redemptionTimes s.history) := by
    rw [htimes]
    exact List.mem_cons_self
  obtain ⟨event, hevent, hread⟩ := List.mem_filterMap.mp hmem
  unfold AuthEvent.redemptionTimes at hread
  split at hread
  · rename_i id push now access refresh
    obtain ⟨record, hpushed, halive⟩ := hall lateLoginRun s hs id push now access refresh hevent
    rw [hpushed] at hread
    simp only [Option.bind_some, Option.some.injEq, Prod.mk.injEq] at hread
    obtain ⟨hexpiry, hnow⟩ := hread
    rw [hexpiry, hnow] at halive
    exact absurd halive (by decide)
  · cases hread

/-! ## Kept until it expires or is redeemed -/

/-- The challenge an entry returns: the request, the address and the text. -/
def AuthEvent.returnsChallenge : AuthEvent Ip → Option (Nat × Ip × String)
  | .replied id (.challenge ip c) => some (id, ip, c)
  | _ => none

theorem mem_of_returnsChallenge {history : List (AuthEvent Ip)} {id : Nat} {ip : Ip} {c : String}
    (h : (id, ip, c) ∈ history.filterMap AuthEvent.returnsChallenge) :
    .replied id (.challenge ip c) ∈ history := by
  obtain ⟨event, hmem, hreturns⟩ := List.mem_filterMap.mp h
  unfold AuthEvent.returnsChallenge at hreturns
  split at hreturns
  · cases hreturns
    exact hmem
  · cases hreturns

/-- Every clock reading a step takes. -/
def AuthLabel.readings : AuthLabel Ip → List Int
  | .challengeGet _ clock _ => [clock.stored, clock.access, clock.refresh, clock.challenge]
  | .tokensGet _ now | .tokensRemove _ now | .intercept _ now _ => [now]
  | .refresh _ clock _ => [clock.check, clock.issue]
  | .sweep readings => readings.map Prod.snd
  | _ => []

/-- Some clock reading of the steps finds the challenge expired. -/
def HasExpired (ls : List (AuthLabel Ip)) (challenge : AuthChallenge Ip) : Prop :=
  ∃ now ∈ ls.flatMap AuthLabel.readings, challenge.isExpired now = true

/-- The address a request is about to look up. -/
def Call.looksUp : Call Ip → Option Ip
  | .challengeGet ip _ => some ip
  | .tokensGet ip _ _ => some ip
  | _ => none

/-- The address whose entry a request is about to write or to remove. -/
def Call.writesTo : Call Ip → Option Ip
  | .challengePush pending => some pending.ip
  | .tokensRemove ip _ _ _ => some ip
  | _ => none

/-- The request that a step lets look up its address. -/
def AuthLabel.getter : AuthLabel Ip → Option Nat
  | .challengeGet id _ _ => some id
  | .tokensGet id _ => some id
  | _ => none

theorem HasExpired.append {ls : List (AuthLabel Ip)} {challenge : AuthChallenge Ip}
    (h : HasExpired ls challenge) (more : List (AuthLabel Ip)) :
    HasExpired (ls ++ more) challenge := by
  obtain ⟨now, hmem, hexpired⟩ := h
  refine ⟨now, ?_, hexpired⟩
  rw [List.flatMap_append]
  exact List.mem_append_left _ hmem

/-- A reading of the last step. -/
theorem hasExpired_concat {ls : List (AuthLabel Ip)} {label : AuthLabel Ip}
    {challenge : AuthChallenge Ip} {now : Int} (hmem : now ∈ label.readings)
    (hexpired : challenge.isExpired now = true) : HasExpired (ls ++ [label]) challenge := by
  refine ⟨now, ?_, hexpired⟩
  rw [List.flatMap_append]
  exact List.mem_append_right _ (by simpa using hmem)

theorem Call.JustArrived.writesTo {env : AuthEnv Ip} {call : Call Ip}
    (h : call.JustArrived env) : call.writesTo = none := by
  cases call with
  | challengePush pending => exact False.elim h
  | tokensRemove ip push access refresh => exact False.elim h
  | _ => rfl

variable [DecidableEq Ip]

/-- A request does not look up an address for which another request, having looked it up,
is about to write. -/
def Undisturbed (s : AuthState Ip) (label : AuthLabel Ip) : Prop :=
  ∀ id ∈ label.getter, ∀ ip ∈ (s.calls.lookup id).bind Call.looksUp,
    ∀ call ∈ s.calls.entries, call.2.writesTo ≠ some ip

instance (s : AuthState Ip) (label : AuthLabel Ip) : Decidable (Undisturbed s label) :=
  inferInstanceAs (Decidable (∀ id ∈ label.getter,
    ∀ ip ∈ (s.calls.lookup id).bind Call.looksUp, ∀ call ∈ s.calls.entries,
      call.2.writesTo ≠ some ip))

/-- No request is about to replace a challenge that it has not found expired. -/
def ReplacesOnlyExpired (s : AuthState Ip) : Prop :=
  ∀ {id pending}, s.calls.lookup id = some (.challengePush pending) →
    ∀ {entry}, s.challenges.lookup pending.ip = some entry →
      entry.challenge.isExpired pending.clock.stored = true

/-- No request is about to remove another challenge than the one it validated. -/
def RemovesOnlyValidated (s : AuthState Ip) : Prop :=
  ∀ {id ip push access refresh},
    s.calls.lookup id = some (.tokensRemove ip push access refresh) →
    ∀ {entry}, s.challenges.lookup ip = some entry → entry.push = push

/-- What holds after the steps `done` of a run without disturbance. -/
structure StoreInv (done : List (AuthLabel Ip)) (s : AuthState Ip) : Prop where
  replaces : ReplacesOnlyExpired s
  removes : RemovesOnlyValidated s
  alone : ∀ {id id' call call' ip}, s.calls.lookup id = some call →
    s.calls.lookup id' = some call' → call.writesTo = some ip → call'.writesTo = some ip → id = id'
  read : ∀ {id pending}, s.calls.lookup id = some (.challengePush pending) →
    pending.clock.stored ∈ done.flatMap AuthLabel.readings

namespace StoreInv

variable {env : AuthEnv Ip} {decode : List UInt8 → Option VersionedTransaction} {cfg : LoopConfig}
  {s s' : AuthState Ip} {label : AuthLabel Ip} {done : List (AuthLabel Ip)}

theorem init (health : HealthState) (auther : Pubkey → Bool) :
    StoreInv [] (AuthState.init health auther : AuthState Ip) := by
  constructor
  · intro id pending h
    simp [AuthState.init] at h
  · intro id ip push access refresh h
    simp [AuthState.init] at h
  · intro id id' call call' ip h
    simp [AuthState.init] at h
  · intro id pending h
    simp [AuthState.init] at h

/-- A step that adds nothing to the store and no request that is about to write. -/
theorem frame (hstore : StoreInv done s) (label : AuthLabel Ip)
    (hchallenges : ∀ {ip entry}, s'.challenges.lookup ip = some entry →
      s.challenges.lookup ip = some entry)
    (hcalls : ∀ {id call ip}, s'.calls.lookup id = some call → call.writesTo = some ip →
      s.calls.lookup id = some call) : StoreInv (done ++ [label]) s' where
  replaces := fun h _ hentry => hstore.replaces (hcalls h rfl) (hchallenges hentry)
  removes := fun h _ hentry => hstore.removes (hcalls h rfl) (hchallenges hentry)
  alone := fun h h' hip hip' => hstore.alone (hcalls h hip) (hcalls h' hip') hip hip'
  read := by
    intro id pending h
    rw [List.flatMap_append]
    exact List.mem_append_left _ (hstore.read (hcalls h rfl))

/-- A request that is not about to write goes on to wait. -/
theorem wait (hstore : StoreInv done s) (label : AuthLabel Ip) {id : Nat} {call : Call Ip}
    (hnone : call.writesTo = none) : StoreInv (done ++ [label]) (s.wait id call) := by
  refine hstore.frame label (fun h => h) ?_
  intro id' call' ip h hip
  rcases lookup_insert_cases h with ⟨-, rfl⟩ | hold
  · rw [hnone] at hip
    cases hip
  · exact hold

/-- A request that has looked its address up, where no other request is about to write,
goes on to write. -/
theorem waitToWrite (hstore : StoreInv done s) {id : Nat} {ip : Ip} {call : Call Ip}
    (hip : call.writesTo = some ip)
    (hothers : ∀ other ∈ s.calls.entries, other.2.writesTo ≠ some ip)
    (hreplaces : ∀ pending, call = .challengePush pending →
      pending.clock.stored ∈ label.readings ∧
        ∀ {entry}, s.challenges.lookup pending.ip = some entry →
          entry.challenge.isExpired pending.clock.stored = true)
    (hremoves : ∀ ip' push access refresh, call = .tokensRemove ip' push access refresh →
      ∀ {entry}, s.challenges.lookup ip' = some entry → entry.push = push) :
    StoreInv (done ++ [label]) (s.wait id call) := by
  have hold : ∀ {id' other}, s.calls.lookup id' = some other → other.writesTo ≠ some ip :=
    fun h => hothers ⟨_, _⟩ (AList.mem_lookup_iff.mp h)
  constructor
  · intro id' pending h
    rcases lookup_insert_cases h with ⟨-, hnew⟩ | hcall
    · exact (hreplaces pending hnew.symm).2
    · exact hstore.replaces hcall
  · intro id' ip' push access refresh h
    rcases lookup_insert_cases h with ⟨-, hnew⟩ | hcall
    · exact hremoves ip' push access refresh hnew.symm
    · exact hstore.removes hcall
  · intro id₁ id₂ call₁ call₂ ip' h₁ h₂ hip₁ hip₂
    rcases lookup_insert_cases h₁ with ⟨rfl, rfl⟩ | hold₁ <;>
      rcases lookup_insert_cases h₂ with ⟨rfl, rfl⟩ | hold₂
    · rfl
    · rw [hip, Option.some.injEq] at hip₁
      subst hip₁
      exact absurd hip₂ (hold hold₂)
    · rw [hip, Option.some.injEq] at hip₂
      subst hip₂
      exact absurd hip₁ (hold hold₁)
    · exact hstore.alone hold₁ hold₂ hip₁ hip₂
  · intro id' pending h
    rw [List.flatMap_append]
    rcases lookup_insert_cases h with ⟨-, hnew⟩ | hcall
    · exact List.mem_append_right _ (by simpa using (hreplaces pending hnew.symm).1)
    · exact List.mem_append_left _ (hstore.read hcall)

/-- The one request that writes to an address writes and ends. -/
theorem pushed (hstore : StoreInv done s) {id : Nat} {pending : PendingPush Ip}
    (hcall : s.calls.lookup id = some (.challengePush pending)) (reply : Reply Ip) :
    StoreInv (done ++ [label]) ((s.pushChallenge pending).settle id reply) := by
  -- whoever still waits to write, waits to write to another address
  have hother : ∀ {id' call ip}, (s.calls.erase id).lookup id' = some call →
      call.writesTo = some ip → ip ≠ pending.ip := by
    rintro id' call ip h hip rfl
    obtain ⟨hne, hold⟩ := lookup_erase_cases h
    exact hne (hstore.alone hold hcall hip rfl)
  have hentry : ∀ {ip entry}, ip ≠ pending.ip →
      ((s.pushChallenge pending).settle id reply).challenges.lookup ip = some entry →
      s.challenges.lookup ip = some entry := by
    intro ip entry hne h
    exact (AList.lookup_insert_ne hne).symm.trans h
  constructor
  · intro id' pending' h entry hstored
    exact hstore.replaces (lookup_erase_cases h).2 (hentry (hother h rfl) hstored)
  · intro id' ip push access refresh h entry hstored
    exact hstore.removes (lookup_erase_cases h).2 (hentry (hother h rfl) hstored)
  · intro id₁ id₂ call₁ call₂ ip h₁ h₂ hip₁ hip₂
    exact hstore.alone (lookup_erase_cases h₁).2 (lookup_erase_cases h₂).2 hip₁ hip₂
  · intro id' pending' h
    rw [List.flatMap_append]
    exact List.mem_append_left _ (hstore.read (lookup_erase_cases h).2)

/-- Every undisturbed move keeps the invariant. -/
theorem move (hstore : StoreInv done s) (hcond : Undisturbed s label)
    (hmove : Move env decode cfg s label s') : StoreInv (done ++ [label]) s' := by
  cases hmove with
  | waiting id hcall => exact hstore.wait label hcall.writesTo
  | @made id clock token ip req challenge hcall hdecision =>
    have hlooks : (s.calls.lookup id).bind Call.looksUp = some ip := by rw [hcall]; rfl
    obtain ⟨hexpired, -⟩ := challengeAfterGetPriority_eq_push hdecision
    refine hstore.waitToWrite rfl (hcond id rfl ip hlooks) ?_ (fun _ _ _ _ h => nomatch h)
    rintro pending ⟨⟩
    refine ⟨List.mem_cons_self, ?_⟩
    intro entry hentry
    exact hexpired entry.challenge (by rw [hentry]; rfl)
  | pushed hcall => exact hstore.pushed hcall _
  | @redeemed id now ip pubkey req entry access refresh hcall hstored hchecks =>
    have hlooks : (s.calls.lookup id).bind Call.looksUp = some ip := by rw [hcall]; rfl
    have hlogged : StoreInv done (s.log (.redeemed
        { push := entry.push, ip, pubkey, request := req, now, access, refresh })) :=
      ⟨hstore.replaces, hstore.removes, hstore.alone, hstore.read⟩
    refine hlogged.waitToWrite rfl (hcond id rfl ip hlooks) (fun _ h => nomatch h) ?_
    rintro ip' push access' refresh' ⟨⟩ entry' hentry
    rw [Option.some.inj (hstored.symm.trans hentry)]
  | removed hcall =>
    exact hstore.frame _ (fun h => (lookup_erase_cases h).2) fun h _ => (lookup_erase_cases h).2
  | swept hswept =>
    exact hstore.frame _ (AuthChallenges.lookup_of_removeAllExpired _ hswept) fun h _ => h
  | accepted hchecks =>
    refine hstore.frame _ (fun h => h) ?_
    intro id' call ip h hip
    rcases lookup_insert_cases h with ⟨-, rfl⟩ | hold
    · cases hip
    · exact hold
  | setHealth health => exact hstore.frame _ (fun h => h) fun h _ => h
  | setAuther auther => exact hstore.frame _ (fun h => h) fun h _ => h
  | loopTurn hreceive hturn => exact hstore.frame _ (fun h => h) fun h _ => h
  | loopEnd => exact hstore.frame _ (fun h => h) fun h _ => h
  | _ => exact hstore.frame _ (fun h => h) fun h _ => (lookup_erase_cases h).2

/-- What a move does to a stored challenge: it stays, unless a clock reading has found it
expired or the request that validated it returns. -/
theorem kept (hstore : StoreInv done s) (hmove : Move env decode cfg s label s') {ip : Ip}
    {entry : StoredChallenge Ip} (hentry : s.challenges.lookup ip = some entry) :
    s'.challenges.lookup ip = some entry ∨ HasExpired (done ++ [label]) entry.challenge ∨
      ∃ i, ReturnedFor s'.history entry.push i := by
  cases hmove with
  | @pushed id pending hcall =>
    by_cases hip : ip = pending.ip
    · subst hip
      refine .inr (.inl (HasExpired.append ?_ [_]))
      exact ⟨pending.clock.stored, hstore.read hcall, hstore.replaces hcall hentry⟩
    · exact .inl ((AList.lookup_insert_ne hip).trans hentry)
  | @removed id now ip' push access refresh hcall =>
    by_cases hip : ip = ip'
    · subst hip
      refine .inr (.inr ⟨s.history.length, ?_⟩)
      rw [hstore.removes hcall hentry]
      exact Option.bind_eq_some_iff.mpr ⟨_, getElem?_concat_length s.history _, rfl⟩
    · exact .inl ((AList.lookup_erase_ne hip).trans hentry)
  | @swept readings challenges hswept =>
    rcases AuthChallenges.lookup_removeAllExpired readings hswept hentry with
      hkept | ⟨reading, hmem, hexpired⟩
    · exact .inl hkept
    · exact .inr (.inl (hasExpired_concat (List.mem_map_of_mem hmem) hexpired))
  | _ => exact .inl hentry

end StoreInv

section Kept

variable {env : AuthEnv Ip} {decode : List UInt8 → Option VersionedTransaction} {cfg : LoopConfig}
  {s s' : AuthState Ip} {label : AuthLabel Ip}

/-- A redemption that returned stays in the record. -/
theorem returnedFor_move (hmove : Move env decode cfg s label s') {push i : Nat}
    (h : ReturnedFor s.history push i) : ReturnedFor s'.history push i := by
  obtain ⟨events, hevents, -⟩ := hmove.entries
  obtain ⟨event, hevent, hpush⟩ := Option.bind_eq_some_iff.mp h
  rw [hevents]
  exact Option.bind_eq_some_iff.mpr ⟨event, getElem?_append_of_some hevent events, hpush⟩

/-- A step that returns a challenge leaves the store with that challenge for the
address. -/
theorem stored_of_returned (hmove : Move env decode cfg s label s') {id : Nat} {ip : Ip}
    {c : String}
    (hreply : .replied id (.challenge ip c) ∈ s'.history.drop s.history.length) :
    ∃ entry, s'.challenges.lookup ip = some entry ∧ entry.challenge.challenge = c := by
  cases hmove with
  | @reused id' clock token ip' req challenge hcall hdecision =>
    simp only [AuthState.settle, List.drop_left, List.mem_singleton, AuthEvent.replied.injEq,
      Reply.challenge.injEq] at hreply
    obtain ⟨-, rfl, rfl⟩ := hreply
    obtain ⟨challenge, hstored, -, rfl⟩ := challengeAfterGetPriority_eq_reuse hdecision
    obtain ⟨entry, hentry, rfl⟩ := Option.map_eq_some_iff.mp hstored
    exact ⟨entry, hentry, rfl⟩
  | @pushed id' pending hcall =>
    simp only [AuthState.settle, AuthState.pushChallenge, AuthState.log, List.append_assoc,
      List.drop_left, List.mem_append, List.mem_singleton, AuthEvent.replied.injEq,
      Reply.challenge.injEq, reduceCtorEq, false_or] at hreply
    obtain ⟨-, rfl, rfl⟩ := hreply
    exact ⟨_, AList.lookup_insert _, rfl⟩
  | _ =>
    exfalso
    simp [AuthState.settle, AuthState.log, AuthState.wait] at hreply

/-- A challenge that is in the store, has expired or was redeemed after the steps `done`
is so after any undisturbed steps that follow. -/
theorem accountedFor_run {done ls : List (AuthLabel Ip)} {ip : Ip} {entry : StoredChallenge Ip}
    (hstore : StoreInv done s) (hentry : s.challenges.lookup ip = some entry)
    (hcond : StepsMeet (authStep env decode cfg) Undisturbed s ls)
    (hrun : runSteps (authStep env decode cfg) s ls = some s') :
    s'.challenges.lookup ip = some entry ∨ HasExpired (done ++ ls) entry.challenge ∨
      ∃ i, ReturnedFor s'.history entry.push i := by
  have hboth := runSteps_labelInvariant
    (fun done s => StoreInv done s ∧ (s.challenges.lookup ip = some entry ∨
      HasExpired done entry.challenge ∨ ∃ i, ReturnedFor s.history entry.push i))
    (by
      rintro done s label s' ⟨hstore, haccounted⟩ hcond hstep
      have hmove := move_of_authStep hstep
      refine ⟨hstore.move hcond hmove, ?_⟩
      rcases haccounted with hstored | hexpired | ⟨i, hreturned⟩
      · exact hstore.kept hmove hstored
      · exact .inr (.inl (hexpired.append [label]))
      · exact .inr (.inr ⟨i, returnedFor_move hmove hreturned⟩))
    ls done ⟨hstore, .inl hentry⟩ hcond hrun
  exact hboth.2

end Kept

/-- A challenge returned by the step from `s₀` to `s` is kept until `s'`, unless it has
expired or the request that validated it has returned; and in `s'` no request is about to
replace an unexpired challenge or to remove another one than it validated.  `ls` are the
steps up to `s'`. -/
structure NoChallengeLost (ls : List (AuthLabel Ip)) (s₀ s s' : AuthState Ip) : Prop where
  kept : ∀ id ip c, .replied id (.challenge ip c) ∈ s.history.drop s₀.history.length →
    ∃ entry, s.challenges.lookup ip = some entry ∧ entry.challenge.challenge = c ∧
      (s'.challenges.lookup ip = some entry ∨ HasExpired ls entry.challenge ∨
        ∃ i, ReturnedFor s'.history entry.push i)
  replaces : ReplacesOnlyExpired s'
  removes : RemovesOnlyValidated s'

/-- In every run in which no request looks up an address for which another request is about
to write, no challenge is lost: `s` is the state after any step, `s'` any later state. -/
theorem challenge_kept (env : AuthEnv Ip) (decode : List UInt8 → Option VersionedTransaction)
    (cfg : LoopConfig) (health : HealthState) (auther : Pubkey → Bool)
    (before after : List (AuthLabel Ip)) (label : AuthLabel Ip) (s₀ s s' : AuthState Ip)
    (hcond : StepsMeet (authStep env decode cfg) Undisturbed (AuthState.init health auther)
      (before ++ label :: after))
    (hbefore : runSteps (authStep env decode cfg) (AuthState.init health auther) before = some s₀)
    (hstep : authStep env decode cfg s₀ label = some s)
    (hafter : runSteps (authStep env decode cfg) s after = some s') :
    NoChallengeLost (before ++ label :: after) s₀ s s' := by
  obtain ⟨hcondBefore, hcondRest⟩ := stepsMeet_append hcond hbefore
  obtain ⟨hcondStep, hcondAfter⟩ := stepsMeet_cons hcondRest hstep
  have hkeep : ∀ done s label s', StoreInv done s → Undisturbed s label →
      authStep env decode cfg s label = some s' → StoreInv (done ++ [label]) s' :=
    fun _ _ _ _ hstore hcond hstep => hstore.move hcond (move_of_authStep hstep)
  have hstore₀ : StoreInv before s₀ := runSteps_labelInvariant StoreInv hkeep before []
    (StoreInv.init health auther) hcondBefore hbefore
  have hstore : StoreInv (before ++ [label]) s := hkeep before s₀ label s hstore₀ hcondStep hstep
  have hstore' := runSteps_labelInvariant StoreInv hkeep after _ hstore hcondAfter hafter
  refine ⟨?_, hstore'.replaces, hstore'.removes⟩
  intro id ip c hreply
  obtain ⟨entry, hentry, hc⟩ := stored_of_returned (move_of_authStep hstep) hreply
  refine ⟨entry, hentry, hc, ?_⟩
  rw [List.append_cons]
  exact accountedFor_run hstore hentry hcondAfter hafter

/-- A request that reads the same time at each of its readings. -/
def clockAt (now : Int) : ChallengeClock := ⟨now, now, now, now, by simp⟩

/-- The text a second request would push. -/
def otherToken : ChallengeToken := ⟨"jklmnopqr", by decide, by decide⟩

/-- The client asks twice and gets the same challenge, then redeems it. -/
def askTwiceRun : List (AuthLabel Peer) :=
  [ .challengeRequest 2 ⟨some .first, 2, (uniformKey 7).bytes⟩
  , .challengeLen 2
  , .challengeGet 2 (clockAt (second 3)) otherToken
  , .tokensRequest 1 clientTokensRequest
  , .tokensGet 1 (second 5)
  , .tokensRemove 1 (second 5) ]

theorem challenge_kept_askTwice :
    ∃ s₀ s s', runSteps (defaultStep [1800, 180000]) clientStart (challengeRun.take 3) = some s₀ ∧
      defaultStep [1800, 180000] s₀ (.challengePush 0) = some s ∧
      runSteps (defaultStep [1800, 180000]) s askTwiceRun = some s' ∧
      NoChallengeLost (challengeRun.take 3 ++ .challengePush 0 :: askTwiceRun) s₀ s s' := by
  have hrun : (runSteps (defaultStep [1800, 180000]) clientStart
      (challengeRun.take 3 ++ .challengePush 0 :: askTwiceRun)).isSome = true := by decide
  have hcond : StepsMeet (defaultStep [1800, 180000]) Undisturbed clientStart
      (challengeRun.take 3 ++ .challengePush 0 :: askTwiceRun) := by
    unfold StepsMeet
    decide
  obtain ⟨s', hs'⟩ := Option.isSome_iff_exists.mp hrun
  rw [runSteps_append] at hs'
  obtain ⟨s₀, hs₀, hrest⟩ := Option.bind_eq_some_iff.mp hs'
  obtain ⟨s, hs, hafter⟩ := runSteps_cons_eq_some hrest
  exact ⟨s₀, s, s', hs₀, hs, hafter, challenge_kept _ _ _ _ _ _ _ _ s₀ s s' hcond hs₀ hs hafter⟩

/-- Two requests of one client look its address up before either pushes. -/
def twoAskRun : List (AuthLabel Peer) :=
  [ .challengeRequest 1 ⟨some .first, 2, (uniformKey 7).bytes⟩
  , .challengeLen 1 ] ++ challengeRun.take 3 ++ [.challengeGet 1 (clockAt (second 0)) otherToken]

/-- The text and the expiry of the challenge that is stored for the first address. -/
def storedForFirst (s : AuthState Peer) : Option (String × Int) :=
  (s.challenges.lookup .first).map fun entry =>
    (entry.challenge.challenge, entry.challenge.expiresAtUtc)

/-- The second push replaces the challenge that the first request has just returned. -/
theorem challenge_overwritten :
    ¬ ∀ (before after : List (AuthLabel Peer)) (label : AuthLabel Peer) (s₀ s s' : AuthState Peer),
      runSteps (defaultStep [1800, 180000]) clientStart before = some s₀ →
      defaultStep [1800, 180000] s₀ label = some s →
      runSteps (defaultStep [1800, 180000]) s after = some s' →
        NoChallengeLost (before ++ label :: after) s₀ s s' := by
  intro hall
  have hread : (runSteps (defaultStep [1800, 180000]) clientStart twoAskRun).map
      (fun s => s.history.length) = some 0 := by decide
  have hfirst : (runSteps (defaultStep [1800, 180000]) clientStart
      (twoAskRun ++ [.challengePush 0])).map
        (fun s => (s.history.filterMap AuthEvent.returnsChallenge, storedForFirst s)) =
      some ([(0, .first, "abcdefghi")], some ("abcdefghi", second 1800)) := by decide
  have hsecond : (runSteps (defaultStep [1800, 180000]) clientStart
      (twoAskRun ++ .challengePush 0 :: [.challengePush 1])).map
        (fun s => (storedForFirst s, s.history.filterMap AuthEvent.returnsTokensFor)) =
      some (some ("jklmnopqr", second 1800), []) := by decide
  obtain ⟨s₀, hs₀, hempty⟩ := Option.map_eq_some_iff.mp hread
  obtain ⟨s, hs, hreturned⟩ := Option.map_eq_some_iff.mp hfirst
  obtain ⟨s', hs', hlast⟩ := Option.map_eq_some_iff.mp hsecond
  rw [runSteps_concat, hs₀, Option.bind_some] at hs
  rw [runSteps_append, hs₀, Option.bind_some, runSteps_cons, hs, Option.bind_some] at hs'
  simp only [Prod.mk.injEq] at hreturned hlast
  -- the first request has its challenge back
  have hmem : .replied 0 (.challenge .first "abcdefghi") ∈ s.history :=
    mem_of_returnsChallenge (by rw [hreturned.1]; exact List.mem_cons_self)
  obtain ⟨entry, hentry, htext, hkept⟩ :=
    (hall twoAskRun [.challengePush 1] (.challengePush 0) s₀ s s' hs₀ hs hs').kept _ _ _
      (by rw [hempty]; exact hmem)
  have hexpiry : entry.challenge.expiresAtUtc = second 1800 := by
    have hstored := hreturned.2
    simp only [storedForFirst, hentry, Option.map_some, Option.some.injEq, Prod.mk.injEq] at hstored
    exact hstored.2
  rcases hkept with hstored | ⟨now, hnow, hexpired⟩ | ⟨i, hi⟩
  · have hother := hlast.1
    simp only [storedForFirst, hstored, Option.map_some, htext, Option.some.injEq,
      Prod.mk.injEq] at hother
    exact absurd hother.1 (by decide)
  · -- every clock reading is of second 0
    have hzero : ∀ now ∈ (twoAskRun ++ AuthLabel.challengePush 0 :: [.challengePush 1]).flatMap
        AuthLabel.readings, now = second 0 := by decide
    rw [hzero now hnow, AuthChallenge.isExpired, hexpiry] at hexpired
    exact absurd hexpired (by decide)
  · obtain ⟨event, hevent, hpush⟩ := Option.bind_eq_some_iff.mp hi
    have hnone : entry.push ∈ s'.history.filterMap AuthEvent.returnsTokensFor :=
      List.mem_filterMap.mpr ⟨event, List.mem_of_getElem? hevent, hpush⟩
    rw [hlast.2] at hnone
    cases hnone

end FlowraRelayer.Relayer
