/-
  TransactionRelayer/Admission.lean --- who gets messages from the relayer.

  `main` builds the authoriser of the auth service over one of two stores: the keys given
  with `--allowed-validators`, or the leader schedule cache.  The cache is shared with the
  event loop, which takes the upcoming leaders from it.  `admissionStep` puts the cache
  behind both, so that neither the authoriser nor the schedule a slot is looked up in comes
  from outside: the only thing from outside is what the RPC servers answer.

  `recipients_admitted` follows every message the event loop offers back to where its
  recipient was let in.

  `answers` and `slots` record what the cache was built from and which slots the loop took;
  no step reads them.
-/
import FlowraRelayer.Relayer.AuthSoundness
import FlowraRelayer.Relayer.MessageOrigin
import FlowraRelayer.Relayer.ScheduleMap
import FlowraRelayer.Relayer.StreamExactness

set_option autoImplicit false

namespace FlowraRelayer.TransactionRelayer

open FlowraRelayer.Foundation
open FlowraRelayer.Solana
open FlowraRelayer.Protos
open FlowraRelayer.Relayer

variable {Ip : Type} [DecidableEq Ip]

/-! ## State and steps -/

/-- `ValidatorStore`. -/
inductive ValidatorStore where
  | leaderSchedule
  | userDefined (pubkeys : Finset Pubkey)

/-- `ValidatorAutherImpl::is_authorized`. -/
def isAuthorized (store : ValidatorStore) (schedule : ScheduleMap) (pubkey : Pubkey) : Bool :=
  match store with
  | .leaderSchedule => isScheduledValidator schedule pubkey
  | .userDefined pubkeys => decide (pubkey ∈ pubkeys)

/-- The services with the leader schedule cache. -/
structure Admission (Ip : Type) where
  services : AuthState Ip
  schedule : ScheduleMap
  /-- the answers the cache was built from, oldest first -/
  answers : List (RpcEpochInfo × RpcScheduleAnswer)
  /-- the slots the event loop took -/
  slots : List Slot

def Admission.init (store : ValidatorStore) (health : HealthState) : Admission Ip where
  services := AuthState.init health (isAuthorized store ∅)
  schedule := ∅
  answers := []
  slots := []

inductive AdmissionLabel (Ip : Type) where
  | services (label : AuthLabel Ip)
  /-- the slot arm of the event loop -/
  | slotTurn (maybeSlot : Option Slot)
  /-- `update_leader_cache` with the answers to its two requests -/
  | updateSchedule (epochInfo : Option RpcEpochInfo)
      (leaderSchedule : Option (Option RpcScheduleAnswer))

/-- The cache as the event loop reads it. -/
def cachedLeaders (schedule : ScheduleMap) : LeaderSchedule :=
  fun slot => schedule.lookup (UInt64.ofNat slot)

/-- The steps that do not touch the cache. -/
def AuthLabel.leavesCache : AuthLabel Ip → Bool
  | .setAuther _ => false
  | .loopTurn (.slot _ _) => false
  | _ => true

/-- A successful `update_leader_cache`. -/
def Admission.replaceSchedule (store : ValidatorStore) (s : Admission Ip) (epochInfo : RpcEpochInfo)
    (answer : RpcScheduleAnswer) : Admission Ip where
  services :=
    match store with
    | .leaderSchedule =>
        { s.services with
          auther := isAuthorized store (buildSchedule epochInfo answer)
          autherVersion := s.services.autherVersion + 1 }
    | .userDefined _ => s.services
  schedule := buildSchedule epochInfo answer
  answers := s.answers ++ [(epochInfo, answer)]
  slots := s.slots

def admissionStep (env : AuthEnv Ip) (decode : List UInt8 → Option VersionedTransaction)
    (cfg : LoopConfig) (store : ValidatorStore) (s : Admission Ip) :
    AdmissionLabel Ip → Option (Admission Ip)
  | .services label =>
      if AuthLabel.leavesCache label then
        (authStep env decode cfg s.services label).map fun services => { s with services }
      else none
  | .slotTurn maybeSlot =>
      let event := LoopEvent.slot maybeSlot (cachedLeaders s.schedule)
      (authStep env decode cfg s.services (.loopTurn event)).map fun services =>
        { s with services, slots := s.slots ++ maybeSlot.toList }
  | .updateSchedule epochInfo leaderSchedule =>
      match epochInfo, leaderSchedule with
      | some epochInfo, some (some answer) => some (s.replaceSchedule store epochInfo answer)
      | _, _ => some s

/-! ## What a recipient has to show -/

/-- The store accepts the key: it was given by the operator, or an RPC server listed it as
a leader. -/
def Admitted (store : ValidatorStore) (answers : List (RpcEpochInfo × RpcScheduleAnswer))
    (pubkey : Pubkey) : Prop :=
  match store with
  | .leaderSchedule => ∃ answer ∈ answers, ∃ i, Lists answer.2 pubkey i
  | .userDefined pubkeys => pubkey ∈ pubkeys

/-- An RPC server listed the key as the leader of a slot in the window ahead of a slot the
event loop took. -/
def UpcomingLeader (cfg : LoopConfig) (s : Admission Ip) (pubkey : Pubkey) : Prop :=
  ∃ answer ∈ s.answers, ∃ first ∈ s.slots, ∃ slot ∈ slotWindow first cfg.slotLookahead,
    ∃ i, Lists answer.2 pubkey i ∧
    UInt64.ofNat slot = (answer.1.absoluteSlot - answer.1.slotIndex) + i

/-- What is known of the recipient of a message. -/
structure Recipient (env : AuthEnv Ip) (cfg : LoopConfig) (store : ValidatorStore)
    (s : Admission Ip) (offer : Offer) : Prop where
  /-- it has signed a challenge with its key -/
  authenticated : ∃ ip, AuthenticatedFrom env s.services.history ip offer.pubkey
  admitted : Admitted store s.answers offer.pubkey
  /-- and if the message carries packets, it leads soon, unless everybody gets them -/
  leader : ∀ packets, offer.packets? = some packets →
    cfg.forwardAll = true ∨ UpcomingLeader cfg s offer.pubkey

theorem Admitted.append {store : ValidatorStore} {answers : List (RpcEpochInfo × RpcScheduleAnswer)}
    {pubkey : Pubkey} (h : Admitted store answers pubkey)
    (more : List (RpcEpochInfo × RpcScheduleAnswer)) : Admitted store (answers ++ more) pubkey := by
  cases store with
  | userDefined pubkeys => exact h
  | leaderSchedule =>
    obtain ⟨answer, hanswer, hlists⟩ := h
    exact ⟨answer, List.mem_append_left _ hanswer, hlists⟩

omit [DecidableEq Ip] in
theorem UpcomingLeader.mono {cfg : LoopConfig} {s s' : Admission Ip} {pubkey : Pubkey}
    (h : UpcomingLeader cfg s pubkey) (hanswers : s.answers ⊆ s'.answers)
    (hslots : s.slots ⊆ s'.slots) : UpcomingLeader cfg s' pubkey := by
  obtain ⟨answer, hanswer, first, hfirst, hslot⟩ := h
  exact ⟨answer, hanswers hanswer, first, hslots hfirst, hslot⟩

/-! ## What every step keeps -/

/-- The slots an answer lists are the slots of the map built from it. -/
theorem lists_of_lookup {epochInfo : RpcEpochInfo} {answer : RpcScheduleAnswer} {slot : UInt64}
    {pubkey : Pubkey} (h : (buildSchedule epochInfo answer).lookup slot = some pubkey) :
    ∃ i, Lists answer pubkey i ∧ slot = (epochInfo.absoluteSlot - epochInfo.slotIndex) + i := by
  rw [lookup_buildSchedule_lastOf] at h
  exact mem_schedulePairs_iff_lists.mp (mem_of_lastOf h)

/-- What holds in every state. -/
structure AdmissionInv (env : AuthEnv Ip) (cfg : LoopConfig) (store : ValidatorStore)
    (s : Admission Ip) : Prop where
  auth : AuthInv env s.services
  signed : Grounded PresentedSigned s.services.history
  auther : s.services.auther = isAuthorized store s.schedule
  cached : ∀ slot pubkey, s.schedule.lookup slot = some pubkey →
    ∃ answer ∈ s.answers, ∃ i, Lists answer.2 pubkey i ∧
      slot = (answer.1.absoluteSlot - answer.1.slotIndex) + i
  pending : ∀ id pending, s.services.calls.lookup id = some (.challengePush pending) →
    Admitted store s.answers pending.challenge.accessClaims.clientPubkey
  pushed : ∀ record, .pushed record ∈ s.services.history → Admitted store s.answers record.pubkey
  leaders : ∀ pubkey ∈ s.services.loopState.slotLeaders, UpcomingLeader cfg s pubkey
  offers : ∀ offer ∈ s.services.loopState.offers, WasAccepted s.services.history offer.pubkey ∧
    ∀ packets, offer.packets? = some packets →
      cfg.forwardAll = true ∨ UpcomingLeader cfg s offer.pubkey

section Steps

variable {env : AuthEnv Ip} {decode : List UInt8 → Option VersionedTransaction} {cfg : LoopConfig}
  {store : ValidatorStore} {s s' : Admission Ip} {label : AuthLabel Ip} {next : AuthState Ip}

theorem admissionInv_init (health : HealthState) :
    AdmissionInv env cfg store (Admission.init store health : Admission Ip) where
  auth := AuthInv.init health _
  signed := .nil
  auther := rfl
  cached := by
    intro slot pubkey h
    simp [Admission.init] at h
  pending := by
    intro id pending h
    simp [Admission.init, AuthState.init] at h
  pushed := by
    intro record h
    cases h
  leaders := by
    intro pubkey h
    simp [Admission.init, AuthState.init, LoopState.init] at h
  offers := by
    intro offer h
    cases h

/-- The authoriser says yes only to keys that are admitted. -/
theorem AdmissionInv.admitted (h : AdmissionInv env cfg store s) {pubkey : Pubkey}
    (hyes : s.services.auther pubkey = true) : Admitted store s.answers pubkey := by
  rw [h.auther] at hyes
  cases store with
  | userDefined pubkeys =>
    have hmem : pubkey ∈ pubkeys := of_decide_eq_true hyes
    exact hmem
  | leaderSchedule =>
    obtain ⟨slot, hslot⟩ := isScheduledValidator_iff.mp hyes
    obtain ⟨answer, hanswer, i, hlists, -⟩ := h.cached slot pubkey hslot
    exact ⟨answer, hanswer, i, hlists⟩

/-- The pushes after a step of the services. -/
theorem AdmissionInv.pushes (h : AdmissionInv env cfg store s)
    (hmove : Move env decode cfg s.services label next) :
    (∀ id pending, next.calls.lookup id = some (.challengePush pending) →
      Admitted store s.answers pending.challenge.accessClaims.clientPubkey) ∧
    ∀ record, .pushed record ∈ next.history → Admitted store s.answers record.pubkey := by
  constructor
  · intro id pending hpending
    rcases pending_of_move hmove hpending with hold | ⟨hyes, -⟩
    · exact h.pending id pending hold
    · exact h.admitted hyes
  · intro record hrecord
    rcases pushed_of_move hmove hrecord with hold | ⟨id, pending, hpending, hpubkey, -⟩
    · exact h.pushed record hold
    · rw [hpubkey]
      exact h.pending id pending hpending

/-- The messages after a step of the services: a new one goes to a subscriber. -/
theorem AdmissionInv.offers_of_move (h : AdmissionInv env cfg store s)
    (hmove : Move env decode cfg s.services label next) :
    ∀ offer ∈ next.loopState.offers, WasAccepted next.history offer.pubkey ∧
      ∀ packets, offer.packets? = some packets →
        cfg.forwardAll = true ∨ UpcomingLeader cfg s offer.pubkey := by
  obtain ⟨events, hhistory, -⟩ := hmove.entries
  rw [hhistory]
  have hold : ∀ offer ∈ s.services.loopState.offers,
      WasAccepted (s.services.history ++ events) offer.pubkey ∧
        ∀ packets, offer.packets? = some packets →
          cfg.forwardAll = true ∨ UpcomingLeader cfg s offer.pubkey := by
    intro offer hoffer
    obtain ⟨haccepted, hleader⟩ := h.offers offer hoffer
    exact ⟨haccepted.append events, hleader⟩
  rcases hmove.loopState_cases with hsame | ⟨event, -, hturn⟩
  · rw [hsame]
    exact hold
  · rw [offers_eventStep hturn]
    intro offer hoffer
    rcases List.mem_append.mp hoffer with hearlier | hnew
    · exact hold offer hearlier
    · refine ⟨(h.auth.subscribed _ _ (stored_of_mem_eventOffers hnew)).append events, ?_⟩
      intro packets hpackets
      obtain ⟨_, _, _, _, -, hmessage⟩ := batchMessage_origin hturn hnew hpackets
      exact hmessage.target.imp_right (h.leaders _)

/-- A step of the services that leaves the cache alone. -/
theorem AdmissionInv.services (h : AdmissionInv env cfg store s)
    (hunforged : Unforged env s.services label) (hlabel : AuthLabel.leavesCache label = true)
    (hmove : Move env decode cfg s.services label next) :
    AdmissionInv env cfg store { s with services := next } where
  auth := h.auth.move hmove
  signed := presentedSigned_move h.signed hunforged hmove
  auther := by
    cases hmove with
    | setAuther => cases hlabel
    | _ => exact h.auther
  cached := h.cached
  pending := (h.pushes hmove).1
  pushed := (h.pushes hmove).2
  leaders := by
    rcases hmove.loopState_cases with hsame | ⟨event, rfl, hturn⟩
    · rw [hsame]
      exact h.leaders
    · rcases slotLeaders_eventStep hturn with hleaders | ⟨slot, schedule, rfl, -⟩
      · rw [hleaders]
        exact h.leaders
      · cases hlabel
  offers := h.offers_of_move hmove

/-- The slot arm, which looks the next slots up in the cache. -/
theorem AdmissionInv.slotTurn (h : AdmissionInv env cfg store s) {maybeSlot : Option Slot}
    (hmove : Move env decode cfg s.services
      (.loopTurn (.slot maybeSlot (cachedLeaders s.schedule))) next) :
    AdmissionInv env cfg store { s with services := next, slots := s.slots ++ maybeSlot.toList } where
  auth := h.auth.move hmove
  signed := presentedSigned_move h.signed (by rintro _ ⟨⟩) hmove
  auther := by
    cases hmove with
    | _ => exact h.auther
  cached := h.cached
  pending := (h.pushes hmove).1
  pushed := (h.pushes hmove).2
  leaders := by
    rcases hmove.loopState_cases with hsame | ⟨event, hevent, hturn⟩
    · rw [hsame]
      intro pubkey hpubkey
      exact (h.leaders pubkey hpubkey).mono (List.Subset.refl _) (List.subset_append_left _ _)
    · cases hevent
      rcases slotLeaders_eventStep hturn with hleaders | ⟨first, schedule, hslot, hleaders⟩
      · rw [hleaders]
        intro pubkey hpubkey
        exact (h.leaders pubkey hpubkey).mono (List.Subset.refl _) (List.subset_append_left _ _)
      · cases hslot
        intro pubkey hpubkey
        rw [hleaders, leadersForSlots, List.mem_toFinset, List.mem_filterMap] at hpubkey
        obtain ⟨slot, hwindow, hlookup⟩ := hpubkey
        obtain ⟨answer, hanswer, i, hlists, hi⟩ := h.cached _ pubkey hlookup
        exact ⟨answer, hanswer, first, List.mem_append_right _ List.mem_cons_self, slot, hwindow, i,
          hlists, hi⟩
  offers := by
    intro offer hoffer
    obtain ⟨haccepted, hleader⟩ := h.offers_of_move hmove offer hoffer
    refine ⟨haccepted, fun packets hpackets => ?_⟩
    exact (hleader packets hpackets).imp_right fun hupcoming =>
      hupcoming.mono (List.Subset.refl _) (List.subset_append_left _ _)

/-- A successful update of the cache. -/
theorem AdmissionInv.replaceSchedule (h : AdmissionInv env cfg store s) (epochInfo : RpcEpochInfo)
    (answer : RpcScheduleAnswer) :
    AdmissionInv env cfg store (s.replaceSchedule store epochInfo answer) := by
  -- the services keep everything but their authoriser
  have hservices : AuthInv env (s.replaceSchedule store epochInfo answer).services ∧
      (s.replaceSchedule store epochInfo answer).services.calls = s.services.calls ∧
      (s.replaceSchedule store epochInfo answer).services.history = s.services.history ∧
      (s.replaceSchedule store epochInfo answer).services.loopState = s.services.loopState ∧
      (s.replaceSchedule store epochInfo answer).services.auther =
        isAuthorized store (buildSchedule epochInfo answer) := by
    cases store with
    | userDefined pubkeys => exact ⟨h.auth, rfl, rfl, rfl, h.auther⟩
    | leaderSchedule =>
      have hmove : Move env (fun _ => none) cfg s.services (.setAuther _) _ :=
        .setAuther (isAuthorized .leaderSchedule (buildSchedule epochInfo answer))
      exact ⟨h.auth.move hmove, rfl, rfl, rfl, rfl⟩
  obtain ⟨hauth, hcalls, hhistory, hloop, hauther⟩ := hservices
  have hmono : ∀ pubkey, UpcomingLeader cfg s pubkey →
      UpcomingLeader cfg (s.replaceSchedule store epochInfo answer) pubkey := fun _ hupcoming =>
    hupcoming.mono (List.subset_append_left _ _) (List.Subset.refl _)
  constructor
  case auth => exact hauth
  case signed =>
    rw [hhistory]
    exact h.signed
  case auther => exact hauther
  case cached =>
    intro slot pubkey hslot
    obtain ⟨i, hlists, hi⟩ := lists_of_lookup hslot
    exact ⟨(epochInfo, answer), List.mem_append_right _ List.mem_cons_self, i, hlists, hi⟩
  case pending =>
    rw [hcalls]
    intro id pending hpending
    exact (h.pending id pending hpending).append _
  case pushed =>
    rw [hhistory]
    intro record hrecord
    exact (h.pushed record hrecord).append _
  case leaders =>
    rw [hloop]
    exact fun pubkey hpubkey => hmono pubkey (h.leaders pubkey hpubkey)
  case offers =>
    rw [hloop, hhistory]
    intro offer hoffer
    obtain ⟨haccepted, hleader⟩ := h.offers offer hoffer
    exact ⟨haccepted, fun packets hpackets => (hleader packets hpackets).imp_right (hmono _)⟩

/-- The token a request presents, if it verifies, was signed here. -/
def AdmissionUnforged (env : AuthEnv Ip) (s : Admission Ip) : AdmissionLabel Ip → Prop
  | .services label => Unforged env s.services label
  | _ => True

instance (env : AuthEnv Ip) (s : Admission Ip) (label : AdmissionLabel Ip) :
    Decidable (AdmissionUnforged env s label) :=
  match label with
  | .services label => inferInstanceAs (Decidable (Unforged env s.services label))
  | .slotTurn _ | .updateSchedule _ _ => inferInstanceAs (Decidable True)

theorem admissionInv_step {label : AdmissionLabel Ip} (h : AdmissionInv env cfg store s)
    (hunforged : AdmissionUnforged env s label)
    (hstep : admissionStep env decode cfg store s label = some s') :
    AdmissionInv env cfg store s' := by
  cases label with
  | services label =>
    simp only [admissionStep, Option.ite_none_right_eq_some, Option.map_eq_some_iff] at hstep
    obtain ⟨hlabel, services, hservices, rfl⟩ := hstep
    exact h.services hunforged hlabel (move_of_authStep hservices)
  | slotTurn maybeSlot =>
    simp only [admissionStep, Option.map_eq_some_iff] at hstep
    obtain ⟨services, hservices, rfl⟩ := hstep
    exact h.slotTurn (move_of_authStep hservices)
  | updateSchedule epochInfo leaderSchedule =>
    simp only [admissionStep] at hstep
    split at hstep
    · cases hstep
      exact h.replaceSchedule _ _
    · cases hstep
      exact h

end Steps

/-- In every run in which no forged token verifies, every message the event loop offers goes
to a validator that signed a challenge with its key and that the store accepts; and a
message with packets goes to an upcoming leader, unless everybody gets them. -/
theorem recipients_admitted (env : AuthEnv Ip) (decode : List UInt8 → Option VersionedTransaction)
    (cfg : LoopConfig) (store : ValidatorStore) (health : HealthState)
    (ls : List (AdmissionLabel Ip)) (s : Admission Ip)
    (hunforged : StepsMeet (admissionStep env decode cfg store) (AdmissionUnforged env)
      (Admission.init store health) ls)
    (hrun : runSteps (admissionStep env decode cfg store) (Admission.init store health) ls = some s) :
    ∀ offer ∈ s.services.loopState.offers, Recipient env cfg store s offer := by
  have hinv : AdmissionInv env cfg store s :=
    runSteps_invariant_of_meets (AdmissionInv env cfg store)
      (fun _ _ _ hinv hcond hstep => admissionInv_step hinv hcond hstep) ls
      (admissionInv_init health) hunforged hrun
  intro offer hoffer
  obtain ⟨haccepted, hleader⟩ := hinv.offers offer hoffer
  obtain ⟨ip, hauthenticated⟩ := accepted_authenticated hinv.auth.grounded hinv.signed haccepted
  refine ⟨⟨ip, hauthenticated⟩, ?_, hleader⟩
  obtain ⟨i, j, record, redemption, -, hpushed, -, -, ⟨-, hpubkey⟩, -⟩ := hauthenticated
  rw [← hpubkey]
  exact hinv.pushed record (List.mem_of_getElem? hpushed)

/-- An RPC server lists the client for the second slot of an epoch that starts at slot
100. -/
def clientSchedule : RpcEpochInfo × RpcScheduleAnswer :=
  (⟨105, 5⟩, [((uniformKey 7).toText, [1])])

/-- The client is listed, logs in and subscribes; its slot comes up and it gets a packet. -/
def admittedRun : List (AdmissionLabel Peer) :=
  .updateSchedule (some clientSchedule.1) (some (some clientSchedule.2)) ::
  (loginRun ++ subscribeRun 1800 10).map .services ++
  [ .slotTurn (some 100)
  , .services (.loopTurn (.packets (some ⟨0, [[oneBytePacket 1]]⟩) (fun _ => none) [uniformKey 7]
      ⟨fun _ _ => .ok, fun _ k => k⟩)) ]

theorem recipients_admitted_scheduledClient :
    ∃ s, runSteps (admissionStep (clientEnv [1800, 180000] 1800 180000) (fun _ => none)
        ⟨∅, 4, false, 3⟩ .leaderSchedule) (Admission.init .leaderSchedule .healthy) admittedRun =
          some s ∧
      s.services.loopState.offers.map (fun offer => (offer.pubkey, offer.result)) =
        [(uniformKey 7, .ok)] ∧
      ∀ offer ∈ s.services.loopState.offers,
        Recipient (clientEnv [1800, 180000] 1800 180000) ⟨∅, 4, false, 3⟩ .leaderSchedule s offer := by
  have hrun : (runSteps (admissionStep (clientEnv [1800, 180000] 1800 180000) (fun _ => none)
      ⟨∅, 4, false, 3⟩ .leaderSchedule) (Admission.init .leaderSchedule .healthy) admittedRun).map
        (fun s => s.services.loopState.offers.map fun offer => (offer.pubkey, offer.result)) =
      some [(uniformKey 7, .ok)] := by decide
  have hunforged : StepsMeet (admissionStep (clientEnv [1800, 180000] 1800 180000) (fun _ => none)
      ⟨∅, 4, false, 3⟩ .leaderSchedule)
      (AdmissionUnforged (clientEnv [1800, 180000] 1800 180000))
      (Admission.init .leaderSchedule .healthy) admittedRun := by
    unfold StepsMeet
    decide
  obtain ⟨s, hs, hoffers⟩ := Option.map_eq_some_iff.mp hrun
  exact ⟨s, hs, hoffers, recipients_admitted _ _ _ _ _ admittedRun s hunforged hs⟩

end FlowraRelayer.TransactionRelayer
