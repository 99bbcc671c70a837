/-
  Relayer/Subscriptions.lean --- who is in the subscription map, and why.

  The loop sets an entry of `packet_subscriptions` when a validator subscribes and
  clears entries in `drop_connections`, by key, from a list that was collected while
  the senders were tried.  Because the map does not change between the first
  `try_send` of an event and its `drop_connections`, the key that is cleared still
  stands for the sender that answered `Closed` (`stored_of_mem_eventOffers`).

  `lookup_eventStep_iff` is the step lemma: after a turn the map holds a sender for a
  key exactly if that turn subscribed it, or it was there and the turn neither
  replaced nor removed it.  `subscription_map_integrity` is what follows for every
  run, and `loopEvents_of_run` puts the loop behind the services that feed it: there
  every subscription comes with a sender of its own.
-/
import FlowraRelayer.Foundation.Log
import FlowraRelayer.Relayer.AuthSystem
import FlowraRelayer.Relayer.PacketStream

set_option autoImplicit false

namespace FlowraRelayer.Relayer

open FlowraRelayer.Foundation
open FlowraRelayer.Solana
open FlowraRelayer.Protos

/-! ## What a turn offers -/

section Turns

variable (decode : List UInt8 → Option VersionedTransaction) (cfg : LoopConfig)

/-- The `try_send`s of a turn. -/
def eventOffers (s : LoopState) : LoopEvent → List Offer
  | .packets (some batches) cache order env => packetOffers decode cfg s batches cache order env
  | .heartbeat .healthy order trySend => heartbeatOffers s order trySend
  | _ => []

/-- The turn is a heartbeat tick that read `Unhealthy`. -/
def LoopEvent.ReadsUnhealthy (ev : LoopEvent) : Prop :=
  ∃ order trySend, ev = .heartbeat .unhealthy order trySend

/-- The turn subscribes `pubkey` with `sender`. -/
def LoopEvent.Subscribes (pubkey : Pubkey) (sender : Sender) (ev : LoopEvent) : Prop :=
  ev = .subscription (some (pubkey, sender))

/-- The turn removes `pubkey`: it read `Unhealthy`, or the sender stored for the key
answered `Closed`. -/
def Removes (pubkey : Pubkey) (s : LoopState) (ev : LoopEvent) : Prop :=
  ev.ReadsUnhealthy ∨
    ∃ offer ∈ eventOffers decode cfg s ev, offer.pubkey = pubkey ∧
      s.packetSubscriptions.lookup pubkey = some offer.sender ∧ offer.result = .closed

/-- The turn replaces the sender of `pubkey` or removes it. -/
def EndsSubscription (pubkey : Pubkey) (p : LoopState × LoopEvent) : Prop :=
  (∃ sender, p.2.Subscribes pubkey sender) ∨ Removes decode cfg pubkey p.1 p.2

end Turns

variable {decode : List UInt8 → Option VersionedTransaction} {cfg : LoopConfig}
  {s s' : LoopState} {ev : LoopEvent}

/-- The record of `try_send`s grows by what the turn offers. -/
theorem offers_eventStep (h : eventStep decode cfg s ev = some s') :
    s'.offers = s.offers ++ eventOffers decode cfg s ev := by
  rcases eventStep_cases h with ⟨_, _, rfl, rfl⟩ | ⟨batches, cache, order, env, rfl, -, -, rfl⟩ |
    ⟨_, _, rfl, rfl⟩ | ⟨order, trySend, rfl, -, rfl⟩ | ⟨order, _, rfl, -, rfl⟩ | ⟨rfl, rfl⟩
  · simp [eventOffers]
  · simp [eventOffers, dropConnections, applyAll_eq]
  · simp [eventOffers]
  · simp [eventOffers, dropConnections, applyAll_eq]
  · simp [eventOffers, dropConnections]
  · simp [eventOffers]

theorem subscriber_of_mem_batchOffers {env : ForwardEnv} {senders : List (Pubkey × Sender)}
    {offer : Offer} :
    ∀ (batches : List (List ProtoPacket)) (k : Nat), offer ∈ batchOffers env senders k batches →
      (offer.pubkey, offer.sender) ∈ senders := by
  intro batches
  induction batches with
  | nil =>
    intro k h
    cases h
  | cons packets rest ih =>
    intro k h
    unfold batchOffers at h
    rcases List.mem_append.mp h with hnow | hlater
    · split at hnow
      · cases hnow
      · obtain ⟨subscriber, hmem, rfl⟩ := List.mem_map.mp hnow
        exact hmem
    · exact ih (k + 1) hlater

/-- A turn offers only to senders that are in the map when it begins. -/
theorem stored_of_mem_eventOffers {offer : Offer} (h : offer ∈ eventOffers decode cfg s ev) :
    s.packetSubscriptions.lookup offer.pubkey = some offer.sender := by
  unfold eventOffers at h
  split at h
  · exact (mem_subscribersIn.mp (subscriber_of_mem_batchOffers _ _ h)).2
  · obtain ⟨subscriber, hmem, rfl⟩ := List.mem_map.mp h
    exact (mem_subscribersIn.mp hmem).2
  · cases h

/-! ## What a turn does to the map -/

/-- A turn that drops the connections whose sender answered `Closed`. -/
theorem lookup_drop_closed (ev : LoopEvent) {t : LoopState} {pubkey : Pubkey} {sender : Sender}
    (hsame : t.packetSubscriptions = s.packetSubscriptions) (hhealthy : ¬ ev.ReadsUnhealthy) :
    (dropConnections (closedPubkeys (eventOffers decode cfg s ev)) t).packetSubscriptions.lookup
        pubkey = some sender ↔
      s.packetSubscriptions.lookup pubkey = some sender ∧ ¬ Removes decode cfg pubkey s ev := by
  have hclosed : pubkey ∈ closedPubkeys (eventOffers decode cfg s ev) ↔
      Removes decode cfg pubkey s ev := by
    rw [mem_closedPubkeys]
    constructor
    · rintro ⟨offer, hmem, rfl, hclosed⟩
      exact .inr ⟨offer, hmem, rfl, stored_of_mem_eventOffers hmem, hclosed⟩
    · rintro (hunhealthy | ⟨offer, hmem, hpubkey, -, hclosed⟩)
      · exact absurd hunhealthy hhealthy
      · exact ⟨offer, hmem, hpubkey, hclosed⟩
  rw [lookup_dropConnections, hsame]
  by_cases hremoves : Removes decode cfg pubkey s ev
  · rw [if_pos (hclosed.mpr hremoves)]
    simp [hremoves]
  · rw [if_neg (fun hmem => hremoves (hclosed.mp hmem))]
    simp [hremoves]

/-- A turn that offers nothing and does not read `Unhealthy` removes nobody. -/
theorem kept_iff_of_silent {P : Prop} {pubkey : Pubkey} (hoffers : eventOffers decode cfg s ev = [])
    (hhealthy : ¬ ev.ReadsUnhealthy) : P ↔ P ∧ ¬ Removes decode cfg pubkey s ev := by
  have hnot : ¬ Removes decode cfg pubkey s ev := by
    rintro (hunhealthy | ⟨offer, hmem, -⟩)
    · exact hhealthy hunhealthy
    · rw [hoffers] at hmem
      cases hmem
  exact ⟨fun h => ⟨h, hnot⟩, And.left⟩

/-- Dropping every key of the map leaves nothing. -/
theorem lookup_drop_all {order : List Pubkey} (pubkey : Pubkey)
    (horder : Enumerates order s.packetSubscriptions.keySet) :
    (dropConnections order s).packetSubscriptions.lookup pubkey = none := by
  rw [lookup_dropConnections]
  split
  · rfl
  · rename_i hnot
    rw [AList.lookup_eq_none, AList.mem_keys]
    intro hmem
    refine hnot (List.mem_toFinset.mp ?_)
    rw [horder.2]
    exact List.mem_toFinset.mpr hmem

/-- After a turn the map holds `sender` for `pubkey` exactly if the turn subscribed it, or
it was there and the turn neither replaced nor removed it. -/
theorem lookup_eventStep_iff (h : eventStep decode cfg s ev = some s') {pubkey : Pubkey}
    {sender : Sender} :
    s'.packetSubscriptions.lookup pubkey = some sender ↔
      ev.Subscribes pubkey sender ∨
        s.packetSubscriptions.lookup pubkey = some sender ∧
          ¬ EndsSubscription decode cfg pubkey (s, ev) := by
  -- for every arm but the subscription arm only removals count
  have hother : (∀ pubkey sender, ¬ ev.Subscribes pubkey sender) →
      (ev.Subscribes pubkey sender ∨ s.packetSubscriptions.lookup pubkey = some sender ∧
          ¬ EndsSubscription decode cfg pubkey (s, ev) ↔
        s.packetSubscriptions.lookup pubkey = some sender ∧ ¬ Removes decode cfg pubkey s ev) := by
    intro hnever
    simp [EndsSubscription, hnever]
  rcases eventStep_cases h with ⟨_, _, rfl, rfl⟩ | ⟨batches, cache, order, env, rfl, -, -, rfl⟩ |
    ⟨key, new, rfl, rfl⟩ | ⟨order, trySend, rfl, -, rfl⟩ | ⟨order, trySend, rfl, horder, rfl⟩ |
    ⟨rfl, rfl⟩
  · rw [hother (by simp [LoopEvent.Subscribes])]
    exact kept_iff_of_silent rfl (by simp [LoopEvent.ReadsUnhealthy])
  · rw [hother (by simp [LoopEvent.Subscribes])]
    refine lookup_drop_closed (.packets (some batches) cache order env) ?_
      (by simp [LoopEvent.ReadsUnhealthy])
    rw [applyAll_eq]
  · by_cases hkey : pubkey = key
    · subst hkey
      have hends : EndsSubscription decode cfg pubkey (s, .subscription (some (pubkey, new))) :=
        .inl ⟨new, rfl⟩
      simp [LoopEvent.Subscribes, hends, AList.lookup_insert]
    · have hnever : ∀ sender, ¬ LoopEvent.Subscribes pubkey sender (.subscription (some (key, new))) := by
        intro sender heq
        cases heq
        exact hkey rfl
      simp only [hnever, false_or, EndsSubscription, exists_false, AList.lookup_insert_ne hkey]
      exact kept_iff_of_silent rfl (by simp [LoopEvent.ReadsUnhealthy])
  · rw [hother (by simp [LoopEvent.Subscribes])]
    refine lookup_drop_closed (.heartbeat .healthy order trySend) ?_
      (by simp [LoopEvent.ReadsUnhealthy])
    rw [applyAll_eq]
  · rw [hother (by simp [LoopEvent.Subscribes]), lookup_drop_all pubkey horder]
    have hremoves : Removes decode cfg pubkey s (.heartbeat .unhealthy order trySend) :=
      .inl ⟨order, trySend, rfl⟩
    simp [hremoves]
  · rw [hother (by simp [LoopEvent.Subscribes])]
    exact kept_iff_of_silent rfl (by simp [LoopEvent.ReadsUnhealthy])

/-! ## Whole runs -/

/-- `sender` came with a subscription of `pubkey`, and no later turn replaced or removed
it. -/
def SubscribedSince (decode : List UInt8 → Option VersionedTransaction) (cfg : LoopConfig)
    (events : List LoopEvent) (pubkey : Pubkey) (sender : Sender) : Prop :=
  HeldSince (fun p => p.2.Subscribes pubkey sender) (EndsSubscription decode cfg pubkey)
    (visited (eventStep decode cfg) LoopState.init events)

/-- No sender is subscribed under two keys: `subscribe_packets` makes a channel of its own
for every subscription. -/
def OwnSenders (events : List LoopEvent) : Prop :=
  ∀ {pubkey pubkey' sender}, .subscription (some (pubkey, sender)) ∈ events →
    .subscription (some (pubkey', sender)) ∈ events → pubkey = pubkey'

/-- After every run the map holds exactly the senders that are subscribed since. -/
theorem lookup_iff_subscribedSince {events : List LoopEvent}
    (hrun : runSteps (eventStep decode cfg) LoopState.init events = some s) {pubkey : Pubkey}
    {sender : Sender} :
    s.packetSubscriptions.lookup pubkey = some sender ↔
      SubscribedSince decode cfg events pubkey sender := by
  -- by induction on the run from its end
  induction events using List.reverseRecOn generalizing s with
  | nil =>
    cases hrun
    simp only [SubscribedSince, visited, not_heldSince_nil, iff_false]
    simp [LoopState.init]
  | append_singleton events ev ih =>
    rw [runSteps_concat] at hrun
    obtain ⟨t, ht, hstep⟩ := Option.bind_eq_some_iff.mp hrun
    have hvisited : visited (eventStep decode cfg) LoopState.init (events ++ [ev]) =
        visited (eventStep decode cfg) LoopState.init events ++ [(t, ev)] := by
      rw [visited_append ht]
      simp [visited, hstep]
    unfold SubscribedSince at ih ⊢
    rw [lookup_eventStep_iff hstep, ih ht, hvisited, heldSince_concat]

/-- A subscribed sender stands in a subscription event of the run. -/
theorem SubscribedSince.event_mem {events : List LoopEvent} {pubkey : Pubkey} {sender : Sender}
    (h : SubscribedSince decode cfg events pubkey sender) :
    .subscription (some (pubkey, sender)) ∈ events := by
  obtain ⟨before, ⟨t, ev⟩, after, hvisited, hsubscribes, -⟩ := h
  cases hsubscribes
  have hmem : (t, LoopEvent.subscription (some (pubkey, sender))) ∈
      visited (eventStep decode cfg) LoopState.init events := by
    rw [hvisited]
    exact List.mem_append_right _ List.mem_cons_self
  exact label_mem_of_mem_visited hmem

/-- What an event of the loop, from `s₀` to `s`, the last of `events`, does to the
subscription map. -/
structure MapIntegrity (decode : List UInt8 → Option VersionedTransaction) (cfg : LoopConfig)
    (events : List LoopEvent) (ev : LoopEvent) (s₀ s : LoopState) : Prop where
  /-- an entry is the last subscription of its key, not removed since -/
  entries : ∀ pubkey sender, s.packetSubscriptions.lookup pubkey = some sender ↔
    SubscribedSince decode cfg events pubkey sender
  /-- a key is removed only by `Unhealthy` or by the answer of its own sender -/
  removed : ∀ pubkey sender, s₀.packetSubscriptions.lookup pubkey = some sender →
    s.packetSubscriptions.lookup pubkey = none →
    ev.ReadsUnhealthy ∨ ∃ offer ∈ s.offers.drop s₀.offers.length,
      offer.pubkey = pubkey ∧ offer.sender = sender ∧ offer.result = .closed
  /-- a sender that answered `Closed` is not in the map any more -/
  closed : ∀ offer ∈ s.offers.drop s₀.offers.length, offer.result = .closed →
    s.packetSubscriptions.lookup offer.pubkey = none ∧
      (OwnSenders events → ∀ pubkey, s.packetSubscriptions.lookup pubkey ≠ some offer.sender)
  /-- an `Unhealthy` tick empties the map -/
  emptied : ev.ReadsUnhealthy → s.packetSubscriptions.keys = []
  /-- a sender that answered nothing but `Ok` and `Full` stays, unless a new one replaces
  it -/
  kept : ∀ pubkey sender, s₀.packetSubscriptions.lookup pubkey = some sender →
    ¬ ev.ReadsUnhealthy →
    (∀ offer ∈ s.offers.drop s₀.offers.length, offer.sender = sender → offer.result ≠ .closed) →
    s.packetSubscriptions.lookup pubkey = some sender ∨
      ∃ newSender, ev.Subscribes pubkey newSender

/-- Why a turn takes a sender out of the map: another one took its place, the relayer was
unhealthy, or the sender itself answered `Closed`. -/
theorem ended_cases (h : eventStep decode cfg s ev = some s') {pubkey : Pubkey} {sender : Sender}
    (hbefore : s.packetSubscriptions.lookup pubkey = some sender)
    (hafter : s'.packetSubscriptions.lookup pubkey ≠ some sender) :
    (∃ newSender, ev.Subscribes pubkey newSender) ∨ ev.ReadsUnhealthy ∨
      ∃ offer ∈ eventOffers decode cfg s ev,
        offer.pubkey = pubkey ∧ offer.sender = sender ∧ offer.result = .closed := by
  have hends : EndsSubscription decode cfg pubkey (s, ev) := by
    by_contra hnot
    exact hafter ((lookup_eventStep_iff h).mpr (.inr ⟨hbefore, hnot⟩))
  rcases hends with hsubscribes | hunhealthy | ⟨offer, hmem, hpubkey, hstored, hresult⟩
  · exact .inl hsubscribes
  · exact .inr (.inl hunhealthy)
  · rw [hbefore, Option.some.injEq] at hstored
    exact .inr (.inr ⟨offer, hmem, hpubkey, hstored.symm, hresult⟩)

/-- The key of a sender that answered `Closed` is gone after the turn. -/
theorem lookup_eq_none_of_closed (h : eventStep decode cfg s ev = some s') {offer : Offer}
    (hmem : offer ∈ eventOffers decode cfg s ev) (hresult : offer.result = .closed) :
    s'.packetSubscriptions.lookup offer.pubkey = none := by
  rw [Option.eq_none_iff_forall_ne_some]
  intro sender hlookup
  rcases (lookup_eventStep_iff h).mp hlookup with hsubscribes | ⟨-, hkept⟩
  · cases hsubscribes
    cases hmem
  · exact hkept (.inr (.inr ⟨offer, hmem, rfl, stored_of_mem_eventOffers hmem, hresult⟩))

/-- An `Unhealthy` tick leaves nobody in the map. -/
theorem keys_eq_nil_of_readsUnhealthy (h : eventStep decode cfg s ev = some s')
    (hunhealthy : ev.ReadsUnhealthy) : s'.packetSubscriptions.keys = [] := by
  refine List.eq_nil_iff_forall_not_mem.mpr ?_
  intro pubkey hmem
  rw [← AList.mem_keys, ← AList.lookup_isSome, Option.isSome_iff_exists] at hmem
  obtain ⟨sender, hlookup⟩ := hmem
  rcases (lookup_eventStep_iff h).mp hlookup with hsubscribes | ⟨-, hkept⟩
  · obtain ⟨order, trySend, rfl⟩ := hunhealthy
    cases hsubscribes
  · exact hkept (.inr (.inl hunhealthy))

/-- After every event of every run of the loop the subscription map is exactly what the
subscriptions and the answers of the senders make it. -/
theorem subscription_map_integrity (decode : List UInt8 → Option VersionedTransaction)
    (cfg : LoopConfig) (events : List LoopEvent) (ev : LoopEvent) (s₀ s : LoopState)
    (hrun : runSteps (eventStep decode cfg) LoopState.init events = some s₀)
    (hstep : eventStep decode cfg s₀ ev = some s) :
    MapIntegrity decode cfg (events ++ [ev]) ev s₀ s := by
  have hrun' : runSteps (eventStep decode cfg) LoopState.init (events ++ [ev]) = some s := by
    rw [runSteps_concat, hrun, Option.bind_some, hstep]
  have hoffers : s.offers.drop s₀.offers.length = eventOffers decode cfg s₀ ev := by
    rw [offers_eventStep hstep, List.drop_left]
  constructor
  case entries =>
    intro pubkey sender
    exact lookup_iff_subscribedSince hrun'
  case removed =>
    intro pubkey sender hbefore hafter
    rw [hoffers]
    rcases ended_cases hstep hbefore (by rw [hafter]; simp) with ⟨newSender, hsubscribes⟩ | hended
    · rw [(lookup_eventStep_iff hstep).mpr (.inl hsubscribes)] at hafter
      cases hafter
    · exact hended
  case closed =>
    intro offer hmem hresult
    rw [hoffers] at hmem
    have hnone := lookup_eq_none_of_closed hstep hmem hresult
    refine ⟨hnone, ?_⟩
    intro hown pubkey hlookup
    have hsince := (lookup_iff_subscribedSince hrun).mp (stored_of_mem_eventOffers hmem)
    have hkey : pubkey = offer.pubkey :=
      hown ((lookup_iff_subscribedSince hrun').mp hlookup).event_mem
        (List.mem_append_left _ hsince.event_mem)
    rw [hkey, hnone] at hlookup
    cases hlookup
  case emptied => exact keys_eq_nil_of_readsUnhealthy hstep
  case kept =>
    intro pubkey sender hbefore hhealthy hanswers
    rw [hoffers] at hanswers
    by_contra hnot
    rw [not_or] at hnot
    rcases ended_cases hstep hbefore hnot.1 with
      hsubscribes | hunhealthy | ⟨offer, hmem, -, hsender, hresult⟩
    · exact hnot.2 hsubscribes
    · exact hhealthy hunhealthy
    · exact hanswers offer hmem hsender hresult

/-- A loop that forwards everything to everyone. -/
abbrev forwardAllStep : LoopState → LoopEvent → Option LoopState :=
  eventStep (fun _ => none) ⟨∅, 4, true, 5⟩

/-- One validator connects twice, another once. -/
def reconnectRun : List LoopEvent :=
  [ .subscription (some (uniformKey 7, 0))
  , .subscription (some (uniformKey 7, 1))
  , .subscription (some (uniformKey 8, 2)) ]

/-- The fresh channel of the first validator is full, that of the second is closed. -/
def fullAndClosedTick : LoopEvent :=
  .heartbeat .healthy [uniformKey 7, uniformKey 8]
    fun pubkey => if pubkey = uniformKey 7 then .full else .closed

theorem subscription_map_integrity_reconnect :
    ∃ s₀ s, runSteps forwardAllStep LoopState.init reconnectRun = some s₀ ∧
      forwardAllStep s₀ fullAndClosedTick = some s ∧
      s.packetSubscriptions.lookup (uniformKey 7) = some 1 ∧
      s.packetSubscriptions.lookup (uniformKey 8) = none ∧
      MapIntegrity (fun _ => none) ⟨∅, 4, true, 5⟩ (reconnectRun ++ [fullAndClosedTick])
        fullAndClosedTick s₀ s := by
  have hrun : (runSteps forwardAllStep LoopState.init (reconnectRun ++ [fullAndClosedTick])).map
      (fun s => (s.packetSubscriptions.lookup (uniformKey 7),
        s.packetSubscriptions.lookup (uniformKey 8))) = some (some 1, none) := by decide
  obtain ⟨s, hs, hmap⟩ := Option.map_eq_some_iff.mp hrun
  rw [runSteps_concat] at hs
  obtain ⟨s₀, hs₀, hstep⟩ := Option.bind_eq_some_iff.mp hs
  rw [Prod.mk.injEq] at hmap
  exact ⟨s₀, s, hs₀, hstep, hmap.1, hmap.2, subscription_map_integrity _ _ _ _ s₀ s hs₀ hstep⟩

/-! ## The loop behind the services -/

section Services

variable {Ip : Type}

/-- The event a step of the composed system serves in the loop. -/
def AuthLabel.loopEvent : AuthLabel Ip → Option LoopEvent
  | .loopTurn event => some event
  | _ => none

/-- The events of the loop in a run of the composed system. -/
def loopEvents (ls : List (AuthLabel Ip)) : List LoopEvent := ls.filterMap AuthLabel.loopEvent

/-- The subscription an event brings. -/
def LoopEvent.subscription? : LoopEvent → Option (Pubkey × Sender)
  | .subscription maybeSubscription => maybeSubscription
  | _ => none

variable [DecidableEq Ip] {env : AuthEnv Ip}

/-- After the steps `done` the loop is where its own events lead it, and the senders it was
given and will be given are numbered as `subscribe_packets` made them. -/
structure LoopInv (decode : List UInt8 → Option VersionedTransaction) (cfg : LoopConfig)
    (done : List (AuthLabel Ip)) (s : AuthState Ip) : Prop where
  loop : runSteps (eventStep decode cfg) LoopState.init (loopEvents done) = some s.loopState
  numbered : ((loopEvents done).filterMap LoopEvent.subscription? ++ s.subscriptionQueue).map
    Prod.snd = List.range s.nextSender

omit [DecidableEq Ip] in
theorem loopEvents_concat_of_none (done : List (AuthLabel Ip)) {label : AuthLabel Ip}
    (hlabel : label.loopEvent = none) : loopEvents (done ++ [label]) = loopEvents done := by
  simp [loopEvents, hlabel]

omit [DecidableEq Ip] in
/-- A step that is not a turn of the loop and touches neither the loop nor its channel. -/
theorem LoopInv.frame {done : List (AuthLabel Ip)} {s s' : AuthState Ip} {label : AuthLabel Ip}
    (hinv : LoopInv decode cfg done s) (hlabel : label.loopEvent = none)
    (hloop : s'.loopState = s.loopState) (hqueue : s'.subscriptionQueue = s.subscriptionQueue)
    (hnext : s'.nextSender = s.nextSender) : LoopInv decode cfg (done ++ [label]) s' := by
  constructor
  · rw [loopEvents_concat_of_none done hlabel, hloop]
    exact hinv.loop
  · rw [loopEvents_concat_of_none done hlabel, hqueue, hnext]
    exact hinv.numbered

/-- A turn of the loop takes its subscription from the head of the channel. -/
theorem LoopInv.loopTurn {done : List (AuthLabel Ip)} {s s' : AuthState Ip} {event : LoopEvent}
    (hinv : LoopInv decode cfg done s)
    (hstep : authStep env decode cfg s (.loopTurn event) = some s') :
    LoopInv decode cfg (done ++ [.loopTurn event]) s' := by
  have hevents : loopEvents (done ++ [.loopTurn event]) = loopEvents done ++ [event] := by
    simp [loopEvents, AuthLabel.loopEvent]
  simp only [authStep, AuthLabel.request, backgroundStep, Option.ite_none_right_eq_some,
    Option.bind_eq_some_iff, Option.map_eq_some_iff] at hstep
  obtain ⟨-, queue, hreceive, loopState, hturn, rfl⟩ := hstep
  constructor
  · rw [hevents, runSteps_concat, hinv.loop]
    exact hturn
  · have hnumbered := hinv.numbered
    rw [hevents, List.filterMap_append, ← hnumbered]
    rcases receive_cases hreceive with ⟨head, rfl, hqueue⟩ | ⟨hother, rfl⟩
    · simp [LoopEvent.subscription?, hqueue]
    · have hnone : event.subscription? = none := by
        cases event with
        | subscription maybeSubscription => exact absurd rfl (hother maybeSubscription)
        | _ => rfl
      simp [hnone]

/-- Every step of the composed system. -/
theorem LoopInv.step {done : List (AuthLabel Ip)} {s s' : AuthState Ip} {label : AuthLabel Ip}
    (hinv : LoopInv decode cfg done s) (hstep : authStep env decode cfg s label = some s') :
    LoopInv decode cfg (done ++ [label]) s' := by
  cases hlabel : label.loopEvent with
  | some event =>
    cases label with
    | loopTurn event' => exact hinv.loopTurn hstep
    | _ => cases hlabel
  | none =>
    cases move_of_authStep hstep with
    | @subscribed id extension pubkey hcall hchecks =>
      constructor
      · rw [loopEvents_concat_of_none done hlabel]
        exact hinv.loop
      · rw [loopEvents_concat_of_none done hlabel]
        simp only [AuthState.settle]
        rw [← List.append_assoc, List.map_append, hinv.numbered, List.range_succ]
        rfl
    | loopTurn hreceive hturn => cases hlabel
    | _ => exact hinv.frame hlabel rfl rfl rfl

/-- Behind the services the loop runs as it does alone, and every sender it is given is
one key's: what `MapIntegrity` says of a run of the loop holds there, with nothing left to
assume about the senders. -/
theorem loopEvents_of_run (health : HealthState) (auther : Pubkey → Bool)
    (ls : List (AuthLabel Ip)) {s : AuthState Ip}
    (hrun : runSteps (authStep env decode cfg) (AuthState.init health auther) ls = some s) :
    runSteps (eventStep decode cfg) LoopState.init (loopEvents ls) = some s.loopState ∧
      OwnSenders (loopEvents ls) := by
  have hstart : LoopInv decode cfg [] (AuthState.init health auther : AuthState Ip) := ⟨rfl, rfl⟩
  have hmeets : StepsMeet (authStep env decode cfg) (fun _ _ => True)
      (AuthState.init health auther) ls := fun _ _ => trivial
  have hinv : LoopInv decode cfg ls s :=
    runSteps_labelInvariant (LoopInv decode cfg)
      (fun _ _ _ _ hinv _ hstep => hinv.step hstep) ls [] hstart hmeets hrun
  refine ⟨hinv.loop, ?_⟩
  -- the senders handed to the loop are the first numbers, each once
  have hnodup : ((loopEvents ls).filterMap LoopEvent.subscription?).map Prod.snd |>.Nodup := by
    have hall : ((loopEvents ls).filterMap LoopEvent.subscription? ++
        s.subscriptionQueue).map Prod.snd |>.Nodup := by
      rw [hinv.numbered]
      exact List.nodup_range
    rw [List.map_append] at hall
    exact hall.of_append_left
  intro pubkey pubkey' sender hmem hmem'
  have hpair : (pubkey, sender) = (pubkey', sender) :=
    List.inj_on_of_nodup_map hnodup
      (List.mem_filterMap.mpr ⟨_, hmem, rfl⟩) (List.mem_filterMap.mpr ⟨_, hmem', rfl⟩) rfl
  exact congrArg Prod.fst hpair

end Services

end FlowraRelayer.Relayer
