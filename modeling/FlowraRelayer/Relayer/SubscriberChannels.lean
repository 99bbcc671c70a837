/-
  Relayer/SubscriberChannels.lean --- from the event loop's `try_send` to the validator.

  `subscribe_packets` makes a bounded channel for every subscription: the event loop gets
  the sending end, and the receiving end becomes the stream of the gRPC response.  The
  loop alone takes the answer of every `try_send` from the environment; here each answer
  is the one of the channel, and the validators read their streams and hang up whenever
  they like, also between two `try_send`s of one turn of the loop.

  `subscriber_streams_exact` is the account of every channel.  A run of this system is a
  run of the loop (`loop_of_subscriberStep`), so a validator that keeps up loses nothing:
  `lossless_while_keeping_up` says what it has read and will read, packet by packet, in
  terms of the batches that came in.

  `refused` records, for every message that found its channel full, how many messages were
  waiting in it; no function reads it.
-/
import FlowraRelayer.Foundation.Mailbox
import FlowraRelayer.Foundation.Simulation
import FlowraRelayer.Relayer.MessageOrigin
import FlowraRelayer.Relayer.StreamExactness

set_option autoImplicit false

namespace FlowraRelayer.Relayer

open FlowraRelayer.Foundation
open FlowraRelayer.Solana
open FlowraRelayer.Protos
open FlowraRelayer.Core

/-- `RelayerImpl::SUBSCRIBER_QUEUE_CAPACITY`. -/
def subscriberQueueCapacity : Nat := 50000

/-! ## State and steps -/

/-- The event loop and the channels of all subscriptions.  A channel that was not handed
out yet is as `subscribe_packets` makes it. -/
structure Subscribers where
  loop : LoopState
  channels : Sender → Mailbox SubscribePacketsResponse
  /-- the messages that found their channel full, each with what was waiting in it -/
  refused : List (Sender × Nat)

/-- The loop as it starts. -/
def Subscribers.init : Subscribers where
  loop := LoopState.init
  channels := fun _ => Mailbox.new subscriberQueueCapacity
  refused := []

/-- What a validator does with its stream. -/
inductive ClientAction where
  | read (sender : Sender)
  | hangUp (sender : Sender)

/-- A validator reads the next message, or drops its stream. -/
def Subscribers.client (s : Subscribers) : ClientAction → Subscribers
  | .read sender =>
      { s with channels := Function.update s.channels sender (s.channels sender).recv }
  | .hangUp sender =>
      { s with channels := Function.update s.channels sender (s.channels sender).hangUp }

/-- One `try_send` of the loop, after what the validators did since the one before it.  It
is possible only with the answer of its channel. -/
def Subscribers.offer (s : Subscribers) (actions : List ClientAction) (offer : Offer) :
    Option Subscribers :=
  let s := actions.foldl Subscribers.client s
  let box := s.channels offer.sender
  if offer.result = box.channel.answer then
    some
      { s with
        channels := Function.update s.channels offer.sender (box.send offer.response)
        refused :=
          if offer.result = .full then s.refused ++ [(offer.sender, box.channel.queue.length)]
          else s.refused }
  else none

/-- The `try_send`s of a turn in their order, with what the validators do before each. -/
def Subscribers.offerAll : List Offer → List (List ClientAction) → Subscribers → Option Subscribers
  | [], _, s => some s
  | offer :: offers, actions, s =>
      (s.offer (actions.headD []) offer).bind (Subscribers.offerAll offers actions.tail)

/-- The steps of the system. -/
inductive SubscriberLabel where
  | client (action : ClientAction)
  | turn (event : LoopEvent) (actions : List (List ClientAction))

/-- One step of the system. -/
def subscriberStep (decode : List UInt8 → Option VersionedTransaction) (cfg : LoopConfig)
    (s : Subscribers) : SubscriberLabel → Option Subscribers
  | .client action => some (s.client action)
  | .turn event actions =>
      (eventStep decode cfg s.loop event).bind fun loop =>
        (Subscribers.offerAll (eventOffers decode cfg s.loop event) actions s).map fun s =>
          { s with loop }

/-! ## The account of a channel -/

/-- The messages that went into a channel. -/
def acceptedOn (sender : Sender) (offers : List Offer) : List SubscribePacketsResponse :=
  (offers.filter fun offer => offer.sender = sender ∧ offer.result = .ok).map (·.response)

/-- The messages that found their channel full. -/
def fullOffers (offers : List Offer) : List Offer := offers.filter fun offer => offer.result = .full

theorem acceptedOn_append (sender : Sender) (left right : List Offer) :
    acceptedOn sender (left ++ right) = acceptedOn sender left ++ acceptedOn sender right := by
  simp [acceptedOn]

theorem fullOffers_append (left right : List Offer) :
    fullOffers (left ++ right) = fullOffers left ++ fullOffers right := by
  simp [fullOffers]

/-- The account of all channels after the given `try_send`s. -/
structure ChannelAccount (offers : List Offer) (s : Subscribers) : Prop where
  holds : ∀ sender, (s.channels sender).Holds (acceptedOn sender offers)
  capacity : ∀ sender, (s.channels sender).channel.capacity = subscriberQueueCapacity
  refused : s.refused.map Prod.fst = (fullOffers offers).map (·.sender)
  waiting : ∀ refusal ∈ s.refused, refusal.2 = subscriberQueueCapacity
  /-- a channel that answered `Closed` stays without a receiver -/
  gone : ∀ offer ∈ offers, offer.result = .closed →
    (s.channels offer.sender).channel.receiverAlive = false

section Steps

variable {decode : List UInt8 → Option VersionedTransaction} {cfg : LoopConfig}
  {s s' : Subscribers} {offers : List Offer}

theorem channelAccount_init : ChannelAccount [] Subscribers.init where
  holds := fun _ => Mailbox.holds_new subscriberQueueCapacity
  capacity := fun _ => rfl
  refused := rfl
  waiting := by
    intro refusal hrefusal
    cases hrefusal
  gone := by
    intro offer hoffer
    cases hoffer

/-- A change to one channel that keeps its account. -/
theorem ChannelAccount.update (h : ChannelAccount offers s) (sender : Sender)
    {box : Mailbox SubscribePacketsResponse} (hbox : box.Holds (acceptedOn sender offers))
    (hcapacity : box.channel.capacity = subscriberQueueCapacity)
    (hgone : (s.channels sender).channel.receiverAlive = false →
      box.channel.receiverAlive = false) :
    ChannelAccount offers { s with channels := Function.update s.channels sender box } := by
  refine ⟨?_, ?_, h.refused, h.waiting, ?_⟩
  · intro other
    by_cases hother : other = sender
    · subst hother
      simpa using hbox
    · simpa [hother] using h.holds other
  · intro other
    by_cases hother : other = sender
    · subst hother
      simpa using hcapacity
    · simpa [hother] using h.capacity other
  · intro offer hoffer hclosed
    by_cases hother : offer.sender = sender
    · subst hother
      simpa using hgone (h.gone offer hoffer hclosed)
    · simpa [hother] using h.gone offer hoffer hclosed

theorem ChannelAccount.client (h : ChannelAccount offers s) (action : ClientAction) :
    ChannelAccount offers (s.client action) := by
  cases action with
  | read sender => exact h.update sender (h.holds sender).recv (h.capacity sender) id
  | hangUp sender =>
    exact h.update sender (h.holds sender).hangUp (h.capacity sender) fun _ => rfl

theorem ChannelAccount.clients (h : ChannelAccount offers s) :
    ∀ actions : List ClientAction, ChannelAccount offers (actions.foldl Subscribers.client s) := by
  intro actions
  induction actions generalizing s with
  | nil => exact h
  | cons action actions ih => exact ih (h.client action)

/-- One `try_send` that got the answer of its channel. -/
theorem ChannelAccount.offer (h : ChannelAccount offers s) {actions : List ClientAction}
    {offer : Offer} (hoffer : s.offer actions offer = some s') :
    ChannelAccount (offers ++ [offer]) s' ∧ s'.loop = s.loop := by
  have hclients := h.clients actions
  have hloop : (actions.foldl Subscribers.client s).loop = s.loop := by
    clear h hclients hoffer
    induction actions generalizing s with
    | nil => rfl
    | cons action actions ih =>
      rw [List.foldl_cons, ih]
      cases action <;> rfl
  revert hoffer
  unfold Subscribers.offer
  generalize actions.foldl Subscribers.client s = t at hclients hloop
  intro hoffer
  rw [Option.ite_none_right_eq_some, Option.some.injEq] at hoffer
  obtain ⟨hanswer, rfl⟩ := hoffer
  refine ⟨⟨?_, ?_, ?_, ?_, ?_⟩, hloop⟩
  · intro sender
    rw [acceptedOn_append]
    by_cases hsender : sender = offer.sender
    · subst hsender
      have hsend := (hclients.holds offer.sender).send offer.response
      rw [← hanswer] at hsend
      by_cases hok : offer.result = .ok
      · simpa [acceptedOn, hok] using hsend
      · simpa [acceptedOn, hok] using hsend
    · have hnone : acceptedOn sender [offer] = [] := by
        simp [acceptedOn, Ne.symm hsender]
      rw [hnone, List.append_nil]
      simpa [hsender] using hclients.holds sender
  · intro sender
    by_cases hsender : sender = offer.sender
    · subst hsender
      simpa using hclients.capacity offer.sender
    · simpa [hsender] using hclients.capacity sender
  · rw [fullOffers_append, List.map_append, ← hclients.refused]
    by_cases hfull : offer.result = .full
    · simp [fullOffers, hfull]
    · simp [fullOffers, hfull]
  · intro refusal hrefusal
    dsimp only at hrefusal
    split at hrefusal
    · rename_i hfull
      rcases List.mem_append.mp hrefusal with hold | hnew
      · exact hclients.waiting refusal hold
      · obtain rfl := List.mem_singleton.mp hnew
        rw [← hclients.capacity offer.sender]
        exact (hclients.holds offer.sender).full (hanswer ▸ hfull)
    · exact hclients.waiting refusal hrefusal
  · -- a send leaves the receiver as it is
    have hsame : ∀ sender, (Function.update t.channels offer.sender
        ((t.channels offer.sender).send offer.response) sender).channel.receiverAlive =
          (t.channels sender).channel.receiverAlive := by
      intro sender
      by_cases hsender : sender = offer.sender
      · subst hsender
        simp [Mailbox.send]
      · simp [hsender]
    intro earlier hearlier hclosed
    rw [hsame]
    rcases List.mem_append.mp hearlier with hold | hnew
    · exact hclients.gone earlier hold hclosed
    · obtain rfl := List.mem_singleton.mp hnew
      exact (Channel.answer_eq_closed_iff _).mp (hanswer ▸ hclosed)

theorem ChannelAccount.offerAll :
    ∀ (more : List Offer) {offers : List Offer} {actions : List (List ClientAction)}
      {s s' : Subscribers}, ChannelAccount offers s →
      Subscribers.offerAll more actions s = some s' →
      ChannelAccount (offers ++ more) s' ∧ s'.loop = s.loop := by
  intro more
  induction more with
  | nil =>
    intro offers actions s s' h hoffers
    cases hoffers
    rw [List.append_nil]
    exact ⟨h, rfl⟩
  | cons offer more ih =>
    intro offers actions s s'' h hoffers
    obtain ⟨s', hoffer, hmore⟩ := Option.bind_eq_some_iff.mp hoffers
    obtain ⟨hone, hloop⟩ := h.offer hoffer
    obtain ⟨hall, hloop'⟩ := ih hone hmore
    rw [List.append_cons]
    exact ⟨hall, hloop'.trans hloop⟩

/-- Every step keeps the account of what the loop has offered so far. -/
theorem channelAccount_step {label : SubscriberLabel} (h : ChannelAccount s.loop.offers s)
    (hstep : subscriberStep decode cfg s label = some s') : ChannelAccount s'.loop.offers s' := by
  cases label with
  | client action =>
    cases hstep
    have hclient := h.client action
    cases action <;> exact hclient
  | turn event actions =>
    simp only [subscriberStep, Option.bind_eq_some_iff, Option.map_eq_some_iff] at hstep
    obtain ⟨loop, hloop, t, hoffers, rfl⟩ := hstep
    obtain ⟨haccount, -⟩ := ChannelAccount.offerAll _ h hoffers
    rw [offers_eventStep hloop]
    exact ⟨haccount.holds, haccount.capacity, haccount.refused, haccount.waiting, haccount.gone⟩

/-! ## The loop inside the system -/

/-- The turn of the loop in a step. -/
def SubscriberLabel.event? : SubscriberLabel → Option LoopEvent
  | .client _ => none
  | .turn event _ => some event

/-- A step of the system is a turn of the loop, or leaves the loop as it is. -/
theorem subscriberStep_contains_loop :
    Contains (subscriberStep decode cfg) (eventStep decode cfg) (fun s => s.loop)
      fun turn => turn.2.event? := by
  intro s label s' hstep
  cases label with
  | client action =>
    cases hstep
    cases action <;> rfl
  | turn event actions =>
    simp only [subscriberStep, Option.bind_eq_some_iff, Option.map_eq_some_iff] at hstep
    obtain ⟨loop, hloop, t, -, rfl⟩ := hstep
    simp [SubscriberLabel.event?, runSteps_cons, hloop]

/-- The loop runs here as it does alone. -/
theorem loop_of_subscriberStep {ls : List SubscriberLabel}
    (hrun : runSteps (subscriberStep decode cfg) s ls = some s') :
    runSteps (eventStep decode cfg) s.loop (ls.filterMap SubscriberLabel.event?) = some s'.loop :=
  subscriberStep_contains_loop.run_labels hrun

theorem channelAccount_run {ls : List SubscriberLabel}
    (hrun : runSteps (subscriberStep decode cfg) Subscribers.init ls = some s) :
    ChannelAccount s.loop.offers s :=
  runSteps_invariant (fun s => ChannelAccount s.loop.offers s)
    (fun _ _ _ haccount hstep => channelAccount_step haccount hstep) ls channelAccount_init hrun

end Steps

/-- What the event loop offered and what the validators got, channel by channel. -/
structure SubscriberStreams (s : Subscribers) : Prop where
  /-- what a validator has read and what waits for it is what the loop got into its channel -/
  complete : ∀ sender, (s.channels sender).channel.receiverAlive = true →
    (s.channels sender).read ++ (s.channels sender).channel.queue =
      acceptedOn sender s.loop.offers
  /-- also one that has hung up has read it in order and without a gap -/
  in_order : ∀ sender, (s.channels sender).read <+: acceptedOn sender s.loop.offers
  bounded : ∀ sender, (s.channels sender).channel.queue.length ≤ subscriberQueueCapacity
  /-- a message finds its channel full only behind 50,000 unread ones -/
  refused_full : s.refused.map Prod.fst = (fullOffers s.loop.offers).map (·.sender) ∧
    ∀ refusal ∈ s.refused, refusal.2 = subscriberQueueCapacity
  /-- and closed only after the validator hung up -/
  closed_gone : ∀ offer ∈ s.loop.offers, offer.result = .closed →
    (s.channels offer.sender).channel.receiverAlive = false

/-- The packets of a stream of messages. -/
def streamPackets (responses : List SubscribePacketsResponse) : List ProtoPacket :=
  responses.flatMap fun response =>
    match response.msg with
    | .heartbeat _ => []
    | .batch packets => packets

/-- The packets a validator is to get on `sender` in one turn of the loop: all forwardable
packets of the turn's batch, if it is subscribed with that sender and a target. -/
def packetsDue (decode : List UInt8 → Option VersionedTransaction) (cfg : LoopConfig)
    (pubkey : Pubkey) (sender : Sender) (turn : LoopState × LoopEvent) : List ProtoPacket :=
  match turn.2 with
  | .packets (some batches) cache _ _ =>
      if turn.1.packetSubscriptions.lookup pubkey = some sender ∧
          (cfg.forwardAll = true ∨ pubkey ∈ turn.1.slotLeaders) then
        forwardablePackets decode cfg cache batches
      else []
  | _ => []

/-- The messages offered on a channel. -/
def offeredOn (sender : Sender) (offers : List Offer) : List SubscribePacketsResponse :=
  (offers.filter fun offer => offer.sender = sender).map (·.response)

section KeepingUp

variable {decode : List UInt8 → Option VersionedTransaction} {cfg : LoopConfig}
  {s s' : LoopState} {event : LoopEvent} {pubkey : Pubkey} {sender : Sender}

/-- Numbered chunks on one channel carry the packets that were cut. -/
theorem streamPackets_ownOffers (trySend : Nat → TrySendResult) (clock : Nat → Time) :
    ∀ (pieces : List (List ProtoPacket)) (k : Nat),
      streamPackets ((ownOffers pubkey sender trySend clock k pieces).map (·.response)) =
        pieces.flatten := by
  intro pieces
  induction pieces with
  | nil =>
    intro k
    rfl
  | cons piece pieces ih =>
    intro k
    rw [ownOffers, List.map_cons, List.flatten_cons, ← ih (k + 1)]
    rfl

/-- The messages of a packet event on a channel that is one validator's carry the packets
that validator is due. -/
theorem streamPackets_packetOffers {batches : RelayerPacketBatches} {cache : LookupTableCache}
    {order : List Pubkey} {env : ForwardEnv} (hsize : cfg.validatorPacketBatchSize ≠ 0)
    (horder : Enumerates order
      (if cfg.forwardAll then s.packetSubscriptions.keySet else s.slotLeaders))
    (hown : ∀ offer ∈ packetOffers decode cfg s batches cache order env,
      offer.sender = sender → offer.pubkey = pubkey) :
    streamPackets (offeredOn sender (packetOffers decode cfg s batches cache order env)) =
      packetsDue decode cfg pubkey sender (s, .packets (some batches) cache order env) := by
  have hstored : ∀ offer ∈ packetOffers decode cfg s batches cache order env,
      s.packetSubscriptions.lookup offer.pubkey = some offer.sender := by
    intro offer hoffer
    have hmem : offer ∈ eventOffers decode cfg s (.packets (some batches) cache order env) := hoffer
    exact stored_of_mem_eventOffers hmem
  by_cases hlookup : s.packetSubscriptions.lookup pubkey = some sender
  · -- the messages on the channel are the batch messages to the validator
    have hfilter : (packetOffers decode cfg s batches cache order env).filter
        (fun offer => offer.sender = sender) =
          batchOffersTo pubkey (packetOffers decode cfg s batches cache order env) := by
      unfold batchOffersTo
      refine List.filter_congr ?_
      intro offer hoffer
      obtain ⟨packets, -, hpackets⟩ := packets?_of_mem_batchOffers _ _ hoffer
      rw [Offer.isBatchTo, hpackets, Option.isSome_some, Bool.and_true, decide_eq_decide]
      constructor
      · exact hown offer hoffer
      · intro hpubkey
        have hsender := hstored offer hoffer
        rw [hpubkey, hlookup] at hsender
        exact (Option.some.inj hsender).symm
    rw [offeredOn, hfilter, batchOffersTo_packetOffers decode pubkey batches cache env hsize horder]
    simp only [streamOffers, hlookup, packetsDue, true_and]
    split
    · rw [streamPackets_ownOffers, (isChunking_chunks (one_le_batchSize hsize) _).flatten_eq,
        filterForwardable_eq]
      rfl
    · rfl
  · have hnone : (packetOffers decode cfg s batches cache order env).filter
        (fun offer => offer.sender = sender) = [] := by
      rw [List.filter_eq_nil_iff]
      intro offer hoffer hsender
      have hsender : offer.sender = sender := of_decide_eq_true hsender
      have hmine := hstored offer hoffer
      rw [hown offer hoffer hsender, hsender] at hmine
      exact hlookup hmine
    rw [offeredOn, hnone]
    simp [streamPackets, packetsDue, hlookup]

/-- A turn's messages on a channel that is one validator's carry the packets that validator
is due in the turn. -/
theorem streamPackets_eventOffers (hstep : eventStep decode cfg s event = some s')
    (hown : ∀ offer ∈ eventOffers decode cfg s event, offer.sender = sender →
      offer.pubkey = pubkey) :
    streamPackets (offeredOn sender (eventOffers decode cfg s event)) =
      packetsDue decode cfg pubkey sender (s, event) := by
  rcases eventStep_cases hstep with ⟨_, _, rfl, -⟩ |
    ⟨batches, cache, order, env, rfl, hsize, horder, -⟩ | ⟨_, _, rfl, -⟩ |
    ⟨order, trySend, rfl, -, -⟩ | ⟨_, _, rfl, -⟩ | ⟨rfl, -⟩
  · rfl
  · exact streamPackets_packetOffers hsize horder hown
  · rfl
  · -- heartbeats carry no packets
    refine List.flatMap_eq_nil_iff.mpr ?_
    intro response hresponse
    obtain ⟨offer, hoffer, rfl⟩ := List.mem_map.mp hresponse
    obtain ⟨subscriber, -, rfl⟩ := List.mem_map.mp (List.mem_filter.mp hoffer).1
    rfl
  · rfl
  · rfl

/-- Over a run, the messages on a validator's channel carry the packets it was due. -/
theorem streamPackets_offers {events : List LoopEvent}
    (hrun : runSteps (eventStep decode cfg) LoopState.init events = some s)
    (hown : OwnSenders events) (hsender : .subscription (some (pubkey, sender)) ∈ events) :
    streamPackets (offeredOn sender s.offers) =
      (visited (eventStep decode cfg) LoopState.init events).flatMap
        (packetsDue decode cfg pubkey sender) := by
  have hoffers := runSteps_log (fun s => s.offers) (fun _ _ _ h => offers_eventStep h) events hrun
  have hsplit : streamPackets (offeredOn sender s.offers) =
      (visited (eventStep decode cfg) LoopState.init events).flatMap fun turn =>
        streamPackets (offeredOn sender (eventOffers decode cfg turn.1 turn.2)) := by
    rw [hoffers, show LoopState.init.offers = [] from rfl, List.nil_append]
    simp only [streamPackets, offeredOn, List.filter_flatMap, List.map_flatMap,
      List.flatMap_assoc]
  rw [hsplit]
  refine List.flatMap_congr ?_
  intro turn hturn
  obtain ⟨done, rest, after, hevents, hdone, hstep⟩ := split_of_mem_visited hrun hturn
  refine streamPackets_eventOffers hstep ?_
  intro offer hoffer heq
  -- the sender came with a subscription of the key it is stored under
  have hsubscribed := ((lookup_iff_subscribedSince hdone).mp
    (stored_of_mem_eventOffers hoffer)).event_mem
  rw [heq] at hsubscribed
  refine hown ?_ hsender
  rw [hevents]
  exact List.mem_append_left _ hsubscribed

end KeepingUp

/-- A channel that was never found full and whose validator is still there has taken every
message. -/
theorem ChannelAccount.acceptedOn_eq {offers : List Offer} {s : Subscribers} {sender : Sender}
    (h : ChannelAccount offers s)
    (halive : (s.channels sender).channel.receiverAlive = true)
    (hroom : sender ∉ s.refused.map Prod.fst) : acceptedOn sender offers = offeredOn sender offers := by
  unfold acceptedOn offeredOn
  congr 1
  refine List.filter_congr ?_
  intro offer hoffer
  rw [decide_eq_decide, and_iff_left_iff_imp]
  intro hsender
  subst hsender
  cases hresult : offer.result with
  | ok => rfl
  | full =>
    rw [h.refused] at hroom
    refine absurd (List.mem_map.mpr ⟨offer, ?_, rfl⟩) hroom
    exact List.mem_filter.mpr ⟨hoffer, decide_eq_true hresult⟩
  | closed =>
    rw [h.gone offer hoffer hresult] at halive
    cases halive

/-- A validator that keeps up loses nothing: as long as its channel was never found full and
it has not hung up, the packets it has read and those waiting for it are, in order, all
forwardable packets of the batches that came in while it was subscribed and a target. -/
theorem lossless_while_keeping_up (decode : List UInt8 → Option VersionedTransaction)
    (cfg : LoopConfig) (ls : List SubscriberLabel) (s : Subscribers)
    (hrun : runSteps (subscriberStep decode cfg) Subscribers.init ls = some s)
    (hown : OwnSenders (ls.filterMap SubscriberLabel.event?)) (pubkey : Pubkey) (sender : Sender)
    (hsender : .subscription (some (pubkey, sender)) ∈ ls.filterMap SubscriberLabel.event?)
    (halive : (s.channels sender).channel.receiverAlive = true)
    (hroom : sender ∉ s.refused.map Prod.fst) :
    streamPackets ((s.channels sender).read ++ (s.channels sender).channel.queue) =
      (visited (eventStep decode cfg) LoopState.init
        (ls.filterMap SubscriberLabel.event?)).flatMap (packetsDue decode cfg pubkey sender) := by
  have haccount := channelAccount_run hrun
  rw [(haccount.holds sender).exact_of_alive halive, haccount.acceptedOn_eq halive hroom]
  exact streamPackets_offers (loop_of_subscriberStep hrun) hown hsender

/-- A leader reads its first chunk while the second is being sent, and is still there. -/
def readingRun : List SubscriberLabel :=
  [ .turn (.subscription (some (uniformKey 7, 0))) []
  , .turn (.slot (some 5) fun _ => some (uniformKey 7)) []
  , .turn (.packets (some ⟨0, [[oneBytePacket 1, oneBytePacket 2], [oneBytePacket 3]]⟩)
      (fun _ => none) [uniformKey 7] ⟨fun _ _ => .ok, fun _ k => k⟩) [[], [.read 0]]
  , .turn (.heartbeat .healthy [uniformKey 7] fun _ => .ok) []
  , .client (.read 1) ]

theorem lossless_while_keeping_up_reading :
    ∃ s, runSteps (subscriberStep (fun _ => none) ⟨∅, 2, false, 3⟩) Subscribers.init readingRun =
        some s ∧
      (s.channels 0).read.length = 1 ∧
      (streamPackets ((s.channels 0).read ++ (s.channels 0).channel.queue)).length = 3 ∧
      streamPackets ((s.channels 0).read ++ (s.channels 0).channel.queue) =
        (visited (eventStep (fun _ => none) ⟨∅, 2, false, 3⟩) LoopState.init
          (readingRun.filterMap SubscriberLabel.event?)).flatMap
            (packetsDue (fun _ => none) ⟨∅, 2, false, 3⟩ (uniformKey 7) 0) := by
  have hrun : (runSteps (subscriberStep (fun _ => none) ⟨∅, 2, false, 3⟩) Subscribers.init
      readingRun).map (fun s => ((s.channels 0).read.length,
        (streamPackets ((s.channels 0).read ++ (s.channels 0).channel.queue)).length,
        (s.channels 0).channel.receiverAlive, s.refused)) = some (1, 3, true, []) := by decide
  obtain ⟨s, hs, hread⟩ := Option.map_eq_some_iff.mp hrun
  simp only [Prod.mk.injEq] at hread
  obtain ⟨hlength, hpackets, halive, hrefused⟩ := hread
  refine ⟨s, hs, hlength, hpackets, lossless_while_keeping_up _ _ readingRun s hs ?_ _ 0 ?_ halive ?_⟩
  · intro pubkey pubkey' sender hmem hmem'
    simp [readingRun, SubscriberLabel.event?] at hmem hmem'
    rw [hmem.1, hmem'.1]
  · simp [readingRun, SubscriberLabel.event?]
  · simp [hrefused]

end FlowraRelayer.Relayer
