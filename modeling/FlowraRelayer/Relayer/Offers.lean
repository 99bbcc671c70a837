/-
  Relayer/Offers.lean --- what a turn of the event loop does, as a list of offers.

  Both sending functions of the loop, `forward_packets` and `handle_heartbeat`,
  are nested loops around one `try_send`.  Here each of them is rewritten once as
  "apply this list of offers to the state, and report the pubkeys whose channel
  answered `Closed`" (`sendBatches_eq`, `handleHeartbeat_eq`).  Later modules
  reason about that list and never unfold the loops again.
-/
import FlowraRelayer.Relayer.EventLoop

set_option autoImplicit false

namespace FlowraRelayer.Relayer

open FlowraRelayer.Foundation
open FlowraRelayer.Solana
open FlowraRelayer.Protos

/-! ## Applying one offer -/

/-- The counter an offer moves: packets forwarded or dropped for a batch, the
channel-full count for a heartbeat, none when the channel is closed. -/
def RelayerMetrics.tally (m : RelayerMetrics) (offer : Offer) : RelayerMetrics :=
  match offer.response.msg, offer.result with
  | .batch packets, .ok => m.incrementPacketsForwarded offer.pubkey packets.length
  | .batch packets, .full => m.incrementPacketsDropped offer.pubkey packets.length
  | .heartbeat _, .full => { m with numTrySendChannelFull := m.numTrySendChannelFull + 1 }
  | _, _ => m

/-- The effect of one `try_send` on the loop state. -/
def LoopState.apply (s : LoopState) (offer : Offer) : LoopState :=
  { s.record offer with metrics := s.metrics.tally offer }

/-- The effect of a list of `try_send`s. -/
def LoopState.applyAll (s : LoopState) (offers : List Offer) : LoopState :=
  offers.foldl LoopState.apply s

/-- The pubkeys whose channel answered `Closed`, once per answer. -/
def closedPubkeys (offers : List Offer) : List Pubkey :=
  (offers.filter fun offer => offer.result = .closed).map (·.pubkey)

@[simp] theorem closedPubkeys_nil : closedPubkeys [] = [] := rfl

theorem closedPubkeys_append (left right : List Offer) :
    closedPubkeys (left ++ right) = closedPubkeys left ++ closedPubkeys right := by
  simp [closedPubkeys]

theorem closedPubkeys_cons (offer : Offer) (offers : List Offer) :
    closedPubkeys (offer :: offers) = closedPubkeys [offer] ++ closedPubkeys offers :=
  closedPubkeys_append [offer] offers

theorem mem_closedPubkeys {offers : List Offer} {pubkey : Pubkey} :
    pubkey ∈ closedPubkeys offers ↔
      ∃ offer ∈ offers, offer.pubkey = pubkey ∧ offer.result = .closed := by
  simp only [closedPubkeys, List.mem_map, List.mem_filter, decide_eq_true_eq]
  constructor
  · rintro ⟨offer, ⟨hmem, hclosed⟩, hpubkey⟩
    exact ⟨offer, hmem, hpubkey, hclosed⟩
  · rintro ⟨offer, hmem, hpubkey, hclosed⟩
    exact ⟨offer, ⟨hmem, hclosed⟩, hpubkey⟩

theorem applyAll_append (s : LoopState) (left right : List Offer) :
    s.applyAll (left ++ right) = (s.applyAll left).applyAll right := by
  simp [LoopState.applyAll]

/-- Applying offers only appends to the record, moves counters and leaves the
rest of the state alone. -/
theorem applyAll_eq (s : LoopState) (offers : List Offer) :
    s.applyAll offers =
      { s with
        metrics := offers.foldl RelayerMetrics.tally s.metrics
        offers := s.offers ++ offers
        delivered := s.delivered ++ offers.filter fun offer => offer.result = .ok
        window := s.window ++ offers } := by
  induction offers generalizing s with
  | nil => simp [LoopState.applyAll]
  | cons offer offers ih =>
    have hcons : s.applyAll (offer :: offers) = (s.apply offer).applyAll offers := rfl
    rw [hcons, ih]
    by_cases hok : offer.result = .ok
    · simp [LoopState.apply, LoopState.record, hok]
    · simp [LoopState.apply, LoopState.record, hok]

@[simp] theorem tally_numHeartbeats (m : RelayerMetrics) (offer : Offer) :
    (m.tally offer).numHeartbeats = m.numHeartbeats := by
  unfold RelayerMetrics.tally
  split <;> rfl

/-- What no offer moves, a list of offers does not. -/
theorem foldl_tally_eq {γ : Type} {field : RelayerMetrics → γ}
    (htally : ∀ m offer, field (m.tally offer) = field m) (offers : List Offer) :
    ∀ m : RelayerMetrics, field (offers.foldl RelayerMetrics.tally m) = field m := by
  induction offers with
  | nil =>
    intro m
    rfl
  | cons offer rest ih =>
    intro m
    rw [List.foldl_cons, ih, htally]

/-! ## `forward_packets` -/

/-- Batch number `k` offered to one subscriber. -/
def batchOffer (env : ForwardEnv) (k : Nat) (packets : List ProtoPacket)
    (subscriber : Pubkey × Sender) : Offer where
  pubkey := subscriber.1
  sender := subscriber.2
  response := ⟨some (env.clock subscriber.1 k), .batch packets⟩
  result := env.trySend subscriber.1 k

/-- All offers of the nested loops, in the order they are made. -/
def batchOffers (env : ForwardEnv) (senders : List (Pubkey × Sender)) :
    Nat → List (List ProtoPacket) → List Offer
  | _, [] => []
  | k, packets :: rest =>
      (if packets = [] then [] else senders.map (batchOffer env k packets)) ++
        batchOffers env senders (k + 1) rest

theorem sendBatch_eq (env : ForwardEnv) (k : Nat) (packets : List ProtoPacket) (s : LoopState)
    (failed : List Pubkey) (subscriber : Pubkey × Sender) :
    sendBatch env k packets (s, failed) subscriber =
      (s.apply (batchOffer env k packets subscriber),
        failed ++ closedPubkeys [batchOffer env k packets subscriber]) := by
  obtain ⟨pubkey, sender⟩ := subscriber
  cases hresult : env.trySend pubkey k <;>
    simp [sendBatch, LoopState.apply, LoopState.record, RelayerMetrics.tally, batchOffer,
      closedPubkeys, hresult]

theorem foldl_sendBatch_eq (env : ForwardEnv) (k : Nat) (packets : List ProtoPacket) :
    ∀ (senders : List (Pubkey × Sender)) (s : LoopState) (failed : List Pubkey),
      senders.foldl (sendBatch env k packets) (s, failed) =
        (s.applyAll (senders.map (batchOffer env k packets)),
          failed ++ closedPubkeys (senders.map (batchOffer env k packets))) := by
  intro senders
  induction senders with
  | nil => intro s failed; simp [LoopState.applyAll]
  | cons subscriber senders ih =>
    intro s failed
    rw [List.foldl_cons, sendBatch_eq, ih, List.map_cons,
      closedPubkeys_cons _ (senders.map (batchOffer env k packets)), List.append_assoc]
    rfl

/-- The nested loops of `forward_packets` apply their offers in order and report
the closed channels. -/
theorem sendBatches_eq (env : ForwardEnv) (senders : List (Pubkey × Sender)) :
    ∀ (batches : List (List ProtoPacket)) (k : Nat) (s : LoopState) (failed : List Pubkey),
      sendBatches env senders k batches (s, failed) =
        (s.applyAll (batchOffers env senders k batches),
          failed ++ closedPubkeys (batchOffers env senders k batches)) := by
  intro batches
  induction batches with
  | nil => intro k s failed; simp [sendBatches, batchOffers, LoopState.applyAll]
  | cons packets rest ih =>
    intro k s failed
    unfold sendBatches batchOffers
    by_cases hempty : packets = []
    · rw [if_pos hempty, if_pos hempty, ih, List.nil_append]
    · rw [if_neg hempty, if_neg hempty, foldl_sendBatch_eq, ih, applyAll_append,
        closedPubkeys_append, List.append_assoc]

/-! ## `handle_heartbeat` -/

/-- A heartbeat offered to one subscriber. -/
def heartbeatOffer (trySend : Pubkey → TrySendResult) (count : UInt64)
    (subscriber : Pubkey × Sender) : Offer where
  pubkey := subscriber.1
  sender := subscriber.2
  response := ⟨none, .heartbeat count⟩
  result := trySend subscriber.1

theorem sendHeartbeat_eq (trySend : Pubkey → TrySendResult) (s : LoopState)
    (failed : List Pubkey) (subscriber : Pubkey × Sender) :
    sendHeartbeat trySend (s, failed) subscriber =
      (s.apply (heartbeatOffer trySend s.metrics.numHeartbeats subscriber),
        failed ++ closedPubkeys [heartbeatOffer trySend s.metrics.numHeartbeats subscriber]) := by
  obtain ⟨pubkey, sender⟩ := subscriber
  cases hresult : trySend pubkey <;>
    simp [sendHeartbeat, LoopState.apply, LoopState.record, RelayerMetrics.tally, heartbeatOffer,
      closedPubkeys, hresult]

theorem foldl_sendHeartbeat_eq (trySend : Pubkey → TrySendResult) (count : UInt64) :
    ∀ (subscribers : List (Pubkey × Sender)) (s : LoopState) (failed : List Pubkey),
      s.metrics.numHeartbeats = count →
      subscribers.foldl (sendHeartbeat trySend) (s, failed) =
        (s.applyAll (subscribers.map (heartbeatOffer trySend count)),
          failed ++ closedPubkeys (subscribers.map (heartbeatOffer trySend count))) := by
  intro subscribers
  induction subscribers with
  | nil => intro s failed _; simp [LoopState.applyAll]
  | cons subscriber subscribers ih =>
    intro s failed hcount
    -- every heartbeat of one tick carries the count read before the first
    have hnext : (s.apply (heartbeatOffer trySend count subscriber)).metrics.numHeartbeats =
        count := by
      simp [LoopState.apply, hcount]
    rw [List.foldl_cons, sendHeartbeat_eq, hcount, ih _ _ hnext, List.map_cons,
      closedPubkeys_cons _ (subscribers.map (heartbeatOffer trySend count)), List.append_assoc]
    rfl

theorem handleHeartbeat_eq (subscribers : List (Pubkey × Sender))
    (trySend : Pubkey → TrySendResult) (s : LoopState) :
    handleHeartbeat subscribers trySend s =
      let offers := subscribers.map (heartbeatOffer trySend s.metrics.numHeartbeats)
      let t := s.applyAll offers
      ({ t with metrics := { t.metrics with numHeartbeats := t.metrics.numHeartbeats + 1 } },
        closedPubkeys offers) := by
  simp only [handleHeartbeat]
  rw [foldl_sendHeartbeat_eq trySend s.metrics.numHeartbeats subscribers s [] rfl]
  rfl

/-! ## `drop_connections` -/

theorem lookup_foldl_erase (pubkey : Pubkey) :
    ∀ (dropped : List Pubkey) (subscriptions : PacketSubscriptions),
      (dropped.foldl (fun m k => m.erase k) subscriptions).lookup pubkey =
        if pubkey ∈ dropped then none else subscriptions.lookup pubkey := by
  intro dropped
  induction dropped with
  | nil => intro subscriptions; simp
  | cons k dropped ih =>
    intro subscriptions
    rw [List.foldl_cons, ih]
    by_cases hk : pubkey = k
    · subst hk
      simp
    · simp [hk, AList.lookup_erase_ne hk]

theorem lookup_dropConnections (pubkey : Pubkey) (dropped : List Pubkey) (s : LoopState) :
    (dropConnections dropped s).packetSubscriptions.lookup pubkey =
      if pubkey ∈ dropped then none else s.packetSubscriptions.lookup pubkey :=
  lookup_foldl_erase pubkey dropped s.packetSubscriptions

/-! ## One turn of the loop -/

/-- The subscribers an iteration order reaches, with their senders. -/
def subscribersIn (s : LoopState) (order : List Pubkey) : List (Pubkey × Sender) :=
  order.filterMap fun pubkey =>
    (s.packetSubscriptions.lookup pubkey).map fun sender => (pubkey, sender)

/-- The offers of one packet event. -/
def packetOffers (decode : List UInt8 → Option VersionedTransaction) (cfg : LoopConfig)
    (s : LoopState) (batches : RelayerPacketBatches) (cache : LookupTableCache)
    (order : List Pubkey) (env : ForwardEnv) : List Offer :=
  batchOffers env (subscribersIn s order) 0
    (Foundation.chunks cfg.validatorPacketBatchSize.toNat
      (filterForwardable decode cfg.ofacAddresses cache batches.bankingPacketBatch))

/-- The offers of one healthy heartbeat tick. -/
def heartbeatOffers (s : LoopState) (order : List Pubkey) (trySend : Pubkey → TrySendResult) :
    List Offer :=
  (subscribersIn s order).map (heartbeatOffer trySend s.metrics.numHeartbeats)

/-- Everything a turn of the loop can do, arm by arm. -/
theorem eventStep_cases {decode : List UInt8 → Option VersionedTransaction} {cfg : LoopConfig}
    {s s' : LoopState} {ev : LoopEvent} (h : eventStep decode cfg s ev = some s') :
    (∃ slot schedule, ev = .slot (some slot) schedule ∧
      s' = { s with
        highestSlot := slot
        metrics := { s.metrics with highestSlot := slot }
        slotLeaders := leadersForSlots schedule (slotWindow slot cfg.slotLookahead) }) ∨
    (∃ batches cache order env, ev = .packets (some batches) cache order env ∧
      cfg.validatorPacketBatchSize ≠ 0 ∧
      Enumerates order (if cfg.forwardAll then s.packetSubscriptions.keySet else s.slotLeaders) ∧
      s' = dropConnections (closedPubkeys (packetOffers decode cfg s batches cache order env))
        (s.applyAll (packetOffers decode cfg s batches cache order env))) ∨
    (∃ pubkey sender, ev = .subscription (some (pubkey, sender)) ∧
      s' = { s with
        metrics := if pubkey ∈ s.packetSubscriptions then s.metrics
          else { s.metrics with numAddedConnections := s.metrics.numAddedConnections + 1 }
        packetSubscriptions := s.packetSubscriptions.insert pubkey sender }) ∨
    (∃ order trySend, ev = .heartbeat .healthy order trySend ∧
      Enumerates order s.packetSubscriptions.keySet ∧
      s' = dropConnections (closedPubkeys (heartbeatOffers s order trySend))
        { s.applyAll (heartbeatOffers s order trySend) with
          metrics :=
            { (s.applyAll (heartbeatOffers s order trySend)).metrics with
              numHeartbeats :=
                (s.applyAll (heartbeatOffers s order trySend)).metrics.numHeartbeats + 1 } }) ∨
    (∃ order trySend, ev = .heartbeat .unhealthy order trySend ∧
      Enumerates order s.packetSubscriptions.keySet ∧ s' = dropConnections order s) ∨
    (ev = .metrics ∧
      s' = { s with
        metrics := RelayerMetrics.new
        window := []
        reported := s.reported ++
          [({ s.metrics with
              numCurrentConnections := UInt64.ofNat s.packetSubscriptions.keys.length },
            s.window)] }) := by
  unfold eventStep at h
  split at h
  · rename_i hvalid
    cases ev with
    | slot maybeSlot schedule =>
      cases maybeSlot with
      | none => cases h
      | some slot =>
        cases h
        exact Or.inl ⟨slot, schedule, rfl, rfl⟩
    | packets maybePacketBatches cache order env =>
      cases maybePacketBatches with
      | none => cases h
      | some batches =>
        have horder := hvalid _ rfl
        by_cases hsize : cfg.validatorPacketBatchSize = 0
        · simp [handleEvent, forwardPackets, hsize, bind, Except.bind, Except.toOption] at h
        · refine Or.inr (Or.inl ⟨batches, cache, order, env, rfl, hsize, horder, ?_⟩)
          simp only [handleEvent, forwardPackets, hsize, if_false, sendBatches_eq] at h
          cases h
          rfl
    | subscription maybeSubscription =>
      cases maybeSubscription with
      | none => cases h
      | some subscription =>
        cases h
        exact Or.inr (Or.inr (Or.inl ⟨subscription.1, subscription.2, rfl, rfl⟩))
    | heartbeat health order trySend =>
      have horder := hvalid _ rfl
      cases health with
      | healthy =>
        refine Or.inr (Or.inr (Or.inr (Or.inl ⟨order, trySend, rfl, horder, ?_⟩)))
        simp only [handleEvent, handleHeartbeat_eq] at h
        cases h
        rfl
      | unhealthy =>
        cases h
        exact Or.inr (Or.inr (Or.inr (Or.inr (Or.inl ⟨order, trySend, rfl, horder, rfl⟩))))
    | metrics =>
      cases h
      exact Or.inr (Or.inr (Or.inr (Or.inr (Or.inr ⟨rfl, rfl⟩))))
  · cases h

/-- A subscriber after a turn was one before it, with the same sender, or is the one
that turn subscribed. -/
theorem lookup_eventStep {decode : List UInt8 → Option VersionedTransaction} {cfg : LoopConfig}
    {s s' : LoopState} {ev : LoopEvent} (h : eventStep decode cfg s ev = some s')
    {pubkey : Pubkey} {sender : Sender}
    (hlookup : s'.packetSubscriptions.lookup pubkey = some sender) :
    s.packetSubscriptions.lookup pubkey = some sender ∨
      ev = .subscription (some (pubkey, sender)) := by
  have hdropped : ∀ (dropped : List Pubkey) (t : LoopState),
      (dropConnections dropped t).packetSubscriptions.lookup pubkey = some sender →
      t.packetSubscriptions.lookup pubkey = some sender := by
    intro dropped t ht
    rw [lookup_dropConnections] at ht
    split at ht
    · exact absurd ht (by simp)
    · exact ht
  rcases eventStep_cases h with ⟨_, _, -, rfl⟩ | ⟨batches, cache, order, env, -, -, -, rfl⟩ |
    ⟨key, newSender, rfl, rfl⟩ | ⟨order, trySend, -, -, rfl⟩ | ⟨order, _, -, -, rfl⟩ | ⟨-, rfl⟩
  · exact .inl hlookup
  · refine .inl ?_
    simpa [applyAll_eq] using hdropped _ _ hlookup
  · by_cases hkey : pubkey = key
    · subst hkey
      simp only [AList.lookup_insert, Option.some.injEq] at hlookup
      exact .inr (by rw [hlookup])
    · simp only [AList.lookup_insert_ne hkey] at hlookup
      exact .inl hlookup
  · refine .inl ?_
    simpa [applyAll_eq] using hdropped _ _ hlookup
  · exact .inl (hdropped _ _ hlookup)
  · exact .inl hlookup

end FlowraRelayer.Relayer
