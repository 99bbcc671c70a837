/-
  Relayer/PacketStream.lean --- the packet stream of one validator.

  The event loop serves all validators in nested loops over hash collections.
  This file gives what one validator is owed, with no other validator in it: a
  `ValidatorView` and its step function `viewStep`, which sees the leader flag of
  that validator, its own subscriptions and its own channel's answers.
  `viewOf_eventStep` shows that the loop refines this machine, whatever the
  iteration orders and whoever else is subscribed, and the exactness result is
  read off the machine.
-/
import FlowraRelayer.Relayer.Offers

set_option autoImplicit false

namespace FlowraRelayer.Relayer

open FlowraRelayer.Foundation
open FlowraRelayer.Solana
open FlowraRelayer.Protos
open FlowraRelayer.Core

/-! ## What is forwardable -/

/-- A packet validators may see: not discarded and, with a nonempty OFAC set,
deserialisable and not OFAC related. -/
def Forwardable (decode : List UInt8 → Option VersionedTransaction) (ofacAddresses : Finset Pubkey)
    (cache : LookupTableCache) (p : Packet) : Prop :=
  p.discard = false ∧
    (ofacAddresses ≠ ∅ →
      ∃ tx, p.deserializeSlice decode = some tx ∧ isTxOfacRelated tx ofacAddresses cache = false)

instance (decode : List UInt8 → Option VersionedTransaction) (ofacAddresses : Finset Pubkey)
    (cache : LookupTableCache) (p : Packet) :
    Decidable (Forwardable decode ofacAddresses cache p) :=
  match h : p.deserializeSlice decode with
  | none => decidable_of_iff (p.discard = false ∧ ofacAddresses = ∅) (by simp [Forwardable, h])
  | some tx =>
      decidable_of_iff
        (p.discard = false ∧
          (ofacAddresses ≠ ∅ → isTxOfacRelated tx ofacAddresses cache = false))
        (by simp [Forwardable, h])

theorem filterMap_passOfac (decode : List UInt8 → Option VersionedTransaction)
    (ofacAddresses : Finset Pubkey) (cache : LookupTableCache) (packets : List Packet) :
    (packets.filter fun p => !p.discard).filterMap (passOfac decode ofacAddresses cache) =
      packets.filter fun p => decide (Forwardable decode ofacAddresses cache p) := by
  rw [List.filterMap_filter, ← List.filterMap_eq_filter]
  apply List.filterMap_congr
  intro p _
  by_cases hdiscard : p.discard = true
  · simp [Forwardable, Option.guard, hdiscard]
  · by_cases hofac : ofacAddresses = ∅
    · simp [Forwardable, Option.guard, passOfac, hdiscard, hofac]
    · cases htx : p.deserializeSlice decode with
      | none => simp [Forwardable, Option.guard, passOfac, hdiscard, hofac, htx]
      | some tx =>
        cases hrelated : isTxOfacRelated tx ofacAddresses cache <;>
          simp [Forwardable, Option.guard, passOfac, hdiscard, hofac, htx, hrelated]

/-- The filter of `forward_packets` keeps exactly the forwardable, convertible
packets, in input order. -/
theorem filterForwardable_eq (decode : List UInt8 → Option VersionedTransaction)
    (ofacAddresses : Finset Pubkey) (cache : LookupTableCache) (batch : BankingPacketBatch) :
    filterForwardable decode ofacAddresses cache batch =
      (batch.flatten.filter fun p => decide (Forwardable decode ofacAddresses cache p)).filterMap
        packetToProtoPacket := by
  unfold filterForwardable
  simp only [filterMap_passOfac]
  induction batch with
  | nil => rfl
  | cons packets batch ih =>
    rw [List.flatMap_cons, ih, List.flatten_cons, List.filter_append, List.filterMap_append]

/-! ## The machine of one validator -/

/-- What the event loop holds and has done for one validator. -/
structure ValidatorView where
  sender : Option Sender
  leading : Bool
  offered : List Offer
  delivered : List Offer
  window : List Offer
  stats : Option PacketForwardStats

/-- What one validator can notice of an event of the loop. -/
inductive ViewEvent where
  | slot (leading : Bool)
  | packets (packets : List ProtoPacket) (trySend : Nat → TrySendResult) (clock : Nat → Time)
  | subscribe (sender : Sender)
  | heartbeat (health : HealthState) (result : TrySendResult)
  | metrics

/-- Consecutive batches offered to one sender, numbered from `k`. -/
def ownOffers (pubkey : Pubkey) (sender : Sender) (trySend : Nat → TrySendResult)
    (clock : Nat → Time) : Nat → List (List ProtoPacket) → List Offer
  | _, [] => []
  | k, packets :: rest =>
      { pubkey, sender, response := ⟨some (clock k), .batch packets⟩, result := trySend k } ::
        ownOffers pubkey sender trySend clock (k + 1) rest

/-- How one batch offer moves the counters of its validator. -/
def tallyStats (stats : Option PacketForwardStats) (offer : Offer) : Option PacketForwardStats :=
  match offer.response.msg, offer.result with
  | .batch packets, .ok =>
      some ((stats.map fun entry =>
        { entry with
          numPacketsForwarded := saturatingAdd entry.numPacketsForwarded packets.length }).getD
        ⟨packets.length, 0⟩)
  | .batch packets, .full =>
      some ((stats.map fun entry =>
        { entry with
          numPacketsDropped := saturatingAdd entry.numPacketsDropped packets.length }).getD
        ⟨0, packets.length⟩)
  | _, _ => stats

/-- One event, seen by one validator. -/
def viewStep (cfg : LoopConfig) (pubkey : Pubkey) (v : ValidatorView) : ViewEvent → ValidatorView
  | .slot leading => { v with leading }
  | .packets packets trySend clock =>
      match v.sender with
      | none => v
      | some sender =>
          if cfg.forwardAll || v.leading then
            let offers := ownOffers pubkey sender trySend clock 0
              (chunks cfg.validatorPacketBatchSize.toNat packets)
            { v with
              sender := if offers.any fun offer => offer.result = .closed then none else some sender
              offered := v.offered ++ offers
              delivered := v.delivered ++ offers.filter fun offer => offer.result = .ok
              window := v.window ++ offers
              stats := offers.foldl tallyStats v.stats }
          else v
  | .subscribe sender => { v with sender := some sender }
  | .heartbeat .healthy result => if result = .closed then { v with sender := none } else v
  | .heartbeat .unhealthy _ => { v with sender := none }
  | .metrics => { v with window := [], stats := none }

/-! ## Reading a view off the loop -/

/-- A batch message offered to the given validator. -/
def Offer.isBatchTo (pubkey : Pubkey) (offer : Offer) : Bool :=
  decide (offer.pubkey = pubkey) && offer.packets?.isSome

/-- The batch messages offered to one validator. -/
def batchOffersTo (pubkey : Pubkey) (offers : List Offer) : List Offer :=
  offers.filter (Offer.isBatchTo pubkey)

/-- What the loop state holds for one validator. -/
def viewOf (pubkey : Pubkey) (s : LoopState) : ValidatorView where
  sender := s.packetSubscriptions.lookup pubkey
  leading := decide (pubkey ∈ s.slotLeaders)
  offered := batchOffersTo pubkey s.offers
  delivered := batchOffersTo pubkey s.delivered
  window := batchOffersTo pubkey s.window
  stats := s.metrics.packetStatsPerValidator pubkey

/-- What one validator can notice of an event; `none` when nothing. -/
def observe (decode : List UInt8 → Option VersionedTransaction) (cfg : LoopConfig)
    (pubkey : Pubkey) : LoopEvent → Option ViewEvent
  | .slot maybeSlot schedule =>
      maybeSlot.map fun slot =>
        .slot (decide (pubkey ∈ leadersForSlots schedule (slotWindow slot cfg.slotLookahead)))
  | .packets maybePacketBatches cache _ env =>
      maybePacketBatches.map fun batches =>
        .packets (filterForwardable decode cfg.ofacAddresses cache batches.bankingPacketBatch)
          (env.trySend pubkey) (env.clock pubkey)
  | .subscription maybeSubscription =>
      maybeSubscription.bind fun subscription =>
        if subscription.1 = pubkey then some (.subscribe subscription.2) else none
  | .heartbeat health _ trySend => some (.heartbeat health (trySend pubkey))
  | .metrics => some .metrics

theorem batchOffersTo_append (pubkey : Pubkey) (left right : List Offer) :
    batchOffersTo pubkey (left ++ right) =
      batchOffersTo pubkey left ++ batchOffersTo pubkey right := by
  simp [batchOffersTo]

theorem batchOffersTo_filter_ok (pubkey : Pubkey) (offers : List Offer) :
    batchOffersTo pubkey (offers.filter fun offer => offer.result = .ok) =
      (batchOffersTo pubkey offers).filter fun offer => offer.result = .ok := by
  simp only [batchOffersTo, List.filter_filter, Bool.and_comm]

/-! ## The offers of one validator among all offers -/

/-- Among the subscribers an iteration order reaches, a validator occurs once, with
its current sender. -/
theorem filter_subscribersIn (s : LoopState) (pubkey : Pubkey) :
    ∀ {order : List Pubkey}, order.Nodup →
      ((subscribersIn s order).filter fun subscriber => subscriber.1 = pubkey) =
        if pubkey ∈ order then
          ((s.packetSubscriptions.lookup pubkey).map fun sender => (pubkey, sender)).toList
        else [] := by
  intro order hnodup
  induction order with
  | nil => simp [subscribersIn]
  | cons k order ih =>
    obtain ⟨hk, hrest⟩ := List.nodup_cons.mp hnodup
    have ih := ih hrest
    have hcons : subscribersIn s (k :: order) =
        ((s.packetSubscriptions.lookup k).map fun sender => (k, sender)).toList ++
          subscribersIn s order := by
      cases hlookup : s.packetSubscriptions.lookup k <;> simp [subscribersIn, hlookup]
    rw [hcons, List.filter_append, ih]
    by_cases hpk : pubkey = k
    · subst hpk
      cases s.packetSubscriptions.lookup pubkey <;> simp [hk]
    · have hkp : ¬ k = pubkey := fun h => hpk h.symm
      cases s.packetSubscriptions.lookup k <;> simp [hpk, hkp]

theorem batchOffersTo_map_batchOffer (env : ForwardEnv) (k : Nat) (packets : List ProtoPacket)
    (pubkey : Pubkey) (senders : List (Pubkey × Sender)) :
    batchOffersTo pubkey (senders.map (batchOffer env k packets)) =
      (senders.filter fun subscriber => subscriber.1 = pubkey).map (batchOffer env k packets) := by
  unfold batchOffersTo
  rw [List.filter_map]
  congr 1
  apply List.filter_congr
  intro subscriber _
  exact Bool.and_true _

/-- A validator reached by the loop is offered every batch; the others' offers do
not matter. -/
theorem batchOffersTo_batchOffers_of_mem (env : ForwardEnv) {senders : List (Pubkey × Sender)}
    {pubkey : Pubkey} {sender : Sender}
    (hsenders : (senders.filter fun subscriber => subscriber.1 = pubkey) = [(pubkey, sender)]) :
    ∀ (batches : List (List ProtoPacket)) (k : Nat), (∀ packets ∈ batches, packets ≠ []) →
      batchOffersTo pubkey (batchOffers env senders k batches) =
        ownOffers pubkey sender (env.trySend pubkey) (env.clock pubkey) k batches := by
  intro batches
  induction batches with
  | nil => intro k _; rfl
  | cons packets rest ih =>
    intro k hne
    have hpackets : packets ≠ [] := hne packets (by simp)
    have hrest := ih (k + 1) fun piece hpiece => hne piece (by simp [hpiece])
    unfold batchOffers ownOffers
    rw [if_neg hpackets, batchOffersTo_append, batchOffersTo_map_batchOffer, hsenders, hrest]
    rfl

theorem batchOffersTo_batchOffers_of_not_mem (env : ForwardEnv)
    {senders : List (Pubkey × Sender)} {pubkey : Pubkey}
    (hsenders : (senders.filter fun subscriber => subscriber.1 = pubkey) = []) :
    ∀ (batches : List (List ProtoPacket)) (k : Nat),
      batchOffersTo pubkey (batchOffers env senders k batches) = [] := by
  intro batches
  induction batches with
  | nil => intro k; rfl
  | cons packets rest ih =>
    intro k
    unfold batchOffers
    rw [batchOffersTo_append, ih (k + 1), List.append_nil]
    by_cases hempty : packets = []
    · rw [if_pos hempty]
      rfl
    · rw [if_neg hempty, batchOffersTo_map_batchOffer, hsenders, List.map_nil]

/-- What a validator is owed in one packet event: nothing unless it is subscribed
and everything is forwarded or it leads, else every batch on its current sender. -/
def streamOffers (decode : List UInt8 → Option VersionedTransaction) (cfg : LoopConfig)
    (pubkey : Pubkey) (s : LoopState) : LoopEvent → List Offer
  | .packets (some batches) cache _ env =>
      match s.packetSubscriptions.lookup pubkey with
      | none => []
      | some sender =>
          if cfg.forwardAll = true ∨ pubkey ∈ s.slotLeaders then
            ownOffers pubkey sender (env.trySend pubkey) (env.clock pubkey) 0
              (chunks cfg.validatorPacketBatchSize.toNat
                (filterForwardable decode cfg.ofacAddresses cache batches.bankingPacketBatch))
          else []
  | _ => []

theorem mem_order_iff {cfg : LoopConfig} {s : LoopState} {order : List Pubkey} {pubkey : Pubkey}
    {sender : Sender}
    (horder : Enumerates order
      (if cfg.forwardAll then s.packetSubscriptions.keySet else s.slotLeaders))
    (hlookup : s.packetSubscriptions.lookup pubkey = some sender) :
    pubkey ∈ order ↔ cfg.forwardAll = true ∨ pubkey ∈ s.slotLeaders := by
  have hkey : pubkey ∈ s.packetSubscriptions.keySet := by
    have hmem : pubkey ∈ s.packetSubscriptions :=
      AList.lookup_isSome.mp (by rw [hlookup]; rfl)
    exact List.mem_toFinset.mpr (AList.mem_keys.mp hmem)
  rw [← List.mem_toFinset, horder.2]
  cases hall : cfg.forwardAll
  · simp
  · simp [hkey]

/-- The offers of a packet event that concern one validator are the ones it is
owed. -/
theorem batchOffersTo_packetOffers (decode : List UInt8 → Option VersionedTransaction)
    {cfg : LoopConfig} {s : LoopState} (pubkey : Pubkey) (batches : RelayerPacketBatches)
    (cache : LookupTableCache) {order : List Pubkey} (env : ForwardEnv)
    (hsize : cfg.validatorPacketBatchSize ≠ 0)
    (horder : Enumerates order
      (if cfg.forwardAll then s.packetSubscriptions.keySet else s.slotLeaders)) :
    batchOffersTo pubkey (packetOffers decode cfg s batches cache order env) =
      streamOffers decode cfg pubkey s (.packets (some batches) cache order env) := by
  have hpos : 1 ≤ cfg.validatorPacketBatchSize.toNat := by
    rcases Nat.eq_zero_or_pos cfg.validatorPacketBatchSize.toNat with hzero | hpos
    · exact absurd (UInt64.toNat_inj.mp hzero) hsize
    · exact hpos
  have hfilter := filter_subscribersIn s pubkey horder.1
  unfold packetOffers streamOffers
  cases hlookup : s.packetSubscriptions.lookup pubkey with
  | none =>
    rw [hlookup] at hfilter
    exact batchOffersTo_batchOffers_of_not_mem env (by simpa using hfilter) _ 0
  | some sender =>
    simp only [hlookup, Option.map_some, Option.toList_some, mem_order_iff horder hlookup]
      at hfilter
    by_cases htarget : cfg.forwardAll = true ∨ pubkey ∈ s.slotLeaders
    · rw [if_pos htarget] at hfilter
      simp only [htarget, if_true]
      exact batchOffersTo_batchOffers_of_mem env hfilter _ 0 (isChunking_chunks hpos _).ne_nil
    · rw [if_neg htarget] at hfilter
      simp only [htarget, if_false]
      exact batchOffersTo_batchOffers_of_not_mem env hfilter _ 0

/-! ## The loop refines the machine -/

theorem tally_packetStatsPerValidator (m : RelayerMetrics) (offer : Offer) (pubkey : Pubkey) :
    (m.tally offer).packetStatsPerValidator pubkey =
      if offer.isBatchTo pubkey then tallyStats (m.packetStatsPerValidator pubkey) offer
      else m.packetStatsPerValidator pubkey := by
  obtain ⟨owner, sender, ⟨header, msg⟩, result⟩ := offer
  by_cases howner : owner = pubkey
  · subst howner
    cases msg <;> cases result <;>
      simp [RelayerMetrics.tally, RelayerMetrics.incrementPacketsForwarded,
        RelayerMetrics.incrementPacketsDropped, RelayerMetrics.upsertStats, tallyStats,
        Offer.isBatchTo, Offer.packets?]
  · have hother : pubkey ≠ owner := fun h => howner h.symm
    cases msg <;> cases result <;>
      simp [RelayerMetrics.tally, RelayerMetrics.incrementPacketsForwarded,
        RelayerMetrics.incrementPacketsDropped, RelayerMetrics.upsertStats,
        Offer.isBatchTo, Offer.packets?, howner, hother]

theorem foldl_tally_packetStatsPerValidator (pubkey : Pubkey) :
    ∀ (offers : List Offer) (m : RelayerMetrics),
      (offers.foldl RelayerMetrics.tally m).packetStatsPerValidator pubkey =
        (batchOffersTo pubkey offers).foldl tallyStats (m.packetStatsPerValidator pubkey) := by
  intro offers
  induction offers with
  | nil => intro m; rfl
  | cons offer offers ih =>
    intro m
    rw [List.foldl_cons, ih, tally_packetStatsPerValidator]
    unfold batchOffersTo
    rw [List.filter_cons]
    split <;> rfl

theorem viewOf_applyAll (pubkey : Pubkey) (s : LoopState) (offers : List Offer) :
    viewOf pubkey (s.applyAll offers) =
      { viewOf pubkey s with
        offered := (viewOf pubkey s).offered ++ batchOffersTo pubkey offers
        delivered := (viewOf pubkey s).delivered ++
          (batchOffersTo pubkey offers).filter fun offer => offer.result = .ok
        window := (viewOf pubkey s).window ++ batchOffersTo pubkey offers
        stats := (batchOffersTo pubkey offers).foldl tallyStats (viewOf pubkey s).stats } := by
  simp only [applyAll_eq, viewOf, batchOffersTo_append, batchOffersTo_filter_ok,
    foldl_tally_packetStatsPerValidator]

theorem viewOf_dropConnections (pubkey : Pubkey) (dropped : List Pubkey) (s : LoopState) :
    viewOf pubkey (dropConnections dropped s) =
      { viewOf pubkey s with
        sender := if pubkey ∈ dropped then none else (viewOf pubkey s).sender } := by
  simp only [viewOf, lookup_dropConnections]
  rfl

theorem packets?_of_mem_batchOffers {env : ForwardEnv} {senders : List (Pubkey × Sender)}
    {offer : Offer} :
    ∀ (batches : List (List ProtoPacket)) (k : Nat), offer ∈ batchOffers env senders k batches →
      ∃ packets ∈ batches, offer.packets? = some packets := by
  intro batches
  induction batches with
  | nil => intro k h; simp [batchOffers] at h
  | cons packets rest ih =>
    intro k h
    unfold batchOffers at h
    rcases List.mem_append.mp h with h | h
    · split at h
      · simp at h
      · obtain ⟨subscriber, _, rfl⟩ := List.mem_map.mp h
        exact ⟨packets, by simp, rfl⟩
    · obtain ⟨later, hlater, heq⟩ := ih (k + 1) h
      exact ⟨later, by simp [hlater], heq⟩

/-- A packet event closes a validator's connection exactly when one of its own
offers was answered `Closed`. -/
theorem mem_closedPubkeys_packetOffers (decode : List UInt8 → Option VersionedTransaction)
    (cfg : LoopConfig) (s : LoopState) (pubkey : Pubkey) (batches : RelayerPacketBatches)
    (cache : LookupTableCache) (order : List Pubkey) (env : ForwardEnv) :
    pubkey ∈ closedPubkeys (packetOffers decode cfg s batches cache order env) ↔
      ((batchOffersTo pubkey (packetOffers decode cfg s batches cache order env)).any
        fun offer => offer.result = .closed) = true := by
  rw [mem_closedPubkeys]
  simp only [List.any_eq_true, batchOffersTo, List.mem_filter, Offer.isBatchTo, Bool.and_eq_true,
    decide_eq_true_eq]
  constructor
  · rintro ⟨offer, hmem, hpubkey, hclosed⟩
    obtain ⟨packets, _, hpackets⟩ := packets?_of_mem_batchOffers _ _ hmem
    exact ⟨offer, ⟨hmem, hpubkey, by simp [hpackets]⟩, hclosed⟩
  · rintro ⟨offer, ⟨hmem, hpubkey, _⟩, hclosed⟩
    exact ⟨offer, hmem, hpubkey, hclosed⟩

theorem batchOffersTo_heartbeatOffers (pubkey : Pubkey) (s : LoopState) (order : List Pubkey)
    (trySend : Pubkey → TrySendResult) :
    batchOffersTo pubkey (heartbeatOffers s order trySend) = [] := by
  unfold batchOffersTo
  rw [List.filter_eq_nil_iff]
  intro offer hmem
  obtain ⟨subscriber, _, rfl⟩ := List.mem_map.mp hmem
  simp [Offer.isBatchTo, Offer.packets?, heartbeatOffer]

theorem mem_subscribersIn {s : LoopState} {order : List Pubkey} {pubkey : Pubkey}
    {sender : Sender} :
    (pubkey, sender) ∈ subscribersIn s order ↔
      pubkey ∈ order ∧ s.packetSubscriptions.lookup pubkey = some sender := by
  simp only [subscribersIn, List.mem_filterMap, Option.map_eq_some_iff, Prod.mk.injEq]
  constructor
  · rintro ⟨k, hk, sender', hlookup, rfl, rfl⟩
    exact ⟨hk, hlookup⟩
  · rintro ⟨hmem, hlookup⟩
    exact ⟨pubkey, hmem, sender, hlookup, rfl, rfl⟩

/-- A heartbeat tick closes a subscribed validator's connection exactly when its
channel answered `Closed`. -/
theorem mem_closedPubkeys_heartbeatOffers {s : LoopState} {order : List Pubkey}
    (trySend : Pubkey → TrySendResult) {pubkey : Pubkey} {sender : Sender}
    (horder : Enumerates order s.packetSubscriptions.keySet)
    (hlookup : s.packetSubscriptions.lookup pubkey = some sender) :
    pubkey ∈ closedPubkeys (heartbeatOffers s order trySend) ↔ trySend pubkey = .closed := by
  rw [mem_closedPubkeys]
  constructor
  · rintro ⟨offer, hmem, hpubkey, hclosed⟩
    obtain ⟨subscriber, _, rfl⟩ := List.mem_map.mp hmem
    simp only [heartbeatOffer] at hpubkey hclosed
    rw [← hpubkey]
    exact hclosed
  · intro hclosed
    have hkey : pubkey ∈ order := by
      rw [← List.mem_toFinset, horder.2]
      exact List.mem_toFinset.mpr (AList.mem_keys.mp (AList.lookup_isSome.mp (by rw [hlookup]; rfl)))
    exact ⟨heartbeatOffer trySend s.metrics.numHeartbeats (pubkey, sender),
      List.mem_map_of_mem (mem_subscribersIn.mpr ⟨hkey, hlookup⟩), rfl, hclosed⟩

/-- One turn of the loop is one step of the machine of every validator, and no
step at all where the validator can notice nothing. -/
theorem viewOf_eventStep {decode : List UInt8 → Option VersionedTransaction} {cfg : LoopConfig}
    {s s' : LoopState} {ev : LoopEvent} (pubkey : Pubkey)
    (h : eventStep decode cfg s ev = some s') :
    viewOf pubkey s' =
      (observe decode cfg pubkey ev).elim (viewOf pubkey s) (viewStep cfg pubkey (viewOf pubkey s)) := by
  rcases eventStep_cases h with ⟨slot, schedule, rfl, rfl⟩ |
    ⟨batches, cache, order, env, rfl, hsize, horder, rfl⟩ | ⟨owner, sender, rfl, rfl⟩ |
    ⟨order, trySend, rfl, horder, rfl⟩ | ⟨order, trySend, rfl, horder, rfl⟩ | ⟨rfl, rfl⟩
  · rfl
  · have hown := batchOffersTo_packetOffers decode pubkey batches cache env hsize horder
    have hclosed := mem_closedPubkeys_packetOffers decode cfg s pubkey batches cache order env
    rw [viewOf_dropConnections, viewOf_applyAll]
    simp only [hclosed, hown]
    cases hlookup : s.packetSubscriptions.lookup pubkey with
    | none =>
      simp [streamOffers, observe, viewStep, viewOf, hlookup]
    | some sender =>
      by_cases htarget : cfg.forwardAll = true ∨ pubkey ∈ s.slotLeaders
      · simp [streamOffers, observe, viewStep, viewOf, hlookup, htarget]
      · simp [streamOffers, observe, viewStep, viewOf, hlookup, htarget]
  · by_cases howner : owner = pubkey
    · subst howner
      simp only [observe, viewStep, viewOf, Option.bind_some, if_true, Option.elim_some,
        AList.lookup_insert]
      split <;> rfl
    · have hother : pubkey ≠ owner := fun h => howner h.symm
      simp only [observe, viewOf, Option.bind_some, howner, if_false, Option.elim_none,
        AList.lookup_insert_ne hother]
      split <;> rfl
  · rw [viewOf_dropConnections]
    have hview : viewOf pubkey
        { s.applyAll (heartbeatOffers s order trySend) with
          metrics :=
            { (s.applyAll (heartbeatOffers s order trySend)).metrics with
              numHeartbeats :=
                (s.applyAll (heartbeatOffers s order trySend)).metrics.numHeartbeats + 1 } } =
        viewOf pubkey s := by
      -- the heartbeat counter is no part of a view
      have happly := viewOf_applyAll pubkey s (heartbeatOffers s order trySend)
      simp only [batchOffersTo_heartbeatOffers, List.append_nil, List.filter_nil,
        List.foldl_nil] at happly
      exact happly
    rw [hview]
    cases hlookup : s.packetSubscriptions.lookup pubkey with
    | none => by_cases hresult : trySend pubkey = .closed <;>
        simp [observe, viewStep, viewOf, hlookup, hresult]
    | some sender =>
      have hclosed := mem_closedPubkeys_heartbeatOffers trySend horder hlookup
      by_cases hresult : trySend pubkey = .closed <;>
        simp [observe, viewStep, viewOf, hlookup, hresult, hclosed]
  · rw [viewOf_dropConnections]
    have hdropped : (if pubkey ∈ order then none else (viewOf pubkey s).sender) = none := by
      split
      · rfl
      · rename_i hnot
        rw [← List.mem_toFinset, horder.2] at hnot
        refine AList.lookup_eq_none.mpr fun hmem => hnot ?_
        exact List.mem_toFinset.mpr (AList.mem_keys.mp hmem)
    rw [hdropped]
    rfl
  · rfl

/-- A whole run is, for every validator, the run of its machine on what it can
notice. -/
theorem viewOf_runSteps {decode : List UInt8 → Option VersionedTransaction} {cfg : LoopConfig}
    (pubkey : Pubkey) :
    ∀ (evs : List LoopEvent) {s s' : LoopState}, runSteps (eventStep decode cfg) s evs = some s' →
      viewOf pubkey s' =
        (evs.filterMap (observe decode cfg pubkey)).foldl (viewStep cfg pubkey) (viewOf pubkey s) := by
  intro evs
  induction evs with
  | nil =>
    intro s s' h
    cases h
    rfl
  | cons ev evs ih =>
    intro s s'' h
    obtain ⟨s', hstep, hrest⟩ := runSteps_cons_eq_some h
    rw [ih hrest, viewOf_eventStep pubkey hstep, List.filterMap_cons]
    cases observe decode cfg pubkey ev <;> rfl

end FlowraRelayer.Relayer
