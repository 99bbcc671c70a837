/-
  Relayer/ConnectionCounters.lean --- `num_added_connections` and
  `num_removed_connections` against the subscription map.

  An addition is counted where the map gets a new key.  A removal is counted in
  `drop_connections`, by the length of the list it is given, before the map is touched.
  `forward_packets` puts a subscriber on that list once for every batch that finds its
  channel closed, so a subscriber that is gone is counted once per batch of the event and
  removed once.  `counters_balance` holds as long as no event does that; `removal_counted_twice`
  is an event that does.

  Reporting sets the counters back to zero.  What they came to over all reports is
  `counted`, in the arithmetic of `u64`; `connectionsAdded` and `connectionsRemoved` are the
  same sums as numbers.
-/
import FlowraRelayer.Relayer.StreamExactness
import FlowraRelayer.Relayer.Subscriptions

set_option autoImplicit false

namespace FlowraRelayer.Relayer

open FlowraRelayer.Foundation
open FlowraRelayer.Solana
open FlowraRelayer.Protos

/-! ## What is counted -/

/-- A counter accumulated over all reports and the current interval. -/
def counted (count : RelayerMetrics → UInt64) (s : LoopState) : UInt64 :=
  s.reported.foldl (fun total report => total + count report.1) 0 + count s.metrics

section Turns

variable (decode : List UInt8 → Option VersionedTransaction) (cfg : LoopConfig)

/-- The connections a turn adds to the map. -/
def addedBy (s : LoopState) : LoopEvent → Nat
  | .subscription (some (pubkey, _)) => if pubkey ∈ s.packetSubscriptions then 0 else 1
  | _ => 0

/-- The list a turn passes to `drop_connections`. -/
def droppedBy (s : LoopState) : LoopEvent → List Pubkey
  | .heartbeat .unhealthy order _ => order
  | ev => closedPubkeys (eventOffers decode cfg s ev)

/-- The additions counted in a run. -/
def connectionsAdded (events : List LoopEvent) : Nat :=
  ((visited (eventStep decode cfg) LoopState.init events).map fun p => addedBy p.1 p.2).sum

/-- The removals counted in a run. -/
def connectionsRemoved (events : List LoopEvent) : Nat :=
  ((visited (eventStep decode cfg) LoopState.init events).map
    fun p => (droppedBy decode cfg p.1 p.2).length).sum

/-- The batches a packet event makes. -/
def numBatches (cache : LookupTableCache) (batches : RelayerPacketBatches) : Nat :=
  (Foundation.chunks cfg.validatorPacketBatchSize.toNat
    (filterForwardable decode cfg.ofacAddresses cache batches.bankingPacketBatch)).length

/-- No subscriber that a packet event reaches has a channel that is closed for two of its
batches. -/
def ClosedOnce (s : LoopState) : LoopEvent → Prop
  | .packets (some batches) cache order env =>
      ∀ pubkey ∈ order, pubkey ∈ s.packetSubscriptions.keys →
        ∀ later < numBatches decode cfg cache batches, ∀ earlier < later,
          env.trySend pubkey earlier = .closed → env.trySend pubkey later ≠ .closed
  | _ => True

instance (s : LoopState) (ev : LoopEvent) : Decidable (ClosedOnce decode cfg s ev) :=
  match ev with
  | .packets (some batches) cache order env =>
      inferInstanceAs (Decidable (∀ pubkey ∈ order, pubkey ∈ s.packetSubscriptions.keys →
        ∀ later < numBatches decode cfg cache batches, ∀ earlier < later,
          env.trySend pubkey earlier = .closed → env.trySend pubkey later ≠ .closed))
  | .packets none _ _ _ => isTrue trivial
  | .slot _ _ => isTrue trivial
  | .subscription _ => isTrue trivial
  | .heartbeat _ _ _ => isTrue trivial
  | .metrics => isTrue trivial

end Turns

variable {decode : List UInt8 → Option VersionedTransaction} {cfg : LoopConfig}
  {s s' : LoopState} {ev : LoopEvent}

/-! ## The counters of one turn -/

theorem tally_connections (m : RelayerMetrics) (offer : Offer) :
    (m.tally offer).numAddedConnections = m.numAddedConnections ∧
      (m.tally offer).numRemovedConnections = m.numRemovedConnections := by
  unfold RelayerMetrics.tally
  split <;> exact ⟨rfl, rfl⟩

theorem foldl_tally_connections (offers : List Offer) (m : RelayerMetrics) :
    (offers.foldl RelayerMetrics.tally m).numAddedConnections = m.numAddedConnections ∧
      (offers.foldl RelayerMetrics.tally m).numRemovedConnections = m.numRemovedConnections :=
  ⟨foldl_tally_eq (fun m offer => (tally_connections m offer).1) offers m,
    foldl_tally_eq (fun m offer => (tally_connections m offer).2) offers m⟩

/-- What a turn adds and drops is what its counters count. -/
theorem counted_eventStep (h : eventStep decode cfg s ev = some s') :
    counted RelayerMetrics.numAddedConnections s' =
        counted RelayerMetrics.numAddedConnections s + UInt64.ofNat (addedBy s ev) ∧
      counted RelayerMetrics.numRemovedConnections s' =
        counted RelayerMetrics.numRemovedConnections s +
          UInt64.ofNat (droppedBy decode cfg s ev).length := by
  rcases eventStep_cases h with ⟨_, _, rfl, rfl⟩ | ⟨batches, cache, order, env, rfl, -, -, rfl⟩ |
    ⟨pubkey, sender, rfl, rfl⟩ | ⟨order, trySend, rfl, -, rfl⟩ | ⟨order, _, rfl, -, rfl⟩ | ⟨rfl, rfl⟩
  · simp [counted, addedBy, droppedBy, eventOffers]
  · simp [counted, addedBy, droppedBy, eventOffers, dropConnections, applyAll_eq,
      foldl_tally_connections, UInt64.add_assoc]
  · by_cases hknown : pubkey ∈ s.packetSubscriptions
    · simp [counted, addedBy, droppedBy, eventOffers, hknown]
    · simp [counted, addedBy, droppedBy, eventOffers, hknown, UInt64.add_assoc]
  · simp [counted, addedBy, droppedBy, eventOffers, dropConnections, applyAll_eq,
      foldl_tally_connections, UInt64.add_assoc]
  · simp [counted, addedBy, droppedBy, dropConnections, UInt64.add_assoc]
  · simp [counted, addedBy, droppedBy, eventOffers, RelayerMetrics.new]

/-! ## The map of one turn -/

/-- A list of different subscribers makes the map smaller by its length. -/
theorem length_keys_foldl_erase :
    ∀ (dropped : List Pubkey) (subscriptions : PacketSubscriptions), dropped.Nodup →
      (∀ pubkey ∈ dropped, pubkey ∈ subscriptions.keys) →
      (dropped.foldl (fun m k => m.erase k) subscriptions).keys.length + dropped.length =
        subscriptions.keys.length := by
  intro dropped
  induction dropped with
  | nil =>
    intro subscriptions _ _
    rfl
  | cons pubkey rest ih =>
    intro subscriptions hnodup hmem
    obtain ⟨hfresh, hrest⟩ := List.nodup_cons.mp hnodup
    have hmine : pubkey ∈ subscriptions.keys := hmem pubkey List.mem_cons_self
    have hothers : ∀ other ∈ rest, other ∈ (subscriptions.erase pubkey).keys := by
      intro other hother
      have hne : other ≠ pubkey := by
        rintro rfl
        exact hfresh hother
      rw [AList.keys_erase, List.mem_erase_of_ne hne]
      exact hmem other (List.mem_cons_of_mem _ hother)
    have herased : (subscriptions.erase pubkey).keys.length + 1 = subscriptions.keys.length := by
      rw [AList.keys_erase, List.length_erase_of_mem hmine]
      exact Nat.sub_add_cancel (List.length_pos_of_mem hmine)
    rw [List.foldl_cons, List.length_cons, ← Nat.add_assoc, ih _ hrest hothers, herased]

/-- A new key makes the map larger by one, a known one does not. -/
theorem length_keys_insert (subscriptions : PacketSubscriptions) (pubkey : Pubkey)
    (sender : Sender) :
    (subscriptions.insert pubkey sender).keys.length =
      subscriptions.keys.length + if pubkey ∈ subscriptions then 0 else 1 := by
  rw [AList.keys_insert, List.length_cons]
  split
  · next hknown =>
    rw [List.length_erase_of_mem hknown]
    exact Nat.sub_add_cancel (List.length_pos_of_mem hknown)
  · next hnew =>
    rw [List.erase_of_not_mem hnew]

theorem mem_keys_of_lookup {subscriptions : PacketSubscriptions} {pubkey : Pubkey}
    {sender : Sender} (h : subscriptions.lookup pubkey = some sender) :
    pubkey ∈ subscriptions.keys :=
  List.mem_map_of_mem (AList.mem_lookup_iff.mp h)

/-- Only subscribers are dropped. -/
theorem mem_keys_of_mem_closedPubkeys {pubkey : Pubkey}
    (h : pubkey ∈ closedPubkeys (eventOffers decode cfg s ev)) :
    pubkey ∈ s.packetSubscriptions.keys := by
  obtain ⟨offer, hmem, rfl, -⟩ := mem_closedPubkeys.mp h
  exact mem_keys_of_lookup (stored_of_mem_eventOffers hmem)

theorem keys_subscribersIn_nodup {order : List Pubkey} (horder : order.Nodup) :
    ((subscribersIn s order).map Prod.fst).Nodup := by
  unfold subscribersIn
  rw [List.map_filterMap]
  refine horder.filterMap ?_
  intro pubkey other found hfound hother
  simp only [Option.map_map, Option.mem_def, Option.map_eq_some_iff, Function.comp_apply] at hfound hother
  obtain ⟨_, -, rfl⟩ := hfound
  obtain ⟨_, -, heq⟩ := hother
  exact heq.symm

/-- One batch finds a channel closed once. -/
theorem nodup_closedPubkeys_map {senders : List (Pubkey × Sender)}
    (hsenders : (senders.map Prod.fst).Nodup) {offer : Pubkey × Sender → Offer}
    (hoffer : ∀ subscriber, (offer subscriber).pubkey = subscriber.1) :
    (closedPubkeys (senders.map offer)).Nodup := by
  have hpubkeys : (senders.map offer).map (·.pubkey) = senders.map Prod.fst := by
    rw [List.map_map]
    exact List.map_congr_left fun subscriber _ => hoffer subscriber
  rw [← hpubkeys] at hsenders
  exact hsenders.sublist ((List.filter_sublist).map _)

/-- Which batch found a channel closed. -/
theorem closed_of_mem_closedPubkeys_batchOffers {env : ForwardEnv}
    {senders : List (Pubkey × Sender)} {pubkey : Pubkey} :
    ∀ (batches : List (List ProtoPacket)) (k : Nat),
      pubkey ∈ closedPubkeys (batchOffers env senders k batches) →
      ∃ j, k ≤ j ∧ j < k + batches.length ∧ env.trySend pubkey j = .closed := by
  intro batches
  induction batches with
  | nil =>
    intro k h
    cases h
  | cons packets rest ih =>
    intro k h
    unfold batchOffers at h
    rw [closedPubkeys_append] at h
    rcases List.mem_append.mp h with hnow | hlater
    · obtain ⟨offer, hoffer, rfl, hclosed⟩ := mem_closedPubkeys.mp hnow
      split at hoffer
      · cases hoffer
      · obtain ⟨subscriber, -, rfl⟩ := List.mem_map.mp hoffer
        exact ⟨k, Nat.le_refl k, by simp, hclosed⟩
    · obtain ⟨j, hle, hlt, hclosed⟩ := ih (k + 1) hlater
      refine ⟨j, Nat.le_of_succ_le hle, ?_, hclosed⟩
      rw [List.length_cons]
      omega

/-- Batches that find every channel closed at most once drop nobody twice. -/
theorem nodup_closedPubkeys_batchOffers {env : ForwardEnv} {senders : List (Pubkey × Sender)}
    (hsenders : (senders.map Prod.fst).Nodup) :
    ∀ (batches : List (List ProtoPacket)) (k : Nat),
      (∀ pubkey ∈ senders.map Prod.fst, ∀ later < k + batches.length, ∀ earlier < later,
        env.trySend pubkey earlier = .closed → env.trySend pubkey later ≠ .closed) →
      (closedPubkeys (batchOffers env senders k batches)).Nodup := by
  intro batches
  induction batches with
  | nil =>
    intro k _
    exact List.nodup_nil
  | cons packets rest ih =>
    intro k honce
    have hlength : k + (packets :: rest).length = k + 1 + rest.length := by
      rw [List.length_cons]
      omega
    rw [hlength] at honce
    unfold batchOffers
    rw [closedPubkeys_append]
    refine List.nodup_append'.mpr ⟨?_, ih (k + 1) honce, ?_⟩
    · split
      · exact List.nodup_nil
      · exact nodup_closedPubkeys_map hsenders fun _ => rfl
    · -- the rest would find a channel closed that this batch found closed
      intro pubkey hnow hlater
      obtain ⟨later, hle, hlt, hlaterClosed⟩ :=
        closed_of_mem_closedPubkeys_batchOffers rest (k + 1) hlater
      obtain ⟨offer, hoffer, rfl, hclosed⟩ := mem_closedPubkeys.mp hnow
      split at hoffer
      · cases hoffer
      · obtain ⟨subscriber, hsubscriber, rfl⟩ := List.mem_map.mp hoffer
        exact honce _ (List.mem_map_of_mem hsubscriber) later hlt k hle hclosed hlaterClosed

/-- A turn drops subscribers only and, if it finds no channel closed twice, nobody twice. -/
theorem nodup_droppedBy (h : eventStep decode cfg s ev = some s')
    (honce : ClosedOnce decode cfg s ev) :
    (droppedBy decode cfg s ev).Nodup ∧
      ∀ pubkey ∈ droppedBy decode cfg s ev, pubkey ∈ s.packetSubscriptions.keys := by
  rcases eventStep_cases h with ⟨_, _, rfl, -⟩ | ⟨batches, cache, order, env, rfl, -, horder, -⟩ |
    ⟨_, _, rfl, -⟩ | ⟨order, trySend, rfl, horder, -⟩ | ⟨order, _, rfl, horder, -⟩ | ⟨rfl, -⟩
  · exact ⟨List.nodup_nil, by simp [droppedBy, eventOffers]⟩
  · refine ⟨nodup_closedPubkeys_batchOffers (keys_subscribersIn_nodup horder.1) _ 0 ?_,
      fun pubkey => mem_keys_of_mem_closedPubkeys⟩
    intro pubkey hpubkey
    obtain ⟨subscriber, hmem, rfl⟩ := List.mem_map.mp hpubkey
    obtain ⟨hreached, hlookup⟩ := mem_subscribersIn.mp hmem
    rw [Nat.zero_add]
    exact honce _ hreached (mem_keys_of_lookup hlookup)
  · exact ⟨List.nodup_nil, by simp [droppedBy, eventOffers]⟩
  · exact ⟨nodup_closedPubkeys_map (keys_subscribersIn_nodup horder.1) fun _ => rfl,
      fun pubkey => mem_keys_of_mem_closedPubkeys⟩
  · refine ⟨horder.1, fun pubkey hpubkey => ?_⟩
    have hmem : pubkey ∈ order.toFinset := List.mem_toFinset.mpr hpubkey
    rw [horder.2] at hmem
    exact List.mem_toFinset.mp hmem
  · exact ⟨List.nodup_nil, by simp [droppedBy, eventOffers]⟩

/-- The map after a turn: what was there and what was added, less what was dropped. -/
theorem length_keys_eventStep (h : eventStep decode cfg s ev = some s')
    (honce : ClosedOnce decode cfg s ev) :
    s'.packetSubscriptions.keys.length + (droppedBy decode cfg s ev).length =
      s.packetSubscriptions.keys.length + addedBy s ev := by
  obtain ⟨hnodup, hmem⟩ := nodup_droppedBy h honce
  have hdrop := length_keys_foldl_erase _ _ hnodup hmem
  rcases eventStep_cases h with ⟨_, _, rfl, rfl⟩ | ⟨batches, cache, order, env, rfl, -, -, rfl⟩ |
    ⟨pubkey, sender, rfl, rfl⟩ | ⟨order, trySend, rfl, -, rfl⟩ | ⟨order, _, rfl, -, rfl⟩ | ⟨rfl, rfl⟩
  · rfl
  · rw [applyAll_eq]
    exact hdrop
  · exact length_keys_insert s.packetSubscriptions pubkey sender
  · rw [applyAll_eq]
    exact hdrop
  · exact hdrop
  · rfl

/-! ## Whole runs -/

theorem connections_concat {events : List LoopEvent}
    (hrun : runSteps (eventStep decode cfg) LoopState.init events = some s) (ev : LoopEvent) :
    connectionsAdded decode cfg (events ++ [ev]) =
        connectionsAdded decode cfg events + addedBy s ev ∧
      connectionsRemoved decode cfg (events ++ [ev]) =
        connectionsRemoved decode cfg events + (droppedBy decode cfg s ev).length := by
  have hvisited : visited (eventStep decode cfg) LoopState.init (events ++ [ev]) =
      visited (eventStep decode cfg) LoopState.init events ++ [(s, ev)] := by
    rw [visited_append hrun]
    cases hstep : eventStep decode cfg s ev <;> simp [visited, hstep]
  simp [connectionsAdded, connectionsRemoved, hvisited]

/-- The books of a run: the counters count what was added and dropped, and the map holds
the difference. -/
structure Balanced (decode : List UInt8 → Option VersionedTransaction) (cfg : LoopConfig)
    (events : List LoopEvent) (s : LoopState) : Prop where
  run : runSteps (eventStep decode cfg) LoopState.init events = some s
  added : counted RelayerMetrics.numAddedConnections s =
    UInt64.ofNat (connectionsAdded decode cfg events)
  removed : counted RelayerMetrics.numRemovedConnections s =
    UInt64.ofNat (connectionsRemoved decode cfg events)
  difference : connectionsAdded decode cfg events =
    connectionsRemoved decode cfg events + s.packetSubscriptions.keys.length

theorem balanced_nil (decode : List UInt8 → Option VersionedTransaction) (cfg : LoopConfig) :
    Balanced decode cfg [] LoopState.init where
  run := rfl
  added := rfl
  removed := rfl
  difference := rfl

theorem Balanced.step {events : List LoopEvent} (hinv : Balanced decode cfg events s)
    (honce : ClosedOnce decode cfg s ev) (h : eventStep decode cfg s ev = some s') :
    Balanced decode cfg (events ++ [ev]) s' := by
  obtain ⟨hadded, hremoved⟩ := connections_concat hinv.run ev
  obtain ⟨haddedCount, hremovedCount⟩ := counted_eventStep h
  have hmap := length_keys_eventStep h honce
  refine ⟨?_, ?_, ?_, ?_⟩
  · rw [runSteps_concat, hinv.run]
    exact h
  · rw [haddedCount, hinv.added, hadded, UInt64.ofNat_add]
  · rw [hremovedCount, hinv.removed, hremoved, UInt64.ofNat_add]
  · rw [hadded, hremoved, hinv.difference]
    omega

/-- In every run in which no packet event finds a subscriber's channel closed twice: what
the counters count as added, less what they count as removed, over all reports, is the
number of subscribers; and so are the sums taken as numbers. -/
theorem counters_balance (decode : List UInt8 → Option VersionedTransaction) (cfg : LoopConfig)
    (events : List LoopEvent) (s : LoopState)
    (honce : StepsMeet (eventStep decode cfg) (ClosedOnce decode cfg) LoopState.init events)
    (hrun : runSteps (eventStep decode cfg) LoopState.init events = some s) :
    counted RelayerMetrics.numAddedConnections s -
        counted RelayerMetrics.numRemovedConnections s =
      UInt64.ofNat s.packetSubscriptions.keys.length ∧
    connectionsAdded decode cfg events =
      connectionsRemoved decode cfg events + s.packetSubscriptions.keys.length ∧
    counted RelayerMetrics.numAddedConnections s =
      UInt64.ofNat (connectionsAdded decode cfg events) ∧
    counted RelayerMetrics.numRemovedConnections s =
      UInt64.ofNat (connectionsRemoved decode cfg events) := by
  have hinv : Balanced decode cfg ([] ++ events) s :=
    runSteps_labelInvariant (Balanced decode cfg)
      (fun _ _ _ _ hinv honce h => hinv.step honce h) events [] (balanced_nil decode cfg) honce hrun
  rw [List.nil_append] at hinv
  refine ⟨?_, hinv.difference, hinv.added, hinv.removed⟩
  rw [hinv.added, hinv.removed, hinv.difference, UInt64.ofNat_add, UInt64.add_comm]
  exact UInt64.add_sub_cancel _ _

/-- A loop that forwards single packets to everyone. -/
abbrev singlePacketConfig : LoopConfig := ⟨∅, 1, true, 5⟩

/-- A subscriber that is offered two batches, with the answers of its channel. -/
def twoBatchRun (first second : TrySendResult) : List LoopEvent :=
  [ .subscription (some (uniformKey 7, 0))
  , .metrics
  , .packets (some ⟨0, [[oneBytePacket 1, oneBytePacket 2]]⟩) (fun _ => none) [uniformKey 7]
      ⟨fun _ k => if k = 0 then first else second, fun _ k => k⟩ ]

theorem counters_balance_twoBatchRun :
    ∃ s, runSteps (eventStep (fun _ => none) singlePacketConfig) LoopState.init
        (twoBatchRun .ok .closed) = some s ∧
      s.packetSubscriptions.keys.length = 0 ∧
      counted RelayerMetrics.numAddedConnections s -
        counted RelayerMetrics.numRemovedConnections s =
          UInt64.ofNat s.packetSubscriptions.keys.length := by
  have hrun : (runSteps (eventStep (fun _ => none) singlePacketConfig) LoopState.init
      (twoBatchRun .ok .closed)).map (fun s => s.packetSubscriptions.keys.length) = some 0 := by
    decide
  have honce : StepsMeet (eventStep (fun _ => none) singlePacketConfig)
      (ClosedOnce (fun _ => none) singlePacketConfig) LoopState.init (twoBatchRun .ok .closed) := by
    unfold StepsMeet
    decide
  obtain ⟨s, hs, hlength⟩ := Option.map_eq_some_iff.mp hrun
  exact ⟨s, hs, hlength, (counters_balance _ _ _ s honce hs).1⟩

/-- A subscriber that is gone before the first of two batches is counted as removed twice. -/
theorem removal_counted_twice :
    ¬ ∀ (cfg : LoopConfig) (events : List LoopEvent) (s : LoopState),
      runSteps (eventStep (fun _ => none) cfg) LoopState.init events = some s →
      counted RelayerMetrics.numAddedConnections s -
          counted RelayerMetrics.numRemovedConnections s =
        UInt64.ofNat s.packetSubscriptions.keys.length := by
  intro hall
  have hrun : (runSteps (eventStep (fun _ => none) singlePacketConfig) LoopState.init
      (twoBatchRun .closed .closed)).map (fun s => (s.packetSubscriptions.keys.length,
        counted RelayerMetrics.numAddedConnections s,
        counted RelayerMetrics.numRemovedConnections s)) = some (0, 1, 2) := by decide
  obtain ⟨s, hs, hcounts⟩ := Option.map_eq_some_iff.mp hrun
  simp only [Prod.mk.injEq] at hcounts
  obtain ⟨hlength, hadded, hremoved⟩ := hcounts
  have hbalance := hall singlePacketConfig _ s hs
  rw [hlength, hadded, hremoved] at hbalance
  exact absurd hbalance (by decide)

end FlowraRelayer.Relayer
