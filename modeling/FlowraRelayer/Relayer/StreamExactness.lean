/-
  Relayer/StreamExactness.lean --- the per-validator packet stream is exact.

  Every run of the event loop offers a validator exactly the chunks it is owed,
  in order, on the sender it had at that moment; the channel keeps the ones it
  accepted; and the published counters of each metrics interval are the packets
  of that interval's offers.  The results are assembled in
  `validator_stream_exact`.
-/
import FlowraRelayer.Relayer.PacketStream

set_option autoImplicit false

namespace FlowraRelayer.Relayer

open FlowraRelayer.Foundation
open FlowraRelayer.Solana
open FlowraRelayer.Protos

/-! ## Offers over a run -/

/-- One turn offers a validator exactly what it is owed in that turn. -/
theorem batchOffersTo_eventStep {decode : List UInt8 → Option VersionedTransaction}
    {cfg : LoopConfig} (pubkey : Pubkey) (s : LoopState) (ev : LoopEvent) (s' : LoopState)
    (h : eventStep decode cfg s ev = some s') :
    batchOffersTo pubkey s'.offers =
      batchOffersTo pubkey s.offers ++ streamOffers decode cfg pubkey s ev := by
  rcases eventStep_cases h with ⟨slot, schedule, rfl, rfl⟩ |
    ⟨batches, cache, order, env, rfl, hsize, horder, rfl⟩ | ⟨owner, sender, rfl, rfl⟩ |
    ⟨order, trySend, rfl, horder, rfl⟩ | ⟨order, trySend, rfl, horder, rfl⟩ | ⟨rfl, rfl⟩
  · exact (List.append_nil _).symm
  · rw [← batchOffersTo_packetOffers decode pubkey batches cache env hsize horder,
      ← batchOffersTo_append]
    simp only [dropConnections, applyAll_eq]
  · exact (List.append_nil _).symm
  · have hnone := batchOffersTo_heartbeatOffers pubkey s order trySend
    simp only [dropConnections, applyAll_eq, batchOffersTo_append, hnone, streamOffers]
  · exact (List.append_nil _).symm
  · exact (List.append_nil _).symm

/-- What went into the channels is what was offered and not refused. -/
theorem delivered_eventStep {decode : List UInt8 → Option VersionedTransaction}
    {cfg : LoopConfig} (s : LoopState) (ev : LoopEvent) (s' : LoopState)
    (hinv : s.delivered = s.offers.filter fun offer => offer.result = .ok)
    (h : eventStep decode cfg s ev = some s') :
    s'.delivered = s'.offers.filter fun offer => offer.result = .ok := by
  rcases eventStep_cases h with ⟨slot, schedule, rfl, rfl⟩ |
    ⟨batches, cache, order, env, rfl, hsize, horder, rfl⟩ | ⟨owner, sender, rfl, rfl⟩ |
    ⟨order, trySend, rfl, horder, rfl⟩ | ⟨order, trySend, rfl, horder, rfl⟩ | ⟨rfl, rfl⟩
  · exact hinv
  · simp only [dropConnections, applyAll_eq, List.filter_append, hinv]
  · exact hinv
  · simp only [dropConnections, applyAll_eq, List.filter_append, hinv]
  · exact hinv
  · exact hinv

/-! ## The shape of what is owed -/

/-- The offer that carries the `k`-th chunk. -/
def chunkOffer (pubkey : Pubkey) (sender : Sender) (env : ForwardEnv) (piece : List ProtoPacket × Nat) :
    Offer where
  pubkey := pubkey
  sender := sender
  response := ⟨some (env.clock pubkey piece.2), .batch piece.1⟩
  result := env.trySend pubkey piece.2

theorem ownOffers_eq (pubkey : Pubkey) (sender : Sender) (env : ForwardEnv) :
    ∀ (batches : List (List ProtoPacket)) (k : Nat),
      ownOffers pubkey sender (env.trySend pubkey) (env.clock pubkey) k batches =
        (batches.zipIdx k).map (chunkOffer pubkey sender env) := by
  intro batches
  induction batches with
  | nil => intro k; rfl
  | cons packets rest ih =>
    intro k
    unfold ownOffers
    rw [ih (k + 1), List.zipIdx_cons, List.map_cons]
    rfl

/-- The packets validators may see of one event, in input order. -/
def forwardablePackets (decode : List UInt8 → Option VersionedTransaction) (cfg : LoopConfig)
    (cache : LookupTableCache) (batches : RelayerPacketBatches) : List ProtoPacket :=
  (batches.bankingPacketBatch.flatten.filter fun p =>
    decide (Forwardable decode cfg.ofacAddresses cache p)).filterMap packetToProtoPacket

/-- The messages a validator is owed in one event, said without the loops: the
chunks of the forwardable packets on its current sender in a packet event at which
it is subscribed and a target, and none otherwise. -/
structure OwedIn (decode : List UInt8 → Option VersionedTransaction) (cfg : LoopConfig)
    (pubkey : Pubkey) (s : LoopState) (ev : LoopEvent) (offers : List Offer) : Prop where
  packets : ∀ batches cache order env, ev = .packets (some batches) cache order env →
    ∀ sender, s.packetSubscriptions.lookup pubkey = some sender →
      (cfg.forwardAll = true ∨ pubkey ∈ s.slotLeaders) →
      ∃ pieces, IsChunking cfg.validatorPacketBatchSize.toNat
          (forwardablePackets decode cfg cache batches) pieces ∧
        offers = pieces.zipIdx.map (chunkOffer pubkey sender env)
  otherwise : (∀ batches cache order env, ev ≠ .packets (some batches) cache order env) ∨
    s.packetSubscriptions.lookup pubkey = none ∨
      ¬ (cfg.forwardAll = true ∨ pubkey ∈ s.slotLeaders) → offers = []

theorem owedIn_streamOffers (decode : List UInt8 → Option VersionedTransaction)
    {cfg : LoopConfig} (hsize : 1 ≤ cfg.validatorPacketBatchSize.toNat) (pubkey : Pubkey)
    (s : LoopState) (ev : LoopEvent) :
    OwedIn decode cfg pubkey s ev (streamOffers decode cfg pubkey s ev) where
  packets := by
    intro batches cache order env hev sender hlookup htarget
    subst hev
    simp only [streamOffers, hlookup, if_pos htarget, ownOffers_eq]
    refine ⟨_, ?_, rfl⟩
    rw [forwardablePackets, ← filterForwardable_eq]
    exact isChunking_chunks hsize _
  otherwise := by
    intro hnot
    unfold streamOffers
    split
    · rename_i batches cache order env
      rcases hnot with hother | hnone | htarget
      · exact absurd rfl (hother batches cache order env)
      · rw [hnone]
      · simp only [htarget, if_false]
        split <;> rfl
    · rfl

/-! ## Counters -/

/-- The number of packets in the batch messages answered by `result`. -/
def packetsAnswered (result : TrySendResult) (offers : List Offer) : Nat :=
  ((offers.filter fun offer => offer.result = result).map fun offer =>
    (offer.packets?.getD []).length).sum

/-- A batch message whose length fits the counters. -/
def Offer.Fits (offer : Offer) : Prop :=
  ∃ packets, offer.packets? = some packets ∧ packets.length ≤ u64Max

/-- The counters of one validator; an absent entry counts nothing. -/
def statsOf (stats : Option PacketForwardStats) : PacketForwardStats := stats.getD ⟨0, 0⟩

theorem statsOf_tallyStats (stats : Option PacketForwardStats) {offer : Offer} (hfits : offer.Fits) :
    statsOf (tallyStats stats offer) =
      ⟨if offer.result = .ok then
          saturatingAdd (statsOf stats).numPacketsForwarded (offer.packets?.getD []).length
        else (statsOf stats).numPacketsForwarded,
        if offer.result = .full then
          saturatingAdd (statsOf stats).numPacketsDropped (offer.packets?.getD []).length
        else (statsOf stats).numPacketsDropped⟩ := by
  obtain ⟨packets, hpackets, hle⟩ := hfits
  obtain ⟨owner, sender, ⟨header, msg⟩, result⟩ := offer
  cases msg with
  | heartbeat count => simp [Offer.packets?] at hpackets
  | batch packets' =>
    simp only [Offer.packets?, Option.some.injEq] at hpackets
    subst hpackets
    -- a fresh entry is written unsaturated, which is the same as long as it fits
    have hfresh : saturatingAdd 0 packets'.length = packets'.length := by
      unfold saturatingAdd
      omega
    cases stats <;> cases result <;> simp [tallyStats, statsOf, Offer.packets?, hfresh]

/-- Counting offer by offer is the saturated sum. -/
theorem statsOf_foldl_tallyStats :
    ∀ (offers : List Offer) (stats : Option PacketForwardStats),
      (∀ offer ∈ offers, offer.Fits) →
      (statsOf stats).numPacketsForwarded ≤ u64Max → (statsOf stats).numPacketsDropped ≤ u64Max →
      statsOf (offers.foldl tallyStats stats) =
        ⟨saturatingAdd (statsOf stats).numPacketsForwarded (packetsAnswered .ok offers),
          saturatingAdd (statsOf stats).numPacketsDropped (packetsAnswered .full offers)⟩ := by
  intro offers
  induction offers with
  | nil =>
    intro stats _ hforwarded hdropped
    simp only [List.foldl_nil, packetsAnswered, List.filter_nil, List.map_nil, List.sum_nil,
      saturatingAdd, Nat.add_zero, Nat.min_eq_left hforwarded, Nat.min_eq_left hdropped]
  | cons offer offers ih =>
    intro stats hfits hforwarded hdropped
    have hstep := statsOf_tallyStats stats (hfits offer (by simp))
    have hrest : ∀ offer ∈ offers, offer.Fits := fun o ho => hfits o (by simp [ho])
    rw [List.foldl_cons, ih _ hrest, hstep]
    · cases hresult : offer.result <;>
        simp [packetsAnswered, hresult, saturatingAdd] <;> omega
    · rw [hstep]
      dsimp only
      split
      · exact Nat.min_le_right _ _
      · exact hforwarded
    · rw [hstep]
      dsimp only
      split
      · exact Nat.min_le_right _ _
      · exact hdropped

/-- The entry of `pubkey` in the counters `m` is the tally of the offers `window`. -/
structure Accounted (pubkey : Pubkey) (m : RelayerMetrics) (window : List Offer) : Prop where
  tallied : m.packetStatsPerValidator pubkey = (batchOffersTo pubkey window).foldl tallyStats none
  fits : ∀ offer ∈ batchOffersTo pubkey window, offer.Fits

theorem Accounted.append {pubkey : Pubkey} {m : RelayerMetrics} {window offers : List Offer}
    (h : Accounted pubkey m window) (hfits : ∀ offer ∈ batchOffersTo pubkey offers, offer.Fits) :
    Accounted pubkey (offers.foldl RelayerMetrics.tally m) (window ++ offers) where
  tallied := by
    rw [foldl_tally_packetStatsPerValidator, h.tallied, batchOffersTo_append, List.foldl_append]
  fits := by
    intro offer hmem
    rw [batchOffersTo_append] at hmem
    rcases List.mem_append.mp hmem with hmem | hmem
    · exact h.fits offer hmem
    · exact hfits offer hmem

/-- Metrics that agree on a validator's entry account for the same offers. -/
theorem Accounted.congr {pubkey : Pubkey} {m m' : RelayerMetrics} {window : List Offer}
    (h : Accounted pubkey m window)
    (hstats : m'.packetStatsPerValidator pubkey = m.packetStatsPerValidator pubkey) :
    Accounted pubkey m' window :=
  ⟨hstats.trans h.tallied, h.fits⟩

theorem Accounted.statsOf_eq {pubkey : Pubkey} {m : RelayerMetrics} {window : List Offer}
    (h : Accounted pubkey m window) :
    statsOf (m.packetStatsPerValidator pubkey) =
      ⟨min (packetsAnswered .ok (batchOffersTo pubkey window)) u64Max,
        min (packetsAnswered .full (batchOffersTo pubkey window)) u64Max⟩ := by
  have hzero : statsOf none = ⟨0, 0⟩ := rfl
  rw [h.tallied, statsOf_foldl_tallyStats _ _ h.fits (by simp [hzero]) (by simp [hzero]), hzero]
  simp only [saturatingAdd, Nat.zero_add]

/-- Every interval between two metrics ticks, the running one included, is
accounted for. -/
structure Accounting (pubkey : Pubkey) (s : LoopState) : Prop where
  windows : s.offers = (s.reported.map Prod.snd).flatten ++ s.window
  reported : ∀ interval ∈ s.reported, Accounted pubkey interval.1 interval.2
  current : Accounted pubkey s.metrics s.window

theorem accounting_init (pubkey : Pubkey) : Accounting pubkey LoopState.init where
  windows := rfl
  reported := by simp [LoopState.init]
  current := ⟨rfl, by simp [LoopState.init, batchOffersTo]⟩

theorem fits_streamOffers (decode : List UInt8 → Option VersionedTransaction) {cfg : LoopConfig}
    (hsize : 1 ≤ cfg.validatorPacketBatchSize.toNat) (pubkey : Pubkey) (s : LoopState)
    (ev : LoopEvent) : ∀ offer ∈ streamOffers decode cfg pubkey s ev, offer.Fits := by
  intro offer hmem
  unfold streamOffers at hmem
  split at hmem
  · split at hmem
    · simp at hmem
    · split at hmem
      · rw [ownOffers_eq] at hmem
        obtain ⟨piece, hpiece, rfl⟩ := List.mem_map.mp hmem
        have hchunk := (isChunking_chunks hsize _).length_le piece.1 (List.fst_mem_of_mem_zipIdx hpiece)
        have hbound := cfg.validatorPacketBatchSize.toNat_lt
        refine ⟨piece.1, rfl, ?_⟩
        unfold u64Max
        omega
      · simp at hmem
  · simp at hmem

theorem accounting_eventStep {decode : List UInt8 → Option VersionedTransaction}
    {cfg : LoopConfig} (hsize : 1 ≤ cfg.validatorPacketBatchSize.toNat) (pubkey : Pubkey)
    (s : LoopState) (ev : LoopEvent) (s' : LoopState) (hinv : Accounting pubkey s)
    (h : eventStep decode cfg s ev = some s') : Accounting pubkey s' := by
  rcases eventStep_cases h with ⟨slot, schedule, rfl, rfl⟩ |
    ⟨batches, cache, order, env, rfl, hne, horder, rfl⟩ | ⟨owner, sender, rfl, rfl⟩ |
    ⟨order, trySend, rfl, horder, rfl⟩ | ⟨order, trySend, rfl, horder, rfl⟩ | ⟨rfl, rfl⟩
  · exact ⟨hinv.windows, hinv.reported, hinv.current.congr rfl⟩
  · have hown := batchOffersTo_packetOffers decode pubkey batches cache env hne horder
    have hfits := fits_streamOffers decode hsize pubkey s (.packets (some batches) cache order env)
    rw [← hown] at hfits
    simp only [dropConnections, applyAll_eq]
    refine ⟨?_, hinv.reported, (hinv.current.append hfits).congr rfl⟩
    dsimp only
    rw [hinv.windows, List.append_assoc]
  · refine ⟨hinv.windows, hinv.reported, hinv.current.congr ?_⟩
    dsimp only
    split <;> rfl
  · have hfits : ∀ offer ∈ batchOffersTo pubkey (heartbeatOffers s order trySend), offer.Fits := by
      simp [batchOffersTo_heartbeatOffers]
    simp only [dropConnections, applyAll_eq]
    refine ⟨?_, hinv.reported, (hinv.current.append hfits).congr rfl⟩
    dsimp only
    rw [hinv.windows, List.append_assoc]
  · exact ⟨hinv.windows, hinv.reported, hinv.current.congr rfl⟩
  · refine ⟨?_, ?_, ⟨rfl, by simp [batchOffersTo]⟩⟩
    · simp [hinv.windows]
    · intro interval hmem
      rcases List.mem_append.mp hmem with hmem | hmem
      · exact hinv.reported interval hmem
      · obtain rfl := List.mem_singleton.mp hmem
        exact hinv.current.congr rfl

/-! ## The stream of one validator -/

/-- The packet stream of `pubkey` in the run `evs`, which ends in `s`. -/
structure StreamExact (decode : List UInt8 → Option VersionedTransaction) (cfg : LoopConfig)
    (pubkey : Pubkey) (evs : List LoopEvent) (s : LoopState) : Prop where
  /-- event by event, the batch messages offered are the ones owed -/
  offered : ∃ owed : LoopState → LoopEvent → List Offer,
    (∀ before ev, OwedIn decode cfg pubkey before ev (owed before ev)) ∧
      batchOffersTo pubkey s.offers =
        (visited (eventStep decode cfg) LoopState.init evs).flatMap fun p => owed p.1 p.2
  /-- accepted is what was offered, minus what was answered `Full` or `Closed` -/
  accepted : batchOffersTo pubkey s.delivered =
    (batchOffersTo pubkey s.offers).filter fun offer =>
      offer.result ≠ .full ∧ offer.result ≠ .closed
  /-- the metrics intervals cut the run into consecutive pieces -/
  intervals : s.offers = (s.reported.map Prod.snd).flatten ++ s.window
  /-- in each of them the two counters are the packets accepted and the packets
  refused by a full channel -/
  counted : ∀ interval ∈ s.reported ++ [(s.metrics, s.window)],
    statsOf (interval.1.packetStatsPerValidator pubkey) =
      ⟨min (packetsAnswered .ok (batchOffersTo pubkey interval.2)) u64Max,
        min (packetsAnswered .full (batchOffersTo pubkey interval.2)) u64Max⟩
  /-- a run that looks the same to `pubkey` treats it the same, whatever the
  iteration orders and whatever happens to other validators -/
  independent : ∀ evs' s', runSteps (eventStep decode cfg) LoopState.init evs' = some s' →
    evs'.filterMap (observe decode cfg pubkey) = evs.filterMap (observe decode cfg pubkey) →
    viewOf pubkey s' = viewOf pubkey s

/-- The per-validator packet stream is exact in every run of the event loop. -/
theorem validator_stream_exact (decode : List UInt8 → Option VersionedTransaction)
    (cfg : LoopConfig) (hsize : 1 ≤ cfg.validatorPacketBatchSize) (evs : List LoopEvent)
    (s : LoopState) (hrun : runSteps (eventStep decode cfg) LoopState.init evs = some s)
    (pubkey : Pubkey) : StreamExact decode cfg pubkey evs s := by
  have hpos : 1 ≤ cfg.validatorPacketBatchSize.toNat := UInt64.le_iff_toNat_le.mp hsize
  have haccounting : Accounting pubkey s :=
    runSteps_invariant (Accounting pubkey) (accounting_eventStep hpos pubkey) evs
      (accounting_init pubkey) hrun
  have hdelivered : s.delivered = s.offers.filter fun offer => offer.result = .ok :=
    runSteps_invariant (fun s => s.delivered = s.offers.filter fun offer => offer.result = .ok)
      delivered_eventStep evs rfl hrun
  refine ⟨⟨streamOffers decode cfg pubkey, owedIn_streamOffers decode hpos pubkey, ?_⟩, ?_,
    haccounting.windows, ?_, ?_⟩
  · exact runSteps_log (fun s => batchOffersTo pubkey s.offers) (batchOffersTo_eventStep pubkey)
      evs hrun
  · rw [hdelivered, batchOffersTo_filter_ok]
    apply List.filter_congr
    intro offer _
    cases offer.result <;> rfl
  · intro interval hmem
    rcases List.mem_append.mp hmem with hmem | hmem
    · exact (haccounting.reported interval hmem).statsOf_eq
    · obtain rfl := List.mem_singleton.mp hmem
      exact haccounting.current.statsOf_eq
  · intro evs' s' hrun' hobserved
    rw [viewOf_runSteps pubkey evs' hrun', viewOf_runSteps pubkey evs hrun, hobserved]

/-! ## A run with a chunk refused -/

/-- A leader subscribes, is offered three packets in chunks of two, and finds its
channel full at the second chunk. -/
def refusedChunkRun : List LoopEvent :=
  [ .subscription (some (uniformKey 7, 0))
  , .slot (some 5) fun _ => some (uniformKey 7)
  , .packets (some ⟨0, [[oneBytePacket 1, oneBytePacket 2], [oneBytePacket 3]]⟩) (fun _ => none)
      [uniformKey 7] ⟨fun _ k => if k = 0 then .ok else .full, fun _ k => k⟩
  , .metrics
  , .heartbeat .healthy [uniformKey 7] fun _ => .ok ]

theorem validator_stream_exact_refusedChunk :
    ∃ s, runSteps (eventStep (fun _ => none) ⟨∅, 2, false, 3⟩) LoopState.init refusedChunkRun = some s ∧
      (batchOffersTo (uniformKey 7) s.offers).map (fun offer => (offer.packets?.getD []).length) =
        [2, 1] ∧
      StreamExact (fun _ => none) ⟨∅, 2, false, 3⟩ (uniformKey 7) refusedChunkRun s := by
  have hsome : (runSteps (eventStep (fun _ => none) ⟨∅, 2, false, 3⟩) LoopState.init
      refusedChunkRun).isSome = true := by decide
  obtain ⟨s, hrun⟩ := Option.isSome_iff_exists.mp hsome
  refine ⟨s, hrun, ?_, validator_stream_exact _ _ (by decide) _ s hrun _⟩
  have hlengths : ((runSteps (eventStep (fun _ => none) ⟨∅, 2, false, 3⟩) LoopState.init
      refusedChunkRun).map fun s => (batchOffersTo (uniformKey 7) s.offers).map fun offer =>
        (offer.packets?.getD []).length) = some [2, 1] := by decide
  rw [hrun] at hlengths
  exact Option.some.inj hlengths

end FlowraRelayer.Relayer
