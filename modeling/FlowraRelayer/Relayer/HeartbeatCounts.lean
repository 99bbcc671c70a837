/-
  Relayer/HeartbeatCounts.lean --- the counts in the heartbeats of the relayer and of the
  block engine handler.

  `handle_packet_stream` counts its heartbeats in a local variable, so the counts on its
  stream go up by one.  `run_event_loop` puts `relayer_metrics.num_heartbeats` into its
  heartbeats, and the metrics tick replaces `relayer_metrics`, so the counts on a
  subscription's channel start again from zero after every report.
  `heartbeat_counts_increase` holds as long as no channel takes heartbeats on both sides of a
  metrics tick; `heartbeat_count_repeats` is a channel that does.
-/
import FlowraRelayer.BlockEngine.PacketStream
import FlowraRelayer.Relayer.ConnectionCounters

set_option autoImplicit false

namespace FlowraRelayer.Relayer

open FlowraRelayer.Foundation
open FlowraRelayer.Solana
open FlowraRelayer.Protos
open FlowraRelayer.BlockEngine (PacketBatchUpdate StreamState StreamConfig Arm streamStep
  streamStep_eq_some_iff handleArm_sends)

/-! ## The counts on a channel -/

/-- The count of a heartbeat; `none` for a batch. -/
def Msg.count? : Msg → Option UInt64
  | .heartbeat count => some count
  | .batch _ => none

/-- The counts of the heartbeats that offers place on the channel of a subscription, which is
a key with its sender. -/
def heartbeatsOn (subscription : Pubkey × Sender) (offers : List Offer) : List UInt64 :=
  offers.filterMap fun offer =>
    if (offer.pubkey, offer.sender) = subscription ∧ offer.result = .ok then
      offer.response.msg.count?
    else none

/-- The count of a heartbeat to the block engine; `none` for a batch. -/
def updateCount? : PacketBatchUpdate → Option UInt64
  | .heartbeat count => some count
  | .batches _ => none

/-- At a heartbeat tick, the heartbeats that a channel has taken so far are the ones it has
taken since the metrics tick, if it takes this one too; and the counter is not at its end. -/
def TakenSinceReport (s : LoopState) : LoopEvent → Prop
  | .heartbeat .healthy order trySend =>
      s.metrics.numHeartbeats.toNat + 1 < UInt64.size ∧
        ∀ subscription ∈ subscribersIn s order, trySend subscription.1 = .ok →
          heartbeatsOn subscription s.delivered = heartbeatsOn subscription s.window
  | _ => True

instance (s : LoopState) (ev : LoopEvent) : Decidable (TakenSinceReport s ev) :=
  match ev with
  | .heartbeat .healthy order trySend =>
      inferInstanceAs (Decidable (_ ∧ ∀ subscription ∈ subscribersIn s order,
        trySend subscription.1 = .ok →
          heartbeatsOn subscription s.delivered = heartbeatsOn subscription s.window))
  | .heartbeat .unhealthy _ _ => isTrue trivial
  | .packets _ _ _ _ => isTrue trivial
  | .slot _ _ => isTrue trivial
  | .subscription _ => isTrue trivial
  | .metrics => isTrue trivial

/-- The counter of a block engine connection is not at its end. -/
def CanCount {timed : TimedCache Pubkey} (s : StreamState timed) (_ : Time × Arm) : Prop :=
  s.heartbeatCount.toNat + 1 < UInt64.size

/-! ## Counting -/

/-- Strictly increasing counts, all of them before the next one. -/
structure CountsUpTo (next : UInt64) (counts : List UInt64) : Prop where
  increasing : counts.Pairwise (· < ·)
  below : ∀ count ∈ counts, count < next

theorem lt_next {next : UInt64} (hroom : next.toNat + 1 < UInt64.size) : next < next + 1 := by
  rw [UInt64.lt_iff_toNat_lt, UInt64.toNat_add, UInt64.toNat_one]
  rw [Nat.mod_eq_of_lt hroom]
  exact Nat.lt_succ_self _

/-- The next count may be appended. -/
theorem CountsUpTo.concat {next : UInt64} {counts : List UInt64} (h : CountsUpTo next counts)
    (hroom : next.toNat + 1 < UInt64.size) : CountsUpTo (next + 1) (counts ++ [next]) where
  increasing := by
    rw [List.pairwise_append]
    refine ⟨h.increasing, List.pairwise_singleton _ _, ?_⟩
    intro count hcount other hother
    rw [List.mem_singleton.mp hother]
    exact h.below count hcount
  below := by
    intro count hcount
    rcases List.mem_append.mp hcount with hold | hnew
    · exact UInt64.lt_trans (h.below count hold) (lt_next hroom)
    · rw [List.mem_singleton.mp hnew]
      exact lt_next hroom

/-! ## What a turn places on a channel -/

section Turns

variable {decode : List UInt8 → Option VersionedTransaction} {cfg : LoopConfig}
  {s s' : LoopState} {ev : LoopEvent}

theorem heartbeatsOn_append (subscription : Pubkey × Sender) (left right : List Offer) :
    heartbeatsOn subscription (left ++ right) =
      heartbeatsOn subscription left ++ heartbeatsOn subscription right :=
  List.filterMap_append

/-- Only what was accepted is on the channel. -/
theorem heartbeatsOn_filter_ok (subscription : Pubkey × Sender) (offers : List Offer) :
    heartbeatsOn subscription (offers.filter fun offer => offer.result = .ok) =
      heartbeatsOn subscription offers := by
  unfold heartbeatsOn
  rw [List.filterMap_filter]
  refine List.filterMap_congr fun offer _ => ?_
  by_cases hok : offer.result = .ok
  · simp [hok]
  · simp [hok]

theorem heartbeatsOn_batchOffers (subscription : Pubkey × Sender) (env : ForwardEnv)
    (senders : List (Pubkey × Sender)) :
    ∀ (batches : List (List ProtoPacket)) (k : Nat),
      heartbeatsOn subscription (batchOffers env senders k batches) = [] := by
  intro batches
  induction batches with
  | nil =>
    intro k
    rfl
  | cons packets rest ih =>
    intro k
    rw [batchOffers, heartbeatsOn_append, ih (k + 1), List.append_nil]
    split
    · rfl
    · refine List.filterMap_eq_nil_iff.mpr fun offer hoffer => ?_
      obtain ⟨subscriber, -, rfl⟩ := List.mem_map.mp hoffer
      simp [batchOffer, Msg.count?]

/-- A heartbeat tick places the count once on the channel of each subscriber that takes it. -/
theorem heartbeatsOn_map_heartbeatOffer (subscription : Pubkey × Sender)
    (trySend : Pubkey → TrySendResult) (count : UInt64) :
    ∀ {subscribers : List (Pubkey × Sender)}, subscribers.Nodup →
      heartbeatsOn subscription (subscribers.map (heartbeatOffer trySend count)) =
        if subscription ∈ subscribers ∧ trySend subscription.1 = .ok then [count] else [] := by
  intro subscribers hnodup
  induction subscribers with
  | nil => simp [heartbeatsOn]
  | cons subscriber rest ih =>
    obtain ⟨hfresh, hrest⟩ := List.nodup_cons.mp hnodup
    have hcons : heartbeatsOn subscription
          ((subscriber :: rest).map (heartbeatOffer trySend count)) =
        (if subscriber = subscription ∧ trySend subscription.1 = .ok then [count] else []) ++
          heartbeatsOn subscription (rest.map (heartbeatOffer trySend count)) := by
      by_cases hsame : subscriber = subscription
      · subst hsame
        by_cases hok : trySend subscriber.1 = .ok
        · simp [heartbeatsOn, heartbeatOffer, Msg.count?, hok]
        · simp [heartbeatsOn, heartbeatOffer, hok]
      · simp [heartbeatsOn, heartbeatOffer, hsame]
    rw [hcons, ih hrest]
    by_cases hsame : subscriber = subscription
    · subst hsame
      simp [hfresh]
    · simp [hsame, Ne.symm hsame]

theorem heartbeatsOn_heartbeatOffers (subscription : Pubkey × Sender) {order : List Pubkey}
    (trySend : Pubkey → TrySendResult) (horder : order.Nodup) :
    heartbeatsOn subscription (heartbeatOffers s order trySend) =
      if subscription ∈ subscribersIn s order ∧ trySend subscription.1 = .ok then
        [s.metrics.numHeartbeats]
      else [] :=
  heartbeatsOn_map_heartbeatOffer subscription trySend _
    (List.Nodup.of_map _ (keys_subscribersIn_nodup horder))

/-- The channel of every subscription has strictly increasing counts, and what it has taken
since the metrics tick is before the next count. -/
def CountInv (s : LoopState) : Prop :=
  ∀ subscription, (heartbeatsOn subscription s.delivered).Pairwise (· < ·) ∧
    ∀ count ∈ heartbeatsOn subscription s.window, count < s.metrics.numHeartbeats

theorem countInv_init : CountInv LoopState.init := by
  intro subscription
  exact ⟨.nil, fun count hcount => by cases hcount⟩

/-- A turn that places no heartbeat and leaves the counter keeps the counts. -/
theorem CountInv.of_silent (hinv : CountInv s) (offers : List Offer)
    (hsilent : ∀ subscription, heartbeatsOn subscription offers = [])
    (hdelivered : s'.delivered = s.delivered ++ offers.filter fun offer => offer.result = .ok)
    (hwindow : s'.window = s.window ++ offers)
    (hcounter : s'.metrics.numHeartbeats = s.metrics.numHeartbeats) : CountInv s' := by
  intro subscription
  rw [hdelivered, hwindow, hcounter, heartbeatsOn_append, heartbeatsOn_append,
    heartbeatsOn_filter_ok, hsilent, List.append_nil, List.append_nil]
  exact hinv subscription

/-- A heartbeat tick. -/
theorem CountInv.heartbeat (hinv : CountInv s) {order : List Pubkey}
    {trySend : Pubkey → TrySendResult} (horder : order.Nodup)
    (htaken : TakenSinceReport s (.heartbeat .healthy order trySend))
    (hdelivered : s'.delivered =
      s.delivered ++ (heartbeatOffers s order trySend).filter fun offer => offer.result = .ok)
    (hwindow : s'.window = s.window ++ heartbeatOffers s order trySend)
    (hcounter : s'.metrics.numHeartbeats = s.metrics.numHeartbeats + 1) : CountInv s' := by
  obtain ⟨hroom, htaken⟩ := htaken
  intro subscription
  obtain ⟨hincreasing, hbelow⟩ := hinv subscription
  rw [hdelivered, hwindow, hcounter, heartbeatsOn_append, heartbeatsOn_append,
    heartbeatsOn_filter_ok, heartbeatsOn_heartbeatOffers subscription trySend horder]
  split
  · rename_i htakes
    -- all the channel has taken is in the window, so it is before the count it takes now
    have hsame := htaken subscription htakes.1 htakes.2
    have hnext : CountsUpTo (s.metrics.numHeartbeats + 1)
        (heartbeatsOn subscription s.delivered ++ [s.metrics.numHeartbeats]) :=
      CountsUpTo.concat ⟨hincreasing, hsame ▸ hbelow⟩ hroom
    exact ⟨hnext.increasing, hsame ▸ hnext.below⟩
  · rw [List.append_nil, List.append_nil]
    refine ⟨hincreasing, ?_⟩
    intro count hcount
    exact UInt64.lt_trans (hbelow count hcount) (lt_next hroom)

/-- Every turn that meets the condition keeps the counts. -/
theorem countInv_eventStep (hinv : CountInv s) (htaken : TakenSinceReport s ev)
    (h : eventStep decode cfg s ev = some s') : CountInv s' := by
  rcases eventStep_cases h with ⟨_, _, rfl, rfl⟩ | ⟨batches, cache, order, env, rfl, -, -, rfl⟩ |
    ⟨pubkey, sender, rfl, rfl⟩ | ⟨order, trySend, rfl, horder, rfl⟩ | ⟨order, _, rfl, -, rfl⟩ |
    ⟨rfl, rfl⟩
  · exact hinv
  · refine hinv.of_silent (packetOffers decode cfg s batches cache order env) ?_ ?_ ?_ ?_
    · intro subscription
      exact heartbeatsOn_batchOffers subscription env _ _ 0
    · simp only [dropConnections, applyAll_eq]
    · simp only [dropConnections, applyAll_eq]
    · simp only [dropConnections, applyAll_eq, foldl_tally_eq tally_numHeartbeats]
  · intro subscription
    refine ⟨(hinv subscription).1, ?_⟩
    dsimp only
    split <;> exact (hinv subscription).2
  · refine hinv.heartbeat horder.1 htaken ?_ ?_ ?_
    · simp only [dropConnections, applyAll_eq]
    · simp only [dropConnections, applyAll_eq]
    · simp only [dropConnections, applyAll_eq, foldl_tally_eq tally_numHeartbeats]
  · exact hinv
  · intro subscription
    exact ⟨(hinv subscription).1, fun count hcount => by cases hcount⟩

end Turns

/-! ## The block engine stream -/

section Stream

variable {timed : TimedCache Pubkey} {streamCfg : StreamConfig}

/-- Every turn of a block engine connection appends at most the next count. -/
theorem countsUpTo_streamStep {t t' : StreamState timed} {ev : Time × Arm}
    (hinv : CountsUpTo t.heartbeatCount (t.sent.filterMap updateCount?)) (hroom : CanCount t ev)
    (h : streamStep streamCfg t ev = some t') :
    CountsUpTo t'.heartbeatCount (t'.sent.filterMap updateCount?) := by
  obtain ⟨-, harm⟩ := streamStep_eq_some_iff.mp h
  obtain ⟨-, hsent, hcount⟩ | ⟨hcount, hsent | ⟨_, _, _, -, -, hsent⟩⟩ := handleArm_sends harm
  · rw [hsent, hcount, List.filterMap_append]
    exact hinv.concat hroom
  · rw [hsent, hcount]
    exact hinv
  · rw [hsent, hcount, List.filterMap_append, List.filterMap_cons_none rfl, List.filterMap_nil,
      List.append_nil]
    exact hinv

end Stream

/-- The counts of the heartbeats on the channel of every subscription are strictly
increasing in every run of the event loop in which no channel takes heartbeats on both sides
of a metrics tick, and so are those on the block engine stream in every run of its loop; the
counters are short of `u64::MAX`. -/
theorem heartbeat_counts_increase (decode : List UInt8 → Option VersionedTransaction)
    (cfg : LoopConfig) (events : List LoopEvent) (s : LoopState)
    (hrun : runSteps (eventStep decode cfg) LoopState.init events = some s)
    (htaken : StepsMeet (eventStep decode cfg) TakenSinceReport LoopState.init events)
    (timed : TimedCache Pubkey) (streamCfg : StreamConfig) (start : Time)
    (arms : List (Time × Arm)) (t : StreamState timed)
    (hstream : runSteps (streamStep streamCfg) (StreamState.new timed streamCfg start) arms = some t)
    (hroom : StepsMeet (streamStep streamCfg) CanCount (StreamState.new timed streamCfg start) arms) :
    (∀ subscription, (heartbeatsOn subscription s.delivered).Pairwise (· < ·)) ∧
      (t.sent.filterMap updateCount?).Pairwise (· < ·) := by
  have hinv : CountInv s :=
    runSteps_invariant_of_meets CountInv
      (fun _ _ _ hinv hmeets h => countInv_eventStep hinv hmeets h) events countInv_init htaken hrun
  have hcounts : CountsUpTo t.heartbeatCount (t.sent.filterMap updateCount?) :=
    runSteps_invariant_of_meets
      (fun t : StreamState timed => CountsUpTo t.heartbeatCount (t.sent.filterMap updateCount?))
      (fun _ _ _ hinv hmeets h => countsUpTo_streamStep hinv hmeets h) arms
      ⟨.nil, fun count hcount => by cases hcount⟩ hroom hstream
  exact ⟨fun subscription => (hinv subscription).1, hcounts.increasing⟩

/-- A healthy tick at which the only channel takes the heartbeat. -/
def heartbeatTick : LoopEvent := .heartbeat .healthy [uniformKey 7] fun _ => .ok

/-- A validator that takes two heartbeats and subscribes anew after the metrics tick. -/
def resubscribingRun : List LoopEvent :=
  [ .subscription (some (uniformKey 7, 0)), heartbeatTick, heartbeatTick, .metrics
  , .subscription (some (uniformKey 7, 1)), heartbeatTick, heartbeatTick ]

/-- A connection that knows no transaction. -/
def silentConfig : StreamConfig := ⟨⟨fun _ => none, ∅⟩, 5⟩

/-- Two heartbeats to the block engine around its metrics tick. -/
def twoHeartbeats : List (Time × Arm) :=
  [(1, .heartbeat true), (2, .metrics), (3, .heartbeat true)]

theorem heartbeat_counts_increase_resubscribing :
    ∃ s, runSteps (eventStep (fun _ => none) singlePacketConfig) LoopState.init resubscribingRun =
        some s ∧
      heartbeatsOn (uniformKey 7, 0) s.delivered = [0, 1] ∧
      heartbeatsOn (uniformKey 7, 1) s.delivered = [0, 1] ∧
      ∃ t : StreamState (mapCache Pubkey),
        runSteps (streamStep silentConfig) (StreamState.new _ silentConfig 0) twoHeartbeats =
          some t ∧
        t.sent.filterMap updateCount? = [0, 1] ∧
        (∀ subscription, (heartbeatsOn subscription s.delivered).Pairwise (· < ·)) ∧
        (t.sent.filterMap updateCount?).Pairwise (· < ·) := by
  have hrun : (runSteps (eventStep (fun _ => none) singlePacketConfig) LoopState.init
      resubscribingRun).map (fun s => (heartbeatsOn (uniformKey 7, 0) s.delivered,
        heartbeatsOn (uniformKey 7, 1) s.delivered)) = some ([0, 1], [0, 1]) := by decide
  have htaken : StepsMeet (eventStep (fun _ => none) singlePacketConfig) TakenSinceReport
      LoopState.init resubscribingRun := by
    unfold StepsMeet
    decide
  have hstream : (runSteps (streamStep silentConfig)
      (StreamState.new (mapCache Pubkey) silentConfig 0) twoHeartbeats).map
        (fun t => t.sent.filterMap updateCount?) = some [0, 1] := by decide
  have hroom : StepsMeet (streamStep silentConfig) CanCount
      (StreamState.new (mapCache Pubkey) silentConfig 0) twoHeartbeats := by
    unfold StepsMeet CanCount
    decide
  obtain ⟨s, hs, hcounts⟩ := Option.map_eq_some_iff.mp hrun
  obtain ⟨t, ht, hsent⟩ := Option.map_eq_some_iff.mp hstream
  rw [Prod.mk.injEq] at hcounts
  refine ⟨s, hs, hcounts.1, hcounts.2, t, ht, hsent, ?_⟩
  exact heartbeat_counts_increase _ _ _ s hs htaken _ _ 0 _ t ht hroom

/-- A validator that stays subscribed over a metrics tick gets the count zero twice. -/
theorem heartbeat_count_repeats :
    ¬ ∀ (cfg : LoopConfig) (events : List LoopEvent) (s : LoopState),
      runSteps (eventStep (fun _ => none) cfg) LoopState.init events = some s →
      ∀ subscription, (heartbeatsOn subscription s.delivered).Pairwise (· < ·) := by
  intro hall
  have hrun : (runSteps (eventStep (fun _ => none) singlePacketConfig) LoopState.init
      [.subscription (some (uniformKey 7, 0)), heartbeatTick, .metrics, heartbeatTick]).map
        (fun s => heartbeatsOn (uniformKey 7, 0) s.delivered) = some [0, 0] := by decide
  obtain ⟨s, hs, hcounts⟩ := Option.map_eq_some_iff.mp hrun
  have hincreasing := hall singlePacketConfig _ s hs (uniformKey 7, 0)
  rw [hcounts] at hincreasing
  exact absurd hincreasing (by decide)

end FlowraRelayer.Relayer
