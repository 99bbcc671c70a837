/-
  TransactionRelayer/DelayQueue.lean --- the delay queue loses nothing, keeps the
  order and never releases early.

  The release loop looks at the front of the queue only.  That this is enough rests
  on the stamps in the queue being in order, which `Ledger` carries through the
  three parts of a turn together with the accounts of the packet counters.  The
  counters are `u64`s that are reset with every report; `Counts` says what they
  hold as unbounded numbers, so that the balance can be read off both with and
  without wrap-around.
-/
import FlowraRelayer.TransactionRelayer.Forwarder
import Mathlib.Algebra.BigOperators.Group.List.Basic
import Mathlib.Data.UInt

set_option autoImplicit false

namespace FlowraRelayer.TransactionRelayer

open FlowraRelayer.Foundation
open FlowraRelayer.Protos
open FlowraRelayer.Relayer

/-! ## Counters over all reports -/

/-- Every value the metrics had when they were reported, and their value now. -/
def metricsOverTime (s : ForwarderState) : List ForwarderMetrics := s.reported ++ [s.metrics]

/-- A counter summed over all metrics resets, in `u64` arithmetic. -/
def wrappedTotal (counter : ForwarderMetrics → UInt64) (s : ForwarderState) : UInt64 :=
  ((metricsOverTime s).map counter).sum

/-- A counter summed over all metrics resets. -/
def total (counter : ForwarderMetrics → UInt64) (s : ForwarderState) : Nat :=
  ((metricsOverTime s).map fun m => (counter m).toNat).sum

/-- The intervals of `counter` hold numbers, each reduced to 64 bits, that add up
to `n`. -/
def Counts (counter : ForwarderMetrics → UInt64) (s : ForwarderState) (n : Nat) : Prop :=
  ∃ (past : List Nat) (current : Nat), s.reported.map counter = past.map UInt64.ofNat ∧
    counter s.metrics = UInt64.ofNat current ∧ past.sum + current = n

theorem Counts.upload {counter : ForwarderMetrics → UInt64} {s s' : ForwarderState} {n : Nat}
    (h : Counts counter s n) (hreported : s'.reported = s.reported ++ [s.metrics])
    (hmetrics : counter s'.metrics = 0) : Counts counter s' n := by
  obtain ⟨past, current, hpast, hcurrent, hsum⟩ := h
  refine ⟨past ++ [current], 0, ?_, hmetrics, ?_⟩
  · simp [hreported, hpast, hcurrent]
  · simpa using hsum

theorem Counts.add {counter : ForwarderMetrics → UInt64} {s s' : ForwarderState} {n k : Nat}
    (h : Counts counter s n) (hreported : s'.reported = s.reported)
    (hmetrics : counter s'.metrics = counter s.metrics + UInt64.ofNat k) :
    Counts counter s' (n + k) := by
  obtain ⟨past, current, hpast, hcurrent, hsum⟩ := h
  refine ⟨past, current + k, ?_, ?_, ?_⟩
  · rw [hreported, hpast]
  · rw [hmetrics, hcurrent, ← UInt64.ofNat_add]
  · omega

theorem Counts.congr {counter : ForwarderMetrics → UInt64} {s s' : ForwarderState} {n : Nat}
    (h : Counts counter s n) (hreported : s'.reported = s.reported)
    (hmetrics : counter s'.metrics = counter s.metrics) : Counts counter s' n := by
  unfold Counts
  rw [hreported, hmetrics]
  exact h

theorem sum_map_ofNat : ∀ ns : List Nat, (ns.map UInt64.ofNat).sum = UInt64.ofNat ns.sum := by
  intro ns
  induction ns with
  | nil => rfl
  | cons n ns ih => rw [List.map_cons, List.sum_cons, ih, List.sum_cons, UInt64.ofNat_add]

theorem Counts.wrappedTotal_eq {counter : ForwarderMetrics → UInt64} {s : ForwarderState} {n : Nat}
    (h : Counts counter s n) : wrappedTotal counter s = UInt64.ofNat n := by
  obtain ⟨past, current, hpast, hcurrent, hsum⟩ := h
  unfold wrappedTotal metricsOverTime
  rw [List.map_append, List.sum_append, hpast, sum_map_ofNat, List.map_singleton,
    List.sum_singleton, hcurrent, ← UInt64.ofNat_add, hsum]

theorem sum_toNat_of_map_ofNat : ∀ {values : List UInt64} {ns : List Nat},
    values = ns.map UInt64.ofNat → ns.sum < 2 ^ 64 → (values.map UInt64.toNat).sum = ns.sum := by
  intro values ns hvalues
  subst hvalues
  induction ns with
  | nil => intro _; rfl
  | cons n ns ih =>
    intro hlt
    rw [List.sum_cons] at hlt
    have hrest := ih (by omega)
    have hhead : (UInt64.ofNat n).toNat = n := by
      rw [UInt64.toNat_ofNat', Nat.mod_eq_of_lt (by omega)]
    rw [List.map_cons, List.map_cons, List.sum_cons, hrest, hhead, List.sum_cons]

theorem Counts.total_eq {counter : ForwarderMetrics → UInt64} {s : ForwarderState} {n : Nat}
    (h : Counts counter s n) (hlt : n < 2 ^ 64) : total counter s = n := by
  obtain ⟨past, current, hpast, hcurrent, hsum⟩ := h
  have hvalues : (metricsOverTime s).map counter = (past ++ [current]).map UInt64.ofNat := by
    simp [metricsOverTime, hpast, hcurrent]
  have hsum' : (past ++ [current]).sum = n := by simpa using hsum
  have htotal := sum_toNat_of_map_ofNat hvalues (by rw [hsum']; exact hlt)
  rw [hsum', List.map_map] at htotal
  exact htotal

/-! ## The ledger of a thread -/

/-- The packets in a list of batches. -/
def packetsIn (batches : List RelayerPacketBatches) : Nat :=
  (batches.map fun batch => batch.bankingPacketBatch.numPackets).sum

/-- The packets in the batches offered to the block engine and answered by
`result`. -/
def packetsOffered (result : TrySendResult) (offered : List (BlockEnginePackets × TrySendResult)) :
    Nat :=
  ((offered.filter fun offer => offer.2 = result).map fun offer =>
    offer.1.bankingPacketBatch.numPackets).sum

theorem packetsIn_append (left right : List RelayerPacketBatches) :
    packetsIn (left ++ right) = packetsIn left + packetsIn right := by
  simp [packetsIn]

theorem packetsOffered_append_singleton (result : TrySendResult)
    (offered : List (BlockEnginePackets × TrySendResult)) (offer : BlockEnginePackets)
    (answer : TrySendResult) :
    packetsOffered result (offered ++ [(offer, answer)]) =
      packetsOffered result offered +
        if answer = result then offer.bankingPacketBatch.numPackets else 0 := by
  unfold packetsOffered
  rw [List.filter_append, List.map_append, List.sum_append]
  by_cases h : answer = result <;> simp [h]

/-- What a forwarder thread has done and what it still holds add up, inside a turn
as well as between two turns. -/
structure Ledger (cfg : ForwarderConfig) (s : ForwarderState) : Prop where
  fifo : s.received = s.sent.map Prod.snd ++ s.bufferedPacketBatches
  stamps_le : ∀ batch ∈ s.bufferedPacketBatches, batch.stamp ≤ s.now
  stamps_sorted : s.bufferedPacketBatches.Pairwise fun earlier later => earlier.stamp ≤ later.stamp
  never_early : ∀ release ∈ s.sent, release.2.stamp + cfg.packetDelay ≤ release.1
  offered_once : s.offered.map (fun offer => offer.1.bankingPacketBatch) =
    if cfg.disableMempool then [] else s.received.map fun batch => batch.bankingPacketBatch
  answered : ∀ offer ∈ s.offered, offer.2 ≠ .closed
  received_counts : Counts ForwarderMetrics.numPacketsReceived s (packetsIn s.received)
  relayed_counts :
    Counts ForwarderMetrics.numRelayerPacketsForwarded s (packetsIn (s.sent.map Prod.snd))
  beForwarded_counts :
    Counts ForwarderMetrics.numBePacketsForwarded s (packetsOffered .ok s.offered)
  beDropped_counts :
    Counts ForwarderMetrics.numBePacketsDropped s (packetsOffered .full s.offered)

theorem ledger_init (cfg : ForwarderConfig) (now : Time) : Ledger cfg (ForwarderState.init now) where
  fifo := rfl
  stamps_le := by simp [ForwarderState.init]
  stamps_sorted := List.Pairwise.nil
  never_early := by simp [ForwarderState.init]
  offered_once := by simp [ForwarderState.init]
  answered := by simp [ForwarderState.init]
  received_counts := ⟨[], 0, rfl, rfl, rfl⟩
  relayed_counts := ⟨[], 0, rfl, rfl, rfl⟩
  beForwarded_counts := ⟨[], 0, rfl, rfl, rfl⟩
  beDropped_counts := ⟨[], 0, rfl, rfl, rfl⟩

/-! ## The three parts of a turn -/

theorem ledger_uploadMetrics {cfg : ForwarderConfig} {s : ForwarderState} (input : TurnInput)
    (hinv : Ledger cfg s) : Ledger cfg (uploadMetrics input s) := by
  unfold uploadMetrics
  dsimp only
  split
  · refine ⟨hinv.fifo, fun batch hbatch => ?_, hinv.stamps_sorted, hinv.never_early,
      hinv.offered_once, hinv.answered, hinv.received_counts.upload rfl rfl,
      hinv.relayed_counts.upload rfl rfl, hinv.beForwarded_counts.upload rfl rfl,
      hinv.beDropped_counts.upload rfl rfl⟩
    exact (hinv.stamps_le batch hbatch).trans
      ((Nat.le_add_right _ _).trans (Nat.le_add_right _ _))
  · refine ⟨hinv.fifo, fun batch hbatch => ?_, hinv.stamps_sorted, hinv.never_early,
      hinv.offered_once, hinv.answered, hinv.received_counts.congr rfl rfl,
      hinv.relayed_counts.congr rfl rfl, hinv.beForwarded_counts.congr rfl rfl,
      hinv.beDropped_counts.congr rfl rfl⟩
    exact (hinv.stamps_le batch hbatch).trans (Nat.le_add_right _ _)

/-- What a successful offer counts, and that it was not refused by a closed
channel. -/
theorem countOffer_eq_ok {m m' : ForwarderMetrics} {n : Nat} {result : TrySendResult}
    (h : m.countOffer (UInt64.ofNat n) result = .ok m') :
    result ≠ .closed ∧
      m'.numPacketsReceived = m.numPacketsReceived ∧
      m'.numRelayerPacketsForwarded = m.numRelayerPacketsForwarded ∧
      m'.numBePacketsForwarded =
        m.numBePacketsForwarded + UInt64.ofNat (if result = .ok then n else 0) ∧
      m'.numBePacketsDropped =
        m.numBePacketsDropped + UInt64.ofNat (if result = .full then n else 0) := by
  cases result with
  | ok => cases h; simp
  | full => cases h; simp
  | closed => cases h

/-- A batch is received: it is stamped, counted and buffered. -/
theorem Ledger.receive {cfg : ForwarderConfig} {s s' : ForwarderState} {batch : RelayerPacketBatches}
    (hinv : Ledger cfg s) (hnow : s.now ≤ s'.now) (hstamp : batch.stamp = s'.now)
    (hbuffered : s'.bufferedPacketBatches = s.bufferedPacketBatches ++ [batch])
    (hreceived : s'.received = s.received ++ [batch]) (hsent : s'.sent = s.sent)
    (hreported : s'.reported = s.reported)
    (hpackets : s'.metrics.numPacketsReceived =
      s.metrics.numPacketsReceived + numPackets batch.bankingPacketBatch)
    (hrelayed : s'.metrics.numRelayerPacketsForwarded = s.metrics.numRelayerPacketsForwarded)
    (hoffered : s'.offered.map (fun offer => offer.1.bankingPacketBatch) =
      if cfg.disableMempool then [] else s'.received.map fun batch => batch.bankingPacketBatch)
    (hanswered : ∀ offer ∈ s'.offered, offer.2 ≠ .closed)
    (hforwarded : Counts ForwarderMetrics.numBePacketsForwarded s' (packetsOffered .ok s'.offered))
    (hdropped : Counts ForwarderMetrics.numBePacketsDropped s' (packetsOffered .full s'.offered)) :
    Ledger cfg s' where
  fifo := by rw [hreceived, hinv.fifo, hsent, hbuffered, List.append_assoc]
  stamps_le := by
    rw [hbuffered]
    intro earlier hearlier
    rcases List.mem_append.mp hearlier with hearlier | hearlier
    · exact (hinv.stamps_le earlier hearlier).trans hnow
    · obtain rfl := List.mem_singleton.mp hearlier
      exact hstamp.le
  stamps_sorted := by
    rw [hbuffered, List.pairwise_append]
    refine ⟨hinv.stamps_sorted, List.pairwise_singleton _ _, fun earlier hearlier later hlater => ?_⟩
    obtain rfl := List.mem_singleton.mp hlater
    rw [hstamp]
    exact (hinv.stamps_le earlier hearlier).trans hnow
  never_early := by
    rw [hsent]
    exact hinv.never_early
  offered_once := hoffered
  answered := hanswered
  received_counts := by
    rw [hreceived, packetsIn_append]
    refine hinv.received_counts.add hreported ?_
    simpa [packetsIn, numPackets] using hpackets
  relayed_counts := by
    rw [hsent]
    exact hinv.relayed_counts.congr hreported hrelayed
  beForwarded_counts := hforwarded
  beDropped_counts := hdropped

theorem ledger_receiveBatch {cfg : ForwarderConfig} {input : TurnInput} {s s' : ForwarderState}
    (hinv : Ledger cfg s) (h : receiveBatch cfg input s = .ok s') : Ledger cfg s' := by
  unfold receiveBatch at h
  cases hrecv : input.recv with
  | timeout =>
    rw [hrecv] at h
    cases h
    exact hinv
  | disconnected =>
    rw [hrecv] at h
    cases h
  | ok bankingPacketBatch =>
    rw [hrecv] at h
    dsimp only at h
    by_cases hmempool : cfg.disableMempool = true
    · rw [if_pos hmempool] at h
      cases h
      have hoffered := hinv.offered_once
      rw [if_pos hmempool] at hoffered
      refine hinv.receive (Nat.le_add_right _ _) rfl rfl rfl rfl rfl rfl rfl ?_ hinv.answered
        (hinv.beForwarded_counts.congr rfl rfl) (hinv.beDropped_counts.congr rfl rfl)
      rw [if_pos hmempool]
      exact hoffered
    · rw [if_neg hmempool] at h
      cases hcount : ForwarderMetrics.countOffer _ (numPackets bankingPacketBatch) input.trySend with
      | error e =>
        rw [hcount] at h
        cases h
      | ok metrics =>
        rw [hcount] at h
        cases h
        obtain ⟨hanswer, hpackets, hrelayed, hforwarded, hdropped⟩ := countOffer_eq_ok hcount
        have hoffered := hinv.offered_once
        rw [if_neg hmempool] at hoffered
        refine hinv.receive (Nat.le_add_right _ _) rfl rfl rfl rfl rfl hpackets hrelayed ?_ ?_ ?_ ?_
        · simp [hmempool, hoffered, ForwarderState.tick]
        · intro offer hmem
          rcases List.mem_append.mp hmem with hmem | hmem
          · exact hinv.answered offer hmem
          · obtain rfl := List.mem_singleton.mp hmem
            exact hanswer
        · rw [packetsOffered_append_singleton]
          exact hinv.beForwarded_counts.add rfl hforwarded
        · rw [packetsOffered_append_singleton]
          exact hinv.beDropped_counts.add rfl hdropped

/-- The release loop keeps the ledger, and what it leaves in the buffer had not
reached the delay at its last check. -/
theorem ledger_releaseLoop {cfg : ForwarderConfig} {input : TurnInput} :
    ∀ (batches : List RelayerPacketBatches) (k : Nat) {s s' : ForwarderState},
      Ledger cfg { s with bufferedPacketBatches := batches } →
      releaseLoop cfg input k batches s = .ok s' →
      Ledger cfg s' ∧
        ∀ batch ∈ s'.bufferedPacketBatches, s'.now - batch.stamp < cfg.packetDelay := by
  intro batches
  induction batches with
  | nil =>
    intro k s s' hinv h
    cases h
    exact ⟨hinv, by simp⟩
  | cons batch rest ih =>
    intro k s s' hinv h
    unfold releaseLoop at h
    dsimp only at h
    obtain ⟨hfront, hsorted⟩ := List.pairwise_cons.mp hinv.stamps_sorted
    have hstamps_le : ∀ later ∈ batch :: rest, later.stamp ≤ s.now + input.untilCheck k :=
      fun later hlater => (hinv.stamps_le later hlater).trans (Nat.le_add_right _ _)
    split at h
    · rename_i hyoung
      cases h
      refine ⟨⟨hinv.fifo, hstamps_le, hinv.stamps_sorted, hinv.never_early, hinv.offered_once,
        hinv.answered, hinv.received_counts.congr rfl rfl, hinv.relayed_counts.congr rfl rfl,
        hinv.beForwarded_counts.congr rfl rfl, hinv.beDropped_counts.congr rfl rfl⟩, ?_⟩
      -- the front is the oldest, so nobody behind it is due either
      intro later hlater
      rcases List.mem_cons.mp hlater with rfl | hlater
      · exact hyoung
      · exact lt_of_le_of_lt (Nat.sub_le_sub_left (hfront later hlater) _) hyoung
    · rename_i hdue
      split at h
      · refine ih (k + 1) ?_ h
        refine ⟨?_, fun later hlater => hstamps_le later (by simp [hlater]), hsorted, ?_,
          hinv.offered_once, hinv.answered, hinv.received_counts.congr rfl rfl, ?_,
          hinv.beForwarded_counts.congr rfl rfl, hinv.beDropped_counts.congr rfl rfl⟩
        · simpa [ForwarderState.tick] using hinv.fifo
        · intro release hrelease
          rcases List.mem_append.mp hrelease with hrelease | hrelease
          · exact hinv.never_early release hrelease
          · obtain rfl := List.mem_singleton.mp hrelease
            have hage : cfg.packetDelay ≤ s.now + input.untilCheck k - batch.stamp :=
              Nat.le_of_not_lt hdue
            exact Nat.add_comm _ _ ▸ (Nat.le_sub_iff_add_le (hstamps_le batch (by simp))).mp hage
        · rw [List.map_append, packetsIn_append]
          refine hinv.relayed_counts.add rfl ?_
          simp [packetsIn, numPackets, ForwarderState.tick]
      · cases h

/-! ## Whole runs -/

/-- The ledger at a loop boundary, where the buffer has just been checked. -/
structure SettledLedger (cfg : ForwarderConfig) (s : ForwarderState) : Prop where
  ledger : Ledger cfg s
  none_due : ∀ batch ∈ s.bufferedPacketBatches, s.now - batch.stamp < cfg.packetDelay

theorem settledLedger_forwarderStep {cfg : ForwarderConfig} (s : ForwarderState)
    (input : TurnInput) (s' : ForwarderState) (hinv : SettledLedger cfg s)
    (h : forwarderStep cfg s input = some s') : SettledLedger cfg s' := by
  obtain ⟨middle, hreceive, hrelease⟩ :=
    forwarderTurn_eq_ok_iff.mp (forwarderStep_eq_some_iff.mp h)
  have hmiddle := ledger_receiveBatch (ledger_uploadMetrics input hinv.ledger) hreceive
  obtain ⟨hledger, hdue⟩ := ledger_releaseLoop _ 0 hmiddle hrelease
  exact ⟨hledger, hdue⟩

/-- What was not answered `Closed` was answered `Ok` or `Full`. -/
theorem packetsOffered_ok_add_full :
    ∀ offered : List (BlockEnginePackets × TrySendResult), (∀ offer ∈ offered, offer.2 ≠ .closed) →
      packetsOffered .ok offered + packetsOffered .full offered =
        (offered.map fun offer => offer.1.bankingPacketBatch.numPackets).sum := by
  intro offered
  induction offered with
  | nil => intro _; rfl
  | cons offer offered ih =>
    intro hanswered
    have hrest := ih fun o ho => hanswered o (by simp [ho])
    have hanswer := hanswered offer (by simp)
    obtain ⟨packets, result⟩ := offer
    unfold packetsOffered at hrest ⊢
    cases result with
    | ok => simp [← hrest, Nat.add_assoc]
    | full => simp [← hrest, Nat.add_left_comm]
    | closed => exact absurd rfl hanswer

/-- With the mempool enabled, every packet received is forwarded to the block
engine or dropped there. -/
theorem Ledger.packetsOffered_eq {cfg : ForwarderConfig} {s : ForwarderState} (h : Ledger cfg s)
    (hmempool : cfg.disableMempool = false) :
    packetsOffered .ok s.offered + packetsOffered .full s.offered = packetsIn s.received := by
  have hoffered := h.offered_once
  simp only [hmempool, Bool.false_eq_true, if_false] at hoffered
  rw [packetsOffered_ok_add_full _ h.answered, packetsIn]
  have hsum := congrArg (fun batches => (batches.map BankingPacketBatch.numPackets).sum) hoffered
  simpa only [List.map_map, Function.comp_def] using hsum

/-- The delay queue of a forwarder thread, at a loop boundary. -/
structure DelayQueueExact (cfg : ForwarderConfig) (s : ForwarderState) : Prop where
  /-- received is sent, followed by buffered -/
  lossless : s.received = s.sent.map Prod.snd ++ s.bufferedPacketBatches
  /-- nothing is sent before its delay has passed -/
  never_early : ∀ release ∈ s.sent, release.2.stamp + cfg.packetDelay ≤ release.1
  /-- at the check that ended the release loop, nothing in the buffer was due -/
  none_due : ∀ batch ∈ s.bufferedPacketBatches, s.now - batch.stamp < cfg.packetDelay
  /-- the block engine is offered every batch once, or none at all -/
  offered_once : s.offered.map (fun offer => offer.1.bankingPacketBatch) =
    if cfg.disableMempool then [] else s.received.map fun batch => batch.bankingPacketBatch
  /-- the counters balance in their own arithmetic -/
  wrapped_balance : wrappedTotal ForwarderMetrics.numPacketsReceived s =
    wrappedTotal ForwarderMetrics.numRelayerPacketsForwarded s +
      UInt64.ofNat (packetsIn s.bufferedPacketBatches)
  wrapped_be_balance : cfg.disableMempool = false →
    wrappedTotal ForwarderMetrics.numPacketsReceived s =
      wrappedTotal ForwarderMetrics.numBePacketsForwarded s +
        wrappedTotal ForwarderMetrics.numBePacketsDropped s
  /-- and as numbers, as long as the packets received can be counted at all -/
  balance : packetsIn s.received < 2 ^ 64 →
    total ForwarderMetrics.numPacketsReceived s =
      total ForwarderMetrics.numRelayerPacketsForwarded s + packetsIn s.bufferedPacketBatches
  be_balance : packetsIn s.received < 2 ^ 64 → cfg.disableMempool = false →
    total ForwarderMetrics.numPacketsReceived s =
      total ForwarderMetrics.numBePacketsForwarded s + total ForwarderMetrics.numBePacketsDropped s

/-- The delay queue is lossless, first in first out and never early in every run of
a forwarder thread. -/
theorem delay_queue_exact (cfg : ForwarderConfig) (start : Time) (inputs : List TurnInput)
    (s : ForwarderState)
    (hrun : runSteps (forwarderStep cfg) (ForwarderState.init start) inputs = some s) :
    DelayQueueExact cfg s := by
  have hstart : SettledLedger cfg (ForwarderState.init start) :=
    ⟨ledger_init cfg start, by simp [ForwarderState.init]⟩
  obtain ⟨hledger, hdue⟩ :=
    runSteps_invariant (SettledLedger cfg) settledLedger_forwarderStep inputs hstart hrun
  have hpackets : packetsIn s.received =
      packetsIn (s.sent.map Prod.snd) + packetsIn s.bufferedPacketBatches := by
    rw [hledger.fifo, packetsIn_append]
  refine ⟨hledger.fifo, hledger.never_early, hdue, hledger.offered_once, ?_, ?_, ?_, ?_⟩
  · rw [hledger.received_counts.wrappedTotal_eq, hledger.relayed_counts.wrappedTotal_eq, hpackets,
      UInt64.ofNat_add]
  · intro hmempool
    rw [hledger.received_counts.wrappedTotal_eq, hledger.beForwarded_counts.wrappedTotal_eq,
      hledger.beDropped_counts.wrappedTotal_eq, ← UInt64.ofNat_add,
      hledger.packetsOffered_eq hmempool]
  · intro hlt
    rw [hledger.received_counts.total_eq hlt, hledger.relayed_counts.total_eq (by omega), hpackets]
  · intro hlt hmempool
    have hoffered := hledger.packetsOffered_eq hmempool
    rw [hledger.received_counts.total_eq hlt, hledger.beForwarded_counts.total_eq (by omega),
      hledger.beDropped_counts.total_eq (by omega), hoffered]

/-! ## A run with a full block-engine channel -/

/-- A turn whose clock moves by `ahead` before the first check of the release loop. -/
def turnAt (recv : RecvResult) (trySend : TrySendResult) (ahead : Time) : TurnInput where
  untilMetricsCheck := 100 * nanosPerMilli
  untilUploaded := 0
  recv := recv
  untilReceived := 1
  systemTime := 0
  trySend := trySend
  untilCheck := fun k => if k = 0 then ahead else 0
  sendOk := fun _ => true

/-- Two batches arrive and the second is refused by the block engine's channel; both have
gone on when a third arrives. -/
def delayedRun : List TurnInput :=
  [ turnAt (.ok [[oneBytePacket 1, oneBytePacket 2]]) .ok 0
  , turnAt (.ok [[oneBytePacket 3]]) .full 0
  , turnAt .timeout .ok nanosPerSecond
  , turnAt .timeout .ok nanosPerSecond
  , turnAt (.ok [[oneBytePacket 4]]) .ok 0 ]

/-- What was received, sent on, taken by the block engine and refused by it. -/
def packetTotals (s : ForwarderState) : List Nat :=
  [ForwarderMetrics.numPacketsReceived, ForwarderMetrics.numRelayerPacketsForwarded,
    ForwarderMetrics.numBePacketsForwarded, ForwarderMetrics.numBePacketsDropped].map (total · s)

theorem delay_queue_exact_delayedRun :
    ∃ s, runSteps (forwarderStep ⟨2000, false⟩) (ForwarderState.init 0) delayedRun = some s ∧
      s.sent.length = 2 ∧ s.bufferedPacketBatches.length = 1 ∧ s.reported.length = 2 ∧
      packetTotals s = [4, 3, 3, 1] ∧ DelayQueueExact ⟨2000, false⟩ s := by
  have hrun : ((runSteps (forwarderStep ⟨2000, false⟩) (ForwarderState.init 0) delayedRun).map
      fun s => (s.sent.length, s.bufferedPacketBatches.length, s.reported.length,
        packetTotals s)) = some (2, 1, 2, [4, 3, 3, 1]) := by decide
  obtain ⟨s, hs, hvalues⟩ := Option.map_eq_some_iff.mp hrun
  simp only [Prod.mk.injEq] at hvalues
  obtain ⟨hsent, hbuffered, hreported, htotals⟩ := hvalues
  exact ⟨s, hs, hsent, hbuffered, hreported, htotals,
    delay_queue_exact ⟨2000, false⟩ 0 delayedRun s hs⟩

end FlowraRelayer.TransactionRelayer
