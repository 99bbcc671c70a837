/-
  Core/FetchStage.lean --- the thread of `core/src/fetch_stage.rs`, which copies the packets
  of the TPU forward ports into the TPU channel and marks them.

  A call of `handle_forwarded_packets` waits for one batch, reads ahead without waiting
  while it finds more, and then sends what it has, batch by batch.  The QUIC servers put
  batches into the queue all the while, so each `recv`, `try_recv` and `send` is a step of
  its own:

      arrive, disconnect   a server sends a batch; the last server is gone
      recv                 a call starts
      tryRecv              one pass of the read-ahead loop
      send                 one pass of the send loop; the last one ends the call with `Ok`
      exit                 the loop of `new` finds the exit flag set

  `arrived`, `current` and `finished` record what happened; no step reads them.
  `fetch_stage_conserves` is the result.

  Left out: the metrics of the thread.
-/
import FlowraRelayer.Foundation.Log
import FlowraRelayer.Foundation.Run
import Mathlib.Data.List.Forall2

set_option autoImplicit false

namespace FlowraRelayer.Core

open FlowraRelayer.Foundation

/-! ## Packets -/

/-- `solana_sdk::packet::Packet` with its `Meta`; the flags are the bits of `PacketFlags`. -/
structure RawPacket where
  buffer : List UInt8
  size : Nat
  addr : String
  port : UInt16
  flags : BitVec 8
  deriving DecidableEq

/-- `solana_perf::packet::PacketBatch`. -/
abbrev PacketBatch : Type := List RawPacket

/-- The position of `PacketFlags::FORWARDED`. -/
def forwardedBit : Nat := 1

/-- `mark_forwarded`. -/
def markForwarded (packet : RawPacket) : RawPacket :=
  { packet with flags := packet.flags ||| BitVec.twoPow 8 forwardedBit }

/-- The second packet is the first one with the `FORWARDED` flag set. -/
structure Marked (packet sent : RawPacket) : Prop where
  forwarded : sent.flags.getLsbD forwardedBit = true
  flags : ∀ i, i ≠ forwardedBit → sent.flags.getLsbD i = packet.flags.getLsbD i
  rest : { sent with flags := packet.flags } = packet

theorem marked_markForwarded (packet : RawPacket) : Marked packet (markForwarded packet) where
  forwarded := by simp [markForwarded, forwardedBit]
  flags := by
    intro i hi
    simp [markForwarded, BitVec.getLsbD_twoPow, Ne.symm hi]
  rest := rfl

/-! ## The thread -/

/-- `crossbeam_channel::RecvTimeoutError`. -/
inductive RecvTimeoutError where
  | timeout
  | disconnected

/-- `FetchStageError`. -/
inductive FetchStageError where
  | send (packetBatch : PacketBatch)
  | recvTimeout (error : RecvTimeoutError)
  | recv

/-- Where the thread stands. -/
inductive FetchPhase where
  /-- about to look at the exit flag and to call `handle_forwarded_packets` -/
  | idle
  /-- in the read-ahead loop -/
  | reading (numPackets : Nat) (packetBatches : List PacketBatch)
  /-- in the send loop, with what is left to send -/
  | sending (packetBatches : List PacketBatch)
  | returned
  | panicked (error : FetchStageError)

/-- The record of one call: how many batches had been taken from the queue before it, what it
took, how many batches had come in when it found the queue empty, and what it sent. -/
structure FetchCall where
  start : Nat
  taken : List PacketBatch
  emptyAt : Option Nat
  sent : List PacketBatch

/-- A call that has done nothing. -/
def FetchCall.new : FetchCall := ⟨0, [], none, []⟩

/-- The thread with its two channels. -/
structure FetchStage where
  /-- the queue behind `tpu_forwards_receiver` -/
  tpuForwards : List PacketBatch
  /-- some server still holds a sender of it -/
  sendersAlive : Bool
  phase : FetchPhase
  /-- everything sent on `tpu_sender` -/
  tpu : List PacketBatch
  /-- everything that came into the queue -/
  arrived : List PacketBatch
  /-- the call under way -/
  current : FetchCall
  /-- the calls that returned `Ok` -/
  finished : List FetchCall

namespace FetchStage

/-- The thread as it starts. -/
def init : FetchStage where
  tpuForwards := []
  sendersAlive := true
  phase := .idle
  tpu := []
  arrived := []
  current := .new
  finished := []

/-- What the loop of `new` does with the result of a call. -/
def afterCall (s : FetchStage) : Except FetchStageError Unit → FetchStage
  | .ok () => { s with phase := .idle, current := .new, finished := s.finished ++ [s.current] }
  | .error (.recvTimeout .timeout) => { s with phase := .idle, current := .new }
  | .error error => { s with phase := .panicked error }

/-- `recv` has got the first batch. -/
def recvBatch (s : FetchStage) (packetBatch : PacketBatch) (rest : List PacketBatch) : FetchStage :=
  { s with
    tpuForwards := rest
    phase := .reading packetBatch.length [packetBatch.map markForwarded]
    current :=
      { FetchCall.new with
        start := s.arrived.length - s.tpuForwards.length
        taken := [packetBatch] } }

/-- `try_recv` has got one more batch. -/
def readAhead (s : FetchStage) (numPackets : Nat) (packetBatches : List PacketBatch)
    (packetBatch : PacketBatch) (rest : List PacketBatch) : FetchStage :=
  let numPackets := numPackets + packetBatch.length
  let packetBatches := packetBatches ++ [packetBatch.map markForwarded]
  { s with
    tpuForwards := rest
    -- read at most 1K transactions in a loop
    phase := if 1024 < numPackets then .sending packetBatches else .reading numPackets packetBatches
    current := { s.current with taken := s.current.taken ++ [packetBatch] } }

/-- `try_recv` has found the queue empty. -/
def foundEmpty (s : FetchStage) (packetBatches : List PacketBatch) : FetchStage :=
  { s with
    phase := .sending packetBatches
    current := { s.current with emptyAt := some s.arrived.length } }

/-- A batch went into the TPU channel. -/
def sendBatch (s : FetchStage) (packetBatch : PacketBatch) (rest : List PacketBatch) : FetchStage :=
  { s with
    phase := .sending rest
    tpu := s.tpu ++ [packetBatch]
    current := { s.current with sent := s.current.sent ++ [packetBatch] } }

end FetchStage

/-- The steps of the thread and of the servers. -/
inductive FetchLabel where
  | arrive (packetBatch : PacketBatch)
  | disconnect
  | recv
  | tryRecv
  | send (sendOk : Bool)
  | exit

/-- One step. -/
def fetchStep (s : FetchStage) : FetchLabel → Option FetchStage
  | .arrive packetBatch =>
      if s.sendersAlive then
        some
          { s with
            tpuForwards := s.tpuForwards ++ [packetBatch]
            arrived := s.arrived ++ [packetBatch] }
      else none
  | .disconnect => some { s with sendersAlive := false }
  | .recv =>
      match s.phase, s.tpuForwards with
      | .idle, packetBatch :: rest => some (s.recvBatch packetBatch rest)
      -- `recv` waits while there is a sender
      | .idle, [] => if s.sendersAlive then none else some (s.afterCall (.error .recv))
      | _, _ => none
  | .tryRecv =>
      match s.phase, s.tpuForwards with
      | .reading numPackets packetBatches, packetBatch :: rest =>
          some (s.readAhead numPackets packetBatches packetBatch rest)
      | .reading _ packetBatches, [] => some (s.foundEmpty packetBatches)
      | _, _ => none
  | .send sendOk =>
      match s.phase with
      | .sending (packetBatch :: rest) =>
          if sendOk then
            let s := s.sendBatch packetBatch rest
            some (if rest = [] then s.afterCall (.ok ()) else s)
          else some (s.afterCall (.error (.send packetBatch)))
      | _ => none
  | .exit =>
      match s.phase with
      | .idle => some { s with phase := .returned }
      | _ => none

/-! ## What a call does -/

/-- The packets of some batches. -/
def numPackets (packetBatches : List PacketBatch) : Nat := packetBatches.flatten.length

/-- The first `n` batches, from the second on, stay within the limit. -/
def WithinLimit (packetBatches : List PacketBatch) (n : Nat) : Prop :=
  ∀ k, 2 ≤ k → k ≤ n → numPackets (packetBatches.take k) ≤ 1024

/-- The call stopped reading where it found the queue empty, or right after the first batch
beyond the first with which it had more than 1024 packets. -/
def FetchCall.StoppedRight (call : FetchCall) : Prop :=
  call.emptyAt = some (call.start + call.taken.length) ∧
      WithinLimit call.taken call.taken.length ∨
    call.emptyAt = none ∧ 2 ≤ call.taken.length ∧ 1024 < numPackets call.taken ∧
      WithinLimit call.taken (call.taken.length - 1)

/-- What a call did with the batches that came into the queue. -/
structure FetchCall.Exact (arrived : List PacketBatch) (call : FetchCall) : Prop where
  bounded : call.start ≤ arrived.length
  ne_nil : call.taken ≠ []
  segment : call.taken <+: arrived.drop call.start
  marked : List.Forall₂ (List.Forall₂ Marked) call.taken call.sent
  stopped : call.StoppedRight

theorem FetchCall.Exact.append {arrived : List PacketBatch} {call : FetchCall}
    (h : call.Exact arrived) (more : List PacketBatch) : call.Exact (arrived ++ more) where
  bounded := by
    rw [List.length_append]
    exact Nat.le_trans h.bounded (Nat.le_add_right _ _)
  ne_nil := h.ne_nil
  segment := prefix_drop_append h.segment h.bounded more
  marked := h.marked
  stopped := h.stopped

theorem forall₂_markForwarded (packetBatches : List PacketBatch) :
    List.Forall₂ (List.Forall₂ Marked) packetBatches
      (packetBatches.map (List.map markForwarded)) := by
  refine List.forall₂_map_right_iff.mpr (List.forall₂_same.mpr ?_)
  intro packetBatch _
  refine List.forall₂_map_right_iff.mpr (List.forall₂_same.mpr ?_)
  intro packet _
  exact marked_markForwarded packet

theorem numPackets_singleton (packetBatch : PacketBatch) :
    numPackets [packetBatch] = packetBatch.length := by
  simp [numPackets]

theorem numPackets_concat (packetBatches : List PacketBatch) (packetBatch : PacketBatch) :
    numPackets (packetBatches ++ [packetBatch]) = numPackets packetBatches + packetBatch.length := by
  simp [numPackets]

/-- One more batch keeps the limit if the sum does. -/
theorem WithinLimit.concat {packetBatches : List PacketBatch}
    (h : WithinLimit packetBatches packetBatches.length) (packetBatch : PacketBatch) :
    WithinLimit (packetBatches ++ [packetBatch]) packetBatches.length ∧
      (numPackets (packetBatches ++ [packetBatch]) ≤ 1024 →
        WithinLimit (packetBatches ++ [packetBatch]) (packetBatches ++ [packetBatch]).length) := by
  have hold : WithinLimit (packetBatches ++ [packetBatch]) packetBatches.length := by
    intro k hk hle
    rw [List.take_append_of_le_length hle]
    exact h k hk hle
  refine ⟨hold, ?_⟩
  intro hsum k hk hle
  rcases Nat.lt_or_ge packetBatches.length k with hlast | hbefore
  · rw [List.take_of_length_le (by simp; omega)]
    exact hsum
  · exact hold k hk hbefore

/-! ## The invariant -/

/-- What the phases say about the call under way. -/
def FetchPhase.Describes (call : FetchCall) : FetchPhase → Prop
  | .idle | .returned => call = .new
  | .reading num packetBatches =>
      call.taken ≠ [] ∧ num = numPackets call.taken ∧
        packetBatches = call.taken.map (List.map markForwarded) ∧ call.sent = [] ∧
        call.emptyAt = none ∧ WithinLimit call.taken call.taken.length
  | .sending packetBatches =>
      call.taken ≠ [] ∧ packetBatches ≠ [] ∧
        call.sent ++ packetBatches = call.taken.map (List.map markForwarded) ∧ call.StoppedRight
  | .panicked _ => True

/-- The call under way has taken what the finished ones left. -/
def FetchPhase.Starts (start : Nat) (call : FetchCall) : FetchPhase → Prop
  | .reading _ _ | .sending _ => call.start = start
  | _ => True

/-- What holds in every reachable state. -/
structure FetchInv (s : FetchStage) : Prop where
  account : s.arrived = s.finished.flatMap FetchCall.taken ++ (s.current.taken ++ s.tpuForwards)
  sent : s.tpu = s.finished.flatMap FetchCall.sent ++ s.current.sent
  exact : ∀ call ∈ s.finished, call.Exact s.arrived
  contiguous :
    Grounded (fun before call => call.start = (before.flatMap FetchCall.taken).length) s.finished
  describes : s.phase.Describes s.current
  starts : s.phase.Starts (s.finished.flatMap FetchCall.taken).length s.current

theorem fetchInv_init : FetchInv FetchStage.init where
  account := rfl
  sent := rfl
  exact := fun call h => by cases h
  contiguous := .nil
  describes := rfl
  starts := trivial

section Steps

variable {s s' : FetchStage} {packetBatch : PacketBatch} {rest packetBatches : List PacketBatch}

/-- What is known of the call under way in a given phase. -/
theorem FetchInv.inPhase (hinv : FetchInv s) {phase : FetchPhase} (hphase : s.phase = phase) :
    phase.Describes s.current ∧
      phase.Starts (s.finished.flatMap FetchCall.taken).length s.current := by
  subst hphase
  exact ⟨hinv.describes, hinv.starts⟩

/-- The queue is what has come in and was not taken. -/
theorem fetchInv_arrive (hinv : FetchInv s) (packetBatch : PacketBatch) :
    FetchInv
      { s with
        tpuForwards := s.tpuForwards ++ [packetBatch]
        arrived := s.arrived ++ [packetBatch] } where
  account := by
    rw [hinv.account]
    simp only [List.append_assoc]
  sent := hinv.sent
  exact := fun call hmem => (hinv.exact call hmem).append [packetBatch]
  contiguous := hinv.contiguous
  describes := hinv.describes
  starts := hinv.starts

theorem fetchInv_recvBatch (hinv : FetchInv s) (hphase : s.phase = .idle)
    (hqueue : s.tpuForwards = packetBatch :: rest) : FetchInv (s.recvBatch packetBatch rest) := by
  have hnew : s.current = .new := (hinv.inPhase hphase).1
  have haccount := hinv.account
  rw [hnew, hqueue] at haccount
  have hstart : s.arrived.length - s.tpuForwards.length =
      (s.finished.flatMap FetchCall.taken).length := by
    rw [haccount, hqueue]
    simp [FetchCall.new]
  have hlimit : WithinLimit [packetBatch] [packetBatch].length := by
    intro k hk hle
    rw [List.length_singleton] at hle
    omega
  have hsent := hinv.sent
  rw [hnew] at hsent
  exact
    { account := haccount
      sent := hsent
      exact := hinv.exact
      contiguous := hinv.contiguous
      describes := ⟨List.cons_ne_nil _ _, (numPackets_singleton _).symm, rfl, rfl, rfl, hlimit⟩
      starts := hstart }

/-- One pass of the read-ahead loop: it goes on while the sum is within the limit. -/
theorem fetchInv_readAhead (hinv : FetchInv s) {num : Nat}
    (hphase : s.phase = .reading num packetBatches)
    (hqueue : s.tpuForwards = packetBatch :: rest) :
    FetchInv (s.readAhead num packetBatches packetBatch rest) := by
  obtain ⟨⟨hne, rfl, rfl, hsent, hempty, hlimit⟩, hstarts⟩ := hinv.inPhase hphase
  obtain ⟨hbefore, hall⟩ := hlimit.concat packetBatch
  have hlength : 1 ≤ s.current.taken.length := List.length_pos_iff.mpr hne
  have haccount : s.arrived = s.finished.flatMap FetchCall.taken ++
      ((s.current.taken ++ [packetBatch]) ++ rest) := by
    rw [hinv.account, hqueue, List.append_assoc, List.singleton_append]
  refine ⟨haccount, hinv.sent, hinv.exact, hinv.contiguous, ?_, ?_⟩
  · simp only [FetchStage.readAhead, ← numPackets_concat]
    split
    · rename_i hover
      refine ⟨by simp, by simp, by simp [hsent], .inr ⟨hempty, ?_, hover, ?_⟩⟩
      · simpa using hlength
      · simpa using hbefore
    · rename_i hunder
      exact ⟨by simp, rfl, by simp, hsent, hempty, hall (Nat.le_of_not_lt hunder)⟩
  · simp only [FetchStage.readAhead]
    split <;> exact hstarts

theorem fetchInv_foundEmpty (hinv : FetchInv s) {num : Nat}
    (hphase : s.phase = .reading num packetBatches) (hqueue : s.tpuForwards = []) :
    FetchInv (s.foundEmpty packetBatches) := by
  obtain ⟨⟨hne, -, rfl, hsent, -, hlimit⟩, hstarts⟩ := hinv.inPhase hphase
  have hlength : s.arrived.length = s.current.start + s.current.taken.length := by
    have hstart : s.current.start = (s.finished.flatMap FetchCall.taken).length := hstarts
    rw [hinv.account, hqueue, hstart]
    simp
  have hall : s.current.sent ++ s.current.taken.map (List.map markForwarded) =
      s.current.taken.map (List.map markForwarded) := by
    rw [hsent, List.nil_append]
  refine ⟨hinv.account, hinv.sent, hinv.exact, hinv.contiguous, ?_, hstarts⟩
  exact ⟨hne, by simpa using hne, hall, .inl ⟨congrArg some hlength, hlimit⟩⟩

/-- The last batch of the call has been sent. -/
theorem exact_of_sent (hinv : FetchInv s) (hphase : s.phase = .sending [packetBatch]) :
    FetchCall.Exact s.arrived (s.sendBatch packetBatch []).current := by
  obtain ⟨⟨hne, -, hsent, hstopped⟩, hstarts⟩ := hinv.inPhase hphase
  have hstarts : s.current.start = (s.finished.flatMap FetchCall.taken).length := hstarts
  refine ⟨?_, hne, ?_, ?_, hstopped⟩
  · change s.current.start ≤ s.arrived.length
    rw [hstarts, hinv.account, List.length_append]
    exact Nat.le_add_right _ _
  · change s.current.taken <+: s.arrived.drop s.current.start
    rw [hstarts, hinv.account, List.drop_left]
    exact List.prefix_append _ _
  · change List.Forall₂ _ s.current.taken (s.current.sent ++ [packetBatch])
    rw [hsent]
    exact forall₂_markForwarded _

/-- One pass of the send loop. -/
theorem fetchInv_sendBatch (hinv : FetchInv s)
    (hphase : s.phase = .sending (packetBatch :: rest)) :
    FetchInv
      (if rest = [] then (s.sendBatch packetBatch rest).afterCall (.ok ())
      else s.sendBatch packetBatch rest) := by
  have hsent : (s.sendBatch packetBatch rest).tpu =
      s.finished.flatMap FetchCall.sent ++ (s.current.sent ++ [packetBatch]) := by
    rw [← List.append_assoc, ← hinv.sent]
    rfl
  obtain ⟨⟨hne, -, hall, hstopped⟩, hstarts⟩ := hinv.inPhase hphase
  split
  · rename_i hrest
    subst hrest
    refine ⟨?_, ?_, ?_, hinv.contiguous.concat hstarts, rfl, trivial⟩
    · simp only [FetchStage.afterCall, FetchStage.sendBatch, hinv.account]
      simp [FetchCall.new]
    · simp only [FetchStage.afterCall, hsent]
      simp [FetchStage.sendBatch, FetchCall.new]
    · intro call hmem
      rcases List.mem_append.mp hmem with hold | hnew
      · exact hinv.exact call hold
      · rw [List.mem_singleton.mp hnew]
        exact exact_of_sent hinv hphase
  · rename_i hrest
    rw [List.append_cons] at hall
    exact ⟨hinv.account, hsent, hinv.exact, hinv.contiguous, ⟨hne, hrest, hall, hstopped⟩, hstarts⟩

/-- A thread that ends leaves the record as it is. -/
theorem fetchInv_ends (hinv : FetchInv s) {phase : FetchPhase}
    (hdescribes : phase.Describes s.current)
    (hstarts : phase.Starts (s.finished.flatMap FetchCall.taken).length s.current) :
    FetchInv { s with phase } :=
  { hinv with describes := hdescribes, starts := hstarts }

/-- Every step keeps the invariant. -/
theorem fetchInv_fetchStep (hinv : FetchInv s) {label : FetchLabel}
    (hstep : fetchStep s label = some s') : FetchInv s' := by
  cases label with
  | arrive packetBatch =>
    simp only [fetchStep, Option.ite_none_right_eq_some, Option.some.injEq] at hstep
    obtain ⟨-, rfl⟩ := hstep
    exact fetchInv_arrive hinv packetBatch
  | disconnect =>
    cases hstep
    exact { hinv with }
  | recv =>
    simp only [fetchStep] at hstep
    split at hstep
    · rename_i hphase hqueue
      cases hstep
      exact fetchInv_recvBatch hinv hphase hqueue
    · split at hstep <;> cases hstep
      exact fetchInv_ends hinv trivial trivial
    · cases hstep
  | tryRecv =>
    simp only [fetchStep] at hstep
    split at hstep
    · rename_i hphase hqueue
      cases hstep
      exact fetchInv_readAhead hinv hphase hqueue
    · rename_i hphase hqueue
      cases hstep
      exact fetchInv_foundEmpty hinv hphase hqueue
    · cases hstep
  | send sendOk =>
    simp only [fetchStep] at hstep
    split at hstep
    · rename_i hphase
      split at hstep
      · cases hstep
        exact fetchInv_sendBatch hinv hphase
      · cases hstep
        exact fetchInv_ends hinv trivial trivial
    · cases hstep
  | exit =>
    simp only [fetchStep] at hstep
    split at hstep
    · rename_i hphase
      cases hstep
      exact fetchInv_ends hinv (hinv.inPhase hphase).1 trivial
    · cases hstep

end Steps

/-- Marked batch by batch, marked together. -/
theorem forall₂_flatMap {calls : List FetchCall}
    (h : ∀ call ∈ calls, List.Forall₂ (List.Forall₂ Marked) call.taken call.sent) :
    List.Forall₂ (List.Forall₂ Marked) (calls.flatMap FetchCall.taken)
      (calls.flatMap FetchCall.sent) := by
  induction calls with
  | nil => exact .nil
  | cons call calls ih =>
    rw [List.flatMap_cons, List.flatMap_cons]
    refine List.rel_append (h call List.mem_cons_self) (ih ?_)
    intro other hother
    exact h other (List.mem_cons_of_mem call hother)

/-- In every run, whatever comes into the queue and whenever: each call that returned `Ok`
sent, marked and in order, a nonempty run of batches from where the calls before it had
stopped, and stopped where the queue was empty or right after the first batch beyond the
first with which it had more than 1024 packets.  Between two calls everything that was sent
is everything that was taken, marked, and the queue holds the rest. -/
theorem fetch_stage_conserves (ls : List FetchLabel) (s : FetchStage)
    (hrun : runSteps fetchStep FetchStage.init ls = some s) :
    (∀ call ∈ s.finished, call.Exact s.arrived) ∧
      (∀ i call, s.finished[i]? = some call →
        call.start = ((s.finished.take i).flatMap FetchCall.taken).length) ∧
      (s.phase = .idle →
        s.arrived = s.finished.flatMap FetchCall.taken ++ s.tpuForwards ∧
          s.tpu = s.finished.flatMap FetchCall.sent ∧
          List.Forall₂ (List.Forall₂ Marked) (s.finished.flatMap FetchCall.taken) s.tpu) := by
  have hinv : FetchInv s :=
    runSteps_invariant FetchInv (fun _ _ _ hinv hstep => fetchInv_fetchStep hinv hstep) ls
      fetchInv_init hrun
  refine ⟨hinv.exact, fun i call h => hinv.contiguous.justified_at h, ?_⟩
  intro hidle
  have hnew : s.current = .new := (hinv.inPhase hidle).1
  have hsent : s.tpu = s.finished.flatMap FetchCall.sent := by
    rw [hinv.sent, hnew]
    exact List.append_nil _
  refine ⟨?_, hsent, ?_⟩
  · rw [hinv.account, hnew]
    rfl
  · rw [hsent]
    exact forall₂_flatMap fun call hcall => (hinv.exact call hcall).marked

/-- A packet with the discard flag. -/
def discardedPacket : RawPacket := ⟨[7], 1, "10.0.0.1", 8009, 1#8⟩

/-- A batch that is within the limit, and with any other packet beyond it. -/
def fullBatch : PacketBatch := List.replicate 1024 discardedPacket

/-- A call has a full batch when the second comes, and a third comes while it sends. -/
def readAheadRun : List FetchLabel :=
  [.arrive fullBatch, .recv, .arrive [discardedPacket], .tryRecv,
    .arrive [discardedPacket, discardedPacket], .send true, .send true]

/-- The call stops at the limit: it takes the two batches and leaves the third. -/
theorem fetch_stage_conserves_readAhead :
    ∃ s call, runSteps fetchStep FetchStage.init readAheadRun = some s ∧
      s.finished = [call] ∧ call.taken = [fullBatch, [discardedPacket]] ∧ call.emptyAt = none ∧
      call.Exact s.arrived ∧ s.tpuForwards = [[discardedPacket, discardedPacket]] ∧
      List.Forall₂ (List.Forall₂ Marked) [fullBatch, [discardedPacket]] s.tpu := by
  have hbeyond : 1024 < fullBatch.length + 1 := by
    rw [fullBatch, List.length_replicate]
    decide
  have hrun : ∃ s call, runSteps fetchStep FetchStage.init readAheadRun = some s ∧
      s.phase = .idle ∧ s.finished = [call] ∧ call.taken = [fullBatch, [discardedPacket]] ∧
      call.emptyAt = none ∧ s.tpuForwards = [[discardedPacket, discardedPacket]] := by
    simp [readAheadRun, runSteps, fetchStep, FetchStage.init, FetchStage.recvBatch,
      FetchStage.readAhead, FetchStage.sendBatch, FetchStage.afterCall, FetchCall.new, hbeyond]
  obtain ⟨s, call, hs, hidle, hfinished, htaken, hempty, hqueue⟩ := hrun
  obtain ⟨hexact, -, hconserved⟩ := fetch_stage_conserves readAheadRun s hs
  obtain ⟨-, -, hmarked⟩ := hconserved hidle
  have hall : s.finished.flatMap FetchCall.taken = [fullBatch, [discardedPacket]] := by
    simp [hfinished, htaken]
  rw [hall] at hmarked
  exact ⟨s, call, hs, hfinished, htaken, hempty, hexact call (by simp [hfinished]), hqueue, hmarked⟩

end FlowraRelayer.Core
