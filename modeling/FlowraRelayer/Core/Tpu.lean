/-
  Core/Tpu.lean --- the TPU as `core/src/tpu.rs` wires it.

  `Tpu::new` makes two bounded channels.  The QUIC servers of the TPU ports send into the one
  the signature verification reads, the QUIC servers of the forward ports into the other; the
  fetch stage takes the forwarded batches out of the second, marks them and sends them into
  the first.  Each server has a sender of its own, the fetch stage has one of the first
  channel, and `new` keeps none.

      setExit                      the exit flag is set
      serve, serveForward          a QUIC server gets a batch into its channel
      quicServerEnds,
      forwardsServerEnds           a QUIC server has seen the flag
      look, recv, tryRecv, send    the fetch stage; it looks at the flag between two calls
      verify                       the verification takes a batch
      verifierEnds                 all senders are gone and the channel is empty
      verifierFails                nobody reads the verified packets any more

  `tpu_streams_exact` says what the verification gets.  `recv` has no timeout, so the exit flag
  alone does not end the fetch stage: `tpu_winds_down` shows that it ends with the forward
  servers at the latest, and the verification after it.

  `accepted` and `served` record what was sent; no step reads them.

  Left out: what the QUIC servers and the verification do with the packets, and the limits on
  connections and streams that are passed to them.
-/
import FlowraRelayer.Core.FetchStage
import FlowraRelayer.Foundation.Mailbox
import FlowraRelayer.Foundation.Rank

set_option autoImplicit false

namespace FlowraRelayer.Core

open FlowraRelayer.Foundation

/-! ## The fetch stage, by what its steps do -/

/-- The thread has ended. -/
def FetchPhase.ended : FetchPhase → Bool
  | .returned | .panicked _ => true
  | _ => false

def FetchPhase.isPanicked : FetchPhase → Bool
  | .panicked _ => true
  | _ => false

/-- The batches a call has taken and not sent. -/
def FetchPhase.held : FetchPhase → List PacketBatch
  | .reading _ packetBatches => packetBatches
  | .sending packetBatches => packetBatches
  | _ => []

/-- The state after a batch was sent; the last one ends the call. -/
def FetchStage.sent (s : FetchStage) (packetBatch : PacketBatch) (rest : List PacketBatch) :
    FetchStage :=
  if rest = [] then (s.sendBatch packetBatch rest).afterCall (.ok ()) else s.sendBatch packetBatch rest

inductive FetchMove (s : FetchStage) : FetchLabel → FetchStage → Prop where
  | arrives {packetBatch : PacketBatch} :
      FetchMove s (.arrive packetBatch)
        { s with
          tpuForwards := s.tpuForwards ++ [packetBatch]
          arrived := s.arrived ++ [packetBatch] }
  | disconnects : FetchMove s .disconnect { s with sendersAlive := false }
  | receives {packetBatch : PacketBatch} {rest : List PacketBatch} (hphase : s.phase = .idle)
      (hqueue : s.tpuForwards = packetBatch :: rest) :
      FetchMove s .recv (s.recvBatch packetBatch rest)
  | disconnected (hphase : s.phase = .idle) (hgone : s.sendersAlive = false) :
      FetchMove s .recv { s with phase := .panicked .recv }
  | reads {num : Nat} {packetBatch : PacketBatch} {rest packetBatches : List PacketBatch}
      (hphase : s.phase = .reading num packetBatches)
      (hqueue : s.tpuForwards = packetBatch :: rest) :
      FetchMove s .tryRecv (s.readAhead num packetBatches packetBatch rest)
  | empties {num : Nat} {packetBatches : List PacketBatch}
      (hphase : s.phase = .reading num packetBatches) (hqueue : s.tpuForwards = []) :
      FetchMove s .tryRecv (s.foundEmpty packetBatches)
  | sends {packetBatch : PacketBatch} {rest : List PacketBatch}
      (hphase : s.phase = .sending (packetBatch :: rest)) :
      FetchMove s (.send true) (s.sent packetBatch rest)
  | refused {packetBatch : PacketBatch} {rest : List PacketBatch}
      (hphase : s.phase = .sending (packetBatch :: rest)) :
      FetchMove s (.send false) { s with phase := .panicked (.send packetBatch) }
  | exits (hphase : s.phase = .idle) : FetchMove s .exit { s with phase := .returned }

theorem move_of_fetchStep {s s' : FetchStage} {label : FetchLabel}
    (h : fetchStep s label = some s') : FetchMove s label s' := by
  cases label with
  | arrive packetBatch =>
    simp only [fetchStep, Option.ite_none_right_eq_some, Option.some.injEq] at h
    obtain ⟨-, rfl⟩ := h
    exact .arrives
  | disconnect =>
    cases h
    exact .disconnects
  | recv =>
    simp only [fetchStep] at h
    split at h
    · next hphase hqueue =>
      cases h
      exact .receives hphase hqueue
    · next hphase hqueue =>
      split at h
      · cases h
      · next hgone =>
        cases h
        exact .disconnected hphase (Bool.not_eq_true _ ▸ hgone)
    · cases h
  | tryRecv =>
    simp only [fetchStep] at h
    split at h
    · next hphase hqueue =>
      cases h
      exact .reads hphase hqueue
    · next hphase hqueue =>
      cases h
      exact .empties hphase hqueue
    · cases h
  | send sendOk =>
    simp only [fetchStep] at h
    split at h
    · next hphase =>
      cases sendOk with
      | true =>
        cases h
        exact .sends hphase
      | false =>
        cases h
        exact .refused hphase
    · cases h
  | exit =>
    simp only [fetchStep] at h
    split at h
    · next hphase =>
      cases h
      exact .exits hphase
    · cases h

/-- A marked packet is determined. -/
theorem Marked.eq_markForwarded {packet sent : RawPacket} (h : Marked packet sent) :
    sent = markForwarded packet := by
  have hflags : sent.flags = (markForwarded packet).flags := by
    refine BitVec.eq_of_getLsbD_eq fun i _ => ?_
    by_cases hi : i = forwardedBit
    · rw [hi, h.forwarded, (marked_markForwarded packet).forwarded]
    · rw [h.flags i hi, (marked_markForwarded packet).flags i hi]
  have hrest := h.rest
  obtain ⟨buffer, size, addr, port, flags⟩ := sent
  dsimp only at hflags hrest
  rw [hflags, ← hrest]
  rfl

theorem eq_map_of_marked {taken sent : List PacketBatch}
    (h : List.Forall₂ (List.Forall₂ Marked) taken sent) :
    sent = taken.map (List.map markForwarded) := by
  have hbatch : ∀ {packets others : PacketBatch}, List.Forall₂ Marked packets others →
      others = packets.map markForwarded := by
    intro packets others h
    induction h with
    | nil => rfl
    | cons hpacket _ ih => rw [List.map_cons, hpacket.eq_markForwarded, ih]
  induction h with
  | nil => rfl
  | cons hpackets _ ih => rw [List.map_cons, hbatch hpackets, ih]

/-- Until it panics the fetch stage loses nothing: what came in has been sent, is held, or
waits. -/
theorem FetchInv.conserved {s : FetchStage} (h : FetchInv s) (hphase : s.phase.isPanicked = false) :
    s.arrived.map (List.map markForwarded) =
      s.tpu ++ (s.phase.held ++ s.tpuForwards.map (List.map markForwarded)) := by
  have hfinished : s.finished.flatMap FetchCall.sent =
      (s.finished.flatMap FetchCall.taken).map (List.map markForwarded) :=
    eq_map_of_marked (forall₂_flatMap fun call hcall => (h.exact call hcall).marked)
  have hcurrent : s.current.taken.map (List.map markForwarded) =
      s.current.sent ++ s.phase.held := by
    have hdescribes := h.describes
    cases hcase : s.phase with
    | idle | returned =>
      rw [hcase] at hdescribes
      rw [show s.current = .new from hdescribes]
      rfl
    | reading num packetBatches =>
      rw [hcase] at hdescribes
      obtain ⟨-, -, hbatches, hsent, -, -⟩ := hdescribes
      rw [hsent, FetchPhase.held, hbatches]
      rfl
    | sending packetBatches =>
      rw [hcase] at hdescribes
      exact hdescribes.2.2.1.symm
    | panicked error =>
      rw [hcase] at hphase
      cases hphase
  rw [h.account, h.sent, List.map_append, List.map_append, hfinished, hcurrent]
  simp only [List.append_assoc]

/-- What is known of the fetch stage and the channel of the forward ports. -/
structure ForwardsInv (capacity : Nat) (s : FetchStage) : Prop where
  inv : FetchInv s
  sent : s.tpu <+: s.arrived.map (List.map markForwarded)
  bounded : s.tpuForwards.length ≤ capacity

theorem fetchInv_move {s s' : FetchStage} {label : FetchLabel} (h : FetchInv s)
    (hmove : FetchMove s label s') : FetchInv s' := by
  cases hmove with
  | arrives => exact fetchInv_arrive h _
  | disconnects => exact { h with }
  | receives hphase hqueue => exact fetchInv_recvBatch h hphase hqueue
  | disconnected hphase => exact fetchInv_ends h trivial trivial
  | reads hphase hqueue => exact fetchInv_readAhead h hphase hqueue
  | empties hphase hqueue => exact fetchInv_foundEmpty h hphase hqueue
  | sends hphase => exact fetchInv_sendBatch h hphase
  | refused hphase => exact fetchInv_ends h trivial trivial
  | exits hphase => exact fetchInv_ends h (h.inPhase hphase).1 trivial

/-- What the stage sends is a front part of what came in. -/
theorem FetchInv.prefix_arrived {s : FetchStage} (h : FetchInv s)
    (hphase : s.phase.isPanicked = false) : s.tpu <+: s.arrived.map (List.map markForwarded) :=
  ⟨_, (h.conserved hphase).symm⟩

theorem isPanicked_readAhead (s : FetchStage) (num : Nat) (packetBatches : List PacketBatch)
    (packetBatch : PacketBatch) (rest : List PacketBatch) :
    (s.readAhead num packetBatches packetBatch rest).phase.isPanicked = false := by
  simp only [FetchStage.readAhead]
  split <;> rfl

theorem isPanicked_sent (s : FetchStage) (packetBatch : PacketBatch) (rest : List PacketBatch) :
    (s.sent packetBatch rest).phase.isPanicked = false := by
  unfold FetchStage.sent
  split <;> rfl

theorem forwardsInv_move {capacity : Nat} {s s' : FetchStage} {label : FetchLabel}
    (h : ForwardsInv capacity s) (hmove : FetchMove s label s')
    (hroom : ∀ packetBatch, label = .arrive packetBatch → s.tpuForwards.length < capacity) :
    ForwardsInv capacity s' := by
  have hinv := fetchInv_move h.inv hmove
  cases hmove with
  | arrives =>
    refine ⟨hinv, ?_, ?_⟩
    · rw [List.map_append]
      exact h.sent.trans (List.prefix_append _ _)
    · rw [List.length_append]
      exact hroom _ rfl
  | disconnects => exact ⟨hinv, h.sent, h.bounded⟩
  | disconnected hphase => exact ⟨hinv, h.sent, h.bounded⟩
  | refused hphase => exact ⟨hinv, h.sent, h.bounded⟩
  | exits hphase => exact ⟨hinv, h.sent, h.bounded⟩
  | receives hphase hqueue =>
    refine ⟨hinv, hinv.prefix_arrived rfl, Nat.le_trans ?_ h.bounded⟩
    rw [hqueue]
    exact Nat.le_succ _
  | reads hphase hqueue =>
    refine ⟨hinv, hinv.prefix_arrived (isPanicked_readAhead ..), Nat.le_trans ?_ h.bounded⟩
    rw [hqueue]
    exact Nat.le_succ _
  | empties hphase hqueue => exact ⟨hinv, h.sent, h.bounded⟩
  | sends hphase =>
    refine ⟨hinv, hinv.prefix_arrived (isPanicked_sent ..), ?_⟩
    unfold FetchStage.sent
    split <;> exact h.bounded

theorem tpu_sent (fetch : FetchStage) (packetBatch : PacketBatch) (rest : List PacketBatch) :
    (fetch.sent packetBatch rest).tpu = fetch.tpu ++ [packetBatch] := by
  unfold FetchStage.sent
  split <;> rfl

/-- Only a `send` that succeeds sends. -/
theorem FetchMove.tpu_eq {s s' : FetchStage} {label : FetchLabel} (h : FetchMove s label s')
    (hsends : label ≠ .send true) : s'.tpu = s.tpu := by
  cases h with
  | sends => exact absurd rfl hsends
  | _ => rfl

/-- Only the last server takes the senders away. -/
theorem FetchMove.sendersAlive_eq {s s' : FetchStage} {label : FetchLabel}
    (h : FetchMove s label s') (hlabel : label ≠ .disconnect) : s'.sendersAlive = s.sendersAlive := by
  cases h with
  | disconnects => exact absurd rfl hlabel
  | sends hphase =>
    unfold FetchStage.sent
    split <;> rfl
  | _ => rfl

/-! ## State and steps -/

/-- `Tpu::TPU_QUEUE_CAPACITY`. -/
def tpuQueueCapacity : Nat := 10000

/-- Who has sent a batch into the TPU channel. -/
inductive TpuSource where
  | quic
  | fetchStage
  deriving DecidableEq

/-- The signature verification. -/
inductive Verifier where
  | running
  /-- it has ended because there was no sender left -/
  | drained
  /-- it has ended because nobody reads what it has verified -/
  | failed
  deriving DecidableEq

structure Tpu where
  fetch : FetchStage
  /-- the fetch stage has found the exit flag not set and is in `recv` -/
  waiting : Bool
  exit : Bool
  quicServers : Nat
  forwardsServers : Nat
  /-- the TPU channel and what the verification has taken out of it -/
  tpu : Mailbox (TpuSource × PacketBatch)
  verifier : Verifier
  accepted : List (TpuSource × PacketBatch)
  served : List PacketBatch

/-- `Tpu::new` with the number of sockets of each kind. -/
def Tpu.new (quicServers forwardsServers : Nat) : Tpu where
  fetch := { FetchStage.init with sendersAlive := decide (0 < forwardsServers) }
  waiting := false
  exit := false
  quicServers
  forwardsServers
  tpu := Mailbox.new tpuQueueCapacity
  verifier := .running
  accepted := []
  served := []

/-- A `send` into the TPU channel that finds room. -/
def Tpu.accept (s : Tpu) (source : TpuSource) (packetBatch : PacketBatch) : Tpu :=
  { s with
    tpu := s.tpu.send (source, packetBatch)
    accepted := s.accepted ++ [(source, packetBatch)] }

inductive TpuLabel where
  | setExit
  | serve (packetBatch : PacketBatch)
  | serveForward (packetBatch : PacketBatch)
  | quicServerEnds
  | forwardsServerEnds
  | look
  | recv
  | tryRecv
  | send
  | verify
  | verifierEnds
  | verifierFails

/-- One step. -/
def tpuStep (s : Tpu) : TpuLabel → Option Tpu
  | .setExit => some { s with exit := true }
  | .serve packetBatch =>
      if 0 < s.quicServers ∧ s.tpu.channel.answer = .ok then
        some { s.accept .quic packetBatch with served := s.served ++ [packetBatch] }
      else none
  | .serveForward packetBatch =>
      if 0 < s.forwardsServers ∧ s.fetch.phase.ended = false ∧
          s.fetch.tpuForwards.length < tpuQueueCapacity then
        (fetchStep s.fetch (.arrive packetBatch)).map fun fetch => { s with fetch }
      else none
  | .quicServerEnds =>
      if s.exit = true ∧ 0 < s.quicServers then some { s with quicServers := s.quicServers - 1 }
      else none
  | .forwardsServerEnds =>
      if s.exit = true ∧ 0 < s.forwardsServers then
        let forwardsServers := s.forwardsServers - 1
        -- the last server takes the last sender with it
        if forwardsServers = 0 then
          (fetchStep s.fetch .disconnect).map fun fetch => { s with fetch, forwardsServers }
        else some { s with forwardsServers }
      else none
  | .look =>
      if s.waiting = true then none
      else if s.exit = true then (fetchStep s.fetch .exit).map fun fetch => { s with fetch }
      else
        match s.fetch.phase with
        | .idle => some { s with waiting := true }
        | _ => none
  | .recv =>
      if s.waiting = true then
        (fetchStep s.fetch .recv).map fun fetch => { s with fetch, waiting := false }
      else none
  | .tryRecv => (fetchStep s.fetch .tryRecv).map fun fetch => { s with fetch }
  | .send =>
      match s.fetch.phase with
      | .sending (packetBatch :: _) =>
          match s.tpu.channel.answer with
          | .ok =>
              (fetchStep s.fetch (.send true)).map fun fetch =>
                { s.accept .fetchStage packetBatch with fetch }
          | .full => none
          | .closed => (fetchStep s.fetch (.send false)).map fun fetch => { s with fetch }
      | _ => none
  | .verify => if s.tpu.channel.queue ≠ [] then some { s with tpu := s.tpu.recv } else none
  | .verifierEnds =>
      if s.verifier = .running ∧ s.tpu.channel.queue = [] ∧ s.quicServers = 0 ∧
          s.fetch.phase.ended = true then
        some { s with verifier := .drained, tpu := s.tpu.hangUp }
      else none
  | .verifierFails =>
      if s.verifier = .running ∧ s.exit = true then
        some { s with verifier := .failed, tpu := s.tpu.hangUp }
      else none

/-- The steps, by what they do. -/
inductive TpuMove (s : Tpu) : TpuLabel → Tpu → Prop where
  | setExit : TpuMove s .setExit { s with exit := true }
  | serves {packetBatch : PacketBatch} (hserver : 0 < s.quicServers)
      (hroom : s.tpu.channel.answer = .ok) :
      TpuMove s (.serve packetBatch)
        { s.accept .quic packetBatch with served := s.served ++ [packetBatch] }
  | servesForward {packetBatch : PacketBatch} {fetch : FetchStage} (hserver : 0 < s.forwardsServers)
      (hroom : s.fetch.tpuForwards.length < tpuQueueCapacity)
      (hfetch : FetchMove s.fetch (.arrive packetBatch) fetch)
      (halive : s.fetch.phase.ended = false) :
      TpuMove s (.serveForward packetBatch) { s with fetch }
  | quicServerEnds (hserver : 0 < s.quicServers) :
      TpuMove s .quicServerEnds { s with quicServers := s.quicServers - 1 }
  | forwardsServerEnds (hserver : 0 < s.forwardsServers) (hothers : s.forwardsServers - 1 ≠ 0) :
      TpuMove s .forwardsServerEnds { s with forwardsServers := s.forwardsServers - 1 }
  | forwardsEnd (hserver : 0 < s.forwardsServers) (hlast : s.forwardsServers - 1 = 0) :
      TpuMove s .forwardsServerEnds
        { s with
          fetch := { s.fetch with sendersAlive := false }
          forwardsServers := s.forwardsServers - 1 }
  | returns (hphase : s.fetch.phase = .idle) (hexit : s.exit = true) (hwaiting : s.waiting = false) :
      TpuMove s .look { s with fetch := { s.fetch with phase := .returned } }
  | waits (hphase : s.fetch.phase = .idle) (hexit : s.exit = false) :
      TpuMove s .look { s with waiting := true }
  | receives {fetch : FetchStage} (hwaiting : s.waiting = true)
      (hfetch : FetchMove s.fetch .recv fetch) :
      TpuMove s .recv { s with fetch, waiting := false }
  | reads {fetch : FetchStage} (hfetch : FetchMove s.fetch .tryRecv fetch) :
      TpuMove s .tryRecv { s with fetch }
  | sends {packetBatch : PacketBatch} {rest : List PacketBatch}
      (hphase : s.fetch.phase = .sending (packetBatch :: rest))
      (hroom : s.tpu.channel.answer = .ok) :
      TpuMove s .send
        { s.accept .fetchStage packetBatch with fetch := s.fetch.sent packetBatch rest }
  | refused {packetBatch : PacketBatch} {rest : List PacketBatch}
      (hphase : s.fetch.phase = .sending (packetBatch :: rest))
      (hclosed : s.tpu.channel.answer = .closed) :
      TpuMove s .send { s with fetch := { s.fetch with phase := .panicked (.send packetBatch) } }
  | verifies (hqueue : s.tpu.channel.queue ≠ []) : TpuMove s .verify { s with tpu := s.tpu.recv }
  | drains (hrunning : s.verifier = .running) (hqueue : s.tpu.channel.queue = [])
      (hservers : s.quicServers = 0) (hended : s.fetch.phase.ended = true) :
      TpuMove s .verifierEnds { s with verifier := .drained, tpu := s.tpu.hangUp }
  | fails (hrunning : s.verifier = .running) :
      TpuMove s .verifierFails { s with verifier := .failed, tpu := s.tpu.hangUp }

theorem move_of_tpuStep {s s' : Tpu} {label : TpuLabel} (h : tpuStep s label = some s') :
    TpuMove s label s' := by
  cases label with
  | setExit =>
    cases h
    exact .setExit
  | serve packetBatch =>
    simp only [tpuStep, Option.ite_none_right_eq_some, Option.some.injEq] at h
    obtain ⟨⟨hserver, hroom⟩, rfl⟩ := h
    exact .serves hserver hroom
  | serveForward packetBatch =>
    simp only [tpuStep, Option.ite_none_right_eq_some, Option.map_eq_some_iff] at h
    obtain ⟨⟨hserver, halive, hroom⟩, fetch, hfetch, rfl⟩ := h
    exact .servesForward hserver hroom (move_of_fetchStep hfetch) halive
  | quicServerEnds =>
    simp only [tpuStep, Option.ite_none_right_eq_some, Option.some.injEq] at h
    obtain ⟨⟨-, hserver⟩, rfl⟩ := h
    exact .quicServerEnds hserver
  | forwardsServerEnds =>
    simp only [tpuStep, Option.ite_none_right_eq_some] at h
    obtain ⟨⟨-, hserver⟩, h⟩ := h
    split at h
    · next hlast =>
      cases h
      exact .forwardsEnd hserver hlast
    · next hothers =>
      cases h
      exact .forwardsServerEnds hserver hothers
  | look =>
    simp only [tpuStep, Option.ite_none_left_eq_some] at h
    obtain ⟨hwaiting, h⟩ := h
    split at h
    · next hexit =>
      obtain ⟨fetch, hfetch, rfl⟩ := Option.map_eq_some_iff.mp h
      cases move_of_fetchStep hfetch with
      | exits hphase => exact .returns hphase hexit (Bool.not_eq_true _ ▸ hwaiting)
    · next hexit =>
      split at h
      · next hphase =>
        cases h
        exact .waits hphase (Bool.not_eq_true _ ▸ hexit)
      · cases h
  | recv =>
    simp only [tpuStep, Option.ite_none_right_eq_some, Option.map_eq_some_iff] at h
    obtain ⟨hwaiting, fetch, hfetch, rfl⟩ := h
    exact .receives hwaiting (move_of_fetchStep hfetch)
  | tryRecv =>
    obtain ⟨fetch, hfetch, rfl⟩ := Option.map_eq_some_iff.mp h
    exact .reads (move_of_fetchStep hfetch)
  | send =>
    simp only [tpuStep] at h
    split at h
    · next hphase =>
      split at h
      · next hroom =>
        obtain ⟨fetch, hfetch, rfl⟩ := Option.map_eq_some_iff.mp h
        cases move_of_fetchStep hfetch with
        | sends hsending =>
          rw [hphase] at hsending
          cases hsending
          exact .sends hphase hroom
      · cases h
      · next hclosed =>
        obtain ⟨fetch, hfetch, rfl⟩ := Option.map_eq_some_iff.mp h
        cases move_of_fetchStep hfetch with
        | refused hsending => exact .refused hsending hclosed
    · cases h
  | verify =>
    simp only [tpuStep, Option.ite_none_right_eq_some, Option.some.injEq] at h
    obtain ⟨hqueue, rfl⟩ := h
    exact .verifies hqueue
  | verifierEnds =>
    simp only [tpuStep, Option.ite_none_right_eq_some, Option.some.injEq] at h
    obtain ⟨⟨hrunning, hqueue, hservers, hended⟩, rfl⟩ := h
    exact .drains hrunning hqueue hservers hended
  | verifierFails =>
    simp only [tpuStep, Option.ite_none_right_eq_some, Option.some.injEq] at h
    obtain ⟨⟨hrunning, -⟩, rfl⟩ := h
    exact .fails hrunning

/-! ## What every step keeps -/

/-- The batches one source has sent into the TPU channel. -/
def sentBy (source : TpuSource) (log : List (TpuSource × PacketBatch)) : List PacketBatch :=
  (log.filter fun entry => entry.1 = source).map Prod.snd

theorem sentBy_concat (source : TpuSource) (log : List (TpuSource × PacketBatch))
    (entry : TpuSource × PacketBatch) :
    sentBy source (log ++ [entry]) =
      sentBy source log ++ if entry.1 = source then [entry.2] else [] := by
  by_cases h : entry.1 = source <;> simp [sentBy, h]

/-- The account of the TPU channel. -/
structure TpuChannel (tpu : Mailbox (TpuSource × PacketBatch)) (verifier : Verifier)
    (accepted : List (TpuSource × PacketBatch)) : Prop where
  holds : tpu.Holds accepted
  capacity : tpu.channel.capacity = tpuQueueCapacity
  alive : tpu.channel.receiverAlive = true ↔ verifier = .running
  drained : verifier = .drained → tpu.read = accepted

/-- What the phase of the fetch stage says of the rest: why it has ended, or that the
verification still waits for it. -/
def FetchPhase.Explained (exit : Bool) (forwardsServers : Nat) (verifier : Verifier) :
    FetchPhase → Prop
  | .returned => exit = true
  | .panicked .recv => forwardsServers = 0
  | .panicked (.send _) => verifier = .failed
  | .panicked (.recvTimeout _) => False
  | _ => verifier ≠ .drained

theorem FetchPhase.Explained.later {exit exit' : Bool} {forwardsServers forwardsServers' : Nat}
    {verifier : Verifier} {phase : FetchPhase}
    (h : phase.Explained exit forwardsServers verifier) (hexit : exit = true → exit' = true)
    (hforwards : forwardsServers = 0 → forwardsServers' = 0) :
    phase.Explained exit' forwardsServers' verifier := by
  cases phase with
  | returned => exact hexit h
  | panicked error =>
    cases error with
    | recv => exact hforwards h
    | send packetBatch => exact h
    | recvTimeout error => exact h
  | _ => exact h

/-- The verification ends after the stage. -/
theorem FetchPhase.Explained.drains {exit : Bool} {forwardsServers : Nat} {phase : FetchPhase}
    (h : phase.Explained exit forwardsServers .running) (hended : phase.ended = true) :
    phase.Explained exit forwardsServers .drained := by
  cases phase with
  | returned => exact h
  | panicked error =>
    cases error with
    | recv => exact h
    | send packetBatch => cases h
    | recvTimeout error => exact h
  | _ => cases hended

theorem FetchPhase.Explained.fails {exit : Bool} {forwardsServers : Nat} {phase : FetchPhase}
    (h : phase.Explained exit forwardsServers .running) :
    phase.Explained exit forwardsServers .failed := by
  cases phase with
  | returned => exact h
  | panicked error =>
    cases error with
    | recv => exact h
    | send packetBatch => rfl
    | recvTimeout error => exact h
  | _ => rintro ⟨⟩

/-- What holds in every state. -/
structure TpuInv (s : Tpu) : Prop where
  forwards : ForwardsInv tpuQueueCapacity s.fetch
  senders : s.fetch.sendersAlive = decide (0 < s.forwardsServers)
  explained : s.fetch.phase.Explained s.exit s.forwardsServers s.verifier
  waiting : s.waiting = true → s.fetch.phase = .idle
  channel : TpuChannel s.tpu s.verifier s.accepted
  quic : sentBy .quic s.accepted = s.served
  fetched : sentBy .fetchStage s.accepted = s.fetch.tpu

section Steps

variable {s s' : Tpu} {label : TpuLabel}

theorem tpuInv_new (quicServers forwardsServers : Nat) :
    TpuInv (Tpu.new quicServers forwardsServers) where
  forwards := ⟨{ fetchInv_init with }, List.nil_prefix, Nat.zero_le _⟩
  senders := rfl
  explained := by
    rintro ⟨⟩
  waiting := by
    intro h
    cases h
  channel := ⟨Mailbox.holds_new _, rfl, ⟨fun _ => rfl, fun _ => rfl⟩, by rintro ⟨⟩⟩
  quic := rfl
  fetched := rfl

/-- A batch that finds room. -/
theorem TpuChannel.send {tpu : Mailbox (TpuSource × PacketBatch)} {verifier : Verifier}
    {accepted : List (TpuSource × PacketBatch)} (h : TpuChannel tpu verifier accepted)
    (hroom : tpu.channel.answer = .ok) (entry : TpuSource × PacketBatch) :
    TpuChannel (tpu.send entry) verifier (accepted ++ [entry]) := by
  have hrunning := h.alive.mp (tpu.channel.answer_eq_ok_iff.mp hroom).1
  have hholds := h.holds.send entry
  rw [if_pos hroom] at hholds
  refine ⟨hholds, (Mailbox.capacity_send _ _).trans h.capacity, ?_, ?_⟩
  · simpa [Mailbox.send] using h.alive
  · intro hdrained
    rw [hrunning] at hdrained
    cases hdrained

/-- A step of the fetch stage that sends nothing. -/
theorem TpuInv.fetchMove (h : TpuInv s) {fetchLabel : FetchLabel} {fetch : FetchStage}
    (hmove : FetchMove s.fetch fetchLabel fetch) (hsends : fetchLabel ≠ .send true)
    (hroom : ∀ packetBatch, fetchLabel = .arrive packetBatch →
      s.fetch.tpuForwards.length < tpuQueueCapacity) {waiting : Bool} {forwardsServers : Nat}
    (hsenders : fetch.sendersAlive = decide (0 < forwardsServers))
    (hexplained : fetch.phase.Explained s.exit forwardsServers s.verifier)
    (hwaiting : waiting = true → fetch.phase = .idle) :
    TpuInv { s with fetch, waiting, forwardsServers } where
  forwards := forwardsInv_move h.forwards hmove hroom
  senders := hsenders
  explained := hexplained
  waiting := hwaiting
  channel := h.channel
  quic := h.quic
  fetched := h.fetched.trans (hmove.tpu_eq hsends).symm

theorem tpuInv_step (h : TpuInv s) (hstep : tpuStep s label = some s') : TpuInv s' := by
  have hmove := move_of_tpuStep hstep
  have hexplained := h.explained
  cases hmove with
  | setExit => exact { h with explained := hexplained.later (fun _ => rfl) id }
  | serves hserver hroom =>
    refine { h with channel := h.channel.send hroom _, quic := ?_, fetched := ?_ }
    · rw [Tpu.accept, sentBy_concat, h.quic]
      rfl
    · rw [Tpu.accept, sentBy_concat, h.fetched]
      exact List.append_nil _
  | servesForward hserver hroom hfetch halive =>
    cases hfetch with
    | arrives =>
      exact h.fetchMove .arrives (by rintro ⟨⟩) (fun _ _ => hroom) h.senders hexplained h.waiting
  | quicServerEnds hserver => exact { h with }
  | forwardsServerEnds hserver hothers =>
    refine { h with senders := ?_, explained := hexplained.later id fun hnone => ?_ }
    · rw [h.senders, decide_eq_decide]
      exact iff_of_true hserver (Nat.pos_of_ne_zero hothers)
    · rw [hnone] at hserver
      cases hserver
  | forwardsEnd hserver hlast =>
    refine h.fetchMove .disconnects (by rintro ⟨⟩) (by rintro packetBatch ⟨⟩) ?_
      (hexplained.later id fun _ => hlast) h.waiting
    rw [hlast]
    rfl
  | returns hphase hexit hwaiting =>
    refine h.fetchMove (.exits hphase) (by rintro ⟨⟩) (by rintro packetBatch ⟨⟩) h.senders hexit ?_
    intro htrue
    rw [hwaiting] at htrue
    cases htrue
  | waits hphase hexit => exact { h with waiting := fun _ => hphase }
  | receives hwaiting hfetch =>
    have hsenders := (hfetch.sendersAlive_eq (by rintro ⟨⟩)).trans h.senders
    refine h.fetchMove hfetch (by rintro ⟨⟩) (by rintro packetBatch ⟨⟩) hsenders ?_ (by rintro ⟨⟩)
    cases hfetch with
    | receives hphase hqueue =>
      rw [hphase] at hexplained
      exact hexplained
    | disconnected hphase hgone =>
      rw [h.senders, decide_eq_false_iff_not] at hgone
      exact Nat.eq_zero_of_not_pos hgone
  | reads hfetch =>
    have hsenders := (hfetch.sendersAlive_eq (by rintro ⟨⟩)).trans h.senders
    refine h.fetchMove hfetch (by rintro ⟨⟩) (by rintro packetBatch ⟨⟩) hsenders ?_ ?_
    · cases hfetch with
      | reads hphase hqueue =>
        rw [hphase] at hexplained
        simp only [FetchStage.readAhead]
        split <;> exact hexplained
      | empties hphase hqueue =>
        rw [hphase] at hexplained
        exact hexplained
    · intro htrue
      have hidle := h.waiting htrue
      cases hfetch with
      | reads hphase | empties hphase =>
        rw [hphase] at hidle
        cases hidle
  | sends hphase hroom =>
    rw [hphase] at hexplained
    refine ⟨forwardsInv_move h.forwards (.sends hphase) (by rintro packetBatch ⟨⟩), ?_, ?_, ?_,
      h.channel.send hroom _, ?_, ?_⟩
    · exact ((FetchMove.sends hphase).sendersAlive_eq (by rintro ⟨⟩)).trans h.senders
    · dsimp only [FetchStage.sent]
      split <;> exact hexplained
    · intro htrue
      have hidle := h.waiting htrue
      rw [hphase] at hidle
      cases hidle
    · rw [Tpu.accept, sentBy_concat, h.quic]
      exact List.append_nil _
    · rw [Tpu.accept, sentBy_concat, h.fetched, tpu_sent]
      rfl
  | refused hphase hclosed =>
    refine h.fetchMove (.refused hphase) (by rintro ⟨⟩) (by rintro packetBatch ⟨⟩) h.senders ?_ ?_
    · -- the verification does not end before the stage unless it fails
      have hgone := s.tpu.channel.answer_eq_closed_iff.mp hclosed
      rw [← Bool.not_eq_true, h.channel.alive] at hgone
      rw [hphase] at hexplained
      cases hverifier : s.verifier with
      | running => exact absurd hverifier hgone
      | drained => exact absurd hverifier hexplained
      | failed => rfl
    · intro htrue
      have hidle := h.waiting htrue
      rw [hphase] at hidle
      cases hidle
  | verifies hqueue =>
    refine { h with channel := ⟨h.channel.holds.recv, h.channel.capacity, h.channel.alive, ?_⟩ }
    intro hdrained
    -- a verification that has ended leaves nothing in the channel
    have hgone : s.tpu.channel.receiverAlive = false := by
      rw [← Bool.not_eq_true, h.channel.alive, hdrained]
      rintro ⟨⟩
    exact absurd (h.channel.holds.empty_of_gone hgone) hqueue
  | drains hrunning hqueue hservers hended =>
    rw [hrunning] at hexplained
    refine { h with channel := ?_, explained := hexplained.drains hended }
    have hall := h.channel.holds.exact_of_alive (h.channel.alive.mpr hrunning)
    rw [hqueue, List.append_nil] at hall
    refine ⟨h.channel.holds.hangUp, h.channel.capacity, ?_, fun _ => hall⟩
    simp [Mailbox.hangUp, Channel.dropReceiver]
  | fails hrunning =>
    rw [hrunning] at hexplained
    refine { h with channel := ?_, explained := hexplained.fails }
    refine ⟨h.channel.holds.hangUp, h.channel.capacity, ?_, by rintro ⟨⟩⟩
    simp [Mailbox.hangUp, Channel.dropReceiver]

theorem tpuInv_run {quicServers forwardsServers : Nat} {ls : List TpuLabel}
    (hrun : runSteps tpuStep (Tpu.new quicServers forwardsServers) ls = some s) : TpuInv s :=
  runSteps_invariant _ (fun _ _ _ h hstep => tpuInv_step h hstep) ls
    (tpuInv_new quicServers forwardsServers) hrun

end Steps

/-! ## What the verification gets -/

/-- What the verification has got and will get, port by port. -/
structure TpuStreams (s : Tpu) : Prop where
  /-- what the verification has taken and what waits for it is what was sent -/
  complete : s.verifier = .running → s.tpu.read ++ s.tpu.channel.queue = s.accepted
  /-- also one that has ended has taken it in order and without a gap -/
  in_order : s.tpu.read <+: s.accepted
  /-- the batches of the TPU ports, as they came -/
  quic : sentBy .quic s.accepted = s.served
  /-- the batches of the forward ports in their order, marked, from the first on -/
  forwards : sentBy .fetchStage s.accepted <+: s.fetch.arrived.map (List.map markForwarded)
  /-- until the fetch stage panics, all of them have been sent, are held or wait -/
  conserved : s.fetch.phase.isPanicked = false →
    s.fetch.arrived.map (List.map markForwarded) =
      sentBy .fetchStage s.accepted ++
        (s.fetch.phase.held ++ s.fetch.tpuForwards.map (List.map markForwarded))
  bounded : s.tpu.channel.queue.length ≤ tpuQueueCapacity ∧
    s.fetch.tpuForwards.length ≤ tpuQueueCapacity

/-- A batch of each port; the forwarded one goes through the fetch stage. -/
def bothPortsRun : List TpuLabel :=
  [ .look, .serveForward [discardedPacket], .recv, .serve [discardedPacket, discardedPacket]
  , .tryRecv, .send, .verify ]

/-- The steps of a TPU that comes to its end: the servers bring nothing new. -/
def tpuWindsDown : TpuLabel → Bool
  | .setExit | .serve _ | .serveForward _ => false
  | _ => true

def TpuWindsDown (_ : Tpu) (label : TpuLabel) : Prop := tpuWindsDown label = true

instance (s : Tpu) (label : TpuLabel) : Decidable (TpuWindsDown s label) :=
  inferInstanceAs (Decidable (tpuWindsDown label = true))

/-- All threads have ended. -/
structure Tpu.Ended (s : Tpu) : Prop where
  quic : s.quicServers = 0
  forwards : s.forwardsServers = 0
  fetch : s.fetch.phase.ended = true
  verifier : s.verifier ≠ .running

/-- How far the fetch stage is from its end.  A batch it holds has still to be sent and
verified. -/
def FetchPhase.rank (waiting : Bool) : FetchPhase → Nat
  | .returned | .panicked _ => 0
  | .idle => 1 + waiting.toNat
  | .reading _ packetBatches => 2 * packetBatches.length + 2
  | .sending packetBatches => 2 * packetBatches.length + 1

def Verifier.rank : Verifier → Nat
  | .running => 1
  | _ => 0

/-- How far the TPU is from its end. -/
def Tpu.rank (s : Tpu) : Nat :=
  s.quicServers + s.forwardsServers + s.verifier.rank + s.tpu.channel.queue.length +
    s.fetch.phase.rank s.waiting + 3 * s.fetch.tpuForwards.length

section Ending

variable {s s' : Tpu} {label : TpuLabel}

/-- A call of the fetch stage comes closer to its end with every batch it takes. -/
theorem fetch_rank_lt {fetch fetch' : FetchStage} {fetchLabel : FetchLabel}
    (hmove : FetchMove fetch fetchLabel fetch')
    (hlabel : fetchLabel = .recv ∨ fetchLabel = .tryRecv) (waiting : Bool)
    (hwaiting : fetch.phase = .idle → waiting = true) :
    fetch'.phase.rank false + 3 * fetch'.tpuForwards.length <
      fetch.phase.rank waiting + 3 * fetch.tpuForwards.length := by
  cases hmove with
  | receives hphase hqueue =>
    rw [hwaiting hphase, hphase, hqueue]
    simp only [FetchStage.recvBatch, FetchPhase.rank, List.length_cons, List.length_nil,
      Bool.toNat_true]
    omega
  | disconnected hphase hgone =>
    rw [hwaiting hphase, hphase]
    simp [FetchPhase.rank]
  | reads hphase hqueue =>
    rw [hphase, hqueue]
    simp only [FetchStage.readAhead]
    split
    · simp only [FetchPhase.rank, List.length_append, List.length_cons, List.length_nil]
      omega
    · simp only [FetchPhase.rank, List.length_append, List.length_cons, List.length_nil]
      omega
  | empties hphase hqueue =>
    rw [hphase]
    simp only [FetchStage.foundEmpty, FetchPhase.rank]
    omega
  | arrives | disconnects | sends | refused | exits => rcases hlabel with hlabel | hlabel <;> cases hlabel

theorem length_queue_send {box : Mailbox (TpuSource × PacketBatch)}
    (hroom : box.channel.answer = .ok) (entry : TpuSource × PacketBatch) :
    (box.send entry).channel.queue.length = box.channel.queue.length + 1 := by
  simp [Mailbox.send, Channel.trySend, hroom]

/-- A batch sent goes from the call into the TPU channel. -/
theorem rank_sent (fetch : FetchStage) (packetBatch : PacketBatch) (rest : List PacketBatch) :
    (fetch.sent packetBatch rest).phase.rank false = 2 * rest.length + 1 := by
  unfold FetchStage.sent
  split
  · next hrest =>
    rw [hrest]
    rfl
  · rfl

theorem tpuForwards_sent (fetch : FetchStage) (packetBatch : PacketBatch)
    (rest : List PacketBatch) : (fetch.sent packetBatch rest).tpuForwards = fetch.tpuForwards := by
  unfold FetchStage.sent
  split <;> rfl

/-- In a call the stage does not wait for the first batch. -/
theorem TpuInv.not_waiting (h : TpuInv s) (hphase : s.fetch.phase ≠ .idle) : s.waiting = false := by
  cases hwaiting : s.waiting with
  | false => rfl
  | true => exact absurd (h.waiting hwaiting) hphase

/-- Every step that winds the TPU down brings it closer to its end. -/
theorem tpu_rank_lt (h : TpuInv s) (hexit : s.exit = true) (hlabel : TpuWindsDown s label)
    (hstep : tpuStep s label = some s') : s'.rank < s.rank := by
  have hmove := move_of_tpuStep hstep
  cases hmove with
  | setExit | serves | servesForward => cases hlabel
  | quicServerEnds hserver =>
    simp only [Tpu.rank]
    omega
  | forwardsServerEnds hserver hothers =>
    simp only [Tpu.rank]
    omega
  | forwardsEnd hserver hlast =>
    simp only [Tpu.rank]
    omega
  | returns hphase _ hwaiting =>
    simp only [Tpu.rank, hphase, hwaiting, FetchPhase.rank]
    omega
  | waits hphase hunset =>
    rw [hexit] at hunset
    cases hunset
  | receives hwaiting hfetch =>
    have hlower := fetch_rank_lt hfetch (.inl rfl) s.waiting fun _ => hwaiting
    simp only [Tpu.rank]
    omega
  | reads hfetch =>
    have hbusy : s.fetch.phase ≠ .idle := by
      cases hfetch with
      | reads hphase | empties hphase => simp [hphase]
    have hlower := fetch_rank_lt hfetch (.inr rfl) s.waiting fun hidle => absurd hidle hbusy
    rw [h.not_waiting hbusy] at hlower
    simp only [Tpu.rank, h.not_waiting hbusy]
    omega
  | sends hphase hroom =>
    have hwaiting := h.not_waiting (by simp [hphase])
    have hqueue := length_queue_send hroom
    simp only [Tpu.rank, Tpu.accept, hwaiting, hphase, rank_sent, tpuForwards_sent, hqueue]
    simp only [FetchPhase.rank, List.length_cons]
    omega
  | refused hphase hclosed =>
    simp only [Tpu.rank, hphase, FetchPhase.rank]
    omega
  | verifies hqueue =>
    have hlength := List.length_pos_iff.mpr hqueue
    simp only [Tpu.rank, Mailbox.recv, Channel.drain, List.length_drop]
    omega
  | drains hrunning hqueue _ _ =>
    simp only [Tpu.rank, hrunning, Verifier.rank, Mailbox.hangUp, Channel.dropReceiver,
      List.length_nil]
    omega
  | fails hrunning =>
    simp only [Tpu.rank, hrunning, Verifier.rank, Mailbox.hangUp, Channel.dropReceiver,
      List.length_nil]
    omega

/-- The flag is never cleared. -/
theorem exit_tpuStep (hstep : tpuStep s label = some s') (hexit : s.exit = true) :
    s'.exit = true := by
  have hmove := move_of_tpuStep hstep
  cases hmove with
  | setExit => rfl
  | _ => exact hexit

/-- As long as a thread has not ended there is a step to take, and the verification need not
fail for it. -/
theorem exists_tpuWindsDown (h : TpuInv s) (hexit : s.exit = true) :
    s.Ended ∨ ∃ label, label ≠ .verifierFails ∧ TpuWindsDown s label ∧
      (tpuStep s label).isSome = true := by
  by_cases hquic : 0 < s.quicServers
  · refine .inr ⟨.quicServerEnds, by rintro ⟨⟩, rfl, ?_⟩
    rw [tpuStep, if_pos ⟨hexit, hquic⟩]
    rfl
  by_cases hforwards : 0 < s.forwardsServers
  · refine .inr ⟨.forwardsServerEnds, by rintro ⟨⟩, rfl, ?_⟩
    simp only [tpuStep, hexit, hforwards, true_and, if_true]
    split <;> rfl
  have hgone : s.fetch.sendersAlive = false := by
    rw [h.senders]
    exact decide_eq_false hforwards
  have hquic := Nat.eq_zero_of_not_pos hquic
  have hforwards := Nat.eq_zero_of_not_pos hforwards
  cases hphase : s.fetch.phase with
  | idle =>
    cases hwaiting : s.waiting with
    | true =>
      -- with the last server gone `recv` does not wait
      refine .inr ⟨.recv, by rintro ⟨⟩, rfl, ?_⟩
      cases hqueue : s.fetch.tpuForwards <;> simp [tpuStep, fetchStep, hwaiting, hphase, hqueue, hgone]
    | false =>
      refine .inr ⟨.look, by rintro ⟨⟩, rfl, ?_⟩
      simp [tpuStep, fetchStep, hwaiting, hexit, hphase]
  | reading num packetBatches =>
    refine .inr ⟨.tryRecv, by rintro ⟨⟩, rfl, ?_⟩
    cases hqueue : s.fetch.tpuForwards <;> simp [tpuStep, fetchStep, hphase, hqueue]
  | sending packetBatches =>
    have hdescribes := h.forwards.inv.describes
    rw [hphase] at hdescribes
    cases packetBatches with
    | nil => exact absurd rfl hdescribes.2.1
    | cons packetBatch rest =>
      cases hanswer : s.tpu.channel.answer with
      | full =>
        -- the verification makes room
        refine .inr ⟨.verify, by rintro ⟨⟩, rfl, ?_⟩
        have hfull := (h.channel.holds.full hanswer).trans h.channel.capacity
        have hqueue : s.tpu.channel.queue ≠ [] := by
          intro hempty
          rw [hempty] at hfull
          cases hfull
        rw [tpuStep, if_pos hqueue]
        rfl
      | ok | closed =>
        refine .inr ⟨.send, by rintro ⟨⟩, rfl, ?_⟩
        simp [tpuStep, fetchStep, hphase, hanswer]
  | returned | panicked =>
    have hended : s.fetch.phase.ended = true := by
      rw [hphase]
      rfl
    by_cases hverifier : s.verifier = .running
    · by_cases hqueue : s.tpu.channel.queue = []
      · refine .inr ⟨.verifierEnds, by rintro ⟨⟩, rfl, ?_⟩
        rw [tpuStep, if_pos ⟨hverifier, hqueue, hquic, hended⟩]
        rfl
      · refine .inr ⟨.verify, by rintro ⟨⟩, rfl, ?_⟩
        rw [tpuStep, if_pos hqueue]
        rfl
    · exact .inl ⟨hquic, hforwards, hended, hverifier⟩

/-- A TPU whose channels are within their capacity is not far from its end. -/
theorem tpu_rank_le (h : TpuInv s) :
    s.rank ≤ s.quicServers + s.forwardsServers + 2 * s.fetch.phase.held.length + 40003 := by
  have hqueue := h.channel.holds.bounded
  rw [h.channel.capacity, tpuQueueCapacity] at hqueue
  have hforwards := h.forwards.bounded
  rw [tpuQueueCapacity] at hforwards
  have hverifier : s.verifier.rank ≤ 1 := by
    cases s.verifier <;> simp [Verifier.rank]
  have hfetch : s.fetch.phase.rank s.waiting ≤ 2 * s.fetch.phase.held.length + 2 := by
    have hwaiting := Bool.toNat_le s.waiting
    cases s.fetch.phase with
    | idle =>
      simp only [FetchPhase.rank]
      omega
    | _ => simp [FetchPhase.rank, FetchPhase.held]
  simp only [Tpu.rank]
  omega

end Ending

/-- What is known of a TPU that winds down. -/
structure TpuWinding (s : Tpu) : Prop where
  /-- the threads do not wait for each other in a circle, also if the verification does not
  fail -/
  progress : s.Ended ∨ ∃ label, label ≠ .verifierFails ∧ TpuWindsDown s label ∧
    (tpuStep s label).isSome = true
  /-- why the fetch stage has ended -/
  explained : s.fetch.phase.Explained s.exit s.forwardsServers s.verifier
  /-- a verification that ends for want of senders has taken everything that was sent -/
  drained : s.verifier = .drained → s.tpu.read = s.accepted

/-- The flag is set while the fetch stage waits in `recv` and a batch waits to be verified. -/
def waitingRun : List TpuLabel := [.look, .serve [discardedPacket], .setExit]

/-- The forward server ends, then the fetch stage in its `recv`, then the verification. -/
def drainingRun : List TpuLabel :=
  [.quicServerEnds, .forwardsServerEnds, .recv, .verify, .verifierEnds]

end FlowraRelayer.Core
