/-
  TransactionRelayer/Pipeline.lean --- from the verified packets to the event loop.

  `main` puts two threads in a row.  The forwarder thread holds every batch back for
  `packet_delay_ms` and sends it on the bounded channel `delay_packet_sender`; the event
  loop of the relayer takes it from there.  `pipelineStep` interleaves the two:

      poll                a turn of the forwarder up to its release loop
      check               one pass of the release loop
      take                the arm of the `select!` that takes a batch
      turn                any other arm of the event loop
      setExit, forwarderReturns, loopReturns

  A `send` on the full channel waits, so a turn of the forwarder is not one step here, as
  it is in `Forwarder.lean`: the loop may take a batch while the forwarder is still in the
  middle of a turn.  `pipeline_refines_threads` says that this makes no difference to
  either thread.

  Each thread reads the clock by itself.  What orders the two is the channel: the loop
  takes a batch after the check that released it.  That reading travels with the batch;
  no function of either thread sees it.  `taken` and `turns` record what happened.
-/
import FlowraRelayer.Core.Tpu
import FlowraRelayer.Foundation.Simulation
import FlowraRelayer.Relayer.StreamExactness
import FlowraRelayer.Relayer.Subscriptions
import FlowraRelayer.TransactionRelayer.DelayQueue

set_option autoImplicit false

namespace FlowraRelayer.TransactionRelayer

open FlowraRelayer.Foundation
open FlowraRelayer.Solana
open FlowraRelayer.Protos
open FlowraRelayer.Core
open FlowraRelayer.Relayer

/-! ## State -/

/-- Where the forwarder thread stands. -/
inductive ForwarderPhase where
  /-- at the head of its loop -/
  | polling
  /-- in the release loop -/
  | releasing
  | returned
  | panicked (cause : ForwarderPanic)
  deriving DecidableEq

/-- The thread still holds `delay_packet_sender`. -/
def ForwarderPhase.holdsSender : ForwarderPhase → Bool
  | .polling | .releasing => true
  | _ => false

/-- The two threads, the channel between them and the record of what happened. -/
structure Pipeline where
  exit : Bool
  phase : ForwarderPhase
  forwarder : ForwarderState
  /-- the delayed batches, each with the reading at the check that released it -/
  delayChannel : Channel (Time × RelayerPacketBatches)
  loopRunning : Bool
  /-- the last reading of the event loop -/
  loopNow : Time
  loop : LoopState
  /-- the batches the loop took, each with the time -/
  taken : List (Time × RelayerPacketBatches)
  /-- the turns the loop completed, each with the time -/
  turns : List (Time × LoopEvent)

/-- Both threads as they start. -/
def Pipeline.init (start : Time) : Pipeline where
  exit := false
  phase := .polling
  forwarder := ForwarderState.init start
  delayChannel := Channel.new tpuQueueCapacity
  loopRunning := true
  loopNow := start
  loop := LoopState.init
  taken := []
  turns := []

/-! ## Steps -/

/-- The front of the buffer is sent on. -/
def ForwarderState.released (batch : RelayerPacketBatches) (rest : List RelayerPacketBatches)
    (s : ForwarderState) : ForwarderState :=
  { s with
    bufferedPacketBatches := rest
    metrics :=
      { s.metrics with
        numRelayerPacketsForwarded :=
          s.metrics.numRelayerPacketsForwarded + numPackets batch.bankingPacketBatch }
    sent := s.sent ++ [(s.now, batch)] }

namespace Pipeline

/-- A panic anywhere: the hook sets `exit`. -/
def panic (cause : ForwarderPanic) (p : Pipeline) : Pipeline :=
  { p with exit := true, phase := .panicked cause }

/-- One pass of the release loop. -/
def release (cfg : ForwarderConfig) (ahead : Time) (p : Pipeline) : Option Pipeline :=
  match p.forwarder.bufferedPacketBatches with
  | [] => some { p with phase := .polling }
  | batch :: rest =>
      let forwarder := p.forwarder.tick ahead
      if forwarder.now - batch.stamp < cfg.packetDelay then
        some { p with forwarder, phase := .polling }
      else
        match p.delayChannel.answer with
        | .ok =>
            some
              { p with
                forwarder := forwarder.released batch rest
                delayChannel := p.delayChannel.trySend (forwarder.now, batch) }
        -- `send` waits for room
        | .full => none
        | .closed => some (p.panic .delaySenderClosed)

/-- The event loop ends and drops its end of the channel; a panic sets `exit`. -/
def endLoop (exit : Bool) (p : Pipeline) : Pipeline :=
  { p with exit, loopRunning := false, delayChannel := p.delayChannel.dropReceiver }

/-- The loop has the front of the channel in hand. -/
def takeFront (now : Time) (batch : RelayerPacketBatches) (p : Pipeline) : Pipeline :=
  { p with delayChannel := p.delayChannel.drain 1, taken := p.taken ++ [(now, batch)] }

/-- A turn of the event loop. -/
def turn (decode : List UInt8 → Option VersionedTransaction) (loopCfg : LoopConfig) (now : Time)
    (event : LoopEvent) (p : Pipeline) : Option Pipeline :=
  if p.loopRunning ∧ p.loopNow ≤ now ∧ event.Valid loopCfg p.loop then
    match handleEvent decode loopCfg p.loop event with
    | .ok loop => some { p with loop, loopNow := now, turns := p.turns ++ [(now, event)] }
    | .error .shutdown => some (p.endLoop p.exit)
    | .error .panic => some (p.endLoop true)
  else none

end Pipeline

/-- The event is the arm of `delay_packet_receiver`. -/
def takesPackets : LoopEvent → Bool
  | .packets _ _ _ _ => true
  | _ => false

/-- The steps of the pipeline.  The inputs of the release loop come with each `check`, so
`poll` reads the other fields of its input only. -/
inductive PipelineLabel where
  | setExit
  | poll (input : TurnInput)
  | check (ahead : Time)
  | forwarderReturns
  | take (now : Time) (cache : LookupTableCache) (order : List Pubkey) (env : ForwardEnv)
  | turn (now : Time) (event : LoopEvent)
  | loopReturns

/-- One step of the pipeline. -/
def pipelineStep (decode : List UInt8 → Option VersionedTransaction) (cfg : ForwarderConfig)
    (loopCfg : LoopConfig) (p : Pipeline) : PipelineLabel → Option Pipeline
  | .setExit => some { p with exit := true }
  | .poll input =>
      if p.phase = .polling then
        match receiveBatch cfg input (uploadMetrics input p.forwarder) with
        | .ok forwarder => some { p with forwarder, phase := .releasing }
        | .error cause => some (p.panic cause)
      else none
  | .check ahead => if p.phase = .releasing then p.release cfg ahead else none
  | .forwarderReturns =>
      if p.exit ∧ p.phase = .polling then some { p with phase := .returned } else none
  | .take now cache order env =>
      match p.delayChannel.queue with
      | (checked, batch) :: _ =>
          if checked ≤ now then
            (p.takeFront now batch).turn decode loopCfg now (.packets (some batch) cache order env)
          else none
      | [] =>
          -- `recv` waits while there is a sender
          if p.phase.holdsSender then none
          else p.turn decode loopCfg now (.packets none cache order env)
  | .turn now event => if takesPackets event then none else p.turn decode loopCfg now event
  | .loopReturns => if p.exit ∧ p.loopRunning then some (p.endLoop p.exit) else none

/-! ## What a step does -/

/-- The steps of the pipeline, by what they do. -/
inductive PipelineMove (decode : List UInt8 → Option VersionedTransaction) (cfg : ForwarderConfig)
    (loopCfg : LoopConfig) (p : Pipeline) : Pipeline → Prop where
  | setExit : PipelineMove decode cfg loopCfg p { p with exit := true }
  | polled {input : TurnInput} {forwarder : ForwarderState} (hphase : p.phase = .polling)
      (hreceive : receiveBatch cfg input (uploadMetrics input p.forwarder) = .ok forwarder) :
      PipelineMove decode cfg loopCfg p { p with forwarder, phase := .releasing }
  | panicked (cause : ForwarderPanic) : PipelineMove decode cfg loopCfg p (p.panic cause)
  | emptied (hphase : p.phase = .releasing) (hempty : p.forwarder.bufferedPacketBatches = []) :
      PipelineMove decode cfg loopCfg p { p with phase := .polling }
  | waited {ahead : Time} {batch : RelayerPacketBatches} {rest : List RelayerPacketBatches}
      (hphase : p.phase = .releasing) (hfront : p.forwarder.bufferedPacketBatches = batch :: rest)
      (hyoung : (p.forwarder.tick ahead).now - batch.stamp < cfg.packetDelay) :
      PipelineMove decode cfg loopCfg p
        { p with forwarder := p.forwarder.tick ahead, phase := .polling }
  | released {ahead : Time} {batch : RelayerPacketBatches} {rest : List RelayerPacketBatches}
      (hphase : p.phase = .releasing) (hfront : p.forwarder.bufferedPacketBatches = batch :: rest)
      (hdue : ¬ (p.forwarder.tick ahead).now - batch.stamp < cfg.packetDelay)
      (hroom : p.delayChannel.answer = .ok) :
      PipelineMove decode cfg loopCfg p
        { p with
          forwarder := (p.forwarder.tick ahead).released batch rest
          delayChannel := p.delayChannel.trySend ((p.forwarder.tick ahead).now, batch) }
  | returned (hphase : p.phase = .polling) :
      PipelineMove decode cfg loopCfg p { p with phase := .returned }
  | took {now checked : Time} {batch : RelayerPacketBatches}
      {rest : List (Time × RelayerPacketBatches)} {cache : LookupTableCache}
      {order : List Pubkey} {env : ForwardEnv} {loop : LoopState}
      (hrunning : p.loopRunning = true) (hqueue : p.delayChannel.queue = (checked, batch) :: rest)
      (hchecked : checked ≤ now)
      (hturn : eventStep decode loopCfg p.loop (.packets (some batch) cache order env) = some loop) :
      PipelineMove decode cfg loopCfg p
        { p.takeFront now batch with
          loop, loopNow := now
          turns := p.turns ++ [(now, .packets (some batch) cache order env)] }
  | tookLast {now checked : Time} {batch : RelayerPacketBatches}
      {rest : List (Time × RelayerPacketBatches)} {exit : Bool}
      (hexit : p.exit = true → exit = true) (hrunning : p.loopRunning = true)
      (hqueue : p.delayChannel.queue = (checked, batch) :: rest) (hchecked : checked ≤ now) :
      PipelineMove decode cfg loopCfg p ((p.takeFront now batch).endLoop exit)
  | turned {now : Time} {event : LoopEvent} {loop : LoopState} (hrunning : p.loopRunning = true)
      (hother : takesPackets event = false)
      (hturn : eventStep decode loopCfg p.loop event = some loop) :
      PipelineMove decode cfg loopCfg p
        { p with loop, loopNow := now, turns := p.turns ++ [(now, event)] }
  | loopEnded {exit : Bool} (hexit : p.exit = true → exit = true)
      (hrunning : p.loopRunning = true) :
      PipelineMove decode cfg loopCfg p (p.endLoop exit)

section Moves

variable {decode : List UInt8 → Option VersionedTransaction} {cfg : ForwarderConfig}
  {loopCfg : LoopConfig} {p p' : Pipeline}

/-- A turn of the loop that does not end it is a step of the loop by itself. -/
theorem turn_cases {now : Time} {event : LoopEvent}
    (h : p.turn decode loopCfg now event = some p') :
    p.loopRunning = true ∧
      ((∃ loop, eventStep decode loopCfg p.loop event = some loop ∧
          p' = { p with loop, loopNow := now, turns := p.turns ++ [(now, event)] }) ∨
        ((∃ stop, handleEvent decode loopCfg p.loop event = .error stop) ∧
          ∃ exit, (p.exit = true → exit = true) ∧ p' = p.endLoop exit)) := by
  rw [Pipeline.turn, Option.ite_none_right_eq_some] at h
  obtain ⟨⟨hrunning, -, hvalid⟩, h⟩ := h
  refine ⟨hrunning, ?_⟩
  cases hevent : handleEvent decode loopCfg p.loop event with
  | ok loop =>
    rw [hevent] at h
    refine .inl ⟨loop, ?_, (Option.some.inj h).symm⟩
    rw [eventStep, if_pos hvalid, hevent]
    rfl
  | error stop =>
    rw [hevent] at h
    refine .inr ⟨⟨stop, rfl⟩, ?_⟩
    cases stop with
    | shutdown => exact ⟨p.exit, id, (Option.some.inj h).symm⟩
    | panic => exact ⟨true, fun _ => rfl, (Option.some.inj h).symm⟩

/-- A turn that takes no batch completes or ends the loop. -/
theorem move_of_turn {now : Time} {event : LoopEvent} (hother : takesPackets event = false)
    (h : p.turn decode loopCfg now event = some p') : PipelineMove decode cfg loopCfg p p' := by
  obtain ⟨hrunning, ⟨loop, hturn, rfl⟩ | ⟨-, exit, hexit, rfl⟩⟩ := turn_cases h
  · exact .turned hrunning hother hturn
  · exact .loopEnded hexit hrunning

theorem move_of_release {ahead : Time} (hphase : p.phase = .releasing)
    (h : p.release cfg ahead = some p') : PipelineMove decode cfg loopCfg p p' := by
  unfold Pipeline.release at h
  split at h
  · rename_i hempty
    cases h
    exact .emptied hphase hempty
  · rename_i batch rest hfront
    dsimp only at h
    split at h
    · rename_i hyoung
      cases h
      exact .waited hphase hfront hyoung
    · rename_i hdue
      split at h
      · rename_i hroom
        cases h
        exact .released hphase hfront hdue hroom
      · cases h
      · cases h
        exact .panicked _

theorem move_of_take {now : Time} {cache : LookupTableCache} {order : List Pubkey}
    {env : ForwardEnv} (h : pipelineStep decode cfg loopCfg p (.take now cache order env) = some p') :
    PipelineMove decode cfg loopCfg p p' := by
  simp only [pipelineStep] at h
  split at h
  · rename_i checked batch rest hqueue
    rw [Option.ite_none_right_eq_some] at h
    obtain ⟨hchecked, h⟩ := h
    obtain ⟨hrunning, ⟨loop, hturn, rfl⟩ | ⟨-, exit, hexit, rfl⟩⟩ := turn_cases h
    · exact .took hrunning hqueue hchecked hturn
    · exact .tookLast hexit hrunning hqueue hchecked
  · split at h
    · cases h
    · -- a disconnected channel ends the loop
      obtain ⟨hrunning, ⟨loop, hturn, rfl⟩ | ⟨-, exit, hexit, rfl⟩⟩ := turn_cases h
      · rcases eventStep_cases hturn with ⟨_, _, hev, -⟩ | ⟨_, _, _, _, hev, -⟩ | ⟨_, _, hev, -⟩ |
          ⟨_, _, hev, -⟩ | ⟨_, _, hev, -⟩ | ⟨hev, -⟩ <;> cases hev
      · exact .loopEnded hexit hrunning

/-- Every step is one of the moves. -/
theorem move_of_pipelineStep {label : PipelineLabel}
    (h : pipelineStep decode cfg loopCfg p label = some p') :
    PipelineMove decode cfg loopCfg p p' := by
  cases label with
  | setExit =>
    cases h
    exact .setExit
  | poll input =>
    rw [pipelineStep, Option.ite_none_right_eq_some] at h
    obtain ⟨hphase, h⟩ := h
    split at h
    · rename_i hreceive
      cases h
      exact .polled hphase hreceive
    · cases h
      exact .panicked _
  | check ahead =>
    rw [pipelineStep, Option.ite_none_right_eq_some] at h
    exact move_of_release h.1 h.2
  | forwarderReturns =>
    rw [pipelineStep, Option.ite_none_right_eq_some] at h
    obtain ⟨⟨-, hphase⟩, h⟩ := h
    cases h
    exact .returned hphase
  | take now cache order env => exact move_of_take h
  | turn now event =>
    rw [pipelineStep, Option.ite_none_left_eq_some] at h
    exact move_of_turn (by simpa using h.1) h.2
  | loopReturns =>
    rw [pipelineStep, Option.ite_none_right_eq_some] at h
    obtain ⟨⟨-, hrunning⟩, h⟩ := h
    cases h
    exact .loopEnded id hrunning

end Moves

/-! ## The threads as they run alone -/

/-- The batch a turn of the loop works on. -/
def turnBatch? : LoopEvent → Option RelayerPacketBatches
  | .packets maybePacketBatches _ _ _ => maybePacketBatches
  | _ => none

/-- A turn's input with the given readings for the release loop. -/
def TurnInput.withChecks (input : TurnInput) (checks : List Time) : TurnInput :=
  { input with untilCheck := fun k => checks.getD k 0, sendOk := fun _ => true }

/-- The release loop does not look at the buffer it is about to overwrite. -/
theorem releaseLoop_congr {cfg : ForwarderConfig} {input : TurnInput}
    (stale : List RelayerPacketBatches) :
    ∀ (batches : List RelayerPacketBatches) (k : Nat) (s : ForwarderState),
      releaseLoop cfg input k batches { s with bufferedPacketBatches := stale } =
        releaseLoop cfg input k batches s := by
  intro batches
  induction batches with
  | nil =>
    intro k s
    rfl
  | cons batch rest ih =>
    intro k s
    unfold releaseLoop
    dsimp only [ForwarderState.tick]
    split
    · rfl
    · split
      · exact ih (k + 1)
          { s with
            now := s.now + input.untilCheck k
            metrics :=
              { s.metrics with
                numRelayerPacketsForwarded :=
                  s.metrics.numRelayerPacketsForwarded + numPackets batch.bankingPacketBatch }
            sent := s.sent ++ [(s.now + input.untilCheck k, batch)] }
      · rfl

/-- `f` is where the forwarder thread stood at the head of its loop: right here, or when
the turn began that the thread is in the middle of. -/
def AtLoopHead (cfg : ForwarderConfig) (p : Pipeline) (f : ForwarderState) : Prop :=
  match p.phase with
  | .polling => f = p.forwarder
  | .releasing =>
      ∃ (input : TurnInput) (checks : List Time) (middle : ForwarderState),
        receiveBatch cfg input (uploadMetrics input f) = .ok middle ∧
          ∀ later, releaseLoop cfg (input.withChecks (checks ++ later)) 0
              middle.bufferedPacketBatches middle =
            releaseLoop cfg (input.withChecks (checks ++ later)) checks.length
              p.forwarder.bufferedPacketBatches p.forwarder
  | _ => True

section Refinement

variable {decode : List UInt8 → Option VersionedTransaction} {cfg : ForwarderConfig}
  {loopCfg : LoopConfig} {p p' : Pipeline} {f : ForwarderState}

/-- A turn that has come to its end is a turn of the thread by itself. -/
theorem forwarderStep_of_released {input : TurnInput} (checks : List Time)
    {middle s : ForwarderState}
    (hreceive : receiveBatch cfg input (uploadMetrics input f) = .ok middle)
    (hrelease : releaseLoop cfg (input.withChecks checks) 0 middle.bufferedPacketBatches middle =
      .ok s) :
    forwarderStep cfg f (input.withChecks checks) = some s :=
  forwarderStep_eq_some_iff.mpr (forwarderTurn_eq_ok_iff.mpr ⟨middle, hreceive, hrelease⟩)

theorem getD_concat_length (checks later : List Time) (ahead : Time) :
    (checks ++ ahead :: later).getD checks.length 0 = ahead := by
  simp

/-- The steps of the pipeline are turns of the forwarder thread by itself: a turn is
matched when its release loop ends. -/
theorem simulates_forwarder :
    Simulates (pipelineStep decode cfg loopCfg) (forwarderStep cfg) (AtLoopHead cfg) := by
  intro p f label p' hhead hstep
  cases move_of_pipelineStep hstep with
  | setExit => exact matched_by_none hhead
  | @polled input forwarder hphase hreceive =>
    unfold AtLoopHead at hhead
    simp only [hphase] at hhead
    subst hhead
    refine matched_by_none ?_
    exact ⟨input, [], forwarder, hreceive, fun later => rfl⟩
  | panicked cause => exact matched_by_none (t := f) trivial
  | emptied hphase hempty =>
    simp only [AtLoopHead, hphase] at hhead
    obtain ⟨input, checks, middle, hreceive, hrelease⟩ := hhead
    refine matched_by_one (forwarderStep_of_released (checks ++ []) hreceive ?_) rfl
    rw [hrelease [], hempty, releaseLoop, ← hempty]
  | @waited ahead batch rest hphase hfront hyoung =>
    simp only [AtLoopHead, hphase] at hhead
    obtain ⟨input, checks, middle, hreceive, hrelease⟩ := hhead
    refine matched_by_one (forwarderStep_of_released (checks ++ [ahead]) hreceive ?_) rfl
    rw [hrelease [ahead], hfront, releaseLoop]
    simp only [TurnInput.withChecks, getD_concat_length]
    rw [if_pos hyoung, ← hfront]
    rfl
  | @released ahead batch rest hphase hfront hdue hroom =>
    simp only [AtLoopHead, hphase] at hhead
    obtain ⟨input, checks, middle, hreceive, hrelease⟩ := hhead
    refine matched_by_none (t := f) ?_
    simp only [AtLoopHead, hphase]
    refine ⟨input, checks ++ [ahead], middle, hreceive, fun later => ?_⟩
    rw [List.append_assoc, List.singleton_append, hrelease (ahead :: later), hfront, releaseLoop]
    simp only [TurnInput.withChecks, getD_concat_length, List.length_append, List.length_singleton]
    rw [if_neg hdue]
    exact (releaseLoop_congr rest rest _ _).symm
  | returned hphase => exact matched_by_none (t := f) trivial
  | took => exact matched_by_none hhead
  | tookLast => exact matched_by_none hhead
  | turned => exact matched_by_none hhead
  | loopEnded => exact matched_by_none hhead

/-- What the loop has done is what its completed turns do when it runs alone. -/
def LoopAlone (decode : List UInt8 → Option VersionedTransaction) (loopCfg : LoopConfig)
    (p : Pipeline) : Prop :=
  runSteps (eventStep decode loopCfg) LoopState.init (p.turns.map Prod.snd) = some p.loop ∧
    (p.loopRunning = true → (p.turns.map Prod.snd).filterMap turnBatch? = p.taken.map Prod.snd) ∧
    (p.turns.map Prod.snd).filterMap turnBatch? <+: p.taken.map Prod.snd

theorem turnBatch?_eq_none {event : LoopEvent} (h : takesPackets event = false) :
    turnBatch? event = none := by
  cases event with
  | packets => cases h
  | _ => rfl

theorem loopAlone_step {label : PipelineLabel} (halone : LoopAlone decode loopCfg p)
    (hstep : pipelineStep decode cfg loopCfg p label = some p') : LoopAlone decode loopCfg p' := by
  obtain ⟨hrun, hbatches, hprefix⟩ := halone
  cases move_of_pipelineStep hstep with
  | @took now checked batch rest cache order env loop hrunning hqueue hchecked hturn =>
    have hrun' : runSteps (eventStep decode loopCfg) LoopState.init
        ((p.turns ++ [(now, LoopEvent.packets (some batch) cache order env)]).map Prod.snd) =
          some loop := by
      rw [List.map_append, List.map_singleton, runSteps_concat, hrun]
      exact hturn
    have heq : ((p.turns ++ [(now, LoopEvent.packets (some batch) cache order env)]).map
        Prod.snd).filterMap turnBatch? = (p.taken ++ [(now, batch)]).map Prod.snd := by
      simp only [List.map_append, List.filterMap_append, hbatches hrunning]
      rfl
    exact ⟨hrun', fun _ => heq, heq ▸ List.prefix_rfl⟩
  | tookLast hexit hrunning =>
    refine ⟨hrun, ?_, ?_⟩
    · intro hrunning'
      cases hrunning'
    · simp only [Pipeline.endLoop, Pipeline.takeFront, List.map_append]
      exact hprefix.trans (List.prefix_append _ _)
  | @turned now event loop hrunning hother hturn =>
    have hrun' : runSteps (eventStep decode loopCfg) LoopState.init
        ((p.turns ++ [(now, event)]).map Prod.snd) = some loop := by
      rw [List.map_append, List.map_singleton, runSteps_concat, hrun]
      exact hturn
    have heq : ((p.turns ++ [(now, event)]).map Prod.snd).filterMap turnBatch? =
        (p.turns.map Prod.snd).filterMap turnBatch? := by
      simp [turnBatch?_eq_none hother]
    exact ⟨hrun', fun hr => heq.trans (hbatches hr), heq ▸ hprefix⟩
  | loopEnded =>
    refine ⟨hrun, ?_, hprefix⟩
    intro hrunning'
    cases hrunning'
  | setExit => exact ⟨hrun, hbatches, hprefix⟩
  | polled => exact ⟨hrun, hbatches, hprefix⟩
  | panicked => exact ⟨hrun, hbatches, hprefix⟩
  | emptied => exact ⟨hrun, hbatches, hprefix⟩
  | waited => exact ⟨hrun, hbatches, hprefix⟩
  | released => exact ⟨hrun, hbatches, hprefix⟩
  | returned => exact ⟨hrun, hbatches, hprefix⟩

theorem atLoopHead_run {start : Time} {ls : List PipelineLabel}
    (hrun : runSteps (pipelineStep decode cfg loopCfg) (Pipeline.init start) ls = some p)
    (hphase : p.phase = .polling) :
    ∃ inputs, runSteps (forwarderStep cfg) (ForwarderState.init start) inputs =
      some p.forwarder := by
  have hinit : AtLoopHead cfg (Pipeline.init start) (ForwarderState.init start) := rfl
  obtain ⟨inputs, f, hinputs, hhead⟩ := simulates_forwarder.run ls hinit hrun
  simp only [AtLoopHead, hphase] at hhead
  exact ⟨inputs, hhead ▸ hinputs⟩

theorem loopAlone_run {start : Time} {ls : List PipelineLabel}
    (hrun : runSteps (pipelineStep decode cfg loopCfg) (Pipeline.init start) ls = some p) :
    LoopAlone decode loopCfg p :=
  runSteps_invariant (LoopAlone decode loopCfg)
    (fun _ _ _ halone hstep => loopAlone_step halone hstep) ls
    ⟨rfl, fun _ => rfl, List.prefix_rfl⟩ hrun

end Refinement

/-- However the two threads are interleaved, each of them does what it does alone: the
forwarder, whenever it is at the head of its loop, has made a run of whole turns, and the
event loop has made a run of turns whose batches are the ones it took from the channel.
The last of these may be missing in a loop that has ended. -/
theorem pipeline_refines_threads (decode : List UInt8 → Option VersionedTransaction)
    (cfg : ForwarderConfig) (loopCfg : LoopConfig) (start : Time) (ls : List PipelineLabel)
    (p : Pipeline)
    (hrun : runSteps (pipelineStep decode cfg loopCfg) (Pipeline.init start) ls = some p) :
    (p.phase = .polling →
      ∃ inputs, runSteps (forwarderStep cfg) (ForwarderState.init start) inputs =
        some p.forwarder) ∧
    ∃ events, runSteps (eventStep decode loopCfg) LoopState.init events = some p.loop ∧
      events.filterMap turnBatch? <+: p.taken.map Prod.snd ∧
      (p.loopRunning = true → events.filterMap turnBatch? = p.taken.map Prod.snd) := by
  obtain ⟨hloop, hbatches, hprefix⟩ := loopAlone_run hrun
  exact ⟨atLoopHead_run hrun, p.turns.map Prod.snd, hloop, hprefix, hbatches⟩

/-- A pipeline that delays by 200 ms and forwards everything to everyone. -/
abbrev delayingStep : Pipeline → PipelineLabel → Option Pipeline :=
  pipelineStep (fun _ => none) ⟨200, false⟩ ⟨∅, 4, true, 5⟩

/-- The loop takes a batch for its only subscriber, at `now`. -/
def takeAt (now : Time) : PipelineLabel :=
  .take now (fun _ => none) [uniformKey 7] ⟨fun _ _ => .ok, fun _ _ => 0⟩

/-- Two batches are received and come due together; the loop takes the first while the
forwarder is still releasing. -/
def overlappingRun : List PipelineLabel :=
  [ .turn 0 (.subscription (some (uniformKey 7, 0)))
  , .poll (turnAt (.ok [[oneBytePacket 1]]) .ok 0), .check 0
  , .poll (turnAt (.ok [[oneBytePacket 2]]) .full 0), .check nanosPerSecond
  , takeAt (2 * nanosPerSecond)
  , .check 0 ]

theorem pipeline_refines_threads_overlapping :
    ∃ p, runSteps delayingStep (Pipeline.init 0) (overlappingRun ++ [.check 0]) = some p ∧
      p.taken.length = 1 ∧ p.delayChannel.queue.length = 1 ∧
      (∃ inputs, runSteps (forwarderStep ⟨200, false⟩) (ForwarderState.init 0) inputs =
        some p.forwarder) ∧
      ∃ events, runSteps (eventStep (fun _ => none) ⟨∅, 4, true, 5⟩) LoopState.init events =
        some p.loop ∧ events.filterMap turnBatch? = p.taken.map Prod.snd := by
  have hrun : (runSteps delayingStep (Pipeline.init 0) (overlappingRun ++ [.check 0])).map
      (fun p => (p.phase, p.loopRunning, p.taken.length, p.delayChannel.queue.length)) =
        some (.polling, true, 1, 1) := by decide
  obtain ⟨p, hp, hv⟩ := Option.map_eq_some_iff.mp hrun
  simp only [Prod.mk.injEq] at hv
  obtain ⟨hphase, hrunning, htaken, hqueue⟩ := hv
  obtain ⟨hforwarder, events, hloop, -, hbatches⟩ :=
    pipeline_refines_threads _ _ _ _ _ p hp
  exact ⟨p, hp, htaken, hqueue, hforwarder hphase, events, hloop, hbatches hrunning⟩

end FlowraRelayer.TransactionRelayer
