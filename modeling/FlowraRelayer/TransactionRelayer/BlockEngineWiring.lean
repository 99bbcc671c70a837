/-
  TransactionRelayer/BlockEngineWiring.lean --- who owns the block engine's channel.

  `main` starts the forwarder thread with the sending end of a channel and then
  hands the receiving end to `BlockEngineRelayerHandler::new`.  With a
  configuration, a handler thread keeps it until it returns or panics; without one,
  the closure that captured it is never called and the receiving end is dropped
  right there.  `processStep` interleaves the forwarder's turns with all of this,
  and takes the answer of `try_send` from the channel itself.

  A handler thread is modelled by what it does to the channel: it drains it or not,
  connected or not, and drops it when it ends.
-/
import FlowraRelayer.TransactionRelayer.DelayQueue

set_option autoImplicit false

namespace FlowraRelayer.TransactionRelayer

open FlowraRelayer.Foundation
open FlowraRelayer.Protos
open FlowraRelayer.Relayer

/-! ## Configuration -/

/-- The command line arguments that decide the wiring. -/
structure Args where
  packetDelayMs : UInt32
  blockEngineUrl : Option String
  blockEngineAuthServiceUrl : Option String
  disableMempool : Bool
  deriving DecidableEq

/-- `BlockEngineConfig`. -/
structure BlockEngineConfig where
  blockEngineUrl : String
  authServiceUrl : String
  deriving DecidableEq

/-- The optional configuration `main` derives. -/
def Args.blockEngineConfig (args : Args) : Option BlockEngineConfig :=
  match args.disableMempool, args.blockEngineUrl with
  | false, some blockEngineUrl =>
      some ⟨blockEngineUrl, args.blockEngineAuthServiceUrl.getD blockEngineUrl⟩
  | _, _ => none

/-- The forwarder's share of the arguments. -/
def Args.forwarderConfig (args : Args) : ForwarderConfig where
  packetDelayMs := args.packetDelayMs
  disableMempool := args.disableMempool

/-- The `num_threads` that `main` passes. -/
def numForwarderThreads : Nat := 1

/-! ## The process -/

/-- Where the block engine's side stands. -/
inductive HandlerPhase where
  /-- `main` has not come to it yet and still holds the receiving end -/
  | notStarted
  /-- there is no configuration and no thread -/
  | absent
  | disconnected
  | connected
  | returned
  | panicked
  deriving DecidableEq

/-- A forwarder thread, with its local variables while it runs. -/
inductive ForwarderThread where
  | running (state : ForwarderState)
  | returned
  | panicked (cause : ForwarderPanic)

/-- The process as far as the channel to the block engine goes. -/
structure RelayerProcess where
  exit : Bool
  handler : HandlerPhase
  channel : Channel BlockEnginePackets
  forwarders : Nat → ForwarderThread
  /-- the batches each forwarder thread got from `verified_receiver` -/
  delivered : Nat → List BankingPacketBatch

/-- The process once the forwarder threads are started. -/
def RelayerProcess.init (start : Time) : RelayerProcess where
  exit := false
  handler := .notStarted
  channel := Channel.new blockEngineForwarderQueueCapacity
  forwarders := fun _ => .running (ForwarderState.init start)
  delivered := fun _ => []

/-- `BlockEngineRelayerHandler::new`: without a configuration the receiving end goes
out of scope. -/
def newHandler (blockEngineConfig : Option BlockEngineConfig) (p : RelayerProcess) :
    RelayerProcess :=
  match blockEngineConfig with
  | some _ => { p with handler := .disconnected }
  | none => { p with handler := .absent, channel := p.channel.dropReceiver }

/-- The handler thread ends. -/
def RelayerProcess.endHandler (p : RelayerProcess) (phase : HandlerPhase) : RelayerProcess :=
  { p with handler := phase, channel := p.channel.dropReceiver }

/-- The steps of the process. -/
inductive ProcessLabel where
  | setExit
  | newHandler
  | connect
  | disconnect
  | drain (n : Nat)
  | handlerReturns
  | handlerPanics
  | forwarder (i : Nat) (input : TurnInput)
  | forwarderReturns (i : Nat)

/-- What a turn gets from `verified_receiver`. -/
def TurnInput.batch? (input : TurnInput) : Option BankingPacketBatch :=
  match input.recv with
  | .ok bankingPacketBatch => some bankingPacketBatch
  | _ => none

/-- What a turn offers to the block engine. -/
def TurnInput.offer? (cfg : ForwarderConfig) (input : TurnInput) : Option BlockEnginePackets :=
  if cfg.disableMempool then none
  else input.batch?.map fun batch => ⟨batch, input.systemTime, cfg.packetDelayMs⟩

/-- A turn of forwarder thread `i`. -/
def RelayerProcess.turn (args : Args) (i : Nat) (state : ForwarderState) (input : TurnInput)
    (p : RelayerProcess) : RelayerProcess :=
  { p with
    channel := (input.offer? args.forwarderConfig).elim p.channel p.channel.trySend
    delivered := Function.update p.delivered i (p.delivered i ++ input.batch?.toList)
    forwarders := Function.update p.forwarders i
      (match forwarderTurn args.forwarderConfig state input with
        | .ok state => .running state
        | .error cause => .panicked cause) }

/-- One step of the process. -/
def processStep (args : Args) (p : RelayerProcess) : ProcessLabel → Option RelayerProcess
  | .setExit => some { p with exit := true }
  | .newHandler =>
      if p.handler = .notStarted then some (newHandler args.blockEngineConfig p) else none
  | .connect => if p.handler = .disconnected then some { p with handler := .connected } else none
  | .disconnect => if p.handler = .connected then some { p with handler := .disconnected } else none
  | .drain n =>
      if p.handler = .disconnected ∨ p.handler = .connected then
        some { p with channel := p.channel.drain n }
      else none
  | .handlerReturns =>
      -- the thread's loop ends only on `exit`
      if p.exit ∧ p.handler = .disconnected then some (p.endHandler .returned) else none
  | .handlerPanics =>
      if p.handler = .disconnected ∨ p.handler = .connected then some (p.endHandler .panicked)
      else none
  | .forwarder i input =>
      match p.forwarders i with
      | .running state =>
          if i < numForwarderThreads ∧ input.trySend = p.channel.answer then
            some (p.turn args i state input)
          else none
      | _ => none
  | .forwarderReturns i =>
      match p.forwarders i with
      | .running _ =>
          if p.exit then some { p with forwarders := Function.update p.forwarders i .returned }
          else none
      | _ => none

/-! ## What one turn can do -/

theorem releaseLoop_error {cfg : ForwarderConfig} {input : TurnInput} {cause : ForwarderPanic} :
    ∀ (batches : List RelayerPacketBatches) (k : Nat) {s : ForwarderState},
      releaseLoop cfg input k batches s = .error cause → cause = .delaySenderClosed := by
  intro batches
  induction batches with
  | nil => intro k s h; cases h
  | cons batch rest ih =>
    intro k s h
    unfold releaseLoop at h
    dsimp only at h
    split at h
    · cases h
    · split at h
      · exact ih (k + 1) h
      · cases h
        rfl

theorem received_releaseLoop {cfg : ForwarderConfig} {input : TurnInput} :
    ∀ (batches : List RelayerPacketBatches) (k : Nat) {s s' : ForwarderState},
      releaseLoop cfg input k batches s = .ok s' → s'.received = s.received := by
  intro batches
  induction batches with
  | nil => intro k s s' h; cases h; rfl
  | cons batch rest ih =>
    intro k s s' h
    unfold releaseLoop at h
    dsimp only at h
    split at h
    · cases h
      rfl
    · split at h
      · have hrest := ih (k + 1) h
        exact hrest
      · cases h

theorem received_receiveBatch {cfg : ForwarderConfig} {input : TurnInput} {s s' : ForwarderState}
    (h : receiveBatch cfg input s = .ok s') :
    s'.received.map RelayerPacketBatches.bankingPacketBatch =
      s.received.map RelayerPacketBatches.bankingPacketBatch ++ input.batch?.toList := by
  unfold receiveBatch at h
  unfold TurnInput.batch?
  cases hrecv : input.recv with
  | timeout => rw [hrecv] at h; cases h; simp
  | disconnected => rw [hrecv] at h; cases h
  | ok bankingPacketBatch =>
    rw [hrecv] at h
    dsimp only at h
    split at h
    · cases h
      simp [ForwarderState.tick]
    · cases hcount : ForwarderMetrics.countOffer _ (numPackets bankingPacketBatch) input.trySend with
      | error e => rw [hcount] at h; cases h
      | ok metrics =>
        rw [hcount] at h
        cases h
        simp [ForwarderState.tick]

/-- A turn that does not panic has taken its batch into the queue. -/
theorem received_forwarderTurn {cfg : ForwarderConfig} {input : TurnInput} {s s' : ForwarderState}
    (h : forwarderTurn cfg s input = .ok s') :
    s'.received.map RelayerPacketBatches.bankingPacketBatch =
      s.received.map RelayerPacketBatches.bankingPacketBatch ++ input.batch?.toList := by
  have hupload : (uploadMetrics input s).received = s.received := by
    unfold uploadMetrics
    dsimp only
    split <;> rfl
  obtain ⟨middle, hreceive, hrelease⟩ := forwarderTurn_eq_ok_iff.mp h
  rw [received_releaseLoop _ _ hrelease, received_receiveBatch hreceive, hupload]

/-- The panic about the block engine needs an enabled mempool and a closed channel. -/
theorem forwarderTurn_blockEngineClosed {cfg : ForwarderConfig} {input : TurnInput}
    {s : ForwarderState} (h : forwarderTurn cfg s input = .error .blockEngineClosed) :
    cfg.disableMempool = false ∧ input.trySend = .closed := by
  rcases bind_eq_error_iff.mp h with hreceive | ⟨middle, -, hrelease⟩
  · unfold receiveBatch at hreceive
    cases hrecv : input.recv with
    | timeout => rw [hrecv] at hreceive; cases hreceive
    | disconnected => rw [hrecv] at hreceive; cases hreceive
    | ok bankingPacketBatch =>
      rw [hrecv] at hreceive
      dsimp only at hreceive
      split at hreceive
      · cases hreceive
      · rename_i hmempool
        refine ⟨by simpa using hmempool, ?_⟩
        cases hanswer : input.trySend with
        | ok => rw [hanswer] at hreceive; cases hreceive
        | full => rw [hanswer] at hreceive; cases hreceive
        | closed => rfl
  · cases releaseLoop_error _ _ hrelease

/-! ## The forwarder survives -/

/-- Every forwarder thread is alive as far as the block engine goes: no `try_send`
is answered `Closed`, none has panicked over it, and what a running thread got is in
its delay queue or has passed it. -/
structure Surviving (args : Args) (p : RelayerProcess) : Prop where
  not_closed : args.disableMempool = false → p.channel.answer ≠ .closed
  not_panicked : ∀ i, p.forwarders i ≠ .panicked .blockEngineClosed
  queued : ∀ i state, p.forwarders i = .running state →
    p.delivered i = state.received.map RelayerPacketBatches.bankingPacketBatch ∧
      state.received = state.sent.map Prod.snd ++ state.bufferedPacketBatches

/-- The forwarder never dies on a missing block engine: as long as `exit` is not set
and the handler thread has not panicked, every forwarder thread survives. -/
def ForwarderSurvives (args : Args) : Prop :=
  ∀ (start : Time) (labels : List ProcessLabel) (p : RelayerProcess),
    runSteps (processStep args) (RelayerProcess.init start) labels = some p →
    p.exit = false → p.handler ≠ .panicked → Surviving args p

/-- The receiving end is dropped only where a handler ended or never was. -/
structure Wired (args : Args) (p : RelayerProcess) : Prop where
  receiver : p.channel.receiverAlive = false →
    p.handler = .absent ∨ p.handler = .returned ∨ p.handler = .panicked
  absent : p.handler = .absent → args.blockEngineConfig = none
  returned : p.handler = .returned → p.exit = true
  panicked : ∀ i, p.forwarders i = .panicked .blockEngineClosed →
    args.disableMempool = false ∧
      (args.blockEngineConfig = none ∨ p.exit = true ∨ p.handler = .panicked)
  queued : ∀ i state, p.forwarders i = .running state →
    p.delivered i = state.received.map RelayerPacketBatches.bankingPacketBatch ∧
      SettledLedger args.forwarderConfig state

/-- A closed channel means that there is no configuration, that `exit` is set, or
that the handler panicked. -/
theorem Wired.of_closed {args : Args} {p : RelayerProcess} (h : Wired args p)
    (hclosed : p.channel.answer = .closed) :
    args.blockEngineConfig = none ∨ p.exit = true ∨ p.handler = .panicked := by
  rcases h.receiver (p.channel.answer_eq_closed_iff.mp hclosed) with habsent | hreturned | hpanicked
  · exact .inl (h.absent habsent)
  · exact .inr (.inl (h.returned hreturned))
  · exact .inr (.inr hpanicked)

theorem wired_init (args : Args) (start : Time) : Wired args (RelayerProcess.init start) where
  receiver := by simp [RelayerProcess.init, Channel.new]
  absent := by simp [RelayerProcess.init]
  returned := by simp [RelayerProcess.init]
  panicked := by simp [RelayerProcess.init]
  queued := by
    intro i state h
    cases h
    exact ⟨rfl, ledger_init _ start, by simp [ForwarderState.init]⟩

theorem wired_newHandler {args : Args} {p : RelayerProcess} (hinv : Wired args p)
    (hstart : p.handler = .notStarted) : Wired args (newHandler args.blockEngineConfig p) := by
  have halive : p.channel.receiverAlive = true := by
    by_contra hgone
    rcases hinv.receiver (by simpa using hgone) with h | h | h <;> rw [hstart] at h <;> cases h
  unfold newHandler
  split
  · rename_i config hconfig
    refine ⟨by simp [halive], by simp, by simp, fun i hi => ?_, hinv.queued⟩
    obtain ⟨hmempool, hnone | hexit | hpanicked⟩ := hinv.panicked i hi
    · exact ⟨hmempool, .inl hnone⟩
    · exact ⟨hmempool, .inr (.inl hexit)⟩
    · rw [hstart] at hpanicked
      cases hpanicked
  · rename_i hconfig
    exact ⟨by simp, fun _ => hconfig, by simp,
      fun i hi => ⟨(hinv.panicked i hi).1, .inl hconfig⟩, hinv.queued⟩

/-- A running handler is neither absent, returned nor panicked. -/
def HandlerPhase.Running (phase : HandlerPhase) : Prop := phase = .disconnected ∨ phase = .connected

theorem wired_of_running {args : Args} {p p' : RelayerProcess} (hinv : Wired args p)
    (hphase : p.handler.Running) (hphase' : p'.handler.Running) (hexit : p'.exit = p.exit)
    (hchannel : p'.channel.receiverAlive = p.channel.receiverAlive)
    (hforwarders : p'.forwarders = p.forwarders) (hdelivered : p'.delivered = p.delivered) :
    Wired args p' := by
  have hnot : ∀ phase, phase = .absent ∨ phase = .returned ∨ phase = .panicked →
      ¬ HandlerPhase.Running phase := by
    rintro phase (rfl | rfl | rfl) (h | h) <;> cases h
  refine ⟨fun hgone => ?_, fun h => ?_, fun h => ?_, ?_, ?_⟩
  · rw [hchannel] at hgone
    exact absurd hphase (hnot _ (hinv.receiver hgone))
  · exact absurd hphase' (hnot _ (.inl h))
  · exact absurd hphase' (hnot _ (.inr (.inl h)))
  · rw [hforwarders, hexit]
    intro i hi
    obtain ⟨hmempool, hnone | hset | hpanicked⟩ := hinv.panicked i hi
    · exact ⟨hmempool, .inl hnone⟩
    · exact ⟨hmempool, .inr (.inl hset)⟩
    · exact absurd hphase (hnot _ (.inr (.inr hpanicked)))
  · rw [hforwarders, hdelivered]
    exact hinv.queued

theorem wired_turn {args : Args} {p : RelayerProcess} {i : Nat} {state : ForwarderState}
    {input : TurnInput} (hinv : Wired args p) (hrunning : p.forwarders i = .running state)
    (hanswer : input.trySend = p.channel.answer) : Wired args (p.turn args i state input) := by
  have halive : (p.turn args i state input).channel.receiverAlive = p.channel.receiverAlive := by
    unfold RelayerProcess.turn
    cases input.offer? args.forwarderConfig <;> simp
  refine ⟨fun hgone => hinv.receiver (halive ▸ hgone), hinv.absent, hinv.returned, ?_, ?_⟩
  · intro j hj
    by_cases hji : j = i
    · subst hji
      simp only [RelayerProcess.turn, Function.update_self] at hj
      split at hj
      · cases hj
      · rename_i cause hturn
        cases hj
        obtain ⟨hmempool, hclosed⟩ := forwarderTurn_blockEngineClosed hturn
        exact ⟨hmempool, hinv.of_closed (hanswer ▸ hclosed)⟩
    · simp only [RelayerProcess.turn, Function.update_of_ne hji] at hj
      exact hinv.panicked j hj
  · intro j state' hj
    by_cases hji : j = i
    · subst hji
      simp only [RelayerProcess.turn, Function.update_self] at hj ⊢
      split at hj
      · rename_i final hturn
        cases hj
        obtain ⟨hdelivered, hledger⟩ := hinv.queued j state hrunning
        exact ⟨by rw [received_forwarderTurn hturn, hdelivered],
          settledLedger_forwarderStep state input state' hledger
            (forwarderStep_eq_some_iff.mpr hturn)⟩
      · cases hj
    · simp only [RelayerProcess.turn, Function.update_of_ne hji] at hj ⊢
      exact hinv.queued j state' hj

/-- A thread that has returned owes nothing. -/
theorem wired_returned {args : Args} {p : RelayerProcess} (hinv : Wired args p) (i : Nat) :
    Wired args { p with forwarders := Function.update p.forwarders i .returned } := by
  have hothers : ∀ {j thread}, Function.update p.forwarders i .returned j = thread →
      thread ≠ .returned → p.forwarders j = thread := by
    intro j thread hj hthread
    by_cases hji : j = i
    · subst hji
      rw [Function.update_self] at hj
      exact absurd hj.symm hthread
    · rwa [Function.update_of_ne hji] at hj
  refine ⟨hinv.receiver, hinv.absent, hinv.returned, ?_, ?_⟩
  · intro j hj
    exact hinv.panicked j (hothers hj (by simp))
  · intro j state hj
    exact hinv.queued j state (hothers hj (by simp))

theorem wired_processStep {args : Args} (p : RelayerProcess) (label : ProcessLabel)
    (p' : RelayerProcess) (hinv : Wired args p) (h : processStep args p label = some p') :
    Wired args p' := by
  cases label with
  | setExit =>
    cases h
    exact ⟨hinv.receiver, hinv.absent, fun _ => rfl,
      fun i hi => ⟨(hinv.panicked i hi).1, .inr (.inl rfl)⟩, hinv.queued⟩
  | newHandler =>
    simp only [processStep] at h
    split at h
    · cases h
      exact wired_newHandler hinv ‹_›
    · cases h
  | connect =>
    simp only [processStep] at h
    split at h
    · cases h
      exact wired_of_running hinv (.inl ‹_›) (.inr rfl) rfl rfl rfl rfl
    · cases h
  | disconnect =>
    simp only [processStep] at h
    split at h
    · cases h
      exact wired_of_running hinv (.inr ‹_›) (.inl rfl) rfl rfl rfl rfl
    · cases h
  | drain n =>
    simp only [processStep] at h
    split at h
    · rename_i hphase
      cases h
      exact wired_of_running hinv hphase hphase rfl rfl rfl rfl
    · cases h
  | handlerReturns =>
    simp only [processStep] at h
    split at h
    · rename_i hexit
      cases h
      exact ⟨fun _ => .inr (.inl rfl), by simp [RelayerProcess.endHandler], fun _ => hexit.1,
        fun i hi => ⟨(hinv.panicked i hi).1, .inr (.inl hexit.1)⟩, hinv.queued⟩
    · cases h
  | handlerPanics =>
    simp only [processStep] at h
    split at h
    · cases h
      exact ⟨fun _ => .inr (.inr rfl), by simp [RelayerProcess.endHandler],
        by simp [RelayerProcess.endHandler],
        fun i hi => ⟨(hinv.panicked i hi).1, .inr (.inr rfl)⟩, hinv.queued⟩
    · cases h
  | forwarder i input =>
    simp only [processStep] at h
    split at h
    · rename_i state hrunning
      split at h
      · rename_i hguard
        cases h
        exact wired_turn hinv hrunning hguard.2
      · cases h
    · cases h
  | forwarderReturns i =>
    simp only [processStep] at h
    split at h
    · split at h
      · cases h
        exact wired_returned hinv i
      · cases h
    · cases h

theorem blockEngineConfig_eq_none_iff (args : Args) :
    args.blockEngineConfig = none ↔ args.disableMempool = true ∨ args.blockEngineUrl = none := by
  unfold Args.blockEngineConfig
  cases args.disableMempool <;> cases args.blockEngineUrl <;> simp

/-- With a disabled mempool or a block engine address, the forwarder survives. -/
theorem forwarderSurvives_of_configured {args : Args}
    (hargs : args.disableMempool = true ∨ args.blockEngineUrl.isSome = true) :
    ForwarderSurvives args := by
  intro start labels p hrun hexit hhandler
  have hwired := runSteps_invariant (Wired args) wired_processStep labels (wired_init args start) hrun
  have hmissing : ¬ (args.disableMempool = false ∧
      (args.blockEngineConfig = none ∨ p.exit = true ∨ p.handler = .panicked)) := by
    rintro ⟨hmempool, hnone | hset | hpanicked⟩
    · rcases (blockEngineConfig_eq_none_iff args).mp hnone with hdisabled | hurl
      · simp [hmempool] at hdisabled
      · simp [hmempool, hurl] at hargs
    · rw [hexit] at hset
      cases hset
    · exact hhandler hpanicked
  refine ⟨fun hmempool hclosed => hmissing ⟨hmempool, hwired.of_closed hclosed⟩,
    fun i hi => hmissing (hwired.panicked i hi), fun i state hi => ?_⟩
  obtain ⟨hdelivered, hledger⟩ := hwired.queued i state hi
  exact ⟨hdelivered, hledger.ledger.fifo⟩

/-- A turn that receives an empty batch and finds the channel closed. -/
def closedTurn : TurnInput where
  untilMetricsCheck := 0
  untilUploaded := 0
  recv := .ok []
  untilReceived := 0
  systemTime := 0
  trySend := .closed
  untilCheck := fun _ => 0
  sendOk := fun _ => true

/-- Without a block engine address and with the mempool enabled, the first batch
after `BlockEngineRelayerHandler::new` kills the forwarder. -/
theorem forwarder_panics_of_unconfigured {args : Args} (hmempool : args.disableMempool = false)
    (hurl : args.blockEngineUrl = none) (start : Time) :
    ∃ p, runSteps (processStep args) (RelayerProcess.init start)
        [.newHandler, .forwarder 0 closedTurn] = some p ∧
      p.exit = false ∧ p.handler = .absent ∧ p.forwarders 0 = .panicked .blockEngineClosed := by
  have hconfig : args.blockEngineConfig = none :=
    (blockEngineConfig_eq_none_iff args).mpr (.inr hurl)
  have hturn : forwarderTurn args.forwarderConfig (ForwarderState.init start) closedTurn =
      .error .blockEngineClosed := by
    simp [forwarderTurn, receiveBatch, closedTurn, Args.forwarderConfig, hmempool,
      ForwarderMetrics.countOffer, bind, Except.bind]
  refine ⟨(newHandler none (RelayerProcess.init start)).turn args 0 (ForwarderState.init start)
    closedTurn, ?_, rfl, rfl, ?_⟩
  · simp only [runSteps, processStep, hconfig, RelayerProcess.init, if_true, Option.bind_some]
    rfl
  · simp [RelayerProcess.turn, hturn]

/-- The forwarder survives every run exactly if the mempool is disabled or a block
engine address is given. -/
theorem forwarderSurvives_iff (args : Args) :
    ForwarderSurvives args ↔
      args.disableMempool = true ∨ args.blockEngineUrl.isSome = true := by
  refine ⟨fun hsurvives => ?_, forwarderSurvives_of_configured⟩
  cases hmempool : args.disableMempool with
  | true => exact .inl rfl
  | false =>
    cases hurl : args.blockEngineUrl with
    | some url => exact .inr rfl
    | none =>
      obtain ⟨p, hrun, hexit, hhandler, hpanicked⟩ := forwarder_panics_of_unconfigured hmempool hurl 0
      have hsurviving := hsurvives 0 _ p hrun hexit (by simp [hhandler])
      exact absurd hpanicked (hsurviving.not_panicked 0)

/-- The default arguments: an enabled mempool and no block engine. -/
theorem not_forwarderSurvives_default :
    ¬ ∀ args : Args, ForwarderSurvives args := by
  intro hall
  obtain ⟨p, hrun, hexit, hhandler, hpanicked⟩ :=
    @forwarder_panics_of_unconfigured ⟨50, none, none, false⟩ rfl rfl 0
  exact (hall _ 0 _ p hrun hexit (by simp [hhandler])).not_panicked 0 hpanicked

end FlowraRelayer.TransactionRelayer
