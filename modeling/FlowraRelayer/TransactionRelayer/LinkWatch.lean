/-
  TransactionRelayer/LinkWatch.lean --- the watchdog of the block engine connection and the
  flag `is_connected_to_block_engine`.

  The block engine answers every heartbeat.  The loop of `handle_packet_stream` notes when
  it last did, and its metrics arm gives the connection up after thirty seconds of silence.
  The flag is set when the drain has ended and cleared when `auth_and_connect` has returned.
  Both stores are steps of their own here, since the web server reads the flag from another
  thread: after a connection is lost the flag stays set for a moment.

  The steps are those of `BlockEngineStream.lean` with one clock.  `Looks` says how far apart
  the metrics ticks are, and how long the thread takes to clear the flag.  `link_watched` is
  the result: neither the flag nor a message on the stream outlives the last answer of the
  block engine by more than the timeout and one tick.

  A thread that panics leaves the flag set; it is the panic hook that then ends the process.

  `lastLook`, `lastSign` and `messages` record what happened; no step reads them.
-/
import FlowraRelayer.TransactionRelayer.BlockEngineStream

set_option autoImplicit false

namespace FlowraRelayer.TransactionRelayer

open FlowraRelayer.Foundation
open FlowraRelayer.Solana
open FlowraRelayer.BlockEngine

variable {timed : TimedCache Pubkey}

/-! ## The flag -/

/-- A message on the packet stream, with the time of the last sign of the block engine. -/
structure LinkMessage where
  sentAt : Time
  lastSign : Time
  update : PacketBatchUpdate

/-- The threads of `BlockEngineStream.lean`, the flag and a clock. -/
structure Link (timed : TimedCache Pubkey) where
  system : StreamSystem timed
  isConnectedToBlockEngine : Bool
  /-- the store to the flag that comes next in the handler thread -/
  pendingStore : Option Bool
  clock : Time
  /-- when the watchdog was last passed, or the loop entered -/
  lastLook : Time
  /-- when the block engine last answered, or the loop was entered -/
  lastSign : Time
  messages : List LinkMessage

def Link.init (timed : TimedCache Pubkey) (start : Time) : Link timed where
  system := StreamSystem.init timed start
  isConnectedToBlockEngine := false
  pendingStore := none
  clock := start
  lastLook := start
  lastSign := start
  messages := []

/-- The steps of the handler thread. -/
def StreamLabel.ofHandler : StreamLabel → Bool
  | .handler _ | .tryRecv | .recv _ _ _ | .handlerReturns => true
  | _ => false

/-- The steps with which the handler thread serves an arm, or connects. -/
def StreamLabel.inCall : StreamLabel → Bool
  | .handler _ | .recv _ _ _ => true
  | _ => false

/-- The store that follows a step of the handler thread. -/
def storeAfter (s s' : StreamSystem timed) : StreamLabel → Option Bool
  | .handler _ | .recv _ _ _ =>
      -- `auth_and_connect` has returned
      match s'.handler with
      | .idle => some false
      | _ => none
  | .tryRecv => if s'.draining then none else some true
  -- the loop of a connection ends on the exit flag
  | .handlerReturns => s.serving?.map fun _ => false
  | _ => none

/-- The step passes the watchdog, or enters the loop. -/
def looks (s' : StreamSystem timed) : StreamLabel → Bool
  | .handler (.arm _ .metrics) => s'.serving?.isSome
  | .tryRecv => !s'.draining
  | _ => false

/-- What the connection has sent. -/
def StreamSystem.sent (s : StreamSystem timed) : List PacketBatchUpdate :=
  (s.serving?.map (·.sent)).getD []

/-- What a step leaves in the record. -/
def Link.record (l : Link timed) (now : Time) (label : StreamLabel) (system : StreamSystem timed) :
    Link timed where
  system := system
  isConnectedToBlockEngine := l.isConnectedToBlockEngine
  pendingStore := if label.ofHandler then storeAfter l.system system label else l.pendingStore
  clock := now
  lastLook := if looks system label then now else l.lastLook
  lastSign := (system.serving?.map (·.lastResponseAt)).getD l.lastSign
  messages := l.messages ++
    (system.sent.drop l.system.sent.length).map fun update => ⟨now, l.lastSign, update⟩

inductive LinkStep where
  | system (label : StreamLabel)
  | store

/-- A step with its time. -/
structure LinkLabel where
  now : Time
  step : LinkStep

/-- The clock reading of a step.  The one with which the loop starts is taken at the end of
the drain. -/
def clockReading (s : StreamSystem timed) : StreamLabel → Option Time
  | .handler (.arm time _) | .handler (.refresh time _ _ _) | .recv time _ _ => some time
  | .tryRecv =>
      match s.channel.queue, s.handler with
      | [], .streaming _ stream => some stream.now
      | _, _ => none
  | _ => none

/-- One step of the threads, or of the flag. -/
def linkStep (env : ClientEnv) (keypair : Keypair) (cfg : StreamConfig)
    (forwarderCfg : ForwarderConfig) (l : Link timed) (label : LinkLabel) : Option (Link timed) :=
  if l.clock ≤ label.now then
    match label.step with
    | .system step =>
        if (∀ time ∈ clockReading l.system step, time = label.now) ∧
            (step.ofHandler = true → l.pendingStore = none) then
          (systemStep env keypair cfg forwarderCfg l.system step).map (l.record label.now step)
        else none
    | .store =>
        l.pendingStore.map fun value =>
          { l with
            clock := label.now
            isConnectedToBlockEngine := value
            pendingStore := none }
  else none

/-- The flag is set, or about to be. -/
def Link.up (l : Link timed) : Prop :=
  l.isConnectedToBlockEngine = true ∨ l.pendingStore = some true

instance (l : Link timed) : Decidable l.up :=
  inferInstanceAs (Decidable (_ ∨ _))

/-- While the flag is set, the watchdog is passed at least every `tick`. -/
def Looks (tick : Time) (l : Link timed) (label : LinkLabel) : Prop :=
  l.up → label.now ≤ l.lastLook + tick

instance (tick : Time) (l : Link timed) (label : LinkLabel) : Decidable (Looks tick l label) :=
  inferInstanceAs (Decidable (_ → _))

/-! ## What a step does to the connection -/

/-- The steps of the threads, by what they do to the connection. -/
inductive ConnectionMove (cfg : StreamConfig) (s s' : StreamSystem timed) : StreamLabel → Prop where
  /-- another thread moves -/
  | other {label : StreamLabel} (hlabel : label.ofHandler = false)
      (hhandler : s'.handler = s.handler) (hdraining : s'.draining = s.draining) :
      ConnectionMove cfg s s' label
  /-- the last stream opens, and the drain begins -/
  | opens {label : HandlerLabel} {tokens : Tokens} {now : Time}
      (hbefore : ∀ tokens stream, s.handler ≠ .streaming tokens stream)
      (halive : s.handler.panic = none)
      (hhandler : s'.handler = .streaming tokens (StreamState.new timed cfg now))
      (hdraining : s'.draining = true) : ConnectionMove cfg s s' (.handler label)
  /-- the drain goes on -/
  | drains (hbefore : s.draining = true) (hhandler : s'.handler = s.handler)
      (hdraining : s'.draining = true) : ConnectionMove cfg s s' .tryRecv
  /-- the drain ends -/
  | drained (hbefore : s.draining = true) (hqueue : s.channel.queue = [])
      (hhandler : s'.handler = s.handler) (hdraining : s'.draining = false) :
      ConnectionMove cfg s s' .tryRecv
  /-- the loop serves an arm -/
  | turns {label : StreamLabel} {now : Time} {arm : Arm} {tokens tokens' : Tokens}
      {stream stream' : StreamState timed} (hlabel : label.inCall = true)
      (hreads : clockReading s label = some now)
      (hmetrics : ∀ time, label = .handler (.arm time .metrics) → arm = .metrics)
      (hbefore : s.draining = false) (hserves : s.handler = .streaming tokens stream)
      (harm : handleArm cfg { stream with now } arm = .ok stream')
      (hhandler : s'.handler = .streaming tokens' stream') (hdraining : s'.draining = false) :
      ConnectionMove cfg s s' label
  /-- the thread is in no connection afterwards, and if it was in one before, it clears the
  flag next or has panicked -/
  | leaves {label : StreamLabel} (hlabel : label.ofHandler = true) (hrecv : label ≠ .tryRecv)
      (halive : s.handler.panic = none)
      (hafter : ∀ tokens stream, s'.handler ≠ .streaming tokens stream)
      (hdraining : s'.draining = false)
      (hclears : s.serving?.isSome = true →
        storeAfter s s' label = some false ∨ s'.handler.panic.isSome = true) :
      ConnectionMove cfg s s' label

section Moves

variable {env : ClientEnv} {keypair : Keypair} {cfg : StreamConfig}
  {forwarderCfg : ForwarderConfig} {s s' : StreamSystem timed} {handler handler' : HandlerState timed}

theorem ofHandler_of_inCall {label : StreamLabel} (h : label.inCall = true) :
    label.ofHandler = true := by
  cases label with
  | handler | recv => rfl
  | setExit | forwarder | forwarderReturns | tryRecv | handlerReturns => cases h

/-- A connection begins with a new loop. -/
theorem new_of_handlerStep {label : HandlerLabel} {tokens : Tokens} {stream : StreamState timed}
    (hbefore : ∀ tokens stream, handler ≠ .streaming tokens stream)
    (hstep : handlerStep env keypair cfg handler label = some (.streaming tokens stream)) :
    ∃ now, stream = StreamState.new timed cfg now := by
  cases handler with
  | idle =>
    cases label with
    | connect =>
      simp only [handlerStep] at hstep
      split at hstep
      · cases hstep
      · rename_i failure _
        cases failure <;> cases hstep
    | openStream | refresh | arm => cases hstep
  | opening tokens opened =>
    cases label with
    | openStream now answer =>
      simp only [handlerStep] at hstep
      split at hstep
      · split at hstep
        · cases hstep
        · cases hstep
          exact ⟨now, rfl⟩
      · rename_i failure _
        cases failure <;> cases hstep
    | connect | refresh | arm => cases hstep
  | streaming tokens stream => exact absurd rfl (hbefore tokens stream)
  | panicked site => cases label <;> cases hstep

variable (s) in
/-- A step inside a connection serves an arm at the time it reads, or ends the connection. -/
theorem turn_of_handlerStep {label : HandlerLabel} {tokens : Tokens} {stream : StreamState timed}
    (hstep : handlerStep env keypair cfg (.streaming tokens stream) label = some handler') :
    (∃ now arm tokens' stream', clockReading s (.handler label) = some now ∧
      (∀ time, label = .arm time .metrics → arm = .metrics) ∧
      handleArm cfg { stream with now } arm = .ok stream' ∧
      handler' = .streaming tokens' stream') ∨
    handler' = .idle ∨ handler'.panic.isSome = true := by
  have hafter : ∀ {now : Time} {arm : Arm} {tokens' : Tokens},
      clockReading s (.handler label) = some now →
      (∀ time, label = .arm time .metrics → arm = .metrics) →
      handler' = .afterArm tokens' (handleArm cfg { stream with now } arm) →
      (∃ now arm tokens' stream', clockReading s (.handler label) = some now ∧
        (∀ time, label = .arm time .metrics → arm = .metrics) ∧
        handleArm cfg { stream with now } arm = .ok stream' ∧
        handler' = .streaming tokens' stream') ∨
      handler' = .idle ∨ handler'.panic.isSome = true := by
    intro now arm tokens' hreads hmetrics heq
    cases harm : handleArm cfg { stream with now } arm with
    | ok stream' =>
      rw [harm] at heq
      exact .inl ⟨now, arm, tokens', stream', hreads, hmetrics, harm, heq⟩
    | error e =>
      rw [harm] at heq
      exact .inr (.inl heq)
  cases label with
  | connect | openStream => cases hstep
  | refresh now authClient accessNow refreshNow =>
    simp only [handlerStep, Option.ite_none_right_eq_some, Option.some.injEq, refreshArm] at hstep
    obtain ⟨-, hstep⟩ := hstep
    split at hstep
    · subst hstep
      exact .inr (.inr rfl)
    · exact hafter rfl (fun _ h => by cases h) hstep.symm
    · exact hafter rfl (fun _ h => by cases h) hstep.symm
  | arm now arm =>
    obtain ⟨-, heq⟩ := eq_afterArm_of_handlerStep hstep
    refine hafter rfl ?_ heq
    rintro time ⟨⟩
    rfl

theorem handler_moveHandler : (s.moveHandler handler).handler = handler := by
  unfold StreamSystem.moveHandler
  split <;> rfl

/-- Only a connection that begins starts a drain. -/
theorem draining_moveHandler
    (h : (∀ tokens stream, handler ≠ .streaming tokens stream) ∨
      ∃ tokens stream, s.handler = .streaming tokens stream) :
    (s.moveHandler handler).draining = s.draining := by
  unfold StreamSystem.moveHandler
  split
  · rfl
  · rename_i hnot
    rcases h with hclosed | ⟨tokens, stream, hserves⟩
    · exact absurd rfl (hclosed _ _)
    · exact absurd hserves (hnot tokens stream)
  · rfl
  · rfl

/-- A step of the handler that is not in a connection. -/
theorem move_of_closed {label : HandlerLabel} (hdraining : s.draining = false)
    (hclosed : ∀ tokens stream, s.handler ≠ .streaming tokens stream)
    (hstep : handlerStep env keypair cfg s.handler label = some handler) :
    ConnectionMove cfg s (s.moveHandler handler) (.handler label) := by
  have halive := panic_eq_none_of_handlerStep hstep
  have hnone : s.serving? = none := serving?_of_not_streaming hclosed
  cases handler with
  | streaming tokens stream =>
    obtain ⟨now, rfl⟩ := new_of_handlerStep hclosed hstep
    refine .opens hclosed halive handler_moveHandler ?_
    unfold StreamSystem.moveHandler
    split
    · rename_i hserves heq
      exact absurd hserves (hclosed _ _)
    · rfl
    · rename_i heq
      cases heq
    · rename_i hnot hnotPanicked _
      exact (hnot _ _ rfl).elim
  | idle | opening | panicked =>
    refine .leaves rfl (fun h => nomatch h) halive ?_ ?_ ?_
    · intro tokens stream
      rw [handler_moveHandler]
      exact fun h => nomatch h
    · rw [draining_moveHandler (.inl fun _ _ => by simp), hdraining]
    · intro hsome
      rw [hnone] at hsome
      cases hsome

/-- A step of the handler in a connection. -/
theorem move_of_streaming {label : StreamLabel} {step : HandlerLabel} {tokens : Tokens}
    {stream : StreamState timed} (hlabel : label.inCall = true)
    (hreads : clockReading s label = clockReading s (.handler step))
    (hmetrics : ∀ time, label = .handler (.arm time .metrics) → step = .arm time .metrics)
    (hidle : s'.handler = .idle → storeAfter s s' label = some false)
    (hdraining : s.draining = false) (hserves : s.handler = .streaming tokens stream)
    (hstep : handlerStep env keypair cfg s.handler step = some handler)
    (hhandler : s'.handler = handler) (hdraining' : s'.draining = false) :
    ConnectionMove cfg s s' label := by
  rw [hserves] at hstep
  have halive : s.handler.panic = none := by rw [hserves]; rfl
  have hthread := ofHandler_of_inCall hlabel
  have hrecv : label ≠ .tryRecv := by
    rintro rfl
    cases hlabel
  rcases turn_of_handlerStep s hstep with ⟨now, arm, tokens', stream', htime, harms, harm, rfl⟩ |
    rfl | hpanic
  · exact .turns hlabel (hreads.trans htime) (fun time h => harms time (hmetrics time h)) hdraining
      hserves harm hhandler hdraining'
  · refine .leaves hthread hrecv halive ?_ hdraining' fun _ => .inl (hidle hhandler)
    intro tokens' stream'
    rw [hhandler]
    exact fun h => nomatch h
  · refine .leaves hthread hrecv halive ?_ hdraining' fun _ => .inr ?_
    · intro tokens' stream' h
      rw [← hhandler, h] at hpanic
      cases hpanic
    · rw [hhandler]
      exact hpanic

/-- The arms of the loop are served in a connection. -/
theorem streaming_of_arm {now : Time} {arm : Arm}
    (hstep : handlerStep env keypair cfg handler (.arm now arm) = some handler') :
    ∃ tokens stream, handler = .streaming tokens stream := by
  cases handler with
  | streaming tokens stream => exact ⟨tokens, stream, rfl⟩
  | idle | opening | panicked => cases hstep

theorem handler_serve {entry : Enqueued} {now : Time} {cache : LookupTableCache} {tokens : Tokens}
    {stream : StreamState timed} (hserves : s.handler = .streaming tokens stream) :
    (s.serve entry now cache handler).handler = handler ∧
      (s.serve entry now cache handler).draining = s.draining := by
  unfold StreamSystem.serve
  split
  · exact ⟨rfl, rfl⟩
  · exact ⟨handler_moveHandler, draining_moveHandler (.inr ⟨tokens, stream, hserves⟩)⟩

theorem handler_forward (state : ForwarderState) (input : TurnInput) :
    (s.forward forwarderCfg state input).handler = s.handler ∧
      (s.forward forwarderCfg state input).draining = s.draining := by
  unfold StreamSystem.forward
  cases input.offer? forwarderCfg with
  | none => exact ⟨rfl, rfl⟩
  | some batch =>
    simp only [Option.elim_some, StreamSystem.offer]
    split <;> exact ⟨rfl, rfl⟩

theorem move_of_systemStep {label : StreamLabel}
    (hstep : systemStep env keypair cfg forwarderCfg s label = some s') :
    ConnectionMove cfg s s' label := by
  cases label with
  | setExit =>
    cases hstep
    exact .other rfl rfl rfl
  | forwarder input =>
    simp only [systemStep] at hstep
    split at hstep
    · split at hstep
      · cases hstep
        exact .other rfl (handler_forward _ _).1 (handler_forward _ _).2
      · cases hstep
    · cases hstep
  | forwarderReturns =>
    simp only [systemStep] at hstep
    split at hstep
    · cases hstep
      exact .other rfl rfl rfl
    · cases hstep
  | handler label =>
    simp only [systemStep, Option.ite_none_right_eq_some, Option.map_eq_some_iff] at hstep
    obtain ⟨⟨-, hdraining, -⟩, handler, hhandler, rfl⟩ := hstep
    cases hbefore : s.handler with
    | idle | opening | panicked =>
      refine move_of_closed hdraining ?_ hhandler
      intro tokens stream
      rw [hbefore]
      rintro ⟨⟩
    | streaming tokens stream =>
      refine move_of_streaming rfl rfl ?_ ?_ hdraining hbefore hhandler handler_moveHandler ?_
      · rintro time ⟨⟩
        rfl
      · intro hidle
        simp only [storeAfter, hidle]
      · rw [draining_moveHandler (.inr ⟨tokens, stream, hbefore⟩), hdraining]
  | tryRecv =>
    simp only [systemStep, Option.ite_none_right_eq_some] at hstep
    obtain ⟨⟨-, hdraining⟩, hstep⟩ := hstep
    split at hstep
    · cases hstep
      exact .drains hdraining rfl hdraining
    · rename_i hqueue
      cases hstep
      exact .drained hdraining hqueue rfl rfl
  | recv now cache sendOk =>
    simp only [systemStep, Option.ite_none_right_eq_some] at hstep
    obtain ⟨⟨-, hdraining⟩, hstep⟩ := hstep
    split at hstep
    · obtain ⟨handler, hhandler, rfl⟩ := Option.map_eq_some_iff.mp hstep
      obtain ⟨tokens, stream, hserves⟩ := streaming_of_arm hhandler
      obtain ⟨hafter, hstill⟩ := handler_serve hserves
      refine move_of_streaming rfl rfl (by rintro _ ⟨⟩) ?_ hdraining hserves hhandler hafter
        (hstill.trans hdraining)
      intro hidle
      simp only [storeAfter, hidle]
    · split at hstep
      · cases hstep
      · obtain ⟨handler, hhandler, rfl⟩ := Option.map_eq_some_iff.mp hstep
        obtain ⟨tokens, stream, hserves⟩ := streaming_of_arm hhandler
        refine move_of_streaming rfl rfl (by rintro _ ⟨⟩) ?_ hdraining hserves hhandler
          handler_moveHandler ?_
        · intro hidle
          simp only [storeAfter, hidle]
        · rw [draining_moveHandler (.inr ⟨tokens, stream, hserves⟩), hdraining]
  | handlerReturns =>
    simp only [systemStep, Option.ite_none_right_eq_some] at hstep
    obtain ⟨⟨-, -, hdraining, hchecks⟩, hstep⟩ := hstep
    cases hstep
    refine .leaves rfl (by rintro ⟨⟩) ?_ (by rintro _ _ ⟨⟩) hdraining ?_
    · cases hbefore : s.handler with
      | panicked site =>
        rw [hbefore] at hchecks
        cases hchecks
      | idle | opening | streaming => rfl
    · intro hserves
      obtain ⟨stream, hstream⟩ := Option.isSome_iff_exists.mp hserves
      left
      simp only [storeAfter, hstream, Option.map_some]

theorem serving?_congr (hhandler : s'.handler = s.handler) (hdraining : s'.draining = s.draining) :
    s'.serving? = s.serving? := by
  unfold StreamSystem.serving?
  rw [hhandler, hdraining]

end Moves

/-! ## How old the last answer can be -/

/-- What is known of the flag and of the messages. -/
structure LinkWatched (tick : Time) (l : Link timed) : Prop where
  /-- while the flag is set, the last answer is not older than this -/
  fresh : l.isConnectedToBlockEngine = true →
    l.clock ≤ l.lastSign + blockEngineResponseTimeout + tick
  /-- the flag says that a connection is served, is about to be cleared, or the thread has
  panicked -/
  meaning : l.isConnectedToBlockEngine = true →
    l.system.serving?.isSome = true ∨ l.pendingStore = some false ∨
      l.system.handler.panic.isSome = true
  /-- a message goes out on a connection that has answered as recently -/
  messages : ∀ message ∈ l.messages,
    message.sentAt ≤ message.lastSign + blockEngineResponseTimeout + tick

/-- What holds in every state. -/
structure LinkInv (cfg : StreamConfig) (tick : Time) (l : Link timed) : Prop where
  signed : l.lastSign ≤ l.clock
  /-- the watchdog was passed with an answer in time, and not long ago -/
  looked : l.up → l.lastLook ≤ l.lastSign + blockEngineResponseTimeout ∧
    l.clock ≤ l.lastLook + tick
  draining : l.system.draining = true → ∃ tokens now,
    l.system.handler = .streaming tokens (StreamState.new timed cfg now)
  serving : ∀ stream, l.system.serving? = some stream → l.lastSign = stream.lastResponseAt ∧
    (l.pendingStore = some true ∨ l.pendingStore = none ∧ l.isConnectedToBlockEngine = true)
  storing : l.pendingStore = some true → l.system.serving?.isSome = true
  flag : l.isConnectedToBlockEngine = true →
    l.system.serving?.isSome = true ∨ l.pendingStore = some false ∨
      l.system.handler.panic.isSome = true
  messages : ∀ message ∈ l.messages,
    message.sentAt ≤ message.lastSign + blockEngineResponseTimeout + tick

section Invariant

variable {cfg : StreamConfig} {tick : Time} {l l' : Link timed} {now : Time} {label : StreamLabel}
  {s' : StreamSystem timed}

theorem linkInv_init (start : Time) : LinkInv cfg tick (Link.init timed start) where
  signed := Nat.le_refl _
  looked := by
    rintro (h | h)
    · cases h
    · cases h
  draining := fun h => by cases h
  serving := fun stream h => by cases h
  storing := fun h => by cases h
  flag := fun h => by cases h
  messages := fun message h => by cases h

theorem LinkInv.watched (h : LinkInv cfg tick l) : LinkWatched tick l where
  fresh := by
    intro hflag
    obtain ⟨hlook, hclock⟩ := h.looked (.inl hflag)
    exact hclock.trans (Nat.add_le_add_right hlook tick)
  meaning := h.flag
  messages := h.messages

/-- The watchdog is still in time at the next step. -/
theorem LinkInv.in_time (h : LinkInv cfg tick l) (hup : l.up) (hlooks : now ≤ l.lastLook + tick) :
    now ≤ l.lastSign + blockEngineResponseTimeout + tick :=
  hlooks.trans (Nat.add_le_add_right (h.looked hup).1 tick)

theorem lastSign_record_of_closed (hclosed : s'.serving? = none) :
    (l.record now label s').lastSign = l.lastSign := by
  simp only [Link.record, hclosed, Option.map_none, Option.getD_none]

theorem messages_record_of_closed (hclosed : s'.serving? = none) :
    (l.record now label s').messages = l.messages := by
  simp only [Link.record, StreamSystem.sent, hclosed, Option.map_none, Option.getD_none,
    List.drop_nil, List.map_nil, List.append_nil]

/-- A step of another thread. -/
theorem linkInv_other (h : LinkInv cfg tick l) (hnow : l.clock ≤ now)
    (hlooks : l.up → now ≤ l.lastLook + tick) (hlabel : label.ofHandler = false)
    (hhandler : s'.handler = l.system.handler) (hdraining : s'.draining = l.system.draining) :
    LinkInv cfg tick (l.record now label s') := by
  have hserving := serving?_congr hhandler hdraining
  have hpending : (l.record now label s').pendingStore = l.pendingStore := by
    simp only [Link.record, hlabel]
    rfl
  have hsign : (l.record now label s').lastSign = l.lastSign := by
    simp only [Link.record, hserving]
    cases hstream : l.system.serving? with
    | none => rfl
    | some stream => exact (h.serving stream hstream).1.symm
  have hlook : (l.record now label s').lastLook = l.lastLook := by
    have hsilent : looks s' label = false := by
      cases label with
      | setExit | forwarder | forwarderReturns => rfl
      | handler | tryRecv | recv | handlerReturns => cases hlabel
    simp only [Link.record, hsilent]
    rfl
  have hmessages : (l.record now label s').messages = l.messages := by
    simp only [Link.record, StreamSystem.sent, hserving, List.drop_length, List.map_nil,
      List.append_nil]
  have hup : (l.record now label s').up ↔ l.up := by
    unfold Link.up
    rw [hpending]
    rfl
  refine ⟨?_, ?_, ?_, ?_, ?_, ?_, ?_⟩
  · rw [hsign]
    exact h.signed.trans hnow
  · intro hyes
    rw [hsign, hlook]
    exact ⟨(h.looked (hup.mp hyes)).1, hlooks (hup.mp hyes)⟩
  · intro hyes
    rw [show (l.record now label s').system.handler = l.system.handler from hhandler]
    exact h.draining (hdraining ▸ hyes)
  · intro stream hstream
    rw [hsign, hpending]
    exact h.serving stream (hserving ▸ hstream)
  · intro hyes
    rw [show (l.record now label s').system.serving? = l.system.serving? from hserving]
    exact h.storing (hpending ▸ hyes)
  · intro hyes
    rw [hpending, show (l.record now label s').system.serving? = l.system.serving? from hserving,
      show (l.record now label s').system.handler = l.system.handler from hhandler]
    exact h.flag hyes
  · rw [hmessages]
    exact h.messages

theorem looks_of_closed (hclosed : s'.serving? = none) (hrecv : label ≠ .tryRecv) :
    looks s' label = false := by
  unfold looks
  split
  · rw [hclosed]
    rfl
  · exact absurd rfl hrecv
  · rfl

theorem storeAfter_ne_true {s : StreamSystem timed} (hrecv : label ≠ .tryRecv) :
    storeAfter s s' label ≠ some true := by
  cases label with
  | handler | recv =>
    simp only [storeAfter]
    split
    · exact fun h => nomatch h
    · exact fun h => nomatch h
  | tryRecv => exact absurd rfl hrecv
  | handlerReturns =>
    simp only [storeAfter]
    cases s.serving? with
    | none => exact fun h => nomatch h
    | some stream => exact fun h => nomatch h
  | setExit | forwarder | forwarderReturns => exact fun h => nomatch h

/-- A step of the handler thread after which no connection is served. -/
theorem linkInv_closed (h : LinkInv cfg tick l) (hnow : l.clock ≤ now)
    (hlooks : l.up → now ≤ l.lastLook + tick) (hlabel : label.ofHandler = true)
    (hclosed : s'.serving? = none) (hblind : looks s' label = false)
    (hstore : storeAfter l.system s' label ≠ some true)
    (hdraining : s'.draining = true → ∃ tokens now,
      s'.handler = .streaming tokens (StreamState.new timed cfg now))
    (hflag : l.isConnectedToBlockEngine = true →
      storeAfter l.system s' label = some false ∨ s'.handler.panic.isSome = true) :
    LinkInv cfg tick (l.record now label s') := by
  have hpending : (l.record now label s').pendingStore = storeAfter l.system s' label := by
    simp only [Link.record, hlabel, if_true]
  have hlook : (l.record now label s').lastLook = l.lastLook := by
    simp only [Link.record, hblind]
    rfl
  have hsign : (l.record now label s').lastSign = l.lastSign := lastSign_record_of_closed hclosed
  refine ⟨?_, ?_, hdraining, ?_, ?_, ?_, ?_⟩
  · rw [hsign]
    exact h.signed.trans hnow
  · rintro (hyes | hyes)
    · rw [hsign, hlook]
      exact ⟨(h.looked (.inl hyes)).1, hlooks (.inl hyes)⟩
    · exact absurd (hpending ▸ hyes) hstore
  · intro stream hstream
    exact absurd (hclosed.symm.trans hstream) (by simp)
  · intro hyes
    exact absurd (hpending ▸ hyes) hstore
  · intro hyes
    rw [hpending]
    exact .inr (hflag hyes)
  · rw [messages_record_of_closed hclosed]
    exact h.messages

/-- Outside a connection, and with no store outstanding, the flag is clear. -/
theorem LinkInv.not_connected (h : LinkInv cfg tick l) (hfree : l.pendingStore = none)
    (hclosed : l.system.serving? = none) (halive : l.system.handler.panic = none) :
    l.isConnectedToBlockEngine ≠ true := by
  intro hyes
  rcases h.flag hyes with hserves | hpending | hpanic
  · rw [hclosed] at hserves
    cases hserves
  · rw [hfree] at hpending
    cases hpending
  · rw [halive] at hpanic
    cases hpanic

/-- The drain ends: the flag will be set. -/
theorem linkInv_drained (h : LinkInv cfg tick l) (hnow : l.clock ≤ now)
    (hreads : ∀ time ∈ clockReading l.system .tryRecv, time = now)
    (hbefore : l.system.draining = true) (hqueue : l.system.channel.queue = [])
    (hhandler : s'.handler = l.system.handler) (hdraining : s'.draining = false) :
    LinkInv cfg tick (l.record now .tryRecv s') := by
  obtain ⟨tokens, time, hstreaming⟩ := h.draining hbefore
  have htime : time = now := by
    refine hreads time ?_
    simp only [clockReading, hqueue, hstreaming]
    rfl
  subst htime
  have hserving : s'.serving? = some (StreamState.new timed cfg time) :=
    serving?_eq_some_iff.mpr ⟨hdraining, tokens, hhandler.trans hstreaming⟩
  have hpending : (l.record time .tryRecv s').pendingStore = some true := by
    simp only [Link.record, storeAfter, StreamLabel.ofHandler, if_true, hdraining]
    rfl
  have hlook : (l.record time .tryRecv s').lastLook = time := by
    simp only [Link.record, looks, hdraining]
    rfl
  have hsign : (l.record time .tryRecv s').lastSign = time := by
    simp only [Link.record, hserving]
    rfl
  have hmessages : (l.record time .tryRecv s').messages = l.messages := by
    simp only [Link.record, StreamSystem.sent, hserving, Option.map_some, Option.getD_some,
      StreamState.new, List.drop_nil, List.map_nil, List.append_nil]
  refine ⟨?_, ?_, ?_, ?_, ?_, ?_, ?_⟩
  · rw [hsign]
    exact Nat.le_refl time
  · intro _
    rw [hsign, hlook]
    exact ⟨Nat.le_add_right _ _, Nat.le_add_right _ _⟩
  · intro hyes
    exact absurd (hdraining.symm.trans hyes) (by simp)
  · intro stream hstream
    cases hserving.symm.trans hstream
    exact ⟨hsign, .inl hpending⟩
  · intro _
    rw [show (l.record time .tryRecv s').system.serving? = _ from hserving]
    rfl
  · intro _
    rw [show (l.record time .tryRecv s').system.serving? = _ from hserving]
    exact .inl rfl
  · rw [hmessages]
    exact h.messages

/-- What an arm does to the time of the last answer: the arm that reads one sets it, and the
metrics arm goes on only if it is recent enough. -/
theorem lastResponseAt_handleArm {stream stream' : StreamState timed} {arm : Arm}
    (harm : handleArm cfg stream arm = .ok stream') :
    (stream'.lastResponseAt = stream.lastResponseAt ∨ stream'.lastResponseAt = stream.now) ∧
      (arm = .metrics → stream'.lastResponseAt = stream.lastResponseAt ∧
        stream.now ≤ stream.lastResponseAt + blockEngineResponseTimeout) := by
  cases arm with
  | response maybeResponse =>
    refine ⟨?_, by rintro ⟨⟩⟩
    cases maybeResponse with
    | error e => cases harm
    | ok maybeReply =>
      cases maybeReply with
      | none => cases harm
      | some reply =>
        cases harm
        exact .inr rfl
  | heartbeat sendOk =>
    refine ⟨?_, by rintro ⟨⟩⟩
    cases sendOk with
    | false => cases harm
    | true =>
      cases harm
      exact .inl rfl
  | aoi maybeAoi =>
    refine ⟨?_, by rintro ⟨⟩⟩
    simp only [handleArm, bind_eq_ok_iff, pure_eq_ok_iff] at harm
    obtain ⟨_, -, rfl⟩ := harm
    exact .inl rfl
  | poi maybePoi =>
    refine ⟨?_, by rintro ⟨⟩⟩
    simp only [handleArm, bind_eq_ok_iff, pure_eq_ok_iff] at harm
    obtain ⟨_, -, rfl⟩ := harm
    exact .inl rfl
  | batches maybeBatches cache sendOk =>
    refine ⟨?_, by rintro ⟨⟩⟩
    cases maybeBatches with
    | none => cases harm
    | some blockEngineBatches =>
      simp only [handleArm] at harm
      split at harm
      · cases harm
        exact .inl rfl
      · cases sendOk with
        | false => cases harm
        | true =>
          cases harm
          exact .inl rfl
  | authRefresh result =>
    refine ⟨?_, by rintro ⟨⟩⟩
    cases result with
    | error e => cases harm
    | ok didRefresh =>
      cases harm
      exact .inl rfl
  | metrics =>
    simp only [handleArm] at harm
    split at harm
    · cases harm
    · rename_i hrecent
      cases harm
      refine ⟨.inl rfl, fun _ => ⟨rfl, ?_⟩⟩
      rw [Nat.add_comm]
      exact Nat.sub_le_iff_le_add.mp (Nat.le_of_not_lt hrecent)

/-- The loop of a connection serves an arm. -/
theorem linkInv_turns {time : Time} {arm : Arm} {tokens tokens' : Tokens}
    {stream stream' : StreamState timed} (h : LinkInv cfg tick l) (hnow : l.clock ≤ now)
    (hlooks : l.up → now ≤ l.lastLook + tick) (hlabel : label.inCall = true)
    (hfree : l.pendingStore = none) (htime : time = now)
    (hmetrics : ∀ time, label = .handler (.arm time .metrics) → arm = .metrics)
    (hbefore : l.system.draining = false) (hserves : l.system.handler = .streaming tokens stream)
    (harm : handleArm cfg { stream with now := time } arm = .ok stream')
    (hhandler : s'.handler = .streaming tokens' stream') (hdraining : s'.draining = false) :
    LinkInv cfg tick (l.record now label s') := by
  subst htime
  have hserving : l.system.serving? = some stream :=
    serving?_eq_some_iff.mpr ⟨hbefore, tokens, hserves⟩
  have hserving' : s'.serving? = some stream' :=
    serving?_eq_some_iff.mpr ⟨hdraining, tokens', hhandler⟩
  obtain ⟨hsigned, hstate⟩ := h.serving stream hserving
  have hconnected : l.isConnectedToBlockEngine = true := by
    rcases hstate with hpending | ⟨-, hyes⟩
    · rw [hfree] at hpending
      cases hpending
    · exact hyes
  have hpending : (l.record time label s').pendingStore = none := by
    simp only [Link.record, ofHandler_of_inCall hlabel, if_true]
    cases label with
    | handler | recv => simp only [storeAfter, hhandler]
    | setExit | forwarder | forwarderReturns | tryRecv | handlerReturns => cases hlabel
  have hsign : (l.record time label s').lastSign = stream'.lastResponseAt := by
    simp only [Link.record, hserving']
    rfl
  obtain ⟨hanswer, hwatchdog⟩ := lastResponseAt_handleArm harm
  have hlater : l.lastSign ≤ stream'.lastResponseAt := by
    rcases hanswer with heq | heq
    · rw [heq, hsigned]
    · rw [heq]
      exact h.signed.trans hnow
  refine ⟨?_, ?_, ?_, ?_, ?_, ?_, ?_⟩
  · rw [hsign]
    rcases hanswer with heq | heq
    · rw [heq, ← hsigned]
      exact h.signed.trans hnow
    · exact Nat.le_of_eq heq
  · intro _
    obtain ⟨hlook, -⟩ := h.looked (.inl hconnected)
    rw [hsign]
    simp only [Link.record]
    split
    · rename_i hpasses
      refine ⟨?_, Nat.le_add_right _ _⟩
      -- of the steps of the loop only the metrics arm looks
      have hticks : ∃ time, label = .handler (.arm time .metrics) := by
        unfold looks at hpasses
        split at hpasses
        · exact ⟨_, rfl⟩
        · cases hlabel
        · cases hpasses
      obtain ⟨reading, hlabel⟩ := hticks
      obtain ⟨heq, hrecent⟩ := hwatchdog (hmetrics reading hlabel)
      rw [heq]
      exact hrecent
    · exact ⟨hlook.trans (Nat.add_le_add_right hlater _), hlooks (.inl hconnected)⟩
  · intro hyes
    exact absurd (hdraining.symm.trans hyes) (by simp)
  · intro other hother
    cases hserving'.symm.trans hother
    exact ⟨hsign, .inr ⟨hpending, hconnected⟩⟩
  · intro hyes
    rw [hpending] at hyes
    cases hyes
  · intro _
    rw [show (l.record time label s').system.serving? = _ from hserving']
    exact .inl rfl
  · intro message hmessage
    rcases List.mem_append.mp hmessage with hold | hnew
    · exact h.messages message hold
    · obtain ⟨update, -, rfl⟩ := List.mem_map.mp hnew
      exact h.in_time (.inl hconnected) (hlooks (.inl hconnected))

variable {env : ClientEnv} {keypair : Keypair} {forwarderCfg : ForwarderConfig}

theorem linkInv_system (h : LinkInv cfg tick l) (hnow : l.clock ≤ now)
    (hlooks : l.up → now ≤ l.lastLook + tick)
    (hreads : ∀ time ∈ clockReading l.system label, time = now)
    (hturn : label.ofHandler = true → l.pendingStore = none)
    (hstep : systemStep env keypair cfg forwarderCfg l.system label = some s') :
    LinkInv cfg tick (l.record now label s') := by
  cases move_of_systemStep hstep with
  | other hlabel hhandler hdraining => exact linkInv_other h hnow hlooks hlabel hhandler hdraining
  | opens hbefore halive hhandler hdraining =>
    have hclosed := serving?_of_not_streaming hbefore
    refine linkInv_closed h hnow hlooks rfl (serving?_of_draining hdraining)
      (looks_of_closed (serving?_of_draining hdraining) fun h => nomatch h)
      (storeAfter_ne_true fun h => nomatch h) ?_ ?_
    · exact fun _ => ⟨_, _, hhandler⟩
    · exact fun hyes => absurd hyes (h.not_connected (hturn rfl) hclosed halive)
  | drains hbefore hhandler hdraining =>
    obtain ⟨tokens, time, hstreaming⟩ := h.draining hbefore
    have halive : l.system.handler.panic = none := by rw [hstreaming]; rfl
    refine linkInv_closed h hnow hlooks rfl (serving?_of_draining hdraining) ?_ ?_ ?_ ?_
    · simp only [looks, hdraining, Bool.not_true]
    · simp only [storeAfter, hdraining, if_true]
      exact fun h => nomatch h
    · exact fun _ => ⟨tokens, time, hhandler.trans hstreaming⟩
    · exact fun hyes =>
        absurd hyes (h.not_connected (hturn rfl) (serving?_of_draining hbefore) halive)
  | drained hbefore hqueue hhandler hdraining =>
    exact linkInv_drained h hnow hreads hbefore hqueue hhandler hdraining
  | turns hlabel htime hmetrics hbefore hserves harm hhandler hdraining =>
    exact linkInv_turns h hnow hlooks hlabel (hturn (ofHandler_of_inCall hlabel))
      (hreads _ htime) hmetrics hbefore hserves harm hhandler hdraining
  | leaves hlabel hrecv halive hafter hdraining hclears =>
    have hclosed := serving?_of_not_streaming hafter
    refine linkInv_closed h hnow hlooks hlabel hclosed (looks_of_closed hclosed hrecv)
      (storeAfter_ne_true hrecv) ?_ ?_
    · intro hyes
      exact absurd (hdraining.symm.trans hyes) (by simp)
    · intro hyes
      cases hserves : l.system.serving? with
      | none => exact absurd hyes (h.not_connected (hturn hlabel) hserves halive)
      | some stream => exact hclears (by rw [hserves]; rfl)

/-- The handler thread stores the flag. -/
theorem linkInv_store {value : Bool} (h : LinkInv cfg tick l) (hnow : l.clock ≤ now)
    (hlooks : l.up → now ≤ l.lastLook + tick) (hpending : l.pendingStore = some value) :
    LinkInv cfg tick
      { l with clock := now, isConnectedToBlockEngine := value, pendingStore := none } := by
  have hvalue : value = true → l.up := by
    rintro rfl
    exact .inr hpending
  refine ⟨h.signed.trans hnow, ?_, h.draining, ?_, (fun hyes => nomatch hyes), ?_, h.messages⟩
  · rintro (hyes | hyes)
    · have hup := hvalue hyes
      exact ⟨(h.looked hup).1, hlooks hup⟩
    · cases hyes
  · intro stream hstream
    obtain ⟨hsigned, hstate⟩ := h.serving stream hstream
    refine ⟨hsigned, .inr ⟨rfl, ?_⟩⟩
    rcases hstate with htrue | ⟨hnone, -⟩
    · rw [hpending] at htrue
      exact Option.some.inj htrue
    · rw [hpending] at hnone
      cases hnone
  · intro hyes
    cases value with
    | true => exact .inl (h.storing hpending)
    | false => cases hyes

theorem linkInv_step {label : LinkLabel} (h : LinkInv cfg tick l) (hlooks : Looks tick l label)
    (hstep : linkStep env keypair cfg forwarderCfg l label = some l') : LinkInv cfg tick l' := by
  obtain ⟨now, step⟩ := label
  simp only [linkStep, Option.ite_none_right_eq_some] at hstep
  obtain ⟨hnow, hstep⟩ := hstep
  cases step with
  | system step =>
    simp only [Option.ite_none_right_eq_some, Option.map_eq_some_iff] at hstep
    obtain ⟨⟨hreads, hturn⟩, s', hsystem, rfl⟩ := hstep
    exact linkInv_system h hnow hlooks hreads hturn hsystem
  | store =>
    obtain ⟨value, hpending, rfl⟩ := Option.map_eq_some_iff.mp hstep
    exact linkInv_store h hnow hlooks hpending

end Invariant

/-- In every run in which the metrics ticks of the handler come at least every `tick`, the
flag is set and messages go out only within the timeout and one tick of the last answer of
the block engine. -/
theorem link_watched (env : ClientEnv) (keypair : Keypair) (cfg : StreamConfig)
    (forwarderCfg : ForwarderConfig) (tick start : Time) (ls : List LinkLabel) (l : Link timed)
    (hlooks : StepsMeet (linkStep env keypair cfg forwarderCfg) (Looks tick)
      (Link.init timed start) ls)
    (hrun : runSteps (linkStep env keypair cfg forwarderCfg) (Link.init timed start) ls = some l) :
    LinkWatched tick l :=
  (runSteps_invariant_of_meets (LinkInv cfg tick)
    (fun _ _ _ h hlooks hstep => linkInv_step h hlooks hstep) ls (linkInv_init start) hlooks
    hrun).watched

/-- A step at the given second. -/
def stepAt (seconds : Nat) (step : LinkStep) : LinkLabel := ⟨seconds * nanosPerSecond, step⟩

/-- An arm of the loop at the given second. -/
def armAt (seconds : Nat) (arm : Arm) : LinkLabel :=
  stepAt seconds (.system (.handler (.arm (seconds * nanosPerSecond) arm)))

/-- The streams open, and the flag is set. -/
def connectedAtZero : List LinkLabel :=
  openedRun.map (fun label => stepAt 0 (.system (.handler label))) ++
    [stepAt 0 (.system .tryRecv), stepAt 0 .store]

/-- The block engine answers one heartbeat and falls silent.  The connection is given up at
second 40; the flag is still to be cleared when another thread moves. -/
def silentLink : List LinkLabel :=
  connectedAtZero ++
    [ armAt 5 (.heartbeat true)
    , armAt 5 (.response (.ok (some ())))
    , armAt 10 .metrics
    , armAt 20 .metrics
    , armAt 30 .metrics
    , armAt 35 .metrics
    , armAt 35 (.heartbeat true)
    , armAt 40 .metrics
    , stepAt 41 (.system .setExit) ]

theorem link_watched_silent :
    ∃ l : Link (mapCache Pubkey),
      runSteps (linkStep plainClient plainKeypair quietConfig ⟨50, false⟩)
        (Link.init (mapCache Pubkey) 0) silentLink = some l ∧
      l.isConnectedToBlockEngine = true ∧ l.pendingStore = some false ∧
      l.messages.map (fun message => (message.sentAt, message.lastSign)) =
        [(5 * nanosPerSecond, 0), (35 * nanosPerSecond, 5 * nanosPerSecond)] ∧
      LinkWatched (10 * nanosPerSecond) l := by
  have hrun : (runSteps (linkStep plainClient plainKeypair quietConfig ⟨50, false⟩)
      (Link.init (mapCache Pubkey) 0) silentLink).map (fun l =>
        (l.isConnectedToBlockEngine, l.pendingStore,
          l.messages.map fun message => (message.sentAt, message.lastSign))) =
      some (true, some false,
        [(5 * nanosPerSecond, 0), (35 * nanosPerSecond, 5 * nanosPerSecond)]) := by decide
  have hlooks : StepsMeet (linkStep plainClient plainKeypair quietConfig ⟨50, false⟩)
      (Looks (10 * nanosPerSecond)) (Link.init (mapCache Pubkey) 0) silentLink := by
    unfold StepsMeet
    decide
  obtain ⟨l, hl, hvalues⟩ := Option.map_eq_some_iff.mp hrun
  simp only [Prod.mk.injEq] at hvalues
  obtain ⟨hflag, hpending, hmessages⟩ := hvalues
  exact ⟨l, hl, hflag, hpending, hmessages, link_watched _ _ _ _ _ _ _ l hlooks hl⟩

end FlowraRelayer.TransactionRelayer
