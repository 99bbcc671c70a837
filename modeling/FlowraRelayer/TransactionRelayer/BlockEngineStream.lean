/-
  TransactionRelayer/BlockEngineStream.lean --- from the forwarder's `try_send` to the
  block engine's packet stream, over any number of connections.

  The forwarder thread, the channel `block_engine_receiver` and the thread of
  `BlockEngineRelayerHandler` are put together.  Between the third stream and the loop of
  `handle_packet_stream` the handler drains the channel, one `try_recv` at a time, while
  the forwarder goes on sending:

      forwarder, forwarderReturns   a turn of the forwarder's loop, its end
      handler                       a step of `Handler.lean` that leaves the channel alone
      tryRecv                       one pass of the drain loop
      recv                          the arm of the `select!` that takes a batch
      setExit, handlerReturns       the exit flag, and the end of the handler on it

  Every batch carries a number and whether it was sent while there was no connection past
  its drain; no function reads either.  `enqueued`, `consumed`, `served` and `past` record
  what happened.  The reading `now` with which `Handler.lean` starts the loop is the one
  taken after the drain.

  `stream_never_stale` is the result: the drain takes exactly what was sent before it
  ended, and a connection sends what the filter makes of the batches from there on.
-/
import FlowraRelayer.BlockEngine.Handler
import FlowraRelayer.BlockEngine.InterestSpec
import FlowraRelayer.Foundation.Log
import FlowraRelayer.TransactionRelayer.BlockEngineWiring

set_option autoImplicit false

namespace FlowraRelayer.TransactionRelayer

open FlowraRelayer.Foundation
open FlowraRelayer.Solana
open FlowraRelayer.Protos
open FlowraRelayer.BlockEngine

/-! ## State -/

/-- A batch in the channel, with its number in the order of sending.  `disconnected` says
that no connection was past its drain when it was sent. -/
structure Enqueued where
  number : Nat
  batch : BlockEnginePackets
  disconnected : Bool

variable {timed : TimedCache Pubkey}

/-- A batch a connection has taken and filtered, with what `filter_packets` got. -/
structure Served (timed : TimedCache Pubkey) where
  entry : Enqueued
  now : Time
  cache : LookupTableCache
  interest : InterestState timed

/-- What `filter_packets` made of it. -/
def Served.filtered (cfg : StreamConfig) (served : Served timed) : Option ExpiringPacketBatch :=
  (filterPackets cfg.filter served.now served.entry.batch served.cache served.interest).1

/-- A connection past its drain: how many batches had been sent to the channel at the last
`try_recv` of the drain, the batches it served, and what it sent to the block engine. -/
structure Connection (timed : TimedCache Pubkey) where
  start : Nat
  served : List (Served timed)
  sent : List PacketBatchUpdate

/-- The forwarder, the channel and the handler thread. -/
structure StreamSystem (timed : TimedCache Pubkey) where
  exit : Bool
  forwarder : ForwarderThread
  channel : Channel Enqueued
  handler : HandlerState timed
  /-- the streams are open and the drain loop runs -/
  draining : Bool
  /-- `false` once the thread has returned -/
  handlerRunning : Bool
  /-- of the connection past its drain: see `Connection` -/
  start : Nat
  served : List (Served timed)
  /-- the connections that have ended -/
  past : List (Connection timed)
  /-- every batch `try_send` put into the channel -/
  enqueued : List Enqueued
  /-- every batch taken out of the channel -/
  consumed : List Enqueued

namespace StreamSystem

/-- Both threads as they start. -/
def init (timed : TimedCache Pubkey) (start : Time) : StreamSystem timed where
  exit := false
  forwarder := .running (ForwarderState.init start)
  channel := Channel.new blockEngineForwarderQueueCapacity
  handler := .idle
  draining := false
  handlerRunning := true
  start := 0
  served := []
  past := []
  enqueued := []
  consumed := []

/-- The loop of `handle_packet_stream`, if the handler is in it. -/
def serving? (s : StreamSystem timed) : Option (StreamState timed) :=
  match s.draining, s.handler with
  | false, .streaming _ stream => some stream
  | _, _ => none

/-- All connections that came past their drain, in order. -/
def connections (s : StreamSystem timed) : List (Connection timed) :=
  s.past ++ (s.serving?.map fun stream => ⟨s.start, s.served, stream.sent⟩).toList

/-! ## Steps -/

/-- The forwarder offers a batch. -/
def offer (s : StreamSystem timed) (batch : BlockEnginePackets) : StreamSystem timed :=
  let entry : Enqueued := ⟨s.enqueued.length, batch, s.serving?.isNone⟩
  match s.channel.answer with
  | .ok =>
      { s with channel := s.channel.trySend entry, enqueued := s.enqueued ++ [entry] }
  | _ => s

/-- A turn of the forwarder. -/
def forward (cfg : ForwarderConfig) (state : ForwarderState) (input : TurnInput)
    (s : StreamSystem timed) : StreamSystem timed :=
  { (input.offer? cfg).elim s s.offer with
    forwarder :=
      match forwarderTurn cfg state input with
      | .ok state => .running state
      | .error cause => .panicked cause }

/-- The head of the channel is taken. -/
def consume (s : StreamSystem timed) (entry : Enqueued) : StreamSystem timed :=
  { s with channel := s.channel.drain 1, consumed := s.consumed ++ [entry] }

/-- The handler comes to a new state: the last stream opens and the drain starts, a
connection goes on, or it ends. -/
def moveHandler (s : StreamSystem timed) (handler : HandlerState timed) : StreamSystem timed :=
  match s.handler, handler with
  | .streaming _ _, .streaming _ _ => { s with handler }
  | _, .streaming _ _ => { s with handler, draining := true }
  -- a thread that panics takes the receiving end with it
  | _, .panicked _ => { s with handler, past := s.connections, channel := s.channel.dropReceiver }
  | _, _ => { s with handler, past := s.connections }

/-- The handler has served the batch it took, and goes on or gives the connection up. -/
def serve (s : StreamSystem timed) (entry : Enqueued) (now : Time) (cache : LookupTableCache)
    (handler : HandlerState timed) : StreamSystem timed :=
  match s.handler, handler with
  | .streaming _ stream, .streaming _ _ =>
      { s.consume entry with
        handler, served := s.served ++ [⟨entry, now, cache, stream.interest⟩] }
  | _, _ => (s.consume entry).moveHandler handler

end StreamSystem

/-- The arm takes a batch from the channel. -/
def armTakesBatch : Arm → Bool
  | .batches _ _ _ => true
  | _ => false

/-- The step takes a batch from the channel. -/
def takesBatch : HandlerLabel → Bool
  | .arm _ arm => armTakesBatch arm
  | _ => false

/-- The forwarder thread holds the sending end. -/
def ForwarderThread.isRunning : ForwarderThread → Bool
  | .running _ => true
  | _ => false

/-- The handler stands where it looks at the exit flag. -/
def checksExit : HandlerState timed → Bool
  | .idle | .streaming _ _ => true
  | _ => false

/-- The steps of the system. -/
inductive StreamLabel where
  | setExit
  | forwarder (input : TurnInput)
  | forwarderReturns
  | handler (label : HandlerLabel)
  | tryRecv
  | recv (now : Time) (cache : LookupTableCache) (sendOk : Bool)
  | handlerReturns

/-- One step of the system. -/
def systemStep (env : ClientEnv) (keypair : Keypair) (cfg : StreamConfig)
    (forwarderCfg : ForwarderConfig) (s : StreamSystem timed) :
    StreamLabel → Option (StreamSystem timed)
  | .setExit => some { s with exit := true }
  | .forwarder input =>
      match s.forwarder with
      | .running state =>
          if input.trySend = s.channel.answer then some (s.forward forwarderCfg state input)
          else none
      | _ => none
  | .forwarderReturns =>
      if s.exit ∧ s.forwarder.isRunning then some { s with forwarder := .returned } else none
  | .handler label =>
      if s.handlerRunning ∧ s.draining = false ∧ takesBatch label = false then
        (handlerStep env keypair cfg s.handler label).map s.moveHandler
      else none
  | .tryRecv =>
      if s.handlerRunning ∧ s.draining then
        match s.channel.queue with
        | entry :: _ => some (s.consume entry)
        | [] => some { s with draining := false, start := s.enqueued.length, served := [] }
      else none
  | .recv now cache sendOk =>
      if s.handlerRunning ∧ s.draining = false then
        match s.channel.queue with
        | entry :: _ =>
            (handlerStep env keypair cfg s.handler
              (.arm now (.batches (some entry.batch) cache sendOk))).map (s.serve entry now cache)
        | [] =>
            -- `recv` waits while there is a sender
            if s.forwarder.isRunning then none
            else
              (handlerStep env keypair cfg s.handler
                (.arm now (.batches none cache sendOk))).map s.moveHandler
      else none
  | .handlerReturns =>
      if s.exit ∧ s.handlerRunning ∧ s.draining = false ∧ checksExit s.handler then
        some
          { s with
            handler := .idle
            handlerRunning := false
            past := s.connections
            channel := s.channel.dropReceiver }
      else none

/-! ## What the loop sends -/

section Sending

variable {env : ClientEnv} {keypair : Keypair} {cfg : StreamConfig} {tokens tokens' : Tokens}
  {stream stream' : StreamState timed}

/-- The batches among the messages of a connection. -/
def sentBatches (sent : List PacketBatchUpdate) : List ExpiringPacketBatch :=
  sent.filterMap PacketBatchUpdate.batch?

/-- The arm that takes a batch sends what the filter leaves of it. -/
theorem sentBatches_batches {entry : Enqueued} {now : Time} {cache : LookupTableCache}
    {sendOk : Bool}
    (h : handleArm cfg { stream with now } (.batches (some entry.batch) cache sendOk) =
      .ok stream') :
    sentBatches stream'.sent = sentBatches stream.sent ++
      (Served.filtered cfg ⟨entry, now, cache, stream.interest⟩).toList := by
  simp only [handleArm] at h
  unfold Served.filtered
  split at h
  · rename_i hnone
    cases h
    simp [hnone, sentBatches]
  · rename_i batch hsome
    unfold forwardPackets at h
    split at h
    · cases h
      simp [hsome, sentBatches, PacketBatchUpdate.batch?]
    · cases h

/-- The other arms send no batch. -/
theorem sentBatches_handleArm {now : Time} {arm : Arm} (harm : armTakesBatch arm = false)
    (h : handleArm cfg { stream with now } arm = .ok stream') :
    sentBatches stream'.sent = sentBatches stream.sent := by
  obtain ⟨-, hsent, -⟩ | ⟨-, hsent | ⟨_, _, _, rfl, -, -⟩⟩ := handleArm_sends h
  · simp [hsent, sentBatches, PacketBatchUpdate.batch?]
  · rw [hsent]
  · cases harm

/-- A step inside a connection that takes no batch sends none. -/
theorem sentBatches_handlerStep {label : HandlerLabel} (hlabel : takesBatch label = false)
    (h : handlerStep env keypair cfg (.streaming tokens stream) label =
      some (.streaming tokens' stream')) : sentBatches stream'.sent = sentBatches stream.sent := by
  cases label with
  | connect | openStream => cases h
  | refresh now authClient accessNow refreshNow =>
    simp only [handlerStep, Option.ite_none_right_eq_some, Option.some.injEq, refreshArm] at h
    obtain ⟨-, h⟩ := h
    split at h
    · cases h
    · exact sentBatches_handleArm rfl (eq_ok_of_afterArm h)
    · exact sentBatches_handleArm rfl (eq_ok_of_afterArm h)
  | arm now arm =>
    obtain ⟨-, hafter⟩ := eq_afterArm_of_handlerStep h
    exact sentBatches_handleArm hlabel (eq_ok_of_afterArm hafter.symm)

/-- A connection starts with nothing sent. -/
theorem sent_of_opened {handler : HandlerState timed} {label : HandlerLabel}
    (hclosed : ∀ tokens stream, handler ≠ .streaming tokens stream)
    (h : handlerStep env keypair cfg handler label = some (.streaming tokens' stream')) :
    stream'.sent = [] := by
  cases handler with
  | idle =>
    cases label with
    | connect =>
      simp only [handlerStep] at h
      split at h
      · cases h
      · rename_i failure _
        cases failure <;> cases h
    | openStream | refresh | arm => cases h
  | opening tokens opened =>
    cases label with
    | openStream now answer =>
      simp only [handlerStep] at h
      split at h
      · split at h <;> cases h
        rfl
      · rename_i failure _
        cases failure <;> cases h
    | connect | refresh | arm => cases h
  | streaming tokens stream => exact absurd rfl (hclosed tokens stream)
  | panicked site => cases label <;> cases h

end Sending

/-! ## The invariant -/

/-- What a connection did: it served a segment of the batches that were sent to the
channel, from the last `try_recv` of its drain on and all of them sent since then, and it
sent what the filter left of them. -/
structure Connection.Faithful (cfg : StreamConfig) (enqueued : List Enqueued)
    (connection : Connection timed) : Prop where
  bounded : connection.start ≤ enqueued.length
  segment : connection.served.map (·.entry) <+: enqueued.drop connection.start
  connected : ∀ served ∈ connection.served, served.entry.disconnected = false
  sent : sentBatches connection.sent = connection.served.filterMap (Served.filtered cfg)

theorem Connection.Faithful.append {cfg : StreamConfig} {enqueued : List Enqueued}
    {connection : Connection timed} (h : connection.Faithful cfg enqueued)
    (more : List Enqueued) : connection.Faithful cfg (enqueued ++ more) where
  bounded := by
    rw [List.length_append]
    exact h.bounded.trans (Nat.le_add_right _ _)
  segment := prefix_drop_append h.segment h.bounded more
  connected := h.connected
  sent := h.sent

/-- A connection serves the batch that follows its segment. -/
theorem Connection.Faithful.concat {cfg : StreamConfig} {consumed rest : List Enqueued} {start : Nat}
    {served : List (Served timed)} {next : Served timed} {sent sent' : List PacketBatchUpdate}
    (h : Connection.Faithful cfg (consumed ++ next.entry :: rest) ⟨start, served, sent⟩)
    (hlength : consumed.length = start + served.length)
    (hnext : next.entry.disconnected = false)
    (hsent : sentBatches sent' = sentBatches sent ++ (next.filtered cfg).toList) :
    Connection.Faithful cfg (consumed ++ next.entry :: rest)
      ⟨start, served ++ [next], sent'⟩ where
  bounded := h.bounded
  segment := by
    rw [List.map_append, List.map_singleton]
    refine prefix_drop_concat h.segment ?_
    rw [hlength, List.length_map]
  connected := by
    intro other hmem
    rcases List.mem_append.mp hmem with hold | hnew
    · exact h.connected other hold
    · rw [List.mem_singleton.mp hnew]
      exact hnext
  sent := by
    rw [hsent, h.sent, List.filterMap_append]
    rfl

/-- While a connection is served, it has taken everything that was taken since its drain,
and whatever was sent since then was sent while it stood. -/
structure Serving (s : StreamSystem timed) : Prop where
  consumed : s.consumed.length = s.start + s.served.length
  connected : ∀ entry ∈ s.enqueued.drop s.start, entry.disconnected = false

/-- The channel keeps order, and every connection did what it should. -/
structure StreamCore (cfg : StreamConfig) (s : StreamSystem timed) : Prop where
  numbered : s.enqueued.map (·.number) = List.range s.enqueued.length
  fifo : s.consumed ++ s.channel.queue <+: s.enqueued
  lossless : s.channel.receiverAlive = true → s.consumed ++ s.channel.queue = s.enqueued
  alive : s.handlerRunning = true → s.handler.panic = none → s.channel.receiverAlive = true
  opened : s.draining = true → ∃ tokens stream, s.handler = .streaming tokens stream ∧
    stream.sent = []
  faithful : ∀ connection ∈ s.connections, connection.Faithful cfg s.enqueued

/-- What holds in every reachable state. -/
structure StreamInv (cfg : StreamConfig) (s : StreamSystem timed) : Prop
    extends StreamCore cfg s where
  serving : ∀ stream, s.serving? = some stream → Serving s

section Steps

variable {env : ClientEnv} {keypair : Keypair} {cfg : StreamConfig}
  {forwarderCfg : ForwarderConfig} {s s' : StreamSystem timed}

theorem serving?_eq_some_iff {stream : StreamState timed} :
    s.serving? = some stream ↔
      s.draining = false ∧ ∃ tokens, s.handler = .streaming tokens stream := by
  unfold StreamSystem.serving?
  split
  · rename_i hdraining hhandler
    simp [hdraining, hhandler]
  · rename_i hnot
    constructor
    · intro h
      cases h
    · rintro ⟨hdraining, tokens, hhandler⟩
      exact absurd hhandler (hnot tokens stream hdraining)

theorem connections_of_not_serving (h : s.serving? = none) : s.connections = s.past := by
  simp [StreamSystem.connections, h]

theorem mem_connections_of_serving {stream : StreamState timed} (h : s.serving? = some stream)
    {connection : Connection timed} :
    connection ∈ s.connections ↔
      connection ∈ s.past ∨ connection = ⟨s.start, s.served, stream.sent⟩ := by
  simp [StreamSystem.connections, h]

theorem serving?_of_draining (h : s.draining = true) : s.serving? = none := by
  rw [Option.eq_none_iff_forall_ne_some]
  intro stream hserving
  rw [serving?_eq_some_iff, h] at hserving
  cases hserving.1

theorem serving?_of_not_streaming (h : ∀ tokens stream, s.handler ≠ .streaming tokens stream) :
    s.serving? = none := by
  rw [Option.eq_none_iff_forall_ne_some]
  intro stream hserving
  obtain ⟨-, tokens, hhandler⟩ := serving?_eq_some_iff.mp hserving
  exact h tokens stream hhandler

/-- Between two connections nothing is asked of the one that is served. -/
theorem serving_of_none (h : s.serving? = none) :
    ∀ stream, s.serving? = some stream → Serving s := by
  intro stream hserving
  rw [h] at hserving
  cases hserving

theorem streamInv_init (start : Time) : StreamInv cfg (StreamSystem.init timed start) where
  numbered := rfl
  fifo := List.nil_prefix
  lossless := fun _ => rfl
  alive := fun _ _ => rfl
  opened := fun h => by cases h
  faithful := fun connection h => by cases h
  serving := fun stream h => by cases h

/-- Neither the exit flag nor the forwarder's own variables matter. -/
theorem streamInv_frame (hinv : StreamInv cfg s) (exit : Bool) (forwarder : ForwarderThread) :
    StreamInv cfg { s with exit, forwarder } :=
  { hinv with
    serving := fun stream hserving =>
      ⟨(hinv.serving stream hserving).consumed, (hinv.serving stream hserving).connected⟩ }

/-! ### The forwarder -/

/-- A batch goes into the channel and stands at the end of what was sent, or nothing
happens. -/
theorem streamInv_offer (hinv : StreamInv cfg s) (batch : BlockEnginePackets) :
    StreamInv cfg (s.offer batch) := by
  unfold StreamSystem.offer
  cases hanswer : s.channel.answer with
  | full => exact hinv
  | closed => exact hinv
  | ok =>
    have halive : s.channel.receiverAlive = true := by
      by_contra hgone
      rw [(s.channel.answer_eq_closed_iff).mpr (by simpa using hgone)] at hanswer
      cases hanswer
    have hall := hinv.lossless halive
    have hqueue : ∀ entry, (s.channel.trySend entry).queue = s.channel.queue ++ [entry] := by
      intro entry
      rw [Channel.trySend, hanswer]
    have hlossless : ∀ entry, s.consumed ++ (s.channel.trySend entry).queue =
        s.enqueued ++ [entry] := by
      intro entry
      rw [hqueue, ← List.append_assoc, hall]
    refine ⟨⟨?_, ?_, ?_, ?_, hinv.opened, ?_⟩, ?_⟩
    · simp [hinv.numbered, List.range_succ]
    · exact (hlossless _).symm ▸ List.prefix_rfl
    · exact fun _ => hlossless _
    · exact fun _ _ => by simpa using halive
    · exact fun connection hmem => (hinv.faithful connection hmem).append _
    · intro stream hserving
      have hserving : s.serving? = some stream := hserving
      obtain ⟨hconsumed, hconnected⟩ := hinv.serving stream hserving
      refine ⟨hconsumed, ?_⟩
      have hstart : s.start ≤ s.enqueued.length := by
        rw [← hall, List.length_append]
        omega
      intro entry hentry
      rw [List.drop_append_of_le_length hstart] at hentry
      rcases List.mem_append.mp hentry with hold | hnew
      · exact hconnected entry hold
      · rw [List.mem_singleton.mp hnew, hserving]
        rfl

theorem streamInv_forward (hinv : StreamInv cfg s) (state : ForwarderState) (input : TurnInput) :
    StreamInv cfg (s.forward forwarderCfg state input) := by
  have hoffer : StreamInv cfg ((input.offer? forwarderCfg).elim s s.offer) := by
    cases input.offer? forwarderCfg with
    | none => exact hinv
    | some batch => exact streamInv_offer hinv batch
  exact streamInv_frame hoffer _ _

/-! ### The channel's other end -/

/-- Taking the head of the channel keeps the order. -/
theorem streamCore_consume (hinv : StreamCore cfg s) {entry : Enqueued} {rest : List Enqueued}
    (hqueue : s.channel.queue = entry :: rest) : StreamCore cfg (s.consume entry) := by
  have hdrained : (s.consume entry).consumed ++ (s.consume entry).channel.queue =
      s.consumed ++ s.channel.queue := by
    simp [StreamSystem.consume, Channel.drain, hqueue]
  exact
    { numbered := hinv.numbered
      fifo := hdrained ▸ hinv.fifo
      lossless := fun halive => hdrained.trans (hinv.lossless halive)
      alive := hinv.alive
      opened := hinv.opened
      faithful := hinv.faithful }

/-- One pass of the drain loop. -/
theorem streamInv_drain (hinv : StreamInv cfg s) (hdraining : s.draining = true)
    {entry : Enqueued} {rest : List Enqueued} (hqueue : s.channel.queue = entry :: rest) :
    StreamInv cfg (s.consume entry) where
  toStreamCore := streamCore_consume hinv.toStreamCore hqueue
  serving := serving_of_none (serving?_of_draining hdraining)

/-- The drain ends at an empty channel: everything that was sent has been taken. -/
theorem streamInv_drained (hinv : StreamInv cfg s) (hrunning : s.handlerRunning = true)
    (hdraining : s.draining = true) (hqueue : s.channel.queue = []) :
    StreamInv cfg { s with draining := false, start := s.enqueued.length, served := [] } := by
  obtain ⟨tokens, stream, hhandler, hsent⟩ := hinv.opened hdraining
  have halive : s.channel.receiverAlive = true := hinv.alive hrunning (by rw [hhandler]; rfl)
  have hall := hinv.lossless halive
  rw [hqueue, List.append_nil] at hall
  have hserving : StreamSystem.serving?
      { s with draining := false, start := s.enqueued.length, served := [] } = some stream :=
    serving?_eq_some_iff.mpr ⟨rfl, tokens, hhandler⟩
  refine ⟨⟨hinv.numbered, hinv.fifo, hinv.lossless, hinv.alive, ?_, ?_⟩, ?_⟩
  · intro h
    cases h
  · intro connection hmem
    rcases (mem_connections_of_serving hserving).mp hmem with hpast | rfl
    · refine hinv.faithful connection ?_
      rw [connections_of_not_serving (serving?_of_draining hdraining)]
      exact hpast
    · exact
        { bounded := Nat.le_refl _
          segment := List.nil_prefix
          connected := fun served h => by cases h
          sent := by rw [hsent]; rfl }
  · intro _ _
    refine ⟨by rw [hall]; rfl, ?_⟩
    intro entry hentry
    rw [List.drop_length] at hentry
    cases hentry

/-! ### The handler -/

/-- A connection that ends joins the past ones. -/
theorem streamInv_leave (hinv : StreamCore cfg s) (hdraining : s.draining = false)
    {handler : HandlerState timed} {channel : Channel Enqueued} {handlerRunning : Bool}
    (hnot : ∀ tokens stream, handler ≠ .streaming tokens stream)
    (hfifo : s.consumed ++ channel.queue <+: s.enqueued)
    (hlossless : channel.receiverAlive = true → s.consumed ++ channel.queue = s.enqueued)
    (halive : handlerRunning = true → handler.panic = none → channel.receiverAlive = true) :
    StreamInv cfg { s with handler, channel, handlerRunning, past := s.connections } := by
  have hnone : StreamSystem.serving?
      { s with handler, channel, handlerRunning, past := s.connections } = none :=
    serving?_of_not_streaming hnot
  refine ⟨⟨hinv.numbered, hfifo, hlossless, halive, ?_, ?_⟩, ?_⟩
  · intro h
    exact absurd (h.symm.trans hdraining) (by simp)
  · intro connection hmem
    rw [connections_of_not_serving hnone] at hmem
    exact hinv.faithful connection hmem
  · exact serving_of_none hnone

theorem fifo_dropReceiver (hinv : StreamCore cfg s) :
    s.consumed ++ s.channel.dropReceiver.queue <+: s.enqueued := by
  have hqueue : s.channel.dropReceiver.queue = [] := rfl
  rw [hqueue, List.append_nil]
  exact (List.prefix_append _ _).trans hinv.fifo

theorem panic_eq_none_of_handlerStep {handler handler' : HandlerState timed} {label : HandlerLabel}
    (h : handlerStep env keypair cfg handler label = some handler') : handler.panic = none := by
  cases handler with
  | panicked site => cases label <;> cases h
  | _ => rfl

/-- A connection goes on in a state in which nothing was lost: it may have served one more
batch. -/
theorem streamInv_stay (served : List (Served timed)) {tokens tokens' : Tokens}
    {stream stream' : StreamState timed} (hcore : StreamCore cfg s)
    (hdraining : s.draining = false) (hhandler : s.handler = .streaming tokens stream)
    (hconsumed : s.consumed.length = s.start + served.length)
    (hconnected : ∀ entry ∈ s.enqueued.drop s.start, entry.disconnected = false)
    (hfaithful : Connection.Faithful cfg s.enqueued ⟨s.start, served, stream'.sent⟩) :
    StreamInv cfg { s with handler := .streaming tokens' stream', served } := by
  have hserving : StreamSystem.serving?
      { s with handler := .streaming tokens' stream', served } = some stream' :=
    serving?_eq_some_iff.mpr ⟨hdraining, tokens', rfl⟩
  refine ⟨⟨hcore.numbered, hcore.fifo, hcore.lossless, ?_, ?_, ?_⟩, ?_⟩
  · intro hrunning _
    exact hcore.alive hrunning (by rw [hhandler]; rfl)
  · intro h
    exact absurd (h.symm.trans hdraining) (by simp)
  · intro connection hmem
    rcases (mem_connections_of_serving hserving).mp hmem with hpast | rfl
    · exact hcore.faithful connection (List.mem_append_left _ hpast)
    · exact hfaithful
  · intro _ _
    exact ⟨hconsumed, hconnected⟩

/-- The connection that is served is one of the connections. -/
theorem faithful_of_serving (hcore : StreamCore cfg s) {stream : StreamState timed}
    (hserving : s.serving? = some stream) :
    Connection.Faithful cfg s.enqueued ⟨s.start, s.served, stream.sent⟩ :=
  hcore.faithful _ ((mem_connections_of_serving hserving).mpr (.inr rfl))

/-- A step of the handler that takes no batch. -/
theorem streamInv_moveHandler (hinv : StreamInv cfg s) (hrunning : s.handlerRunning = true)
    (hdraining : s.draining = false) {label : HandlerLabel} {handler : HandlerState timed}
    (hstep : handlerStep env keypair cfg s.handler label = some handler)
    (hsent : ∀ tokens stream tokens' stream', s.handler = .streaming tokens stream →
      handler = .streaming tokens' stream' →
      sentBatches stream'.sent = sentBatches stream.sent) :
    StreamInv cfg (s.moveHandler handler) := by
  have halive := hinv.alive hrunning (panic_eq_none_of_handlerStep hstep)
  unfold StreamSystem.moveHandler
  split
  · rename_i tokens stream tokens' stream' hhandler
    have hserving : s.serving? = some stream :=
      serving?_eq_some_iff.mpr ⟨hdraining, tokens, hhandler⟩
    obtain ⟨hconsumed, hconnected⟩ := hinv.serving stream hserving
    have hfaithful := faithful_of_serving hinv.toStreamCore hserving
    refine streamInv_stay s.served hinv.toStreamCore hdraining hhandler hconsumed
      hconnected { hfaithful with sent := ?_ }
    exact (hsent _ _ _ _ hhandler rfl).trans hfaithful.sent
  · rename_i tokens' stream' hnot
    have hclosed : ∀ tokens stream, s.handler ≠ .streaming tokens stream :=
      fun tokens stream h => hnot tokens stream h
    have hnone : StreamSystem.serving?
        { s with handler := .streaming tokens' stream', draining := true } = none :=
      serving?_of_draining rfl
    refine ⟨⟨hinv.numbered, hinv.fifo, hinv.lossless, fun _ _ => halive, ?_, ?_⟩, ?_⟩
    · exact fun _ => ⟨tokens', stream', rfl, sent_of_opened hclosed hstep⟩
    · intro connection hmem
      rw [connections_of_not_serving hnone] at hmem
      refine hinv.faithful connection ?_
      rw [connections_of_not_serving (serving?_of_not_streaming hclosed)]
      exact hmem
    · exact serving_of_none hnone
  · refine streamInv_leave hinv.toStreamCore hdraining (fun _ _ => by simp)
      (fifo_dropReceiver hinv.toStreamCore) ?_ ?_
    · intro h
      cases h
    · intro _ h
      cases h
  · rename_i hnot hnotPanicked _
    exact streamInv_leave hinv.toStreamCore hdraining hnot hinv.fifo hinv.lossless
      (fun _ _ => halive)

/-- The batch that is served is the next one of the segment. -/
theorem streamInv_served (hinv : StreamInv cfg s) (halive : s.channel.receiverAlive = true)
    (hdraining : s.draining = false) {entry : Enqueued} {rest : List Enqueued}
    (hqueue : s.channel.queue = entry :: rest) {now : Time} {cache : LookupTableCache}
    {sendOk : Bool} {tokens : Tokens} {stream stream' : StreamState timed}
    (hhandler : s.handler = .streaming tokens stream)
    (harm : handleArm cfg { stream with now } (.batches (some entry.batch) cache sendOk) =
      .ok stream') :
    StreamInv cfg (s.serve entry now cache (.streaming tokens stream')) := by
  have hserved : s.serve entry now cache (.streaming tokens stream') =
      { s.consume entry with
        handler := .streaming tokens stream'
        served := s.served ++ [⟨entry, now, cache, stream.interest⟩] } := by
    simp only [StreamSystem.serve, hhandler]
  have hserving : s.serving? = some stream :=
    serving?_eq_some_iff.mpr ⟨hdraining, tokens, hhandler⟩
  obtain ⟨hconsumed, hconnected⟩ := hinv.serving stream hserving
  have hfaithful := faithful_of_serving hinv.toStreamCore hserving
  have hall := hinv.lossless halive
  rw [hqueue] at hall
  rw [hserved]
  refine streamInv_stay _ (streamCore_consume hinv.toStreamCore hqueue) hdraining hhandler ?_
    hconnected ?_
  · simp only [StreamSystem.consume, List.length_append, List.length_singleton, hconsumed]
    omega
  · change Connection.Faithful cfg s.enqueued _
    rw [← hall] at hfaithful ⊢
    refine hfaithful.concat hconsumed ?_ (sentBatches_batches harm)
    refine hconnected entry ?_
    rw [← hall, List.drop_append_of_le_length (by omega)]
    exact List.mem_append_right _ List.mem_cons_self

/-- A connection that ends in the arm takes the batch with it. -/
theorem streamInv_lost (hinv : StreamInv cfg s) (halive : s.channel.receiverAlive = true)
    (hdraining : s.draining = false) {entry : Enqueued} {rest : List Enqueued}
    (hqueue : s.channel.queue = entry :: rest) {now : Time} {cache : LookupTableCache}
    {tokens : Tokens} {stream : StreamState timed}
    (hhandler : s.handler = .streaming tokens stream) :
    StreamInv cfg (s.serve entry now cache .idle) := by
  have hcore := streamCore_consume hinv.toStreamCore hqueue
  have hsame : (s.consume entry).handler = .streaming tokens stream := hhandler
  have hended : s.serve entry now cache .idle =
      { s.consume entry with handler := .idle, past := (s.consume entry).connections } := by
    simp only [StreamSystem.serve, StreamSystem.moveHandler, hhandler, hsame]
  rw [hended]
  exact streamInv_leave hcore hdraining (fun _ _ => by simp) hcore.fifo hcore.lossless
    (fun _ _ => halive)

/-- The arm that takes a batch. -/
theorem streamInv_serve (hinv : StreamInv cfg s) (hrunning : s.handlerRunning = true)
    (hdraining : s.draining = false) {entry : Enqueued} {rest : List Enqueued}
    (hqueue : s.channel.queue = entry :: rest) {now : Time} {cache : LookupTableCache}
    {sendOk : Bool} {handler : HandlerState timed}
    (hstep : handlerStep env keypair cfg s.handler
      (.arm now (.batches (some entry.batch) cache sendOk)) = some handler) :
    StreamInv cfg (s.serve entry now cache handler) := by
  have halive := hinv.alive hrunning (panic_eq_none_of_handlerStep hstep)
  cases hhandler : s.handler with
  | idle | opening | panicked =>
    rw [hhandler] at hstep
    cases hstep
  | streaming tokens stream =>
    rw [hhandler] at hstep
    obtain ⟨-, hafter⟩ := eq_afterArm_of_handlerStep hstep
    cases harm : handleArm cfg { stream with now }
        (.batches (some entry.batch) cache sendOk) with
    | error e =>
      rw [harm] at hafter
      subst hafter
      exact streamInv_lost hinv halive hdraining hqueue hhandler
    | ok stream' =>
      rw [harm] at hafter
      subst hafter
      exact streamInv_served hinv halive hdraining hqueue hhandler harm

/-- Every step keeps the invariant. -/
theorem streamInv_systemStep (hinv : StreamInv cfg s) {label : StreamLabel}
    (hstep : systemStep env keypair cfg forwarderCfg s label = some s') : StreamInv cfg s' := by
  cases label with
  | setExit =>
    cases hstep
    exact streamInv_frame hinv _ _
  | forwarder input =>
    simp only [systemStep] at hstep
    split at hstep
    · split at hstep <;> cases hstep
      exact streamInv_forward hinv _ _
    · cases hstep
  | forwarderReturns =>
    simp only [systemStep] at hstep
    split at hstep <;> cases hstep
    exact streamInv_frame hinv _ _
  | handler label =>
    simp only [systemStep, Option.ite_none_right_eq_some, Option.map_eq_some_iff] at hstep
    obtain ⟨⟨hrunning, hdraining, hlabel⟩, handler, hhandler, rfl⟩ := hstep
    refine streamInv_moveHandler hinv hrunning hdraining hhandler ?_
    intro tokens stream tokens' stream' hbefore hafter
    rw [hbefore, hafter] at hhandler
    exact sentBatches_handlerStep hlabel hhandler
  | tryRecv =>
    simp only [systemStep, Option.ite_none_right_eq_some] at hstep
    obtain ⟨⟨hrunning, hdraining⟩, hstep⟩ := hstep
    split at hstep
    · rename_i hqueue
      cases hstep
      exact streamInv_drain hinv hdraining hqueue
    · rename_i hqueue
      cases hstep
      exact streamInv_drained hinv hrunning hdraining hqueue
  | recv now cache sendOk =>
    simp only [systemStep, Option.ite_none_right_eq_some] at hstep
    obtain ⟨⟨hrunning, hdraining⟩, hstep⟩ := hstep
    split at hstep
    · rename_i hqueue
      obtain ⟨handler, hhandler, rfl⟩ := Option.map_eq_some_iff.mp hstep
      exact streamInv_serve hinv hrunning hdraining hqueue hhandler
    · split at hstep
      · cases hstep
      · obtain ⟨handler, hhandler, rfl⟩ := Option.map_eq_some_iff.mp hstep
        refine streamInv_moveHandler hinv hrunning hdraining hhandler ?_
        intro tokens stream tokens' stream' hbefore hafter
        rw [hbefore, hafter] at hhandler
        cases eq_ok_of_afterArm (eq_afterArm_of_handlerStep hhandler).2.symm
  | handlerReturns =>
    simp only [systemStep, Option.ite_none_right_eq_some, Option.some.injEq] at hstep
    obtain ⟨⟨-, -, hdraining, -⟩, rfl⟩ := hstep
    refine streamInv_leave hinv.toStreamCore hdraining (fun _ _ => by simp)
      (fifo_dropReceiver hinv.toStreamCore) ?_ ?_
    · intro h
      cases h
    · intro h
      cases h

end Steps

/-- In every run, over any number of connections: no batch is taken from the channel twice;
and every connection sends, in the order of sending to the channel, what the filter leaves
of a segment of the batches sent to the channel, which begins where the last `try_recv` of
its drain found the channel empty, so that none of them was sent while there was no
connection. -/
theorem stream_never_stale (env : ClientEnv) (keypair : Keypair) (cfg : StreamConfig)
    (forwarderCfg : ForwarderConfig) (start : Time) (ls : List StreamLabel)
    (s : StreamSystem timed)
    (hrun : runSteps (systemStep env keypair cfg forwarderCfg) (StreamSystem.init timed start) ls =
      some s) :
    (s.consumed <+: s.enqueued ∧ (s.consumed.map (·.number)).Nodup) ∧
      ∀ connection ∈ s.connections,
        connection.served.map (·.entry) <+: s.enqueued.drop connection.start ∧
        sentBatches connection.sent = connection.served.filterMap (Served.filtered cfg) ∧
        ∀ entry ∈ s.enqueued, entry.disconnected = true →
          entry.number ∉ connection.served.map (·.entry.number) := by
  have hinv : StreamInv cfg s :=
    runSteps_invariant (StreamInv cfg) (fun _ _ _ hinv hstep => streamInv_systemStep hinv hstep)
      ls (streamInv_init start) hrun
  have hnodup : (s.enqueued.map (·.number)).Nodup := by
    rw [hinv.numbered]
    exact List.nodup_range
  have hconsumed : s.consumed <+: s.enqueued := (List.prefix_append _ _).trans hinv.fifo
  refine ⟨⟨hconsumed, hnodup.sublist (hconsumed.sublist.map _)⟩, ?_⟩
  intro connection hmem
  have hfaithful := hinv.faithful connection hmem
  refine ⟨hfaithful.segment, hfaithful.sent, ?_⟩
  intro entry hentry hdisconnected hnumber
  obtain ⟨served, hserved, heq⟩ := List.mem_map.mp hnumber
  have hin : served.entry ∈ s.enqueued :=
    List.mem_of_mem_drop (hfaithful.segment.subset (List.mem_map_of_mem hserved))
  have hsame : served.entry = entry := List.inj_on_of_nodup_map hnodup hin hentry heq
  rw [← hsame, hfaithful.connected served hserved] at hdisconnected
  cases hdisconnected

/-- A turn of the forwarder that receives one packet at system time `stamp`. -/
def packetTurn (stamp : Time) : StreamLabel :=
  .forwarder
    { turnAt (.ok onePacket.bankingPacketBatch) .ok 0 with systemTime := stamp }

/-- The streams open, the drain takes `buffered` batches, and the block engine asks for
everything. -/
def connectedRun (buffered : Nat) : List StreamLabel :=
  openedRun.map .handler ++ List.replicate (buffered + 1) .tryRecv ++
    [.handler (.arm 0 (.aoi (.ok (some ["*"]))))]

/-- Two batches are sent while the handler connects and drains, the third while it serves
them; the block engine closes the stream, and the same happens once more. -/
def reconnectingRun : List StreamLabel :=
  [packetTurn 1, packetTurn 2] ++ connectedRun 2 ++
    [packetTurn 3, .recv 0 (fun _ => none) true, .handler (.arm 0 (.response (.ok none))), packetTurn 4] ++
    connectedRun 1 ++ [packetTurn 5, .recv 0 (fun _ => none) true]

theorem stream_never_stale_reconnecting :
    ∃ s : StreamSystem (mapCache Pubkey),
      runSteps (systemStep plainClient plainKeypair oneAccountConfig ⟨50, false⟩)
        (StreamSystem.init (mapCache Pubkey) 0) reconnectingRun = some s ∧
      s.connections.map (fun connection => (sentBatches connection.sent).map (·.headerTs)) =
        [[3], [5]] ∧
      (s.consumed <+: s.enqueued ∧ (s.consumed.map (·.number)).Nodup) ∧
      ∀ connection ∈ s.connections,
        connection.served.map (·.entry) <+: s.enqueued.drop connection.start ∧
        sentBatches connection.sent =
          connection.served.filterMap (Served.filtered oneAccountConfig) ∧
        ∀ entry ∈ s.enqueued, entry.disconnected = true →
          entry.number ∉ connection.served.map (·.entry.number) := by
  have hrun : (runSteps (systemStep plainClient plainKeypair oneAccountConfig ⟨50, false⟩)
      (StreamSystem.init (mapCache Pubkey) 0) reconnectingRun).map (fun s =>
        s.connections.map fun connection => (sentBatches connection.sent).map (·.headerTs)) =
      some [[3], [5]] := by decide
  obtain ⟨s, hs, hsent⟩ := Option.map_eq_some_iff.mp hrun
  exact ⟨s, hs, hsent, stream_never_stale _ _ _ _ _ _ s hs⟩

end FlowraRelayer.TransactionRelayer
