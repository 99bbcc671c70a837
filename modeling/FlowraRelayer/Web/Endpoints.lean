/-
  Web/Endpoints.lean --- `web/src/lib.rs`: what the answers of the web server are worth.

  `get_health` and `get_status` read what other threads write: the health state of the
  health manager, the flag `is_connected_to_block_engine` of the block engine handler, and
  the subscription map of the event loop.  They take no lock for more than one read, so
  every read is a step of its own here, and anything may happen between two of them.

  The relayer of `FeedWatch.lean` and the connection of `LinkWatch.lean` run beside the web
  server, with one clock.  `endpoints_truthful` says how long ago the health manager sent a
  slot on, or started, and how long ago the block engine answered, or the connection began,
  behind a good answer; and that the validators listed are those in the map.

  The buffer and the rate limit in front of the handlers are left out: they delay a request
  or refuse it.
-/
import FlowraRelayer.Relayer.FeedWatch
import FlowraRelayer.TransactionRelayer.LinkWatch

set_option autoImplicit false

namespace FlowraRelayer.Web

open FlowraRelayer.Foundation
open FlowraRelayer.Solana
open FlowraRelayer.BlockEngine
open FlowraRelayer.Relayer
open FlowraRelayer.TransactionRelayer

variable {Ip : Type} {timed : TimedCache Pubkey}

/-! ## The handlers -/

/-- The read of `slot_health`, with `last_update` of the health manager at that time: when it
last sent a slot on, or when its thread started. -/
structure SlotsRead where
  healthy : Bool
  readAt : Time
  lastUpdate : Time

/-- The load of `is_connected_to_block_engine`, with the time of the last sign of the block
engine then: its last answer, or the start of the connection. -/
structure FlagRead where
  connected : Bool
  readAt : Time
  lastSign : Time

/-- `RelayerStatus`. -/
structure RelayerStatus where
  slotsHealthy : Bool
  isConnectedToBlockEngine : Bool
  validatorsConnected : List String
  deriving DecidableEq

/-- `get_health`, once both have been read. -/
def getHealth (slots : SlotsRead) (flag : FlagRead) : String :=
  if slots.healthy && flag.connected then "ok" else "unhealthy"

/-- `get_status`, with the keys in the order in which `connected_validators` collects them. -/
def getStatus (slots : SlotsRead) (flag : FlagRead) (connectedValidators : List Pubkey) :
    RelayerStatus where
  slotsHealthy := slots.healthy
  isConnectedToBlockEngine := flag.connected
  validatorsConnected := connectedValidators.map Pubkey.toText

inductive Endpoint where
  | health
  | status
  deriving DecidableEq

/-- Where a request stands. -/
inductive Query where
  /-- it has read `slot_health` -/
  | slotsRead (endpoint : Endpoint) (slots : SlotsRead)
  /-- `get_status` has also loaded the flag -/
  | flagRead (slots : SlotsRead) (flag : FlagRead)

/-- An answer, with what was read for it. -/
inductive Answer where
  | health (slots : SlotsRead) (flag : FlagRead) (body : String)
  | status (slots : SlotsRead) (flag : FlagRead) (subscriptions : PacketSubscriptions)
      (body : RelayerStatus)

/-! ## The server beside the relayer -/

structure WebRelayer (Ip : Type) (timed : TimedCache Pubkey) where
  relayer : TimedRelayer Ip
  link : Link timed
  clock : Time
  queries : AList fun _ : Nat => Query
  answers : List Answer

def WebRelayer.init (timed : TimedCache Pubkey) (now : Time) (auther : Pubkey → Bool) :
    WebRelayer Ip timed where
  relayer := TimedRelayer.new now auther
  link := Link.init timed now
  clock := now
  queries := ∅
  answers := []

namespace WebRelayer

def readSlots (s : WebRelayer Ip timed) (now : Time) : SlotsRead where
  healthy := decide (s.relayer.gated.services.health = .healthy)
  readAt := now
  lastUpdate := s.relayer.gated.loop.manager.lastUpdate

def loadFlag (s : WebRelayer Ip timed) (now : Time) : FlagRead where
  connected := s.link.isConnectedToBlockEngine
  readAt := now
  lastSign := s.link.lastSign

def subscriptions (s : WebRelayer Ip timed) : PacketSubscriptions :=
  s.relayer.gated.services.loopState.packetSubscriptions

/-- A request goes on to its next read. -/
def wait (s : WebRelayer Ip timed) (now : Time) (id : Nat) (query : Query) : WebRelayer Ip timed :=
  { s with clock := now, queries := s.queries.insert id query }

/-- A request is answered. -/
def respond (s : WebRelayer Ip timed) (now : Time) (id : Nat) (answer : Answer) :
    WebRelayer Ip timed :=
  { s with clock := now, queries := s.queries.erase id, answers := s.answers ++ [answer] }

end WebRelayer

/-- The parameters of the threads. -/
structure WebConfig (Ip : Type) where
  auth : AuthEnv Ip
  decode : List UInt8 → Option VersionedTransaction
  loop : LoopConfig
  missingSlotUnhealthyThreshold : Time
  client : ClientEnv
  keypair : Keypair
  stream : StreamConfig
  forwarder : ForwarderConfig

inductive WebStep (Ip : Type) where
  | relayer (label : GatedLabel Ip)
  | link (step : LinkStep)
  /-- a request arrives and reads `slot_health` -/
  | request (id : Nat) (endpoint : Endpoint)
  /-- it loads the flag -/
  | load (id : Nat)
  /-- `connected_validators`, with the order of the keys -/
  | validators (id : Nat) (order : List Pubkey)

/-- A step with its time. -/
structure WebLabel (Ip : Type) where
  now : Time
  step : WebStep Ip

def webStep [DecidableEq Ip] (cfg : WebConfig Ip) (s : WebRelayer Ip timed) (label : WebLabel Ip) :
    Option (WebRelayer Ip timed) :=
  if s.clock ≤ label.now then
    match label.step with
    | .relayer step =>
        (timedStep cfg.auth cfg.decode cfg.loop cfg.missingSlotUnhealthyThreshold s.relayer
          ⟨label.now, step⟩).map fun relayer => { s with relayer, clock := label.now }
    | .link step =>
        (linkStep cfg.client cfg.keypair cfg.stream cfg.forwarder s.link ⟨label.now, step⟩).map
          fun link => { s with link, clock := label.now }
    | .request id endpoint =>
        match s.queries.lookup id with
        | none => some (s.wait label.now id (.slotsRead endpoint (s.readSlots label.now)))
        | some _ => none
    | .load id =>
        match s.queries.lookup id with
        | some (.slotsRead .health slots) =>
            some (s.respond label.now id (.health slots (s.loadFlag label.now)
              (getHealth slots (s.loadFlag label.now))))
        | some (.slotsRead .status slots) =>
            some (s.wait label.now id (.flagRead slots (s.loadFlag label.now)))
        | _ => none
    | .validators id order =>
        match s.queries.lookup id with
        | some (.flagRead slots flag) =>
            if Enumerates order s.subscriptions.keySet then
              some (s.respond label.now id (.status slots flag s.subscriptions
                (getStatus slots flag order)))
            else none
        | _ => none
  else none

/-- Checks, heartbeat ticks and the metrics ticks of the block engine handler are on time. -/
def OnTime (period beat tick : Time) (s : WebRelayer Ip timed) (label : WebLabel Ip) : Prop :=
  label.now ≤ s.relayer.lastCheck + period ∧ label.now ≤ s.relayer.lastBeat + beat ∧
    (s.link.up → label.now ≤ s.link.lastLook + tick)

instance (period beat tick : Time) (s : WebRelayer Ip timed) (label : WebLabel Ip) :
    Decidable (OnTime period beat tick s label) :=
  inferInstanceAs (Decidable (_ ∧ _))

/-! ## What an answer is worth -/

/-- Where the slots were read as healthy, `last_update` was not longer ago than this. -/
def SlotsRead.Fresh (threshold period : Time) (slots : SlotsRead) : Prop :=
  slots.healthy = true → slots.readAt ≤ slots.lastUpdate + threshold + period

/-- Where the flag was read as set, the last sign was not longer ago than this. -/
def FlagRead.Fresh (tick : Time) (flag : FlagRead) : Prop :=
  flag.connected = true → flag.readAt ≤ flag.lastSign + blockEngineResponseTimeout + tick

/-- What stands behind an answer. -/
def Answer.Truthful (threshold period tick : Time) : Answer → Prop
  | .health slots flag body =>
      (body = "ok" ∨ body = "unhealthy") ∧
      (body = "ok" → slots.readAt ≤ slots.lastUpdate + threshold + period ∧
        flag.readAt ≤ flag.lastSign + blockEngineResponseTimeout + tick)
  | .status slots flag subscriptions body =>
      (body.slotsHealthy = true → slots.readAt ≤ slots.lastUpdate + threshold + period) ∧
      (body.isConnectedToBlockEngine = true →
        flag.readAt ≤ flag.lastSign + blockEngineResponseTimeout + tick) ∧
      body.validatorsConnected.Nodup ∧
      ∀ pubkey : Pubkey, pubkey.toText ∈ body.validatorsConnected ↔
        ∃ sender, subscriptions.lookup pubkey = some sender

/-- What a request has read so far. -/
def Query.Fresh (threshold period tick : Time) : Query → Prop
  | .slotsRead _ slots => slots.Fresh threshold period
  | .flagRead slots flag => slots.Fresh threshold period ∧ flag.Fresh tick

/-- What holds in every state. -/
structure WebInv (cfg : WebConfig Ip) (period beat tick : Time) (s : WebRelayer Ip timed) :
    Prop where
  feed : FeedInv cfg.missingSlotUnhealthyThreshold period beat s.relayer
  link : LinkInv cfg.stream tick s.link
  queries : ∀ id query, s.queries.lookup id = some query →
    query.Fresh cfg.missingSlotUnhealthyThreshold period tick
  answers : ∀ answer ∈ s.answers, answer.Truthful cfg.missingSlotUnhealthyThreshold period tick

section Steps

variable {cfg : WebConfig Ip} {period beat tick now : Time} {s s' : WebRelayer Ip timed}

theorem webInv_init (now : Time) (auther : Pubkey → Bool) :
    WebInv cfg period beat tick (WebRelayer.init timed now auther) where
  feed := feedInv_new now auther
  link := linkInv_init now
  queries := by
    intro id query h
    cases h
  answers := by
    intro answer h
    cases h

/-- The health manager has compared `last_update` with the clock not long ago. -/
theorem fresh_readSlots (h : WebInv cfg period beat tick s)
    (hcheck : now ≤ s.relayer.lastCheck + period) :
    (s.readSlots now).Fresh cfg.missingSlotUnhealthyThreshold period := by
  intro hhealthy
  have hstate : s.relayer.gated.loop.manager.state = .healthy := by
    rw [← h.feed.shared]
    exact of_decide_eq_true hhealthy
  exact hcheck.trans (Nat.add_le_add_right (h.feed.checked hstate) period)

/-- The handler has looked at the last answer not long ago. -/
theorem fresh_loadFlag (h : WebInv cfg period beat tick s)
    (hlook : s.link.up → now ≤ s.link.lastLook + tick) : (s.loadFlag now).Fresh tick := by
  intro hconnected
  exact h.link.in_time (.inl hconnected) (hlook (.inl hconnected))

theorem WebInv.wait (h : WebInv cfg period beat tick s) (id : Nat) {query : Query}
    (hquery : query.Fresh cfg.missingSlotUnhealthyThreshold period tick) :
    WebInv cfg period beat tick (s.wait now id query) where
  feed := h.feed
  link := h.link
  queries := by
    intro other query' hlookup
    rcases lookup_insert_cases hlookup with ⟨-, rfl⟩ | hold
    · exact hquery
    · exact h.queries other query' hold
  answers := h.answers

theorem WebInv.respond (h : WebInv cfg period beat tick s) (id : Nat) {answer : Answer}
    (hanswer : answer.Truthful cfg.missingSlotUnhealthyThreshold period tick) :
    WebInv cfg period beat tick (s.respond now id answer) where
  feed := h.feed
  link := h.link
  queries := fun other query hlookup => h.queries other query (lookup_erase_cases hlookup).2
  answers := by
    intro other hother
    rcases List.mem_append.mp hother with hold | hnew
    · exact h.answers other hold
    · rw [List.mem_singleton.mp hnew]
      exact hanswer

theorem truthful_getHealth {threshold : Time} {slots : SlotsRead} {flag : FlagRead}
    (hslots : slots.Fresh threshold period) (hflag : flag.Fresh tick) :
    (Answer.health slots flag (getHealth slots flag)).Truthful threshold period tick := by
  cases hboth : slots.healthy && flag.connected with
  | true =>
    have hok : getHealth slots flag = "ok" := by
      rw [getHealth, hboth]
      rfl
    rw [Bool.and_eq_true] at hboth
    exact ⟨.inl hok, fun _ => ⟨hslots hboth.1, hflag hboth.2⟩⟩
  | false =>
    have hbad : getHealth slots flag = "unhealthy" := by
      rw [getHealth, hboth]
      rfl
    exact ⟨.inr hbad, fun hok => absurd (hbad.symm.trans hok) (by decide)⟩

theorem toText_injective : Function.Injective Pubkey.toText := by
  intro a b h
  have hparse := congrArg Pubkey.fromStr h
  rw [Pubkey.fromStr_toText, Pubkey.fromStr_toText] at hparse
  exact Option.some.inj hparse

theorem truthful_getStatus {threshold : Time} {slots : SlotsRead} {flag : FlagRead}
    {subscriptions : PacketSubscriptions} {order : List Pubkey}
    (hslots : slots.Fresh threshold period) (hflag : flag.Fresh tick)
    (horder : Enumerates order subscriptions.keySet) :
    (Answer.status slots flag subscriptions (getStatus slots flag order)).Truthful threshold period
      tick := by
  refine ⟨hslots, hflag, horder.1.map toText_injective, ?_⟩
  intro pubkey
  have hmem : pubkey.toText ∈ order.map Pubkey.toText ↔ pubkey ∈ order :=
    List.mem_map_of_injective toText_injective
  have hkeys : pubkey ∈ order ↔ pubkey ∈ subscriptions.keySet := by
    rw [← horder.2, List.mem_toFinset]
  rw [show (getStatus slots flag order).validatorsConnected = order.map Pubkey.toText from rfl,
    hmem, hkeys, PacketSubscriptions.keySet, List.mem_toFinset, ← Option.isSome_iff_exists]
  exact (AList.lookup_isSome.trans AList.mem_keys).symm

variable [DecidableEq Ip]

theorem webInv_step {label : WebLabel Ip} (h : WebInv cfg period beat tick s)
    (hontime : OnTime period beat tick s label) (hstep : webStep cfg s label = some s') :
    WebInv cfg period beat tick s' := by
  obtain ⟨now, step⟩ := label
  obtain ⟨hcheck, hbeat, hlook⟩ := hontime
  simp only [webStep, Option.ite_none_right_eq_some] at hstep
  obtain ⟨-, hstep⟩ := hstep
  cases step with
  | relayer step =>
    obtain ⟨relayer, hrelayer, rfl⟩ := Option.map_eq_some_iff.mp hstep
    exact ⟨feedInv_step h.feed ⟨hcheck, hbeat⟩ hrelayer, h.link, h.queries, h.answers⟩
  | link step =>
    obtain ⟨link, hlink, rfl⟩ := Option.map_eq_some_iff.mp hstep
    have hlooks : Looks tick s.link ⟨now, step⟩ := hlook
    exact ⟨h.feed, linkInv_step h.link hlooks hlink, h.queries, h.answers⟩
  | request id endpoint =>
    dsimp only at hstep
    split at hstep
    · cases hstep
      exact h.wait id (fresh_readSlots h hcheck)
    · cases hstep
  | load id =>
    dsimp only at hstep
    split at hstep
    · rename_i slots hquery
      cases hstep
      exact h.respond id (truthful_getHealth (h.queries id _ hquery) (fresh_loadFlag h hlook))
    · rename_i slots hquery
      cases hstep
      exact h.wait id ⟨h.queries id _ hquery, fresh_loadFlag h hlook⟩
    · cases hstep
  | validators id order =>
    dsimp only at hstep
    split at hstep
    · rename_i slots flag hquery
      rw [Option.ite_none_right_eq_some] at hstep
      obtain ⟨horder, hstep⟩ := hstep
      cases hstep
      obtain ⟨hslots, hflag⟩ := h.queries id _ hquery
      exact h.respond id (truthful_getStatus hslots hflag horder)
    · cases hstep

end Steps

/-- The text or the status an answer carries. -/
def Answer.body : Answer → String ⊕ RelayerStatus
  | .health _ _ body => .inl body
  | .status _ _ _ body => .inr body

/-- The relayer with its default lifetimes and threshold. -/
def defaultWeb : WebConfig Peer where
  auth := clientEnv [1800, 180000] 1800 180000
  decode := fun _ => none
  loop := ⟨∅, 4, true, 5⟩
  missingSlotUnhealthyThreshold := 10 * nanosPerSecond
  client := plainClient
  keypair := plainKeypair
  stream := quietConfig
  forwarder := ⟨50, false⟩

/-- The block engine is connected and a slot has come.  Two requests read the health of the
relayer at second 5, a client subscribes, and the requests go on. -/
def queriedRun : List (WebLabel Peer) :=
  connectedAtZero.map (fun label => ⟨label.now, .link label.step⟩) ++
  [ ⟨nanosPerSecond, .relayer (.manager (.receive nanosPerSecond 100))⟩
  , ⟨nanosPerSecond, .relayer (.manager (.forward nanosPerSecond))⟩
  , ⟨5 * nanosPerSecond, .relayer (.manager (.check (5 * nanosPerSecond)))⟩
  , ⟨5 * nanosPerSecond, .relayer (.services (.loopTurn (.heartbeat .healthy [] fun _ => .ok)))⟩
  , ⟨5 * nanosPerSecond, .request 0 .health⟩
  , ⟨5 * nanosPerSecond, .request 1 .status⟩ ] ++
  (loginRun ++ subscribeRun 1800 6).map
    (fun label => ⟨6 * nanosPerSecond, .relayer (.services label)⟩) ++
  [ ⟨7 * nanosPerSecond, .load 0⟩
  , ⟨7 * nanosPerSecond, .load 1⟩
  , ⟨8 * nanosPerSecond, .validators 1 [uniformKey 7]⟩ ]

end FlowraRelayer.Web
