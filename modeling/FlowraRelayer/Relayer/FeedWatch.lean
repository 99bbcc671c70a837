/-
  Relayer/FeedWatch.lean --- what the loss of the slot feed does to the subscribers.

  The way is long: the health manager compares the age of `last_update` with a threshold at
  every check, stores `Unhealthy`, and the event loop reads that at its next heartbeat tick
  and drops every connection.  Meanwhile packets go out.  `last_update` is the time at which
  the manager sent the last slot on and, before the first one, the start of its thread.
  `timedStep` is the gated relayer with one clock for both threads, and `Punctual` says how
  far apart the checks and the heartbeat ticks may be.

      stale_feed_cuts_off         how long after `last_update` a message can go out
      steady_feed_drops_nobody    while `last_update` moves on, nobody is dropped for the health

  A subscription that was accepted before may still be taken from the channel afterwards;
  it then lives until the next heartbeat tick.

  `lastCheck`, `lastBeat`, `taken` and `messages` record what happened; no step reads them.
-/
import FlowraRelayer.Relayer.ConnectionCounters
import FlowraRelayer.Relayer.HealthGate
import FlowraRelayer.Relayer.MessageOrigin
import FlowraRelayer.Relayer.StreamExactness

set_option autoImplicit false

namespace FlowraRelayer.Relayer

open FlowraRelayer.Foundation
open FlowraRelayer.Solana
open FlowraRelayer.Protos

variable {Ip : Type}

/-! ## One clock -/

/-- A `try_send` with its time and with `last_update` of the manager at that time. -/
structure Message where
  sentAt : Time
  lastUpdate : Time
  offer : Offer

/-- A subscription the event loop took out of the channel. -/
structure Taken where
  takenAt : Time
  pubkey : Pubkey
  sender : Sender

/-- The gated relayer with a clock. -/
structure TimedRelayer (Ip : Type) where
  gated : GatedRelayer Ip
  clock : Time
  /-- when the manager last checked, or started -/
  lastCheck : Time
  /-- when the heartbeat arm last ran, or the loop started -/
  lastBeat : Time
  taken : List Taken
  messages : List Message

def TimedRelayer.new (now : Time) (auther : Pubkey → Bool) : TimedRelayer Ip where
  gated := GatedRelayer.new now auther
  clock := now
  lastCheck := now
  lastBeat := now
  taken := []
  messages := []

/-- A step with its time. -/
structure TimedLabel (Ip : Type) where
  now : Time
  label : GatedLabel Ip

/-- The clock the manager reads is the clock. -/
def GatedLabel.ReadsClock (now : Time) : GatedLabel Ip → Prop
  | .manager label => label.now = now
  | .services _ => True

instance (now : Time) (label : GatedLabel Ip) : Decidable (label.ReadsClock now) :=
  match label with
  | .manager label => inferInstanceAs (Decidable (label.now = now))
  | .services _ => inferInstanceAs (Decidable True)

/-- What a step leaves in the record. -/
def TimedRelayer.record (decode : List UInt8 → Option VersionedTransaction) (cfg : LoopConfig)
    (s : TimedRelayer Ip) (now : Time) (gated : GatedRelayer Ip) : GatedLabel Ip → TimedRelayer Ip
  | .manager label =>
      { s with
        gated
        clock := now
        lastCheck :=
          match label with
          | .check _ => now
          | _ => s.lastCheck }
  | .services (.loopTurn event) =>
      { s with
        gated
        clock := now
        lastBeat :=
          match event with
          | .heartbeat _ _ _ => now
          | _ => s.lastBeat
        taken :=
          match event with
          | .subscription (some (pubkey, sender)) => s.taken ++ [⟨now, pubkey, sender⟩]
          | _ => s.taken
        messages := s.messages ++
          (eventOffers decode cfg s.gated.services.loopState event).map fun offer =>
            ⟨now, s.gated.loop.manager.lastUpdate, offer⟩ }
  | .services _ => { s with gated, clock := now }

/-- A step of the gated relayer at a time that is not before the last one. -/
def timedStep [DecidableEq Ip] (env : AuthEnv Ip) (decode : List UInt8 → Option VersionedTransaction)
    (cfg : LoopConfig) (missingSlotUnhealthyThreshold : Time) (s : TimedRelayer Ip)
    (label : TimedLabel Ip) : Option (TimedRelayer Ip) :=
  if s.clock ≤ label.now ∧ label.label.ReadsClock label.now then
    (gatedStep env decode cfg missingSlotUnhealthyThreshold s.gated label.label).map fun gated =>
      s.record decode cfg label.now gated label.label
  else none

/-- Checks are at most `period` apart, and heartbeat ticks at most `beat`. -/
def Punctual (period beat : Time) (s : TimedRelayer Ip) (label : TimedLabel Ip) : Prop :=
  label.now ≤ s.lastCheck + period ∧ label.now ≤ s.lastBeat + beat

instance (period beat : Time) (s : TimedRelayer Ip) (label : TimedLabel Ip) :
    Decidable (Punctual period beat s label) :=
  inferInstanceAs (Decidable (label.now ≤ s.lastCheck + period ∧ label.now ≤ s.lastBeat + beat))

/-! ## How old the feed can be -/

/-- The subscription of the recipient was taken at most `beat` before the given time. -/
def TakenWithin (beat : Time) (taken : List Taken) (pubkey : Pubkey) (sender : Sender)
    (time : Time) : Prop :=
  ∃ subscription ∈ taken, subscription.pubkey = pubkey ∧ subscription.sender = sender ∧
    subscription.takenAt ≤ time ∧ time ≤ subscription.takenAt + beat

/-- A heartbeat goes out only within the threshold and the time between two checks after the
last slot was sent on, or after the manager started if there was none; packets go out for one
tick of the heartbeat longer, or to a validator that was added since the last tick. -/
def Message.Fresh (threshold period beat : Time) (taken : List Taken) (message : Message) : Prop :=
  match message.offer.packets? with
  | none => message.sentAt ≤ message.lastUpdate + threshold + period
  | some _ => message.sentAt ≤ message.lastUpdate + threshold + period + beat ∨
      TakenWithin beat taken message.offer.pubkey message.offer.sender message.sentAt

/-- What the loss of the feed leads to. -/
structure FeedWatched (threshold period beat : Time) (s : TimedRelayer Ip) : Prop where
  messages : ∀ message ∈ s.messages, message.Fresh threshold period beat s.taken
  /-- once `last_update` is that old, only those added since the last tick are left -/
  subscribers : s.gated.loop.manager.lastUpdate + threshold + period + beat < s.clock →
    ∀ pubkey sender, s.gated.services.loopState.packetSubscriptions.lookup pubkey = some sender →
      TakenWithin beat s.taken pubkey sender s.clock

/-- What holds in every state. -/
structure FeedInv (threshold period beat : Time) (s : TimedRelayer Ip) : Prop where
  shared : s.gated.services.health = s.gated.loop.manager.state
  updated : s.gated.loop.manager.lastUpdate ≤ s.clock
  beaten : s.lastBeat ≤ s.clock ∧ s.clock ≤ s.lastBeat + beat
  /-- a check that found the manager healthy was within the threshold -/
  checked : s.gated.loop.manager.state = .healthy →
    s.lastCheck ≤ s.gated.loop.manager.lastUpdate + threshold
  taken : ∀ subscription ∈ s.taken, subscription.takenAt ≤ s.clock
  /-- the last heartbeat tick was in time, or it left nobody -/
  entries : s.lastBeat ≤ s.gated.loop.manager.lastUpdate + threshold + period ∨
    ∀ pubkey sender, s.gated.services.loopState.packetSubscriptions.lookup pubkey = some sender →
      ∃ subscription ∈ s.taken, subscription.pubkey = pubkey ∧ subscription.sender = sender ∧
        s.lastBeat ≤ subscription.takenAt
  messages : ∀ message ∈ s.messages, message.Fresh threshold period beat s.taken

section Steps

variable {decode : List UInt8 → Option VersionedTransaction} {cfg : LoopConfig}
  {threshold period beat : Time} {s s' : TimedRelayer Ip}

theorem TakenWithin.append {taken more : List Taken} {pubkey : Pubkey} {sender : Sender}
    {time : Time} (h : TakenWithin beat taken pubkey sender time) :
    TakenWithin beat (taken ++ more) pubkey sender time := by
  obtain ⟨subscription, hmem, htaken⟩ := h
  exact ⟨subscription, List.mem_append_left _ hmem, htaken⟩

theorem Message.Fresh.append {taken : List Taken} {message : Message}
    (h : message.Fresh threshold period beat taken) (more : List Taken) :
    message.Fresh threshold period beat (taken ++ more) := by
  unfold Message.Fresh at h ⊢
  split
  · next hnone => simpa only [hnone] using h
  · next packets hsome =>
    simp only [hsome] at h
    exact h.imp_right TakenWithin.append

theorem feedInv_new (now : Time) (auther : Pubkey → Bool) :
    FeedInv threshold period beat (TimedRelayer.new now auther : TimedRelayer Ip) where
  shared := rfl
  updated := Nat.le_refl _
  beaten := ⟨Nat.le_refl _, Nat.le_add_right _ _⟩
  checked := by
    intro hhealthy
    cases hhealthy
  taken := by
    intro subscription h
    cases h
  entries := by
    refine .inl ?_
    rw [Nat.add_assoc]
    exact Nat.le_add_right _ _
  messages := by
    intro message h
    cases h

/-- A step of the manager: `last_update` moves on, and the state becomes `Healthy` only by a
check within the threshold. -/
theorem manager_moves {label : ManagerLabel} {loop loop' : ManagerLoop}
    (hmove : ManagerMove threshold loop label loop')
    (hpast : loop.manager.lastUpdate ≤ label.now) :
    loop.manager.lastUpdate ≤ loop'.manager.lastUpdate ∧ loop'.manager.lastUpdate ≤ label.now ∧
      (loop'.manager.state = .healthy →
        (∃ now, label = .check now) ∧ label.now ≤ loop'.manager.lastUpdate + threshold ∨
          (∀ now, label ≠ .check now) ∧ loop.manager.state = .healthy) := by
  cases hmove with
  | @checked now hphase =>
    refine ⟨Nat.le_refl _, hpast, fun hhealthy => .inl ⟨⟨_, rfl⟩, ?_⟩⟩
    by_contra hlate
    have hunhealthy : (loop.manager.check threshold now).state = .unhealthy :=
      check_unhealthy (Nat.lt_of_not_le hlate)
    rw [hunhealthy] at hhealthy
    cases hhealthy
  | received hphase => exact ⟨Nat.le_refl _, hpast, fun hhealthy => .inr ⟨by simp, hhealthy⟩⟩
  | forwarded hphase => exact ⟨hpast, Nat.le_refl _, fun hhealthy => .inr ⟨by simp, hhealthy⟩⟩
  | reported => exact ⟨Nat.le_refl _, hpast, fun hhealthy => .inr ⟨by simp, hhealthy⟩⟩
  | stopped => exact ⟨Nat.le_refl _, hpast, fun hhealthy => .inr ⟨by simp, hhealthy⟩⟩

/-- A step of the manager. -/
theorem feedInv_manager {label : ManagerLabel} {loop : ManagerLoop} (h : FeedInv threshold period beat s)
    (hclock : s.clock ≤ label.now) (hbeat : label.now ≤ s.lastBeat + beat)
    (hloop : managerStep threshold s.gated.loop label = some loop) :
    FeedInv threshold period beat (s.record decode cfg label.now
      { loop, services := { s.gated.services with health := loop.manager.state } }
      (.manager label)) := by
  obtain ⟨hlater, hpast, hhealthy⟩ :=
    manager_moves (move_of_managerStep hloop).2 (Nat.le_trans h.updated hclock)
  constructor
  case shared => rfl
  case updated => exact hpast
  case beaten => exact ⟨Nat.le_trans h.beaten.1 hclock, hbeat⟩
  case checked =>
    intro hstate
    rcases hhealthy hstate with ⟨⟨now, rfl⟩, hfresh⟩ | ⟨hother, hbefore⟩
    · exact hfresh
    · have hsame : (s.record decode cfg label.now
          { loop, services := { s.gated.services with health := loop.manager.state } }
          (.manager label)).lastCheck = s.lastCheck := by
        cases label with
        | check now => exact absurd rfl (hother now)
        | _ => rfl
      rw [hsame]
      exact Nat.le_trans (h.checked hbefore) (Nat.add_le_add_right hlater threshold)
  case taken => exact fun subscription hmem => Nat.le_trans (h.taken subscription hmem) hclock
  case entries =>
    refine h.entries.imp_left fun hintime => Nat.le_trans hintime ?_
    exact Nat.add_le_add_right (Nat.add_le_add_right hlater threshold) period
  case messages => exact h.messages

/-- A heartbeat tick reads the health state that is stored. -/
theorem health_of_receive {services : AuthState Ip} {health : HealthState} {order : List Pubkey}
    {trySend : Pubkey → TrySendResult} {rest : List (Pubkey × Sender)}
    (h : receive services (.heartbeat health order trySend) = some rest) :
    health = services.health := by
  rw [receive, Option.ite_none_right_eq_some] at h
  exact h.1

/-- The messages of a turn. -/
theorem fresh_of_turn {event : LoopEvent} {loopState : LoopState} {now : Time}
    (h : FeedInv threshold period beat s) (hclock : s.clock ≤ now)
    (hpunctual : now ≤ s.lastCheck + period ∧ now ≤ s.lastBeat + beat)
    {rest : List (Pubkey × Sender)} (hreceive : receive s.gated.services event = some rest)
    (hturn : eventStep decode cfg s.gated.services.loopState event = some loopState) {offer : Offer}
    (hoffer : offer ∈ eventOffers decode cfg s.gated.services.loopState event) :
    Message.Fresh threshold period beat s.taken
      ⟨now, s.gated.loop.manager.lastUpdate, offer⟩ := by
  unfold Message.Fresh
  split
  · next hnone =>
    -- a message without packets is a heartbeat of a healthy relayer
    rcases eventStep_cases hturn with ⟨_, _, rfl, -⟩ | ⟨batches, cache, order, env, rfl, -, -, -⟩ |
      ⟨_, _, rfl, -⟩ | ⟨order, trySend, rfl, -, -⟩ | ⟨_, _, rfl, -⟩ | ⟨rfl, -⟩
    · cases hoffer
    · obtain ⟨packets, -, hpackets⟩ := packets?_of_mem_batchOffers _ _ hoffer
      rw [hpackets] at hnone
      cases hnone
    · cases hoffer
    · have hhealthy : s.gated.loop.manager.state = .healthy :=
        (h.shared.symm.trans (health_of_receive hreceive).symm)
      exact Nat.le_trans hpunctual.1 (Nat.add_le_add_right (h.checked hhealthy) period)
    · cases hoffer
    · cases hoffer
  · next packets hpackets =>
    rcases h.entries with hintime | hrecent
    · exact .inl (Nat.le_trans hpunctual.2 (Nat.add_le_add_right hintime beat))
    · obtain ⟨subscription, hmem, hpubkey, hsender, hsince⟩ :=
        hrecent _ _ (stored_of_mem_eventOffers hoffer)
      exact .inr ⟨subscription, hmem, hpubkey, hsender,
        Nat.le_trans (h.taken subscription hmem) hclock,
        Nat.le_trans hpunctual.2 (Nat.add_le_add_right hsince beat)⟩

/-- A step of the services that is not a turn of the loop. -/
theorem feedInv_quiet {now : Time} (h : FeedInv threshold period beat s) (hclock : s.clock ≤ now)
    (hbeat : now ≤ s.lastBeat + beat) {services : AuthState Ip}
    (hloop : services.loopState = s.gated.services.loopState)
    (hhealth : services.health = s.gated.services.health) :
    FeedInv threshold period beat
      { s with gated := { s.gated with services }, clock := now } where
  shared := hhealth.trans h.shared
  updated := Nat.le_trans h.updated hclock
  beaten := ⟨Nat.le_trans h.beaten.1 hclock, hbeat⟩
  checked := h.checked
  taken := fun subscription hmem => Nat.le_trans (h.taken subscription hmem) hclock
  entries := by
    dsimp only
    rw [hloop]
    exact h.entries
  messages := h.messages

/-- The subscribers after a turn: they were there before, or this turn took them. -/
theorem entries_of_turn {event : LoopEvent} {loopState : LoopState} {now : Time}
    (h : FeedInv threshold period beat s) (hclock : s.clock ≤ now)
    (hcheck : now ≤ s.lastCheck + period) {rest : List (Pubkey × Sender)}
    (hreceive : receive s.gated.services event = some rest)
    (hturn : eventStep decode cfg s.gated.services.loopState event = some loopState)
    (gated : GatedRelayer Ip) (hloop : gated.services.loopState = loopState)
    (hmanager : gated.loop = s.gated.loop) :
    let s' := s.record decode cfg now gated (.services (.loopTurn event))
    s'.lastBeat ≤ s'.gated.loop.manager.lastUpdate + threshold + period ∨
      ∀ pubkey sender, s'.gated.services.loopState.packetSubscriptions.lookup pubkey = some sender →
        ∃ subscription ∈ s'.taken, subscription.pubkey = pubkey ∧ subscription.sender = sender ∧
          s'.lastBeat ≤ subscription.takenAt := by
  subst hloop
  dsimp only [TimedRelayer.record]
  rw [hmanager]
  -- the arms that neither take a subscription nor end a tick leave no new entry
  have hquiet : (∀ head, event ≠ .subscription (some head)) →
      s.lastBeat ≤ s.gated.loop.manager.lastUpdate + threshold + period ∨
        ∀ pubkey sender, gated.services.loopState.packetSubscriptions.lookup pubkey = some sender →
          ∃ subscription ∈ s.taken, subscription.pubkey = pubkey ∧ subscription.sender = sender ∧
            s.lastBeat ≤ subscription.takenAt := by
    intro hother
    refine h.entries.imp_right fun hrecent pubkey sender hlookup => ?_
    rcases lookup_eventStep hturn hlookup with hold | hnew
    · exact hrecent pubkey sender hold
    · exact absurd hnew (hother _)
  rcases eventStep_cases hturn with ⟨_, _, rfl, -⟩ | ⟨_, _, _, _, rfl, -, -, -⟩ |
    ⟨pubkey, sender, rfl, -⟩ | ⟨order, trySend, rfl, -, -⟩ | ⟨order, trySend, rfl, -, -⟩ | ⟨rfl, -⟩
  · exact hquiet (by simp)
  · exact hquiet (by simp)
  · refine h.entries.imp_right fun hrecent pubkey' sender' hlookup => ?_
    rcases lookup_eventStep hturn hlookup with hold | hnew
    · obtain ⟨subscription, hmem, htaken⟩ := hrecent pubkey' sender' hold
      exact ⟨subscription, List.mem_append_left _ hmem, htaken⟩
    · cases hnew
      exact ⟨_, List.mem_append_right _ List.mem_cons_self, rfl, rfl,
        Nat.le_trans h.beaten.1 hclock⟩
  · -- a healthy tick is in time
    have hhealthy : s.gated.loop.manager.state = .healthy :=
      h.shared.symm.trans (health_of_receive hreceive).symm
    exact .inl (Nat.le_trans hcheck (Nat.add_le_add_right (h.checked hhealthy) period))
  · -- an unhealthy one leaves nobody
    refine .inr fun pubkey sender hlookup => ?_
    have hempty := keys_eq_nil_of_readsUnhealthy hturn ⟨order, trySend, rfl⟩
    have hkey : pubkey ∈ gated.services.loopState.packetSubscriptions.keys := by
      rw [← AList.mem_keys, ← AList.lookup_isSome, hlookup]
      rfl
    rw [hempty] at hkey
    cases hkey
  · exact hquiet (by simp)

/-- A turn of the event loop. -/
theorem feedInv_turn {event : LoopEvent} {loopState : LoopState} {now : Time}
    (h : FeedInv threshold period beat s) (hclock : s.clock ≤ now)
    (hpunctual : now ≤ s.lastCheck + period ∧ now ≤ s.lastBeat + beat)
    {rest : List (Pubkey × Sender)} (hreceive : receive s.gated.services event = some rest)
    (hturn : eventStep decode cfg s.gated.services.loopState event = some loopState)
    {gated : GatedRelayer Ip} (hloop : gated.services.loopState = loopState)
    (hmanager : gated.loop = s.gated.loop) (hhealth : gated.services.health = s.gated.services.health) :
    FeedInv threshold period beat (s.record decode cfg now gated (.services (.loopTurn event))) := by
  have hbeat : (s.record decode cfg now gated (.services (.loopTurn event))).lastBeat ≤ now ∧
      s.lastBeat ≤ (s.record decode cfg now gated (.services (.loopTurn event))).lastBeat := by
    have hbefore := Nat.le_trans h.beaten.1 hclock
    cases event with
    | heartbeat health order trySend => exact ⟨Nat.le_refl _, hbefore⟩
    | _ => exact ⟨hbefore, Nat.le_refl _⟩
  obtain ⟨more, htaken, hnew⟩ : ∃ more,
      (s.record decode cfg now gated (.services (.loopTurn event))).taken = s.taken ++ more ∧
        ∀ subscription ∈ more, subscription.takenAt = now := by
    cases event with
    | subscription maybeSubscription =>
      cases maybeSubscription with
      | none => exact ⟨[], (List.append_nil _).symm, by simp⟩
      | some subscription => exact ⟨[_], rfl, by simp⟩
    | _ => exact ⟨[], (List.append_nil _).symm, by simp⟩
  constructor
  case shared => exact hhealth.trans (h.shared.trans (congrArg (·.manager.state) hmanager.symm))
  case updated =>
    refine Nat.le_trans ?_ (Nat.le_trans h.updated hclock)
    exact Nat.le_of_eq (congrArg (·.manager.lastUpdate) hmanager)
  case beaten =>
    exact ⟨hbeat.1, Nat.le_trans hpunctual.2 (Nat.add_le_add_right hbeat.2 beat)⟩
  case checked =>
    intro hstate
    have hsame : gated.loop.manager = s.gated.loop.manager := congrArg (·.manager) hmanager
    dsimp only [TimedRelayer.record] at hstate ⊢
    rw [hsame] at hstate ⊢
    exact h.checked hstate
  case taken =>
    rw [htaken]
    intro subscription hmem
    rcases List.mem_append.mp hmem with hold | hmore
    · exact Nat.le_trans (h.taken subscription hold) hclock
    · exact Nat.le_of_eq (hnew subscription hmore)
  case entries => exact entries_of_turn h hclock hpunctual.1 hreceive hturn gated hloop hmanager
  case messages =>
    rw [htaken]
    intro message hmem
    rcases List.mem_append.mp hmem with hold | hmore
    · exact (h.messages message hold).append more
    · obtain ⟨offer, hoffer, rfl⟩ := List.mem_map.mp hmore
      exact (fresh_of_turn h hclock hpunctual hreceive hturn hoffer).append more

end Steps

section Runs

variable [DecidableEq Ip] {env : AuthEnv Ip} {decode : List UInt8 → Option VersionedTransaction}
  {cfg : LoopConfig} {threshold period beat : Time} {s s' : TimedRelayer Ip}

theorem feedInv_step {label : TimedLabel Ip} (h : FeedInv threshold period beat s)
    (hpunctual : Punctual period beat s label)
    (hstep : timedStep env decode cfg threshold s label = some s') :
    FeedInv threshold period beat s' := by
  simp only [timedStep, Option.ite_none_right_eq_some, Option.map_eq_some_iff] at hstep
  obtain ⟨⟨hclock, hreads⟩, gated, hgated, rfl⟩ := hstep
  obtain ⟨now, label⟩ := label
  cases label with
  | manager label =>
    rw [gatedStep, Option.map_eq_some_iff] at hgated
    obtain ⟨loop, hloop, rfl⟩ := hgated
    obtain rfl : label.now = now := hreads
    exact feedInv_manager h hclock hpunctual.2 hloop
  | services label =>
    obtain ⟨hlabel, services, hservices, rfl⟩ := authStep_of_gatedStep hgated
    have hmove := move_of_authStep hservices
    have hhealth := hmove.health_eq hlabel
    cases label with
    | loopTurn event =>
      obtain ⟨rest, loopState, hreceive, hturn, rfl⟩ := loopTurn_of_authStep hservices
      exact feedInv_turn h hclock hpunctual hreceive hturn rfl rfl rfl
    | _ =>
      refine feedInv_quiet h hclock hpunctual.2 ?_ hhealth
      rcases hmove.loopState_cases with hsame | ⟨event, hevent, -⟩
      · exact hsame
      · cases hevent

end Runs

/-- The client subscribes after a slot and gets a packet; no other slot comes.  The check
after ten seconds is still within the threshold, the one after fifteen is not, and the
tick after it drops the client. -/
def silentRun : List (TimedLabel Peer) :=
  [ ⟨nanosPerSecond, .manager (.receive nanosPerSecond 100)⟩
  , ⟨nanosPerSecond, .manager (.forward nanosPerSecond)⟩
  , ⟨5 * nanosPerSecond, .manager (.check (5 * nanosPerSecond))⟩
  , ⟨5 * nanosPerSecond, .services (.loopTurn (.heartbeat .healthy [] fun _ => .ok))⟩ ] ++
  (loginRun ++ subscribeRun 1800 6).map (fun label => ⟨6 * nanosPerSecond, .services label⟩) ++
  [ ⟨7 * nanosPerSecond, .services (.loopTurn (.packets (some ⟨0, [[oneBytePacket 1]]⟩)
      (fun _ => none) [uniformKey 7] ⟨fun _ _ => .ok, fun _ k => k⟩))⟩
  , ⟨10 * nanosPerSecond, .manager (.check (10 * nanosPerSecond))⟩
  , ⟨10 * nanosPerSecond, .services (.loopTurn (.heartbeat .healthy [uniformKey 7] fun _ => .ok))⟩
  , ⟨15 * nanosPerSecond, .manager (.check (15 * nanosPerSecond))⟩
  , ⟨15 * nanosPerSecond,
      .services (.loopTurn (.heartbeat .unhealthy [uniformKey 7] fun _ => .ok))⟩ ]

/-- The timed relayer with the default lifetimes and the default threshold. -/
abbrev defaultTimedStep : TimedRelayer Peer → TimedLabel Peer → Option (TimedRelayer Peer) :=
  timedStep (clientEnv [1800, 180000] 1800 180000) (fun _ => none) ⟨∅, 4, true, 5⟩
    (10 * nanosPerSecond)

/-- Every check comes within the threshold of the last slot that was sent on or, before the
first one, of the start of the manager. -/
def SteadyFeed (threshold : Time) (s : GatedRelayer Ip) : GatedLabel Ip → Prop
  | .manager (.check now) => now ≤ s.loop.manager.lastUpdate + threshold
  | _ => True

instance (threshold : Time) (s : GatedRelayer Ip) (label : GatedLabel Ip) :
    Decidable (SteadyFeed threshold s label) :=
  match label with
  | .manager (.check now) => inferInstanceAs (Decidable (now ≤ s.loop.manager.lastUpdate + threshold))
  | .manager (.receive _ _) | .manager (.forward _) | .manager (.channelLen _) | .manager (.stop _)
  | .services _ => inferInstanceAs (Decidable True)

/-- The relayer is healthy, or has not been so yet and nobody has subscribed. -/
structure NobodyBeforeHealthy (s : GatedRelayer Ip) : Prop where
  shared : s.services.health = s.loop.manager.state
  nobody : s.services.health = .healthy ∨
    s.services.subscriptionQueue = [] ∧ s.services.loopState.packetSubscriptions.keys = []

section Steady

variable [DecidableEq Ip] {env : AuthEnv Ip} {decode : List UInt8 → Option VersionedTransaction}
  {cfg : LoopConfig} {threshold : Time} {s s' : GatedRelayer Ip}

/-- Before the relayer is healthy nobody gets into the channel to the event loop. -/
theorem queue_of_unhealthy {services services' : AuthState Ip} {label : AuthLabel Ip}
    (hhealth : services.health = .unhealthy) (hqueue : services.subscriptionQueue = [])
    (hmove : Move env decode cfg services label services') : services'.subscriptionQueue = [] := by
  cases hmove with
  | subscribed hcall hchecks =>
    rw [hhealth] at hchecks
    cases hchecks
  | loopTurn hreceive hturn =>
    rcases receive_cases hreceive with ⟨head, -, hhead⟩ | ⟨-, hsame⟩
    · rw [hqueue] at hhead
      cases hhead
    · rw [hsame]
      exact hqueue
  | _ => exact hqueue

/-- Nor into its map. -/
theorem keys_of_unhealthy {services services' : AuthState Ip} {label : AuthLabel Ip}
    (hqueue : services.subscriptionQueue = [])
    (hkeys : services.loopState.packetSubscriptions.keys = [])
    (hmove : Move env decode cfg services label services') :
    services'.loopState.packetSubscriptions.keys = [] := by
  cases hmove with
  | loopTurn hreceive hturn =>
    refine List.eq_nil_iff_forall_not_mem.mpr ?_
    intro pubkey hmem
    rw [← AList.mem_keys, ← AList.lookup_isSome, Option.isSome_iff_exists] at hmem
    obtain ⟨sender, hlookup⟩ := hmem
    rcases lookup_eventStep hturn hlookup with hold | rfl
    · have hkey := mem_keys_of_lookup hold
      rw [hkeys] at hkey
      cases hkey
    · rcases receive_cases hreceive with ⟨head, -, hhead⟩ | ⟨hother, -⟩
      · rw [hqueue] at hhead
        cases hhead
      · exact hother _ rfl
  | _ => exact hkeys

theorem nobodyBeforeHealthy_step {label : GatedLabel Ip} (h : NobodyBeforeHealthy s)
    (hsteady : SteadyFeed threshold s label)
    (hstep : gatedStep env decode cfg threshold s label = some s') : NobodyBeforeHealthy s' := by
  cases label with
  | manager label =>
    rw [gatedStep, Option.map_eq_some_iff] at hstep
    obtain ⟨loop, hloop, rfl⟩ := hstep
    refine ⟨rfl, ?_⟩
    cases (move_of_managerStep hloop).2 with
    | checked hphase =>
      -- a check within the threshold
      refine .inl ?_
      simp [HealthManager.check, Nat.sub_le_iff_le_add'.mpr hsteady]
    | received | forwarded | reported | stopped => exact h.shared ▸ h.nobody
  | services label =>
    obtain ⟨hlabel, services, hservices, rfl⟩ := authStep_of_gatedStep hstep
    have hmove := move_of_authStep hservices
    have hhealth := hmove.health_eq hlabel
    refine ⟨hhealth.trans h.shared, ?_⟩
    dsimp only
    cases hstate : s.services.health with
    | healthy => exact .inl (hhealth.trans hstate)
    | unhealthy =>
      rcases h.nobody with hhealthy | ⟨hqueue, hkeys⟩
      · rw [hstate] at hhealthy
        cases hhealthy
      · exact .inr ⟨queue_of_unhealthy hstate hqueue hmove, keys_of_unhealthy hqueue hkeys hmove⟩

end Steady

/-- While every check is in time, no turn of the event loop takes a subscriber off the map for
the health of the relayer: a `try_send` of that turn has found its own stream closed, or it
has subscribed anew. -/
theorem steady_feed_drops_nobody [DecidableEq Ip] (env : AuthEnv Ip)
    (decode : List UInt8 → Option VersionedTransaction) (cfg : LoopConfig) (threshold now : Time)
    (auther : Pubkey → Bool) (ls : List (GatedLabel Ip)) (event : LoopEvent)
    (s s' : GatedRelayer Ip)
    (hsteady : StepsMeet (gatedStep env decode cfg threshold) (SteadyFeed threshold)
      (GatedRelayer.new now auther) ls)
    (hrun : runSteps (gatedStep env decode cfg threshold) (GatedRelayer.new now auther) ls = some s)
    (hturn : gatedStep env decode cfg threshold s (.services (.loopTurn event)) = some s')
    (pubkey : Pubkey) (sender : Sender)
    (hbefore : s.services.loopState.packetSubscriptions.lookup pubkey = some sender) :
    s'.services.loopState.packetSubscriptions.lookup pubkey = some sender ∨
      (∃ newSender, event.Subscribes pubkey newSender) ∨
      ∃ offer ∈ eventOffers decode cfg s.services.loopState event, offer.pubkey = pubkey ∧
        offer.sender = sender ∧ offer.result = .closed := by
  have hinv : NobodyBeforeHealthy s :=
    runSteps_invariant_of_meets NobodyBeforeHealthy
      (fun _ _ _ hinv hcond hstep => nobodyBeforeHealthy_step hinv hcond hstep) ls
      ⟨rfl, .inr ⟨rfl, rfl⟩⟩ hsteady hrun
  have hhealthy : s.services.health = .healthy := by
    refine hinv.nobody.resolve_right ?_
    rintro ⟨-, hkeys⟩
    have hkey := mem_keys_of_lookup hbefore
    rw [hkeys] at hkey
    cases hkey
  obtain ⟨-, services, hservices, rfl⟩ := authStep_of_gatedStep hturn
  obtain ⟨queue, loopState, hreceive, hloop, rfl⟩ := loopTurn_of_authStep hservices
  by_cases hafter : loopState.packetSubscriptions.lookup pubkey = some sender
  · exact .inl hafter
  · refine .inr ?_
    rcases ended_cases hloop hbefore hafter with hagain | hunhealthy | hclosed
    · exact .inl hagain
    · -- a tick that reads `Unhealthy` is one of an unhealthy relayer
      obtain ⟨order, trySend, rfl⟩ := hunhealthy
      have hread := health_of_receive hreceive
      rw [hhealthy] at hread
      cases hread
    · exact .inr hclosed

/-- A slot, a check and a client that subscribes. -/
def subscribedRun : List (GatedLabel Peer) := seenRun ++ (subscribeRun 1800 6).map .services

theorem steady_feed_drops_nobody_subscribed :
    ∃ s s', runSteps defaultGatedStep gatedStart subscribedRun = some s ∧
      defaultGatedStep s (.services (.loopTurn
        (.heartbeat .healthy [uniformKey 7] fun _ => .full))) = some s' ∧
      s.services.loopState.packetSubscriptions.lookup (uniformKey 7) = some 0 ∧
      (s'.services.loopState.packetSubscriptions.lookup (uniformKey 7) = some 0 ∨
        (∃ newSender, LoopEvent.Subscribes (uniformKey 7) newSender
          (.heartbeat .healthy [uniformKey 7] fun _ => .full)) ∨
        ∃ offer ∈ eventOffers (fun _ => none) ⟨∅, 4, true, 5⟩ s.services.loopState
            (.heartbeat .healthy [uniformKey 7] fun _ => .full),
          offer.pubkey = uniformKey 7 ∧ offer.sender = 0 ∧ offer.result = .closed) := by
  have hrun : ((runSteps defaultGatedStep gatedStart subscribedRun).map fun s =>
      (s.services.loopState.packetSubscriptions.lookup (uniformKey 7),
        (defaultGatedStep s (.services (.loopTurn
          (.heartbeat .healthy [uniformKey 7] fun _ => .full)))).isSome)) =
      some (some 0, true) := by decide
  have hsteady : StepsMeet defaultGatedStep (SteadyFeed (10 * nanosPerSecond)) gatedStart
      subscribedRun := by
    unfold StepsMeet
    decide
  obtain ⟨s, hs, hv⟩ := Option.map_eq_some_iff.mp hrun
  rw [Prod.mk.injEq] at hv
  obtain ⟨hlookup, hsome⟩ := hv
  obtain ⟨s', hs'⟩ := Option.isSome_iff_exists.mp hsome
  exact ⟨s, s', hs, hs', hlookup, steady_feed_drops_nobody _ _ _ _ _ _ subscribedRun _ s s' hsteady
    hs hs' (uniformKey 7) 0 hlookup⟩

end FlowraRelayer.Relayer
