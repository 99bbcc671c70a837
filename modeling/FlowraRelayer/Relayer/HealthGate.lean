/-
  Relayer/HealthGate.lean --- what `Healthy` says about slots, and who is let in by it.

  `managerStep` is the loop of the health manager with the clock it reads; its log says
  when a slot was received and what each check stored.  `gatedStep` puts the services
  behind the health state the manager stores, which is the only way in which that state
  changes.

  A check compares the clock with `last_update`, and `last_update` is not the time of the
  last slot: it starts as the time at which the thread started, and it is set when the
  slot has been sent on, which may wait.  `healthy_only_with_slot` says what is left of
  "healthy means that a slot was seen" when no check falls into the time that this
  leaves open, and `healthy_without_slot` is a run in which one does and a validator
  logs in.
-/
import FlowraRelayer.Foundation.Log
import FlowraRelayer.Relayer.AuthSoundness
import FlowraRelayer.Relayer.HealthManager

set_option autoImplicit false

namespace FlowraRelayer.Relayer

open FlowraRelayer.Foundation
open FlowraRelayer.Solana

variable {Ip : Type}

/-! ## The loop of the manager -/

/-- What the loop records. -/
inductive ManagerEvent where
  | received (now : Time) (slot : Slot)
  | checked (now : Time) (stored : HealthState)
  deriving DecidableEq

/-- When a slot was received. -/
def ManagerEvent.receivedAt : ManagerEvent → Option Time
  | .received now _ => some now
  | .checked _ _ => none

/-- When the last slot was received. -/
def lastReceived (log : List ManagerEvent) : Option Time :=
  (log.filterMap ManagerEvent.receivedAt).getLast?

/-- The manager thread with the clock it reads. -/
structure ManagerLoop where
  manager : HealthManager
  now : Time
  startedAt : Time
  log : List ManagerEvent
  deriving DecidableEq

/-- The thread as it starts. -/
def ManagerLoop.new (now : Time) : ManagerLoop where
  manager := HealthManager.new now
  now := now
  startedAt := now
  log := []

/-- The steps of the loop.  The arm of `slot_receiver` is two: the slot is taken out of
one channel and then sent on the other, which may have to wait for room. -/
inductive ManagerLabel where
  | check (now : Time)
  | receive (now : Time) (slot : Slot)
  | forward (now : Time)
  | channelLen (now : Time)
  /-- the exit flag is seen, or a channel is closed -/
  | stop (now : Time)

/-- The clock reading of a step. -/
def ManagerLabel.now : ManagerLabel → Time
  | .check now | .receive now _ | .forward now | .channelLen now | .stop now => now

/-- One step, at time `s.now`. -/
def managerArm (missingSlotUnhealthyThreshold : Time) (s : ManagerLoop) :
    ManagerLabel → Option ManagerLoop
  | .check now =>
      match s.manager.phase with
      | .selecting =>
          let manager := s.manager.check missingSlotUnhealthyThreshold now
          some { s with manager, log := s.log ++ [.checked now manager.state] }
      | _ => none
  | .receive now slot =>
      match s.manager.phase with
      | .selecting =>
          some
            { s with
              manager := { s.manager with phase := .forwarding slot }
              log := s.log ++ [.received now slot] }
      | _ => none
  | .forward now =>
      match s.manager.phase with
      | .forwarding _ => some { s with manager := s.manager.forwarded now }
      | _ => none
  -- the arm of `channel_len_tick` only reports
  | .channelLen _ =>
      match s.manager.phase with
      | .selecting => some s
      | _ => none
  | .stop _ => some { s with manager := { s.manager with phase := .stopped } }

/-- The loop as a partial step function; the clock does not go back. -/
def managerStep (missingSlotUnhealthyThreshold : Time) (s : ManagerLoop) (label : ManagerLabel) :
    Option ManagerLoop :=
  if s.now ≤ label.now then
    managerArm missingSlotUnhealthyThreshold { s with now := label.now } label
  else none

/-! ## Healthy for a reason -/

/-- A check that stored `Healthy` comes at most the threshold after a slot was
received. -/
def HealthEarned (threshold : Time) (before : List ManagerEvent) : ManagerEvent → Prop
  | .checked now .healthy =>
      ∃ time slot, .received time slot ∈ before ∧ time ≤ now ∧ now ≤ time + threshold
  | _ => True

/-- A slot is sent on within `delay` of its receipt.  A check before the first slot
comes when the threshold has run out since the start, and one after it either within
the threshold of the last slot or not within `delay` after that. -/
def Timely (threshold delay : Time) (s : ManagerLoop) : ManagerLabel → Prop
  | .check now =>
      (lastReceived s.log = none → s.startedAt + threshold < now) ∧
        ∀ time ∈ lastReceived s.log, now ≤ time + threshold ∨ time + threshold + delay < now
  | .forward now => ∀ time ∈ lastReceived s.log, now ≤ time + delay
  | _ => True

instance (threshold delay : Time) (s : ManagerLoop) (label : ManagerLabel) :
    Decidable (Timely threshold delay s label) :=
  match label with
  | .check now =>
      inferInstanceAs (Decidable ((lastReceived s.log = none → s.startedAt + threshold < now) ∧
        ∀ time ∈ lastReceived s.log, now ≤ time + threshold ∨ time + threshold + delay < now))
  | .forward now => inferInstanceAs (Decidable (∀ time ∈ lastReceived s.log, now ≤ time + delay))
  | .receive _ _ | .channelLen _ | .stop _ => inferInstanceAs (Decidable True)

section Manager

variable {threshold delay : Time} {s s' : ManagerLoop} {label : ManagerLabel}

/-! ### What a step does -/

/-- The steps of the loop, by what they do. -/
inductive ManagerMove (threshold : Time) (s : ManagerLoop) : ManagerLabel → ManagerLoop → Prop where
  | checked {now : Time} (hphase : s.manager.phase = .selecting) :
      ManagerMove threshold s (.check now)
        ⟨s.manager.check threshold now, now, s.startedAt,
          s.log ++ [.checked now (s.manager.check threshold now).state]⟩
  | received {now : Time} {slot : Slot} (hphase : s.manager.phase = .selecting) :
      ManagerMove threshold s (.receive now slot)
        ⟨{ s.manager with phase := .forwarding slot }, now, s.startedAt,
          s.log ++ [.received now slot]⟩
  | forwarded {now : Time} {slot : Slot} (hphase : s.manager.phase = .forwarding slot) :
      ManagerMove threshold s (.forward now)
        ⟨s.manager.forwarded now, now, s.startedAt, s.log⟩
  | reported {now : Time} :
      ManagerMove threshold s (.channelLen now) ⟨s.manager, now, s.startedAt, s.log⟩
  | stopped {now : Time} :
      ManagerMove threshold s (.stop now)
        ⟨{ s.manager with phase := .stopped }, now, s.startedAt, s.log⟩

theorem move_of_managerStep (hstep : managerStep threshold s label = some s') :
    s.now ≤ label.now ∧ ManagerMove threshold s label s' := by
  rw [managerStep, Option.ite_none_right_eq_some] at hstep
  obtain ⟨hnow, hstep⟩ := hstep
  refine ⟨hnow, ?_⟩
  cases label with
  | check now =>
    simp only [managerArm] at hstep
    split at hstep
    · next hphase =>
      cases hstep
      exact .checked hphase
    · cases hstep
  | receive now slot =>
    simp only [managerArm] at hstep
    split at hstep
    · next hphase =>
      cases hstep
      exact .received hphase
    · cases hstep
  | forward now =>
    simp only [managerArm] at hstep
    split at hstep
    · next hphase =>
      cases hstep
      exact .forwarded hphase
    · cases hstep
  | channelLen now =>
    simp only [managerArm] at hstep
    split at hstep
    · cases hstep
      exact .reported
    · cases hstep
  | stop now =>
    cases hstep
    exact .stopped

@[simp] theorem lastReceived_checked (log : List ManagerEvent) (now : Time) (stored : HealthState) :
    lastReceived (log ++ [.checked now stored]) = lastReceived log := by
  simp [lastReceived, ManagerEvent.receivedAt]

@[simp] theorem lastReceived_received (log : List ManagerEvent) (now : Time) (slot : Slot) :
    lastReceived (log ++ [.received now slot]) = some now := by
  simp [lastReceived, ManagerEvent.receivedAt]

/-- The last slot is in the log. -/
theorem received_of_lastReceived {log : List ManagerEvent} {time : Time}
    (h : lastReceived log = some time) : ∃ slot, .received time slot ∈ log := by
  obtain ⟨event, hmem, hevent⟩ := List.mem_filterMap.mp (List.mem_of_getLast? h)
  cases event with
  | received now slot =>
    cases hevent
    exact ⟨slot, hmem⟩
  | checked now stored => cases hevent

/-- A slot once received stays received. -/
theorem ManagerMove.unseen (hmove : ManagerMove threshold s label s')
    (hnone : lastReceived s'.log = none) : lastReceived s.log = none := by
  cases hmove with
  | checked => rwa [lastReceived_checked] at hnone
  | received =>
    rw [lastReceived_received] at hnone
    cases hnone
  | forwarded | reported | stopped => exact hnone

/-! ### What the loop keeps -/

/-- A check more than the threshold after `last_update` stores `Unhealthy`. -/
theorem check_unhealthy {m : HealthManager} {now : Time} (h : m.lastUpdate + threshold < now) :
    (m.check threshold now).state = .unhealthy := by
  have hlate : ¬ now - m.lastUpdate ≤ threshold := by
    rw [Nat.sub_le_iff_le_add']
    exact Nat.not_le.mpr h
  simp [HealthManager.check, hlate]

/-- What the loop keeps: its checks are earned, `last_update` is the start or shortly
after the last slot, and without a slot the state is unhealthy. -/
structure ManagerInv (threshold delay : Time) (s : ManagerLoop) : Prop where
  earned : Grounded (HealthEarned threshold) s.log
  unseen : lastReceived s.log = none →
    s.manager.lastUpdate = s.startedAt ∧ s.manager.state = .unhealthy ∧
      ∀ slot, s.manager.phase ≠ .forwarding slot
  past : ∀ time ∈ lastReceived s.log, time ≤ s.now
  updated : ∀ time ∈ lastReceived s.log, s.manager.phase = .selecting →
    s.manager.lastUpdate ≤ time + delay

theorem managerInv_new (now : Time) : ManagerInv threshold delay (ManagerLoop.new now) where
  earned := .nil
  unseen _ := ⟨rfl, rfl, fun _ h => by cases h⟩
  past := by
    intro time h
    cases h
  updated := by
    intro time h
    cases h

/-- Where the condition keeps a check out of the time left open, it stores `Healthy`
only with a slot. -/
theorem earned_check {now : Time} (hinv : ManagerInv threshold delay s)
    (htimely : Timely threshold delay s (.check now)) (hnow : s.now ≤ now)
    (hphase : s.manager.phase = .selecting) :
    HealthEarned threshold s.log (.checked now (s.manager.check threshold now).state) := by
  obtain ⟨hunseen, hseen⟩ := htimely
  cases hstored : (s.manager.check threshold now).state with
  | unhealthy => trivial
  | healthy =>
    cases hlast : lastReceived s.log with
    | none =>
      have hstart := (hinv.unseen hlast).1
      rw [check_unhealthy (hstart ▸ hunseen hlast)] at hstored
      cases hstored
    | some time =>
      obtain ⟨slot, hmem⟩ := received_of_lastReceived hlast
      have hpast : time ≤ now := Nat.le_trans (hinv.past time hlast) hnow
      rcases hseen time hlast with hfresh | hlate
      · exact ⟨time, slot, hmem, hpast, hfresh⟩
      · -- `last_update` is at most `delay` after the slot: the threshold has run out on it too
        have hupdate := hinv.updated time hlast hphase
        have hrunOut : s.manager.lastUpdate + threshold < now := by
          refine Nat.lt_of_le_of_lt ?_ hlate
          rw [Nat.add_right_comm]
          exact Nat.add_le_add_right hupdate threshold
        rw [check_unhealthy hrunOut] at hstored
        cases hstored

/-- Every timely step of the loop keeps it. -/
theorem managerInv_step (hinv : ManagerInv threshold delay s)
    (htimely : Timely threshold delay s label) (hstep : managerStep threshold s label = some s') :
    ManagerInv threshold delay s' := by
  obtain ⟨hnow, hmove⟩ := move_of_managerStep hstep
  have hpast : ∀ time ∈ lastReceived s.log, time ≤ label.now := by
    intro time hlast
    exact Nat.le_trans (hinv.past time hlast) hnow
  cases hmove with
  | checked hphase =>
    refine ⟨.concat hinv.earned (earned_check hinv htimely hnow hphase), ?_, ?_, ?_⟩
    · intro hlast
      rw [lastReceived_checked] at hlast
      obtain ⟨hstart, -, hnone⟩ := hinv.unseen hlast
      exact ⟨hstart, check_unhealthy (hstart ▸ htimely.1 hlast), hnone⟩
    · rw [lastReceived_checked]
      exact hpast
    · rw [lastReceived_checked]
      exact hinv.updated
  | received hphase =>
    refine ⟨.concat hinv.earned trivial, ?_, ?_, ?_⟩
    · intro hlast
      rw [lastReceived_received] at hlast
      cases hlast
    · intro time hlast
      rw [lastReceived_received] at hlast
      cases hlast
      exact Nat.le_refl _
    · intro time _ hselecting
      cases hselecting
  | forwarded hphase =>
    refine ⟨hinv.earned, ?_, hpast, ?_⟩
    · intro hlast
      exact absurd hphase ((hinv.unseen hlast).2.2 _)
    · intro time hlast _
      exact htimely time hlast
  | reported => exact ⟨hinv.earned, hinv.unseen, hpast, hinv.updated⟩
  | stopped =>
    refine ⟨hinv.earned, ?_, hpast, ?_⟩
    · intro hlast
      obtain ⟨hstart, hstate, -⟩ := hinv.unseen hlast
      exact ⟨hstart, hstate, fun _ h => by cases h⟩
    · intro time _ hselecting
      cases hselecting

end Manager

/-! ## The services behind the gate -/

section Services

variable [DecidableEq Ip] {env : AuthEnv Ip} {decode : List UInt8 → Option VersionedTransaction}
  {cfg : LoopConfig} {s s' : AuthState Ip} {label : AuthLabel Ip}

/-- Every request that was answered was refused, and the ones in flight have only got
past the interceptor. -/
structure Unserved (s : AuthState Ip) : Prop where
  calls : ∀ id call, s.calls.lookup id = some call → ∃ extension, call = .subscribe extension
  replies : ∀ id reply, .replied id reply ∈ s.history → ∃ failure, reply = .failure failure

omit [DecidableEq Ip] in
theorem Unserved.settle_failure (h : Unserved s) (id : Nat) (failure : Failure) :
    Unserved (s.settle id (.failure failure)) := by
  constructor
  · intro id' call hlookup
    exact h.calls id' call (lookup_erase_cases hlookup).2
  · intro id' reply hmem
    rcases List.mem_append.mp hmem with hold | hnew
    · exact h.replies id' reply hold
    · rw [List.mem_singleton] at hnew
      cases hnew
      exact ⟨failure, rfl⟩

omit [DecidableEq Ip] in
theorem Unserved.wait_subscribe (h : Unserved s) (id : Nat) (extension : Option Pubkey)
    (acceptance : Acceptance Ip) :
    Unserved ((s.log (.accepted acceptance)).wait id (.subscribe extension)) := by
  constructor
  · intro id' call hlookup
    rcases lookup_insert_cases hlookup with ⟨-, rfl⟩ | hold
    · exact ⟨extension, rfl⟩
    · exact h.calls id' call hold
  · intro id' reply hmem
    rcases List.mem_append.mp hmem with hold | hnew
    · exact h.replies id' reply hold
    · rw [List.mem_singleton] at hnew
      cases hnew

omit [DecidableEq Ip] in
/-- A check of the health state refuses every request that makes it. -/
theorem unserved_arrivalStep {id : Nat} (hhealth : s.health = .unhealthy) (h : Unserved s)
    (hstep : arrivalStep env s id label = some s') : Unserved s' := by
  cases label with
  | challengeRequest id' req =>
    simp only [arrivalStep, hhealth] at hstep
    cases hstep
    exact h.settle_failure id _
  | tokensRequest id' req =>
    simp only [arrivalStep, hhealth] at hstep
    cases hstep
    exact h.settle_failure id _
  | refresh id' clock req =>
    simp only [arrivalStep, hhealth] at hstep
    cases hstep
    exact h.settle_failure id _
  | intercept id' now req =>
    simp only [arrivalStep] at hstep
    split at hstep
    · cases hstep
      exact h.settle_failure id _
    · cases hstep
      exact h.wait_subscribe id _ _
  | _ => cases hstep

/-- So does the one of `subscribe_packets`, the only request in flight. -/
theorem unserved_callStep {id : Nat} {extension : Option Pubkey} (hhealth : s.health = .unhealthy)
    (h : Unserved s) (hstep : callStep env s id label (.subscribe extension) = some s') :
    Unserved s' := by
  cases label with
  | subscribe id' =>
    simp only [callStep, hhealth] at hstep
    cases hstep
    exact h.settle_failure id _
  | abandon id' =>
    cases hstep
    refine ⟨?_, h.replies⟩
    intro id' call hlookup
    exact h.calls id' call (lookup_erase_cases hlookup).2
  | _ => cases hstep

/-- While the relayer is unhealthy every request that is answered is refused. -/
theorem unserved_authStep (hhealth : s.health = .unhealthy) (h : Unserved s)
    (hstep : authStep env decode cfg s label = some s') : Unserved s' := by
  unfold authStep at hstep
  split at hstep
  · obtain ⟨hcalls, hhistory⟩ := frame_backgroundStep hstep
    constructor
    · rw [hcalls]
      exact h.calls
    · rw [hhistory]
      exact h.replies
  · split at hstep
    · exact unserved_arrivalStep hhealth h hstep
    · cases hstep
  · split at hstep
    · cases hstep
    · next call hcall =>
      obtain ⟨extension, rfl⟩ := h.calls _ call hcall
      exact unserved_callStep hhealth h hstep

end Services

/-! ## The manager and the services -/

/-- The relayer from its start: the manager thread and the services that read the health
state it stores. -/
structure GatedRelayer (Ip : Type) where
  loop : ManagerLoop
  services : AuthState Ip

/-- A step of the manager or of the services. -/
inductive GatedLabel (Ip : Type) where
  | manager (label : ManagerLabel)
  | services (label : AuthLabel Ip)

/-- The start of both; the health state starts as `Unhealthy`. -/
def GatedRelayer.new (now : Time) (auther : Pubkey → Bool) : GatedRelayer Ip where
  loop := ManagerLoop.new now
  services := AuthState.init (ManagerLoop.new now).manager.state auther

variable [DecidableEq Ip]

/-- The composed system: the services see what the manager stored last, and nobody else
stores it. -/
def gatedStep (env : AuthEnv Ip) (decode : List UInt8 → Option VersionedTransaction)
    (cfg : LoopConfig) (missingSlotUnhealthyThreshold : Time) (s : GatedRelayer Ip) :
    GatedLabel Ip → Option (GatedRelayer Ip)
  | .manager label =>
      (managerStep missingSlotUnhealthyThreshold s.loop label).map fun loop =>
        { loop, services := { s.services with health := loop.manager.state } }
  | .services (.setHealth _) => none
  | .services label =>
      (authStep env decode cfg s.services label).map fun services => { s with services }

/-- The manager's steps are timely. -/
def GatedTimely (threshold delay : Time) (s : GatedRelayer Ip) : GatedLabel Ip → Prop
  | .manager label => Timely threshold delay s.loop label
  | .services _ => True

instance (threshold delay : Time) (s : GatedRelayer Ip) (label : GatedLabel Ip) :
    Decidable (GatedTimely threshold delay s label) :=
  match label with
  | .manager label => inferInstanceAs (Decidable (Timely threshold delay s.loop label))
  | .services _ => inferInstanceAs (Decidable True)

/-- What being healthy is taken to say. -/
structure HealthGated (threshold : Time) (s : GatedRelayer Ip) : Prop where
  /-- every check that stored `Healthy` had a slot within the threshold before it -/
  earned : Grounded (HealthEarned threshold) s.loop.log
  /-- before the first slot every answer is a refusal -/
  refused : lastReceived s.loop.log = none →
    ∀ id reply, .replied id reply ∈ s.services.history → ∃ failure, reply = .failure failure

/-- What the composed system keeps. -/
structure GateInv (threshold delay : Time) (s : GatedRelayer Ip) : Prop where
  loop : ManagerInv threshold delay s.loop
  shared : s.services.health = s.loop.manager.state
  unserved : lastReceived s.loop.log = none → Unserved s.services

section Gate

variable {env : AuthEnv Ip} {decode : List UInt8 → Option VersionedTransaction}
  {cfg : LoopConfig} {threshold delay : Time} {s s' : GatedRelayer Ip} {label : GatedLabel Ip}

omit [DecidableEq Ip] in
theorem gateInv_new (now : Time) (auther : Pubkey → Bool) :
    GateInv threshold delay (GatedRelayer.new now auther : GatedRelayer Ip) where
  loop := managerInv_new now
  shared := rfl
  unserved _ := by
    constructor
    · intro id call hlookup
      cases hlookup
    · intro id reply hmem
      cases hmem

/-- A step of the services in the composed system, which never stores the health state. -/
theorem authStep_of_gatedStep {label : AuthLabel Ip}
    (hstep : gatedStep env decode cfg threshold s (.services label) = some s') :
    (∀ health, label ≠ .setHealth health) ∧
      ∃ services, authStep env decode cfg s.services label = some services ∧
        s' = { s with services } := by
  have hlabel : ∀ health, label ≠ .setHealth health := by
    rintro health rfl
    cases hstep
  refine ⟨hlabel, ?_⟩
  cases label with
  | setHealth health => exact absurd rfl (hlabel health)
  | _ =>
    simp only [gatedStep, Option.map_eq_some_iff] at hstep
    obtain ⟨services, hservices, rfl⟩ := hstep
    exact ⟨services, hservices, rfl⟩

theorem gateInv_step (hinv : GateInv threshold delay s)
    (htimely : GatedTimely threshold delay s label)
    (hstep : gatedStep env decode cfg threshold s label = some s') :
    GateInv threshold delay s' := by
  cases label with
  | manager label =>
    rw [gatedStep, Option.map_eq_some_iff] at hstep
    obtain ⟨loop, hloop, rfl⟩ := hstep
    refine ⟨managerInv_step hinv.loop htimely hloop, rfl, ?_⟩
    intro hnone
    have hunserved := hinv.unserved ((move_of_managerStep hloop).2.unseen hnone)
    exact ⟨hunserved.calls, hunserved.replies⟩
  | services label =>
    obtain ⟨hlabel, services, hservices, rfl⟩ := authStep_of_gatedStep hstep
    have hhealth := (move_of_authStep hservices).health_eq hlabel
    refine ⟨hinv.loop, hhealth.trans hinv.shared, ?_⟩
    intro hnone
    have hunhealthy : s.services.health = .unhealthy :=
      hinv.shared.trans (hinv.loop.unseen hnone).2.1
    exact unserved_authStep hunhealthy (hinv.unserved hnone) hservices

end Gate

/-- In every run whose manager steps are timely, every check that stored `Healthy` had a
slot within the threshold before it, and before the first slot nobody gets a challenge,
a token or a stream. -/
theorem healthy_only_with_slot (env : AuthEnv Ip)
    (decode : List UInt8 → Option VersionedTransaction) (cfg : LoopConfig)
    (threshold delay now : Time) (auther : Pubkey → Bool) (ls : List (GatedLabel Ip))
    (s : GatedRelayer Ip)
    (htimely : StepsMeet (gatedStep env decode cfg threshold) (GatedTimely threshold delay)
      (GatedRelayer.new now auther) ls)
    (hrun : runSteps (gatedStep env decode cfg threshold) (GatedRelayer.new now auther) ls =
      some s) : HealthGated threshold s := by
  have hinv : GateInv threshold delay s :=
    runSteps_invariant_of_meets (GateInv threshold delay)
      (fun _ _ _ hinv hcond hstep => gateInv_step hinv hcond hstep) ls
      (gateInv_new now auther) htimely hrun
  exact ⟨hinv.loop.earned, fun hnone => (hinv.unserved hnone).replies⟩

/-- The step function of a relayer with the default lifetimes and the default threshold of
ten seconds. -/
abbrev defaultGatedStep : GatedRelayer Peer → GatedLabel Peer → Option (GatedRelayer Peer) :=
  gatedStep (clientEnv [1800, 180000] 1800 180000) (fun _ => none) ⟨∅, 4, true, 5⟩
    (10 * nanosPerSecond)

/-- The start of a relayer that accepts the client. -/
abbrev gatedStart : GatedRelayer Peer := GatedRelayer.new 0 fun key => key = uniformKey 7

/-- A slot is received after one second and sent on in a millisecond; the check after
five seconds lets the client log in. -/
def seenRun : List (GatedLabel Peer) :=
  [ .manager (.receive nanosPerSecond 100)
  , .manager (.forward (nanosPerSecond + nanosPerMilli))
  , .manager (.check (5 * nanosPerSecond)) ] ++ loginRun.map .services

/-- The pairs of tokens handed out. -/
def GatedRelayer.tokenPairs (s : GatedRelayer Ip) : Nat :=
  s.services.history.countP fun
    | .replied _ (.tokens _ _ _ _) => true
    | _ => false

theorem healthy_only_with_slot_seen :
    ∃ s, runSteps defaultGatedStep gatedStart seenRun = some s ∧
      s.loop.log = [.received nanosPerSecond 100, .checked (5 * nanosPerSecond) .healthy] ∧
      s.tokenPairs = 1 ∧ HealthGated (10 * nanosPerSecond) s := by
  have hrun : (runSteps defaultGatedStep gatedStart seenRun).map
      (fun s => (s.loop.log, s.tokenPairs)) =
        some ([.received nanosPerSecond 100, .checked (5 * nanosPerSecond) .healthy], 1) := by
    decide
  have htimely : StepsMeet defaultGatedStep (GatedTimely (10 * nanosPerSecond) nanosPerMilli)
      gatedStart seenRun := by
    unfold StepsMeet
    decide
  obtain ⟨s, hs, hv⟩ := Option.map_eq_some_iff.mp hrun
  rw [Prod.mk.injEq] at hv
  exact ⟨s, hs, hv.1, hv.2, healthy_only_with_slot _ _ _ _ _ _ _ _ s htimely hs⟩

/-- The first check, half the threshold after the start, and the login of the client; no
slot is ever received. -/
def unseenRun : List (GatedLabel Peer) :=
  .manager (.check (5 * nanosPerSecond)) :: loginRun.map .services

/-- Without a slot the first check stores `Healthy`, and a validator gets its tokens. -/
theorem healthy_without_slot :
    (¬ ∀ (ls : List (GatedLabel Peer)) (s : GatedRelayer Peer),
      runSteps defaultGatedStep gatedStart ls = some s →
        Grounded (HealthEarned (10 * nanosPerSecond)) s.loop.log) ∧
    ¬ ∀ (ls : List (GatedLabel Peer)) (s : GatedRelayer Peer),
      runSteps defaultGatedStep gatedStart ls = some s → lastReceived s.loop.log = none →
        ∀ id reply, .replied id reply ∈ s.services.history →
          ∃ failure, reply = .failure failure := by
  have hrun : (runSteps defaultGatedStep gatedStart unseenRun).map
      (fun s => (s.loop.log, s.tokenPairs)) =
        some ([.checked (5 * nanosPerSecond) .healthy], 1) := by decide
  obtain ⟨s, hs, hv⟩ := Option.map_eq_some_iff.mp hrun
  rw [Prod.mk.injEq] at hv
  obtain ⟨hlog, hpairs⟩ := hv
  constructor
  · intro h
    have hearned : HealthEarned (10 * nanosPerSecond) (s.loop.log.take 0)
        (.checked (5 * nanosPerSecond) .healthy) :=
      (h unseenRun s hs).justified_at (by rw [hlog]; rfl)
    obtain ⟨time, slot, hmem, -⟩ := hearned
    cases hmem
  · intro h
    have hpositive : 0 < s.tokenPairs := by
      rw [hpairs]
      exact Nat.one_pos
    obtain ⟨event, hmem, hevent⟩ := List.countP_pos_iff.mp hpositive
    split at hevent
    · next id push now access refresh =>
      obtain ⟨failure, hfailure⟩ := h unseenRun s hs (by rw [hlog]; rfl) _ _ hmem
      cases hfailure
    · cases hevent

end FlowraRelayer.Relayer
