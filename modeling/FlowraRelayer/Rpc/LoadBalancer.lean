/-
  Rpc/LoadBalancer.lean --- the slot fan-in of `rpc/src/load_balancer.rs`.

  One subscription thread per RPC server receives slots, notes them in the shared
  map, raises the shared `highest_slot` and, if it did raise it, sends the slot on
  the one slot channel.  `threadStep` cuts a thread at the points where another
  thread can run in between: receive, insert, `fetch_max`, send.  A full channel
  blocks the sender.

  The fields `received` and `sent` record what happened; no step reads them.
  Left out: the RPC clients and the data points of the metrics backend.
-/
import FlowraRelayer.Foundation.Run
import FlowraRelayer.Solana.Transaction

set_option autoImplicit false

namespace FlowraRelayer.Rpc

open FlowraRelayer.Foundation
open FlowraRelayer.Solana

/-- `DISCONNECT_WEBSOCKET_TIMEOUT`. -/
def disconnectWebsocketTimeout : Time := 30 * nanosPerSecond

/-- `SLOT_QUEUE_CAPACITY`. -/
def slotQueueCapacity : Nat := 100

/-! ## State -/

/-- Where a subscription thread stands. -/
inductive ThreadPhase where
  /-- at the head of the outer loop -/
  | connecting
  /-- at `recv_timeout` in the inner loop -/
  | receiving
  /-- a slot arrived and is not yet noted -/
  | received (slot : Slot)
  /-- the slot is noted and not yet compared -/
  | inserted (slot : Slot)
  /-- `fetch_max` returned a lower slot; this one is still to be sent -/
  | raised (slot : Slot)
  | stopped
  deriving DecidableEq

/-- The slot a thread still has to send. -/
def ThreadPhase.pending? : ThreadPhase → Option Slot
  | .raised slot => some slot
  | _ => none

theorem ThreadPhase.mem_pending? {phase : ThreadPhase} {slot : Slot} :
    slot ∈ phase.pending? ↔ phase = .raised slot := by
  cases phase <;> simp [ThreadPhase.pending?]

/-- A subscription thread with its local `last_slot_update`. -/
structure SubscriptionThread where
  phase : ThreadPhase
  lastSlotUpdate : Time

/-- The shared state of the subscription threads and the slot channel. -/
structure LoadBalancer where
  threads : Nat → SubscriptionThread
  serverToSlot : String → Option Slot
  highestSlot : Slot
  /-- what is in the slot channel, oldest first -/
  queue : List Slot
  /-- whether the other end of the slot channel still exists -/
  receiverAlive : Bool
  /-- every slot a thread received -/
  received : List Slot
  /-- every slot that went into the channel -/
  sent : List Slot

/-- `LoadBalancer::new` for the given pairs of RPC and websocket addresses. -/
def LoadBalancer.new (servers : List (String × String)) : LoadBalancer where
  threads := fun _ => ⟨.connecting, 0⟩
  serverToSlot := fun ws => if ws ∈ servers.map Prod.snd then some 0 else none
  highestSlot := 0
  queue := []
  receiverAlive := true
  received := []
  sent := []

/-- Replace the state of one thread. -/
def LoadBalancer.setThread (lb : LoadBalancer) (i : Nat) (thread : SubscriptionThread) :
    LoadBalancer :=
  { lb with threads := Function.update lb.threads i thread }

/-! ## Steps -/

/-- The answer of `receiver.recv_timeout`. -/
inductive RecvTimeout where
  | slot (slot : Slot)
  | timeout
  | disconnected
  deriving DecidableEq

/-- The atomic steps of a subscription thread. -/
inductive ThreadLabel where
  /-- one turn of the outer loop up to the answer of `slot_subscribe` -/
  | subscribe (now : Time) (ok : Bool)
  | recv (now : Time) (answer : RecvTimeout)
  | insert
  | fetchMax
  | send
  deriving DecidableEq

/-- One step of the thread of server `i`; `exit` is the shared flag as the thread
reads it. -/
def threadStep (servers : List (String × String)) (exit : Bool) (lb : LoadBalancer) (i : Nat)
    (label : ThreadLabel) : Option LoadBalancer :=
  (servers.map Prod.snd)[i]?.bind fun websocketUrl =>
    let thread := lb.threads i
    match thread.phase, label with
    | .connecting, .subscribe now ok =>
        if exit then some (lb.setThread i { thread with phase := .stopped })
        else some (lb.setThread i ⟨if ok then .receiving else .connecting, now⟩)
    | .receiving, .recv now answer =>
        if exit then some (lb.setThread i { thread with phase := .connecting })
        else
          match answer with
          | .slot slot =>
              some { lb.setThread i ⟨.received slot, now⟩ with received := lb.received ++ [slot] }
          | .timeout =>
              -- a server that has been silent for too long is dropped and subscribed anew
              if disconnectWebsocketTimeout ≤ now - thread.lastSlotUpdate then
                some (lb.setThread i { thread with phase := .connecting })
              else some lb
          | .disconnected => some (lb.setThread i { thread with phase := .connecting })
    | .received slot, .insert =>
        some
          { lb.setThread i { thread with phase := .inserted slot } with
            serverToSlot := Function.update lb.serverToSlot websocketUrl (some slot) }
    | .inserted slot, .fetchMax =>
        let oldSlot := lb.highestSlot
        some
          { lb.setThread i
              { thread with phase := if oldSlot < slot then .raised slot else .receiving } with
            highestSlot := max oldSlot slot }
    | .raised slot, .send =>
        if lb.receiverAlive then
          if lb.queue.length < slotQueueCapacity then
            some
              { lb.setThread i { thread with phase := .receiving } with
                queue := lb.queue ++ [slot]
                sent := lb.sent ++ [slot] }
          else none
        else some (lb.setThread i { thread with phase := .connecting })
    | _, _ => none

theorem lt_length_of_threadStep {servers : List (String × String)} {exit : Bool}
    {lb lb' : LoadBalancer} {i : Nat} {label : ThreadLabel}
    (h : threadStep servers exit lb i label = some lb') : i < servers.length := by
  unfold threadStep at h
  rw [Option.bind_eq_some_iff] at h
  obtain ⟨_, hget, _⟩ := h
  obtain ⟨hlt, _⟩ := List.getElem?_eq_some_iff.mp hget
  simpa using hlt

/-- What a step of a thread can do: move on without a slot, receive one, note it,
compare it, or send it. -/
theorem threadStep_cases {servers : List (String × String)} {exit : Bool} {lb lb' : LoadBalancer}
    {i : Nat} {label : ThreadLabel} (h : threadStep servers exit lb i label = some lb') :
    (∃ thread, (∀ slot, thread.phase ≠ .received slot) ∧ (∀ slot, thread.phase ≠ .inserted slot) ∧
      (∀ slot, thread.phase ≠ .raised slot) ∧
      (lb.receiverAlive = false ∨ ∀ slot, (lb.threads i).phase ≠ .raised slot) ∧
      lb' = lb.setThread i thread) ∨
    (∃ now slot, label = .recv now (.slot slot) ∧ (lb.threads i).phase = .receiving ∧
      lb' = { lb.setThread i ⟨.received slot, now⟩ with received := lb.received ++ [slot] }) ∨
    (∃ websocketUrl slot, label = .insert ∧ (lb.threads i).phase = .received slot ∧
      lb' =
        { lb.setThread i { lb.threads i with phase := .inserted slot } with
          serverToSlot := Function.update lb.serverToSlot websocketUrl (some slot) }) ∨
    (∃ slot, label = .fetchMax ∧ (lb.threads i).phase = .inserted slot ∧
      lb' =
        { lb.setThread i
            { lb.threads i with
              phase := if lb.highestSlot < slot then .raised slot else .receiving } with
          highestSlot := max lb.highestSlot slot }) ∨
    (∃ slot, label = .send ∧ (lb.threads i).phase = .raised slot ∧ lb.receiverAlive = true ∧
      lb.queue.length < slotQueueCapacity ∧
      lb' =
        { lb.setThread i { lb.threads i with phase := .receiving } with
          queue := lb.queue ++ [slot]
          sent := lb.sent ++ [slot] }) := by
  unfold threadStep at h
  rw [Option.bind_eq_some_iff] at h
  obtain ⟨websocketUrl, _, h⟩ := h
  dsimp only at h
  split at h
  · rename_i now ok hphase
    have hraised : ∀ slot, (lb.threads i).phase ≠ .raised slot := by simp [hphase]
    refine .inl ?_
    split at h <;> obtain rfl := Option.some.inj h
    · exact ⟨_, by simp, by simp, by simp, .inr hraised, rfl⟩
    · refine ⟨_, ?_, ?_, ?_, .inr hraised, rfl⟩ <;> intro slot <;> cases ok <;> simp
  · rename_i now answer hphase
    have hraised : ∀ slot, (lb.threads i).phase ≠ .raised slot := by simp [hphase]
    split at h
    · obtain rfl := Option.some.inj h
      exact .inl ⟨_, by simp, by simp, by simp, .inr hraised, rfl⟩
    · cases answer with
      | slot slot => exact .inr (.inl ⟨now, slot, rfl, hphase, (Option.some.inj h).symm⟩)
      | timeout =>
        refine .inl ?_
        dsimp only at h
        split at h <;> obtain rfl := Option.some.inj h
        · exact ⟨_, by simp, by simp, by simp, .inr hraised, rfl⟩
        · refine ⟨lb.threads i, ?_, ?_, hraised, .inr hraised, ?_⟩
          · simp [hphase]
          · simp [hphase]
          · simp only [LoadBalancer.setThread, Function.update_eq_self]
      | disconnected =>
        obtain rfl := Option.some.inj h
        exact .inl ⟨_, by simp, by simp, by simp, .inr hraised, rfl⟩
  · rename_i slot hphase
    exact .inr (.inr (.inl ⟨websocketUrl, slot, rfl, hphase, (Option.some.inj h).symm⟩))
  · rename_i slot hphase
    exact .inr (.inr (.inr (.inl ⟨slot, rfl, hphase, (Option.some.inj h).symm⟩)))
  · rename_i slot hphase
    split at h
    · rename_i halive
      split at h
      · rename_i hlen
        exact .inr (.inr (.inr (.inr ⟨slot, rfl, hphase, halive, hlen, (Option.some.inj h).symm⟩)))
      · cases h
    · rename_i hgone
      obtain rfl := Option.some.inj h
      exact .inl ⟨_, by simp, by simp, by simp, .inl (by simpa using hgone), rfl⟩
  · cases h

/-! ## Order of the slots sent -/

/-- Thread `i` has raised the shared maximum to `slot` and not yet sent it. -/
def LoadBalancer.Pending (lb : LoadBalancer) (i : Nat) (slot : Slot) : Prop :=
  (lb.threads i).phase = .raised slot

/-- The shared maximum bounds everything raised, and no slot is raised twice. -/
structure FanIn (servers : List (String × String)) (lb : LoadBalancer) : Prop where
  pending_lt : ∀ i slot, lb.Pending i slot → i < servers.length
  sent_le : ∀ slot ∈ lb.sent, slot ≤ lb.highestSlot
  pending_le : ∀ i slot, lb.Pending i slot → slot ≤ lb.highestSlot
  pending_unique : ∀ i j slot, lb.Pending i slot → lb.Pending j slot → i = j

/-- The slots sent increase, and whatever is still to be sent is above them. -/
structure SentInOrder (lb : LoadBalancer) : Prop where
  increasing : lb.sent.Pairwise (· < ·)
  below_pending : ∀ i slot, lb.Pending i slot → ∀ earlier ∈ lb.sent, earlier < slot

/-- Thread `i` overtakes no one: no thread still has to send a slot lower than the
one thread `i` is about to send. -/
def OvertakesNone (servers : List (String × String)) (lb : LoadBalancer) (i : Nat) : Prop :=
  ∀ slot ∈ (lb.threads i).phase.pending?, ∀ j < servers.length,
    ∀ other ∈ (lb.threads j).phase.pending?, slot ≤ other

instance (servers : List (String × String)) (lb : LoadBalancer) (i : Nat) :
    Decidable (OvertakesNone servers lb i) :=
  inferInstanceAs (Decidable (∀ slot ∈ (lb.threads i).phase.pending?, _))

theorem pending_setThread {lb : LoadBalancer} {i j : Nat} {thread : SubscriptionThread}
    {slot : Slot} :
    (lb.setThread i thread).Pending j slot ↔
      if j = i then thread.phase = .raised slot else lb.Pending j slot := by
  unfold LoadBalancer.Pending LoadBalancer.setThread
  by_cases hj : j = i
  · subst hj
    simp
  · simp [hj]

/-- A step as far as the order of slots goes: nothing new, a slot raised above the
maximum, or a pending slot sent. -/
theorem threadStep_moves {servers : List (String × String)} {exit : Bool} {lb lb' : LoadBalancer}
    {i : Nat} {label : ThreadLabel} (h : threadStep servers exit lb i label = some lb') :
    (lb'.sent = lb.sent ∧ lb'.queue = lb.queue ∧ lb'.highestSlot = lb.highestSlot ∧
      ∀ j slot, lb'.Pending j slot → lb.Pending j slot) ∨
    (∃ raised, lb.highestSlot < raised ∧ lb'.sent = lb.sent ∧ lb'.queue = lb.queue ∧
      lb'.highestSlot = raised ∧
      ∀ j slot, lb'.Pending j slot → (j = i ∧ slot = raised) ∨ lb.Pending j slot) ∨
    (∃ sent, label = .send ∧ lb.Pending i sent ∧ lb'.sent = lb.sent ++ [sent] ∧
      lb'.queue = lb.queue ++ [sent] ∧ lb'.highestSlot = lb.highestSlot ∧
      ∀ j slot, lb'.Pending j slot → j ≠ i ∧ lb.Pending j slot) := by
  -- a thread that ends up without a pending slot leaves the others' as they were
  have hothers : ∀ {thread : SubscriptionThread} {j : Nat} {slot : Slot},
      (∀ slot, thread.phase ≠ .raised slot) → (lb.setThread i thread).Pending j slot →
      j ≠ i ∧ lb.Pending j slot := by
    intro thread j slot hnone hpending
    rw [pending_setThread] at hpending
    split at hpending
    · exact absurd hpending (hnone slot)
    · exact ⟨‹_›, hpending⟩
  rcases threadStep_cases h with ⟨thread, _, _, hnone, _, rfl⟩ | ⟨now, slot, _, _, rfl⟩ |
    ⟨url, slot, _, _, rfl⟩ | ⟨raised, _, _, rfl⟩ | ⟨sent, rfl, hphase, _, _, rfl⟩
  · exact .inl ⟨rfl, rfl, rfl, fun j slot hpending => (hothers hnone hpending).2⟩
  · exact .inl ⟨rfl, rfl, rfl, fun j slot hpending => (hothers (by simp) hpending).2⟩
  · exact .inl ⟨rfl, rfl, rfl, fun j slot hpending => (hothers (by simp) hpending).2⟩
  · by_cases hlt : lb.highestSlot < raised
    · refine .inr (.inl ⟨raised, hlt, rfl, rfl, Nat.max_eq_right hlt.le, fun j slot hpending => ?_⟩)
      have hpending := pending_setThread.mp hpending
      rw [if_pos hlt] at hpending
      split at hpending
      · cases hpending
        exact .inl ⟨‹_›, rfl⟩
      · exact .inr hpending
    · refine .inl ⟨rfl, rfl, Nat.max_eq_left (Nat.le_of_not_lt hlt), fun j slot hpending => ?_⟩
      exact (hothers (by simp [hlt]) hpending).2
  · exact .inr (.inr ⟨sent, rfl, hphase, rfl, rfl, rfl,
      fun j slot hpending => hothers (by simp) hpending⟩)

theorem fanIn_new (servers : List (String × String)) :
    FanIn servers (LoadBalancer.new servers) where
  pending_lt := by simp [LoadBalancer.Pending, LoadBalancer.new]
  sent_le := by simp [LoadBalancer.new]
  pending_le := by simp [LoadBalancer.Pending, LoadBalancer.new]
  pending_unique := by simp [LoadBalancer.Pending, LoadBalancer.new]

theorem sentInOrder_new (servers : List (String × String)) :
    SentInOrder (LoadBalancer.new servers) where
  increasing := List.Pairwise.nil
  below_pending := by simp [LoadBalancer.Pending, LoadBalancer.new]

/-- The bounds are kept by every step. -/
theorem fanIn_threadStep {servers : List (String × String)} {exit : Bool} {lb lb' : LoadBalancer}
    {i : Nat} {label : ThreadLabel} (hinv : FanIn servers lb)
    (h : threadStep servers exit lb i label = some lb') : FanIn servers lb' := by
  rcases threadStep_moves h with ⟨hsent, _, hhighest, hpending⟩ |
    ⟨raised, hlt, hsent, _, hhighest, hpending⟩ | ⟨sent, _, hmine, hsent, _, hhighest, hpending⟩
  · refine ⟨fun j slot hj => hinv.pending_lt j slot (hpending j slot hj), ?_, ?_, ?_⟩
    · rw [hsent, hhighest]
      exact hinv.sent_le
    · intro j slot hj
      rw [hhighest]
      exact hinv.pending_le j slot (hpending j slot hj)
    · intro j k slot hj hk
      exact hinv.pending_unique j k slot (hpending j slot hj) (hpending k slot hk)
  · refine ⟨?_, ?_, ?_, ?_⟩
    · intro j slot hj
      rcases hpending j slot hj with ⟨rfl, _⟩ | hold
      · exact lt_length_of_threadStep h
      · exact hinv.pending_lt j slot hold
    · rw [hsent, hhighest]
      intro slot hslot
      exact (hinv.sent_le slot hslot).trans hlt.le
    · intro j slot hj
      rw [hhighest]
      rcases hpending j slot hj with ⟨_, rfl⟩ | hold
      · exact le_rfl
      · exact (hinv.pending_le j slot hold).trans hlt.le
    · -- the raised slot is above every slot pending before, so it is pending once
      intro j k slot hj hk
      rcases hpending j slot hj with ⟨rfl, rfl⟩ | hj
      · rcases hpending k slot hk with ⟨rfl, _⟩ | hk
        · rfl
        · exact absurd (hinv.pending_le k slot hk) (Nat.not_le_of_lt hlt)
      · rcases hpending k slot hk with ⟨rfl, rfl⟩ | hk
        · exact absurd (hinv.pending_le j slot hj) (Nat.not_le_of_lt hlt)
        · exact hinv.pending_unique j k slot hj hk
  · refine ⟨fun j slot hj => hinv.pending_lt j slot (hpending j slot hj).2, ?_, ?_, ?_⟩
    · rw [hsent, hhighest]
      intro slot hslot
      rcases List.mem_append.mp hslot with hslot | hslot
      · exact hinv.sent_le slot hslot
      · obtain rfl := List.mem_singleton.mp hslot
        exact hinv.pending_le i slot hmine
    · intro j slot hj
      rw [hhighest]
      exact hinv.pending_le j slot (hpending j slot hj).2
    · intro j k slot hj hk
      exact hinv.pending_unique j k slot (hpending j slot hj).2 (hpending k slot hk).2

/-- The order is kept by every step in which no thread overtakes another. -/
theorem sentInOrder_threadStep {servers : List (String × String)} {exit : Bool}
    {lb lb' : LoadBalancer} {i : Nat} {label : ThreadLabel}
    (hfan : FanIn servers lb) (hinv : SentInOrder lb)
    (hcond : label = .send → OvertakesNone servers lb i)
    (h : threadStep servers exit lb i label = some lb') : SentInOrder lb' := by
  rcases threadStep_moves h with ⟨hsent, _, _, hpending⟩ |
    ⟨raised, hlt, hsent, _, _, hpending⟩ | ⟨sent, hlabel, hmine, hsent, _, _, hpending⟩
  · refine ⟨?_, ?_⟩
    · rw [hsent]
      exact hinv.increasing
    · intro j slot hj
      rw [hsent]
      exact hinv.below_pending j slot (hpending j slot hj)
  · refine ⟨?_, ?_⟩
    · rw [hsent]
      exact hinv.increasing
    · intro j slot hj earlier hearlier
      rw [hsent] at hearlier
      rcases hpending j slot hj with ⟨_, rfl⟩ | hold
      · exact (hfan.sent_le earlier hearlier).trans_lt hlt
      · exact hinv.below_pending j slot hold earlier hearlier
  · refine ⟨?_, ?_⟩
    · rw [hsent, List.pairwise_append]
      refine ⟨hinv.increasing, List.pairwise_singleton _ _, fun earlier hearlier last hlast => ?_⟩
      obtain rfl := List.mem_singleton.mp hlast
      exact hinv.below_pending i last hmine earlier hearlier
    · intro j slot hj earlier hearlier
      obtain ⟨hne, hold⟩ := hpending j slot hj
      rw [hsent] at hearlier
      rcases List.mem_append.mp hearlier with hearlier | hearlier
      · exact hinv.below_pending j slot hold earlier hearlier
      · obtain rfl := List.mem_singleton.mp hearlier
        have hle := hcond hlabel earlier (ThreadPhase.mem_pending?.mpr hmine) j
          (hfan.pending_lt j slot hold) slot (ThreadPhase.mem_pending?.mpr hold)
        -- not equal either, since no slot is pending twice
        refine lt_of_le_of_ne hle fun heq => hne ?_
        subst heq
        exact hfan.pending_unique j i earlier hold hmine

/-- Both invariants speak of the threads, the maximum and the slots sent only. -/
theorem fanIn_congr {servers : List (String × String)} {lb lb' : LoadBalancer}
    (hinv : FanIn servers lb) (hthreads : lb'.threads = lb.threads)
    (hhighest : lb'.highestSlot = lb.highestSlot) (hsent : lb'.sent = lb.sent) :
    FanIn servers lb' := by
  refine ⟨?_, ?_, ?_, ?_⟩
  · unfold LoadBalancer.Pending
    rw [hthreads]
    exact hinv.pending_lt
  · rw [hsent, hhighest]
    exact hinv.sent_le
  · unfold LoadBalancer.Pending
    rw [hthreads, hhighest]
    exact hinv.pending_le
  · unfold LoadBalancer.Pending
    rw [hthreads]
    exact hinv.pending_unique

theorem sentInOrder_congr {lb lb' : LoadBalancer} (hinv : SentInOrder lb)
    (hthreads : lb'.threads = lb.threads) (hsent : lb'.sent = lb.sent) : SentInOrder lb' := by
  refine ⟨?_, ?_⟩
  · rw [hsent]
    exact hinv.increasing
  · unfold LoadBalancer.Pending
    rw [hthreads, hsent]
    exact hinv.below_pending

end FlowraRelayer.Rpc
