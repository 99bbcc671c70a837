/-
  Foundation/Mailbox.lean --- a bounded channel together with what its receiver read.

  `Holds accepted box` is the account of a mailbox to which the messages `accepted` were
  sent with success: it never holds more than its capacity, what was read is a front part
  of what was accepted, and as long as the receiver is there, what was read and what waits
  are all of it.  Each operation keeps the account (`Holds.send`, `Holds.recv`,
  `Holds.hangUp`).

  The module names nothing of the relayer.
-/
import FlowraRelayer.Foundation.Channel

set_option autoImplicit false

namespace FlowraRelayer.Foundation

variable {α : Type}

/-- A bounded channel and what its receiver has taken out of it. -/
structure Mailbox (α : Type) where
  channel : Channel α
  read : List α

namespace Mailbox

/-- An empty mailbox. -/
def new (capacity : Nat) : Mailbox α := ⟨Channel.new capacity, []⟩

/-- A non-blocking send. -/
def send (box : Mailbox α) (a : α) : Mailbox α := { box with channel := box.channel.trySend a }

/-- The receiver takes the oldest message, if there is one. -/
def recv (box : Mailbox α) : Mailbox α where
  channel := box.channel.drain 1
  read := box.read ++ box.channel.queue.take 1

/-- The receiver goes away. -/
def hangUp (box : Mailbox α) : Mailbox α := { box with channel := box.channel.dropReceiver }

@[simp] theorem capacity_send (box : Mailbox α) (a : α) :
    (box.send a).channel.capacity = box.channel.capacity := by
  unfold send Channel.trySend
  dsimp only
  split <;> rfl

@[simp] theorem capacity_recv (box : Mailbox α) :
    box.recv.channel.capacity = box.channel.capacity := rfl

@[simp] theorem capacity_hangUp (box : Mailbox α) :
    box.hangUp.channel.capacity = box.channel.capacity := rfl

/-- The account of a mailbox that accepted the given messages. -/
structure Holds (accepted : List α) (box : Mailbox α) : Prop where
  bounded : box.channel.queue.length ≤ box.channel.capacity
  exact_of_alive : box.channel.receiverAlive = true → box.read ++ box.channel.queue = accepted
  in_order : box.read <+: accepted
  empty_of_gone : box.channel.receiverAlive = false → box.channel.queue = []

variable {accepted : List α} {box : Mailbox α}

theorem holds_new (capacity : Nat) : Holds [] (new capacity : Mailbox α) where
  bounded := Nat.zero_le _
  exact_of_alive := fun _ => rfl
  in_order := List.prefix_rfl
  empty_of_gone := fun _ => rfl

/-- A send that succeeds adds its message, any other send adds nothing. -/
theorem Holds.send (h : Holds accepted box) (a : α) :
    Holds (accepted ++ if box.channel.answer = .ok then [a] else []) (box.send a) := by
  by_cases hok : box.channel.answer = .ok
  · obtain ⟨halive, hroom⟩ := box.channel.answer_eq_ok_iff.mp hok
    have hsend : box.send a =
        { box with channel := { box.channel with queue := box.channel.queue ++ [a] } } := by
      simp only [Mailbox.send, Channel.trySend, hok]
    rw [if_pos hok, hsend]
    refine ⟨?_, ?_, h.in_order.trans (List.prefix_append _ _), ?_⟩
    · rw [List.length_append]
      exact hroom
    · intro _
      rw [← h.exact_of_alive halive, List.append_assoc]
    · intro hgone
      rw [halive] at hgone
      cases hgone
  · have hsend : box.send a = box := by
      unfold Mailbox.send Channel.trySend
      split
      · rename_i hanswer
        exact absurd hanswer hok
      · rfl
    rw [if_neg hok, List.append_nil, hsend]
    exact h

theorem Holds.recv (h : Holds accepted box) : Holds accepted box.recv := by
  have haccount : box.recv.read ++ box.recv.channel.queue = box.read ++ box.channel.queue := by
    simp only [Mailbox.recv, Channel.drain]
    rw [List.append_assoc, List.take_append_drop]
  cases halive : box.channel.receiverAlive with
  | true =>
    have haccepted := haccount.trans (h.exact_of_alive halive)
    refine ⟨?_, fun _ => haccepted, ⟨_, haccepted⟩, ?_⟩
    · simp only [Mailbox.recv, Channel.drain, List.length_drop]
      exact Nat.le_trans (Nat.sub_le _ _) h.bounded
    · intro hgone
      simp [Mailbox.recv, halive] at hgone
  | false =>
    have hempty := h.empty_of_gone halive
    refine ⟨?_, ?_, ?_, ?_⟩
    · simp [Mailbox.recv, Channel.drain, hempty]
    · intro halive'
      simp [Mailbox.recv, halive] at halive'
    · simpa [Mailbox.recv, hempty] using h.in_order
    · intro _
      simp [Mailbox.recv, Channel.drain, hempty]

theorem Holds.hangUp (h : Holds accepted box) : Holds accepted box.hangUp := by
  refine ⟨Nat.zero_le _, ?_, h.in_order, fun _ => rfl⟩
  intro halive
  cases halive

/-- A mailbox that refuses a message for want of room is full to its capacity. -/
theorem Holds.full (h : Holds accepted box) (hfull : box.channel.answer = .full) :
    box.channel.queue.length = box.channel.capacity := by
  refine Nat.le_antisymm h.bounded (Nat.not_lt.mp ?_)
  intro hroom
  unfold Channel.answer at hfull
  rw [if_pos hroom] at hfull
  split at hfull <;> cases hfull

end Mailbox

end FlowraRelayer.Foundation
