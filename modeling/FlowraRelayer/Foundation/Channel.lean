import Mathlib.Data.List.Basic
set_option autoImplicit false

/-!
# Foundation: a bounded channel with a non-blocking send

`trySend` never waits: it answers `full` when the channel holds as many messages
as it may, and `closed` once the receiving end is gone.  Nothing else closes a
channel (`answer_eq_closed_iff`).

The module names nothing of the relayer.
-/

namespace FlowraRelayer.Foundation

variable {α : Type}

/-- The three answers of a non-blocking send. -/
inductive TrySendResult where
  | ok
  | full
  | closed
  deriving DecidableEq

/-- A bounded channel: what is in it, oldest first, and whether its receiving end
still exists. -/
structure Channel (α : Type) where
  capacity : Nat
  queue : List α
  receiverAlive : Bool

namespace Channel

/-- An empty channel. -/
def new (capacity : Nat) : Channel α := ⟨capacity, [], true⟩

/-- What a non-blocking send answers now. -/
def answer (ch : Channel α) : TrySendResult :=
  if ch.receiverAlive then
    if ch.queue.length < ch.capacity then .ok else .full
  else .closed

/-- A non-blocking send. -/
def trySend (ch : Channel α) (a : α) : Channel α :=
  match ch.answer with
  | .ok => { ch with queue := ch.queue ++ [a] }
  | _ => ch

/-- The receiver takes the oldest `n` messages. -/
def drain (n : Nat) (ch : Channel α) : Channel α := { ch with queue := ch.queue.drop n }

/-- The receiving end is dropped, with what is in the channel. -/
def dropReceiver (ch : Channel α) : Channel α := { ch with queue := [], receiverAlive := false }

theorem answer_eq_closed_iff (ch : Channel α) : ch.answer = .closed ↔ ch.receiverAlive = false := by
  unfold answer
  split
  · rename_i halive
    split <;> simp [halive]
  · rename_i hgone
    simpa using hgone

theorem answer_eq_ok_iff (ch : Channel α) :
    ch.answer = .ok ↔ ch.receiverAlive = true ∧ ch.queue.length < ch.capacity := by
  unfold answer
  split
  · rename_i halive
    split
    · rename_i hroom
      simp [halive, hroom]
    · rename_i hfull
      simp [hfull]
  · rename_i hgone
    simp [hgone]

@[simp] theorem receiverAlive_trySend (ch : Channel α) (a : α) :
    (ch.trySend a).receiverAlive = ch.receiverAlive := by
  unfold trySend
  split <;> rfl

@[simp] theorem receiverAlive_drain (n : Nat) (ch : Channel α) :
    (ch.drain n).receiverAlive = ch.receiverAlive := rfl

end Channel

end FlowraRelayer.Foundation
