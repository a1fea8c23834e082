import Mathlib.Data.List.Basic

/-! A broadcast channel that keeps the last `capacity` values. A receiver sees what is
sent after it subscribed; one that falls too far behind is told so and skips ahead. -/
namespace Lib

/-- Each receiver is the position of the value it gets next; a dropped one has none. -/
structure Broadcast (α : Type) where
  capacity : Nat
  sent : List α := []
  receivers : List (Option Nat) := []
  senders : Nat := 1

inductive Recv (α : Type) where
  | value (a : α)
  | lagged (missed : Nat)
  | closed

namespace Broadcast
variable {α : Type} (c : Broadcast α)

def channel (capacity : Nat) : Broadcast α := { capacity := capacity, receivers := [some 0] }

/-- A value that nobody receives is discarded. -/
def send (a : α) : Broadcast α :=
  if c.receivers.any Option.isSome then { c with sent := c.sent ++ [a] } else c

def subscribe : Broadcast α := { c with receivers := c.receivers ++ [some c.sent.length] }

def dropReceiver (r : Nat) : Broadcast α := { c with receivers := c.receivers.set r none }

def cloneSender : Broadcast α := { c with senders := c.senders + 1 }

def dropSender : Broadcast α := { c with senders := c.senders - 1 }

/-- One poll of `recv`; `none` when it has to wait. -/
def recv (r : Nat) : Option (Recv α × Broadcast α) :=
  match c.receivers[r]? with
  | some (some next) =>
    if c.sent.length - next > c.capacity then
      some (.lagged (c.sent.length - c.capacity - next),
        { c with receivers := c.receivers.set r (some (c.sent.length - c.capacity)) })
    else
      match c.sent[next]? with
      | some a => some (.value a, { c with receivers := c.receivers.set r (some (next + 1)) })
      | none => if c.senders = 0 then some (.closed, c) else none
  | _ => none

def CaughtUp (r : Nat) : Prop := ∃ next, c.receivers[r]? = some (some next) ∧ c.sent.length ≤ next

@[simp] theorem send_receivers (a : α) : (c.send a).receivers = c.receivers := by
  unfold send
  split <;> rfl

@[simp] theorem send_senders (a : α) : (c.send a).senders = c.senders := by
  unfold send
  split <;> rfl

theorem send_sent {r next : Nat} (subscribed : c.receivers[r]? = some (some next)) (a : α) :
    (c.send a).sent = c.sent ++ [a] := by
  unfold send
  rw [if_pos]
  exact List.any_eq_true.mpr ⟨some next, List.mem_of_getElem? subscribed, rfl⟩

theorem recv_of_caughtUp {r : Nat} (up : c.CaughtUp r) (open_ : c.senders ≠ 0) : c.recv r = none := by
  obtain ⟨next, position, behind⟩ := up
  unfold recv
  rw [position]
  dsimp only
  rw [if_neg (by omega), List.getElem?_eq_none behind]
  exact if_neg open_

theorem recv_of_behind {r next : Nat} (position : c.receivers[r]? = some (some next)) (behind : next < c.sent.length) :
    ∃ got c', c.recv r = some (got, c') := by
  unfold recv
  rw [position]
  dsimp only
  rw [List.getElem?_eq_getElem behind]
  split
  · exact ⟨_, _, rfl⟩
  · exact ⟨_, _, rfl⟩

theorem recv_senders {c' : Broadcast α} {r : Nat} {got : Recv α} (received : c.recv r = some (got, c')) :
    c'.senders = c.senders := by
  unfold recv at received
  split at received
  · split at received
    · cases received
      rfl
    · split at received
      · cases received
        rfl
      · split at received
        · cases received
          rfl
        · cases received
  · cases received

theorem subscribe_caughtUp : c.subscribe.CaughtUp c.receivers.length :=
  ⟨c.sent.length, by simp [subscribe], Nat.le_refl _⟩

end Broadcast
end Lib
