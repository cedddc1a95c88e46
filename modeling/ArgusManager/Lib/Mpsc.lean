/-
  ArgusManager.Lib.Mpsc
  ─────────────────────
  **A queue with many senders and one receiver.**

  Items keep the order in which they were sent, whoever sent them.  A sender
  that is dropped sends no more; the receiver learns that every sender is gone
  once the queue is empty, and not before.

    • `Balanced`         — what was sent is what was received and what is
                           queued, in this order,
    • `Balanced.own`     — so for the items of one sender,
    • `Balanced.drained` — nothing is missing at the end.
-/
import Mathlib.Data.List.Basic

/-- The queue, and the senders that are left. -/
structure Mpsc (κ α : Type*) where
  queue : List (κ × α)
  senders : List κ

namespace Mpsc

variable {κ α : Type*}

/-! ## §1. Operations. -/

/-- A fresh queue. -/
def new (senders : List κ) : Mpsc κ α where
  queue := []
  senders := senders

/-- What a receiver that does not wait for ever finds. -/
inductive Received (κ α : Type*) where
  | item (k : κ) (a : α)
  | empty
  | disconnected

def recv (c : Mpsc κ α) : Mpsc κ α × Received κ α :=
  match c.queue with
  | (k, a) :: queue => ({ c with queue }, .item k a)
  | [] => (c, if c.senders.isEmpty then .disconnected else .empty)

/-- An item of a sender that is left. -/
def send (k : κ) (a : α) (c : Mpsc κ α) : Mpsc κ α :=
  { c with queue := c.queue ++ [(k, a)] }

/-- A sender is dropped. -/
def drop [DecidableEq κ] (k : κ) (c : Mpsc κ α) : Mpsc κ α :=
  { c with senders := c.senders.filter (· ≠ k) }

/-- The item that a receive returned. -/
def Received.toList : Received κ α → List (κ × α)
  | .item k a => [(k, a)]
  | _ => []

/-! ## §2. The balance. -/

/-- What was sent is what was received, and behind it what is queued. -/
def Balanced (sent received : List (κ × α)) (c : Mpsc κ α) : Prop :=
  sent = received ++ c.queue

variable {sent received : List (κ × α)} {c : Mpsc κ α}

theorem balanced_new (senders : List κ) :
    Balanced ([] : List (κ × α)) [] (new senders) :=
  rfl

theorem Balanced.send (h : Balanced sent received c) (k : κ) (a : α) :
    Balanced (sent ++ [(k, a)]) received (c.send k a) := by
  unfold Balanced at h ⊢
  rw [h, List.append_assoc]
  rfl

theorem Balanced.drop [DecidableEq κ] (h : Balanced sent received c) (k : κ) :
    Balanced sent received (c.drop k) :=
  h

theorem Balanced.recv (h : Balanced sent received c) :
    Balanced sent (received ++ c.recv.2.toList) c.recv.1 := by
  obtain ⟨queue, senders⟩ := c
  unfold Balanced at h ⊢
  cases queue with
  | cons item queue =>
      rw [List.append_assoc]
      exact h
  | nil =>
      have hnone : (Mpsc.recv ⟨[], senders⟩).2.toList
          = ([] : List (κ × α)) := by
        show (if senders.isEmpty then Received.disconnected
          else Received.empty).toList = _
        split
        · rfl
        · rfl
      rw [hnone, List.append_nil]
      exact h

/-- The items of one sender. -/
def own [DecidableEq κ] (k : κ) (items : List (κ × α)) : List α :=
  items.filterMap fun item => if item.1 = k then some item.2 else none

@[simp] theorem own_nil [DecidableEq κ] (k : κ) :
    own k ([] : List (κ × α)) = [] := rfl

@[simp] theorem own_append [DecidableEq κ] (k : κ) (xs ys : List (κ × α)) :
    own k (xs ++ ys) = own k xs ++ own k ys :=
  List.filterMap_append

theorem own_singleton [DecidableEq κ] (k j : κ) (a : α) :
    own k [(j, a)] = if j = k then [a] else [] := by
  unfold own
  by_cases h : j = k
  · simp [h]
  · simp [h]

/-- **What a sender has sent arrives in its order**, first what is received. -/
theorem Balanced.own [DecidableEq κ] (h : Balanced sent received c) (k : κ) :
    Mpsc.own k sent = Mpsc.own k received ++ Mpsc.own k c.queue := by
  rw [h, own_append]

/-- **Nothing is missing at the end.** -/
theorem Balanced.drained (h : Balanced sent received c) (hqueue : c.queue = []) :
    received = sent := by
  unfold Balanced at h
  rw [h, hqueue, List.append_nil]

end Mpsc
