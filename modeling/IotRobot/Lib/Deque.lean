import Mathlib.Data.List.Basic
import Mathlib.Tactic.TypeStar

/-!
# Bounded queues

A queue that forgets its oldest items once it holds `maxlen` of them.
-/

namespace IotRobot.Lib

set_option autoImplicit false

/-- At most `maxlen` items, the oldest first. -/
structure Deque (α : Type*) (maxlen : Nat) where
  items : List α
  bounded : items.length ≤ maxlen

namespace Deque
variable {α : Type*} {maxlen : Nat}

def empty : Deque α maxlen := ⟨[], Nat.zero_le _⟩

def append (d : Deque α maxlen) (x : α) : Deque α maxlen where
  items := (d.items ++ [x]).drop (d.items.length + 1 - maxlen)
  bounded := by
    rw [List.length_drop, List.length_append, List.length_singleton]
    omega

@[simp] theorem items_empty : (empty : Deque α maxlen).items = [] := rfl

theorem mem_append {d : Deque α maxlen} {x y : α} (h : y ∈ (d.append x).items) :
    y ∈ d.items ∨ y = x := by
  rcases List.mem_append.mp (List.mem_of_mem_drop h) with hold | hnew
  · exact .inl hold
  · exact .inr (List.mem_singleton.mp hnew)

/-- The newest item stays, unless nothing fits. -/
theorem mem_append_self (d : Deque α maxlen) (x : α) (h : 0 < maxlen) :
    x ∈ (d.append x).items := by
  have hbounded := d.bounded
  have hdrop : d.items.length + 1 - maxlen ≤ d.items.length := by omega
  unfold append
  dsimp only
  rw [List.drop_append_of_le_length hdrop]
  exact List.mem_append_right _ List.mem_cons_self

theorem items_of_zero (d : Deque α 0) : d.items = [] :=
  List.eq_nil_of_length_eq_zero (Nat.le_zero.mp d.bounded)

end Deque

end IotRobot.Lib
