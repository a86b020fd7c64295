import Mathlib.Data.List.Basic
import Mathlib.Tactic.Common

/-!
# Bounded queues

A first-in first-out queue that never holds more than its capacity: the bound is a field, so no operation
can build a longer one. Both operations answer at once, `none` where they would have to wait.
-/

namespace DualCan.Run

/-- A queue of at most `capacity` items, oldest first. -/
structure Bounded (α : Type*) (capacity : ℕ) where
  items : List α
  bound : items.length ≤ capacity

namespace Bounded

variable {α : Type*} {capacity : ℕ} {q q' : Bounded α capacity} {x : α}

def empty : Bounded α capacity := ⟨[], Nat.zero_le _⟩

/-- Put an item at the end; `none` if there is no room. -/
def put? (q : Bounded α capacity) (x : α) : Option (Bounded α capacity) :=
  if h : q.items.length < capacity then
    some ⟨q.items ++ [x], by rw [List.length_append]; exact h⟩
  else none

/-- Take the oldest item; `none` if there is none. -/
def get? (q : Bounded α capacity) : Option (α × Bounded α capacity) :=
  match h : q.items with
  | [] => none
  | x :: rest => some (x, ⟨rest, by
      have hb := q.bound
      rw [h, List.length_cons] at hb
      exact Nat.le_of_succ_le hb⟩)

theorem put?_eq_some (h : q.put? x = some q') :
    q.items.length < capacity ∧ q'.items = q.items ++ [x] := by
  unfold put? at h
  split at h
  · next hlt =>
    obtain rfl := Option.some.inj h
    exact ⟨hlt, rfl⟩
  · cases h

theorem put?_eq_none (h : q.put? x = none) : q.items.length = capacity := by
  unfold put? at h
  split at h
  · cases h
  · next hge => exact Nat.le_antisymm q.bound (Nat.le_of_not_lt hge)

theorem get?_eq_some (h : q.get? = some (x, q')) : q.items = x :: q'.items := by
  unfold get? at h
  split at h
  · cases h
  · next heq =>
    simp only [Option.some.injEq, Prod.mk.injEq] at h
    obtain ⟨rfl, rfl⟩ := h
    exact heq

theorem get?_eq_none (h : q.get? = none) : q.items = [] := by
  unfold get? at h
  split at h
  · next heq => exact heq
  · cases h

/-- A queue from which an item was taken has room. -/
theorem room_of_get? (h : q.get? = some (x, q')) : q'.items.length < capacity := by
  have hb := q.bound
  rw [get?_eq_some h, List.length_cons] at hb
  exact hb

end Bounded

end DualCan.Run
