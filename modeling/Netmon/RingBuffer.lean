import Mathlib

/-!
# The bounded history buffer

`RingBuffer<T>` of `ring_buffer.hpp`: a deque with a capacity.  A push appends
and then pops from the front until the capacity is met; capacity zero stores
nothing.  The bound on the size is a field of the structure, so every buffer
that exists respects it.
-/

namespace Netmon

variable {α : Type}

/-- `while (items.size() > n) items.pop_front()`. -/
def popFrontTo (n : Nat) : List α → List α
  | [] => []
  | x :: rest => if (x :: rest).length > n then popFrontTo n rest else x :: rest

/-- Popping from the front to size `n` keeps the last `n` items. -/
theorem popFrontTo_eq_drop (n : Nat) (items : List α) :
    popFrontTo n items = items.drop (items.length - n) := by
  induction items with
  | nil => simp [popFrontTo]
  | cons x rest ih =>
      unfold popFrontTo
      split
      · rename_i hover
        have hdrop : (x :: rest).length - n = (rest.length - n) + 1 := by
          simp only [List.length_cons] at hover ⊢
          omega
        rw [hdrop, ih]
        rfl
      · rename_i hfits
        have hzero : (x :: rest).length - n = 0 := by omega
        rw [hzero]
        rfl

/-- At most so many items are left. -/
theorem popFrontTo_length_le (n : Nat) (items : List α) :
    (popFrontTo n items).length ≤ n := by
  rw [popFrontTo_eq_drop, List.length_drop]
  omega

/-- Nothing is dropped as long as there is room. -/
theorem popFrontTo_of_length_le {n : Nat} {items : List α} (h : items.length ≤ n) :
    popFrontTo n items = items := by
  rw [popFrontTo_eq_drop, Nat.sub_eq_zero_of_le h]
  rfl

/-- What is left was there before. -/
theorem popFrontTo_subset {n : Nat} {items : List α} {x : α}
    (h : x ∈ popFrontTo n items) : x ∈ items := by
  rw [popFrontTo_eq_drop] at h
  exact List.mem_of_mem_drop h

/-- What is left is in the order in which it was. -/
theorem popFrontTo_sublist (n : Nat) (items : List α) : (popFrontTo n items).Sublist items := by
  rw [popFrontTo_eq_drop]
  exact List.drop_sublist _ _

/-- Popping early makes no difference to what is left in the end. -/
theorem popFrontTo_append (n : Nat) (items more : List α) :
    popFrontTo n (popFrontTo n items ++ more) = popFrontTo n (items ++ more) := by
  simp only [popFrontTo_eq_drop, List.length_append, List.length_drop]
  rw [← List.drop_append_of_le_length (Nat.sub_le _ _), List.drop_drop]
  congr 1
  omega

/-- Dropping does not look at the items. -/
theorem popFrontTo_map {β : Type} (f : α → β) (n : Nat) (items : List α) :
    popFrontTo n (items.map f) = (popFrontTo n items).map f := by
  rw [popFrontTo_eq_drop, popFrontTo_eq_drop, List.length_map, List.map_drop]

/-- Appending keeps the new item last as long as there is room for one. -/
theorem popFrontTo_concat_getLast? {n : Nat} (hn : 1 ≤ n) (items : List α) (x : α) :
    (popFrontTo n (items ++ [x])).getLast? = some x := by
  rw [popFrontTo_eq_drop, List.getLast?_drop]
  simpa using hn

/-- A bounded history, oldest item first. -/
structure RingBuffer (α : Type) where
  capacity : Nat
  items : List α
  bounded : items.length ≤ capacity

namespace RingBuffer

/-- The empty buffer of a given capacity. -/
def empty (capacity : Nat) : RingBuffer α := ⟨capacity, [], Nat.zero_le _⟩

/-- `trim`: pop from the front while over capacity; capacity zero clears. -/
def trim (capacity : Nat) (items : List α) : RingBuffer α where
  capacity := capacity
  items := if capacity = 0 then [] else popFrontTo capacity items
  bounded := by
    split
    · exact Nat.zero_le _
    · exact popFrontTo_length_le _ _

/-- A smaller capacity drops the oldest items. -/
def setCapacity (capacity : Nat) (b : RingBuffer α) : RingBuffer α :=
  trim capacity b.items

/-- Without a capacity nothing is kept; else the oldest item makes room. -/
def push (value : α) (b : RingBuffer α) : RingBuffer α :=
  if b.capacity = 0 then b else trim b.capacity (b.items ++ [value])

/-- `items(limit)`: the newest `limit` items, or all of them for limit zero or
one above the size. -/
def newest (limit : Nat) (b : RingBuffer α) : List α :=
  let wanted := if limit = 0 ∨ limit > b.items.length then b.items.length else limit
  b.items.drop (b.items.length - wanted)

/-- The number of items. -/
def size (b : RingBuffer α) : Nat := b.items.length

@[simp] theorem push_capacity (value : α) (b : RingBuffer α) :
    (b.push value).capacity = b.capacity := by
  unfold push trim
  split <;> rfl

/-- What a push leaves is old or the pushed value. -/
theorem mem_push {value x : α} {b : RingBuffer α} (h : x ∈ (b.push value).items) :
    x ∈ b.items ∨ x = value := by
  unfold push at h
  split at h
  · exact Or.inl h
  · rename_i hcap
    simp only [trim, if_neg hcap] at h
    simpa using popFrontTo_subset h

/-- A push is an append and a drop, whatever the capacity. -/
theorem push_items (value : α) (b : RingBuffer α) :
    (b.push value).items = popFrontTo b.capacity (b.items ++ [value]) := by
  by_cases hcap : b.capacity = 0
  · have hpopped : popFrontTo b.capacity (b.items ++ [value]) = [] :=
      List.length_eq_zero_iff.mp (Nat.le_zero.mp (hcap ▸ popFrontTo_length_le _ _))
    have hitems : b.items = [] := List.length_eq_zero_iff.mp (Nat.le_zero.mp (hcap ▸ b.bounded))
    rw [hpopped]
    simp [push, hcap, hitems]
  · simp [push, trim, hcap]

/-- After a series of pushes the buffer holds the newest values that fit. -/
theorem foldl_push_items (values : List α) (b : RingBuffer α) :
    (values.foldl (fun b value => b.push value) b).items =
      popFrontTo b.capacity (b.items ++ values) := by
  induction values generalizing b with
  | nil => simp [popFrontTo_of_length_le b.bounded]
  | cons value values ih =>
      rw [List.foldl_cons, ih, push_capacity, push_items, popFrontTo_append]
      simp

/-- Pushing leaves the capacity alone. -/
theorem foldl_push_capacity (values : List α) (b : RingBuffer α) :
    (values.foldl (fun b value => b.push value) b).capacity = b.capacity := by
  induction values generalizing b with
  | nil => rfl
  | cons value values ih => rw [List.foldl_cons, ih, push_capacity]

/-- Asking for as many items as fit returns all of them. -/
theorem newest_capacity (b : RingBuffer α) : b.newest b.capacity = b.items := by
  have hbound := b.bounded
  unfold newest
  split
  · simp
  · rename_i hlimit
    have hfull : b.items.length - b.capacity = 0 := by omega
    simp [hfull]

end RingBuffer

end Netmon
