import Mathlib

/-!
# Indentation stacks

A reader of indented text keeps the blocks that are open on a stack, the innermost
first, each with the indentation of its header.  A line closes every block that is
indented as far as the line or further.  `Above n base stack` says that a line at
indentation `n` finds exactly the blocks of `base` open; the rules below say how a
reader keeps this true while it goes through a block and the blocks inside it.
-/

namespace Outline

variable {α : Type} {n m : Nat} {a : α} {base stack : List (Nat × α)}

/-- Close the blocks that are indented as far as `n` or further. -/
def pop (n : Nat) (stack : List (Nat × α)) : List (Nat × α) :=
  stack.dropWhile fun opened => n ≤ opened.1

/-- Every block is indented less than `n`. -/
def Encloses (n : Nat) (base : List (Nat × α)) : Prop := ∀ opened ∈ base, opened.1 < n

/-- On top of `base` there are only blocks that a line at `n` closes. -/
def Above (n : Nat) (base stack : List (Nat × α)) : Prop :=
  ∃ inner, stack = inner ++ base ∧ ∀ opened ∈ inner, n ≤ opened.1

theorem encloses_nil (n : Nat) : Encloses n ([] : List (Nat × α)) := by simp [Encloses]

/-- The header of a block at `n` and what is around it enclose the lines that are
indented further. -/
theorem Encloses.cons (h : Encloses n base) (hlt : n < m) (a : α) :
    Encloses m ((n, a) :: base) := by
  intro opened hmem
  rcases List.mem_cons.mp hmem with rfl | hbase
  · exact hlt
  · exact (h opened hbase).trans hlt

theorem Above.refl (n : Nat) (base : List (Nat × α)) : Above n base base :=
  ⟨[], rfl, by simp⟩

/-- A line finds the blocks of `base`. -/
theorem Above.pop_eq (h : Above n base stack) (hbase : Encloses n base) : pop n stack = base := by
  obtain ⟨inner, rfl, hinner⟩ := h
  rw [pop, List.dropWhile_append_of_pos (by simpa using hinner)]
  cases base with
  | nil => rfl
  | cons opened base =>
      have hless : ¬ n ≤ opened.1 := not_le.mpr (hbase opened List.mem_cons_self)
      exact List.dropWhile_cons_of_neg (by simpa using hless)

/-- After a block, the next line of the block around it closes its header as well. -/
theorem Above.leave (h : Above m ((n, a) :: base) stack) (hle : n ≤ m) : Above n base stack := by
  obtain ⟨inner, rfl, hinner⟩ := h
  refine ⟨inner ++ [(n, a)], by simp, fun opened hmem => ?_⟩
  rcases List.mem_append.mp hmem with h | h
  · exact hle.trans (hinner opened h)
  · rw [List.mem_singleton.mp h]

end Outline
