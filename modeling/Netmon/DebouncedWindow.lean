import Mathlib

/-!
# Windows that replace a close predecessor

A window over a stream: a new item replaces the last one if it comes close after it, and is
added otherwise; the oldest items leave when the window is full.  Every item is compared with
its predecessor in the stream, since that is always the last of the window.  So the window is
the end of the list of *settled* items, those with no close successor, with the newest item
behind it (`run_push`).
-/

namespace DebouncedWindow

variable {α : Type} (close : α → α → Bool)

/-- A new item in a window of `size + 1` items. -/
def push (size : Nat) (window : List α) (a : α) : List α :=
  let next :=
    match window.getLast? with
    | none => [a]
    | some last => if close last a then window.dropLast ++ [a] else window ++ [a]
  next.rtake (size + 1)

/-- The items of a stream that are followed by one which is not close. -/
def settled : List α → List α
  | a :: b :: rest => if close a b then settled (b :: rest) else a :: settled (b :: rest)
  | _ => []

theorem settled_concat (l : List α) (b a : α) :
    settled close (l ++ [b] ++ [a]) =
      settled close (l ++ [b]) ++ if close b a then [] else [b] := by
  induction l with
  | nil =>
      simp only [List.nil_append, List.cons_append, settled]
  | cons c l ih =>
      obtain ⟨d, rest, hrest⟩ : ∃ d rest, l ++ [b] = d :: rest :=
        List.exists_cons_of_ne_nil (by simp)
      rw [hrest] at ih
      simp only [List.cons_append, hrest, settled] at ih ⊢
      rw [ih]
      split <;> rfl

theorem rtake_rtake {m n : Nat} (h : m ≤ n) (l : List α) : (l.rtake n).rtake m = l.rtake m := by
  simp only [List.rtake, List.length_drop, List.drop_drop]
  congr 1
  omega

/-- **The window is the end of the settled items and the newest one.** -/
theorem run_push (size : Nat) (l : List α) :
    l.foldl (push close size) [] =
      (settled close l ++ l.getLast?.toList).rtake (size + 1) := by
  induction l using List.reverseRecOn with
  | nil => simp [settled]
  | append_singleton l a ih =>
      rw [List.foldl_append, List.foldl_cons, List.foldl_nil, ih]
      rcases List.eq_nil_or_concat' l with rfl | ⟨l, b, rfl⟩
      · simp [push, settled]
      · rw [settled_concat]
        simp only [List.getLast?_concat, Option.toList_some]
        generalize settled close (l ++ [b]) = front
        unfold push
        simp only [List.rtake_concat_succ, List.getLast?_concat, List.dropLast_concat]
        split
        · rw [List.append_nil, List.rtake_concat_succ, rtake_rtake le_rfl]
        · have hwindow := List.rtake_concat_succ front size b
          rw [List.rtake_concat_succ, ← hwindow, rtake_rtake (Nat.le_succ size)]

/-- In a stream of close items nothing settles. -/
theorem settled_eq_nil {l : List α} (h : l.IsChain fun a b => close a b = true) :
    settled close l = [] := by
  induction l with
  | nil => rfl
  | cons a l ih =>
      cases l with
      | nil => rfl
      | cons b rest =>
          rw [List.isChain_cons_cons] at h
          rw [settled, if_pos h.1, ih h.2]

theorem settled_subset (l : List α) : settled close l ⊆ l := by
  induction l with
  | nil => exact List.Subset.refl _
  | cons a l ih =>
      cases l with
      | nil => exact List.nil_subset _
      | cons b rest =>
          rw [settled]
          split
          · exact fun c hc => List.mem_cons_of_mem a (ih hc)
          · exact List.cons_subset_cons a ih

/-- If a later item is never closer than an earlier one, no two items of the window are
close. -/
theorem settled_pairwise {l : List α}
    (h : l.Pairwise fun b c => ∀ a, close a b = false → close a c = false) :
    (settled close l ++ l.getLast?.toList).Pairwise fun a b => close a b = false := by
  induction l with
  | nil => exact List.Pairwise.nil
  | cons a l ih =>
      cases l with
      | nil => exact List.pairwise_singleton _ a
      | cons b rest =>
          have hlater := ih h.of_cons
          rw [settled, List.getLast?_cons_cons]
          split
          · exact hlater
          · rename_i hfar
            rw [Bool.not_eq_true] at hfar
            refine List.pairwise_cons.mpr ⟨fun c hc => ?_, hlater⟩
            have hmem : c ∈ b :: rest := by
              rcases List.mem_append.mp hc with hsettled | hlast
              · exact settled_subset close _ hsettled
              · exact List.mem_of_getLast? (Option.mem_toList.mp hlast)
            rcases List.mem_cons.mp hmem with rfl | hrest
            · exact hfar
            · exact List.rel_of_pairwise_cons h.of_cons hrest a hfar

end DebouncedWindow
