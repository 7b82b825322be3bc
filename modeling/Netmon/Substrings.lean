import Mathlib

/-!
# Words inside joined texts

Where a word can occur in a text that is joined from parts.  A byte that the word
does not have separates the occurrences to its left from those to its right, and a
beginning that no end of the word agrees with (`Clear`) keeps occurrences from
running into it.
-/

namespace Substrings

variable {α : Type}

section Separators

variable {word : List α} {c : α}

/-- A word at the front of a text ends before a separator that it does not have. -/
theorem prefix_of_prefix_append_cons (hc : c ∉ word) {a b : List α} (h : word <+: a ++ c :: b) :
    word <+: a := by
  rcases List.prefix_or_prefix_of_prefix h (List.prefix_append a (c :: b)) with hle | ⟨v, hv⟩
  · exact hle
  · cases v with
    | nil =>
        rw [List.append_nil] at hv
        exact hv ▸ List.prefix_refl _
    | cons d v =>
        rw [← hv, List.prefix_append_right_inj] at h
        have hd := (List.cons_prefix_cons.mp h).1
        exact absurd (hv ▸ List.mem_append_right _ (hd ▸ List.mem_cons_self)) hc

/-- A separator that the word does not have splits its occurrences. -/
theorem infix_append_cons (hc : c ∉ word) (a b : List α) :
    word <:+: a ++ c :: b ↔ word <:+: a ∨ word <:+: b := by
  constructor
  · intro h
    rcases List.infix_append_iff_ne_nil.mp h with hleft | hright | ⟨_, v, _, hv, rfl, _, hprefix⟩
    · exact Or.inl hleft
    · rcases List.infix_cons_iff.mp hright with hprefix | hb
      · cases word with
        | nil => exact Or.inr List.nil_infix
        | cons d word =>
            have hd := (List.cons_prefix_cons.mp hprefix).1
            exact absurd (hd ▸ List.mem_cons_self) hc
      · exact Or.inr hb
    · cases v with
      | nil => exact absurd rfl hv
      | cons d v =>
          have hd := (List.cons_prefix_cons.mp hprefix).1
          exact absurd (List.mem_append_right _ (hd ▸ List.mem_cons_self)) hc
  · intro h
    rcases h with ha | hb
    · exact List.infix_append_of_infix_left ha
    · exact List.infix_append_of_infix_right (List.infix_cons hb)

/-- A run of such separators does the same. -/
theorem infix_append_run {run : List α} (hrun : ∀ c ∈ run, c ∉ word) (hne : run ≠ [])
    (a b : List α) : word <:+: a ++ (run ++ b) ↔ word <:+: a ∨ word <:+: b := by
  induction run generalizing a with
  | nil => exact absurd rfl hne
  | cons c run ih =>
      rw [List.cons_append, infix_append_cons (hrun c List.mem_cons_self)]
      cases run with
      | nil => rfl
      | cons d run =>
          have hrest := ih (fun e he => hrun e (List.mem_cons_of_mem _ he)) (by simp) []
          rw [List.nil_append] at hrest
          rw [hrest, or_congr_right]
          exact ⟨fun h => h.elim (fun hnil => List.eq_nil_of_infix_nil hnil ▸ List.nil_infix) id,
            Or.inr⟩

/-- A word occurs in a joined text exactly where it occurs in a part. -/
theorem infix_intercalate (hc : c ∉ word) (hne : word ≠ []) (parts : List (List α)) :
    word <:+: [c].intercalate parts ↔ ∃ part ∈ parts, word <:+: part := by
  induction parts with
  | nil => simp [hne]
  | cons part parts ih =>
      cases parts with
      | nil => simp
      | cons next parts =>
          rw [List.intercalate_cons_cons, List.append_assoc, List.singleton_append,
            infix_append_cons hc, ih]
          simp

/-- A joined text begins with its first part. -/
theorem exists_append_intercalate (c : α) (first : List α) (parts : List (List α)) :
    ∃ rest, [c].intercalate (first :: parts) = first ++ rest := by
  cases parts with
  | nil => exact ⟨[], by simp⟩
  | cons next parts =>
      exact ⟨[c] ++ [c].intercalate (next :: parts), by simp [List.intercalate_cons_cons]⟩

/-- A joined text ends with its last part. -/
theorem exists_intercalate_append (c : α) (parts : List (List α)) (last : List α) :
    ∃ before, [c].intercalate (parts ++ [last]) = before ++ last := by
  induction parts with
  | nil => exact ⟨[], by simp⟩
  | cons part parts ih =>
      obtain ⟨before, hbefore⟩ := ih
      obtain ⟨next, others, hnext⟩ := List.exists_cons_of_ne_nil
        (show parts ++ [last] ≠ [] by simp)
      refine ⟨part ++ [c] ++ before, ?_⟩
      rw [List.cons_append, hnext, List.intercalate_cons_cons, ← hnext, hbefore]
      simp

end Separators

section Seams

/-- No end of the word, short of the whole, agrees with the beginning `head`. -/
def Clear (word head : List α) : Prop :=
  ∀ v ∈ word.tails.tail, v = [] ∨ (¬ v <+: head ∧ ¬ head <+: v)

instance [DecidableEq α] (word head : List α) : Decidable (Clear word head) :=
  inferInstanceAs (Decidable (∀ v ∈ word.tails.tail, v = [] ∨ (¬ v <+: head ∧ ¬ head <+: v)))

variable {word head : List α}

/-- What is left of a word after some of it does not stand at a clear beginning. -/
theorem Clear.not_prefix_append (h : Clear word head) {u v : List α} (hword : word = u ++ v)
    (hu : u ≠ []) (hv : v ≠ []) (rest : List α) : ¬ v <+: head ++ rest := by
  intro hprefix
  have hmem : v ∈ word.tails.tail := by
    cases u with
    | nil => exact absurd rfl hu
    | cons b u =>
        rw [hword, List.cons_append, List.tails_cons, List.tail_cons, List.mem_tails]
        exact List.suffix_append u v
  rcases h v hmem with hnil | ⟨hshort, hlong⟩
  · exact hv hnil
  · rcases List.prefix_or_prefix_of_prefix hprefix (List.prefix_append head rest) with hle | hge
    · exact hshort hle
    · exact hlong hge

/-- No occurrence crosses a clear seam. -/
theorem Clear.infix_append (h : Clear word head) (a rest : List α) :
    word <:+: a ++ (head ++ rest) ↔ word <:+: a ∨ word <:+: head ++ rest := by
  rw [List.infix_append_iff_ne_nil]
  constructor
  · intro hcases
    rcases hcases with ha | hrest | ⟨u, v, hu, hv, hword, -, hprefix⟩
    · exact Or.inl ha
    · exact Or.inr hrest
    · exact absurd hprefix (h.not_prefix_append hword hu hv rest)
  · intro hcases
    rcases hcases with ha | hrest
    · exact Or.inl ha
    · exact Or.inr (Or.inl hrest)

/-- A word that is clear of itself, after a text without it, does not start before
the seam. -/
theorem Clear.not_prefix_cons (h : Clear word word) {b : α} {a : List α}
    (ha : ¬ word <:+: b :: a) (rest : List α) : ¬ word <+: b :: a ++ (word ++ rest) := by
  intro hprefix
  rcases List.prefix_or_prefix_of_prefix hprefix (List.prefix_append (b :: a) _) with hle | hge
  · exact ha hle.isInfix
  · obtain ⟨v, hv⟩ := hge
    cases v with
    | nil =>
        rw [List.append_nil] at hv
        exact ha (hv ▸ List.infix_refl _)
    | cons c v =>
        have hprefix' : c :: v <+: word ++ rest := by
          rw [← List.prefix_append_right_inj (b :: a), hv]
          exact hprefix
        exact h.not_prefix_append hv.symm (by simp) (by simp) rest hprefix'

end Seams

end Substrings
