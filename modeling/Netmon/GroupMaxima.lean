import Mathlib

/-!
# Sums and largest values of groups

Values that are not negative are added up, and the sum is compared with what one gets by
taking only the largest value of each group.  The sum is never less.  It is not more exactly
when no group has two positive values (`sum_le_groupLargest_iff`).
-/

namespace GroupMaxima

variable {M : Type} [AddCommGroup M] [LinearOrder M] [IsOrderedAddMonoid M]

/-! ## One group -/

/-- The largest of some values, or zero. -/
def largest (values : List M) : M := values.foldr max 0

omit [IsOrderedAddMonoid M] in
theorem largest_nonneg (values : List M) : 0 ≤ largest values := by
  induction values with
  | nil => exact le_refl 0
  | cons a values ih => exact ih.trans (le_max_right a _)

theorem largest_le_sum {values : List M} (h : ∀ a ∈ values, 0 ≤ a) :
    largest values ≤ values.sum := by
  induction values with
  | nil => exact le_refl 0
  | cons a values ih =>
      have hrest : ∀ b ∈ values, 0 ≤ b := fun b hb => h b (List.mem_cons_of_mem _ hb)
      rw [List.sum_cons]
      exact max_le (le_add_of_nonneg_right (List.sum_nonneg hrest))
        ((ih hrest).trans (le_add_of_nonneg_left (h a List.mem_cons_self)))

/-- The sum is the largest value exactly when at most one value is positive. -/
theorem sum_le_largest_iff {values : List M} (h : ∀ a ∈ values, 0 ≤ a) :
    values.sum ≤ largest values ↔ values.Pairwise fun a b => ¬ (0 < a ∧ 0 < b) := by
  induction values with
  | nil => exact ⟨fun _ => List.Pairwise.nil, fun _ => le_refl 0⟩
  | cons a values ih =>
      have ha := h a List.mem_cons_self
      have hrest : ∀ b ∈ values, 0 ≤ b := fun b hb => h b (List.mem_cons_of_mem _ hb)
      have hlargest := largest_le_sum hrest
      have hnonneg := largest_nonneg values
      rw [List.pairwise_cons, ← ih hrest, List.sum_cons]
      show a + values.sum ≤ max a (largest values) ↔ _
      constructor
      · intro hsum
        rcases le_max_iff.mp hsum with hleft | hright
        · have hzero : values.sum ≤ 0 := by simpa using hleft
          refine ⟨fun b hb hpos => ?_, hzero.trans hnonneg⟩
          exact absurd ((List.single_le_sum hrest b hb).trans hzero) (not_le.mpr hpos.2)
        · have hsame : a ≤ 0 := by
            have := hright.trans hlargest
            simpa using this
          exact ⟨fun b _ hpos => absurd hsame (not_le.mpr hpos.1),
            (le_add_of_nonneg_left ha).trans hright⟩
      · rintro ⟨halone, hsum⟩
        rcases ha.eq_or_lt with hzero | hpos
        · rw [← hzero, zero_add]
          exact hsum.trans (le_max_right _ _)
        · have hnone : ∀ b ∈ values, b = 0 := fun b hb =>
            le_antisymm (not_lt.mp fun hb' => halone b hb ⟨hpos, hb'⟩) (hrest b hb)
          rw [List.sum_eq_zero hnone, add_zero]
          exact le_max_left _ _

/-! ## All groups -/

variable {α κ : Type} [DecidableEq κ] (group : α → κ) (value : α → M)

/-- The values of one group. -/
def valuesOf (items : List α) (k : κ) : List M :=
  (items.filter fun a => group a = k).map value

/-- The sum over the groups of the largest value of each. -/
def groupLargest (items : List α) : M :=
  ((items.map group).dedup.map fun k => largest (valuesOf group value items k)).sum

omit [LinearOrder M] [IsOrderedAddMonoid M] in
/-- The sum over a set of groups that has them all. -/
theorem sum_valuesOf {items : List α} {groups : Finset κ} (h : ∀ a ∈ items, group a ∈ groups) :
    (∑ k ∈ groups, (valuesOf group value items k).sum) = (items.map value).sum := by
  induction items with
  | nil => simp [valuesOf]
  | cons a items ih =>
      have hsplit : ∀ k, (valuesOf group value (a :: items) k).sum =
          (if group a = k then value a else 0) + (valuesOf group value items k).sum := by
        intro k
        by_cases hk : group a = k <;> simp [valuesOf, hk]
      simp only [hsplit]
      rw [Finset.sum_add_distrib, ih fun b hb => h b (List.mem_cons_of_mem _ hb),
        Finset.sum_ite_eq, if_pos (h a List.mem_cons_self), List.map_cons, List.sum_cons]

variable {group value}

/-- **The sum exceeds the largest values of the groups** unless no group has two positive
values. -/
theorem sum_le_groupLargest_iff {items : List α} (h : ∀ a ∈ items, 0 ≤ value a) :
    (items.map value).sum ≤ groupLargest group value items ↔
      items.Pairwise fun a b => group a = group b → ¬ (0 < value a ∧ 0 < value b) := by
  have hvalues : ∀ k, ∀ v ∈ valuesOf group value items k, 0 ≤ v := by
    intro k v hv
    obtain ⟨a, ha, rfl⟩ := List.mem_map.mp hv
    exact h a (List.mem_filter.mp ha).1
  have hmem : ∀ a ∈ items, group a ∈ (items.map group).dedup.toFinset := by
    intro a ha
    rw [List.mem_toFinset, List.mem_dedup]
    exact List.mem_map_of_mem ha
  have hgroups : (items.map value).sum ≤ groupLargest group value items ↔
      ∀ k ∈ (items.map group).dedup.toFinset,
        (valuesOf group value items k).sum ≤ largest (valuesOf group value items k) := by
    have hle : ∀ k ∈ (items.map group).dedup.toFinset,
        largest (valuesOf group value items k) ≤ (valuesOf group value items k).sum := fun k _ =>
      largest_le_sum (hvalues k)
    rw [groupLargest, ← List.sum_toFinset _ (List.nodup_dedup _), ← sum_valuesOf group value hmem]
    constructor
    · intro hsum k hk
      have heq := (Finset.sum_eq_sum_iff_of_le hle).mp
        (le_antisymm (Finset.sum_le_sum hle) hsum)
      exact (heq k hk).ge
    · exact fun hsum => Finset.sum_le_sum hsum
  rw [hgroups, List.pairwise_iff_forall_sublist]
  constructor
  · intro hlargest a b hab hsame
    have hpair := (sum_le_largest_iff (hvalues (group a))).mp
      (hlargest (group a) (hmem a (hab.subset List.mem_cons_self)))
    have hsub : [a, b].Sublist (items.filter fun c => group c = group a) := by
      have := hab.filter fun c => decide (group c = group a)
      simpa [hsame.symm] using this
    exact List.pairwise_iff_forall_sublist.mp hpair (hsub.map value)
  · intro halone k _
    refine (sum_le_largest_iff (hvalues k)).mpr (List.pairwise_map.mpr ?_)
    refine List.pairwise_filter.mpr (List.pairwise_iff_forall_sublist.mpr ?_)
    intro a b hab ha hb
    rw [decide_eq_true_eq] at ha hb
    exact halone hab (ha.trans hb.symm)

end GroupMaxima
