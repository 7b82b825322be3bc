import Mathlib

/-!
# Keeping the first rows of an order

Trimming a table means sorting it and dropping what lies beyond a number of
rows, for the whole table or for each group of rows.  The position of a row in
the sorted table is its `rank`, the number of rows that come no later, and so
what is kept can be said without sorting.  The order need only be total and
transitive, as one on some columns is; that it separates the rows of the table
is the condition `NoTies`, which a unique column gives.

`Trimmed` collects what trimming promises, and `trimmed_keepEach` proves it.
-/

namespace Ranking

variable {α β : Type} (r : α → α → Prop) [DecidableRel r]

/-- No two rows of the list come at the same place in the order. -/
def NoTies (l : List α) : Prop := l.Pairwise fun a b => ¬ (r a b ∧ r b a)

/-- The number of rows that come no later. -/
def rank (l : List α) (a : α) : Nat := l.countP fun b => r b a

variable {r}

omit [DecidableRel r] in
/-- Part of a list without ties has none. -/
theorem NoTies.sublist {l l' : List α} (h : NoTies r l) (hsub : l'.Sublist l) : NoTies r l' :=
  List.Pairwise.sublist hsub h

omit [DecidableRel r] in
/-- Ties do not depend on the order of the list. -/
theorem NoTies.perm {l l' : List α} (h : NoTies r l) (hperm : l.Perm l') : NoTies r l' :=
  hperm.pairwise h fun hab hba => hab hba.symm

omit [DecidableRel r] in
/-- Without ties the order is antisymmetric on the list. -/
theorem NoTies.eq_of_rel {l : List α} (h : NoTies r l) {a b : α} (ha : a ∈ l) (hb : b ∈ l)
    (hab : r a b) (hba : r b a) : a = b := by
  have hsymm : Std.Symm fun a b => ¬ (r a b ∧ r b a) := ⟨fun a b hne hboth => hne hboth.symm⟩
  by_contra hne
  exact List.Pairwise.forall h ha hb hne ⟨hab, hba⟩

section Newest

variable {γ : Type} {le : γ → γ → Prop} (ts : α → Int) (id : α → γ)
  (hr : ∀ a b, r a b ↔ ts b < ts a ∨ (ts b = ts a ∧ le (id b) (id a)))

include hr

omit [DecidableRel r] in
/-- The newest first, and among rows of one time the largest id, is a total
order. -/
theorem total_of_newest [Std.Total le] : Std.Total r := by
  refine ⟨fun a b => ?_⟩
  rw [hr, hr]
  rcases lt_trichotomy (ts a) (ts b) with h | h | h
  · exact Or.inr (Or.inl h)
  · rcases Std.Total.total (r := le) (id b) (id a) with hid | hid
    · exact Or.inl (Or.inr ⟨h.symm, hid⟩)
    · exact Or.inr (Or.inr ⟨h, hid⟩)
  · exact Or.inl (Or.inl h)

omit [DecidableRel r] in
/-- The order by time and then by id is transitive. -/
theorem trans_of_newest [IsTrans γ le] : IsTrans α r := by
  refine ⟨fun a b c hab hbc => ?_⟩
  rw [hr] at hab hbc ⊢
  rcases hab with hab | ⟨hab, hidab⟩ <;> rcases hbc with hbc | ⟨hbc, hidbc⟩
  · exact Or.inl (hbc.trans hab)
  · exact Or.inl (hbc ▸ hab)
  · exact Or.inl (hab ▸ hbc)
  · exact Or.inr ⟨hbc.trans hab, IsTrans.trans _ _ _ hidbc hidab⟩

omit [DecidableRel r] in
/-- Where the ids are unique it has no ties. -/
theorem noTies_of_newest [Std.Antisymm le] {l : List α} (h : (l.map id).Nodup) : NoTies r l := by
  refine (List.pairwise_map.mp h).imp fun {a b} hne hboth => hne ?_
  obtain ⟨hab, hba⟩ := hboth
  rw [hr] at hab hba
  rcases hab with hab | ⟨hts, hidab⟩
  · rcases hba with hba | ⟨hts, -⟩
    · exact absurd hab (lt_asymm hba)
    · exact absurd hts hab.ne'
  · rcases hba with hba | ⟨-, hidba⟩
    · exact absurd hts hba.ne'
    · exact Std.Antisymm.antisymm _ _ hidba hidab

end Newest

/-- The rank does not depend on the order of the list. -/
theorem rank_perm {l l' : List α} (h : l.Perm l') (a : α) : rank r l a = rank r l' a :=
  h.countP_eq _

/-- An earlier row has no higher rank. -/
theorem rank_mono [IsTrans α r] {a b : α} (h : r a b) (l : List α) : rank r l a ≤ rank r l b :=
  List.countP_mono_left fun c _ hc => by
    rw [decide_eq_true_eq] at hc ⊢
    exact IsTrans.trans c a b hc h

/-- The rank is at most the length. -/
theorem rank_le_length (l : List α) (a : α) : rank r l a ≤ l.length := List.countP_le_length

section Sorted

variable [Std.Total r]

omit [DecidableRel r] in
/-- A list without ties has no duplicates. -/
theorem NoTies.nodup {l : List α} (h : NoTies r l) : l.Nodup := by
  refine List.Pairwise.imp ?_ h
  rintro a b hab rfl
  have hrefl : r a a := (Std.Total.total a a).elim id id
  exact hab ⟨hrefl, hrefl⟩

/-- A member has a rank from one on. -/
theorem rank_pos {l : List α} {a : α} (ha : a ∈ l) : 0 < rank r l a := by
  refine List.countP_pos_iff.mpr ⟨a, ha, ?_⟩
  simpa using (Std.Total.total (r := r) a a)

/-- A row that comes strictly later has a higher rank. -/
theorem rank_lt [IsTrans α r] {l : List α} {a b : α} (hb : b ∈ l) (h : r a b) (hba : ¬ r b a) :
    rank r l a < rank r l b := by
  have hself : r b b := (Std.Total.total b b).elim id id
  have hsame : rank r l a = (l.filter fun c => r c b).countP fun c => r c a := by
    rw [rank, List.countP_filter]
    refine List.countP_congr fun c _ => ?_
    have htrans : r c a → r c b := fun hc => IsTrans.trans c a b hc h
    simpa using htrans
  rw [hsame]
  refine lt_of_lt_of_eq (List.countP_lt_length_iff.mpr ⟨b, ?_, ?_⟩)
    List.countP_eq_length_filter.symm
  · simpa using ⟨hb, hself⟩
  · simpa using hba

/-- In a sorted list the rows of rank at most `n` are the first `n`. -/
theorem filter_rank_sorted {s : List α} (hsorted : s.Pairwise r) (hties : NoTies r s) (n : Nat) :
    (s.filter fun a => rank r s a ≤ n) = s.take n := by
  induction s generalizing n with
  | nil => simp
  | cons x t ih =>
      obtain ⟨hx, hsorted⟩ := List.pairwise_cons.mp hsorted
      obtain ⟨hxties, hties⟩ := List.pairwise_cons.mp hties
      cases n with
      | zero =>
          rw [List.take_zero, List.filter_eq_nil_iff]
          intro a ha
          have hpos := rank_pos (r := r) ha
          simpa using hpos.ne'
      | succ n =>
          have hself : r x x := (Std.Total.total x x).elim id id
          have hfirst : rank r (x :: t) x = 1 := by
            have hnone : t.countP (fun b => r b x) = 0 := by
              refine List.countP_eq_zero.mpr fun b hb hbx => ?_
              exact hxties b hb ⟨hx b hb, by simpa using hbx⟩
            simp [rank, hself, hnone]
          have hrest : ∀ a ∈ t, rank r (x :: t) a = rank r t a + 1 := by
            intro a ha
            simp [rank, hx a ha]
          rw [List.filter_cons_of_pos (by simp [hfirst]), List.take_succ_cons, ← ih hsorted hties n]
          congr 1
          refine List.filter_congr fun a ha => ?_
          rw [hrest a ha]
          simp

variable [IsTrans α r]

/-- **First rows.**  Without ties, the first `n` rows of the sorted table are
those of rank at most `n`. -/
theorem mem_take_sort_iff {l : List α} (hties : NoTies r l) {n : Nat} {a : α} :
    a ∈ (l.insertionSort r).take n ↔ a ∈ l ∧ rank r l a ≤ n := by
  have hperm := List.perm_insertionSort r l
  rw [← filter_rank_sorted (List.pairwise_insertionSort r l) (hties.perm hperm.symm) n,
    List.mem_filter, hperm.mem_iff, rank_perm hperm, decide_eq_true_eq]

/-- **Rows beyond the first.**  The rows after the first `n` are those of a
rank above `n`. -/
theorem mem_drop_sort_iff {l : List α} (hties : NoTies r l) {n : Nat} {a : α} :
    a ∈ (l.insertionSort r).drop n ↔ a ∈ l ∧ n < rank r l a := by
  have hperm := List.perm_insertionSort r l
  have hnodup : (l.insertionSort r).Nodup := (hties.perm hperm.symm).nodup
  have hsplit : a ∈ l ↔ a ∈ (l.insertionSort r).take n ∨ a ∈ (l.insertionSort r).drop n := by
    rw [← List.mem_append, List.take_append_drop, hperm.mem_iff]
  have hdisjoint : a ∈ (l.insertionSort r).take n → a ∉ (l.insertionSort r).drop n :=
    fun htake hdrop => List.disjoint_take_drop hnodup (le_refl n) htake hdrop
  rw [mem_take_sort_iff hties] at hsplit hdisjoint
  constructor
  · intro hdrop
    have hmem : a ∈ l := hsplit.mpr (Or.inr hdrop)
    exact ⟨hmem, by_contra fun hle => hdisjoint ⟨hmem, not_lt.mp hle⟩ hdrop⟩
  · rintro ⟨hmem, hlt⟩
    exact (hsplit.mp hmem).resolve_left fun htake => absurd htake.2 (not_le.mpr hlt)

/-- The members of the first ranks are the first of the sorted list. -/
theorem filter_rank_perm {l : List α} (hties : NoTies r l) (n : Nat) :
    (l.filter fun a => rank r l a ≤ n).Perm ((l.insertionSort r).take n) := by
  have hperm := List.perm_insertionSort r l
  rw [← filter_rank_sorted (List.pairwise_insertionSort r l) (hties.perm hperm.symm) n]
  refine (List.Perm.filter _ hperm.symm).trans (List.Perm.of_eq ?_)
  exact List.filter_congr fun a _ => by rw [rank_perm hperm]

/-- At most `n` rows are kept. -/
theorem length_filter_rank_le {l : List α} (hties : NoTies r l) (n : Nat) :
    (l.filter fun a => rank r l a ≤ n).length ≤ n := by
  rw [(filter_rank_perm hties n).length_eq]
  exact List.length_take_le n _

/-- A row beyond the first `n` comes after `n` rows that are kept. -/
theorem rank_filter_of_lt {l : List α} (hties : NoTies r l) {n : Nat} {a : α} (ha : a ∈ l)
    (hlt : n < rank r l a) : rank r (l.filter fun b => rank r l b ≤ n) a = n := by
  have hdrop : a ∈ (l.insertionSort r).drop n := (mem_drop_sort_iff hties).mpr ⟨ha, hlt⟩
  have hlong : n ≤ (l.insertionSort r).length := by
    rw [List.length_insertionSort]
    exact le_trans (le_of_lt hlt) (rank_le_length l a)
  have hbefore : ∀ b ∈ (l.insertionSort r).take n, r b a := by
    have hpairs := List.pairwise_insertionSort r l
    rw [← List.take_append_drop n (l.insertionSort r)] at hpairs
    exact fun b hb => (List.pairwise_append.mp hpairs).2.2 b hb a hdrop
  rw [rank_perm (filter_rank_perm hties n), rank,
    List.countP_eq_length.mpr fun b hb => by simpa using hbefore b hb, List.length_take,
    min_eq_left hlong]

/-- Without the first rows of a table the ranks of the rest fall by their
number. -/
theorem rank_filter_add {l : List α} (hties : NoTies r l) {n : Nat} {a : α} (ha : a ∈ l)
    (hlt : n < rank r l a) : rank r (l.filter fun b => ¬ rank r l b ≤ n) a + n = rank r l a := by
  have hfirst := rank_filter_of_lt hties ha hlt
  have hsplit : rank r l a = rank r (l.filter fun b => rank r l b ≤ n) a +
      rank r (l.filter fun b => ¬ rank r l b ≤ n) a := by
    simp only [decide_not]
    exact List.countP_eq_countP_filter_add l _ _
  omega

/-- Sorting and filtering commute where there are no ties. -/
theorem filter_insertionSort {l : List α} (hties : NoTies r l) (p : α → Bool) :
    (l.insertionSort r).filter p = (l.filter p).insertionSort r := by
  have hperm := List.perm_insertionSort r l
  refine List.Perm.eq_of_pairwise ?_ ((List.pairwise_insertionSort r l).filter p)
    (List.pairwise_insertionSort r _)
    ((hperm.filter p).trans (List.perm_insertionSort r (l.filter p)).symm)
  intro a b ha hb hab hba
  exact hties.eq_of_rel (hperm.mem_iff.mp (List.mem_filter.mp ha).1)
    (List.mem_filter.mp ((List.perm_insertionSort r _).mem_iff.mp hb)).1 hab hba

/-- The number of rows that come no earlier. -/
def rankLast (r : α → α → Prop) [DecidableRel r] (l : List α) (a : α) : Nat :=
  l.countP fun b => r a b

omit [Std.Total r] in
/-- An earlier row has no lower rank from the end. -/
theorem rankLast_mono {a b : α} (h : r a b) (l : List α) : rankLast r l b ≤ rankLast r l a :=
  List.countP_mono_left fun c _ hc => by
    rw [decide_eq_true_eq] at hc ⊢
    exact IsTrans.trans a b c h hc

omit [IsTrans α r] in
/-- A member has a rank from the end, from one on. -/
theorem rankLast_pos {l : List α} {a : α} (ha : a ∈ l) : 0 < rankLast r l a := by
  refine List.countP_pos_iff.mpr ⟨a, ha, ?_⟩
  simpa using (Std.Total.total (r := r) a a)

omit [DecidableRel r] [IsTrans α r] in
theorem total_flip : Std.Total fun a b => r b a := ⟨fun a b => Std.Total.total b a⟩

omit [DecidableRel r] [Std.Total r] in
theorem trans_flip : IsTrans α fun a b => r b a :=
  ⟨fun a b c hab hbc => IsTrans.trans c b a hbc hab⟩

omit [DecidableRel r] [Std.Total r] [IsTrans α r] in
/-- There are no ties in the other direction either. -/
theorem NoTies.flip {l : List α} (h : NoTies r l) : NoTies (fun a b => r b a) l :=
  h.imp fun hne hboth => hne hboth.symm

/-- **Last rows.**  The first `n` rows of the table sorted the other way are
those of rank at most `n` from the end. -/
theorem mem_take_last_iff {l : List α} (hties : NoTies r l) {n : Nat} {a : α} :
    a ∈ (l.insertionSort fun a b => r b a).take n ↔ a ∈ l ∧ rankLast r l a ≤ n := by
  have htotal := total_flip (r := r)
  have htrans := trans_flip (r := r)
  exact mem_take_sort_iff hties.flip

/-- Without the last rows of a table the ranks from the end fall by their
number. -/
theorem rankLast_filter_add {l : List α} (hties : NoTies r l) {n : Nat} {a : α} (ha : a ∈ l)
    (hlt : n < rankLast r l a) :
    rankLast r (l.filter fun b => ¬ rankLast r l b ≤ n) a + n = rankLast r l a := by
  have htotal := total_flip (r := r)
  have htrans := trans_flip (r := r)
  exact rank_filter_add hties.flip ha hlt

/-- **Last rows in two rounds.**  Taking the last `m` rows and then the last `n` of the rest
takes the last `m + n`. -/
theorem filter_rankLast_add {l : List α} (hties : NoTies r l) (m n : Nat) :
    ((l.filter fun a => m < rankLast r l a).filter fun a =>
        n < rankLast r (l.filter fun a => m < rankLast r l a) a) =
      l.filter fun a => m + n < rankLast r l a := by
  rw [List.filter_filter]
  refine List.filter_congr fun a ha => ?_
  rw [← Bool.decide_and, decide_eq_decide]
  simp only [← not_le]
  constructor
  · intro hboth
    have hadd := rankLast_filter_add hties ha (not_le.mp hboth.2)
    omega
  · intro hover
    have hfirst : m < rankLast r l a := by omega
    have hadd := rankLast_filter_add hties ha hfirst
    omega

/-- As many rows go as were to go, or all. -/
theorem length_filter_rankLast {l : List α} (hties : NoTies r l) (n : Nat) :
    (l.filter fun a => n < rankLast r l a).length = l.length - n := by
  have htotal := total_flip (r := r)
  have htrans := trans_flip (r := r)
  have hlast := (filter_rank_perm hties.flip n).length_eq
  rw [List.length_take, List.length_insertionSort] at hlast
  have hsplit := List.length_eq_length_filter_add (l := l) fun a => decide (n < rankLast r l a)
  have hrest : (l.filter fun a => !decide (n < rankLast r l a)) =
      l.filter fun a => decide (rank (fun a b => r b a) l a ≤ n) := by
    refine List.filter_congr fun a _ => ?_
    rw [← decide_not, decide_eq_decide, not_lt]
    rfl
  rw [hrest, hlast] at hsplit
  omega

end Sorted

/-- Lists that are sorted by a column are equal when they agree on the rows of each value
of it. -/
theorem eq_of_sorted_of_filter {γ : Type} [LinearOrder γ] {f : α → γ} {l l' : List α}
    (hsorted : l.Pairwise fun a b => f a ≤ f b) (hsorted' : l'.Pairwise fun a b => f a ≤ f b)
    (h : ∀ t, (l.filter fun a => f a = t) = l'.filter fun a => f a = t) : l = l' := by
  induction l generalizing l' with
  | nil =>
      cases l' with
      | nil => rfl
      | cons b l' => exact absurd (h (f b)) (by simp)
  | cons a l ih =>
      obtain ⟨ha, hrest⟩ := List.pairwise_cons.mp hsorted
      cases l' with
      | nil => exact absurd (h (f a)) (by simp)
      | cons b l' =>
          obtain ⟨hb, hrest'⟩ := List.pairwise_cons.mp hsorted'
          have hmem : a ∈ b :: l' :=
            (List.mem_filter.mp (h (f a) ▸ List.mem_filter.mpr ⟨List.mem_cons_self, by simp⟩)).1
          have hmem' : b ∈ a :: l :=
            (List.mem_filter.mp ((h (f b)).symm ▸
              List.mem_filter.mpr ⟨List.mem_cons_self, by simp⟩)).1
          have hle : f b ≤ f a := (List.mem_cons.mp hmem).elim (fun e => e ▸ le_refl _) (hb a)
          have hge : f a ≤ f b := (List.mem_cons.mp hmem').elim (fun e => e ▸ le_refl _) (ha b)
          have hsame : f b = f a := le_antisymm hle hge
          have hfirst := h (f a)
          rw [List.filter_cons_of_pos (by simp), List.filter_cons_of_pos (by simpa using hsame),
            List.cons.injEq] at hfirst
          rw [hfirst.1, ih hrest hrest' fun t => ?_]
          have ht := h t
          rw [hfirst.1] at ht
          by_cases hbt : f b = t
          · rw [List.filter_cons_of_pos (by simpa using hbt),
              List.filter_cons_of_pos (by simpa using hbt), List.cons.injEq] at ht
            exact ht.2
          · rwa [List.filter_cons_of_neg (by simpa using hbt),
              List.filter_cons_of_neg (by simpa using hbt)] at ht

/-! ## Groups -/

section Groups

variable [DecidableEq β] (group : α → β) (r)

/-- The rank of a row among the rows of its group. -/
def rankIn (l : List α) (a : α) : Nat :=
  l.countP fun b => group b = group a ∧ r b a

/-- Keep the first `n` rows of each group. -/
def keepEach (n : Nat) (l : List α) : List α := l.filter fun a => rankIn r group l a ≤ n

/-- What a trimmed table promises: its rows are rows of the table before, all of
them pass the test, no group has more than its quota, and a row that passes the
test is missing only behind a full quota of kept rows of its group. -/
structure Trimmed (n : Nat) (passes : α → Prop) (l kept : List α) : Prop where
  rows : kept.Sublist l
  passed : ∀ a ∈ kept, passes a
  quota : ∀ g, (kept.filter fun a => group a = g).length ≤ n
  outranked : ∀ a ∈ l, a ∉ kept → passes a →
    rankIn r group kept a = n

variable {group r}

/-- The rank in a group is that among its members. -/
theorem rankIn_eq (l : List α) (a : α) :
    rankIn r group l a = rank r (l.filter fun b => group b = group a) a := by
  rw [rankIn, rank, List.countP_filter]
  refine List.countP_congr fun b _ => ?_
  simp [and_comm]

/-- The kept rows of a group are the first of the group. -/
theorem filter_keepEach (n : Nat) (l : List α) (g : β) :
    ((keepEach r group n l).filter fun a => group a = g) =
      (l.filter fun a => group a = g).filter fun a =>
        rank r (l.filter fun b => group b = g) a ≤ n := by
  rw [keepEach, List.filter_filter, List.filter_filter]
  refine List.filter_congr fun a _ => ?_
  by_cases hg : group a = g
  · simp [hg, rankIn_eq]
  · simp [hg]

/-- A table within its quotas loses nothing. -/
theorem keepEach_of_quota {n : Nat} {l : List α}
    (h : ∀ g, (l.filter fun a => group a = g).length ≤ n) : keepEach r group n l = l := by
  refine List.filter_eq_self.mpr fun a _ => ?_
  rw [decide_eq_true_eq, rankIn_eq]
  exact (rank_le_length _ a).trans (h (group a))

/-- **Trimming.**  Dropping the rows that fail a test and keeping the first of
each group keeps all that `Trimmed` promises. -/
theorem trimmed_keepEach [Std.Total r] [IsTrans α r] {l : List α} (hties : NoTies r l) (n : Nat)
    (passes : α → Prop) [DecidablePred passes] :
    Trimmed r group n passes l (keepEach r group n (l.filter fun a => passes a)) where
  rows := List.filter_sublist.trans List.filter_sublist
  passed := by
    intro a ha
    simpa using (List.mem_filter.mp (List.mem_filter.mp ha).1).2
  quota := by
    intro g
    rw [filter_keepEach]
    exact length_filter_rank_le
      (hties.sublist (List.filter_sublist.trans List.filter_sublist)) n
  outranked := by
    intro a ha hlost hpasses
    have hin : a ∈ l.filter fun a => passes a := by simpa using ⟨ha, hpasses⟩
    have hlt : n < rankIn r group (l.filter fun a => passes a) a := by
      by_contra hle
      exact hlost (List.mem_filter.mpr ⟨hin, by simpa using hle⟩)
    rw [rankIn_eq] at hlt ⊢
    rw [filter_keepEach]
    exact rank_filter_of_lt (hties.sublist (List.filter_sublist.trans List.filter_sublist))
      (by simpa using hin) hlt

/-- Trimming a trimmed table changes nothing. -/
theorem Trimmed.again {n : Nat} {passes : α → Prop} [DecidablePred passes] {l kept : List α}
    (h : Trimmed r group n passes l kept) :
    keepEach r group n (kept.filter fun a => passes a) = kept := by
  have hpassed : (kept.filter fun a => passes a) = kept :=
    List.filter_eq_self.mpr fun a ha => by simpa using h.passed a ha
  rw [hpassed]
  exact keepEach_of_quota h.quota

end Groups

end Ranking
