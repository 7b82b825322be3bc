import Mathlib

/-!
# Finite maps with non-dependent values

Mathlib's `AList` is an association list that carries the proof that its keys
are pairwise distinct.  This file adds the two bulk operations that a program
with hash tables performs while it walks over one: rewriting every value and
dropping the entries that fail a test.  Each comes with the equation that says
what `lookup` returns afterwards, so that no later proof looks at the entries.

Nothing here depends on the order of the entries except `entries` itself.  A table of
counters is a `tally`, and the sum of its values is the number of things counted.

For a table that is a function, `Function.update_cases` says what stands in it
after one place was written.
-/

/-- A value of an updated function is the new one, or an old one elsewhere. -/
theorem Function.update_cases {α β : Type} [DecidableEq α] {f : α → β} {a b : α} {new value : β}
    (h : Function.update f a new b = value) :
    (b = a ∧ new = value) ∨ (b ≠ a ∧ f b = value) := by
  by_cases hb : b = a
  · subst hb
    rw [Function.update_self] at h
    exact Or.inl ⟨rfl, h⟩
  · rw [Function.update_of_ne hb] at h
    exact Or.inr ⟨hb, h⟩

/-- A value other than the new one was there before. -/
theorem Function.eq_of_update_eq {α β : Type} [DecidableEq α] {f : α → β} {a b : α}
    {new value : β} (h : Function.update f a new b = value) (hne : new ≠ value) :
    f b = value :=
  (Function.update_cases h).elim (fun hnew => absurd hnew.2 hne) And.right

namespace AList

variable {K V W : Type}

/-- Apply `f` to every value. -/
def mapValues (f : V → W) (m : AList fun _ : K => V) : AList fun _ : K => W where
  entries := m.entries.map fun e => ⟨e.1, f e.2⟩
  nodupKeys := by
    have hkeys : (m.entries.map fun e => (⟨e.1, f e.2⟩ : Sigma fun _ : K => W)).keys =
        m.entries.keys := by
      simp [List.keys]
    show (List.keys _).Nodup
    rw [hkeys]
    exact m.nodupKeys

/-- Keep the entries that pass the test `p`. -/
def filterEntries (p : K → V → Bool) (m : AList fun _ : K => V) :
    AList fun _ : K => V where
  entries := m.entries.filter fun e => p e.1 e.2
  nodupKeys := m.nodupKeys.sublist List.filter_sublist

theorem keys_mapValues (f : V → W) (m : AList fun _ : K => V) :
    (m.mapValues f).keys = m.keys := by
  simp [mapValues, AList.keys, List.keys]

theorem mem_mapValues {f : V → W} {m : AList fun _ : K => V} {k : K} :
    k ∈ m.mapValues f ↔ k ∈ m := by
  rw [AList.mem_keys, AList.mem_keys, keys_mapValues]

variable [DecidableEq K]

/-- Rewriting the values rewrites what `lookup` returns. -/
@[simp] theorem lookup_mapValues (f : V → W) (m : AList fun _ : K => V) (k : K) :
    (m.mapValues f).lookup k = (m.lookup k).map f := by
  show (m.entries.map fun e => (⟨e.1, f e.2⟩ : Sigma fun _ : K => W)).dlookup k =
    (m.entries.dlookup k).map f
  induction m.entries with
  | nil => rfl
  | cons e es ih =>
      obtain ⟨a, v⟩ := e
      by_cases h : a = k
      · subst h
        simp
      · have hk : k ≠ a := fun heq => h heq.symm
        exact (List.dlookup_cons_ne (β := fun _ : K => W) _ ⟨a, f v⟩ hk).trans
          (ih.trans (congrArg _ (List.dlookup_cons_ne (β := fun _ : K => V) es ⟨a, v⟩ hk).symm))

/-- An entry is in the list exactly when `lookup` finds it. -/
theorem mem_entries_iff {m : AList fun _ : K => V} {k : K} {v : V} :
    (⟨k, v⟩ : Sigma fun _ : K => V) ∈ m.entries ↔ m.lookup k = some v :=
  (AList.mem_lookup_iff (s := m)).symm

/-- The entries of a map whose values are known under each key. -/
theorem entries_perm {m : AList fun _ : K => V} {keys : List K} {value : K → V}
    (hnodup : keys.Nodup) (h : ∀ k v, m.lookup k = some v ↔ k ∈ keys ∧ value k = v) :
    m.entries.Perm (keys.map fun k => ⟨k, value k⟩) := by
  have hright : (keys.map fun k => (⟨k, value k⟩ : Sigma fun _ : K => V)).Nodup :=
    hnodup.map fun a b hab => congrArg Sigma.fst hab
  refine (List.perm_ext_iff_of_nodup m.nodupKeys.nodup hright).mpr ?_
  rintro ⟨k, v⟩
  rw [mem_entries_iff, h, List.mem_map]
  constructor
  · rintro ⟨hk, rfl⟩
    exact ⟨k, hk, rfl⟩
  · rintro ⟨k', hk', hsame⟩
    cases hsame
    exact ⟨hk', rfl⟩

/-- Dropping the entries that fail `p` filters what `lookup` returns. -/
@[simp] theorem lookup_filterEntries (p : K → V → Bool) (m : AList fun _ : K => V) (k : K) :
    (m.filterEntries p).lookup k = (m.lookup k).filter (p k) := by
  ext v
  have h : (m.filterEntries p).lookup k = some v ↔ m.lookup k = some v ∧ p k v = true := by
    rw [← mem_entries_iff, ← mem_entries_iff]
    simp [filterEntries]
  simpa [Option.filter_eq_some_iff] using h

/-- Rewriting values that stay the same changes nothing. -/
theorem mapValues_eq_self {f : V → V} {m : AList fun _ : K => V}
    (h : ∀ k v, m.lookup k = some v → f v = v) : m.mapValues f = m := by
  refine AList.ext ?_
  refine (List.map_congr_left fun e he => ?_).trans (List.map_id m.entries)
  exact Sigma.ext rfl (heq_of_eq (h e.1 e.2 (mem_entries_iff.mp he)))

/-- A filter that no entry passes leaves nothing. -/
theorem filterEntries_eq_empty {p : K → V → Bool} {m : AList fun _ : K => V}
    (h : ∀ k v, m.lookup k = some v → p k v = false) : m.filterEntries p = ∅ := by
  refine AList.ext (List.filter_eq_nil_iff.mpr fun e he => ?_)
  rw [h e.1 e.2 (mem_entries_iff.mp he)]
  decide

/-- A present key has a value. -/
theorem exists_lookup_of_mem {m : AList fun _ : K => V} {k : K} (h : k ∈ m) :
    ∃ v, m.lookup k = some v :=
  Option.isSome_iff_exists.mp (AList.lookup_isSome.mpr h)

/-- A key with a value is present. -/
theorem mem_of_lookup {m : AList fun _ : K => V} {k : K} {v : V}
    (h : m.lookup k = some v) : k ∈ m :=
  AList.lookup_isSome.mp (by simp [h])

/-- A map without keys is empty. -/
theorem eq_empty_iff {m : AList fun _ : K => V} : m = ∅ ↔ ∀ k, k ∉ m := by
  constructor
  · rintro rfl k
    exact AList.notMem_empty k
  · intro h
    refine AList.ext (List.eq_nil_iff_forall_not_mem.mpr fun e he => ?_)
    exact h e.1 (mem_of_lookup (mem_entries_iff.mp he))

/-- The value stored under `k`, or the default that `operator[]` creates. -/
def getD (m : AList fun _ : K => V) (k : K) (default : V) : V :=
  (m.lookup k).getD default

/-- `lookup` after `insert`, with the two cases in one equation. -/
theorem lookup_insert_if (m : AList fun _ : K => V) (k k' : K) (v : V) :
    (m.insert k v).lookup k' = if k' = k then some v else m.lookup k' := by
  by_cases h : k' = k
  · subst h
    simp
  · simp [AList.lookup_insert_ne h, h]

/-- `lookup` after `erase`, with the two cases in one equation. -/
theorem lookup_erase_if (m : AList fun _ : K => V) (k k' : K) :
    (m.erase k).lookup k' = if k' = k then none else m.lookup k' := by
  by_cases h : k' = k
  · subst h
    simp
  · simp [AList.lookup_erase_ne h, h]

/-- Overwriting an entry keeps the number of entries. -/
theorem length_insert_of_mem {k : K} {v : V} {m : AList fun _ : K => V} (h : k ∈ m) :
    (m.insert k v).entries.length = m.entries.length := by
  have hkeys : (m.insert k v).keys.length = m.keys.length := by
    rw [keys_insert, List.length_cons, List.length_erase_of_mem (mem_keys.mp h)]
    exact Nat.sub_add_cancel (List.length_pos_of_mem (mem_keys.mp h))
  simpa [keys, List.keys] using hkeys

/-- Moving an entry to a free key keeps the number of entries. -/
theorem length_move {k k' : K} {v : V} {m : AList fun _ : K => V} (h : k ∈ m)
    (hfree : k' ∉ m) : ((m.erase k).insert k' v).entries.length = m.entries.length := by
  have hkeys : ((m.erase k).insert k' v).keys.length = m.keys.length := by
    have hnot : k' ∉ (m.erase k).keys := fun hk => hfree (mem_erase.mp (mem_keys.mpr hk)).2
    rw [keys_insert, List.length_cons, List.erase_of_not_mem hnot, keys_erase,
      List.length_erase_of_mem (mem_keys.mp h)]
    exact Nat.sub_add_cancel (List.length_pos_of_mem (mem_keys.mp h))
  simpa [keys, List.keys] using hkeys

/-- A sum over the entries loses with `erase` the value that was there. -/
theorem sum_erase (f : V → Nat) (m : AList fun _ : K => V) (k : K) :
    ((m.erase k).entries.map fun e => f e.2).sum + (m.lookup k).elim 0 f =
      (m.entries.map fun e => f e.2).sum := by
  have hkerase : ∀ l : List (Sigma fun _ : K => V),
      ((l.kerase k).map fun e => f e.2).sum + (l.dlookup k).elim 0 f =
        (l.map fun e => f e.2).sum := by
    intro l
    induction l with
    | nil => rfl
    | cons e l ih =>
        obtain ⟨a, w⟩ := e
        by_cases h : k = a
        · subst h
          simp [Nat.add_comm]
        · rw [List.kerase_cons_ne h, List.dlookup_cons_ne _ _ h]
          simp only [List.map_cons, List.sum_cons]
          omega
  exact hkerase m.entries

/-- A sum over the entries changes with `insert` by the value written and the
value it replaces. -/
theorem sum_insert (f : V → Nat) (m : AList fun _ : K => V) (k : K) (v : V) :
    ((m.insert k v).entries.map fun e => f e.2).sum + (m.lookup k).elim 0 f =
      f v + (m.entries.map fun e => f e.2).sum := by
  rw [entries_insert, List.map_cons, List.sum_cons, Nat.add_assoc]
  exact congrArg _ (sum_erase f m k)

/-- Count one more occurrence of every item of a list. -/
def tally (items : List K) (m : AList fun _ : K => Nat) : AList fun _ : K => Nat :=
  items.foldl (fun m k => m.insert k (m.getD k 0 + 1)) m

/-- A tally grows by the number of occurrences. -/
theorem getD_tally [BEq K] [LawfulBEq K] (items : List K) (m : AList fun _ : K => Nat) (k : K) :
    (m.tally items).getD k 0 = m.getD k 0 + items.count k := by
  induction items generalizing m with
  | nil => rfl
  | cons a items ih =>
      have hstep : m.tally (a :: items) = (m.insert a (m.getD a 0 + 1)).tally items := rfl
      have hcell : (m.insert a (m.getD a 0 + 1)).getD k 0 =
          m.getD k 0 + if a = k then 1 else 0 := by
        by_cases h : a = k
        · subst h
          simp [getD]
        · rw [getD, lookup_insert_ne (Ne.symm h), if_neg h]
          rfl
      rw [hstep, ih, hcell, List.count_cons, Nat.add_assoc]
      simp only [beq_iff_eq, Nat.add_comm]

/-- The counts of a tally add up to the number of items. -/
theorem sum_tally (items : List K) (m : AList fun _ : K => Nat) :
    ((m.tally items).entries.map Sigma.snd).sum =
      (m.entries.map Sigma.snd).sum + items.length := by
  induction items generalizing m with
  | nil => rfl
  | cons a items ih =>
      have hstep : m.tally (a :: items) = (m.insert a (m.getD a 0 + 1)).tally items := rfl
      have hcell : ((m.insert a (m.getD a 0 + 1)).entries.map Sigma.snd).sum =
          (m.entries.map Sigma.snd).sum + 1 := by
        have hsum := sum_insert (fun n : Nat => n) m a (m.getD a 0 + 1)
        have hold : (m.lookup a).elim 0 (fun n : Nat => n) = m.getD a 0 := by
          rw [getD]
          cases m.lookup a <;> rfl
        rw [hold] at hsum
        change ((m.insert a (m.getD a 0 + 1)).entries.map fun e => e.2).sum =
          (m.entries.map fun e => e.2).sum + 1
        omega
      rw [hstep, ih, hcell, List.length_cons]
      omega

/-- Insert an entry for every item of a list, from left to right. -/
def insertAll {A : Type} (key : A → K) (value : A → V) (items : List A)
    (m : AList fun _ : K => V) : AList fun _ : K => V :=
  items.foldl (fun m a => m.insert (key a) (value a)) m

/-- A key of none of the items keeps its value. -/
theorem lookup_insertAll_of_notMem {A : Type} {key : A → K} {value : A → V} {items : List A}
    {m : AList fun _ : K => V} {k : K} (h : ∀ a ∈ items, key a ≠ k) :
    (m.insertAll key value items).lookup k = m.lookup k := by
  induction items generalizing m with
  | nil => rfl
  | cons a items ih =>
      have hrest := ih (m := m.insert (key a) (value a)) fun b hb => h b (List.mem_cons_of_mem _ hb)
      exact hrest.trans (lookup_insert_ne (h a List.mem_cons_self).symm)

/-- When the keys of the items are distinct, each item's key holds its value. -/
theorem lookup_insertAll_of_mem {A : Type} {key : A → K} {value : A → V} {items : List A}
    {m : AList fun _ : K => V} (h : (items.map key).Nodup) {a : A} (ha : a ∈ items) :
    (m.insertAll key value items).lookup (key a) = some (value a) := by
  induction items generalizing m with
  | nil => simp at ha
  | cons b items ih =>
      obtain ⟨hb, hrest⟩ := List.nodup_cons.mp h
      rcases List.mem_cons.mp ha with rfl | htail
      · have hkeep : ((m.insert (key a) (value a)).insertAll key value items).lookup (key a) =
            (m.insert (key a) (value a)).lookup (key a) :=
          lookup_insertAll_of_notMem fun c hc heq => hb (heq ▸ List.mem_map_of_mem hc)
        exact hkeep.trans (lookup_insert m)
      · exact ih hrest htail

/-- **The last item of a key decides its value.** -/
theorem lookup_insertAll {A : Type} (key : A → K) (value : A → V) (items : List A)
    (m : AList fun _ : K => V) (k : K) :
    (m.insertAll key value items).lookup k =
      ((items.filter fun a => key a = k).getLast?.map value).or (m.lookup k) := by
  induction items generalizing m with
  | nil => rfl
  | cons a items ih =>
      have hstep : m.insertAll key value (a :: items) =
          (m.insert (key a) (value a)).insertAll key value items := rfl
      rw [hstep, ih, lookup_insert_if]
      by_cases hk : key a = k
      · rw [List.filter_cons_of_pos (by simpa using hk), if_pos hk.symm, List.getLast?_cons]
        cases (items.filter fun a => key a = k).getLast? with
        | none => rfl
        | some last => rfl
      · rw [List.filter_cons_of_neg (by simpa using hk), if_neg (Ne.symm hk)]

/-- What is found under a key was there, or is the value of an item with that key. -/
theorem of_lookup_insertAll {A : Type} {key : A → K} {value : A → V} {items : List A}
    {m : AList fun _ : K => V} {k : K} {v : V}
    (h : (m.insertAll key value items).lookup k = some v) :
    (∃ a ∈ items, key a = k ∧ value a = v) ∨ m.lookup k = some v := by
  induction items generalizing m with
  | nil => exact Or.inr h
  | cons a items ih =>
      rcases ih (m := m.insert (key a) (value a)) h with ⟨b, hb, hbk⟩ | hold
      · exact Or.inl ⟨b, List.mem_cons_of_mem a hb, hbk⟩
      · rw [lookup_insert_if] at hold
        split at hold
        · rename_i hk
          exact Or.inl ⟨a, List.mem_cons_self, hk.symm, Option.some.inj hold⟩
        · exact Or.inr hold

/-- Inserting adds the keys of the items and no others. -/
theorem mem_insertAll {A : Type} {key : A → K} {value : A → V} {items : List A}
    {m : AList fun _ : K => V} {k : K} :
    k ∈ m.insertAll key value items ↔ (∃ a ∈ items, key a = k) ∨ k ∈ m := by
  induction items generalizing m with
  | nil => simp [insertAll]
  | cons a items ih =>
      have hstep : m.insertAll key value (a :: items) =
          (m.insert (key a) (value a)).insertAll key value items := rfl
      rw [hstep, ih, mem_insert]
      constructor
      · rintro (⟨b, hb, hk⟩ | hk | hk)
        · exact Or.inl ⟨b, List.mem_cons_of_mem _ hb, hk⟩
        · exact Or.inl ⟨a, List.mem_cons_self, hk.symm⟩
        · exact Or.inr hk
      · rintro (⟨b, hb, hk⟩ | hk)
        · rcases List.mem_cons.mp hb with rfl | htail
          · exact Or.inr (Or.inl hk.symm)
          · exact Or.inl ⟨b, htail, hk⟩
        · exact Or.inr (Or.inr hk)

/-- Fold a list into a map of accumulators: each item goes on to the accumulator of its
key, which starts from a default. -/
def foldByKey {A : Type} (key : A → K) (step : V → A → V) (default : V) (items : List A)
    (m : AList fun _ : K => V) : AList fun _ : K => V :=
  items.foldl (fun m a => m.insert (key a) (step (m.getD (key a) default) a)) m

/-- **The accumulator of a key** has folded the items of that key, in their order. -/
theorem lookup_foldByKey {A : Type} (key : A → K) (step : V → A → V) (default : V) (items : List A)
    (m : AList fun _ : K => V) (k : K) :
    (m.foldByKey key step default items).lookup k =
      if (items.filter fun a => key a = k) = [] then m.lookup k
      else some ((items.filter fun a => key a = k).foldl step (m.getD k default)) := by
  induction items generalizing m with
  | nil => rfl
  | cons a items ih =>
      have hstep : m.foldByKey key step default (a :: items) =
          (m.insert (key a) (step (m.getD (key a) default) a)).foldByKey key step default
            items := rfl
      rw [hstep, ih]
      by_cases hk : key a = k
      · have hhere : (m.insert k (step (m.getD k default) a)).getD k default =
            step (m.getD k default) a := by
          rw [getD, lookup_insert]
          rfl
        rw [List.filter_cons_of_pos (by simpa using hk), if_neg (List.cons_ne_nil _ _), hk,
          List.foldl_cons, lookup_insert, hhere]
        split
        · rename_i hnone
          rw [hnone]
          rfl
        · rfl
      · rw [List.filter_cons_of_neg (by simpa using hk), lookup_insert_ne (Ne.symm hk), getD,
          lookup_insert_ne (Ne.symm hk)]
        rfl

end AList
