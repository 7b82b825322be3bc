import Mathlib

/-!
# Counters that start again

A counter is read from time to time.  While it runs, the next reading relates to the one
before (it is not smaller, say), and the growth is the difference; when it does not, the
counter has started again from zero and the growth is the reading itself.  What has been
counted over a list of readings is the sum of the growths.  A list of readings falls into
maximal runs, and the sum telescopes over each of them: it is the sum of the last
readings of the runs, less the first reading of all (`total_cons`).
-/

namespace CounterRuns

variable {G : Type} (r : G → G → Bool)

/-- The last reading of each maximal run. -/
def runEnds (readings : List G) : List G := (readings.splitBy r).filterMap List.getLast?

theorem runEnds_singleton (a : G) : runEnds r [a] = [a] := rfl

variable {r} {a b : G}

/-- A reading that the next one relates to belongs to the run of the next one. -/
theorem splitBy_cons_of_rel (h : r a b = true) (rest : List G) :
    ∃ run runs, (b :: rest).splitBy r = (b :: run) :: runs ∧
      (a :: b :: rest).splitBy r = (a :: b :: run) :: runs := by
  obtain ⟨hflat, hnil, hchain, hbreaks⟩ :=
    (List.splitBy_eq_iff (r := r) (m := b :: rest)).mp rfl
  cases hruns : (b :: rest).splitBy r with
  | nil =>
      rw [hruns] at hflat
      exact absurd hflat (List.cons_ne_nil b rest)
  | cons first runs =>
      rw [hruns] at hflat hnil hchain hbreaks
      cases first with
      | nil => exact absurd List.mem_cons_self hnil
      | cons c run =>
          rw [List.flatten_cons, List.cons_append, List.cons.injEq] at hflat
          obtain ⟨rfl, hrest⟩ := hflat
          refine ⟨run, runs, rfl, List.splitBy_eq_iff.mpr ⟨?_, ?_, ?_, ?_⟩⟩
          · rw [List.flatten_cons, hrest]
            rfl
          · rw [List.mem_cons, not_or] at hnil ⊢
            exact ⟨List.cons_ne_nil _ _ ∘ Eq.symm, hnil.2⟩
          · intro m hm
            rcases List.mem_cons.mp hm with rfl | hm
            · exact List.isChain_cons_cons.mpr ⟨h, hchain _ List.mem_cons_self⟩
            · exact hchain m (List.mem_cons_of_mem _ hm)
          · -- the run has become longer at its front, and runs are compared at their ends
            cases runs with
            | nil => exact List.isChain_singleton _
            | cons second runs =>
                obtain ⟨⟨hfirst, hsecond, hbreak⟩, hothers⟩ := List.isChain_cons_cons.mp hbreaks
                exact List.isChain_cons_cons.mpr
                  ⟨⟨List.cons_ne_nil _ _, hsecond, hbreak⟩, hothers⟩

theorem runEnds_of_rel (h : r a b = true) (rest : List G) :
    runEnds r (a :: b :: rest) = runEnds r (b :: rest) := by
  obtain ⟨run, runs, hruns, hlonger⟩ := splitBy_cons_of_rel h rest
  rw [runEnds, runEnds, hruns, hlonger]
  rfl

theorem runEnds_of_not_rel (h : r a b = false) (rest : List G) :
    runEnds r (a :: b :: rest) = a :: runEnds r (b :: rest) := by
  have hsplit : (a :: b :: rest).splitBy r = [a].splitBy r ++ (b :: rest).splitBy r :=
    List.splitBy_append_cons (l := [a]) rest (by simpa using h)
  rw [runEnds, hsplit, List.filterMap_append]
  rfl

section

variable [AddCommGroup G] (r)

/-- What the counter has grown by between two readings. -/
def growth (previous current : G) : G := if r previous current then current - previous else current

/-- What the counter has counted over the readings. -/
def total : List G → G
  | a :: b :: rest => growth r a b + total (b :: rest)
  | _ => 0

/-- One more reading adds its growth. -/
theorem total_concat (readings : List G) (a b : G) :
    total r (readings ++ [a, b]) = total r (readings ++ [a]) + growth r a b := by
  induction readings with
  | nil => simp [total]
  | cons c readings ih =>
      cases readings with
      | nil => simp [total]
      | cons d readings =>
          simp only [List.cons_append, total] at ih ⊢
          rw [ih, add_assoc]

theorem total_append_singleton {readings : List G} (h : readings ≠ []) (b : G) :
    total r (readings ++ [b]) = total r readings + growth r (readings.getLast h) b := by
  have hlast := List.dropLast_append_getLast h
  have hconcat := total_concat r readings.dropLast (readings.getLast h) b
  rw [hlast, List.append_cons, hlast] at hconcat
  exact hconcat

/-- **The total of the readings** is the sum of the last readings of the runs, less the
first reading. -/
theorem total_cons (a : G) (rest : List G) :
    total r (a :: rest) = (runEnds r (a :: rest)).sum - a := by
  induction rest generalizing a with
  | nil => simp [total, runEnds_singleton]
  | cons b rest ih =>
      rw [total, ih, growth]
      by_cases h : r a b = true
      · rw [if_pos h, runEnds_of_rel h]
        abel
      · rw [if_neg h, runEnds_of_not_rel (Bool.not_eq_true _ ▸ h), List.sum_cons]
        abel

end

end CounterRuns
