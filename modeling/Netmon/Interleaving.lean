import Netmon.Runs

/-!
# Interleaved streams of inputs

Every input has an owner, and a list of inputs interleaves the streams that the
owners feed: the stream of an owner is what is left of the list when the inputs
of all others are taken out.

When a step changes only what its owner sees, and changes it depending only on
what its owner sees, each owner ends up seeing what its stream alone leads to
(`Independent.run_view`).  A level that every step raises by a mark of its owner
ends up the same in every interleaving (`Independent.run_level`).
-/

namespace Interleaving

open Runs

variable {σ ι κ ρ : Type} [DecidableEq κ]

/-- The inputs of one owner, in order. -/
def stream (owner : ι → κ) (k : κ) (inputs : List ι) : List ι :=
  inputs.filter fun i => owner i = k

/-- The list is an interleaving of the streams, one for each owner. -/
def Interleaves (owner : ι → κ) (streams : κ → List ι) (inputs : List ι) : Prop :=
  ∀ k, stream owner k inputs = streams k

theorem Interleaves.mem {owner : ι → κ} {streams : κ → List ι} {inputs : List ι}
    (h : Interleaves owner streams inputs) {i : ι} (hi : i ∈ inputs) :
    i ∈ streams (owner i) := by
  rw [← h (owner i)]
  exact List.mem_filter.mpr ⟨hi, by simp⟩

/-- Steps of different owners do not touch what the other sees, on the states of
an invariant and for the inputs in question. -/
structure Independent (owner : ι → κ) (step : σ → ι → σ) (view : κ → σ → ρ)
    (inv : σ → Prop) (ok : ι → Prop) : Prop where
  inv_step : ∀ s i, inv s → ok i → inv (step s i)
  own : ∀ s t i, inv s → inv t → ok i → view (owner i) s = view (owner i) t →
    view (owner i) (step s i) = view (owner i) (step t i)
  other : ∀ s i k, inv s → ok i → owner i ≠ k → view k (step s i) = view k s

variable {owner : ι → κ} {step : σ → ι → σ} {view : κ → σ → ρ} {inv : σ → Prop}
  {ok : ι → Prop}

omit [DecidableEq κ] in
/-- Independence carries over to a stronger invariant. -/
theorem Independent.strengthen (h : Independent owner step view inv ok) (inv' : σ → Prop)
    (himp : ∀ s, inv' s → inv s) (hstep : ∀ s i, inv' s → ok i → inv' (step s i)) :
    Independent owner step view inv' ok where
  inv_step := hstep
  own := fun s t i hs ht => h.own s t i (himp s hs) (himp t ht)
  other := fun s i k hs => h.other s i k (himp s hs)

omit [DecidableEq κ] in
theorem Independent.run_inv (h : Independent owner step view inv ok) {s : σ} (hs : inv s)
    {inputs : List ι} (hok : ∀ i ∈ inputs, ok i) : inv (run step s inputs) := by
  induction inputs generalizing s with
  | nil => exact hs
  | cons i inputs ih =>
      exact ih (h.inv_step s i hs (hok i List.mem_cons_self))
        fun j hj => hok j (List.mem_cons_of_mem i hj)

/-- **Owners see their own stream only.**  From two states that look the same to
an owner, a run of all inputs and a run of its stream alone end in states that
look the same to it. -/
theorem Independent.run_view (h : Independent owner step view inv ok) {s t : σ} (hs : inv s)
    (ht : inv t) {k : κ} (hview : view k s = view k t) {inputs : List ι}
    (hok : ∀ i ∈ inputs, ok i) :
    view k (run step s inputs) = view k (run step t (stream owner k inputs)) := by
  induction inputs generalizing s t with
  | nil => exact hview
  | cons i inputs ih =>
      have hi := hok i List.mem_cons_self
      have hrest : ∀ j ∈ inputs, ok j := fun j hj => hok j (List.mem_cons_of_mem i hj)
      by_cases hk : owner i = k
      · subst hk
        rw [stream, List.filter_cons_of_pos (by simp), run_cons, run_cons]
        exact ih (h.inv_step s i hs hi) (h.inv_step t i ht hi)
          (h.own s t i hs ht hi hview) hrest
      · rw [stream, List.filter_cons_of_neg (by simpa using hk), run_cons]
        exact ih (h.inv_step s i hs hi) ht ((h.other s i k hs hi hk).trans hview) hrest

/-! ## Levels that steps raise -/

section

variable {β : Type} (mark : σ → ι → β)

/-- The marks of the steps of a run. -/
def marks (step : σ → ι → σ) : σ → List ι → List β
  | _, [] => []
  | s, i :: inputs => mark s i :: marks step (step s i) inputs

variable {mark}

omit [DecidableEq κ] in
/-- The marks of a stream depend on what its owner sees only. -/
theorem Independent.marks_stream (h : Independent owner step view inv ok)
    (hmark : ∀ s t i, inv s → inv t → ok i → view (owner i) s = view (owner i) t →
      mark s i = mark t i)
    {s t : σ} (hs : inv s) (ht : inv t) {k : κ} (hview : view k s = view k t)
    {inputs : List ι} (hok : ∀ i ∈ inputs, ok i) (howner : ∀ i ∈ inputs, owner i = k) :
    marks mark step s inputs = marks mark step t inputs := by
  induction inputs generalizing s t with
  | nil => rfl
  | cons i inputs ih =>
      have hi := hok i List.mem_cons_self
      obtain rfl := howner i List.mem_cons_self
      rw [marks, marks, hmark s t i hs ht hi hview]
      rw [ih (h.inv_step s i hs hi) (h.inv_step t i ht hi) (h.own s t i hs ht hi hview)
        (fun j hj => hok j (List.mem_cons_of_mem i hj))
        fun j hj => howner j (List.mem_cons_of_mem i hj)]

/-- The marks of a run are those of its streams. -/
theorem Independent.mem_marks (h : Independent owner step view inv ok)
    (hmark : ∀ s t i, inv s → inv t → ok i → view (owner i) s = view (owner i) t →
      mark s i = mark t i)
    {s : σ} (hs : inv s) {inputs : List ι} (hok : ∀ i ∈ inputs, ok i) (b : β) :
    b ∈ marks mark step s inputs ↔ ∃ k, b ∈ marks mark step s (stream owner k inputs) := by
  induction inputs generalizing s with
  | nil => simp [marks, stream]
  | cons i inputs ih =>
      have hi := hok i List.mem_cons_self
      have hrest : ∀ j ∈ inputs, ok j := fun j hj => hok j (List.mem_cons_of_mem i hj)
      have hnext := h.inv_step s i hs hi
      have hothers : ∀ k, owner i ≠ k →
          marks mark step (step s i) (stream owner k inputs) =
            marks mark step s (stream owner k (i :: inputs)) := by
        intro k hk
        rw [stream, stream, List.filter_cons_of_neg (by simpa using hk)]
        refine h.marks_stream hmark hnext hs (h.other s i k hs hi hk) ?_ ?_
        · intro j hj
          exact hrest j (List.mem_filter.mp hj).1
        · intro j hj
          simpa using (List.mem_filter.mp hj).2
      have hown : marks mark step s (stream owner (owner i) (i :: inputs)) =
          mark s i :: marks mark step (step s i) (stream owner (owner i) inputs) := by
        rw [stream, List.filter_cons_of_pos (by simp)]
        rfl
      rw [marks, List.mem_cons, ih hnext hrest]
      constructor
      · rintro (hb | ⟨k, hb⟩)
        · exact ⟨owner i, by rw [hown]; exact List.mem_cons.mpr (Or.inl hb)⟩
        · by_cases hk : owner i = k
          · subst hk
            exact ⟨owner i, by rw [hown]; exact List.mem_cons_of_mem _ hb⟩
          · exact ⟨k, hothers k hk ▸ hb⟩
      · rintro ⟨k, hb⟩
        by_cases hk : owner i = k
        · subst hk
          rw [hown, List.mem_cons] at hb
          exact hb.imp_right fun hb => ⟨owner i, hb⟩
        · exact Or.inr ⟨k, (hothers k hk).symm ▸ hb⟩

variable [SemilatticeSup β] {level : σ → β}

omit [DecidableEq κ] in
/-- The level after a run is the least one above the first level and all marks. -/
theorem Independent.run_level_le (h : Independent owner step view inv ok)
    (hraise : ∀ s i, inv s → ok i → level (step s i) = level s ⊔ mark s i)
    {s : σ} (hs : inv s) {inputs : List ι} (hok : ∀ i ∈ inputs, ok i) (b : β) :
    level (run step s inputs) ≤ b ↔
      level s ≤ b ∧ ∀ x ∈ marks mark step s inputs, x ≤ b := by
  induction inputs generalizing s with
  | nil => simp [marks]
  | cons i inputs ih =>
      have hi := hok i List.mem_cons_self
      rw [run_cons, ih (h.inv_step s i hs hi) fun j hj => hok j (List.mem_cons_of_mem i hj),
        hraise s i hs hi, sup_le_iff, marks, List.forall_mem_cons, and_assoc]

variable (mark level)

/-- **Levels do not depend on the interleaving.** -/
theorem Independent.run_level (h : Independent owner step view inv ok)
    (hmark : ∀ s t i, inv s → inv t → ok i → view (owner i) s = view (owner i) t →
      mark s i = mark t i)
    (hraise : ∀ s i, inv s → ok i → level (step s i) = level s ⊔ mark s i)
    {s : σ} (hs : inv s) {streams : κ → List ι} {inputs inputs' : List ι}
    (hok : ∀ i ∈ inputs, ok i) (hok' : ∀ i ∈ inputs', ok i)
    (hinputs : Interleaves owner streams inputs)
    (hinputs' : Interleaves owner streams inputs') :
    level (run step s inputs) = level (run step s inputs') := by
  have hmarks : ∀ b, b ∈ marks mark step s inputs ↔ b ∈ marks mark step s inputs' := by
    intro b
    rw [h.mem_marks hmark hs hok, h.mem_marks hmark hs hok']
    simp only [hinputs _, hinputs' _]
  apply eq_of_forall_ge_iff
  intro b
  rw [h.run_level_le hraise hs hok, h.run_level_le hraise hs hok']
  simp only [hmarks]

end

end Interleaving
