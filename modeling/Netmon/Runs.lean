import Mathlib

/-!
# Runs of a step function

A system is a step function `step : σ → ι → σ`; a run feeds it a list of
inputs.  The induction rules are packaged here once: an invariant of every step
holds after every run, a preorder that every step respects relates the two ends
of a run, and an invariant that only the steps meeting a side condition preserve
holds after every run all of whose steps meet it.
-/

namespace Runs

variable {σ ι : Type} (step : σ → ι → σ)

/-- The state after feeding the inputs from left to right. -/
def run (s : σ) (inputs : List ι) : σ :=
  inputs.foldl step s

@[simp] theorem run_nil (s : σ) : run step s [] = s := rfl

@[simp] theorem run_cons (s : σ) (i : ι) (inputs : List ι) :
    run step s (i :: inputs) = run step (step s i) inputs := rfl

theorem run_append (s : σ) (before after : List ι) :
    run step s (before ++ after) = run step (run step s before) after := by
  simp [run, List.foldl_append]

theorem run_concat (s : σ) (before : List ι) (i : ι) :
    run step s (before ++ [i]) = step (run step s before) i := by
  simp [run_append]

variable {step}

/-- **Invariant rule.**  What holds at the start and is preserved by every
step holds after every run. -/
theorem run_invariant (inv : σ → Prop) (hstep : ∀ s i, inv s → inv (step s i))
    {s : σ} (hs : inv s) (inputs : List ι) : inv (run step s inputs) := by
  induction inputs generalizing s with
  | nil => exact hs
  | cons i inputs ih => exact ih (hstep s i hs)

/-- **Relation rule.**  A reflexive and transitive relation that every step
respects relates the start of a run to its end. -/
theorem run_related (rel : σ → σ → Prop) (hrefl : ∀ s, rel s s)
    (htrans : ∀ {s t u}, rel s t → rel t u → rel s u) (hstep : ∀ s i, rel s (step s i))
    (s : σ) (inputs : List ι) : rel s (run step s inputs) :=
  run_invariant (rel s) (fun t i hst => htrans hst (hstep t i)) (hrefl s) inputs

variable (step)

/-- Every step of the run meets the condition `ok` at the state it starts
from. -/
def Conforms (ok : σ → ι → Prop) : σ → List ι → Prop
  | _, [] => True
  | s, i :: inputs => ok s i ∧ Conforms ok (step s i) inputs

instance decidableConforms (ok : σ → ι → Prop) [∀ s i, Decidable (ok s i)] :
    (s : σ) → (inputs : List ι) → Decidable (Conforms step ok s inputs)
  | _, [] => isTrue trivial
  | s, i :: inputs =>
      have := decidableConforms ok (step s i) inputs
      inferInstanceAs (Decidable (ok s i ∧ Conforms step ok (step s i) inputs))

variable {step}

/-- A conforming run splits at any point into two conforming runs. -/
theorem conforms_append {ok : σ → ι → Prop} {s : σ} {before after : List ι} :
    Conforms step ok s (before ++ after) ↔
      Conforms step ok s before ∧ Conforms step ok (run step s before) after := by
  induction before generalizing s with
  | nil => simp [Conforms]
  | cons i before ih => simp [Conforms, ih, and_assoc]

/-- **Conditional invariant rule.**  An invariant that every conforming step
preserves holds after every conforming run. -/
theorem Conforms.invariant {ok : σ → ι → Prop} (inv : σ → Prop)
    (hstep : ∀ s i, inv s → ok s i → inv (step s i))
    {s : σ} {inputs : List ι} (hrun : Conforms step ok s inputs) (hs : inv s) :
    inv (run step s inputs) := by
  induction inputs generalizing s with
  | nil => exact hs
  | cons i inputs ih => exact ih hrun.2 (hstep s i hs hrun.1)

/-- **Implication rule.**  Under an invariant that conforming steps keep, a conforming run
also conforms to what its condition implies. -/
theorem Conforms.imp_of_invariant {ok ok' : σ → ι → Prop} (inv : σ → Prop)
    (himp : ∀ s i, inv s → ok s i → ok' s i)
    (hstep : ∀ s i, inv s → ok s i → inv (step s i))
    {s : σ} {inputs : List ι} (hrun : Conforms step ok s inputs) (hs : inv s) :
    Conforms step ok' s inputs := by
  induction inputs generalizing s with
  | nil => trivial
  | cons i inputs ih => exact ⟨himp s i hs hrun.1, ih hrun.2 (hstep s i hs hrun.1)⟩

/-- **Exact condition rule.**  Let the conforming steps keep an invariant that
implies the property, and let no other step from a state of the invariant lead to
the property.  Then the property holds after every part of a run exactly when
the run conforms. -/
theorem conforms_iff_of_invariant {ok : σ → ι → Prop} (inv good : σ → Prop)
    (hgood : ∀ s, inv s → good s) (hstep : ∀ s i, inv s → ok s i → inv (step s i))
    (hsharp : ∀ s i, inv s → good (step s i) → ok s i) {s : σ} (hs : inv s)
    (inputs : List ι) :
    (∀ before after, inputs = before ++ after → good (run step s before)) ↔
      Conforms step ok s inputs := by
  induction inputs generalizing s with
  | nil =>
      refine iff_of_true (fun before after hparts => ?_) trivial
      rw [(List.append_eq_nil_iff.mp hparts.symm).1]
      exact hgood s hs
  | cons i inputs ih =>
      constructor
      · intro hparts
        have hok : ok s i := hsharp s i hs (hparts [i] inputs rfl)
        refine ⟨hok, (ih (hstep s i hs hok)).mp fun before after hsplit => ?_⟩
        exact hparts (i :: before) after (by rw [hsplit]; rfl)
      · intro hrun before after hsplit
        cases before with
        | nil => exact hgood s hs
        | cons j before =>
            obtain ⟨rfl, hrest⟩ := List.cons.inj hsplit
            exact (ih (hstep s i hs hrun.1)).mpr hrun.2 before after hrest

/-- The rule for a property that is itself the invariant. -/
theorem conforms_iff_invariant {ok : σ → ι → Prop} (inv : σ → Prop)
    (hstep : ∀ s i, inv s → (inv (step s i) ↔ ok s i)) {s : σ} (hs : inv s)
    (inputs : List ι) :
    (∀ before after, inputs = before ++ after → inv (run step s before)) ↔
      Conforms step ok s inputs :=
  conforms_iff_of_invariant inv inv (fun _ h => h) (fun s i h => (hstep s i h).mpr)
    (fun s i h => (hstep s i h).mp) hs inputs

/-- A run of inputs that meet the condition at every state conforms. -/
theorem conforms_of_forall {ok : σ → ι → Prop} {inputs : List ι}
    (h : ∀ i ∈ inputs, ∀ s, ok s i) (s : σ) : Conforms step ok s inputs := by
  induction inputs generalizing s with
  | nil => trivial
  | cons i inputs ih =>
      exact ⟨h i List.mem_cons_self s, ih (fun j hj => h j (List.mem_cons_of_mem i hj)) _⟩

/-- Every input of a conforming run met the condition at some state. -/
theorem Conforms.exists_ok {ok : σ → ι → Prop} {s : σ} {inputs : List ι}
    (hrun : Conforms step ok s inputs) {i : ι} (hi : i ∈ inputs) : ∃ s', ok s' i := by
  obtain ⟨before, after, rfl⟩ := List.append_of_mem hi
  exact ⟨_, (conforms_append.mp hrun).2.1⟩

end Runs
