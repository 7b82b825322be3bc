import Mathlib

/-!
# Loops that halt

A loop is a partial step: `none` leaves it.  `Halts step s t` says that the loop
started in `s` is left in `t` after finitely many rounds, without a bound on their
number.  The end is unique, a loop with a decreasing measure always has one, and the
loop cut off after enough rounds has reached it.
-/

namespace HaltingLoops

variable {σ : Type} (step : σ → Option σ)

/-- The loop started in the first state is left in the second. -/
inductive Halts : σ → σ → Prop
  | leave {s : σ} : step s = none → Halts s s
  | round {s t u : σ} : step s = some t → Halts t u → Halts s u

/-- The loop, cut off after a number of rounds. -/
def iterate : Nat → σ → σ
  | 0, s => s
  | rounds + 1, s =>
      match step s with
      | none => s
      | some t => iterate rounds t

variable {step}

/-- A loop is left in one state only. -/
theorem Halts.unique {s t t' : σ} (h : Halts step s t) (h' : Halts step s t') : t = t' := by
  induction h with
  | leave hnone =>
      cases h' with
      | leave _ => rfl
      | round hsome _ => exact absurd (hnone.symm.trans hsome) (by simp)
  | round hstep _ ih =>
      cases h' with
      | leave hnone => exact absurd (hnone.symm.trans hstep) (by simp)
      | round hstep' htail =>
          cases Option.some.inj (hstep.symm.trans hstep')
          exact ih htail

/-- **A loop with a decreasing measure halts**, within as many rounds as the measure
counts. -/
theorem halts_iterate (measure : σ → Nat)
    (hmeasure : ∀ {s t}, step s = some t → measure t < measure s) {rounds : Nat} {s : σ}
    (hrounds : measure s < rounds) : Halts step s (iterate step rounds s) := by
  induction rounds generalizing s with
  | zero => omega
  | succ rounds ih =>
      rw [iterate]
      split
      · rename_i hnone
        exact .leave hnone
      · rename_i t hstep
        have hless := hmeasure hstep
        exact .round hstep (ih (by omega))

end HaltingLoops
