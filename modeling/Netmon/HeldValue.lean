import Netmon.Runs

/-!
# A value held between confirmations

A cell holds a value and the time of its last confirmation.  Each tick asks
whether the confirmation is still fresh.  If it is, the value stays and, being
live, is confirmed again at the tick; if not, the value is cleared.

A live value therefore survives a series of ticks exactly when every tick is
fresh with respect to the one before it (`live_run_iff`).  How long the series
lasts as a whole does not matter.
-/

/-- A value and the time of its last confirmation. -/
structure HeldValue (T V : Type) where
  value : V
  stamp : T

namespace HeldValue

variable {T V : Type} (fresh : T → T → Prop) [∀ u v, Decidable (fresh u v)]
variable (live : V → Prop) [DecidablePred live] (cleared : V)

/-- One tick at time `t`. -/
def tick (cell : HeldValue T V) (t : T) : HeldValue T V :=
  if fresh cell.stamp t then
    if live cell.value then { cell with stamp := t } else cell
  else { cell with value := cleared }

/-- Ticks keep the value or clear it. -/
theorem run_value (cell : HeldValue T V) (times : List T) :
    (Runs.run (tick fresh live cleared) cell times).value = cell.value ∨
      (Runs.run (tick fresh live cleared) cell times).value = cleared := by
  induction times generalizing cell with
  | nil => exact Or.inl rfl
  | cons t times ih =>
      have hvalue : (tick fresh live cleared cell t).value = cell.value ∨
          (tick fresh live cleared cell t).value = cleared := by
        unfold tick
        split
        · split
          · exact Or.inl rfl
          · exact Or.inl rfl
        · exact Or.inr rfl
      rcases ih (tick fresh live cleared cell t) with h | h
      · exact hvalue.imp h.trans h.trans
      · exact Or.inr h

variable {fresh live cleared}

/-- A cleared value stays cleared. -/
theorem run_cleared {cell : HeldValue T V} (h : cell.value = cleared) (times : List T) :
    (Runs.run (tick fresh live cleared) cell times).value = cleared := by
  rcases run_value fresh live cleared cell times with hrun | hrun
  · exact hrun.trans h
  · exact hrun

/-- **Survival.**  A live value survives the ticks exactly when each of them is
fresh with respect to the time before it. -/
theorem live_run_iff (hcleared : ¬ live cleared) {cell : HeldValue T V} (hlive : live cell.value)
    (times : List T) :
    live (Runs.run (tick fresh live cleared) cell times).value ↔
      List.IsChain fresh (cell.stamp :: times) := by
  induction times generalizing cell with
  | nil => simpa using hlive
  | cons t times ih =>
      rw [Runs.run_cons, List.isChain_cons_cons]
      by_cases hfresh : fresh cell.stamp t
      · have htick : tick fresh live cleared cell t = { cell with stamp := t } := by
          simp [tick, hfresh, hlive]
        have hstep : live (tick fresh live cleared cell t).value := by
          rw [htick]
          exact hlive
        rw [ih hstep, htick]
        exact (and_iff_right hfresh).symm
      · have htick : (tick fresh live cleared cell t).value = cleared := by
          simp [tick, hfresh]
        rw [run_cleared htick]
        exact iff_of_false hcleared fun h => hfresh h.1

end HeldValue
