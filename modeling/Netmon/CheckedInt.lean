import Mathlib

/-!
# Signed integers of a fixed width

Machine arithmetic next to exact arithmetic.  An operation on signed integers of a width
gives the exact result when the width can hold it and overflows otherwise (`none`); a
conversion to a width wraps around instead.  Each is described by when it is exact.
-/

namespace CheckedInt

/-- A signed integer of the width can hold the number. -/
def Fits (width : Nat) (n : Int) : Prop := -2 ^ (width - 1) ≤ n ∧ n < 2 ^ (width - 1)

instance (width : Nat) (n : Int) : Decidable (Fits width n) :=
  inferInstanceAs (Decidable (_ ∧ _))

/-- The result of an operation, unless it overflows. -/
def check (width : Nat) (n : Int) : Option Int := if Fits width n then some n else none

def mul (width : Nat) (a b : Int) : Option Int := check width (a * b)

def sub (width : Nat) (a b : Int) : Option Int := check width (a - b)

/-- Conversion to the width, which keeps the low bits. -/
def wrap (width : Nat) (n : Int) : Int := n.bmod (2 ^ width)

variable {width : Nat} {a b c n : Int}

theorem check_eq_some : check width n = some c ↔ c = n ∧ Fits width n := by
  unfold check
  split
  · rename_i h
    simp [h, eq_comm]
  · rename_i h
    simp [h]

theorem mul_eq_some : mul width a b = some c ↔ c = a * b ∧ Fits width (a * b) := check_eq_some

theorem sub_eq_some : sub width a b = some c ↔ c = a - b ∧ Fits width (a - b) := check_eq_some

/-- Conversion is exact for what the width can hold, and for nothing else. -/
theorem wrap_eq_self (hwidth : 1 ≤ width) : wrap width n = n ↔ Fits width n := by
  have hpow : 0 < 2 ^ width := Nat.two_pow_pos width
  have hhalves : ((2 ^ width : ℕ) : Int) = 2 * 2 ^ (width - 1) := by
    rw [Nat.cast_pow, Nat.cast_ofNat, ← pow_succ', Nat.sub_add_cancel hwidth]
  constructor
  · intro hself
    have hlow := Int.le_bmod (x := n) hpow
    have hhigh := Int.bmod_lt (x := n) hpow
    unfold wrap at hself
    rw [hself, hhalves] at hlow hhigh
    exact ⟨by omega, by omega⟩
  · rintro ⟨hlow, hhigh⟩
    apply Int.bmod_eq_of_le
    · rw [hhalves]
      omega
    · rw [hhalves]
      omega

end CheckedInt
