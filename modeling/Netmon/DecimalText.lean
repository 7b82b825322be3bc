import Mathlib

/-!
# Numbers in decimal notation

Numerals as JSON and most formats write them: a sign, digits, a fraction after a point and
an exponent, each but the digits left out when there is none.  `readNumeral` reads the
longest numeral at the front of a text.  Its rule is `readNumeral_text`: a numeral that is
well formed is read back, whatever follows it that cannot go on with it.
-/

namespace DecimalText

/-- An ASCII digit. -/
def isDigit (b : UInt8) : Bool := 48 ≤ b && b ≤ 57

/-! ## Digits -/

/-- The number that some digits write, the most significant first. -/
def value (digits : List UInt8) : Nat :=
  digits.foldl (fun acc b => acc * 10 + (b.toNat - 48)) 0

/-- Digits in front count by their place. -/
theorem value_append (digits more : List UInt8) :
    value (digits ++ more) = value digits * 10 ^ more.length + value more := by
  have hfold : ∀ (more : List UInt8) (acc : Nat),
      more.foldl (fun acc b => acc * 10 + (b.toNat - 48)) acc =
        acc * 10 ^ more.length + value more := by
    intro more
    induction more with
    | nil => intro acc; simp [value]
    | cons b more ih =>
        intro acc
        have hfirst : value (b :: more) =
            (0 * 10 + (b.toNat - 48)) * 10 ^ more.length + value more := ih _
        rw [List.foldl_cons, ih, hfirst, List.length_cons, pow_succ]
        ring
  rw [value, List.foldl_append]
  exact hfold more (value digits)

@[simp] theorem value_nil : value [] = 0 := rfl

/-- Zeros are worth nothing. -/
theorem value_zeros (n : Nat) : value (List.replicate n 48) = 0 := by
  induction n with
  | zero => rfl
  | succ n ih =>
      rw [List.replicate_succ, ← List.singleton_append, value_append, ih]
      simp [value]

/-- Zeros in front change nothing. -/
theorem value_zeros_append (n : Nat) (digits : List UInt8) :
    value (List.replicate n 48 ++ digits) = value digits := by
  rw [value_append, value_zeros, Nat.zero_mul, Nat.zero_add]

/-- The value is below the power of ten of the length. -/
theorem value_lt {digits : List UInt8} (h : ∀ b ∈ digits, isDigit b = true) :
    value digits < 10 ^ digits.length := by
  induction digits with
  | nil => simp
  | cons b digits ih =>
      have hlater := ih fun c hc => h c (List.mem_cons_of_mem _ hc)
      have hb := h b List.mem_cons_self
      rw [isDigit, Bool.and_eq_true, decide_eq_true_iff, decide_eq_true_iff,
        UInt8.le_iff_toNat_le, UInt8.le_iff_toNat_le] at hb
      have hfirst : value [b] ≤ 9 := by
        have hhigh : b.toNat ≤ 57 := hb.2
        simp only [value, List.foldl_cons, List.foldl_nil]
        omega
      rw [← List.singleton_append, value_append, List.length_append, List.length_singleton,
        pow_add, pow_one]
      nlinarith

/-- The number with some digits before the point and some after it. -/
def pointed (whole fraction : List UInt8) : ℚ :=
  value (whole ++ fraction) / 10 ^ fraction.length

/-- Without a fraction the value is that of the whole part. -/
theorem pointed_nil (whole : List UInt8) : pointed whole [] = value whole := by
  simp [pointed]

/-- Zeros at the end of the fraction change nothing. -/
theorem pointed_append_zeros (whole fraction : List UInt8) (n : Nat) :
    pointed whole (fraction ++ List.replicate n 48) = pointed whole fraction := by
  rw [pointed, pointed, ← List.append_assoc, value_append, value_zeros, List.length_append,
    List.length_replicate, pow_add]
  push_cast
  rw [add_zero, mul_div_mul_right _ _ (by positivity)]

/-- The digits in front are the longest such part. -/
theorem takeWhile_digits {digits more : List UInt8} (hdigits : ∀ b ∈ digits, isDigit b = true)
    (hmore : ∀ b ∈ more.head?, isDigit b = false) :
    (digits ++ more).takeWhile isDigit = digits := by
  rw [List.takeWhile_append_of_pos hdigits]
  cases more with
  | nil => simp
  | cons b more => simp [hmore b rfl]

/-- What follows the digits is what is left. -/
theorem dropWhile_digits {digits more : List UInt8} (hdigits : ∀ b ∈ digits, isDigit b = true)
    (hmore : ∀ b ∈ more.head?, isDigit b = false) :
    (digits ++ more).dropWhile isDigit = more := by
  rw [List.dropWhile_append_of_pos hdigits]
  cases more with
  | nil => simp
  | cons b more => simp [hmore b rfl]

/-! ## Numerals -/

/-- A numeral in its parts; without digits after it there is no point, and the exponent
has a sign. -/
structure Numeral where
  negative : Bool := false
  whole : List UInt8
  fraction : List UInt8 := []
  exponent : Option (Bool × List UInt8) := none

namespace Numeral

/-- The sign, then `e` and the digits. -/
def exponentText : Option (Bool × List UInt8) → List UInt8
  | none => []
  | some (negative, digits) => 101 :: (if negative then 45 else 43) :: digits

/-- The exponent with its sign; none is zero. -/
def exponentValue : Option (Bool × List UInt8) → Int
  | none => 0
  | some (negative, digits) =>
      if negative then -(DecimalText.value digits) else DecimalText.value digits

/-- A sign, the whole part, perhaps a fraction and perhaps an exponent. -/
def text (n : Numeral) : List UInt8 :=
  (if n.negative then [45] else []) ++ n.whole ++
    (if n.fraction = [] then [] else 46 :: n.fraction) ++ exponentText n.exponent

/-- The number that a numeral stands for. -/
def value (n : Numeral) : ℚ :=
  (if n.negative then -1 else 1) * pointed n.whole n.fraction * 10 ^ exponentValue n.exponent

/-- There are digits where there have to be some, and the first is a zero only if it is
alone. -/
structure WellFormed (n : Numeral) : Prop where
  whole_ne_nil : n.whole ≠ []
  no_leading_zero : n.whole.head? = some 48 → n.whole.length = 1
  whole : ∀ b ∈ n.whole, isDigit b = true
  fraction : ∀ b ∈ n.fraction, isDigit b = true
  exponent : ∀ e ∈ n.exponent, e.2 ≠ [] ∧ ∀ b ∈ e.2, isDigit b = true

end Numeral

/-! ## Reading -/

/-- Digits after a point, if there is one. -/
def readFraction (text : List UInt8) : Option (List UInt8 × List UInt8) :=
  if text.head? = some 46 then
    let rest := text.drop 1
    if rest.takeWhile isDigit = [] then none
    else some (rest.takeWhile isDigit, rest.dropWhile isDigit)
  else some ([], text)

/-- An exponent, if there is one. -/
def readExponent (text : List UInt8) : Option (Option (Bool × List UInt8) × List UInt8) :=
  if text.head? = some 101 ∨ text.head? = some 69 then
    let signed := text.drop 1
    let rest := if signed.head? = some 45 ∨ signed.head? = some 43 then signed.drop 1 else signed
    if rest.takeWhile isDigit = [] then none
    else some (some (signed.head? = some 45, rest.takeWhile isDigit), rest.dropWhile isDigit)
  else some (none, text)

/-- The longest numeral at the front of a text, and what follows it. -/
def readNumeral (text : List UInt8) : Option (Numeral × List UInt8) :=
  let rest := if text.head? = some 45 then text.drop 1 else text
  let whole := rest.takeWhile isDigit
  if whole = [] ∨ (whole.head? = some 48 ∧ whole.length ≠ 1) then none
  else
    (readFraction (rest.dropWhile isDigit)).bind fun fraction =>
      (readExponent fraction.2).map fun exponent =>
        ({ negative := text.head? = some 45, whole := whole, fraction := fraction.1,
           exponent := exponent.1 }, exponent.2)

/-- Nothing that can go on with a numeral. -/
def Stops (more : List UInt8) : Prop :=
  ∀ b ∈ more.head?, isDigit b = false ∧ b ≠ 46 ∧ b ≠ 101 ∧ b ≠ 69

theorem Stops.not_digit {more : List UInt8} (h : Stops more) :
    ∀ b ∈ more.head?, isDigit b = false := fun b hb => (h b hb).1

/-- An exponent is read back. -/
theorem readExponent_text {exponent : Option (Bool × List UInt8)}
    (h : ∀ e ∈ exponent, e.2 ≠ [] ∧ ∀ b ∈ e.2, isDigit b = true) {more : List UInt8}
    (hmore : Stops more) :
    readExponent (Numeral.exponentText exponent ++ more) = some (exponent, more) := by
  cases exponent with
  | none =>
      have hhead : ¬ (more.head? = some 101 ∨ more.head? = some 69) := by
        intro hor
        rcases hor with he | he
        · exact (hmore _ he).2.2.1 rfl
        · exact (hmore _ he).2.2.2 rfl
      exact if_neg hhead
  | some e =>
      obtain ⟨negative, digits⟩ := e
      obtain ⟨hne, hdigits⟩ := h _ rfl
      cases negative <;>
        simp [readExponent, Numeral.exponentText, takeWhile_digits hdigits hmore.not_digit,
          dropWhile_digits hdigits hmore.not_digit, hne]

/-- An exponent does not go on with a digit or a point. -/
theorem exponentText_stops (exponent : Option (Bool × List UInt8)) {more : List UInt8}
    (hmore : Stops more) :
    ∀ b ∈ (Numeral.exponentText exponent ++ more).head?, isDigit b = false ∧ b ≠ 46 := by
  cases exponent with
  | none => exact fun b hb => ⟨(hmore b hb).1, (hmore b hb).2.1⟩
  | some e =>
      intro b hb
      obtain rfl : b = 101 := by simpa [Numeral.exponentText] using hb.symm
      decide

/-- A fraction is read back. -/
theorem readFraction_text {fraction : List UInt8} (h : ∀ b ∈ fraction, isDigit b = true)
    {more : List UInt8} (hmore : ∀ b ∈ more.head?, isDigit b = false ∧ b ≠ 46) :
    readFraction ((if fraction = [] then [] else 46 :: fraction) ++ more) =
      some (fraction, more) := by
  by_cases hfraction : fraction = []
  · subst hfraction
    have hhead : more.head? ≠ some 46 := fun hb => (hmore _ hb).2 rfl
    exact if_neg hhead
  · have hstops : ∀ b ∈ more.head?, isDigit b = false := fun b hb => (hmore b hb).1
    simp [readFraction, hfraction, takeWhile_digits h hstops, dropWhile_digits h hstops]

/-- **A numeral is read back**, whatever follows it that cannot go on with it. -/
theorem readNumeral_text {n : Numeral} (h : n.WellFormed) {more : List UInt8}
    (hmore : Stops more) : readNumeral (n.text ++ more) = some (n, more) := by
  have hexponent := exponentText_stops n.exponent hmore
  generalize htail : Numeral.exponentText n.exponent ++ more = tail at hexponent
  have hpoint : ∀ b ∈ ((if n.fraction = [] then [] else 46 :: n.fraction) ++ tail).head?,
      isDigit b = false := by
    intro b hb
    split at hb
    · exact (hexponent b hb).1
    · obtain rfl : b = 46 := by simpa using hb.symm
      decide
  obtain ⟨first, others, hwhole⟩ := List.exists_cons_of_ne_nil h.whole_ne_nil
  have hfirst : first ≠ 45 := by
    intro heq
    have := h.whole first (hwhole ▸ List.mem_cons_self)
    rw [heq] at this
    exact absurd this (by decide)
  have htext : n.text ++ more = (if n.negative then [45] else []) ++
      (n.whole ++ ((if n.fraction = [] then [] else 46 :: n.fraction) ++ tail)) := by
    simp only [Numeral.text, List.append_assoc, htail]
  have hsign : ((n.text ++ more).head? = some 45) = (n.negative = true) := by
    rw [htext, hwhole]
    cases n.negative <;> simp [hfirst]
  have hrest : (if (n.text ++ more).head? = some 45 then (n.text ++ more).drop 1
      else n.text ++ more) =
        n.whole ++ ((if n.fraction = [] then [] else 46 :: n.fraction) ++ tail) := by
    rw [htext, hwhole]
    cases n.negative <;> simp [hfirst]
  have hzero : ¬ (n.whole = [] ∨ (n.whole.head? = some 48 ∧ n.whole.length ≠ 1)) := by
    intro hor
    rcases hor with hnil | ⟨hhead, hlength⟩
    · exact h.whole_ne_nil hnil
    · exact hlength (h.no_leading_zero hhead)
  unfold readNumeral
  simp only [hrest, takeWhile_digits h.whole hpoint, dropWhile_digits h.whole hpoint,
    if_neg hzero, readFraction_text h.fraction hexponent, Option.bind_some]
  rw [← htail, readExponent_text h.exponent hmore]
  simp only [Option.map_some, hsign, Bool.decide_eq_true]

end DecimalText
