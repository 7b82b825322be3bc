import Netmon.DecimalText
import Netmon.TextFormat

/-!
# The numbers in the reports are read back

A counter is read back as it is.  A rate is printed with six significant digits, in one of
three layouts that depend on its size, without trailing zeros: what is read back is the
rate rounded to these digits, so it is off by at most five millionths of it.
-/

namespace Netmon

open DecimalText (Numeral)

/-! ## Rounding -/

/-- Rounding moves a number by a half at most. -/
theorem roundHalfEven_error {q : ℚ} (h : 0 ≤ q) : |(roundHalfEven q : ℚ) - q| ≤ 1 / 2 := by
  have hfloor : ((q.floor.toNat : ℕ) : ℚ) = (q.floor : ℚ) := by
    have hnonneg : 0 ≤ q.floor := Int.floor_nonneg.mpr h
    exact_mod_cast Int.toNat_of_nonneg hnonneg
  have hlow : (q.floor : ℚ) ≤ q := Int.floor_le q
  have hhigh : q < (q.floor : ℚ) + 1 := Int.lt_floor_add_one q
  rw [abs_le]
  unfold roundHalfEven
  simp only [hfloor]
  split_ifs with hdown hup heven
  · rw [hfloor]
    constructor <;> linarith
  · push_cast
    rw [hfloor]
    constructor <;> linarith
  · rw [hfloor]
    constructor <;> linarith
  · push_cast
    rw [hfloor]
    constructor <;> linarith

/-- A number from one on lies between powers of ten as its whole part does. -/
theorem pow_log_floor {q : ℚ} (h : 1 ≤ q) :
    (10 : ℚ) ^ Nat.log 10 q.floor.toNat ≤ q ∧ q < (10 : ℚ) ^ (Nat.log 10 q.floor.toNat + 1) := by
  have hpos : 1 ≤ q.floor := Int.le_floor.mpr (by exact_mod_cast h)
  have hfloor : (q.floor.toNat : ℤ) = q.floor := Int.toNat_of_nonneg (by omega)
  have hlow := Nat.pow_log_le_self 10 (x := q.floor.toNat) (by omega)
  have hhigh := Nat.lt_pow_succ_log_self (b := 10) (by omega) q.floor.toNat
  constructor
  · calc (10 : ℚ) ^ Nat.log 10 q.floor.toNat ≤ (q.floor.toNat : ℚ) := by exact_mod_cast hlow
      _ = (q.floor : ℚ) := by exact_mod_cast hfloor
      _ ≤ q := Int.floor_le q
  · have hnext : q.floor + 1 ≤ ((10 ^ (Nat.log 10 q.floor.toNat + 1) : ℕ) : ℤ) := by
      rw [← hfloor]
      exact_mod_cast hhigh
    calc q < (q.floor : ℚ) + 1 := Int.lt_floor_add_one q
      _ ≤ ((10 ^ (Nat.log 10 q.floor.toNat + 1) : ℕ) : ℚ) := by exact_mod_cast hnext
      _ = (10 : ℚ) ^ (Nat.log 10 q.floor.toNat + 1) := by push_cast; rfl

/-- A number below one lies between powers of a tenth as its reciprocal does. -/
theorem pow_clog_ceil {q : ℚ} (hpos : 0 < q) (h : q < 1) :
    ∃ k : ℕ, Nat.clog 10 (1 / q).ceil.toNat = k + 1 ∧ 1 ≤ q * 10 ^ (k + 1) ∧ q * 10 ^ k < 1 := by
  have hinv : 1 < 1 / q := by
    rw [lt_div_iff₀ hpos]
    linarith
  have hceil : (1 : ℤ) < (1 / q).ceil := Rat.lt_ceil_iff.mpr (by exact_mod_cast hinv)
  have hcast : ((1 / q).ceil.toNat : ℤ) = (1 / q).ceil := Int.toNat_of_nonneg (by omega)
  generalize (1 / q).ceil.toNat = n at hcast ⊢
  have hhigh := Nat.le_pow_clog (b := 10) (by omega) n
  have hlow := Nat.pow_pred_clog_lt_self (b := 10) (by omega) (x := n) (by omega)
  obtain ⟨k, hk⟩ : ∃ k, Nat.clog 10 n = k + 1 :=
    Nat.exists_eq_succ_of_ne_zero (Nat.clog_pos (by omega) (by omega)).ne'
  rw [hk] at hhigh hlow
  refine ⟨k, hk, ?_, ?_⟩
  · have hle : 1 / q ≤ (10 : ℚ) ^ (k + 1) := by
      calc 1 / q ≤ ((1 / q).ceil : ℚ) := Rat.le_ceil
        _ = ((n : ℕ) : ℚ) := by exact_mod_cast hcast.symm
        _ ≤ (10 : ℚ) ^ (k + 1) := by exact_mod_cast hhigh
    rw [div_le_iff₀ hpos] at hle
    linarith
  · have hlt : ((10 ^ k : ℕ) : ℤ) < (1 / q).ceil := by
      rw [← hcast]
      exact_mod_cast hlow
    have hbelow : ((10 : ℚ) ^ k) < 1 / q := by
      have := Rat.lt_ceil_iff.mp hlt
      exact_mod_cast this
    rw [lt_div_iff₀ hpos] at hbelow
    linarith

/-- The exponent is that of the first digit. -/
theorem decimalExponent_bounds {q : ℚ} (h : 0 < q) :
    (10 : ℚ) ^ decimalExponent q ≤ q ∧ q < (10 : ℚ) ^ (decimalExponent q + 1) := by
  unfold decimalExponent
  split_ifs with hone
  · obtain ⟨hlow, hhigh⟩ := pow_log_floor hone
    rw [zpow_natCast, ← Nat.cast_succ, zpow_natCast]
    exact ⟨hlow, hhigh⟩
  · obtain ⟨k, hk, hlow, hhigh⟩ := pow_clog_ceil h (not_le.mp hone)
    rw [hk]
    constructor
    · rw [zpow_neg, zpow_natCast, inv_le_iff_one_le_mul₀ (by positivity)]
      exact hlow
    · rw [show -((k + 1 : ℕ) : ℤ) + 1 = -(k : ℤ) by push_cast; ring, zpow_neg, zpow_natCast,
        ← one_div, lt_div_iff₀ (by positivity)]
      exact hhigh

/-- The number that six digits and the exponent of the first one stand for. -/
def sixDigits (digits : Nat) (e : Int) : ℚ := digits * 10 ^ (e - 5)

/-- The digits before rounding up is taken care of. -/
theorem rounded_digits {q : ℚ} (h : 0 < q) :
    let e := decimalExponent q
    let digits := roundHalfEven (q * (10 : ℚ) ^ (5 - e))
    100000 ≤ digits ∧ digits ≤ 1000000 ∧ |sixDigits digits e - q| ≤ q / 200000 := by
  intro e digits
  obtain ⟨hlow, hhigh⟩ := decimalExponent_bounds h
  have hscale : (0 : ℚ) < 10 ^ (5 - e) := by positivity
  have hback : (10 : ℚ) ^ (5 - e) * 10 ^ (e - 5) = 1 := by
    rw [← zpow_add₀ (by norm_num)]
    norm_num
  have hfive : (10 : ℚ) ^ e * 10 ^ (5 - e) = 100000 := by
    rw [← zpow_add₀ (by norm_num), show e + (5 - e) = 5 by ring]
    norm_num
  have hsix : (10 : ℚ) ^ (e + 1) * 10 ^ (5 - e) = 1000000 := by
    rw [← zpow_add₀ (by norm_num), show e + 1 + (5 - e) = 6 by ring]
    norm_num
  have hm₁ : 100000 ≤ q * (10 : ℚ) ^ (5 - e) := by
    rw [← hfive]
    exact mul_le_mul_of_nonneg_right hlow hscale.le
  have hm₂ : q * (10 : ℚ) ^ (5 - e) < 1000000 := by
    rw [← hsix]
    exact mul_lt_mul_of_pos_right hhigh hscale
  have hround := roundHalfEven_error (q := q * (10 : ℚ) ^ (5 - e)) (by positivity)
  rw [abs_le] at hround
  refine ⟨?_, ?_, ?_⟩
  · have : (100000 : ℚ) - 1 < digits := by linarith [hround.1]
    have : (99999 : ℚ) < digits := by linarith
    exact_mod_cast this
  · have : (digits : ℚ) < 1000001 := by linarith [hround.2]
    have : digits < 1000001 := by exact_mod_cast this
    omega
  · have hunit : (10 : ℚ) ^ (e - 5) ≤ q / 100000 := by
      rw [le_div_iff₀ (by norm_num)]
      calc (10 : ℚ) ^ (e - 5) * 100000 = 10 ^ e * (10 ^ (5 - e) * 10 ^ (e - 5)) := by
            rw [← hfive]; ring
        _ = 10 ^ e := by rw [hback, mul_one]
        _ ≤ q := hlow
    have hsplit : sixDigits digits e - q =
        (digits - q * (10 : ℚ) ^ (5 - e)) * 10 ^ (e - 5) := by
      rw [sixDigits, sub_mul, mul_assoc q, hback, mul_one]
    rw [hsplit, abs_mul, abs_of_pos (show (0 : ℚ) < 10 ^ (e - 5) by positivity)]
    calc |(digits : ℚ) - q * (10 : ℚ) ^ (5 - e)| * 10 ^ (e - 5)
        ≤ 1 / 2 * (q / 100000) :=
          mul_le_mul (abs_le.mpr hround) hunit (by positivity) (by norm_num)
      _ = q / 200000 := by ring

/-- **Six digits and the exponent of the first one**, within half a unit of the last. -/
theorem significant_spec {q : ℚ} (h : 0 < q) :
    100000 ≤ (significant q).1 ∧ (significant q).1 < 1000000 ∧
      |sixDigits (significant q).1 (significant q).2 - q| ≤ q / 200000 := by
  obtain ⟨hlow, hhigh, herror⟩ := rounded_digits h
  unfold significant
  simp only
  split_ifs with hcarry
  · refine ⟨by norm_num, by norm_num, ?_⟩
    rw [hcarry] at herror
    have hsame : sixDigits 100000 (decimalExponent q + 1) =
        sixDigits 1000000 (decimalExponent q) := by
      rw [sixDigits, sixDigits, show decimalExponent q + 1 - 5 = decimalExponent q - 5 + 1 by ring,
        zpow_add_one₀ (by norm_num)]
      push_cast
      ring
    rw [hsame]
    exact herror
  · exact ⟨hlow, by omega, herror⟩

/-! ## Whole numbers -/

/-- A numeral consists of digits. -/
theorem digits_decimal (n : Nat) : ∀ b ∈ decimal n, DecimalText.isDigit b = true :=
  fun _ hb => isDigit_of_mem_decimal hb

/-- A numeral is worth its number. -/
theorem value_decimal (n : Nat) : DecimalText.value (decimal n) = n := digitsValue_decimal n

/-- A number has at most so many digits if it is below that power of ten. -/
theorem length_decimal_le_iff {n k : Nat} (hk : 0 < k) : (decimal n).length ≤ k ↔ n < 10 ^ k := by
  rw [decimal, List.length_map]
  exact Nat.length_toDigits_le_iff (by omega) hk

/-- A number has no zero in front. -/
theorem decimal_no_leading_zero {n : Nat} (h : (decimal n).head? = some 48) :
    (decimal n).length = 1 := by
  obtain ⟨rest, hrest⟩ : ∃ rest, decimal n = 48 :: rest := by
    cases hdecimal : decimal n with
    | nil => exact absurd hdecimal (decimal_ne_nil n)
    | cons b rest =>
        rw [hdecimal] at h
        exact ⟨rest, by rw [Option.some.inj h]⟩
  have hvalue : DecimalText.value rest = n := by
    have hzero := DecimalText.value_zeros_append 1 rest
    rw [← value_decimal n, hrest, ← hzero]
    rfl
  have hlt : n < 10 ^ rest.length := by
    rw [← hvalue]
    refine DecimalText.value_lt fun b hb => digits_decimal n b ?_
    rw [hrest]
    exact List.mem_cons_of_mem _ hb
  cases rest with
  | nil => rw [hrest]; rfl
  | cons c rest =>
      have hle := (length_decimal_le_iff (Nat.succ_pos _)).mpr hlt
      rw [hrest, List.length_cons, List.length_cons] at hle
      omega

/-- Between two powers of ten the number of digits is known. -/
theorem length_decimal {n k : Nat} (hlow : 10 ^ k ≤ n) (hhigh : n < 10 ^ (k + 1)) :
    (decimal n).length = k + 1 := by
  have hle := (length_decimal_le_iff (Nat.succ_pos k)).mpr hhigh
  cases k with
  | zero =>
      have := List.length_pos_iff.mpr (decimal_ne_nil n)
      omega
  | succ k =>
      have hnot := mt (length_decimal_le_iff (n := n) (Nat.succ_pos k)).mp (by omega)
      omega

/-- A number as a numeral. -/
def intNumeral (n : Int) : Numeral where
  negative := n < 0
  whole := decimal n.natAbs

/-- The numeral of an integer is well formed. -/
theorem wellFormed_intNumeral (n : Int) : (intNumeral n).WellFormed where
  whole_ne_nil := decimal_ne_nil _
  no_leading_zero := decimal_no_leading_zero
  whole := digits_decimal _
  fraction := by simp [intNumeral]
  exponent := by simp [intNumeral]

/-- The numeral of an integer is what the program writes. -/
theorem text_intNumeral (n : Int) : (intNumeral n).text = decimalInt n := by
  unfold Numeral.text intNumeral decimalInt
  by_cases h : n < 0
  · simp [h, Numeral.exponentText]
    rfl
  · simp [h, Numeral.exponentText]

/-- The numeral of an integer is worth the integer. -/
theorem value_intNumeral (n : Int) : (intNumeral n).value = n := by
  unfold Numeral.value intNumeral
  rw [DecimalText.pointed_nil, value_decimal]
  by_cases h : n < 0
  · simp [h, abs_of_neg, Numeral.exponentValue]
  · simp [h, abs_of_nonneg (not_lt.mp h), Numeral.exponentValue]

/-! ## Rates -/

/-- Trailing zeros are all that is taken off. -/
theorem exists_stripZeros (digits : Str) :
    ∃ n, digits = stripZeros digits ++ List.replicate n 48 := by
  refine ⟨(digits.rtakeWhile (· = 48)).length, ?_⟩
  have hzeros : digits.rtakeWhile (· = 48) =
      List.replicate (digits.rtakeWhile (· = 48)).length 48 := by
    refine List.eq_replicate_of_mem fun b hb => ?_
    simpa using List.mem_rtakeWhile_imp hb
  rw [← hzeros]
  exact List.rdropWhile_append_rtakeWhile.symm

/-- Zeros at the end of a fraction are worth nothing. -/
theorem pointed_stripZeros (whole fraction : Str) :
    DecimalText.pointed whole (stripZeros fraction) = DecimalText.pointed whole fraction := by
  obtain ⟨n, hn⟩ := exists_stripZeros fraction
  conv_rhs => rw [hn]
  rw [DecimalText.pointed_append_zeros]

/-- Dropping zeros at the end brings in no digit. -/
theorem mem_of_mem_stripZeros {digits : Str} {b : UInt8} (h : b ∈ stripZeros digits) :
    b ∈ digits := by
  obtain ⟨n, hn⟩ := exists_stripZeros digits
  rw [hn]
  exact List.mem_append_left _ h

/-- A rate as a numeral, in the layout for its size. -/
def generalNumeral (x : ℚ) : Numeral :=
  if x = 0 then { whole := str "0" }
  else
    let (digits, e) := significant |x|
    let text := decimal digits
    if 0 ≤ e ∧ e < 6 then
      { negative := x < 0
        whole := text.take (e.toNat + 1)
        fraction := stripZeros (text.drop (e.toNat + 1)) }
    else if -4 ≤ e ∧ e < 0 then
      { negative := x < 0
        whole := str "0"
        fraction := stripZeros (List.replicate (e.natAbs - 1) 48 ++ text) }
    else
      { negative := x < 0
        whole := text.take 1
        fraction := stripZeros (text.drop 1)
        exponent := some (e < 0, zeroPadded 2 e.natAbs) }

/-- The point goes with the last digit behind it. -/
theorem text_withPoint (negative : Bool) (whole fraction : Str)
    (exponent : Option (Bool × Str)) :
    ({ negative := negative, whole := whole, fraction := stripZeros fraction,
       exponent := exponent : Numeral }).text =
      (if negative then str "-" else []) ++ withPoint whole fraction ++
        Numeral.exponentText exponent := by
  unfold Numeral.text withPoint
  by_cases h : stripZeros fraction = []
  · simp only [h, if_true, List.append_nil]
    rfl
  · simp only [h, if_false, List.append_assoc]
    rfl

/-- The text of a rate is that of its numeral. -/
theorem text_generalNumeral (x : ℚ) : (generalNumeral x).text = formatGeneral x := by
  unfold generalNumeral formatGeneral
  by_cases hzero : x = 0
  · rw [if_pos hzero, if_pos hzero]
    rfl
  rw [if_neg hzero, if_neg hzero]
  simp only
  by_cases hwhole : 0 ≤ (significant |x|).2 ∧ (significant |x|).2 < 6
  · rw [if_pos hwhole, if_pos hwhole, text_withPoint]
    simp [Numeral.exponentText]
  rw [if_neg hwhole, if_neg hwhole]
  by_cases hpoint : -4 ≤ (significant |x|).2 ∧ (significant |x|).2 < 0
  · rw [if_pos hpoint, if_pos hpoint, text_withPoint]
    simp [Numeral.exponentText]
  rw [if_neg hpoint, if_neg hpoint, text_withPoint]
  by_cases hneg : (significant |x|).2 < 0
  · simp [Numeral.exponentText, hneg]
    rfl
  · simp [Numeral.exponentText, hneg]
    rfl

/-- What is read back for a rate: the rate in six significant digits. -/
def printed (x : ℚ) : ℚ :=
  if x = 0 then 0
  else (if x < 0 then -1 else 1) * sixDigits (significant |x|).1 (significant |x|).2

/-- **A printed rate is off by at most five millionths of it.** -/
theorem printed_error (x : ℚ) : |printed x - x| ≤ |x| / 200000 := by
  unfold printed
  by_cases hzero : x = 0
  · simp [hzero]
  rw [if_neg hzero]
  have herror := (significant_spec (abs_pos.mpr hzero)).2.2
  by_cases hneg : x < 0
  · rw [if_pos hneg]
    rw [abs_of_neg hneg] at herror ⊢
    rw [← abs_neg]
    refine le_of_eq_of_le (congrArg _ ?_) herror
    ring
  · rw [if_neg hneg, one_mul]
    rw [abs_of_nonneg (not_lt.mp hneg)] at herror ⊢
    exact herror

/-- The digits of a rate. -/
theorem significant_digits {x : ℚ} (h : x ≠ 0) :
    (decimal (significant |x|).1).length = 6 ∧
      (decimal (significant |x|).1).head? ≠ some 48 := by
  obtain ⟨hlow, hhigh, -⟩ := significant_spec (abs_pos.mpr h)
  have hlength : (decimal (significant |x|).1).length = 6 :=
    length_decimal (k := 5) (by omega) (by omega)
  refine ⟨hlength, fun hhead => ?_⟩
  have := decimal_no_leading_zero hhead
  omega

/-- A padded number consists of digits. -/
theorem zeroPadded_digits (width n : Nat) :
    ∀ b ∈ zeroPadded width n, DecimalText.isDigit b = true := by
  intro b hb
  rcases List.mem_append.mp hb with hzero | hdigit
  · rw [List.eq_of_mem_replicate hzero]
    decide
  · exact digits_decimal n b hdigit

/-- Padding does not change the value. -/
theorem value_zeroPadded (width n : Nat) : DecimalText.value (zeroPadded width n) = n := by
  rw [zeroPadded, DecimalText.value_zeros_append, value_decimal]

/-- The front of some digits that begin with no zero. -/
theorem wellFormed_taken {text : Str} (hdigits : ∀ b ∈ text, DecimalText.isDigit b = true)
    (hne : text ≠ []) (hhead : text.head? ≠ some 48) (k : Nat) (negative : Bool)
    {fraction : Str} (hfraction : ∀ b ∈ fraction, DecimalText.isDigit b = true)
    {exponent : Option (Bool × Str)}
    (hexponent : ∀ e ∈ exponent, e.2 ≠ [] ∧ ∀ b ∈ e.2, DecimalText.isDigit b = true) :
    ({ negative := negative, whole := text.take (k + 1), fraction := stripZeros fraction,
       exponent := exponent : Numeral }).WellFormed where
  whole_ne_nil := by simpa using hne
  no_leading_zero := by
    intro h
    rw [List.head?_take, if_neg (Nat.succ_ne_zero k)] at h
    exact absurd h hhead
  whole := fun b hb => hdigits b (List.mem_of_mem_take hb)
  fraction := fun b hb => hfraction b (mem_of_mem_stripZeros hb)
  exponent := hexponent

/-- What `%g` writes is a well-formed numeral. -/
theorem wellFormed_generalNumeral (x : ℚ) : (generalNumeral x).WellFormed := by
  unfold generalNumeral
  by_cases hzero : x = 0
  · rw [if_pos hzero]
    exact wellFormed_intNumeral 0
  rw [if_neg hzero]
  simp only
  obtain ⟨hlength, hhead⟩ := significant_digits hzero
  have hdigits := digits_decimal (significant |x|).1
  have hne := decimal_ne_nil (significant |x|).1
  generalize decimal (significant |x|).1 = text at hlength hhead hdigits hne
  have hdrop : ∀ k, ∀ b ∈ text.drop k, DecimalText.isDigit b = true :=
    fun k b hb => hdigits b (List.mem_of_mem_drop hb)
  split_ifs with hwhole hpoint
  · exact wellFormed_taken hdigits hne hhead _ _ (hdrop _) (by simp)
  · refine ⟨List.cons_ne_nil _ _, fun _ => rfl, digits_decimal 0, fun b hb => ?_, by simp⟩
    rcases List.mem_append.mp (mem_of_mem_stripZeros hb) with hzeros | hdigit
    · rw [List.eq_of_mem_replicate hzeros]
      decide
    · exact hdigits b hdigit
  · refine wellFormed_taken hdigits hne hhead 0 _ (hdrop _) fun e he => ?_
    obtain rfl : (decide ((significant |x|).2 < 0), zeroPadded 2 (significant |x|).2.natAbs) = e :=
      Option.some.inj he
    exact ⟨fun h => decimal_ne_nil _ (List.append_eq_nil_iff.mp h).2, zeroPadded_digits _ _⟩

/-- Digits with the point after the first `k` of them. -/
theorem pointed_split {text : Str} {k : Nat} (h : k ≤ text.length) :
    DecimalText.pointed (text.take k) (stripZeros (text.drop k)) =
      DecimalText.value text * (10 : ℚ) ^ ((k : Int) - text.length) := by
  rw [pointed_stripZeros, DecimalText.pointed, List.take_append_drop, List.length_drop,
    div_eq_mul_inv, ← zpow_natCast, ← zpow_neg]
  congr 2
  omega

/-- Digits after the point, behind some zeros. -/
theorem pointed_zeros (text : Str) (n : Nat) :
    DecimalText.pointed (str "0") (stripZeros (List.replicate n 48 ++ text)) =
      DecimalText.value text * (10 : ℚ) ^ (-(n + text.length : Int)) := by
  have hzeros : str "0" ++ (List.replicate n 48 ++ text) = List.replicate (n + 1) 48 ++ text := rfl
  rw [pointed_stripZeros, DecimalText.pointed, hzeros, DecimalText.value_zeros_append,
    List.length_append, List.length_replicate, div_eq_mul_inv, ← zpow_natCast, ← zpow_neg]
  push_cast
  rfl

/-- An exponent of two digits is worth its number. -/
theorem exponentValue_signed (e : Int) :
    Numeral.exponentValue (some (decide (e < 0), zeroPadded 2 e.natAbs)) = e := by
  rw [Numeral.exponentValue, value_zeroPadded]
  by_cases h : e < 0
  · rw [decide_eq_true h, if_pos rfl]
    omega
  · rw [decide_eq_false h, if_neg (by decide)]
    omega

/-- **A printed rate reads as the rate in six significant digits.** -/
theorem value_generalNumeral (x : ℚ) : (generalNumeral x).value = printed x := by
  unfold generalNumeral printed
  by_cases hzero : x = 0
  · rw [if_pos hzero, if_pos hzero]
    exact value_intNumeral 0
  rw [if_neg hzero, if_neg hzero]
  simp only
  obtain ⟨hlength, -⟩ := significant_digits hzero
  have hvalue := value_decimal (significant |x|).1
  generalize decimal (significant |x|).1 = text at hlength hvalue
  generalize (significant |x|).2 = e
  unfold sixDigits
  by_cases hwhole : 0 ≤ e ∧ e < 6
  · rw [if_pos hwhole, Numeral.value, pointed_split (by omega), hvalue, hlength]
    have hpoint : ((e.toNat + 1 : Nat) : Int) - (6 : Nat) = e - 5 := by omega
    rw [hpoint]
    simp [Numeral.exponentValue]
  rw [if_neg hwhole]
  by_cases hpoint : -4 ≤ e ∧ e < 0
  · rw [if_pos hpoint, Numeral.value, pointed_zeros, hvalue, hlength]
    have hzeros : -(((e.natAbs - 1 : Nat) : Int) + (6 : Nat)) = e - 5 := by omega
    rw [hzeros]
    simp [Numeral.exponentValue]
  · rw [if_neg hpoint, Numeral.value, pointed_split (by omega), hvalue, hlength,
      exponentValue_signed, mul_assoc, mul_assoc, ← zpow_add₀ (by norm_num)]
    have hpower : ((1 : Nat) : Int) - (6 : Nat) + e = e - 5 := by omega
    rw [hpower]
    simp

end Netmon
