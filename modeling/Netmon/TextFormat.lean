import Netmon.Types

/-!
# Numbers and times as text

How the reports print numbers and times: integers in decimal, rates as
`operator<<` prints a `double` (six significant digits, and three decimals in
the metrics), hash values in hexadecimal and times in UTC.  Rounding is to the
nearest digit with ties to even, as the C library rounds the exact value.
-/

namespace Netmon

def decimalInt (n : Int) : Str := if n < 0 then str "-" ++ decimal n.natAbs else decimal n.natAbs

/-- A number with zeros in front up to a width. -/
def zeroPadded (width n : Nat) : Str :=
  List.replicate (width - (decimal n).length) 48 ++ decimal n

/-- Sixteen hexadecimal digits, the most significant first. -/
def hex16 (value : UInt64) : Str :=
  (List.range 16).map fun i => hexDigit (value.toNat / 16 ^ (15 - i) % 16)

/-! ## Rates -/

/-- The nearest natural number, to the even one of two. -/
def roundHalfEven (q : ℚ) : Nat :=
  let down := q.floor.toNat
  let rest := q - down
  if rest < 1 / 2 then down
  else if rest > 1 / 2 then down + 1
  else if down % 2 = 0 then down
  else down + 1

/-- `std::fixed` with three decimals. -/
def formatFixed3 (x : ℚ) : Str :=
  let thousandths := roundHalfEven (|x| * 1000)
  (if x < 0 then str "-" else []) ++ decimal (thousandths / 1000) ++ str "." ++
    zeroPadded 3 (thousandths % 1000)

/-- The decimal exponent of a positive number. -/
def decimalExponent (q : ℚ) : Int :=
  if q ≥ 1 then (Nat.log 10 q.floor.toNat : Int) else -(Nat.clog 10 (1 / q).ceil.toNat : Int)

/-- The six significant digits of a positive number, as a number, with the
exponent of the first one; rounding up may add a digit. -/
def significant (q : ℚ) : Nat × Int :=
  let e := decimalExponent q
  let digits := roundHalfEven (q * (10 : ℚ) ^ (5 - e))
  if digits = 1000000 then (100000, e + 1) else (digits, e)

/-- The text without trailing zeros. -/
def stripZeros (digits : Str) : Str := digits.rdropWhile (· = 48)

/-- Digits before and after the point, without trailing zeros and without a
point that nothing follows. -/
def withPoint (whole fraction : Str) : Str :=
  if stripZeros fraction = [] then whole else whole ++ str "." ++ stripZeros fraction

/-- `operator<<` on a `double` with the default precision. -/
def formatGeneral (x : ℚ) : Str :=
  let sign := if x < 0 then str "-" else []
  if x = 0 then str "0"
  else
    let (digits, e) := significant |x|
    let text := decimal digits
    if 0 ≤ e ∧ e < 6 then
      sign ++ withPoint (text.take (e.toNat + 1)) (text.drop (e.toNat + 1))
    else if -4 ≤ e ∧ e < 0 then
      sign ++ withPoint (str "0") (List.replicate (e.natAbs - 1) 48 ++ text)
    else
      sign ++ withPoint (text.take 1) (text.drop 1) ++
        (if e < 0 then str "e-" else str "e+") ++ zeroPadded 2 e.natAbs

/-! ## Times -/

/-- A calendar date. -/
structure CivilDate where
  year : Int
  month : Nat
  day : Nat

/-- The date of a day counted from the epoch, in the Gregorian calendar with
years that start in March. -/
def civilFromDays (days : Int) : CivilDate :=
  let shifted := days + 719468
  let era := shifted.fdiv 146097
  let dayOfEra := (shifted - era * 146097).toNat
  let yearOfEra :=
    (dayOfEra - dayOfEra / 1460 + dayOfEra / 36524 - dayOfEra / 146096) / 365
  let dayOfYear := dayOfEra - (365 * yearOfEra + yearOfEra / 4 - yearOfEra / 100)
  let shiftedMonth := (5 * dayOfYear + 2) / 153
  let month := if shiftedMonth < 10 then shiftedMonth + 3 else shiftedMonth - 9
  { year := yearOfEra + era * 400 + (if month ≤ 2 then 1 else 0)
    month := month
    day := dayOfYear - (153 * shiftedMonth + 2) / 5 + 1 }

/-- `%Y-%m-%dT%H:%M:%SZ` in UTC, and an empty text for "never". -/
def formatIso8601 (tp : TimePoint) : Str :=
  if tp = 0 then []
  else
    let total := Int.tdiv tp 1000000000
    let date := civilFromDays (total.fdiv 86400)
    let second := (total.fmod 86400).toNat
    (if date.year < 0 then str "-" else []) ++ zeroPadded 4 date.year.natAbs ++ str "-" ++
      zeroPadded 2 date.month ++ str "-" ++ zeroPadded 2 date.day ++ str "T" ++
      zeroPadded 2 (second / 3600) ++ str ":" ++ zeroPadded 2 (second / 60 % 60) ++ str ":" ++
      zeroPadded 2 (second % 60) ++ str "Z"

example : formatIso8601 (seconds 951782400) = str "2000-02-29T00:00:00Z" := by decide +kernel

example : formatIso8601 (seconds 1700000000) = str "2023-11-14T22:13:20Z" := by decide +kernel

example : formatFixed3 (3 / 8) = str "0.375" ∧ formatGeneral (1234567 / 10) = str "123457" ∧
    formatGeneral (12345678 : ℚ) = str "1.23457e+07" ∧ formatGeneral (1 / 8) = str "0.125" ∧
    formatGeneral (3 / 100000) = str "3e-05" ∧ formatGeneral 800 = str "800" := by
  decide +kernel

end Netmon
