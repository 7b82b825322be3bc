import Mathlib

/-!
# Byte strings

The program works on `std::string`, a sequence of bytes with no encoding, and
on the byte classes of the C locale.  This file holds the text functions of
`utils.cpp` that the rest of the development calls: trimming, case mapping,
number parsing, splitting, the bounded line of the syslog receivers and the
JSON escaping.  Literals of the source are written `str "..."`.
-/

namespace Netmon

/-- A `std::string`: the bytes it holds. -/
abbrev Str := List UInt8

/-- Membership tests on texts use this one proof that their comparison is
equality. -/
instance instLawfulBEqStr : LawfulBEq Str := inferInstance

/-- The bytes of a string literal. -/
def str (s : String) : Str := s.toUTF8.data.toList

/-- `std::isspace` in the C locale. -/
def isSpace (b : UInt8) : Bool := b = 32 || (9 ≤ b && b ≤ 13)

/-- `std::isdigit`. -/
def isDigit (b : UInt8) : Bool := 48 ≤ b && b ≤ 57

/-- `std::tolower` in the C locale. -/
def toLower (b : UInt8) : UInt8 := if 65 ≤ b && b ≤ 90 then b + 32 else b

/-- `std::toupper` in the C locale. -/
def toUpper (b : UInt8) : UInt8 := if 97 ≤ b && b ≤ 122 then b - 32 else b

/-- White space is dropped at both ends. -/
def trim (value : Str) : Str := (value.dropWhile isSpace).rdropWhile isSpace

/-- Every byte in lower case, as in the C locale. -/
def lower (value : Str) : Str := value.map toLower

/-- Every byte in upper case, as in the C locale. -/
def upper (value : Str) : Str := value.map toUpper

/-- The decimal value of a digit string, most significant digit first. -/
def digitsValue (digits : Str) : Nat :=
  digits.foldl (fun acc b => acc * 10 + (b.toNat - 48)) 0

/-- `std::from_chars` on an unsigned 64-bit target, accepted only when it
consumes the whole text: digits alone, no sign, no overflow. -/
def parseUint64 (value : Str) (fallback : UInt64) : UInt64 :=
  let text := trim value
  if text ≠ [] ∧ text.all isDigit ∧ digitsValue text < 2 ^ 64 then
    UInt64.ofNat (digitsValue text)
  else fallback

/-- The text is a decimal number that an unsigned 64-bit integer holds. -/
def ParsesAs (text : Str) (n : Nat) : Prop :=
  trim text ≠ [] ∧ (trim text).all isDigit = true ∧ digitsValue (trim text) = n ∧ n < 2 ^ 64

instance (text : Str) (n : Nat) : Decidable (ParsesAs text n) :=
  inferInstanceAs (Decidable (_ ∧ _))

/-- A text that parses as a number is read as that number. -/
theorem ParsesAs.toNat_parseUint64 {text : Str} {n : Nat} (h : ParsesAs text n)
    (fallback : UInt64) : (parseUint64 text fallback).toNat = n := by
  obtain ⟨hne, hdigits, rfl, hbound⟩ := h
  unfold parseUint64
  simp only [if_pos (And.intro hne (And.intro hdigits hbound))]
  exact UInt64.toNat_ofNat_of_lt' hbound

/-- A text that parses as no number is read as the fallback. -/
theorem parseUint64_of_not_parses {text : Str} (h : ∀ n, ¬ ParsesAs text n) (fallback : UInt64) :
    parseUint64 text fallback = fallback := by
  unfold parseUint64
  refine if_neg ?_
  rintro ⟨hne, hdigits, hbound⟩
  exact h _ ⟨hne, hdigits, rfl, hbound⟩

/-- `std::from_chars` on an `int` target, accepted only when it consumes the whole
text: an optional minus sign and digits, no overflow. -/
def parseInt (value : Str) (fallback : Int) : Int :=
  let text := trim value
  let negative := text.head? = some 45
  let digits := if negative then text.drop 1 else text
  let parsed : Int := if negative then -(digitsValue digits : Int) else digitsValue digits
  if digits ≠ [] ∧ digits.all isDigit ∧ -2 ^ 31 ≤ parsed ∧ parsed < 2 ^ 31 then parsed
  else fallback

/-- Four words are read as true and four as false, whatever their case. -/
def parseBool (value : Str) (fallback : Bool) : Bool :=
  let normalized := lower (trim value)
  if normalized ∈ [str "true", str "yes", str "on", str "1"] then true
  else if normalized ∈ [str "false", str "no", str "off", str "0"] then false
  else fallback

/-- The loop of `stripInlineComment`: the bytes before the first `#` that is not
between quotes. -/
def beforeComment : Bool → Bool → Str → Str
  | _, _, [] => []
  | inSingle, inDouble, b :: rest =>
      if b = 39 ∧ !inDouble then b :: beforeComment (!inSingle) inDouble rest
      else if b = 34 ∧ !inSingle then b :: beforeComment inSingle (!inDouble) rest
      else if b = 35 ∧ !inSingle ∧ !inDouble then []
      else b :: beforeComment inSingle inDouble rest

/-- What stands before a comment outside quotes, trimmed. -/
def stripInlineComment (value : Str) : Str := trim (beforeComment false false value)

/-- The bytes that end a received line. -/
def isLineEnd (b : UInt8) : Bool := b = 10 || b = 13 || b = 0

/-- Remove the trailing `\n`, `\r` and NUL bytes. -/
def stripLineEnd (line : Str) : Str := line.rdropWhile isLineEnd

/-- A line that is too long is refused; of the others the line end goes. -/
def boundedLine (line : Str) (maxLength : Nat) : Option Str :=
  if line.length > maxLength then none else some (stripLineEnd line)

/-- The parts of `value` between the delimiters; an empty text has one empty
part. -/
def split : Str → UInt8 → List Str
  | [], _ => [[]]
  | b :: rest, delimiter =>
      if b = delimiter then [] :: split rest delimiter
      else
        match split rest delimiter with
        | [] => [[b]]
        | part :: parts => (b :: part) :: parts

/-- The text without one pair of equal quotes around it. -/
def stripQuotes (value : Str) : Str :=
  let out := trim value
  if out.length ≥ 2 ∧ (out.head? = some 34 ∧ out.getLast? = some 34 ∨
      out.head? = some 39 ∧ out.getLast? = some 39) then
    (out.drop 1).dropLast
  else out

/-- Position-free `find(needle) != npos`. -/
def containsStr (text needle : Str) : Bool :=
  match text with
  | [] => needle.isPrefixOf []
  | b :: rest => needle.isPrefixOf (b :: rest) || containsStr rest needle

/-- What follows the first occurrence of `needle`, if there is one. -/
def afterFirst (text needle : Str) : Option Str :=
  match text with
  | [] => if needle.isPrefixOf [] then some [] else none
  | b :: rest =>
      if needle.isPrefixOf (b :: rest) then some ((b :: rest).drop needle.length)
      else afterFirst rest needle

/-- A C string read back: the bytes before the first NUL. -/
def cString (value : Str) : Str := value.takeWhile (· ≠ 0)

/-- One hexadecimal digit in lower case. -/
def hexDigit (n : Nat) : UInt8 :=
  if n < 10 then UInt8.ofNat (48 + n) else UInt8.ofNat (87 + n)

/-- The decimal digits of a number, as `operator<<` prints it. -/
def decimal (n : Nat) : Str := (Nat.toDigits 10 n).map fun c => UInt8.ofNat c.toNat

/-- The JSON escape of one byte. -/
def jsonEscapeByte (b : UInt8) : Str :=
  if b = 34 then str "\\\""
  else if b = 92 then str "\\\\"
  else if b = 8 then str "\\b"
  else if b = 12 then str "\\f"
  else if b = 10 then str "\\n"
  else if b = 13 then str "\\r"
  else if b = 9 then str "\\t"
  else if b < 32 then
    str "\\u00" ++ [hexDigit (b.toNat / 16), hexDigit (b.toNat % 16)]
  else [b]

/-- The escapes are put in byte by byte. -/
def jsonEscape (value : Str) : Str := value.flatMap jsonEscapeByte

/-- A JSON string, between double quotes. -/
def jsonQuote (value : Str) : Str := [34] ++ jsonEscape value ++ [34]

example : boundedLine (str "abc") 3 = some (str "abc") := by decide

example : jsonQuote [97, 1, 10] = str "\"a\\u0001\\n\"" := by decide

/-- Lower-casing twice changes nothing more. -/
@[simp] theorem toLower_toLower (b : UInt8) : toLower (toLower b) = toLower b := by
  revert b
  decide +kernel

@[simp] theorem lower_lower (value : Str) : lower (lower value) = lower value := by
  simp [lower]

@[simp] theorem lower_eq_nil {value : Str} : lower value = [] ↔ value = [] := by
  simp [lower]

@[simp] theorem lower_nil : lower [] = [] := rfl

/-- A C string holds no zero byte. -/
theorem zero_notMem_cString (value : Str) : 0 ∉ cString value := by
  intro h
  exact absurd (List.mem_takeWhile_imp h) (by simp)

/-- A text without NUL bytes passes through a C string unchanged. -/
theorem cString_eq_self {value : Str} (h : 0 ∉ value) : cString value = value := by
  rw [cString, List.takeWhile_eq_self_iff]
  intro b hb
  simpa using ne_of_mem_of_not_mem hb h

/-- Only the zero byte becomes one in lower case. -/
theorem toLower_eq_zero {b : UInt8} : toLower b = 0 ↔ b = 0 := by
  revert b
  decide +kernel

/-- A text in lower case has the zero bytes it had. -/
theorem zero_mem_lower {value : Str} : 0 ∈ lower value ↔ 0 ∈ value := by
  simp [lower, toLower_eq_zero]

/-- The byte of a decimal digit, with its value. -/
theorem digit_byte {c : Char} (h : c.isDigit = true) :
    isDigit (UInt8.ofNat c.toNat) = true ∧ (UInt8.ofNat c.toNat).toNat = c.toNat := by
  have hbounds : 48 ≤ c.toNat ∧ c.toNat ≤ 57 := by
    rw [Char.isDigit, Bool.and_eq_true, decide_eq_true_iff, decide_eq_true_iff] at h
    exact ⟨UInt32.le_iff_toNat_le.mp h.1, UInt32.le_iff_toNat_le.mp h.2⟩
  have hvalue : (UInt8.ofNat c.toNat).toNat = c.toNat := by
    rw [UInt8.toNat_ofNat']
    omega
  refine ⟨?_, hvalue⟩
  simp [isDigit, UInt8.le_iff_toNat_le, hvalue, hbounds]

/-- A decimal numeral consists of digits. -/
theorem isDigit_of_mem_decimal {n : Nat} {b : UInt8} (h : b ∈ decimal n) :
    isDigit b = true := by
  obtain ⟨c, hc, rfl⟩ := List.mem_map.mp h
  exact (digit_byte (Nat.isDigit_of_mem_toDigits (by omega) (by omega) hc)).1

/-- Reading a printed number gives it back. -/
theorem digitsValue_decimal (n : Nat) : digitsValue (decimal n) = n := by
  have hdigits : ∀ (chars : List Char) (acc : Nat), (∀ c ∈ chars, c.isDigit = true) →
      (chars.map fun c => UInt8.ofNat c.toNat).foldl (fun acc b => acc * 10 + (b.toNat - 48)) acc =
        Nat.ofDigitChars 10 chars acc := by
    intro chars
    induction chars with
    | nil => intro acc _; rfl
    | cons c chars ih =>
        intro acc hchars
        have hc := (digit_byte (hchars c List.mem_cons_self)).2
        have hrest := ih (10 * acc + (c.toNat - 48)) fun d hd =>
          hchars d (List.mem_cons_of_mem _ hd)
        rw [List.map_cons, List.foldl_cons, hc, Nat.mul_comm acc 10, hrest]
        rfl
  unfold digitsValue decimal
  rw [hdigits _ _ fun c hc => Nat.isDigit_of_mem_toDigits (by omega) (by omega) hc]
  exact Nat.ofDigitChars_ten_toDigits

/-- A decimal numeral is not empty. -/
theorem decimal_ne_nil (n : Nat) : decimal n ≠ [] := by
  simp [decimal, Nat.toDigits_ne_nil]

/-- Different numbers have different numerals. -/
theorem decimal_inj {m n : Nat} : decimal m = decimal n ↔ m = n := by
  refine ⟨fun h => ?_, fun h => h ▸ rfl⟩
  rw [← digitsValue_decimal m, h, digitsValue_decimal]

/-- Splitting is that of the standard library. -/
theorem split_eq_splitOn (value : Str) (delimiter : UInt8) :
    split value delimiter = value.splitOn delimiter := by
  induction value with
  | nil => rfl
  | cons b rest ih =>
      unfold List.splitOn at ih ⊢
      rw [split, List.splitOnP_cons_eq_if_modifyHead, ih]
      by_cases hb : b = delimiter
      · simp [hb]
      · cases hparts : List.splitOnP (· == delimiter) rest with
        | nil => exact absurd hparts (List.splitOnP_ne_nil _ _)
        | cons part parts => simp [hb]

/-- Joined parts that do not hold the delimiter are split again. -/
theorem split_intercalate {parts : List Str} {delimiter : UInt8}
    (h : ∀ part ∈ parts, delimiter ∉ part) (hne : parts ≠ []) :
    split ([delimiter].intercalate parts) delimiter = parts := by
  rw [split_eq_splitOn]
  exact List.splitOn_intercalate delimiter h hne

/-- A delimiter between two texts separates their parts. -/
theorem split_append_delimiter (a b : Str) (delimiter : UInt8) :
    split (a ++ delimiter :: b) delimiter = split a delimiter ++ split b delimiter := by
  induction a with
  | nil => simp [split]
  | cons x a ih =>
      rw [List.cons_append, split, split, ih]
      split
      · rfl
      · obtain ⟨part, parts, hparts⟩ := List.exists_cons_of_ne_nil
          (show split a delimiter ≠ [] by
            rw [split_eq_splitOn]
            exact List.splitOnP_ne_nil _ a)
        simp [hparts]

/-- A text without the delimiter is one piece. -/
theorem split_of_notMem {value : Str} {delimiter : UInt8} (h : delimiter ∉ value) :
    split value delimiter = [value] := by
  induction value with
  | nil => rfl
  | cons b value ih =>
      obtain ⟨hb, hvalue⟩ := not_or.mp (mt List.mem_cons.mpr h)
      rw [split, if_neg (Ne.symm hb), ih hvalue]

/-- Induction over a text by its delimiters: a text without one, or the text before the
first one and what follows. -/
@[elab_as_elim]
theorem delimited_induction (delimiter : UInt8) {motive : Str → Prop}
    (last : ∀ part, delimiter ∉ part → motive part)
    (next : ∀ part rest, delimiter ∉ part → motive rest → motive (part ++ delimiter :: rest))
    (value : Str) : motive value := by
  induction hlength : value.length using Nat.strong_induction_on generalizing value with
  | _ length ih =>
      by_cases hmem : delimiter ∈ value
      · obtain ⟨part, rest, rfl, hpart⟩ := List.eq_append_cons_of_mem hmem
        refine next part rest hpart (ih rest.length ?_ rest rfl)
        rw [← hlength, List.length_append, List.length_cons]
        omega
      · exact last value hmem

/-- The parts of a text hold its own bytes only. -/
theorem mem_of_mem_split {value part : Str} {delimiter b : UInt8}
    (hpart : part ∈ split value delimiter) (hb : b ∈ part) : b ∈ value := by
  induction value using delimited_induction delimiter with
  | last value hvalue =>
      rw [split_of_notMem hvalue, List.mem_singleton] at hpart
      exact hpart ▸ hb
  | next first rest hfirst ih =>
      rw [split_append_delimiter, split_of_notMem hfirst] at hpart
      rcases List.mem_cons.mp hpart with rfl | hrest
      · exact List.mem_append_left _ hb
      · exact List.mem_append_right _ (List.mem_cons_of_mem _ (ih hrest))

/-- Trimming brings in no byte. -/
theorem trim_subset (value : Str) : trim value ⊆ value := by
  intro b hb
  exact (List.dropWhile_suffix _).subset ((List.rdropWhile_prefix _ _).subset hb)

/-- A run of bytes is taken up to the first byte outside it. -/
theorem span_append {p : UInt8 → Bool} {w : Str} (hw : ∀ b ∈ w, p b = true) (rest : Str)
    (hrest : ∀ b ∈ rest.head?, p b = false) :
    (w ++ rest).takeWhile p = w ∧ (w ++ rest).dropWhile p = rest := by
  rw [List.takeWhile_append_of_pos hw, List.dropWhile_append_of_pos hw]
  cases rest with
  | nil => simp
  | cons b rest =>
      have hb : p b = false := hrest b rfl
      simp [hb]

/-- Spaces around a text do not matter. -/
theorem trim_pad {left right : Str} (hleft : ∀ b ∈ left, isSpace b = true)
    (hright : ∀ b ∈ right, isSpace b = true) (w : Str) : trim (left ++ w ++ right) = trim w := by
  have hdrop : ∀ x : Str, (x ++ right).rdropWhile isSpace = x.rdropWhile isSpace := by
    intro x
    rw [List.rdropWhile, List.reverse_append, List.dropWhile_append_of_pos (by simpa using hright)]
    rfl
  have hnone : right.dropWhile isSpace = [] := List.dropWhile_eq_nil_iff.mpr hright
  unfold trim
  rw [List.append_assoc, List.dropWhile_append_of_pos hleft, List.dropWhile_append]
  by_cases hempty : (w.dropWhile isSpace).isEmpty
  · rw [if_pos hempty, hnone, List.isEmpty_iff.mp hempty]
  · rw [if_neg hempty, hdrop]

/-- A text that neither starts nor ends with white space is trimmed. -/
theorem trim_eq_self {value : Str} (hfirst : ∀ b, value.head? = some b → isSpace b = false)
    (hlast : ∀ b, value.getLast? = some b → isSpace b = false) : trim value = value := by
  have hdrop : value.dropWhile isSpace = value := by
    cases value with
    | nil => rfl
    | cons c rest => rw [List.dropWhile_cons_of_neg (by simp [hfirst c rfl])]
  rw [trim, hdrop, List.rdropWhile_eq_self_iff]
  intro hne
  simp [hlast _ (List.getLast?_eq_some_getLast hne)]

end Netmon
