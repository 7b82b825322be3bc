import Netmon.DelimitedItems

/-!
# Reading metric lines

A line of the Prometheus text format that carries a sample: the name of the metric,
labels in braces, a blank and the value.  Label values stand between quotes, with
the backslash, the quote and the line break escaped.  The reader takes the whole
line or refuses it.

The rule for a writer is `readSample_write`: it asks only that the writer's label
values are read back up to the closing quote.
-/

namespace MetricsReader

structure Sample where
  name : List UInt8
  labels : List (List UInt8 × List UInt8)
  value : List UInt8
  deriving DecidableEq

def isDigit (b : UInt8) : Bool := 48 ≤ b && b ≤ 57

/-- A byte of a name: a letter, a digit, an underscore or a colon. -/
def isNameByte (b : UInt8) : Bool :=
  isDigit b || (65 ≤ b && b ≤ 90) || (97 ≤ b && b ≤ 122) || b = 95 || b = 58

/-- A name is not empty and does not begin with a digit. -/
def isName (text : List UInt8) : Bool :=
  text.all isNameByte && text ≠ [] && (text.head?.map isDigit) ≠ some true

/-- Digits with an optional fraction. -/
def isUnsigned (text : List UInt8) : Bool :=
  let fraction := text.dropWhile isDigit
  text.takeWhile isDigit ≠ [] && (fraction = [] ||
    (fraction.head? = some 46 && fraction.drop 1 ≠ [] && (fraction.drop 1).all isDigit))

/-- A decimal number with an optional sign. -/
def isNumber : List UInt8 → Bool
  | [] => false
  | b :: rest => if b = 43 ∨ b = 45 then isUnsigned rest else isUnsigned (b :: rest)

/-- The byte that an escape stands for. -/
def unescape (b : UInt8) : Option UInt8 :=
  if b = 92 ∨ b = 34 then some b else if b = 110 then some 10 else none

/-- A label value up to its closing quote, and what follows. -/
def readLabelValue : List UInt8 → Option (List UInt8 × List UInt8)
  | [] => none
  | b :: rest =>
      if b = 34 then some ([], rest)
      else if b = 92 then
        match rest with
        | [] => none
        | letter :: rest =>
            (unescape letter).bind fun c =>
              (readLabelValue rest).map fun read => (c :: read.1, read.2)
      else if b = 10 then none
      else (readLabelValue rest).map fun read => (b :: read.1, read.2)

/-- A label and what follows it. -/
def readLabel (text : List UInt8) : Option ((List UInt8 × List UInt8) × List UInt8) :=
  let name := text.takeWhile isNameByte
  match text.dropWhile isNameByte with
  | 61 :: 34 :: rest =>
      if isName name then (readLabelValue rest).map fun read => ((name, read.1), read.2) else none
  | _ => none

/-- The name at the front of a line. -/
def metricName (line : List UInt8) : List UInt8 := line.takeWhile isNameByte

/-- The sample of a line. -/
def readSample (line : List UInt8) : Option Sample :=
  let name := metricName line
  if isName name then
    match line.dropWhile isNameByte with
    | 32 :: value => if isNumber value then some ⟨name, [], value⟩ else none
    | 123 :: rest =>
        (DelimitedItems.readItems readLabel 44 125 rest).bind fun read =>
          match read.2 with
          | 32 :: value => if isNumber value then some ⟨name, read.1, value⟩ else none
          | _ => none
    | _ => none
  else none

/-! ## Label values -/

theorem readLabelValue_quote (more : List UInt8) :
    readLabelValue (34 :: more) = some ([], more) := by
  rw [readLabelValue.eq_def]
  simp

theorem readLabelValue_escape {letter c : UInt8} (h : unescape letter = some c)
    (more : List UInt8) :
    readLabelValue (92 :: letter :: more) =
      (readLabelValue more).map fun read => (c :: read.1, read.2) := by
  rw [readLabelValue.eq_def]
  simp [h]

theorem readLabelValue_plain {b : UInt8} (hquote : b ≠ 34) (hslash : b ≠ 92) (hbreak : b ≠ 10)
    (more : List UInt8) :
    readLabelValue (b :: more) = (readLabelValue more).map fun read => (b :: read.1, read.2) := by
  rw [readLabelValue.eq_def]
  simp only [if_neg hquote, if_neg hslash, if_neg hbreak]

/-- **An escaped value is read back up to the quote.** -/
theorem readLabelValue_flatMap {escape : UInt8 → List UInt8}
    (h : ∀ b more, readLabelValue (escape b ++ more) =
      (readLabelValue more).map fun read => (b :: read.1, read.2)) (s more : List UInt8) :
    readLabelValue (s.flatMap escape ++ 34 :: more) = some (s, more) := by
  induction s with
  | nil => exact readLabelValue_quote more
  | cons b s ih =>
      rw [List.flatMap_cons, List.append_assoc, h, ih]
      rfl

/-! ## Numbers -/

theorem isUnsigned_fraction {whole fraction : List UInt8} (hne : whole ≠ [])
    (hwhole : ∀ b ∈ whole, isDigit b = true) (hne' : fraction ≠ [])
    (hfraction : ∀ b ∈ fraction, isDigit b = true) :
    isUnsigned (whole ++ 46 :: fraction) = true := by
  have htake : (whole ++ 46 :: fraction).takeWhile isDigit = whole := by
    rw [List.takeWhile_append_of_pos hwhole, List.takeWhile_cons_of_neg (by decide),
      List.append_nil]
  have hdrop : (whole ++ 46 :: fraction).dropWhile isDigit = 46 :: fraction := by
    rw [List.dropWhile_append_of_pos hwhole, List.dropWhile_cons_of_neg (by decide)]
  have hall : fraction.all isDigit = true := List.all_eq_true.mpr hfraction
  simp only [isUnsigned, htake, hdrop, hall, List.head?_cons, List.drop_one, List.tail_cons]
  simp [hne, hne']

/-- A number may begin with a digit or a sign. -/
theorem isNumber_of_isUnsigned {text : List UInt8} (h : isUnsigned text = true) :
    isNumber text = true ∧ isNumber (45 :: text) = true := by
  refine ⟨?_, h⟩
  cases text with
  | nil => exact absurd h (by decide)
  | cons b rest =>
      have hsign : ¬ (b = 43 ∨ b = 45) := by
        intro hb
        have hnone : (b :: rest).takeWhile isDigit = [] := by
          rcases hb with rfl | rfl
          · exact List.takeWhile_cons_of_neg (by decide)
          · exact List.takeWhile_cons_of_neg (by decide)
        rw [isUnsigned, hnone] at h
        exact absurd h (by simp)
      rw [isNumber, if_neg hsign]
      exact h

/-! ## Samples -/

/-- A name ends at the first byte that is not part of one. -/
theorem name_append {name : List UInt8} (h : isName name = true) {b : UInt8}
    (hb : isNameByte b = false) (more : List UInt8) :
    (name ++ b :: more).takeWhile isNameByte = name ∧
      (name ++ b :: more).dropWhile isNameByte = b :: more := by
  have hall : ∀ c ∈ name, isNameByte c = true := by
    simp only [isName, Bool.and_eq_true, List.all_eq_true] at h
    exact h.1.1
  constructor
  · rw [List.takeWhile_append_of_pos hall, List.takeWhile_cons, hb]
    simp
  · rw [List.dropWhile_append_of_pos hall, List.dropWhile_cons, hb]
    simp

section

variable {escape : List UInt8 → List UInt8}

/-- The text of a label. -/
def writeLabel (escape : List UInt8 → List UInt8) (label : List UInt8 × List UInt8) :
    List UInt8 :=
  label.1 ++ [61, 34] ++ escape label.2 ++ [34]

theorem readLabel_writeLabel
    (h : ∀ v more, readLabelValue (escape v ++ 34 :: more) = some (v, more))
    {label : List UInt8 × List UInt8} (hname : isName label.1 = true) (more : List UInt8) :
    readLabel (writeLabel escape label ++ more) = some (label, more) := by
  have htext : writeLabel escape label ++ more =
      label.1 ++ 61 :: 34 :: (escape label.2 ++ 34 :: more) := by
    simp [writeLabel]
  obtain ⟨htake, hdrop⟩ := name_append hname (show isNameByte 61 = false by decide)
    (34 :: (escape label.2 ++ 34 :: more))
  rw [htext, readLabel, htake, hdrop]
  simp only [hname, if_true, h, Option.map_some]

/-- **A line with labels is read back.** -/
theorem readSample_write
    (h : ∀ v more, readLabelValue (escape v ++ 34 :: more) = some (v, more))
    {name : List UInt8} (hname : isName name = true) (label : List UInt8 × List UInt8)
    {labels : List (List UInt8 × List UInt8)}
    (hnames : ∀ l ∈ label :: labels, isName l.1 = true) {value : List UInt8}
    (hvalue : isNumber value = true) :
    readSample (name ++ [123] ++ [44].intercalate ((label :: labels).map (writeLabel escape)) ++
      [125, 32] ++ value) = some ⟨name, label :: labels, value⟩ := by
  have htext : name ++ [123] ++ [44].intercalate ((label :: labels).map (writeLabel escape)) ++
      [125, 32] ++ value = name ++ 123 :: ([44].intercalate
        ((label :: labels).map (writeLabel escape)) ++ 125 :: 32 :: value) := by
    simp
  obtain ⟨htake, hdrop⟩ := name_append hname (show isNameByte 123 = false by decide)
    ([44].intercalate ((label :: labels).map (writeLabel escape)) ++ 125 :: 32 :: value)
  have hback : ∀ l ∈ label :: labels,
      DelimitedItems.ReadsBack readLabel 44 125 (writeLabel escape) l :=
    fun l hl b _ more => readLabel_writeLabel h (hnames l hl) (b :: more)
  have hread := DelimitedItems.readItems_intercalate (by decide) hback (32 :: value)
  rw [htext, readSample, metricName, htake, hdrop]
  simp only [hname, if_true, hread, Option.bind_some, hvalue]

end

end MetricsReader
