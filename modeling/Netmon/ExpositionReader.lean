import Netmon.DecimalText
import Netmon.MetricsReader

/-!
# Reading a document of metrics

A document of the Prometheus text format: one family after another, each introduced by its
help text and its kind under one name, with the samples of that name after it.  The reader
takes the whole document or refuses it: every line must be one of the three, a family has both
introductions, no sample stands under another name, and no name is introduced twice.  It takes
two samples under the same labels; `readStrict` refuses those too, as the format asks.

The rule for a writer is `readDocument_lines`: its lines have to be read, one by one, as the
lines of the families it means.
-/

namespace ExpositionReader

open MetricsReader

/-- A sample of a family. -/
structure Series where
  labels : List (List UInt8 × List UInt8)
  value : ℚ
  deriving DecidableEq

/-- A family: its name, its two comment lines and its series. -/
structure Family where
  name : List UInt8
  help : List UInt8
  kind : List UInt8
  series : List Series
  deriving DecidableEq

/-- A line as it is read. -/
inductive Line where
  | help (name text : List UInt8)
  | kind (name kind : List UInt8)
  | sample (name : List UInt8) (series : Series)

/-! ## Lines -/

/-- `# HELP ` -/
def helpWord : List UInt8 := [35, 32, 72, 69, 76, 80, 32]

/-- `# TYPE ` -/
def kindWord : List UInt8 := [35, 32, 84, 89, 80, 69, 32]

/-- `counter` and `gauge`. -/
def kinds : List (List UInt8) :=
  [[99, 111, 117, 110, 116, 101, 114], [103, 97, 117, 103, 101]]

/-- A line begins with a word. -/
def beginsWith (word line : List UInt8) : Bool := line.take word.length = word

/-- A name and what follows it after a blank. -/
def readNamed (text : List UInt8) : Option (List UInt8 × List UInt8) :=
  if isName (metricName text) ∧ (text.dropWhile isNameByte).head? = some 32 then
    some (metricName text, (text.dropWhile isNameByte).drop 1)
  else none

/-- A number that takes the whole text. -/
def readNumber (text : List UInt8) : Option ℚ :=
  (DecimalText.readNumeral text).bind fun read => if read.2 = [] then some read.1.value else none

/-- A line.  Help texts with a backslash, which begins an escape, are refused. -/
def readLine (line : List UInt8) : Option Line :=
  if beginsWith helpWord line then
    (readNamed (line.drop helpWord.length)).bind fun read =>
      if read.2.all (· ≠ 92) then some (.help read.1 read.2) else none
  else if beginsWith kindWord line then
    (readNamed (line.drop kindWord.length)).bind fun read =>
      if kinds.contains read.2 then some (.kind read.1 read.2) else none
  else
    (readSample line).bind fun sample =>
      (readNumber sample.value).map fun value => .sample sample.name ⟨sample.labels, value⟩

/-! ## Families -/

/-- The samples in front of the first family, and the families. -/
def group : List Line → Option (List (List UInt8 × Series) × List Family)
  | [] => some ([], [])
  | .sample name series :: rest =>
      (group rest).map fun read => ((name, series) :: read.1, read.2)
  | .help name text :: .kind name' kind :: rest =>
      (group rest).bind fun read =>
        if name' = name ∧ ∀ s ∈ read.1, s.1 = name then
          some ([], ⟨name, text, kind, read.1.map Prod.snd⟩ :: read.2)
        else none
  | _ => none

/-- The families of a document that is cut at its line breaks; the last line ends with one. -/
def readDocument (lines : List (List UInt8)) : Option (List Family) :=
  if lines.getLast? = some [] then
    (lines.dropLast.mapM readLine).bind fun parsed =>
      (group parsed).bind fun read =>
        if read.1 = [] ∧ (read.2.map Family.name).Nodup then some read.2 else none
  else none

/-- Every series once: no family has two samples under the same labels. -/
def Distinct (families : List Family) : Prop :=
  ∀ f ∈ families, (f.series.map Series.labels).Nodup

instance (families : List Family) : Decidable (Distinct families) :=
  inferInstanceAs (Decidable (∀ f ∈ families, _))

/-- The families of a document that has every series once. -/
def readStrict (lines : List (List UInt8)) : Option (List Family) :=
  (readDocument lines).filter fun families => Distinct families

/-- Families are distinct in two parts if they are in each. -/
theorem distinct_append {a b : List Family} :
    Distinct (a ++ b) ↔ Distinct a ∧ Distinct b :=
  List.forall_mem_append

/-- A document that can be read is refused only for a series that it has twice. -/
theorem readStrict_eq_some_iff {lines : List (List UInt8)} {families : List Family}
    (h : readDocument lines = some families) :
    readStrict lines = some families ↔ Distinct families := by
  rw [readStrict, h, Option.filter_some]
  by_cases hdistinct : Distinct families
  · simp [hdistinct]
  · simp [hdistinct]

/-- The lines of a family. -/
def Family.lines (family : Family) : List Line :=
  .help family.name family.help :: .kind family.name family.kind ::
    family.series.map (.sample family.name)

/-- Samples of one name are grouped together. -/
theorem group_samples (name : List UInt8) (series : List Series) (rest : List Line) :
    group (series.map (.sample name) ++ rest) =
      (group rest).map fun read => (series.map (fun s => (name, s)) ++ read.1, read.2) := by
  induction series with
  | nil => cases h : group rest <;> simp [h]
  | cons s series ih =>
      rw [List.map_cons, List.cons_append, group, ih, Option.map_map]
      rfl

/-- **The lines of families are grouped as the families.** -/
theorem group_lines (families : List Family) :
    group (families.flatMap Family.lines) = some ([], families) := by
  induction families with
  | nil => rfl
  | cons family families ih =>
      have hnames : ∀ s ∈ family.series.map (fun s => (family.name, s)) ++
          ([] : List (List UInt8 × Series)), s.1 = family.name := by
        intro s hs
        rw [List.append_nil] at hs
        obtain ⟨series, -, rfl⟩ := List.mem_map.mp hs
        rfl
      rw [List.flatMap_cons, Family.lines, List.cons_append, List.cons_append, group,
        group_samples, ih, Option.map_some, Option.bind_some, if_pos ⟨rfl, hnames⟩,
        List.append_nil, List.map_map]
      simp [Function.comp_def]

/-- Lines that are read one by one are all read. -/
theorem mapM_of_forall₂ {lines : List (List UInt8)} {parsed : List Line}
    (h : List.Forall₂ (fun line p => readLine line = some p) lines parsed) :
    lines.mapM readLine = some parsed := by
  induction h with
  | nil => rfl
  | cons hline _ ih => simp [List.mapM_cons, hline, ih]

/-- **A document is read back** if its lines are read as the lines of families with different
names. -/
theorem readDocument_lines {lines : List (List UInt8)} {families : List Family}
    (h : List.Forall₂ (fun line p => readLine line = some p) lines (families.flatMap Family.lines))
    (hnames : (families.map Family.name).Nodup) :
    readDocument (lines ++ [[]]) = some families := by
  have hlast : (lines ++ [[]]).getLast? = some [] := List.getLast?_concat
  rw [readDocument, if_pos hlast, List.dropLast_concat, mapM_of_forall₂ h, Option.bind_some,
    group_lines, Option.bind_some, if_pos ⟨rfl, hnames⟩]

/-! ## What a writer shows of a line -/

theorem beginsWith_append (word rest : List UInt8) : beginsWith word (word ++ rest) = true := by
  simp [beginsWith]

/-- A name is followed by a blank. -/
theorem readNamed_append {name : List UInt8} (h : isName name = true) (text : List UInt8) :
    readNamed (name ++ 32 :: text) = some (name, text) := by
  obtain ⟨htake, hdrop⟩ := name_append h (show isNameByte 32 = false by decide) text
  rw [readNamed, metricName, htake, hdrop, if_pos ⟨h, rfl⟩]
  rfl

/-- A help line is read back. -/
theorem readLine_help {name text : List UInt8} (h : isName name = true)
    (htext : text.all (· ≠ 92) = true) :
    readLine (helpWord ++ (name ++ 32 :: text)) = some (.help name text) := by
  rw [readLine, if_pos (beginsWith_append _ _), List.drop_left, readNamed_append h,
    Option.bind_some, if_pos htext]

/-- A type line is read back. -/
theorem readLine_kind {name kind : List UInt8} (h : isName name = true)
    (hkind : kinds.contains kind = true) :
    readLine (kindWord ++ (name ++ 32 :: kind)) = some (.kind name kind) := by
  have hhelp : ¬ beginsWith helpWord (kindWord ++ (name ++ 32 :: kind)) = true := by
    simp [beginsWith, helpWord, kindWord]
  rw [readLine, if_neg hhelp, if_pos (beginsWith_append _ _), List.drop_left, readNamed_append h,
    Option.bind_some, if_pos hkind]

/-- A sample is not taken for an introduction. -/
theorem not_beginsWith {line : List UInt8} {sample : Sample} (h : readSample line = some sample)
    {word : List UInt8} (hword : word.head? = some 35) : ¬ beginsWith word line = true := by
  intro hbegins
  have htake := of_decide_eq_true hbegins
  obtain ⟨more, rfl⟩ : ∃ more, word = 35 :: more := List.head?_eq_some_iff.mp hword
  obtain ⟨rest, hline⟩ : ∃ rest, line = 35 :: rest := by
    cases line with
    | nil => exact absurd htake (by simp)
    | cons b rest =>
        rw [List.length_cons, List.take_succ_cons] at htake
        exact ⟨rest, by rw [(List.cons.inj htake).1]⟩
  have hname : metricName line = [] := by
    rw [hline]
    exact List.takeWhile_cons_of_neg (by decide)
  have hnone : isName [] = false := by decide
  rw [readSample, hname] at h
  simp only [hnone] at h
  exact absurd h (by simp)

/-- A sample line is read back. -/
theorem readLine_sample {line : List UInt8} {sample : Sample} {value : ℚ}
    (h : readSample line = some sample) (hvalue : readNumber sample.value = some value) :
    readLine line = some (.sample sample.name ⟨sample.labels, value⟩) := by
  rw [readLine, if_neg (not_beginsWith h rfl), if_neg (not_beginsWith h rfl), h, Option.bind_some,
    hvalue]
  rfl

/-- A line without labels. -/
theorem readSample_bare {name value : List UInt8} (h : isName name = true)
    (hvalue : isNumber value = true) :
    readSample (name ++ 32 :: value) = some ⟨name, [], value⟩ := by
  obtain ⟨htake, hdrop⟩ := name_append h (show isNameByte 32 = false by decide) value
  rw [readSample, metricName, htake, hdrop]
  simp only [h, if_true, hvalue]

/-- Digits are a number, with a minus in front or without. -/
theorem isNumber_digits {digits : List UInt8} (hne : digits ≠ [])
    (h : ∀ b ∈ digits, isDigit b = true) :
    isNumber digits = true ∧ isNumber (45 :: digits) = true := by
  refine isNumber_of_isUnsigned ?_
  simp [isUnsigned, List.takeWhile_eq_self_iff.mpr h, List.dropWhile_eq_nil_iff.mpr h, hne]

/-- A well formed numeral is read as its value. -/
theorem readNumber_text {n : DecimalText.Numeral} (h : n.WellFormed) :
    readNumber n.text = some n.value := by
  have hstops : DecimalText.Stops [] := fun b hb => absurd hb (by simp)
  have hread := DecimalText.readNumeral_text h hstops
  rw [List.append_nil] at hread
  rw [readNumber, hread, Option.bind_some, if_pos rfl]

end ExpositionReader
