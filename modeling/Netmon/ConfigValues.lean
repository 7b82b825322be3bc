import Netmon.ConfigFile

/-!
# Values of the configuration file

How a value that stands in a line of the file is read back.  `Plain` texts pass through
the comment stripper whatever follows them, since they hold no `#` outside quotes and
close every quote they open; `Solid` texts begin and end with a byte that is no space,
so that trimming keeps them.  A string setting is written between double quotes, a
number in decimal and a switch as `true` or `false`.
-/

namespace Netmon

/-! ## Trimming -/

/-- A text that begins and ends with a byte that is no space. -/
structure Solid (w : Str) : Prop where
  head : ∃ b, w.head? = some b ∧ isSpace b = false
  last : ∃ b, w.getLast? = some b ∧ isSpace b = false

/-- A text that neither starts nor ends with white space is left alone. -/
theorem trim_of_solid {w : Str} (h : Solid w) : trim w = w := by
  obtain ⟨b, hhead, hb⟩ := h.head
  obtain ⟨c, hlast, hc⟩ := h.last
  have hdrop : w.dropWhile isSpace = w := by
    cases w with
    | nil => exact absurd hhead (by simp)
    | cons a w =>
        obtain rfl : a = b := Option.some.inj hhead
        exact List.dropWhile_cons_of_neg (by simp [hb])
  rw [trim, hdrop, List.rdropWhile_eq_self_iff]
  intro hne
  rw [List.getLast?_eq_some_getLast hne] at hlast
  rw [Option.some.inj hlast, hc]
  decide

theorem Solid.ne_nil {w : Str} (h : Solid w) : w ≠ [] := by
  obtain ⟨b, hhead, -⟩ := h.head
  rintro rfl
  exact absurd hhead (by simp)

/-- Two solid texts with anything between them. -/
theorem Solid.append {left right : Str} (hleft : Solid left) (middle : Str)
    (hright : Solid right) : Solid (left ++ middle ++ right) := by
  obtain ⟨b, hhead, hb⟩ := hleft.head
  obtain ⟨c, hlast, hc⟩ := hright.last
  refine ⟨⟨b, ?_, hb⟩, c, ?_, hc⟩
  · rw [List.append_assoc, List.head?_append, hhead]
    rfl
  · rw [List.getLast?_append, hlast]
    rfl

/-- A text without spaces is solid. -/
theorem solid_of_no_space {w : Str} (hne : w ≠ []) (h : ∀ b ∈ w, isSpace b = false) : Solid w :=
  ⟨⟨w.head hne, List.head?_eq_some_head hne, h _ (List.head_mem hne)⟩,
    w.getLast hne, List.getLast?_eq_some_getLast hne, h _ (List.getLast_mem hne)⟩

/-! ## Comments -/

/-- The comment stripper passes over the text, whatever follows. -/
def Plain (w : Str) : Prop :=
  ∀ rest, beforeComment false false (w ++ rest) = w ++ beforeComment false false rest

/-- Plain texts can be put one after the other. -/
theorem Plain.append {v w : Str} (hv : Plain v) (hw : Plain w) : Plain (v ++ w) := by
  intro rest
  rw [List.append_assoc, hv, hw, List.append_assoc]

/-- A text without quotes and `#`. -/
theorem plain_of_bytes {w : Str} (h : ∀ b ∈ w, b ≠ 34 ∧ b ≠ 39 ∧ b ≠ 35) : Plain w := by
  intro rest
  induction w with
  | nil => rfl
  | cons b w ih =>
      obtain ⟨hdouble, hsingle, hcomment⟩ := h b List.mem_cons_self
      rw [List.cons_append, beforeComment, if_neg fun hb => hsingle hb.1,
        if_neg fun hb => hdouble hb.1, if_neg fun hb => hcomment hb.1,
        ih fun c hc => h c (List.mem_cons_of_mem b hc)]
      rfl

/-- A text between double quotes that holds none itself. -/
theorem plain_quoted {v : Str} (h : 34 ∉ v) : Plain (34 :: v ++ [34]) := by
  -- inside the quotes only the closing one counts
  have hinside : ∀ rest, beforeComment false true (v ++ 34 :: rest) =
      v ++ 34 :: beforeComment false false rest := by
    intro rest
    induction v with
    | nil => rfl
    | cons b v ih =>
        have hb : b ≠ 34 := fun heq => h (heq ▸ List.mem_cons_self)
        rw [List.cons_append, beforeComment, if_neg (by simp), if_neg fun hq => hb hq.1,
          if_neg (by simp), ih fun hv => h (List.mem_cons_of_mem b hv)]
        rfl
  intro rest
  show 34 :: beforeComment false true (v ++ [34] ++ rest) = _
  rw [List.append_assoc, List.singleton_append, hinside]
  simp

/-- Spaces of one line. -/
def Blank (w : Str) : Prop := ∀ b ∈ w, isSpace b = true ∧ b ≠ 10

/-- White space opens no quote and no comment. -/
theorem Blank.plain {w : Str} (h : Blank w) : Plain w := by
  refine plain_of_bytes fun b hb => ?_
  have hspace := (h b hb).1
  refine ⟨?_, ?_, ?_⟩
  · rintro rfl
    exact absurd hspace (by decide)
  · rintro rfl
    exact absurd hspace (by decide)
  · rintro rfl
    exact absurd hspace (by decide)

/-- White space in front of a solid text is trimmed away. -/
theorem trim_gap {gap w : Str} (hgap : Blank gap) (hw : Solid w) : trim (gap ++ w) = w := by
  have hpad := trim_pad (fun b hb => (hgap b hb).1) (List.forall_mem_nil _) w
  rwa [List.append_nil, trim_of_solid hw] at hpad

/-- What may follow on a line, and what may stand there instead: spaces, with or
without a comment. -/
def Tail (w : Str) : Prop :=
  ∃ blank comment, Blank blank ∧ 10 ∉ comment ∧ (comment = [] ∨ comment.head? = some 35) ∧
    w = blank ++ comment

/-- The comment stripper leaves the spaces of a tail. -/
theorem Tail.beforeComment {w : Str} (h : Tail w) :
    ∃ blank, Blank blank ∧ beforeComment false false w = blank := by
  obtain ⟨blank, comment, hblank, -, hcomment, rfl⟩ := h
  refine ⟨blank, hblank, ?_⟩
  rw [hblank.plain]
  rcases hcomment with rfl | hhead
  · exact List.append_nil blank
  · cases comment with
    | nil => exact absurd hhead (by simp)
    | cons b comment =>
        obtain rfl : b = 35 := Option.some.inj hhead
        exact List.append_nil blank

/-- **What is left of a line.**  The spaces before a plain and solid text and the tail
after it are gone. -/
theorem stripInlineComment_line {lead w tail : Str} (hlead : Blank lead) (hplain : Plain w)
    (hsolid : Solid w) (htail : Tail tail) : stripInlineComment (lead ++ w ++ tail) = w := by
  obtain ⟨blank, hblank, hrest⟩ := htail.beforeComment
  rw [stripInlineComment, (hlead.plain.append hplain), hrest,
    trim_pad (fun b hb => (hlead b hb).1) (fun b hb => (hblank b hb).1), trim_of_solid hsolid]

/-- A tail stays on its line. -/
theorem Tail.no_break {w : Str} (h : Tail w) : 10 ∉ w := by
  obtain ⟨blank, comment, hblank, hcomment, -, rfl⟩ := h
  intro hmem
  rcases List.mem_append.mp hmem with hb | hb
  · exact (hblank 10 hb).2 rfl
  · exact hcomment hb

/-- Nothing may follow on a line. -/
theorem tail_nil : Tail [] := ⟨[], [], by simp [Blank], by simp, Or.inl rfl, rfl⟩

theorem blank_nil : Blank [] := by simp [Blank]

/-- A line of spaces or with a comment alone is as good as empty. -/
theorem stripInlineComment_tail {tail : Str} (h : Tail tail) : stripInlineComment tail = [] := by
  obtain ⟨blank, hblank, hrest⟩ := h.beforeComment
  have hpad : trim (blank ++ [] ++ []) = trim [] :=
    trim_pad (fun b hb => (hblank b hb).1) (by simp) []
  rw [List.append_nil, List.append_nil] at hpad
  rw [stripInlineComment, hrest, hpad]
  rfl

/-- A plain and solid text is not cut. -/
theorem stripInlineComment_of_plain {w : Str} (hplain : Plain w) (hsolid : Solid w) :
    stripInlineComment w = w := by
  have h := stripInlineComment_line blank_nil hplain hsolid tail_nil
  rwa [List.nil_append, List.append_nil] at h

/-! ## Words -/

/-- A byte of a key, a number or a switch. -/
def isWordByte (b : UInt8) : Bool := isDigit b || b = 45 || b = 95 || (97 ≤ b && b ≤ 122)

/-- A key, a number or a switch. -/
def Word (w : Str) : Prop := w ≠ [] ∧ w.all isWordByte = true

theorem Word.byte {w : Str} (h : Word w) {b : UInt8} (hb : b ∈ w) : isWordByte b = true :=
  List.all_eq_true.mp h.2 b hb

instance (w : Str) : Decidable (Word w) := inferInstanceAs (Decidable (_ ∧ _))

/-- The bytes of a word are none that the reader treats specially. -/
theorem isWordByte_spec {b : UInt8} (h : isWordByte b = true) :
    isSpace b = false ∧ b ≠ 10 ∧ b ≠ 34 ∧ b ≠ 35 ∧ b ≠ 39 ∧ b ≠ 58 := by
  revert b
  decide +kernel

/-- A word neither starts nor ends with white space. -/
theorem Word.solid {w : Str} (h : Word w) : Solid w :=
  solid_of_no_space h.1 fun _ hb => (isWordByte_spec (h.byte hb)).1

/-- A word opens no quote and no comment. -/
theorem Word.plain {w : Str} (h : Word w) : Plain w := by
  refine plain_of_bytes fun b hb => ?_
  obtain ⟨-, -, hdouble, hcomment, hsingle, -⟩ := isWordByte_spec (h.byte hb)
  exact ⟨hdouble, hsingle, hcomment⟩

/-- A word with a colon. -/
theorem Word.solid_colon {w : Str} (h : Word w) : Solid (w ++ [58]) := by
  refine solid_of_no_space (by simp) fun b hb => ?_
  rcases List.mem_append.mp hb with hb | hb
  · exact (isWordByte_spec (h.byte hb)).1
  · rw [List.mem_singleton.mp hb]
    decide

/-- A word stays on its line. -/
theorem Word.no_break {w : Str} (h : Word w) : 10 ∉ w := fun hb =>
  (isWordByte_spec (h.byte hb)).2.1 rfl

/-- A word ends no key. -/
theorem Word.no_colon {w : Str} (h : Word w) : 58 ∉ w := fun hb =>
  (isWordByte_spec (h.byte hb)).2.2.2.2.2 rfl

/-- A word has no quotes to strip. -/
theorem Word.stripQuotes_eq {w : Str} (h : Word w) : stripQuotes w = w := by
  have hquote : ∀ b, w.head? = some b → b ≠ 34 ∧ b ≠ 39 := by
    intro b hb
    obtain ⟨-, -, hdouble, -, hsingle, -⟩ := isWordByte_spec (h.byte (List.mem_of_head? hb))
    exact ⟨hdouble, hsingle⟩
  unfold stripQuotes
  rw [trim_of_solid h.solid]
  refine if_neg ?_
  rintro ⟨-, ⟨hhead, -⟩ | ⟨hhead, -⟩⟩
  · exact (hquote _ hhead).1 rfl
  · exact (hquote _ hhead).2 rfl

/-- The digits of a number are a word. -/
theorem word_decimal (n : Nat) : Word (decimal n) :=
  ⟨decimal_ne_nil n, List.all_eq_true.mpr fun b hb => by
    simp [isWordByte, isDigit_of_mem_decimal hb]⟩

/-! ## Values -/

/-- The number as it is written. -/
def intText (n : Int) : Str := if n < 0 then 45 :: decimal n.natAbs else decimal n.natAbs

/-- An integer with its sign is a word. -/
theorem word_intText (n : Int) : Word (intText n) := by
  unfold intText
  split
  · refine ⟨by simp, List.all_eq_true.mpr fun b hb => ?_⟩
    rcases List.mem_cons.mp hb with rfl | hb
    · decide
    · exact (word_decimal _).byte hb
  · exact word_decimal _

/-- A number that an `int` holds is read back. -/
theorem parseInt_intText {n : Int} (hlow : -2 ^ 31 ≤ n) (hhigh : n < 2 ^ 31) (fallback : Int) :
    parseInt (intText n) fallback = n := by
  have hdigits : (decimal n.natAbs).all isDigit = true :=
    List.all_eq_true.mpr fun b hb => isDigit_of_mem_decimal hb
  unfold parseInt
  rw [trim_of_solid (word_intText n).solid]
  by_cases hneg : n < 0
  · have hvalue : -(digitsValue (decimal n.natAbs) : Int) = n := by
      rw [digitsValue_decimal]
      omega
    have htext : intText n = 45 :: decimal n.natAbs := if_pos hneg
    simp only [htext, List.head?_cons, if_true, List.drop_succ_cons, List.drop_zero, hvalue]
    exact if_pos ⟨decimal_ne_nil _, hdigits, hlow, hhigh⟩
  · have hvalue : (digitsValue (decimal n.natAbs) : Int) = n := by
      rw [digitsValue_decimal]
      omega
    have htext : intText n = decimal n.natAbs := if_neg hneg
    have hhead : (decimal n.natAbs).head? ≠ some 45 := fun h =>
      absurd (isDigit_of_mem_decimal (List.mem_of_head? h)) (by decide)
    simp only [htext, if_neg hhead, hvalue]
    exact if_pos ⟨decimal_ne_nil _, hdigits, hlow, hhigh⟩

/-- A size is read back from its digits. -/
theorem parseUint64_decimal (n fallback : UInt64) : parseUint64 (decimal n.toNat) fallback = n := by
  have hdigits : (decimal n.toNat).all isDigit = true :=
    List.all_eq_true.mpr fun b hb => isDigit_of_mem_decimal hb
  unfold parseUint64
  rw [trim_of_solid (word_decimal _).solid]
  simp only [digitsValue_decimal]
  rw [if_pos ⟨decimal_ne_nil _, hdigits, n.toNat_lt⟩, UInt64.ofNat_toNat]

/-- A value of the file. -/
inductive Value where
  | text (v : Str)
  | flag (on : Bool)
  | int (n : Int)
  | size (n : UInt64)

namespace Value

/-- The value as it is written. -/
def render : Value → Str
  | text v => 34 :: v ++ [34]
  | flag on => if on then str "true" else str "false"
  | int n => intText n
  | size n => decimal n.toNat

/-- A text holds no double quote and no line break, and a number is an `int`. -/
def Writable : Value → Prop
  | text v => 34 ∉ v ∧ 10 ∉ v
  | int n => -2 ^ 31 ≤ n ∧ n < 2 ^ 31
  | _ => True

instance : (v : Value) → Decidable v.Writable
  | text _ | int _ => inferInstanceAs (Decidable (_ ∧ _))
  | flag _ | size _ => inferInstanceAs (Decidable True)

/-- A switch is written as a word. -/
theorem word_flag (on : Bool) : Word (flag on).render := by
  cases on <;> decide +kernel

/-- A quoted text neither starts nor ends with white space. -/
theorem solid_text (v : Str) : Solid (text v).render := by
  refine ⟨⟨34, rfl, by decide⟩, 34, ?_, by decide⟩
  rw [render, List.getLast?_append]
  rfl

/-- A value is a plain and solid text without line breaks. -/
theorem render_spec {v : Value} (h : v.Writable) :
    Plain v.render ∧ Solid v.render ∧ 10 ∉ v.render := by
  have hword : ∀ {w : Str}, Word w → Plain w ∧ Solid w ∧ 10 ∉ w := fun hw =>
    ⟨hw.plain, hw.solid, hw.no_break⟩
  cases v with
  | text v =>
      refine ⟨plain_quoted h.1, solid_text v, ?_⟩
      simp [render, h.2]
  | flag on => exact hword (word_flag on)
  | int n => exact hword (word_intText n)
  | size n => exact hword (word_decimal _)

end Value

/-- The text that `applyValue` works on. -/
def readValue (raw : Str) : Str := stripQuotes (stripInlineComment raw)

/-- A word is its own value. -/
theorem readValue_word {w : Str} (h : Word w) : readValue w = w := by
  rw [readValue, stripInlineComment_of_plain h.plain h.solid, h.stripQuotes_eq]

/-- A quoted text is read back. -/
theorem readValue_quoted {v : Str} (h : 34 ∉ v) : readValue (34 :: v ++ [34]) = v := by
  have hsolid : Solid (34 :: v ++ [34]) := Value.solid_text v
  rw [readValue, stripInlineComment_of_plain (plain_quoted h) hsolid]
  unfold stripQuotes
  rw [trim_of_solid hsolid]
  have hlast : (34 :: v ++ [34]).getLast? = some (34 : UInt8) := by
    rw [List.getLast?_append]
    rfl
  rw [if_pos ⟨by simp, Or.inl ⟨rfl, hlast⟩⟩]
  simp

/-- A quoted text is read as what stands between the quotes. -/
theorem readValue_text {v : Str} (h : (Value.text v).Writable) :
    readValue (Value.text v).render = v := readValue_quoted h.1

/-- A switch is read back. -/
theorem readValue_flag (on fallback : Bool) :
    parseBool (readValue (Value.flag on).render) fallback = on := by
  rw [readValue_word (Value.word_flag on)]
  cases on <;> rfl

/-- An integer of 32 bits is read back. -/
theorem readValue_int {n : Int} (h : (Value.int n).Writable) (fallback : Int) :
    parseInt (readValue (Value.int n).render) fallback = n := by
  rw [Value.render, readValue_word (word_intText n), parseInt_intText h.1 h.2]

/-- A size is read back. -/
theorem readValue_size (n fallback : UInt64) :
    parseUint64 (readValue (Value.size n).render) fallback = n := by
  rw [Value.render, readValue_word (word_decimal _), parseUint64_decimal]

end Netmon
