import Netmon.FiniteMap
import Netmon.HaltingLoops
import Netmon.LogParser
import Netmon.Substrings

/-!
# The grammar of key-value fields

`parseKeyValueFields` is a loop over the rest of the text.  `fieldsRound` is one
round of it, `none` when the loop is left; each round takes at least one byte, so
that the loop halts on every text, and `parseKeyValueFields` returns the fields it
halts with.

`FieldText` is the grammar: items separated by white space, then the end of the text,
a quoted value that is never closed, or a `csv` field that takes the rest.  One round
reads one item, whatever follows it, and by induction over the grammar the loop
stores the pairs of the text in order (`parseKeyValueFields_text`).
-/

namespace Netmon

/-! ## The loop -/

/-- One round of the reading loop: the rest of the text and the fields after it.  A
`csv` field leaves nothing to read. -/
def fieldsRound (s : Str × StrMap Str) : Option (Str × StrMap Str) :=
  let text := s.1.dropWhile isSpace
  if text = [] then none
  else
    let key := text.takeWhile isKeyByte
    match text.dropWhile isKeyByte with
    | 61 :: rest =>
        if key = str "csv" then some ([], s.2.insert key (trim rest))
        else some ((takeValue rest).2, s.2.insert key (takeValue rest).1)
    | rest => some (rest.dropWhile (!isSpace ·), s.2)

/-- Every round takes at least one byte. -/
theorem fieldsRound_length {s t : Str × StrMap Str} (h : fieldsRound s = some t) :
    t.1.length < s.1.length := by
  have hdrop := length_dropWhile_le isSpace s.1
  unfold fieldsRound at h
  by_cases hne : s.1.dropWhile isSpace = []
  · simp [hne] at h
  · simp only [if_neg hne] at h
    split at h
    · rename_i rest hrest
      have hvalue := takeValue_length rest
      have hkey := length_dropWhile_le isKeyByte (s.1.dropWhile isSpace)
      rw [hrest, List.length_cons] at hkey
      split at h
      · cases h
        rw [List.length_nil]
        omega
      · cases h
        change (takeValue rest).2.length < _
        omega
    · rename_i hword
      have hshort := length_after_word (List.dropWhile_idempotent ..) hne hword
      have hlast := length_dropWhile_le (!isSpace ·)
        ((s.1.dropWhile isSpace).dropWhile isKeyByte)
      cases h
      change (((s.1.dropWhile isSpace).dropWhile isKeyByte).dropWhile (!isSpace ·)).length < _
      omega

theorem parseFieldsLoop_nil (fuel : Nat) (fields : StrMap Str) :
    parseFieldsLoop fuel [] fields = fields := by
  cases fuel <;> rfl

/-- A round of the model's loop is this one. -/
theorem parseFieldsLoop_succ (fuel : Nat) (text : Str) (fields : StrMap Str) :
    parseFieldsLoop (fuel + 1) text fields =
      (fieldsRound (text, fields)).elim fields fun t => parseFieldsLoop fuel t.1 t.2 := by
  by_cases hne : text.dropWhile isSpace = []
  · simp only [parseFieldsLoop, fieldsRound, hne, if_true, Option.elim_none]
  · by_cases hpair : ∃ rest, (text.dropWhile isSpace).dropWhile isKeyByte = 61 :: rest
    · obtain ⟨rest, hrest⟩ := hpair
      simp only [parseFieldsLoop, fieldsRound, if_neg hne, hrest]
      by_cases hcsv : (text.dropWhile isSpace).takeWhile isKeyByte = str "csv"
      · rw [if_pos hcsv, if_pos hcsv, Option.elim_some, parseFieldsLoop_nil]
      · rw [if_neg hcsv, if_neg hcsv, Option.elim_some]
    · have hround : fieldsRound (text, fields) =
          some (((text.dropWhile isSpace).dropWhile isKeyByte).dropWhile (!isSpace ·), fields) := by
        simp only [fieldsRound, if_neg hne]
        split
        · rename_i rest hrest
          exact absurd ⟨rest, hrest⟩ hpair
        · rfl
      rw [hround, Option.elim_some]
      simp only [parseFieldsLoop, if_neg hne]
      split
      · rename_i rest hrest
        exact absurd ⟨rest, hrest⟩ hpair
      · rfl

/-- The loop repeats its round until the round gives up. -/
theorem parseFieldsLoop_eq_iterate (fuel : Nat) (text : Str) (fields : StrMap Str) :
    parseFieldsLoop fuel text fields =
      (HaltingLoops.iterate fieldsRound fuel (text, fields)).2 := by
  induction fuel generalizing text fields with
  | zero => rfl
  | succ fuel ih =>
      rw [parseFieldsLoop_succ, HaltingLoops.iterate]
      cases fieldsRound (text, fields) with
      | none => rfl
      | some t => exact ih t.1 t.2

/-- **The reader halts on every text**, and returns the fields it halts with. -/
theorem halts_parseKeyValueFields (value : Str) :
    ∃ rest, HaltingLoops.Halts fieldsRound (value, ∅) (rest, parseKeyValueFields value) := by
  have hhalts : HaltingLoops.Halts fieldsRound (value, ∅)
      (HaltingLoops.iterate fieldsRound (value.length + 1) (value, ∅)) :=
    HaltingLoops.halts_iterate (fun s => s.1.length) fieldsRound_length
      (Nat.lt_succ_self _)
  rw [parseKeyValueFields, parseFieldsLoop_eq_iterate]
  exact ⟨_, hhalts⟩

/-! ## The grammar -/

/-- A run of white space, possibly empty. -/
structure BlankText where
  text : Str
  blank : ∀ b ∈ text, isSpace b = true

/-- A key other than `csv`, possibly empty. -/
structure FieldKey where
  text : Str
  keyBytes : ∀ b ∈ text, isKeyByte b = true
  ne_csv : text ≠ str "csv"

/-- A text between quotes of one kind that does not hold them. -/
structure QuotedText where
  quote : UInt8
  content : Str
  isQuote : quote = 34 ∨ quote = 39
  quote_notMem : quote ∉ content

/-- A part of a field text: a word without a value, or a key with a value. -/
inductive FieldItem where
  | word (text : Str) (ne_nil : text ≠ []) (keyBytes : ∀ b ∈ text, isKeyByte b = true)
  | plain (key : FieldKey) (value : Str) (solid : ∀ b ∈ value, isSpace b = false)
      (unquoted : ∀ b ∈ value.head?, b ≠ 34 ∧ b ≠ 39)
  | quoted (key : FieldKey) (value : QuotedText)

/-- Items with white space between them, up to the end of the text. -/
inductive FieldText where
  | done
  | last (item : FieldItem)
  | unclosed (key : FieldKey) (value : QuotedText)
  | csv (rest : Str)
  | more (item : FieldItem) (gap : BlankText) (ne_nil : gap.text ≠ []) (rest : FieldText)

/-- The item as it is written. -/
def FieldItem.text : FieldItem → Str
  | .word text _ _ => text
  | .plain key value _ _ => key.text ++ 61 :: value
  | .quoted key value => key.text ++ 61 :: value.quote :: (value.content ++ [value.quote])

/-- The fields that an item gives. -/
def FieldItem.pairs : FieldItem → List (Str × Str)
  | .word _ _ _ => []
  | .plain key value _ _ => [(key.text, value)]
  | .quoted key value => [(key.text, value.content)]

/-- The whole text as it is written. -/
def FieldText.text : FieldText → Str
  | .done => []
  | .last item => item.text
  | .unclosed key value => key.text ++ 61 :: value.quote :: value.content
  | .csv rest => str "csv" ++ 61 :: rest
  | .more item gap _ rest => item.text ++ (gap.text ++ rest.text)

/-- The pairs of a text in order, the rest after `csv=` among them. -/
def FieldText.pairs : FieldText → List (Str × Str)
  | .done => []
  | .last item => item.pairs
  | .unclosed key value => [(key.text, value.content)]
  | .csv rest => [(str "csv", trim rest)]
  | .more item _ _ rest => item.pairs ++ rest.pairs

/-! ## One round -/

/-- A key has no white space. -/
theorem isSpace_of_isKeyByte {b : UInt8} (h : isKeyByte b = true) : isSpace b = false := by
  simp only [isKeyByte, Bool.and_eq_true, Bool.not_eq_true'] at h
  exact h.2

/-- A key and its equals sign after a gap, whatever follows. -/
theorem fieldsRound_key (gap : BlankText) (key : Str) (hkey : ∀ b ∈ key, isKeyByte b = true)
    (rest : Str) (fields : StrMap Str) :
    fieldsRound (gap.text ++ (key ++ 61 :: rest), fields) =
      if key = str "csv" then some ([], fields.insert key (trim rest))
      else some ((takeValue rest).2, fields.insert key (takeValue rest).1) := by
  have hstart : (key ++ 61 :: rest).dropWhile isSpace = key ++ 61 :: rest := by
    cases key with
    | nil => simp [isSpace]
    | cons b key =>
        have hb := isSpace_of_isKeyByte (hkey b List.mem_cons_self)
        simp [hb]
  obtain ⟨htake, hdrop⟩ := span_append hkey (61 :: rest) (by simp [isKeyByte])
  have hne : key ++ 61 :: rest ≠ [] := by simp
  unfold fieldsRound
  simp only [List.dropWhile_append_of_pos gap.blank, hstart, if_neg hne, htake, hdrop]

/-- A word without an equals sign is skipped. -/
theorem fieldsRound_word (gap : BlankText) {word tail : Str} (hne : word ≠ [])
    (hword : ∀ b ∈ word, isKeyByte b = true) (htail : ∀ b ∈ tail.head?, isSpace b = true)
    (fields : StrMap Str) :
    fieldsRound (gap.text ++ (word ++ tail), fields) = some (tail, fields) := by
  have hstart : (word ++ tail).dropWhile isSpace = word ++ tail := by
    cases word with
    | nil => exact absurd rfl hne
    | cons b word =>
        have hb := isSpace_of_isKeyByte (hword b List.mem_cons_self)
        simp [hb]
  have hnotKey : ∀ b ∈ tail.head?, isKeyByte b = false := by
    intro b hb
    simp [isKeyByte, htail b hb]
  obtain ⟨-, hdrop⟩ := span_append hword tail hnotKey
  have hskip : tail.dropWhile (!isSpace ·) = tail := by
    cases tail with
    | nil => rfl
    | cons b tail => simp [htail b rfl]
  have hnonempty : word ++ tail ≠ [] := by simp [hne]
  unfold fieldsRound
  simp only [List.dropWhile_append_of_pos gap.blank, hstart, if_neg hnonempty, hdrop]
  split
  · -- a tail that starts with an equals sign does not start with a space
    exact absurd (htail 61 rfl) (by decide)
  · rw [hskip]

/-- A value without quotes ends at white space. -/
theorem takeValue_plain {value tail : Str} (hsolid : ∀ b ∈ value, isSpace b = false)
    (hunquoted : ∀ b ∈ value.head?, b ≠ 34 ∧ b ≠ 39)
    (htail : ∀ b ∈ tail.head?, isSpace b = true) : takeValue (value ++ tail) = (value, tail) := by
  obtain ⟨htake, hdrop⟩ := span_append (p := (!isSpace ·)) (w := value)
    (by simpa using hsolid) tail (by simpa using htail)
  have hquote : ∀ b ∈ (value ++ tail).head?, (b = 34 || b = 39) = false := by
    intro b hb
    cases value with
    | nil =>
        have hspace := htail b hb
        have h34 : b ≠ 34 := fun h => absurd (h ▸ hspace) (by decide)
        have h39 : b ≠ 39 := fun h => absurd (h ▸ hspace) (by decide)
        simp [h34, h39]
    | cons c value => simp [hunquoted b hb]
  cases hparts : value ++ tail with
  | nil =>
      obtain ⟨rfl, rfl⟩ := List.append_eq_nil_iff.mp hparts
      rfl
  | cons b rest =>
      rw [hparts] at htake hdrop hquote
      rw [takeValue, hquote b rfl, htake, hdrop]
      simp

/-- The content has no quote of its own kind. -/
theorem QuotedText.content_ne (value : QuotedText) :
    ∀ b ∈ value.content, decide (b ≠ value.quote) = true := by
  intro b hb
  exact decide_eq_true (ne_of_mem_of_not_mem hb value.quote_notMem)

/-- A quoted value ends at its closing quote. -/
theorem QuotedText.takeValue_closed (value : QuotedText) (tail : Str) :
    takeValue (value.quote :: (value.content ++ [value.quote] ++ tail)) =
      (value.content, tail) := by
  obtain ⟨htake, hdrop⟩ := span_append value.content_ne (value.quote :: tail) (by simp)
  have hquote : (value.quote = 34 || value.quote = 39) = true := by simpa using value.isQuote
  rw [takeValue, if_pos hquote, List.append_assoc, List.singleton_append, htake, hdrop]
  rfl

/-- Without a closing quote it is the rest of the text. -/
theorem QuotedText.takeValue_open (value : QuotedText) :
    takeValue (value.quote :: value.content) = (value.content, []) := by
  have hquote : (value.quote = 34 || value.quote = 39) = true := by simpa using value.isQuote
  rw [takeValue, if_pos hquote, List.takeWhile_eq_self_iff.mpr value.content_ne,
    List.dropWhile_eq_nil_iff.mpr value.content_ne]
  rfl

/-- **One round reads one item**, up to the white space after it. -/
theorem fieldsRound_item (gap : BlankText) (item : FieldItem) (tail : Str)
    (htail : ∀ b ∈ tail.head?, isSpace b = true) (fields : StrMap Str) :
    fieldsRound (gap.text ++ (item.text ++ tail), fields) =
      some (tail, fields.insertAll Prod.fst Prod.snd item.pairs) := by
  cases item with
  | word text ne_nil keyBytes => exact fieldsRound_word gap ne_nil keyBytes htail fields
  | plain key value solid unquoted =>
      rw [FieldItem.text, List.append_assoc, List.cons_append,
        fieldsRound_key gap key.text key.keyBytes, if_neg key.ne_csv,
        takeValue_plain solid unquoted htail]
      rfl
  | quoted key value =>
      rw [FieldItem.text, List.append_assoc, List.cons_append, List.cons_append,
        fieldsRound_key gap key.text key.keyBytes, if_neg key.ne_csv, value.takeValue_closed]
      rfl

/-! ## The whole text -/

/-- White space alone ends the loop. -/
theorem fieldsRound_blank (gap : BlankText) (fields : StrMap Str) :
    fieldsRound (gap.text, fields) = none := by
  unfold fieldsRound
  simp only [List.dropWhile_eq_nil_iff.mpr gap.blank, if_true]

/-- **The loop stores the pairs of a text in order.** -/
theorem halts_text (t : FieldText) (gap : BlankText) (fields : StrMap Str) :
    ∃ rest, HaltingLoops.Halts fieldsRound (gap.text ++ t.text, fields)
      (rest, fields.insertAll Prod.fst Prod.snd t.pairs) := by
  have hend : ∀ fields, HaltingLoops.Halts fieldsRound ([], fields) ([], fields) :=
    fun fields => .leave (fieldsRound_blank ⟨[], List.forall_mem_nil _⟩ fields)
  induction t generalizing gap fields with
  | done =>
      rw [FieldText.text, List.append_nil]
      exact ⟨gap.text, .leave (fieldsRound_blank gap fields)⟩
  | last item =>
      have hround := fieldsRound_item gap item [] (by simp) fields
      rw [List.append_nil] at hround
      exact ⟨[], .round hround (hend _)⟩
  | unclosed key value =>
      have hround := fieldsRound_key gap key.text key.keyBytes (value.quote :: value.content) fields
      rw [if_neg key.ne_csv, value.takeValue_open] at hround
      exact ⟨[], .round hround (hend _)⟩
  | csv rest =>
      have hround := fieldsRound_key gap (str "csv") (by decide +kernel) rest fields
      rw [if_pos rfl] at hround
      exact ⟨[], .round hround (hend _)⟩
  | more item between ne_nil rest ih =>
      have htail : ∀ b ∈ (between.text ++ rest.text).head?, isSpace b = true := by
        intro b hb
        rw [List.head?_append_of_ne_nil _ ne_nil] at hb
        exact between.blank b (List.mem_of_mem_head? hb)
      have hround := fieldsRound_item gap item _ htail fields
      obtain ⟨left, hleft⟩ := ih between (fields.insertAll Prod.fst Prod.snd item.pairs)
      refine ⟨left, .round hround ?_⟩
      simpa only [FieldText.pairs, AList.insertAll, List.foldl_append] using hleft

/-- The fields of a text of the grammar are its pairs, stored in order. -/
theorem parseKeyValueFields_text (t : FieldText) (gap : BlankText) :
    parseKeyValueFields (gap.text ++ t.text) =
      (∅ : StrMap Str).insertAll Prod.fst Prod.snd t.pairs := by
  obtain ⟨rest, hrest⟩ := halts_parseKeyValueFields (gap.text ++ t.text)
  obtain ⟨left, hleft⟩ := halts_text t gap ∅
  exact congrArg Prod.snd (hrest.unique hleft)

/-! ## Lines of plain pairs -/

/-- A pair that is sent without quotes. -/
structure PlainPair (pair : Str × Str) : Prop where
  keyBytes : ∀ b ∈ pair.1, isKeyByte b = true
  ne_csv : pair.1 ≠ str "csv"
  solid : ∀ b ∈ pair.2, isSpace b = false
  unquoted : ∀ b ∈ pair.2.head?, b ≠ 34 ∧ b ≠ 39

/-- A field without quotes. -/
def pairText (pair : Str × Str) : Str := pair.1 ++ 61 :: pair.2

/-- Plain pairs before a text of the grammar, each with one space after it, are a text
of the grammar. -/
theorem exists_fieldText {pairs : List (Str × Str)} (h : ∀ pair ∈ pairs, PlainPair pair)
    (tail : FieldText) :
    ∃ t : FieldText, t.text = [32].intercalate (pairs.map pairText ++ [tail.text]) ∧
      t.pairs = pairs ++ tail.pairs := by
  induction pairs with
  | nil => exact ⟨tail, by simp, rfl⟩
  | cons pair pairs ih =>
      obtain ⟨t, htext, hpairs⟩ := ih fun other hother => h other (List.mem_cons_of_mem _ hother)
      have hpair := h pair List.mem_cons_self
      refine ⟨.more (.plain ⟨pair.1, hpair.keyBytes, hpair.ne_csv⟩ pair.2 hpair.solid
        hpair.unquoted) ⟨[32], by simp [isSpace]⟩ (by simp) t, ?_, by simp [FieldText.pairs,
        FieldItem.pairs, hpairs]⟩
      obtain ⟨next, others, hnext⟩ := List.exists_cons_of_ne_nil
        (show pairs.map pairText ++ [tail.text] ≠ [] by simp)
      rw [List.map_cons, List.cons_append, hnext, List.intercalate_cons_cons, ← hnext, ← htext]
      simp [FieldText.text, FieldItem.text, pairText]

/-- A line of plain pairs has no white space at its ends. -/
theorem pairText_solid {pairs : List (Str × Str)} (h : ∀ pair ∈ pairs, PlainPair pair)
    (hne : pairs ≠ []) :
    [32].intercalate (pairs.map pairText) ≠ [] ∧
      (∀ b ∈ ([32].intercalate (pairs.map pairText)).head?, isSpace b = false) ∧
      ∀ b ∈ ([32].intercalate (pairs.map pairText)).getLast?, isSpace b = false := by
  refine ⟨?_, ?_, ?_⟩
  · obtain ⟨pair, pairs, rfl⟩ := List.exists_cons_of_ne_nil hne
    obtain ⟨rest, hrest⟩ := Substrings.exists_append_intercalate 32 (pairText pair)
      (pairs.map pairText)
    rw [List.map_cons, hrest]
    simp [pairText]
  · obtain ⟨pair, pairs, rfl⟩ := List.exists_cons_of_ne_nil hne
    obtain ⟨rest, hrest⟩ := Substrings.exists_append_intercalate 32 (pairText pair)
      (pairs.map pairText)
    intro b hb
    rw [List.map_cons, hrest, pairText, List.append_assoc, List.cons_append] at hb
    cases hkey : pair.1 with
    | nil =>
        rw [hkey] at hb
        cases hb
        rfl
    | cons c key =>
        rw [hkey] at hb
        obtain rfl : c = b := Option.some.inj hb
        exact isSpace_of_isKeyByte
          ((h pair List.mem_cons_self).keyBytes c (hkey ▸ List.mem_cons_self))
  · rcases List.eq_nil_or_concat pairs with rfl | ⟨init, pair, rfl⟩
    · exact absurd rfl hne
    · rw [List.concat_eq_append] at h ⊢
      obtain ⟨before, hbefore⟩ := Substrings.exists_intercalate_append 32 (init.map pairText)
        (pairText pair)
      intro b hb
      rw [List.map_append, List.map_singleton, hbefore, pairText,
        List.getLast?_append_of_ne_nil _ (by simp), List.getLast?_append_of_ne_nil _ (by simp)]
        at hb
      rcases List.mem_cons.mp (List.mem_of_mem_getLast? hb) with rfl | hvalue
      · rfl
      · exact (h pair (by simp)).solid b hvalue

/-- **A line of plain pairs is read back.** -/
theorem parseKeyValueFields_pairs {pairs : List (Str × Str)}
    (h : ∀ pair ∈ pairs, PlainPair pair) :
    parseKeyValueFields ([32].intercalate (pairs.map pairText)) =
      (∅ : StrMap Str).insertAll Prod.fst Prod.snd pairs := by
  rcases List.eq_nil_or_concat pairs with rfl | ⟨init, pair, rfl⟩
  · rfl
  · rw [List.concat_eq_append] at h ⊢
    have hpair := h pair (by simp)
    obtain ⟨t, htext, hpairs⟩ := exists_fieldText
      (fun other hother => h other (List.mem_append_left _ hother))
      (.last (.plain ⟨pair.1, hpair.keyBytes, hpair.ne_csv⟩ pair.2 hpair.solid hpair.unquoted))
    have hread := parseKeyValueFields_text t ⟨[], List.forall_mem_nil _⟩
    rw [htext, hpairs] at hread
    rw [List.map_append]
    exact hread

/-- Each key of the line holds its value, when no key is sent twice. -/
theorem lookup_parseKeyValueFields_pairs {pairs : List (Str × Str)}
    (h : ∀ pair ∈ pairs, PlainPair pair) (hnodup : (pairs.map Prod.fst).Nodup) :
    ∀ pair ∈ pairs,
      (parseKeyValueFields ([32].intercalate (pairs.map pairText))).lookup pair.1 =
        some pair.2 := by
  intro pair hpair
  rw [parseKeyValueFields_pairs h]
  exact AList.lookup_insertAll_of_mem hnodup hpair

/-- A word without a space or an equals sign occurs in a line of pairs only inside a key
or a value. -/
theorem infix_pairs_iff {word : Str} (hspace : 32 ∉ word) (hequals : 61 ∉ word) (hne : word ≠ [])
    (pairs : List (Str × Str)) :
    word <:+: [32].intercalate (pairs.map pairText) ↔
      ∃ pair ∈ pairs, word <:+: pair.1 ∨ word <:+: pair.2 := by
  rw [Substrings.infix_intercalate hspace hne]
  simp only [List.mem_map, exists_exists_and_eq_and, pairText,
    Substrings.infix_append_cons hequals]

/-- A line of plain pairs with a `csv` field at its end. -/
theorem parseKeyValueFields_csv {pairs : List (Str × Str)}
    (h : ∀ pair ∈ pairs, PlainPair pair) (row : Str) :
    parseKeyValueFields ([32].intercalate (pairs.map pairText ++ [str "csv" ++ 61 :: row])) =
      (∅ : StrMap Str).insertAll Prod.fst Prod.snd (pairs ++ [(str "csv", trim row)]) := by
  obtain ⟨t, htext, hpairs⟩ := exists_fieldText h (.csv row)
  have hread := parseKeyValueFields_text t ⟨[], List.forall_mem_nil _⟩
  rw [htext, hpairs] at hread
  exact hread

/-! ## The result -/

/-- The value of the last pair of a key. -/
def FieldText.lastValue (t : FieldText) (key : Str) : Option Str :=
  ((t.pairs.filter fun pair => pair.1 = key).getLast?).map Prod.snd

/-- **The grammar of key-value fields.**  The reader halts on every text.  On a text
of the grammar, after any white space, it knows exactly the keys of the pairs, each
with the value of its last occurrence. -/
theorem key_value_grammar :
    (∀ value, ∃ rest,
      HaltingLoops.Halts fieldsRound (value, ∅) (rest, parseKeyValueFields value)) ∧
    ∀ (gap : BlankText) (t : FieldText) (key : Str),
      (key ∈ parseKeyValueFields (gap.text ++ t.text) ↔ key ∈ t.pairs.map Prod.fst) ∧
      (parseKeyValueFields (gap.text ++ t.text)).lookup key = t.lastValue key := by
  refine ⟨halts_parseKeyValueFields, fun gap t key => ?_⟩
  rw [parseKeyValueFields_text t gap]
  constructor
  · rw [AList.mem_insertAll]
    simp
  · rw [AList.lookup_insertAll, AList.lookup_empty, Option.or_none]
    rfl

end Netmon
