import Netmon.DecimalText
import Netmon.JsonReader

/-!
# Reading JSON values

A reader of whole JSON documents: words, numbers, strings, arrays and objects, with white
space between the tokens.  `Writes text v` says that a text written without white space is
read as the value `v` wherever it stands; there is one rule for each kind of value, so that
a writer that puts texts together piece by piece is read back by putting the rules together.
-/

namespace JsonValue

open JsonReader

/-- A JSON value. -/
inductive Value where
  | null
  | bool (b : Bool)
  | number (q : ℚ)
  | string (text : List UInt8)
  | array (items : List Value)
  | object (members : List (List UInt8 × Value))

/-! ## The reader -/

/-- A fixed word at the front of a text. -/
def readWord (word : List UInt8) (v : Value) (text : List UInt8) : Option (Value × List UInt8) :=
  if word.isPrefixOf text then some (v, text.drop word.length) else none

/-- A name and its value, with white space around them. -/
def readNamed (read : List UInt8 → Option (Value × List UInt8)) (text : List UInt8) :
    Option ((List UInt8 × Value) × List UInt8) :=
  (readString (skipBlanks text)).bind fun name =>
    (readToken 58 (skipBlanks name.2)).bind fun text =>
      (read text).map fun value => ((name.1, value.1), skipBlanks value.2)

/-- An item of an array, with white space around it. -/
def readItem (read : List UInt8 → Option (Value × List UInt8)) (text : List UInt8) :
    Option (Value × List UInt8) :=
  (read text).map fun value => (value.1, skipBlanks value.2)

/-- What stands between a bracket and its counterpart. -/
def readBetween {α : Type} (read : List UInt8 → Option (α × List UInt8)) (close : UInt8)
    (text : List UInt8) : Option (List α × List UInt8) :=
  let rest := skipBlanks text
  if rest.head? = some close then some ([], rest.drop 1)
  else DelimitedItems.readItems read 44 close rest

/-- The value at the front of a text, nested at most so deep, and what follows it. -/
def readValue : Nat → List UInt8 → Option (Value × List UInt8)
  | 0, _ => none
  | depth + 1, text =>
      match skipBlanks text with
      | [] => none
      | b :: rest =>
          if b = 34 then (readString (b :: rest)).map fun r => (.string r.1, r.2)
          else if b = 91 then
            (readBetween (readItem (readValue depth)) 93 rest).map fun r => (.array r.1, r.2)
          else if b = 123 then
            (readBetween (readNamed (readValue depth)) 125 rest).map fun r => (.object r.1, r.2)
          else if b = 116 then readWord [116, 114, 117, 101] (.bool true) (b :: rest)
          else if b = 102 then readWord [102, 97, 108, 115, 101] (.bool false) (b :: rest)
          else if b = 110 then readWord [110, 117, 108, 108] .null (b :: rest)
          else (DecimalText.readNumeral (b :: rest)).map fun r => (.number r.1.value, r.2)

/-- A text that is one value.  No value is nested deeper than its text is long. -/
def readDocument (text : List UInt8) : Option Value :=
  match readValue text.length text with
  | some (v, rest) => if skipBlanks rest = [] then some v else none
  | none => none

/-! ## Texts without white space -/

/-- The end of the document, or the token that ends an item. -/
def Ends (more : List UInt8) : Prop := ∀ b ∈ more.head?, b = 44 ∨ b = 93 ∨ b = 125

/-- A numeral stops where a value ends. -/
theorem Ends.stops {more : List UInt8} (h : Ends more) : DecimalText.Stops more := by
  intro b hb
  rcases h b hb with rfl | rfl | rfl <;> decide

/-- There are no blanks to skip where a value ends. -/
theorem Ends.skipBlanks {more : List UInt8} (h : Ends more) : skipBlanks more = more := by
  cases more with
  | nil => rfl
  | cons b more =>
      refine skipBlanks_cons ?_ more
      rcases h b rfl with rfl | rfl | rfl <;> decide

/-- A comma or a closing bracket ends a value. -/
theorem ends_cons {b : UInt8} (hb : b = 44 ∨ b = 93 ∨ b = 125) (more : List UInt8) :
    Ends (b :: more) := by
  intro c hc
  obtain rfl : b = c := by simpa using hc
  exact hb

/-- The text is read as the value, wherever it stands. -/
structure Writes (text : List UInt8) (v : Value) : Prop where
  starts : ∃ b rest, text = b :: rest ∧ isBlank b = false ∧ b ≠ 93
  reads : ∀ depth, text.length ≤ depth → ∀ more, Ends more →
    readValue depth (text ++ more) = some (v, more)

/-- **A text that writes a value is a document.** -/
theorem Writes.document {text : List UInt8} {v : Value} (h : Writes text v) :
    readDocument text = some v := by
  have hread := h.reads text.length (Nat.le_refl _) [] (by simp [Ends])
  rw [List.append_nil] at hread
  rw [readDocument, hread]
  rfl

/-- The first byte decides what is read. -/
theorem writes_of_first {b : UInt8} {rest : List UInt8} {v : Value}
    (hblank : isBlank b = false) (hb : b ≠ 93)
    (h : ∀ depth, rest.length ≤ depth → ∀ more, Ends more →
      readValue (depth + 1) (b :: (rest ++ more)) = some (v, more)) : Writes (b :: rest) v := by
  refine ⟨⟨b, rest, rfl, hblank, hb⟩, fun depth hdepth more hmore => ?_⟩
  cases depth with
  | zero => exact absurd hdepth (by simp)
  | succ depth => exact h depth (by simpa using hdepth) more hmore

/-- The first byte decides what kind of value is read. -/
theorem readValue_cons {b : UInt8} (hblank : isBlank b = false) (depth : Nat) (rest : List UInt8) :
    readValue (depth + 1) (b :: rest) =
      if b = 34 then (readString (b :: rest)).map fun r => (.string r.1, r.2)
      else if b = 91 then
        (readBetween (readItem (readValue depth)) 93 rest).map fun r => (.array r.1, r.2)
      else if b = 123 then
        (readBetween (readNamed (readValue depth)) 125 rest).map fun r => (.object r.1, r.2)
      else if b = 116 then readWord [116, 114, 117, 101] (.bool true) (b :: rest)
      else if b = 102 then readWord [102, 97, 108, 115, 101] (.bool false) (b :: rest)
      else if b = 110 then readWord [110, 117, 108, 108] .null (b :: rest)
      else (DecimalText.readNumeral (b :: rest)).map fun r => (.number r.1.value, r.2) := by
  rw [readValue, skipBlanks_cons hblank]

/-- The two words write truth values. -/
theorem writes_bool (b : Bool) :
    Writes (if b then [116, 114, 117, 101] else [102, 97, 108, 115, 101]) (.bool b) := by
  cases b <;>
  · refine writes_of_first (by decide) (by decide) fun depth _ more _ => ?_
    rw [readValue_cons (by decide)]
    simp [readWord]

/-- A string begins with a quote. -/
theorem head_of_readString {text : List UInt8} {r : List UInt8 × List UInt8}
    (h : readString text = some r) : ∃ rest, text = 34 :: rest := by
  cases text with
  | nil => cases h
  | cons b rest =>
      by_cases hb : b = 34
      · exact ⟨rest, by rw [hb]⟩
      · rw [readString, if_neg hb] at h
        cases h

/-- A text that is read as a string, whatever follows, writes it. -/
theorem writes_string {quoted s : List UInt8}
    (h : ∀ more, readString (quoted ++ more) = some (s, more)) : Writes quoted (.string s) := by
  obtain ⟨rest, hrest⟩ := head_of_readString (h [])
  rw [List.append_nil] at hrest
  subst hrest
  refine writes_of_first (by decide) (by decide) fun depth _ more _ => ?_
  rw [readValue_cons (by decide), if_pos rfl]
  exact congrArg (Option.map _) (h more)

/-- A numeral begins with a sign or a digit. -/
theorem numeral_first {n : DecimalText.Numeral} (h : n.WellFormed) :
    ∃ b rest, n.text = b :: rest ∧ (b = 45 ∨ DecimalText.isDigit b = true) := by
  obtain ⟨first, others, hwhole⟩ := List.exists_cons_of_ne_nil h.whole_ne_nil
  have hdigit := h.whole first (hwhole ▸ List.mem_cons_self)
  unfold DecimalText.Numeral.text
  rw [hwhole]
  cases n.negative with
  | true => exact ⟨45, _, rfl, Or.inl rfl⟩
  | false => exact ⟨first, _, rfl, Or.inr hdigit⟩

/-- A well-formed numeral writes its number. -/
theorem writes_numeral {n : DecimalText.Numeral} (h : n.WellFormed) :
    Writes n.text (.number n.value) := by
  obtain ⟨b, rest, htext, hb⟩ := numeral_first h
  have hrange : b.toNat = 45 ∨ 48 ≤ b.toNat ∧ b.toNat ≤ 57 := by
    rcases hb with rfl | hdigit
    · exact Or.inl rfl
    · rw [DecimalText.isDigit, Bool.and_eq_true, decide_eq_true_iff, decide_eq_true_iff,
        UInt8.le_iff_toNat_le, UInt8.le_iff_toNat_le] at hdigit
      exact Or.inr hdigit
  have hne : ∀ c : UInt8, c.toNat < 45 ∨ 57 < c.toNat → b ≠ c := by
    intro c hc heq
    subst heq
    omega
  have hblank : isBlank b = false := by
    simp [isBlank, hne 32 (by decide), hne 9 (by decide), hne 10 (by decide), hne 13 (by decide)]
  rw [htext]
  refine writes_of_first hblank (hne 93 (by decide)) fun depth _ more hmore => ?_
  rw [readValue_cons hblank, if_neg (hne 34 (by decide)), if_neg (hne 91 (by decide)),
    if_neg (hne 123 (by decide)), if_neg (hne 116 (by decide)), if_neg (hne 102 (by decide)),
    if_neg (hne 110 (by decide)), ← List.cons_append, ← htext,
    DecimalText.readNumeral_text h hmore.stops]
  rfl

/-! ## Brackets -/

/-- No item is longer than the list of them. -/
theorem length_le_of_mem_intercalate {texts : List (List UInt8)} {text : List UInt8}
    (h : text ∈ texts) : text.length ≤ ([44].intercalate texts).length := by
  induction texts with
  | nil => cases h
  | cons first texts ih =>
      cases texts with
      | nil =>
          obtain rfl := List.mem_singleton.mp h
          simp
      | cons next texts =>
          rw [List.intercalate_cons_cons, List.length_append, List.length_append]
          rcases List.mem_cons.mp h with rfl | hlater
          · omega
          · have := ih hlater
            omega

/-- Items that are read one by one are read between brackets. -/
theorem readBetween_texts {α : Type} {read : List UInt8 → Option (α × List UInt8)}
    {close : UInt8} (hclose : close = 93 ∨ close = 125) {items : List (List UInt8 × α)}
    (hstarts : ∀ a ∈ items, ∃ b rest, a.1 = b :: rest ∧ isBlank b = false ∧ b ≠ close)
    (hreads : ∀ a ∈ items, DelimitedItems.ReadsAs read 44 close a.1 a.2) (more : List UInt8) :
    readBetween read close ([44].intercalate (items.map Prod.fst) ++ close :: more) =
      some (items.map Prod.snd, more) := by
  have hcomma : (44 : UInt8) ≠ close := by
    rcases hclose with rfl | rfl <;> decide
  have hblank : isBlank close = false := by
    rcases hclose with rfl | rfl <;> decide
  cases items with
  | nil =>
      rw [List.map_nil, List.intercalate_nil, List.nil_append, readBetween, skipBlanks_cons hblank]
      exact if_pos rfl
  | cons item items =>
      obtain ⟨b, rest, hitem, hb, hne⟩ := hstarts item List.mem_cons_self
      have hread := DelimitedItems.readItems_texts hcomma hreads more
      obtain ⟨later, hlater⟩ : ∃ later,
          [44].intercalate ((item :: items).map Prod.fst) ++ close :: more = b :: later := by
        rw [List.map_cons, hitem]
        cases items with
        | nil => exact ⟨_, rfl⟩
        | cons next items => exact ⟨_, by rw [List.map_cons, List.intercalate_cons_cons]; rfl⟩
      rw [hlater] at hread ⊢
      rw [readBetween, skipBlanks_cons hb]
      simp only [List.head?_cons, Option.some.injEq, if_neg hne]
      exact hread

/-- A written value is read as an item of an array. -/
theorem Writes.readsAs_item {text : List UInt8} {v : Value} (h : Writes text v) {depth : Nat}
    (hdepth : text.length ≤ depth) :
    DelimitedItems.ReadsAs (readItem (readValue depth)) 44 93 text v := by
  intro b hb more
  have hends : Ends (b :: more) := ends_cons (by tauto) more
  rw [readItem, h.reads depth hdepth _ hends, Option.map_some, hends.skipBlanks]

/-- Texts and what they stand for, one by one, as pairs. -/
theorem exists_items {α : Type} {r : List UInt8 → α → Prop} {texts : List (List UInt8)}
    {values : List α} (h : List.Forall₂ r texts values) :
    ∃ items : List (List UInt8 × α), texts = items.map Prod.fst ∧ values = items.map Prod.snd ∧
      ∀ a ∈ items, r a.1 a.2 := by
  induction h with
  | nil => exact ⟨[], rfl, rfl, by simp⟩
  | @cons text value _ _ hfirst _ ih =>
      obtain ⟨items, rfl, rfl, hitems⟩ := ih
      exact ⟨(text, value) :: items, rfl, rfl, List.forall_mem_cons.mpr ⟨hfirst, hitems⟩⟩

/-- **Texts of values make the text of an array.** -/
theorem writes_array {texts : List (List UInt8)} {values : List Value}
    (h : List.Forall₂ Writes texts values) :
    Writes ([91] ++ [44].intercalate texts ++ [93]) (.array values) := by
  obtain ⟨items, rfl, rfl, hitems⟩ := exists_items h
  rw [List.append_assoc, List.singleton_append]
  refine writes_of_first (by decide) (by decide) fun depth hdepth more _ => ?_
  rw [readValue_cons (by decide), if_neg (by decide), if_pos rfl, List.append_assoc,
    List.singleton_append]
  have hlength : ∀ a ∈ items, a.1.length ≤ depth := by
    intro a ha
    have hmem := length_le_of_mem_intercalate (List.mem_map_of_mem (f := Prod.fst) ha)
    rw [List.length_append] at hdepth
    omega
  rw [readBetween_texts (Or.inl rfl) (fun a ha => (hitems a ha).starts)
    (fun a ha => (hitems a ha).readsAs_item (hlength a ha)) more]
  rfl

/-- A member of an object: a name that is read as such, a colon and the text of a value. -/
def WritesMember (text : List UInt8) (m : List UInt8 × Value) : Prop :=
  ∃ quoted value, text = quoted ++ 58 :: value ∧
    (∀ more, readString (quoted ++ more) = some (m.1, more)) ∧ Writes value m.2

/-- A member starts with neither a blank nor a closing brace. -/
theorem WritesMember.starts {text : List UInt8} {m : List UInt8 × Value}
    (h : WritesMember text m) : ∃ b rest, text = b :: rest ∧ isBlank b = false ∧ b ≠ 125 := by
  obtain ⟨quoted, value, rfl, hname, -⟩ := h
  obtain ⟨rest, hrest⟩ := head_of_readString (hname [])
  rw [List.append_nil] at hrest
  exact ⟨34, rest ++ 58 :: value, by rw [hrest]; rfl, by decide, by decide⟩

/-- A written member is read as a member of an object. -/
theorem WritesMember.readsAs_named {text : List UInt8} {m : List UInt8 × Value}
    (h : WritesMember text m) {depth : Nat} (hdepth : text.length ≤ depth) :
    DelimitedItems.ReadsAs (readNamed (readValue depth)) 44 125 text m := by
  intro b hb more
  have hends : Ends (b :: more) := ends_cons (by tauto) more
  obtain ⟨quoted, value, rfl, hname, hvalue⟩ := h
  obtain ⟨rest, hrest⟩ := head_of_readString (hname [])
  rw [List.append_nil] at hrest
  obtain ⟨first, others, hfirst, hblank, -⟩ := hvalue.starts
  have hlength : value.length ≤ depth := by
    rw [List.length_append, List.length_cons] at hdepth
    omega
  have hstart : skipBlanks (quoted ++ 58 :: (value ++ b :: more)) =
      quoted ++ 58 :: (value ++ b :: more) := by
    rw [hrest, List.cons_append]
    exact skipBlanks_cons (by decide) _
  have hcolon : readToken 58 (skipBlanks (58 :: (value ++ b :: more))) =
      some (value ++ b :: more) := by
    rw [skipBlanks_cons (by decide), hfirst, List.cons_append]
    exact readToken_self hblank _
  rw [List.append_assoc, List.cons_append, readNamed, hstart, hname, Option.bind_some, hcolon,
    Option.bind_some, hvalue.reads depth hlength _ hends, Option.map_some, hends.skipBlanks]

/-- **Texts of members make the text of an object.** -/
theorem writes_object {texts : List (List UInt8)} {members : List (List UInt8 × Value)}
    (h : List.Forall₂ WritesMember texts members) :
    Writes ([123] ++ [44].intercalate texts ++ [125]) (.object members) := by
  obtain ⟨items, rfl, rfl, hitems⟩ := exists_items h
  rw [List.append_assoc, List.singleton_append]
  refine writes_of_first (by decide) (by decide) fun depth hdepth more _ => ?_
  rw [readValue_cons (by decide), if_neg (by decide), if_neg (by decide), if_pos rfl,
    List.append_assoc, List.singleton_append]
  have hlength : ∀ a ∈ items, a.1.length ≤ depth := by
    intro a ha
    have hmem := length_le_of_mem_intercalate (List.mem_map_of_mem (f := Prod.fst) ha)
    rw [List.length_append] at hdepth
    omega
  rw [readBetween_texts (Or.inr rfl) (fun a ha => (hitems a ha).starts)
    (fun a ha => (hitems a ha).readsAs_named (hlength a ha)) more]
  rfl

end JsonValue
