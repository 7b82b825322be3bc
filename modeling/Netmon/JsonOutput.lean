import Netmon.JsonReader
import Netmon.Reports

/-!
# The JSON texts are read back

Every byte that `jsonEscape` writes is scanned as the one piece that stands for
it, so that a quoted text ends at its own closing quote whatever it contains and
whatever follows.  An object of fields lists the sorted keys of the map with
their values; reading it gives the entries back, and two maps have the same text
exactly when they have the same entries.
-/

namespace Netmon

/-! ## Strings -/

/-- How a byte is written: as a code unit if it is a control byte without a letter
of its own, and otherwise as itself or with its letter. -/
def jsonPiece (b : UInt8) : JsonReader.Piece :=
  if b < 32 ∧ b ∉ [8, 9, 10, 12, 13] then .unit b.toNat else .byte b

theorem jsonPiece_standsFor (b : UInt8) : (jsonPiece b).StandsFor b := by
  unfold jsonPiece JsonReader.Piece.StandsFor
  by_cases hunit : b < 32 ∧ b ∉ [8, 9, 10, 12, 13]
  · have hsmall : b.toNat < 32 := UInt8.lt_iff_toNat_lt.mp hunit.1
    rw [if_pos hunit]
    exact Or.inr ⟨rfl, by omega⟩
  · rw [if_neg hunit]
    exact Or.inl rfl

theorem hexValue_hexDigit : ∀ n : Fin 16, JsonReader.hexValue (hexDigit n.val) = some n.val := by
  decide

/-- The two hexadecimal digits of a control byte spell it. -/
theorem codeUnit_control {b : UInt8} (h : b < 32) :
    JsonReader.codeUnit 48 48 (hexDigit (b.toNat / 16)) (hexDigit (b.toNat % 16)) =
      some b.toNat := by
  have hsmall : b.toNat < 32 := UInt8.lt_iff_toNat_lt.mp h
  have hzero : JsonReader.hexValue 48 = some 0 := by decide
  have hhigh := hexValue_hexDigit ⟨b.toNat / 16, by omega⟩
  have hlow := hexValue_hexDigit ⟨b.toNat % 16, by omega⟩
  simp only at hhigh hlow
  simp only [JsonReader.codeUnit, hzero, hhigh, hlow, Option.bind_some, Option.map_some,
    Option.some.injEq]
  omega

/-- **The escape of a byte is scanned as its piece**, whatever follows. -/
theorem readPieces_jsonEscapeByte (b : UInt8) (more : Str) :
    JsonReader.readPieces (jsonEscapeByte b ++ more) =
      (JsonReader.readPieces more).map (JsonReader.addPiece (jsonPiece b)) := by
  unfold jsonEscapeByte
  by_cases h34 : b = 34
  · rw [if_pos h34, h34]
    exact JsonReader.readPieces_short (by decide) more
  rw [if_neg h34]
  by_cases h92 : b = 92
  · rw [if_pos h92, h92]
    exact JsonReader.readPieces_short (by decide) more
  rw [if_neg h92]
  by_cases h8 : b = 8
  · rw [if_pos h8, h8]
    exact JsonReader.readPieces_short (by decide) more
  rw [if_neg h8]
  by_cases h12 : b = 12
  · rw [if_pos h12, h12]
    exact JsonReader.readPieces_short (by decide) more
  rw [if_neg h12]
  by_cases h10 : b = 10
  · rw [if_pos h10, h10]
    exact JsonReader.readPieces_short (by decide) more
  rw [if_neg h10]
  by_cases h13 : b = 13
  · rw [if_pos h13, h13]
    exact JsonReader.readPieces_short (by decide) more
  rw [if_neg h13]
  by_cases h9 : b = 9
  · rw [if_pos h9, h9]
    exact JsonReader.readPieces_short (by decide) more
  rw [if_neg h9]
  by_cases hcontrol : b < 32
  · have hpiece : jsonPiece b = .unit b.toNat := by
      rw [jsonPiece, if_pos]
      simp [hcontrol, h8, h9, h10, h12, h13]
    rw [if_pos hcontrol, hpiece]
    exact JsonReader.readPieces_unit (codeUnit_control hcontrol) more
  · have hpiece : jsonPiece b = .byte b := by
      rw [jsonPiece, if_neg]
      exact fun h => hcontrol h.1
    rw [if_neg hcontrol, hpiece]
    exact JsonReader.readPieces_plain h34 h92 hcontrol more

/-- **A quoted text is read back**, whatever follows it. -/
theorem readString_jsonQuote (s more : Str) :
    JsonReader.readString (jsonQuote s ++ more) = some (s, more) := by
  have hread := JsonReader.readString_flatMap readPieces_jsonEscapeByte jsonPiece_standsFor s more
  have htext : jsonQuote s ++ more = 34 :: (s.flatMap jsonEscapeByte ++ 34 :: more) := by
    simp [jsonQuote, jsonEscape]
  rw [htext, hread]

/-! ## Objects of fields -/

/-- The sorted keys of a map with their values. -/
def sortedFields (fields : StrMap Str) : List (Str × Str) :=
  (fields.keys.insertionSort (· ≤ ·)).map fun key => (key, fields.getD key [])

theorem fieldsJson_eq (fields : StrMap Str) :
    fieldsJson fields = [123] ++
      [44].intercalate ((sortedFields fields).map (JsonReader.writeMember jsonQuote)) ++ [125] := by
  unfold fieldsJson sortedFields
  rw [List.map_map]
  rfl

theorem map_fst_sortedFields (fields : StrMap Str) :
    (sortedFields fields).map Prod.fst = fields.keys.insertionSort (· ≤ ·) := by
  unfold sortedFields
  rw [List.map_map]
  exact List.map_id _

/-- The keys are in strictly ascending order. -/
theorem sortedFields_ascending (fields : StrMap Str) :
    ((sortedFields fields).map Prod.fst).Pairwise (· < ·) := by
  rw [map_fst_sortedFields]
  have hsorted := List.pairwise_insertionSort (· ≤ · : Str → Str → Prop) fields.keys
  have hnodup : (fields.keys.insertionSort (· ≤ ·)).Nodup :=
    (List.perm_insertionSort _ _).nodup_iff.mpr fields.keys_nodup
  exact (hsorted.and hnodup).imp fun h => (List.le_iff_lt_or_eq.mp h.1).resolve_right h.2

/-- The members are exactly the entries of the map. -/
theorem mem_sortedFields {fields : StrMap Str} {key value : Str} :
    (key, value) ∈ sortedFields fields ↔ fields.lookup key = some value := by
  unfold sortedFields
  simp only [List.mem_map, List.mem_insertionSort, Prod.mk.injEq]
  constructor
  · intro h
    obtain ⟨k, hk, rfl, rfl⟩ := h
    obtain ⟨v, hv⟩ := Option.isSome_iff_exists.mp (AList.lookup_isSome.mpr hk)
    rw [AList.getD, hv]
    rfl
  · intro h
    refine ⟨key, ?_, rfl, ?_⟩
    · exact AList.lookup_isSome.mp (by rw [h]; rfl)
    · rw [AList.getD, h]
      rfl

theorem readObject_jsonFields (fields : StrMap Str) (more : Str) :
    JsonReader.readObject (jsonFields fields ++ more) = some (sortedFields fields, more) := by
  rw [jsonFields, fieldsJson_eq]
  exact JsonReader.readObject_members readString_jsonQuote _ more

/-- **Two maps have the same text exactly when they have the same entries.** -/
theorem jsonFields_eq_iff {m m' : StrMap Str} :
    jsonFields m = jsonFields m' ↔ ∀ key, m.lookup key = m'.lookup key := by
  constructor
  · intro htext key
    have hread := readObject_jsonFields m []
    rw [htext, readObject_jsonFields m' []] at hread
    have hmembers : sortedFields m' = sortedFields m := congrArg Prod.fst (Option.some.inj hread)
    refine Option.ext fun value => ?_
    rw [← mem_sortedFields, ← mem_sortedFields, hmembers]
  · intro hsame
    have hkeys : m.keys.insertionSort (· ≤ ·) = m'.keys.insertionSort (· ≤ ·) := by
      have hperm : m.keys.Perm m'.keys := by
        refine (List.perm_ext_iff_of_nodup m.keys_nodup m'.keys_nodup).mpr fun key => ?_
        rw [← AList.mem_keys, ← AList.mem_keys, ← AList.lookup_isSome, ← AList.lookup_isSome,
          hsame]
      refine List.Perm.eq_of_pairwise (fun a b _ _ => Std.le_antisymm)
        (List.pairwise_insertionSort _ _) (List.pairwise_insertionSort _ _) ?_
      exact ((List.perm_insertionSort _ _).trans hperm).trans (List.perm_insertionSort _ _).symm
    have hvalue : ∀ key, m.getD key [] = m'.getD key [] := by
      intro key
      rw [AList.getD, AList.getD, hsame]
    rw [jsonFields, jsonFields, fieldsJson, fieldsJson]
    simp only [hkeys, hvalue]

/-- **The JSON output is faithful.**  A quoted text is read back and leaves what
follows it; the text of a map is read back as its entries, the keys in strictly
ascending order; and two maps share a text only if they are the same. -/
theorem json_output_faithful (s more : Str) (m m' : StrMap Str) :
    JsonReader.readString (jsonQuote s ++ more) = some (s, more) ∧
      jsonFields m = fieldsJson m ∧
      (∃ members, JsonReader.readObject (jsonFields m ++ more) = some (members, more) ∧
        (members.map Prod.fst).Pairwise (· < ·) ∧
        ∀ key value, (key, value) ∈ members ↔ m.lookup key = some value) ∧
      (jsonFields m = jsonFields m' ↔ ∀ key, m.lookup key = m'.lookup key) :=
  ⟨readString_jsonQuote s more, rfl,
    ⟨sortedFields m, readObject_jsonFields m more, sortedFields_ascending m,
      fun _ _ => mem_sortedFields⟩,
    jsonFields_eq_iff⟩

end Netmon
