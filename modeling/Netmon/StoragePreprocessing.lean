import Netmon.StorageText

/-!
# Storage preprocessing

Before an event is stored its texts are cleaned and its fields are filtered.  Cleaning is
meant to leave a printable text within its limit that cleaning leaves alone
(`CleanText`).  It does unless the cut comes upon a text that has become much shorter on
the way: the length before cleaning decides whether to cut, and the cut then fills the
text up with NUL bytes (`KeepsText` says when it does not).

The filter stops when forty fields are there.  There are only twenty-eight names a field
can be stored under, so it never does, and what is stored is what each field contributes
(`storedEntries`), in whatever order the map gives the fields.
-/

namespace Netmon

/-! ## Texts -/

/-- A text as cleaning is meant to leave it. -/
structure CleanText (maxLength : Nat) (value : Str) : Prop where
  short : value.length ≤ maxLength
  printable : ∀ b ∈ value, 32 ≤ b ∧ b ≠ 127
  fixed : cleanStorageValue value maxLength = value

/-- A text that the storage takes is clean. -/
theorem StorageText.cleanText {maxLength : Nat} {value : Str} (h : StorageText maxLength value) :
    CleanText maxLength value :=
  ⟨h.short, h.printable, h.clean⟩

/-- The loop takes the bytes that remain, up to the limit. -/
theorem cleanLoop_eq_take {maxLength : Nat} {value out : Str} (hout : out.length < maxLength) :
    cleanLoop maxLength value out = (out ++ value.flatMap cleanByte).take maxLength := by
  induction value generalizing out with
  | nil => rw [cleanLoop, List.flatMap_nil, List.append_nil, List.take_of_length_le hout.le]
  | cons b rest ih =>
      have hbyte := cleanByte_length b
      rw [cleanLoop, List.flatMap_cons, ← List.append_assoc]
      split
      · rename_i hfull
        have hlength : (out ++ cleanByte b).length = maxLength := by
          rw [List.length_append] at hfull ⊢
          omega
        exact (List.take_left' hlength).symm
      · rename_i hroom
        exact ih (Nat.not_le.mp hroom)

/-- The text that remains of a value: without its control bytes, with line breaks and tabs
as spaces, up to the limit, and trimmed. -/
def remainingText (maxLength : Nat) (value : Str) : Str :=
  trim ((value.flatMap cleanByte).take maxLength)

/-- The value fits, or what remains of it is too short for dots or reaches up to
them. -/
def KeepsText (maxLength : Nat) (value : Str) : Prop :=
  value.length ≤ maxLength ∨ (remainingText maxLength value).length < 3 ∨
    maxLength ≤ (remainingText maxLength value).length + 3

instance (maxLength : Nat) (value : Str) : Decidable (KeepsText maxLength value) :=
  inferInstanceAs (Decidable (_ ∨ _))

/-- A text is padded if it was too long and much of it was dropped. -/
theorem not_keepsText_iff {maxLength : Nat} {value : Str} :
    ¬ KeepsText maxLength value ↔
      maxLength < value.length ∧ 3 ≤ (remainingText maxLength value).length ∧
        (remainingText maxLength value).length < maxLength - 3 := by
  unfold KeepsText
  omega

/-- A text that is filled up holds a NUL byte. -/
theorem nul_mem_padded {n : Nat} {out : Str} (hpad : out.length < n) :
    (0 : UInt8) ∈ resize n out ++ str "..." := by
  refine List.mem_append_left _ (List.mem_append_right _ ?_)
  exact List.mem_replicate.mpr ⟨by omega, rfl⟩

/-- Cleaning leaves a text that it would leave again, or fills it up. -/
theorem keepsText_or_nul (value : Str) {maxLength : Nat} (h : 3 ≤ maxLength) :
    (KeepsText maxLength value ∧ StorageText maxLength (cleanStorageValue value maxLength)) ∨
      (¬ KeepsText maxLength value ∧ 0 ∈ cleanStorageValue value maxLength) := by
  have hremaining : trim (cleanLoop maxLength value []) = remainingText maxLength value := by
    rw [cleanLoop_eq_take (by simp; omega), List.nil_append]
    rfl
  have hcases := cleanStorageValue_cases value h
  rw [hremaining] at hcases
  rcases hcases with ⟨hlong, hdots, hpad, hpadded⟩ | ⟨hfits, hclean⟩
  · exact Or.inr ⟨not_keepsText_iff.mpr ⟨hlong, hdots, hpad⟩, hpadded ▸ nul_mem_padded hpad⟩
  · exact Or.inl ⟨not_not.mp (mt not_keepsText_iff.mp hfits), hclean⟩

/-- A clean text has no zero byte. -/
theorem CleanText.nul_notMem {maxLength : Nat} {value : Str} (h : CleanText maxLength value) :
    0 ∉ value := fun hnul => absurd (h.printable 0 hnul).1 (by decide)

/-- **Cleaning leaves a clean text** exactly when it does not fill it up. -/
theorem cleanText_iff (value : Str) {maxLength : Nat} (h : 3 ≤ maxLength) :
    CleanText maxLength (cleanStorageValue value maxLength) ↔ KeepsText maxLength value := by
  rcases keepsText_or_nul value h with ⟨hkeeps, hclean⟩ | ⟨hpads, hnul⟩
  · exact iff_of_true hclean.cleanText hkeeps
  · exact iff_of_false (fun hclean => hclean.nul_notMem hnul) hpads

/-- Lower case stays printable. -/
theorem toLower_printable {b : UInt8} (h : 32 ≤ b ∧ b ≠ 127) :
    32 ≤ toLower b ∧ toLower b ≠ 127 := by
  revert b
  decide +kernel

/-- Lower case leaves white space alone. -/
theorem isSpace_toLower (b : UInt8) : isSpace (toLower b) = isSpace b := by
  revert b
  decide +kernel

/-- Trimming and lower case commute. -/
theorem trim_lower (value : Str) : trim (lower value) = lower (trim value) := by
  have hspace : isSpace ∘ toLower = isSpace := funext isSpace_toLower
  unfold trim lower
  rw [List.dropWhile_map, hspace, List.rdropWhile, ← List.map_reverse, List.dropWhile_map, hspace,
    ← List.map_reverse]
  rfl

/-- Lower case keeps a text clean. -/
theorem StorageText.lower {maxLength : Nat} {value : Str} (h : StorageText maxLength value) :
    StorageText maxLength (Netmon.lower value) where
  printable b hb := by
    obtain ⟨c, hc, rfl⟩ := List.mem_map.mp hb
    exact toLower_printable (h.printable c hc)
  trimmed := by rw [trim_lower, h.trimmed]
  short := (List.length_map _).le.trans h.short

/-- The length of a value, in decimal, is a clean text. -/
theorem storageText_decimal {n : Nat} (h : n < 2 ^ 64) : StorageText 180 (decimal n) := by
  have hdigit : ∀ b : UInt8, isDigit b = true → (32 ≤ b ∧ b ≠ 127) ∧ isSpace b = false := by
    decide +kernel
  have hbyte : ∀ b ∈ decimal n, (32 ≤ b ∧ b ≠ 127) ∧ isSpace b = false := fun b hb =>
    hdigit b (isDigit_of_mem_decimal hb)
  refine ⟨fun b hb => (hbyte b hb).1, trim_eq_self (fun b hb => ?_) (fun b hb => ?_), ?_⟩
  · exact (hbyte b (List.mem_of_head? hb)).2
  · exact (hbyte b (List.mem_of_getLast? hb)).2
  · have hdigits : (Nat.toDigits 10 n).length ≤ 20 :=
      Nat.toDigits_length 10 n 20 (by omega) (h.trans (by norm_num))
    rw [decimal, List.length_map]
    omega

/-! ## Fields -/

/-- The name that a field is looked up and stored under. -/
def fieldName (key : Str) : Str := lower (cleanStorageValue key 48)

/-- The value that is stored for an allowed field. -/
def storedValue (name value : Str) : Str :=
  if name = str "mac" then lower (cleanStorageValue value 96) else cleanStorageValue value 180

/-- What a field contributes: the start and the length of a raw line, and the cleaned
value of an allowed field. -/
def storedEntries (type : Str) (field : Sigma fun _ : Str => Str) : List (Str × Str) :=
  let name := fieldName field.1
  if name = str "raw" ∨ name = str "csv" then
    [ (name ++ str "_preview", cleanStorageValue field.2 180),
      (name ++ str "_len", decimal field.2.length) ]
  else if storageFieldAllowed type name then [(name, storedValue name field.2)]
  else []

/-- The names that are allowed for every event. -/
def commonNames : List Str :=
  [ str "ts", str "event", str "mac", str "ip", str "hostname", str "host", str "interface",
    str "if", str "iface", str "neigh", str "rx_bytes", str "tx_bytes", str "in_if",
    str "src_ip", str "dst_ip", str "src_port", str "dst_port", str "proto", str "len",
    str "state", str "message" ]

/-- The names that are allowed for attacks as well. -/
def attackNames : List Str := [str "tos", str "ttl", str "out_if"]

/-- The names that a raw line is stored under. -/
def lineNames : List Str :=
  [str "raw_preview", str "raw_len", str "csv_preview", str "csv_len"]

/-- The two lists of allowed names. -/
theorem storageFieldAllowed_iff {type name : Str} :
    storageFieldAllowed type name = true ↔
      name ∈ commonNames ∨ type = str "wan_attack" ∧ name ∈ attackNames := by
  unfold storageFieldAllowed
  rw [Bool.or_eq_true, Bool.and_eq_true, Bool.or_eq_true, Bool.or_eq_true, decide_eq_true_iff,
    decide_eq_true_iff, decide_eq_true_iff, decide_eq_true_iff, decide_eq_true_iff, or_assoc]
  simp only [commonNames, attackNames, List.mem_cons, List.not_mem_nil, or_false]

/-- What is stored of a field is its value, or the preview and the length of a line. -/
theorem allowed_or_line {type : Str} {field : Sigma fun _ : Str => Str} {entry : Str × Str}
    (h : entry ∈ storedEntries type field) :
    (storageFieldAllowed type entry.1 = true ∧ entry.1 = fieldName field.1 ∧
        entry.2 = storedValue entry.1 field.2) ∨
      ((fieldName field.1 = str "raw" ∨ fieldName field.1 = str "csv") ∧
        (entry = (fieldName field.1 ++ str "_preview", cleanStorageValue field.2 180) ∨
          entry = (fieldName field.1 ++ str "_len", decimal field.2.length))) := by
  unfold storedEntries at h
  dsimp only at h
  split at h
  · rename_i hline
    exact Or.inr ⟨hline, by simpa using h⟩
  · split at h
    · rename_i hallowed
      obtain rfl := List.mem_singleton.mp h
      exact Or.inl ⟨hallowed, rfl, rfl⟩
    · exact absurd h List.not_mem_nil

/-- A line is stored under a name that no field is allowed to have. -/
theorem line_not_allowed {name : Str} (hname : name = str "raw" ∨ name = str "csv") :
    (name ++ str "_preview" ∈ lineNames ∧ name ++ str "_len" ∈ lineNames) ∧
      ∀ type, storageFieldAllowed type (name ++ str "_preview") = false ∧
        storageFieldAllowed type (name ++ str "_len") = false := by
  have hfree : ∀ k ∈ lineNames, k ∉ commonNames ∧ k ∉ attackNames := by decide
  have hmem : name ++ str "_preview" ∈ lineNames ∧ name ++ str "_len" ∈ lineNames := by
    rcases hname with rfl | rfl
    · decide
    · decide
  have hrefused : ∀ type, ∀ k ∈ lineNames, storageFieldAllowed type k = false := by
    intro type k hk
    rw [← Bool.not_eq_true, storageFieldAllowed_iff]
    rintro (h | ⟨-, h⟩)
    · exact (hfree k hk).1 h
    · exact (hfree k hk).2 h
  exact ⟨hmem, fun type => ⟨hrefused type _ hmem.1, hrefused type _ hmem.2⟩⟩

/-- Twenty-eight names can be stored. -/
def storedNames : List Str := commonNames ++ attackNames ++ lineNames

/-- What is stored of a field stands under one of the stored names. -/
theorem storedEntries_name {type : Str} {field : Sigma fun _ : Str => Str} {entry : Str × Str}
    (h : entry ∈ storedEntries type field) : entry.1 ∈ storedNames := by
  unfold storedNames
  rw [List.mem_append, List.mem_append]
  rcases allowed_or_line h with ⟨hallowed, -, -⟩ | ⟨hline, hentry⟩
  · rcases storageFieldAllowed_iff.mp hallowed with hcommon | ⟨-, hattack⟩
    · exact Or.inl (Or.inl hcommon)
    · exact Or.inl (Or.inr hattack)
  · obtain ⟨hpreview, hlen⟩ := (line_not_allowed hline).1
    rcases hentry with rfl | rfl
    · exact Or.inr hpreview
    · exact Or.inr hlen

/-- A map of stored fields has room left. -/
theorem length_lt_of_stored {m : StrMap Str} (h : ∀ k ∈ m, k ∈ storedNames) :
    m.entries.length < 40 := by
  have hkeys : m.keys.Subperm storedNames :=
    List.subperm_of_subset m.keys_nodup fun k hk => h k (AList.mem_keys.mpr hk)
  have hlength : m.keys.length = m.entries.length := List.length_map _
  have hnames : storedNames.length = 28 := rfl
  have := hkeys.length_le
  omega

/-- The fields, inserted one after the other. -/
def storeAll (type : Str) (fields : List (Sigma fun _ : Str => Str)) (m : StrMap Str) :
    StrMap Str :=
  m.insertAll Prod.fst Prod.snd (fields.flatMap (storedEntries type))

/-- One field contributes its entries, as long as there is room after them. -/
theorem cleanFields_cons {type key value : Str} {rest : List (Sigma fun _ : Str => Str)}
    {m : StrMap Str}
    (h : ∀ k ∈ m.insertAll Prod.fst Prod.snd (storedEntries type ⟨key, value⟩), k ∈ storedNames) :
    cleanFields type (⟨key, value⟩ :: rest) m =
      cleanFields type rest (m.insertAll Prod.fst Prod.snd (storedEntries type ⟨key, value⟩)) := by
  have hroom := length_lt_of_stored h
  have hblank : fieldName key = [] →
      ¬ (fieldName key = str "raw" ∨ fieldName key = str "csv") ∧
        ¬ storageFieldAllowed type (fieldName key) = true := by
    intro hnil
    rw [hnil, storageFieldAllowed_iff]
    have hnone : ([] : Str) ∉ commonNames ∧ ([] : Str) ∉ attackNames := by decide
    exact ⟨by decide, fun hmem => hmem.elim hnone.1 fun hattack => hnone.2 hattack.2⟩
  have hstep : cleanFields type (⟨key, value⟩ :: rest) m =
      if fieldName key = [] then cleanFields type rest m
      else if fieldName key = str "raw" ∨ fieldName key = str "csv" then
        cleanFields type rest
          ((m.insert (fieldName key ++ str "_preview") (cleanStorageValue value 180)).insert
            (fieldName key ++ str "_len") (decimal value.length))
      else if storageFieldAllowed type (fieldName key) then
        let stored := m.insert (fieldName key) (storedValue (fieldName key) value)
        if stored.entries.length ≥ 40 then stored else cleanFields type rest stored
      else cleanFields type rest m := rfl
  rw [hstep]
  unfold storedEntries at hroom ⊢
  dsimp only at hroom ⊢
  by_cases hline : fieldName key = str "raw" ∨ fieldName key = str "csv"
  · rw [if_neg fun hnil => (hblank hnil).1 hline, if_pos hline, if_pos hline]
    rfl
  · rw [if_neg hline] at hroom
    rw [if_neg hline, if_neg hline]
    by_cases hallowed : storageFieldAllowed type (fieldName key) = true
    · rw [if_pos hallowed] at hroom
      rw [if_neg fun hnil => (hblank hnil).2 hallowed, if_pos hallowed, if_pos hallowed]
      exact if_neg (Nat.not_le.mpr hroom)
    · rw [if_neg hallowed, if_neg hallowed]
      exact ite_self _

/-- **The cut-off is never reached**: every field is stored. -/
theorem cleanFields_eq_storeAll {type : Str} {fields : List (Sigma fun _ : Str => Str)}
    {m : StrMap Str} (h : ∀ k ∈ m, k ∈ storedNames) :
    cleanFields type fields m = storeAll type fields m := by
  induction fields generalizing m with
  | nil => rfl
  | cons field rest ih =>
      obtain ⟨key, value⟩ := field
      have hstep : storeAll type (⟨key, value⟩ :: rest) m =
          storeAll type rest
            (m.insertAll Prod.fst Prod.snd (storedEntries type ⟨key, value⟩)) := by
        rw [storeAll, List.flatMap_cons, AList.insertAll, List.foldl_append]
        rfl
      have hnext : ∀ k ∈ m.insertAll Prod.fst Prod.snd (storedEntries type ⟨key, value⟩),
          k ∈ storedNames := by
        intro k hk
        rcases AList.mem_insertAll.mp hk with ⟨entry, hentry, rfl⟩ | hold
        · exact storedEntries_name hentry
        · exact h k hold
      rw [hstep, ← ih hnext]
      exact cleanFields_cons hnext

/-- Fields that are stored under one name have one name. -/
theorem fieldName_eq_of_stored {type : Str} {field other : Sigma fun _ : Str => Str}
    {entry entry' : Str × Str} (h : entry ∈ storedEntries type field)
    (h' : entry' ∈ storedEntries type other) (hsame : entry.1 = entry'.1) :
    fieldName field.1 = fieldName other.1 := by
  -- the name of a raw line is the first three bytes of what it is stored under
  have hline : ∀ {name : Str}, name = str "raw" ∨ name = str "csv" → ∀ tail : Str,
      (name ++ tail).take 3 = name := by
    rintro name (rfl | rfl) tail
    · exact List.take_left' (by decide)
    · exact List.take_left' (by decide)
  have hrefused : ∀ {name k : Str}, name = str "raw" ∨ name = str "csv" →
      k = name ++ str "_preview" ∨ k = name ++ str "_len" →
        ¬ storageFieldAllowed type k = true := by
    rintro name k hname (rfl | rfl)
    · rw [((line_not_allowed hname).2 type).1]
      exact Bool.false_ne_true
    · rw [((line_not_allowed hname).2 type).2]
      exact Bool.false_ne_true
  rcases allowed_or_line h with ⟨hallowed, hname, -⟩ | ⟨hname, hentry⟩
  · rcases allowed_or_line h' with ⟨-, hname', -⟩ | ⟨hname', hentry'⟩
    · rw [← hname, ← hname', hsame]
    · rw [hsame] at hallowed
      exact absurd hallowed (hrefused hname'
        (hentry'.imp (congrArg Prod.fst) (congrArg Prod.fst)))
  · rcases allowed_or_line h' with ⟨hallowed', -, -⟩ | ⟨hname', hentry'⟩
    · rw [← hsame] at hallowed'
      exact absurd hallowed' (hrefused hname
        (hentry.imp (congrArg Prod.fst) (congrArg Prod.fst)))
    · have htake : entry.1.take 3 = fieldName field.1 := by
        rcases hentry with rfl | rfl
        · exact hline hname _
        · exact hline hname _
      have htake' : entry'.1.take 3 = fieldName other.1 := by
        rcases hentry' with rfl | rfl
        · exact hline hname' _
        · exact hline hname' _
      rw [← htake, ← htake', hsame]

/-- Of one field, nothing is stored under one name twice. -/
theorem storedEntries_nodup (type : Str) (field : Sigma fun _ : Str => Str) :
    ((storedEntries type field).map Prod.fst).Nodup := by
  unfold storedEntries
  dsimp only
  split
  · have htails : str "_preview" ≠ str "_len" := by decide
    simp [htails]
  · split
    · simp
    · simp

/-- Fields with distinct names are stored under distinct names. -/
theorem stored_nodup {type : Str} {fields : List (Sigma fun _ : Str => Str)}
    (h : (fields.map fun field => fieldName field.1).Nodup) :
    ((fields.flatMap (storedEntries type)).map Prod.fst).Nodup := by
  rw [List.map_flatMap, List.nodup_flatMap]
  refine ⟨fun field _ => storedEntries_nodup type field, ?_⟩
  refine (List.pairwise_map.mp h).imp fun {field other} hne => ?_
  rw [Function.onFun, List.disjoint_left]
  rintro k hk hk'
  obtain ⟨entry, hentry, rfl⟩ := List.mem_map.mp hk
  obtain ⟨entry', hentry', hsame⟩ := List.mem_map.mp hk'
  exact hne (fieldName_eq_of_stored hentry hentry' hsame.symm)

/-- Fields with distinct names are found as they were stored. -/
theorem lookup_cleanFields {type : Str} {fields : List (Sigma fun _ : Str => Str)}
    (h : (fields.map fun field => fieldName field.1).Nodup) (k v : Str) :
    (cleanFields type fields ∅).lookup k = some v ↔
      ∃ field ∈ fields, (k, v) ∈ storedEntries type field := by
  rw [cleanFields_eq_storeAll (by simp), storeAll]
  constructor
  · intro hfound
    rcases AList.of_lookup_insertAll hfound with ⟨entry, hentry, rfl, rfl⟩ | hnone
    · exact List.mem_flatMap.mp hentry
    · simp at hnone
  · intro hstored
    exact AList.lookup_insertAll_of_mem (stored_nodup h) (List.mem_flatMap.mpr hstored)

/-- **The filter is complete and does not depend on the order.**  For fields with distinct
names, in whatever order the map gives them, exactly what each field contributes is
stored. -/
theorem stored_fields_exact (event : Event) {order : StrMap Str}
    (horder : order.entries.Perm event.fields.entries)
    (hdistinct : (event.fields.entries.map fun field => fieldName field.1).Nodup) (k v : Str) :
    (preprocessEventForStorage { event with fields := order }).fields.lookup k = some v ↔
      ∃ field ∈ event.fields.entries, (k, v) ∈ storedEntries event.type field := by
  have hnames : (order.entries.map fun field => fieldName field.1).Nodup :=
    (horder.map _).nodup_iff.mpr hdistinct
  have hfields : (preprocessEventForStorage { event with fields := order }).fields =
      cleanFields event.type order.entries ∅ := rfl
  rw [hfields, lookup_cleanFields hnames]
  simp only [horder.mem_iff]

/-- A line that was not understood, with an upper-case MAC and a field of its own. -/
def oddFields : StrMap Str :=
  (((∅ : StrMap Str).insert (str "raw") (str "x=1")).insert (str "MAC") (str "AA:01")).insert
    (str "vendor") (str "acme")

/-- The same fields, inserted in the other order. -/
def oddFieldsBackwards : StrMap Str :=
  (((∅ : StrMap Str).insert (str "vendor") (str "acme")).insert (str "MAC") (str "AA:01")).insert
    (str "raw") (str "x=1")

/-- Its MAC is stored in lower case, whichever field comes first. -/
theorem stored_fields_exact_backwards :
    (preprocessEventForStorage { fields := oddFieldsBackwards }).fields.lookup (str "mac") =
      some (str "aa:01") :=
  (stored_fields_exact { fields := oddFields }
    (show oddFieldsBackwards.entries.Perm oddFields.entries by decide +kernel) (by decide +kernel)
    (str "mac") (str "aa:01")).mpr (by decide +kernel)

/-! ## What is written -/

/-- The limit of the value stored under a name. -/
def valueLimit (name : Str) : Nat := if name = str "mac" then 96 else 180

/-- The field is not stored, or its value is not filled up. -/
def FieldKeeps (type : Str) (field : Sigma fun _ : Str => Str) : Prop :=
  storedEntries type field ≠ [] → KeepsText (valueLimit (fieldName field.1)) field.2

theorem printable_of_all {value : Str}
    (h : value.all (fun b => decide (32 ≤ b ∧ b ≠ 127)) = true) :
    ∀ b ∈ value, 32 ≤ b ∧ b ≠ 127 := fun b hb =>
  of_decide_eq_true (List.all_eq_true.mp h b hb)

/-- The stored names pass the cleaning. -/
theorem storageText_name {name : Str} (h : name ∈ storedNames) : StorageText 48 name := by
  have hall : storedNames.all (fun k =>
      k.all (fun b => 32 ≤ b ∧ b ≠ 127) && trim k == k && decide (k.length ≤ 48)) = true := by
    decide
  have hname := List.all_eq_true.mp hall name h
  rw [Bool.and_eq_true, Bool.and_eq_true] at hname
  obtain ⟨⟨hbytes, htrim⟩, hshort⟩ := hname
  exact ⟨printable_of_all hbytes, eq_of_beq htrim, of_decide_eq_true hshort⟩

/-- The value that a field is stored with is clean when it is not filled up, in lower case
too. -/
theorem cleanText_storedValue_iff (name value : Str) :
    CleanText (valueLimit name) (storedValue name value) ↔ KeepsText (valueLimit name) value := by
  unfold valueLimit storedValue
  by_cases hmac : name = str "mac"
  · rw [if_pos hmac, if_pos hmac]
    rcases keepsText_or_nul value (show 3 ≤ 96 by omega) with ⟨hkeeps, hclean⟩ | ⟨hpads, hnul⟩
    · exact iff_of_true hclean.lower.cleanText hkeeps
    · exact iff_of_false (fun hclean => hclean.nul_notMem (zero_mem_lower.mpr hnul)) hpads
  · rw [if_neg hmac, if_neg hmac]
    exact cleanText_iff value (by omega)

/-- The bound for what is stored of a line. -/
theorem valueLimit_line {name : Str} (h : name = str "raw" ∨ name = str "csv") :
    valueLimit name = 180 ∧ valueLimit (name ++ str "_preview") = 180 ∧
      valueLimit (name ++ str "_len") = 180 := by
  rcases h with rfl | rfl
  · decide
  · decide

/-- What a field contributes is clean exactly when its value is not filled up. -/
theorem storedEntries_clean_iff {type : Str} {field : Sigma fun _ : Str => Str}
    (hlength : field.2.length < 2 ^ 64) :
    (∀ entry ∈ storedEntries type field,
        CleanText 48 entry.1 ∧ CleanText (valueLimit entry.1) entry.2) ↔
      FieldKeeps type field := by
  have hnames : ∀ entry ∈ storedEntries type field, CleanText 48 entry.1 := fun entry hentry =>
    (storageText_name (storedEntries_name hentry)).cleanText
  constructor
  · intro hclean hsome
    obtain ⟨entry, hentry⟩ := List.exists_mem_of_ne_nil _ hsome
    rcases allowed_or_line hentry with ⟨-, hname, hvalue⟩ | ⟨hline, -⟩
    · have hstored := (hclean entry hentry).2
      rwa [hvalue, cleanText_storedValue_iff, hname] at hstored
    · -- the start of a line is the first of its two entries
      have hfirst : (fieldName field.1 ++ str "_preview", cleanStorageValue field.2 180) ∈
          storedEntries type field := by
        unfold storedEntries
        rw [if_pos hline]
        exact List.mem_cons_self
      have hpreview := (hclean _ hfirst).2
      obtain ⟨hlimit, hlimit', -⟩ := valueLimit_line hline
      rw [hlimit', cleanText_iff _ (by omega)] at hpreview
      rwa [hlimit]
  · intro hkeeps entry hentry
    have hvalue := hkeeps (List.ne_nil_of_mem hentry)
    refine ⟨hnames entry hentry, ?_⟩
    rcases allowed_or_line hentry with ⟨-, hname, hstored⟩ | ⟨hline, hstored⟩
    · rwa [hstored, cleanText_storedValue_iff, hname]
    · obtain ⟨hlimit, hpreview, hlen⟩ := valueLimit_line hline
      rw [hlimit] at hvalue
      rcases hstored with rfl | rfl
      · rw [hpreview]
        exact (cleanText_iff _ (by omega)).mpr hvalue
      · rw [hlen]
        exact (storageText_decimal hlength).cleanText

/-- The names and values of the fields in a map are clean. -/
def CleanFields (fields : StrMap Str) : Prop :=
  ∀ k v, fields.lookup k = some v → CleanText 48 k ∧ CleanText (valueLimit k) v

/-- **The stored fields are clean** if no value is filled up, and only then where no field is
overwritten by another of the same name. -/
theorem cleanFields_clean {event : Event}
    (hlength : ∀ field ∈ event.fields.entries, field.2.length < 2 ^ 64) :
    ((∀ field ∈ event.fields.entries, FieldKeeps event.type field) →
        CleanFields (preprocessEventForStorage event).fields) ∧
      ((event.fields.entries.map fun field => fieldName field.1).Nodup →
        CleanFields (preprocessEventForStorage event).fields →
          ∀ field ∈ event.fields.entries, FieldKeeps event.type field) := by
  constructor
  · intro hkeeps k v hstored
    have hfields : (preprocessEventForStorage event).fields =
        storeAll event.type event.fields.entries ∅ := cleanFields_eq_storeAll (by simp)
    rw [hfields] at hstored
    rcases AList.of_lookup_insertAll hstored with ⟨entry, hentry, rfl, rfl⟩ | hnone
    · obtain ⟨field, hfield, hentry⟩ := List.mem_flatMap.mp hentry
      exact (storedEntries_clean_iff (hlength field hfield)).mpr (hkeeps field hfield) entry hentry
    · simp at hnone
  · intro hnames hclean field hfield
    refine (storedEntries_clean_iff (hlength field hfield)).mp fun entry hentry => ?_
    exact hclean entry.1 entry.2 ((lookup_cleanFields hnames _ _).mpr ⟨field, hfield, hentry⟩)

/-- **Stored texts are clean** exactly when cleaning does not fill them up with NUL bytes:
every text at every limit, and so the source and the message of an event, the names and
the values of its fields and the columns of an attack. -/
theorem stored_text_clean_iff (value : Str) {maxLength : Nat} (h : 3 ≤ maxLength) (event : Event)
    (attack : WANAttackEvent) :
    (CleanText maxLength (cleanStorageValue value maxLength) ↔ KeepsText maxLength value) ∧
    (let stored := preprocessEventForStorage event;
      (CleanText 80 stored.source ↔ KeepsText 80 event.source) ∧
      (CleanText 240 stored.message ↔
        event.type = str "raw" ∨ KeepsText 240 event.message) ∧
      ((∀ field ∈ event.fields.entries, field.2.length < 2 ^ 64) →
        ((∀ field ∈ event.fields.entries, FieldKeeps event.type field) →
            CleanFields stored.fields) ∧
          ((event.fields.entries.map fun field => fieldName field.1).Nodup →
            CleanFields stored.fields →
              ∀ field ∈ event.fields.entries, FieldKeeps event.type field))) ∧
    (let stored := preprocessWANAttackForStorage attack;
      (CleanText 64 stored.inIf ∧ CleanText 64 stored.srcIp ∧ CleanText 64 stored.dstIp ∧
        CleanText 16 stored.srcPort ∧ CleanText 16 stored.dstPort ∧ CleanText 24 stored.proto ∧
        CleanText 24 stored.length ∧ CleanText 240 stored.raw) ↔
      (KeepsText 64 attack.inIf ∧ KeepsText 64 attack.srcIp ∧ KeepsText 64 attack.dstIp ∧
        KeepsText 16 attack.srcPort ∧ KeepsText 16 attack.dstPort ∧ KeepsText 24 attack.proto ∧
        KeepsText 24 attack.length ∧ KeepsText 240 attack.raw)) := by
  refine ⟨cleanText_iff value h, ⟨cleanText_iff _ (by omega), ?_, ?_⟩, ?_⟩
  · show CleanText 240 (if event.type = str "raw" then _ else _) ↔ _
    by_cases hraw : event.type = str "raw"
    · rw [if_pos hraw]
      refine iff_of_true ?_ (Or.inl hraw)
      exact ⟨by decide, printable_of_all (by decide +kernel), by decide +kernel⟩
    · rw [if_neg hraw, or_iff_right hraw]
      exact cleanText_iff _ (by omega)
  · exact cleanFields_clean
  · unfold preprocessWANAttackForStorage
    simp only [cleanText_iff _ (show 3 ≤ 64 by omega), cleanText_iff _ (show 3 ≤ 16 by omega),
      cleanText_iff _ (show 3 ≤ 24 by omega), cleanText_iff _ (show 3 ≤ 240 by omega)]

/-- A short port with spaces after it, longer than the limit of a port. -/
def paddedPort : Str := str "443                 "

/-- It fills the column up: thirteen bytes of port, ten of them NUL, and three dots. -/
theorem padded_port_stores_nul :
    (preprocessWANAttackForStorage { srcPort := paddedPort }).srcPort =
        str "443" ++ List.replicate 10 0 ++ str "..." ∧
      ¬ CleanText 16 (cleanStorageValue paddedPort 16) := by
  have hstored : cleanStorageValue paddedPort 16 =
      str "443" ++ List.replicate 10 0 ++ str "..." := by decide +kernel
  refine ⟨hstored, fun hclean => ?_⟩
  rw [hstored] at hclean
  exact absurd (hclean.printable 0 (by decide)).1 (by decide)

/-- A text of control bytes and of twenty letters is cut to its limit. -/
theorem stored_text_clean_cut :
    CleanText 16 (cleanStorageValue (str "\tabcdefghijklmnopqrst") 16) :=
  (stored_text_clean_iff (str "\tabcdefghijklmnopqrst") (by decide) {} {}).1.mpr
    (by decide +kernel)

end Netmon
