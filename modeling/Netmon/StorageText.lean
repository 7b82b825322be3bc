import Netmon.App

/-!
# Cleaned texts

What `cleanStorageValue` leaves and what the database then holds of it: a
printable, trimmed text within the limit (`StorageText`).  Cleaning such a text
again changes nothing, so texts survive any number of trips through the
database.  A cut text may be filled up with NUL bytes first; the C string that
is stored ends before them.
-/

namespace Netmon

/-- A trimmed text does not begin with white space. -/
theorem trim_head {value : Str} {b : UInt8} (h : (trim value).head? = some b) :
    isSpace b = false := by
  have hhead : (value.dropWhile isSpace).head? = some b := by
    obtain ⟨tail, htail⟩ := List.rdropWhile_prefix isSpace (value.dropWhile isSpace)
    unfold trim at h
    rw [← htail, List.head?_append, h]
    rfl
  have hnot := List.head?_dropWhile_not isSpace value
  rw [hhead] at hnot
  exact hnot

/-- A trimmed text does not end with white space. -/
theorem trim_last {value : Str} {b : UInt8} (h : (trim value).getLast? = some b) :
    isSpace b = false := by
  have hne : trim value ≠ [] := by
    intro hnil
    simp [hnil] at h
  rw [List.getLast?_eq_some_getLast hne, Option.some.injEq] at h
  rw [← h]
  exact Bool.eq_false_iff.mpr (List.rdropWhile_last_not isSpace (value.dropWhile isSpace) hne)

/-- Trimming twice is trimming once. -/
theorem trim_trim (value : Str) : trim (trim value) = trim value :=
  trim_eq_self (fun _ => trim_head) (fun _ => trim_last)

/-- A text as the database holds it after cleaning to a length: printable,
trimmed and within the limit. -/
structure StorageText (maxLength : Nat) (value : Str) : Prop where
  printable : ∀ b ∈ value, 32 ≤ b ∧ b ≠ 127
  trimmed : trim value = value
  short : value.length ≤ maxLength

/-- A stored text has no zero byte. -/
theorem StorageText.text {maxLength : Nat} {value : Str} (h : StorageText maxLength value) :
    0 ∉ value := fun hzero => absurd (h.printable 0 hzero).1 (by decide)

/-- A cleaned byte is printable. -/
theorem cleanByte_printable {b c : UInt8} (h : c ∈ cleanByte b) : 32 ≤ c ∧ c ≠ 127 := by
  unfold cleanByte at h
  split at h
  · rw [List.mem_singleton.mp h]
    decide
  · split at h
    · rename_i hb
      rw [List.mem_singleton.mp h]
      exact hb
    · simp at h

/-- A printable byte stays. -/
theorem cleanByte_of_printable {b : UInt8} (h : 32 ≤ b ∧ b ≠ 127) : cleanByte b = [b] := by
  revert b
  decide +kernel

/-- Cleaning a byte gives one byte at most. -/
theorem cleanByte_length (b : UInt8) : (cleanByte b).length ≤ 1 := by
  unfold cleanByte
  split
  · simp
  · split <;> simp

/-- The loop gives printable bytes. -/
theorem cleanLoop_printable {maxLength : Nat} {value out : Str}
    (hout : ∀ b ∈ out, 32 ≤ b ∧ b ≠ 127) :
    ∀ b ∈ cleanLoop maxLength value out, 32 ≤ b ∧ b ≠ 127 := by
  induction value generalizing out with
  | nil => exact hout
  | cons c rest ih =>
      have hnext : ∀ b ∈ out ++ cleanByte c, 32 ≤ b ∧ b ≠ 127 := by
        intro b hb
        rcases List.mem_append.mp hb with hold | hnew
        · exact hout b hold
        · exact cleanByte_printable hnew
      rw [cleanLoop]
      split
      · exact hnext
      · exact ih hnext

/-- The loop stops at the limit. -/
theorem cleanLoop_length {maxLength : Nat} {value out : Str} (hout : out.length < maxLength) :
    (cleanLoop maxLength value out).length ≤ maxLength := by
  induction value generalizing out with
  | nil => exact Nat.le_of_lt hout
  | cons c rest ih =>
      have hbyte := cleanByte_length c
      rw [cleanLoop]
      split
      · rw [List.length_append]
        omega
      · rename_i hroom
        exact ih (by omega)

/-- The loop copies a printable text that fits. -/
theorem cleanLoop_of_printable {maxLength : Nat} {value out : Str}
    (hvalue : ∀ b ∈ value, 32 ≤ b ∧ b ≠ 127) (hfits : out.length + value.length ≤ maxLength) :
    cleanLoop maxLength value out = out ++ value := by
  induction value generalizing out with
  | nil => simp [cleanLoop]
  | cons c rest ih =>
      rw [cleanLoop, cleanByte_of_printable (hvalue c List.mem_cons_self)]
      rw [List.length_cons] at hfits
      split
      · rename_i hfull
        rw [List.length_append, List.length_singleton] at hfull
        have hrest : rest = [] := List.length_eq_zero_iff.mp (by omega)
        rw [hrest]
      · rw [ih (fun b hb => hvalue b (List.mem_cons_of_mem _ hb)) (by simp; omega)]
        simp

/-- Cleaning leaves a clean text alone. -/
theorem StorageText.clean {maxLength : Nat} {value : Str} (h : StorageText maxLength value) :
    cleanStorageValue value maxLength = value := by
  have hshort := h.short
  have hfits : ([] : Str).length + value.length ≤ maxLength := by simpa using hshort
  have hloop := cleanLoop_of_printable h.printable hfits
  rw [List.nil_append] at hloop
  unfold cleanStorageValue
  simp only [hloop, h.trimmed]
  rw [if_neg (by omega)]

theorem trim_length_le (value : Str) : (trim value).length ≤ value.length :=
  (List.rdropWhile_prefix _ _).length_le.trans (List.dropWhile_suffix _).length_le

/-- A cut that fills up with NUL bytes is stored without them and without the
dots. -/
theorem cString_padded {n : Nat} {out : Str} (hzero : 0 ∉ out) (hpad : out.length < n) :
    cString (resize n out ++ str "...") = out := by
  obtain ⟨k, hk⟩ : ∃ k, n - out.length = k + 1 := ⟨n - out.length - 1, by omega⟩
  rw [resize, List.take_of_length_le (by omega), hk, List.replicate_succ, cString,
    List.append_assoc, List.takeWhile_append_of_pos]
  · simp
  · intro b hb
    simpa using ne_of_mem_of_not_mem hb hzero

/-- A cut of a long enough clean text, with its dots, is clean. -/
theorem StorageText.cut {maxLength : Nat} {out : Str} (h : StorageText maxLength out)
    (hmax : 3 ≤ maxLength) (hlong : maxLength - 3 ≤ out.length) :
    StorageText maxLength (resize (maxLength - 3) out ++ str "...") := by
  have hcut : resize (maxLength - 3) out = out.take (maxLength - 3) := by
    rw [resize, Nat.sub_eq_zero_of_le hlong, List.replicate_zero, List.append_nil]
  have hdots : (str "...").getLast? = some 46 ∧ (str "...").length = 3 := by decide
  rw [hcut]
  refine ⟨fun b hb => ?_, trim_eq_self (fun b hb => ?_) (fun b hb => ?_), ?_⟩
  · rcases List.mem_append.mp hb with htake | hdot
    · exact h.printable b (List.mem_of_mem_take htake)
    · have hall : ∀ c ∈ str "...", 32 ≤ c ∧ c ≠ 127 := by decide +kernel
      exact hall b hdot
  · cases htake : out.take (maxLength - 3) with
    | nil =>
        rw [htake] at hb
        cases hb
        decide
    | cons c rest =>
        have hhead : out.head? = some c := by
          rw [← List.take_append_drop (maxLength - 3) out, htake]
          rfl
        rw [htake] at hb
        cases hb
        exact trim_head (h.trimmed.symm ▸ hhead)
  · rw [List.getLast?_append, hdots.1] at hb
    obtain rfl : 46 = b := Option.some.inj hb
    decide
  · rw [List.length_append, List.length_take, hdots.2]
    omega

/-- The loop leaves, once it is trimmed, a clean text. -/
theorem storageText_loop (value : Str) {maxLength : Nat} (h : 1 ≤ maxLength) :
    StorageText maxLength (trim (cleanLoop maxLength value [])) where
  printable b hb := cleanLoop_printable (by simp) b (trim_subset _ hb)
  trimmed := trim_trim _
  short := (trim_length_le _).trans (cleanLoop_length h)

/-- **What cleaning leaves**: a clean text, except that the cut fills a text up which has
become shorter than the place of the dots. -/
theorem cleanStorageValue_cases (value : Str) {maxLength : Nat} (h : 3 ≤ maxLength) :
    let out := trim (cleanLoop maxLength value [])
    (maxLength < value.length ∧ 3 ≤ out.length ∧ out.length < maxLength - 3 ∧
        cleanStorageValue value maxLength = resize (maxLength - 3) out ++ str "...") ∨
      (¬ (maxLength < value.length ∧ 3 ≤ out.length ∧ out.length < maxLength - 3) ∧
        StorageText maxLength (cleanStorageValue value maxLength)) := by
  intro out
  have hout : StorageText maxLength out := storageText_loop value (by omega)
  have hclean : cleanStorageValue value maxLength =
      if value.length > maxLength ∧ out.length ≥ 3 then resize (maxLength - 3) out ++ str "..."
      else out := rfl
  by_cases hcut : value.length > maxLength ∧ out.length ≥ 3
  · rw [if_pos hcut] at hclean
    by_cases hpad : out.length < maxLength - 3
    · exact Or.inl ⟨hcut.1, hcut.2, hpad, hclean⟩
    · rw [hclean]
      exact Or.inr ⟨fun hno => hpad hno.2.2, hout.cut h (Nat.not_lt.mp hpad)⟩
  · rw [if_neg hcut] at hclean
    rw [hclean]
    exact Or.inr ⟨fun hno => hcut ⟨hno.1, hno.2.1⟩, hout⟩

/-- **Cleaning is stable.**  What the database holds of a cleaned text is clean,
even where the cut filled it up with NUL bytes. -/
theorem storageText_clean (value : Str) {maxLength : Nat} (h : 3 ≤ maxLength) :
    StorageText maxLength (cString (cleanStorageValue value maxLength)) := by
  have hout : StorageText maxLength _ := storageText_loop value (by omega)
  rcases cleanStorageValue_cases value h with ⟨-, -, hpad, hpadded⟩ | ⟨-, hclean⟩
  · rw [hpadded, cString_padded hout.text hpad]
    exact hout
  · rw [cString_eq_self hclean.text]
    exact hclean

end Netmon
