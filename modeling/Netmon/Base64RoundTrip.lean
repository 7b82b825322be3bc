import Netmon.Base64Text
import Netmon.WebSocket

/-!
# Base64 is read back

Every character of the encoder carries the six bits it was looked up with, so
that a group of four gives back its three bytes.  The length and the place of
the padding follow the same recursion.
-/

namespace Netmon

/-- Every six bits have a character of the alphabet, and the decoder reads them
back from it. -/
theorem sextet_base64Table : ∀ i : Fin 64,
    Base64Text.sextet (base64Table.getD i.val 0) = some i.val := by
  decide +kernel

theorem sextet_base64Char (triple shift : Nat) :
    Base64Text.sextet (base64Char triple shift) = some (triple / 2 ^ shift % 64) :=
  sextet_base64Table ⟨triple / 2 ^ shift % 64, Nat.mod_lt _ (by omega)⟩

theorem base64Char_ne_pad (triple shift : Nat) : base64Char triple shift ≠ 61 :=
  Base64Text.ne_pad (sextet_base64Char triple shift)

/-- A byte is the number that its group carries for it. -/
theorem ofNat_eq_of_toNat {n : Nat} {b : UInt8} (h : n = b.toNat) : UInt8.ofNat n = b := by
  rw [h, UInt8.ofNat_toNat]

/-- The first byte is the six bits of the first character and two of the second. -/
theorem base64Triple_first (a b c : UInt8) :
    UInt8.ofNat (base64Triple a b c / 2 ^ 18 % 64 * 4 + base64Triple a b c / 2 ^ 12 % 64 / 16) =
      a := by
  have ha := a.toNat_lt
  have hb := b.toNat_lt
  have hc := c.toNat_lt
  refine ofNat_eq_of_toNat ?_
  unfold base64Triple
  omega

/-- The second byte is four bits of the second character and four of the third. -/
theorem base64Triple_second (a b c : UInt8) :
    UInt8.ofNat (base64Triple a b c / 2 ^ 12 % 64 % 16 * 16 +
      base64Triple a b c / 2 ^ 6 % 64 / 4) = b := by
  have ha := a.toNat_lt
  have hb := b.toNat_lt
  have hc := c.toNat_lt
  refine ofNat_eq_of_toNat ?_
  unfold base64Triple
  omega

/-- The third byte is two bits of the third character and the six of the last. -/
theorem base64Triple_third (a b c : UInt8) :
    UInt8.ofNat (base64Triple a b c / 2 ^ 6 % 64 % 4 * 64 + base64Triple a b c / 2 ^ 0 % 64) =
      c := by
  have ha := a.toNat_lt
  have hb := b.toNat_lt
  have hc := c.toNat_lt
  refine ofNat_eq_of_toNat ?_
  unfold base64Triple
  omega

/-- **Decoding gives the bytes back.** -/
theorem decode_base64Encode (data : List UInt8) :
    Base64Text.decode (base64Encode data) = some data := by
  induction data using base64Encode.induct with
  | case1 => rfl
  | case2 a =>
      have hzero : base64Triple a 0 0 / 2 ^ 12 % 64 % 16 = 0 := by
        unfold base64Triple
        simp only [UInt8.toNat_zero]
        omega
      rw [base64Encode, ← Base64Text.pad, Base64Text.decode_one (sextet_base64Char _ _)
        (sextet_base64Char _ _) hzero, base64Triple_first]
  | case3 a b =>
      have hzero : base64Triple a b 0 / 2 ^ 6 % 64 % 4 = 0 := by
        unfold base64Triple
        simp only [UInt8.toNat_zero]
        omega
      rw [base64Encode, ← Base64Text.pad, Base64Text.decode_two (sextet_base64Char _ _)
        (sextet_base64Char _ _) (sextet_base64Char _ _) hzero, base64Triple_first,
        base64Triple_second]
  | case4 a b c rest ih =>
      rw [base64Encode, List.cons_append, List.cons_append, List.cons_append, List.cons_append,
        List.nil_append, Base64Text.decode_three (sextet_base64Char _ _) (sextet_base64Char _ _)
        (sextet_base64Char _ _) (sextet_base64Char _ _), ih, base64Triple_first,
        base64Triple_second, base64Triple_third]
      rfl

theorem base64Encode_length (data : List UInt8) :
    (base64Encode data).length = 4 * ((data.length + 2) / 3) := by
  induction data using base64Encode.induct with
  | case1 => rfl
  | case2 a => simp [base64Encode]
  | case3 a b => simp [base64Encode]
  | case4 a b c rest ih =>
      rw [base64Encode, List.length_append, ih]
      simp only [List.length_cons, List.length_nil]
      omega

/-- Padding only ends the text, and there are at most two characters of it. -/
theorem base64Encode_padding (data : List UInt8) :
    ∃ body padding, base64Encode data = body ++ List.replicate padding 61 ∧ padding ≤ 2 ∧
      61 ∉ body := by
  induction data using base64Encode.induct with
  | case1 => exact ⟨[], 0, rfl, by omega, by simp⟩
  | case2 a =>
      refine ⟨[base64Char _ 18, base64Char _ 12], 2, by rw [base64Encode]; rfl, by omega, ?_⟩
      simp [(base64Char_ne_pad _ _).symm]
  | case3 a b =>
      refine ⟨[base64Char _ 18, base64Char _ 12, base64Char _ 6], 1, by rw [base64Encode]; rfl,
        by omega, ?_⟩
      simp [(base64Char_ne_pad _ _).symm]
  | case4 a b c rest ih =>
      obtain ⟨body, padding, hparts, htwo, hbody⟩ := ih
      let t := base64Triple a b c
      refine ⟨[base64Char t 18, base64Char t 12, base64Char t 6, base64Char t 0] ++ body, padding,
        ?_, htwo, ?_⟩
      · rw [base64Encode, hparts, List.append_assoc]
      · simp [(base64Char_ne_pad _ _).symm, hbody]

/-- **Base64 is invertible.**  Decoding gives the bytes back, every three bytes
begun take four characters, and padding is the last zero, one or two of them. -/
theorem base64Encode_invertible (data : List UInt8) :
    Base64Text.decode (base64Encode data) = some data ∧
      (base64Encode data).length = 4 * ((data.length + 2) / 3) ∧
      ∃ body padding, base64Encode data = body ++ List.replicate padding 61 ∧ padding ≤ 2 ∧
        61 ∉ body :=
  ⟨decode_base64Encode data, base64Encode_length data, base64Encode_padding data⟩

end Netmon
