import Mathlib

/-!
# Reading base64

The decoder of the standard alphabet, four characters at a time.  Padding may
only end the text, and the bits that it stands for have to be zero, so that a
sequence of bytes has one text.
-/

namespace Base64Text

/-- The padding character `=`. -/
def pad : UInt8 := 61

/-- The six bits that a character of the alphabet stands for. -/
def sextet (c : UInt8) : Option Nat :=
  if 65 ≤ c ∧ c ≤ 90 then some (c.toNat - 65)
  else if 97 ≤ c ∧ c ≤ 122 then some (c.toNat - 71)
  else if 48 ≤ c ∧ c ≤ 57 then some (c.toNat + 4)
  else if c = 43 then some 62
  else if c = 47 then some 63
  else none

/-- The bytes of a text; nothing for a text that is not base64. -/
def decode : List UInt8 → Option (List UInt8)
  | [] => some []
  | a :: b :: c :: d :: rest =>
      (sextet a).bind fun i => (sextet b).bind fun j =>
        let first := UInt8.ofNat (i * 4 + j / 16)
        if c = pad then
          if d = pad ∧ rest = [] ∧ j % 16 = 0 then some [first] else none
        else
          (sextet c).bind fun k =>
            let second := UInt8.ofNat (j % 16 * 16 + k / 4)
            if d = pad then
              if rest = [] ∧ k % 4 = 0 then some [first, second] else none
            else
              (sextet d).bind fun l =>
                (decode rest).map ([first, second, UInt8.ofNat (k % 4 * 64 + l)] ++ ·)
  | _ => none

theorem sextet_pad : sextet pad = none := by decide

theorem ne_pad {c : UInt8} {i : Nat} (h : sextet c = some i) : c ≠ pad := by
  intro hpad
  rw [hpad, sextet_pad] at h
  exact absurd h (by simp)

section

variable {a b c d : UInt8} {i j k l : Nat}

/-- A last group with two padding characters is one byte. -/
theorem decode_one (ha : sextet a = some i) (hb : sextet b = some j) (hzero : j % 16 = 0) :
    decode [a, b, pad, pad] = some [UInt8.ofNat (i * 4 + j / 16)] := by
  simp [decode, ha, hb, hzero]

/-- A last group with one padding character is two bytes. -/
theorem decode_two (ha : sextet a = some i) (hb : sextet b = some j) (hc : sextet c = some k)
    (hzero : k % 4 = 0) :
    decode [a, b, c, pad] =
      some [UInt8.ofNat (i * 4 + j / 16), UInt8.ofNat (j % 16 * 16 + k / 4)] := by
  simp [decode, ha, hb, hc, ne_pad hc, hzero]

/-- A group of four characters is three bytes, whatever follows it. -/
theorem decode_three (ha : sextet a = some i) (hb : sextet b = some j) (hc : sextet c = some k)
    (hd : sextet d = some l) (rest : List UInt8) :
    decode (a :: b :: c :: d :: rest) =
      (decode rest).map ([UInt8.ofNat (i * 4 + j / 16), UInt8.ofNat (j % 16 * 16 + k / 4),
        UInt8.ofNat (k % 4 * 64 + l)] ++ ·) := by
  simp [decode, ha, hb, hc, hd, ne_pad hc, ne_pad hd]

end

end Base64Text
