import Mathlib

/-!
# SHA-1 on strings of bits

The hash function as its standard states it.  A message is a string of bits, shorter
than 2^64; it is padded to a multiple of 512 bits with a one, the least number of zeros
and its length, cut into blocks of sixteen 32-bit words, and each block is mixed into
five words by eighty rounds.  Words are `BitVec 32`, so that sums are modulo 2^32, and
bits are written with the most significant one first.

The first section is about bits, numbers and bytes alone.
-/

namespace Sha1Standard

/-! ## Bits -/

/-- The last `width` bits of a number. -/
def bitsOf (width value : Nat) : List Bool :=
  (List.range width).map fun i => value.testBit (width - 1 - i)

/-- The number that a string of bits spells. -/
def number : List Bool → Nat
  | [] => 0
  | bit :: rest => bit.toNat * 2 ^ rest.length + number rest

/-- A string of bytes as the bits it stands for. -/
def bytesBits (bytes : List UInt8) : List Bool := bytes.flatMap fun byte => bitsOf 8 byte.toNat

/-- A number is written in as many bits as the width says. -/
theorem length_bitsOf (width value : Nat) : (bitsOf width value).length = width := by
  simp [bitsOf]

/-- The leading bit comes first. -/
theorem bitsOf_succ (width value : Nat) :
    bitsOf (width + 1) value = value.testBit width :: bitsOf width value := by
  unfold bitsOf
  rw [List.range_succ_eq_map, List.map_cons, List.map_map, Nat.add_sub_cancel, Nat.sub_zero]
  refine congrArg _ (List.map_congr_left fun i _ => ?_)
  rw [Function.comp_apply, Nat.succ_eq_add_one, Nat.add_comm i 1, Nat.sub_sub]

/-- The bits above a position come before those below it. -/
theorem bitsOf_add (high low value : Nat) :
    bitsOf (high + low) value = bitsOf high (value / 2 ^ low) ++ bitsOf low value := by
  induction high with
  | zero => simp [bitsOf]
  | succ high ih =>
      rw [Nat.add_right_comm, bitsOf_succ, ih, bitsOf_succ, Nat.testBit_div_two_pow,
        List.cons_append]

/-- Higher bits are not seen. -/
theorem bitsOf_mod (width value : Nat) : bitsOf width (value % 2 ^ width) = bitsOf width value := by
  refine List.map_congr_left fun i hi => ?_
  rw [List.mem_range] at hi
  have hlow : width - 1 - i < width := by omega
  rw [Nat.testBit_mod_two_pow, decide_eq_true hlow, Bool.true_and]

/-- Bits in front count by their place. -/
theorem number_append (a b : List Bool) :
    number (a ++ b) = number a * 2 ^ b.length + number b := by
  induction a with
  | nil => simp [number]
  | cons bit a ih =>
      rw [List.cons_append, number, number, ih, List.length_append, pow_add]
      ring

/-- The bits of a number are read back modulo the width. -/
theorem number_bitsOf (width value : Nat) : number (bitsOf width value) = value % 2 ^ width := by
  induction width with
  | zero => simp [bitsOf, number, Nat.mod_one]
  | succ width ih =>
      rw [bitsOf_succ, number, ih, length_bitsOf, Nat.toNat_testBit, Nat.mod_pow_succ,
        Nat.add_comm, Nat.mul_comm]

theorem bytesBits_nil : bytesBits [] = [] := rfl

theorem bytesBits_cons (byte : UInt8) (bytes : List UInt8) :
    bytesBits (byte :: bytes) = bitsOf 8 byte.toNat ++ bytesBits bytes := List.flatMap_cons

/-- The bits of two texts follow each other. -/
theorem bytesBits_append (a b : List UInt8) :
    bytesBits (a ++ b) = bytesBits a ++ bytesBits b := List.flatMap_append

/-- A byte has eight bits. -/
theorem length_bytesBits (bytes : List UInt8) :
    (bytesBits bytes).length = 8 * bytes.length := by
  induction bytes with
  | nil => rfl
  | cons byte bytes ih =>
      rw [bytesBits_cons, List.length_append, length_bitsOf, ih, List.length_cons]
      omega

/-- A byte in front counts by its place. -/
theorem number_bytesBits_cons (byte : UInt8) (bytes : List UInt8) :
    number (bytesBits (byte :: bytes)) =
      byte.toNat * 2 ^ (8 * bytes.length) + number (bytesBits bytes) := by
  rw [bytesBits_cons, number_append, number_bitsOf, length_bytesBits,
    Nat.mod_eq_of_lt byte.toNat_lt]

/-- Dropping bytes drops eight bits for each. -/
theorem drop_bytesBits (bytes : List UInt8) (n : Nat) :
    (bytesBits bytes).drop (8 * n) = bytesBits (bytes.drop n) := by
  by_cases hn : n ≤ bytes.length
  · conv_lhs => rw [← List.take_append_drop n bytes, bytesBits_append]
    rw [List.drop_left' (by rw [length_bytesBits, List.length_take_of_le hn])]
  · rw [List.drop_of_length_le (by rw [length_bytesBits]; omega),
      List.drop_of_length_le (by omega)]
    rfl

/-- Taking bytes takes eight bits for each. -/
theorem take_bytesBits (bytes : List UInt8) (n : Nat) :
    (bytesBits bytes).take (8 * n) = bytesBits (bytes.take n) := by
  by_cases hn : n ≤ bytes.length
  · conv_lhs => rw [← List.take_append_drop n bytes, bytesBits_append]
    rw [List.take_left' (by rw [length_bytesBits, List.length_take_of_le hn])]
  · rw [List.take_of_length_le (by rw [length_bytesBits]; omega),
      List.take_of_length_le (by omega)]

/-! ## Padding -/

/-- Some number of zeros fills the block. -/
theorem exists_zeros (length : Nat) : ∃ k, (length + 1 + k) % 512 = 448 :=
  ⟨(959 - length % 512) % 512, by omega⟩

/-- The least number of zeros that leaves 64 bits of the last block. -/
def zeros (length : Nat) : Nat := Nat.find (exists_zeros length)

/-- The count is the only one below 512. -/
theorem zeros_eq {length k : Nat} (hk : k < 512) (hsum : (length + 1 + k) % 512 = 448) :
    zeros length = k := by
  have hfound : (length + 1 + zeros length) % 512 = 448 := Nat.find_spec (exists_zeros length)
  have hle : zeros length ≤ k := Nat.find_min' (exists_zeros length) hsum
  omega

/-- The padded message. -/
def pad (message : List Bool) : List Bool :=
  message ++ [true] ++ List.replicate (zeros message.length) false ++ bitsOf 64 message.length

/-! ## Words and blocks -/

/-- A word of 32 bits. -/
abbrev Word := BitVec 32

/-- The word that a list of bits writes. -/
def word (bits : List Bool) : Word := BitVec.ofNat 32 (number bits)

/-- The block of 512 bits with the given number. -/
def block (padded : List Bool) (i : Nat) : List Bool := (padded.drop (512 * i)).take 512

/-- One of the sixteen words of a block. -/
def blockWord (block : List Bool) (t : Nat) : Word := word ((block.drop (32 * t)).take 32)

/-- The schedule of a block: its words, then each from four earlier ones. -/
def scheduleWord (block : List Bool) (t : Nat) : Word :=
  if t < 16 then blockWord block t
  else
    (scheduleWord block (t - 3) ^^^ scheduleWord block (t - 8) ^^^ scheduleWord block (t - 14) ^^^
      scheduleWord block (t - 16)).rotateLeft 1
termination_by t

/-- The first sixteen words of the schedule are those of the block. -/
theorem scheduleWord_of_lt (block : List Bool) {t : Nat} (h : t < 16) :
    scheduleWord block t = blockWord block t := by
  rw [scheduleWord, if_pos h]

/-- Every later one is mixed from four before it. -/
theorem scheduleWord_of_le (block : List Bool) {t : Nat} (h : 16 ≤ t) :
    scheduleWord block t =
      (scheduleWord block (t - 3) ^^^ scheduleWord block (t - 8) ^^^
        scheduleWord block (t - 14) ^^^ scheduleWord block (t - 16)).rotateLeft 1 := by
  rw [scheduleWord, if_neg (by omega)]

/-! ## Rounds -/

/-- The function `Ch` of the standard. -/
def ch (x y z : Word) : Word := (x &&& y) ^^^ (~~~x &&& z)

/-- The function `Parity` of the standard. -/
def parity (x y z : Word) : Word := x ^^^ y ^^^ z

/-- The function `Maj` of the standard. -/
def maj (x y z : Word) : Word := (x &&& y) ^^^ (x &&& z) ^^^ (y &&& z)

/-- The two products of `ch` have no bit in common. -/
theorem ch_eq_or (x y z : Word) : ch x y z = (x &&& y) ||| (~~~x &&& z) := by
  refine BitVec.eq_of_getLsbD_eq fun i hi => ?_
  simp only [ch, BitVec.getLsbD_xor, BitVec.getLsbD_or, BitVec.getLsbD_and, BitVec.getLsbD_not, hi]
  cases x.getLsbD i <;> simp

/-- Two of the products of `maj` have a bit in common only where the third has it too. -/
theorem maj_eq_or (x y z : Word) : maj x y z = (x &&& y) ||| (x &&& z) ||| (y &&& z) := by
  refine BitVec.eq_of_getLsbD_eq fun i _ => ?_
  simp only [maj, BitVec.getLsbD_xor, BitVec.getLsbD_or, BitVec.getLsbD_and]
  cases x.getLsbD i <;> cases y.getLsbD i <;> simp

/-- The function of a round. -/
def roundFunction (t : Nat) : Word → Word → Word → Word :=
  if t < 20 then ch else if t < 40 then parity else if t < 60 then maj else parity

/-- The constant of a round. -/
def roundConstant (t : Nat) : Word :=
  if t < 20 then 0x5a827999
  else if t < 40 then 0x6ed9eba1
  else if t < 60 then 0x8f1bbcdc
  else 0xca62c1d6

/-- The five words, both of the hash value and of the working variables. -/
structure Words where
  a : Word
  b : Word
  c : Word
  d : Word
  e : Word

/-- The initial hash value. -/
def initial : Words := ⟨0x67452301, 0xefcdab89, 0x98badcfe, 0x10325476, 0xc3d2e1f0⟩

/-- One of the eighty steps of a block. -/
def roundStep (block : List Bool) (s : Words) (t : Nat) : Words where
  a := s.a.rotateLeft 5 + roundFunction t s.b s.c s.d + s.e + roundConstant t +
    scheduleWord block t
  b := s.a
  c := s.b.rotateLeft 30
  d := s.c
  e := s.d

/-- A block mixed into the hash value. -/
def compress (h : Words) (block : List Bool) : Words :=
  let s := (List.range 80).foldl (roundStep block) h
  ⟨s.a + h.a, s.b + h.b, s.c + h.c, s.d + h.d, s.e + h.e⟩

/-- The digest of 160 bits. -/
def digest (message : List Bool) : List Bool :=
  let padded := pad message
  let blocks := (List.range (padded.length / 512)).map (block padded)
  let h := blocks.foldl compress initial
  [h.a, h.b, h.c, h.d, h.e].flatMap fun x => bitsOf 32 x.toNat

end Sha1Standard
