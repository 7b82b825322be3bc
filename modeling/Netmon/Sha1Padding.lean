import Netmon.HaltingLoops
import Netmon.Sha1Standard
import Netmon.WebSocketStream

/-!
# The padding of SHA-1

The loop of `sha1` that appends zeros ends, since each one brings the size nearer to 56
modulo 64.  It leaves room for the eight bytes of the length, so that the padded message
is a whole number of blocks, from which the input can be read off again.  As a string of
bits it is the padded message of the standard.
-/

namespace Netmon

open HaltingLoops

/-! ## The loop -/

/-- A round of `while ((message.size() % 64) != 56)`. -/
def padRound (message : List UInt8) : Option (List UInt8) :=
  if message.length % 64 ≠ 56 then some (message ++ [0]) else none

/-- The zeros that a message of this size lacks. -/
def zerosLeft (size : Nat) : Nat := (120 - size % 64) % 64

/-- Fewer than 64 zeros are needed. -/
theorem zerosLeft_lt (size : Nat) : zerosLeft size < 64 := Nat.mod_lt _ (by omega)

/-- One more byte, one zero less. -/
theorem zerosLeft_succ {size : Nat} (h : size % 64 ≠ 56) :
    zerosLeft size = zerosLeft (size + 1) + 1 := by
  unfold zerosLeft
  omega

/-- `zerosLeft` is the least number of zeros that fills the block. -/
theorem isLeast_zerosLeft (size : Nat) :
    IsLeast {k | (size + k) % 64 = 56} (zerosLeft size) := by
  constructor
  · show (size + zerosLeft size) % 64 = 56
    unfold zerosLeft
    omega
  · intro k hk
    have hsum : (size + k) % 64 = 56 := hk
    unfold zerosLeft
    omega

/-- The loop repeats its round until the block is full. -/
theorem padLoop_eq_iterate (fuel : Nat) (message : List UInt8) :
    padLoop fuel message = iterate padRound fuel message := by
  induction fuel generalizing message with
  | zero => rfl
  | succ fuel ih =>
      rw [padLoop, iterate, padRound]
      by_cases hsize : message.length % 64 ≠ 56
      · rw [if_pos hsize, if_pos hsize, ih]
      · rw [if_neg hsize, if_neg hsize]

/-- **The padding loop ends**, and the cut-off at 64 rounds is never reached. -/
theorem halts_padLoop (message : List UInt8) : Halts padRound message (padLoop 64 message) := by
  rw [padLoop_eq_iterate]
  refine halts_iterate (fun m => zerosLeft m.length) ?_ (zerosLeft_lt _)
  intro s t hround
  unfold padRound at hround
  split at hround
  · rename_i hsize
    rw [← Option.some.inj hround, List.length_append, List.length_singleton,
      zerosLeft_succ hsize]
    omega
  · exact absurd hround (by simp)

/-- The loop appends the zeros that are needed. -/
theorem padLoop_eq {fuel : Nat} {message : List UInt8} (h : zerosLeft message.length ≤ fuel) :
    padLoop fuel message = message ++ List.replicate (zerosLeft message.length) 0 := by
  induction fuel generalizing message with
  | zero =>
      rw [Nat.le_zero.mp h, List.replicate_zero, List.append_nil, padLoop]
  | succ fuel ih =>
      rw [padLoop]
      by_cases hsize : message.length % 64 ≠ 56
      · have hless := zerosLeft_succ hsize
        rw [if_pos hsize, ih (by rw [List.length_append, List.length_singleton]; omega), hless,
          List.length_append, List.length_singleton, List.append_assoc, List.singleton_append,
          List.replicate_succ]
      · have hzero : zerosLeft message.length = 0 := by
          unfold zerosLeft
          omega
        rw [if_neg hsize, hzero, List.replicate_zero, List.append_nil]

/-! ## The padded message -/

/-- `message` is `input`, the marker, the least number of zeros that leaves eight bytes of
a block, and in those the size of `input` in bits. -/
structure IsPadded (input message : List UInt8) (zeros : Nat) (size : List UInt8) : Prop where
  eq : message = input ++ [128] ++ List.replicate zeros 0 ++ size
  least : IsLeast {k | (input.length + 1 + k) % 64 = 56} zeros
  width : size.length = 8
  number : FrameReader.number size = 8 * input.length

/-- The length in bits does not overflow below 2^61 bytes. -/
theorem toNat_bitLength {n : Nat} (h : n < 2 ^ 61) : (UInt64.ofNat n * 8).toNat = 8 * n := by
  have height : (8 : UInt64).toNat = 8 := rfl
  rw [UInt64.toNat_mul, UInt64.toNat_ofNat', height]
  omega

/-- The padding: a one bit, zeros and the length. -/
theorem sha1Pad_eq (input : Str) :
    sha1Pad input = input ++ [128] ++ List.replicate (zerosLeft (input.length + 1)) 0 ++
      bigEndian64 (UInt64.ofNat input.length * 8) := by
  have hless := zerosLeft_lt (input ++ [128]).length
  rw [sha1Pad, padLoop_eq (by omega), List.length_append, List.length_singleton]

/-- The padding is that of the standard, as long as the length does not overflow. -/
theorem sha1Pad_isPadded {input : Str} (h : input.length < 2 ^ 61) :
    IsPadded input (sha1Pad input) (zerosLeft (input.length + 1))
      (bigEndian64 (UInt64.ofNat input.length * 8)) where
  eq := sha1Pad_eq input
  least := isLeast_zerosLeft _
  width := bigEndian64_length _
  number := by rw [number_bigEndian64, toNat_bitLength h]

section Shape

variable {input other message size size' : List UInt8} {zeros zeros' : Nat}

/-- A padded message is a whole number of blocks. -/
theorem IsPadded.length_mod (h : IsPadded input message zeros size) : message.length % 64 = 0 := by
  have hsum : (input.length + 1 + zeros) % 64 = 56 := h.least.1
  rw [h.eq, List.length_append, List.length_append, List.length_append, h.width,
    List.length_replicate, List.length_singleton]
  omega

/-- **Padding can be undone**: the last eight bytes tell where the input ends. -/
theorem IsPadded.input_eq (h : IsPadded input message zeros size)
    (h' : IsPadded other message zeros' size') : input = other := by
  have heq := h.eq.symm.trans h'.eq
  have hsize : size = size' := (List.append_inj' heq (h.width.trans h'.width.symm)).2
  have hlength : input.length = other.length := by
    have hnumber := h.number
    rw [hsize, h'.number] at hnumber
    omega
  rw [List.append_assoc, List.append_assoc, List.append_assoc, List.append_assoc] at heq
  exact (List.append_inj heq hlength).1

end Shape

/-! ## Bits -/

open Sha1Standard in
/-- The bytes of a number to base 256 are its bits. -/
theorem bytesBits_digits (value count : Nat) :
    bytesBits ((List.range count).map fun i =>
      UInt8.ofNat (value / 256 ^ (count - 1 - i) % 256)) = bitsOf (8 * count) value := by
  induction count with
  | zero => rfl
  | succ count ih =>
      have hpow : 256 ^ count = 2 ^ (8 * count) := by norm_num [pow_mul]
      rw [digits_succ, bytesBits_cons, toNat_ofNat_mod, ih, Nat.mul_succ, Nat.add_comm,
        bitsOf_add, hpow]
      exact congrArg (· ++ _) (bitsOf_mod 8 _)

/-- The eight bytes of a number have its bits. -/
theorem bytesBits_bigEndian64 (value : UInt64) :
    Sha1Standard.bytesBits (bigEndian64 value) = Sha1Standard.bitsOf 64 value.toNat :=
  bytesBits_digits value.toNat 8

/-- The bits of zero bytes. -/
theorem bytesBits_zeros (n : Nat) :
    Sha1Standard.bytesBits (List.replicate n 0) = List.replicate (8 * n) false := by
  induction n with
  | zero => rfl
  | succ n ih =>
      rw [List.replicate_succ, Sha1Standard.bytesBits_cons, ih, Nat.mul_succ, Nat.add_comm,
        List.replicate_add]
      rfl

/-- Seven zeros follow the one in its byte; with them the count is the standard's. -/
theorem zeros_bytes (n : Nat) : Sha1Standard.zeros (8 * n) = 7 + 8 * zerosLeft (n + 1) := by
  refine Sha1Standard.zeros_eq ?_ ?_
  · have hless := zerosLeft_lt (n + 1)
    omega
  · have hsum : (n + 1 + zerosLeft (n + 1)) % 64 = 56 := (isLeast_zerosLeft (n + 1)).1
    omega

/-- **The padded bytes are the standard's padded bits.** -/
theorem bytesBits_sha1Pad {input : Str} (h : input.length < 2 ^ 61) :
    Sha1Standard.bytesBits (sha1Pad input) = Sha1Standard.pad (Sha1Standard.bytesBits input) := by
  have hmarker : Sha1Standard.bytesBits [128] = [true] ++ List.replicate 7 false := by decide
  rw [sha1Pad_eq, Sha1Standard.pad, Sha1Standard.length_bytesBits, zeros_bytes,
    List.replicate_add, Sha1Standard.bytesBits_append, Sha1Standard.bytesBits_append,
    Sha1Standard.bytesBits_append, bytesBits_zeros, bytesBits_bigEndian64, toNat_bitLength h,
    hmarker]
  simp only [List.append_assoc]

end Netmon
