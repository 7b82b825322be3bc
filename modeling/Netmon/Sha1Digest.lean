import Netmon.Sha1Padding

/-!
# The digest of SHA-1

`sha1` computes on bytes and `std::uint32_t` what the standard states on bits and words.
The words of a block, its schedule, the eighty rounds and the chain over the blocks are
compared one after the other, through the state read as the five words of the standard.
-/

namespace Netmon

open HaltingLoops Sha1Standard

/-! ## Words -/

theorem toBitVec_rol {value bits : UInt32} (hpos : 0 < bits.toNat) (hlt : bits.toNat < 32) :
    (rol value bits).toBitVec = value.toBitVec.rotateLeft bits.toNat := by
  have hleft : (bits.toBitVec % 32).toNat = bits.toNat := by
    rw [BitVec.toNat_umod]
    exact Nat.mod_eq_of_lt hlt
  have hright : ((32 - bits).toBitVec % 32).toNat = 32 - bits.toNat := by
    have hsub : (32 - bits).toNat = 32 - bits.toNat :=
      UInt32.toNat_sub_of_le _ _ (UInt32.le_iff_toNat_le.mpr (Nat.le_of_lt hlt))
    rw [BitVec.toNat_umod, UInt32.toNat_toBitVec, hsub]
    exact Nat.mod_eq_of_lt (by simp; omega)
  rw [rol, UInt32.toBitVec_or, UInt32.toBitVec_shiftLeft, UInt32.toBitVec_shiftRight,
    BitVec.shiftLeft_eq', BitVec.ushiftRight_eq', hleft, hright, BitVec.rotateLeft_def,
    Nat.mod_eq_of_lt hlt]

/-- A byte moved up in a word keeps all its bits. -/
theorem toNat_byte_shiftLeft (byte : UInt8) {bits : UInt32} (h : bits.toNat ≤ 24) :
    (byte.toUInt32 <<< bits).toNat = 2 ^ bits.toNat * byte.toNat := by
  have hbyte : byte.toNat < 2 ^ 8 := byte.toNat_lt
  have hbound : 2 ^ bits.toNat * byte.toNat < 2 ^ 32 :=
    calc 2 ^ bits.toNat * byte.toNat < 2 ^ bits.toNat * 2 ^ 8 :=
          Nat.mul_lt_mul_of_pos_left hbyte (Nat.two_pow_pos _)
      _ = 2 ^ (bits.toNat + 8) := (pow_add 2 _ 8).symm
      _ ≤ 2 ^ 32 := Nat.pow_le_pow_right (by omega) (by omega)
  have hbits : bits.toNat % 32 = bits.toNat := Nat.mod_eq_of_lt (by omega)
  rw [UInt32.toNat_shiftLeft, UInt8.toNat_toUInt32, hbits, Nat.shiftLeft_eq, Nat.mul_comm,
    Nat.mod_eq_of_lt hbound]

/-- Four bytes joined by shifts are the number that their bits spell. -/
theorem toNat_joined (a b c d : UInt8) :
    ((a.toUInt32 <<< 24) ||| (b.toUInt32 <<< 16) ||| (c.toUInt32 <<< 8) ||| d.toUInt32).toNat =
      number (bytesBits [a, b, c, d]) := by
  have ha : (a.toUInt32 <<< 24).toNat = 2 ^ 24 * a.toNat := toNat_byte_shiftLeft a (by decide)
  have hb : (b.toUInt32 <<< 16).toNat = 2 ^ 16 * b.toNat := toNat_byte_shiftLeft b (by decide)
  have hc : (c.toUInt32 <<< 8).toNat = 2 ^ 8 * c.toNat := toNat_byte_shiftLeft c (by decide)
  have hb' : 2 ^ 16 * b.toNat < 2 ^ 24 := by
    have := b.toNat_lt
    omega
  have hc' : 2 ^ 8 * c.toNat < 2 ^ 16 := by
    have := c.toNat_lt
    omega
  -- Each operand lies below the lowest bit of the sum of those before it.
  have hab : 2 ^ 24 * a.toNat + 2 ^ 16 * b.toNat = 2 ^ 16 * (2 ^ 8 * a.toNat + b.toNat) := by ring
  have habc : 2 ^ 16 * (2 ^ 8 * a.toNat + b.toNat) + 2 ^ 8 * c.toNat =
      2 ^ 8 * (2 ^ 16 * a.toNat + 2 ^ 8 * b.toNat + c.toNat) := by ring
  rw [UInt32.toNat_or, UInt32.toNat_or, UInt32.toNat_or, ha, hb, hc, UInt8.toNat_toUInt32,
    ← Nat.two_pow_add_eq_or_of_lt hb', hab, ← Nat.two_pow_add_eq_or_of_lt hc', habc,
    ← Nat.two_pow_add_eq_or_of_lt d.toNat_lt]
  simp only [number_bytesBits_cons, bytesBits_nil, number, List.length_cons, List.length_nil]
  ring

/-- Four bytes in range are read as the word of their bits. -/
theorem wordAt_eq_word {message : List UInt8} {j : Nat} (h : j + 3 < message.length) :
    (wordAt message j).toBitVec = word (bytesBits ((message.drop j).take 4)) := by
  have h0 : j < message.length := by omega
  have h1 : j + 1 < message.length := by omega
  have h2 : j + 2 < message.length := by omega
  have hbytes : (message.drop j).take 4 =
      [message[j], message[j + 1], message[j + 2], message[j + 3]] := by
    rw [List.drop_eq_getElem_cons h0, List.drop_eq_getElem_cons h1, List.drop_eq_getElem_cons h2,
      List.drop_eq_getElem_cons h]
    rfl
  have hword : wordAt message j = (message[j].toUInt32 <<< 24) |||
      (message[j + 1].toUInt32 <<< 16) ||| (message[j + 2].toUInt32 <<< 8) |||
        message[j + 3].toUInt32 := by
    simp only [wordAt, List.getD_eq_getElem _ _ h0, List.getD_eq_getElem _ _ h1,
      List.getD_eq_getElem _ _ h2, List.getD_eq_getElem _ _ h]
  refine BitVec.eq_of_toNat_eq ?_
  rw [hbytes, word, hword, ← toNat_joined, BitVec.toNat_ofNat, UInt32.toNat_toBitVec,
    Nat.mod_eq_of_lt (UInt32.toNat_lt _)]

/-! ## The schedule -/

/-- A word of a block is read inside the message, as the standard's word. -/
theorem wordAt_block {message : List UInt8} {i t : Nat} (hi : i * 64 + 64 ≤ message.length)
    (ht : t < 16) :
    (wordAt message (i * 64 + t * 4)).toBitVec = blockWord (block (bytesBits message) i) t := by
  have hblock : block (bytesBits message) i = bytesBits ((message.drop (i * 64)).take 64) := by
    rw [block, ← take_bytesBits, ← drop_bytesBits]
    congr 2
    omega
  have hword : (((message.drop (i * 64)).take 64).drop (t * 4)).take 4 =
      (message.drop (i * 64 + t * 4)).take 4 := by
    rw [List.drop_take, List.drop_drop, List.take_take, Nat.min_eq_left (by omega)]
  rw [wordAt_eq_word (by omega), blockWord, hblock, ← hword, ← take_bytesBits, ← drop_bytesBits]
  congr 3
  omega

/-- `w` holds at least sixteen words, and they are those of the standard's schedule. -/
structure FollowsSchedule (block : List Bool) (w : List UInt32) : Prop where
  sixteen : 16 ≤ w.length
  entry : ∀ t < w.length, (w.getD t 0).toBitVec = scheduleWord block t

/-- One more word, from the four that the source reads. -/
theorem FollowsSchedule.push {block : List Bool} {w : List UInt32}
    (h : FollowsSchedule block w) :
    FollowsSchedule block (w ++ [rol (w.getD (w.length - 3) 0 ^^^ w.getD (w.length - 8) 0 ^^^
      w.getD (w.length - 14) 0 ^^^ w.getD (w.length - 16) 0) 1]) := by
  have hsixteen := h.sixteen
  refine ⟨by rw [List.length_append]; omega, fun t ht => ?_⟩
  rw [List.length_append, List.length_singleton] at ht
  rcases Nat.lt_or_eq_of_le (Nat.le_of_lt_succ ht) with hlt | rfl
  · rw [List.getD_append _ _ _ _ hlt]
    exact h.entry t hlt
  · rw [List.getD_append_right _ _ _ _ le_rfl, Nat.sub_self, List.getD_cons_zero,
      toBitVec_rol (by decide) (by decide), scheduleWord_of_le block hsixteen,
      UInt32.toBitVec_xor, UInt32.toBitVec_xor, UInt32.toBitVec_xor,
      h.entry _ (by omega), h.entry _ (by omega), h.entry _ (by omega), h.entry _ (by omega)]
    rfl

theorem FollowsSchedule.extend {block : List Bool} {w : List UInt32}
    (h : FollowsSchedule block w) (n : Nat) :
    FollowsSchedule block (extendSchedule n w) ∧
      (extendSchedule n w).length = w.length + n := by
  induction n generalizing w with
  | zero => exact ⟨h, rfl⟩
  | succ n ih =>
      obtain ⟨hfollows, hlength⟩ := ih h.push
      refine ⟨hfollows, hlength.trans ?_⟩
      rw [List.length_append, List.length_singleton]
      omega

/-- **The schedule of a block** is the standard's, with its eighty words. -/
theorem schedule_follows {message : List UInt8} {i : Nat} (hi : i * 64 + 64 ≤ message.length) :
    FollowsSchedule (block (bytesBits message) i) (schedule message (i * 64)) ∧
      (schedule message (i * 64)).length = 80 := by
  refine FollowsSchedule.extend ⟨?_, fun t ht => ?_⟩ 64
  · rw [List.length_map, List.length_range]
  · rw [List.length_map, List.length_range] at ht
    rw [scheduleWord_of_lt _ ht, ← wordAt_block hi ht]
    simp [List.getD_eq_getElem?_getD, ht]

/-! ## Rounds -/

/-- The state as the five words of the standard. -/
def Sha1State.words (s : Sha1State) : Words :=
  ⟨s.a.toBitVec, s.b.toBitVec, s.c.toBitVec, s.d.toBitVec, s.e.toBitVec⟩

/-- The disjunctions of the source are the sums modulo two of the standard. -/
theorem sha1Mix_standard (t : Nat) (s : Sha1State) :
    (sha1Mix t s).1.toBitVec = roundFunction t s.words.b s.words.c s.words.d ∧
      (sha1Mix t s).2.toBitVec = roundConstant t := by
  unfold sha1Mix roundFunction roundConstant
  by_cases h20 : t < 20
  · rw [if_pos h20, if_pos h20, if_pos h20]
    exact ⟨(ch_eq_or _ _ _).symm, rfl⟩
  · rw [if_neg h20, if_neg h20, if_neg h20]
    by_cases h40 : t < 40
    · rw [if_pos h40, if_pos h40, if_pos h40]
      exact ⟨rfl, rfl⟩
    · rw [if_neg h40, if_neg h40, if_neg h40]
      by_cases h60 : t < 60
      · rw [if_pos h60, if_pos h60, if_pos h60]
        exact ⟨(maj_eq_or _ _ _).symm, rfl⟩
      · rw [if_neg h60, if_neg h60, if_neg h60]
        exact ⟨rfl, rfl⟩

theorem sha1Round_standard {block : List Bool} {x : UInt32} {t : Nat}
    (hx : x.toBitVec = scheduleWord block t) (s : Sha1State) :
    (sha1Round s (x, t)).words = roundStep block s.words t := by
  obtain ⟨hf, hk⟩ := sha1Mix_standard t s
  have h5 : (rol s.a 5).toBitVec = s.a.toBitVec.rotateLeft 5 :=
    toBitVec_rol (by decide) (by decide)
  have h30 : (rol s.b 30).toBitVec = s.b.toBitVec.rotateLeft 30 :=
    toBitVec_rol (by decide) (by decide)
  simp only [sha1Round, Sha1State.words, roundStep, UInt32.toBitVec_add, hf, hk, hx, h5, h30]

/-- The rounds over a schedule that follows the standard's are the standard's. -/
theorem rounds_standard {block : List Bool} {w : List UInt32} (hw : FollowsSchedule block w)
    (s : Sha1State) :
    (w.zipIdx.foldl sha1Round s).words =
      (List.range w.length).foldl (roundStep block) s.words := by
  have hindices : w.zipIdx.map Prod.snd = List.range w.length := by
    rw [List.zipIdx_map_snd, List.range_eq_range']
  rw [← hindices, List.foldl_map]
  refine List.foldl_rel (r := fun s w => Sha1State.words s = w) rfl ?_
  intro entry hentry s _ hs
  obtain ⟨x, t⟩ := entry
  have hget := List.mem_zipIdx_iff_getElem?.mp hentry
  have hlt := (List.getElem?_eq_some_iff.mp hget).1
  have hx : x.toBitVec = scheduleWord block t := by
    rw [← hw.entry t hlt, List.getD_eq_getElem?_getD, hget, Option.getD_some]
  rw [← hs, sha1Round_standard hx]

/-- **A block is mixed in** as the standard says. -/
theorem sha1Block_standard {message : List UInt8} {i : Nat} (hi : i * 64 + 64 ≤ message.length)
    (h : Sha1State) :
    (sha1Block message h i).words = compress h.words (block (bytesBits message) i) := by
  obtain ⟨hfollows, hlength⟩ := schedule_follows hi
  have hrounds := rounds_standard hfollows h
  rw [hlength] at hrounds
  rw [compress, ← hrounds]
  simp only [sha1Block, Sha1State.words, UInt32.toBitVec_add, BitVec.add_comm]

/-- The chain over whole blocks of a message is the standard's. -/
theorem chain_standard {message : List UInt8} {count : Nat} (h : count * 64 ≤ message.length) :
    ((List.range count).foldl (sha1Block message) sha1Init).words =
      (List.range count).foldl (fun h i => compress h (block (bytesBits message) i)) initial := by
  refine List.foldl_rel (r := fun s w => Sha1State.words s = w) rfl ?_
  intro i hi s _ hs
  rw [List.mem_range] at hi
  rw [← hs, sha1Block_standard (by omega)]

/-! ## The digest -/

theorem bytesBits_wordBytes (x : UInt32) :
    bytesBits (wordBytes x) = bitsOf 32 x.toBitVec.toNat := by
  have hbyte : ∀ {bits : UInt32}, bits.toNat < 32 →
      bitsOf 8 (x >>> bits).toUInt8.toNat = bitsOf 8 (x.toNat / 2 ^ bits.toNat) := by
    intro bits hbits
    rw [UInt32.toNat_toUInt8, UInt32.toNat_shiftRight, Nat.mod_eq_of_lt hbits,
      Nat.shiftRight_eq_div_pow, bitsOf_mod]
  have hlast : bitsOf 8 x.toUInt8.toNat = bitsOf 8 x.toNat := by
    rw [UInt32.toNat_toUInt8, bitsOf_mod]
  rw [UInt32.toNat_toBitVec, bitsOf_add 8 24, bitsOf_add 8 16, bitsOf_add 8 8, wordBytes,
    bytesBits_cons, bytesBits_cons, bytesBits_cons, bytesBits_cons, bytesBits_nil,
    List.append_nil, hlast, hbyte (by decide), hbyte (by decide), hbyte (by decide)]
  rfl

theorem bytesBits_flatMap_wordBytes (l : List UInt32) :
    bytesBits (l.flatMap wordBytes) = l.flatMap fun x => bitsOf 32 x.toBitVec.toNat := by
  rw [bytesBits, List.flatMap_assoc]
  exact List.flatMap_congr fun x _ => bytesBits_wordBytes x

/-- **The digest is the standard's.** -/
theorem sha1_digest {input : Str} (h : input.length < 2 ^ 61) :
    bytesBits (sha1 input) = digest (bytesBits input) := by
  have hwhole := (sha1Pad_isPadded h).length_mod
  have hcount : (bytesBits (sha1Pad input)).length / 512 = ((sha1Pad input).length + 63) / 64 := by
    rw [length_bytesBits]
    omega
  have hchain := chain_standard
    (show ((sha1Pad input).length + 63) / 64 * 64 ≤ (sha1Pad input).length by omega)
  unfold sha1 digest
  simp only [← bytesBits_sha1Pad h, hcount, List.foldl_map, ← hchain]
  exact bytesBits_flatMap_wordBytes _

/-- **`sha1` is SHA-1**, for every input shorter than 2^61 bytes.  The loop of the padding
ends with the least number of zeros, the padded message has its parts in place, its size
is a multiple of 64 and so every byte of every word of every chunk is in range, no other
input has the same padded message, and the digest is the standard's. -/
theorem sha1_correct (input : Str) (h : input.length < 2 ^ 61) :
    (∃ zeros size, Halts padRound (input ++ [128]) (input ++ [128] ++ List.replicate zeros 0) ∧
      IsPadded input (sha1Pad input) zeros size) ∧
      (sha1Pad input).length % 64 = 0 ∧
      (∀ i t, i * 64 < (sha1Pad input).length → t < 16 →
        i * 64 + t * 4 + 3 < (sha1Pad input).length) ∧
      (∀ other : Str, other.length < 2 ^ 61 → sha1Pad other = sha1Pad input → other = input) ∧
      bytesBits (sha1 input) = digest (bytesBits input) := by
  have hpadded := sha1Pad_isPadded h
  have hwhole := hpadded.length_mod
  refine ⟨⟨_, _, ?_, hpadded⟩, hwhole, fun i t hi ht => by omega, ?_, sha1_digest h⟩
  · have hhalts := halts_padLoop (input ++ [128])
    rwa [padLoop_eq (zerosLeft_lt _).le, List.length_append, List.length_singleton] at hhalts
  · intro other hother heq
    exact (sha1Pad_isPadded hother).input_eq (heq ▸ hpadded)

/-- The standard's digest of three letters, computed by the source. -/
theorem sha1_correct_abc :
    digest (bytesBits (str "abc")) = bytesBits
      [0xa9, 0x99, 0x3e, 0x36, 0x47, 0x06, 0x81, 0x6a, 0xba, 0x3e, 0x25, 0x71, 0x78, 0x50, 0xc2,
        0x6c, 0x9c, 0xd0, 0xd8, 0x9d] := by
  obtain ⟨-, -, -, -, hdigest⟩ := sha1_correct (str "abc") (by decide)
  rw [← hdigest]
  exact congrArg bytesBits (by decide +kernel)

end Netmon
