import Netmon.FrameReader
import Netmon.WebSocket

/-!
# The stream of WebSocket updates

What a client receives is the concatenation of the frames of `sendWebSocketText`.
The three forms of the length field are read back as the length of the message,
so that a frame ends where its message does, and the next one is found.
-/

namespace Netmon

theorem toNat_ofNat_mod (n : Nat) : (UInt8.ofNat (n % 256)).toNat = n % 256 := by
  rw [UInt8.toNat_ofNat']
  omega

/-- The bytes of a number to base 256: the first one, and those of the rest. -/
theorem digits_succ (value count : Nat) :
    ((List.range (count + 1)).map fun i =>
      UInt8.ofNat (value / 256 ^ (count + 1 - 1 - i) % 256)) =
      UInt8.ofNat (value / 256 ^ count % 256) ::
        (List.range count).map fun i => UInt8.ofNat (value / 256 ^ (count - 1 - i) % 256) := by
  rw [List.range_succ_eq_map, List.map_cons, List.map_map, Nat.add_sub_cancel, Nat.sub_zero]
  refine congrArg _ (List.map_congr_left fun i _ => ?_)
  have hexp : count - (i + 1) = count - 1 - i := by omega
  rw [Function.comp_apply, Nat.succ_eq_add_one, hexp]

/-- The bytes of a number to base 256 spell its last digits. -/
theorem number_digits (value count : Nat) :
    FrameReader.number
      ((List.range count).map fun i => UInt8.ofNat (value / 256 ^ (count - 1 - i) % 256)) =
      value % 256 ^ count := by
  induction count with
  | zero => simp [FrameReader.number, Nat.mod_one]
  | succ count ih =>
      rw [digits_succ, FrameReader.number, ih, List.length_map, List.length_range,
        toNat_ofNat_mod, pow_succ, Nat.mod_mul, Nat.add_comm, Nat.mul_comm]

theorem bigEndian64_length (value : UInt64) : (bigEndian64 value).length = 8 := by
  simp [bigEndian64]

/-- The eight bytes of a number spell it. -/
theorem number_bigEndian64 (value : UInt64) :
    FrameReader.number (bigEndian64 value) = value.toNat := by
  have hlast : value.toNat % 256 ^ 8 = value.toNat := Nat.mod_eq_of_lt value.toNat_lt
  rw [← hlast]
  exact number_digits value.toNat 8

/-- **The length field is read back**, in each of its three forms. -/
theorem readLength_frameLength {length : Nat} (h : length < 2 ^ 63) :
    FrameReader.readLength (frameLength length) = some (false, length, []) := by
  unfold frameLength
  by_cases hshort : length < 126
  · have hbyte : (UInt8.ofNat length).toNat = length := by
      rw [UInt8.toNat_ofNat']
      omega
    have hflag : ¬ 128 ≤ UInt8.ofNat length := by
      rw [UInt8.le_iff_toNat_le, hbyte]
      simp only [UInt8.reduceToNat]
      omega
    have hmod : length % 128 = length := Nat.mod_eq_of_lt (by omega)
    simp only [if_pos hshort, FrameReader.readLength, hbyte, hmod, hflag, decide_false]
  · rw [if_neg hshort]
    by_cases htwo : length ≤ 65535
    · have hnumber : FrameReader.number
          [UInt8.ofNat (length / 256 % 256), UInt8.ofNat (length % 256)] = length := by
        simp only [FrameReader.number, List.length_cons, List.length_nil, toNat_ofNat_mod]
        omega
      rw [if_pos htwo]
      simp only [FrameReader.readLength, List.take, List.drop, List.length_cons, List.length_nil,
        hnumber]
      rfl
    · have hvalue : (UInt64.ofNat length).toNat = length :=
        UInt64.toNat_ofNat_of_lt' (by rw [UInt64.size]; omega)
      have hall : (bigEndian64 (UInt64.ofNat length)).length = 8 := bigEndian64_length _
      have htake := List.take_of_length_le hall.le
      have hdrop := List.drop_of_length_le hall.le
      rw [if_neg htwo, FrameReader.readLength]
      simp only [hall, htake, hdrop, number_bigEndian64, hvalue, if_pos h]
      rfl

/-- Each form is used only for the lengths that the shorter ones do not hold. -/
theorem frameLength_length (length : Nat) :
    (frameLength length).length =
      if length < 126 then 1 else if length ≤ 65535 then 3 else 9 := by
  unfold frameLength
  by_cases hshort : length < 126
  · simp [hshort]
  · by_cases htwo : length ≤ 65535
    · simp [hshort, htwo]
    · simp [hshort, htwo, bigEndian64_length]

/-- **No length field is shorter** than the one of the frame. -/
theorem frameLength_shortest {length : Nat} {masked : Bool} {field : List UInt8}
    (h : FrameReader.readLength field = some (masked, length, [])) :
    (frameLength length).length ≤ field.length := by
  obtain ⟨hone, hthree, hnine⟩ := FrameReader.length_of_readLength h
  rw [frameLength_length]
  split
  · exact hone
  · split
    · omega
    · omega

/-- **A frame is read as its message, whatever follows it.** -/
theorem readFrame_webSocketText {message : Str} (h : message.length < 2 ^ 63) (more : Str) :
    FrameReader.readFrame (webSocketText message ++ more) =
      some (FrameReader.Frame.text message, more) := by
  rw [webSocketText, List.append_assoc, List.append_assoc, List.singleton_append,
    FrameReader.readFrame_unmasked (readLength_frameLength h)]
  rfl

/-- **The stream of updates is read back.**  The frames of any messages, sent one
after the other, are read as these messages and nothing is left; and the length
field of each is as short as a length field can be. -/
theorem webSocketText_stream (messages : List Str) (h : ∀ m ∈ messages, m.length < 2 ^ 63) :
    FrameReader.readStream (messages.flatMap webSocketText) =
        (messages.map FrameReader.Frame.text, []) ∧
      ∀ m ∈ messages, ∃ field, webSocketText m = 129 :: field ++ m ∧
        FrameReader.readLength field = some (false, m.length, []) ∧
        ∀ other masked, FrameReader.readLength other = some (masked, m.length, []) →
          field.length ≤ other.length := by
  refine ⟨FrameReader.readStream_flatMap fun m hm => readFrame_webSocketText (h m hm), ?_⟩
  intro m hm
  exact ⟨frameLength m.length, rfl, readLength_frameLength (h m hm),
    fun other masked hother => frameLength_shortest hother⟩

/-- Messages of all three length fields: none or one byte, 126 bytes and 65536. -/
theorem webSocketText_stream_lengths :
    (webSocketText (List.replicate 126 97)).take 4 = [129, 126, 0, 126] ∧
      FrameReader.readStream
          ([str "a", [], List.replicate 126 97, List.replicate 65536 97].flatMap webSocketText) =
        ([.text (str "a"), .text [], .text (List.replicate 126 97),
          .text (List.replicate 65536 97)], []) := by
  have hshort : ∀ m ∈ [str "a", [], List.replicate 126 97, List.replicate 65536 97],
      m.length < 2 ^ 63 := by
    simp only [List.forall_mem_cons, List.length_replicate]
    decide
  refine ⟨?_, (webSocketText_stream _ hshort).1⟩
  rw [webSocketText, List.length_replicate]
  rfl

end Netmon
