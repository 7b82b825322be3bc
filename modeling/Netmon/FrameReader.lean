import Mathlib

/-!
# Reading WebSocket frames

A frame is a byte with the final flag, three reserved bits and the opcode, a
byte with the mask flag and a length of seven bits, the rest of the length in
two or eight bytes where seven bits do not hold it, the mask and the payload.
`readStream` takes the complete frames off the front of a stream and leaves the
rest.

The rule for a writer is `readStream_flatMap`: when each of its texts is read as
one frame whatever follows, their concatenation is read as those frames.
-/

namespace FrameReader

structure Frame where
  final : Bool
  reserved : Nat
  opcode : Nat
  masked : Bool
  payload : List UInt8
  deriving DecidableEq

/-- A final text frame without mask. -/
def Frame.text (message : List UInt8) : Frame := ⟨true, 0, 1, false, message⟩

/-- The number that bytes spell, the most significant first. -/
def number : List UInt8 → Nat
  | [] => 0
  | b :: rest => b.toNat * 256 ^ rest.length + number rest

theorem number_lt (bytes : List UInt8) : number bytes < 256 ^ bytes.length := by
  induction bytes with
  | nil => simp [number]
  | cons b rest ih =>
      have hb : b.toNat + 1 ≤ 256 := b.toNat_lt
      calc number (b :: rest) < b.toNat * 256 ^ rest.length + 256 ^ rest.length := by
            rw [number]
            omega
        _ = (b.toNat + 1) * 256 ^ rest.length := by rw [Nat.add_mul, Nat.one_mul]
        _ ≤ 256 * 256 ^ rest.length := Nat.mul_le_mul_right _ hb
        _ = 256 ^ (b :: rest).length := by rw [List.length_cons, pow_succ, Nat.mul_comm]

/-- The mask flag and the length at the front of a text, with what follows.  The
longest form has a zero in its first bit. -/
def readLength : List UInt8 → Option (Bool × Nat × List UInt8)
  | [] => none
  | b :: rest =>
      let masked := decide (128 ≤ b)
      let short := b.toNat % 128
      if short < 126 then some (masked, short, rest)
      else if short = 126 then
        if rest.length < 2 then none else some (masked, number (rest.take 2), rest.drop 2)
      else if rest.length < 8 then none
      else if number (rest.take 8) < 2 ^ 63 then
        some (masked, number (rest.take 8), rest.drop 8)
      else none

/-- Apply a mask of four bytes. -/
def unmask (key payload : List UInt8) : List UInt8 :=
  payload.zipIdx.map fun (b, i) => b ^^^ key.getD (i % 4) 0

/-- The frame at the front of a text and what follows it; nothing when it is not
complete. -/
def readFrame : List UInt8 → Option (Frame × List UInt8)
  | [] => none
  | b :: rest =>
      match readLength rest with
      | none => none
      | some (masked, length, body) =>
          let key := if masked then body.take 4 else []
          let data := if masked then body.drop 4 else body
          if (masked ∧ body.length < 4) ∨ data.length < length then none
          else
            some (⟨decide (128 ≤ b), b.toNat / 16 % 8, b.toNat % 16, masked,
              if masked then unmask key (data.take length) else data.take length⟩,
              data.drop length)

/-- The complete frames of a text and the rest.  A frame has at least two bytes,
so the length of the text is enough fuel. -/
def readFrames : Nat → List UInt8 → List Frame × List UInt8
  | 0, text => ([], text)
  | fuel + 1, text =>
      match readFrame text with
      | none => ([], text)
      | some (frame, rest) => (frame :: (readFrames fuel rest).1, (readFrames fuel rest).2)

def readStream (text : List UInt8) : List Frame × List UInt8 := readFrames text.length text

/-- A length is read in the same way whatever follows it. -/
theorem readLength_append {field left : List UInt8} {masked : Bool} {length : Nat}
    (h : readLength field = some (masked, length, left)) (more : List UInt8) :
    readLength (field ++ more) = some (masked, length, left ++ more) := by
  cases field with
  | nil => exact absurd h (by simp [readLength])
  | cons b rest =>
      rw [readLength] at h
      rw [List.cons_append, readLength]
      by_cases hshort : b.toNat % 128 < 126
      · simp only [if_pos hshort] at h ⊢
        cases h
        rfl
      · by_cases htwo : b.toNat % 128 = 126
        · simp only [if_neg hshort, if_pos htwo] at h ⊢
          by_cases hlen : rest.length < 2
          · simp [hlen] at h
          · rw [if_neg hlen] at h
            cases h
            rw [if_neg (by rw [List.length_append]; omega),
              List.take_append_of_le_length (by omega), List.drop_append_of_le_length (by omega)]
        · simp only [if_neg hshort, if_neg htwo] at h ⊢
          by_cases hlen : rest.length < 8
          · simp [hlen] at h
          · rw [if_neg hlen] at h
            by_cases hbit : number (rest.take 8) < 2 ^ 63
            · rw [if_pos hbit] at h
              cases h
              rw [if_neg (by rw [List.length_append]; omega),
                List.take_append_of_le_length (by omega), if_pos hbit,
                List.drop_append_of_le_length (by omega)]
            · rw [if_neg hbit] at h
              exact absurd h (by simp)

/-- **How long a length field has to be.**  One byte holds lengths below 126, and
three bytes those below 65536. -/
theorem length_of_readLength {field : List UInt8} {masked : Bool} {length : Nat}
    (h : readLength field = some (masked, length, [])) :
    1 ≤ field.length ∧ (126 ≤ length → 3 ≤ field.length) ∧
      (65536 ≤ length → 9 ≤ field.length) := by
  cases field with
  | nil => exact absurd h (by simp [readLength])
  | cons b rest =>
      rw [readLength] at h
      rw [List.length_cons]
      by_cases hshort : b.toNat % 128 < 126
      · simp only [if_pos hshort, Option.some.injEq, Prod.mk.injEq] at h
        omega
      · by_cases htwo : b.toNat % 128 = 126
        · simp only [if_neg hshort, if_pos htwo] at h
          by_cases hlen : rest.length < 2
          · simp [hlen] at h
          · simp only [if_neg hlen, Option.some.injEq, Prod.mk.injEq] at h
            have hbound := number_lt (rest.take 2)
            rw [List.length_take, Nat.min_eq_left (by omega)] at hbound
            omega
        · simp only [if_neg hshort, if_neg htwo] at h
          by_cases hlen : rest.length < 8
          · simp [hlen] at h
          · omega

/-- A frame without mask is read up to the end of its payload. -/
theorem readFrame_unmasked {field payload : List UInt8}
    (h : readLength field = some (false, payload.length, [])) (b : UInt8) (more : List UInt8) :
    readFrame (b :: (field ++ (payload ++ more))) =
      some (⟨decide (128 ≤ b), b.toNat / 16 % 8, b.toNat % 16, false, payload⟩, more) := by
  rw [readFrame, readLength_append h]
  simp

/-- **Frames follow one another.**  When each text is read as its frame whatever
follows it, the concatenation of the texts is read as the frames, with nothing
left. -/
theorem readFrames_flatMap {α : Type} {encode : α → List UInt8} {frame : α → Frame}
    {items : List α}
    (h : ∀ a ∈ items, ∀ more, readFrame (encode a ++ more) = some (frame a, more)) {fuel : Nat}
    (hfuel : items.length ≤ fuel) :
    readFrames fuel (items.flatMap encode) = (items.map frame, []) := by
  induction items generalizing fuel with
  | nil =>
      cases fuel with
      | zero => rfl
      | succ fuel => rfl
  | cons a items ih =>
      cases fuel with
      | zero =>
          rw [List.length_cons] at hfuel
          omega
      | succ fuel =>
          have hrest := ih (fun a' ha' => h a' (List.mem_cons_of_mem _ ha'))
            (Nat.le_of_succ_le_succ hfuel)
          rw [List.flatMap_cons, readFrames, h a List.mem_cons_self]
          simp only [hrest, List.map_cons]

/-- A concatenation of texts that are not empty is at least as long as their
number. -/
theorem length_le_flatMap {α : Type} {encode : α → List UInt8} {items : List α}
    (h : ∀ a ∈ items, encode a ≠ []) : items.length ≤ (items.flatMap encode).length := by
  induction items with
  | nil => simp
  | cons a items ih =>
      have hrest := ih fun a' ha' => h a' (List.mem_cons_of_mem _ ha')
      have hone := List.length_pos_of_ne_nil (h a List.mem_cons_self)
      rw [List.flatMap_cons, List.length_append, List.length_cons]
      omega

theorem readStream_flatMap {α : Type} {encode : α → List UInt8} {frame : α → Frame}
    {items : List α}
    (h : ∀ a ∈ items, ∀ more, readFrame (encode a ++ more) = some (frame a, more)) :
    readStream (items.flatMap encode) = (items.map frame, []) := by
  refine readFrames_flatMap h (length_le_flatMap fun a ha hempty => ?_)
  have hframe := h a ha []
  rw [hempty] at hframe
  exact absurd hframe (by simp [readFrame])

end FrameReader
