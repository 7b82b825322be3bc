import Netmon.DelimitedItems

/-!
# Reading JSON strings and objects of strings

A string literal is scanned into pieces, bytes taken as they are and UTF-16 code
units written as `\u`; the pieces are then put together, with surrogate pairs as
one character.  Control bytes inside a literal are refused.  `readObject` reads an
object whose values are strings and returns its members in the order of the
text.

A writer is covered by two rules.  `readString_flatMap` asks that the escape of
each byte is scanned as one piece that stands for the byte; `readObject_members`
asks that the writer's literals are read back whatever follows them.
-/

namespace JsonReader

/-! ## Strings -/

/-- A part of a string literal. -/
inductive Piece where
  | byte (b : UInt8)
  | unit (code : Nat)
  deriving DecidableEq

/-- The value of a hexadecimal digit of either case. -/
def hexValue (b : UInt8) : Option Nat :=
  if 48 ≤ b ∧ b ≤ 57 then some (b.toNat - 48)
  else if 65 ≤ b ∧ b ≤ 70 then some (b.toNat - 55)
  else if 97 ≤ b ∧ b ≤ 102 then some (b.toNat - 87)
  else none

/-- The byte that an escape of one letter stands for. -/
def shortEscape (b : UInt8) : Option UInt8 :=
  if b = 34 ∨ b = 92 ∨ b = 47 then some b
  else if b = 98 then some 8
  else if b = 102 then some 12
  else if b = 110 then some 10
  else if b = 114 then some 13
  else if b = 116 then some 9
  else none

/-- The code unit of four hexadecimal digits. -/
def codeUnit (a b c d : UInt8) : Option Nat :=
  (hexValue a).bind fun w => (hexValue b).bind fun x => (hexValue c).bind fun y =>
    (hexValue d).map fun z => ((w * 16 + x) * 16 + y) * 16 + z

/-- Put a piece in front of those that were read. -/
def addPiece (piece : Piece) (read : List Piece × List UInt8) : List Piece × List UInt8 :=
  (piece :: read.1, read.2)

/-- The pieces up to the closing quote, and what follows it. -/
def readPieces : List UInt8 → Option (List Piece × List UInt8)
  | [] => none
  | b :: rest =>
      if b = 34 then some ([], rest)
      else if b = 92 then
        match rest with
        | [] => none
        | letter :: rest =>
            if letter = 117 then
              match rest with
              | w :: x :: y :: z :: rest =>
                  (codeUnit w x y z).bind fun code => (readPieces rest).map (addPiece (.unit code))
              | _ => none
            else (shortEscape letter).bind fun c => (readPieces rest).map (addPiece (.byte c))
      else if b < 32 then none
      else (readPieces rest).map (addPiece (.byte b))

theorem readPieces_quote (more : List UInt8) : readPieces (34 :: more) = some ([], more) := by
  rw [readPieces.eq_def]
  simp

/-- An escape of one letter is one byte. -/
theorem readPieces_short {letter c : UInt8} (h : shortEscape letter = some c)
    (more : List UInt8) :
    readPieces (92 :: letter :: more) = (readPieces more).map (addPiece (.byte c)) := by
  have hletter : letter ≠ 117 := by
    intro hu
    rw [hu, show shortEscape 117 = none by decide] at h
    exact absurd h (by simp)
  rw [readPieces.eq_def]
  simp [hletter, h]

/-- Four hexadecimal digits are one code unit. -/
theorem readPieces_unit {w x y z : UInt8} {code : Nat} (h : codeUnit w x y z = some code)
    (more : List UInt8) :
    readPieces (92 :: 117 :: w :: x :: y :: z :: more) =
      (readPieces more).map (addPiece (.unit code)) := by
  rw [readPieces.eq_def]
  simp [h]

/-- Any other byte is itself. -/
theorem readPieces_plain {b : UInt8} (hquote : b ≠ 34) (hslash : b ≠ 92) (hcontrol : ¬ b < 32)
    (more : List UInt8) :
    readPieces (b :: more) = (readPieces more).map (addPiece (.byte b)) := by
  rw [readPieces.eq_def]
  simp only [if_neg hquote, if_neg hslash, if_neg hcontrol]

/-- The bytes of a character. -/
def utf8 (code : Nat) : List UInt8 :=
  if code < 0x80 then [UInt8.ofNat code]
  else if code < 0x800 then [UInt8.ofNat (0xC0 + code / 64), UInt8.ofNat (0x80 + code % 64)]
  else if code < 0x10000 then
    [UInt8.ofNat (0xE0 + code / 4096), UInt8.ofNat (0x80 + code / 64 % 64),
      UInt8.ofNat (0x80 + code % 64)]
  else
    [UInt8.ofNat (0xF0 + code / 262144), UInt8.ofNat (0x80 + code / 4096 % 64),
      UInt8.ofNat (0x80 + code / 64 % 64), UInt8.ofNat (0x80 + code % 64)]

/-- The text of the pieces.  A high surrogate has to be followed by a low one. -/
def joinPieces : List Piece → Option (List UInt8)
  | [] => some []
  | .byte b :: rest => (joinPieces rest).map (b :: ·)
  | .unit code :: rest =>
      if 0xD800 ≤ code ∧ code < 0xDC00 then
        match rest with
        | .unit low :: rest =>
            if 0xDC00 ≤ low ∧ low < 0xE000 then
              (joinPieces rest).map
                (utf8 (0x10000 + (code - 0xD800) * 0x400 + (low - 0xDC00)) ++ ·)
            else none
        | _ => none
      else if 0xDC00 ≤ code ∧ code < 0xE000 then none
      else (joinPieces rest).map (utf8 code ++ ·)

/-- The string at the front of a text, and what follows it. -/
def readString : List UInt8 → Option (List UInt8 × List UInt8)
  | [] => none
  | b :: rest =>
      if b = 34 then
        (readPieces rest).bind fun read => (joinPieces read.1).map fun s => (s, read.2)
      else none

/-- A byte that a piece stands for by itself. -/
def Piece.StandsFor (piece : Piece) (b : UInt8) : Prop :=
  piece = .byte b ∨ piece = .unit b.toNat ∧ b.toNat < 0x80

/-- Pieces that stand for the bytes of a text are put together to the text. -/
theorem joinPieces_map {piece : UInt8 → Piece} (h : ∀ b, (piece b).StandsFor b)
    (s : List UInt8) : joinPieces (s.map piece) = some s := by
  induction s with
  | nil => rfl
  | cons b s ih =>
      rw [List.map_cons]
      rcases h b with hbyte | ⟨hunit, hsmall⟩
      · rw [hbyte, joinPieces, ih]
        rfl
      · have hhigh : ¬ (0xD800 ≤ b.toNat ∧ b.toNat < 0xDC00) := by omega
        have hlow : ¬ (0xDC00 ≤ b.toNat ∧ b.toNat < 0xE000) := by omega
        rw [hunit, joinPieces.eq_def]
        simp only [if_neg hhigh, if_neg hlow, ih, utf8, if_pos hsmall, UInt8.ofNat_toNat]
        rfl

/-- **A literal of escaped bytes is read back, whatever follows it.** -/
theorem readString_flatMap {escape : UInt8 → List UInt8} {piece : UInt8 → Piece}
    (hescape : ∀ b more, readPieces (escape b ++ more) =
      (readPieces more).map (addPiece (piece b)))
    (hpiece : ∀ b, (piece b).StandsFor b) (s more : List UInt8) :
    readString (34 :: (s.flatMap escape ++ 34 :: more)) = some (s, more) := by
  have hpieces : readPieces (s.flatMap escape ++ 34 :: more) = some (s.map piece, more) := by
    induction s with
    | nil => exact readPieces_quote more
    | cons b s ih =>
        rw [List.flatMap_cons, List.append_assoc, hescape, ih]
        rfl
  rw [readString, if_pos rfl, hpieces, Option.bind_some, joinPieces_map hpiece, Option.map_some]

/-! ## Objects -/

/-- The white space between tokens. -/
def isBlank (b : UInt8) : Bool := b = 32 || b = 9 || b = 10 || b = 13

def skipBlanks (text : List UInt8) : List UInt8 := text.dropWhile isBlank

/-- What follows a token of one byte. -/
def readToken (token : UInt8) : List UInt8 → Option (List UInt8)
  | [] => none
  | b :: rest => if b = token then some (skipBlanks rest) else none

/-- A name and its value, with white space around them. -/
def readMember (text : List UInt8) : Option ((List UInt8 × List UInt8) × List UInt8) :=
  (readString (skipBlanks text)).bind fun name =>
    (readToken 58 (skipBlanks name.2)).bind fun text =>
      (readString text).map fun value => ((name.1, value.1), skipBlanks value.2)

/-- The members of the object at the front of a text, and what follows it. -/
def readObject (text : List UInt8) : Option (List (List UInt8 × List UInt8) × List UInt8) :=
  (readToken 123 (skipBlanks text)).bind fun text =>
    if text.head? = some 125 then some ([], text.drop 1)
    else DelimitedItems.readItems readMember 44 125 text

/-! ## Objects that were written without white space -/

theorem skipBlanks_cons {b : UInt8} (h : isBlank b = false) (more : List UInt8) :
    skipBlanks (b :: more) = b :: more := by
  rw [skipBlanks, List.dropWhile_cons, h]
  rfl

theorem readToken_self {token b : UInt8} (h : isBlank b = false) (more : List UInt8) :
    readToken token (token :: b :: more) = some (b :: more) := by
  rw [readToken, if_pos rfl, skipBlanks_cons h]

section

variable {quote : List UInt8 → List UInt8}

/-- The member that a writer of literals makes of a name and a value. -/
def writeMember (quote : List UInt8 → List UInt8) (m : List UInt8 × List UInt8) : List UInt8 :=
  quote m.1 ++ [58] ++ quote m.2

/-- A literal begins with a quote. -/
theorem exists_quote (h : ∀ s more, readString (quote s ++ more) = some (s, more))
    (s : List UInt8) : ∃ rest, quote s = 34 :: rest := by
  have hread := h s []
  cases hquote : quote s with
  | nil =>
      rw [hquote] at hread
      exact absurd hread (by simp [readString])
  | cons b rest =>
      by_cases hb : b = 34
      · exact ⟨rest, by rw [hb]⟩
      · rw [hquote, List.cons_append, readString, if_neg hb] at hread
        exact absurd hread (by simp)

theorem readMember_writeMember (h : ∀ s more, readString (quote s ++ more) = some (s, more))
    (m : List UInt8 × List UInt8) {b : UInt8} (hb : isBlank b = false) (more : List UInt8) :
    readMember (writeMember quote m ++ b :: more) = some (m, b :: more) := by
  obtain ⟨nameRest, hname⟩ := exists_quote h m.1
  obtain ⟨valueRest, hvalue⟩ := exists_quote h m.2
  have hstart : skipBlanks (quote m.1 ++ 58 :: (quote m.2 ++ b :: more)) =
      quote m.1 ++ 58 :: (quote m.2 ++ b :: more) := by
    rw [hname, List.cons_append]
    exact skipBlanks_cons (by decide) _
  have hcolon : readToken 58 (skipBlanks (58 :: (quote m.2 ++ b :: more))) =
      some (quote m.2 ++ b :: more) := by
    rw [skipBlanks_cons (by decide), hvalue, List.cons_append]
    exact readToken_self (by decide) _
  have htext : writeMember quote m ++ b :: more =
      quote m.1 ++ 58 :: (quote m.2 ++ b :: more) := by
    simp [writeMember]
  rw [htext, readMember, hstart, h, Option.bind_some, hcolon, Option.bind_some, h,
    Option.map_some, skipBlanks_cons hb]

theorem readsBack_writeMember (h : ∀ s more, readString (quote s ++ more) = some (s, more))
    (m : List UInt8 × List UInt8) :
    DelimitedItems.ReadsBack readMember 44 125 (writeMember quote) m := by
  intro b hb more
  refine readMember_writeMember h m ?_ more
  rcases hb with rfl | rfl
  · decide
  · decide

/-- The text of some members begins with a quote. -/
theorem exists_quote_members (h : ∀ s more, readString (quote s ++ more) = some (s, more))
    (m : List UInt8 × List UInt8) (members : List (List UInt8 × List UInt8))
    (more : List UInt8) :
    ∃ rest, [44].intercalate ((m :: members).map (writeMember quote)) ++ more = 34 :: rest := by
  obtain ⟨rest, hrest⟩ := exists_quote h m.1
  cases members with
  | nil =>
      refine ⟨rest ++ 58 :: (quote m.2 ++ more), ?_⟩
      simp [writeMember, hrest]
  | cons other members =>
      refine ⟨rest ++ 58 :: (quote m.2 ++ 44 ::
        ([44].intercalate ((other :: members).map (writeMember quote)) ++ more)), ?_⟩
      rw [List.map_cons, List.map_cons, List.intercalate_cons_cons, ← List.map_cons]
      simp [writeMember, hrest]

/-- **An object of literals is read back, whatever follows it.** -/
theorem readObject_members (h : ∀ s more, readString (quote s ++ more) = some (s, more))
    (members : List (List UInt8 × List UInt8)) (more : List UInt8) :
    readObject ([123] ++ [44].intercalate (members.map (writeMember quote)) ++ [125] ++ more) =
      some (members, more) := by
  have htext : [123] ++ [44].intercalate (members.map (writeMember quote)) ++ [125] ++ more =
      123 :: ([44].intercalate (members.map (writeMember quote)) ++ 125 :: more) := by
    simp
  rw [htext, readObject, skipBlanks_cons (by decide)]
  cases members with
  | nil =>
      rw [List.map_nil, List.intercalate_nil, List.nil_append, readToken_self (by decide)]
      rfl
  | cons m members =>
      obtain ⟨rest, hrest⟩ := exists_quote_members h m members (125 :: more)
      have hall := DelimitedItems.readItems_intercalate (by decide)
        (fun m' (_ : m' ∈ m :: members) => readsBack_writeMember h m') more
      rw [hrest] at hall
      rw [hrest, readToken_self (by decide), Option.bind_some]
      exact hall

end

end JsonReader
