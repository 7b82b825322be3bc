import Netmon.Types

/-!
# The WebSocket handshake and frames

SHA-1 and base64 as `web_server.cpp` computes them for the accept key of a
handshake, and the text frames that carry the updates.  Words are 32-bit and
wrap as in the source.
-/

namespace Netmon

/-! ## SHA-1 -/

/-- Rotation to the left. -/
def rol (value bits : UInt32) : UInt32 := (value <<< bits) ||| (value >>> (32 - bits))

/-- `while (message.size() % 64 != 56) message.push_back(0)`. -/
def padLoop : Nat → List UInt8 → List UInt8
  | 0, message => message
  | fuel + 1, message =>
      if message.length % 64 ≠ 56 then padLoop fuel (message ++ [0]) else message

/-- The bytes of a 64-bit number, the most significant first. -/
def bigEndian64 (value : UInt64) : List UInt8 :=
  (List.range 8).map fun i => UInt8.ofNat (value.toNat / 256 ^ (7 - i) % 256)

/-- The padded message: the marker, zeros and the length in bits. -/
def sha1Pad (input : Str) : List UInt8 :=
  padLoop 64 (input ++ [128]) ++ bigEndian64 (UInt64.ofNat input.length * 8)

/-- The big-endian word at a position. -/
def wordAt (message : List UInt8) (j : Nat) : UInt32 :=
  let byte (i : Nat) : UInt32 := (message.getD i 0).toUInt32
  (byte j <<< 24) ||| (byte (j + 1) <<< 16) ||| (byte (j + 2) <<< 8) ||| byte (j + 3)

/-- Add words to the schedule, each from four earlier ones. -/
def extendSchedule : Nat → List UInt32 → List UInt32
  | 0, w => w
  | n + 1, w =>
      let earlier (back : Nat) : UInt32 := w.getD (w.length - back) 0
      extendSchedule n (w ++ [rol (earlier 3 ^^^ earlier 8 ^^^ earlier 14 ^^^ earlier 16) 1])

/-- The eighty words of a block. -/
def schedule (message : List UInt8) (chunk : Nat) : List UInt32 :=
  extendSchedule 64 ((List.range 16).map fun i => wordAt message (chunk + i * 4))

/-- The five words of the state. -/
structure Sha1State where
  a : UInt32
  b : UInt32
  c : UInt32
  d : UInt32
  e : UInt32

/-- The initial hash value. -/
def sha1Init : Sha1State :=
  ⟨0x67452301, 0xEFCDAB89, 0x98BADCFE, 0x10325476, 0xC3D2E1F0⟩

/-- The function and the constant of a round. -/
def sha1Mix (i : Nat) (s : Sha1State) : UInt32 × UInt32 :=
  if i < 20 then ((s.b &&& s.c) ||| (~~~s.b &&& s.d), 0x5A827999)
  else if i < 40 then (s.b ^^^ s.c ^^^ s.d, 0x6ED9EBA1)
  else if i < 60 then ((s.b &&& s.c) ||| (s.b &&& s.d) ||| (s.c &&& s.d), 0x8F1BBCDC)
  else (s.b ^^^ s.c ^^^ s.d, 0xCA62C1D6)

/-- One of the eighty rounds of a block. -/
def sha1Round (s : Sha1State) (word : UInt32 × Nat) : Sha1State :=
  let (f, k) := sha1Mix word.2 s
  { a := rol s.a 5 + f + s.e + k + word.1
    b := s.a
    c := rol s.b 30
    d := s.c
    e := s.d }

/-- A block is mixed into the hash value. -/
def sha1Block (message : List UInt8) (h : Sha1State) (block : Nat) : Sha1State :=
  let s := (schedule message (block * 64)).zipIdx.foldl sha1Round h
  ⟨h.a + s.a, h.b + s.b, h.c + s.c, h.d + s.d, h.e + s.e⟩

/-- The bytes of a word, the most significant first. -/
def wordBytes (word : UInt32) : List UInt8 :=
  [(word >>> 24).toUInt8, (word >>> 16).toUInt8, (word >>> 8).toUInt8, word.toUInt8]

/-- The digest of a text, in twenty bytes. -/
def sha1 (input : Str) : List UInt8 :=
  let message := sha1Pad input
  let h := (List.range ((message.length + 63) / 64)).foldl (sha1Block message) sha1Init
  [h.a, h.b, h.c, h.d, h.e].flatMap wordBytes

/-! ## Base64 -/

/-- The alphabet of the encoding. -/
def base64Table : Str :=
  str "ABCDEFGHIJKLMNOPQRSTUVWXYZabcdefghijklmnopqrstuvwxyz0123456789+/"

/-- The character of six bits of a triple, counted from the right. -/
def base64Char (triple shift : Nat) : UInt8 := base64Table.getD (triple / 2 ^ shift % 64) 0

/-- Three bytes as one number. -/
def base64Triple (a b c : UInt8) : Nat := a.toNat * 65536 + b.toNat * 256 + c.toNat

/-- Three bytes become four characters; the end is padded. -/
def base64Encode : List UInt8 → Str
  | [] => []
  | [a] =>
      let t := base64Triple a 0 0
      [base64Char t 18, base64Char t 12, 61, 61]
  | [a, b] =>
      let t := base64Triple a b 0
      [base64Char t 18, base64Char t 12, base64Char t 6, 61]
  | a :: b :: c :: rest =>
      let t := base64Triple a b c
      [base64Char t 18, base64Char t 12, base64Char t 6, base64Char t 0] ++ base64Encode rest

/-- The answer to the key of a client. -/
def websocketAcceptKey (key : Str) : Str :=
  base64Encode (sha1 (key ++ str "258EAFA5-E914-47DA-95CA-C5AB0DC85B11"))

/-! ## Frames -/

/-- The length field of a frame, in the shortest of its three forms. -/
def frameLength (length : Nat) : List UInt8 :=
  if length < 126 then [UInt8.ofNat length]
  else if length ≤ 65535 then [126, UInt8.ofNat (length / 256 % 256), UInt8.ofNat (length % 256)]
  else 127 :: bigEndian64 (UInt64.ofNat length)

/-- The frame that `sendWebSocketText` sends. -/
def webSocketText (message : Str) : Str := [129] ++ frameLength message.length ++ message

example : websocketAcceptKey (str "dGhlIHNhbXBsZSBub25jZQ==") =
    str "s3pPLMBiTxaQ9kYGzzhZRbK+xOo=" := by decide +kernel

end Netmon
