import Netmon.DecimalText

/-!
# Reading HTTP responses

A strict reader of HTTP/1.1 responses, as a client on the other end of a connection runs
it: a status line, header lines up to an empty one, and as many bytes of body as the one
`Content-Length` says; informational responses have no body.  A line ends with a carriage
return and a line feed, and neither stands anywhere else in the head.  The rule for writers
is `readResponse_text`: a well-formed response is read back, and nothing that follows it is
touched.
-/

namespace HttpReader

/-- A response: the three digits of its status, the reason, the headers in their order and
the body. -/
structure Response where
  code : List UInt8
  reason : List UInt8
  headers : List (List UInt8 × List UInt8)
  body : List UInt8

/-! ## The reader -/

/-- No part of a line end. -/
def isLineByte (b : UInt8) : Bool := b ≠ 13 && b ≠ 10

/-- A line without its end, and what follows it. -/
def readLine (text : List UInt8) : Option (List UInt8 × List UInt8) :=
  let rest := text.dropWhile isLineByte
  if rest.take 2 = [13, 10] then some (text.takeWhile isLineByte, rest.drop 2) else none

/-- `HTTP/1.1 `, which begins a status line. -/
def protocol : List UInt8 := [72, 84, 84, 80, 47, 49, 46, 49, 32]

/-- The status and the reason. -/
def readStatus (line : List UInt8) : Option (List UInt8 × List UInt8) :=
  let rest := line.drop protocol.length
  let code := rest.take 3
  if protocol.isPrefixOf line ∧ code.length = 3 ∧ code.all DecimalText.isDigit ∧
      (rest.drop 3).head? = some 32 then
    some (code, rest.drop 4)
  else none

/-- A space or a tab. -/
def isBlank (b : UInt8) : Bool := b = 32 || b = 9

/-- The name before the colon, and the value without the blanks in front of it. -/
def readHeader (line : List UInt8) : Option (List UInt8 × List UInt8) :=
  let name := line.takeWhile (· ≠ 58)
  if name = [] ∨ 58 ∉ line then none
  else some (name, ((line.dropWhile (· ≠ 58)).drop 1).dropWhile isBlank)

/-- The headers up to the empty line, and what follows it. -/
def readHeaders : Nat → List UInt8 → Option (List (List UInt8 × List UInt8) × List UInt8)
  | 0, _ => none
  | fuel + 1, text =>
      (readLine text).bind fun line =>
        if line.1 = [] then some ([], line.2)
        else
          (readHeader line.1).bind fun header =>
            (readHeaders fuel line.2).map fun later => (header :: later.1, later.2)

/-- Header names do not depend on case. -/
def toLower (b : UInt8) : UInt8 := if 65 ≤ b && b ≤ 90 then b + 32 else b

/-- `content-length`. -/
def lengthName : List UInt8 :=
  [99, 111, 110, 116, 101, 110, 116, 45, 108, 101, 110, 103, 116, 104]

/-- The lengths that the headers give. -/
def lengths (headers : List (List UInt8 × List UInt8)) : List (List UInt8) :=
  (headers.filter fun h => h.1.map toLower = lengthName).map Prod.snd

/-- A status of the form `1xx`. -/
def informational (code : List UInt8) : Bool := code.head? = some 49

/-- The body, and what follows it. -/
def readBody (code : List UInt8) (lengths : List (List UInt8)) (rest : List UInt8) :
    Option (List UInt8 × List UInt8) :=
  if informational code then some ([], rest)
  else
    match lengths with
    | [digits] =>
        let n := DecimalText.value digits
        if digits ≠ [] ∧ digits.all DecimalText.isDigit ∧ n ≤ rest.length then
          some (rest.take n, rest.drop n)
        else none
    | _ => none

/-- The response at the front of a text, and what follows it. -/
def readResponse (text : List UInt8) : Option (Response × List UInt8) :=
  (readLine text).bind fun line =>
    (readStatus line.1).bind fun status =>
      (readHeaders line.2.length line.2).bind fun headers =>
        (readBody status.1 (lengths headers.1) headers.2).map fun body =>
          (⟨status.1, status.2, headers.1, body.1⟩, body.2)

/-! ## Writing -/

/-- A header line without its end. -/
def headerText (h : List UInt8 × List UInt8) : List UInt8 := h.1 ++ 58 :: 32 :: h.2

/-- The response as it is sent. -/
def Response.text (r : Response) : List UInt8 :=
  protocol ++ r.code ++ 32 :: r.reason ++ [13, 10] ++
    r.headers.flatMap (fun h => headerText h ++ [13, 10]) ++ [13, 10] ++ r.body

/-- A header that stays in its line. -/
structure HeaderFits (h : List UInt8 × List UInt8) : Prop where
  name_ne_nil : h.1 ≠ []
  name : ∀ b ∈ h.1, isLineByte b = true ∧ b ≠ 58
  value : ∀ b ∈ h.2, isLineByte b = true
  not_blank : ∀ b ∈ h.2.head?, isBlank b = false

/-- The same as a check. -/
def headerFits (h : List UInt8 × List UInt8) : Bool :=
  !h.1.isEmpty && h.1.all (fun b => isLineByte b && b ≠ 58) && h.2.all isLineByte &&
    h.2.head?.all fun b => !isBlank b

/-- The check decides whether a header fits. -/
theorem HeaderFits.of_check {h : List UInt8 × List UInt8} (hcheck : headerFits h = true) :
    HeaderFits h := by
  simp only [headerFits, Bool.and_eq_true] at hcheck
  obtain ⟨⟨⟨hne, hname⟩, hvalue⟩, hblank⟩ := hcheck
  refine ⟨by simpa using hne, fun b hb => ?_, List.all_eq_true.mp hvalue, fun b hb => ?_⟩
  · simpa using List.all_eq_true.mp hname b hb
  · rw [hb] at hblank
    simpa using hblank

/-- The head stays in its lines, and the one length is that of the body. -/
structure Response.WellFormed (r : Response) : Prop where
  code_length : r.code.length = 3
  code : ∀ b ∈ r.code, DecimalText.isDigit b = true
  reason : ∀ b ∈ r.reason, isLineByte b = true
  headers : ∀ h ∈ r.headers, HeaderFits h
  body : if informational r.code then r.body = []
    else ∃ digits, lengths r.headers = [digits] ∧ digits ≠ [] ∧
      (∀ b ∈ digits, DecimalText.isDigit b = true) ∧ DecimalText.value digits = r.body.length

/-- A line is read up to its end. -/
theorem readLine_text {line : List UInt8} (h : ∀ b ∈ line, isLineByte b = true)
    (rest : List UInt8) : readLine (line ++ 13 :: 10 :: rest) = some (line, rest) := by
  have hdrop : (line ++ 13 :: 10 :: rest).dropWhile isLineByte = 13 :: 10 :: rest := by
    rw [List.dropWhile_append_of_pos h]
    rfl
  have htake : (line ++ 13 :: 10 :: rest).takeWhile isLineByte = line := by
    rw [List.takeWhile_append_of_pos h]
    exact List.append_nil _
  rw [readLine, hdrop, htake]
  rfl

/-- Digits stay in their line. -/
theorem isLineByte_of_isDigit {b : UInt8} (h : DecimalText.isDigit b = true) :
    isLineByte b = true := by
  have hne : ∀ c : UInt8, DecimalText.isDigit c = false → b ≠ c := by
    intro c hc heq
    rw [heq, hc] at h
    cases h
  simp [isLineByte, hne 13 (by decide), hne 10 (by decide)]

/-- A status line is read back. -/
theorem readStatus_text {code : List UInt8} (hlength : code.length = 3)
    (hcode : ∀ b ∈ code, DecimalText.isDigit b = true) (reason : List UInt8) :
    readStatus (protocol ++ code ++ 32 :: reason) = some (code, reason) := by
  have hdrop : (protocol ++ code ++ 32 :: reason).drop protocol.length = code ++ 32 :: reason := by
    rw [List.append_assoc]
    exact List.drop_left
  have htake : (code ++ 32 :: reason).take 3 = code := by
    rw [← hlength]
    exact List.take_left
  have hthree : (code ++ 32 :: reason).drop 3 = 32 :: reason := by
    rw [← hlength]
    exact List.drop_left
  have hfour : (code ++ 32 :: reason).drop 4 = reason := by
    rw [← List.drop_drop (i := 1) (j := 3), hthree]
    rfl
  have hversion : protocol.isPrefixOf (protocol ++ code ++ 32 :: reason) = true :=
    List.isPrefixOf_iff_prefix.mpr ⟨code ++ 32 :: reason, by rw [List.append_assoc]⟩
  rw [readStatus, hdrop, htake, hthree, hfour]
  exact if_pos ⟨hversion, hlength, List.all_eq_true.mpr hcode, rfl⟩

/-- A header is read back. -/
theorem readHeader_text {h : List UInt8 × List UInt8} (hfits : HeaderFits h) :
    readHeader (headerText h) = some h := by
  have hname : ∀ b ∈ h.1, decide (b ≠ 58) = true :=
    fun b hb => decide_eq_true (hfits.name b hb).2
  have htake : (headerText h).takeWhile (· ≠ 58) = h.1 := by
    rw [headerText, List.takeWhile_append_of_pos hname]
    exact List.append_nil _
  have hdrop : ((headerText h).dropWhile (· ≠ 58)).drop 1 = 32 :: h.2 := by
    rw [headerText, List.dropWhile_append_of_pos hname]
    rfl
  have hcolon : 58 ∈ headerText h := List.mem_append_right _ List.mem_cons_self
  have hvalue : (32 :: h.2).dropWhile isBlank = h.2 := by
    rw [List.dropWhile_cons_of_pos (by decide)]
    cases hcase : h.2 with
    | nil => rfl
    | cons b rest =>
        have hb := hfits.not_blank b (by rw [hcase]; rfl)
        exact List.dropWhile_cons_of_neg (by rw [hb]; decide)
  rw [readHeader, htake, hdrop, hvalue, if_neg]
  exact not_or.mpr ⟨hfits.name_ne_nil, not_not.mpr hcolon⟩

/-- A header stays on its line. -/
theorem headerText_line {h : List UInt8 × List UInt8} (hfits : HeaderFits h) :
    ∀ b ∈ headerText h, isLineByte b = true := by
  intro b hb
  rcases List.mem_append.mp hb with hname | hvalue
  · exact (hfits.name b hname).1
  · rcases List.mem_cons.mp hvalue with rfl | hvalue
    · decide
    rcases List.mem_cons.mp hvalue with rfl | hvalue
    · decide
    · exact hfits.value b hvalue

/-- **Header lines are read back** up to the empty line. -/
theorem readHeaders_text {headers : List (List UInt8 × List UInt8)}
    (h : ∀ header ∈ headers, HeaderFits header) (rest : List UInt8) {fuel : Nat}
    (hfuel : headers.length < fuel) :
    readHeaders fuel (headers.flatMap (fun h => headerText h ++ [13, 10]) ++ 13 :: 10 :: rest) =
      some (headers, rest) := by
  induction headers generalizing fuel with
  | nil =>
      obtain ⟨fuel, rfl⟩ : ∃ k, fuel = k + 1 := ⟨fuel - 1, by simp at hfuel; omega⟩
      rfl
  | cons header headers ih =>
      obtain ⟨fuel, rfl⟩ : ∃ k, fuel = k + 1 := ⟨fuel - 1, by omega⟩
      have hfits := h header List.mem_cons_self
      have hne : headerText header ≠ [] := by simp [headerText]
      have hlength : headers.length < fuel := by simpa using hfuel
      have hlater := ih (fun h' hmem => h h' (List.mem_cons_of_mem _ hmem)) hlength
      rw [List.flatMap_cons, List.append_assoc, List.append_assoc, readHeaders]
      simp only [List.cons_append, List.nil_append]
      rw [readLine_text (headerText_line hfits), Option.bind_some, if_neg hne,
        readHeader_text hfits, Option.bind_some, hlater]
      rfl

/-- The body is read back, and nothing beyond it. -/
theorem readBody_text {r : Response} (h : r.WellFormed) (more : List UInt8) :
    readBody r.code (lengths r.headers) (r.body ++ more) = some (r.body, more) := by
  have hbody := h.body
  unfold readBody
  by_cases hcode : informational r.code = true
  · rw [if_pos hcode] at hbody ⊢
    rw [hbody]
    rfl
  · rw [if_neg hcode] at hbody ⊢
    obtain ⟨digits, hlengths, hne, hdigits, hvalue⟩ := hbody
    have hfits : r.body.length ≤ (r.body ++ more).length := by simp
    simp only [hlengths, hvalue]
    rw [if_pos ⟨hne, List.all_eq_true.mpr hdigits, hfits⟩, List.take_left, List.drop_left]

theorem protocol_line : ∀ b ∈ protocol, isLineByte b = true :=
  List.all_eq_true.mp (by decide)

/-- **A well-formed response is read back**, whatever follows it. -/
theorem readResponse_text {r : Response} (h : r.WellFormed) (more : List UInt8) :
    readResponse (r.text ++ more) = some (r, more) := by
  have htext : r.text ++ more = (protocol ++ r.code ++ 32 :: r.reason) ++ 13 :: 10 ::
      (r.headers.flatMap (fun h => headerText h ++ [13, 10]) ++ 13 :: 10 :: (r.body ++ more)) := by
    simp [Response.text]
  have hline : ∀ b ∈ protocol ++ r.code ++ 32 :: r.reason, isLineByte b = true := by
    intro b hb
    rcases List.mem_append.mp hb with hfront | hreason
    · rcases List.mem_append.mp hfront with hprotocol | hcode
      · exact protocol_line b hprotocol
      · exact isLineByte_of_isDigit (h.code b hcode)
    · rcases List.mem_cons.mp hreason with rfl | hreason
      · decide
      · exact h.reason b hreason
  have hcount : r.headers.length ≤
      (r.headers.flatMap (fun h => headerText h ++ [13, 10])).length := by
    rw [List.length_flatMap]
    refine le_of_eq_of_le (List.length_map _).symm (List.length_le_sum_of_one_le _ fun n hn => ?_)
    obtain ⟨h, -, rfl⟩ := List.mem_map.mp hn
    simp
  have hfuel : r.headers.length < (r.headers.flatMap (fun h => headerText h ++ [13, 10]) ++
      13 :: 10 :: (r.body ++ more)).length := by
    rw [List.length_append, List.length_cons]
    omega
  rw [readResponse, htext, readLine_text hline, Option.bind_some,
    readStatus_text h.code_length h.code, Option.bind_some,
    readHeaders_text h.headers _ hfuel, Option.bind_some, readBody_text h]
  rfl

end HttpReader
