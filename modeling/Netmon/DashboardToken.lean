import Netmon.WebServer

/-!
# The token between the dashboard and the server

The dashboard appends its token to the address of every request, encoded for a
query (`apiUrl` of `app.js`).  The server compares the parameter with its own
token as the bytes stand, without decoding it.  The two agree exactly on the
tokens that the encoding leaves alone, and only if the path does not name a
token of its own, which the server would read first.

A token is a text of Unicode characters; the encoder works on their UTF-8 bytes,
and the server's token is those bytes.
-/

namespace Netmon

/-! ## The encoder -/

/-- The characters that `encodeURIComponent` leaves alone: letters, digits and
`- _ . ! ~ * ' ( )`. -/
def Unescaped (c : Char) : Prop :=
  c.isAlphanum = true ∨ c ∈ ['-', '_', '.', '!', '~', '*', '\'', '(', ')']

instance (c : Char) : Decidable (Unescaped c) := inferInstanceAs (Decidable (_ ∨ _))

/-- One hexadecimal digit in upper case. -/
def upperHexDigit (n : Nat) : UInt8 :=
  if n < 10 then UInt8.ofNat (48 + n) else UInt8.ofNat (55 + n)

/-- `%` and the two digits of a byte. -/
def percentByte (b : UInt8) : Str :=
  [37, upperHexDigit (b.toNat / 16), upperHexDigit (b.toNat % 16)]

/-- A character that has to be escaped becomes its bytes in percent form. -/
def encodeChar (c : Char) : Str :=
  if Unescaped c then String.utf8EncodeChar c
  else (String.utf8EncodeChar c).flatMap percentByte

/-- As in the browser, character by character. -/
def encodeURIComponent (text : String) : Str := text.toList.flatMap encodeChar

/-- `apiUrl` of the dashboard. -/
def apiUrl (path : Str) (token : String) : Str :=
  if token = "" then path
  else path ++ [if 63 ∈ path then 38 else 63] ++ str "token=" ++ encodeURIComponent token

/-- The bytes of a text are those of its characters. -/
theorem str_eq_flatMap (text : String) : str text = text.toList.flatMap String.utf8EncodeChar := by
  unfold str
  rw [show text.toUTF8 = text.toByteArray from rfl, ← String.utf8Encode_toList, List.utf8Encode]
  simp

/-- Only the empty text has no bytes. -/
theorem str_eq_nil {text : String} : str text = [] ↔ text = "" := by
  constructor
  · intro h
    rw [str_eq_flatMap, List.flatMap_eq_nil_iff] at h
    refine String.toList_eq_nil_iff.mp (List.eq_nil_iff_forall_not_mem.mpr fun c hc => ?_)
    have hlength := congrArg List.length (h c hc)
    rw [String.length_utf8EncodeChar] at hlength
    exact absurd hlength c.utf8Size_pos.ne'
  · rintro rfl
    rfl

/-- The characters that are not escaped are ASCII. -/
theorem ascii_of_unescaped {c : Char} (h : Unescaped c) : c.toNat < 128 := by
  rcases h with h | h
  · simp only [Char.isAlphanum, Char.isAlpha, Char.isUpper, Char.isLower, Char.isDigit,
      Bool.or_eq_true, Bool.and_eq_true, decide_eq_true_eq, UInt32.le_iff_toNat_le] at h
    have hbounds : c.val.toNat ≤ 122 := by
      rcases h with (h | h) | h
      · exact h.2.trans (by decide)
      · exact h.2.trans (by decide)
      · exact h.2.trans (by decide)
    exact lt_of_le_of_lt hbounds (by decide)
  · simp only [List.mem_cons, List.not_mem_nil, or_false] at h
    rcases h with rfl | rfl | rfl | rfl | rfl | rfl | rfl | rfl | rfl <;> decide

/-- A character that is left alone is written as the byte of its number. -/
theorem utf8_of_unescaped {c : Char} (h : Unescaped c) :
    String.utf8EncodeChar c = [c.val.toUInt8] := by
  refine String.utf8EncodeChar_eq_singleton (Char.utf8Size_eq_one_iff.mpr ?_)
  rw [UInt32.le_iff_toNat_le]
  exact Nat.le_of_lt_succ (ascii_of_unescaped h)

/-- A character that is left alone has no byte that separates a query. -/
theorem utf8_plain {c : Char} (h : Unescaped c) :
    ∀ b ∈ String.utf8EncodeChar c, b ≠ 38 ∧ b ≠ 63 := by
  have hascii := ascii_of_unescaped h
  have hchar : ∀ {n : Nat}, n < 128 → c.val.toUInt8 = UInt8.ofNat n → c = Char.ofNat n := by
    intro n hn hbyte
    have hnat : c.toNat % 256 = n % 256 := by
      simpa [-Char.toUInt8_val] using congrArg UInt8.toNat hbyte
    rw [Nat.mod_eq_of_lt (by omega), Nat.mod_eq_of_lt (by omega)] at hnat
    rw [← hnat, Char.ofNat_toNat]
  intro b hb
  rw [utf8_of_unescaped h, List.mem_singleton] at hb
  subst hb
  refine ⟨fun hamp => ?_, fun hquery => ?_⟩
  · rw [hchar (by decide) hamp] at h
    exact absurd h (by decide)
  · rw [hchar (by decide) hquery] at h
    exact absurd h (by decide)

/-- A hexadecimal digit separates nothing in a query. -/
theorem upperHexDigit_plain {n : Nat} (h : n < 16) :
    upperHexDigit n ≠ 38 ∧ upperHexDigit n ≠ 63 := by
  interval_cases n <;> decide

/-- The encoder never writes a separator of the query. -/
theorem encoded_plain {text : String} {b : UInt8} (h : b ∈ encodeURIComponent text) :
    b ≠ 38 ∧ b ≠ 63 := by
  obtain ⟨c, -, hb⟩ := List.mem_flatMap.mp h
  unfold encodeChar at hb
  split at hb
  · rename_i hplain
    exact utf8_plain hplain b hb
  · obtain ⟨b', -, hb⟩ := List.mem_flatMap.mp hb
    have hlt : b'.toNat < 256 := b'.toNat_lt
    simp only [percentByte, List.mem_cons, List.not_mem_nil, or_false] at hb
    rcases hb with rfl | rfl | rfl
    · decide
    · exact upperHexDigit_plain (by omega)
    · exact upperHexDigit_plain (by omega)

/-- An escaped byte takes three. -/
theorem length_encodeChar (c : Char) :
    (encodeChar c).length =
      if Unescaped c then (String.utf8EncodeChar c).length
      else 3 * (String.utf8EncodeChar c).length := by
  unfold encodeChar
  split
  · rfl
  · simp [List.length_flatMap, percentByte, Nat.mul_comm]

/-- An encoding as short as the text leaves every character alone. -/
theorem unescaped_of_length {chars : List Char}
    (h : (chars.flatMap encodeChar).length ≤ (chars.flatMap String.utf8EncodeChar).length) :
    ∀ c ∈ chars, Unescaped c := by
  have hle : ∀ chars : List Char,
      (chars.flatMap String.utf8EncodeChar).length ≤ (chars.flatMap encodeChar).length := by
    intro chars
    rw [List.length_flatMap, List.length_flatMap]
    refine List.sum_le_sum fun c _ => ?_
    rw [length_encodeChar]
    split <;> omega
  induction chars with
  | nil => simp
  | cons c chars ih =>
      have hrest := hle chars
      have hpos : 0 < (String.utf8EncodeChar c).length := by
        rw [String.length_utf8EncodeChar]
        exact c.utf8Size_pos
      rw [List.flatMap_cons, List.flatMap_cons, List.length_append, List.length_append,
        length_encodeChar] at h
      by_cases hc : Unescaped c
      · rw [if_pos hc] at h
        exact List.forall_mem_cons.mpr ⟨hc, ih (by omega)⟩
      · rw [if_neg hc] at h
        omega

/-- **Encoded texts.**  The encoding is the text itself exactly when it has no
other characters than those left alone. -/
theorem encodeURIComponent_eq_iff (text : String) :
    encodeURIComponent text = str text ↔ ∀ c ∈ text.toList, Unescaped c := by
  rw [str_eq_flatMap, encodeURIComponent]
  constructor
  · intro hsame
    exact unescaped_of_length (le_of_eq (congrArg List.length hsame))
  · intro hplain
    exact List.flatMap_congr fun c hc => if_pos (hplain c hc)

/-! ## The query of the request -/

namespace WebServer

/-- The value of the first parameter of a name, if there is one. -/
def findParam? (key : Str) : List Str → Option Str
  | [] => none
  | part :: parts =>
      match splitFirst 61 part with
      | none => findParam? key parts
      | some (name, value) => if name = key then some value else findParam? key parts

/-- A parameter is looked for in the first part and then in the second. -/
theorem findParam_append (key : Str) (before after : List Str) :
    findParam key (before ++ after) =
      (findParam? key before).getD (findParam key after) := by
  induction before with
  | nil => rfl
  | cons part before ih =>
      rw [List.cons_append, findParam, findParam?]
      cases splitFirst 61 part with
      | none => exact ih
      | some pair =>
          dsimp only
          split
          · rfl
          · exact ih

/-- The token that a path names in a query of its own. -/
def pathToken (path : Str) : Option Str :=
  (splitFirst 63 path).bind fun parts => findParam? (str "token") (split parts.2 38)

/-- The first separator stays the first. -/
theorem splitFirst_append_of_mem {separator : UInt8} {a : Str} (h : separator ∈ a) (b : Str) :
    splitFirst separator (a ++ b) = (splitFirst separator a).map fun parts =>
      (parts.1, parts.2 ++ b) := by
  have hfind : ∀ a : Str, separator ∈ a →
      (a ++ b).takeWhile (· ≠ separator) = a.takeWhile (· ≠ separator) ∧
        ((a ++ b).dropWhile (· ≠ separator)).drop 1 =
          (a.dropWhile (· ≠ separator)).drop 1 ++ b := by
    intro a ha
    induction a with
    | nil => simp at ha
    | cons x a ih =>
        by_cases hx : x = separator
        · simp [hx]
        · have hrest := ih ((List.mem_cons.mp ha).resolve_left (Ne.symm hx))
          simp [hx] at hrest ⊢
          exact hrest
  obtain ⟨htake, hdrop⟩ := hfind a h
  rw [splitFirst, splitFirst, if_pos h, if_pos (List.mem_append_left b h), htake, hdrop]
  rfl

/-- A separator behind a text without one is the first. -/
theorem splitFirst_append_of_notMem {separator : UInt8} {a : Str} (h : separator ∉ a) (b : Str) :
    splitFirst separator (a ++ separator :: b) = some (a, b) := by
  have hplain : ∀ x ∈ a, decide (x ≠ separator) = true := by
    intro x hx
    simpa using fun hsame : x = separator => h (hsame ▸ hx)
  rw [splitFirst, if_pos (by simp), List.takeWhile_append_of_pos hplain,
    List.dropWhile_append_of_pos hplain]
  simp

/-- The query is what follows the first question mark of the target. -/
theorem query_of_parseRequest {raw : Str} {request : Request}
    (h : parseRequest raw = some request) :
    request.query = ((splitFirst 63 request.target).getD (request.target, [])).2 := by
  unfold parseRequest at h
  cases hline : getLine raw with
  | none => simp [hline] at h
  | some parts =>
      simp only [hline] at h
      split at h
      · simp at h
      · cases h
        rfl

/-- An encoded value is one part of the query with its name. -/
theorem split_encoded {name : Str} (hname : 38 ∉ name) (text : String) :
    split (name ++ encodeURIComponent text) 38 = [name ++ encodeURIComponent text] := by
  apply split_of_notMem
  intro hmem
  rcases List.mem_append.mp hmem with h | h
  · exact hname h
  · exact (encoded_plain h).1 rfl

/-- The first part of the query that has the name is what the server finds. -/
theorem findParam_head {name : Str} (hname : 61 ∉ name) (value : Str) (parts : List Str) :
    findParam name ((name ++ [61] ++ value) :: parts) = value := by
  have hsplit : splitFirst 61 (name ++ [61] ++ value) = some (name, value) := by
    rw [List.append_assoc]
    exact splitFirst_append_of_notMem hname value
  rw [findParam, hsplit]
  exact if_pos rfl

/-- The part of the query that the dashboard appends. -/
def tokenPart (token : String) : Str := str "token=" ++ encodeURIComponent token

/-- An encoded token is one parameter. -/
theorem split_tokenPart (token : String) : split (tokenPart token) 38 = [tokenPart token] :=
  split_encoded (by decide) token

/-- An encoded token is found under its name. -/
theorem findParam_tokenPart (token : String) :
    findParam (str "token") [tokenPart token] = encodeURIComponent token := by
  rw [tokenPart, show str "token=" = str "token" ++ [61] by decide]
  exact findParam_head (by decide) _ []

/-- **What the server reads.**  The token of a request of the dashboard is that of
the path, if it names one, and otherwise the encoded one. -/
theorem queryParam_apiUrl {token : String} (htoken : token ≠ "") {path raw : Str}
    {request : Request} (hparse : parseRequest raw = some request)
    (htarget : request.target = apiUrl path token) :
    queryParam request (str "token") = (pathToken path).getD (encodeURIComponent token) := by
  rw [queryParam, query_of_parseRequest hparse, htarget, apiUrl, if_neg htoken,
    List.append_assoc, List.append_assoc, List.singleton_append]
  show findParam _ (split ((splitFirst 63 (path ++ _ :: tokenPart token)).getD _).2 38) = _
  by_cases hquery : 63 ∈ path
  · obtain ⟨parts, hparts⟩ : ∃ parts, splitFirst 63 path = some parts := by
      rw [splitFirst, if_pos hquery]
      exact ⟨_, rfl⟩
    have hown : pathToken path = findParam? (str "token") (split parts.2 38) := by
      rw [pathToken, hparts]
      rfl
    rw [if_pos hquery, splitFirst_append_of_mem hquery, hparts, hown]
    show findParam _ (split (parts.2 ++ 38 :: tokenPart token) 38) = _
    rw [split_append_delimiter, split_tokenPart, findParam_append, findParam_tokenPart]
  · have hown : pathToken path = none := by
      rw [pathToken, splitFirst, if_neg hquery]
      rfl
    rw [if_neg hquery, splitFirst_append_of_notMem hquery, hown]
    show findParam _ (split (tokenPart token) 38) = _
    rw [split_tokenPart, findParam_tokenPart]
    rfl

/-! ## Agreement -/

/-- The token arrives as it is: the path names it, or it names none and the
encoding leaves every character alone. -/
def TokenArrives (path : Str) (token : String) : Prop :=
  pathToken path = some (str token) ∨
    (pathToken path = none ∧ ∀ c ∈ token.toList, Unescaped c)

instance (path : Str) (token : String) : Decidable (TokenArrives path token) :=
  decidable_of_iff (pathToken path = some (str token) ∨
    (pathToken path = none ∧ (token.toList.all fun c => Unescaped c) = true)) (by
    simp [TokenArrives])

/-- **Exactly when client and server agree on the token.**  A request of the
dashboard for any path, with a token that is the server's, is accepted if and
only if its header carries the token or the token arrives as it is. -/
theorem client_token_accepted_iff (token : String) (htoken : token ≠ "") (path raw : Str)
    (request : Request) (hparse : parseRequest raw = some request)
    (htarget : request.target = apiUrl path token) (config : Config)
    (hconfig : config.dashboardToken = str token) :
    authorized config request = true ↔
      headerValue request (str "x-netmon-token") = str token ∨ TokenArrives path token := by
  have hset : str token ≠ [] := mt str_eq_nil.mp htoken
  have harrives : queryParam request (str "token") = str token ↔ TokenArrives path token := by
    rw [queryParam_apiUrl htoken hparse htarget, TokenArrives]
    cases pathToken path with
    | some value => simp
    | none => simpa using encodeURIComponent_eq_iff token
  simp only [authorized, hconfig, hset, harrives, false_or, decide_eq_true_eq]

/-- The bytes of a request for a target. -/
def getRequest (target : Str) : Str :=
  str "GET " ++ target ++ str " HTTP/1.1\r\nHost: router\r\n\r\n"

/-- A token of letters and digits is accepted. -/
theorem client_token_accepted_iff_secret :
    ∃ request, parseRequest (getRequest (apiUrl (str "/api/devices?limit=5") "s3cret-T")) =
        some request ∧
      authorized { dashboardToken := str "s3cret-T" } request = true := by
  have htarget : (parseRequest (getRequest (apiUrl (str "/api/devices?limit=5") "s3cret-T"))).map
      Request.target = some (apiUrl (str "/api/devices?limit=5") "s3cret-T") := by decide +kernel
  obtain ⟨request, hparse, htarget⟩ := Option.map_eq_some_iff.mp htarget
  refine ⟨request, hparse, ?_⟩
  exact (client_token_accepted_iff "s3cret-T" (by decide) (str "/api/devices?limit=5") _ request
    hparse htarget _ rfl).mpr (Or.inr (by decide +kernel))

/-- A token with a space is sent as `my%20token`, which the server does not take
for its own. -/
theorem spaced_token_refused :
    apiUrl (str "/api/summary") "my token" = str "/api/summary?token=my%20token" ∧
      ((parseRequest (getRequest (apiUrl (str "/api/summary") "my token"))).map
        (authorized { dashboardToken := str "my token" })) = some false :=
  ⟨by decide +kernel, by decide +kernel⟩

end WebServer

end Netmon
