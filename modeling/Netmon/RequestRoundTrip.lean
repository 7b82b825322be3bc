import Netmon.DashboardToken
import Netmon.WebAccess

/-!
# Requests are read back

A request as a client renders it: the request line, the header lines and an empty
line, each ended by `\r\n` or by `\n` alone, and then any bytes.  The parser cuts
the lines, drops the carriage returns, trims the values and lower-cases the names,
so that it finds the method, the target and, for every header, the value of its last
occurrence.  A request whose last `X-Netmon-Token` is the token of the dashboard is
therefore always authorised.
-/

namespace Netmon

namespace WebServer

/-! ## Requests as they are rendered -/

/-- A header as it is written, with the spaces around its value. -/
structure Header where
  name : Str
  before : Str
  value : Str
  after : Str
  name_ne_nil : name ≠ []
  name_trimmed : trim name = name
  colon_notMem : 58 ∉ name
  break_notMem_name : 10 ∉ name
  value_trimmed : trim value = value
  break_notMem_value : 10 ∉ value
  before_blank : ∀ b ∈ before, isSpace b = true ∧ b ≠ 10
  after_blank : ∀ b ∈ after, isSpace b = true ∧ b ≠ 10

/-- How lines end. -/
inductive LineEnd where
  | crlf
  | lf
  deriving DecidableEq

/-- What stands before the line break. -/
def LineEnd.return : LineEnd → Str
  | .crlf => [13]
  | .lf => []

/-- The text of a line with its end. -/
def LineEnd.line (ending : LineEnd) (text : Str) : Str := text ++ ending.return ++ [10]

def Header.text (h : Header) : Str := h.name ++ [58] ++ h.before ++ h.value ++ h.after

def renderRequest (ending : LineEnd) (method target version : Str) (headers : List Header)
    (body : Str) : Str :=
  ending.line (method ++ [32] ++ target ++ [32] ++ version) ++
    headers.flatMap (fun h => ending.line h.text) ++ ending.line [] ++ body

/-- The value of the last header of a name. -/
def lastValue (headers : List Header) (key : Str) : Option Str :=
  ((headers.filter fun h => lower h.name = key).getLast?).map Header.value

/-! ## Lines -/

theorem getLine_append {line : Str} (h : 10 ∉ line) (rest : Str) :
    getLine (line ++ 10 :: rest) = some (line, rest) := by
  induction line with
  | nil => simp [getLine]
  | cons b line ih =>
      obtain ⟨hb, hline⟩ := not_or.mp (mt List.mem_cons.mpr h)
      rw [List.cons_append, getLine, if_neg (Ne.symm hb), ih hline]

/-- A line is cut off whole, up to its carriage return. -/
theorem getLine_line (ending : LineEnd) {text : Str} (h : 10 ∉ text) (rest : Str) :
    getLine (ending.line text ++ rest) = some (text ++ ending.return, rest) := by
  have hline : ending.line text ++ rest = (text ++ ending.return) ++ 10 :: rest := by
    simp [LineEnd.line]
  rw [hline]
  refine getLine_append ?_ rest
  cases ending with
  | crlf => simp [LineEnd.return, h]
  | lf => simpa [LineEnd.return] using h

theorem LineEnd.return_blank (ending : LineEnd) : ∀ b ∈ ending.return, isSpace b = true := by
  cases ending <;> simp [LineEnd.return, isSpace]

/-- Only the end of a line is looked at. -/
theorem dropReturn_append (a : Str) {b : UInt8} (hb : b ≠ 13) (rest : Str) :
    dropReturn (a ++ b :: rest) = a ++ b :: dropReturn rest := by
  cases rest with
  | nil => simp [dropReturn, hb]
  | cons c rest =>
      have hlast : (a ++ b :: c :: rest).getLast? = (c :: rest).getLast? := by
        rw [List.getLast?_append, List.getLast?_cons_cons]
        simp [List.getLast?_cons]
      unfold dropReturn
      rw [hlast]
      split
      · rw [List.dropLast_append_of_ne_nil (by simp), List.dropLast_cons_of_ne_nil (by simp)]
      · rfl

/-- A carriage return at the end is white space. -/
theorem trim_dropReturn (text : Str) : trim (dropReturn text) = trim text := by
  unfold dropReturn
  split
  · rename_i hlast
    obtain ⟨init, rfl⟩ := List.getLast?_eq_some_iff.mp hlast
    have hpad := trim_pad (List.forall_mem_nil _) LineEnd.crlf.return_blank init
    change trim ([] ++ init ++ [13]) = trim init at hpad
    rw [List.nil_append] at hpad
    rw [List.dropLast_concat, hpad]
  · rfl

/-! ## Headers -/

/-- **A header line sets the header**, under its name in lower case. -/
theorem addHeader_text (ending : LineEnd) (h : Header) (headers : StrMap Str) :
    addHeader (dropReturn (h.text ++ ending.return)) headers =
      headers.insert (lower h.name) h.value := by
  have htext : h.text ++ ending.return =
      h.name ++ 58 :: (h.before ++ h.value ++ (h.after ++ ending.return)) := by
    simp [Header.text]
  have hright : ∀ b ∈ h.after ++ ending.return, isSpace b = true := by
    intro b hb
    rcases List.mem_append.mp hb with hafter | hreturn
    · exact (h.after_blank b hafter).1
    · exact ending.return_blank b hreturn
  have hvalue : trim (h.before ++ h.value ++ (h.after ++ ending.return)) = h.value := by
    rw [trim_pad (fun b hb => (h.before_blank b hb).1) hright, h.value_trimmed]
  rw [htext, dropReturn_append _ (by decide), addHeader, splitFirst_append_of_notMem h.colon_notMem]
  simp only [h.name_trimmed, trim_dropReturn, hvalue]

theorem Header.break_notMem_text (h : Header) : 10 ∉ h.text := by
  have hbefore : 10 ∉ h.before := fun hb => (h.before_blank 10 hb).2 rfl
  have hafter : 10 ∉ h.after := fun hb => (h.after_blank 10 hb).2 rfl
  simp [Header.text, h.break_notMem_name, h.break_notMem_value, hbefore, hafter]

theorem dropReturn_text_ne_nil (ending : LineEnd) (h : Header) :
    dropReturn (h.text ++ ending.return) ≠ [] := by
  have htext : h.text ++ ending.return =
      h.name ++ 58 :: (h.before ++ h.value ++ h.after ++ ending.return) := by
    simp [Header.text]
  rw [htext, dropReturn_append _ (by decide)]
  simp

/-- **The header lines are read in order** up to the empty line. -/
theorem readHeaders_render (ending : LineEnd) (headers : List Header) (body : Str) {fuel : Nat}
    (hfuel : headers.length < fuel) (m : StrMap Str) :
    readHeaders fuel (headers.flatMap (fun h => ending.line h.text) ++ (ending.line [] ++ body)) m =
      m.insertAll (fun h => lower h.name) Header.value headers := by
  induction headers generalizing fuel m with
  | nil =>
      cases fuel with
      | zero => omega
      | succ fuel =>
          have hempty : dropReturn ([] ++ ending.return) = [] := by cases ending <;> decide
          rw [List.flatMap_nil, List.nil_append, readHeaders, getLine_line ending List.not_mem_nil]
          simp only [hempty, if_true]
          rfl
  | cons h headers ih =>
      cases fuel with
      | zero => omega
      | succ fuel =>
          rw [List.flatMap_cons, List.append_assoc, readHeaders,
            getLine_line ending h.break_notMem_text]
          simp only [if_neg (dropReturn_text_ne_nil ending h), addHeader_text]
          exact ih (Nat.lt_of_succ_lt_succ hfuel) _

/-- There is at least one byte for every header, and one for the empty line. -/
theorem headers_length_lt (ending : LineEnd) (headers : List Header) (body : Str) :
    headers.length <
      (headers.flatMap (fun h => ending.line h.text) ++ (ending.line [] ++ body)).length := by
  induction headers with
  | nil => simp [LineEnd.line]
  | cons h headers ih =>
      have hline : 1 ≤ (ending.line h.text).length := by
        rw [LineEnd.line, List.length_append, List.length_singleton]
        omega
      rw [List.flatMap_cons, List.append_assoc, List.length_append, List.length_cons]
      omega

/-! ## The request line -/

/-- A word is read up to the space after it. -/
theorem readWord_append {blank word : Str} (hblank : ∀ b ∈ blank, isSpace b = true)
    (hne : word ≠ []) (hword : ∀ b ∈ word, isSpace b = false) {b : UInt8}
    (hb : isSpace b = true) (rest : Str) :
    readWord (blank ++ (word ++ b :: rest)) = (word, b :: rest) := by
  have hstart : (blank ++ (word ++ b :: rest)).dropWhile isSpace = word ++ b :: rest := by
    rw [List.dropWhile_append_of_pos hblank]
    cases word with
    | nil => exact absurd rfl hne
    | cons c word =>
        rw [List.cons_append, List.dropWhile_cons_of_neg (by simp [hword c List.mem_cons_self])]
  obtain ⟨htake, hdrop⟩ := span_append (p := (!isSpace ·)) (w := word) (by simpa using hword)
    (b :: rest) (by simp [hb])
  rw [readWord, hstart, htake, hdrop]

/-- **A rendered request is parsed** into its method, its target and its headers. -/
theorem parseRequest_render (ending : LineEnd) {method target version : Str}
    (headers : List Header) (body : Str) (hmethod : method ≠ [])
    (hmethod' : ∀ b ∈ method, isSpace b = false) (htarget : target ≠ [])
    (htarget' : ∀ b ∈ target, isSpace b = false) (hversion : 10 ∉ version) :
    parseRequest (renderRequest ending method target version headers body) = some
      { method := method
        target := target
        path := ((splitFirst 63 target).getD (target, [])).1
        query := ((splitFirst 63 target).getD (target, [])).2
        headers := (∅ : StrMap Str).insertAll (fun h => lower h.name) Header.value headers } := by
  have hnoBreak : ∀ w : Str, (∀ b ∈ w, isSpace b = false) → 10 ∉ w := by
    intro w hw hmem
    exact absurd (hw 10 hmem) (by decide)
  have hline : 10 ∉ method ++ [32] ++ target ++ [32] ++ version := by
    simp [hnoBreak method hmethod', hnoBreak target htarget', hversion]
  have htext : renderRequest ending method target version headers body =
      ending.line (method ++ [32] ++ target ++ [32] ++ version) ++
        (headers.flatMap (fun h => ending.line h.text) ++ (ending.line [] ++ body)) := by
    simp [renderRequest]
  have hdrop : dropReturn (method ++ [32] ++ target ++ [32] ++ version ++ ending.return) =
      method ++ 32 :: (target ++ 32 :: dropReturn (version ++ ending.return)) := by
    have hparts : method ++ [32] ++ target ++ [32] ++ version ++ ending.return =
        (method ++ 32 :: target) ++ 32 :: (version ++ ending.return) := by
      simp
    rw [hparts, dropReturn_append _ (by decide), List.append_assoc, List.cons_append]
  have hfirst := readWord_append (List.forall_mem_nil _) hmethod hmethod'
    (show isSpace 32 = true by decide) (target ++ 32 :: dropReturn (version ++ ending.return))
  have hsecond := readWord_append (show ∀ b ∈ [32], isSpace b = true by simp [isSpace]) htarget
    htarget' (show isSpace 32 = true by decide) (dropReturn (version ++ ending.return))
  rw [List.nil_append] at hfirst
  rw [List.singleton_append] at hsecond
  have hheaders := readHeaders_render ending headers body (headers_length_lt ending headers body) ∅
  rw [htext, parseRequest, getLine_line ending hline]
  simp only [hdrop, hfirst, hsecond, hmethod, htarget, or_self, if_false, hheaders]

/-! ## The token -/

/-- A header that none of its name follows is the last of its name. -/
theorem lastValue_of_last {before after : List Header} {h : Header} {key : Str}
    (hname : lower h.name = key) (hafter : ∀ h' ∈ after, lower h'.name ≠ key) :
    lastValue (before ++ h :: after) key = some h.value := by
  have hnone : (after.filter fun h => lower h.name = key) = [] := by
    refine List.filter_eq_nil_iff.mpr fun h' hh' => ?_
    simpa using hafter h' hh'
  unfold lastValue
  rw [List.filter_append, List.filter_cons_of_pos (by simpa using hname), hnone]
  simp

/-- **Requests are read back, and the token opens the dashboard.**  A rendered
request gives its method and target, the target split at its first question mark, and
for each name in lower case the value of the last header of that name; when the last
`X-Netmon-Token` is the token of the dashboard, the request is authorised. -/
theorem request_round_trip (config : Config) (ending : LineEnd) (method target version : Str)
    (headers : List Header) (body : Str) (hmethod : method ≠ [])
    (hmethod' : ∀ b ∈ method, isSpace b = false) (htarget : target ≠ [])
    (htarget' : ∀ b ∈ target, isSpace b = false) (hversion : 10 ∉ version) :
    ∃ request,
      parseRequest (renderRequest ending method target version headers body) = some request ∧
      request.method = method ∧ request.target = target ∧
      (63 ∉ target → request.path = target ∧ request.query = []) ∧
      (∀ path query, target = path ++ 63 :: query → 63 ∉ path →
        request.path = path ∧ request.query = query) ∧
      (∀ key, request.headers.lookup key = lastValue headers key) ∧
      (∀ before h after, headers = before ++ h :: after →
        lower h.name = str "x-netmon-token" → h.value = config.dashboardToken →
        (∀ h' ∈ after, lower h'.name ≠ str "x-netmon-token") →
        authorized config request = true) := by
  refine ⟨_, parseRequest_render ending headers body hmethod hmethod' htarget htarget' hversion,
    rfl, rfl, ?_, ?_, ?_, ?_⟩
  · intro hnone
    simp only [splitFirst, if_neg hnone]
    exact ⟨rfl, rfl⟩
  · intro path query hsplit hpath
    simp only [hsplit, splitFirst_append_of_notMem hpath]
    exact ⟨rfl, rfl⟩
  · intro key
    rw [AList.lookup_insertAll, AList.lookup_empty, Option.or_none]
    rfl
  · intro before h after hparts hname hvalue hafter
    have hlookup : ((∅ : StrMap Str).insertAll (fun h : Header => lower h.name) Header.value
        headers).lookup (str "x-netmon-token") = some config.dashboardToken := by
      rw [AList.lookup_insertAll, AList.lookup_empty, Option.or_none, hparts, ← hvalue]
      exact lastValue_of_last hname hafter
    have hkey : lower (str "x-netmon-token") = str "x-netmon-token" := by decide
    rw [authorized, decide_eq_true_iff]
    refine Or.inr (Or.inl ?_)
    rw [headerValue, hkey, AList.getD, hlookup]
    rfl

/-- `X-Netmon-Token:  secret` with two spaces before the value. -/
def tokenHeader : Header where
  name := str "X-Netmon-Token"
  before := [32, 32]
  value := str "secret"
  after := []
  name_ne_nil := by decide
  name_trimmed := by decide +kernel
  colon_notMem := by decide
  break_notMem_name := by decide
  value_trimmed := by decide +kernel
  break_notMem_value := by decide
  before_blank := by simp [isSpace]
  after_blank := List.forall_mem_nil _

/-- The same name in other letters, with an older token. -/
def staleHeader : Header where
  name := str "x-netmon-TOKEN"
  before := []
  value := str "old"
  after := [32]
  name_ne_nil := by decide
  name_trimmed := by decide +kernel
  colon_notMem := by decide
  break_notMem_name := by decide
  value_trimmed := by decide +kernel
  break_notMem_value := by decide
  before_blank := List.forall_mem_nil _
  after_blank := by simp [isSpace]

theorem request_round_trip_stale :
    (parseRequest (renderRequest .crlf (str "GET") (str "/api/devices?limit=5") (str "HTTP/1.1")
      [staleHeader, tokenHeader] (str "rest"))).map (authorized guardedConfig) = some true := by
  obtain ⟨request, hparse, -, -, -, -, -, hauthorized⟩ := request_round_trip guardedConfig .crlf
    (str "GET") (str "/api/devices?limit=5") (str "HTTP/1.1") [staleHeader, tokenHeader]
    (str "rest") (by decide) (by decide +kernel) (by decide) (by decide +kernel) (by decide)
  rw [hparse]
  exact congrArg some (hauthorized [staleHeader] tokenHeader [] rfl (by decide +kernel) rfl
    (List.forall_mem_nil _))

end WebServer

end Netmon
