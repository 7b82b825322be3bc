import Netmon.LineTags
import Netmon.RequestRoundTrip
import Netmon.WebAccess

/-!
# How a request arrives does not matter

The server reads a connection in chunks until the empty line that ends the head of a
request is there, or 16384 bytes.  A head that ends within that limit is handled the same
way however the stream is cut into chunks and whatever follows the head; a stream that ends
before the head does is closed without an answer; and with the source's buffer of 1024
bytes no connection makes the server keep more than 17407 bytes.
-/

namespace Netmon

namespace WebServer

/-- The empty line that ends a head, with the break before it. -/
def headEnd : Str := [13, 10, 13, 10]

/-! ## Parsing looks at the head only -/

theorem readHeaders_line {line : Str} (h : 10 ∉ line) (rest : Str) (fuel : Nat)
    (headers : StrMap Str) :
    readHeaders (fuel + 1) (line ++ 10 :: rest) headers =
      if dropReturn line = [] then headers
      else readHeaders fuel rest (addHeader (dropReturn line) headers) := by
  rw [readHeaders, getLine_append h]

/-- The empty line ends the headers. -/
theorem readHeaders_empty (fuel : Nat) (more : Str) (headers : StrMap Str) :
    readHeaders (fuel + 1) (13 :: 10 :: more) headers = headers := by
  have hline := @readHeaders_line [13] (by decide) more fuel headers
  rw [if_pos (by decide)] at hline
  exact hline

/-- What follows the head is not read, and more fuel changes nothing. -/
theorem readHeaders_head (w more : Str) {fuel fuel' : Nat} (hfuel : w.length + 2 ≤ fuel)
    (hfuel' : w.length + 2 ≤ fuel') (headers : StrMap Str) :
    readHeaders fuel (w ++ (headEnd ++ more)) headers =
      readHeaders fuel' (w ++ headEnd) headers := by
  induction w using delimited_induction 10 generalizing fuel fuel' headers with
  | last w hw =>
      obtain ⟨fuel, rfl⟩ : ∃ k, fuel = k + 2 := ⟨fuel - 2, by omega⟩
      obtain ⟨fuel', rfl⟩ : ∃ k, fuel' = k + 2 := ⟨fuel' - 2, by omega⟩
      have hline : 10 ∉ w ++ [13] := by simpa using hw
      have hleft : w ++ (headEnd ++ more) = (w ++ [13]) ++ 10 :: 13 :: 10 :: more := by
        simp [headEnd]
      have hright : w ++ headEnd = (w ++ [13]) ++ 10 :: 13 :: 10 :: [] := by simp [headEnd]
      rw [hleft, hright, readHeaders_line hline, readHeaders_line hline, readHeaders_empty,
        readHeaders_empty]
  | next line w hline ih =>
      obtain ⟨fuel, rfl⟩ : ∃ k, fuel = k + 1 := ⟨fuel - 1, by omega⟩
      obtain ⟨fuel', rfl⟩ : ∃ k, fuel' = k + 1 := ⟨fuel' - 1, by omega⟩
      rw [List.length_append, List.length_cons] at hfuel hfuel'
      rw [List.append_assoc, List.append_assoc, List.cons_append, List.cons_append,
        readHeaders_line hline, readHeaders_line hline, @ih fuel fuel' (by omega) (by omega)]

/-- **The request is read from its head**; what follows it is not looked at. -/
theorem parseRequest_head (w more : Str) :
    parseRequest (w ++ (headEnd ++ more)) = parseRequest (w ++ headEnd) := by
  by_cases hbreak : 10 ∈ w
  · obtain ⟨line, w, rfl, hline⟩ := List.eq_append_cons_of_mem hbreak
    have hheaders : readHeaders (w ++ (headEnd ++ more)).length (w ++ (headEnd ++ more)) ∅ =
        readHeaders (w ++ headEnd).length (w ++ headEnd) ∅ := by
      refine readHeaders_head w more ?_ ?_ ∅
      · simp [headEnd]
      · simp [headEnd]
    rw [List.append_assoc, List.append_assoc, List.cons_append, List.cons_append, parseRequest,
      parseRequest, getLine_append hline, getLine_append hline]
    simp only [hheaders]
  · have hline : 10 ∉ w ++ [13] := by simpa using hbreak
    have hleft : w ++ (headEnd ++ more) = (w ++ [13]) ++ 10 :: 13 :: 10 :: more := by
      simp [headEnd]
    have hright : w ++ headEnd = (w ++ [13]) ++ 10 :: 13 :: 10 :: [] := by simp [headEnd]
    rw [hleft, hright, parseRequest, parseRequest, getLine_append hline, getLine_append hline]
    simp only [List.length_cons, readHeaders_empty]

/-! ## The receive loop -/

/-- What the loop waits for. -/
def Received (raw : Str) : Prop := headEnd <:+: raw ∨ 16384 ≤ raw.length

theorem Received.mono {raw stream : Str} (h : Received raw) (hfront : raw <+: stream) :
    Received stream := by
  rcases h with hend | hlength
  · exact Or.inl (hend.trans hfront.isInfix)
  · exact Or.inr (hlength.trans hfront.length_le)

theorem receiveRequest_of_received {acc : Str} (h : Received acc) (chunks : List Str) :
    receiveRequest chunks acc = some acc := by
  have hstop : containsStr acc [13, 10, 13, 10] = true ∨ acc.length ≥ 16384 :=
    h.imp containsStr_iff.mpr id
  cases chunks <;> exact if_pos hstop

theorem not_stopped {acc : Str} (h : ¬ Received acc) :
    ¬ (containsStr acc [13, 10, 13, 10] = true ∨ acc.length ≥ 16384) :=
  mt (Or.imp containsStr_iff.mp id) h

theorem receiveRequest_nil {acc : Str} (h : ¬ Received acc) : receiveRequest [] acc = none :=
  if_neg (not_stopped h)

theorem receiveRequest_cons {acc : Str} (h : ¬ Received acc) (chunk : Str) (chunks : List Str) :
    receiveRequest (chunk :: chunks) acc = receiveRequest chunks (acc ++ chunk) :=
  if_neg (not_stopped h)

/-- The loop gives up exactly when the whole stream is not enough. -/
theorem receiveRequest_eq_none_iff {chunks : List Str} {acc : Str} :
    receiveRequest chunks acc = none ↔ ¬ Received (acc ++ chunks.flatten) := by
  induction chunks generalizing acc with
  | nil =>
      rw [List.flatten_nil, List.append_nil]
      by_cases h : Received acc
      · simp [receiveRequest_of_received h, h]
      · simp [receiveRequest_nil h, h]
  | cons chunk chunks ih =>
      rw [List.flatten_cons, ← List.append_assoc]
      by_cases h : Received acc
      · have hstream : Received (acc ++ chunk ++ chunks.flatten) :=
          h.mono ((List.prefix_append acc chunk).trans (List.prefix_append _ _))
        rw [receiveRequest_of_received h]
        exact iff_of_false (Option.some_ne_none acc) (not_not.mpr hstream)
      · rw [receiveRequest_cons h, ih]

/-- What the loop returns is enough, it is a front of the stream, and only its last chunk
reaches over the limit. -/
theorem receiveRequest_some {chunks : List Str} {acc raw : Str}
    (h : receiveRequest chunks acc = some raw) :
    Received raw ∧ raw <+: acc ++ chunks.flatten ∧
      ∀ n, (∀ chunk ∈ chunks, chunk.length ≤ n) → raw.length ≤ max acc.length (16383 + n) := by
  induction chunks generalizing acc with
  | nil =>
      by_cases hacc : Received acc
      · rw [receiveRequest_of_received hacc] at h
        obtain rfl := Option.some.inj h
        exact ⟨hacc, List.prefix_append _ _, fun n _ => le_max_left _ _⟩
      · rw [receiveRequest_nil hacc] at h
        cases h
  | cons chunk chunks ih =>
      by_cases hacc : Received acc
      · rw [receiveRequest_of_received hacc] at h
        obtain rfl := Option.some.inj h
        exact ⟨hacc, List.prefix_append _ _, fun n _ => le_max_left _ _⟩
      · rw [receiveRequest_cons hacc] at h
        obtain ⟨hraw, hfront, hbound⟩ := ih h
        rw [List.append_assoc] at hfront
        refine ⟨hraw, hfront, fun n hn => ?_⟩
        have hlater := hbound n fun c hc => hn c (List.mem_cons_of_mem _ hc)
        have hchunk := hn chunk List.mem_cons_self
        have hshort : acc.length < 16384 := not_le.mp fun hlong => hacc (Or.inr hlong)
        rw [List.length_append] at hlater
        omega

/-! ## Connections -/

/-- **Only the head counts.**  However a stream is cut, its head is the request. -/
theorem parse_of_stream {chunks : List Str} {w more : Str} (hfits : w.length + 4 ≤ 16384)
    (hstream : chunks.flatten = w ++ (headEnd ++ more)) :
    ∃ raw, receiveRequest chunks [] = some raw ∧
      parseRequest raw = parseRequest (w ++ headEnd) := by
  have hhead : w ++ headEnd <+: chunks.flatten := by
    rw [hstream, ← List.append_assoc]
    exact List.prefix_append _ _
  have hreceived : Received ([] ++ chunks.flatten) :=
    Received.mono (Or.inl (List.suffix_append w headEnd).isInfix) hhead
  obtain ⟨raw, hraw⟩ := Option.ne_none_iff_exists'.mp
    (mt receiveRequest_eq_none_iff.mp (not_not.mpr hreceived))
  obtain ⟨henough, hfront, -⟩ := receiveRequest_some hraw
  have hend : headEnd <:+: raw := by
    rcases henough with hend | hlong
    · exact hend
    · have hlength : (w ++ headEnd).length ≤ raw.length := by
        rw [List.length_append]
        exact hfits.trans hlong
      exact (List.suffix_append w headEnd).isInfix.trans
        (List.prefix_of_prefix_length_le hhead hfront hlength).isInfix
  obtain ⟨u, v, rfl⟩ := hend
  obtain ⟨later, hlater⟩ := hfront
  have hsame : u ++ (headEnd ++ (v ++ later)) = w ++ (headEnd ++ more) := by
    rw [← hstream, ← List.nil_append chunks.flatten, ← hlater]
    simp
  refine ⟨_, hraw, ?_⟩
  rw [List.append_assoc, parseRequest_head, ← parseRequest_head u (v ++ later), hsame,
    parseRequest_head]

/-- **How a request arrives does not matter.**  A request whose head ends within the limit is
handled as if the head had come in one piece and nothing after it, however the stream is cut.
A stream that stays under the limit and never ends a head is closed without an answer.  And
no stream in chunks of the source's buffer makes the server keep more than 17407 bytes. -/
theorem reception_ignores_chunks (config : Config) (files : Files) (t : Telemetry)
    (delivered : Bool) (chunks : List Str) :
    (∀ w more, w.length + 4 ≤ 16384 → chunks.flatten = w ++ (headEnd ++ more) →
      handleClient config files t delivered chunks =
        handleClient config files t delivered [w ++ headEnd]) ∧
    (¬ headEnd <:+: chunks.flatten → chunks.flatten.length < 16384 →
      handleClient config files t delivered chunks = [.close]) ∧
    ((∀ chunk ∈ chunks, chunk.length ≤ 1024) →
      ∀ raw ∈ receiveRequest chunks [], raw.length ≤ 17407) := by
  refine ⟨fun w more hfits hstream => ?_, fun hend hshort => ?_, fun hchunks raw hraw => ?_⟩
  · obtain ⟨raw, hraw, hparse⟩ := parse_of_stream hfits hstream
    obtain ⟨whole, hwhole, hparse'⟩ :=
      @parse_of_stream [w ++ headEnd] w [] hfits (by simp)
    rw [handleClient, handleClient, hraw, hwhole]
    simp only [hparse, hparse']
  · have hnone : receiveRequest chunks [] = none :=
      receiveRequest_eq_none_iff.mpr (not_or.mpr ⟨hend, not_le.mpr hshort⟩)
    rw [handleClient, hnone]
  · exact (receiveRequest_some hraw).2.2 1024 hchunks

/-- A request in three chunks, the last with the end of the head and the start of another
request. -/
theorem reception_of_three_chunks :
    handleClient {} (fun _ => none) (idleTelemetry 5) true
        [str "GET /api/he", str "alth HTTP/1.1\r", str "\n\r\nGET /api/events"] =
      handleClient {} (fun _ => none) (idleTelemetry 5) true
        [str "GET /api/health HTTP/1.1\r\n\r\n"] :=
  (reception_ignores_chunks {} (fun _ => none) (idleTelemetry 5) true _).1
    (str "GET /api/health HTTP/1.1") (str "GET /api/events") (by decide) (by decide)

end WebServer

end Netmon
