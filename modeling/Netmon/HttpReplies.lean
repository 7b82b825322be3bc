import Netmon.Base64RoundTrip
import Netmon.HttpReader
import Netmon.NumberText
import Netmon.WebServer

/-!
# Every reply is one complete response

Whatever a client sends, what the server answers is read by a strict HTTP client as exactly
one response: the status, the headers and a body as long as its `Content-Length` says, with
nothing before or after it.  No byte of a request or of a file reaches the head of a reply;
the one header made from a request is the digest that accepts a WebSocket, and it is written
in Base64.
-/

namespace Netmon

namespace WebServer

/-! ## Ordinary replies -/

/-- The status codes and their reasons. -/
def statuses : List (Nat × String) :=
  [(200, "OK"), (400, "Bad Request"), (401, "Unauthorized"), (404, "Not Found"),
    (405, "Method Not Allowed")]

/-- The content types of all replies. -/
def contentTypes : List Str :=
  [jsonType, str "application/json", str "text/plain; version=0.0.4; charset=utf-8",
    str "text/html; charset=utf-8", str "text/css; charset=utf-8",
    str "application/javascript; charset=utf-8", str "image/svg+xml",
    str "application/octet-stream"]

/-- The response that `sendResponse` writes. -/
def response (status : Nat × String) (contentType body : Str) : HttpReader.Response where
  code := decimal status.1
  reason := str status.2
  headers :=
    [(str "Content-Type", contentType), (str "Content-Length", decimal body.length),
      (str "Connection", str "close"), (str "Cache-Control", str "no-store"),
      (str "X-Content-Type-Options", str "nosniff")]
  body := body

/-- A reply is the text of an HTTP response. -/
theorem sendResponse_eq (status : Nat × String) (contentType body : Str) :
    sendResponse status.1 status.2 contentType body = (response status contentType body).text := by
  delta sendResponse
  simp only [HttpReader.Response.text, response, HttpReader.headerText,
    List.flatMap_cons, List.flatMap_nil, List.append_assoc, List.cons_append, List.nil_append]
  rfl

/-- Every status has three digits, is not informational and has a reason that stays on its
line. -/
theorem statuses_fit : ∀ status ∈ statuses, (decimal status.1).length = 3 ∧
    HttpReader.informational (decimal status.1) = false ∧
    (str status.2).all HttpReader.isLineByte = true := by decide

/-- Every content type can be the value of a header. -/
theorem contentTypes_fit : ∀ contentType ∈ contentTypes,
    HttpReader.headerFits (str "Content-Type", contentType) = true := by decide

/-- The length of a body can be the value of a header. -/
theorem lengthHeader_fits (n : Nat) : HttpReader.HeaderFits (str "Content-Length", decimal n) where
  name_ne_nil := List.cons_ne_nil _ _
  name := (HttpReader.HeaderFits.of_check (h := (str "Content-Length", [])) (by decide)).name
  value := fun b hb => HttpReader.isLineByte_of_isDigit (digits_decimal n b hb)
  not_blank := by
    intro b hb
    have hdigit := digits_decimal n b (List.mem_of_head? hb)
    have hne : ∀ c : UInt8, DecimalText.isDigit c = false → b ≠ c := by
      intro c hc heq
      rw [heq, hc] at hdigit
      cases hdigit
    simp [HttpReader.isBlank, hne 32 (by decide), hne 9 (by decide)]

/-- The responses of the server are well formed, whatever their body. -/
theorem response_wellFormed {status : Nat × String} (hstatus : status ∈ statuses)
    {contentType : Str} (htype : contentType ∈ contentTypes) (body : Str) :
    (response status contentType body).WellFormed := by
  obtain ⟨hlength, hcode, hreason⟩ := statuses_fit status hstatus
  refine ⟨hlength, digits_decimal _, List.all_eq_true.mp hreason, fun h hh => ?_, ?_⟩
  · simp only [response, List.mem_cons, List.not_mem_nil, or_false] at hh
    rcases hh with rfl | rfl | rfl | rfl | rfl
    · exact HttpReader.HeaderFits.of_check (contentTypes_fit contentType htype)
    · exact lengthHeader_fits body.length
    · exact HttpReader.HeaderFits.of_check (by decide)
    · exact HttpReader.HeaderFits.of_check (by decide)
    · exact HttpReader.HeaderFits.of_check (by decide)
  · rw [if_neg (by rw [response, hcode]; decide)]
    exact ⟨decimal body.length, rfl, decimal_ne_nil _, digits_decimal _, value_decimal _⟩

/-- The reply is one ordinary response, whatever follows it on the connection. -/
def Framed (reply : Str) : Prop :=
  ∃ status ∈ statuses, ∃ contentType ∈ contentTypes, ∃ body, ∀ more,
    HttpReader.readResponse (reply ++ more) = some (response status contentType body, more)

/-- A client reads back the reply, and no byte beyond it. -/
theorem readResponse_sendResponse {status : Nat × String} (hstatus : status ∈ statuses)
    {contentType : Str} (htype : contentType ∈ contentTypes) (body more : Str) :
    HttpReader.readResponse (sendResponse status.1 status.2 contentType body ++ more) =
      some (response status contentType body, more) := by
  rw [sendResponse_eq]
  exact HttpReader.readResponse_text (response_wellFormed hstatus htype body) more

/-- A client reads back a reply in JSON, and no byte beyond it. -/
theorem readResponse_sendJson (body more : Str) :
    HttpReader.readResponse (sendJson body ++ more) =
      some (response (200, "OK") jsonType body, more) :=
  @readResponse_sendResponse (200, "OK") (by decide) jsonType (by decide) body more

/-- A reply is framed by its headers. -/
theorem framed_sendResponse {status : Nat} {reason : String} {contentType : Str}
    (hstatus : (status, reason) ∈ statuses) (htype : contentType ∈ contentTypes) (body : Str) :
    Framed (sendResponse status reason contentType body) :=
  ⟨_, hstatus, contentType, htype, body, readResponse_sendResponse hstatus htype body⟩

/-- A reply in JSON is framed by its headers. -/
theorem framed_sendJson (body : Str) : Framed (sendJson body) :=
  ⟨_, by decide, jsonType, by decide, body, readResponse_sendJson body⟩

/-- The reply to an unknown path is framed. -/
theorem framed_sendNotFound : Framed sendNotFound :=
  framed_sendResponse (by decide) (by decide) _

/-- The refusal of a request without the token is framed. -/
theorem framed_sendUnauthorized : Framed sendUnauthorized :=
  framed_sendResponse (by decide) (by decide) _

/-- The refusal of a bad request is framed. -/
theorem framed_sendBadRequest (error : String) : Framed (sendBadRequest error) :=
  framed_sendResponse (by decide) (by decide) _

/-- A file is framed. -/
theorem framed_sendFile {contentType : Str} (htype : contentType ∈ contentTypes) (body : Str) :
    Framed (sendFile contentType body) := by
  unfold sendFile
  split
  · exact framed_sendNotFound
  · exact framed_sendResponse (by decide) htype body

/-- The type of a file is among the content types. -/
theorem contentTypeFor_mem (path : Str) : contentTypeFor path ∈ contentTypes := by
  unfold contentTypeFor
  split_ifs <;> decide

/-- A path of the dashboard's own files leads nowhere else. -/
theorem framed_staticFile (config : Config) (files : Files) {path : Str}
    (h : containsStr path (str "..") = false) :
    Framed (sendFile (readStaticFile config files path).2
      (readStaticFile config files path).1) := by
  refine framed_sendFile ?_ _
  rw [readStaticFile, if_neg (by rw [h]; decide)]
  exact contentTypeFor_mem _

/-- A choice between framed replies is framed. -/
theorem framed_ite {p : Prop} [Decidable p] {reply other : Str} (h : p → Framed reply)
    (hother : Framed other) : Framed (if p then reply else other) := by
  split
  · exact h ‹p›
  · exact hother

/-- The four paths of the dashboard's own files. -/
theorem framed_dashboardFile (config : Config) (files : Files) {path : Str}
    (h : path = str "/" ∨ path = str "/index.html" ∨ path = str "/app.js" ∨
      path = str "/style.css") :
    Framed (sendFile
      (readStaticFile config files (if path = str "/" then str "/index.html" else path)).2
      (readStaticFile config files (if path = str "/" then str "/index.html" else path)).1) := by
  refine framed_staticFile config files ?_
  rcases h with rfl | rfl | rfl | rfl <;> decide

/-- **The answer to any request is one response.** -/
theorem framed_routeHttp (config : Config) (files : Files) (t : Telemetry) (request : Request) :
    Framed (routeHttp config files t request) := by
  unfold routeHttp
  refine framed_ite (fun _ => framed_sendResponse (by decide) (by decide) _) ?_
  refine framed_ite (fun _ => framed_sendUnauthorized) ?_
  refine framed_ite (fun _ => framed_sendJson _) ?_
  refine framed_ite (fun _ => framed_sendJson _) ?_
  refine framed_ite (fun _ => framed_sendJson _) ?_
  refine framed_ite (fun _ => framed_sendJson _) ?_
  refine framed_ite (fun _ => framed_sendJson _) ?_
  refine framed_ite (fun _ => framed_sendJson _) ?_
  refine framed_ite (fun _ => framed_sendJson _) ?_
  refine framed_ite (fun _ => framed_sendJson _) ?_
  refine framed_ite (fun _ => ?_) ?_
  · refine framed_ite (fun _ => framed_sendNotFound) ?_
    refine framed_ite (fun _ => framed_sendUnauthorized) ?_
    exact framed_sendResponse (by decide) (by decide) _
  refine framed_ite (fun _ => framed_sendFile (by decide) _) ?_
  exact framed_ite (framed_dashboardFile config files) framed_sendNotFound

/-! ## The handshake -/

/-- The response that accepts a WebSocket. -/
def handshake (key : Str) : HttpReader.Response where
  code := str "101"
  reason := str "Switching Protocols"
  headers :=
    [(str "Upgrade", str "websocket"), (str "Connection", str "Upgrade"),
      (str "Sec-WebSocket-Accept", websocketAcceptKey key)]
  body := []

/-- The opening handshake is the text of an HTTP response. -/
theorem switchingProtocols_eq (key : Str) : switchingProtocols key = (handshake key).text := by
  have hstatus : str "HTTP/1.1 101 Switching Protocols" =
      HttpReader.protocol ++ str "101" ++ 32 :: str "Switching Protocols" := by decide
  have hupgrade : str "Upgrade: websocket" =
      HttpReader.headerText (str "Upgrade", str "websocket") := by decide
  have hconnection : str "Connection: Upgrade" =
      HttpReader.headerText (str "Connection", str "Upgrade") := by decide
  have haccept : str "Sec-WebSocket-Accept: " = str "Sec-WebSocket-Accept" ++ [58, 32] := by
    decide
  rw [switchingProtocols, hstatus, hupgrade, hconnection, haccept, crlf]
  simp only [HttpReader.Response.text, handshake, HttpReader.headerText, List.flatMap_cons,
    List.flatMap_nil, List.append_assoc, List.cons_append, List.nil_append, List.append_nil]

/-- Base64 text has no line end and no blank. -/
theorem base64Encode_bytes (data : List UInt8) :
    ∀ b ∈ base64Encode data,
      HttpReader.isLineByte b = true ∧ HttpReader.isBlank b = false := by
  have hpad : HttpReader.isLineByte 61 = true ∧ HttpReader.isBlank 61 = false := by decide
  have hchar : ∀ triple shift, HttpReader.isLineByte (base64Char triple shift) = true ∧
      HttpReader.isBlank (base64Char triple shift) = false := by
    intro triple shift
    have hsextet := sextet_base64Char triple shift
    have hne : ∀ c : UInt8, Base64Text.sextet c = none → base64Char triple shift ≠ c := by
      intro c hc heq
      rw [heq, hc] at hsextet
      cases hsextet
    simp [HttpReader.isLineByte, HttpReader.isBlank, hne 13 (by decide), hne 10 (by decide),
      hne 32 (by decide), hne 9 (by decide)]
  induction data using base64Encode.induct with
  | case1 => simp [base64Encode]
  | case2 a => simp [base64Encode, hpad, hchar]
  | case3 a b => simp [base64Encode, hpad, hchar]
  | case4 a b c rest ih =>
      intro byte hbyte
      rw [base64Encode] at hbyte
      rcases List.mem_append.mp hbyte with hfirst | hlater
      · simp only [List.mem_cons, List.not_mem_nil, or_false] at hfirst
        rcases hfirst with rfl | rfl | rfl | rfl <;> exact hchar _ _
      · exact ih byte hlater

/-- The accept key can be the value of a header. -/
theorem acceptHeader_fits (key : Str) :
    HttpReader.HeaderFits (str "Sec-WebSocket-Accept", websocketAcceptKey key) where
  name_ne_nil := List.cons_ne_nil _ _
  name := (HttpReader.HeaderFits.of_check (h := (str "Sec-WebSocket-Accept", [])) (by decide)).name
  value := fun b hb => (base64Encode_bytes _ b hb).1
  not_blank := fun b hb => (base64Encode_bytes _ b (List.mem_of_head? hb)).2

/-- The handshake is well formed, whatever the key. -/
theorem handshake_wellFormed (key : Str) : (handshake key).WellFormed := by
  refine ⟨rfl, List.all_eq_true.mp rfl, List.all_eq_true.mp rfl, fun h hh => ?_, rfl⟩
  simp only [handshake, List.mem_cons, List.not_mem_nil, or_false] at hh
  rcases hh with rfl | rfl | rfl
  · exact HttpReader.HeaderFits.of_check (by decide)
  · exact HttpReader.HeaderFits.of_check (by decide)
  · exact acceptHeader_fits key

/-- A client reads back the handshake, and the frames follow it. -/
theorem readResponse_switchingProtocols (key more : Str) :
    HttpReader.readResponse (switchingProtocols key ++ more) = some (handshake key, more) := by
  rw [switchingProtocols_eq]
  exact HttpReader.readResponse_text (handshake_wellFormed key) more

/-! ## Connections -/

/-- The first message to a WebSocket client. -/
def connectedMessage : Str := str "\x7b\"type\":\"connected\",\"payload\":\x7b\x7d\x7d"

/-- What is done with a connection: it is closed without a word, it gets one ordinary
response, or it is accepted as a WebSocket and closed at once if the handshake cannot be
sent. -/
inductive Answered : List ClientAction → Prop
  | silent : Answered [.close]
  | replied {reply : Str} (h : Framed reply) : Answered [.send reply, .close]
  | undelivered {reply key : Str} (hkey : key ≠ [])
      (h : ∀ more, HttpReader.readResponse (reply ++ more) = some (handshake key, more)) :
      Answered [.send reply, .close]
  | accepted {reply key : Str} (hkey : key ≠ [])
      (h : ∀ more, HttpReader.readResponse (reply ++ more) = some (handshake key, more)) :
      Answered [.send reply, .addWebSocketClient, .send (webSocketText connectedMessage),
        .removeWebSocketClient, .close]

/-- A request for a web socket is answered. -/
theorem answered_handleWebSocket (config : Config) (delivered : Bool) (request : Request) :
    Answered (handleWebSocket config delivered request) := by
  unfold handleWebSocket
  simp only
  by_cases hauthorized : ¬ authorized config request
  · rw [if_pos hauthorized]
    exact .replied framed_sendUnauthorized
  rw [if_neg hauthorized]
  by_cases hupgrade : lower (headerValue request (str "upgrade")) ≠ str "websocket" ∨
      headerValue request (str "sec-websocket-key") = []
  · rw [if_pos hupgrade]
    exact .replied (framed_sendBadRequest _)
  rw [if_neg hupgrade]
  have hkey := (not_or.mp hupgrade).2
  split
  · exact .undelivered hkey (readResponse_switchingProtocols _)
  · exact .accepted hkey (readResponse_switchingProtocols _)

/-- **Every reply is one complete response.**  Whatever arrives on a connection, the server
closes it without a word, sends exactly one response (a status of its table, a content type
of its table, the length of the body that follows) and closes it, or answers with the
handshake of a WebSocket; a strict client reads each of them to its last byte. -/
theorem replies_are_responses (config : Config) (files : Files) (t : Telemetry)
    (delivered : Bool) (chunks : List Str) :
    Answered (handleClient config files t delivered chunks) := by
  unfold handleClient
  cases receiveRequest chunks [] with
  | none => exact .silent
  | some raw =>
      cases hrequest : parseRequest raw with
      | none =>
          simp only [hrequest]
          exact .replied (framed_sendBadRequest _)
      | some request =>
          simp only [hrequest]
          split
          · exact answered_handleWebSocket config delivered request
          · exact .replied (framed_routeHttp config files t request)

end WebServer

end Netmon
