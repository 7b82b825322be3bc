import Netmon.Reports
import Netmon.WebSocket

/-!
# The web server

One connection of `web_server.cpp`, from the bytes that arrive to what is done
with the connection: the bytes sent and whether it joins the WebSocket clients.
The files under the web root and the Grafana dashboard are a function from paths
to contents.  A report is computed from the telemetry only where the source
computes it.
-/

namespace Netmon

namespace WebServer

/-! ## Requests -/

/-- A request as the server splits it. -/
structure Request where
  method : Str
  target : Str
  path : Str
  query : Str
  headers : StrMap Str

/-- `std::getline`: the text up to a line break and what follows it; nothing at
the end of the input. -/
def getLine : Str → Option (Str × Str)
  | [] => none
  | b :: rest =>
      if b = 10 then some ([], rest)
      else
        match getLine rest with
        | none => some ([b], [])
        | some (line, after) => some (b :: line, after)

/-- Remove one carriage return at the end. -/
def dropReturn (line : Str) : Str := if line.getLast? = some 13 then line.dropLast else line

/-- `stream >> word`: skip white space and read up to the next one. -/
def readWord (text : Str) : Str × Str :=
  let start := text.dropWhile isSpace
  (start.takeWhile fun b => !isSpace b, start.dropWhile fun b => !isSpace b)

/-- The text before and after the first `separator`, if there is one. -/
def splitFirst (separator : UInt8) (text : Str) : Option (Str × Str) :=
  if separator ∈ text then
    some (text.takeWhile (· ≠ separator), (text.dropWhile (· ≠ separator)).drop 1)
  else none

/-- One header line; a line without a colon is skipped. -/
def addHeader (line : Str) (headers : StrMap Str) : StrMap Str :=
  match splitFirst 58 line with
  | none => headers
  | some (name, value) => headers.insert (lower (trim name)) (trim value)

/-- The header lines up to an empty one.  Each line is shorter than the text, so
the length of the text is enough fuel. -/
def readHeaders : Nat → Str → StrMap Str → StrMap Str
  | 0, _, headers => headers
  | fuel + 1, text, headers =>
      match getLine text with
      | none => headers
      | some (line, rest) =>
          if dropReturn line = [] then headers
          else readHeaders fuel rest (addHeader (dropReturn line) headers)

/-- The first line has a method and a target, and header lines follow. -/
def parseRequest (raw : Str) : Option Request :=
  match getLine raw with
  | none => none
  | some (line, rest) =>
      let first := readWord (dropReturn line)
      let second := readWord first.2
      if first.1 = [] ∨ second.1 = [] then none
      else
        let parts := (splitFirst 63 second.1).getD (second.1, [])
        some
          { method := first.1
            target := second.1
            path := parts.1
            query := parts.2
            headers := readHeaders rest.length rest ∅ }

/-- Header names are kept in lower case. -/
def headerValue (request : Request) (key : Str) : Str := request.headers.getD (lower key) []

/-- The value of the first parameter of a name. -/
def findParam (key : Str) : List Str → Str
  | [] => []
  | part :: parts =>
      match splitFirst 61 part with
      | none => findParam key parts
      | some (name, value) => if name = key then value else findParam key parts

/-- The value of a parameter of the query. -/
def queryParam (request : Request) (key : Str) : Str := findParam key (split request.query 38)

/-! ## Access -/

/-- Without a token everyone is let in; else the header or the query must name it. -/
def authorized (config : Config) (request : Request) : Bool :=
  config.dashboardToken = [] ∨
    headerValue request (str "x-netmon-token") = config.dashboardToken ∨
    queryParam request (str "token") = config.dashboardToken

/-- A request may ask for the database, which must be there. -/
def useSqliteSource (config : Config) (request : Request) : Bool :=
  lower (queryParam request (str "source")) = str "sqlite" ∧ App.sqliteEnabled config

/-! ## Replies -/

/-- The end of a header line. -/
def crlf : Str := [13, 10]

/-- The status line, five header lines and the body. -/
def sendResponse (status : Nat) (statusText : String) (contentType body : Str) : Str :=
  str "HTTP/1.1 " ++ decimal status ++ [32] ++ str statusText ++ crlf ++
    str "Content-Type: " ++ contentType ++ crlf ++
    str "Content-Length: " ++ decimal body.length ++ crlf ++
    str "Connection: close" ++ crlf ++
    str "Cache-Control: no-store" ++ crlf ++
    str "X-Content-Type-Options: nosniff" ++ crlf ++ crlf ++ body

/-- `{"error":"..."}`. -/
def errorBody (error : String) : Str := jsonObject [("error", jsonQuote (str error))]

/-- The content type of the reports. -/
def jsonType : Str := str "application/json; charset=utf-8"

/-- A report. -/
def sendJson (body : Str) : Str := sendResponse 200 "OK" jsonType body

/-- The metrics, in the version of the format that they keep to. -/
def sendPrometheus (body : Str) : Str :=
  sendResponse 200 "OK" (str "text/plain; version=0.0.4; charset=utf-8") body

/-- The reply to an unknown path. -/
def sendNotFound : Str := sendResponse 404 "Not Found" jsonType (errorBody "not_found")

/-- The reply without the token. -/
def sendUnauthorized : Str := sendResponse 401 "Unauthorized" jsonType (errorBody "unauthorized")

/-- The reply to a request that is not one. -/
def sendBadRequest (error : String) : Str :=
  sendResponse 400 "Bad Request" (str "application/json") (errorBody error)

/-- By the end of the path. -/
def contentTypeFor (path : Str) : Str :=
  if (str ".html").isSuffixOf path then str "text/html; charset=utf-8"
  else if (str ".css").isSuffixOf path then str "text/css; charset=utf-8"
  else if (str ".js").isSuffixOf path then str "application/javascript; charset=utf-8"
  else if (str ".svg").isSuffixOf path then str "image/svg+xml"
  else str "application/octet-stream"

/-- The contents of the files that can be opened. -/
abbrev Files := Str → Option Str

/-- The body and the content type of a file under the web root; no body when it
cannot be opened. -/
def readStaticFile (config : Config) (files : Files) (path : Str) : Str × Str :=
  if containsStr path (str "..") then ([], [])
  else
    let relative := if path.head? = some 47 then path.drop 1 else path
    let fullPath := config.webRoot ++ [47] ++ relative
    ((files fullPath).getD [], contentTypeFor fullPath)

/-- The first of three files that is there. -/
def grafanaDashboardJson (files : Files) : Str :=
  (([ str "./deployments/grafana/openwrt-netmon-lite-dashboard.json",
      str "/app/deployments/grafana/openwrt-netmon-lite-dashboard.json",
      str "../deployments/grafana/openwrt-netmon-lite-dashboard.json" ].findSome? files)).getD []

/-- A body that is empty is answered as not found. -/
def sendFile (contentType body : Str) : Str :=
  if body = [] then sendNotFound else sendResponse 200 "OK" contentType body

/-- A limit from the query, with its default and its cap. -/
def limitParam (request : Request) (fallback cap : UInt64) : UInt64 :=
  min (parseUint64 (queryParam request (str "limit")) fallback) cap

/-- `routeHttp`: the first route that fits answers. -/
def routeHttp (config : Config) (files : Files) (t : Telemetry) (request : Request) : Str :=
  let path := request.path
  let sqlite := useSqliteSource config request
  if request.method ≠ str "GET" then
    sendResponse 405 "Method Not Allowed" (str "application/json") (errorBody "method_not_allowed")
  else if (str "/api/").isPrefixOf path ∧ ¬ authorized config request then sendUnauthorized
  else if path = str "/api/health" then sendJson (healthJson t)
  else if path = str "/api/summary" then sendJson (summaryJson t)
  else if path = str "/api/integrations" then sendJson (integrationsJson config t)
  else if path = str "/api/devices" then
    sendJson (devicesJson sqlite (limitParam request 1000 5000) t)
  else if path = str "/api/events" then
    sendJson (eventsJson sqlite (limitParam request 100 1000) t)
  else if path = str "/api/wan-attacks" then
    sendJson (wanAttacksJson sqlite (limitParam request 100 1000) t)
  else if path = str "/api/traffic-history" then
    sendJson (trafficHistoryJson sqlite (limitParam request 180 720) t)
  else if path = str "/api/device-traffic-24h" then
    sendJson (deviceTraffic24hJson (App.sqliteEnabled config) (limitParam request 50 500) t)
  else if path = config.prometheusPath then
    if ¬ config.prometheusEnabled then sendNotFound
    else if ¬ authorized config request then sendUnauthorized
    else sendPrometheus (renderPrometheusMetrics config t)
  else if path = str "/grafana/dashboard.json" ∨
      path = str "/grafana/openwrt-netmon-lite-dashboard.json" then
    sendFile jsonType (grafanaDashboardJson files)
  else if path = str "/" ∨ path = str "/index.html" ∨ path = str "/app.js" ∨
      path = str "/style.css" then
    let file := readStaticFile config files (if path = str "/" then str "/index.html" else path)
    sendFile file.2 file.1
  else sendNotFound

/-! ## Connections -/

/-- What the server does with a connection. -/
inductive ClientAction where
  | send (bytes : Str)
  | addWebSocketClient
  | removeWebSocketClient
  | close
  deriving DecidableEq

/-- The opening handshake of a web socket. -/
def switchingProtocols (key : Str) : Str :=
  str "HTTP/1.1 101 Switching Protocols" ++ crlf ++ str "Upgrade: websocket" ++ crlf ++
    str "Connection: Upgrade" ++ crlf ++ str "Sec-WebSocket-Accept: " ++
    websocketAcceptKey key ++ crlf ++ crlf

/-- `handleWebSocket`; `delivered` says whether the handshake could be sent.  A
connection that is accepted stays a client until its peer or the server ends
it. -/
def handleWebSocket (config : Config) (delivered : Bool) (request : Request) :
    List ClientAction :=
  let key := headerValue request (str "sec-websocket-key")
  if ¬ authorized config request then [.send sendUnauthorized, .close]
  else if lower (headerValue request (str "upgrade")) ≠ str "websocket" ∨ key = [] then
    [.send (sendBadRequest "websocket_required"), .close]
  else if ¬ delivered then [.send (switchingProtocols key), .close]
  else
    [.send (switchingProtocols key), .addWebSocketClient,
      .send (webSocketText (str "\x7b\"type\":\"connected\",\"payload\":\x7b\x7d\x7d")),
      .removeWebSocketClient, .close]

/-- The receive loop: chunks are appended until the end of the headers or the
size limit is there.  Nothing comes out when the peer stops before that. -/
def receiveRequest : List Str → Str → Option Str
  | chunks, raw =>
      if containsStr raw [13, 10, 13, 10] ∨ raw.length ≥ 16384 then some raw
      else
        match chunks with
        | [] => none
        | chunk :: rest => receiveRequest rest (raw ++ chunk)

/-- `handleClient` on the chunks that `recv` returns. -/
def handleClient (config : Config) (files : Files) (t : Telemetry) (delivered : Bool)
    (chunks : List Str) : List ClientAction :=
  match receiveRequest chunks [] with
  | none => [.close]
  | some raw =>
      match parseRequest raw with
      | none => [.send (sendBadRequest "bad_request"), .close]
      | some request =>
          if request.path = str "/ws" then handleWebSocket config delivered request
          else [.send (routeHttp config files t request), .close]

end WebServer

end Netmon
