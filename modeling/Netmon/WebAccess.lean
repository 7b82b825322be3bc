import Netmon.WebServer

/-!
# What a request without the token learns

With a token set, a request that does not carry it is answered from the
configuration and the files alone: `publicReply` states that answer without any
telemetry, and `routeHttp` and `handleWebSocket` give it to every such request.
Two worlds that differ in everything the service has learnt are therefore
indistinguishable without the token, and the connection never becomes a
WebSocket client (`unauthorised_learns_nothing`).
-/

namespace Netmon

namespace WebServer

/-- The request carries the token neither in its header nor as the first `token`
parameter of its query. -/
def LacksToken (config : Config) (request : Request) : Prop :=
  headerValue request (str "x-netmon-token") ≠ config.dashboardToken ∧
    queryParam request (str "token") ≠ config.dashboardToken

instance (config : Config) (request : Request) : Decidable (LacksToken config request) :=
  inferInstanceAs (Decidable (_ ∧ _))

theorem authorized_eq_false {config : Config} {request : Request}
    (htoken : config.dashboardToken ≠ []) (h : LacksToken config request) :
    authorized config request = false := by
  simp [authorized, htoken, h.1, h.2]

/-- What anyone may know: the errors, the dashboard's files and which paths
exist. -/
def publicReply (config : Config) (files : Files) (request : Request) : Str :=
  let path := request.path
  if request.method ≠ str "GET" then
    sendResponse 405 "Method Not Allowed" (str "application/json") (errorBody "method_not_allowed")
  else if (str "/api/").isPrefixOf path then sendUnauthorized
  else if path = config.prometheusPath then
    if config.prometheusEnabled then sendUnauthorized else sendNotFound
  else if path = str "/grafana/dashboard.json" ∨
      path = str "/grafana/openwrt-netmon-lite-dashboard.json" then
    sendFile jsonType (grafanaDashboardJson files)
  else if path = str "/" ∨ path = str "/index.html" ∨ path = str "/app.js" ∨
      path = str "/style.css" then
    let file := readStaticFile config files (if path = str "/" then str "/index.html" else path)
    sendFile file.2 file.1
  else sendNotFound

/-- The routes of the reports all start with `/api/`. -/
theorem ne_report_path {path : Str} (h : ¬ (str "/api/").isPrefixOf path) :
    path ≠ str "/api/health" ∧ path ≠ str "/api/summary" ∧ path ≠ str "/api/integrations" ∧
      path ≠ str "/api/devices" ∧ path ≠ str "/api/events" ∧ path ≠ str "/api/wan-attacks" ∧
      path ≠ str "/api/traffic-history" ∧ path ≠ str "/api/device-traffic-24h" := by
  refine ⟨?_, ?_, ?_, ?_, ?_, ?_, ?_, ?_⟩ <;>
    · rintro rfl
      exact h (by decide)

/-- Without the token every route gives its public answer. -/
theorem routeHttp_of_unauthorized {config : Config} {request : Request}
    (h : authorized config request = false) (files : Files) (t : Telemetry) :
    routeHttp config files t request = publicReply config files request := by
  unfold routeHttp publicReply
  by_cases hmethod : request.method ≠ str "GET"
  · simp only [if_pos hmethod]
  · simp only [if_neg hmethod]
    by_cases hapi : (str "/api/").isPrefixOf request.path
    · simp [hapi, h]
    · obtain ⟨h₁, h₂, h₃, h₄, h₅, h₆, h₇, h₈⟩ := ne_report_path hapi
      simp only [hapi, h₁, h₂, h₃, h₄, h₅, h₆, h₇, h₈, h, if_false]
      by_cases hmetrics : request.path = config.prometheusPath
      · by_cases henabled : config.prometheusEnabled = true
        · simp [hmetrics, henabled]
        · simp [hmetrics, henabled]
      · simp [hmetrics]

/-- What is done with a connection that does not carry the token. -/
def publicActions (config : Config) (files : Files) (chunks : List Str) : List ClientAction :=
  match receiveRequest chunks [] with
  | none => [.close]
  | some raw =>
      match parseRequest raw with
      | none => [.send (sendBadRequest "bad_request"), .close]
      | some request =>
          if request.path = str "/ws" then [.send sendUnauthorized, .close]
          else [.send (publicReply config files request), .close]

/-- The request that the received chunks make up, if they make up one. -/
def receivedRequest (chunks : List Str) : Option Request :=
  (receiveRequest chunks []).bind parseRequest

theorem handleClient_of_lacksToken {config : Config} {chunks : List Str}
    (htoken : config.dashboardToken ≠ [])
    (h : ∀ request ∈ receivedRequest chunks, LacksToken config request) (files : Files)
    (t : Telemetry) (delivered : Bool) :
    handleClient config files t delivered chunks = publicActions config files chunks := by
  unfold receivedRequest at h
  unfold handleClient publicActions
  cases hraw : receiveRequest chunks [] with
  | none => rfl
  | some raw =>
      cases hrequest : parseRequest raw with
      | none => simp only [hrequest]
      | some request =>
          have hdenied := authorized_eq_false htoken (h request (by simp [hraw, hrequest]))
          simp [hrequest, routeHttp_of_unauthorized hdenied, handleWebSocket, hdenied]

theorem not_client_of_public (config : Config) (files : Files) (chunks : List Str) :
    ClientAction.addWebSocketClient ∉ publicActions config files chunks := by
  unfold publicActions
  cases receiveRequest chunks [] with
  | none => simp
  | some raw =>
      cases hrequest : parseRequest raw with
      | none => simp [hrequest]
      | some request =>
          simp only [hrequest]
          split <;> simp

/-- **Unauthorised requests learn nothing.**  With a token set, a connection whose
request does not carry it is handled in the same way whatever the store, the
counters, the database, the uptime and the clock are, and it is never added to
the WebSocket clients. -/
theorem unauthorised_learns_nothing (config : Config) (files : Files) (chunks : List Str)
    (htoken : config.dashboardToken ≠ [])
    (h : ∀ request ∈ receivedRequest chunks, LacksToken config request)
    (t t' : Telemetry) (delivered : Bool) :
    handleClient config files t delivered chunks = handleClient config files t' delivered chunks ∧
      ClientAction.addWebSocketClient ∉ handleClient config files t delivered chunks := by
  rw [handleClient_of_lacksToken htoken h, handleClient_of_lacksToken htoken h]
  exact ⟨rfl, not_client_of_public config files chunks⟩

/-- Telemetry of an empty service with an uptime. -/
def idleTelemetry (uptime : Int) : Telemetry :=
  { state := StateStore.init {}
    stats := {}
    db := {}
    uptime := uptime
    summaryNow := seconds 1000
    devicesNow := seconds 1000
    totalsNow := seconds 1000 }

/-- Settings with a token. -/
def guardedConfig : Config := { dashboardToken := str "secret" }

/-- The chunks of a request for the health report. -/
def healthChunks (query : String) : List Str :=
  [str "GET /api/he", str "alth" ++ str query ++ str " HTTP/1.1\r\nHost: router\r\n\r\n"]

/-- A wrong token is answered with an error that does not show the uptime. -/
theorem unauthorised_learns_nothing_wrong_token :
    (receivedRequest (healthChunks "?token=guess")).isSome = true ∧
      handleClient guardedConfig (fun _ => none) (idleTelemetry 5) true
          (healthChunks "?token=guess") =
        handleClient guardedConfig (fun _ => none) (idleTelemetry 9) true
          (healthChunks "?token=guess") :=
  ⟨by decide +kernel,
    (unauthorised_learns_nothing guardedConfig (fun _ => none) (healthChunks "?token=guess")
      (by decide) (by decide +kernel) (idleTelemetry 5) (idleTelemetry 9) true).1⟩

example :
    handleClient guardedConfig (fun _ => none) (idleTelemetry 5) true
        (healthChunks "?token=secret") ≠
      handleClient guardedConfig (fun _ => none) (idleTelemetry 9) true
        (healthChunks "?token=secret") := by
  decide +kernel

end WebServer

end Netmon
