import Netmon.HttpReplies
import Netmon.JsonOutput
import Netmon.JsonValue
import Netmon.WebAccess

/-!
# The reports are read back

What a client of the interface gets: the reply to an authorised request for a report is one
HTTP response whose body is one JSON document, and the values it reads there are those of
the telemetry.  Texts are read back byte for byte whatever a device or a log line put into
them, counters exactly, and rates to six significant digits.
-/

namespace Netmon

open JsonValue

/-! ## Values and their texts -/

/-- A quoted text is read as the text, whatever its bytes are. -/
theorem writes_quote (s : Str) : Writes (jsonQuote s) (.string s) :=
  writes_string (readString_jsonQuote s)

/-- An integer is printed as a number without a fraction. -/
theorem writes_int (n : Int) : Writes (decimalInt n) (.number n) := by
  rw [← text_intNumeral, ← value_intNumeral]
  exact writes_numeral (wellFormed_intNumeral n)

theorem writes_nat (n : Nat) : Writes (decimal n) (.number n) := writes_int n

/-- A printed rate is read as the rate rounded to six significant digits. -/
theorem writes_rate (x : ℚ) : Writes (formatGeneral x) (.number (printed x)) := by
  rw [← text_generalNumeral, ← value_generalNumeral]
  exact writes_numeral (wellFormed_generalNumeral x)

theorem writes_jsonBool (b : Bool) : Writes (jsonBool b) (.bool b) := writes_bool b

theorem writes_true : Writes (str "true") (.bool true) := writes_jsonBool true

/-- Texts of values make the text of a list. -/
theorem writes_jsonArray {α : Type} {text : α → Str} {value : α → JsonValue.Value}
    (h : ∀ a, Writes (text a) (value a)) (items : List α) :
    Writes (jsonArray (items.map text)) (.array (items.map value)) := by
  refine writes_array ?_
  rw [List.forall₂_map_left_iff, List.forall₂_map_right_iff, List.forall₂_same]
  exact fun a _ => h a

/-- A name that needs no escapes. -/
def isPlainName (name : String) : Bool := (str name).all fun b => jsonEscapeByte b = [b]

/-- A member name without special bytes is quoted as it stands. -/
theorem jsonQuote_plain {name : String} (h : isPlainName name = true) :
    jsonQuote (str name) = [34] ++ str name ++ [34] := by
  have hescape : ∀ text : Str, (∀ b ∈ text, jsonEscapeByte b = [b]) → jsonEscape text = text := by
    intro text
    induction text with
    | nil => exact fun _ => rfl
    | cons b rest ih =>
        intro hbytes
        have hlater := ih fun c hc => hbytes c (List.mem_cons_of_mem _ hc)
        rw [jsonEscape] at hlater ⊢
        rw [List.flatMap_cons, hbytes b List.mem_cons_self, hlater]
        rfl
  rw [jsonQuote, hescape (str name)]
  intro b hb
  simpa using List.all_eq_true.mp h b hb

/-- An object with the names of the source. -/
def named (members : List (String × JsonValue.Value)) : JsonValue.Value :=
  .object (members.map fun m => (str m.1, m.2))

/-- Texts of values under plain names make the text of an object. -/
theorem writes_jsonObject {members : List (String × Str)} {values : List (String × JsonValue.Value)}
    (hnames : (values.map Prod.fst).all isPlainName = true)
    (h : List.Forall₂ (fun m v => m.1 = v.1 ∧ Writes m.2 v.2) members values) :
    Writes (jsonObject members) (named values) := by
  refine writes_object ?_
  rw [List.forall₂_map_left_iff, List.forall₂_map_right_iff]
  induction h with
  | nil => exact .nil
  | @cons m v members values hfirst _ ih =>
      rw [List.map_cons, List.all_cons, Bool.and_eq_true] at hnames
      refine .cons ⟨jsonQuote (str v.1), m.2, ?_, readString_jsonQuote _, hfirst.2⟩ (ih hnames.2)
      rw [jsonQuote_plain hnames.1, hfirst.1]
      simp
      rfl

/-! ## Maps -/

/-- The entries of a map of texts, in ascending order of the keys. -/
def fieldsValue (fields : StrMap Str) : JsonValue.Value :=
  .object ((sortedFields fields).map fun f => (f.1, .string f.2))

/-- The fields of an event, in whatever order the map yields them, are one object. -/
theorem writes_jsonFields (fields : StrMap Str) :
    Writes (jsonFields fields) (fieldsValue fields) := by
  rw [jsonFields, fieldsJson_eq]
  refine writes_object ?_
  rw [List.forall₂_map_left_iff, List.forall₂_map_right_iff, List.forall₂_same]
  intro f _
  exact ⟨jsonQuote f.1, jsonQuote f.2, by simp [JsonReader.writeMember], readString_jsonQuote _,
    writes_quote _⟩

/-- The counters by type. -/
def countersValue (values : StrMap Nat) : JsonValue.Value :=
  .object ((countersByType values).map fun c => (c.1, .number c.2))

/-- The counters by type are one object, sorted by type. -/
theorem writes_statsByTypeJson (values : StrMap Nat) :
    Writes (statsByTypeJson values) (countersValue values) := by
  refine writes_object ?_
  rw [List.forall₂_map_left_iff, List.forall₂_map_right_iff, List.forall₂_same]
  intro c _
  exact ⟨jsonQuote c.1, decimal c.2, by simp, readString_jsonQuote _, writes_nat _⟩

/-! ## Records -/

/-- The tags of a device, in their order. -/
def tagsValue (tags : List Str) : JsonValue.Value := .array (tags.map .string)

/-- The tags are an array of texts. -/
theorem writes_tagsJson (tags : List Str) : Writes (tagsJson tags) (tagsValue tags) :=
  writes_jsonArray writes_quote tags

/-- A time in a report is the text of `formatIso8601`. -/
def timeValue (ts : TimePoint) : JsonValue.Value := .string (formatIso8601 ts)

/-- What `deviceJson` reports of a device. -/
def deviceValue (device : DeviceState) : JsonValue.Value :=
  named
    [("mac", .string device.mac), ("ip", .string device.ip),
      ("hostname", .string device.hostname),
      ("interface_name", .string device.interfaceName), ("source", .string device.source),
      ("neigh_state", .string device.neighState), ("status", .string device.status.toText),
      ("first_seen", timeValue device.firstSeen), ("last_seen", timeValue device.lastSeen),
      ("last_dhcp", timeValue device.lastDhcp), ("last_traffic", timeValue device.lastTraffic),
      ("last_rate", timeValue device.lastRate),
      ("rx_bytes_total", .number device.rxBytesTotal.toNat),
      ("tx_bytes_total", .number device.txBytesTotal.toNat),
      ("rx_rate_bps", .number (printed device.rxRateBps)),
      ("tx_rate_bps", .number (printed device.txRateBps)), ("tags", tagsValue device.tags)]

/-- The text of a device is read as its value. -/
theorem writes_deviceJson (device : DeviceState) :
    Writes (deviceJson device) (deviceValue device) := by
  refine writes_jsonObject rfl ?_
  simp [writes_quote, writes_nat, writes_rate, writes_tagsJson, timeValue]

/-- What `eventJson` reports of an event. -/
def eventValue (event : Event) : JsonValue.Value :=
  named
    [("id", .string event.id), ("ts", timeValue event.ts), ("type", .string event.type),
      ("severity", .string event.severity.toText), ("source", .string event.source),
      ("message", .string event.message), ("fields", fieldsValue event.fields)]

/-- The text of an event is read as its value. -/
theorem writes_eventJson (event : Event) : Writes (eventJson event) (eventValue event) := by
  refine writes_jsonObject rfl ?_
  simp [writes_quote, writes_jsonFields, timeValue]

/-- What `wanAttackJson` reports of an attack; ports and length are texts there. -/
def wanAttackValue (event : WANAttackEvent) : JsonValue.Value :=
  named
    [("ts", timeValue event.ts), ("in_if", .string event.inIf), ("src_ip", .string event.srcIp),
      ("dst_ip", .string event.dstIp), ("src_port", .string event.srcPort),
      ("dst_port", .string event.dstPort), ("proto", .string event.proto),
      ("length", .string event.length), ("raw", .string event.raw)]

/-- The text of an attack is read as its value. -/
theorem writes_wanAttackJson (event : WANAttackEvent) :
    Writes (wanAttackJson event) (wanAttackValue event) := by
  refine writes_jsonObject rfl ?_
  simp [writes_quote, timeValue]

/-- What `trafficPointJson` reports of a point of the history. -/
def trafficPointValue (point : TrafficHistoryPoint) : JsonValue.Value :=
  named
    [("ts", timeValue point.ts), ("rx_rate_bps", .number (printed point.rxRateBps)),
      ("tx_rate_bps", .number (printed point.txRateBps)), ("samples", .number point.samples)]

/-- The text of a point is read as its value. -/
theorem writes_trafficPointJson (point : TrafficHistoryPoint) :
    Writes (trafficPointJson point) (trafficPointValue point) := by
  refine writes_jsonObject rfl ?_
  simp [writes_quote, writes_rate, writes_nat, timeValue]

/-- What `deviceTrafficTotalJson` reports: the counters as they are, their sum
modulo 2^64. -/
def deviceTrafficTotalValue (total : DeviceTrafficTotal) : JsonValue.Value :=
  named
    [("mac", .string total.mac), ("ip", .string total.ip), ("hostname", .string total.hostname),
      ("first_ts", timeValue total.firstTs), ("last_ts", timeValue total.lastTs),
      ("rx_bytes", .number total.rxBytes.toNat), ("tx_bytes", .number total.txBytes.toNat),
      ("total_bytes", .number (total.rxBytes + total.txBytes).toNat),
      ("samples", .number total.samples)]

/-- The text of a total is read as its value. -/
theorem writes_deviceTrafficTotalJson (total : DeviceTrafficTotal) :
    Writes (deviceTrafficTotalJson total) (deviceTrafficTotalValue total) := by
  refine writes_jsonObject rfl ?_
  simp [writes_quote, writes_nat, timeValue, -UInt64.toNat_add]

/-! ## Bodies -/

/-- The report of `/api/health`. -/
def healthValue (t : Telemetry) : JsonValue.Value :=
  named [("ok", .bool true), ("uptime_seconds", .number t.uptime),
    ("version", .string netmonVersion)]

/-- The health report is read as its value. -/
theorem writes_healthJson (t : Telemetry) : Writes (healthJson t) (healthValue t) := by
  refine writes_jsonObject rfl ?_
  simp [writes_quote, writes_int, writes_true]

/-- The report of `/api/summary`: counts exactly, rates as they are printed. -/
def summaryValue (t : Telemetry) : JsonValue.Value :=
  let summary := t.state.summary t.summaryNow
  named
    [("active_devices", .number summary.activeDevices),
      ("idle_devices", .number summary.idleDevices),
      ("offline_devices", .number summary.offlineDevices),
      ("unknown_devices", .number summary.unknownDevices),
      ("wan_attack_5m", .number summary.wanAttack5m),
      ("rx_rate_bps", .number (printed summary.rxRateBps)),
      ("tx_rate_bps", .number (printed summary.txRateBps)),
      ("rate_source", .string summary.rateSource),
      ("rate_interface", .string summary.rateInterface),
      ("last_interface_ts", timeValue summary.lastInterfaceTs),
      ("last_log_ts", timeValue summary.lastLogTs)]

/-- The summary report is read as its value. -/
theorem writes_summaryJson (t : Telemetry) : Writes (summaryJson t) (summaryValue t) := by
  refine writes_jsonObject rfl ?_
  simp [writes_quote, writes_nat, writes_rate, timeValue]

/-- The part of the integrations report on storage. -/
def storageValue (config : Config) : JsonValue.Value :=
  named
    [("mode", .string config.storageMode), ("sqlite_enabled", .bool (App.sqliteEnabled config)),
      ("sqlite_available", .bool (App.sqliteEnabled config)),
      ("sqlite_path", .string config.sqlitePath),
      ("retention_days", .number config.sqliteRetentionDays),
      ("max_db_mb", .number config.sqliteMaxDbMb),
      ("max_events", .number config.sqliteMaxEvents.toNat),
      ("max_traffic_points_per_device", .number config.sqliteMaxTrafficPointsPerDevice.toNat),
      ("vacuum_on_start", .bool config.sqliteVacuumOnStart)]

/-- The part of the integrations report on the metrics. -/
def prometheusValue (config : Config) : JsonValue.Value :=
  named
    [("enabled", .bool config.prometheusEnabled), ("path", .string config.prometheusPath),
      ("include_device_labels", .bool config.prometheusIncludeDeviceLabels),
      ("device_label_mode", .string config.prometheusDeviceLabelMode)]

/-- The part of the integrations report on Grafana, which depends on nothing. -/
def grafanaValue : JsonValue.Value :=
  named
    [("dashboard_url", .string (str "/grafana/dashboard.json")),
      ("dashboard_file", .string (str "deployments/grafana/openwrt-netmon-lite-dashboard.json")),
      ("datasource", .string (str "Prometheus"))]

/-- The part of the integrations report that tells the dashboard whether SQLite can be
queried. -/
def dataSourcesValue (config : Config) : JsonValue.Value :=
  named
    [("default", .string (str "live")), ("sqlite_query_enabled", .bool (App.sqliteEnabled config)),
      ("realtime_source", .string (str "memory"))]

/-- The part of the integrations report on counters, buffers and rates. -/
def runtimeValue (t : Telemetry) : JsonValue.Value :=
  let summary := t.state.summary t.summaryNow
  named
    [("syslog_messages_total", .number t.stats.syslogMessagesTotal),
      ("parse_errors_total", .number t.stats.parseErrorsTotal),
      ("wan_attacks_total", .number t.stats.wanAttacksTotal),
      ("syslog_messages_by_type", countersValue t.stats.syslogMessagesByType),
      ("event_buffer_size", .number t.state.events.size),
      ("wan_attack_buffer_size", .number t.state.wanAttacks.size),
      ("active_devices", .number summary.activeDevices),
      ("idle_devices", .number summary.idleDevices),
      ("offline_devices", .number summary.offlineDevices),
      ("unknown_devices", .number summary.unknownDevices)]

/-- The report of `/api/integrations`. -/
def integrationsValue (config : Config) (t : Telemetry) : JsonValue.Value :=
  named
    [("version", .string netmonVersion), ("uptime_seconds", .number t.uptime),
      ("storage", storageValue config), ("prometheus", prometheusValue config),
      ("grafana", grafanaValue), ("data_sources", dataSourcesValue config),
      ("runtime", runtimeValue t)]

/-- The integrations report, with its parts, is read as its value. -/
theorem writes_integrationsJson (config : Config) (t : Telemetry) :
    Writes (integrationsJson config t) (integrationsValue config t) := by
  refine writes_jsonObject rfl ?_
  simp only [List.forall₂_cons, List.forall₂_nil_right_iff, true_and, and_true, writes_quote,
    writes_int]
  refine ⟨?_, ?_, ?_, ?_, ?_⟩ <;>
    refine writes_jsonObject rfl ?_ <;>
    simp [writes_quote, writes_jsonBool, writes_int, writes_nat, writes_statsByTypeJson]

/-- A list with the name of its source. -/
def itemsValue (source : String) (items : List JsonValue.Value) : JsonValue.Value :=
  named [("source", .string (str source)), ("items", .array items)]

/-- A list of items under its source is read back if each item is. -/
theorem writes_itemsJson (source : String) {α : Type} {text : α → Str} {value : α → JsonValue.Value}
    (h : ∀ a, Writes (text a) (value a)) (items : List α) :
    Writes (itemsJson source (items.map text)) (itemsValue source (items.map value)) := by
  refine writes_jsonObject rfl ?_
  simp [writes_quote, writes_jsonArray h]

/-- The report of `/api/device-traffic-24h`: the totals of a day, or none without SQLite. -/
def deviceTraffic24hValue (available : Bool) (limit : UInt64) (t : Telemetry) : JsonValue.Value :=
  let totals := if available then t.db.deviceTrafficTotals t.totalsNow 24 limit else []
  named
    [("source", .string (if available then str "sqlite" else str "unavailable")),
      ("window_hours", .number 24), ("items", .array (totals.map deviceTrafficTotalValue))]

/-- The report of the totals is read as its value. -/
theorem writes_deviceTraffic24hJson (available : Bool) (limit : UInt64) (t : Telemetry) :
    Writes (deviceTraffic24hJson available limit t) (deviceTraffic24hValue available limit t) := by
  refine writes_jsonObject rfl ?_
  have hwindow : Writes (str "24") (.number 24) := writes_nat 24
  simp [writes_quote, writes_jsonArray writes_deviceTrafficTotalJson, hwindow]

/-! ## Requests for a report -/

namespace WebServer

/-- The reports of the interface. -/
inductive Report where
  | health
  | summary
  | integrations
  | devices
  | events
  | wanAttacks
  | trafficHistory
  | deviceTraffic24h
  deriving DecidableEq

/-- The path under which a report is served. -/
def Report.path : Report → Str
  | .health => str "/api/health"
  | .summary => str "/api/summary"
  | .integrations => str "/api/integrations"
  | .devices => str "/api/devices"
  | .events => str "/api/events"
  | .wanAttacks => str "/api/wan-attacks"
  | .trafficHistory => str "/api/traffic-history"
  | .deviceTraffic24h => str "/api/device-traffic-24h"

/-- What a report says about the telemetry, with the source and the limit that the request
asks for. -/
def Report.value (config : Config) (t : Telemetry) (request : Request) : Report → JsonValue.Value
  | .health => healthValue t
  | .summary => summaryValue t
  | .integrations => integrationsValue config t
  | .devices =>
      let limit := limitParam request 1000 5000
      itemsValue (sourceName (useSqliteSource config request))
        ((if useSqliteSource config request then t.db.queryDevices limit
          else if limit > 0 ∧ (t.state.devices t.devicesNow).length > limit.toNat then
            (t.state.devices t.devicesNow).take limit.toNat
          else t.state.devices t.devicesNow).map deviceValue)
  | .events =>
      let limit := limitParam request 100 1000
      itemsValue (sourceName (useSqliteSource config request))
        ((if useSqliteSource config request then t.db.queryEvents limit
          else (t.state.recentEvents limit.toNat).reverse).map eventValue)
  | .wanAttacks =>
      let limit := limitParam request 100 1000
      itemsValue (sourceName (useSqliteSource config request))
        ((if useSqliteSource config request then t.db.queryWANAttacks limit
          else (t.state.recentWANAttacks limit.toNat).reverse).map wanAttackValue)
  | .trafficHistory =>
      itemsValue (sourceName (useSqliteSource config request))
        ((if useSqliteSource config request then
            t.db.trafficHistory (limitParam request 180 720)
          else []).map trafficPointValue)
  | .deviceTraffic24h =>
      deviceTraffic24hValue (App.sqliteEnabled config) (limitParam request 50 500) t

/-- No report is served under the path of the socket. -/
theorem Report.path_ne_ws (report : Report) : report.path ≠ str "/ws" := by
  cases report <;> decide

/-- An authorised request for a report gets its text. -/
theorem routeHttp_report {config : Config} {request : Request} {report : Report}
    (hget : request.method = str "GET") (hauthorized : authorized config request = true)
    (hpath : request.path = report.path) (files : Files) (t : Telemetry) :
    ∃ body, routeHttp config files t request = sendJson body ∧
      Writes body (report.value config t request) := by
  unfold routeHttp
  rw [if_neg (not_not.mpr hget), if_neg (fun h => h.2 hauthorized), hpath]
  cases report with
  | health => exact ⟨_, if_pos rfl, writes_healthJson t⟩
  | summary =>
      iterate 1 rw [if_neg (by decide)]
      exact ⟨_, if_pos rfl, writes_summaryJson t⟩
  | integrations =>
      iterate 2 rw [if_neg (by decide)]
      exact ⟨_, if_pos rfl, writes_integrationsJson config t⟩
  | devices =>
      iterate 3 rw [if_neg (by decide)]
      exact ⟨_, if_pos rfl, writes_itemsJson _ writes_deviceJson _⟩
  | events =>
      iterate 4 rw [if_neg (by decide)]
      exact ⟨_, if_pos rfl, writes_itemsJson _ writes_eventJson _⟩
  | wanAttacks =>
      iterate 5 rw [if_neg (by decide)]
      exact ⟨_, if_pos rfl, writes_itemsJson _ writes_wanAttackJson _⟩
  | trafficHistory =>
      iterate 6 rw [if_neg (by decide)]
      exact ⟨_, if_pos rfl, writes_itemsJson _ writes_trafficPointJson _⟩
  | deviceTraffic24h =>
      iterate 7 rw [if_neg (by decide)]
      exact ⟨_, if_pos rfl, writes_deviceTraffic24hJson _ _ t⟩

/-- **The reports are read back.**  An authorised request for a report gets one response with
status 200 and no byte more; its body is one JSON document, and what a client reads there is
the report's value of the telemetry.  A rate in it is off by at most five millionths. -/
theorem reports_read_back (config : Config) (files : Files) (t : Telemetry) (delivered : Bool)
    (chunks : List Str) (request : Request) (report : Report)
    (hrequest : receivedRequest chunks = some request) (hget : request.method = str "GET")
    (hauthorized : authorized config request = true) (hpath : request.path = report.path) :
    ∃ reply body, handleClient config files t delivered chunks = [.send reply, .close] ∧
      HttpReader.readResponse reply = some (response (200, "OK") jsonType body, []) ∧
      readDocument body = some (report.value config t request) ∧
      ∀ rate, |printed rate - rate| ≤ |rate| / 200000 := by
  obtain ⟨body, hreply, hwrites⟩ := routeHttp_report hget hauthorized hpath files t
  obtain ⟨raw, hraw, hparse⟩ := Option.bind_eq_some_iff.mp hrequest
  have hread := readResponse_sendJson body []
  rw [List.append_nil] at hread
  refine ⟨sendJson body, body, ?_, hread, hwrites.document, printed_error⟩
  rw [handleClient, hraw]
  simp only [hparse]
  rw [if_neg (hpath ▸ report.path_ne_ws), hreply]

/-- A request for at most five devices with the token, in two chunks. -/
def devicesChunks : List Str :=
  [str "GET /api/dev", str "ices?limit=5&token=secret HTTP/1.1\r\nHost: router\r\n\r\n"]

/-- A service that knows one device.  Its name has a quote, a backslash, a line break and a byte
that is no text. -/
def namedTelemetry : Telemetry :=
  { idleTelemetry 5 with
    state := (StateStore.init {}).updateDevice (seconds 900)
      { mac := str "aa:01", ip := str "10.0.0.5", hostname := [116, 34, 92, 10, 200],
        lastSeen := seconds 890, tags := [str "dhcp"] } }

/-- The report of that device, for a client with the token. -/
theorem device_report_read_back :
    (namedTelemetry.state.devices namedTelemetry.devicesNow).map DeviceState.hostname =
        [[116, 34, 92, 10, 200]] ∧
      ∃ request ∈ receivedRequest devicesChunks, ∃ reply body,
        handleClient guardedConfig (fun _ => none) namedTelemetry true devicesChunks =
            [.send reply, .close] ∧
          HttpReader.readResponse reply = some (response (200, "OK") jsonType body, []) ∧
          readDocument body = some (Report.devices.value guardedConfig namedTelemetry request) := by
  refine ⟨by decide, ?_⟩
  have hrequests : ∀ request ∈ receivedRequest devicesChunks, request.method = str "GET" ∧
      authorized guardedConfig request = true ∧ request.path = Report.devices.path := by decide
  obtain ⟨request, hrequest⟩ :=
    Option.isSome_iff_exists.mp (show (receivedRequest devicesChunks).isSome = true by decide)
  obtain ⟨hget, hauthorized, hpath⟩ := hrequests request hrequest
  obtain ⟨reply, body, hclient, hresponse, hdocument, -⟩ :=
    reports_read_back guardedConfig (fun _ => none) namedTelemetry true devicesChunks request
      .devices hrequest hget hauthorized hpath
  exact ⟨request, hrequest, reply, body, hclient, hresponse, hdocument⟩

end WebServer

end Netmon
