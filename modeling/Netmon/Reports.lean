import Netmon.App
import Netmon.DatabaseQueries
import Netmon.TextFormat

/-!
# Reports

The JSON bodies of the dashboard's interface and the Prometheus metrics.  A
report reads the telemetry: the store, the counters, the database, the uptime
and the clock.
-/

namespace Netmon

/-- Everything the service has learnt, and the clock readings of a reply. -/
structure Telemetry where
  state : StateStore
  stats : RuntimeStats
  db : Database
  uptime : Int
  summaryNow : TimePoint
  devicesNow : TimePoint
  totalsNow : TimePoint

/-- The version that the reports name. -/
def netmonVersion : Str := str "0.1.0"

/-! ## JSON -/

/-- An object whose member names need no escapes. -/
def jsonObject (members : List (String × Str)) : Str :=
  [123] ++ [44].intercalate (members.map fun m => [34] ++ str m.1 ++ str "\":" ++ m.2) ++ [125]

/-- The items between brackets, with commas. -/
def jsonArray (items : List Str) : Str := [91] ++ [44].intercalate items ++ [93]

/-- A JSON truth value. -/
def jsonBool (b : Bool) : Str := if b then str "true" else str "false"

/-- The fields of an event, as they are also stored. -/
def jsonFields (fields : StrMap Str) : Str := fieldsJson fields

/-- The tags as strings. -/
def tagsJson (tags : List Str) : Str := jsonArray (tags.map jsonQuote)

/-- The counters by type, in ascending order of the types. -/
def countersByType (values : StrMap Nat) : List (Str × Nat) :=
  (values.keys.insertionSort (· ≤ ·)).map fun key => (key, values.getD key 0)

/-- The counters by type as one object. -/
def statsByTypeJson (values : StrMap Nat) : Str :=
  [123] ++ [44].intercalate
    ((countersByType values).map fun c => jsonQuote c.1 ++ [58] ++ decimal c.2) ++ [125]

/-- A device as an object. -/
def deviceJson (device : DeviceState) : Str :=
  jsonObject
    [("mac", jsonQuote device.mac), ("ip", jsonQuote device.ip),
      ("hostname", jsonQuote device.hostname),
      ("interface_name", jsonQuote device.interfaceName), ("source", jsonQuote device.source),
      ("neigh_state", jsonQuote device.neighState),
      ("status", jsonQuote device.status.toText),
      ("first_seen", jsonQuote (formatIso8601 device.firstSeen)),
      ("last_seen", jsonQuote (formatIso8601 device.lastSeen)),
      ("last_dhcp", jsonQuote (formatIso8601 device.lastDhcp)),
      ("last_traffic", jsonQuote (formatIso8601 device.lastTraffic)),
      ("last_rate", jsonQuote (formatIso8601 device.lastRate)),
      ("rx_bytes_total", decimal device.rxBytesTotal.toNat),
      ("tx_bytes_total", decimal device.txBytesTotal.toNat),
      ("rx_rate_bps", formatGeneral device.rxRateBps),
      ("tx_rate_bps", formatGeneral device.txRateBps), ("tags", tagsJson device.tags)]

/-- An event as an object. -/
def eventJson (event : Event) : Str :=
  jsonObject
    [("id", jsonQuote event.id), ("ts", jsonQuote (formatIso8601 event.ts)),
      ("type", jsonQuote event.type), ("severity", jsonQuote event.severity.toText),
      ("source", jsonQuote event.source), ("message", jsonQuote event.message),
      ("fields", jsonFields event.fields)]

/-- An attack as an object. -/
def wanAttackJson (event : WANAttackEvent) : Str :=
  jsonObject
    [("ts", jsonQuote (formatIso8601 event.ts)), ("in_if", jsonQuote event.inIf),
      ("src_ip", jsonQuote event.srcIp), ("dst_ip", jsonQuote event.dstIp),
      ("src_port", jsonQuote event.srcPort), ("dst_port", jsonQuote event.dstPort),
      ("proto", jsonQuote event.proto), ("length", jsonQuote event.length),
      ("raw", jsonQuote event.raw)]

/-- A point of the traffic history as an object. -/
def trafficPointJson (point : TrafficHistoryPoint) : Str :=
  jsonObject
    [("ts", jsonQuote (formatIso8601 point.ts)), ("rx_rate_bps", formatGeneral point.rxRateBps),
      ("tx_rate_bps", formatGeneral point.txRateBps), ("samples", decimal point.samples)]

/-- The traffic of a device over the window, with the sum of both directions. -/
def deviceTrafficTotalJson (total : DeviceTrafficTotal) : Str :=
  jsonObject
    [("mac", jsonQuote total.mac), ("ip", jsonQuote total.ip),
      ("hostname", jsonQuote total.hostname),
      ("first_ts", jsonQuote (formatIso8601 total.firstTs)),
      ("last_ts", jsonQuote (formatIso8601 total.lastTs)),
      ("rx_bytes", decimal total.rxBytes.toNat), ("tx_bytes", decimal total.txBytes.toNat),
      ("total_bytes", decimal (total.rxBytes + total.txBytes).toNat),
      ("samples", decimal total.samples)]

/-! ## Bodies -/

/-- `GET /api/health`. -/
def healthJson (t : Telemetry) : Str :=
  jsonObject [("ok", str "true"), ("uptime_seconds", decimalInt t.uptime),
    ("version", jsonQuote netmonVersion)]

/-- `GET /api/summary`. -/
def summaryJson (t : Telemetry) : Str :=
  let summary := t.state.summary t.summaryNow
  jsonObject
    [("active_devices", decimal summary.activeDevices),
      ("idle_devices", decimal summary.idleDevices),
      ("offline_devices", decimal summary.offlineDevices),
      ("unknown_devices", decimal summary.unknownDevices),
      ("wan_attack_5m", decimal summary.wanAttack5m),
      ("rx_rate_bps", formatGeneral summary.rxRateBps),
      ("tx_rate_bps", formatGeneral summary.txRateBps),
      ("rate_source", jsonQuote summary.rateSource),
      ("rate_interface", jsonQuote summary.rateInterface),
      ("last_interface_ts", jsonQuote (formatIso8601 summary.lastInterfaceTs)),
      ("last_log_ts", jsonQuote (formatIso8601 summary.lastLogTs))]

/-- What the service is connected to and how it is set up. -/
def integrationsJson (config : Config) (t : Telemetry) : Str :=
  let summary := t.state.summary t.summaryNow
  let sqlite := jsonBool (App.sqliteEnabled config)
  jsonObject
    [("version", jsonQuote netmonVersion), ("uptime_seconds", decimalInt t.uptime),
      ("storage", jsonObject
        [("mode", jsonQuote config.storageMode), ("sqlite_enabled", sqlite),
          ("sqlite_available", sqlite), ("sqlite_path", jsonQuote config.sqlitePath),
          ("retention_days", decimalInt config.sqliteRetentionDays),
          ("max_db_mb", decimalInt config.sqliteMaxDbMb),
          ("max_events", decimal config.sqliteMaxEvents.toNat),
          ("max_traffic_points_per_device", decimal config.sqliteMaxTrafficPointsPerDevice.toNat),
          ("vacuum_on_start", jsonBool config.sqliteVacuumOnStart)]),
      ("prometheus", jsonObject
        [("enabled", jsonBool config.prometheusEnabled),
          ("path", jsonQuote config.prometheusPath),
          ("include_device_labels", jsonBool config.prometheusIncludeDeviceLabels),
          ("device_label_mode", jsonQuote config.prometheusDeviceLabelMode)]),
      ("grafana", jsonObject
        [("dashboard_url", jsonQuote (str "/grafana/dashboard.json")),
          ("dashboard_file",
            jsonQuote (str "deployments/grafana/openwrt-netmon-lite-dashboard.json")),
          ("datasource", jsonQuote (str "Prometheus"))]),
      ("data_sources", jsonObject
        [("default", jsonQuote (str "live")), ("sqlite_query_enabled", sqlite),
          ("realtime_source", jsonQuote (str "memory"))]),
      ("runtime", jsonObject
        [("syslog_messages_total", decimal t.stats.syslogMessagesTotal),
          ("parse_errors_total", decimal t.stats.parseErrorsTotal),
          ("wan_attacks_total", decimal t.stats.wanAttacksTotal),
          ("syslog_messages_by_type", statsByTypeJson t.stats.syslogMessagesByType),
          ("event_buffer_size", decimal t.state.events.size),
          ("wan_attack_buffer_size", decimal t.state.wanAttacks.size),
          ("active_devices", decimal summary.activeDevices),
          ("idle_devices", decimal summary.idleDevices),
          ("offline_devices", decimal summary.offlineDevices),
          ("unknown_devices", decimal summary.unknownDevices)])]

/-- A list with the name of its source. -/
def itemsJson (source : String) (items : List Str) : Str :=
  jsonObject [("source", jsonQuote (str source)), ("items", jsonArray items)]

/-- The name of the source that a request asks for. -/
def sourceName (sqlite : Bool) : String := if sqlite then "sqlite" else "live"

/-- A limit of zero shows every live device. -/
def devicesJson (sqlite : Bool) (limit : UInt64) (t : Telemetry) : Str :=
  let live := t.state.devices t.devicesNow
  let devices :=
    if sqlite then t.db.queryDevices limit
    else if limit > 0 ∧ live.length > limit.toNat then live.take limit.toNat
    else live
  itemsJson (sourceName sqlite) (devices.map deviceJson)

/-- Live events are listed newest first, as the stored ones are. -/
def eventsJson (sqlite : Bool) (limit : UInt64) (t : Telemetry) : Str :=
  let events :=
    if sqlite then t.db.queryEvents limit else (t.state.recentEvents limit.toNat).reverse
  itemsJson (sourceName sqlite) (events.map eventJson)

/-- The newest attacks first, from the database or from the live store. -/
def wanAttacksJson (sqlite : Bool) (limit : UInt64) (t : Telemetry) : Str :=
  let attacks :=
    if sqlite then t.db.queryWANAttacks limit else (t.state.recentWANAttacks limit.toNat).reverse
  itemsJson (sourceName sqlite) (attacks.map wanAttackJson)

/-- There is no live traffic history. -/
def trafficHistoryJson (sqlite : Bool) (limit : UInt64) (t : Telemetry) : Str :=
  let points := if sqlite then t.db.trafficHistory limit else []
  itemsJson (sourceName sqlite) (points.map trafficPointJson)

/-- The traffic of a day for each device; without a database there is none. -/
def deviceTraffic24hJson (available : Bool) (limit : UInt64) (t : Telemetry) : Str :=
  let totals := if available then t.db.deviceTrafficTotals t.totalsNow 24 limit else []
  jsonObject
    [("source", jsonQuote (if available then str "sqlite" else str "unavailable")),
      ("window_hours", str "24"), ("items", jsonArray (totals.map deviceTrafficTotalJson))]

/-! ## Prometheus metrics -/

/-- The three bytes that a label value escapes. -/
def labelEscapeByte (b : UInt8) : Str :=
  if b = 92 then str "\\\\" else if b = 34 then str "\\\"" else if b = 10 then str "\\n" else [b]

/-- A label value, byte by byte. -/
def labelEscape (value : Str) : Str := value.flatMap labelEscapeByte

/-- The 64-bit FNV-1a hash, in hexadecimal. -/
def fnv1aHex (value : Str) : Str :=
  hex16 (value.foldl (fun hash b => (hash ^^^ b.toUInt64) * 1099511628211) 1469598103934665603)

/-- The MAC itself if the configuration says so, else a hash of the MAC or of
the address. -/
def deviceLabel (config : Config) (device : DeviceState) : Str :=
  if config.prometheusDeviceLabelMode = str "raw_mac" ∧ device.mac ≠ [] then device.mac
  else
    let stableId := if device.mac ≠ [] then device.mac else device.ip
    if stableId = [] then str "unknown" else fnv1aHex stableId

/-- The two lines that introduce a metric. -/
def appendHelpType (name help type : String) : List Str :=
  [str "# HELP " ++ str name ++ [32] ++ str help, str "# TYPE " ++ str name ++ [32] ++ str type]

/-- A sample without labels. -/
def sample (name : String) (value : Str) : Str := str name ++ [32] ++ value

/-- A sample with one label. -/
def labelled (name label : String) (labelValue value : Str) : Str :=
  str name ++ [123] ++ str label ++ str "=\"" ++ labelValue ++ str "\"\x7d " ++ value

/-- The sample of a device, with its label and status. -/
def deviceSample (config : Config) (name : String) (device : DeviceState) (rate : ℚ) : Str :=
  str name ++ str "\x7bdevice=\"" ++ labelEscape (deviceLabel config device) ++
    str "\",status=\"" ++ labelEscape device.status.toText ++ str "\"\x7d " ++ formatFixed3 rate

/-- The samples of each device. -/
def deviceMetrics (config : Config) (devices : List DeviceState) : List Str :=
  appendHelpType "openwrt_netmon_device_rx_rate_bps"
      "Current per-device receive rate in bits per second." "gauge" ++
    devices.map (fun d => deviceSample config "openwrt_netmon_device_rx_rate_bps" d d.rxRateBps) ++
    appendHelpType "openwrt_netmon_device_tx_rate_bps"
      "Current per-device transmit rate in bits per second." "gauge" ++
    devices.map (fun d => deviceSample config "openwrt_netmon_device_tx_rate_bps" d d.txRateBps)

/-- The lines of the metrics. -/
def prometheusLines (config : Config) (t : Telemetry) : List Str :=
  let summary := t.state.summary t.summaryNow
  appendHelpType "openwrt_netmon_up" "Whether the netmon service is running." "gauge" ++
    [sample "openwrt_netmon_up" (str "1")] ++
  appendHelpType "openwrt_netmon_uptime_seconds" "Netmon service uptime in seconds." "counter" ++
    [sample "openwrt_netmon_uptime_seconds" (decimalInt t.uptime)] ++
  appendHelpType "openwrt_netmon_syslog_messages_total"
      "Syslog messages received by parsed type." "counter" ++
    [labelled "openwrt_netmon_syslog_messages_total" "type" (str "all")
      (decimal t.stats.syslogMessagesTotal)] ++
    (countersByType t.stats.syslogMessagesByType).map (fun c =>
      labelled "openwrt_netmon_syslog_messages_total" "type" (labelEscape c.1) (decimal c.2)) ++
  appendHelpType "openwrt_netmon_parse_errors_total"
      "Syslog messages that could not be parsed into a known event." "counter" ++
    [sample "openwrt_netmon_parse_errors_total" (decimal t.stats.parseErrorsTotal)] ++
  appendHelpType "openwrt_netmon_devices" "Number of devices by current status." "gauge" ++
    [labelled "openwrt_netmon_devices" "status" (str "online") (decimal summary.activeDevices),
      labelled "openwrt_netmon_devices" "status" (str "idle") (decimal summary.idleDevices),
      labelled "openwrt_netmon_devices" "status" (str "offline") (decimal summary.offlineDevices),
      labelled "openwrt_netmon_devices" "status" (str "unknown")
        (decimal summary.unknownDevices)] ++
  appendHelpType "openwrt_netmon_rx_rate_bps"
      "Current aggregate receive rate in bits per second." "gauge" ++
    [sample "openwrt_netmon_rx_rate_bps" (formatFixed3 summary.rxRateBps)] ++
  appendHelpType "openwrt_netmon_tx_rate_bps"
      "Current aggregate transmit rate in bits per second." "gauge" ++
    [sample "openwrt_netmon_tx_rate_bps" (formatFixed3 summary.txRateBps)] ++
  appendHelpType "openwrt_netmon_wan_attacks_total"
      "WAN attack or firewall drop events observed." "counter" ++
    [sample "openwrt_netmon_wan_attacks_total" (decimal t.stats.wanAttacksTotal)] ++
  appendHelpType "openwrt_netmon_wan_attacks_5m"
      "WAN attack or firewall drop events in the last five minutes." "gauge" ++
    [sample "openwrt_netmon_wan_attacks_5m" (decimal summary.wanAttack5m)] ++
  appendHelpType "openwrt_netmon_event_buffer_size"
      "Current in-memory event buffer size." "gauge" ++
    [sample "openwrt_netmon_event_buffer_size" (decimal t.state.events.size)] ++
  if config.prometheusIncludeDeviceLabels then
    deviceMetrics config (t.state.devices t.devicesNow)
  else []

/-- Every line ends with a line feed. -/
def renderPrometheusMetrics (config : Config) (t : Telemetry) : Str :=
  (prometheusLines config t).flatMap (· ++ [10])

end Netmon
