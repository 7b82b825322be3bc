import Netmon.Types

/-!
# The configuration file

`config.cpp`: a hand-written reader for a small part of YAML.  Each line is a section
header, a scalar setting, the header of the list of trusted routers or one of its
items.  The reader keeps the open sections on a stack with their indentation; a line
closes the sections that are indented as far as itself or further.  The innermost
section is the head of the list here, where the source has it at the back of the vector.

The file is its contents, `none` when no path is given or the file cannot be opened, and
the environment is the function that `getenv` is.
-/

namespace Netmon

/-- The names of the open sections, the outermost first, with dots between them. -/
def sectionPath (sections : List (Nat × Str)) : Str :=
  [46].intercalate (sections.reverse.map Prod.snd)

/-- The indentation of a line. -/
def leadingSpaces (line : Str) : Nat := (line.takeWhile (· = 32)).length

/-- A line ends the sections that are indented as far or farther. -/
def popSectionsAtOrAbove (sections : List (Nat × Str)) (indent : Nat) : List (Nat × Str) :=
  sections.dropWhile fun opened => indent ≤ opened.1

/-- Where each setting of the file goes. -/
def applyValue (config : Config) (path key rawValue : Str) : Config :=
  let value := stripQuotes (stripInlineComment rawValue)
  if path = str "server" then
    if key = str "http_addr" then { config with httpAddr := value }
    else if key = str "syslog_udp_addr" then { config with syslogUdpAddr := value }
    else if key = str "syslog_tcp_addr" then { config with syslogTcpAddr := value }
    else if key = str "enable_udp" then
      { config with enableUdp := parseBool value config.enableUdp }
    else if key = str "enable_tcp" then
      { config with enableTcp := parseBool value config.enableTcp }
    else config
  else if path = str "state" then
    if key = str "device_online_ttl_seconds" then
      { config with deviceOnlineTtlSeconds := parseInt value config.deviceOnlineTtlSeconds }
    else if key = str "device_idle_ttl_seconds" then
      { config with deviceIdleTtlSeconds := parseInt value config.deviceIdleTtlSeconds }
    else if key = str "device_keep_ttl_seconds" then
      { config with deviceKeepTtlSeconds := parseInt value config.deviceKeepTtlSeconds }
    else if key = str "max_events" then
      { config with maxEvents := parseUint64 value config.maxEvents }
    else if key = str "max_attack_events" then
      { config with maxAttackEvents := parseUint64 value config.maxAttackEvents }
    else if key = str "max_traffic_points_per_device" then
      { config with
        maxTrafficPointsPerDevice := parseUint64 value config.maxTrafficPointsPerDevice }
    else if key = str "traffic_rate_hold_seconds" then
      { config with trafficRateHoldSeconds := parseInt value config.trafficRateHoldSeconds }
    else config
  else if path = str "storage" then
    if key = str "mode" then { config with storageMode := value }
    else if key = str "enable_debug_file_log" then
      { config with enableDebugFileLog := parseBool value config.enableDebugFileLog }
    else if key = str "debug_log_path" then { config with debugLogPath := value }
    else if key = str "debug_log_max_mb" then
      { config with debugLogMaxMb := parseInt value config.debugLogMaxMb }
    else config
  else if path = str "storage.sqlite" then
    if key = str "path" then { config with sqlitePath := value }
    else if key = str "retention_days" then
      { config with sqliteRetentionDays := parseInt value config.sqliteRetentionDays }
    else if key = str "max_db_mb" then
      { config with sqliteMaxDbMb := parseInt value config.sqliteMaxDbMb }
    else if key = str "max_events" then
      { config with sqliteMaxEvents := parseUint64 value config.sqliteMaxEvents }
    else if key = str "max_traffic_points_per_device" then
      { config with
        sqliteMaxTrafficPointsPerDevice :=
          parseUint64 value config.sqliteMaxTrafficPointsPerDevice }
    else if key = str "vacuum_on_start" then
      { config with sqliteVacuumOnStart := parseBool value config.sqliteVacuumOnStart }
    else config
  else if path = str "metrics" then
    if key = str "prometheus_enabled" then
      { config with prometheusEnabled := parseBool value config.prometheusEnabled }
    else if key = str "prometheus_path" then
      { config with
        prometheusPath := if value = [] ∨ value.head? = some 47 then value else 47 :: value }
    else if key = str "include_device_labels" then
      { config with
        prometheusIncludeDeviceLabels := parseBool value config.prometheusIncludeDeviceLabels }
    else if key = str "device_label_mode" then { config with prometheusDeviceLabelMode := value }
    else config
  else if path = str "security" then
    if key = str "bind_lan_only" then
      { config with bindLanOnly := parseBool value config.bindLanOnly }
    else if key = str "dashboard_token" then { config with dashboardToken := value }
    else if key = str "max_syslog_line_length" then
      { config with maxSyslogLineLength := parseUint64 value config.maxSyslogLineLength }
    else config
  else if path = str "web" then
    if key = str "root" then { config with webRoot := value } else config
  else config

/-- The settings with another list of trusted routers. -/
def Config.withRouters (config : Config) (ips : List Str) : Config :=
  { config with trustedRouterIps := ips }

/-- The state of the reading loop. -/
structure Reader where
  config : Config := {}
  listKey : Str := []
  sections : List (Nat × Str) := []

namespace Reader

/-- One round of the reading loop. -/
def readLine (r : Reader) (line : Str) : Reader :=
  let indent := leadingSpaces line
  let text := stripInlineComment line
  if text = [] then r
  else if text.head? = some 45 then
    if r.listKey = str "security.trusted_router_ips" then
      let item := stripQuotes (stripInlineComment (trim (text.drop 1)))
      if item ≠ [] then
        { r with config := r.config.withRouters (r.config.trustedRouterIps ++ [item]) }
      else r
    else r
  else
    match text.dropWhile (· ≠ 58) with
    | [] => r
    | _ :: rest =>
        let key := trim (text.takeWhile (· ≠ 58))
        let value := trim rest
        let sections := popSectionsAtOrAbove r.sections indent
        if sectionPath sections = str "security" ∧ key = str "trusted_router_ips" ∧
            value = [] then
          { config := r.config.withRouters []
            listKey := str "security.trusted_router_ips"
            sections := sections }
        else if value = [] then
          { r with listKey := [], sections := (indent, key) :: sections }
        else
          { config := applyValue r.config (sectionPath sections) key value
            listKey := []
            sections := sections }

end Reader

/-- The lines that `std::getline` yields: no line follows the last line break. -/
def getLines (contents : Str) : List Str :=
  let parts := split contents 10
  if parts.getLast? = some [] then parts.dropLast else parts

/-! ## Environment -/

/-- `std::getenv`. -/
abbrev Environment := Str → Option Str

/-- A text from the environment. -/
def setIfEnv (env : Environment) (name : String) (value : Str) : Str := (env (str name)).getD value

/-- A switch from the environment. -/
def setBoolIfEnv (env : Environment) (name : String) (value : Bool) : Bool :=
  (env (str name)).elim value fun text => parseBool text value

/-- An integer from the environment. -/
def setIntIfEnv (env : Environment) (name : String) (value : Int) : Int :=
  (env (str name)).elim value fun text => parseInt text value

/-- A size from the environment. -/
def setSizeIfEnv (env : Environment) (name : String) (value : UInt64) : UInt64 :=
  (env (str name)).elim value fun text => parseUint64 text value

/-- What the environment sets counts more than the file. -/
def applyEnvironmentOverrides (env : Environment) (config : Config) : Config :=
  let prometheusPath := setIfEnv env "NETMON_PROMETHEUS_PATH" config.prometheusPath
  { config with
    httpAddr := setIfEnv env "NETMON_HTTP_ADDR" config.httpAddr
    syslogUdpAddr := setIfEnv env "NETMON_SYSLOG_UDP_ADDR" config.syslogUdpAddr
    syslogTcpAddr := setIfEnv env "NETMON_SYSLOG_TCP_ADDR" config.syslogTcpAddr
    enableUdp := setBoolIfEnv env "NETMON_ENABLE_UDP" config.enableUdp
    enableTcp := setBoolIfEnv env "NETMON_ENABLE_TCP" config.enableTcp
    dashboardToken := setIfEnv env "NETMON_DASHBOARD_TOKEN" config.dashboardToken
    webRoot := setIfEnv env "NETMON_WEB_ROOT" config.webRoot
    storageMode := setIfEnv env "NETMON_STORAGE_MODE" config.storageMode
    sqlitePath := setIfEnv env "NETMON_SQLITE_PATH" config.sqlitePath
    sqliteRetentionDays :=
      setIntIfEnv env "NETMON_SQLITE_RETENTION_DAYS" config.sqliteRetentionDays
    sqliteMaxDbMb := setIntIfEnv env "NETMON_SQLITE_MAX_DB_MB" config.sqliteMaxDbMb
    sqliteMaxEvents := setSizeIfEnv env "NETMON_SQLITE_MAX_EVENTS" config.sqliteMaxEvents
    sqliteMaxTrafficPointsPerDevice :=
      setSizeIfEnv env "NETMON_SQLITE_MAX_TRAFFIC_POINTS_PER_DEVICE"
        config.sqliteMaxTrafficPointsPerDevice
    sqliteVacuumOnStart :=
      setBoolIfEnv env "NETMON_SQLITE_VACUUM_ON_START" config.sqliteVacuumOnStart
    prometheusEnabled := setBoolIfEnv env "NETMON_PROMETHEUS_ENABLED" config.prometheusEnabled
    prometheusPath :=
      if prometheusPath ≠ [] ∧ prometheusPath.head? ≠ some 47 then 47 :: prometheusPath
      else prometheusPath
    prometheusIncludeDeviceLabels :=
      setBoolIfEnv env "NETMON_PROMETHEUS_INCLUDE_DEVICE_LABELS"
        config.prometheusIncludeDeviceLabels
    prometheusDeviceLabelMode :=
      setIfEnv env "NETMON_PROMETHEUS_DEVICE_LABEL_MODE" config.prometheusDeviceLabelMode
    trustedRouterIps :=
      (env (str "NETMON_TRUSTED_ROUTER_IPS")).elim config.trustedRouterIps fun text =>
        ((split text 44).map trim).filter (· ≠ []) }

/-- The defaults, the file over them and the environment over both. -/
def loadConfig (env : Environment) (file : Option Str) : Config :=
  let config :=
    match file with
    | none => {}
    | some contents => ((getLines contents).foldl Reader.readLine {}).config
  applyEnvironmentOverrides env config

example : (loadConfig (fun _ => none)
    (some (str "storage:\n  sqlite:\n    max_events: 12 # rows\n"))).sqliteMaxEvents = 12 := by
  decide +kernel

end Netmon
