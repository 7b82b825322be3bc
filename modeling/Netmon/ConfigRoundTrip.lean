import Netmon.ConfigValues
import Netmon.Outline
import Netmon.Runs

/-!
# The configuration round trip

A configuration is written as an outline: sections with their settings, in any order and
with any indentation that grows inwards, blank lines and comments in between and
comments behind the values.  `Laid` describes such a text line by line.  Reading it
takes over the settings that it holds, one after the other, and a text that holds all
of them gives the configuration back.
-/

namespace Netmon

/-! ## Settings -/

/-- The settings that have one value. -/
inductive Scalar where
  | httpAddr
  | syslogUdpAddr
  | syslogTcpAddr
  | enableUdp
  | enableTcp
  | deviceOnlineTtlSeconds
  | deviceIdleTtlSeconds
  | deviceKeepTtlSeconds
  | maxEvents
  | maxAttackEvents
  | maxTrafficPointsPerDevice
  | trafficRateHoldSeconds
  | storageMode
  | enableDebugFileLog
  | debugLogPath
  | debugLogMaxMb
  | sqlitePath
  | sqliteRetentionDays
  | sqliteMaxDbMb
  | sqliteMaxEvents
  | sqliteMaxTrafficPointsPerDevice
  | sqliteVacuumOnStart
  | prometheusEnabled
  | prometheusPath
  | prometheusIncludeDeviceLabels
  | prometheusDeviceLabelMode
  | bindLanOnly
  | dashboardToken
  | maxSyslogLineLength
  | webRoot
  deriving DecidableEq

namespace Scalar

/-- The section of a setting, the outermost name first. -/
def path : Scalar → List Str
  | httpAddr | syslogUdpAddr | syslogTcpAddr | enableUdp | enableTcp => [str "server"]
  | deviceOnlineTtlSeconds | deviceIdleTtlSeconds | deviceKeepTtlSeconds | maxEvents
  | maxAttackEvents | maxTrafficPointsPerDevice | trafficRateHoldSeconds => [str "state"]
  | storageMode | enableDebugFileLog | debugLogPath | debugLogMaxMb => [str "storage"]
  | sqlitePath | sqliteRetentionDays | sqliteMaxDbMb | sqliteMaxEvents
  | sqliteMaxTrafficPointsPerDevice | sqliteVacuumOnStart => [str "storage", str "sqlite"]
  | prometheusEnabled | prometheusPath | prometheusIncludeDeviceLabels
  | prometheusDeviceLabelMode => [str "metrics"]
  | bindLanOnly | dashboardToken | maxSyslogLineLength => [str "security"]
  | webRoot => [str "web"]

/-- The key of a setting in its section. -/
def key : Scalar → Str
  | httpAddr => str "http_addr"
  | syslogUdpAddr => str "syslog_udp_addr"
  | syslogTcpAddr => str "syslog_tcp_addr"
  | enableUdp => str "enable_udp"
  | enableTcp => str "enable_tcp"
  | deviceOnlineTtlSeconds => str "device_online_ttl_seconds"
  | deviceIdleTtlSeconds => str "device_idle_ttl_seconds"
  | deviceKeepTtlSeconds => str "device_keep_ttl_seconds"
  | maxEvents => str "max_events"
  | maxAttackEvents => str "max_attack_events"
  | maxTrafficPointsPerDevice => str "max_traffic_points_per_device"
  | trafficRateHoldSeconds => str "traffic_rate_hold_seconds"
  | storageMode => str "mode"
  | enableDebugFileLog => str "enable_debug_file_log"
  | debugLogPath => str "debug_log_path"
  | debugLogMaxMb => str "debug_log_max_mb"
  | sqlitePath => str "path"
  | sqliteRetentionDays => str "retention_days"
  | sqliteMaxDbMb => str "max_db_mb"
  | sqliteMaxEvents => str "max_events"
  | sqliteMaxTrafficPointsPerDevice => str "max_traffic_points_per_device"
  | sqliteVacuumOnStart => str "vacuum_on_start"
  | prometheusEnabled => str "prometheus_enabled"
  | prometheusPath => str "prometheus_path"
  | prometheusIncludeDeviceLabels => str "include_device_labels"
  | prometheusDeviceLabelMode => str "device_label_mode"
  | bindLanOnly => str "bind_lan_only"
  | dashboardToken => str "dashboard_token"
  | maxSyslogLineLength => str "max_syslog_line_length"
  | webRoot => str "root"

/-- The value of a setting. -/
def value (c : Config) : Scalar → Value
  | httpAddr => .text c.httpAddr
  | syslogUdpAddr => .text c.syslogUdpAddr
  | syslogTcpAddr => .text c.syslogTcpAddr
  | enableUdp => .flag c.enableUdp
  | enableTcp => .flag c.enableTcp
  | deviceOnlineTtlSeconds => .int c.deviceOnlineTtlSeconds
  | deviceIdleTtlSeconds => .int c.deviceIdleTtlSeconds
  | deviceKeepTtlSeconds => .int c.deviceKeepTtlSeconds
  | maxEvents => .size c.maxEvents
  | maxAttackEvents => .size c.maxAttackEvents
  | maxTrafficPointsPerDevice => .size c.maxTrafficPointsPerDevice
  | trafficRateHoldSeconds => .int c.trafficRateHoldSeconds
  | storageMode => .text c.storageMode
  | enableDebugFileLog => .flag c.enableDebugFileLog
  | debugLogPath => .text c.debugLogPath
  | debugLogMaxMb => .int c.debugLogMaxMb
  | sqlitePath => .text c.sqlitePath
  | sqliteRetentionDays => .int c.sqliteRetentionDays
  | sqliteMaxDbMb => .int c.sqliteMaxDbMb
  | sqliteMaxEvents => .size c.sqliteMaxEvents
  | sqliteMaxTrafficPointsPerDevice => .size c.sqliteMaxTrafficPointsPerDevice
  | sqliteVacuumOnStart => .flag c.sqliteVacuumOnStart
  | prometheusEnabled => .flag c.prometheusEnabled
  | prometheusPath => .text c.prometheusPath
  | prometheusIncludeDeviceLabels => .flag c.prometheusIncludeDeviceLabels
  | prometheusDeviceLabelMode => .text c.prometheusDeviceLabelMode
  | bindLanOnly => .flag c.bindLanOnly
  | dashboardToken => .text c.dashboardToken
  | maxSyslogLineLength => .size c.maxSyslogLineLength
  | webRoot => .text c.webRoot

/-- The configuration `d` with the setting of `c`. -/
def copy (c d : Config) : Scalar → Config
  | httpAddr => { d with httpAddr := c.httpAddr }
  | syslogUdpAddr => { d with syslogUdpAddr := c.syslogUdpAddr }
  | syslogTcpAddr => { d with syslogTcpAddr := c.syslogTcpAddr }
  | enableUdp => { d with enableUdp := c.enableUdp }
  | enableTcp => { d with enableTcp := c.enableTcp }
  | deviceOnlineTtlSeconds => { d with deviceOnlineTtlSeconds := c.deviceOnlineTtlSeconds }
  | deviceIdleTtlSeconds => { d with deviceIdleTtlSeconds := c.deviceIdleTtlSeconds }
  | deviceKeepTtlSeconds => { d with deviceKeepTtlSeconds := c.deviceKeepTtlSeconds }
  | maxEvents => { d with maxEvents := c.maxEvents }
  | maxAttackEvents => { d with maxAttackEvents := c.maxAttackEvents }
  | maxTrafficPointsPerDevice =>
      { d with maxTrafficPointsPerDevice := c.maxTrafficPointsPerDevice }
  | trafficRateHoldSeconds => { d with trafficRateHoldSeconds := c.trafficRateHoldSeconds }
  | storageMode => { d with storageMode := c.storageMode }
  | enableDebugFileLog => { d with enableDebugFileLog := c.enableDebugFileLog }
  | debugLogPath => { d with debugLogPath := c.debugLogPath }
  | debugLogMaxMb => { d with debugLogMaxMb := c.debugLogMaxMb }
  | sqlitePath => { d with sqlitePath := c.sqlitePath }
  | sqliteRetentionDays => { d with sqliteRetentionDays := c.sqliteRetentionDays }
  | sqliteMaxDbMb => { d with sqliteMaxDbMb := c.sqliteMaxDbMb }
  | sqliteMaxEvents => { d with sqliteMaxEvents := c.sqliteMaxEvents }
  | sqliteMaxTrafficPointsPerDevice =>
      { d with sqliteMaxTrafficPointsPerDevice := c.sqliteMaxTrafficPointsPerDevice }
  | sqliteVacuumOnStart => { d with sqliteVacuumOnStart := c.sqliteVacuumOnStart }
  | prometheusEnabled => { d with prometheusEnabled := c.prometheusEnabled }
  | prometheusPath => { d with prometheusPath := c.prometheusPath }
  | prometheusIncludeDeviceLabels =>
      { d with prometheusIncludeDeviceLabels := c.prometheusIncludeDeviceLabels }
  | prometheusDeviceLabelMode =>
      { d with prometheusDeviceLabelMode := c.prometheusDeviceLabelMode }
  | bindLanOnly => { d with bindLanOnly := c.bindLanOnly }
  | dashboardToken => { d with dashboardToken := c.dashboardToken }
  | maxSyslogLineLength => { d with maxSyslogLineLength := c.maxSyslogLineLength }
  | webRoot => { d with webRoot := c.webRoot }

end Scalar

/-- A configuration that the file can hold: its texts are without double quotes and line
breaks, its numbers are those of an `int`, the addresses of the routers are not empty
and the path of the metrics is empty or begins with a slash. -/
structure Writable (c : Config) : Prop where
  values : ∀ x : Scalar, (x.value c).Writable
  routers : ∀ ip ∈ c.trustedRouterIps, ip ≠ [] ∧ 34 ∉ ip ∧ 10 ∉ ip
  metricsPath : c.prometheusPath = [] ∨ c.prometheusPath.head? = some 47

/-- **A value is applied to its own setting.** -/
theorem applyValue_scalar {c : Config} (h : Writable c) (d : Config) (x : Scalar) :
    applyValue d ([46].intercalate x.path) x.key (x.value c).render = x.copy c d := by
  have hvalue := h.values x
  have hraw : ∀ raw, stripQuotes (stripInlineComment raw) = readValue raw := fun _ => rfl
  cases x
  case httpAddr | syslogUdpAddr | syslogTcpAddr | storageMode | debugLogPath | sqlitePath |
      prometheusDeviceLabelMode | dashboardToken | webRoot =>
    simp +decide only [applyValue, hraw, Scalar.value, Scalar.copy, readValue_text hvalue, if_true,
      if_false]
  case enableUdp | enableTcp | enableDebugFileLog | sqliteVacuumOnStart | prometheusEnabled |
      prometheusIncludeDeviceLabels | bindLanOnly =>
    simp +decide only [applyValue, hraw, Scalar.value, Scalar.copy, readValue_flag, if_true,
      if_false]
  case deviceOnlineTtlSeconds | deviceIdleTtlSeconds | deviceKeepTtlSeconds |
      trafficRateHoldSeconds | debugLogMaxMb | sqliteRetentionDays | sqliteMaxDbMb =>
    simp +decide only [applyValue, hraw, Scalar.value, Scalar.copy, readValue_int hvalue, if_true,
      if_false]
  case maxEvents | maxAttackEvents | maxTrafficPointsPerDevice | sqliteMaxEvents |
      sqliteMaxTrafficPointsPerDevice | maxSyslogLineLength =>
    simp +decide only [applyValue, hraw, Scalar.value, Scalar.copy, readValue_size, if_true,
      if_false]
  case prometheusPath =>
    simp +decide only [applyValue, hraw, Scalar.value, Scalar.copy, readValue_text hvalue, if_true,
      if_false, h.metricsPath]

/-- A setting: one value, or the list of trusted routers. -/
inductive Setting where
  | scalar (x : Scalar)
  | trustedRouterIps
  deriving DecidableEq

namespace Setting

/-- The configuration `d` with the setting of `c`. -/
def copy (c d : Config) : Setting → Config
  | scalar x => x.copy c d
  | trustedRouterIps => d.withRouters c.trustedRouterIps

/-- The settings of `c` where they are taken over, and those of `d` elsewhere. -/
def mix (c d : Config) (taken : Setting → Bool) : Config where
  httpAddr := if taken (scalar .httpAddr) then c.httpAddr else d.httpAddr
  syslogUdpAddr := if taken (scalar .syslogUdpAddr) then c.syslogUdpAddr else d.syslogUdpAddr
  syslogTcpAddr := if taken (scalar .syslogTcpAddr) then c.syslogTcpAddr else d.syslogTcpAddr
  enableUdp := if taken (scalar .enableUdp) then c.enableUdp else d.enableUdp
  enableTcp := if taken (scalar .enableTcp) then c.enableTcp else d.enableTcp
  deviceOnlineTtlSeconds := if taken (scalar .deviceOnlineTtlSeconds) then
    c.deviceOnlineTtlSeconds else d.deviceOnlineTtlSeconds
  deviceIdleTtlSeconds := if taken (scalar .deviceIdleTtlSeconds) then
    c.deviceIdleTtlSeconds else d.deviceIdleTtlSeconds
  deviceKeepTtlSeconds := if taken (scalar .deviceKeepTtlSeconds) then
    c.deviceKeepTtlSeconds else d.deviceKeepTtlSeconds
  maxEvents := if taken (scalar .maxEvents) then c.maxEvents else d.maxEvents
  maxAttackEvents := if taken (scalar .maxAttackEvents) then
    c.maxAttackEvents else d.maxAttackEvents
  maxTrafficPointsPerDevice := if taken (scalar .maxTrafficPointsPerDevice) then
    c.maxTrafficPointsPerDevice else d.maxTrafficPointsPerDevice
  trafficRateHoldSeconds := if taken (scalar .trafficRateHoldSeconds) then
    c.trafficRateHoldSeconds else d.trafficRateHoldSeconds
  storageMode := if taken (scalar .storageMode) then c.storageMode else d.storageMode
  enableDebugFileLog := if taken (scalar .enableDebugFileLog) then
    c.enableDebugFileLog else d.enableDebugFileLog
  debugLogPath := if taken (scalar .debugLogPath) then c.debugLogPath else d.debugLogPath
  debugLogMaxMb := if taken (scalar .debugLogMaxMb) then c.debugLogMaxMb else d.debugLogMaxMb
  sqlitePath := if taken (scalar .sqlitePath) then c.sqlitePath else d.sqlitePath
  sqliteRetentionDays := if taken (scalar .sqliteRetentionDays) then
    c.sqliteRetentionDays else d.sqliteRetentionDays
  sqliteMaxDbMb := if taken (scalar .sqliteMaxDbMb) then c.sqliteMaxDbMb else d.sqliteMaxDbMb
  sqliteMaxEvents := if taken (scalar .sqliteMaxEvents) then
    c.sqliteMaxEvents else d.sqliteMaxEvents
  sqliteMaxTrafficPointsPerDevice := if taken (scalar .sqliteMaxTrafficPointsPerDevice) then
    c.sqliteMaxTrafficPointsPerDevice else d.sqliteMaxTrafficPointsPerDevice
  sqliteVacuumOnStart := if taken (scalar .sqliteVacuumOnStart) then
    c.sqliteVacuumOnStart else d.sqliteVacuumOnStart
  prometheusEnabled := if taken (scalar .prometheusEnabled) then
    c.prometheusEnabled else d.prometheusEnabled
  prometheusPath := if taken (scalar .prometheusPath) then c.prometheusPath else d.prometheusPath
  prometheusIncludeDeviceLabels := if taken (scalar .prometheusIncludeDeviceLabels) then
    c.prometheusIncludeDeviceLabels else d.prometheusIncludeDeviceLabels
  prometheusDeviceLabelMode := if taken (scalar .prometheusDeviceLabelMode) then
    c.prometheusDeviceLabelMode else d.prometheusDeviceLabelMode
  bindLanOnly := if taken (scalar .bindLanOnly) then c.bindLanOnly else d.bindLanOnly
  dashboardToken := if taken (scalar .dashboardToken) then c.dashboardToken else d.dashboardToken
  trustedRouterIps := if taken trustedRouterIps then c.trustedRouterIps else d.trustedRouterIps
  maxSyslogLineLength := if taken (scalar .maxSyslogLineLength) then
    c.maxSyslogLineLength else d.maxSyslogLineLength
  webRoot := if taken (scalar .webRoot) then c.webRoot else d.webRoot

/-- Copying a setting takes it from the written configuration. -/
theorem copy_mix (c d : Config) (taken : Setting → Bool) (x : Setting) :
    x.copy c (mix c d taken) = mix c d fun y => decide (y = x) || taken y := by
  cases x with
  | trustedRouterIps => rfl
  | scalar x => cases x <;> rfl

/-- Taking over a list of settings, in whatever order and however often. -/
theorem foldl_copy (c d : Config) (settings : List Setting) (taken : Setting → Bool) :
    settings.foldl (fun d x => x.copy c d) (mix c d taken) =
      mix c d fun y => decide (y ∈ settings) || taken y := by
  induction settings generalizing taken with
  | nil => exact congrArg (mix c d) (by simp)
  | cons x settings ih =>
      rw [List.foldl_cons, copy_mix, ih]
      refine congrArg (mix c d) (funext fun y => ?_)
      by_cases hy : y = x
      · simp [hy]
      · simp [hy]

/-- **Taking over every setting gives the whole configuration.** -/
theorem foldl_copy_all (c d : Config) {settings : List Setting} (h : ∀ x, x ∈ settings) :
    settings.foldl (fun d x => x.copy c d) d = c := by
  have hall : (fun y => decide (y ∈ settings) || false) = fun _ => true := by
    funext y
    simp [h y]
  calc settings.foldl (fun d x => x.copy c d) d
      = settings.foldl (fun d x => x.copy c d) (mix c d fun _ => false) := rfl
    _ = mix c d fun _ => true := by rw [foldl_copy, hall]
    _ = c := rfl

end Setting

/-! ## Layouts -/

/-- The indentation of a line. -/
def indentation (n : Nat) : Str := List.replicate n 32

/-- An indentation is blank. -/
theorem blank_indentation (n : Nat) : Blank (indentation n) := by
  intro b hb
  obtain rfl := List.eq_of_mem_replicate hb
  decide

/-- The names of the sections. -/
def sectionNames : List Str :=
  [str "server", str "state", str "storage", str "sqlite", str "metrics", str "security", str "web"]

/-- The items of the list of routers, with blank lines and comments between them. -/
inductive Items : List Str → List Str → Prop where
  | nil : Items [] []
  | filler {ips lines : List Str} {line : Str} (hline : Tail line) (rest : Items ips lines) :
      Items ips (line :: lines)
  | item {ips lines : List Str} {ip gap tail : Str} (n : Nat) (hgap : Blank gap)
      (htail : Tail tail) (rest : Items ips lines) :
      Items (ip :: ips) ((indentation n ++ (45 :: gap ++ (34 :: ip ++ [34])) ++ tail) :: lines)

/-- `Laid c path n settings lines`: the lines are those of a block at indentation `n` in
the section `path`, and hold the settings of `c` that are listed. -/
inductive Laid (c : Config) : List Str → Nat → List Setting → List Str → Prop where
  | nil (path : List Str) (n : Nat) : Laid c path n [] []
  | filler {path : List Str} {n : Nat} {settings : List Setting} {lines : List Str} {line : Str}
      (hline : Tail line) (rest : Laid c path n settings lines) :
      Laid c path n settings (line :: lines)
  | scalar {n : Nat} {settings : List Setting} {lines : List Str} {gap tail : Str} (x : Scalar)
      (hgap : Blank gap) (htail : Tail tail) (rest : Laid c x.path n settings lines) :
      Laid c x.path n (.scalar x :: settings)
        ((indentation n ++ (x.key ++ (58 :: gap) ++ (x.value c).render) ++ tail) :: lines)
  | routers {n : Nat} {settings : List Setting} {items lines : List Str} {tail : Str}
      (htail : Tail tail) (hitems : Items c.trustedRouterIps items)
      (rest : Laid c [str "security"] n settings lines) :
      Laid c [str "security"] n (.trustedRouterIps :: settings)
        ((indentation n ++ (str "trusted_router_ips" ++ [58]) ++ tail) :: (items ++ lines))
  | block {path : List Str} {n m : Nat} {inner settings : List Setting}
      {innerLines lines : List Str} {name tail : Str} (hname : name ∈ sectionNames)
      (htail : Tail tail) (hlt : n < m) (within : Laid c (path ++ [name]) m inner innerLines)
      (rest : Laid c path n settings lines) :
      Laid c path n (inner ++ settings)
        ((indentation n ++ (name ++ [58]) ++ tail) :: (innerLines ++ lines))

/-! ## Reading a line -/

/-- The indentation of a line is read back. -/
theorem leadingSpaces_line (n : Nat) {w : Str} (h : Solid w) (tail : Str) :
    leadingSpaces (indentation n ++ w ++ tail) = n := by
  obtain ⟨b, hhead, hb⟩ := h.head
  cases w with
  | nil => exact absurd hhead (by simp)
  | cons a w =>
      obtain rfl : a = b := Option.some.inj hhead
      have hstop : ((a :: w) ++ tail).takeWhile (· = 32) = [] := by
        refine List.takeWhile_cons_of_neg ?_
        rw [decide_eq_true_iff]
        rintro rfl
        exact absurd hb (by decide)
      unfold leadingSpaces
      rw [List.append_assoc, List.takeWhile_append_of_pos (by simp [indentation]), hstop]
      simp [indentation]

namespace Reader

variable {r : Reader} {n : Nat}

/-- A blank line or a comment changes nothing. -/
theorem readLine_filler {line : Str} (h : Tail line) : r.readLine line = r := by
  unfold readLine
  rw [stripInlineComment_tail h]
  rfl

/-- What a line with a key does, by its key and its value. -/
theorem readLine_key {key rest tail : Str} (hkey : Word key) (hhead : key.head? ≠ some 45)
    (hplain : Plain rest) (hsolid : Solid (key ++ 58 :: rest)) (htail : Tail tail)
    {base : List (Nat × Str)} (hbase : Outline.pop n r.sections = base) :
    r.readLine (indentation n ++ (key ++ 58 :: rest) ++ tail) =
      if sectionPath base = str "security" ∧ key = str "trusted_router_ips" ∧ trim rest = [] then
        { config := r.config.withRouters []
          listKey := str "security.trusted_router_ips"
          sections := base }
      else if trim rest = [] then { r with listKey := [], sections := (n, key) :: base }
      else
        { config := applyValue r.config (sectionPath base) key (trim rest)
          listKey := []
          sections := base } := by
  have hplain' : Plain (key ++ 58 :: rest) :=
    hkey.plain.append ((plain_of_bytes (w := [58]) (by simp)).append hplain)
  have hcolon : ∀ b ∈ key, decide (b ≠ 58) = true := fun b hb =>
    decide_eq_true fun heq => hkey.no_colon (heq ▸ hb)
  have hfirst : (key ++ 58 :: rest).head? ≠ some 45 := by
    rw [List.head?_append_of_ne_nil _ hkey.1]
    exact hhead
  have hafter : (key ++ 58 :: rest).dropWhile (· ≠ 58) = 58 :: rest := by
    rw [List.dropWhile_append_of_pos hcolon]
    exact List.dropWhile_cons_of_neg (by decide)
  have hbefore : (key ++ 58 :: rest).takeWhile (· ≠ 58) = key := by
    rw [List.takeWhile_append_of_pos hcolon, List.takeWhile_cons_of_neg (by decide),
      List.append_nil]
  have hpop : popSectionsAtOrAbove r.sections n = base := hbase
  unfold readLine
  rw [stripInlineComment_line (blank_indentation n) hplain' hsolid htail,
    leadingSpaces_line n hsolid tail]
  simp only [if_neg hsolid.ne_nil, if_neg hfirst, hafter, hbefore, trim_of_solid hkey.solid, hpop]

/-- A section header opens a block. -/
theorem readLine_header {name tail : Str} (hname : name ∈ sectionNames) (htail : Tail tail)
    {base : List (Nat × Str)} (hbase : Outline.pop n r.sections = base) :
    r.readLine (indentation n ++ (name ++ [58]) ++ tail) =
      { r with listKey := [], sections := (n, name) :: base } := by
  have hnames : ∀ w ∈ sectionNames, Word w ∧ w.head? ≠ some 45 ∧
      w ≠ str "trusted_router_ips" := by
    decide
  obtain ⟨hword, hhead, hother⟩ := hnames name hname
  rw [readLine_key hword hhead (plain_of_bytes (by simp)) hword.solid_colon htail hbase,
    if_neg fun h => hother h.2.1]
  rfl

/-- The header of the list of routers clears the list. -/
theorem readLine_routers {tail : Str} (htail : Tail tail) {base : List (Nat × Str)}
    (hbase : Outline.pop n r.sections = base) (hpath : sectionPath base = str "security") :
    r.readLine (indentation n ++ (str "trusted_router_ips" ++ [58]) ++ tail) =
      { config := r.config.withRouters []
        listKey := str "security.trusted_router_ips"
        sections := base } := by
  have hname : Word (str "trusted_router_ips") ∧ (str "trusted_router_ips").head? ≠ some 45 := by
    decide
  rw [readLine_key hname.1 hname.2 (plain_of_bytes (by simp)) hname.1.solid_colon htail hbase,
    if_pos ⟨hpath, rfl, rfl⟩]

/-- An item is appended to the list. -/
theorem readLine_item {ip gap tail : Str} (hlist : r.listKey = str "security.trusted_router_ips")
    (hip : ip ≠ [] ∧ 34 ∉ ip ∧ 10 ∉ ip) (hgap : Blank gap) (htail : Tail tail) :
    r.readLine (indentation n ++ (45 :: gap ++ (34 :: ip ++ [34])) ++ tail) =
      { r with config := r.config.withRouters (r.config.trustedRouterIps ++ [ip]) } := by
  have hquoted : Solid (34 :: ip ++ [34]) := Value.solid_text ip
  have hdash : Solid [45] := ⟨⟨45, rfl, by decide⟩, 45, rfl, by decide⟩
  have hsolid : Solid (45 :: gap ++ (34 :: ip ++ [34])) := hdash.append gap hquoted
  have hplain : Plain (45 :: gap ++ (34 :: ip ++ [34])) :=
    ((plain_of_bytes (w := [45]) (by simp)).append hgap.plain).append (plain_quoted hip.2.1)
  have hitem : stripQuotes (stripInlineComment (trim (gap ++ (34 :: ip ++ [34])))) = ip := by
    rw [trim_gap hgap hquoted]
    exact readValue_quoted hip.2.1
  unfold readLine
  rw [stripInlineComment_line (blank_indentation n) hplain hsolid htail]
  have hhead : (45 :: gap ++ (34 :: ip ++ [34])).head? = some 45 := rfl
  have hdrop : (45 :: gap ++ (34 :: ip ++ [34])).drop 1 = gap ++ (34 :: ip ++ [34]) := rfl
  simp only [if_neg hsolid.ne_nil, hhead, hlist, hdrop, hitem, if_true, if_pos hip.1]

/-- A setting is taken over. -/
theorem readLine_scalar {c : Config} (hc : Writable c) (x : Scalar) {gap tail : Str}
    (hgap : Blank gap) (htail : Tail tail) {base : List (Nat × Str)}
    (hbase : Outline.pop n r.sections = base)
    (hpath : sectionPath base = [46].intercalate x.path) :
    r.readLine (indentation n ++ (x.key ++ (58 :: gap) ++ (x.value c).render) ++ tail) =
      { config := x.copy c r.config, listKey := [], sections := base } := by
  have hkey : Word x.key ∧ x.key.head? ≠ some 45 := by
    cases x <;> decide
  obtain ⟨hplain, hsolid, -⟩ := Value.render_spec (hc.values x)
  have hvalue : trim (gap ++ (x.value c).render) = (x.value c).render := trim_gap hgap hsolid
  have hword : Solid (x.key ++ (58 :: gap) ++ (x.value c).render) :=
    hkey.1.solid.append (58 :: gap) hsolid
  rw [List.append_assoc x.key, List.cons_append] at hword ⊢
  rw [readLine_key hkey.1 hkey.2 (hgap.plain.append hplain) hword htail hbase, hvalue,
    if_neg fun h => hsolid.ne_nil h.2.2, if_neg hsolid.ne_nil, hpath, applyValue_scalar hc]

/-! ## Reading a layout -/

/-- The items of the list are appended one after the other. -/
theorem run_items {ips lines : List Str} (h : Items ips lines)
    (hips : ∀ ip ∈ ips, ip ≠ [] ∧ 34 ∉ ip ∧ 10 ∉ ip) {r : Reader}
    (hlist : r.listKey = str "security.trusted_router_ips") :
    Runs.run readLine r lines =
      { r with config := r.config.withRouters (r.config.trustedRouterIps ++ ips) } := by
  induction h generalizing r with
  | nil =>
      rw [Runs.run_nil, List.append_nil]
      rfl
  | filler hline rest ih => rw [Runs.run_cons, readLine_filler hline, ih hips hlist]
  | item n hgap htail rest ih =>
      rw [Runs.run_cons, readLine_item hlist (hips _ List.mem_cons_self) hgap htail]
      refine (ih (fun ip hip => hips ip (List.mem_cons_of_mem _ hip)) ?_).trans ?_
      · exact hlist
      · simp only [Config.withRouters, List.append_assoc, List.singleton_append]

/-- **Reading a layout takes over its settings.**  The reader finds the blocks around
the layout open before it and after it. -/
theorem run_laid {c : Config} (hc : Writable c) {path : List Str} {n : Nat}
    {settings : List Setting} {lines : List Str} (h : Laid c path n settings lines)
    {base : List (Nat × Str)} (hbase : Outline.Encloses n base)
    (hpath : base.reverse.map Prod.snd = path) {r : Reader}
    (hr : Outline.Above n base r.sections) :
    (Runs.run readLine r lines).config =
        settings.foldl (fun d x => x.copy c d) r.config ∧
      Outline.Above n base (Runs.run readLine r lines).sections := by
  induction h generalizing base r with
  | nil path n => exact ⟨rfl, hr⟩
  | filler hline rest ih =>
      rw [Runs.run_cons, readLine_filler hline]
      exact ih hbase hpath hr
  | scalar x hgap htail rest ih =>
      have hsection : sectionPath base = [46].intercalate x.path := by rw [sectionPath, hpath]
      rw [Runs.run_cons, readLine_scalar hc x hgap htail (hr.pop_eq hbase) hsection]
      exact ih hbase hpath (Outline.Above.refl _ base)
  | routers htail hitems rest ih =>
      have hsection : sectionPath base = str "security" := by
        rw [sectionPath, hpath]
        rfl
      rw [Runs.run_cons, readLine_routers htail (hr.pop_eq hbase) hsection, Runs.run_append,
        run_items hitems hc.routers rfl]
      exact ih hbase hpath (Outline.Above.refl _ base)
  | block hname htail hlt within rest ihwithin ih =>
      rename_i path n m inner settings innerLines lines name tail
      rw [Runs.run_cons, readLine_header hname htail (hr.pop_eq hbase), Runs.run_append,
        List.foldl_append]
      have hpath' : ((n, name) :: base).reverse.map Prod.snd = path ++ [name] := by
        simp [hpath]
      have hopened : Outline.Above m ((n, name) :: base)
          ({ r with listKey := [], sections := (n, name) :: base } : Reader).sections :=
        Outline.Above.refl m _
      obtain ⟨hconfig, habove⟩ := ihwithin (hbase.cons hlt name) hpath' hopened
      obtain ⟨hrest, hafter⟩ := ih hbase hpath (habove.leave hlt.le)
      exact ⟨hrest.trans (by rw [hconfig]), hafter⟩

end Reader

/-! ## The text of a layout -/

/-- White space stays on its line. -/
theorem Blank.no_break {w : Str} (h : Blank w) : 10 ∉ w := fun hb => (h 10 hb).2 rfl

/-- A line without line breaks in its parts. -/
theorem line_no_break {n : Nat} {w tail : Str} (hw : 10 ∉ w) (htail : Tail tail) :
    10 ∉ indentation n ++ w ++ tail := by
  simp [hw, htail.no_break, (blank_indentation n).no_break]

/-- Each item of a list is one line. -/
theorem Items.no_break {ips lines : List Str} (h : Items ips lines)
    (hips : ∀ ip ∈ ips, ip ≠ [] ∧ 34 ∉ ip ∧ 10 ∉ ip) : ∀ line ∈ lines, 10 ∉ line := by
  induction h with
  | nil => simp
  | filler hline rest ih =>
      exact List.forall_mem_cons.mpr ⟨hline.no_break, ih hips⟩
  | item n hgap htail rest ih =>
      obtain ⟨hip, hrest⟩ := List.forall_mem_cons.mp hips
      refine List.forall_mem_cons.mpr ⟨line_no_break ?_ htail, ih hrest⟩
      simp [hgap.no_break, hip.2.2]

/-- Each line of a written file is one line. -/
theorem Laid.no_break {c : Config} (hc : Writable c) {path : List Str} {n : Nat}
    {settings : List Setting} {lines : List Str} (h : Laid c path n settings lines) :
    ∀ line ∈ lines, 10 ∉ line := by
  have hheader : ∀ {name : Str}, 10 ∉ name → 10 ∉ name ++ [58] := fun hname => by simp [hname]
  induction h with
  | nil path n => simp
  | filler hline rest ih => exact List.forall_mem_cons.mpr ⟨hline.no_break, ih⟩
  | scalar x hgap htail rest ih =>
      refine List.forall_mem_cons.mpr ⟨line_no_break ?_ htail, ih⟩
      have hkey : 10 ∉ x.key := by cases x <;> decide
      simp [hkey, hgap.no_break, (Value.render_spec (hc.values x)).2.2]
  | routers htail hitems rest ih =>
      refine List.forall_mem_cons.mpr ⟨line_no_break (hheader (by decide)) htail, ?_⟩
      exact List.forall_mem_append.mpr ⟨hitems.no_break hc.routers, ih⟩
  | block hname htail hlt within rest ihwithin ih =>
      have hnames : ∀ name ∈ sectionNames, 10 ∉ name := by decide
      refine List.forall_mem_cons.mpr ⟨line_no_break (hheader (hnames _ hname)) htail, ?_⟩
      exact List.forall_mem_append.mpr ⟨ihwithin, ih⟩

/-- Reading a text of lines is reading the lines; an empty last line is not missed. -/
theorem run_getLines {lines : List Str} (h : ∀ line ∈ lines, 10 ∉ line) (r : Reader) :
    (getLines ([10].intercalate lines)).foldl Reader.readLine r =
      Runs.run Reader.readLine r lines := by
  by_cases hempty : lines = []
  · subst hempty
    rfl
  · unfold getLines
    rw [split_intercalate h hempty]
    dsimp only
    split
    · rename_i hlast
      have hlines : lines = lines.dropLast ++ [[]] :=
        (List.dropLast_append_getLast? [] hlast).symm
      conv_rhs => rw [hlines, Runs.run_concat, Reader.readLine_filler tail_nil]
      rfl
    · rfl

/-- Without environment variables nothing is overridden. -/
theorem applyEnvironmentOverrides_none {c : Config}
    (h : c.prometheusPath = [] ∨ c.prometheusPath.head? = some 47) :
    applyEnvironmentOverrides (fun _ => none) c = c := by
  have hpath : ¬ (c.prometheusPath ≠ [] ∧ c.prometheusPath.head? ≠ some 47) := by
    rintro ⟨hne, hhead⟩
    exact h.elim hne hhead
  exact congrArg (fun path => { c with prometheusPath := path }) (if_neg hpath)

/-- **The configuration round trip.**  A writable configuration that is laid out with all
its settings is read back as it was, when the environment sets nothing. -/
theorem config_round_trip (c : Config) (hc : Writable c) (n : Nat) (settings : List Setting)
    (lines : List Str) (hlaid : Laid c [] n settings lines) (hall : ∀ x, x ∈ settings) :
    loadConfig (fun _ => none) (some ([10].intercalate lines)) = c := by
  have hread := (Reader.run_laid hc hlaid (Outline.encloses_nil n) rfl
    (Outline.Above.refl n ([] : List (Nat × Str))) (r := {})).1
  have hconfig : (Runs.run Reader.readLine {} lines).config = c := by
    rw [hread, Setting.foldl_copy_all c _ hall]
  unfold loadConfig
  dsimp only
  rw [run_getLines (hlaid.no_break hc), hconfig, applyEnvironmentOverrides_none hc.metricsPath]

/-! ## One layout of every configuration -/

/-- Settings of one section, one on a line with a note behind it, and what follows them. -/
def scalarLines (note : Str) (c : Config) (n : Nat) (xs : List Scalar) (rest : List Str) :
    List Str :=
  xs.map (fun x => indentation n ++ (x.key ++ [58, 32] ++ (x.value c).render) ++ note) ++ rest

/-- A section with its lines, and what follows it.  A blank line and a note stand in front, and
the note behind the name. -/
def blockLines (note : Str) (n : Nat) (name : Str) (inner rest : List Str) : List Str :=
  [] :: note :: (indentation n ++ (name ++ [58]) ++ note) :: (inner ++ rest)

/-- The settings under `server`. -/
def serverKeys : List Scalar := [.httpAddr, .syslogUdpAddr, .syslogTcpAddr, .enableUdp, .enableTcp]

/-- The settings under `state`. -/
def stateKeys : List Scalar :=
  [.deviceOnlineTtlSeconds, .deviceIdleTtlSeconds, .deviceKeepTtlSeconds, .maxEvents,
    .maxAttackEvents, .maxTrafficPointsPerDevice, .trafficRateHoldSeconds]

/-- The settings under `storage`, apart from those of SQLite. -/
def storageKeys : List Scalar := [.storageMode, .enableDebugFileLog, .debugLogPath, .debugLogMaxMb]

/-- The settings under `sqlite`. -/
def sqliteKeys : List Scalar :=
  [.sqlitePath, .sqliteRetentionDays, .sqliteMaxDbMb, .sqliteMaxEvents,
    .sqliteMaxTrafficPointsPerDevice, .sqliteVacuumOnStart]

/-- The settings under `metrics`. -/
def metricsKeys : List Scalar :=
  [.prometheusEnabled, .prometheusPath, .prometheusIncludeDeviceLabels,
    .prometheusDeviceLabelMode]

/-- The settings under `security`, apart from the list of routers. -/
def securityKeys : List Scalar := [.bindLanOnly, .dashboardToken, .maxSyslogLineLength]

/-- The items of a list, with a note behind each. -/
def itemLines (note : Str) (ips : List Str) : List Str :=
  ips.map fun ip => indentation 4 ++ (45 :: [32] ++ (34 :: ip ++ [34])) ++ note

/-- The configuration in the layout of the documentation, with blank lines between the sections
and a note on every line. -/
def renderConfig (note : Str) (c : Config) : List Str :=
  blockLines note 0 (str "server") (scalarLines note c 2 serverKeys []) <|
  blockLines note 0 (str "state") (scalarLines note c 2 stateKeys []) <|
  blockLines note 0 (str "storage") (scalarLines note c 2 storageKeys <|
    blockLines note 2 (str "sqlite") (scalarLines note c 4 sqliteKeys []) []) <|
  blockLines note 0 (str "metrics") (scalarLines note c 2 metricsKeys []) <|
  blockLines note 0 (str "security") (scalarLines note c 2 securityKeys <|
    blockLines note 2 (str "trusted_router_ips") (itemLines note c.trustedRouterIps) []) <|
  blockLines note 0 (str "web") (scalarLines note c 2 [.webRoot] []) []

/-- A space is blank. -/
theorem blank_space : Blank [32] := by
  intro b hb
  rw [List.mem_singleton.mp hb]
  decide

section

variable {note : Str} (hnote : Tail note) {c : Config}

include hnote

/-- The lines of scalars are laid out as the reader needs them. -/
theorem laid_scalarLines {path : List Str} {n : Nat} {settings : List Setting}
    {rest : List Str} (xs : List Scalar) (hxs : ∀ x ∈ xs, x.path = path)
    (hrest : Laid c path n settings rest) :
    Laid c path n (xs.map Setting.scalar ++ settings) (scalarLines note c n xs rest) := by
  induction xs with
  | nil => exact hrest
  | cons x xs ih =>
      obtain ⟨rfl, hxs⟩ := List.forall_mem_cons.mp hxs
      exact .scalar x blank_space hnote (ih hxs)

/-- A block under its name is laid out as the reader needs it. -/
theorem laid_blockLines {path : List Str} {n m : Nat} {inner settings : List Setting}
    {innerLines rest : List Str} (name : Str) (hname : name ∈ sectionNames) (hlt : n < m)
    (within : Laid c (path ++ [name]) m inner innerLines) (hrest : Laid c path n settings rest) :
    Laid c path n (inner ++ settings) (blockLines note n name innerLines rest) :=
  .filler tail_nil (.filler hnote (.block hname hnote hlt within hrest))

/-- The items of a list are laid out as the reader needs them. -/
theorem items_itemLines (ips : List Str) : Items ips (itemLines note ips) := by
  induction ips with
  | nil => exact .nil
  | cons ip ips ih => exact .item 4 blank_space hnote ih

/-- **Every configuration has a layout with all its settings**, with any note that a line may
end with. -/
theorem laid_renderConfig (c : Config) :
    ∃ settings, Laid c [] 0 settings (renderConfig note c) ∧ ∀ x, x ∈ settings := by
  have hserver := laid_scalarLines hnote serverKeys (by decide)
    (Laid.nil (c := c) [str "server"] 2)
  have hstate := laid_scalarLines hnote stateKeys (by decide) (Laid.nil (c := c) [str "state"] 2)
  have hsqlite := laid_scalarLines hnote sqliteKeys (by decide)
    (Laid.nil (c := c) [str "storage", str "sqlite"] 4)
  have hstorage := laid_scalarLines hnote storageKeys (by decide) <|
    laid_blockLines hnote (str "sqlite") (by decide) (by decide) hsqlite
      (.nil [str "storage"] 2)
  have hmetrics := laid_scalarLines hnote metricsKeys (by decide)
    (Laid.nil (c := c) [str "metrics"] 2)
  have hrouters : Laid c [str "security"] 2 [.trustedRouterIps]
      (blockLines note 2 (str "trusted_router_ips") (itemLines note c.trustedRouterIps) []) :=
    .filler tail_nil (.filler hnote (.routers hnote (items_itemLines hnote _) (.nil _ _)))
  have hsecurity := laid_scalarLines hnote securityKeys (by decide) hrouters
  have hweb := laid_scalarLines hnote [.webRoot] (by decide) (Laid.nil (c := c) [str "web"] 2)
  refine ⟨_, laid_blockLines hnote _ (by decide) (by decide) hserver <|
    laid_blockLines hnote _ (by decide) (by decide) hstate <|
    laid_blockLines hnote _ (by decide) (by decide) hstorage <|
    laid_blockLines hnote _ (by decide) (by decide) hmetrics <|
    laid_blockLines hnote _ (by decide) (by decide) hsecurity <|
    laid_blockLines hnote _ (by decide) (by decide) hweb (.nil _ _), ?_⟩
  intro x
  cases x with
  | scalar x => cases x <;> decide
  | trustedRouterIps => decide

end

/-- A configuration with a token of awkward bytes and two routers. -/
def guardedConfig : Config :=
  { dashboardToken := str "it's #1: a - b"
    trustedRouterIps := [str "192.168.10.1", str "router #2"]
    debugLogMaxMb := -3
    sqliteMaxEvents := 18446744073709551615
    prometheusPath := [] }

/-- The guarded configuration can be written. -/
theorem writable_guardedConfig : Writable guardedConfig where
  values x := by cases x <;> decide
  routers := by decide
  metricsPath := Or.inl rfl

/-- It is read back from a file with blank lines, and with a comment on every other line. -/
theorem config_round_trip_guarded :
    Writable guardedConfig ∧
      loadConfig (fun _ => none)
          (some ([10].intercalate (renderConfig (str "  # a: \"b\"") guardedConfig))) =
        guardedConfig := by
  have hblank : Blank (str "  ") := by
    have hspaces : str "  " = [32, 32] := by decide
    rw [hspaces]
    exact List.forall_mem_cons.mpr ⟨by decide, blank_space⟩
  have hnote : Tail (str "  # a: \"b\"") :=
    ⟨str "  ", str "# a: \"b\"", hblank, by decide, Or.inr (by decide), by decide⟩
  obtain ⟨settings, hlaid, hall⟩ := laid_renderConfig hnote guardedConfig
  exact ⟨writable_guardedConfig,
    config_round_trip guardedConfig writable_guardedConfig 0 settings _ hlaid hall⟩

end Netmon
