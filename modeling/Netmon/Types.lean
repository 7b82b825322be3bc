import Netmon.ByteStrings
import Netmon.FiniteMap
import Netmon.RingBuffer

/-!
# Telemetry records and configuration

The records of `types.hpp` and the settings of `config.hpp`.  A time point counts
nanoseconds since the epoch and zero stands for "never", as
`time_since_epoch().count() == 0` does in the source.  Rates are exact rationals in
place of `double`; byte counters keep their 64-bit unsigned type, and `size_t` settings
are 64-bit as well.
-/

namespace Netmon

/-- `std::unordered_map<std::string, V>`. -/
abbrev StrMap (V : Type) := AList fun _ : Str => V

/-- `std::chrono::system_clock::time_point`, in nanoseconds since the epoch. -/
abbrev TimePoint := Int

/-- `std::chrono::seconds` as nanoseconds. -/
def seconds (n : Int) : Int := n * 1000000000

def fromUnixSeconds (n : Int) : TimePoint := seconds n

/-- `duration_cast<duration<double>>(d).count()`: a duration in seconds. -/
def inSeconds (d : Int) : ℚ := (d : ℚ) / 1000000000

theorem inSeconds_pos {d : Int} : 0 < inSeconds d ↔ 0 < d := by
  unfold inSeconds
  rw [div_pos_iff_of_pos_right (by norm_num)]
  exact_mod_cast Iff.rfl

inductive DeviceStatus where
  | online
  | idle
  | offline
  | unknown
  deriving DecidableEq, Repr

inductive EventSeverity where
  | info
  | warning
  | critical
  deriving DecidableEq, Repr

/-- One device of the inventory. -/
structure DeviceState where
  mac : Str := []
  ip : Str := []
  hostname : Str := []
  interfaceName : Str := []
  source : Str := []
  neighState : Str := []
  status : DeviceStatus := .unknown
  firstSeen : TimePoint := 0
  lastSeen : TimePoint := 0
  lastDhcp : TimePoint := 0
  lastTraffic : TimePoint := 0
  lastRate : TimePoint := 0
  rxBytesTotal : UInt64 := 0
  txBytesTotal : UInt64 := 0
  rxRateBps : ℚ := 0
  txRateBps : ℚ := 0
  tags : List Str := []
  deriving DecidableEq

/-- Cumulative counters of one device at one time. -/
structure TrafficSnapshot where
  mac : Str := []
  ip : Str := []
  ts : TimePoint := 0
  rxBytes : UInt64 := 0
  txBytes : UInt64 := 0
  deriving DecidableEq

/-- Cumulative counters of one router interface at one time. -/
structure InterfaceSnapshot where
  interfaceName : Str := []
  ts : TimePoint := 0
  rxBytes : UInt64 := 0
  txBytes : UInt64 := 0
  deriving DecidableEq

structure InterfaceState where
  interfaceName : Str := []
  lastSeen : TimePoint := 0
  lastRate : TimePoint := 0
  rxBytesTotal : UInt64 := 0
  txBytesTotal : UInt64 := 0
  rxRateBps : ℚ := 0
  txRateBps : ℚ := 0
  deriving DecidableEq

/-- One entry of the event history. -/
structure Event where
  id : Str := []
  ts : TimePoint := 0
  type : Str := []
  severity : EventSeverity := .info
  source : Str := []
  message : Str := []
  fields : StrMap Str := ∅

structure WANAttackEvent where
  ts : TimePoint := 0
  inIf : Str := []
  srcIp : Str := []
  dstIp : Str := []
  srcPort : Str := []
  dstPort : Str := []
  proto : Str := []
  length : Str := []
  raw : Str := []
  deriving DecidableEq

/-- The dashboard's overview. -/
structure Summary where
  activeDevices : Nat := 0
  idleDevices : Nat := 0
  offlineDevices : Nat := 0
  unknownDevices : Nat := 0
  wanAttack5m : Nat := 0
  rxRateBps : ℚ := 0
  txRateBps : ℚ := 0
  rateSource : Str := str "devices"
  rateInterface : Str := []
  lastInterfaceTs : TimePoint := 0
  lastLogTs : TimePoint := 0

/-- `toString(DeviceStatus)`. -/
def DeviceStatus.toText : DeviceStatus → Str
  | .online => str "online"
  | .idle => str "idle"
  | .offline => str "offline"
  | .unknown => str "unknown"

/-- `toString(EventSeverity)`. -/
def EventSeverity.toText : EventSeverity → Str
  | .info => str "info"
  | .warning => str "warning"
  | .critical => str "critical"

/-- The settings, with their defaults.  An `int` setting is an `Int` here; the values
that a C++ `int` can hold are those from `-2 ^ 31` to `2 ^ 31 - 1`. -/
structure Config where
  httpAddr : Str := str "0.0.0.0:8080"
  syslogUdpAddr : Str := str "0.0.0.0:1514"
  syslogTcpAddr : Str := str "0.0.0.0:1514"
  enableUdp : Bool := true
  enableTcp : Bool := false
  deviceOnlineTtlSeconds : Int := 180
  deviceIdleTtlSeconds : Int := 600
  deviceKeepTtlSeconds : Int := 3600
  maxEvents : UInt64 := 2000
  maxAttackEvents : UInt64 := 1000
  maxTrafficPointsPerDevice : UInt64 := 60
  trafficRateHoldSeconds : Int := 75
  storageMode : Str := str "memory"
  enableDebugFileLog : Bool := false
  debugLogPath : Str := str "./netmon-debug.log"
  debugLogMaxMb : Int := 10
  sqlitePath : Str := str "./openwrt-netmon-lite.db"
  sqliteRetentionDays : Int := 7
  sqliteMaxDbMb : Int := 128
  sqliteMaxEvents : UInt64 := 50000
  sqliteMaxTrafficPointsPerDevice : UInt64 := 2016
  sqliteVacuumOnStart : Bool := false
  prometheusEnabled : Bool := false
  prometheusPath : Str := str "/metrics"
  prometheusIncludeDeviceLabels : Bool := false
  prometheusDeviceLabelMode : Str := str "mac_hash"
  bindLanOnly : Bool := true
  dashboardToken : Str := []
  trustedRouterIps : List Str := []
  maxSyslogLineLength : UInt64 := 4096
  webRoot : Str := str "./web/static"

end Netmon
