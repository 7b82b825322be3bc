import Netmon.Database
import Netmon.LogParser

/-!
# The application

`app.cpp`: what a received line does to the inventory, the counters and the
database, the storage preprocessing of events, the cleanup cycle, and the start
of a process over an existing database.  A lifetime of the process is its start
followed by a run of `handleLog` and cleanup steps (`AppOp`).

The clock readings of a step are its arguments, one for each place that reads
the clock.  `published` collects the messages for the WebSocket clients.
-/

namespace Netmon

/-! ## Storage preprocessing -/

/-- Line breaks and tabs become spaces, other control bytes disappear. -/
def cleanByte (b : UInt8) : Str :=
  if b = 10 ∨ b = 13 ∨ b = 9 then [32] else if b ≥ 32 ∧ b ≠ 127 then [b] else []

/-- The loop of `cleanStorageValue`, which stops at the limit. -/
def cleanLoop (maxLength : Nat) : Str → Str → Str
  | [], out => out
  | b :: rest, out =>
      if (out ++ cleanByte b).length ≥ maxLength then out ++ cleanByte b
      else cleanLoop maxLength rest (out ++ cleanByte b)

/-- `std::string::resize`: cut, or fill up with NUL bytes. -/
def resize (n : Nat) (value : Str) : Str :=
  value.take n ++ List.replicate (n - value.length) 0

/-- A value is bounded and trimmed.  One that was longer than its bound is resized to make
room for three dots. -/
def cleanStorageValue (value : Str) (maxLength : Nat) : Str :=
  let out := trim (cleanLoop maxLength value [])
  if value.length > maxLength ∧ out.length ≥ 3 then
    resize (maxLength - 3) out ++ str "..."
  else out

/-- The fields that are stored, three of them only for attacks. -/
def storageFieldAllowed (type key : Str) : Bool :=
  key ∈ [ str "ts", str "event", str "mac", str "ip", str "hostname", str "host",
    str "interface", str "if", str "iface", str "neigh", str "rx_bytes", str "tx_bytes",
    str "in_if", str "src_ip", str "dst_ip", str "src_port", str "dst_port", str "proto",
    str "len", str "state", str "message" ] ||
  type = str "wan_attack" && (key = str "tos" || key = str "ttl" || key = str "out_if")

/-- The loop over the fields of an event, in the order of the map.  Only an
allowed field ends it, when forty are there. -/
def cleanFields (type : Str) : List (Sigma fun _ : Str => Str) → StrMap Str → StrMap Str
  | [], cleaned => cleaned
  | ⟨key, value⟩ :: rest, cleaned =>
      let name := lower (cleanStorageValue key 48)
      if name = [] then cleanFields type rest cleaned
      else if name = str "raw" ∨ name = str "csv" then
        cleanFields type rest
          ((cleaned.insert (name ++ str "_preview") (cleanStorageValue value 180)).insert
            (name ++ str "_len") (decimal value.length))
      else if storageFieldAllowed type name then
        let stored := cleaned.insert name
          (if name = str "mac" then lower (cleanStorageValue value 96)
            else cleanStorageValue value 180)
        if stored.entries.length ≥ 40 then stored else cleanFields type rest stored
      else cleanFields type rest cleaned

/-- The event as it is stored, with its texts bounded.  An unparsed line is not repeated. -/
def preprocessEventForStorage (event : Event) : Event :=
  { event with
    source := cleanStorageValue event.source 80
    message := if event.type = str "raw" then str "Unparsed syslog line"
      else cleanStorageValue event.message 240
    fields := cleanFields event.type event.fields.entries ∅ }

/-- The attack as it is stored, with its texts bounded. -/
def preprocessWANAttackForStorage (event : WANAttackEvent) : WANAttackEvent :=
  { event with
    inIf := cleanStorageValue event.inIf 64
    srcIp := cleanStorageValue event.srcIp 64
    dstIp := cleanStorageValue event.dstIp 64
    srcPort := cleanStorageValue event.srcPort 16
    dstPort := cleanStorageValue event.dstPort 16
    proto := cleanStorageValue event.proto 24
    length := cleanStorageValue event.length 24
    raw := cleanStorageValue event.raw 240 }

/-! ## Counters -/

/-- `RuntimeStats`.  The counters of the service are 64-bit and wrap; here they are natural
numbers, which agree with them up to 2^64 - 1 messages. -/
structure RuntimeStats where
  syslogMessagesTotal : Nat := 0
  parseErrorsTotal : Nat := 0
  wanAttacksTotal : Nat := 0
  syslogMessagesByType : StrMap Nat := ∅

namespace RuntimeStats

/-- A message is counted, and counted under its type. -/
def recordSyslogMessage (type : Str) (stats : RuntimeStats) : RuntimeStats :=
  let name := if type = [] then str "unknown" else lower type
  { stats with
    syslogMessagesTotal := stats.syslogMessagesTotal + 1
    syslogMessagesByType :=
      stats.syslogMessagesByType.insert name (stats.syslogMessagesByType.getD name 0 + 1) }

/-- A line that no format takes is counted. -/
def recordParseError (stats : RuntimeStats) : RuntimeStats :=
  { stats with parseErrorsTotal := stats.parseErrorsTotal + 1 }

/-- An attack is counted. -/
def recordWANAttack (stats : RuntimeStats) : RuntimeStats :=
  { stats with wanAttacksTotal := stats.wanAttacksTotal + 1 }

end RuntimeStats

/-! ## The process -/

/-- The service: its configuration, the live store, the counters, the database and what it
has published to its clients. -/
structure App where
  config : Config
  state : StateStore
  stats : RuntimeStats := {}
  db : Database
  published : List Str := []

/-- The clock readings while a line is handled. -/
structure LogClock where
  made : TimePoint
  stamp : TimePoint
  update : TimePoint
  later : TimePoint
  event : TimePoint
  view : TimePoint
  written : TimePoint

/-- The clock readings and the size readings of a cleanup cycle. -/
structure CleanupClock where
  now : TimePoint
  view : TimePoint
  written : TimePoint
  retention : TimePoint
  bytes : Nat → Int

namespace App

/-- Everything that is stored is stored only in this mode. -/
def sqliteEnabled (config : Config) : Bool := lower config.storageMode = str "sqlite"

/-- A message to the clients that something of this type has changed. -/
def publishUpdate (type : Str) (app : App) : App :=
  { app with
    published := app.published ++
      [str "\x7b\"type\":" ++ jsonQuote type ++ str ",\"payload\":\x7b\x7d\x7d"] }

/-- Write all devices, as they are seen at the one time and stamped with the other. -/
def persistDevices (view written : TimePoint) (app : App) : App :=
  if sqliteEnabled app.config then
    { app with db := app.db.upsertDevices written (app.state.devices view) }
  else app

/-- Write an event. -/
def persistEvent (event : Event) (app : App) : App :=
  if sqliteEnabled app.config then
    { app with db := app.db.insertEvent (preprocessEventForStorage event) }
  else app

/-- Write a traffic sample. -/
def persistTraffic (snapshot : TrafficSnapshot) (app : App) : App :=
  if sqliteEnabled app.config then { app with db := app.db.insertTraffic snapshot } else app

/-- Write an attack. -/
def persistWANAttack (event : WANAttackEvent) (app : App) : App :=
  if sqliteEnabled app.config then
    { app with db := app.db.insertWANAttack (preprocessWANAttackForStorage event) }
  else app

/-- Write the newest events of the live store. -/
def persistRecentEvents (app : App) : App :=
  if sqliteEnabled app.config then
    { app with
      db := (app.state.recentEvents app.config.maxEvents.toNat).foldl
        (fun db event => db.insertEvent (preprocessEventForStorage event)) app.db }
  else app

/-! ## Handling a line -/

/-- The time that a line names, or else the time of its reception. -/
def tsFromFields (stamp : TimePoint) (fields : StrMap Str) : TimePoint :=
  let ts := parseUint64 (fields.getD (str "ts") []) 0
  if ts > 0 then fromUnixSeconds ts.toInt64.toInt else stamp

/-- The event of a line, with the next id. -/
def makeEvent (made : TimePoint) (result : ParseResult) (peerIp : Str) (s : StateStore) :
    Event × StateStore :=
  ({ id := s.nextEventId.1
     ts := made
     type := result.type
     severity := .info
     source := peerIp
     message := result.raw
     fields := result.fields }, s.nextEventId.2)

/-- Change the live store only. -/
def updateState (f : StateStore → StateStore) (app : App) : App :=
  { app with state := f app.state }

/-- Change the counters only. -/
def updateStats (f : RuntimeStats → RuntimeStats) (app : App) : App :=
  { app with stats := f app.stats }

/-- Add the event to the history and store it. -/
def recordEvent (clock : LogClock) (event : Event) (app : App) : App :=
  (app.updateState (·.addEvent clock.event event)).persistEvent event

/-- Merge a device, record the event and store both: the end of the branches for
`netdev`, `dhcp` and `wifi` lines. -/
def recordDevice (clock : LogClock) (device : DeviceState) (event : Event) (app : App) : App :=
  ((((app.updateState (·.updateDevice clock.update device)).updateState
    (·.addEvent clock.event event)).persistDevices clock.view clock.written).persistEvent
      event).publishUpdate (str "device_update")

/-- What a parsed line does, given the event already made for it. -/
def applyEvent (clock : LogClock) (result : ParseResult) (event : Event) (app : App) : App :=
  let field (name : String) (fallback : Str) : Str := result.fields.getD (str name) fallback
  let hasCounters := str "rx_bytes" ∈ result.fields ∧ str "tx_bytes" ∈ result.fields
  if result.type = str "netdev" then
    app.recordDevice clock
      { mac := field "mac" []
        ip := field "ip" []
        hostname := field "hostname" (field "host" [])
        interfaceName := field "interface" (field "if" [])
        neighState := field "neigh" []
        source := str "netdev"
        lastSeen := event.ts
        tags := [str "netdev"] }
      { event with type := str "device", message := str "Device snapshot" }
  else if result.type = str "dhcp" then
    app.recordDevice clock
      { mac := field "mac" []
        ip := field "ip" []
        hostname := field "hostname" []
        interfaceName := field "interface" []
        source := str "dhcp"
        lastSeen := event.ts
        lastDhcp := event.ts
        tags := [str "dhcp"] }
      { event with type := str "dhcp", message := field "event" (str "DHCP event") }
  else if result.type = str "nettraffic" then
    if hasCounters then
      let snapshot : TrafficSnapshot :=
        { mac := field "mac" []
          ip := field "ip" []
          ts := event.ts
          rxBytes := parseUint64 (field "rx_bytes" []) 0
          txBytes := parseUint64 (field "tx_bytes" []) 0 }
      ((((app.updateState (·.updateTraffic clock.update snapshot)).persistTraffic
        snapshot).persistDevices clock.view clock.written).recordEvent clock
          { event with type := str "traffic", message := str "Traffic snapshot" }).publishUpdate
            (str "traffic_update")
    else
      (app.recordEvent clock
        { event with
          type := str "traffic", message := str "Traffic CSV snapshot" }).publishUpdate
            (str "traffic_update")
  else if result.type = str "netiface" then
    if hasCounters then
      (app.updateState (·.updateInterface clock.update
        { interfaceName := field "interface" (field "if" (field "iface" []))
          ts := event.ts
          rxBytes := parseUint64 (field "rx_bytes" []) 0
          txBytes := parseUint64 (field "tx_bytes" []) 0 })).publishUpdate (str "summary_update")
    else app
  else if result.type = str "wan_attack" then
    let attack : WANAttackEvent :=
      { ts := event.ts
        inIf := field "in_if" []
        srcIp := field "src_ip" []
        dstIp := field "dst_ip" []
        srcPort := field "src_port" []
        dstPort := field "dst_port" []
        proto := field "proto" []
        length := field "len" []
        raw := result.raw }
    let critical :=
      { event with severity := .critical, message := str "WAN attack/firewall drop" }
    (((((app.updateState (·.addWANAttack clock.update clock.later attack)).updateStats
      (·.recordWANAttack)).updateState (·.addEvent clock.event critical)).persistWANAttack
        attack).persistEvent critical).publishUpdate (str "wan_attack")
  else if result.type = str "wan" then
    (app.recordEvent clock
      { event with
        type := str "wan"
        message := field "message" result.raw
        severity := if field "state" [] = str "down" then .warning
          else event.severity }).publishUpdate (str "event")
  else if result.type = str "wifi" then
    let gone := field "event" [] = str "wifi_disconnected"
    app.recordDevice clock
      { mac := field "mac" []
        source := str "wifi"
        lastSeen := event.ts
        tags := [str "wifi"]
        status := if gone then .offline else .unknown }
      { event with
        type := str "device"
        message := field "event" (str "WiFi client event")
        severity := if gone then .warning else event.severity }
  else (app.recordEvent clock event).publishUpdate (str "event")

/-- The shapes of `applyEvent`: what a parsed line of a type can do to the process.  The
event that it records keeps its id. -/
inductive LineEffect (clock : LogClock) (type id : Str) (app : App) : App → Prop where
  | device (htype : type ≠ str "wan_attack") (device : DeviceState) (event : Event)
      (hid : event.id = id) : LineEffect clock type id app (app.recordDevice clock device event)
  | traffic (htype : type ≠ str "wan_attack") (snapshot : TrafficSnapshot) (event : Event)
      (hid : event.id = id) (update : Str) :
      LineEffect clock type id app
        (((((app.updateState (·.updateTraffic clock.update snapshot)).persistTraffic
          snapshot).persistDevices clock.view clock.written).recordEvent clock
            event).publishUpdate update)
  | event (htype : type ≠ str "wan_attack") (event : Event) (hid : event.id = id) (update : Str) :
      LineEffect clock type id app ((app.recordEvent clock event).publishUpdate update)
  | interface (htype : type ≠ str "wan_attack") (snapshot : InterfaceSnapshot) (update : Str) :
      LineEffect clock type id app
        ((app.updateState (·.updateInterface clock.update snapshot)).publishUpdate update)
  | nothing (htype : type ≠ str "wan_attack") : LineEffect clock type id app app
  | attack (htype : type = str "wan_attack") (attack : WANAttackEvent) (event : Event)
      (hid : event.id = id) (update : Str) :
      LineEffect clock type id app
        ((((((app.updateState (·.addWANAttack clock.update clock.later attack)).updateStats
          (·.recordWANAttack)).updateState (·.addEvent clock.event event)).persistWANAttack
            attack).persistEvent event).publishUpdate update)

/-- **What a parsed line does** is one of these. -/
theorem applyEvent_effect (clock : LogClock) (result : ParseResult) (event : Event) (app : App) :
    LineEffect clock result.type event.id app (app.applyEvent clock result event) := by
  unfold applyEvent
  dsimp only
  by_cases hattack : result.type = str "wan_attack"
  · have hother : ∀ name, str "wan_attack" ≠ str name → result.type ≠ str name := fun _ h =>
      hattack ▸ h
    rw [if_neg (hother "netdev" (by decide)), if_neg (hother "dhcp" (by decide)),
      if_neg (hother "nettraffic" (by decide)), if_neg (hother "netiface" (by decide)),
      if_pos hattack]
    exact .attack hattack _ _ (by rfl) _
  rw [if_neg hattack]
  by_cases hnetdev : result.type = str "netdev"
  · rw [if_pos hnetdev]
    exact .device hattack _ _ (by rfl)
  rw [if_neg hnetdev]
  by_cases hdhcp : result.type = str "dhcp"
  · rw [if_pos hdhcp]
    exact .device hattack _ _ (by rfl)
  rw [if_neg hdhcp]
  by_cases htraffic : result.type = str "nettraffic"
  · rw [if_pos htraffic]
    split
    · exact .traffic hattack _ _ (by rfl) _
    · exact .event hattack _ (by rfl) _
  rw [if_neg htraffic]
  by_cases hiface : result.type = str "netiface"
  · rw [if_pos hiface]
    split
    · exact .interface hattack _ _
    · exact .nothing hattack
  rw [if_neg hiface]
  by_cases hwan : result.type = str "wan"
  · rw [if_pos hwan]
    exact .event hattack _ (by rfl) _
  rw [if_neg hwan]
  by_cases hwifi : result.type = str "wifi"
  · rw [if_pos hwifi]
    exact .device hattack _ _ (by rfl)
  rw [if_neg hwifi]
  exact .event hattack _ (by rfl) _

/-- Make the event of a parsed line, with the time that the line names, and apply it. -/
def applyParseResult (clock : LogClock) (result : ParseResult) (peerIp : Str) (app : App) :
    App :=
  let made := makeEvent clock.made result peerIp app.state
  ({ app with state := made.2 }).applyEvent clock result
    { made.1 with ts := tsFromFields clock.stamp result.fields }

/-- The event of a line that no format takes. -/
def rawResult (line : Str) : ParseResult := { type := str "raw", fields := ∅, raw := line }

/-- A line is counted and handled by its format; one without a format becomes an event of
type `raw`. -/
def handleLog (clock : LogClock) (line peerIp : Str) (app : App) : App :=
  match parse line with
  | none =>
      let counted := app.updateStats fun stats =>
        (stats.recordSyslogMessage (str "raw")).recordParseError
      let made := makeEvent clock.made (rawResult line) peerIp counted.state
      let event := { made.1 with fields := made.1.fields.insert (str "raw") line }
      (({ counted with state := made.2 }).recordEvent clock event).publishUpdate (str "event")
  | some result =>
      (app.updateStats (·.recordSyslogMessage result.type)).applyParseResult clock result peerIp

/-! ## Cleanup and lifetimes -/

/-- One round of `runCleanupLoop`. -/
def cleanupCycle (clock : CleanupClock) (app : App) : App :=
  let stored := ((app.updateState (·.cleanup clock.now)).persistDevices clock.view
    clock.written).persistRecentEvents
  let trimmed :=
    if sqliteEnabled stored.config then
      { stored with
        db := stored.db.applyRetention stored.config clock.retention clock.bytes }
    else stored
  trimmed.publishUpdate (str "summary_update")

/-- One step of a running process. -/
inductive AppOp where
  | handleLog (clock : LogClock) (line peerIp : Str)
  | cleanup (clock : CleanupClock)

/-- What one call does to the service. -/
def step (app : App) : AppOp → App
  | .handleLog clock line peerIp => app.handleLog clock line peerIp
  | .cleanup clock => app.cleanupCycle clock

/-- What a start reads from its environment. -/
structure StartReadings where
  now : TimePoint
  bytes : Nat → Int
  load : Database.LoadClock

/-- A process over the database: trim it and load it into a fresh store. -/
def openStore (config : Config) (readings : StartReadings) (db : Database) : App :=
  let kept := db.applyRetention config readings.now readings.bytes
  { config := config
    state := kept.loadInto config readings.load (StateStore.init config)
    db := kept }

/-- `start`: any other storage mode than the two known ones is refused. -/
def start (config : Config) (readings : StartReadings) (db : Database) : Option App :=
  if sqliteEnabled config then some (openStore config readings db)
  else if lower config.storageMode = str "memory" then
    some { config := config, state := StateStore.init config, db := db }
  else none

end App

end Netmon
