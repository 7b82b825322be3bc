import Netmon.StateStore

/-!
# The SQLite history

The tables of `sqlite_store.cpp` and the statements that write, trim and load
them.  A table with a text primary key is a map from keys to rows; the tables
with an automatic integer key are lists of rows that carry it.  The order of a
map or list stands for the order in which SQLite happens to visit rows that a
query does not order, so that statements about every table speak about every
such order.

Texts pass through C strings both ways (`bind_text` with length -1, and
`column_text`), so a text is stored and read up to its first NUL byte.  Times
are stored as whole seconds, with zero for "never", and 64-bit counters as the
signed integers of the same bits.  Every statement is taken to succeed.
-/

namespace Netmon

/-! ## Encoders -/

/-- Whole seconds since the epoch, towards zero. -/
def unixSeconds (tp : TimePoint) : Int :=
  if tp = 0 then 0 else tp.tdiv 1000000000

/-- Whole seconds keep the order of times. -/
theorem unixSeconds_mono {a b : TimePoint} (h : a ≤ b) : unixSeconds a ≤ unixSeconds b := by
  have hdiv : ∀ t : TimePoint, unixSeconds t = Int.tdiv t 1000000000 := by
    intro t
    unfold unixSeconds
    split
    · rename_i hzero
      rw [hzero]
      rfl
    · rfl
  rw [hdiv, hdiv]
  exact Int.tdiv_le_tdiv (by decide) h

theorem fromUnixSeconds_eq_zero {n : Int} : fromUnixSeconds n = 0 ↔ n = 0 := by
  show n * 1000000000 = (0 : Int) ↔ n = 0
  omega

/-- A number of seconds survives the conversion to a time and back. -/
theorem unixSeconds_fromUnixSeconds (n : Int) : unixSeconds (fromUnixSeconds n) = n := by
  unfold unixSeconds
  split
  · rename_i hzero
    exact (fromUnixSeconds_eq_zero.mp hzero).symm
  · exact Int.mul_tdiv_cancel n (by omega)

/-- A column that holds no positive number is read as no time. -/
def timeFromColumn (seconds : Int) : TimePoint :=
  if seconds ≤ 0 then 0 else fromUnixSeconds seconds

/-- An unknown text is read as the status `unknown`. -/
def parseStatus (value : Str) : DeviceStatus :=
  if lower value = str "online" then .online
  else if lower value = str "idle" then .idle
  else if lower value = str "offline" then .offline
  else .unknown

/-- An unknown text is read as the severity `info`. -/
def parseSeverity (value : Str) : EventSeverity :=
  if lower value = str "warning" then .warning
  else if lower value = str "critical" then .critical
  else .info

/-- The tags in one column, with commas between them. -/
def tagsText (tags : List Str) : Str := [44].intercalate tags

/-- The tags are trimmed on the way back, and empty ones dropped. -/
def parseTags (value : Str) : List Str :=
  ((split value 44).map trim).filter (· ≠ [])

/-- A JSON object with its keys in ascending byte order. -/
def fieldsJson (fields : StrMap Str) : Str :=
  let keys := fields.keys.insertionSort (· ≤ ·)
  [123] ++ [44].intercalate
    (keys.map fun key => jsonQuote key ++ [58] ++ jsonQuote (fields.getD key [])) ++ [125]

/-- The key of a row is that of the store. -/
def deviceKey (device : DeviceState) : Str := makeKey device.mac device.ip

/-- A limit bound as a signed 64-bit parameter. -/
def boundLimit (limit : UInt64) : Int := limit.toInt64.toInt

/-- `LIMIT n`: a negative limit is none. -/
def takeLimit {α : Type} (limit : Int) (rows : List α) : List α :=
  if limit < 0 then rows else rows.take limit.toNat

/-! ## Rows -/

/-- A row of the table `devices`.  The counters are signed columns. -/
structure DeviceRow where
  deviceKey : Str
  mac : Str := []
  ip : Str := []
  hostname : Str := []
  interfaceName : Str := []
  source : Str := []
  neighState : Str := []
  status : Str := []
  firstSeen : Int := 0
  lastSeen : Int := 0
  lastDhcp : Int := 0
  lastTraffic : Int := 0
  lastRate : Int := 0
  rxBytesTotal : Int64 := 0
  txBytesTotal : Int64 := 0
  rxRateBps : ℚ := 0
  txRateBps : ℚ := 0
  tags : Str := []
  updatedAt : Int := 0
  deriving DecidableEq

/-- A row of the table `traffic_samples`. -/
structure TrafficRow where
  id : Nat
  mac : Str
  ip : Str
  ts : Int
  rxBytes : Int64
  txBytes : Int64
  deriving DecidableEq

/-- A row of the table `events`. -/
structure EventRow where
  id : Str
  ts : Int
  type : Str
  severity : Str
  source : Str
  message : Str
  fieldsJson : Str
  deriving DecidableEq

/-- A row of the table `wan_attacks`. -/
structure WANAttackRow where
  id : Nat
  ts : Int
  inIf : Str
  srcIp : Str
  dstIp : Str
  srcPort : Str
  dstPort : Str
  proto : Str
  length : Str
  raw : Str
  deriving DecidableEq

/-- The row that `upsertDevices` binds for a device. -/
def deviceRow (now : TimePoint) (device : DeviceState) : DeviceRow where
  deviceKey := cString (deviceKey device)
  mac := cString (lower device.mac)
  ip := cString device.ip
  hostname := cString device.hostname
  interfaceName := cString device.interfaceName
  source := cString device.source
  neighState := cString device.neighState
  status := cString device.status.toText
  firstSeen := unixSeconds device.firstSeen
  lastSeen := unixSeconds device.lastSeen
  lastDhcp := unixSeconds device.lastDhcp
  lastTraffic := unixSeconds device.lastTraffic
  lastRate := unixSeconds device.lastRate
  rxBytesTotal := device.rxBytesTotal.toInt64
  txBytesTotal := device.txBytesTotal.toInt64
  rxRateBps := device.rxRateBps
  txRateBps := device.txRateBps
  tags := cString (tagsText device.tags)
  updatedAt := unixSeconds now

/-- The device read from a row. -/
def deviceFromRow (row : DeviceRow) : DeviceState where
  mac := cString row.mac
  ip := cString row.ip
  hostname := cString row.hostname
  interfaceName := cString row.interfaceName
  source := cString row.source
  neighState := cString row.neighState
  status := parseStatus (cString row.status)
  firstSeen := timeFromColumn row.firstSeen
  lastSeen := timeFromColumn row.lastSeen
  lastDhcp := timeFromColumn row.lastDhcp
  lastTraffic := timeFromColumn row.lastTraffic
  lastRate := timeFromColumn row.lastRate
  rxBytesTotal := row.rxBytesTotal.toUInt64
  txBytesTotal := row.txBytesTotal.toUInt64
  rxRateBps := row.rxRateBps
  txRateBps := row.txRateBps
  tags := parseTags (cString row.tags)

/-- The row that `insertEvent` binds for an event. -/
def eventRow (event : Event) : EventRow where
  id := cString event.id
  ts := unixSeconds event.ts
  type := cString event.type
  severity := cString event.severity.toText
  source := cString event.source
  message := cString event.message
  fieldsJson := cString (Netmon.fieldsJson event.fields)

/-- The event read from a row: the JSON of its fields becomes one field. -/
def eventFromRow (row : EventRow) : Event where
  id := cString row.id
  ts := timeFromColumn row.ts
  type := cString row.type
  severity := parseSeverity (cString row.severity)
  source := cString row.source
  message := cString row.message
  fields :=
    if cString row.fieldsJson ≠ [] then
      (∅ : StrMap Str).insert (str "fields_json") (cString row.fieldsJson)
    else ∅

/-- The attack read from a row. -/
def wanAttackFromRow (row : WANAttackRow) : WANAttackEvent where
  ts := timeFromColumn row.ts
  inIf := cString row.inIf
  srcIp := cString row.srcIp
  dstIp := cString row.dstIp
  srcPort := cString row.srcPort
  dstPort := cString row.dstPort
  proto := cString row.proto
  length := cString row.length
  raw := cString row.raw

/-! ## Tables -/

/-- The tables, with the last automatic ids given out. -/
structure Database where
  devices : StrMap DeviceRow := ∅
  trafficSamples : List TrafficRow := []
  trafficSeq : Nat := 0
  events : StrMap EventRow := ∅
  wanAttacks : List WANAttackRow := []
  attackSeq : Nat := 0

namespace Database

/-- `INSERT OR REPLACE` of a device; one without a key is passed over. -/
def upsertDevice (now : TimePoint) (db : Database) (device : DeviceState) : Database :=
  if deviceKey device = [] then db
  else
    let row := deviceRow now device
    { db with devices := db.devices.insert row.deviceKey row }

/-- The devices are written one after the other. -/
def upsertDevices (now : TimePoint) (devices : List DeviceState) (db : Database) : Database :=
  devices.foldl (upsertDevice now) db

/-- A sample gets the next row id; its counters are stored as signed integers. -/
def insertTraffic (snapshot : TrafficSnapshot) (db : Database) : Database :=
  { db with
    trafficSamples := db.trafficSamples ++
      [{ id := db.trafficSeq + 1
         mac := cString (lower snapshot.mac)
         ip := cString snapshot.ip
         ts := unixSeconds snapshot.ts
         rxBytes := snapshot.rxBytes.toInt64
         txBytes := snapshot.txBytes.toInt64 }]
    trafficSeq := db.trafficSeq + 1 }

/-- `INSERT OR REPLACE`: the row of an id that is already there is replaced. -/
def insertEvent (event : Event) (db : Database) : Database :=
  { db with events := db.events.insert (eventRow event).id (eventRow event) }

/-- An attack gets the next row id. -/
def insertWANAttack (event : WANAttackEvent) (db : Database) : Database :=
  { db with
    wanAttacks := db.wanAttacks ++
      [{ id := db.attackSeq + 1
         ts := unixSeconds event.ts
         inIf := cString event.inIf
         srcIp := cString event.srcIp
         dstIp := cString event.dstIp
         srcPort := cString event.srcPort
         dstPort := cString event.dstPort
         proto := cString event.proto
         length := cString event.length
         raw := cString event.raw }]
    attackSeq := db.attackSeq + 1 }

/-! ## Loading -/

/-- The clock readings during a load: one for each device and event row, and
two for each attack row. -/
structure LoadClock where
  device : DeviceRow → TimePoint
  event : EventRow → TimePoint
  attack : WANAttackRow → TimePoint × TimePoint

/-- Replay device rows, in the order given, through `updateDevice`. -/
def replayDevices (clock : DeviceRow → TimePoint) (rows : List DeviceRow) (s : StateStore) :
    StateStore :=
  rows.foldl (fun s row => s.updateDevice (clock row) (deviceFromRow row)) s

/-- The device rows, `ORDER BY last_seen ASC`. -/
def deviceRows (db : Database) : List DeviceRow :=
  (db.devices.entries.map Sigma.snd).insertionSort fun a b => a.lastSeen ≤ b.lastSeen

/-- Every row of the devices table is merged into the store. -/
def loadDevices (clock : LoadClock) (db : Database) (s : StateStore) : StateStore :=
  replayDevices clock.device db.deviceRows s

/-- The newest event rows, `ORDER BY ts DESC LIMIT max_events`, oldest first. -/
def recentEventRows (config : Config) (db : Database) : List EventRow :=
  (takeLimit (boundLimit config.maxEvents)
    ((db.events.entries.map Sigma.snd).insertionSort fun a b => b.ts ≤ a.ts)).insertionSort
      fun a b => a.ts ≤ b.ts

/-- The newest events are loaded, the oldest of them first. -/
def loadEvents (config : Config) (clock : LoadClock) (db : Database) (s : StateStore) :
    StateStore :=
  (db.recentEventRows config).foldl (fun s row => s.addEvent (clock.event row) (eventFromRow row)) s

/-- The newest attacks are loaded, the oldest of them first. -/
def loadWANAttacks (config : Config) (clock : LoadClock) (db : Database) (s : StateStore) :
    StateStore :=
  ((takeLimit (boundLimit config.maxAttackEvents)
    (db.wanAttacks.insertionSort fun a b => b.ts ≤ a.ts)).insertionSort
      fun a b => a.ts ≤ b.ts).foldl
    (fun s row => s.addWANAttack (clock.attack row).1 (clock.attack row).2 (wanAttackFromRow row)) s

/-- The three parts of a load, in the order of the source. -/
def loadInto (config : Config) (clock : LoadClock) (db : Database) (s : StateStore) :
    StateStore :=
  db.loadWANAttacks config clock (db.loadEvents config clock (db.loadDevices clock s))

/-! ## Retention -/

/-- `ORDER BY ts DESC, id DESC`. -/
def NewestEvent (a b : EventRow) : Prop := b.ts < a.ts ∨ (b.ts = a.ts ∧ b.id ≤ a.id)

/-- `ORDER BY ts DESC, id DESC`. -/
def NewestAttack (a b : WANAttackRow) : Prop := b.ts < a.ts ∨ (b.ts = a.ts ∧ b.id ≤ a.id)

def NewestSample (a b : TrafficRow) : Prop := b.ts < a.ts ∨ (b.ts = a.ts ∧ b.id ≤ a.id)

instance : DecidableRel NewestEvent := fun _ _ => inferInstanceAs (Decidable (_ ∨ _))

instance : DecidableRel NewestAttack := fun _ _ => inferInstanceAs (Decidable (_ ∨ _))

instance : DecidableRel NewestSample := fun _ _ => inferInstanceAs (Decidable (_ ∨ _))

/-- `DELETE ... WHERE ts < cutoff` on the three histories. -/
def deleteOlderThan (cutoff : Int) (db : Database) : Database :=
  { db with
    events := db.events.filterEntries fun _ row => ¬ row.ts < cutoff
    wanAttacks := db.wanAttacks.filter fun row => ¬ row.ts < cutoff
    trafficSamples := db.trafficSamples.filter fun row => ¬ row.ts < cutoff }

/-- Delete the given events. -/
def deleteEvents (doomed : List EventRow) (db : Database) : Database :=
  { db with events := db.events.filterEntries fun id _ => id ∉ doomed.map EventRow.id }

/-- Delete the given attacks. -/
def deleteAttacks (doomed : List WANAttackRow) (db : Database) : Database :=
  { db with wanAttacks := db.wanAttacks.filter fun row => row.id ∉ doomed.map WANAttackRow.id }

/-- Delete the given samples. -/
def deleteSamples (doomed : List TrafficRow) (db : Database) : Database :=
  { db with
    trafficSamples := db.trafficSamples.filter fun row => row.id ∉ doomed.map TrafficRow.id }

/-- The event rows in the order of a relation. -/
def eventRowsBy (r : EventRow → EventRow → Prop) [DecidableRel r] (db : Database) :
    List EventRow :=
  (db.events.entries.map Sigma.snd).insertionSort r

/-- `LIMIT -1 OFFSET limit` over the events, newest first. -/
def deleteEventsBeyondLimit (limit : UInt64) (db : Database) : Database :=
  db.deleteEvents ((db.eventRowsBy NewestEvent).drop (boundLimit limit).toNat)

def deleteAttacksBeyondLimit (limit : UInt64) (db : Database) : Database :=
  db.deleteAttacks ((db.wanAttacks.insertionSort NewestAttack).drop (boundLimit limit).toNat)

/-- The partition of a sample: its MAC, or its address without one. -/
def samplePartition (row : TrafficRow) : Str := if row.mac ≠ [] then row.mac else row.ip

/-- `ROW_NUMBER()` of a sample in its partition, newest first. -/
def rowNumber (db : Database) (row : TrafficRow) : Int :=
  (db.trafficSamples.filter fun other =>
    samplePartition other = samplePartition row ∧ NewestSample other row).length

/-- The samples whose number within their device is beyond the limit go. -/
def deleteTrafficBeyondDeviceLimit (limit : UInt64) (db : Database) : Database :=
  db.deleteSamples (db.trafficSamples.filter fun row => db.rowNumber row > boundLimit limit)

/-- One round of pruning: the oldest rows of each history. -/
def pruneRound (db : Database) : Database :=
  let samples := (db.trafficSamples.insertionSort fun a b => NewestSample b a).take 1000
  let events := (db.eventRowsBy fun a b => NewestEvent b a).take 250
  let attacks := (db.wanAttacks.insertionSort fun a b => NewestAttack b a).take 250
  ((db.deleteSamples samples).deleteEvents events).deleteAttacks attacks

/-- At most `rounds` rounds of pruning, as long as the size readings exceed the
cap. -/
def pruneRounds (maxBytes : Int) (bytes : Nat → Int) : Nat → Nat → Database → Database
  | 0, _, db => db
  | rounds + 1, reading, db =>
      if bytes reading > maxBytes then
        pruneRounds maxBytes bytes rounds (reading + 1) db.pruneRound
      else db

/-- `enforceSizeLimit`: `bytes` are the successive readings of the database
size. -/
def enforceSizeLimit (config : Config) (bytes : Nat → Int) (db : Database) : Database :=
  let maxBytes := max 1 config.sqliteMaxDbMb * 1024 * 1024
  if bytes 0 ≤ maxBytes then db else pruneRounds maxBytes bytes 12 1 db

/-- The oldest second that the retention period keeps. -/
def retentionCutoff (config : Config) (now : TimePoint) : Int :=
  unixSeconds (now - seconds (3600 * (24 * max 1 config.sqliteRetentionDays)))

/-- The cut by age, the cuts by number and the size limit. -/
def applyRetention (config : Config) (now : TimePoint) (bytes : Nat → Int) (db : Database) :
    Database :=
  let aged := db.deleteOlderThan (retentionCutoff config now)
  let trimmed :=
    ((aged.deleteEventsBeyondLimit (max 1 config.sqliteMaxEvents)).deleteAttacksBeyondLimit
      (max 1 config.maxAttackEvents)).deleteTrafficBeyondDeviceLimit
        (max 1 config.sqliteMaxTrafficPointsPerDevice)
  trimmed.enforceSizeLimit config bytes

end Database

end Netmon
