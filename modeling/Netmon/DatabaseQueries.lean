import Netmon.Database

/-!
# Reading the SQLite history

The queries behind the dashboard: the stored devices, events and attacks, the
traffic history in buckets of five seconds, and the traffic of each device over
a window.  Counters are differences of 64-bit counters as in the source.
-/

namespace Netmon

/-- A point of the traffic history. -/
structure TrafficHistoryPoint where
  ts : TimePoint
  rxRateBps : ℚ
  txRateBps : ℚ
  samples : Nat
  deriving DecidableEq

/-- The traffic of a device over a window. -/
structure DeviceTrafficTotal where
  mac : Str := []
  ip : Str := []
  hostname : Str := []
  firstTs : TimePoint := 0
  lastTs : TimePoint := 0
  rxBytes : UInt64 := 0
  txBytes : UInt64 := 0
  samples : Nat := 0
  deriving DecidableEq

namespace Database

/-- A limit of zero stands for the default. -/
def limitOr (limit default : UInt64) : Int := boundLimit (if limit = 0 then default else limit)

/-! ## Rows as they are -/

/-- `ORDER BY last_seen DESC LIMIT ?`. -/
def queryDevices (limit : UInt64) (db : Database) : List DeviceState :=
  (takeLimit (limitOr limit 1000)
    ((db.devices.entries.map Sigma.snd).insertionSort fun a b => b.lastSeen ≤ a.lastSeen)).map
      deviceFromRow

/-- `ORDER BY ts DESC LIMIT ?`. -/
def queryEvents (limit : UInt64) (db : Database) : List Event :=
  (takeLimit (limitOr limit 100)
    ((db.events.entries.map Sigma.snd).insertionSort fun a b => b.ts ≤ a.ts)).map eventFromRow

/-- `ORDER BY ts DESC LIMIT ?`. -/
def queryWANAttacks (limit : UInt64) (db : Database) : List WANAttackEvent :=
  (takeLimit (limitOr limit 100) (db.wanAttacks.insertionSort fun a b => b.ts ≤ a.ts)).map
    wanAttackFromRow

/-! ## Traffic history -/

/-- The last sample of a device in the walk. -/
structure PreviousSample where
  ts : TimePoint
  rxBytes : UInt64
  txBytes : UInt64

/-- The sums of the rates that end within five seconds. -/
structure Bucket where
  rxRateBps : ℚ := 0
  txRateBps : ℚ := 0
  samples : Nat := 0

/-- The walk over the samples: the last sample of each device and the buckets by
their first second. -/
structure HistoryWalk where
  previousByDevice : StrMap PreviousSample := ∅
  buckets : AList fun _ : Int => Bucket := ∅

/-- `mac:` and the lower-case MAC, or `ip:` and the address. -/
def sampleKey (mac ip : Str) : Str := if mac ≠ [] then macKey (lower mac) else ipKey ip

/-- The first second of the bucket of a sample. -/
def bucketTs (seconds : Int) : Int := seconds - seconds.tmod 5

/-- The rates that a sample adds to its bucket, if it follows one of its device
at an earlier time with counters that did not go down. -/
def sampleRates (previous : PreviousSample) (ts : TimePoint) (rx tx : UInt64) : Option (ℚ × ℚ) :=
  let dt := inSeconds (ts - previous.ts)
  if dt > 0 ∧ ¬ (rx < previous.rxBytes ∨ tx < previous.txBytes) then
    some (StateStore.rateBps rx previous.rxBytes dt, StateStore.rateBps tx previous.txBytes dt)
  else none

/-- A pair of rates is added. -/
def Bucket.add (bucket : Bucket) (rates : ℚ × ℚ) : Bucket where
  rxRateBps := bucket.rxRateBps + rates.1
  txRateBps := bucket.txRateBps + rates.2
  samples := bucket.samples + 1

/-- A sample is compared with the last one of its device and then takes its place. -/
def walkSample (walk : HistoryWalk) (row : TrafficRow) : HistoryWalk :=
  let key := sampleKey (cString row.mac) (cString row.ip)
  if key = str "ip:" then walk
  else
    let ts := fromUnixSeconds row.ts
    let rx := row.rxBytes.toUInt64
    let tx := row.txBytes.toUInt64
    let rates := (walk.previousByDevice.lookup key).bind fun previous =>
      sampleRates previous ts rx tx
    { previousByDevice := walk.previousByDevice.insert key ⟨ts, rx, tx⟩
      buckets :=
        match rates with
        | none => walk.buckets
        | some rates =>
            walk.buckets.insert (bucketTs row.ts)
              ((walk.buckets.getD (bucketTs row.ts) {}).add rates) }

/-- How many points are wanted. -/
def historyWanted (limit : UInt64) : Nat := if limit = 0 then 180 else min limit.toNat 720

/-- The newest samples, oldest first. -/
def historyRows (limit : UInt64) (db : Database) : List TrafficRow :=
  ((db.trafficSamples.insertionSort NewestSample).take
    (max (historyWanted limit * 12) (historyWanted limit))).insertionSort fun a b =>
      NewestSample b a

/-- The newest points, the oldest of them first. -/
def trafficHistory (limit : UInt64) (db : Database) : List TrafficHistoryPoint :=
  let buckets := ((db.historyRows limit).foldl walkSample {}).buckets
  let points := (buckets.entries.insertionSort fun a b => a.1 ≤ b.1).map fun e =>
    { ts := fromUnixSeconds e.1
      rxRateBps := e.2.rxRateBps
      txRateBps := e.2.txRateBps
      samples := e.2.samples : TrafficHistoryPoint }
  points.drop (points.length - historyWanted limit)

/-! ## Traffic of each device -/

/-- A sample joined with the stored device of its key. -/
structure JoinedSample where
  sample : TrafficRow
  ip : Str
  hostname : Str

/-- The key of a sample in the `JOIN` and in the `ORDER BY`. -/
def joinKey (row : TrafficRow) : Str := sampleKey row.mac row.ip

/-- `LEFT JOIN devices`, with the address and the name of the device where the
sample has none. -/
def joinDevice (db : Database) (row : TrafficRow) : JoinedSample :=
  let device := db.devices.lookup (joinKey row)
  { sample := row
    ip := if row.ip ≠ [] then row.ip else (device.map DeviceRow.ip).getD []
    hostname := (device.map DeviceRow.hostname).getD [] }

/-- `ORDER BY key, ts ASC, id ASC`. -/
def JoinOrder (a b : JoinedSample) : Prop :=
  joinKey a.sample < joinKey b.sample ∨
    (joinKey a.sample = joinKey b.sample ∧
      (a.sample.ts < b.sample.ts ∨ (a.sample.ts = b.sample.ts ∧ a.sample.id ≤ b.sample.id)))

instance : DecidableRel JoinOrder := fun _ _ => inferInstanceAs (Decidable (_ ∨ _))

/-- A total with the last counters. -/
structure Accumulator where
  total : DeviceTrafficTotal := {}
  previousRx : UInt64 := 0
  previousTx : UInt64 := 0
  hasPrevious : Bool := false

/-- What a counter has grown by since the previous sample; a counter that went
down started again from zero. -/
def counterGrowth (current previous : UInt64) : UInt64 :=
  if current ≥ previous then current - previous else current

/-- The first sample names the device; every later one adds what its counters
have grown by. -/
def Accumulator.add (acc : Accumulator) (mac ip hostname : Str) (ts : TimePoint)
    (rx tx : UInt64) : Accumulator :=
  let counted : DeviceTrafficTotal :=
    if acc.total.samples = 0 then
      { acc.total with mac := mac, ip := ip, hostname := hostname, firstTs := ts }
    else if acc.hasPrevious then
      { acc.total with
        rxBytes := acc.total.rxBytes + counterGrowth rx acc.previousRx
        txBytes := acc.total.txBytes + counterGrowth tx acc.previousTx }
    else acc.total
  { total := { counted with lastTs := ts, samples := counted.samples + 1 }
    previousRx := rx
    previousTx := tx
    hasPrevious := true }

/-- A joined row is added to its device; one without a MAC and an address is passed over. -/
def accumulate (byDevice : StrMap Accumulator) (joined : JoinedSample) : StrMap Accumulator :=
  let mac := lower (cString joined.sample.mac)
  let ip := cString joined.ip
  let key := if mac ≠ [] then macKey mac else ipKey ip
  if key = str "ip:" then byDevice
  else
    byDevice.insert key
      ((byDevice.getD key {}).add mac ip (cString joined.hostname)
        (timeFromColumn joined.sample.ts) joined.sample.rxBytes.toUInt64
        joined.sample.txBytes.toUInt64)

/-- The samples of the window, joined and ordered. -/
def windowSamples (cutoff : Int) (db : Database) : List JoinedSample :=
  ((db.trafficSamples.filter fun row => row.ts ≥ cutoff).map db.joinDevice).insertionSort JoinOrder

/-- The order of the report: the most traffic first, then the latest. -/
def totalBefore (lhs rhs : DeviceTrafficTotal) : Bool :=
  let lhsTotal := lhs.rxBytes + lhs.txBytes
  let rhsTotal := rhs.rxBytes + rhs.txBytes
  if lhsTotal ≠ rhsTotal then lhsTotal > rhsTotal else lhs.lastTs > rhs.lastTs

/-- The totals of a window, the most traffic first, up to the limit.  A limit of zero is
none. -/
def deviceTrafficTotals (now : TimePoint) (windowHours : Int) (limit : UInt64) (db : Database) :
    List DeviceTrafficTotal :=
  let cutoff := unixSeconds (now - seconds (3600 * windowHours))
  let byDevice := (db.windowSamples cutoff).foldl accumulate ∅
  let out := (byDevice.entries.map fun e => e.2.total).insertionSort fun lhs rhs =>
    ¬ totalBefore rhs lhs
  if limit > 0 ∧ out.length > limit.toNat then out.take limit.toNat else out

end Database

end Netmon
