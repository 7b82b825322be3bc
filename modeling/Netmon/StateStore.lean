import Netmon.Types
import Netmon.Runs

/-!
# The in-memory inventory

`StateStore` of `state_store.cpp`.  Three hash tables hold the devices: the
records by device key, an index from IP address to device key, and the recent
traffic points by device key.  A device key is `mac:` followed by the lower-case
MAC or, for telemetry without a MAC, `ip:` followed by the address.

Every operation of the class is one function on the store.  The wall clock is
an argument: `now` is what `nowSystem()` returns during the call.  The mutex
makes each operation atomic, so a history of the store is a list of operations
(`StoreOp`) and its state is `Runs.run` of them.  `event_seq_` counts in `Nat`:
its 64-bit wrap-around would need 2^64 events.
-/

namespace Netmon

/-! ## Helpers of the anonymous namespace -/

/-- The states of a neighbour that is there. -/
def isReachableNeighbour (state : Str) : Bool :=
  upper state ∈ [str "REACHABLE", str "STALE", str "DELAY", str "PROBE"]

/-- The states of a neighbour that does not answer. -/
def isFailedNeighbour (state : Str) : Bool :=
  upper state ∈ [str "FAILED", str "INCOMPLETE", str "NOARP"]

/-- The texts that stand for a missing value in telemetry. -/
def IsPlaceholder (value : Str) : Prop :=
  value = str "unknown" ∨ value = str "*"

instance (value : Str) : Decidable (IsPlaceholder value) := by
  unfold IsPlaceholder; infer_instance

/-- A text replaces another unless it is empty or a placeholder. -/
def setIfNotEmpty (dest value : Str) : Str :=
  if value ≠ [] ∧ ¬ IsPlaceholder value then value else dest

/-- A tag is looked for as it is. -/
def hasTag (tags : List Str) (tag : Str) : Bool := tag ∈ tags

/-- Append the tags that are not there yet, in order. -/
def addTags (current incoming : List Str) : List Str :=
  incoming.foldl (fun tags tag => if hasTag tags tag then tags else tags ++ [tag]) current

/-! ## Device keys -/

/-- The key of a device known by MAC; the MAC is already lower-case. -/
def macKey (mac : Str) : Str := str "mac:" ++ mac

/-- The key of a device known by address only. -/
def ipKey (ip : Str) : Str := str "ip:" ++ ip

/-- `key.rfind("ip:", 0) == 0`. -/
def isIpKey (key : Str) : Bool := (str "ip:").isPrefixOf key

/-- A device is known by its MAC, or else by its address. -/
def makeKey (mac ip : Str) : Str :=
  if lower mac ≠ [] then macKey (lower mac)
  else if ip ≠ [] then ipKey ip
  else []

/-! ## Records -/

/-- The status that a device has at a time, by its age and its neighbour state. -/
def statusFor (config : Config) (device : DeviceState) (now : TimePoint) : DeviceStatus :=
  if device.lastSeen = 0 then .unknown
  else if now - device.lastSeen > seconds config.deviceIdleTtlSeconds then .offline
  else if isFailedNeighbour device.neighState then .idle
  else if now - device.lastSeen ≤ seconds config.deviceOnlineTtlSeconds then
    if device.neighState = [] ∨ isReachableNeighbour device.neighState ∨
        device.source = str "dhcp" ∨ device.source = str "traffic" ∨
        device.source = str "wifi" then .online
    else .idle
  else .idle

/-- What is known of a device after a notice about it. -/
def mergeDeviceLocked (config : Config) (current incoming : DeviceState) (now : TimePoint) :
    DeviceState :=
  let incomingSeen := if incoming.lastSeen = 0 then now else incoming.lastSeen
  let merged : DeviceState :=
    { current with
      firstSeen := if current.firstSeen = 0 then incomingSeen else current.firstSeen
      lastSeen := if current.lastSeen = 0 ∨ incomingSeen > current.lastSeen then incomingSeen
        else current.lastSeen
      mac := setIfNotEmpty current.mac (lower incoming.mac)
      ip := setIfNotEmpty current.ip incoming.ip
      hostname := setIfNotEmpty current.hostname incoming.hostname
      interfaceName := setIfNotEmpty current.interfaceName incoming.interfaceName
      source := setIfNotEmpty current.source incoming.source
      neighState := setIfNotEmpty current.neighState incoming.neighState
      lastDhcp := if incoming.lastDhcp ≠ 0 then incoming.lastDhcp else current.lastDhcp
      lastTraffic := if incoming.lastTraffic ≠ 0 then incoming.lastTraffic
        else current.lastTraffic
      lastRate := if incoming.lastRate ≠ 0 then incoming.lastRate else current.lastRate
      rxBytesTotal := if incoming.rxBytesTotal > 0 then incoming.rxBytesTotal
        else current.rxBytesTotal
      txBytesTotal := if incoming.txBytesTotal > 0 then incoming.txBytesTotal
        else current.txBytesTotal
      rxRateBps := if |incoming.rxRateBps| > 0 then incoming.rxRateBps else current.rxRateBps
      txRateBps := if |incoming.txRateBps| > 0 then incoming.txRateBps else current.txRateBps
      tags := addTags current.tags incoming.tags }
  { merged with
    status := if incoming.status = .offline then .offline else statusFor config merged now }

/-! ## The store -/

/-- The live state of the service. -/
structure StateStore where
  config : Config
  devicesByKey : StrMap DeviceState
  ipToKey : StrMap Str
  trafficPoints : StrMap (List TrafficSnapshot)
  interfaceSnapshots : StrMap InterfaceSnapshot
  interfacesByName : StrMap InterfaceState
  events : RingBuffer Event
  wanAttacks : RingBuffer WANAttackEvent
  lastLogTs : TimePoint
  eventSeq : Nat

namespace StateStore

/-- The constructor: every table empty, the histories sized by the settings. -/
def init (config : Config) : StateStore where
  config := config
  devicesByKey := ∅
  ipToKey := ∅
  trafficPoints := ∅
  interfaceSnapshots := ∅
  interfacesByName := ∅
  events := RingBuffer.empty config.maxEvents.toNat
  wanAttacks := RingBuffer.empty config.maxAttackEvents.toNat
  lastLogTs := 0
  eventSeq := 0

/-- The time of the last log only moves on. -/
def touchLastLogLocked (now ts : TimePoint) (s : StateStore) : StateStore :=
  let ts := if ts = 0 then now else ts
  if s.lastLogTs = 0 ∨ ts > s.lastLogTs then { s with lastLogTs := ts } else s

/-- The text of the `n`-th event id. -/
def eventIdText (n : Nat) : Str := str "evt-" ++ decimal n

/-- The next id, and the store whose counter has moved on. -/
def nextEventId (s : StateStore) : Str × StateStore :=
  (eventIdText (s.eventSeq + 1), { s with eventSeq := s.eventSeq + 1 })

/-- The key of a known device: by its MAC, by the address it is linked to, or by its
address. -/
def findKeyLocked (s : StateStore) (mac ip : Str) : Str :=
  if lower mac ≠ [] ∧ macKey (lower mac) ∈ s.devicesByKey then macKey (lower mac)
  else if ip ≠ [] then
    match s.ipToKey.lookup ip with
    | some key => key
    | none => if ipKey ip ∈ s.devicesByKey then ipKey ip else []
  else []

/-- The key an update works on: the one found, else a new one. -/
def resolveKey (s : StateStore) (mac ip : Str) : Str :=
  if s.findKeyLocked mac ip = [] then makeKey mac ip else s.findKeyLocked mac ip

/-- Move the record and the traffic points from `key` to `desired`.  A missing
record leaves the store as it is, and an occupied target keeps its record, as
node extraction and insertion do. -/
def rekey (key desired : Str) (s : StateStore) : StateStore × Str :=
  match s.devicesByKey.lookup key with
  | none => (s, key)
  | some node =>
      let rest := s.devicesByKey.erase key
      ({ s with
          devicesByKey := if desired ∈ rest then rest else rest.insert desired node
          trafficPoints :=
            (s.trafficPoints.insert desired (s.trafficPoints.getD key [])).erase key },
        desired)

/-- Write a record back under its key and point its address at the key. -/
def putDevice (key : Str) (device : DeviceState) (s : StateStore) : StateStore :=
  { s with
    devicesByKey := s.devicesByKey.insert key device
    ipToKey := if device.ip ≠ [] then s.ipToKey.insert device.ip key else s.ipToKey }

/-- A notice about a device.  Where the device is known by its address only, a notice with
a MAC moves it to its MAC first. -/
def updateDevice (now : TimePoint) (device : DeviceState) (s : StateStore) : StateStore :=
  let key := s.resolveKey device.mac device.ip
  if key = [] then s
  else
    let desired := makeKey device.mac device.ip
    let moved :=
      if device.mac ≠ [] ∧ isIpKey key ∧ desired ≠ [] ∧ desired ≠ key then s.rekey key desired
      else (s, key)
    let current := mergeDeviceLocked s.config (moved.1.devicesByKey.getD moved.2 {}) device now
    (moved.1.putDevice moved.2 current).touchLastLogLocked now current.lastSeen

/-! ## Traffic -/

/-- What one traffic snapshot decides about a device. -/
structure RateDecision where
  rxRate : ℚ
  txRate : ℚ
  shouldStorePoint : Bool
  countersReset : Bool

/-- Bits per second over an interval in which the counter grew. -/
def rateBps (current previous : UInt64) (deltaTime : ℚ) : ℚ :=
  ((current - previous).toNat : ℚ) * 8 / deltaTime

/-- `device.last_rate` is set and at most the hold time before `ts`. -/
def hasRecentRate (config : Config) (device : DeviceState) (ts : TimePoint) : Bool :=
  device.lastRate ≠ 0 ∧ ts - device.lastRate ≤ seconds config.trafficRateHoldSeconds

/-- The rate computation of `updateTraffic`: the first point stores itself, a
counter that went down resets the rates, a counter that grew sets them, and a
repeated sample holds them for a while. -/
def decideRates (config : Config) (points : List TrafficSnapshot) (device : DeviceState)
    (current : TrafficSnapshot) : RateDecision :=
  match points.getLast? with
  | none => ⟨device.rxRateBps, device.txRateBps, true, false⟩
  | some previous =>
      let deltaTime := inSeconds (current.ts - previous.ts)
      if current.rxBytes < previous.rxBytes ∨ current.txBytes < previous.txBytes then
        ⟨0, 0, true, true⟩
      else if current.rxBytes ≠ previous.rxBytes ∨ current.txBytes ≠ previous.txBytes then
        if deltaTime > 0 then
          ⟨rateBps current.rxBytes previous.rxBytes deltaTime,
            rateBps current.txBytes previous.txBytes deltaTime, true, false⟩
        else ⟨device.rxRateBps, device.txRateBps, false, false⟩
      else if hasRecentRate config device current.ts then
        ⟨device.rxRateBps, device.txRateBps, false, false⟩
      else ⟨0, 0, false, false⟩

/-- The points after a snapshot: appended when it is to be stored, and cut to
the configured number from the front. -/
def storePoint (config : Config) (points : List TrafficSnapshot) (current : TrafficSnapshot)
    (decision : RateDecision) : List TrafficSnapshot :=
  if decision.shouldStorePoint then
    popFrontTo config.maxTrafficPointsPerDevice.toNat (points ++ [current])
  else points

/-- The record after a snapshot. -/
def trafficDevice (config : Config) (device : DeviceState) (current : TrafficSnapshot)
    (decision : RateDecision) : DeviceState :=
  let updated : DeviceState :=
    { device with
      firstSeen := if device.firstSeen = 0 then current.ts else device.firstSeen
      lastSeen := max device.lastSeen current.ts
      lastTraffic := current.ts
      mac := setIfNotEmpty device.mac current.mac
      ip := setIfNotEmpty device.ip current.ip
      source := str "traffic"
      rxBytesTotal := current.rxBytes
      txBytesTotal := current.txBytes
      rxRateBps := decision.rxRate
      txRateBps := decision.txRate
      lastRate := if decision.rxRate > 0 ∨ decision.txRate > 0 then current.ts
        else if decision.countersReset then 0
        else device.lastRate
      tags := if hasTag device.tags (str "traffic") then device.tags
        else device.tags ++ [str "traffic"] }
  { updated with status := statusFor config updated current.ts }

/-- The snapshot as it is processed: stamped with the clock when it carries no
time, and with its MAC in lower case. -/
def stampTraffic (now : TimePoint) (snapshot : TrafficSnapshot) : TrafficSnapshot :=
  { snapshot with
    ts := if snapshot.ts = 0 then now else snapshot.ts
    mac := lower snapshot.mac }

/-- A sample of a device's traffic, and the rates since the last one. -/
def updateTraffic (now : TimePoint) (snapshot : TrafficSnapshot) (s : StateStore) :
    StateStore :=
  if snapshot.mac = [] ∧ snapshot.ip = [] then s
  else
    let current := stampTraffic now snapshot
    let key := s.resolveKey current.mac current.ip
    if key = [] then s
    else
      let points := s.trafficPoints.getD key []
      let device := s.devicesByKey.getD key {}
      let decision := decideRates s.config points device current
      let stored :=
        { s with
          trafficPoints :=
            s.trafficPoints.insert key (storePoint s.config points current decision) }
      (stored.putDevice key (trafficDevice s.config device current decision)).touchLastLogLocked
        now current.ts

/-- A sample of an interface's counters, and the rates since the last one. -/
def updateInterface (now : TimePoint) (snapshot : InterfaceSnapshot) (s : StateStore) :
    StateStore :=
  if snapshot.interfaceName = [] then s
  else
    let current := { snapshot with ts := if snapshot.ts = 0 then now else snapshot.ts }
    let name := current.interfaceName
    let state := s.interfacesByName.getD name {}
    let rates : Option (ℚ × ℚ) :=
      match s.interfaceSnapshots.lookup name with
      | none => none
      | some previous =>
          let deltaTime := inSeconds (current.ts - previous.ts)
          if deltaTime > 0 ∧ ¬ (current.rxBytes < previous.rxBytes ∨
              current.txBytes < previous.txBytes) then
            some (rateBps current.rxBytes previous.rxBytes deltaTime,
              rateBps current.txBytes previous.txBytes deltaTime)
          else none
    let updated : InterfaceState :=
      { state with
        interfaceName := name
        lastSeen := current.ts
        rxBytesTotal := current.rxBytes
        txBytesTotal := current.txBytes
        rxRateBps := (rates.map Prod.fst).getD 0
        txRateBps := (rates.map Prod.snd).getD 0
        lastRate := if rates.isSome then current.ts else state.lastRate }
    { s with
      interfacesByName := s.interfacesByName.insert name updated
      interfaceSnapshots := s.interfaceSnapshots.insert name current }.touchLastLogLocked
        now current.ts

/-! ## Histories -/

/-- An event without an id is given the next one. -/
def pushEventLocked (now : TimePoint) (event : Event) (s : StateStore) : StateStore :=
  let named := if event.id = [] then s.nextEventId else (event.id, s)
  let event := { event with id := named.1, ts := if event.ts = 0 then now else event.ts }
  { named.2 with events := named.2.events.push event }.touchLastLogLocked now event.ts

/-- An event is added under the lock. -/
def addEvent (now : TimePoint) (event : Event) (s : StateStore) : StateStore :=
  s.pushEventLocked now event

/-- The clock is read twice for an attack without a time: once for its stamp
and once, later, for the last-log time. -/
def addWANAttack (now later : TimePoint) (event : WANAttackEvent) (s : StateStore) :
    StateStore :=
  let attack := { event with ts := if event.ts = 0 then now else event.ts }
  { s with wanAttacks := s.wanAttacks.push attack }.touchLastLogLocked later
    (if event.ts = 0 then later else event.ts)

/-! ## Cleanup -/

/-- A rate is due to expire: one is positive and the last one was set too long
ago, or never. -/
def rateExpired (config : Config) (now : TimePoint) (device : DeviceState) : Bool :=
  (device.rxRateBps > 0 ∨ device.txRateBps > 0) ∧
    (device.lastRate = 0 ∨ now - device.lastRate > seconds config.trafficRateHoldSeconds)

/-- The record after the walk over the devices. -/
def sweepDevice (config : Config) (now : TimePoint) (device : DeviceState) : DeviceState :=
  let device :=
    if rateExpired config now device then { device with rxRateBps := 0, txRateBps := 0 }
    else device
  { device with status := statusFor config device now }

/-- The walk turns this record offline. -/
def goesOffline (config : Config) (now : TimePoint) (device : DeviceState) : Bool :=
  device.status ≠ .offline ∧ (sweepDevice config now device).status = .offline

/-- The walked record is offline and older than the keep time. -/
def isExpired (config : Config) (now : TimePoint) (device : DeviceState) : Bool :=
  device.status = .offline ∧ device.lastSeen ≠ 0 ∧
    now - device.lastSeen > seconds config.deviceKeepTtlSeconds

/-- The event that announces an offline device. -/
def offlineEvent (id : Str) (now : TimePoint) (device : DeviceState) : Event where
  id := id
  ts := now
  type := str "device"
  severity := .warning
  source := str "state"
  message := str "Device offline"
  fields := ((∅ : StrMap Str).insert (str "mac") device.mac).insert (str "ip") device.ip
    |>.insert (str "hostname") device.hostname

/-- Announce a device that the walk turned offline. -/
def announceOffline (now : TimePoint) (device : DeviceState) (s : StateStore) : StateStore :=
  let next := s.nextEventId
  { next.2 with
    events := next.2.events.push (offlineEvent next.1 now device) }.touchLastLogLocked now now

/-- Remove a device, its traffic points and every index entry that leads to it. -/
def eraseDevice (s : StateStore) (key : Str) : StateStore :=
  { s with
    devicesByKey := s.devicesByKey.erase key
    trafficPoints := s.trafficPoints.erase key
    ipToKey := s.ipToKey.filterEntries fun _ target => target ≠ key }

/-- Devices that go offline are announced, and those that have expired are forgotten. -/
def cleanup (now : TimePoint) (s : StateStore) : StateStore :=
  let devices := s.devicesByKey.entries.map Sigma.snd
  let announced := devices.foldl
    (fun s device =>
      if goesOffline s.config now device then
        s.announceOffline now (sweepDevice s.config now device)
      else s) s
  let swept := s.devicesByKey.mapValues (sweepDevice s.config now)
  let eraseKeys := (swept.filterEntries fun _ device => isExpired s.config now device).keys
  eraseKeys.foldl eraseDevice { announced with devicesByKey := swept }

/-! ## Views -/

/-- The order of `devices()`: by status, then the most recently seen first. -/
def statusRank : DeviceStatus → Nat
  | .online => 0
  | .idle => 1
  | .offline => 2
  | .unknown => 3

/-- By status, and then the last seen first. -/
def devicesBefore (lhs rhs : DeviceState) : Bool :=
  if lhs.status ≠ rhs.status then statusRank lhs.status < statusRank rhs.status
  else lhs.lastSeen > rhs.lastSeen

/-- The devices as they are seen at a time, sorted. -/
def devices (now : TimePoint) (s : StateStore) : List DeviceState :=
  let current := s.devicesByKey.entries.map fun e =>
    { e.2 with status := statusFor s.config e.2 now }
  current.insertionSort fun lhs rhs => ¬ devicesBefore rhs lhs

/-- The newest events. -/
def recentEvents (limit : Nat) (s : StateStore) : List Event := s.events.newest limit

/-- The newest attacks. -/
def recentWANAttacks (limit : Nat) (s : StateStore) : List WANAttackEvent :=
  s.wanAttacks.newest limit

/-- Count a device under its status and add its rates. -/
def countDevice (config : Config) (now : TimePoint) (out : Summary) (device : DeviceState) :
    Summary :=
  let rated := { out with
    rxRateBps := out.rxRateBps + device.rxRateBps
    txRateBps := out.txRateBps + device.txRateBps }
  match statusFor config device now with
  | .online => { rated with activeDevices := rated.activeDevices + 1 }
  | .idle => { rated with idleDevices := rated.idleDevices + 1 }
  | .offline => { rated with offlineDevices := rated.offlineDevices + 1 }
  | .unknown => { rated with unknownDevices := rated.unknownDevices + 1 }

/-- The interface whose rate is fresh and most recent. -/
def freshestInterface (now : TimePoint) (s : StateStore) : Option InterfaceState :=
  (s.interfacesByName.entries.map Sigma.snd).foldl
    (fun best iface =>
      if iface.lastRate = 0 ∨ now - iface.lastRate > seconds 10 then best
      else
        match best with
        | none => some iface
        | some chosen => if iface.lastRate > chosen.lastRate then some iface else some chosen)
    none

/-- The counts by status, the attacks of five minutes and the rates of the freshest
interface. -/
def summary (now : TimePoint) (s : StateStore) : Summary :=
  let counted := (s.devicesByKey.entries.map Sigma.snd).foldl (countDevice s.config now)
    { lastLogTs := s.lastLogTs }
  let attacks := (s.wanAttacks.items.filter fun e => e.ts ≥ now - seconds 300).length
  match s.freshestInterface now with
  | none => { counted with wanAttack5m := attacks }
  | some iface =>
      { counted with
        wanAttack5m := attacks
        rxRateBps := iface.rxRateBps
        txRateBps := iface.txRateBps
        rateSource := str "interface"
        rateInterface := iface.interfaceName
        lastInterfaceTs := iface.lastSeen }

end StateStore

/-! ## Histories of the store -/

/-- One call on the store, with the clock readings it takes. -/
inductive StoreOp where
  | updateDevice (now : TimePoint) (device : DeviceState)
  | updateTraffic (now : TimePoint) (snapshot : TrafficSnapshot)
  | updateInterface (now : TimePoint) (snapshot : InterfaceSnapshot)
  | addEvent (now : TimePoint) (event : Event)
  | addWANAttack (now later : TimePoint) (event : WANAttackEvent)
  | nextEventId
  | cleanup (now : TimePoint)

namespace StateStore

/-- The store after one call. -/
def apply (s : StateStore) : StoreOp → StateStore
  | .updateDevice now device => s.updateDevice now device
  | .updateTraffic now snapshot => s.updateTraffic now snapshot
  | .updateInterface now snapshot => s.updateInterface now snapshot
  | .addEvent now event => s.addEvent now event
  | .addWANAttack now later event => s.addWANAttack now later event
  | .nextEventId => s.nextEventId.2
  | .cleanup now => s.cleanup now

/-- A store that some history of calls leads to from an empty one. -/
def Reachable (s : StateStore) : Prop :=
  ∃ config ops, s = Runs.run apply (init config) ops

end StateStore

end Netmon
