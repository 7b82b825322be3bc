import Netmon.App

/-!
# The calls a line makes on the store

Handling a line or running a cleanup cycle reaches the store through a few calls,
with database writes and counters in between that leave the store alone.
`lineCalls` and `runCalls` list these calls in the order in which they are made, so
that what is proved about histories of the store holds of the running process
(`handleLog_state`, `run_state`).
-/

namespace Netmon

/-- An update with no counters, rates or traffic times, such as every update that is
made for a log line. -/
structure WithoutTraffic (device : DeviceState) : Prop where
  rxBytesTotal : device.rxBytesTotal = 0
  txBytesTotal : device.txBytesTotal = 0
  rxRateBps : device.rxRateBps = 0
  txRateBps : device.txRateBps = 0
  lastTraffic : device.lastTraffic = 0
  lastRate : device.lastRate = 0

namespace App

/-! ## The parts of a step that leave the store alone -/

@[simp] theorem updateState_state (f : StateStore → StateStore) (app : App) :
    (app.updateState f).state = f app.state := rfl

@[simp] theorem updateStats_state (f : RuntimeStats → RuntimeStats) (app : App) :
    (app.updateStats f).state = app.state := rfl

@[simp] theorem publishUpdate_state (type : Str) (app : App) :
    (app.publishUpdate type).state = app.state := rfl

@[simp] theorem persistDevices_state (view written : TimePoint) (app : App) :
    (app.persistDevices view written).state = app.state := by
  unfold persistDevices
  split <;> rfl

@[simp] theorem persistEvent_state (event : Event) (app : App) :
    (app.persistEvent event).state = app.state := by
  unfold persistEvent
  split <;> rfl

@[simp] theorem persistTraffic_state (snapshot : TrafficSnapshot) (app : App) :
    (app.persistTraffic snapshot).state = app.state := by
  unfold persistTraffic
  split <;> rfl

@[simp] theorem persistWANAttack_state (event : WANAttackEvent) (app : App) :
    (app.persistWANAttack event).state = app.state := by
  unfold persistWANAttack
  split <;> rfl

@[simp] theorem persistRecentEvents_state (app : App) :
    app.persistRecentEvents.state = app.state := by
  unfold persistRecentEvents
  split <;> rfl

/-- Recording an event is one call of the store. -/
@[simp] theorem recordEvent_state (clock : LogClock) (event : Event) (app : App) :
    (app.recordEvent clock event).state = app.state.addEvent clock.event event := by
  simp [recordEvent]

/-- A notice about a device is two calls of the store. -/
@[simp] theorem recordDevice_state (clock : LogClock) (device : DeviceState) (event : Event)
    (app : App) :
    (app.recordDevice clock device event).state =
      (app.state.updateDevice clock.update device).addEvent clock.event event := by
  simp [recordDevice]

/-! ## The calls -/

/-- The calls of `applyEvent`, branch by branch. -/
def eventCalls (clock : LogClock) (result : ParseResult) (event : Event) : List StoreOp :=
  let field (name : String) (fallback : Str) : Str := result.fields.getD (str name) fallback
  let hasCounters := str "rx_bytes" ∈ result.fields ∧ str "tx_bytes" ∈ result.fields
  if result.type = str "netdev" then
    [ .updateDevice clock.update
        { mac := field "mac" []
          ip := field "ip" []
          hostname := field "hostname" (field "host" [])
          interfaceName := field "interface" (field "if" [])
          neighState := field "neigh" []
          source := str "netdev"
          lastSeen := event.ts
          tags := [str "netdev"] },
      .addEvent clock.event { event with type := str "device", message := str "Device snapshot" } ]
  else if result.type = str "dhcp" then
    [ .updateDevice clock.update
        { mac := field "mac" []
          ip := field "ip" []
          hostname := field "hostname" []
          interfaceName := field "interface" []
          source := str "dhcp"
          lastSeen := event.ts
          lastDhcp := event.ts
          tags := [str "dhcp"] },
      .addEvent clock.event
        { event with type := str "dhcp", message := field "event" (str "DHCP event") } ]
  else if result.type = str "nettraffic" then
    if hasCounters then
      [ .updateTraffic clock.update
          { mac := field "mac" []
            ip := field "ip" []
            ts := event.ts
            rxBytes := parseUint64 (field "rx_bytes" []) 0
            txBytes := parseUint64 (field "tx_bytes" []) 0 },
        .addEvent clock.event
          { event with type := str "traffic", message := str "Traffic snapshot" } ]
    else
      [ .addEvent clock.event
          { event with type := str "traffic", message := str "Traffic CSV snapshot" } ]
  else if result.type = str "netiface" then
    if hasCounters then
      [ .updateInterface clock.update
          { interfaceName := field "interface" (field "if" (field "iface" []))
            ts := event.ts
            rxBytes := parseUint64 (field "rx_bytes" []) 0
            txBytes := parseUint64 (field "tx_bytes" []) 0 } ]
    else []
  else if result.type = str "wan_attack" then
    [ .addWANAttack clock.update clock.later
        { ts := event.ts
          inIf := field "in_if" []
          srcIp := field "src_ip" []
          dstIp := field "dst_ip" []
          srcPort := field "src_port" []
          dstPort := field "dst_port" []
          proto := field "proto" []
          length := field "len" []
          raw := result.raw },
      .addEvent clock.event
        { event with severity := .critical, message := str "WAN attack/firewall drop" } ]
  else if result.type = str "wan" then
    [ .addEvent clock.event
        { event with
          type := str "wan"
          message := field "message" result.raw
          severity := if field "state" [] = str "down" then .warning else event.severity } ]
  else if result.type = str "wifi" then
    let gone := field "event" [] = str "wifi_disconnected"
    [ .updateDevice clock.update
        { mac := field "mac" []
          source := str "wifi"
          lastSeen := event.ts
          tags := [str "wifi"]
          status := if gone then .offline else .unknown },
      .addEvent clock.event
        { event with
          type := str "device"
          message := field "event" (str "WiFi client event")
          severity := if gone then .warning else event.severity } ]
  else [.addEvent clock.event event]

/-- Applying an event is making its calls. -/
theorem applyEvent_state (clock : LogClock) (result : ParseResult) (event : Event) (app : App) :
    (app.applyEvent clock result event).state =
      Runs.run StateStore.apply app.state (eventCalls clock result event) := by
  unfold applyEvent eventCalls
  dsimp only
  by_cases hnetdev : result.type = str "netdev"
  · rw [if_pos hnetdev, if_pos hnetdev]
    exact recordDevice_state clock _ _ app
  rw [if_neg hnetdev, if_neg hnetdev]
  by_cases hdhcp : result.type = str "dhcp"
  · rw [if_pos hdhcp, if_pos hdhcp]
    exact recordDevice_state clock _ _ app
  rw [if_neg hdhcp, if_neg hdhcp]
  by_cases htraffic : result.type = str "nettraffic"
  · rw [if_pos htraffic, if_pos htraffic]
    by_cases hcounters : str "rx_bytes" ∈ result.fields ∧ str "tx_bytes" ∈ result.fields
    · rw [if_pos hcounters, if_pos hcounters, publishUpdate_state, recordEvent_state,
        persistDevices_state, persistTraffic_state]
      rfl
    · rw [if_neg hcounters, if_neg hcounters]
      exact recordEvent_state clock _ app
  rw [if_neg htraffic, if_neg htraffic]
  by_cases hiface : result.type = str "netiface"
  · rw [if_pos hiface, if_pos hiface]
    by_cases hcounters : str "rx_bytes" ∈ result.fields ∧ str "tx_bytes" ∈ result.fields
    · rw [if_pos hcounters, if_pos hcounters]
      rfl
    · rw [if_neg hcounters, if_neg hcounters]
      rfl
  rw [if_neg hiface, if_neg hiface]
  by_cases hattack : result.type = str "wan_attack"
  · rw [if_pos hattack, if_pos hattack, publishUpdate_state, persistEvent_state,
      persistWANAttack_state]
    rfl
  rw [if_neg hattack, if_neg hattack]
  by_cases hwan : result.type = str "wan"
  · rw [if_pos hwan, if_pos hwan]
    exact recordEvent_state clock _ app
  rw [if_neg hwan, if_neg hwan]
  by_cases hwifi : result.type = str "wifi"
  · rw [if_pos hwifi, if_pos hwifi]
    exact recordDevice_state clock _ _ app
  rw [if_neg hwifi, if_neg hwifi]
  exact recordEvent_state clock event app

/-- An update that was made at `ts`: seen then, perhaps by DHCP, and without traffic
data. -/
structure ReportedAt (ts : TimePoint) (device : DeviceState) : Prop
    extends WithoutTraffic device where
  lastSeen : device.lastSeen = ts
  lastDhcp : device.lastDhcp = 0 ∨ device.lastDhcp = ts

/-- **What the calls of an event can be.**  An interface line updates an interface or
nothing; an attack line adds the attack and the event; any other line adds the event,
after a device or traffic update if it reports one.  Everything is stamped with the
time of the event, and the added event keeps its id. -/
theorem eventCalls_cases (clock : LogClock) (result : ParseResult) (event : Event) :
    (result.type = str "netiface" ∧
      (eventCalls clock result event = [] ∨
        ∃ snapshot, eventCalls clock result event = [.updateInterface clock.update snapshot] ∧
          snapshot.ts = event.ts)) ∨
    (result.type = str "wan_attack" ∧
      ∃ attack e, eventCalls clock result event =
          [.addWANAttack clock.update clock.later attack, .addEvent clock.event e] ∧
        attack.ts = event.ts ∧ e.ts = event.ts ∧ e.id = event.id) ∨
    (result.type ≠ str "netiface" ∧ result.type ≠ str "wan_attack" ∧
      ∃ e, (eventCalls clock result event = [.addEvent clock.event e] ∨
          (∃ device, eventCalls clock result event =
            [.updateDevice clock.update device, .addEvent clock.event e] ∧
              ReportedAt event.ts device) ∨
          ∃ snapshot, eventCalls clock result event =
            [.updateTraffic clock.update snapshot, .addEvent clock.event e] ∧
              snapshot.ts = event.ts) ∧
        e.ts = event.ts ∧ e.id = event.id) := by
  unfold eventCalls
  dsimp only
  by_cases hiface : result.type = str "netiface"
  · refine Or.inl ⟨hiface, ?_⟩
    rw [hiface, if_neg (by decide), if_neg (by decide), if_neg (by decide), if_pos rfl]
    by_cases hcounters : str "rx_bytes" ∈ result.fields ∧ str "tx_bytes" ∈ result.fields
    · rw [if_pos hcounters]
      exact Or.inr ⟨_, rfl, rfl⟩
    · rw [if_neg hcounters]
      exact Or.inl rfl
  right
  by_cases hattack : result.type = str "wan_attack"
  · refine Or.inl ⟨hattack, ?_⟩
    rw [hattack, if_neg (by decide), if_neg (by decide), if_neg (by decide), if_neg (by decide),
      if_pos rfl]
    exact ⟨_, _, rfl, rfl, rfl, rfl⟩
  refine Or.inr ⟨hiface, hattack, ?_⟩
  by_cases hnetdev : result.type = str "netdev"
  · rw [if_pos hnetdev]
    exact ⟨_, Or.inr (Or.inl ⟨_, rfl, ⟨rfl, rfl, rfl, rfl, rfl, rfl⟩,
      rfl, Or.inl rfl⟩), rfl, rfl⟩
  rw [if_neg hnetdev]
  by_cases hdhcp : result.type = str "dhcp"
  · rw [if_pos hdhcp]
    exact ⟨_, Or.inr (Or.inl ⟨_, rfl, ⟨rfl, rfl, rfl, rfl, rfl, rfl⟩,
      rfl, Or.inr rfl⟩), rfl, rfl⟩
  rw [if_neg hdhcp]
  by_cases htraffic : result.type = str "nettraffic"
  · rw [if_pos htraffic]
    by_cases hcounters : str "rx_bytes" ∈ result.fields ∧ str "tx_bytes" ∈ result.fields
    · rw [if_pos hcounters]
      exact ⟨_, Or.inr (Or.inr ⟨_, rfl, rfl⟩), rfl, rfl⟩
    · rw [if_neg hcounters]
      exact ⟨_, Or.inl rfl, rfl, rfl⟩
  rw [if_neg htraffic, if_neg hiface, if_neg hattack]
  by_cases hwan : result.type = str "wan"
  · rw [if_pos hwan]
    exact ⟨_, Or.inl rfl, rfl, rfl⟩
  rw [if_neg hwan]
  by_cases hwifi : result.type = str "wifi"
  · rw [if_pos hwifi]
    exact ⟨_, Or.inr (Or.inl ⟨_, rfl, ⟨rfl, rfl, rfl, rfl, rfl, rfl⟩,
      rfl, Or.inl rfl⟩), rfl, rfl⟩
  rw [if_neg hwifi]
  exact ⟨event, Or.inl rfl, rfl, rfl⟩

/-- What the parser makes of a line, with the result of a line that no format
takes. -/
def lineResult (line : Str) : ParseResult := (parse line).getD (rawResult line)

/-- The event of a line, before it is adapted to the type of the line. -/
def lineEvent (clock : LogClock) (line peerIp : Str) (s : StateStore) : Event :=
  let event := (makeEvent clock.made (lineResult line) peerIp s).1
  match parse line with
  | none => { event with fields := event.fields.insert (str "raw") line }
  | some result => { event with ts := tsFromFields clock.stamp result.fields }

/-- The calls that handling a line makes. -/
def lineCalls (clock : LogClock) (line peerIp : Str) (s : StateStore) : List StoreOp :=
  .nextEventId :: eventCalls clock (lineResult line) (lineEvent clock line peerIp s)

/-- **Handling a line is making its calls.** -/
theorem handleLog_state (clock : LogClock) (line peerIp : Str) (app : App) :
    (app.handleLog clock line peerIp).state =
      Runs.run StateStore.apply app.state (lineCalls clock line peerIp app.state) := by
  unfold handleLog lineCalls lineEvent lineResult
  cases hparse : parse line with
  | none =>
      simp only [publishUpdate_state, recordEvent_state]
      rfl
  | some result =>
      unfold applyParseResult
      rw [applyEvent_state]
      rfl

/-- A cleanup cycle makes one call. -/
theorem cleanupCycle_state (clock : CleanupClock) (app : App) :
    (app.cleanupCycle clock).state = app.state.cleanup clock.now := by
  unfold cleanupCycle
  simp only [publishUpdate_state]
  split <;> simp

/-- The calls of one step of the process. -/
def stepCalls (s : StateStore) : AppOp → List StoreOp
  | .handleLog clock line peerIp => lineCalls clock line peerIp s
  | .cleanup clock => [.cleanup clock.now]

/-- Every step of the service is its calls of the store. -/
theorem step_state (app : App) (op : AppOp) :
    (app.step op).state = Runs.run StateStore.apply app.state (stepCalls app.state op) := by
  cases op with
  | handleLog clock line peerIp => exact handleLog_state clock line peerIp app
  | cleanup clock => exact cleanupCycle_state clock app

/-- The calls of a run of the process. -/
def runCalls (s : StateStore) : List AppOp → List StoreOp
  | [] => []
  | op :: ops =>
      stepCalls s op ++ runCalls (Runs.run StateStore.apply s (stepCalls s op)) ops

/-- **The store of a running process** is the store after the calls of the run. -/
theorem run_state (app : App) (ops : List AppOp) :
    (Runs.run step app ops).state =
      Runs.run StateStore.apply app.state (runCalls app.state ops) := by
  induction ops generalizing app with
  | nil => rfl
  | cons op ops ih =>
      rw [Runs.run_cons, ih, runCalls, Runs.run_append, step_state]

end App

end Netmon
