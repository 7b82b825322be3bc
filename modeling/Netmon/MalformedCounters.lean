import Netmon.AgeOut
import Netmon.RateHold
import Netmon.StoreCalls

/-!
# Counters that are no numbers

A traffic line carries two counters.  A counter whose text is no number is read as zero
and goes on as one: it looks like a counter that went down, so that the rates are
cleared, the zero becomes the point that the next line is compared with, and a row with
it is stored.  The module says exactly when such a line changes nothing
(`malformed_counters_iff`): when it does not carry both counters or names no device or
interface, or when what is stored already stands at what is read.
-/

namespace Netmon

namespace StateStore

/-! ## The traffic data of a store -/

/-- What a device's traffic is reported by. -/
def deviceCounters (d : DeviceState) : UInt64 × UInt64 × ℚ × ℚ :=
  (d.rxBytesTotal, d.txBytesTotal, d.rxRateBps, d.txRateBps)

/-- What an interface's traffic is reported by. -/
def interfaceCounters (i : InterfaceState) : UInt64 × UInt64 × ℚ × ℚ :=
  (i.rxBytesTotal, i.txBytesTotal, i.rxRateBps, i.txRateBps)

/-- Two stores agree on the totals and rates of every device and interface, and on the
points and reports that the next ones are compared with. -/
@[mk_iff]
structure TrafficUnchanged (s t : StateStore) : Prop where
  devices : ∀ k, deviceCounters (t.record k) = deviceCounters (s.record k)
  points : ∀ k, t.trafficPoints.getD k [] = s.trafficPoints.getD k []
  interfaces : ∀ name, interfaceCounters (t.interfacesByName.getD name {}) =
    interfaceCounters (s.interfacesByName.getD name {})
  snapshots : ∀ name, t.interfaceSnapshots.lookup name = s.interfaceSnapshots.lookup name

theorem TrafficUnchanged.refl (s : StateStore) : TrafficUnchanged s s :=
  ⟨fun _ => rfl, fun _ => rfl, fun _ => rfl, fun _ => rfl⟩

/-- Adding an event changes nothing of this. -/
theorem trafficUnchanged_addEvent {s t : StateStore} {now : TimePoint} {event : Event} :
    TrafficUnchanged s (t.addEvent now event) ↔ TrafficUnchanged s t := by
  have hsame := addEvent_same now event t
  have hinterfaces := addEvent_sameInterfaces now event t
  simp only [trafficUnchanged_iff, record, hsame.devices, hsame.points, hinterfaces.states,
    hinterfaces.snapshots]

/-! ## Devices -/

/-- A snapshot keeps the points and the rates: no points are kept at all, or it repeats the
counters of the point while the rates are recent or zero, or its counters grew in no
time. -/
def KeepsPoint (config : Config) (points : List TrafficSnapshot) (device : DeviceState)
    (current : TrafficSnapshot) : Prop :=
  (points = [] ∧ config.maxTrafficPointsPerDevice.toNat = 0) ∨
    ∃ last, points.getLast? = some last ∧
      (SameCounters current last ∧ (hasRecentRate config device current.ts = true ∨
          device.rxRateBps = 0 ∧ device.txRateBps = 0) ∨
        ¬ SameCounters current last ∧ ¬ CountersReset current last ∧ ¬ last.ts < current.ts)

/-- Counters that were reset are not the same. -/
theorem CountersReset.not_same {a b : TrafficSnapshot} (h : CountersReset a b) :
    ¬ SameCounters a b := fun hsame =>
  h.elim (fun hlt => UInt64.lt_irrefl _ (hsame.1 ▸ hlt)) fun hlt =>
    UInt64.lt_irrefl _ (hsame.2 ▸ hlt)

/-- A stored snapshot with other counters than the last point changes the points. -/
theorem storePoint_ne {config : Config} {points : List TrafficSnapshot}
    {current last : TrafficSnapshot} {decision : RateDecision} (hlast : points.getLast? = some last)
    (hstore : decision.shouldStorePoint = true) (hdiffers : ¬ SameCounters current last) :
    storePoint config points current decision ≠ points := by
  intro hsame
  by_cases hmax : config.maxTrafficPointsPerDevice.toNat = 0
  · rw [← hsame, storePoint_eq_nil hmax hstore] at hlast
    exact absurd hlast (by simp)
  · have hcurrent : (storePoint config points current decision).getLast? = some current :=
      storePoint_getLast? (Nat.one_le_iff_ne_zero.mpr hmax) hstore
    rw [hsame, hlast] at hcurrent
    cases hcurrent
    exact hdiffers ⟨rfl, rfl⟩

/-- **Exactly when a snapshot keeps the points and the rates.** -/
theorem keepsPoint_iff (config : Config) (points : List TrafficSnapshot) (device : DeviceState)
    (current : TrafficSnapshot) :
    let decision := decideRates config points device current
    (storePoint config points current decision = points ∧
      decision.rxRate = device.rxRateBps ∧ decision.txRate = device.txRateBps) ↔
        KeepsPoint config points device current := by
  intro decision
  have hstep := decideRates_step config points device current
  change RateStep config points device current decision at hstep
  clear_value decision
  have hlasts : ∀ {last : TrafficSnapshot}, points.getLast? = some last →
      (KeepsPoint config points device current ↔
        (SameCounters current last ∧ (hasRecentRate config device current.ts = true ∨
          device.rxRateBps = 0 ∧ device.txRateBps = 0) ∨
        ¬ SameCounters current last ∧ ¬ CountersReset current last ∧
          ¬ last.ts < current.ts)) := by
    intro last hlast
    have hne : points ≠ [] := by
      rintro rfl
      exact absurd hlast (by simp)
    unfold KeepsPoint
    rw [or_iff_right fun h => hne h.1]
    constructor
    · rintro ⟨other, hother, h⟩
      cases hlast.symm.trans hother
      exact h
    · exact fun h => ⟨last, hlast, h⟩
  cases hstep with
  | first hnone =>
      obtain rfl : points = [] := List.getLast?_eq_none_iff.mp hnone
      have hkept : KeepsPoint config [] device current ↔
          config.maxTrafficPointsPerDevice.toNat = 0 := by
        simp [KeepsPoint]
      rw [hkept, and_iff_left ⟨rfl, rfl⟩]
      constructor
      · intro hempty
        by_contra hmax
        have hcurrent : (storePoint config [] current
            ⟨device.rxRateBps, device.txRateBps, true, false⟩).getLast? = some current :=
          storePoint_getLast? (Nat.one_le_iff_ne_zero.mpr hmax) rfl
        rw [hempty] at hcurrent
        exact absurd hcurrent (by simp)
      · exact fun hmax => storePoint_eq_nil hmax rfl
  | reset hlast hreset =>
      have hdiffers := CountersReset.not_same hreset
      rw [hlasts hlast]
      refine iff_of_false (fun h => storePoint_ne hlast rfl hdiffers h.1) ?_
      rintro (⟨hsame, -⟩ | ⟨-, hno, -⟩)
      · exact hdiffers hsame
      · exact hno hreset
  | growth hlast hrx htx hgrew htime =>
      have hdiffers : ¬ SameCounters current _ := fun hsame =>
        CountersReset.not_same hgrew ⟨hsame.1.symm, hsame.2.symm⟩
      rw [hlasts hlast]
      refine iff_of_false (fun h => storePoint_ne hlast rfl hdiffers h.1) ?_
      rintro (⟨hsame, -⟩ | ⟨-, -, hno⟩)
      · exact hdiffers hsame
      · exact hno htime
  | stall hlast hreset hchanged htime =>
      rw [hlasts hlast]
      exact iff_of_true ⟨rfl, rfl, rfl⟩ (Or.inr ⟨not_and_or.mpr hchanged, hreset, htime⟩)
  | held hlast hrx htx hrecent =>
      rw [hlasts hlast]
      exact iff_of_true ⟨rfl, rfl, rfl⟩ (Or.inl ⟨⟨hrx, htx⟩, Or.inl hrecent⟩)
  | expired hlast hrx htx hrecent =>
      rw [hlasts hlast]
      constructor
      · rintro ⟨-, hrxRate, htxRate⟩
        exact Or.inl ⟨⟨hrx, htx⟩, Or.inr ⟨hrxRate.symm, htxRate.symm⟩⟩
      · rintro (⟨-, hrates⟩ | ⟨hdiffers, -, -⟩)
        · obtain ⟨hrxRate, htxRate⟩ := hrates.resolve_left hrecent
          exact ⟨rfl, hrxRate.symm, htxRate.symm⟩
        · exact absurd ⟨hrx, htx⟩ hdiffers

/-- The device of a snapshot stands at its counters, and the snapshot keeps its point. -/
def Absorbs (s : StateStore) (now : TimePoint) (snapshot : TrafficSnapshot) : Prop :=
  let key := s.resolveKey snapshot.mac snapshot.ip
  ((s.record key).rxBytesTotal = snapshot.rxBytes ∧
      (s.record key).txBytesTotal = snapshot.txBytes) ∧
    KeepsPoint s.config (s.trafficPoints.getD key []) (s.record key) (stampTraffic now snapshot)

/-- **Exactly when a snapshot changes no traffic data**: it names no device, or its device
absorbs it. -/
theorem trafficUnchanged_updateTraffic_iff (s : StateStore) (now : TimePoint)
    (snapshot : TrafficSnapshot) :
    TrafficUnchanged s (s.updateTraffic now snapshot) ↔
      (snapshot.mac = [] ∧ snapshot.ip = []) ∨ Absorbs s now snapshot := by
  have hinterfaces := updateTraffic_sameInterfaces now snapshot s
  rcases s.updateTraffic_cases now snapshot with
    ⟨hmac, hip, hsame⟩ | ⟨record, points, hkey, hrecord, hpoints, -, hdevices, -, htraffic⟩
  · rw [hsame]
    exact iff_of_true (.refl s) (Or.inl ⟨hmac, hip⟩)
  have hnone : ¬ (snapshot.mac = [] ∧ snapshot.ip = []) := by
    rintro ⟨hmac, hip⟩
    exact hkey (by rw [hmac, hip, resolveKey_nil_nil])
  rw [or_iff_right hnone, Absorbs]
  generalize s.resolveKey snapshot.mac snapshot.ip = key at *
  have hkeeps := keepsPoint_iff s.config (s.trafficPoints.getD key []) (s.record key)
    (stampTraffic now snapshot)
  change storePoint _ _ _ (decideRates _ _ (s.devicesByKey.getD key {}) _) = _ ∧ _ ↔ _ at hkeeps
  rw [← hpoints] at hkeeps
  have hafter : (s.updateTraffic now snapshot).record key = record := by
    rw [StateStore.record, AList.getD, hdevices, AList.lookup_insert]
    rfl
  have hpointsAfter : (s.updateTraffic now snapshot).trafficPoints.getD key [] = points := by
    rw [AList.getD, htraffic, AList.lookup_insert]
    rfl
  constructor
  · intro hsame
    have hcounters := hsame.devices key
    have hkept := hsame.points key
    rw [hafter, hrecord] at hcounters
    rw [hpointsAfter] at hkept
    simp only [deviceCounters, Prod.mk.injEq] at hcounters
    obtain ⟨hrx, htx, hrxRate, htxRate⟩ := hcounters
    exact ⟨⟨hrx.symm, htx.symm⟩, hkeeps.mp ⟨hkept, hrxRate, htxRate⟩⟩
  · rintro ⟨⟨hrx, htx⟩, hkept⟩
    obtain ⟨hsame, hrxRate, htxRate⟩ := hkeeps.mpr hkept
    refine ⟨fun k => ?_, fun k => ?_, fun name => by rw [hinterfaces.states],
      fun name => by rw [hinterfaces.snapshots]⟩
    · by_cases hk : k = key
      · rw [hk, hafter, hrecord]
        simp only [deviceCounters, Prod.mk.injEq]
        exact ⟨hrx.symm, htx.symm, hrxRate, htxRate⟩
      · rw [StateStore.record, AList.getD, hdevices, AList.lookup_insert_ne hk]
        rfl
    · by_cases hk : k = key
      · rw [hk, hpointsAfter, hsame]
      · rw [AList.getD, htraffic, AList.lookup_insert_ne hk]
        rfl

/-! ## Interfaces -/

/-- The interface of a report has reported the same at the same time, and its rates are
zero. -/
def InterfaceAbsorbs (s : StateStore) (now : TimePoint) (snapshot : InterfaceSnapshot) : Prop :=
  s.interfaceSnapshots.lookup snapshot.interfaceName = some (stampInterface now snapshot) ∧
    interfaceCounters (s.interfacesByName.getD snapshot.interfaceName {}) =
      (snapshot.rxBytes, snapshot.txBytes, 0, 0)

/-- **Exactly when a report changes no traffic data.** -/
theorem trafficUnchanged_updateInterface_iff (s : StateStore) (now : TimePoint)
    (snapshot : InterfaceSnapshot) :
    TrafficUnchanged s (s.updateInterface now snapshot) ↔
      snapshot.interfaceName = [] ∨ InterfaceAbsorbs s now snapshot := by
  by_cases hname : snapshot.interfaceName = []
  · have hsame : s.updateInterface now snapshot = s := by simp [updateInterface, hname]
    rw [hsame]
    exact iff_of_true (.refl s) (Or.inl hname)
  have htables := updateInterface_same now snapshot s
  obtain ⟨hstate, hreport⟩ := updateInterface_tables hname now s
  rw [or_iff_right hname, InterfaceAbsorbs]
  -- a report at the time of the one before it sets no rates
  have hcounters : s.interfaceSnapshots.lookup snapshot.interfaceName =
        some (stampInterface now snapshot) →
      interfaceCounters ((s.updateInterface now snapshot).interfacesByName.getD
        snapshot.interfaceName {}) = (snapshot.rxBytes, snapshot.txBytes, 0, 0) := by
    intro hlast
    rw [AList.getD, hstate, AList.lookup_insert, hlast, interfaceRates_again]
    rfl
  constructor
  · intro hsame
    have hlast := hsame.snapshots snapshot.interfaceName
    rw [hreport, AList.lookup_insert] at hlast
    exact ⟨hlast.symm, (hsame.interfaces _).symm.trans (hcounters hlast.symm)⟩
  · rintro ⟨hlast, hsame⟩
    refine ⟨fun k => by rw [record, record, htables.devices], fun k => by rw [htables.points],
      fun name => ?_, fun name => ?_⟩
    · by_cases hn : name = snapshot.interfaceName
      · rw [hn, hcounters hlast, hsame]
      · rw [AList.getD, hstate, AList.lookup_insert_ne hn]
        rfl
    · rw [hreport]
      by_cases hn : name = snapshot.interfaceName
      · rw [hn, AList.lookup_insert, hlast]
      · rw [AList.lookup_insert_ne hn]

end StateStore

namespace App

/-! ## Lines -/

/-- The snapshot of a traffic line. -/
def trafficOf (ts : TimePoint) (fields : StrMap Str) : TrafficSnapshot :=
  { mac := fields.getD (str "mac") []
    ip := fields.getD (str "ip") []
    ts := ts
    rxBytes := parseUint64 (fields.getD (str "rx_bytes") []) 0
    txBytes := parseUint64 (fields.getD (str "tx_bytes") []) 0 }

/-- The report of an interface line. -/
def interfaceOf (ts : TimePoint) (fields : StrMap Str) : InterfaceSnapshot :=
  { interfaceName := fields.getD (str "interface") (fields.getD (str "if")
      (fields.getD (str "iface") []))
    ts := ts
    rxBytes := parseUint64 (fields.getD (str "rx_bytes") []) 0
    txBytes := parseUint64 (fields.getD (str "tx_bytes") []) 0 }

/-- The line carries both counters. -/
def HasCounters (fields : StrMap Str) : Prop := str "rx_bytes" ∈ fields ∧ str "tx_bytes" ∈ fields

instance (fields : StrMap Str) : Decidable (HasCounters fields) :=
  inferInstanceAs (Decidable (_ ∧ _))

/-- A line with a counter that is no decimal number below 2^64. -/
def Malformed (fields : StrMap Str) : Prop :=
  (∃ text, fields.lookup (str "rx_bytes") = some text ∧ ∀ n, ¬ ParsesAs text n) ∨
    ∃ text, fields.lookup (str "tx_bytes") = some text ∧ ∀ n, ¬ ParsesAs text n

/-- Such a counter is read as zero. -/
theorem Malformed.read_zero {fields : StrMap Str} (h : Malformed fields) :
    parseUint64 (fields.getD (str "rx_bytes") []) 0 = 0 ∨
      parseUint64 (fields.getD (str "tx_bytes") []) 0 = 0 := by
  have hread : ∀ {name text : Str}, fields.lookup name = some text → (∀ n, ¬ ParsesAs text n) →
      parseUint64 (fields.getD name []) 0 = 0 := by
    intro name text htext hbad
    rw [AList.getD, htext]
    exact parseUint64_of_not_parses hbad 0
  rcases h with ⟨text, htext, hbad⟩ | ⟨text, htext, hbad⟩
  · exact Or.inl (hread htext hbad)
  · exact Or.inr (hread htext hbad)

/-- Writing devices leaves the samples alone. -/
theorem upsertDevices_samples (now : TimePoint) (devices : List DeviceState) (db : Database) :
    (db.upsertDevices now devices).trafficSamples = db.trafficSamples := by
  refine Runs.run_related (fun a b : Database => b.trafficSamples = a.trafficSamples)
    (fun _ => rfl) (fun hst htu => htu.trans hst) (fun db device => ?_) db devices
  unfold Database.upsertDevice
  split
  · rfl
  · rfl

/-- Persisting devices leaves the samples alone. -/
theorem persistDevices_samples (view written : TimePoint) (app : App) :
    (app.persistDevices view written).db.trafficSamples = app.db.trafficSamples := by
  unfold persistDevices
  split
  · exact upsertDevices_samples written _ app.db
  · rfl

/-- Recording an event leaves the samples alone. -/
theorem recordEvent_samples (clock : LogClock) (event : Event) (app : App) :
    (app.recordEvent clock event).db.trafficSamples = app.db.trafficSamples := by
  unfold recordEvent persistEvent
  split
  · rfl
  · rfl

/-- Storing a snapshot adds a row, where rows are stored. -/
theorem persistTraffic_samples_iff (snapshot : TrafficSnapshot) (app : App) :
    (app.persistTraffic snapshot).db.trafficSamples = app.db.trafficSamples ↔
      sqliteEnabled app.config = false := by
  unfold persistTraffic
  by_cases hsqlite : sqliteEnabled app.config = true
  · rw [if_pos hsqlite]
    simp [Database.insertTraffic, hsqlite]
  · rw [if_neg hsqlite]
    exact iff_of_true rfl (Bool.not_eq_true _ ▸ hsqlite)

/-- The line changes no totals, rates or baselines and stores no sample. -/
def ChangesNothing (app after : App) : Prop :=
  StateStore.TrafficUnchanged app.state after.state ∧
    after.db.trafficSamples = app.db.trafficSamples

/-- What is stored already stands at what the line reads: it does not carry both counters,
or names no device or interface, or its device or interface absorbs it; and a traffic line
finds the database off. -/
def StandsAt (app : App) (clock : LogClock) (result : ParseResult) : Prop :=
  ¬ HasCounters result.fields ∨
    (result.type = str "nettraffic" ∧ sqliteEnabled app.config = false ∧
      let snapshot := trafficOf (tsFromFields clock.stamp result.fields) result.fields
      (snapshot.mac = [] ∧ snapshot.ip = [] ∨ app.state.Absorbs clock.update snapshot)) ∨
    (result.type = str "netiface" ∧
      let snapshot := interfaceOf (tsFromFields clock.stamp result.fields) result.fields
      (snapshot.interfaceName = [] ∨ app.state.InterfaceAbsorbs clock.update snapshot))

/-- The calls of a traffic line. -/
theorem eventCalls_of_traffic (clock : LogClock) {result : ParseResult}
    (htype : result.type = str "nettraffic") (event : Event) :
    ∃ e, eventCalls clock result event =
      (if HasCounters result.fields then
        [.updateTraffic clock.update (trafficOf event.ts result.fields)] else []) ++
          [.addEvent clock.event e] := by
  unfold eventCalls
  dsimp only
  rw [htype, if_neg (by decide), if_neg (by decide), if_pos rfl]
  by_cases hcounters : str "rx_bytes" ∈ result.fields ∧ str "tx_bytes" ∈ result.fields
  · rw [if_pos hcounters, if_pos (show HasCounters result.fields from hcounters)]
    exact ⟨_, rfl⟩
  · rw [if_neg hcounters, if_neg (show ¬ HasCounters result.fields from hcounters)]
    exact ⟨_, rfl⟩

/-- The calls of an interface line. -/
theorem eventCalls_of_interface (clock : LogClock) {result : ParseResult}
    (htype : result.type = str "netiface") (event : Event) :
    eventCalls clock result event =
      if HasCounters result.fields then
        [.updateInterface clock.update (interfaceOf event.ts result.fields)] else [] := by
  unfold eventCalls HasCounters
  dsimp only
  rw [htype, if_neg (by decide), if_neg (by decide), if_neg (by decide), if_pos rfl]
  rfl

/-- What the calls of a line do to a store, up to its next event id. -/
theorem handleLog_state_of_parse {line : Str} {result : ParseResult}
    (hparse : parse line = some result) (clock : LogClock) (peerIp : Str) (app : App) :
    ∃ event : Event, event.ts = tsFromFields clock.stamp result.fields ∧
      (app.handleLog clock line peerIp).state =
        Runs.run StateStore.apply app.state.nextEventId.2 (eventCalls clock result event) := by
  refine ⟨lineEvent clock line peerIp app.state, ?_, ?_⟩
  · rw [lineEvent, hparse]
  · rw [handleLog_state, lineCalls, lineResult, hparse]
    rfl

/-- Giving an id changes no traffic. -/
theorem trafficUnchanged_nextEventId {s t : StateStore} :
    StateStore.TrafficUnchanged s.nextEventId.2 t ↔ StateStore.TrafficUnchanged s t := by
  rw [StateStore.trafficUnchanged_iff, StateStore.trafficUnchanged_iff]
  rfl

/-- A traffic line with counters stores a sample, where samples are stored. -/
theorem applyEvent_samples_iff {clock : LogClock} {result : ParseResult}
    (htype : result.type = str "nettraffic") (event : Event) (app : App) :
    (app.applyEvent clock result event).db.trafficSamples = app.db.trafficSamples ↔
      (HasCounters result.fields → sqliteEnabled app.config = false) := by
  unfold applyEvent
  dsimp only
  rw [htype, if_neg (by decide), if_neg (by decide), if_pos rfl]
  by_cases hcounters : str "rx_bytes" ∈ result.fields ∧ str "tx_bytes" ∈ result.fields
  · rw [if_pos hcounters, publishUpdate, recordEvent_samples, persistDevices_samples,
      imp_iff_right (show HasCounters result.fields from hcounters)]
    exact persistTraffic_samples_iff _ (app.updateState _)
  · rw [if_neg hcounters, publishUpdate, recordEvent_samples]
    exact iff_of_true rfl fun h => absurd h hcounters

/-- An interface line stores none. -/
theorem applyEvent_samples_of_interface {clock : LogClock} {result : ParseResult}
    (htype : result.type = str "netiface") (event : Event) (app : App) :
    (app.applyEvent clock result event).db.trafficSamples = app.db.trafficSamples := by
  unfold applyEvent
  dsimp only
  rw [htype, if_neg (by decide), if_neg (by decide), if_neg (by decide), if_pos rfl]
  split
  · rfl
  · rfl

/-- Exactly when a traffic line changes nothing. -/
theorem changesNothing_of_traffic {line : Str} {result : ParseResult}
    (hparse : parse line = some result) (htype : result.type = str "nettraffic")
    (clock : LogClock) (peerIp : Str) (app : App) :
    ChangesNothing app (app.handleLog clock line peerIp) ↔ StandsAt app clock result := by
  have hsamples : (app.handleLog clock line peerIp).db.trafficSamples = app.db.trafficSamples ↔
      (HasCounters result.fields → sqliteEnabled app.config = false) := by
    rw [handleLog, hparse]
    exact applyEvent_samples_iff htype _ _
  obtain ⟨event, hts, hstate⟩ := handleLog_state_of_parse hparse clock peerIp app
  obtain ⟨e, hcalls⟩ := eventCalls_of_traffic clock htype event
  have hother : ¬ (result.type = str "netiface") := by
    rw [htype]
    decide
  unfold ChangesNothing StandsAt
  rw [hstate, hsamples, hcalls, hts, Runs.run_concat]
  by_cases hcounters : HasCounters result.fields
  · rw [if_pos hcounters, imp_iff_right hcounters]
    have hupdate := StateStore.trafficUnchanged_updateTraffic_iff app.state.nextEventId.2
      clock.update (trafficOf (tsFromFields clock.stamp result.fields) result.fields)
    rw [trafficUnchanged_nextEventId] at hupdate
    refine (and_congr_left' (StateStore.trafficUnchanged_addEvent.trans hupdate)).trans ?_
    constructor
    · rintro ⟨hstands, hoff⟩
      exact Or.inr (Or.inl ⟨htype, hoff, hstands⟩)
    · rintro (hno | ⟨-, hoff, hstands⟩ | ⟨hiface, -⟩)
      · exact absurd hcounters hno
      · exact ⟨hstands, hoff⟩
      · exact absurd hiface hother
  · rw [if_neg hcounters]
    refine iff_of_true ⟨?_, fun h => absurd h hcounters⟩ (Or.inl hcounters)
    exact StateStore.trafficUnchanged_addEvent.mpr (trafficUnchanged_nextEventId.mp (.refl _))

/-- Exactly when an interface line changes nothing. -/
theorem changesNothing_of_interface {line : Str} {result : ParseResult}
    (hparse : parse line = some result) (htype : result.type = str "netiface")
    (clock : LogClock) (peerIp : Str) (app : App) :
    ChangesNothing app (app.handleLog clock line peerIp) ↔ StandsAt app clock result := by
  have hsamples : (app.handleLog clock line peerIp).db.trafficSamples = app.db.trafficSamples := by
    rw [handleLog, hparse]
    exact applyEvent_samples_of_interface htype _ _
  obtain ⟨event, hts, hstate⟩ := handleLog_state_of_parse hparse clock peerIp app
  have hcalls := eventCalls_of_interface clock htype event
  have hother : ¬ (result.type = str "nettraffic") := by
    rw [htype]
    decide
  unfold ChangesNothing StandsAt
  rw [hstate, and_iff_left hsamples, hcalls, hts]
  by_cases hcounters : HasCounters result.fields
  · rw [if_pos hcounters]
    have hupdate := StateStore.trafficUnchanged_updateInterface_iff app.state.nextEventId.2
      clock.update (interfaceOf (tsFromFields clock.stamp result.fields) result.fields)
    rw [trafficUnchanged_nextEventId] at hupdate
    refine Iff.trans hupdate ?_
    constructor
    · exact fun hstands => Or.inr (Or.inr ⟨htype, hstands⟩)
    · rintro (hno | ⟨htraffic, -⟩ | ⟨-, hstands⟩)
      · exact absurd hcounters hno
      · exact absurd htraffic hother
      · exact hstands
  · rw [if_neg hcounters]
    exact iff_of_true (trafficUnchanged_nextEventId.mp (.refl _)) (Or.inl hcounters)

/-- **Exactly when a malformed counter changes nothing.**  A counter that is no number is
read as zero.  The line leaves the totals, rates and baselines of every device and
interface and stores no sample if and only if what is stored stands at what is read. -/
theorem malformed_counters_iff {line : Str} {result : ParseResult}
    (hparse : parse line = some result)
    (htype : result.type = str "nettraffic" ∨ result.type = str "netiface")
    (hbad : Malformed result.fields) (clock : LogClock) (peerIp : Str) (app : App) :
    (parseUint64 (result.fields.getD (str "rx_bytes") []) 0 = 0 ∨
        parseUint64 (result.fields.getD (str "tx_bytes") []) 0 = 0) ∧
      (ChangesNothing app (app.handleLog clock line peerIp) ↔ StandsAt app clock result) := by
  refine ⟨hbad.read_zero, ?_⟩
  rcases htype with htraffic | hiface
  · exact changesNothing_of_traffic hparse htraffic clock peerIp app
  · exact changesNothing_of_interface hparse hiface clock peerIp app

/-- A clock that stands at a second. -/
def clockAt (second : Int) : LogClock :=
  ⟨seconds second, seconds second, seconds second, seconds second, seconds second,
    seconds second, seconds second⟩

/-- A process with a database, after one line of a device. -/
def oneSample : App :=
  ({ config := { storageMode := str "sqlite" }, state := .init {}, db := {} } : App).handleLog
    (clockAt 100) (str "NETTRAFFIC mac=aa:01 rx_bytes=1000 tx_bytes=10 ts=100") (str "10.0.0.1")

/-- The next line of that device has a counter that is no number. -/
def brokenLine : Str := str "NETTRAFFIC mac=aa:01 rx_bytes=oops tx_bytes=20 ts=160"

def brokenResult : ParseResult := lineResult brokenLine

/-- The total falls to zero, the zero becomes the baseline and a row with it is stored. -/
theorem broken_counter_resets :
    (parse brokenLine).isSome ∧ brokenResult.type = str "nettraffic" ∧
      Malformed brokenResult.fields ∧
      (oneSample.state.record (macKey (str "aa:01"))).rxBytesTotal = 1000 ∧
      (let after := oneSample.handleLog (clockAt 160) brokenLine (str "10.0.0.1");
        (after.state.record (macKey (str "aa:01"))).rxBytesTotal = 0 ∧
        (after.state.storedPoint (macKey (str "aa:01"))).map (fun p => p.rxBytes) = some 0 ∧
        after.db.trafficSamples.length = oneSample.db.trafficSamples.length + 1) := by
  have htext : brokenResult.fields.lookup (str "rx_bytes") = some (str "oops") := by
    decide +kernel
  have hbad : ∀ n, ¬ ParsesAs (str "oops") n := fun n h => absurd h.2.1 (by decide)
  exact ⟨by decide +kernel, by decide +kernel, Or.inl ⟨_, htext, hbad⟩, by decide +kernel,
    by decide +kernel, by decide +kernel, by decide +kernel⟩

/-- A line with only one counter. -/
def halfLine : Str := str "NETTRAFFIC mac=aa:01 rx_bytes=oops ts=160"

/-- It changes nothing. -/
theorem malformed_counters_half :
    ChangesNothing oneSample (oneSample.handleLog (clockAt 160) halfLine (str "10.0.0.1")) := by
  have hparse : parse halfLine = some (lineResult halfLine) := by
    unfold lineResult
    cases hsome : parse halfLine with
    | none => exact absurd (congrArg Option.isSome hsome) (by decide +kernel)
    | some result => rfl
  have htext : (lineResult halfLine).fields.lookup (str "rx_bytes") = some (str "oops") := by
    decide +kernel
  have hbad : ∀ n, ¬ ParsesAs (str "oops") n := fun n h => absurd h.2.1 (by decide)
  exact (malformed_counters_iff hparse (by decide +kernel) (Or.inl ⟨_, htext, hbad⟩) (clockAt 160)
    (str "10.0.0.1") oneSample).2.mpr (Or.inl (by decide +kernel))

end App

end Netmon
