import Netmon.StoreCalls
import Netmon.Retention
import Netmon.CleanupPass
import Netmon.EventReload

/-!
# The devices table over a run

Rows of the devices table are written from the records in memory and nothing deletes
them: retention works on events, attacks and traffic samples.  So the table holds a row
for every device that was in memory when it was written, also after the device has
expired or got another key, and grows with the number of devices ever seen.
-/

namespace Netmon

/-- A record in memory has the row key `k`. -/
def StateStore.InMemory (s : StateStore) (k : Str) : Prop :=
  ∃ d ∈ s.records, deviceKey d ≠ [] ∧ rowKey d = k

/-- What is in memory depends on the devices only. -/
theorem StateStore.inMemory_congr {s t : StateStore} (h : t.devicesByKey = s.devicesByKey)
    {k : Str} : t.InMemory k ↔ s.InMemory k := by
  unfold InMemory records
  rw [h]

namespace Database

/-- A row is written for every device that has a key. -/
theorem mem_upsertDevices {written : TimePoint} {devices : List DeviceState} {db : Database}
    {k : Str} :
    k ∈ (db.upsertDevices written devices).devices ↔
      k ∈ db.devices ∨ ∃ d ∈ devices, deviceKey d ≠ [] ∧ rowKey d = k := by
  induction devices generalizing db with
  | nil => simp [upsertDevices]
  | cons d devices ih =>
      have hstep : k ∈ (upsertDevice written db d).devices ↔
          k ∈ db.devices ∨ deviceKey d ≠ [] ∧ rowKey d = k := by
        rw [← AList.lookup_isSome, lookup_upsertDevice, ← AList.lookup_isSome]
        split
        · rename_i h
          simp [h]
        · rename_i h
          simp [h]
      show k ∈ ((upsertDevice written db d).upsertDevices written devices).devices ↔ _
      rw [ih, hstep, or_assoc]
      simp only [List.mem_cons, exists_eq_or_imp]

/-- The row of a key that no device has stays as it is. -/
theorem lookup_upsertDevices_of_other {written : TimePoint} {devices : List DeviceState}
    {k : Str} (h : ∀ d ∈ devices, deviceKey d ≠ [] → rowKey d ≠ k) (db : Database) :
    (db.upsertDevices written devices).devices.lookup k = db.devices.lookup k := by
  induction devices generalizing db with
  | nil => rfl
  | cons d devices ih =>
      have hrest := ih (fun e he => h e (List.mem_cons_of_mem d he)) (upsertDevice written db d)
      refine hrest.trans ?_
      rw [lookup_upsertDevice, if_neg fun hd => h d List.mem_cons_self hd.1 hd.2]

end Database

namespace App

/-! ## One step -/

/-- The devices table of `b` against that of `a`: no row is gone, and the row of a
device that is not in memory is as it was. -/
structure KeepsRows (a b : App) : Prop where
  config : b.config = a.config
  kept : ∀ k, k ∈ a.db.devices → k ∈ b.db.devices
  others : ∀ k, ¬ b.state.InMemory k → b.db.devices.lookup k = a.db.devices.lookup k

theorem KeepsRows.refl (app : App) : KeepsRows app app := ⟨rfl, fun _ h => h, fun _ _ => rfl⟩

/-- A part of a step that leaves the settings, the records and the rows alone. -/
theorem KeepsRows.same {a b c : App} (h : KeepsRows a b) (hconfig : c.config = b.config)
    (hrecords : c.state.devicesByKey = b.state.devicesByKey)
    (hrows : c.db.devices = b.db.devices) : KeepsRows a c where
  config := hconfig.trans h.config
  kept := hrows ▸ h.kept
  others := fun k hk => by
    rw [StateStore.inMemory_congr hrecords] at hk
    rw [hrows]
    exact h.others k hk

section

variable {a b : App}

theorem KeepsRows.publishUpdate (h : KeepsRows a b) (type : Str) :
    KeepsRows a (b.publishUpdate type) := h.same rfl rfl rfl

theorem KeepsRows.updateStats (h : KeepsRows a b) (f : RuntimeStats → RuntimeStats) :
    KeepsRows a (b.updateStats f) := h.same rfl rfl rfl

/-- A change of the store that leaves the devices alone keeps the rows. -/
theorem KeepsRows.updateState (h : KeepsRows a b) {f : StateStore → StateStore}
    (hf : (f b.state).devicesByKey = b.state.devicesByKey) : KeepsRows a (b.updateState f) :=
  h.same rfl hf rfl

/-- Writing an event keeps the device rows. -/
theorem KeepsRows.persistEvent (h : KeepsRows a b) (event : Event) :
    KeepsRows a (b.persistEvent event) := by
  unfold App.persistEvent
  split
  · exact h.same rfl rfl rfl
  · exact h

/-- Writing an attack keeps the device rows. -/
theorem KeepsRows.persistWANAttack (h : KeepsRows a b) (event : WANAttackEvent) :
    KeepsRows a (b.persistWANAttack event) := by
  unfold App.persistWANAttack
  split
  · exact h.same rfl rfl rfl
  · exact h

/-- Recording an event keeps the device rows. -/
theorem KeepsRows.recordEvent (h : KeepsRows a b) (clock : LogClock) (event : Event) :
    KeepsRows a (b.recordEvent clock event) :=
  (h.updateState (StateStore.addEvent_same _ _ _).devices).persistEvent event

end

/-- Writing the devices gives every device in memory its row and changes no other. -/
theorem persistDevices_rows (view written : TimePoint) (app : App) :
    KeepsRows app (app.persistDevices view written) ∧
      (sqliteEnabled app.config = true → ∀ k, app.state.InMemory k →
        k ∈ (app.persistDevices view written).db.devices) := by
  have hlisted : ∀ k, (∃ d ∈ app.state.devices view, deviceKey d ≠ [] ∧ rowKey d = k) ↔
      app.state.InMemory k := by
    intro k
    constructor
    · rintro ⟨d, hd, hkey, rfl⟩
      obtain ⟨r, hr, rfl⟩ := StateStore.mem_devices_iff.mp hd
      exact ⟨r, hr, hkey, rfl⟩
    · rintro ⟨r, hr, hkey, rfl⟩
      exact ⟨_, StateStore.mem_devices_iff.mpr ⟨r, hr, rfl⟩, hkey, rfl⟩
  unfold persistDevices
  split
  · refine ⟨⟨rfl, fun k hk => Database.mem_upsertDevices.mpr (Or.inl hk), fun k hk => ?_⟩,
      fun _ k hk => Database.mem_upsertDevices.mpr (Or.inr ((hlisted k).mpr hk))⟩
    refine Database.lookup_upsertDevices_of_other (fun d hd hkey heq => hk ?_) app.db
    exact (hlisted k).mp ⟨d, hd, hkey, heq⟩
  · rename_i hsqlite
    exact ⟨KeepsRows.refl app, fun h => absurd h hsqlite⟩

/-- The devices are written after the update of the store and before anything else
happens to it. -/
theorem KeepsRows.persisted {a b : App} (hconfig : b.config = a.config)
    (hrows : b.db.devices = a.db.devices) (view written : TimePoint) :
    KeepsRows a (b.persistDevices view written) := by
  have h := (persistDevices_rows view written b).1
  exact ⟨h.config.trans hconfig, hrows ▸ h.kept, hrows ▸ h.others⟩

/-- A notice about a device keeps the device rows. -/
theorem recordDevice_rows (clock : LogClock) (device : DeviceState) (event : Event) (app : App) :
    KeepsRows app (app.recordDevice clock device event) := by
  refine KeepsRows.publishUpdate (KeepsRows.persistEvent (KeepsRows.persisted ?_ ?_ _ _) _) _
  · rfl
  · rfl

/-- Whatever the type of the line, it deletes no row. -/
theorem applyEvent_rows (clock : LogClock) (result : ParseResult) (event : Event) (app : App) :
    KeepsRows app (app.applyEvent clock result event) := by
  have hstart := KeepsRows.refl app
  have heffect := applyEvent_effect clock result event app
  generalize app.applyEvent clock result event = after at heffect
  cases heffect with
  | device _ device e => exact recordDevice_rows clock _ _ app
  | traffic _ snapshot e =>
      refine ((KeepsRows.persisted ?_ ?_ clock.view clock.written).recordEvent clock
        _).publishUpdate _
      · unfold persistTraffic
        split <;> rfl
      · unfold persistTraffic
        split <;> rfl
  | event _ e => exact (hstart.recordEvent clock _).publishUpdate _
  | interface _ snapshot =>
      exact (hstart.updateState (StateStore.updateInterface_same _ _ _).devices).publishUpdate _
  | nothing => exact hstart
  | attack _ attack e =>
      refine KeepsRows.publishUpdate (KeepsRows.persistEvent (KeepsRows.persistWANAttack ?_ _) _) _
      refine KeepsRows.updateState (KeepsRows.updateStats ?_ _)
        (StateStore.addEvent_same _ _ _).devices
      exact hstart.updateState (StateStore.addWANAttack_same _ _ _ _).devices

/-- A line keeps the device rows. -/
theorem handleLog_rows (clock : LogClock) (line peerIp : Str) (app : App) :
    KeepsRows app (app.handleLog clock line peerIp) := by
  unfold handleLog
  cases parse line with
  | none =>
      refine KeepsRows.publishUpdate (KeepsRows.recordEvent ?_ clock _) _
      exact (KeepsRows.refl app).same rfl rfl rfl
  | some result =>
      have h := applyEvent_rows clock result
        { (makeEvent clock.made result peerIp app.state).1 with
          ts := tsFromFields clock.stamp result.fields }
        { app.updateStats (·.recordSyslogMessage result.type) with
          state := (makeEvent clock.made result peerIp app.state).2 }
      exact ⟨h.config, h.kept, h.others⟩

/-- Writing back the history and retention leave the devices table alone. -/
theorem cleanupCycle_devices (clock : CleanupClock) (app : App) :
    (app.cleanupCycle clock).config = app.config ∧
      (app.cleanupCycle clock).db.devices =
        ((app.updateState (·.cleanup clock.now)).persistDevices clock.view
          clock.written).db.devices := by
  have hinsert : ∀ (events : List Event) (db : Database), (events.foldl (fun db event =>
      db.insertEvent (preprocessEventForStorage event)) db).devices = db.devices := by
    intro events
    induction events with
    | nil => exact fun _ => rfl
    | cons event events ih => exact fun db => ih (db.insertEvent (preprocessEventForStorage event))
  have hhistory : ∀ b : App, b.persistRecentEvents.config = b.config ∧
      b.persistRecentEvents.db.devices = b.db.devices := by
    intro b
    unfold persistRecentEvents
    split
    · exact ⟨rfl, hinsert _ b.db⟩
    · exact ⟨rfl, rfl⟩
  have hwritten := (persistDevices_rows clock.view clock.written
    (app.updateState (·.cleanup clock.now))).1.config
  unfold cleanupCycle
  dsimp only
  split
  · exact ⟨(hhistory _).1.trans hwritten,
      (Database.shrinks_applyRetention _ _ _ _).devices.trans (hhistory _).2⟩
  · exact ⟨(hhistory _).1.trans hwritten, (hhistory _).2⟩

/-- **A cleanup cycle writes a row for every device in memory and deletes none.** -/
theorem cleanupCycle_rows (clock : CleanupClock) (app : App) :
    KeepsRows app (app.cleanupCycle clock) ∧
      (sqliteEnabled app.config = true → ∀ k, (app.cleanupCycle clock).state.InMemory k →
        k ∈ (app.cleanupCycle clock).db.devices) := by
  obtain ⟨hrows, hwritten⟩ := persistDevices_rows clock.view clock.written
    (app.updateState (·.cleanup clock.now))
  obtain ⟨hconfig, hdevices⟩ := cleanupCycle_devices clock app
  have hstate : (app.cleanupCycle clock).state = (app.updateState (·.cleanup clock.now)).state :=
    cleanupCycle_state clock app
  constructor
  · refine ⟨hconfig, fun k hk => ?_, fun k hk => ?_⟩
    · rw [hdevices]
      exact hrows.kept k hk
    · rw [hdevices]
      refine hrows.others k ?_
      rwa [persistDevices_state, ← hstate]
  · intro hsqlite k hk
    rw [hdevices]
    rw [hstate] at hk
    exact hwritten hsqlite k hk

/-- Every step keeps the device rows. -/
theorem step_rows (app : App) (op : AppOp) : KeepsRows app (app.step op) := by
  cases op with
  | handleLog clock line peerIp => exact handleLog_rows clock line peerIp app
  | cleanup clock => exact (cleanupCycle_rows clock app).1

/-! ## A run -/

/-- No run changes the configuration. -/
theorem run_app_config (app : App) (ops : List AppOp) :
    (Runs.run step app ops).config = app.config :=
  Runs.run_invariant (fun b : App => b.config = app.config)
    (fun b op h => (step_rows b op).config.trans h) rfl ops

/-- **No run deletes a row of the devices table.** -/
theorem rows_kept (app : App) (ops : List AppOp) :
    ∀ k, k ∈ app.db.devices → k ∈ (Runs.run step app ops).db.devices :=
  Runs.run_related (fun a b : App => ∀ k, k ∈ a.db.devices → k ∈ b.db.devices)
    (fun _ _ h => h) (fun hab hbc k hk => hbc k (hab k hk)) (fun b op => (step_rows b op).kept)
    app ops

/-- **Where rows come from.**  A row was in the table at the start, or its device was
in memory after some step. -/
theorem rows_origin (app : App) (ops : List AppOp) {k : Str} {row : DeviceRow}
    (hrow : (Runs.run step app ops).db.devices.lookup k = some row) :
    app.db.devices.lookup k = some row ∨
      ∃ before after, ops = before ++ after ∧ (Runs.run step app before).state.InMemory k := by
  induction ops using List.reverseRecOn generalizing row with
  | nil => exact Or.inl hrow
  | append_singleton ops op ih =>
      by_cases hmemory : (Runs.run step app (ops ++ [op])).state.InMemory k
      · exact Or.inr ⟨_, [], (List.append_nil _).symm, hmemory⟩
      · rw [Runs.run_concat] at hrow hmemory
        rw [(step_rows _ op).others k hmemory] at hrow
        rcases ih hrow with hstart | ⟨before, after, rfl, hseen⟩
        · exact Or.inl hstart
        · exact Or.inr ⟨before, after ++ [op], by rw [List.append_assoc], hseen⟩

/-- **The devices table of a run.**  In SQLite mode, after each cleanup cycle every device
in memory has a row, and every row belongs to a device that is or was in memory or is a row
of the start.  No step deletes a row: whatever comes later, with cleanup cycles or without,
a row that was there at any time is still there. -/
theorem device_rows_outlive_devices (app : App) (hsqlite : sqliteEnabled app.config = true)
    (before : List AppOp) (clock : CleanupClock) :
    let cleaned := Runs.run step app (before ++ [.cleanup clock])
    (∀ k, cleaned.state.InMemory k → k ∈ cleaned.db.devices) ∧
      (∀ k row, cleaned.db.devices.lookup k = some row →
        cleaned.state.InMemory k ∨
          (∃ earlier later, before = earlier ++ later ∧
            (Runs.run step app earlier).state.InMemory k) ∨
          app.db.devices.lookup k = some row) ∧
      ∀ earlier later k, k ∈ (Runs.run step app earlier).db.devices →
        k ∈ (Runs.run step app (earlier ++ later)).db.devices := by
  intro cleaned
  have hlast : cleaned = (Runs.run step app before).cleanupCycle clock :=
    Runs.run_concat step app before _
  refine ⟨fun k hk => ?_, fun k row hrow => ?_, fun earlier later k hk => ?_⟩
  · rw [hlast] at hk ⊢
    refine (cleanupCycle_rows clock _).2 ?_ k hk
    rwa [run_app_config]
  · by_cases hmemory : cleaned.state.InMemory k
    · exact Or.inl hmemory
    · rw [hlast] at hrow hmemory
      rw [(cleanupCycle_rows clock _).1.others k hmemory] at hrow
      exact Or.inr ((rows_origin app before hrow).symm)
  · rw [Runs.run_append]
    exact rows_kept _ later k hk

/-- A new process with an empty database. -/
def emptyProcess : App := { config := sqliteConfig, state := .init sqliteConfig, db := {} }

/-- A line about a device, with time 1000. -/
def deviceLine : AppOp :=
  .handleLog ⟨seconds 1000, seconds 1000, seconds 1000, seconds 1000, seconds 1000, seconds 1000,
    seconds 1000⟩ (str "NETDEV ts=1000 mac=aa:01 ip=10.0.0.5") []

/-- A line about another device, after eight days. -/
def otherDeviceLine : AppOp :=
  .handleLog ⟨seconds 692300, seconds 692300, seconds 692300, seconds 692300, seconds 692300,
    seconds 692300, seconds 692300⟩ (str "NETDEV ts=692300 mac=aa:02 ip=10.0.0.6") []

/-- The readings of a cleanup cycle eight days later. -/
def eightDaysLater : CleanupClock :=
  ⟨seconds 692200, seconds 692200, seconds 692200, seconds 692200, fun _ => 0⟩

/-- The row of a device outlives a cleanup cycle that removes the device, and the lines
after it. -/
theorem device_rows_outlive_devices_gone :
    str "mac:aa:01" ∈
      (Runs.run step emptyProcess
        ([deviceLine] ++ [.cleanup eightDaysLater, otherDeviceLine])).db.devices := by
  refine (device_rows_outlive_devices emptyProcess (by decide) [deviceLine]
    eightDaysLater).2.2 [deviceLine] [.cleanup eightDaysLater, otherDeviceLine] _ ?_
  decide +kernel

/-- A device is gone from memory eight days after its line.  Its row is still there,
although the last sighting is older than the retention time. -/
theorem stale_row_stays :
    let cleaned := Runs.run step emptyProcess [deviceLine, .cleanup eightDaysLater]
    cleaned.state.devicesByKey.keys = [] ∧
      (cleaned.db.devices.lookup (str "mac:aa:01")).map DeviceRow.lastSeen = some 1000 ∧
      1000 < Database.retentionCutoff cleaned.config eightDaysLater.retention := by
  decide +kernel

end App

end Netmon
