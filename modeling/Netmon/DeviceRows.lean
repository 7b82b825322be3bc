import Netmon.Database
import Netmon.KeysLinked

/-!
# Records and their rows

A row of the devices table is written for a record under the key of its MAC or
address, with the status that the record had when the snapshot was taken.  The
status apart, a list of devices is a table of values by row key (`valueAt`); this
file says what `devices()` and `upsertDevices` do to such tables, and that no
call on the store moves the last sighting of a record back.
-/

namespace Netmon

/-! ## Rows and records -/

/-- The key of the row of a device. -/
def rowKey (device : DeviceState) : Str := cString (deviceKey device)

/-- The record without its status, which a snapshot computes anew. -/
def plain (device : DeviceState) : DeviceState := { device with status := .unknown }

@[simp] theorem deviceKey_plain (device : DeviceState) :
    deviceKey (plain device) = deviceKey device := rfl

@[simp] theorem rowKey_plain (device : DeviceState) : rowKey (plain device) = rowKey device := rfl

/-- The row of a record, with the status of the time of the snapshot and the time
of writing. -/
def rowAt (config : Config) (clock : TimePoint × TimePoint) (device : DeviceState) : DeviceRow :=
  deviceRow clock.2 { device with status := statusFor config device clock.1 }

/-- The row of a record does not depend on its old status. -/
theorem rowAt_plain (config : Config) (clock : TimePoint × TimePoint) (device : DeviceState) :
    rowAt config clock (plain device) = rowAt config clock device := rfl

/-- Two records with one row key are the same up to their status. -/
def OneEach (devices : List DeviceState) : Prop :=
  ∀ d ∈ devices, ∀ d' ∈ devices, deviceKey d ≠ [] → deviceKey d' ≠ [] →
    rowKey d = rowKey d' → plain d = plain d'

instance (devices : List DeviceState) : Decidable (OneEach devices) :=
  inferInstanceAs (Decidable (∀ d ∈ devices, ∀ d' ∈ devices, deviceKey d ≠ [] →
    deviceKey d' ≠ [] → rowKey d = rowKey d' → plain d = plain d'))

/-- The record with a row key in a list of devices. -/
def valueAt (devices : List DeviceState) (k : Str) : Option DeviceState :=
  (devices.find? fun d => deviceKey d ≠ [] ∧ rowKey d = k).map plain

/-- With one record for each row key, the value there is that record. -/
theorem valueAt_eq_some_iff {devices : List DeviceState} (h : OneEach devices) {k : Str}
    {v : DeviceState} :
    valueAt devices k = some v ↔
      ∃ d ∈ devices, deviceKey d ≠ [] ∧ rowKey d = k ∧ plain d = v := by
  unfold valueAt
  constructor
  · intro hv
    obtain ⟨d, hfind, rfl⟩ := Option.map_eq_some_iff.mp hv
    have hd := List.find?_some hfind
    rw [decide_eq_true_eq] at hd
    exact ⟨d, List.mem_of_find?_eq_some hfind, hd.1, hd.2, rfl⟩
  · rintro ⟨d, hd, hkey, rfl, rfl⟩
    obtain ⟨e, he⟩ := Option.isSome_iff_exists.mp (List.find?_isSome.mpr
      ⟨d, hd, by simpa using hkey⟩ :
        (devices.find? fun e => deviceKey e ≠ [] ∧ rowKey e = rowKey d).isSome = true)
    have hfound := List.find?_some he
    rw [decide_eq_true_eq] at hfound
    rw [he, Option.map_some,
      h e (List.mem_of_find?_eq_some he) d hd hfound.1 hkey hfound.2]

/-- A list with all the records of another has its values. -/
theorem valueAt_of_subset {devices devices' : List DeviceState} (h : OneEach devices)
    (h' : OneEach devices') (hsub : ∀ d ∈ devices, ∃ d' ∈ devices', plain d' = plain d)
    {k : Str} {v : DeviceState} (hv : valueAt devices k = some v) :
    valueAt devices' k = some v := by
  obtain ⟨d, hd, hkey, hrow, rfl⟩ := (valueAt_eq_some_iff h).mp hv
  obtain ⟨d', hd', hplain⟩ := hsub d hd
  refine (valueAt_eq_some_iff h').mpr ⟨d', hd', ?_, ?_, hplain⟩
  · rwa [← deviceKey_plain, hplain, deviceKey_plain]
  · rw [← rowKey_plain, hplain, rowKey_plain, hrow]

/-- The first record with the key counts. -/
theorem valueAt_cons (d : DeviceState) (devices : List DeviceState) (k : Str) :
    valueAt (d :: devices) k =
      if deviceKey d ≠ [] ∧ rowKey d = k then some (plain d) else valueAt devices k := by
  unfold valueAt
  rw [List.find?_cons]
  by_cases h : deviceKey d ≠ [] ∧ rowKey d = k
  · simp only [h, ne_eq, not_false_eq_true, and_self, decide_true, if_true, Option.map_some]
  · simp only [h, decide_false, if_false]

/-- Writing a device changes the row under its key only. -/
theorem lookup_upsertDevice (written : TimePoint) (db : Database) (d : DeviceState) (k : Str) :
    (Database.upsertDevice written db d).devices.lookup k =
      if deviceKey d ≠ [] ∧ rowKey d = k then some (deviceRow written d)
      else db.devices.lookup k := by
  unfold Database.upsertDevice
  by_cases hkey : deviceKey d = []
  · simp [hkey]
  · rw [if_neg hkey]
    show (db.devices.insert (rowKey d) (deviceRow written d)).lookup k = _
    rw [AList.lookup_insert_if]
    simp [hkey, eq_comm]

/-- **What `upsertDevices` writes.**  The rows of the devices with a key, and
nothing else. -/
theorem lookup_upsertDevices {config : Config} {view : TimePoint} {devices : List DeviceState}
    (h : OneEach devices) (hstatus : ∀ d ∈ devices, d.status = statusFor config d view)
    (written : TimePoint) (db : Database) (k : Str) :
    (db.upsertDevices written devices).devices.lookup k =
      ((valueAt devices k).map (rowAt config (view, written))).or (db.devices.lookup k) := by
  induction devices generalizing db with
  | nil => rfl
  | cons d devices ih =>
      have hrest : OneEach devices := fun a ha b hb =>
        h a (List.mem_cons_of_mem d ha) b (List.mem_cons_of_mem d hb)
      have hrow : rowAt config (view, written) (plain d) = deviceRow written d := by
        rw [rowAt_plain, rowAt, ← hstatus d List.mem_cons_self]
      show ((Database.upsertDevice written db d).upsertDevices written devices).devices.lookup k = _
      rw [ih hrest fun a ha => hstatus a (List.mem_cons_of_mem d ha), lookup_upsertDevice,
        valueAt_cons]
      by_cases hd : deviceKey d ≠ [] ∧ rowKey d = k
      · rw [if_pos hd, if_pos hd, Option.map_some, Option.some_or, hrow]
        cases hv : valueAt devices k with
        | none => rfl
        | some v =>
            -- a later record with the same row key is the same record
            obtain ⟨e, he, hkey, hek, rfl⟩ := (valueAt_eq_some_iff hrest).mp hv
            rw [h e (List.mem_cons_of_mem d he) d List.mem_cons_self hkey hd.1
              (hek.trans hd.2.symm), Option.map_some, Option.some_or, hrow]
      · rw [if_neg hd, if_neg hd]

/-! ## What a call does to the times -/

/-- A record that was seen is not seen earlier after the merge. -/
theorem le_mergeDeviceLocked_lastSeen {config : Config} {current incoming : DeviceState}
    {now : TimePoint} (h : current.lastSeen ≠ 0) :
    current.lastSeen ≤ (mergeDeviceLocked config current incoming now).lastSeen := by
  simp only [mergeDeviceLocked, h, false_or]
  generalize (if incoming.lastSeen = 0 then now else incoming.lastSeen) = incomingSeen
  split
  · exact le_of_lt ‹_›
  · exact le_refl _

namespace StateStore

@[simp] theorem sweepDevice_lastSeen (config : Config) (now : TimePoint) (device : DeviceState) :
    (sweepDevice config now device).lastSeen = device.lastSeen := by
  unfold sweepDevice
  split <;> rfl

/-- The records of the store, in the order of its table. -/
def records (s : StateStore) : List DeviceState := s.devicesByKey.entries.map Sigma.snd

/-- The records are those under some key. -/
theorem mem_records_iff {s : StateStore} {d : DeviceState} :
    d ∈ s.records ↔ ∃ k, s.devicesByKey.lookup k = some d := by
  unfold records
  rw [List.mem_map]
  constructor
  · rintro ⟨⟨k, d⟩, he, rfl⟩
    exact ⟨k, AList.mem_entries_iff.mp he⟩
  · rintro ⟨k, hk⟩
    exact ⟨⟨k, d⟩, AList.mem_entries_iff.mpr hk, rfl⟩

/-- One record is written under `key`; it stems from the record of `origin`, if
there is one, and every other record stays. -/
structure Writes (devices devices' : StrMap DeviceState) (origin key : Str)
    (record : DeviceState) : Prop where
  here : devices'.lookup key = some record
  rest : ∀ k ≠ key, ∀ d, devices'.lookup k = some d → devices.lookup k = some d
  stays : ∀ k ≠ origin, ∀ d, devices.lookup k = some d → devices'.lookup k = some d
  rises : ∀ d, devices.lookup origin = some d → d.lastSeen ≠ 0 → d.lastSeen ≤ record.lastSeen

/-- A record that is written in its place. -/
theorem writes_insert {devices : StrMap DeviceState} {key : Str} {record : DeviceState}
    (h : (devices.getD key {}).lastSeen ≠ 0 →
      (devices.getD key {}).lastSeen ≤ record.lastSeen) :
    Writes devices (devices.insert key record) key key record where
  here := AList.lookup_insert devices
  rest k hk d hd := by rwa [AList.lookup_insert_ne hk] at hd
  stays k hk d hd := by rwa [AList.lookup_insert_ne hk]
  rises d hd := by simpa [AList.getD, hd] using h

/-- A record that is moved to a free key. -/
theorem writes_move {devices : StrMap DeviceState} {origin key : Str} {node record : DeviceState}
    (hnode : devices.lookup origin = some node) (hfree : key ∉ devices)
    (h : node.lastSeen ≠ 0 → node.lastSeen ≤ record.lastSeen) :
    Writes devices ((devices.erase origin).insert key record) origin key record where
  here := AList.lookup_insert _
  rest k hk d hd := by
    rw [AList.lookup_insert_ne hk, AList.lookup_erase_if] at hd
    split at hd
    · exact absurd hd (by simp)
    · exact hd
  stays k hk d hd := by
    have hne : k ≠ key := fun heq => hfree (heq ▸ AList.mem_of_lookup hd)
    rwa [AList.lookup_insert_ne hne, AList.lookup_erase_ne hk]
  rises d hd := by
    rw [hnode] at hd
    cases hd
    exact h

/-- **What a call does to the records.**  It leaves them alone, writes one, or
sweeps them. -/
theorem apply_records (s : StateStore) (op : StoreOp) :
    (s.apply op).config = s.config ∧
      ((s.apply op).devicesByKey = s.devicesByKey ∨
        (∃ origin key record,
          Writes s.devicesByKey (s.apply op).devicesByKey origin key record) ∨
        ∃ now, ∀ k d', (s.apply op).devicesByKey.lookup k = some d' →
          ∃ d, s.devicesByKey.lookup k = some d ∧ d' = sweepDevice s.config now d) := by
  cases op with
  | updateDevice now device =>
      rcases s.updateDevice_cases now device with
        ⟨-, hsame⟩ | ⟨record, -, -, hrecord, hconfig, hdevices, -, -⟩ |
          ⟨node, record, hmove, hnode, hrecord, hconfig, hdevices, -, -⟩
      · exact ⟨congrArg config hsame, Or.inl (congrArg devicesByKey hsame)⟩
      · refine ⟨hconfig, Or.inr (Or.inl ?_)⟩
        rw [apply, hdevices]
        exact ⟨_, _, record, writes_insert fun hseen =>
          hrecord ▸ le_mergeDeviceLocked_lastSeen hseen⟩
      · refine ⟨hconfig, Or.inr (Or.inl ?_)⟩
        rw [apply, hdevices]
        exact ⟨_, _, record, writes_move hnode hmove.macKey_free fun hseen =>
          hrecord ▸ le_mergeDeviceLocked_lastSeen hseen⟩
  | updateTraffic now snapshot =>
      rcases s.updateTraffic_cases now snapshot with
        ⟨-, -, hsame⟩ | ⟨record, points, -, hrecord, -, hconfig, hdevices, -, -⟩
      · exact ⟨congrArg config hsame, Or.inl (congrArg devicesByKey hsame)⟩
      · refine ⟨hconfig, Or.inr (Or.inl ?_)⟩
        rw [apply, hdevices]
        exact ⟨_, _, record, writes_insert fun _ => hrecord ▸ le_max_left _ _⟩
  | updateInterface now snapshot =>
      have hsame := updateInterface_same now snapshot s
      exact ⟨hsame.config, Or.inl hsame.devices⟩
  | addEvent now event =>
      have hsame := addEvent_same now event s
      exact ⟨hsame.config, Or.inl hsame.devices⟩
  | addWANAttack now later event =>
      have hsame := addWANAttack_same now later event s
      exact ⟨hsame.config, Or.inl hsame.devices⟩
  | nextEventId => exact ⟨rfl, Or.inl rfl⟩
  | cleanup now =>
      obtain ⟨hconfig, hdevices, -, -⟩ := s.cleanup_tables now
      refine ⟨hconfig, Or.inr (Or.inr ⟨now, fun k d' hd' => ?_⟩)⟩
      rw [apply, hdevices] at hd'
      split at hd'
      · exact absurd hd' (by simp)
      · obtain ⟨d, hd, rfl⟩ := Option.map_eq_some_iff.mp hd'
        exact ⟨d, hd, rfl⟩

/-- The calls after which the devices are persisted.  The others leave the
records alone (`apply_of_not_writesDevices`). -/
def writesDevices : StoreOp → Bool
  | .updateDevice _ _ => true
  | .updateTraffic _ _ => true
  | .cleanup _ => true
  | _ => false

/-- The other calls leave the devices alone. -/
theorem apply_of_not_writesDevices {s : StateStore} {op : StoreOp}
    (h : writesDevices op = false) : (s.apply op).devicesByKey = s.devicesByKey := by
  cases op with
  | updateDevice now device => exact absurd h (by simp [writesDevices])
  | updateTraffic now snapshot => exact absurd h (by simp [writesDevices])
  | cleanup now => exact absurd h (by simp [writesDevices])
  | updateInterface now snapshot => exact (updateInterface_same now snapshot s).devices
  | addEvent now event => exact (addEvent_same now event s).devices
  | addWANAttack now later event => exact (addWANAttack_same now later event s).devices
  | nextEventId => rfl

/-- The status has no part in when a device was last seen. -/
theorem lastSeen_of_plain {d d' : DeviceState} (h : plain d = plain d') :
    d.lastSeen = d'.lastSeen := by
  show (plain d).lastSeen = (plain d').lastSeen
  rw [h]

/-- **A call moves no time back.**  While the rows are told apart, a record that
was seen is not seen earlier after the call, whatever key it is kept under. -/
theorem lastSeen_kept {s : StateStore} {op : StoreOp} (h : OneEach s.records)
    (h' : OneEach (s.apply op).records) {d d' : DeviceState} (hd : d ∈ s.records)
    (hd' : d' ∈ (s.apply op).records) (hkey : deviceKey d ≠ []) (hkey' : deviceKey d' ≠ [])
    (hrow : rowKey d = rowKey d') (hseen : d.lastSeen ≠ 0) : d.lastSeen ≤ d'.lastSeen := by
  obtain ⟨k, hk⟩ := mem_records_iff.mp hd
  obtain ⟨k', hk'⟩ := mem_records_iff.mp hd'
  rcases (s.apply_records op).2 with hsame | ⟨origin, key, record, hwrites⟩ | ⟨now, hswept⟩
  · rw [hsame] at hk'
    exact (lastSeen_of_plain
      (h d hd d' (mem_records_iff.mpr ⟨k', hk'⟩) hkey hkey' hrow)).le
  · by_cases hhere : k' = key
    · subst hhere
      rw [hwrites.here] at hk'
      cases hk'
      by_cases horigin : k = origin
      · exact hwrites.rises d (horigin ▸ hk) hseen
      · have hstays := mem_records_iff.mpr ⟨k, hwrites.stays k horigin d hk⟩
        exact (lastSeen_of_plain (h' d hstays _ hd' hkey hkey' hrow)).le
    · have hold := mem_records_iff.mpr ⟨k', hwrites.rest k' hhere d' hk'⟩
      exact (lastSeen_of_plain (h d hd d' hold hkey hkey' hrow)).le
  · obtain ⟨d₀, hd₀, rfl⟩ := hswept k' d' hk'
    have hswept : deviceKey (sweepDevice s.config now d₀) = deviceKey d₀ := by
      simp [deviceKey]
    rw [hswept] at hkey'
    rw [rowKey, rowKey, hswept] at hrow
    rw [sweepDevice_lastSeen]
    exact (lastSeen_of_plain
      (h d hd d₀ (mem_records_iff.mpr ⟨k', hd₀⟩) hkey hkey' hrow)).le

/-- The snapshot of `devices()` has the records of the store, with the status of
its time. -/
theorem mem_devices_iff {s : StateStore} {view : TimePoint} {d : DeviceState} :
    d ∈ s.devices view ↔
      ∃ r ∈ s.records, d = { r with status := statusFor s.config r view } := by
  unfold devices records
  rw [List.mem_insertionSort, List.mem_map]
  constructor
  · rintro ⟨e, he, rfl⟩
    exact ⟨e.2, List.mem_map_of_mem he, rfl⟩
  · rintro ⟨r, hr, rfl⟩
    obtain ⟨e, he, rfl⟩ := List.mem_map.mp hr
    exact ⟨e, he, rfl⟩

/-- A snapshot has one record for each row key if the store has. -/
theorem oneEach_devices {s : StateStore} (h : OneEach s.records) (view : TimePoint) :
    OneEach (s.devices view) := by
  intro d hd d' hd' hkey hkey' hrow
  obtain ⟨r, hr, rfl⟩ := mem_devices_iff.mp hd
  obtain ⟨r', hr', rfl⟩ := mem_devices_iff.mp hd'
  exact h r hr r' hr' hkey hkey' hrow

/-- A snapshot has the values of the store. -/
theorem valueAt_devices {s : StateStore} (h : OneEach s.records) (view : TimePoint) :
    valueAt (s.devices view) = valueAt s.records := by
  funext k
  ext v
  constructor
  · refine valueAt_of_subset (oneEach_devices h view) h fun d hd => ?_
    obtain ⟨r, hr, rfl⟩ := mem_devices_iff.mp hd
    exact ⟨r, hr, rfl⟩
  · refine valueAt_of_subset h (oneEach_devices h view) fun r hr => ?_
    exact ⟨_, mem_devices_iff.mpr ⟨r, hr, rfl⟩, rfl⟩

end StateStore

end Netmon
