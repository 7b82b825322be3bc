import Netmon.KeysLinked

/-!
# Facts about every record

Much of what is proved about the inventory is a fact `P key record` that holds
of every record of the device table.  `AllRecords.apply` is the step rule for
such facts: it asks for `P` of the one record that a call writes and for the
sweep to keep `P`, and looks after the rest of the table.
-/

namespace Netmon

namespace StateStore

/-- A fact that holds of every record together with its key. -/
def AllRecords (P : Str → DeviceState → Prop) (s : StateStore) : Prop :=
  ∀ k d, s.devicesByKey.lookup k = some d → P k d

variable {P : Str → DeviceState → Prop}

theorem allRecords_init (config : Config) : AllRecords P (init config) := by
  intro k d hd
  simp [init] at hd

theorem AllRecords.of_same {s t : StateStore} (h : SameTables s t) (hs : AllRecords P s) :
    AllRecords P t := by
  intro k d hd
  rw [h.devices] at hd
  exact hs k d hd

/-- The record of a key, or the blank one that stands for a missing record. -/
theorem AllRecords.getD {s : StateStore} (hs : AllRecords P s) {key : Str}
    (hblank : P key {}) : P key (s.devicesByKey.getD key {}) := by
  cases hd : s.devicesByKey.lookup key with
  | none => simpa [AList.getD, hd] using hblank
  | some d => simpa [AList.getD, hd] using hs key d hd

theorem AllRecords.insert {s t : StateStore} (hs : AllRecords P s) {key : Str}
    {record : DeviceState} (hdevices : t.devicesByKey = s.devicesByKey.insert key record)
    (hrecord : P key record) : AllRecords P t := by
  intro k d hd
  rw [hdevices, AList.lookup_insert_if] at hd
  split at hd
  · rename_i hkey
    cases hd
    exact hkey ▸ hrecord
  · exact hs k d hd

theorem AllRecords.move {s t : StateStore} (hs : AllRecords P s) {old key : Str}
    {record : DeviceState}
    (hdevices : t.devicesByKey = (s.devicesByKey.erase old).insert key record)
    (hrecord : P key record) : AllRecords P t := by
  intro k d hd
  rw [hdevices, AList.lookup_insert_if, AList.lookup_erase_if] at hd
  split at hd
  · rename_i hkey
    cases hd
    exact hkey ▸ hrecord
  · split at hd
    · exact absurd hd (by simp)
    · exact hs k d hd

theorem AllRecords.cleanup {s : StateStore} (hs : AllRecords P s) (now : TimePoint)
    (hsweep : ∀ k d, P k d → P k (sweepDevice s.config now d)) :
    AllRecords P (s.cleanup now) := by
  intro k d hd
  rw [(s.cleanup_tables now).2.1] at hd
  split at hd
  · exact absurd hd (by simp)
  · obtain ⟨old, hold, rfl⟩ := Option.map_eq_some_iff.mp hd
    exact hsweep k old (hs k old hold)

/-- **Rule for facts about every record.**  A call keeps such a fact when the
record it writes has it and sweeping keeps it. -/
theorem AllRecords.apply {s : StateStore} (hs : AllRecords P s) (op : StoreOp)
    (hwrite : ∀ now device, op = .updateDevice now device →
      s.resolveKey device.mac device.ip ≠ [] → ¬ s.Rekeys device.mac device.ip →
      P (s.resolveKey device.mac device.ip) (mergeDeviceLocked s.config
        (s.devicesByKey.getD (s.resolveKey device.mac device.ip) {}) device now))
    (hmove : ∀ now device node, op = .updateDevice now device →
      s.Rekeys device.mac device.ip →
      s.devicesByKey.lookup (s.findKeyLocked device.mac device.ip) = some node →
      P (macKey (lower device.mac)) (mergeDeviceLocked s.config node device now))
    (htraffic : ∀ now snapshot decision, op = .updateTraffic now snapshot →
      s.resolveKey snapshot.mac snapshot.ip ≠ [] → decision = decideRates s.config
        (s.trafficPoints.getD (s.resolveKey snapshot.mac snapshot.ip) [])
        (s.devicesByKey.getD (s.resolveKey snapshot.mac snapshot.ip) {})
        (stampTraffic now snapshot) →
      P (s.resolveKey snapshot.mac snapshot.ip) (trafficDevice s.config
        (s.devicesByKey.getD (s.resolveKey snapshot.mac snapshot.ip) {})
        (stampTraffic now snapshot) decision))
    (hsweep : ∀ now k d, P k d → P k (sweepDevice s.config now d)) :
    AllRecords P (s.apply op) := by
  cases op with
  | updateDevice now device =>
      rcases s.updateDevice_cases now device with
        ⟨-, hsame⟩ | ⟨record, hkey, hplain, hrecord, -, hdevices, -, -⟩ |
          ⟨node, record, hrekeys, hnode, hrecord, -, hdevices, -, -⟩
      · show AllRecords P (s.updateDevice now device)
        rw [hsame]
        exact hs
      · exact hs.insert hdevices (hrecord ▸ hwrite now device rfl hkey hplain)
      · exact hs.move hdevices (hrecord ▸ hmove now device node rfl hrekeys hnode)
  | updateTraffic now snapshot =>
      rcases s.updateTraffic_cases now snapshot with
        ⟨-, -, hsame⟩ | ⟨record, points, hkey, hrecord, -, -, hdevices, -, -⟩
      · show AllRecords P (s.updateTraffic now snapshot)
        rw [hsame]
        exact hs
      · exact hs.insert hdevices (hrecord ▸ htraffic now snapshot _ rfl hkey rfl)
  | updateInterface now snapshot => exact hs.of_same (updateInterface_same now snapshot s)
  | addEvent now event => exact hs.of_same (addEvent_same now event s)
  | addWANAttack now later event => exact hs.of_same (addWANAttack_same now later event s)
  | nextEventId => exact hs.of_same (by exact ⟨rfl, rfl, rfl, rfl⟩)
  | cleanup now => exact hs.cleanup now (hsweep now)

end StateStore

end Netmon
