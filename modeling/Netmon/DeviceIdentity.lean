import Netmon.KeysLinked

/-!
# Which device a record belongs to

The MAC is the identity of a device.  A MAC without a record of its own is led
by its address to whatever record holds the address, though, and the merge then
writes the new MAC into it.  `OwnRecord` is the condition under which an update
leaves the records of all other MACs alone.
-/

namespace Netmon

namespace StateStore

/-! ## Records of other devices -/

/-- From `s` to `t`, no record of a MAC other than `mac` was touched. -/
def ForeignKept (mac : Str) (s t : StateStore) : Prop :=
  ∀ k d, s.devicesByKey.lookup k = some d → d.mac ≠ [] → d.mac ≠ lower mac →
    t.devicesByKey.lookup k = some d

/-- The record that a MAC and an address lead to has no MAC yet, or this one. -/
def OwnRecord (s : StateStore) (mac ip : Str) : Prop :=
  ∀ d, s.devicesByKey.lookup (s.findKeyLocked mac ip) = some d →
    d.mac = [] ∨ d.mac = lower mac

instance (s : StateStore) (mac ip : Str) : Decidable (OwnRecord s mac ip) :=
  decidable_of_iff
    ((s.devicesByKey.lookup (s.findKeyLocked mac ip)).all fun d =>
      d.mac = [] ∨ d.mac = lower mac) (by
    unfold OwnRecord
    cases s.devicesByKey.lookup (s.findKeyLocked mac ip) <;> simp)

theorem ForeignKept.refl (mac : Str) (s : StateStore) : ForeignKept mac s s :=
  fun _ _ hd _ _ => hd

/-- When nothing is found for a MAC, its key is free. -/
theorem macKey_free_of_not_found {s : StateStore} {mac ip : Str} (hmac : mac ≠ [])
    (h : s.findKeyLocked mac ip = []) : macKey (lower mac) ∉ s.devicesByKey := by
  intro hstored
  have hfound : s.findKeyLocked mac ip = macKey (lower mac) := by
    simp [findKeyLocked, hmac, hstored]
  exact macKey_ne_nil _ (hfound.symm.trans h)

/-- An update of a device works on a record without MAC or with its own. -/
theorem OwnRecord.resolved {s : StateStore} {mac ip : Str} (h : OwnRecord s mac ip)
    (hmac : mac ≠ []) {d : DeviceState}
    (hd : s.devicesByKey.lookup (s.resolveKey mac ip) = some d) :
    d.mac = [] ∨ d.mac = lower mac := by
  by_cases hfound : s.findKeyLocked mac ip = []
  · have hkey : s.resolveKey mac ip = macKey (lower mac) := by
      simp [resolveKey, hfound, makeKey_of_mac hmac]
    rw [hkey] at hd
    exact absurd (AList.mem_of_lookup hd) (macKey_free_of_not_found hmac hfound)
  · have hkey : s.resolveKey mac ip = s.findKeyLocked mac ip := by simp [resolveKey, hfound]
    rw [hkey] at hd
    exact h d hd

/-- A write under a key whose record is not foreign keeps the foreign records. -/
theorem foreignKept_insert {s t : StateStore} {mac key : Str} {record : DeviceState}
    (hdevices : t.devicesByKey = s.devicesByKey.insert key record)
    (hown : ∀ d, s.devicesByKey.lookup key = some d → d.mac = [] ∨ d.mac = lower mac) :
    ForeignKept mac s t := by
  intro k d hd hne hother
  rw [hdevices, AList.lookup_insert_if, if_neg, hd]
  rintro rfl
  rcases hown d hd with h | h
  · exact hne h
  · exact hother h

theorem OwnRecord.updateDevice_kept {s : StateStore} {now : TimePoint} {device : DeviceState}
    (hmac : device.mac ≠ []) (h : OwnRecord s device.mac device.ip) :
    ForeignKept device.mac s (s.updateDevice now device) := by
  rcases s.updateDevice_cases now device with
    ⟨-, hsame⟩ | ⟨record, -, -, -, -, hdevices, -, -⟩ |
      ⟨node, record, hmove, -, -, -, hdevices, -, -⟩
  · rw [hsame]
    exact ForeignKept.refl _ _
  · exact foreignKept_insert hdevices fun d hd => h.resolved hmac hd
  · intro k d hd hne hother
    rw [hdevices, AList.lookup_insert_if, if_neg, AList.lookup_erase_if, if_neg, hd]
    · rintro rfl
      rcases h d hd with hown | hown
      · exact hne hown
      · exact hother hown
    · rintro rfl
      exact hmove.macKey_free (AList.mem_of_lookup hd)

theorem OwnRecord.updateTraffic_kept {s : StateStore} {now : TimePoint}
    {snapshot : TrafficSnapshot} (hmac : snapshot.mac ≠ [])
    (h : OwnRecord s snapshot.mac snapshot.ip) :
    ForeignKept snapshot.mac s (s.updateTraffic now snapshot) := by
  rcases s.updateTraffic_cases now snapshot with
    ⟨-, -, hsame⟩ | ⟨record, points, -, -, -, -, hdevices, -, -⟩
  · rw [hsame]
    exact ForeignKept.refl _ _
  · exact foreignKept_insert hdevices fun d hd => h.resolved hmac hd

/-- A found record is the one that an update works on. -/
theorem KeysLinked.resolved_found {s : StateStore} (hs : KeysLinked s) {mac ip : Str}
    {d : DeviceState} (hd : s.devicesByKey.lookup (s.findKeyLocked mac ip) = some d) :
    s.resolveKey mac ip = s.findKeyLocked mac ip ∧ s.findKeyLocked mac ip ≠ [] := by
  have hne : s.findKeyLocked mac ip ≠ [] := by
    intro hnil
    rw [hnil] at hd
    exact hs.nil_not_stored (AList.mem_of_lookup hd)
  exact ⟨by simp [resolveKey, hne], hne⟩

/-- A device seen later than the record it is led to changes that record. -/
theorem KeysLinked.updateDevice_touches {s : StateStore} (hs : KeysLinked s) (now : TimePoint)
    (device : DeviceState) {d : DeviceState}
    (hd : s.devicesByKey.lookup (s.findKeyLocked device.mac device.ip) = some d)
    (hseen : device.lastSeen ≠ 0) (hlater : d.lastSeen < device.lastSeen) :
    (s.updateDevice now device).devicesByKey.lookup (s.findKeyLocked device.mac device.ip) ≠
      some d := by
  obtain ⟨hkey, hfound⟩ := hs.resolved_found hd
  rcases s.updateDevice_cases now device with
    ⟨hnil, -⟩ | ⟨record, -, -, hrecord, -, hdevices, -, -⟩ |
      ⟨node, record, hmove, -, -, -, hdevices, -, -⟩
  · exact absurd (hkey.symm.trans hnil) hfound
  · rw [hdevices, hkey, AList.lookup_insert]
    intro hsame
    have hcurrent : s.devicesByKey.getD (s.resolveKey device.mac device.ip) {} = d := by
      rw [hkey, AList.getD, hd]
      rfl
    have hstamp : record.lastSeen = device.lastSeen := by
      rw [hrecord, hcurrent]
      simp [mergeDeviceLocked, hseen, hlater]
    rw [Option.some.inj hsame] at hstamp
    exact (ne_of_lt hlater) hstamp
  · have hne : s.findKeyLocked device.mac device.ip ≠ macKey (lower device.mac) := by
      obtain ⟨a, ha⟩ := isIpKey_iff.mp hmove.2.1
      rw [ha]
      exact ipKey_ne_macKey _ _
    rw [hdevices, AList.lookup_insert_if, if_neg hne, AList.lookup_erase_if, if_pos rfl]
    simp

/-- A sample at another time than the last one changes the record it is led to. -/
theorem KeysLinked.updateTraffic_touches {s : StateStore} (hs : KeysLinked s)
    (now : TimePoint) (snapshot : TrafficSnapshot) {d : DeviceState}
    (hd : s.devicesByKey.lookup (s.findKeyLocked snapshot.mac snapshot.ip) = some d)
    (hmac : snapshot.mac ≠ []) (hts : snapshot.ts ≠ 0) (hother : snapshot.ts ≠ d.lastTraffic) :
    (s.updateTraffic now snapshot).devicesByKey.lookup
      (s.findKeyLocked snapshot.mac snapshot.ip) ≠ some d := by
  obtain ⟨hkey, -⟩ := hs.resolved_found hd
  rcases s.updateTraffic_cases now snapshot with
    ⟨hnil, -, -⟩ | ⟨record, points, -, hrecord, -, -, hdevices, -, -⟩
  · exact absurd hnil hmac
  · rw [hdevices, hkey, AList.lookup_insert]
    intro hsame
    have hstamp : record.lastTraffic = snapshot.ts := by
      simp [hrecord, trafficDevice, stampTraffic, hts]
    rw [Option.some.inj hsame] at hstamp
    exact hother hstamp.symm

/-- A MAC that is led to the record of another one can overwrite it. -/
theorem KeysLinked.ownRecord_of_updateDevice {s : StateStore} (hs : KeysLinked s) {mac ip : Str}
    (hkept : ∀ now device, device.mac = mac → device.ip = ip →
      ForeignKept mac s (s.updateDevice now device)) : OwnRecord s mac ip := by
  intro d hd
  by_contra hforeign
  rw [not_or] at hforeign
  have hchanged := hs.updateDevice_touches 0
    { mac := mac, ip := ip, lastSeen := |d.lastSeen| + 1 } hd
    (by positivity) (lt_of_le_of_lt (le_abs_self _) (lt_add_one _))
  exact hchanged (hkept 0 _ rfl rfl _ d hd hforeign.1 hforeign.2)

theorem KeysLinked.ownRecord_of_updateTraffic {s : StateStore} (hs : KeysLinked s)
    {mac ip : Str} (hmac : mac ≠ [])
    (hkept : ∀ now snapshot, snapshot.mac = mac → snapshot.ip = ip →
      ForeignKept mac s (s.updateTraffic now snapshot)) : OwnRecord s mac ip := by
  intro d hd
  by_contra hforeign
  rw [not_or] at hforeign
  have hlater : d.lastTraffic < |d.lastTraffic| + 1 :=
    lt_of_le_of_lt (le_abs_self _) (lt_add_one _)
  have hchanged := hs.updateTraffic_touches 0
    { mac := mac, ip := ip, ts := |d.lastTraffic| + 1 } hd hmac
    (by positivity) (ne_of_gt hlater)
  exact hchanged (hkept 0 _ rfl rfl _ d hd hforeign.1 hforeign.2)

end StateStore

end Netmon
