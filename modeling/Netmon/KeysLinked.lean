import Netmon.StoreKeys

/-!
# Referential integrity of the inventory

The invariant `KeysLinked` keeps the three tables of the store in step:

* every index entry and every list of traffic points belongs to a stored record;
* the only address that the index may send to `ip:a` is `a` itself, which is
  why repointing that single entry is enough when `ip:a` becomes a `mac:` key;
* the record under `ip:a` has address `a`, or none while `a` is a placeholder.

There is one preservation lemma for each way the tables change (a record
written, a record moved to a new key, devices expired), and the invariant then
holds after every history of calls, whatever their arguments.
-/

namespace Netmon

namespace StateStore

/-! ## Expiry -/

/-- Erase a list of devices, one after the other. -/
def eraseAll (keys : List Str) (s : StateStore) : StateStore := keys.foldl eraseDevice s

/-- Erasing devices removes their records and points, and the index entries
that lead to them, and nothing else. -/
theorem eraseAll_tables (keys : List Str) (s : StateStore) :
    (s.eraseAll keys).config = s.config ∧
      (∀ k, (s.eraseAll keys).devicesByKey.lookup k =
        if k ∈ keys then none else s.devicesByKey.lookup k) ∧
      (∀ k, (s.eraseAll keys).trafficPoints.lookup k =
        if k ∈ keys then none else s.trafficPoints.lookup k) ∧
      (∀ a, (s.eraseAll keys).ipToKey.lookup a =
        (s.ipToKey.lookup a).filter fun target => target ∉ keys) := by
  induction keys generalizing s with
  | nil =>
      refine ⟨rfl, fun k => by simp [eraseAll], fun k => by simp [eraseAll], fun a => ?_⟩
      cases h : s.ipToKey.lookup a <;> simp [eraseAll, h, Option.filter]
  | cons key keys ih =>
      obtain ⟨hconfig, hdevices, hpoints, hindex⟩ := ih (s.eraseDevice key)
      refine ⟨hconfig, fun k => ?_, fun k => ?_, fun a => ?_⟩
      · show ((s.eraseDevice key).eraseAll keys).devicesByKey.lookup k = _
        rw [hdevices]
        simp only [eraseDevice, AList.lookup_erase_if, List.mem_cons]
        by_cases hk : k = key <;> by_cases hin : k ∈ keys <;> simp [hk, hin]
      · show ((s.eraseDevice key).eraseAll keys).trafficPoints.lookup k = _
        rw [hpoints]
        simp only [eraseDevice, AList.lookup_erase_if, List.mem_cons]
        by_cases hk : k = key <;> by_cases hin : k ∈ keys <;> simp [hk, hin]
      · show ((s.eraseDevice key).eraseAll keys).ipToKey.lookup a = _
        rw [hindex]
        simp only [eraseDevice, AList.lookup_filterEntries]
        cases h : s.ipToKey.lookup a with
        | none => rfl
        | some target =>
            by_cases hk : target = key <;> by_cases hin : target ∈ keys <;>
              simp [Option.filter, hk, hin]

/-- The keys that a cleanup pass erases. -/
def expiredKeys (now : TimePoint) (s : StateStore) : List Str :=
  ((s.devicesByKey.mapValues (sweepDevice s.config now)).filterEntries
    fun _ device => isExpired s.config now device).keys

/-- A pass announces, sweeps and erases. -/
theorem cleanup_eq (now : TimePoint) (s : StateStore) :
    s.cleanup now = eraseAll (s.expiredKeys now)
      { s.announceAll now (s.devicesByKey.entries.map Sigma.snd) with
        devicesByKey := s.devicesByKey.mapValues (sweepDevice s.config now) } := rfl

/-- **A relation over every part of a pass** is a relation over the pass. -/
theorem cleanup_related {R : StateStore → StateStore → Prop} (hrefl : ∀ s, R s s)
    (htrans : ∀ {s t u}, R s t → R t u → R s u) {now : TimePoint}
    (hannounce : ∀ t device, R t (t.announceOffline now device))
    (hsweep : ∀ t devices, R t { t with devicesByKey := devices })
    (herase : ∀ t key, R t (t.eraseDevice key)) (s : StateStore) : R s (s.cleanup now) := by
  rw [cleanup_eq]
  refine htrans (htrans ?_ (hsweep _ _)) (Runs.run_related R hrefl htrans herase _ _)
  refine Runs.run_related R hrefl htrans (fun t device => ?_) s _
  split
  · exact hannounce t _
  · exact hrefl t

/-- **What `cleanup` does to the tables.**  Every record is swept, the expired
ones are erased with their points, and the index loses exactly the entries that
lead to an erased key. -/
theorem cleanup_tables (now : TimePoint) (s : StateStore) :
    (s.cleanup now).config = s.config ∧
      (∀ k, (s.cleanup now).devicesByKey.lookup k =
        if k ∈ s.expiredKeys now then none
        else (s.devicesByKey.lookup k).map (sweepDevice s.config now)) ∧
      (∀ k, (s.cleanup now).trafficPoints.lookup k =
        if k ∈ s.expiredKeys now then none else s.trafficPoints.lookup k) ∧
      (∀ a, (s.cleanup now).ipToKey.lookup a =
        (s.ipToKey.lookup a).filter fun target => target ∉ s.expiredKeys now) := by
  have hsame := announceAll_same now (s.devicesByKey.entries.map Sigma.snd) s
  obtain ⟨hconfig, hdevices, hpoints, hindex⟩ := eraseAll_tables (s.expiredKeys now)
    { s.announceAll now (s.devicesByKey.entries.map Sigma.snd) with
      devicesByKey := s.devicesByKey.mapValues (sweepDevice s.config now) }
  rw [cleanup_eq]
  refine ⟨hconfig.trans hsame.config, fun k => ?_, fun k => ?_, fun a => ?_⟩
  · rw [hdevices, AList.lookup_mapValues]
  · rw [hpoints, ← hsame.points]
  · rw [hindex, ← hsame.index]

/-! ## The invariant -/

/-- The tables are joined by keys that all lead to records. -/
structure KeysLinked (s : StateStore) : Prop where
  keyed : ∀ k, k ∈ s.devicesByKey →
    (∃ mac, mac ≠ [] ∧ k = macKey mac) ∨ (∃ ip, ip ≠ [] ∧ k = ipKey ip)
  index_stored : ∀ a k, s.ipToKey.lookup a = some k → k ∈ s.devicesByKey
  points_stored : ∀ k, k ∈ s.trafficPoints → k ∈ s.devicesByKey
  index_ip : ∀ a b, s.ipToKey.lookup a = some (ipKey b) → a = b
  index_ordinary : ∀ a k, s.ipToKey.lookup a = some k → ¬ IsPlaceholder a
  record_ip : ∀ a d, s.devicesByKey.lookup (ipKey a) = some d → d.ip = [] ∨ d.ip = a
  record_ordinary : ∀ k d, s.devicesByKey.lookup k = some d → ¬ IsPlaceholder d.ip

/-- The keys of an empty store are linked. -/
theorem keysLinked_init (config : Config) : KeysLinked (init config) where
  keyed := by simp [init]
  index_stored := by simp [init]
  points_stored := by simp [init]
  index_ip := by simp [init]
  index_ordinary := by simp [init]
  record_ip := by simp [init]
  record_ordinary := by simp [init]

/-- The invariant reads nothing but the three tables. -/
theorem KeysLinked.of_same {s t : StateStore} (h : SameTables s t) (hs : KeysLinked s) :
    KeysLinked t where
  keyed := h.devices ▸ hs.keyed
  index_stored := h.devices ▸ h.index ▸ hs.index_stored
  points_stored := h.devices ▸ h.points ▸ hs.points_stored
  index_ip := h.index ▸ hs.index_ip
  index_ordinary := h.index ▸ hs.index_ordinary
  record_ip := h.devices ▸ hs.record_ip
  record_ordinary := h.devices ▸ hs.record_ordinary

/-- No record is kept under the empty key. -/
theorem KeysLinked.nil_not_stored {s : StateStore} (hs : KeysLinked s) :
    [] ∉ s.devicesByKey := by
  intro hnil
  rcases hs.keyed [] hnil with ⟨m, -, hkey⟩ | ⟨a, -, hkey⟩
  · exact macKey_ne_nil m hkey.symm
  · exact ipKey_ne_nil a hkey.symm

/-- The lookup yields nothing or the key of a record. -/
theorem KeysLinked.found_stored {s : StateStore} (hs : KeysLinked s) (mac ip : Str) :
    s.findKeyLocked mac ip = [] ∨ s.findKeyLocked mac ip ∈ s.devicesByKey := by
  rcases s.findKeyLocked_cases mac ip with h | h | h | h
  · exact Or.inr (h.2.2 ▸ h.2.1)
  · exact Or.inr (hs.index_stored _ _ h.2.2)
  · exact Or.inr (h.2.2.2.2 ▸ h.2.2.2.1)
  · exact Or.inl h.2.2

/-- An address key is only ever found through its own address. -/
theorem KeysLinked.found_ip {s : StateStore} (hs : KeysLinked s) {mac ip a : Str}
    (h : s.findKeyLocked mac ip = ipKey a) : a = ip := by
  rcases s.findKeyLocked_cases mac ip with hf | hf | hf | hf
  · exact absurd (h.symm.trans hf.2.2) (ipKey_ne_macKey _ _)
  · exact (hs.index_ip _ _ (h ▸ hf.2.2)).symm
  · exact ipKey_inj.mp (h.symm.trans hf.2.2.2.2)
  · exact absurd (h.symm.trans hf.2.2) (ipKey_ne_nil _)

/-- An update resolves to an address key only for that address. -/
theorem KeysLinked.resolved_ip {s : StateStore} (hs : KeysLinked s) {mac ip a : Str}
    (h : s.resolveKey mac ip = ipKey a) : a = ip := by
  unfold resolveKey at h
  split at h
  · rcases makeKey_cases mac ip with hm | hm | hm
    · exact absurd (h.symm.trans hm.2.2) (ipKey_ne_nil _)
    · exact absurd (h.symm.trans hm.2) (ipKey_ne_macKey _ _)
    · exact ipKey_inj.mp (h.symm.trans hm.2.2)
  · exact hs.found_ip h

/-- A resolved key has one of the two forms. -/
theorem KeysLinked.resolved_keyed {s : StateStore} (hs : KeysLinked s) {mac ip : Str}
    (h : s.resolveKey mac ip ≠ []) :
    (∃ m, m ≠ [] ∧ s.resolveKey mac ip = macKey m) ∨
      (∃ a, a ≠ [] ∧ s.resolveKey mac ip = ipKey a) := by
  by_cases hfound : s.findKeyLocked mac ip = []
  · have hkey : s.resolveKey mac ip = makeKey mac ip := by simp [resolveKey, hfound]
    rw [hkey] at h ⊢
    rcases makeKey_cases mac ip with hm | hm | hm
    · exact absurd hm.2.2 h
    · exact Or.inl ⟨lower mac, by simpa using hm.1, hm.2⟩
    · exact Or.inr ⟨ip, hm.2.1, hm.2.2⟩
  · have hkey : s.resolveKey mac ip = s.findKeyLocked mac ip := by simp [resolveKey, hfound]
    rw [hkey]
    exact hs.keyed _ ((hs.found_stored mac ip).resolve_left hfound)

/-- An address leads to the written record or to where it led. -/
theorem lookup_indexAfter {index : StrMap Str} {key a k : Str} {record : DeviceState}
    (h : (indexAfter index key record).lookup a = some k) :
    (a = record.ip ∧ record.ip ≠ [] ∧ k = key) ∨
      (¬ (a = record.ip ∧ record.ip ≠ []) ∧ index.lookup a = some k) := by
  unfold indexAfter at h
  split at h
  · rename_i hip
    rw [AList.lookup_insert_if] at h
    split at h
    · rename_i ha
      exact Or.inl ⟨ha, hip, (Option.some.inj h).symm⟩
    · rename_i ha
      exact Or.inr ⟨fun hboth => ha hboth.1, h⟩
  · rename_i hip
    exact Or.inr ⟨fun hboth => hip hboth.2, h⟩

/-- Writing a record under a key of either form keeps the tables linked, with or
without new traffic points for it. -/
theorem KeysLinked.write {s t : StateStore} (hs : KeysLinked s) {key : Str}
    {record : DeviceState}
    (hkeyed : (∃ mac, mac ≠ [] ∧ key = macKey mac) ∨ (∃ ip, ip ≠ [] ∧ key = ipKey ip))
    (hrecord : ∀ a, key = ipKey a → record.ip = [] ∨ record.ip = a)
    (hordinary : ¬ IsPlaceholder record.ip)
    (hdevices : t.devicesByKey = s.devicesByKey.insert key record)
    (hindex : ∀ a k, t.ipToKey.lookup a = some k →
      (a = record.ip ∧ record.ip ≠ [] ∧ k = key) ∨ s.ipToKey.lookup a = some k)
    (hpoints : ∀ k, k ∈ t.trafficPoints → k = key ∨ k ∈ s.trafficPoints) :
    KeysLinked t where
  keyed := by
    intro k hk
    rw [hdevices, AList.mem_insert] at hk
    rcases hk with rfl | hk
    · exact hkeyed
    · exact hs.keyed k hk
  index_stored := by
    intro a k ha
    rw [hdevices, AList.mem_insert]
    rcases hindex a k ha with ⟨-, -, rfl⟩ | hold
    · exact Or.inl rfl
    · exact Or.inr (hs.index_stored a k hold)
  points_stored := by
    intro k hk
    rw [hdevices, AList.mem_insert]
    rcases hpoints k hk with rfl | hold
    · exact Or.inl rfl
    · exact Or.inr (hs.points_stored k hold)
  index_ip := by
    intro a b ha
    rcases hindex a _ ha with ⟨rfl, hne, hkey⟩ | hold
    · exact (hrecord b hkey.symm).resolve_left hne
    · exact hs.index_ip a b hold
  index_ordinary := by
    intro a k ha
    rcases hindex a k ha with ⟨rfl, -, -⟩ | hold
    · exact hordinary
    · exact hs.index_ordinary a k hold
  record_ip := by
    intro a d ha
    rw [hdevices, AList.lookup_insert_if] at ha
    split at ha
    · rename_i hkey
      cases ha
      exact hrecord a hkey.symm
    · exact hs.record_ip a d ha
  record_ordinary := by
    intro k d hk
    rw [hdevices, AList.lookup_insert_if] at hk
    split at hk
    · cases hk
      exact hordinary
    · exact hs.record_ordinary k d hk

/-- Taking a record away together with its points leaves the tables linked once
the index entries that lead to it are gone too. -/
theorem KeysLinked.remove {s t : StateStore} (hs : KeysLinked s) {key : Str}
    (hdevices : t.devicesByKey = s.devicesByKey.erase key)
    (hindex : ∀ a k, t.ipToKey.lookup a = some k → k ≠ key ∧ s.ipToKey.lookup a = some k)
    (hpoints : ∀ k, k ∈ t.trafficPoints → k ≠ key ∧ k ∈ s.trafficPoints) :
    KeysLinked t where
  keyed := by
    intro k hk
    rw [hdevices, AList.mem_erase] at hk
    exact hs.keyed k hk.2
  index_stored := by
    intro a k ha
    obtain ⟨hne, hold⟩ := hindex a k ha
    rw [hdevices, AList.mem_erase]
    exact ⟨hne, hs.index_stored a k hold⟩
  points_stored := by
    intro k hk
    obtain ⟨hne, hold⟩ := hpoints k hk
    rw [hdevices, AList.mem_erase]
    exact ⟨hne, hs.points_stored k hold⟩
  index_ip := fun a b ha => hs.index_ip a b (hindex a _ ha).2
  index_ordinary := fun a k ha => hs.index_ordinary a k (hindex a k ha).2
  record_ip := by
    intro a d ha
    rw [hdevices, AList.lookup_erase_if] at ha
    split at ha
    · exact absurd ha (by simp)
    · exact hs.record_ip a d ha
  record_ordinary := by
    intro k d hk
    rw [hdevices, AList.lookup_erase_if] at hk
    split at hk
    · exact absurd hk (by simp)
    · exact hs.record_ordinary k d hk

/-- A text that is no placeholder becomes none. -/
theorem setIfNotEmpty_ordinary {dest value : Str} (h : ¬ IsPlaceholder dest) :
    ¬ IsPlaceholder (setIfNotEmpty dest value) := by
  unfold setIfNotEmpty
  split
  · rename_i hvalue
    exact hvalue.2
  · exact h

theorem not_isPlaceholder_nil : ¬ IsPlaceholder [] := by
  decide

/-- The address of a record, or of the blank record that stands for a missing
one, is never a placeholder. -/
theorem KeysLinked.getD_ordinary {s : StateStore} (hs : KeysLinked s) (key : Str) :
    ¬ IsPlaceholder (s.devicesByKey.getD key {}).ip := by
  cases hd : s.devicesByKey.lookup key with
  | none => simpa [AList.getD, hd] using not_isPlaceholder_nil
  | some d => simpa [AList.getD, hd] using hs.record_ordinary key d hd

/-- An address written into the record of an address key is that address. -/
theorem KeysLinked.getD_ip {s : StateStore} (hs : KeysLinked s) (a : Str) :
    setIfNotEmpty (s.devicesByKey.getD (ipKey a) {}).ip a = [] ∨
      setIfNotEmpty (s.devicesByKey.getD (ipKey a) {}).ip a = a := by
  rcases setIfNotEmpty_cases (s.devicesByKey.getD (ipKey a) {}).ip a with hold | hnew
  · rw [hold]
    cases hd : s.devicesByKey.lookup (ipKey a) with
    | none => simp [AList.getD, hd]
    | some d => simpa [AList.getD, hd] using hs.record_ip a d hd
  · exact Or.inr hnew

/-- A record updated with the address of its own telemetry keeps the tables
linked. -/
theorem KeysLinked.write_resolved {s t : StateStore} (hs : KeysLinked s) {mac ip : Str}
    (hkey : s.resolveKey mac ip ≠ []) {record : DeviceState}
    (hip : record.ip =
      setIfNotEmpty (s.devicesByKey.getD (s.resolveKey mac ip) {}).ip ip)
    (hdevices : t.devicesByKey = s.devicesByKey.insert (s.resolveKey mac ip) record)
    (hindex : t.ipToKey = indexAfter s.ipToKey (s.resolveKey mac ip) record)
    (hpoints : ∀ k, k ∈ t.trafficPoints → k = s.resolveKey mac ip ∨ k ∈ s.trafficPoints) :
    KeysLinked t := by
  refine hs.write (hs.resolved_keyed hkey) ?_ ?_ hdevices ?_ hpoints
  · intro a ha
    have hsame := hs.resolved_ip ha
    subst hsame
    rw [hip, ha]
    exact hs.getD_ip a
  · rw [hip]
    exact setIfNotEmpty_ordinary (hs.getD_ordinary _)
  · intro a k hlookup
    rw [hindex] at hlookup
    exact (lookup_indexAfter hlookup).imp_right And.right

/-- A re-keying update works on the record of its own address. -/
theorem KeysLinked.rekeys_found {s : StateStore} (hs : KeysLinked s) {mac ip : Str}
    (h : s.Rekeys mac ip) : s.findKeyLocked mac ip = ipKey ip ∧ ip ≠ [] := by
  obtain ⟨a, ha⟩ := isIpKey_iff.mp h.2.1
  have hfound : s.findKeyLocked mac ip = ipKey ip := hs.found_ip ha ▸ ha
  refine ⟨hfound, ?_⟩
  rcases s.findKeyLocked_cases mac ip with hf | hf | hf | hf
  · exact absurd (hfound.symm.trans hf.2.2) (ipKey_ne_macKey _ _)
  · exact hf.2.1
  · exact hf.2.1
  · exact absurd (hfound.symm.trans hf.2.2) (ipKey_ne_nil _)

/-- Re-keying keeps the tables linked: the one address that the index may send
to the old key is the address of the telemetry, and the write repoints it. -/
theorem KeysLinked.updateDevice {s : StateStore} (hs : KeysLinked s) (now : TimePoint)
    (device : DeviceState) : KeysLinked (s.updateDevice now device) := by
  rcases s.updateDevice_cases now device with
    ⟨-, hsame⟩ | ⟨record, hkey, -, hrecord, -, hdevices, hindex, hpoints⟩ |
      ⟨node, record, hmove, hnode, hrecord, -, hdevices, hindex, hpoints⟩
  · rw [hsame]
    exact hs
  · refine hs.write_resolved hkey ?_ hdevices hindex ?_
    · rw [hrecord, mergeDeviceLocked_ip]
    · intro k hk
      rw [hpoints] at hk
      exact Or.inr hk
  · obtain ⟨hfound, hne⟩ := hs.rekeys_found hmove
    rw [hfound] at hnode hdevices hpoints
    have hip : record.ip = setIfNotEmpty node.ip device.ip := by
      rw [hrecord, mergeDeviceLocked_ip]
    have hremoved : KeysLinked
        { s with
          devicesByKey := s.devicesByKey.erase (ipKey device.ip)
          ipToKey := s.ipToKey.erase device.ip
          trafficPoints := s.trafficPoints.erase (ipKey device.ip) } := by
      refine hs.remove rfl ?_ fun k hk => AList.mem_erase.mp hk
      intro a k ha
      rw [AList.lookup_erase_if] at ha
      split at ha
      · exact absurd ha (by simp)
      · rename_i hother
        refine ⟨?_, ha⟩
        rintro rfl
        exact hother (hs.index_ip a device.ip ha)
    refine hremoved.write ?_ ?_ ?_ hdevices ?_ ?_
    · exact Or.inl ⟨lower device.mac, by simpa using hmove.1, rfl⟩
    · intro a ha
      exact absurd ha.symm (ipKey_ne_macKey _ _)
    · rw [hip]
      exact setIfNotEmpty_ordinary (hs.record_ordinary _ _ hnode)
    · intro a k ha
      rw [hindex] at ha
      rcases lookup_indexAfter ha with hnew | ⟨hnot, hold⟩
      · exact Or.inl hnew
      · right
        rw [AList.lookup_erase_if, if_neg, hold]
        rintro rfl
        have hordinary := hs.index_ordinary _ _ hold
        rw [hip, setIfNotEmpty_of_ordinary hne hordinary] at hnot
        exact hnot ⟨rfl, hne⟩
    · intro k hk
      rw [hpoints, AList.mem_erase, AList.mem_insert] at hk
      rcases hk with ⟨hold, hk | hk⟩
      · exact Or.inl hk
      · exact Or.inr (AList.mem_erase.mpr ⟨hold, hk⟩)

/-- A traffic sample keeps the keys linked. -/
theorem KeysLinked.updateTraffic {s : StateStore} (hs : KeysLinked s) (now : TimePoint)
    (snapshot : TrafficSnapshot) : KeysLinked (s.updateTraffic now snapshot) := by
  rcases s.updateTraffic_cases now snapshot with
    ⟨-, -, hsame⟩ | ⟨record, points, hkey, hrecord, -, -, hdevices, hindex, hpoints⟩
  · rw [hsame]
    exact hs
  · refine hs.write_resolved hkey ?_ hdevices hindex ?_
    · rw [hrecord, trafficDevice_ip]
      rfl
    · intro k hk
      rw [hpoints, AList.mem_insert] at hk
      exact hk

/-- Sweeping the records changes neither a key nor an address. -/
theorem KeysLinked.sweep {s : StateStore} (hs : KeysLinked s) (now : TimePoint) :
    KeysLinked
      { s with devicesByKey := s.devicesByKey.mapValues (sweepDevice s.config now) } where
  keyed := fun k hk => hs.keyed k (AList.mem_mapValues.mp hk)
  index_stored := fun a k ha => AList.mem_mapValues.mpr (hs.index_stored a k ha)
  points_stored := fun k hk => AList.mem_mapValues.mpr (hs.points_stored k hk)
  index_ip := hs.index_ip
  index_ordinary := hs.index_ordinary
  record_ip := by
    intro a d ha
    simp only [AList.lookup_mapValues, Option.map_eq_some_iff] at ha
    obtain ⟨old, hold, rfl⟩ := ha
    simpa using hs.record_ip a old hold
  record_ordinary := by
    intro k d hk
    simp only [AList.lookup_mapValues, Option.map_eq_some_iff] at hk
    obtain ⟨old, hold, rfl⟩ := hk
    simpa using hs.record_ordinary k old hold

/-- Erasing a device keeps the keys linked. -/
theorem KeysLinked.eraseDevice {s : StateStore} (hs : KeysLinked s) (key : Str) :
    KeysLinked (s.eraseDevice key) := by
  refine hs.remove rfl ?_ fun k hk => AList.mem_erase.mp hk
  intro a k ha
  simp only [StateStore.eraseDevice, AList.lookup_filterEntries, Option.filter_eq_some_iff,
    decide_eq_true_eq] at ha
  exact ⟨ha.2, ha.1⟩

/-- Erasing several devices keeps the keys linked. -/
theorem KeysLinked.eraseAll {s : StateStore} (hs : KeysLinked s) (keys : List Str) :
    KeysLinked (s.eraseAll keys) := by
  induction keys generalizing s with
  | nil => exact hs
  | cons key keys ih => exact ih (hs.eraseDevice key)

/-- The cleanup keeps the keys linked. -/
theorem KeysLinked.cleanup {s : StateStore} (hs : KeysLinked s) (now : TimePoint) :
    KeysLinked (s.cleanup now) := by
  have hsame := announceAll_same now (s.devicesByKey.entries.map Sigma.snd) s
  have hswept : KeysLinked
      { s.announceAll now (s.devicesByKey.entries.map Sigma.snd) with
        devicesByKey := s.devicesByKey.mapValues (sweepDevice s.config now) } := by
    apply KeysLinked.of_same _ (hs.sweep now)
    exact ⟨hsame.config, rfl, hsame.index, hsame.points⟩
  exact hswept.eraseAll (s.expiredKeys now)

/-- One call keeps the tables linked. -/
theorem KeysLinked.apply {s : StateStore} (hs : KeysLinked s) (op : StoreOp) :
    KeysLinked (s.apply op) := by
  cases op with
  | updateDevice now device => exact hs.updateDevice now device
  | updateTraffic now snapshot => exact hs.updateTraffic now snapshot
  | updateInterface now snapshot => exact hs.of_same (updateInterface_same now snapshot s)
  | addEvent now event => exact hs.of_same (addEvent_same now event s)
  | addWANAttack now later event => exact hs.of_same (addWANAttack_same now later event s)
  | nextEventId => exact hs.of_same (by exact ⟨rfl, rfl, rfl, rfl⟩)
  | cleanup now => exact hs.cleanup now

/-- Every history leaves the tables linked. -/
theorem keysLinked_of_reachable {s : StateStore} (h : s.Reachable) : KeysLinked s := by
  obtain ⟨config, ops, rfl⟩ := h
  exact Runs.run_invariant KeysLinked (fun _ op hs => hs.apply op) (keysLinked_init config) ops

/-! ## Referential integrity -/

/-- A resolved key that is not stored is the made key of the telemetry. -/
theorem KeysLinked.resolved_new {s : StateStore} (hs : KeysLinked s) {mac ip : Str}
    (h : s.resolveKey mac ip ∉ s.devicesByKey) : s.resolveKey mac ip = makeKey mac ip := by
  by_cases hfound : s.findKeyLocked mac ip = []
  · simp [resolveKey, hfound]
  · have hkey : s.resolveKey mac ip = s.findKeyLocked mac ip := by simp [resolveKey, hfound]
    rw [hkey] at h
    exact absurd ((hs.found_stored mac ip).resolve_left hfound) h

/-- The only key that `updateDevice` can add is the made key of its record. -/
theorem KeysLinked.updateDevice_new {s : StateStore} (hs : KeysLinked s) {now : TimePoint}
    {device : DeviceState} {k : Str} (hk : k ∈ (s.updateDevice now device).devicesByKey)
    (hnew : k ∉ s.devicesByKey) : k = makeKey device.mac device.ip := by
  rcases s.updateDevice_cases now device with
    ⟨-, hsame⟩ | ⟨record, -, -, -, -, hdevices, -, -⟩ |
      ⟨node, record, hmove, -, -, -, hdevices, -, -⟩
  · rw [hsame] at hk
    exact absurd hk hnew
  · rw [hdevices, AList.mem_insert] at hk
    have hkey := hk.resolve_right hnew
    rw [hkey] at hnew ⊢
    exact hs.resolved_new hnew
  · rw [hdevices, AList.mem_insert, AList.mem_erase] at hk
    rw [makeKey_of_mac hmove.1]
    exact hk.resolve_right fun hold => hnew hold.2

/-- The only key that `updateTraffic` can add is the made key of its snapshot. -/
theorem KeysLinked.updateTraffic_new {s : StateStore} (hs : KeysLinked s) {now : TimePoint}
    {snapshot : TrafficSnapshot} {k : Str}
    (hk : k ∈ (s.updateTraffic now snapshot).devicesByKey)
    (hnew : k ∉ s.devicesByKey) : k = makeKey snapshot.mac snapshot.ip := by
  rcases s.updateTraffic_cases now snapshot with
    ⟨-, -, hsame⟩ | ⟨record, points, -, -, -, -, hdevices, -, -⟩
  · rw [hsame] at hk
    exact absurd hk hnew
  · rw [hdevices, AList.mem_insert] at hk
    have hkey := hk.resolve_right hnew
    rw [hkey] at hnew ⊢
    exact hs.resolved_new hnew

/-- **Referential integrity.**  After any history of calls, whatever their
arguments, the index and the traffic points refer to stored records only; so a
lookup yields nothing or the key of a record, and an update adds no key but the
one its own telemetry names: an erased key stays gone until its own device is
heard of again. -/
theorem references_are_stored {s : StateStore} (h : s.Reachable) :
    (∀ a k, s.ipToKey.lookup a = some k → k ∈ s.devicesByKey) ∧
    (∀ k, k ∈ s.trafficPoints → k ∈ s.devicesByKey) ∧
    (∀ mac ip, s.findKeyLocked mac ip = [] ∨ s.findKeyLocked mac ip ∈ s.devicesByKey) ∧
    (∀ now device k, k ∈ (s.updateDevice now device).devicesByKey → k ∉ s.devicesByKey →
      k = makeKey device.mac device.ip) ∧
    (∀ now snapshot k, k ∈ (s.updateTraffic now snapshot).devicesByKey →
      k ∉ s.devicesByKey → k = makeKey snapshot.mac snapshot.ip) := by
  have hs := keysLinked_of_reachable h
  refine ⟨hs.index_stored, hs.points_stored, hs.found_stored, ?_, ?_⟩
  · intro now device k hk hnew
    exact hs.updateDevice_new hk hnew
  · intro now snapshot k hk hnew
    exact hs.updateTraffic_new hk hnew

/-- A history that creates a record by address, learns its MAC and expires
another record. -/
def rekeyHistory : List StoreOp :=
  [ .updateTraffic (seconds 10) { ip := str "10.0.0.5", rxBytes := 100 },
    .updateTraffic (seconds 10) { ip := str "10.0.0.6", rxBytes := 100 },
    .updateDevice (seconds 90000) { mac := str "AA:01", ip := str "10.0.0.5" },
    .cleanup (seconds 90000) ]

/-- After `rekeyHistory` the index entry and the traffic points of the first
record have followed it to its new key, and nothing refers to the expired one. -/
theorem references_are_stored_rekeyed :
    let s := Runs.run apply (init {}) rekeyHistory
    s.devicesByKey.keys = [str "mac:aa:01"] ∧
      s.ipToKey.lookup (str "10.0.0.5") = some (str "mac:aa:01") ∧
      s.ipToKey.lookup (str "10.0.0.6") = none ∧
      (∀ k, k ∈ s.trafficPoints → k ∈ s.devicesByKey) ∧
      s.findKeyLocked (str "aa:01") [] ∈ s.devicesByKey := by
  refine ⟨by decide +kernel, by decide +kernel, by decide +kernel,
    (references_are_stored ⟨_, _, rfl⟩).2.1, ?_⟩
  exact ((references_are_stored ⟨_, _, rfl⟩).2.2.1 _ _).resolve_left (by decide +kernel)

end StateStore

end Netmon
