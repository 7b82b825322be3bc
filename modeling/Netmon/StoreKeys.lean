import Netmon.StateStore

/-!
# The key discipline of the inventory

The records, the address index and the traffic points are three tables joined
by device keys.  This file says once what an update does to them
(`updateDevice_cases`, `updateTraffic_cases`); every invariant of the tables is
derived from these two case lemmas and never from the bodies.
-/

namespace Netmon

/-! ## Keys -/

/-- A key is never empty, so an empty key can stand for none. -/
theorem macKey_ne_nil (mac : Str) : macKey mac ≠ [] := by
  intro h
  exact absurd (List.append_eq_nil_iff.mp h).1 (by decide)

/-- A key by address is never empty either. -/
theorem ipKey_ne_nil (ip : Str) : ipKey ip ≠ [] := by
  intro h
  exact absurd (List.append_eq_nil_iff.mp h).1 (by decide)

/-- The key of a MAC determines it. -/
@[simp] theorem macKey_inj {a b : Str} : macKey a = macKey b ↔ a = b := by
  simp [macKey]

/-- The key of an address determines it. -/
@[simp] theorem ipKey_inj {a b : Str} : ipKey a = ipKey b ↔ a = b := by
  simp [ipKey]

/-- A key by address is no key by MAC. -/
theorem ipKey_ne_macKey (ip mac : Str) : ipKey ip ≠ macKey mac := by
  intro h
  have hhead : (str "ip:" ++ ip).head? = (str "mac:" ++ mac).head? := congrArg List.head? h
  exact absurd hhead (by simp [show str "ip:" = [105, 112, 58] from rfl,
    show str "mac:" = [109, 97, 99, 58] from rfl])

/-- The `ip:` prefix test recognises exactly the address keys. -/
theorem isIpKey_iff {key : Str} : isIpKey key = true ↔ ∃ ip, key = ipKey ip := by
  unfold isIpKey ipKey
  rw [List.isPrefixOf_iff_prefix]
  constructor
  · rintro ⟨ip, rfl⟩
    exact ⟨ip, rfl⟩
  · rintro ⟨ip, rfl⟩
    exact ⟨ip, rfl⟩

@[simp] theorem isIpKey_ipKey (ip : Str) : isIpKey (ipKey ip) = true :=
  isIpKey_iff.mpr ⟨ip, rfl⟩

@[simp] theorem isIpKey_macKey (mac : Str) : isIpKey (macKey mac) = false := by
  rw [Bool.eq_false_iff]
  intro h
  obtain ⟨ip, hip⟩ := isIpKey_iff.mp h
  exact ipKey_ne_macKey ip mac hip.symm

/-- A device with a MAC is kept under the lower-case MAC. -/
theorem makeKey_of_mac {mac ip : Str} (h : mac ≠ []) : makeKey mac ip = macKey (lower mac) := by
  simp [makeKey, h]

/-- A device without a MAC is kept under its address. -/
theorem makeKey_of_no_mac {ip : Str} (h : ip ≠ []) : makeKey [] ip = ipKey ip := by
  simp [makeKey, h]

/-- A made key is empty or has one of the two forms. -/
theorem makeKey_cases (mac ip : Str) :
    (mac = [] ∧ ip = [] ∧ makeKey mac ip = []) ∨
      (mac ≠ [] ∧ makeKey mac ip = macKey (lower mac)) ∨
      (mac = [] ∧ ip ≠ [] ∧ makeKey mac ip = ipKey ip) := by
  by_cases hmac : mac = []
  · subst hmac
    by_cases hip : ip = []
    · subst hip
      exact Or.inl ⟨rfl, rfl, by simp [makeKey]⟩
    · exact Or.inr (Or.inr ⟨rfl, hip, makeKey_of_no_mac hip⟩)
  · exact Or.inr (Or.inl ⟨hmac, makeKey_of_mac hmac⟩)

/-- The case of a MAC does not matter for its key. -/
@[simp] theorem makeKey_lower (mac ip : Str) : makeKey (lower mac) ip = makeKey mac ip := by
  simp [makeKey]

/-! ## What a field update can do -/

/-- A text field keeps its value or takes the new one. -/
theorem setIfNotEmpty_cases (dest value : Str) :
    setIfNotEmpty dest value = dest ∨ setIfNotEmpty dest value = value := by
  unfold setIfNotEmpty
  split
  · exact Or.inr rfl
  · exact Or.inl rfl

@[simp] theorem setIfNotEmpty_nil (dest : Str) : setIfNotEmpty dest [] = dest := by
  simp [setIfNotEmpty]

/-- Every value but the empty one and the placeholders is taken. -/
theorem setIfNotEmpty_of_ordinary {dest value : Str} (hne : value ≠ [])
    (h : ¬ IsPlaceholder value) : setIfNotEmpty dest value = value := by
  simp [setIfNotEmpty, h, hne]

/-- A tag that is there is not added again. -/
theorem addTags_cons_of_mem {tags : List Str} {tag : Str} (h : tag ∈ tags)
    (incoming : List Str) : addTags tags (tag :: incoming) = addTags tags incoming := by
  simp [addTags, hasTag, h]

/-- A new tag comes last. -/
theorem addTags_cons_of_notMem {tags : List Str} {tag : Str} (h : tag ∉ tags)
    (incoming : List Str) :
    addTags tags (tag :: incoming) = addTags (tags ++ [tag]) incoming := by
  simp [addTags, hasTag, h]

/-- The tags after a merge are those of both sides. -/
theorem mem_addTags {tags incoming : List Str} {tag : Str} :
    tag ∈ addTags tags incoming ↔ tag ∈ tags ∨ tag ∈ incoming := by
  induction incoming generalizing tags with
  | nil => simp [addTags]
  | cons first incoming ih =>
      by_cases hfirst : first ∈ tags
      · rw [addTags_cons_of_mem hfirst, ih, List.mem_cons]
        constructor
        · exact Or.imp id Or.inr
        · rintro (h | rfl | h)
          · exact Or.inl h
          · exact Or.inl hfirst
          · exact Or.inr h
      · rw [addTags_cons_of_notMem hfirst, ih, List.mem_append, List.mem_singleton, List.mem_cons,
          or_assoc]

/-- The tags that are there stay in front, in their order. -/
theorem addTags_extends (tags incoming : List Str) : tags <+: addTags tags incoming := by
  induction incoming generalizing tags with
  | nil => exact List.prefix_refl tags
  | cons tag incoming ih =>
      by_cases hmem : tag ∈ tags
      · rw [addTags_cons_of_mem hmem]
        exact ih tags
      · rw [addTags_cons_of_notMem hmem]
        exact (List.prefix_append tags [tag]).trans (ih _)

@[simp] theorem mergeDeviceLocked_mac (config : Config) (current incoming : DeviceState)
    (now : TimePoint) : (mergeDeviceLocked config current incoming now).mac =
      setIfNotEmpty current.mac (lower incoming.mac) := rfl

@[simp] theorem mergeDeviceLocked_ip (config : Config) (current incoming : DeviceState)
    (now : TimePoint) : (mergeDeviceLocked config current incoming now).ip =
      setIfNotEmpty current.ip incoming.ip := rfl

namespace StateStore

@[simp] theorem trafficDevice_mac (config : Config) (device : DeviceState)
    (current : TrafficSnapshot) (decision : RateDecision) :
    (trafficDevice config device current decision).mac =
      setIfNotEmpty device.mac current.mac := rfl

@[simp] theorem trafficDevice_ip (config : Config) (device : DeviceState)
    (current : TrafficSnapshot) (decision : RateDecision) :
    (trafficDevice config device current decision).ip =
      setIfNotEmpty device.ip current.ip := rfl

/-- The walk of a cleanup changes no MAC. -/
@[simp] theorem sweepDevice_mac (config : Config) (now : TimePoint) (device : DeviceState) :
    (sweepDevice config now device).mac = device.mac := by
  unfold sweepDevice
  split <;> rfl

/-- The walk of the cleanup does not change an address. -/
@[simp] theorem sweepDevice_ip (config : Config) (now : TimePoint) (device : DeviceState) :
    (sweepDevice config now device).ip = device.ip := by
  unfold sweepDevice
  split <;> rfl

/-! ## The tables that the other operations leave alone -/

/-- Two stores with the same settings, records, index and traffic points. -/
structure SameTables (s t : StateStore) : Prop where
  config : t.config = s.config
  devices : t.devicesByKey = s.devicesByKey
  index : t.ipToKey = s.ipToKey
  points : t.trafficPoints = s.trafficPoints

theorem SameTables.refl (s : StateStore) : SameTables s s := ⟨rfl, rfl, rfl, rfl⟩

theorem SameTables.trans {s t u : StateStore} (hst : SameTables s t) (htu : SameTables t u) :
    SameTables s u :=
  ⟨htu.config.trans hst.config, htu.devices.trans hst.devices, htu.index.trans hst.index,
    htu.points.trans hst.points⟩

/-- `touchLastLogLocked` on the last-log time alone. -/
def raiseLog (last ts : TimePoint) : TimePoint := if last = 0 ∨ ts > last then ts else last

/-- Touching changes the last-log time and nothing else. -/
theorem touchLastLogLocked_eq (now ts : TimePoint) (s : StateStore) :
    s.touchLastLogLocked now ts =
      { s with lastLogTs := raiseLog s.lastLogTs (if ts = 0 then now else ts) } := by
  unfold touchLastLogLocked raiseLog
  generalize (if ts = 0 then now else ts) = stamp
  by_cases h : s.lastLogTs = 0 ∨ stamp > s.lastLogTs
  · simp only [if_pos h]
  · simp only [if_neg h]

/-- The last-log time is only raised; a missing time is that of the clock. -/
theorem touchLastLogLocked_lastLogTs (now ts : TimePoint) (s : StateStore) :
    (s.touchLastLogLocked now ts).lastLogTs =
      raiseLog s.lastLogTs (if ts = 0 then now else ts) := by
  rw [touchLastLogLocked_eq]

/-- The last-log time is in none of the tables. -/
theorem touchLastLogLocked_same (now ts : TimePoint) (s : StateStore) :
    SameTables s (s.touchLastLogLocked now ts) := by
  rw [touchLastLogLocked_eq]
  exact ⟨rfl, rfl, rfl, rfl⟩

/-- A report of an interface leaves the device tables alone. -/
theorem updateInterface_same (now : TimePoint) (snapshot : InterfaceSnapshot) (s : StateStore) :
    SameTables s (s.updateInterface now snapshot) := by
  unfold updateInterface
  split
  · exact SameTables.refl s
  · exact SameTables.trans (by exact ⟨rfl, rfl, rfl, rfl⟩) (touchLastLogLocked_same _ _ _)

/-- An event leaves the device tables alone. -/
theorem addEvent_same (now : TimePoint) (event : Event) (s : StateStore) :
    SameTables s (s.addEvent now event) := by
  unfold addEvent pushEventLocked
  refine SameTables.trans ?_ (touchLastLogLocked_same _ _ _)
  by_cases hid : event.id = []
  · simp only [hid, if_true]
    exact ⟨rfl, rfl, rfl, rfl⟩
  · simp only [if_neg hid]
    exact ⟨rfl, rfl, rfl, rfl⟩

/-- An attack leaves the device tables alone. -/
theorem addWANAttack_same (now later : TimePoint) (event : WANAttackEvent) (s : StateStore) :
    SameTables s (s.addWANAttack now later event) := by
  unfold addWANAttack
  exact SameTables.trans (by exact ⟨rfl, rfl, rfl, rfl⟩) (touchLastLogLocked_same _ _ _)

/-- The notice that a device has gone leaves the device tables alone. -/
theorem announceOffline_same (now : TimePoint) (device : DeviceState) (s : StateStore) :
    SameTables s (s.announceOffline now device) := by
  unfold announceOffline
  exact SameTables.trans (by exact ⟨rfl, rfl, rfl, rfl⟩) (touchLastLogLocked_same _ _ _)

/-- The announcing half of the cleanup walk. -/
def announceAll (now : TimePoint) (devices : List DeviceState) (s : StateStore) : StateStore :=
  devices.foldl
    (fun s device =>
      if goesOffline s.config now device then
        s.announceOffline now (sweepDevice s.config now device)
      else s) s

/-- A device that goes offline is announced before the rest. -/
theorem announceAll_cons_of_pos {now : TimePoint} {device : DeviceState} {s : StateStore}
    (h : goesOffline s.config now device = true) (devices : List DeviceState) :
    s.announceAll now (device :: devices) =
      (s.announceOffline now (sweepDevice s.config now device)).announceAll now devices := by
  simp [announceAll, h]

/-- A device that does not is passed over. -/
theorem announceAll_cons_of_neg {now : TimePoint} {device : DeviceState} {s : StateStore}
    (h : ¬ goesOffline s.config now device = true) (devices : List DeviceState) :
    s.announceAll now (device :: devices) = s.announceAll now devices := by
  simp [announceAll, h]

/-- All notices of a pass leave the device tables alone. -/
theorem announceAll_same (now : TimePoint) (devices : List DeviceState) (s : StateStore) :
    SameTables s (s.announceAll now devices) := by
  refine Runs.run_related SameTables SameTables.refl SameTables.trans (fun s device => ?_) s devices
  split
  · exact announceOffline_same now _ s
  · exact SameTables.refl s

/-! ## What a lookup finds and what an update writes -/

/-- The four outcomes of the key lookup: the record of the MAC, an index entry,
the record of the address, or nothing. -/
theorem findKeyLocked_cases (s : StateStore) (mac ip : Str) :
    (mac ≠ [] ∧ macKey (lower mac) ∈ s.devicesByKey ∧
        s.findKeyLocked mac ip = macKey (lower mac)) ∨
      (¬ (mac ≠ [] ∧ macKey (lower mac) ∈ s.devicesByKey) ∧ ip ≠ [] ∧
        s.ipToKey.lookup ip = some (s.findKeyLocked mac ip)) ∨
      (¬ (mac ≠ [] ∧ macKey (lower mac) ∈ s.devicesByKey) ∧ ip ≠ [] ∧
        s.ipToKey.lookup ip = none ∧ ipKey ip ∈ s.devicesByKey ∧
        s.findKeyLocked mac ip = ipKey ip) ∨
      (¬ (mac ≠ [] ∧ macKey (lower mac) ∈ s.devicesByKey) ∧
        (ip = [] ∨ s.ipToKey.lookup ip = none ∧ ipKey ip ∉ s.devicesByKey) ∧
        s.findKeyLocked mac ip = []) := by
  unfold findKeyLocked
  by_cases hmac : mac ≠ [] ∧ macKey (lower mac) ∈ s.devicesByKey
  · exact Or.inl ⟨hmac.1, hmac.2, by simp [hmac]⟩
  · have hmac' : ¬ (lower mac ≠ [] ∧ macKey (lower mac) ∈ s.devicesByKey) := by simpa using hmac
    rw [if_neg hmac']
    right
    by_cases hip : ip = []
    · exact Or.inr (Or.inr ⟨hmac, Or.inl hip, by simp [hip]⟩)
    · rw [if_pos hip]
      cases hindex : s.ipToKey.lookup ip with
      | some key => exact Or.inl ⟨hmac, hip, rfl⟩
      | none =>
          right
          by_cases hstored : ipKey ip ∈ s.devicesByKey
          · exact Or.inl ⟨hmac, hip, rfl, hstored, by simp [hstored]⟩
          · exact Or.inr ⟨hmac, Or.inr ⟨rfl, hstored⟩, by simp [hstored]⟩

/-- A record is found by its MAC in any case. -/
@[simp] theorem findKeyLocked_lower (s : StateStore) (mac ip : Str) :
    s.findKeyLocked (lower mac) ip = s.findKeyLocked mac ip := by
  simp [findKeyLocked]

@[simp] theorem resolveKey_lower (s : StateStore) (mac ip : Str) :
    s.resolveKey (lower mac) ip = s.resolveKey mac ip := by
  simp [resolveKey]

/-- Telemetry without MAC and address resolves to no key. -/
theorem resolveKey_nil_nil (s : StateStore) : s.resolveKey [] [] = [] := by
  simp [resolveKey, findKeyLocked, makeKey]

/-- Only telemetry without MAC and address resolves to no key. -/
theorem resolveKey_nil {s : StateStore} {mac ip : Str} (h : s.resolveKey mac ip = []) :
    mac = [] ∧ ip = [] := by
  have hmade : makeKey mac ip = [] := by
    by_cases hfound : s.findKeyLocked mac ip = []
    · simpa [resolveKey, hfound] using h
    · simp [resolveKey, hfound] at h
  rcases makeKey_cases mac ip with hcase | hcase | hcase
  · exact ⟨hcase.1, hcase.2.1⟩
  · exact absurd (hcase.2.symm.trans hmade) (macKey_ne_nil _)
  · exact absurd (hcase.2.2.symm.trans hmade) (ipKey_ne_nil _)

/-- The index after a record was written under `key`. -/
def indexAfter (index : StrMap Str) (key : Str) (record : DeviceState) : StrMap Str :=
  if record.ip ≠ [] then index.insert record.ip key else index

/-- The update moves the record of an address to the key of a MAC. -/
def Rekeys (s : StateStore) (mac ip : Str) : Prop :=
  mac ≠ [] ∧ isIpKey (s.findKeyLocked mac ip) ∧ s.findKeyLocked mac ip ∈ s.devicesByKey

/-- A re-keying update finds its key through the address, so the key of its MAC
is free. -/
theorem Rekeys.macKey_free {s : StateStore} {mac ip : Str} (h : s.Rekeys mac ip) :
    macKey (lower mac) ∉ s.devicesByKey := by
  intro hstored
  rcases s.findKeyLocked_cases mac ip with hfound | hfound | hfound | hfound
  · have hip := h.2.1
    rw [hfound.2.2] at hip
    simp at hip
  · exact hfound.1 ⟨h.1, hstored⟩
  · exact hfound.1 ⟨h.1, hstored⟩
  · exact hfound.1 ⟨h.1, hstored⟩

/-- A re-keying update resolves to the key it found. -/
theorem Rekeys.resolveKey_eq {s : StateStore} {mac ip : Str} (h : s.Rekeys mac ip) :
    s.resolveKey mac ip = s.findKeyLocked mac ip := by
  obtain ⟨a, ha⟩ := isIpKey_iff.mp h.2.1
  simp [resolveKey, ha, ipKey_ne_nil]

/-- The source's test for re-keying, together with the record it needs, is
`Rekeys`. -/
theorem rekeys_iff (s : StateStore) (mac ip : Str) :
    s.Rekeys mac ip ↔
      (mac ≠ [] ∧ isIpKey (s.resolveKey mac ip) ∧ makeKey mac ip ≠ [] ∧
        makeKey mac ip ≠ s.resolveKey mac ip) ∧
      s.resolveKey mac ip ∈ s.devicesByKey := by
  constructor
  · intro h
    rw [h.resolveKey_eq]
    obtain ⟨a, ha⟩ := isIpKey_iff.mp h.2.1
    refine ⟨⟨h.1, h.2.1, ?_, ?_⟩, h.2.2⟩
    · rw [makeKey_of_mac h.1]
      exact macKey_ne_nil _
    · rw [makeKey_of_mac h.1, ha]
      exact (ipKey_ne_macKey _ _).symm
  · rintro ⟨⟨hmac, hip, -, -⟩, hstored⟩
    have hfound : s.findKeyLocked mac ip ≠ [] := by
      intro hnone
      simp [resolveKey, hnone, makeKey_of_mac hmac] at hip
    have hkey : s.resolveKey mac ip = s.findKeyLocked mac ip := by simp [resolveKey, hfound]
    rw [hkey] at hip hstored
    exact ⟨hmac, hip, hstored⟩

/-- The store after the record `node` of `key` and its traffic points moved to
`desired`. -/
def moveRecord (s : StateStore) (key desired : Str) (node : DeviceState) : StateStore :=
  { s with
    devicesByKey := (s.devicesByKey.erase key).insert desired node
    trafficPoints := (s.trafficPoints.insert desired (s.trafficPoints.getD key [])).erase key }

/-- A record whose new key is free is moved to it. -/
theorem rekey_of_lookup {s : StateStore} {key desired : Str} {node : DeviceState}
    (hnode : s.devicesByKey.lookup key = some node)
    (hfree : desired ∉ s.devicesByKey.erase key) :
    s.rekey key desired = (s.moveRecord key desired node, desired) := by
  simp only [rekey, hnode, if_neg hfree, moveRecord]

/-- The tables after a record was written and the last-log time touched. -/
theorem putDevice_tables (s : StateStore) (key : Str) (record : DeviceState)
    (now ts : TimePoint) :
    ((s.putDevice key record).touchLastLogLocked now ts).config = s.config ∧
      ((s.putDevice key record).touchLastLogLocked now ts).devicesByKey =
        s.devicesByKey.insert key record ∧
      ((s.putDevice key record).touchLastLogLocked now ts).ipToKey =
        indexAfter s.ipToKey key record ∧
      ((s.putDevice key record).touchLastLogLocked now ts).trafficPoints =
        s.trafficPoints := by
  have h := touchLastLogLocked_same now ts (s.putDevice key record)
  exact ⟨h.config, h.devices, h.index, h.points⟩

/-- An update that does not re-key merges into the record of the resolved key. -/
theorem updateDevice_of_plain {s : StateStore} {device : DeviceState}
    (hkey : s.resolveKey device.mac device.ip ≠ []) (hmove : ¬ s.Rekeys device.mac device.ip)
    (now : TimePoint) :
    s.updateDevice now device =
      let record := mergeDeviceLocked s.config
        (s.devicesByKey.getD (s.resolveKey device.mac device.ip) {}) device now
      (s.putDevice (s.resolveKey device.mac device.ip) record).touchLastLogLocked now
        record.lastSeen := by
  unfold updateDevice
  rw [if_neg hkey]
  by_cases hcond : device.mac ≠ [] ∧ isIpKey (s.resolveKey device.mac device.ip) ∧
      makeKey device.mac device.ip ≠ [] ∧
      makeKey device.mac device.ip ≠ s.resolveKey device.mac device.ip
  · have hmissing : s.devicesByKey.lookup (s.resolveKey device.mac device.ip) = none := by
      rw [AList.lookup_eq_none]
      intro hstored
      exact hmove ((s.rekeys_iff _ _).mpr ⟨hcond, hstored⟩)
    simp only [if_pos hcond, rekey, hmissing]
  · simp only [if_neg hcond]

/-- An update that re-keys moves the record and its points, and merges into the moved
record. -/
theorem updateDevice_of_rekeys {s : StateStore} {device node : DeviceState}
    (hmove : s.Rekeys device.mac device.ip)
    (hnode : s.devicesByKey.lookup (s.findKeyLocked device.mac device.ip) = some node)
    (now : TimePoint) :
    s.updateDevice now device =
      let record := mergeDeviceLocked s.config node device now
      ((s.moveRecord (s.findKeyLocked device.mac device.ip) (macKey (lower device.mac))
        node).putDevice (macKey (lower device.mac)) record).touchLastLogLocked now
          record.lastSeen := by
  have hcond := ((s.rekeys_iff _ _).mp hmove).1
  have hkey : s.resolveKey device.mac device.ip ≠ [] := by
    intro hnone
    have hip := hcond.2.1
    rw [hnone] at hip
    exact absurd hip (by decide)
  have hfree : macKey (lower device.mac) ∉
      s.devicesByKey.erase (s.findKeyLocked device.mac device.ip) := by
    intro hmem
    exact hmove.macKey_free (AList.mem_erase.mp hmem).2
  unfold updateDevice
  simp only [if_neg hkey, if_pos hcond]
  simp only [hmove.resolveKey_eq, makeKey_of_mac hmove.1, rekey_of_lookup hnode hfree]
  simp only [moveRecord, AList.getD, AList.lookup_insert, Option.getD_some]

/-- **What `updateDevice` does.**  It ignores a record without MAC and address;
it writes the merged record under the resolved key; or, when a MAC becomes known
for a record kept by address, it moves that record and its traffic points to the
key of the MAC first. -/
theorem updateDevice_cases (s : StateStore) (now : TimePoint) (device : DeviceState) :
    (s.resolveKey device.mac device.ip = [] ∧ s.updateDevice now device = s) ∨
    (∃ record, s.resolveKey device.mac device.ip ≠ [] ∧
      ¬ s.Rekeys device.mac device.ip ∧
      record = mergeDeviceLocked s.config
        (s.devicesByKey.getD (s.resolveKey device.mac device.ip) {}) device now ∧
      (s.updateDevice now device).config = s.config ∧
      (s.updateDevice now device).devicesByKey =
        s.devicesByKey.insert (s.resolveKey device.mac device.ip) record ∧
      (s.updateDevice now device).ipToKey =
        indexAfter s.ipToKey (s.resolveKey device.mac device.ip) record ∧
      (s.updateDevice now device).trafficPoints = s.trafficPoints) ∨
    (∃ node record, s.Rekeys device.mac device.ip ∧
      s.devicesByKey.lookup (s.findKeyLocked device.mac device.ip) = some node ∧
      record = mergeDeviceLocked s.config node device now ∧
      (s.updateDevice now device).config = s.config ∧
      (s.updateDevice now device).devicesByKey =
        (s.devicesByKey.erase (s.findKeyLocked device.mac device.ip)).insert
          (macKey (lower device.mac)) record ∧
      (s.updateDevice now device).ipToKey =
        indexAfter s.ipToKey (macKey (lower device.mac)) record ∧
      (s.updateDevice now device).trafficPoints =
        (s.trafficPoints.insert (macKey (lower device.mac))
          (s.trafficPoints.getD (s.findKeyLocked device.mac device.ip) [])).erase
            (s.findKeyLocked device.mac device.ip)) := by
  by_cases hkey : s.resolveKey device.mac device.ip = []
  · exact Or.inl ⟨hkey, by simp [updateDevice, hkey]⟩
  · right
    by_cases hmove : s.Rekeys device.mac device.ip
    · right
      obtain ⟨node, hnode⟩ := AList.exists_lookup_of_mem hmove.2.2
      obtain ⟨hconfig, hdevices, hindex, hpoints⟩ := putDevice_tables
        (s.moveRecord (s.findKeyLocked device.mac device.ip) (macKey (lower device.mac)) node)
        (macKey (lower device.mac)) (mergeDeviceLocked s.config node device now) now
        (mergeDeviceLocked s.config node device now).lastSeen
      refine ⟨node, mergeDeviceLocked s.config node device now, hmove, hnode, rfl, ?_⟩
      rw [updateDevice_of_rekeys hmove hnode]
      refine ⟨hconfig, ?_, hindex, hpoints⟩
      rw [hdevices]
      exact AList.insert_insert _
    · left
      rw [updateDevice_of_plain hkey hmove]
      exact ⟨_, hkey, hmove, rfl, putDevice_tables s _ _ _ _⟩

/-- A snapshot without MAC and address is dropped. -/
theorem updateTraffic_of_nil {s : StateStore} {snapshot : TrafficSnapshot}
    (hkey : s.resolveKey snapshot.mac snapshot.ip = []) (now : TimePoint) :
    s.updateTraffic now snapshot = s := if_pos (resolveKey_nil hkey)

/-- A snapshot with a MAC or an address writes the points and the record of the
resolved key. -/
theorem updateTraffic_of_key {s : StateStore} {snapshot : TrafficSnapshot}
    (hkey : s.resolveKey snapshot.mac snapshot.ip ≠ []) (now : TimePoint) :
    s.updateTraffic now snapshot =
      let key := s.resolveKey snapshot.mac snapshot.ip
      let current := stampTraffic now snapshot
      let decision := decideRates s.config (s.trafficPoints.getD key [])
        (s.devicesByKey.getD key {}) current
      ({ s with
          trafficPoints := s.trafficPoints.insert key
            (storePoint s.config (s.trafficPoints.getD key []) current decision) }.putDevice key
        (trafficDevice s.config (s.devicesByKey.getD key {}) current
          decision)).touchLastLogLocked now current.ts := by
  have hsome : ¬ (snapshot.mac = [] ∧ snapshot.ip = []) := by
    rintro ⟨hmac, hip⟩
    exact hkey (by rw [hmac, hip, resolveKey_nil_nil])
  have hstamped : s.resolveKey (stampTraffic now snapshot).mac (stampTraffic now snapshot).ip =
      s.resolveKey snapshot.mac snapshot.ip := s.resolveKey_lower _ _
  unfold updateTraffic
  rw [if_neg hsome]
  simp only [hstamped, if_neg hkey]

/-- **What `updateTraffic` does.**  It ignores a snapshot without MAC and
address; otherwise it writes the record and the points of the resolved key and
never re-keys. -/
theorem updateTraffic_cases (s : StateStore) (now : TimePoint) (snapshot : TrafficSnapshot) :
    (snapshot.mac = [] ∧ snapshot.ip = [] ∧ s.updateTraffic now snapshot = s) ∨
    (∃ record points, s.resolveKey snapshot.mac snapshot.ip ≠ [] ∧
      record = trafficDevice s.config
        (s.devicesByKey.getD (s.resolveKey snapshot.mac snapshot.ip) {})
        (stampTraffic now snapshot)
        (decideRates s.config (s.trafficPoints.getD (s.resolveKey snapshot.mac snapshot.ip) [])
          (s.devicesByKey.getD (s.resolveKey snapshot.mac snapshot.ip) {})
          (stampTraffic now snapshot)) ∧
      points = storePoint s.config
        (s.trafficPoints.getD (s.resolveKey snapshot.mac snapshot.ip) [])
        (stampTraffic now snapshot)
        (decideRates s.config (s.trafficPoints.getD (s.resolveKey snapshot.mac snapshot.ip) [])
          (s.devicesByKey.getD (s.resolveKey snapshot.mac snapshot.ip) {})
          (stampTraffic now snapshot)) ∧
      (s.updateTraffic now snapshot).config = s.config ∧
      (s.updateTraffic now snapshot).devicesByKey =
        s.devicesByKey.insert (s.resolveKey snapshot.mac snapshot.ip) record ∧
      (s.updateTraffic now snapshot).ipToKey =
        indexAfter s.ipToKey (s.resolveKey snapshot.mac snapshot.ip) record ∧
      (s.updateTraffic now snapshot).trafficPoints =
        s.trafficPoints.insert (s.resolveKey snapshot.mac snapshot.ip) points) := by
  by_cases hnone : snapshot.mac = [] ∧ snapshot.ip = []
  · exact Or.inl ⟨hnone.1, hnone.2, by simp [updateTraffic, hnone]⟩
  · right
    have hkey : s.resolveKey snapshot.mac snapshot.ip ≠ [] := by
      intro h
      obtain ⟨hmac, hip⟩ := resolveKey_nil h
      exact hnone ⟨hmac, hip⟩
    refine ⟨_, _, hkey, rfl, rfl, ?_⟩
    rw [updateTraffic_of_key hkey]
    exact putDevice_tables _ _ _ _ _

end StateStore

end Netmon
