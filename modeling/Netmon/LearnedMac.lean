import Netmon.RecordTracks
import Netmon.StoreCalls

/-!
# Learning a MAC

A device that was known by its address only is re-keyed when an update reports its
MAC.  Its record and its traffic points move to the key of the MAC, the one index
entry that led to the old key follows, and nothing else changes.  The next traffic
snapshot then finds the same last point, the same rates and the same rate time as it
would have found under the old key, so it sets the same rates.
-/

namespace Netmon

/-- The traffic history of a record. -/
structure SameTraffic (d d' : DeviceState) : Prop where
  rxBytesTotal : d'.rxBytesTotal = d.rxBytesTotal
  txBytesTotal : d'.txBytesTotal = d.txBytesTotal
  rxRateBps : d'.rxRateBps = d.rxRateBps
  txRateBps : d'.txRateBps = d.txRateBps
  lastTraffic : d'.lastTraffic = d.lastTraffic
  lastRate : d'.lastRate = d.lastRate

theorem WithoutTraffic.merge {incoming : DeviceState} (h : WithoutTraffic incoming)
    (config : Config) (current : DeviceState) (now : TimePoint) :
    SameTraffic current (mergeDeviceLocked config current incoming now) where
  rxBytesTotal := by simp [mergeDeviceLocked, h.rxBytesTotal]
  txBytesTotal := by simp [mergeDeviceLocked, h.txBytesTotal]
  rxRateBps := by simp [mergeDeviceLocked, h.rxRateBps]
  txRateBps := by simp [mergeDeviceLocked, h.txRateBps]
  lastTraffic := by simp [mergeDeviceLocked, h.lastTraffic]
  lastRate := by simp [mergeDeviceLocked, h.lastRate]

namespace StateStore

/-- The rates depend on the points, on the rates so far and their time, and on the
time and counters of the snapshot; not on the names of the device. -/
theorem decideRates_congr {config : Config} {points : List TrafficSnapshot} {d d' : DeviceState}
    (h : SameTraffic d d') {current current' : TrafficSnapshot} (hts : current'.ts = current.ts)
    (hrx : current'.rxBytes = current.rxBytes) (htx : current'.txBytes = current.txBytes) :
    decideRates config points d' current' = decideRates config points d current := by
  unfold decideRates hasRecentRate
  rw [hts, hrx, htx, h.rxRateBps, h.txRateBps, h.lastRate]

/-- The key of a stored MAC is the one an update with that MAC works on. -/
theorem resolveKey_of_mac {s : StateStore} {mac : Str} (hmac : mac ≠ [])
    (h : macKey (lower mac) ∈ s.devicesByKey) (ip : Str) :
    s.resolveKey mac ip = macKey (lower mac) := by
  have hfound : s.findKeyLocked mac ip = macKey (lower mac) := by
    unfold findKeyLocked
    rw [if_pos ⟨by simpa using hmac, h⟩]
  rw [resolveKey, hfound, if_neg (macKey_ne_nil _)]

/-- An address without a MAC leads to the same key as with a MAC that is not
stored. -/
theorem findKeyLocked_of_free {s : StateStore} {mac : Str} (h : macKey (lower mac) ∉ s.devicesByKey)
    (ip : Str) : s.findKeyLocked [] ip = s.findKeyLocked mac ip := by
  simp [findKeyLocked, h]

/-- The rates that a traffic snapshot sets. -/
theorem updateTraffic_rates {s : StateStore} (snapshot : TrafficSnapshot) {key : Str}
    {device : DeviceState} (hkey : s.resolveKey snapshot.mac snapshot.ip = key) (hne : key ≠ [])
    (hdevice : s.devicesByKey.lookup key = some device) (now : TimePoint) :
    ∃ record, (s.updateTraffic now snapshot).devicesByKey.lookup key = some record ∧
      (record.rxRateBps, record.txRateBps) =
        let decision := decideRates s.config (s.trafficPoints.getD key []) device
          (stampTraffic now snapshot)
        (decision.rxRate, decision.txRate) := by
  subst hkey
  rcases s.updateTraffic_cases now snapshot with
    ⟨hmac, hip, -⟩ | ⟨record, points, -, hrecord, -, -, hdevices, -, -⟩
  · exact absurd (by rw [hmac, hip, resolveKey_nil_nil]) hne
  · refine ⟨record, ?_, ?_⟩
    · rw [hdevices, AList.lookup_insert]
    · rw [hrecord, AList.getD, hdevice]
      rfl

/-- What is known when an update reports a MAC for a device that is kept under its
address. -/
structure Learns (s : StateStore) (m a : Str) (device : DeviceState) : Prop where
  linked : KeysLinked s
  mac_ne_nil : m ≠ []
  found : s.findKeyLocked m a = ipKey a
  ordinary : ¬ IsPlaceholder a
  mac : device.mac = m
  ip : device.ip = a

variable {s : StateStore} {m a : Str} {device : DeviceState}

theorem Learns.rekeys (h : Learns s m a device) : s.Rekeys device.mac device.ip := by
  rw [h.mac, h.ip]
  refine ⟨h.mac_ne_nil, by rw [h.found]; simp, ?_⟩
  exact (h.linked.found_stored m a).resolve_left (by rw [h.found]; exact ipKey_ne_nil a)

theorem Learns.free (h : Learns s m a device) : macKey (lower m) ∉ s.devicesByKey :=
  h.mac ▸ h.rekeys.macKey_free

/-- The record and the points move to the key of the MAC, and the address leads
there. -/
theorem Learns.tables (h : Learns s m a device) (now : TimePoint) :
    ∃ node, s.devicesByKey.lookup (ipKey a) = some node ∧
      (s.updateDevice now device).config = s.config ∧
      (s.updateDevice now device).devicesByKey =
        (s.devicesByKey.erase (ipKey a)).insert (macKey (lower m))
          (mergeDeviceLocked s.config node device now) ∧
      (s.updateDevice now device).ipToKey = s.ipToKey.insert a (macKey (lower m)) ∧
      (s.updateDevice now device).trafficPoints =
        (s.trafficPoints.insert (macKey (lower m)) (s.trafficPoints.getD (ipKey a) [])).erase
          (ipKey a) := by
  obtain ⟨-, hane⟩ := h.linked.rekeys_found h.rekeys
  rcases s.updateDevice_cases now device with
    ⟨hnone, -⟩ | ⟨-, -, hplain, -⟩ |
      ⟨node, record, -, hnode, rfl, hconfig, hdevices, hindex, hpoints⟩
  · rw [h.rekeys.resolveKey_eq, h.mac, h.ip, h.found] at hnone
    exact absurd hnone (ipKey_ne_nil a)
  · exact absurd h.rekeys hplain
  · rw [h.mac, h.ip, h.found] at hnode hdevices hpoints
    rw [h.ip] at hane
    rw [h.mac, indexAfter, mergeDeviceLocked_ip, h.ip, setIfNotEmpty_of_ordinary hane h.ordinary,
      if_pos hane] at hindex
    exact ⟨node, hnode, hconfig, hdevices, hindex, hpoints⟩

/-- A traffic snapshot for the MAC sets the rates that one for the address would
have set: it meets the same points, the same rates and the same rate time. -/
theorem Learns.same_rates (h : Learns s m a device) (hquiet : WithoutTraffic device)
    (now later : TimePoint) {snapshot : TrafficSnapshot} (hsnapshot : snapshot.mac = m) :
    ∃ record record',
      (s.updateTraffic later { snapshot with mac := [], ip := a }).devicesByKey.lookup
        (ipKey a) = some record ∧
      ((s.updateDevice now device).updateTraffic later snapshot).devicesByKey.lookup
        (macKey (lower m)) = some record' ∧
      record'.rxRateBps = record.rxRateBps ∧ record'.txRateBps = record.txRateBps := by
  obtain ⟨node, hnode, hconfig, hdevices, -, hpoints⟩ := h.tables now
  have hhere : (s.updateDevice now device).devicesByKey.lookup (macKey (lower m)) =
      some (mergeDeviceLocked s.config node device now) := by
    rw [hdevices, AList.lookup_insert]
  have hmoved : (s.updateDevice now device).trafficPoints.getD (macKey (lower m)) [] =
      s.trafficPoints.getD (ipKey a) [] := by
    rw [hpoints, AList.getD, AList.lookup_erase_ne (ipKey_ne_macKey a _).symm,
      AList.lookup_insert, Option.getD_some]
  have hold : s.resolveKey [] a = ipKey a := by
    rw [resolveKey, findKeyLocked_of_free h.free, h.found, if_neg (ipKey_ne_nil a)]
  have hnew : (s.updateDevice now device).resolveKey snapshot.mac snapshot.ip =
      macKey (lower m) := by
    rw [hsnapshot]
    exact resolveKey_of_mac h.mac_ne_nil (AList.mem_of_lookup hhere) _
  obtain ⟨record, hrecord, hrates⟩ := updateTraffic_rates
    { snapshot with mac := [], ip := a } hold (ipKey_ne_nil a) hnode later
  obtain ⟨record', hrecord', hrates'⟩ := updateTraffic_rates snapshot hnew (macKey_ne_nil _)
    hhere later
  have hsame : decideRates s.config (s.trafficPoints.getD (ipKey a) [])
        (mergeDeviceLocked s.config node device now) (stampTraffic later snapshot) =
      decideRates s.config (s.trafficPoints.getD (ipKey a) []) node
        (stampTraffic later { snapshot with mac := [], ip := a }) :=
    decideRates_congr (hquiet.merge s.config node now) rfl rfl rfl
  rw [hconfig, hmoved, hsame] at hrates'
  have heq := hrates'.trans hrates.symm
  exact ⟨record, record', hrecord, hrecord', congrArg Prod.fst heq, congrArg Prod.snd heq⟩

/-- **Learning a MAC keeps the history.**  An update that reports a MAC for a device
known by address moves its record and its points to the key of the MAC, repoints the
address and changes nothing else.  The record keeps its traffic history and its first
sighting; one that was never seen counts as first seen now.  Its tags stay in front, in
their order, and those of the update that it does not have follow. -/
theorem learned_mac_keeps_history {s : StateStore} (hs : s.Reachable) {m a : Str} (hm : m ≠ [])
    (hfound : s.findKeyLocked m a = ipKey a) (ha : ¬ IsPlaceholder a) (now : TimePoint)
    (device : DeviceState) (hmac : device.mac = m) (hip : device.ip = a)
    (hquiet : WithoutTraffic device) :
    let t := s.updateDevice now device
    (∃ node record, s.devicesByKey.lookup (ipKey a) = some node ∧
      t.devicesByKey.lookup (macKey (lower m)) = some record ∧
      record.firstSeen = (if node.firstSeen = 0 then
        if device.lastSeen = 0 then now else device.lastSeen else node.firstSeen) ∧
      SameTraffic node record ∧ record.tags = addTags node.tags device.tags ∧
      node.tags <+: record.tags ∧
      ∀ tag, tag ∈ record.tags ↔ tag ∈ node.tags ∨ tag ∈ device.tags) ∧
    ipKey a ∉ t.devicesByKey ∧
    (∀ k, k ≠ ipKey a → k ≠ macKey (lower m) →
      t.devicesByKey.lookup k = s.devicesByKey.lookup k) ∧
    t.devicesByKey.entries.length = s.devicesByKey.entries.length ∧
    t.trafficPoints.getD (macKey (lower m)) [] = s.trafficPoints.getD (ipKey a) [] ∧
    ipKey a ∉ t.trafficPoints ∧
    (∀ k, k ≠ ipKey a → k ≠ macKey (lower m) →
      t.trafficPoints.lookup k = s.trafficPoints.lookup k) ∧
    t.ipToKey.lookup a = some (macKey (lower m)) ∧
    (∀ b, t.ipToKey.lookup b ≠ some (ipKey a)) ∧
    (∀ b, b ≠ a → t.ipToKey.lookup b = s.ipToKey.lookup b) ∧
    ∀ later snapshot, snapshot.mac = m →
      ∃ record record',
        (s.updateTraffic later { snapshot with mac := [], ip := a }).devicesByKey.lookup
          (ipKey a) = some record ∧
        (t.updateTraffic later snapshot).devicesByKey.lookup (macKey (lower m)) = some record' ∧
        record'.rxRateBps = record.rxRateBps ∧ record'.txRateBps = record.txRateBps := by
  have h : Learns s m a device := ⟨keysLinked_of_reachable hs, hm, hfound, ha, hmac, hip⟩
  have hne : ipKey a ≠ macKey (lower m) := ipKey_ne_macKey a _
  obtain ⟨node, hnode, -, hdevices, hindex, hpoints⟩ := h.tables now
  refine ⟨⟨node, _, hnode, by rw [hdevices, AList.lookup_insert], rfl,
    hquiet.merge s.config node now, rfl, addTags_extends _ _, fun tag => mem_addTags⟩, ?_,
    fun k hk hk' => ?_, ?_, ?_, ?_, fun k hk hk' => ?_, ?_, fun b hb => ?_, fun b hb => ?_,
    fun later snapshot hsnapshot => h.same_rates hquiet now later hsnapshot⟩
  · simp [hdevices, hne]
  · rw [hdevices, AList.lookup_insert_ne hk', AList.lookup_erase_ne hk]
  · rw [hdevices]
    exact AList.length_move (AList.mem_of_lookup hnode) h.free
  · rw [hpoints, AList.getD, AList.lookup_erase_ne hne.symm, AList.lookup_insert, Option.getD_some]
  · simp [hpoints]
  · rw [hpoints, AList.lookup_erase_ne hk, AList.lookup_insert_ne hk']
  · rw [hindex, AList.lookup_insert]
  · rw [hindex, AList.lookup_insert_if] at hb
    split at hb
    · exact hne (Option.some.inj hb).symm
    · rename_i hother
      exact hother (h.linked.index_ip b a hb)
  · rw [hindex, AList.lookup_insert_ne hb]

/-- A device known by address, with one point of traffic. -/
def knownByAddress : StateStore :=
  Runs.run apply (init {})
    [.updateTraffic 0 { ip := str "10.0.0.5", ts := seconds 100, rxBytes := 10, txBytes := 20 }]

theorem learned_mac_keeps_history_traffic :
    ∃ record record',
      (knownByAddress.updateTraffic 0
        { ip := str "10.0.0.5", ts := seconds 110, rxBytes := 50 }).devicesByKey.lookup
          (ipKey (str "10.0.0.5")) = some record ∧
      ((knownByAddress.updateDevice 0 { mac := str "aa:01", ip := str "10.0.0.5" }).updateTraffic 0
        { mac := str "aa:01", ts := seconds 110, rxBytes := 50 }).devicesByKey.lookup
          (macKey (str "aa:01")) = some record' ∧
      record'.rxRateBps = record.rxRateBps ∧ record'.txRateBps = record.txRateBps := by
  have h := learned_mac_keeps_history (s := knownByAddress) ⟨{}, _, rfl⟩ (m := str "aa:01")
    (a := str "10.0.0.5") (by decide) (by decide +kernel) (by decide) 0
    { mac := str "aa:01", ip := str "10.0.0.5" } rfl rfl ⟨rfl, rfl, rfl, rfl, rfl, rfl⟩
  exact h.2.2.2.2.2.2.2.2.2.2 0 { mac := str "aa:01", ts := seconds 110, rxBytes := 50 } rfl

/-- A record first seen at the epoch, which the store takes for "never", is first
seen again when its MAC is learned. -/
theorem learned_mac_moves_first_seen :
    let s := Runs.run apply (init {}) [.updateDevice 0 { ip := str "10.0.0.5" }]
    let t := s.updateDevice (seconds 5) { mac := str "aa:01", ip := str "10.0.0.5" }
    s.findKeyLocked (str "aa:01") (str "10.0.0.5") = ipKey (str "10.0.0.5") ∧
      macKey (str "aa:01") ∉ s.devicesByKey ∧
      (s.devicesByKey.lookup (ipKey (str "10.0.0.5"))).map DeviceState.firstSeen = some 0 ∧
      (t.devicesByKey.lookup (macKey (str "aa:01"))).map DeviceState.firstSeen =
        some (seconds 5) := by
  decide +kernel

end StateStore

end Netmon
