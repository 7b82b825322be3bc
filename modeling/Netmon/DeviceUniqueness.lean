import Netmon.DeviceIdentity
import Netmon.RecordFacts

/-!
# One record for a MAC

The inventory is meant to be a map from MACs to records.  A traffic sample
departs from that: it writes its MAC into a record kept by address without
moving the record to the key of the MAC, as `updateDevice` does.  `KeepsHome` is
the condition under which a record with a MAC stays under the key of that MAC,
which makes MACs unique.
-/

namespace Netmon

namespace StateStore

/-! ## The MAC of a record and its key -/

/-- The MAC and the address that a call reports. -/
def telemetry : StoreOp → Option (Str × Str)
  | .updateDevice _ device => some (device.mac, device.ip)
  | .updateTraffic _ snapshot => some (snapshot.mac, snapshot.ip)
  | _ => none

/-- A call that reports a MAC reports a real one and is led to its own record. -/
def KeepsOwner (s : StateStore) (op : StoreOp) : Prop :=
  ∀ mac ip, telemetry op = some (mac, ip) → mac ≠ [] →
    ¬ IsPlaceholder (lower mac) ∧ OwnRecord s mac ip

instance (s : StateStore) (op : StoreOp) : Decidable (KeepsOwner s op) :=
  decidable_of_iff
    ((telemetry op).all fun t =>
      t.1 = [] ∨ (¬ IsPlaceholder (lower t.1) ∧ OwnRecord s t.1 t.2)) (by
    unfold KeepsOwner
    cases telemetry op with
    | none => simp
    | some t =>
        obtain ⟨mac, ip⟩ := t
        simp [or_iff_not_imp_left])

/-- A record under the key of a MAC has that MAC. -/
def NamedByKey (k : Str) (d : DeviceState) : Prop := ∀ a, k = macKey a → d.mac = a

theorem KeysLinked.resolved_lookup {s : StateStore} (hs : KeysLinked s) {mac ip : Str}
    (h : s.findKeyLocked mac ip ≠ []) :
    ∃ d, s.devicesByKey.lookup (s.findKeyLocked mac ip) = some d ∧
      s.resolveKey mac ip = s.findKeyLocked mac ip := by
  obtain ⟨d, hd⟩ := AList.exists_lookup_of_mem ((hs.found_stored mac ip).resolve_left h)
  exact ⟨d, hd, by simp [resolveKey, h]⟩

/-- What an update writes under the key of a MAC carries that MAC. -/
theorem named_write {s : StateStore} (hs : KeysLinked s) (hnamed : AllRecords NamedByKey s)
    {mac ip : Str} (hok : mac ≠ [] → ¬ IsPlaceholder (lower mac) ∧ OwnRecord s mac ip) {a : Str}
    (hkey : s.resolveKey mac ip = macKey a) :
    setIfNotEmpty (s.devicesByKey.getD (s.resolveKey mac ip) {}).mac (lower mac) = a := by
  by_cases hfound : s.findKeyLocked mac ip = []
  · have hmade : makeKey mac ip = macKey a := by simpa [resolveKey, hfound] using hkey
    rcases makeKey_cases mac ip with hm | hm | hm
    · exact absurd (hmade.symm.trans hm.2.2) (macKey_ne_nil _)
    · have hmac : lower mac = a := macKey_inj.mp (hm.2.symm.trans hmade)
      rw [setIfNotEmpty_of_ordinary (by simpa using hm.1) (hok hm.1).1, hmac]
    · exact absurd (hm.2.2.symm.trans hmade) (ipKey_ne_macKey _ _)
  · obtain ⟨d, hd, hres⟩ := hs.resolved_lookup hfound
    have hstored : s.devicesByKey.lookup (macKey a) = some d := hkey ▸ hres ▸ hd
    have hmac : d.mac = a := hnamed _ d hstored a rfl
    have hcurrent : (s.devicesByKey.getD (s.resolveKey mac ip) {}).mac = a := by
      rw [hkey, AList.getD, hstored]
      exact hmac
    rw [hcurrent]
    by_cases hempty : mac = []
    · simp [hempty]
    · obtain ⟨hordinary, hown⟩ := hok hempty
      have ha : a ≠ [] := by
        rcases hs.keyed _ (AList.mem_of_lookup hstored) with ⟨m, hm, hkm⟩ | ⟨b, -, hkb⟩
        · exact macKey_inj.mp hkm ▸ hm
        · exact absurd hkb.symm (ipKey_ne_macKey _ _)
      rw [setIfNotEmpty_of_ordinary (by simpa using hempty) hordinary]
      rcases hown d hd with h | h
      · exact absurd (hmac.symm.trans h) ha
      · exact h.symm.trans hmac

/-- One call by the rules keeps every `mac:` record under its own MAC. -/
theorem namedByKey_apply {s : StateStore} (hs : KeysLinked s)
    (hnamed : AllRecords NamedByKey s) {op : StoreOp} (hok : KeepsOwner s op) :
    AllRecords NamedByKey (s.apply op) := by
  apply hnamed.apply
  · rintro now device rfl - - a ha
    exact named_write hs hnamed (hok _ _ rfl) ha
  · rintro now device node rfl hmove - a ha
    rw [mergeDeviceLocked_mac, setIfNotEmpty_of_ordinary (by simpa using hmove.1)
      (hok _ _ rfl hmove.1).1]
    exact macKey_inj.mp ha
  · rintro now snapshot decision rfl - - a ha
    exact named_write hs hnamed (hok _ _ rfl) ha
  · intro now k d hd a ha
    rw [sweepDevice_mac]
    exact hd a ha

/-- **Exactly when an update stays with its own device.**  After every history
the updates that report a MAC and an address leave all records of other MACs
untouched, key and fields, if and only if the record they are led to has no MAC
yet or this one.  And when every call of the history meets that condition and
reports no placeholder for a MAC, each record under `mac:a` has MAC `a`. -/
theorem foreign_records_kept_iff (config : Config) (ops : List StoreOp) :
    (∀ mac ip, mac ≠ [] →
      ((∀ now device, device.mac = mac → device.ip = ip →
          ForeignKept mac (Runs.run apply (init config) ops)
            ((Runs.run apply (init config) ops).updateDevice now device)) ↔
        OwnRecord (Runs.run apply (init config) ops) mac ip) ∧
      ((∀ now snapshot, snapshot.mac = mac → snapshot.ip = ip →
          ForeignKept mac (Runs.run apply (init config) ops)
            ((Runs.run apply (init config) ops).updateTraffic now snapshot)) ↔
        OwnRecord (Runs.run apply (init config) ops) mac ip)) ∧
    (Runs.Conforms apply KeepsOwner (init config) ops →
      ∀ a d, (Runs.run apply (init config) ops).devicesByKey.lookup (macKey a) = some d →
        d.mac = a) := by
  refine ⟨?_, ?_⟩
  · intro mac ip hmac
    have hs := keysLinked_of_reachable ⟨config, ops, rfl⟩
    refine ⟨⟨hs.ownRecord_of_updateDevice, ?_⟩, ⟨hs.ownRecord_of_updateTraffic hmac, ?_⟩⟩
    · rintro hown now device rfl rfl
      exact hown.updateDevice_kept hmac
    · rintro hown now snapshot rfl rfl
      exact hown.updateTraffic_kept hmac
  · intro hrun a d hd
    have hinv : KeysLinked (Runs.run apply (init config) ops) ∧
        AllRecords NamedByKey (Runs.run apply (init config) ops) :=
      hrun.invariant (fun s => KeysLinked s ∧ AllRecords NamedByKey s)
        (fun s op hs hok => ⟨hs.1.apply op, namedByKey_apply hs.1 hs.2 hok⟩)
        ⟨keysLinked_init config, allRecords_init config⟩
    exact hinv.2 _ d hd a rfl

/-- Two devices, each heard of twice under its own address. -/
def separateHistory : List StoreOp :=
  [ .updateDevice (seconds 100) { mac := str "AA:01", ip := str "10.0.0.5" },
    .updateTraffic (seconds 110) { mac := str "bb:02", ip := str "10.0.0.6" },
    .updateTraffic (seconds 120) { mac := str "aa:01", ip := str "10.0.0.5" },
    .updateDevice (seconds 130) { mac := str "BB:02", ip := str "10.0.0.6" } ]

/-- After `separateHistory` a third device with a new address disturbs neither
of the two, and the record under `mac:bb:02` has that MAC. -/
theorem foreign_records_kept_iff_separate :
    let s := Runs.run apply (init {}) separateHistory
    (∀ now device, device.mac = str "cc:03" → device.ip = str "10.0.0.7" →
      ForeignKept (str "cc:03") s (s.updateDevice now device)) ∧
      (s.devicesByKey.lookup (macKey (str "bb:02"))).isSome ∧
      (∀ d, s.devicesByKey.lookup (macKey (str "bb:02")) = some d → d.mac = str "bb:02") := by
  refine ⟨?_, by decide +kernel, ?_⟩
  · exact ((foreign_records_kept_iff {} separateHistory).1 _ _ (by decide)).1.mpr
      (by decide +kernel)
  · exact (foreign_records_kept_iff {} separateHistory).2 (by decide +kernel) _

/-- One device on an address. -/
def firstTenant : StateStore :=
  Runs.run apply (init {})
    [.updateDevice (seconds 100) { mac := str "aa:01", ip := str "10.0.0.5" }]

/-- The address is handed to another device, whose first report overwrites the
record of the device that had it before. -/
theorem reused_address_overwrites :
    firstTenant.Reachable ∧
    ¬ ForeignKept (str "bb:02") firstTenant (firstTenant.updateDevice (seconds 200)
        { mac := str "bb:02", ip := str "10.0.0.5" }) ∧
    ((firstTenant.updateDevice (seconds 200)
        { mac := str "bb:02", ip := str "10.0.0.5" }).devicesByKey.lookup
          (macKey (str "aa:01"))).map DeviceState.mac = some (str "bb:02") := by
  have hafter : ((firstTenant.updateDevice (seconds 200)
      { mac := str "bb:02", ip := str "10.0.0.5" }).devicesByKey.lookup
        (macKey (str "aa:01"))).map DeviceState.mac = some (str "bb:02") := by decide +kernel
  refine ⟨⟨_, _, rfl⟩, ?_, hafter⟩
  intro hkept
  have hbefore : (firstTenant.devicesByKey.lookup (macKey (str "aa:01"))).map DeviceState.mac =
      some (str "aa:01") := by decide +kernel
  obtain ⟨d, hd, hmac⟩ := Option.map_eq_some_iff.mp hbefore
  rw [hkept _ d hd (by rw [hmac]; decide) (by rw [hmac]; decide)] at hafter
  rw [Option.map_some, hmac] at hafter
  exact absurd hafter (by decide)

/-! ## One record for a MAC -/

/-- No two records have the same MAC. -/
def OneRecordPerMac (s : StateStore) : Prop :=
  ∀ k k' d d', s.devicesByKey.lookup k = some d → s.devicesByKey.lookup k' = some d' →
    d.mac ≠ [] → d.mac = d'.mac → k = k'

/-- A record with a MAC is kept under the key of that MAC. -/
def AtHome (k : Str) (d : DeviceState) : Prop := d.mac ≠ [] → k = macKey d.mac

theorem oneRecordPerMac_of_atHome {s : StateStore} (h : AllRecords AtHome s) :
    OneRecordPerMac s := by
  intro k k' d d' hd hd' hmac hsame
  have hk : k = macKey d.mac := h k d hd hmac
  have hk' : k' = macKey d'.mac := h k' d' hd' (hsame ▸ hmac)
  rw [hk, hk', hsame]

/-- A MAC and an address that lead to no record or to the record of the MAC. -/
def LeadsHome (s : StateStore) (mac ip : Str) : Prop :=
  s.findKeyLocked mac ip = [] ∨ s.findKeyLocked mac ip = macKey (lower mac)

/-- A call that reports a MAC leads home; `updateDevice` may also be led to a
record kept by address, which it moves. -/
def KeepsHome (s : StateStore) : StoreOp → Prop
  | .updateDevice _ device => device.mac ≠ [] → ¬ IsPlaceholder (lower device.mac) →
      LeadsHome s device.mac device.ip ∨ isIpKey (s.findKeyLocked device.mac device.ip) = true
  | .updateTraffic _ snapshot => snapshot.mac ≠ [] → ¬ IsPlaceholder (lower snapshot.mac) →
      LeadsHome s snapshot.mac snapshot.ip
  | _ => True

instance (s : StateStore) (mac ip : Str) : Decidable (LeadsHome s mac ip) :=
  inferInstanceAs (Decidable (_ ∨ _))

instance (s : StateStore) (op : StoreOp) : Decidable (KeepsHome s op) :=
  match op with
  | .updateDevice _ _ => inferInstanceAs (Decidable (_ → _ → _ ∨ _))
  | .updateTraffic _ _ => inferInstanceAs (Decidable (_ → _ → _))
  | .updateInterface _ _ => isTrue trivial
  | .addEvent _ _ => isTrue trivial
  | .addWANAttack _ _ _ => isTrue trivial
  | .nextEventId => isTrue trivial
  | .cleanup _ => isTrue trivial

theorem LeadsHome.resolved {s : StateStore} {mac ip : Str} (hmac : mac ≠ [])
    (h : LeadsHome s mac ip) : s.resolveKey mac ip = macKey (lower mac) := by
  rcases h with h | h
  · simp [resolveKey, h, makeKey_of_mac hmac]
  · simp [resolveKey, h, macKey_ne_nil]

/-- A record stays at home when the MAC written into it is that of its key. -/
theorem atHome_write {s : StateStore} (hhome : AllRecords AtHome s) {mac ip : Str}
    (hleads : mac ≠ [] → ¬ IsPlaceholder (lower mac) →
      s.resolveKey mac ip = macKey (lower mac))
    {record : DeviceState} (hmac : record.mac =
      setIfNotEmpty (s.devicesByKey.getD (s.resolveKey mac ip) {}).mac (lower mac)) :
    AtHome (s.resolveKey mac ip) record := by
  intro hne
  by_cases hwritten : mac ≠ [] ∧ ¬ IsPlaceholder (lower mac)
  · rw [hmac, setIfNotEmpty_of_ordinary (by simpa using hwritten.1) hwritten.2]
    exact hleads hwritten.1 hwritten.2
  · have hkept : record.mac = (s.devicesByKey.getD (s.resolveKey mac ip) {}).mac := by
      rw [hmac, setIfNotEmpty, if_neg]
      simpa using hwritten
    rw [hkept] at hne ⊢
    cases hd : s.devicesByKey.lookup (s.resolveKey mac ip) with
    | none => simp [AList.getD, hd] at hne
    | some d =>
        have hcurrent : s.devicesByKey.getD (s.resolveKey mac ip) {} = d := by
          rw [AList.getD, hd]
          rfl
        rw [hcurrent] at hne ⊢
        exact hhome _ d hd hne

/-- One call by the rules keeps every record at home. -/
theorem atHome_apply {s : StateStore} (hs : KeysLinked s) (hhome : AllRecords AtHome s)
    {op : StoreOp} (hok : KeepsHome s op) : AllRecords AtHome (s.apply op) := by
  apply hhome.apply
  · rintro now device rfl - hplain
    refine atHome_write hhome ?_ (mergeDeviceLocked_mac _ _ _ _)
    intro hmac hordinary
    rcases hok hmac hordinary with hleads | hip
    · exact hleads.resolved hmac
    · have hfound : s.findKeyLocked device.mac device.ip ≠ [] := by
        obtain ⟨a, ha⟩ := isIpKey_iff.mp hip
        rw [ha]
        exact ipKey_ne_nil a
      exact absurd ⟨hmac, hip, (hs.found_stored _ _).resolve_left hfound⟩ hplain
  · rintro now device node rfl hmove hnode hne
    obtain ⟨a, ha⟩ := isIpKey_iff.mp hmove.2.1
    have hblank : node.mac = [] := by
      by_contra hmac
      exact ipKey_ne_macKey _ _ (ha.symm.trans (hhome _ node hnode hmac))
    rw [mergeDeviceLocked_mac, hblank] at hne ⊢
    rcases setIfNotEmpty_cases [] (lower device.mac) with h | h
    · exact absurd h hne
    · rw [h]
  · rintro now snapshot decision rfl - -
    refine atHome_write hhome ?_ (trafficDevice_mac _ _ _ _)
    intro hmac hordinary
    exact (hok hmac hordinary).resolved hmac
  · intro now k d hd
    unfold AtHome
    rw [sweepDevice_mac]
    exact hd

/-- A history by the rules keeps the tables linked and every record at home. -/
theorem atHome_of_conforms {config : Config} {ops : List StoreOp}
    (hrun : Runs.Conforms apply KeepsHome (init config) ops) :
    KeysLinked (Runs.run apply (init config) ops) ∧
      AllRecords AtHome (Runs.run apply (init config) ops) :=
  hrun.invariant (fun s => KeysLinked s ∧ AllRecords AtHome s)
    (fun _ op hs hok => ⟨hs.1.apply op, atHome_apply hs.1 hs.2 hok⟩)
    ⟨keysLinked_init config, allRecords_init config⟩

/-- A record with a MAC away from home gets a double: the next report of the
MAC alone creates a second record. -/
theorem stray_record_doubles {s : StateStore} {mac k : Str} {d : DeviceState} (now : TimePoint)
    (hmac : mac ≠ []) (hordinary : ¬ IsPlaceholder (lower mac))
    (hd : s.devicesByKey.lookup k = some d) (hdmac : d.mac = lower mac)
    (haway : k ≠ macKey (lower mac)) (hfree : macKey (lower mac) ∉ s.devicesByKey) :
    KeepsHome s (.updateDevice now { mac := mac }) ∧
      ¬ OneRecordPerMac (s.updateDevice now { mac := mac }) := by
  have hfound : s.findKeyLocked mac [] = [] := by
    simp [findKeyLocked, hfree]
  refine ⟨fun _ _ => Or.inl (Or.inl hfound), ?_⟩
  intro hone
  have hkey : s.resolveKey mac [] = macKey (lower mac) := by
    simp [resolveKey, hfound, makeKey_of_mac hmac]
  rcases s.updateDevice_cases now { mac := mac } with
    ⟨hnil, -⟩ | ⟨record, -, -, hrecord, -, hdevices, -, -⟩ | ⟨node, record, hmove, -⟩
  · exact hmac (resolveKey_nil hnil).1
  · simp only [hkey] at hrecord hdevices
    have hmacs : record.mac = lower mac := by
      rw [hrecord, mergeDeviceLocked_mac]
      exact setIfNotEmpty_of_ordinary (by simpa using hmac) hordinary
    have hold : (s.updateDevice now { mac := mac }).devicesByKey.lookup k = some d := by
      rw [hdevices, AList.lookup_insert_if, if_neg haway, hd]
    have hnew : (s.updateDevice now { mac := mac }).devicesByKey.lookup (macKey (lower mac)) =
        some record := by
      rw [hdevices, AList.lookup_insert]
    exact haway (hone k _ d record hold hnew (by rw [hdmac]; simpa using hmac)
      (hdmac.trans hmacs.symm))
  · have hip : isIpKey (s.findKeyLocked mac []) = true := hmove.2.1
    rw [hfound] at hip
    exact absurd hip (by decide)

/-- A record with a MAC away from home, while the key of the MAC is free. -/
def Stray (s : StateStore) (mac : Str) : Prop :=
  mac ≠ [] ∧ ¬ IsPlaceholder (lower mac) ∧ macKey (lower mac) ∉ s.devicesByKey ∧
    ∃ k d, s.devicesByKey.lookup k = some d ∧ d.mac = lower mac ∧ k ≠ macKey (lower mac)

/-- A call that is not led home writes its MAC into the record it found. -/
theorem stray_of_write {s t : StateStore} {mac ip : Str} (hmac : mac ≠ [])
    (hordinary : ¬ IsPlaceholder (lower mac)) (hleads : ¬ LeadsHome s mac ip)
    {record : DeviceState}
    (hdevices : t.devicesByKey = s.devicesByKey.insert (s.resolveKey mac ip) record)
    (hrecord : record.mac =
      setIfNotEmpty (s.devicesByKey.getD (s.resolveKey mac ip) {}).mac (lower mac)) :
    Stray t mac := by
  obtain ⟨hfound, haway⟩ := not_or.mp hleads
  have hkey : s.resolveKey mac ip = s.findKeyLocked mac ip := by simp [resolveKey, hfound]
  have hfree : macKey (lower mac) ∉ s.devicesByKey := by
    intro hstored
    exact haway (by simp [findKeyLocked, hmac, hstored])
  rw [setIfNotEmpty_of_ordinary (by simpa using hmac) hordinary] at hrecord
  refine ⟨hmac, hordinary, ?_, s.findKeyLocked mac ip, record, ?_, hrecord, haway⟩
  · rw [hdevices, AList.mem_insert, hkey]
    rintro (h | h)
    · exact haway h.symm
    · exact hfree h
  · rw [hdevices, hkey, AList.lookup_insert]

theorem stray_of_not_keepsHome {s : StateStore} {op : StoreOp} (h : ¬ KeepsHome s op) :
    ∃ mac, Stray (s.apply op) mac := by
  cases op with
  | updateDevice now device =>
      simp only [KeepsHome, Classical.not_imp, not_or] at h
      obtain ⟨hmac, hordinary, hleads, hip⟩ := h
      rcases s.updateDevice_cases now device with
        ⟨hnil, -⟩ | ⟨record, -, -, hrecord, -, hdevices, -, -⟩ | ⟨node, record, hmove, -⟩
      · exact absurd (resolveKey_nil hnil).1 hmac
      · exact ⟨_, stray_of_write hmac hordinary hleads hdevices (hrecord ▸ rfl)⟩
      · exact absurd hmove.2.1 hip
  | updateTraffic now snapshot =>
      simp only [KeepsHome, Classical.not_imp] at h
      obtain ⟨hmac, hordinary, hleads⟩ := h
      rcases s.updateTraffic_cases now snapshot with
        ⟨hnil, -, -⟩ | ⟨record, points, -, hrecord, -, -, hdevices, -, -⟩
      · exact absurd hnil hmac
      · exact ⟨_, stray_of_write hmac hordinary hleads hdevices (hrecord ▸ rfl)⟩
  | updateInterface now snapshot => exact absurd trivial h
  | addEvent now event => exact absurd trivial h
  | addWANAttack now later event => exact absurd trivial h
  | nextEventId => exact absurd trivial h
  | cleanup now => exact absurd trivial h

/-- **Exactly when MACs stay unique.**  A history in which every reported MAC
is led to no record, to its own record or, for `updateDevice`, to a record kept
by address, has one record for each MAC throughout.  The condition cannot be
weakened at any call: the first call that breaks it can be followed by a call
that meets it and leaves two records with one MAC. -/
theorem one_record_per_mac_iff {config : Config} {before : List StoreOp}
    (hbefore : Runs.Conforms apply KeepsHome (init config) before) :
    OneRecordPerMac (Runs.run apply (init config) before) ∧
    ∀ op, KeepsHome (Runs.run apply (init config) before) op ↔
      ∀ after, Runs.Conforms apply KeepsHome
          (Runs.run apply (init config) (before ++ [op])) after →
        OneRecordPerMac (Runs.run apply (init config) (before ++ op :: after)) := by
  refine ⟨oneRecordPerMac_of_atHome (atHome_of_conforms hbefore).2, ?_⟩
  intro op
  rw [Runs.run_concat]
  constructor
  · intro hop after hafter
    have hall : Runs.Conforms apply KeepsHome (init config) (before ++ op :: after) :=
      Runs.conforms_append.mpr ⟨hbefore, hop, hafter⟩
    exact oneRecordPerMac_of_atHome (atHome_of_conforms hall).2
  · intro hafter
    by_contra hop
    obtain ⟨mac, hmac, hordinary, hfree, k, d, hd, hdmac, haway⟩ := stray_of_not_keepsHome hop
    obtain ⟨hok, hdouble⟩ := stray_record_doubles 0 hmac hordinary hd hdmac haway hfree
    have hone := hafter [.updateDevice 0 { mac := mac }] ⟨hok, trivial⟩
    rw [Runs.run_append] at hone
    exact hdouble hone

/-- `separateHistory` meets the condition at every call, so it leaves one record
for each MAC. -/
theorem one_record_per_mac_iff_separate :
    Runs.Conforms apply KeepsHome (init {}) separateHistory ∧
      OneRecordPerMac (Runs.run apply (init {}) separateHistory) :=
  ⟨by decide +kernel, (one_record_per_mac_iff (by decide +kernel)).1⟩

/-- A device first counted by address, then by MAC and address, then reported
by MAC alone, by traffic samples and one lease. -/
def strayHistory : List StoreOp :=
  [ .updateTraffic (seconds 100) { ip := str "10.0.0.5", rxBytes := 10 },
    .updateTraffic (seconds 110) { mac := str "aa:01", ip := str "10.0.0.5", rxBytes := 20 },
    .updateDevice (seconds 120) { mac := str "aa:01" } ]

/-- Traffic samples write the MAC into the record kept by address, and the lease
then creates a second record with the same MAC. -/
theorem traffic_mac_doubles :
    let s := Runs.run apply (init {}) strayHistory
    (s.devicesByKey.lookup (ipKey (str "10.0.0.5"))).map DeviceState.mac =
        some (str "aa:01") ∧
      (s.devicesByKey.lookup (macKey (str "aa:01"))).map DeviceState.mac =
        some (str "aa:01") ∧
      ¬ OneRecordPerMac s := by
  have hip : ((Runs.run apply (init {}) strayHistory).devicesByKey.lookup
      (ipKey (str "10.0.0.5"))).map DeviceState.mac = some (str "aa:01") := by decide +kernel
  have hmac : ((Runs.run apply (init {}) strayHistory).devicesByKey.lookup
      (macKey (str "aa:01"))).map DeviceState.mac = some (str "aa:01") := by decide +kernel
  refine ⟨hip, hmac, ?_⟩
  intro hone
  obtain ⟨d, hd, hdmac⟩ := Option.map_eq_some_iff.mp hip
  obtain ⟨d', hd', hdmac'⟩ := Option.map_eq_some_iff.mp hmac
  exact ipKey_ne_macKey _ _
    (hone _ _ d d' hd hd' (by rw [hdmac]; decide) (hdmac.trans hdmac'.symm))

end StateStore

end Netmon
