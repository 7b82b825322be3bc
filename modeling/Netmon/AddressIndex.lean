import Netmon.RecordFacts
import Netmon.DeviceUniqueness

/-!
# The address index and the addresses of the records

`ip_to_key_` is the way from an address to a device for telemetry without a MAC.
Every update adds the address of its record, but nothing takes an address out
before the whole device expires.  So a record that changes its address leaves the
entry of the old one behind, and telemetry of the next owner of that address is
credited to it.

`KeepsAddress` says that a call does not do this, and it is exactly what keeps
the index coherent.
-/

namespace Netmon

namespace StateStore

/-- Every index entry leads to a record that has the address of the entry. -/
def AddressesCurrent (s : StateStore) : Prop :=
  ∀ a k, s.ipToKey.lookup a = some k → ∃ d, s.devicesByKey.lookup k = some d ∧ d.ip = a

/-- The index is coherent: its entries are current, telemetry that carries an
address alone is not led to a record with another one, and there are no more
entries than devices. -/
structure IndexCoherent (s : StateStore) : Prop where
  current : AddressesCurrent s
  credited : ∀ a d, s.devicesByKey.lookup (s.findKeyLocked [] a) = some d →
    d.ip = [] ∨ d.ip = a
  size : s.ipToKey.keys.length ≤ s.devicesByKey.keys.length

/-- A call that reports an address to a record that the index knows by its
address reports that address, or none. -/
def KeepsAddress (s : StateStore) (op : StoreOp) : Prop :=
  ∀ mac ip, telemetry op = some (mac, ip) →
    ∀ d, s.devicesByKey.lookup (s.resolveKey mac ip) = some d →
      s.ipToKey.lookup d.ip = some (s.resolveKey mac ip) →
        ip = [] ∨ IsPlaceholder ip ∨ ip = d.ip

instance (s : StateStore) (op : StoreOp) : Decidable (KeepsAddress s op) :=
  decidable_of_iff
    ((telemetry op).all fun t =>
      (s.devicesByKey.lookup (s.resolveKey t.1 t.2)).all fun d =>
        s.ipToKey.lookup d.ip = some (s.resolveKey t.1 t.2) →
          t.2 = [] ∨ IsPlaceholder t.2 ∨ t.2 = d.ip) (by
    unfold KeepsAddress
    cases telemetry op with
    | none => simp
    | some t =>
        obtain ⟨mac, ip⟩ := t
        cases hd : s.devicesByKey.lookup (s.resolveKey mac ip) with
        | none => simp [hd]
        | some d => simp [hd, or_iff_not_imp_left])

/-! ## Coherence follows from current entries -/

/-- Current entries of different addresses lead to different records. -/
theorem AddressesCurrent.size {s : StateStore} (h : AddressesCurrent s) :
    s.ipToKey.keys.length ≤ s.devicesByKey.keys.length := by
  let target : Str → Str := fun a => s.ipToKey.getD a []
  have htarget : ∀ a ∈ s.ipToKey.keys, ∃ d,
      s.devicesByKey.lookup (target a) = some d ∧ d.ip = a := by
    intro a ha
    obtain ⟨k, hk⟩ := AList.exists_lookup_of_mem (AList.mem_keys.mpr ha)
    have hvalue : target a = k := by simp [target, AList.getD, hk]
    rw [hvalue]
    exact h a k hk
  have hnodup : (s.ipToKey.keys.map target).Nodup := by
    refine List.Nodup.map_on ?_ s.ipToKey.keys_nodup
    intro a ha b hb hsame
    obtain ⟨d, hd, rfl⟩ := htarget a ha
    obtain ⟨e, he, rfl⟩ := htarget b hb
    rw [hsame, he] at hd
    rw [Option.some.inj hd]
  have hsubset : s.ipToKey.keys.map target ⊆ s.devicesByKey.keys := by
    intro k hk
    obtain ⟨a, ha, rfl⟩ := List.mem_map.mp hk
    obtain ⟨d, hd, -⟩ := htarget a ha
    exact AList.mem_keys.mp (AList.mem_of_lookup hd)
  simpa using (List.subperm_of_subset hnodup hsubset).length_le

theorem AddressesCurrent.coherent {s : StateStore} (h : AddressesCurrent s)
    (hs : KeysLinked s) : IndexCoherent s where
  current := h
  credited := by
    intro a d hd
    rcases s.findKeyLocked_cases [] a with hf | hf | hf | hf
    · exact absurd rfl hf.1
    · obtain ⟨e, he, hip⟩ := h a _ hf.2.2
      rw [hd] at he
      cases he
      exact Or.inr hip
    · rw [hf.2.2.2.2] at hd
      exact hs.record_ip a d hd
    · rw [hf.2.2] at hd
      exact absurd (AList.mem_of_lookup hd) hs.nil_not_stored
  size := h.size

/-! ## One call -/

theorem indexAfter_kept {index : StrMap Str} {key a : Str} {record : DeviceState}
    (h : a ≠ record.ip) : (indexAfter index key record).lookup a = index.lookup a := by
  unfold indexAfter
  split
  · rw [AList.lookup_insert_if, if_neg h]
  · rfl

/-- A write keeps the entries current exactly when the record that the index
knows by its address keeps that address. -/
theorem current_write_iff {s t : StateStore} (hcur : AddressesCurrent s)
    {key : Str} {record : DeviceState}
    (hdevices : t.devicesByKey = s.devicesByKey.insert key record)
    (hindex : t.ipToKey = indexAfter s.ipToKey key record) :
    AddressesCurrent t ↔
      ∀ d, s.devicesByKey.lookup key = some d →
        s.ipToKey.lookup d.ip = some key → record.ip = d.ip := by
  constructor
  · intro hafter d hd hentry
    by_contra hmoved
    have hstale : t.ipToKey.lookup d.ip = some key := by
      rw [hindex, indexAfter_kept (Ne.symm hmoved), hentry]
    obtain ⟨e, he, hip⟩ := hafter d.ip key hstale
    rw [hdevices, AList.lookup_insert] at he
    cases he
    exact hmoved hip
  · intro hkeep a k ha
    rw [hindex] at ha
    rw [hdevices, AList.lookup_insert_if]
    rcases lookup_indexAfter ha with ⟨rfl, -, rfl⟩ | ⟨-, hold⟩
    · exact ⟨record, if_pos rfl, rfl⟩
    · obtain ⟨d, hd, rfl⟩ := hcur a k hold
      by_cases hkey : k = key
      · subst hkey
        exact ⟨record, if_pos rfl, hkeep d hd hold⟩
      · exact ⟨d, by rw [if_neg hkey, hd], rfl⟩

/-- The address written into a record is the one it has exactly when the call
reports none or the same. -/
theorem setIfNotEmpty_eq_iff {dest value : Str} :
    setIfNotEmpty dest value = dest ↔ value = [] ∨ IsPlaceholder value ∨ value = dest := by
  unfold setIfNotEmpty
  split
  · rename_i h
    simp [h.1, h.2]
  · rename_i h
    simp only [true_iff]
    by_cases hempty : value = []
    · exact Or.inl hempty
    · exact Or.inr (Or.inl (by_contra fun hordinary => h ⟨hempty, hordinary⟩))

/-- A write of reported telemetry under its resolved key. -/
theorem current_resolved_iff {s t : StateStore} (hcur : AddressesCurrent s)
    {mac ip : Str} {record : DeviceState}
    (hip : record.ip =
      setIfNotEmpty (s.devicesByKey.getD (s.resolveKey mac ip) {}).ip ip)
    (hdevices : t.devicesByKey = s.devicesByKey.insert (s.resolveKey mac ip) record)
    (hindex : t.ipToKey = indexAfter s.ipToKey (s.resolveKey mac ip) record) :
    AddressesCurrent t ↔
      ∀ d, s.devicesByKey.lookup (s.resolveKey mac ip) = some d →
        s.ipToKey.lookup d.ip = some (s.resolveKey mac ip) →
          ip = [] ∨ IsPlaceholder ip ∨ ip = d.ip := by
  rw [current_write_iff hcur hdevices hindex]
  refine forall_congr' fun d => forall_congr' fun hd => ?_
  have hcurrent : s.devicesByKey.getD (s.resolveKey mac ip) {} = d := by
    rw [AList.getD, hd]
    rfl
  rw [hip, hcurrent, setIfNotEmpty_eq_iff]

/-- Moving a record from the key of its address to the key of its MAC keeps the
entries current: the one entry of the old key is repointed. -/
theorem current_moved {s t : StateStore} (hs : KeysLinked s) (hcur : AddressesCurrent s)
    {mac ip : Str} (hmove : s.Rekeys mac ip) {node record : DeviceState}
    (hip : record.ip = setIfNotEmpty node.ip ip)
    (hdevices : t.devicesByKey =
      (s.devicesByKey.erase (s.findKeyLocked mac ip)).insert (macKey (lower mac)) record)
    (hindex : t.ipToKey = indexAfter s.ipToKey (macKey (lower mac)) record) :
    AddressesCurrent t := by
  obtain ⟨hfound, hne⟩ := hs.rekeys_found hmove
  intro a k ha
  rw [hindex] at ha
  rw [hdevices, AList.lookup_insert_if, hfound, AList.lookup_erase_if]
  rcases lookup_indexAfter ha with ⟨rfl, -, rfl⟩ | ⟨hnot, hold⟩
  · exact ⟨record, if_pos rfl, rfl⟩
  · obtain ⟨d, hd, hdip⟩ := hcur a k hold
    refine ⟨d, ?_, hdip⟩
    rw [if_neg, if_neg, hd]
    · rintro rfl
      obtain rfl := hs.index_ip a ip hold
      rw [hip, setIfNotEmpty_of_ordinary hne (hs.index_ordinary a _ hold)] at hnot
      exact hnot ⟨rfl, hne⟩
    · rintro rfl
      exact hmove.macKey_free (hs.index_stored a _ hold)

/-- Expiry keeps the entries current: they go with their records. -/
theorem AddressesCurrent.cleanup {s : StateStore} (hcur : AddressesCurrent s)
    (now : TimePoint) : AddressesCurrent (s.cleanup now) := by
  obtain ⟨-, hdevices, -, hindex⟩ := s.cleanup_tables now
  intro a k ha
  rw [hindex, Option.filter_eq_some_iff, decide_eq_true_eq] at ha
  obtain ⟨d, hd, hip⟩ := hcur a k ha.1
  exact ⟨sweepDevice s.config now d, by rw [hdevices, if_neg ha.2, hd]; rfl, by simpa using hip⟩

theorem AddressesCurrent.of_same {s t : StateStore} (h : SameTables s t)
    (hcur : AddressesCurrent s) : AddressesCurrent t := by
  unfold AddressesCurrent
  rw [h.index, h.devices]
  exact hcur

theorem keepsAddress_iff {s : StateStore} {op : StoreOp} {mac ip : Str}
    (h : telemetry op = some (mac, ip)) :
    KeepsAddress s op ↔
      ∀ d, s.devicesByKey.lookup (s.resolveKey mac ip) = some d →
        s.ipToKey.lookup d.ip = some (s.resolveKey mac ip) →
          ip = [] ∨ IsPlaceholder ip ∨ ip = d.ip := by
  unfold KeepsAddress
  rw [h]
  exact ⟨fun hkeep => hkeep mac ip rfl, by rintro hkeep _ _ ⟨⟩; exact hkeep⟩

/-- An unplaced call, or one that writes no record, keeps every address. -/
theorem keepsAddress_of_unstored {s : StateStore} {op : StoreOp}
    (h : ∀ mac ip, telemetry op = some (mac, ip) →
      s.resolveKey mac ip ∉ s.devicesByKey) : KeepsAddress s op := by
  intro mac ip htelemetry d hd
  exact absurd (AList.mem_of_lookup hd) (h mac ip htelemetry)

/-- A call without MAC and address meets the condition. -/
theorem keepsAddress_of_untold {s : StateStore} {op : StoreOp} (h : telemetry op = none) :
    KeepsAddress s op := by
  intro mac ip htold
  exact absurd (h.symm.trans htold) (by simp)

/-- **One call.**  From linked tables with current entries, a call leaves the
entries current exactly when it keeps the address of the record it is led to. -/
theorem current_apply_iff {s : StateStore} (hs : KeysLinked s) (hcur : AddressesCurrent s)
    (op : StoreOp) : AddressesCurrent (s.apply op) ↔ KeepsAddress s op := by
  cases op with
  | updateDevice now device =>
      show AddressesCurrent (s.updateDevice now device) ↔ _
      rcases s.updateDevice_cases now device with
        ⟨hnone, hsame⟩ | ⟨record, -, -, hrecord, -, hdevices, hindex, -⟩ |
          ⟨node, record, hmove, hnode, hrecord, -, hdevices, hindex, -⟩
      · rw [hsame]
        refine iff_of_true hcur (keepsAddress_of_unstored ?_)
        rintro mac ip ⟨⟩
        rw [hnone]
        exact hs.nil_not_stored
      · have hip := congrArg DeviceState.ip hrecord
        rw [mergeDeviceLocked_ip] at hip
        rw [current_resolved_iff hcur hip hdevices hindex]
        exact (keepsAddress_iff rfl).symm
      · have hip := congrArg DeviceState.ip hrecord
        rw [mergeDeviceLocked_ip] at hip
        refine iff_of_true (current_moved hs hcur hmove hip hdevices hindex) ?_
        rw [keepsAddress_iff rfl]
        intro d _ hentry
        obtain ⟨hfound, hne⟩ := hs.rekeys_found hmove
        have hkey : s.resolveKey device.mac device.ip = ipKey device.ip := by
          simp [resolveKey, hfound, ipKey_ne_nil]
        rw [hkey] at hentry
        exact Or.inr (Or.inr (hs.index_ip _ _ hentry).symm)
  | updateTraffic now snapshot =>
      show AddressesCurrent (s.updateTraffic now snapshot) ↔ _
      rcases s.updateTraffic_cases now snapshot with
        ⟨hmac, hip, hsame⟩ | ⟨record, points, -, hrecord, -, -, hdevices, hindex, -⟩
      · rw [hsame]
        refine iff_of_true hcur (keepsAddress_of_unstored ?_)
        rintro mac ip ⟨⟩
        have hnone : s.resolveKey snapshot.mac snapshot.ip = [] := by
          rw [hmac, hip, resolveKey_nil_nil]
        rw [hnone]
        exact hs.nil_not_stored
      · have hip := congrArg DeviceState.ip hrecord
        rw [trafficDevice_ip] at hip
        rw [current_resolved_iff hcur hip hdevices hindex]
        exact (keepsAddress_iff rfl).symm
  | updateInterface now snapshot =>
      exact iff_of_true (hcur.of_same (updateInterface_same now snapshot s))
        (keepsAddress_of_untold rfl)
  | addEvent now event =>
      exact iff_of_true (hcur.of_same (addEvent_same now event s)) (keepsAddress_of_untold rfl)
  | addWANAttack now later event =>
      exact iff_of_true (hcur.of_same (addWANAttack_same now later event s))
        (keepsAddress_of_untold rfl)
  | nextEventId =>
      exact iff_of_true (hcur.of_same (by exact ⟨rfl, rfl, rfl, rfl⟩)) (keepsAddress_of_untold rfl)
  | cleanup now =>
      exact iff_of_true (hcur.cleanup now) (keepsAddress_of_untold rfl)

/-! ## Whole histories -/

/-- **Exactly when the address index stays coherent.**  The index is coherent
after every part of a history if and only if every call of the history that
reports an address to a record the index knows by its address reports that
address again: a device never moves to another address. -/
theorem index_coherent_iff (config : Config) (ops : List StoreOp) :
    (∀ before after, ops = before ++ after →
      IndexCoherent (Runs.run apply (init config) before)) ↔
      Runs.Conforms apply KeepsAddress (init config) ops := by
  rw [← Runs.conforms_iff_invariant (fun s => KeysLinked s ∧ AddressesCurrent s)
    (fun s op hs => ⟨fun hafter => (current_apply_iff hs.1 hs.2 op).mp hafter.2,
      fun hok => ⟨hs.1.apply op, (current_apply_iff hs.1 hs.2 op).mpr hok⟩⟩)
    ⟨keysLinked_init config, by simp [AddressesCurrent, init]⟩ ops]
  refine forall_congr' fun before => forall_congr' fun after => forall_congr' fun _ => ?_
  have hs := keysLinked_of_reachable ⟨config, before, rfl⟩
  exact ⟨fun hcoherent => ⟨hs, hcoherent.current⟩, fun hcur => hcur.2.coherent hs⟩

/-- A device that moves to another address. -/
def movedHistory : List StoreOp :=
  [ .updateDevice (seconds 100) { mac := str "aa:01", ip := str "10.0.0.5" },
    .updateDevice (seconds 200) { mac := str "aa:01", ip := str "10.0.0.6" },
    .updateTraffic (seconds 300) { ip := str "10.0.0.5", rxBytes := 4096 } ]

/-- The moved device is still found under its old address: the index has two
entries for one device, and the traffic of the next owner of the address is
counted for it. -/
theorem moved_device_keeps_old_address :
    let s := Runs.run apply (init {}) (movedHistory.take 2)
    s.ipToKey.lookup (str "10.0.0.5") = some (str "mac:aa:01") ∧
      (s.devicesByKey.lookup (str "mac:aa:01")).map DeviceState.ip = some (str "10.0.0.6") ∧
      s.ipToKey.keys.length = 2 ∧ s.devicesByKey.keys.length = 1 ∧
      ¬ IndexCoherent s ∧
      ((Runs.run apply (init {}) movedHistory).devicesByKey.lookup (str "mac:aa:01")).map
        DeviceState.rxBytesTotal = some 4096 := by
  refine ⟨by decide +kernel, by decide +kernel, by decide +kernel, by decide +kernel, ?_,
    by decide +kernel⟩
  intro hcoherent
  exact absurd hcoherent.size (by decide +kernel)

end StateStore

end Netmon
