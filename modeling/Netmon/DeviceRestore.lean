import Netmon.DeviceUniqueness
import Netmon.Database

/-!
# Restoring the inventory after a restart

`loadDevices` replays the stored rows through `updateDevice`, the function that
live telemetry goes through.  A row comes back as a record of its own exactly
when nothing is found for it: neither a record of its MAC nor a record or index
entry of its address.  Since a call adds at most one record, a table is restored
completely only if every row creates one, and that condition can be read off the
table: no two rows share an address (`restart_keeps_devices_iff`).
-/

namespace Netmon

namespace StateStore

/-! ## Calls that create a record -/

/-- The lookup finds nothing exactly when the MAC has no record and the address
neither an index entry nor a record. -/
theorem KeysLinked.not_found_iff {s : StateStore} (hs : KeysLinked s) (mac ip : Str) :
    s.findKeyLocked mac ip = [] ↔
      (mac ≠ [] → macKey (lower mac) ∉ s.devicesByKey) ∧
        (ip ≠ [] → s.ipToKey.lookup ip = none ∧ ipKey ip ∉ s.devicesByKey) := by
  constructor
  · intro h
    refine ⟨fun hmac => macKey_free_of_not_found hmac h, fun hip => ?_⟩
    rcases s.findKeyLocked_cases mac ip with hf | hf | hf | hf
    · exact absurd (hf.2.2.symm.trans h) (macKey_ne_nil _)
    · exact absurd (hs.index_stored ip [] (h ▸ hf.2.2)) hs.nil_not_stored
    · exact absurd (hf.2.2.2.2.symm.trans h) (ipKey_ne_nil _)
    · exact hf.2.1.resolve_left hip
  · rintro ⟨hmac, hip⟩
    rcases s.findKeyLocked_cases mac ip with hf | hf | hf | hf
    · exact absurd hf.2.1 (hmac hf.1)
    · exact absurd ((hip hf.2.1).1.symm.trans hf.2.2) (by simp)
    · exact absurd hf.2.2.2.1 (hip hf.2.1).2
    · exact hf.2.2

/-- Nothing is found for the device, and it can be given a key. -/
def Creates (s : StateStore) (device : DeviceState) : Prop :=
  s.findKeyLocked device.mac device.ip = [] ∧ makeKey device.mac device.ip ≠ []

/-- When nothing is found, the made key is free. -/
theorem Creates.key_free {s : StateStore} (hs : KeysLinked s) {device : DeviceState}
    (h : s.Creates device) : makeKey device.mac device.ip ∉ s.devicesByKey := by
  obtain ⟨hmac, hip⟩ := (hs.not_found_iff _ _).mp h.1
  rcases makeKey_cases device.mac device.ip with hm | hm | hm
  · exact absurd hm.2.2 h.2
  · rw [hm.2]
    exact hmac hm.1
  · rw [hm.2.2]
    exact (hip hm.2.1).2

/-- A creating call puts a record in front and adds its index entry. -/
theorem Creates.updateDevice {s : StateStore} (hs : KeysLinked s) {device : DeviceState}
    (h : s.Creates device) (now : TimePoint) :
    (s.updateDevice now device).devicesByKey.entries =
        ⟨makeKey device.mac device.ip, mergeDeviceLocked s.config {} device now⟩ ::
          s.devicesByKey.entries ∧
      (s.updateDevice now device).ipToKey =
        indexAfter s.ipToKey (makeKey device.mac device.ip)
          (mergeDeviceLocked s.config {} device now) := by
  have hkey : s.resolveKey device.mac device.ip = makeKey device.mac device.ip := by
    simp [resolveKey, h.1]
  have hfree := h.key_free hs
  rcases s.updateDevice_cases now device with
    ⟨hnil, -⟩ | ⟨record, -, -, hrecord, -, hdevices, hindex, -⟩ | ⟨node, record, hmove, -⟩
  · exact absurd (hkey.symm.trans hnil) h.2
  · have hblank : s.devicesByKey.getD (makeKey device.mac device.ip) {} = {} := by
      rw [AList.getD, AList.lookup_eq_none.mpr hfree]
      rfl
    rw [hkey] at hrecord hdevices hindex
    rw [hblank] at hrecord
    rw [hdevices, hindex, hrecord, AList.entries_insert_of_notMem hfree]
    exact ⟨rfl, rfl⟩
  · have hip := hmove.2.1
    rw [h.1] at hip
    exact absurd hip (by decide)

/-- A call that creates nothing does not add to the records. -/
theorem KeysLinked.length_updateDevice {s : StateStore} (hs : KeysLinked s)
    {device : DeviceState} (h : ¬ s.Creates device) (now : TimePoint) :
    (s.updateDevice now device).devicesByKey.entries.length ≤
      s.devicesByKey.entries.length := by
  rcases s.updateDevice_cases now device with
    ⟨-, hsame⟩ | ⟨record, hkey, -, -, -, hdevices, -, -⟩ |
      ⟨node, record, hmove, -, -, -, hdevices, -, -⟩
  · rw [hsame]
  · have hfound : s.findKeyLocked device.mac device.ip ≠ [] := by
      intro hnil
      exact h ⟨hnil, by simpa [resolveKey, hnil] using hkey⟩
    obtain ⟨d, hd, hres⟩ := hs.resolved_lookup hfound
    rw [hdevices, hres, AList.length_insert_of_mem (AList.mem_of_lookup hd)]
  · rw [hdevices, AList.length_move hmove.2.2 hmove.macKey_free]

/-! ## Replaying rows -/

/-- One row replayed. -/
def replayRow (clock : DeviceRow → TimePoint) (s : StateStore) (row : DeviceRow) : StateStore :=
  s.updateDevice (clock row) (deviceFromRow row)

/-- The row creates a record. -/
def CreatesRow (s : StateStore) (row : DeviceRow) : Prop := s.Creates (deviceFromRow row)

/-- A row makes at most one device. -/
theorem length_replay_le (clock : DeviceRow → TimePoint) {s : StateStore} (hs : KeysLinked s)
    (rows : List DeviceRow) :
    (Runs.run (replayRow clock) s rows).devicesByKey.entries.length ≤
      s.devicesByKey.entries.length + rows.length := by
  induction rows generalizing s with
  | nil => simp
  | cons row rows ih =>
      have hstep : (replayRow clock s row).devicesByKey.entries.length ≤
          s.devicesByKey.entries.length + 1 := by
        by_cases h : s.CreatesRow row
        · unfold replayRow
          rw [(h.updateDevice hs (clock row)).1, List.length_cons]
        · exact (hs.length_updateDevice h (clock row)).trans (Nat.le_succ _)
      have hrest := ih (hs.updateDevice (clock row) (deviceFromRow row))
      rw [Runs.run_cons, List.length_cons]
      unfold replayRow at hstep hrest ⊢
      omega

/-- If the records have grown by the number of rows, every row created one. -/
theorem conforms_of_length {clock : DeviceRow → TimePoint} {s : StateStore} (hs : KeysLinked s)
    {rows : List DeviceRow}
    (h : s.devicesByKey.entries.length + rows.length ≤
      (Runs.run (replayRow clock) s rows).devicesByKey.entries.length) :
    Runs.Conforms (replayRow clock) CreatesRow s rows := by
  induction rows generalizing s with
  | nil => trivial
  | cons row rows ih =>
      have hnext : KeysLinked (replayRow clock s row) := hs.updateDevice _ _
      have hbound := length_replay_le clock hnext rows
      rw [Runs.run_cons, List.length_cons] at h
      by_cases hcreates : s.CreatesRow row
      · refine ⟨hcreates, ih hnext ?_⟩
        have hgrown : (replayRow clock s row).devicesByKey.entries.length =
            s.devicesByKey.entries.length + 1 := by
          unfold replayRow
          rw [(hcreates.updateDevice hs (clock row)).1, List.length_cons]
        omega
      · have hsame : (replayRow clock s row).devicesByKey.entries.length ≤
            s.devicesByKey.entries.length := hs.length_updateDevice hcreates (clock row)
        omega

/-- The key of the record that a row creates. -/
def restoredKey (row : DeviceRow) : Str := makeKey (cString row.mac) (cString row.ip)

/-- The MAC of the record that a row creates. -/
def restoredMac (row : DeviceRow) : Str := setIfNotEmpty [] (lower (cString row.mac))

/-- The address of the record that a row creates. -/
def restoredIp (row : DeviceRow) : Str := setIfNotEmpty [] (cString row.ip)

/-- What an empty store holds after rows that each created a record. -/
structure RestoredFrom (rows : List DeviceRow) (s : StateStore) : Prop where
  linked : KeysLinked s
  keys : s.devicesByKey.keys = (rows.map restoredKey).reverse
  pairs : s.devicesByKey.entries.map (fun e => (e.2.mac, e.2.ip)) =
    (rows.map fun row => (restoredMac row, restoredIp row)).reverse
  index : ∀ a, s.ipToKey.lookup a = none ↔
    ∀ row ∈ rows, restoredIp row ≠ [] → restoredIp row ≠ a

/-- The devices are those of the rows. -/
theorem RestoredFrom.mem_devices {rows : List DeviceRow} {s : StateStore}
    (h : RestoredFrom rows s) {k : Str} :
    k ∈ s.devicesByKey ↔ ∃ row ∈ rows, restoredKey row = k := by
  rw [AList.mem_keys, h.keys]
  simp

/-- An address is free unless a record has taken it. -/
theorem lookup_indexAfter_none {index : StrMap Str} {key a : Str} {record : DeviceState} :
    (indexAfter index key record).lookup a = none ↔
      index.lookup a = none ∧ (record.ip ≠ [] → record.ip ≠ a) := by
  unfold indexAfter
  by_cases hip : record.ip ≠ []
  · rw [if_pos hip, AList.lookup_insert_if]
    by_cases ha : a = record.ip
    · simp [ha, hip]
    · simp [ha, Ne.symm ha]
  · rw [if_neg hip]
    simp [hip]

/-- If every row makes a device, the store is restored from the rows. -/
theorem restoredFrom_of_conforms {clock : DeviceRow → TimePoint} {config : Config}
    {rows : List DeviceRow}
    (h : Runs.Conforms (replayRow clock) CreatesRow (init config) rows) :
    RestoredFrom rows (Runs.run (replayRow clock) (init config) rows) := by
  induction rows using List.reverseRecOn with
  | nil => exact ⟨keysLinked_init config, rfl, rfl, by simp [init]⟩
  | append_singleton rows row ih =>
      obtain ⟨hbefore, hcreates, -⟩ := Runs.conforms_append.mp h
      have hrest := ih hbefore
      rw [Runs.run_concat]
      generalize Runs.run (replayRow clock) (init config) rows = s at hcreates hrest
      obtain ⟨hentries, hindex⟩ := hcreates.updateDevice hrest.linked (clock row)
      refine ⟨hrest.linked.updateDevice _ _, ?_, ?_, ?_⟩
      · have hkeys := hrest.keys
        unfold AList.keys at hkeys ⊢
        unfold replayRow
        rw [hentries, List.keys_cons, hkeys]
        simp [restoredKey, deviceFromRow]
      · unfold replayRow
        rw [hentries, List.map_cons, hrest.pairs]
        simp [restoredMac, restoredIp, deviceFromRow]
      · intro a
        have hip : (mergeDeviceLocked s.config {} (deviceFromRow row) (clock row)).ip =
            restoredIp row := rfl
        unfold replayRow
        rw [hindex, lookup_indexAfter_none, hrest.index, hip]
        simp [or_imp, forall_and]

/-- A row whose MAC and address come back as they are: one of them is there,
neither holds a NUL byte or is a placeholder, and the MAC is in lower case. -/
structure PlainRow (row : DeviceRow) : Prop where
  named : row.mac ≠ [] ∨ row.ip ≠ []
  mac_text : 0 ∉ row.mac
  mac_lower : lower row.mac = row.mac
  mac_ordinary : ¬ IsPlaceholder row.mac
  ip_text : 0 ∉ row.ip
  ip_ordinary : ¬ IsPlaceholder row.ip

instance (row : DeviceRow) : Decidable (PlainRow row) :=
  decidable_of_iff
    ((row.mac ≠ [] ∨ row.ip ≠ []) ∧ 0 ∉ row.mac ∧ lower row.mac = row.mac ∧
      ¬ IsPlaceholder row.mac ∧ 0 ∉ row.ip ∧ ¬ IsPlaceholder row.ip)
    ⟨fun ⟨h₁, h₂, h₃, h₄, h₅, h₆⟩ => ⟨h₁, h₂, h₃, h₄, h₅, h₆⟩,
      fun ⟨h₁, h₂, h₃, h₄, h₅, h₆⟩ => ⟨h₁, h₂, h₃, h₄, h₅, h₆⟩⟩

/-- Two rows with different addresses, or without one. -/
def SeparateIps (a b : DeviceRow) : Prop := a.ip ≠ [] → a.ip ≠ b.ip

instance : DecidableRel SeparateIps := fun _ _ => inferInstanceAs (Decidable (_ → _))

/-- A text that is no placeholder is taken. -/
theorem setIfNotEmpty_self {value : Str} (h : ¬ IsPlaceholder value) :
    setIfNotEmpty [] value = value := by
  by_cases hne : value = []
  · simp [hne]
  · exact setIfNotEmpty_of_ordinary hne h

/-- What is taken is no placeholder. -/
theorem setIfNotEmpty_blank_ordinary (value : Str) : ¬ IsPlaceholder (setIfNotEmpty [] value) :=
  setIfNotEmpty_ordinary not_isPlaceholder_nil

/-- A plain row gives its MAC. -/
theorem PlainRow.restoredMac {row : DeviceRow} (h : PlainRow row) :
    restoredMac row = row.mac := by
  rw [StateStore.restoredMac, cString_eq_self h.mac_text, h.mac_lower]
  exact setIfNotEmpty_self h.mac_ordinary

/-- A plain row gives its address. -/
theorem PlainRow.restoredIp {row : DeviceRow} (h : PlainRow row) : restoredIp row = row.ip := by
  rw [StateStore.restoredIp, cString_eq_self h.ip_text]
  exact setIfNotEmpty_self h.ip_ordinary

/-- A plain row gives its key. -/
theorem PlainRow.restoredKey {row : DeviceRow} (h : PlainRow row) :
    restoredKey row = makeKey row.mac row.ip := by
  rw [StateStore.restoredKey, cString_eq_self h.mac_text, cString_eq_self h.ip_text]

/-- What comes back as a MAC is lower-case, ordinary and without NUL. -/
theorem restoredMac_plain (row : DeviceRow) :
    0 ∉ restoredMac row ∧ lower (restoredMac row) = restoredMac row ∧
      ¬ IsPlaceholder (restoredMac row) := by
  refine ⟨?_, ?_, setIfNotEmpty_blank_ordinary _⟩
  · rcases setIfNotEmpty_cases [] (lower (cString row.mac)) with h | h
    · simp [restoredMac, h]
    · rw [restoredMac, h, zero_mem_lower]
      exact zero_notMem_cString _
  · rcases setIfNotEmpty_cases [] (lower (cString row.mac)) with h | h
    · simp [restoredMac, h]
    · simp [restoredMac, h]

/-- A restored address has no zero byte and is no placeholder. -/
theorem restoredIp_plain (row : DeviceRow) :
    0 ∉ restoredIp row ∧ ¬ IsPlaceholder (restoredIp row) := by
  refine ⟨?_, setIfNotEmpty_blank_ordinary _⟩
  rcases setIfNotEmpty_cases [] (cString row.ip) with h | h
  · simp [restoredIp, h]
  · rw [restoredIp, h]
    exact zero_notMem_cString _

/-- Plain rows with distinct keys and separate addresses each create a record. -/
theorem conforms_of_plain (clock : DeviceRow → TimePoint) (config : Config)
    {rows : List DeviceRow} (hkeys : (rows.map fun row => makeKey row.mac row.ip).Nodup)
    (hplain : ∀ row ∈ rows, PlainRow row) (hips : rows.Pairwise SeparateIps) :
    Runs.Conforms (replayRow clock) CreatesRow (init config) rows := by
  induction rows using List.reverseRecOn with
  | nil => trivial
  | append_singleton rows row ih =>
      have hrow : PlainRow row := hplain row (by simp)
      have hrows : ∀ r ∈ rows, PlainRow r := fun r hr => hplain r (by simp [hr])
      obtain ⟨hpairs, -, hlast⟩ := List.pairwise_append.mp hips
      rw [List.map_append, List.nodup_append] at hkeys
      have hbefore := ih hkeys.1 hrows hpairs
      have hrest := restoredFrom_of_conforms hbefore
      have hmac : (deviceFromRow row).mac = row.mac := cString_eq_self hrow.mac_text
      have hip : (deviceFromRow row).ip = row.ip := cString_eq_self hrow.ip_text
      refine Runs.conforms_append.mpr ⟨hbefore, ⟨?_, ?_⟩, trivial⟩
      · rw [hmac, hip, hrest.linked.not_found_iff]
        refine ⟨fun hne hstored => ?_, fun hne => ⟨?_, fun hstored => ?_⟩⟩
        · obtain ⟨r, hr, hkey⟩ := hrest.mem_devices.mp hstored
          rw [(hrows r hr).restoredKey] at hkey
          have hrowKey : makeKey row.mac row.ip = macKey (lower row.mac) := makeKey_of_mac hne
          exact hkeys.2.2 _ (List.mem_map_of_mem hr) _ (by simp) (hkey.trans hrowKey.symm)
        · rw [hrest.index]
          intro r hr hrne
          rw [(hrows r hr).restoredIp] at hrne ⊢
          exact hlast r hr row (by simp) hrne
        · obtain ⟨r, hr, hkey⟩ := hrest.mem_devices.mp hstored
          rw [(hrows r hr).restoredKey] at hkey
          rcases makeKey_cases r.mac r.ip with hm | hm | hm
          · exact ipKey_ne_nil _ (hkey.symm.trans hm.2.2)
          · exact ipKey_ne_macKey _ _ (hkey.symm.trans hm.2)
          · exact hlast r hr row (by simp) hm.2.1 (ipKey_inj.mp (hm.2.2.symm.trans hkey))
      · rw [hmac, hip]
        rcases makeKey_cases row.mac row.ip with hm | hm | hm
        · exact absurd hm.2.1 (hrow.named.resolve_left fun h => h hm.1)
        · rw [hm.2]
          exact macKey_ne_nil _
        · rw [hm.2.2]
          exact ipKey_ne_nil _

/-- Rows that each created a record have separate addresses, as far as their
addresses come back. -/
theorem separateIps_of_conforms {clock : DeviceRow → TimePoint} {config : Config}
    {rows : List DeviceRow} (hplain : ∀ row ∈ rows, PlainRow row)
    (h : Runs.Conforms (replayRow clock) CreatesRow (init config) rows) :
    rows.Pairwise SeparateIps := by
  induction rows using List.reverseRecOn with
  | nil => exact List.Pairwise.nil
  | append_singleton rows row ih =>
      obtain ⟨hbefore, hcreates, -⟩ := Runs.conforms_append.mp h
      have hrows : ∀ r ∈ rows, PlainRow r := fun r hr => hplain r (by simp [hr])
      have hrest := restoredFrom_of_conforms hbefore
      refine List.pairwise_append.mpr ⟨ih hrows hbefore, List.pairwise_singleton _ _, ?_⟩
      intro r hr last hlast hne hsame
      obtain rfl := List.mem_singleton.mp hlast
      have hip : (deviceFromRow last).ip = last.ip :=
        cString_eq_self (hplain last (by simp)).ip_text
      have hfree := ((hrest.linked.not_found_iff _ _).mp hcreates.1).2
      rw [hip, hrest.index] at hfree
      have hother := (hfree (hsame ▸ hne)).1 r hr
      rw [(hrows r hr).restoredIp] at hother
      exact hother hne hsame

/-- The MAC and the address of every record. -/
def recordPairs (s : StateStore) : List (Str × Str) :=
  s.devicesByKey.entries.map fun e => (e.2.mac, e.2.ip)

/-- Replaying rows with distinct keys brings back one record for each row if and
only if the rows are plain and their addresses separate. -/
theorem replay_restores_iff (clock : DeviceRow → TimePoint) (config : Config)
    {rows : List DeviceRow} (hkeys : (rows.map fun row => makeKey row.mac row.ip).Nodup) :
    (recordPairs (Runs.run (replayRow clock) (init config) rows)).Perm
        (rows.map fun row => (row.mac, row.ip)) ↔
      (∀ row ∈ rows, PlainRow row) ∧ rows.Pairwise SeparateIps := by
  constructor
  · intro hperm
    have hlength := hperm.length_eq
    rw [recordPairs, List.length_map, List.length_map] at hlength
    have hconforms : Runs.Conforms (replayRow clock) CreatesRow (init config) rows := by
      apply conforms_of_length (keysLinked_init config)
      rw [hlength]
      simp [init]
    have hrest := restoredFrom_of_conforms hconforms
    have hplain : ∀ row ∈ rows, PlainRow row := by
      intro row hrow
      have hmem : (row.mac, row.ip) ∈ recordPairs (Runs.run (replayRow clock) (init config) rows) :=
        hperm.mem_iff.mpr (List.mem_map_of_mem hrow)
      rw [recordPairs, hrest.pairs, List.mem_reverse, List.mem_map] at hmem
      obtain ⟨other, -, hother⟩ := hmem
      obtain ⟨hmac, hip⟩ := Prod.mk.inj hother
      obtain ⟨hmtext, hmlower, hmord⟩ := restoredMac_plain other
      obtain ⟨hitext, hiord⟩ := restoredIp_plain other
      rw [hmac] at hmtext hmlower hmord
      rw [hip] at hitext hiord
      refine ⟨?_, hmtext, hmlower, hmord, hitext, hiord⟩
      obtain ⟨s, hcreates⟩ := hconforms.exists_ok hrow
      by_contra hnone
      obtain ⟨hnomac, hnoip⟩ := not_or.mp hnone
      apply hcreates.2
      simp [deviceFromRow, not_not.mp hnomac, not_not.mp hnoip, cString, makeKey]
    exact ⟨hplain, separateIps_of_conforms hplain hconforms⟩
  · rintro ⟨hplain, hips⟩
    have hrest := restoredFrom_of_conforms (conforms_of_plain clock config hkeys hplain hips)
    have hpairs : (rows.map fun row => (restoredMac row, restoredIp row)) =
        rows.map fun row => (row.mac, row.ip) := by
      apply List.map_congr_left
      intro row hrow
      rw [(hplain row hrow).restoredMac, (hplain row hrow).restoredIp]
    rw [recordPairs, hrest.pairs, hpairs]
    exact List.reverse_perm _

/-! ## Restarting from a database -/

/-- Loading the histories leaves the device tables alone. -/
theorem loadInto_same (config : Config) (clock : Database.LoadClock) (db : Database)
    (s : StateStore) :
    SameTables (db.loadDevices clock s) (db.loadInto config clock s) := by
  unfold Database.loadInto
  refine SameTables.trans ?_ (Runs.run_related SameTables SameTables.refl SameTables.trans
    (fun s row => addWANAttack_same _ _ _ s) _ _)
  exact Runs.run_related SameTables SameTables.refl SameTables.trans
    (fun s row => addEvent_same _ _ s) _ _

/-- The rows of the device table. -/
def deviceTable (db : Database) : List DeviceRow := db.devices.entries.map Sigma.snd

/-- The rows are loaded in some order. -/
theorem deviceRows_perm (db : Database) : db.deviceRows.Perm (deviceTable db) :=
  List.perm_insertionSort _ _

/-- Having different addresses is symmetric. -/
theorem separateIps_symm {a b : DeviceRow} (h : SeparateIps a b) : SeparateIps b a := by
  intro hne hsame
  exact h (hsame ▸ hne) hsame.symm

/-- **Exactly when a restart keeps every device.**  For every device table whose
keys are those of its rows' MACs and addresses, loading it into a fresh store
gives one record for each row, with its MAC and address, if and only if the
rows are plain and no two of them share an address. -/
theorem restart_keeps_devices_iff (config : Config) (clock : Database.LoadClock)
    (db : Database)
    (hkeys : ∀ k row, db.devices.lookup k = some row → k = makeKey row.mac row.ip) :
    (recordPairs (db.loadInto config clock (init config))).Perm
        ((deviceTable db).map fun row => (row.mac, row.ip)) ↔
      (∀ row ∈ deviceTable db, PlainRow row) ∧ (deviceTable db).Pairwise SeparateIps := by
  have hperm := deviceRows_perm db
  have hload : recordPairs (db.loadInto config clock (init config)) =
      recordPairs (Runs.run (replayRow clock.device) (init config) db.deviceRows) := by
    unfold recordPairs
    rw [(loadInto_same config clock db (init config)).devices]
    rfl
  have htable : (deviceTable db).map (fun row => makeKey row.mac row.ip) = db.devices.keys := by
    unfold deviceTable AList.keys List.keys
    rw [List.map_map]
    apply List.map_congr_left
    intro e he
    exact (hkeys e.1 e.2 (AList.mem_entries_iff.mp he)).symm
  have hnodup : (db.deviceRows.map fun row => makeKey row.mac row.ip).Nodup := by
    rw [(hperm.map _).nodup_iff, htable]
    exact db.devices.keys_nodup
  rw [hload, ← (hperm.map _).congr_right, replay_restores_iff clock.device config hnodup,
    hperm.pairwise_iff separateIps_symm]
  simp only [hperm.mem_iff]

/-- Two devices with addresses of their own. -/
def separateTable : Database :=
  { devices :=
      ((∅ : StrMap DeviceRow).insert (str "mac:aa:01")
        { deviceKey := str "mac:aa:01", mac := str "aa:01", ip := str "10.0.0.5",
          lastSeen := 100 }).insert (str "ip:10.0.0.6")
        { deviceKey := str "ip:10.0.0.6", ip := str "10.0.0.6", lastSeen := 200 } }

/-- Two devices, the second on an address that the first one had before. -/
def sharedTable : Database :=
  { devices :=
      ((∅ : StrMap DeviceRow).insert (str "mac:aa:01")
        { deviceKey := str "mac:aa:01", mac := str "aa:01", ip := str "10.0.0.5",
          lastSeen := 100 }).insert (str "mac:bb:02")
        { deviceKey := str "mac:bb:02", mac := str "bb:02", ip := str "10.0.0.5",
          lastSeen := 200 } }

/-- A clock that stands still at second 1000. -/
def stillClock : Database.LoadClock where
  device := fun _ => seconds 1000
  event := fun _ => seconds 1000
  attack := fun _ => (seconds 1000, seconds 1000)

/-- Both devices of `separateTable` come back. -/
theorem restart_keeps_devices_iff_separate :
    (recordPairs (separateTable.loadInto {} stillClock (init {}))).Perm
      [(str "aa:01", str "10.0.0.5"), ([], str "10.0.0.6")] := by
  have hkeys : ∀ k row, separateTable.devices.lookup k = some row →
      k = makeKey row.mac row.ip := by
    have hall : ∀ e ∈ separateTable.devices.entries, e.1 = makeKey e.2.mac e.2.ip := by decide
    intro k row hrow
    exact hall ⟨k, row⟩ (AList.mem_entries_iff.mpr hrow)
  refine ((restart_keeps_devices_iff {} stillClock separateTable hkeys).mpr ?_).trans ?_
  · exact ⟨by decide, by decide⟩
  · decide

/-- The second row of `sharedTable` is led by the address to the record of the
first one, so that one record comes back for two rows. -/
theorem shared_address_loses_device :
    (∀ e ∈ sharedTable.devices.entries, e.1 = makeKey e.2.mac e.2.ip) ∧
      recordPairs (sharedTable.loadInto {} stillClock (init {})) =
        [(str "bb:02", str "10.0.0.5")] ∧
      ¬ (recordPairs (sharedTable.loadInto {} stillClock (init {}))).Perm
        ((deviceTable sharedTable).map fun row => (row.mac, row.ip)) := by
  have hpairs : recordPairs (sharedTable.loadInto {} stillClock (init {})) =
      [(str "bb:02", str "10.0.0.5")] := by decide +kernel
  refine ⟨by decide, hpairs, ?_⟩
  rw [hpairs]
  decide

end StateStore

end Netmon
