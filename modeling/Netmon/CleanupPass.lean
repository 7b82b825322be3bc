import Netmon.RecordFacts
import Netmon.DeviceRows

/-!
# One cleanup pass

What `cleanup` does to a single record: it sets the status to that of the time
of the pass, clears rates that nothing has renewed, and erases a record that was
last seen longer ago than both the idle and the keep time.  Everything the pass
does depends on the record and the time alone, so a second pass at the same time
finds nothing left to do.
-/

namespace Netmon

/-! ## The status of a record -/

/-- A record is offline exactly when it was seen, and longer ago than the idle
time. -/
theorem statusFor_eq_offline_iff {config : Config} {device : DeviceState} {now : TimePoint} :
    statusFor config device now = .offline ↔
      device.lastSeen ≠ 0 ∧ now - device.lastSeen > seconds config.deviceIdleTtlSeconds := by
  unfold statusFor
  by_cases hseen : device.lastSeen = 0
  · simp [hseen]
  · by_cases hidle : now - device.lastSeen > seconds config.deviceIdleTtlSeconds
    · simp [hseen, hidle]
    · simp only [hseen, hidle, if_false]
      refine iff_of_false ?_ (fun h => h.2)
      split
      · decide
      · split
        · split <;> decide
        · decide

/-- A record stays offline as time goes on. -/
theorem statusFor_offline_mono {config : Config} {device : DeviceState} {now later : TimePoint}
    (hle : now ≤ later) (h : statusFor config device now = .offline) :
    statusFor config device later = .offline := by
  obtain ⟨hseen, hage⟩ := statusFor_eq_offline_iff.mp h
  refine statusFor_eq_offline_iff.mpr ⟨hseen, ?_⟩
  exact lt_of_lt_of_le hage (sub_le_sub_right hle _)

namespace StateStore

/-! ## One record -/

/-- What is left of a record after a pass, field by field. -/
theorem sweepDevice_eq (config : Config) (now : TimePoint) (device : DeviceState) :
    sweepDevice config now device =
      { device with
        status := statusFor config device now
        rxRateBps := if rateExpired config now device then 0 else device.rxRateBps
        txRateBps := if rateExpired config now device then 0 else device.txRateBps } := by
  unfold sweepDevice
  split <;> rfl

theorem sweepDevice_status (config : Config) (now : TimePoint) (device : DeviceState) :
    (sweepDevice config now device).status = statusFor config device now := by
  rw [sweepDevice_eq]

/-- The status reads the last sighting, the neighbour state and the source, none
of which a pass changes. -/
@[simp] theorem statusFor_sweepDevice (config : Config) (now later : TimePoint)
    (device : DeviceState) :
    statusFor config (sweepDevice config now device) later = statusFor config device later := by
  rw [sweepDevice_eq]
  rfl

@[simp] theorem rateExpired_sweepDevice (config : Config) (now : TimePoint)
    (device : DeviceState) :
    rateExpired config now (sweepDevice config now device) = false := by
  unfold sweepDevice
  by_cases h : rateExpired config now device = true
  · simp only [if_pos h]
    simp [rateExpired]
  · simp only [if_neg h]
    exact Bool.eq_false_iff.mpr h

/-- Sweeping a record twice at one time is sweeping it once. -/
theorem sweepDevice_idem (config : Config) (now : TimePoint) (device : DeviceState) :
    sweepDevice config now (sweepDevice config now device) = sweepDevice config now device := by
  rw [sweepDevice_eq config now (sweepDevice config now device), rateExpired_sweepDevice,
    statusFor_sweepDevice, ← sweepDevice_status]
  rfl

/-- A pass announces the record: it was not offline before and has not been seen
for the idle time. -/
theorem goesOffline_iff {config : Config} {now : TimePoint} {device : DeviceState} :
    goesOffline config now device = true ↔
      device.status ≠ .offline ∧ device.lastSeen ≠ 0 ∧
        now - device.lastSeen > seconds config.deviceIdleTtlSeconds := by
  rw [goesOffline, sweepDevice_status, decide_eq_true_iff, statusFor_eq_offline_iff]

/-- A pass erases the record: it was seen, and longer ago than both the idle and
the keep time. -/
def Outdated (config : Config) (now : TimePoint) (device : DeviceState) : Prop :=
  device.lastSeen ≠ 0 ∧ now - device.lastSeen > seconds config.deviceIdleTtlSeconds ∧
    now - device.lastSeen > seconds config.deviceKeepTtlSeconds

instance (config : Config) (now : TimePoint) (device : DeviceState) :
    Decidable (Outdated config now device) :=
  inferInstanceAs (Decidable (_ ∧ _ ∧ _))

theorem isExpired_sweepDevice_iff {config : Config} {now : TimePoint} {device : DeviceState} :
    isExpired config now (sweepDevice config now device) = true ↔
      Outdated config now device := by
  rw [isExpired, decide_eq_true_iff, sweepDevice_status, statusFor_eq_offline_iff,
    sweepDevice_lastSeen]
  unfold Outdated
  constructor
  · rintro ⟨⟨hseen, hidle⟩, -, hkeep⟩
    exact ⟨hseen, hidle, hkeep⟩
  · rintro ⟨hseen, hidle, hkeep⟩
    exact ⟨⟨hseen, hidle⟩, hseen, hkeep⟩

/-! ## The whole table -/

theorem mem_expiredKeys_iff {s : StateStore} {now : TimePoint} {k : Str} :
    k ∈ s.expiredKeys now ↔
      ∃ d, s.devicesByKey.lookup k = some d ∧ Outdated s.config now d := by
  rw [expiredKeys, ← AList.mem_keys, ← AList.lookup_isSome, AList.lookup_filterEntries,
    AList.lookup_mapValues]
  cases hd : s.devicesByKey.lookup k with
  | none => simp
  | some d =>
      rw [Option.map_some, Option.filter_some]
      by_cases hold : Outdated s.config now d
      · rw [if_pos (isExpired_sweepDevice_iff.mpr hold)]
        simpa using hold
      · rw [if_neg fun h => hold (isExpired_sweepDevice_iff.mp h)]
        simpa using hold

/-- What is left under a key after a pass. -/
theorem cleanup_lookup (s : StateStore) (now : TimePoint) (k : Str) :
    (s.cleanup now).devicesByKey.lookup k =
      ((s.devicesByKey.lookup k).filter fun d => ¬ Outdated s.config now d).map
        (sweepDevice s.config now) := by
  rw [(s.cleanup_tables now).2.1]
  cases hd : s.devicesByKey.lookup k with
  | none => simp
  | some d =>
      have hmem : k ∈ s.expiredKeys now ↔ Outdated s.config now d := by
        simp [mem_expiredKeys_iff, hd]
      by_cases hold : Outdated s.config now d
      · rw [if_pos (hmem.mpr hold)]
        simp [hold]
      · rw [if_neg fun h => hold (hmem.mp h)]
        simp [hold]

/-- A record that a pass has left needs no further pass at that time. -/
theorem cleanup_record {s : StateStore} {now : TimePoint} {k : Str} {d : DeviceState}
    (hd : (s.cleanup now).devicesByKey.lookup k = some d) :
    sweepDevice s.config now d = d ∧ goesOffline s.config now d = false ∧
      isExpired s.config now d = false := by
  rw [cleanup_lookup] at hd
  obtain ⟨old, hold, rfl⟩ := Option.map_eq_some_iff.mp hd
  obtain ⟨-, hkept⟩ := Option.filter_eq_some_iff.mp hold
  rw [decide_eq_true_iff] at hkept
  refine ⟨sweepDevice_idem _ _ _, ?_, ?_⟩
  · simp [goesOffline, sweepDevice_idem]
  · exact Bool.eq_false_iff.mpr fun h => hkept (isExpired_sweepDevice_iff.mp h)

/-- A walk over records that need no notice changes nothing. -/
theorem announceAll_of_quiet {s : StateStore} {now : TimePoint} {devices : List DeviceState}
    (h : ∀ d ∈ devices, goesOffline s.config now d = false) : s.announceAll now devices = s := by
  induction devices with
  | nil => rfl
  | cons d devices ih =>
      rw [announceAll_cons_of_neg (Bool.eq_false_iff.mp (h d List.mem_cons_self))]
      exact ih fun d' hd' => h d' (List.mem_cons_of_mem d hd')

/-- A pass over records that need none changes nothing at all. -/
theorem cleanup_of_quiet {s : StateStore} {now : TimePoint}
    (h : ∀ k d, s.devicesByKey.lookup k = some d →
      sweepDevice s.config now d = d ∧ goesOffline s.config now d = false ∧
        isExpired s.config now d = false) : s.cleanup now = s := by
  have hswept : s.devicesByKey.mapValues (sweepDevice s.config now) = s.devicesByKey :=
    AList.mapValues_eq_self fun k d hd => (h k d hd).1
  have hexpired : s.expiredKeys now = [] := by
    rw [expiredKeys, hswept, AList.filterEntries_eq_empty fun k d hd => (h k d hd).2.2]
    rfl
  have hquiet : s.announceAll now (s.devicesByKey.entries.map Sigma.snd) = s := by
    refine announceAll_of_quiet fun d hd => ?_
    obtain ⟨⟨k, d'⟩, hmem, rfl⟩ := List.mem_map.mp hd
    exact (h k d' (AList.mem_entries_iff.mp hmem)).2.1
  rw [cleanup_eq, hexpired, hquiet, hswept]
  rfl

/-- **Cleanup is exact and idempotent.**  A pass erases the records that were
seen, but longer ago than both the idle and the keep time, with their points and
the index entries that lead to them, and nothing else.  Every other record keeps
all its fields except the status, which becomes that of the time of the pass, and
rates that were set too long ago, which become zero.  A second pass at the same
time leaves the whole store as it is. -/
theorem cleanup_exact_and_idempotent (s : StateStore) (now : TimePoint) :
    (∀ k d, s.devicesByKey.lookup k = some d →
      (k ∉ (s.cleanup now).devicesByKey ↔ d.lastSeen ≠ 0 ∧
        now - d.lastSeen > seconds s.config.deviceIdleTtlSeconds ∧
        now - d.lastSeen > seconds s.config.deviceKeepTtlSeconds)) ∧
    (∀ k, k ∈ (s.cleanup now).devicesByKey → k ∈ s.devicesByKey) ∧
    (∀ k, (s.cleanup now).trafficPoints.lookup k =
      if k ∈ s.devicesByKey ∧ k ∉ (s.cleanup now).devicesByKey then none
      else s.trafficPoints.lookup k) ∧
    (∀ a, (s.cleanup now).ipToKey.lookup a =
      (s.ipToKey.lookup a).filter fun k =>
        ¬ (k ∈ s.devicesByKey ∧ k ∉ (s.cleanup now).devicesByKey)) ∧
    (∀ k d d', s.devicesByKey.lookup k = some d →
      (s.cleanup now).devicesByKey.lookup k = some d' →
      d' = { d with
        status := statusFor s.config d now
        rxRateBps := if (d.rxRateBps > 0 ∨ d.txRateBps > 0) ∧ (d.lastRate = 0 ∨
          now - d.lastRate > seconds s.config.trafficRateHoldSeconds) then 0 else d.rxRateBps
        txRateBps := if (d.rxRateBps > 0 ∨ d.txRateBps > 0) ∧ (d.lastRate = 0 ∨
          now - d.lastRate > seconds s.config.trafficRateHoldSeconds) then 0 else d.txRateBps }) ∧
    (s.cleanup now).cleanup now = s.cleanup now := by
  have hgone : ∀ k, k ∈ s.expiredKeys now ↔
      k ∈ s.devicesByKey ∧ k ∉ (s.cleanup now).devicesByKey := fun k => by
    rw [← AList.lookup_eq_none, cleanup_lookup, mem_expiredKeys_iff]
    constructor
    · rintro ⟨d, hd, hold⟩
      exact ⟨AList.mem_of_lookup hd, by simp [hd, hold]⟩
    · rintro ⟨hstored, hnone⟩
      obtain ⟨d, hd⟩ := AList.exists_lookup_of_mem hstored
      exact ⟨d, hd, by simpa [hd] using hnone⟩
  obtain ⟨hconfig, -, hpoints, hindex⟩ := s.cleanup_tables now
  refine ⟨fun k d hd => ?_, fun k hk => ?_, fun k => ?_, fun a => ?_, fun k d d' hd hd' => ?_, ?_⟩
  · show _ ↔ Outdated s.config now d
    rw [← AList.lookup_eq_none, cleanup_lookup, hd]
    simp
  · obtain ⟨d', hd'⟩ := AList.exists_lookup_of_mem hk
    rw [cleanup_lookup] at hd'
    obtain ⟨d, hd, -⟩ := Option.map_eq_some_iff.mp hd'
    exact AList.mem_of_lookup (Option.filter_eq_some_iff.mp hd).1
  · rw [hpoints]
    exact if_congr (hgone k) rfl rfl
  · rw [hindex]
    simp only [hgone]
  · rw [cleanup_lookup, hd] at hd'
    obtain ⟨e, he, rfl⟩ := Option.map_eq_some_iff.mp hd'
    obtain rfl : d = e := Option.some.inj (Option.filter_eq_some_iff.mp he).1
    rw [sweepDevice_eq]
    simp only [rateExpired, decide_eq_true_iff]
  · refine cleanup_of_quiet fun k d hd => ?_
    rw [hconfig]
    exact cleanup_record hd

end StateStore

end Netmon
