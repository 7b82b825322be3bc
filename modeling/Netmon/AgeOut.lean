import Netmon.Timeline

/-!
# What ages out

The inventory is filled under names that come from log lines, so its size is bounded
only if everything that a line adds is removed again when the lines stop.  A cleanup
pass that comes late enough empties the three device tables, whatever was logged.  The
two interface tables are not reached by any pass: a name that was reported once stays
for the life of the process.
-/

namespace Netmon

namespace StateStore

/-! ## The interface tables -/

/-- Two stores with the same interface tables. -/
structure SameInterfaces (s t : StateStore) : Prop where
  states : t.interfacesByName = s.interfacesByName
  snapshots : t.interfaceSnapshots = s.interfaceSnapshots

theorem SameInterfaces.refl (s : StateStore) : SameInterfaces s s := ⟨rfl, rfl⟩

theorem SameInterfaces.trans {s t u : StateStore} (hst : SameInterfaces s t)
    (htu : SameInterfaces t u) : SameInterfaces s u :=
  ⟨htu.states.trans hst.states, htu.snapshots.trans hst.snapshots⟩

/-- The time of the last log is none of the interfaces. -/
theorem touchLastLogLocked_sameInterfaces (now ts : TimePoint) (s : StateStore) :
    SameInterfaces s (s.touchLastLogLocked now ts) := by
  rw [touchLastLogLocked_eq]
  exact ⟨rfl, rfl⟩

/-- A notice about a device leaves the interfaces alone. -/
theorem updateDevice_sameInterfaces (now : TimePoint) (device : DeviceState) (s : StateStore) :
    SameInterfaces s (s.updateDevice now device) := by
  by_cases hkey : s.resolveKey device.mac device.ip = []
  · have hsame : s.updateDevice now device = s := by simp [updateDevice, hkey]
    rw [hsame]
    exact SameInterfaces.refl s
  · by_cases hmove : s.Rekeys device.mac device.ip
    · obtain ⟨node, hnode⟩ := AList.exists_lookup_of_mem hmove.2.2
      rw [updateDevice_of_rekeys hmove hnode]
      exact SameInterfaces.trans (by exact ⟨rfl, rfl⟩) (touchLastLogLocked_sameInterfaces _ _ _)
    · rw [updateDevice_of_plain hkey hmove]
      exact SameInterfaces.trans (by exact ⟨rfl, rfl⟩) (touchLastLogLocked_sameInterfaces _ _ _)

/-- A traffic sample leaves the interfaces alone. -/
theorem updateTraffic_sameInterfaces (now : TimePoint) (snapshot : TrafficSnapshot)
    (s : StateStore) : SameInterfaces s (s.updateTraffic now snapshot) := by
  by_cases hkey : s.resolveKey snapshot.mac snapshot.ip = []
  · rw [updateTraffic_of_nil hkey]
    exact SameInterfaces.refl s
  · rw [updateTraffic_of_key hkey]
    exact SameInterfaces.trans (by exact ⟨rfl, rfl⟩) (touchLastLogLocked_sameInterfaces _ _ _)

/-- An event leaves the interfaces alone. -/
theorem addEvent_sameInterfaces (now : TimePoint) (event : Event) (s : StateStore) :
    SameInterfaces s (s.addEvent now event) := by
  unfold addEvent pushEventLocked
  refine SameInterfaces.trans ?_ (touchLastLogLocked_sameInterfaces _ _ _)
  by_cases hid : event.id = []
  · simp only [if_pos hid]
    exact ⟨rfl, rfl⟩
  · simp only [if_neg hid]
    exact ⟨rfl, rfl⟩

/-- A cleanup pass does not look at the interfaces. -/
theorem cleanup_sameInterfaces (now : TimePoint) (s : StateStore) :
    SameInterfaces s (s.cleanup now) := by
  refine cleanup_related SameInterfaces.refl SameInterfaces.trans (fun t device => ?_)
    (fun _ _ => by exact ⟨rfl, rfl⟩) (fun _ _ => by exact ⟨rfl, rfl⟩) s
  exact SameInterfaces.trans (by exact ⟨rfl, rfl⟩) (touchLastLogLocked_sameInterfaces _ _ _)

/-- The call reports an interface of this name. -/
def ReportsInterface (name : Str) : StoreOp → Prop
  | .updateInterface _ snapshot => snapshot.interfaceName = name ∧ name ≠ []
  | _ => False

/-- **A call adds the name it reports** to both interface tables and removes none. -/
theorem mem_interfaces_apply (s : StateStore) (op : StoreOp) (name : Str) :
    (name ∈ (s.apply op).interfacesByName ↔
      name ∈ s.interfacesByName ∨ ReportsInterface name op) ∧
    (name ∈ (s.apply op).interfaceSnapshots ↔
      name ∈ s.interfaceSnapshots ∨ ReportsInterface name op) := by
  have hquiet : ∀ {t : StateStore}, SameInterfaces s t →
      (name ∈ t.interfacesByName ↔ name ∈ s.interfacesByName ∨ False) ∧
      (name ∈ t.interfaceSnapshots ↔ name ∈ s.interfaceSnapshots ∨ False) := by
    intro t h
    rw [h.states, h.snapshots, or_false, or_false]
    exact ⟨Iff.rfl, Iff.rfl⟩
  cases op with
  | updateDevice now device => exact hquiet (updateDevice_sameInterfaces now device s)
  | updateTraffic now snapshot => exact hquiet (updateTraffic_sameInterfaces now snapshot s)
  | addEvent now event => exact hquiet (addEvent_sameInterfaces now event s)
  | addWANAttack now later event =>
      exact hquiet (SameInterfaces.trans (by exact ⟨rfl, rfl⟩)
        (touchLastLogLocked_sameInterfaces _ _ _))
  | nextEventId => exact hquiet (by exact ⟨rfl, rfl⟩)
  | cleanup now => exact hquiet (cleanup_sameInterfaces now s)
  | updateInterface now snapshot =>
      show (name ∈ (s.updateInterface now snapshot).interfacesByName ↔ _ ∨
          snapshot.interfaceName = name ∧ name ≠ []) ∧
        (name ∈ (s.updateInterface now snapshot).interfaceSnapshots ↔ _ ∨
          snapshot.interfaceName = name ∧ name ≠ [])
      unfold updateInterface
      by_cases hname : snapshot.interfaceName = []
      · have hnone : ¬ (snapshot.interfaceName = name ∧ name ≠ []) := fun h => h.2 (h.1 ▸ hname)
        rw [if_pos hname]
        simp only [hnone, or_false, and_self]
      · have hreports : (snapshot.interfaceName = name ∧ name ≠ []) ↔
            name = snapshot.interfaceName :=
          ⟨fun h => h.1.symm, fun h => ⟨h.symm, h ▸ hname⟩⟩
        rw [if_neg hname, touchLastLogLocked_eq, hreports]
        simp only [AList.mem_insert, or_comm, and_self]

/-- **A reported name stays.**  After a run, the interface tables hold the names they
held before and those that were reported. -/
theorem mem_interfaces_run (s : StateStore) (ops : List StoreOp) (name : Str) :
    (name ∈ (Runs.run apply s ops).interfacesByName ↔
      name ∈ s.interfacesByName ∨ ∃ op ∈ ops, ReportsInterface name op) ∧
    (name ∈ (Runs.run apply s ops).interfaceSnapshots ↔
      name ∈ s.interfaceSnapshots ∨ ∃ op ∈ ops, ReportsInterface name op) := by
  induction ops generalizing s with
  | nil => simp
  | cons op ops ih =>
      obtain ⟨hstates, hsnapshots⟩ := ih (s.apply op)
      rw [Runs.run_cons, hstates, hsnapshots, (s.mem_interfaces_apply op name).1,
        (s.mem_interfaces_apply op name).2]
      simp only [List.mem_cons, exists_eq_or_imp, or_assoc, and_self]

/-! ## The device tables -/

/-- A call made for a line whose time is positive and at most `latest`, or a cleanup
pass. -/
def LoggedBy (latest : TimePoint) (op : StoreOp) : Prop :=
  (∃ ts, 0 < ts ∧ ts ≤ latest ∧ App.BuiltAt ts op) ∨ ∃ now, op = .cleanup now

/-- The record was seen, and not after `latest`. -/
def SeenBy (latest : TimePoint) (d : DeviceState) : Prop := 0 < d.lastSeen ∧ d.lastSeen ≤ latest

/-- A merged record was last seen when one of its parts was. -/
theorem merge_lastSeen_cases (config : Config) (now : TimePoint) (d : DeviceState)
    {incoming : DeviceState} (hin : incoming.lastSeen ≠ 0) :
    (mergeDeviceLocked config d incoming now).lastSeen = incoming.lastSeen ∨
      (mergeDeviceLocked config d incoming now).lastSeen = d.lastSeen := by
  simp only [mergeDeviceLocked, if_neg hin]
  split
  · exact Or.inl rfl
  · exact Or.inr rfl

/-- **Nothing is seen later than it was logged.** -/
theorem seenBy_apply {latest : TimePoint} {s : StateStore} {op : StoreOp}
    (hs : AllRecords (fun _ => SeenBy latest) s) (hop : LoggedBy latest op) :
    AllRecords (fun _ => SeenBy latest) (s.apply op) := by
  have hmerge : ∀ {now device d}, op = .updateDevice now device → d.lastSeen ≤ latest →
      SeenBy latest (mergeDeviceLocked s.config d device now) := by
    rintro now device d rfl hd
    rcases hop with ⟨ts, hts, hle, hbuilt⟩ | ⟨now, hcleanup⟩
    · obtain rfl : device.lastSeen = ts := (stampedAt_of_builtAt hbuilt).lastSeen
      refine ⟨hts.trans_le (le_merge_lastSeen s.config now hts rfl).2, ?_⟩
      rcases merge_lastSeen_cases s.config now d hts.ne' with hseen | hseen
      · exact hseen.trans_le hle
      · exact hseen.trans_le hd
    · exact absurd hcleanup (by simp)
  have hlatest : op ≠ .nextEventId → (∀ now, op ≠ .cleanup now) → 0 ≤ latest := by
    intro _ hpass
    rcases hop with ⟨ts, hts, hle, -⟩ | ⟨now, hcleanup⟩
    · exact hts.le.trans hle
    · exact absurd hcleanup (hpass now)
  have hseed : 0 ≤ latest → ∀ key, (s.devicesByKey.getD key {}).lastSeen ≤ latest :=
    fun hnonneg key => AllRecords.getD (P := fun _ d => d.lastSeen ≤ latest)
      (fun k d hd => (hs k d hd).2) hnonneg
  refine hs.apply op ?_ ?_ ?_ ?_
  · rintro now device rfl - -
    exact hmerge rfl (hseed (hlatest (by simp) (by simp)) _)
  · rintro now device node rfl - hnode
    exact hmerge rfl (hs _ node hnode).2
  · rintro now snapshot decision rfl - -
    have hnonneg := hlatest (by simp) (by simp)
    rcases hop with ⟨ts, hts, hle, hbuilt⟩ | ⟨now, hcleanup⟩
    · obtain rfl : snapshot.ts = ts := stampedAt_of_builtAt hbuilt
      have hstamp : (stampTraffic now snapshot).ts = snapshot.ts := if_neg hts.ne'
      refine ⟨lt_max_of_lt_right (hstamp ▸ hts), max_le (hseed hnonneg _) (hstamp ▸ hle)⟩
    · exact absurd hcleanup (by simp)
  · rintro now k d hd
    rw [sweepDevice_eq]
    exact hd

/-- After calls up to a time, no record was seen later. -/
theorem seenBy_run {latest : TimePoint} (config : Config) {ops : List StoreOp}
    (hops : ∀ op ∈ ops, LoggedBy latest op) :
    AllRecords (fun _ => SeenBy latest) (Runs.run apply (init config) ops) :=
  Runs.Conforms.invariant (AllRecords fun _ => SeenBy latest)
    (fun _ _ hs hop => seenBy_apply hs hop)
    (Runs.conforms_of_forall (fun op hop _ => hops op hop) _) (allRecords_init config)

/-- **Devices age out.**  A pass that is further from the last line than both the idle
and the keep time erases every record, and the index and the points with them. -/
theorem devices_age_out {latest now : TimePoint} (config : Config) {ops : List StoreOp}
    (hops : ∀ op ∈ ops, LoggedBy latest op)
    (hidle : now - latest > seconds config.deviceIdleTtlSeconds)
    (hkeep : now - latest > seconds config.deviceKeepTtlSeconds) :
    ((Runs.run apply (init config) ops).cleanup now).devicesByKey = ∅ ∧
      ((Runs.run apply (init config) ops).cleanup now).ipToKey = ∅ ∧
      ((Runs.run apply (init config) ops).cleanup now).trafficPoints = ∅ := by
  have hlinked := keysLinked_of_reachable
    ⟨config, ops ++ [.cleanup now], (Runs.run_concat apply (init config) ops _).symm⟩
  have hdevices : ∀ k, k ∉ ((Runs.run apply (init config) ops).cleanup now).devicesByKey := by
    intro k
    rw [← AList.lookup_eq_none, cleanup_lookup, Option.map_eq_none_iff, Option.filter_eq_none_iff]
    intro d hd
    obtain ⟨hpos, hle⟩ := seenBy_run config hops k d hd
    have hage : now - latest ≤ now - d.lastSeen := sub_le_sub_left hle now
    have hold : Outdated (Runs.run apply (init config) ops).config now d := by
      rw [run_config]
      exact ⟨hpos.ne', lt_of_lt_of_le hidle hage, lt_of_lt_of_le hkeep hage⟩
    simpa using hold
  refine ⟨AList.eq_empty_iff.mpr hdevices, AList.eq_empty_iff.mpr fun a ha => ?_,
    AList.eq_empty_iff.mpr fun k hk => hdevices k (hlinked.points_stored k hk)⟩
  obtain ⟨k, hk⟩ := AList.exists_lookup_of_mem ha
  exact hdevices k (hlinked.index_stored a k hk)

/-! ## Everything that is kept under a name -/

/-- No table of the store holds anything. -/
def Emptied (s : StateStore) : Prop :=
  s.devicesByKey = ∅ ∧ s.ipToKey = ∅ ∧ s.trafficPoints = ∅ ∧ s.interfacesByName = ∅ ∧
    s.interfaceSnapshots = ∅

/-- **What a late pass leaves behind.**  After lines with positive times up to `latest`,
a pass that is further from `latest` than both the idle and the keep time leaves all
five tables empty exactly when no interface was reported under a name. -/
theorem emptied_iff_no_interface (config : Config) (latest : TimePoint) (ops : List StoreOp)
    (hops : ∀ op ∈ ops, LoggedBy latest op) (now : TimePoint)
    (hidle : now - latest > seconds config.deviceIdleTtlSeconds)
    (hkeep : now - latest > seconds config.deviceKeepTtlSeconds) :
    Emptied ((Runs.run apply (init config) ops).cleanup now) ↔
      ∀ time snapshot, .updateInterface time snapshot ∈ ops → snapshot.interfaceName = [] := by
  obtain ⟨hdevices, hindex, hpoints⟩ := devices_age_out config hops hidle hkeep
  have hmem := fun name =>
    (Runs.run apply (init config) ops).mem_interfaces_apply (.cleanup now) name
  have hrun := fun name => mem_interfaces_run (init config) ops name
  constructor
  · rintro ⟨-, -, -, hstates, -⟩ time snapshot hop
    by_contra hname
    refine AList.eq_empty_iff.mp hstates snapshot.interfaceName ?_
    exact (hmem _).1.mpr (Or.inl ((hrun _).1.mpr (Or.inr ⟨_, hop, rfl, hname⟩)))
  · intro hnone
    have hquiet : ∀ name, ¬ ∃ op ∈ ops, ReportsInterface name op := by
      rintro name ⟨op, hop, hreports⟩
      cases op with
      | updateInterface time snapshot => exact hreports.2 (hreports.1 ▸ hnone time snapshot hop)
      | _ => exact hreports
    refine ⟨hdevices, hindex, hpoints, AList.eq_empty_iff.mpr fun name h => ?_,
      AList.eq_empty_iff.mpr fun name h => ?_⟩
    · rcases (hmem name).1.mp h with h | h
      · exact ((hrun name).1.mp h).elim (AList.notMem_empty name) (hquiet name)
      · exact h
    · rcases (hmem name).2.mp h with h | h
      · exact ((hrun name).2.mp h).elim (AList.notMem_empty name) (hquiet name)
      · exact h

/-- The calls of a DHCP line. -/
def dhcpCalls : List StoreOp :=
  App.eventCalls ⟨0, 0, 0, 0, 0, 0, 0⟩
    { type := str "dhcp"
      fields := (∅ : StrMap Str).insert (str "mac") (str "aa:01")
      raw := [] }
    { ts := seconds 5 }

/-- A DHCP line is forgotten: the tables hold something after it and nothing after a
late pass. -/
theorem emptied_iff_no_interface_dhcp :
    ¬ Emptied (Runs.run apply (init {}) dhcpCalls) ∧
      Emptied ((Runs.run apply (init {}) dhcpCalls).cleanup (seconds 1000000)) := by
  constructor
  · intro h
    have hstored : macKey (str "aa:01") ∈ (Runs.run apply (init {}) dhcpCalls).devicesByKey := by
      decide +kernel
    exact AList.eq_empty_iff.mp h.1 _ hstored
  · refine (emptied_iff_no_interface {} (seconds 5) dhcpCalls (fun op hop => Or.inl
      ⟨seconds 5, by decide, le_refl _, Or.inr ⟨_, _, _, rfl, hop⟩⟩) (seconds 1000000)
      (by decide) (by decide)).mpr fun time snapshot hop => ?_
    rcases List.mem_pair.mp hop with h | h
    · exact absurd h (by simp)
    · exact absurd h (by simp)

/-- The calls of a line that reports the counters of `eth0`, with time 5. -/
def interfaceCalls : List StoreOp :=
  App.lineCalls ⟨0, 0, 0, 0, 0, 0, 0⟩ (str "NETIFACE if=eth0 rx_bytes=1 tx_bytes=2 ts=5") []
    (init {})

/-- The name of an interface that was reported once is still in both tables more than
eleven days later, when the idle and the keep time are long over. -/
theorem interface_never_ages_out :
    (∀ op ∈ interfaceCalls, LoggedBy (seconds 5) op) ∧
      seconds 1000000 - seconds 5 > seconds ({} : Config).deviceIdleTtlSeconds ∧
      seconds 1000000 - seconds 5 > seconds ({} : Config).deviceKeepTtlSeconds ∧
      let s := (Runs.run apply (init {}) interfaceCalls).cleanup (seconds 1000000)
      s.interfacesByName.keys = [str "eth0"] ∧ s.interfaceSnapshots.keys = [str "eth0"] := by
  refine ⟨fun op hop => Or.inl ⟨seconds 5, by decide, le_refl _, ?_⟩, by decide, by decide, ?_⟩
  · rcases List.mem_cons.mp hop with rfl | hbuilt
    · exact Or.inl rfl
    · refine Or.inr ⟨_, _, _, ?_, hbuilt⟩
      decide +kernel
  · decide +kernel

end StateStore

end Netmon
