import Netmon.RateDecision
import Netmon.RecordTracks

/-!
# Stored traffic points

A snapshot becomes a point when it is the first one, when a counter went down, or
when a counter grew and time advanced.  Consecutive points are therefore either a
counter reset or a growth over a positive interval (`RateSafe`), whatever the order
in which snapshots arrive, and a rate is only ever computed from such a growth.
-/

namespace Netmon

namespace StateStore

/-! ## The rate decision -/

/-- The rates are the growth of two counters over a positive interval, with no
counter smaller than before. -/
structure GrowthRates (before after : TimePoint) (rxBefore rxAfter txBefore txAfter : UInt64)
    (rxRate txRate : ℚ) : Prop where
  interval : before < after
  rx_le : rxBefore ≤ rxAfter
  tx_le : txBefore ≤ txAfter
  rx : rxRate = ((rxAfter.toNat - rxBefore.toNat : ℕ) : ℚ) * 8 / inSeconds (after - before)
  tx : txRate = ((txAfter.toNat - txBefore.toNat : ℕ) : ℚ) * 8 / inSeconds (after - before)

/-- Rates of growing counters are not negative. -/
theorem GrowthRates.nonneg {before after : TimePoint} {rxBefore rxAfter txBefore txAfter : UInt64}
    {rxRate txRate : ℚ}
    (h : GrowthRates before after rxBefore rxAfter txBefore txAfter rxRate txRate) :
    0 ≤ rxRate ∧ 0 ≤ txRate := by
  have hinterval : 0 < inSeconds (after - before) := inSeconds_pos.mpr (sub_pos.mpr h.interval)
  rw [h.rx, h.tx]
  exact ⟨by positivity, by positivity⟩

/-- Two consecutive points: a counter reset, or a growth over a positive
interval. -/
def RateSafe (p q : TrafficSnapshot) : Prop :=
  (q.rxBytes < p.rxBytes ∨ q.txBytes < p.txBytes) ∨
    (p.ts < q.ts ∧ p.rxBytes ≤ q.rxBytes ∧ p.txBytes ≤ q.txBytes ∧
      (p.rxBytes < q.rxBytes ∨ p.txBytes < q.txBytes))

/-- **What a snapshot decides.**  The rates are kept, cleared, or computed from the
growth since the last point; and the snapshot is stored only if it follows the last
point safely. -/
theorem decideRates_cases (config : Config) (points : List TrafficSnapshot)
    (device : DeviceState) (current : TrafficSnapshot) :
    let decision := decideRates config points device current
    ((decision.rxRate = device.rxRateBps ∧ decision.txRate = device.txRateBps) ∨
      (decision.rxRate = 0 ∧ decision.txRate = 0) ∨
      ∃ last, points.getLast? = some last ∧
        GrowthRates last.ts current.ts last.rxBytes current.rxBytes last.txBytes current.txBytes
          decision.rxRate decision.txRate) ∧
    (decision.shouldStorePoint = true → ∀ last ∈ points.getLast?, RateSafe last current) := by
  intro decision
  have hstep := decideRates_step config points device current
  have hlast : ∀ {previous last : TrafficSnapshot}, points.getLast? = some previous →
      last ∈ points.getLast? → previous = last := fun hprevious hmem =>
    Option.some.inj (hprevious.symm.trans hmem)
  change RateStep config points device current decision at hstep
  generalize decision = outcome at hstep
  cases hstep with
  | first hnone =>
      exact ⟨Or.inl ⟨rfl, rfl⟩, fun _ last hmem => absurd (hnone.symm.trans hmem) (by simp)⟩
  | reset hprevious hreset =>
      refine ⟨Or.inr (Or.inl ⟨rfl, rfl⟩), fun _ last hmem => ?_⟩
      obtain rfl := hlast hprevious hmem
      exact Or.inl hreset
  | growth hprevious hrx htx hgrew htime =>
      refine ⟨Or.inr (Or.inr ⟨_, hprevious, htime, hrx, htx, rateBps_of_le hrx _,
        rateBps_of_le htx _⟩), fun _ last hmem => ?_⟩
      obtain rfl := hlast hprevious hmem
      exact Or.inr ⟨htime, hrx, htx, hgrew⟩
  | stall => exact ⟨Or.inl ⟨rfl, rfl⟩, fun hstore => absurd hstore (by simp)⟩
  | held => exact ⟨Or.inl ⟨rfl, rfl⟩, fun hstore => absurd hstore (by simp)⟩
  | expired => exact ⟨Or.inr (Or.inl ⟨rfl, rfl⟩), fun hstore => absurd hstore (by simp)⟩

/-! ## The points -/

/-- A list of points within the limit, each following the one before safely. -/
structure SafePoints (config : Config) (points : List TrafficSnapshot) : Prop where
  bounded : points.length ≤ config.maxTrafficPointsPerDevice.toNat
  chain : points.IsChain RateSafe

theorem safePoints_nil (config : Config) : SafePoints config [] :=
  ⟨Nat.zero_le _, List.isChain_nil⟩

/-- Storing a snapshot keeps the points safe. -/
theorem SafePoints.store {config : Config} {points : List TrafficSnapshot}
    (h : SafePoints config points) (device : DeviceState) (current : TrafficSnapshot) :
    SafePoints config (storePoint config points current
      (decideRates config points device current)) := by
  unfold storePoint
  split
  · rename_i hstore
    refine ⟨popFrontTo_length_le _ _, ?_⟩
    rw [popFrontTo_eq_drop]
    refine List.IsChain.drop (h.chain.append (List.isChain_singleton current) ?_) _
    intro last hlast next hnext
    obtain rfl : current = next := by simpa using hnext
    exact (decideRates_cases config points device current).2 hstore last hlast
  · exact h

/-- Every list of points of the store is safe. -/
def AllSafe (s : StateStore) : Prop :=
  ∀ k points, s.trafficPoints.lookup k = some points → SafePoints s.config points

/-- The points under every key are safe. -/
theorem AllSafe.getD {s : StateStore} (h : AllSafe s) (key : Str) :
    SafePoints s.config (s.trafficPoints.getD key []) := by
  cases hp : s.trafficPoints.lookup key with
  | none => simpa [AList.getD, hp] using safePoints_nil s.config
  | some points => simpa [AList.getD, hp] using h key points hp

/-- What leaves the tables alone keeps the points safe. -/
theorem AllSafe.of_same {s t : StateStore} (h : AllSafe s) (hst : SameTables s t) : AllSafe t := by
  intro k points hp
  rw [hst.points] at hp
  rw [hst.config]
  exact h k points hp

/-- **Every call keeps the points safe.** -/
theorem AllSafe.next {s : StateStore} (h : AllSafe s) (op : StoreOp) : AllSafe (s.apply op) := by
  cases op with
  | updateDevice now device =>
      rcases s.updateDevice_cases now device with
        ⟨-, hsame⟩ | ⟨record, -, -, -, hconfig, -, -, hpoints⟩ |
          ⟨node, record, -, -, -, hconfig, -, -, hpoints⟩
      · show AllSafe (s.updateDevice now device)
        rwa [hsame]
      · intro k points hp
        rw [apply, hpoints] at hp
        rw [apply, hconfig]
        exact h k points hp
      · -- the points of the address move to the key of the MAC as they are
        intro k points hp
        rw [apply, hpoints, AList.lookup_erase_if, AList.lookup_insert_if] at hp
        rw [apply, hconfig]
        split at hp
        · exact absurd hp (by simp)
        · split at hp
          · cases hp
            exact h.getD _
          · exact h k points hp
  | updateTraffic now snapshot =>
      rcases s.updateTraffic_cases now snapshot with
        ⟨-, -, hsame⟩ | ⟨record, stored, -, -, hstored, hconfig, -, -, hpoints⟩
      · show AllSafe (s.updateTraffic now snapshot)
        rwa [hsame]
      · intro k points hp
        rw [apply, hpoints, AList.lookup_insert_if] at hp
        rw [apply, hconfig]
        split at hp
        · cases hp
          rw [hstored]
          exact (h.getD _).store _ _
        · exact h k points hp
  | updateInterface now snapshot => exact h.of_same (updateInterface_same now snapshot s)
  | addEvent now event => exact h.of_same (addEvent_same now event s)
  | addWANAttack now later event => exact h.of_same (addWANAttack_same now later event s)
  | nextEventId => exact h.of_same ⟨rfl, rfl, rfl, rfl⟩
  | cleanup now =>
      intro k points hp
      obtain ⟨hconfig, -, hpoints, -⟩ := s.cleanup_tables now
      rw [apply, hpoints] at hp
      rw [apply, hconfig]
      split at hp
      · exact absurd hp (by simp)
      · exact h k points hp

/-! ## Rates are not negative -/

/-- The rates of a record are not negative. -/
def RatesNonneg (device : DeviceState) : Prop :=
  0 ≤ device.rxRateBps ∧ 0 ≤ device.txRateBps

/-- A merged record has no negative rate. -/
theorem RatesNonneg.merge {current incoming : DeviceState} (h : RatesNonneg current)
    (hin : RatesNonneg incoming) (config : Config) (now : TimePoint) :
    RatesNonneg (mergeDeviceLocked config current incoming now) := by
  unfold RatesNonneg mergeDeviceLocked
  constructor
  · dsimp only
    split
    · exact hin.1
    · exact h.1
  · dsimp only
    split
    · exact hin.2
    · exact h.2

/-- A record after a traffic sample has no negative rate. -/
theorem RatesNonneg.traffic {device : DeviceState} (h : RatesNonneg device) (config : Config)
    (points : List TrafficSnapshot) (current : TrafficSnapshot) :
    RatesNonneg (trafficDevice config device current
      (decideRates config points device current)) := by
  show 0 ≤ (decideRates config points device current).rxRate ∧
    0 ≤ (decideRates config points device current).txRate
  rcases (decideRates_cases config points device current).1 with
    ⟨hrx, htx⟩ | ⟨hrx, htx⟩ | ⟨last, -, hgrowth⟩
  · rw [hrx, htx]
    exact h
  · rw [hrx, htx]
    exact ⟨le_refl 0, le_refl 0⟩
  · exact hgrowth.nonneg

/-- A record that the cleanup has walked has no negative rate. -/
theorem RatesNonneg.sweep {device : DeviceState} (h : RatesNonneg device) (config : Config)
    (now : TimePoint) : RatesNonneg (sweepDevice config now device) := by
  unfold sweepDevice
  split
  · exact ⟨le_refl 0, le_refl 0⟩
  · exact h

/-- A device update of the call, if it is one, carries rates that are not negative. -/
def CarriesNonneg (op : StoreOp) : Prop :=
  ∀ now device, op = .updateDevice now device → RatesNonneg device

/-- A call that carries no negative rate leaves none. -/
theorem ratesNonneg_next {s : StateStore} (h : AllRecords (fun _ => RatesNonneg) s)
    {op : StoreOp} (hop : CarriesNonneg op) : AllRecords (fun _ => RatesNonneg) (s.apply op) := by
  have hblank : RatesNonneg {} := ⟨le_refl 0, le_refl 0⟩
  apply h.apply
  · intro now device heq _ _
    exact (h.getD hblank).merge (hop now device heq) s.config now
  · intro now device node heq _ hnode
    exact (h _ node hnode).merge (hop now device heq) s.config now
  · rintro now snapshot decision - - rfl
    exact (h.getD hblank).traffic s.config _ _
  · intro now k d hd
    exact hd.sweep s.config now

/-! ## Interfaces -/

/-- The rates of an interface are cleared, or computed from the growth since its
last snapshot. -/
theorem updateInterface_rates (now : TimePoint) {snapshot : InterfaceSnapshot}
    (hname : snapshot.interfaceName ≠ []) (s : StateStore) :
    ∃ state, (s.updateInterface now snapshot).interfacesByName.lookup snapshot.interfaceName =
        some state ∧
      ((state.rxRateBps = 0 ∧ state.txRateBps = 0) ∨
        ∃ last, s.interfaceSnapshots.lookup snapshot.interfaceName = some last ∧
          GrowthRates last.ts (if snapshot.ts = 0 then now else snapshot.ts) last.rxBytes
            snapshot.rxBytes last.txBytes snapshot.txBytes state.rxRateBps state.txRateBps) := by
  rw [(updateInterface_tables hname now s).1, AList.lookup_insert]
  refine ⟨_, rfl, ?_⟩
  cases hlast : s.interfaceSnapshots.lookup snapshot.interfaceName with
  | none => exact Or.inl ⟨rfl, rfl⟩
  | some last =>
      by_cases hgrowth : last.ts < (stampInterface now snapshot).ts ∧
          last.rxBytes ≤ snapshot.rxBytes ∧ last.txBytes ≤ snapshot.txBytes
      · obtain ⟨htime, hrx, htx⟩ := hgrowth
        rw [interfaceRates_of_growth htime hrx htx]
        exact Or.inr ⟨last, rfl, htime, hrx, htx, rateBps_of_le hrx _, rateBps_of_le htx _⟩
      · rw [interfaceRates_of_not hgrowth]
        exact Or.inl ⟨rfl, rfl⟩

/-- **Stored points are rate-safe.**  After every history of calls a list of points
is within its limit, and two consecutive points are a counter reset or a growth over
a positive interval.  So every rate is kept, cleared, or a growth of counters divided
by a positive interval; and no device has a negative rate unless a device update
brought one. -/
theorem traffic_points_rate_safe (config : Config) (ops : List StoreOp) :
    let s := Runs.run apply (init config) ops
    (∀ k points, s.trafficPoints.lookup k = some points →
      points.length ≤ config.maxTrafficPointsPerDevice.toNat ∧ points.IsChain RateSafe) ∧
    (∀ now snapshot,
      let key := s.resolveKey snapshot.mac snapshot.ip
      let device := s.devicesByKey.getD key {}
      let current := stampTraffic now snapshot
      let decision := decideRates s.config (s.trafficPoints.getD key []) device current
      (decision.rxRate = device.rxRateBps ∧ decision.txRate = device.txRateBps) ∨
        (decision.rxRate = 0 ∧ decision.txRate = 0) ∨
        ∃ last, (s.trafficPoints.getD key []).getLast? = some last ∧
          GrowthRates last.ts current.ts last.rxBytes current.rxBytes last.txBytes
            current.txBytes decision.rxRate decision.txRate) ∧
    (∀ now snapshot, snapshot.interfaceName ≠ [] →
      ∃ state, (s.updateInterface now snapshot).interfacesByName.lookup snapshot.interfaceName =
          some state ∧
        ((state.rxRateBps = 0 ∧ state.txRateBps = 0) ∨
          ∃ last, s.interfaceSnapshots.lookup snapshot.interfaceName = some last ∧
            GrowthRates last.ts (if snapshot.ts = 0 then now else snapshot.ts) last.rxBytes
              snapshot.rxBytes last.txBytes snapshot.txBytes state.rxRateBps
              state.txRateBps)) ∧
    ((∀ now device, .updateDevice now device ∈ ops →
        0 ≤ device.rxRateBps ∧ 0 ≤ device.txRateBps) →
      ∀ k d, s.devicesByKey.lookup k = some d → 0 ≤ d.rxRateBps ∧ 0 ≤ d.txRateBps) := by
  intro s
  have hconfig : s.config = config := run_config (init config) ops
  have hsafe : AllSafe s :=
    Runs.run_invariant AllSafe (fun _ op h => h.next op) (by simp [AllSafe, init]) ops
  refine ⟨fun k points hp => ?_, fun now snapshot => ?_, fun now snapshot hname => ?_,
    fun hops => ?_⟩
  · have h := hsafe k points hp
    rw [hconfig] at h
    exact ⟨h.bounded, h.chain⟩
  · exact (decideRates_cases _ _ _ _).1
  · exact updateInterface_rates now hname s
  · refine Runs.Conforms.invariant (AllRecords fun _ => RatesNonneg)
      (fun _ op h hop => ratesNonneg_next h hop) (Runs.conforms_of_forall (fun op hop _ => ?_) _)
      (allRecords_init config)
    rintro now device rfl
    exact hops now device hop

end StateStore

end Netmon
