import Netmon.StoreKeys

/-!
# What a traffic snapshot decides

A snapshot is compared with the last stored point of its device.  `RateStep` lists the
outcomes with what each presupposes: the first point, a counter reset, a growth over a
positive interval, a growth without one, and a repetition of the counters, for which
the rates are held or have expired.  The report of an interface is compared with the
report before it, and its rates are set or cleared (`updateInterface_of_name`).
-/

namespace Netmon

namespace StateStore

theorem rateBps_of_le {current previous : UInt64} (h : previous ≤ current) (deltaTime : ℚ) :
    rateBps current previous deltaTime =
      ((current.toNat - previous.toNat : ℕ) : ℚ) * 8 / deltaTime := by
  rw [rateBps, UInt64.toNat_sub_of_le _ _ h]

/-- A rate over a positive interval is positive when its counter grew. -/
theorem rateBps_pos {current previous : UInt64} {deltaTime : ℚ} (hgrew : previous < current)
    (htime : 0 < deltaTime) : 0 < rateBps current previous deltaTime := by
  have hdiff : 0 < current.toNat - previous.toNat := by
    have := UInt64.lt_iff_toNat_lt.mp hgrew
    omega
  rw [rateBps_of_le (UInt64.le_of_lt hgrew)]
  have : (0 : ℚ) < ((current.toNat - previous.toNat : ℕ) : ℚ) := by exact_mod_cast hdiff
  positivity

section

variable {config : Config} {points : List TrafficSnapshot} {device : DeviceState}
  {current previous : TrafficSnapshot}

theorem decideRates_of_none (h : points.getLast? = none) :
    decideRates config points device current =
      ⟨device.rxRateBps, device.txRateBps, true, false⟩ := by
  unfold decideRates
  rw [h]

theorem decideRates_of_reset (h : points.getLast? = some previous)
    (hreset : current.rxBytes < previous.rxBytes ∨ current.txBytes < previous.txBytes) :
    decideRates config points device current = ⟨0, 0, true, true⟩ := by
  unfold decideRates
  rw [h]
  exact if_pos hreset

theorem decideRates_of_growth (h : points.getLast? = some previous)
    (hreset : ¬ (current.rxBytes < previous.rxBytes ∨ current.txBytes < previous.txBytes))
    (hchanged : current.rxBytes ≠ previous.rxBytes ∨ current.txBytes ≠ previous.txBytes)
    (htime : previous.ts < current.ts) :
    decideRates config points device current =
      ⟨rateBps current.rxBytes previous.rxBytes (inSeconds (current.ts - previous.ts)),
        rateBps current.txBytes previous.txBytes (inSeconds (current.ts - previous.ts)),
        true, false⟩ := by
  have hdelta : inSeconds (current.ts - previous.ts) > 0 := inSeconds_pos.mpr (sub_pos.mpr htime)
  unfold decideRates
  rw [h]
  exact (if_neg hreset).trans ((if_pos hchanged).trans (if_pos hdelta))

theorem decideRates_of_stall (h : points.getLast? = some previous)
    (hreset : ¬ (current.rxBytes < previous.rxBytes ∨ current.txBytes < previous.txBytes))
    (hchanged : current.rxBytes ≠ previous.rxBytes ∨ current.txBytes ≠ previous.txBytes)
    (htime : ¬ previous.ts < current.ts) :
    decideRates config points device current =
      ⟨device.rxRateBps, device.txRateBps, false, false⟩ := by
  have hdelta : ¬ inSeconds (current.ts - previous.ts) > 0 := fun h =>
    htime (sub_pos.mp (inSeconds_pos.mp h))
  unfold decideRates
  rw [h]
  exact (if_neg hreset).trans ((if_pos hchanged).trans (if_neg hdelta))

theorem decideRates_of_same (h : points.getLast? = some previous)
    (hrx : current.rxBytes = previous.rxBytes) (htx : current.txBytes = previous.txBytes) :
    decideRates config points device current =
      if hasRecentRate config device current.ts then
        ⟨device.rxRateBps, device.txRateBps, false, false⟩
      else ⟨0, 0, false, false⟩ := by
  unfold decideRates
  rw [h, hrx, htx]
  simp

variable (config points device current)

/-- The outcomes of a decision. -/
inductive RateStep : RateDecision → Prop where
  | first (hnone : points.getLast? = none) :
      RateStep ⟨device.rxRateBps, device.txRateBps, true, false⟩
  | reset {previous : TrafficSnapshot} (hlast : points.getLast? = some previous)
      (hreset : current.rxBytes < previous.rxBytes ∨ current.txBytes < previous.txBytes) :
      RateStep ⟨0, 0, true, true⟩
  | growth {previous : TrafficSnapshot} (hlast : points.getLast? = some previous)
      (hrx : previous.rxBytes ≤ current.rxBytes) (htx : previous.txBytes ≤ current.txBytes)
      (hgrew : previous.rxBytes < current.rxBytes ∨ previous.txBytes < current.txBytes)
      (htime : previous.ts < current.ts) :
      RateStep
        ⟨rateBps current.rxBytes previous.rxBytes (inSeconds (current.ts - previous.ts)),
          rateBps current.txBytes previous.txBytes (inSeconds (current.ts - previous.ts)),
          true, false⟩
  | stall {previous : TrafficSnapshot} (hlast : points.getLast? = some previous)
      (hreset : ¬ (current.rxBytes < previous.rxBytes ∨ current.txBytes < previous.txBytes))
      (hchanged : current.rxBytes ≠ previous.rxBytes ∨ current.txBytes ≠ previous.txBytes)
      (htime : ¬ previous.ts < current.ts) :
      RateStep ⟨device.rxRateBps, device.txRateBps, false, false⟩
  | held {previous : TrafficSnapshot} (hlast : points.getLast? = some previous)
      (hrx : current.rxBytes = previous.rxBytes) (htx : current.txBytes = previous.txBytes)
      (hrecent : hasRecentRate config device current.ts = true) :
      RateStep ⟨device.rxRateBps, device.txRateBps, false, false⟩
  | expired {previous : TrafficSnapshot} (hlast : points.getLast? = some previous)
      (hrx : current.rxBytes = previous.rxBytes) (htx : current.txBytes = previous.txBytes)
      (hrecent : ¬ hasRecentRate config device current.ts = true) : RateStep ⟨0, 0, false, false⟩

/-- **What a snapshot decides** is one of these. -/
theorem decideRates_step :
    RateStep config points device current (decideRates config points device current) := by
  cases hlast : points.getLast? with
  | none =>
      rw [decideRates_of_none hlast]
      exact .first hlast
  | some previous =>
      by_cases hreset : current.rxBytes < previous.rxBytes ∨ current.txBytes < previous.txBytes
      · rw [decideRates_of_reset hlast hreset]
        exact .reset hlast hreset
      by_cases hchanged : current.rxBytes ≠ previous.rxBytes ∨ current.txBytes ≠ previous.txBytes
      · by_cases htime : previous.ts < current.ts
        · obtain ⟨hrx, htx⟩ := not_or.mp hreset
          have hrx := UInt64.not_lt.mp hrx
          have htx := UInt64.not_lt.mp htx
          rw [decideRates_of_growth hlast hreset hchanged htime]
          refine .growth hlast hrx htx ?_ htime
          exact hchanged.imp (fun h => UInt64.lt_of_le_of_ne hrx h.symm)
            fun h => UInt64.lt_of_le_of_ne htx h.symm
        · rw [decideRates_of_stall hlast hreset hchanged htime]
          exact .stall hlast hreset hchanged htime
      · obtain ⟨hrx, htx⟩ := not_or.mp hchanged
        have hrx := not_not.mp hrx
        have htx := not_not.mp htx
        rw [decideRates_of_same hlast hrx htx]
        by_cases hrecent : hasRecentRate config device current.ts = true
        · rw [if_pos hrecent]
          exact .held hlast hrx htx hrecent
        · rw [if_neg hrecent]
          exact .expired hlast hrx htx hrecent

end

/-- The point of a stored sample is the sample itself, as long as one point may
be kept. -/
theorem storePoint_getLast? {config : Config} {points : List TrafficSnapshot}
    {current : TrafficSnapshot} {decision : RateDecision}
    (hmax : 1 ≤ config.maxTrafficPointsPerDevice.toNat)
    (hstore : decision.shouldStorePoint = true) :
    (storePoint config points current decision).getLast? = some current := by
  rw [storePoint, if_pos hstore]
  exact popFrontTo_concat_getLast? hmax points current

theorem storePoint_of_not {config : Config} {points : List TrafficSnapshot}
    {current : TrafficSnapshot} {decision : RateDecision}
    (hstore : decision.shouldStorePoint = false) :
    storePoint config points current decision = points := by
  rw [storePoint, if_neg (by simp [hstore])]

/-- A stored sample leaves no point where none may be kept. -/
theorem storePoint_eq_nil {config : Config} {points : List TrafficSnapshot}
    {current : TrafficSnapshot} {decision : RateDecision}
    (hmax : config.maxTrafficPointsPerDevice.toNat = 0)
    (hstore : decision.shouldStorePoint = true) :
    storePoint config points current decision = [] := by
  rw [storePoint, if_pos hstore, hmax]
  exact List.eq_nil_of_length_eq_zero (Nat.le_zero.mp (popFrontTo_length_le 0 _))

/-! ## Interfaces -/

/-- The rates that the report of an interface sets, from the report before it. -/
def interfaceRates (previous : Option InterfaceSnapshot) (current : InterfaceSnapshot) :
    Option (ℚ × ℚ) :=
  match previous with
  | none => none
  | some previous =>
      let deltaTime := inSeconds (current.ts - previous.ts)
      if deltaTime > 0 ∧ ¬ (current.rxBytes < previous.rxBytes ∨
          current.txBytes < previous.txBytes) then
        some (rateBps current.rxBytes previous.rxBytes deltaTime,
          rateBps current.txBytes previous.txBytes deltaTime)
      else none

/-- The state of an interface after a report. -/
def interfaceAfter (state : InterfaceState) (current : InterfaceSnapshot)
    (rates : Option (ℚ × ℚ)) : InterfaceState :=
  { state with
    interfaceName := current.interfaceName
    lastSeen := current.ts
    rxBytesTotal := current.rxBytes
    txBytesTotal := current.txBytes
    rxRateBps := (rates.map Prod.fst).getD 0
    txRateBps := (rates.map Prod.snd).getD 0
    lastRate := if rates.isSome then current.ts else state.lastRate }

/-- The report as it is processed: stamped with the clock when it carries no time. -/
def stampInterface (now : TimePoint) (snapshot : InterfaceSnapshot) : InterfaceSnapshot :=
  { snapshot with ts := if snapshot.ts = 0 then now else snapshot.ts }

/-- A report with a name writes the state and the report of its interface. -/
theorem updateInterface_of_name {snapshot : InterfaceSnapshot}
    (hname : snapshot.interfaceName ≠ []) (now : TimePoint) (s : StateStore) :
    s.updateInterface now snapshot =
      let name := snapshot.interfaceName
      let current := stampInterface now snapshot
      { s with
        interfacesByName := s.interfacesByName.insert name
          (interfaceAfter (s.interfacesByName.getD name {}) current
            (interfaceRates (s.interfaceSnapshots.lookup name) current))
        interfaceSnapshots := s.interfaceSnapshots.insert name current }.touchLastLogLocked now
          current.ts := by
  unfold updateInterface
  rw [if_neg hname]
  rfl

/-- The two tables of the interfaces after a report with a name. -/
theorem updateInterface_tables {snapshot : InterfaceSnapshot}
    (hname : snapshot.interfaceName ≠ []) (now : TimePoint) (s : StateStore) :
    (s.updateInterface now snapshot).interfacesByName =
        s.interfacesByName.insert snapshot.interfaceName
          (interfaceAfter (s.interfacesByName.getD snapshot.interfaceName {})
            (stampInterface now snapshot)
            (interfaceRates (s.interfaceSnapshots.lookup snapshot.interfaceName)
              (stampInterface now snapshot))) ∧
      (s.updateInterface now snapshot).interfaceSnapshots =
        s.interfaceSnapshots.insert snapshot.interfaceName (stampInterface now snapshot) := by
  rw [updateInterface_of_name hname]
  simp only [touchLastLogLocked_eq]
  exact ⟨trivial, trivial⟩

/-- Rates are set for counters that did not go down over a positive interval. -/
theorem interfaceRates_of_growth {previous current : InterfaceSnapshot}
    (htime : previous.ts < current.ts) (hrx : previous.rxBytes ≤ current.rxBytes)
    (htx : previous.txBytes ≤ current.txBytes) :
    interfaceRates (some previous) current =
      some (rateBps current.rxBytes previous.rxBytes (inSeconds (current.ts - previous.ts)),
        rateBps current.txBytes previous.txBytes (inSeconds (current.ts - previous.ts))) := by
  have hdelta : inSeconds (current.ts - previous.ts) > 0 := inSeconds_pos.mpr (sub_pos.mpr htime)
  refine if_pos ⟨hdelta, ?_⟩
  rw [not_or, UInt64.not_lt, UInt64.not_lt]
  exact ⟨hrx, htx⟩

/-- No rates are set without a positive interval, or when a counter went down. -/
theorem interfaceRates_of_not {previous current : InterfaceSnapshot}
    (h : ¬ (previous.ts < current.ts ∧ previous.rxBytes ≤ current.rxBytes ∧
      previous.txBytes ≤ current.txBytes)) : interfaceRates (some previous) current = none := by
  refine if_neg fun hgrowth => h ?_
  obtain ⟨hdelta, hreset⟩ := hgrowth
  rw [not_or, UInt64.not_lt, UInt64.not_lt] at hreset
  exact ⟨sub_pos.mp (inSeconds_pos.mp hdelta), hreset⟩

/-- A report that arrives again meets no positive interval. -/
theorem interfaceRates_again (current : InterfaceSnapshot) :
    interfaceRates (some current) current = none :=
  interfaceRates_of_not fun h => lt_irrefl _ h.1

end StateStore

end Netmon
