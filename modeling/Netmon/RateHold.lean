import Netmon.DeviceUniqueness
import Netmon.HeldValue
import Netmon.RateDecision

/-!
# How long a rate is held

A repeated traffic sample keeps the rates of the device while `last_rate` is at
most `traffic_rate_hold_seconds` old.  But the sample then writes its own time
into `last_rate`, because the rates it kept are positive: the record behaves as
a `HeldValue` whose confirmation every repetition renews (`repeated_sample`).
So it is the gaps between the samples that decide, not the age of the rate.
-/

namespace Netmon

namespace StateStore

/-! ## The cell of a device -/

/-- The rates are shown: one of them is positive. -/
def RateLive (rates : ℚ × ℚ) : Prop := rates.1 > 0 ∨ rates.2 > 0

instance : DecidablePred RateLive := fun _ => inferInstanceAs (Decidable (_ ∨ _))

/-- A rate confirmed at `u` may be held at `v`. -/
def RateFresh (config : Config) (u v : TimePoint) : Prop :=
  u ≠ 0 ∧ v - u ≤ seconds config.trafficRateHoldSeconds

instance (config : Config) (u v : TimePoint) : Decidable (RateFresh config u v) :=
  inferInstanceAs (Decidable (_ ∧ _))

/-- The rates of a record and the time of the last positive one. -/
def rateCell (device : DeviceState) : HeldValue TimePoint (ℚ × ℚ) where
  value := (device.rxRateBps, device.txRateBps)
  stamp := device.lastRate

/-- The record of a key, blank when there is none. -/
def record (s : StateStore) (key : Str) : DeviceState := s.devicesByKey.getD key {}

/-- The point that the next sample of a key is compared with. -/
def storedPoint (s : StateStore) (key : Str) : Option TrafficSnapshot :=
  (s.trafficPoints.getD key []).getLast?

def SameCounters (a b : TrafficSnapshot) : Prop :=
  a.rxBytes = b.rxBytes ∧ a.txBytes = b.txBytes

/-- A counter went down from `previous` to `current`. -/
def CountersReset (current previous : TrafficSnapshot) : Prop :=
  current.rxBytes < previous.rxBytes ∨ current.txBytes < previous.txBytes

instance (a b : TrafficSnapshot) : Decidable (SameCounters a b) :=
  inferInstanceAs (Decidable (_ ∧ _))

instance (a b : TrafficSnapshot) : Decidable (CountersReset a b) :=
  inferInstanceAs (Decidable (_ ∨ _))

/-- A traffic sample and the clock at its arrival. -/
abbrev TrafficCall := TimePoint × TrafficSnapshot

/-- The time a sample counts for. -/
def callTime (call : TrafficCall) : TimePoint := (stampTraffic call.1 call.2).ts

def trafficStep (s : StateStore) (call : TrafficCall) : StateStore :=
  s.updateTraffic call.1 call.2

/-- The sample is one of the device stored under `key`. -/
def ForDevice (s : StateStore) (key : Str) (call : TrafficCall) : Prop :=
  s.resolveKey call.2.mac call.2.ip = key

/-- The sample repeats the counters of the stored point. -/
def Repeats (s : StateStore) (key : Str) (call : TrafficCall) : Prop :=
  ∃ point, s.storedPoint key = some point ∧ SameCounters call.2 point

instance (s : StateStore) (key : Str) (call : TrafficCall) : Decidable (ForDevice s key call) :=
  inferInstanceAs (Decidable (_ = _))

instance (s : StateStore) (key : Str) (call : TrafficCall) : Decidable (Repeats s key call) :=
  decidable_of_iff ((s.storedPoint key).any fun point => SameCounters call.2 point) (by
    unfold Repeats
    cases s.storedPoint key <;> simp)

/-! ## What one sample does to its device -/

/-- A sample of a device decides over its record and its points and writes both
back. -/
theorem trafficStep_device {s : StateStore} {key : Str} {call : TrafficCall} (hkey : key ≠ [])
    (hdevice : ForDevice s key call) :
    (trafficStep s call).config = s.config ∧
      (trafficStep s call).devicesByKey.lookup key = some ((trafficStep s call).record key) ∧
      (trafficStep s call).record key =
        trafficDevice s.config (s.record key) (stampTraffic call.1 call.2)
          (decideRates s.config (s.trafficPoints.getD key []) (s.record key)
            (stampTraffic call.1 call.2)) ∧
      (trafficStep s call).storedPoint key =
        (storePoint s.config (s.trafficPoints.getD key []) (stampTraffic call.1 call.2)
          (decideRates s.config (s.trafficPoints.getD key []) (s.record key)
            (stampTraffic call.1 call.2))).getLast? := by
  unfold ForDevice at hdevice
  rcases s.updateTraffic_cases call.1 call.2 with
    ⟨hmac, hip, -⟩ | ⟨record, points, -, hrecord, hpoints, hconfig, hdevices, -, htraffic⟩
  · rw [hmac, hip] at hdevice
    exact absurd (hdevice.symm.trans s.resolveKey_nil_nil) hkey
  · rw [hdevice] at hrecord hpoints hdevices htraffic
    have hlookup : (trafficStep s call).devicesByKey.lookup key = some record := by
      rw [trafficStep, hdevices, AList.lookup_insert]
    have hafter : (trafficStep s call).record key = record := by
      rw [StateStore.record, AList.getD, hlookup]
      rfl
    refine ⟨hconfig, ?_, ?_, ?_⟩
    · rw [hlookup, hafter]
    · rw [hafter]
      exact hrecord
    · unfold storedPoint trafficStep
      rw [htraffic, AList.getD, AList.lookup_insert, hpoints]
      rfl

/-- **A repeated sample ticks the cell** and leaves the stored point. -/
theorem repeated_sample {s : StateStore} {key : Str} {call : TrafficCall} (hkey : key ≠ [])
    (hdevice : ForDevice s key call) (hrepeats : Repeats s key call) :
    (trafficStep s call).storedPoint key = s.storedPoint key ∧
      rateCell ((trafficStep s call).record key) =
        HeldValue.tick (RateFresh s.config) RateLive (0, 0) (rateCell (s.record key))
          (callTime call) := by
  obtain ⟨point, hpoint, hrx, htx⟩ := hrepeats
  obtain ⟨-, -, hrecord, hstored⟩ := trafficStep_device hkey hdevice
  have hdecision : decideRates s.config (s.trafficPoints.getD key []) (s.record key)
      (stampTraffic call.1 call.2) =
        if hasRecentRate s.config (s.record key) (callTime call) then
          ⟨(s.record key).rxRateBps, (s.record key).txRateBps, false, false⟩
        else ⟨0, 0, false, false⟩ := by
    exact decideRates_of_same hpoint hrx htx
  rw [hdecision] at hrecord hstored
  refine ⟨?_, ?_⟩
  · rw [hstored]
    split
    · rfl
    · rfl
  · rw [hrecord]
    by_cases hfresh : RateFresh s.config (rateCell (s.record key)).stamp (callTime call)
    · have hrecent : hasRecentRate s.config (s.record key) (callTime call) = true :=
        decide_eq_true hfresh
      rw [if_pos hrecent, HeldValue.tick, if_pos hfresh]
      by_cases hlive : RateLive (rateCell (s.record key)).value
      · have hpositive : (s.record key).rxRateBps > 0 ∨ (s.record key).txRateBps > 0 := hlive
        rw [if_pos hlive]
        simp only [rateCell, trafficDevice, if_pos hpositive, callTime]
      · have hzero : ¬ ((s.record key).rxRateBps > 0 ∨ (s.record key).txRateBps > 0) := hlive
        rw [if_neg hlive]
        simp only [rateCell, trafficDevice, if_neg hzero, Bool.false_eq_true, if_false]
    · have hrecent : ¬ hasRecentRate s.config (s.record key) (callTime call) = true :=
        fun h => hfresh (of_decide_eq_true h)
      rw [if_neg hrecent, HeldValue.tick, if_neg hfresh]
      simp [rateCell, trafficDevice]

/-- A counter that went down clears the rates. -/
theorem reset_sample {s : StateStore} {key : Str} {call : TrafficCall} {point : TrafficSnapshot}
    (hkey : key ≠ []) (hmax : 1 ≤ s.config.maxTrafficPointsPerDevice.toNat)
    (hdevice : ForDevice s key call) (hpoint : s.storedPoint key = some point)
    (hreset : CountersReset call.2 point) :
    (trafficStep s call).storedPoint key = some (stampTraffic call.1 call.2) ∧
      (rateCell ((trafficStep s call).record key)).value = (0, 0) := by
  obtain ⟨-, -, hrecord, hstored⟩ := trafficStep_device hkey hdevice
  have hdecision : decideRates s.config (s.trafficPoints.getD key []) (s.record key)
      (stampTraffic call.1 call.2) = ⟨0, 0, true, true⟩ := decideRates_of_reset hpoint hreset
  rw [hdecision] at hrecord hstored
  refine ⟨hstored.trans (storePoint_getLast? hmax rfl), ?_⟩
  rw [hrecord]
  rfl

/-- A counter that grew after some time sets positive rates. -/
theorem growing_sample {s : StateStore} {key : Str} {call : TrafficCall}
    {point : TrafficSnapshot} (hkey : key ≠ [])
    (hmax : 1 ≤ s.config.maxTrafficPointsPerDevice.toNat)
    (hdevice : ForDevice s key call) (hpoint : s.storedPoint key = some point)
    (hreset : ¬ CountersReset call.2 point) (hdiffers : ¬ SameCounters call.2 point)
    (htime : point.ts < callTime call) :
    (trafficStep s call).storedPoint key = some (stampTraffic call.1 call.2) ∧
      RateLive (rateCell ((trafficStep s call).record key)).value ∧
      (rateCell ((trafficStep s call).record key)).stamp = callTime call := by
  obtain ⟨-, -, hrecord, hstored⟩ := trafficStep_device hkey hdevice
  have hdelta : inSeconds ((stampTraffic call.1 call.2).ts - point.ts) > 0 :=
    inSeconds_pos.mpr (sub_pos.mpr htime)
  have hchanged : call.2.rxBytes ≠ point.rxBytes ∨ call.2.txBytes ≠ point.txBytes :=
    not_and_or.mp hdiffers
  have hdecision : decideRates s.config (s.trafficPoints.getD key []) (s.record key)
      (stampTraffic call.1 call.2) =
        ⟨rateBps call.2.rxBytes point.rxBytes
            (inSeconds ((stampTraffic call.1 call.2).ts - point.ts)),
          rateBps call.2.txBytes point.txBytes
            (inSeconds ((stampTraffic call.1 call.2).ts - point.ts)), true, false⟩ :=
    decideRates_of_growth hpoint hreset hchanged htime
  obtain ⟨hrx, htx⟩ := not_or.mp hreset
  have hlive : RateLive (rateBps call.2.rxBytes point.rxBytes
        (inSeconds ((stampTraffic call.1 call.2).ts - point.ts)),
      rateBps call.2.txBytes point.txBytes
        (inSeconds ((stampTraffic call.1 call.2).ts - point.ts))) := by
    rcases hchanged with h | h
    · exact Or.inl (rateBps_pos (UInt64.lt_of_le_of_ne (UInt64.not_lt.mp hrx) h.symm) hdelta)
    · exact Or.inr (rateBps_pos (UInt64.lt_of_le_of_ne (UInt64.not_lt.mp htx) h.symm) hdelta)
  rw [hdecision] at hrecord hstored
  refine ⟨hstored.trans (storePoint_getLast? hmax rfl), ?_, ?_⟩
  · rw [hrecord]
    exact hlive
  · rw [hrecord]
    exact if_pos hlive

/-- A counter that grew in no time is ignored. -/
theorem untimed_sample {s : StateStore} {key : Str} {call : TrafficCall}
    {point : TrafficSnapshot} (hkey : key ≠ []) (hdevice : ForDevice s key call)
    (hpoint : s.storedPoint key = some point)
    (hreset : ¬ CountersReset call.2 point) (hdiffers : ¬ SameCounters call.2 point)
    (htime : ¬ point.ts < callTime call) :
    (trafficStep s call).storedPoint key = some point := by
  obtain ⟨-, -, -, hstored⟩ := trafficStep_device hkey hdevice
  have hchanged : call.2.rxBytes ≠ point.rxBytes ∨ call.2.txBytes ≠ point.txBytes :=
    not_and_or.mp hdiffers
  have hdecision : decideRates s.config (s.trafficPoints.getD key []) (s.record key)
      (stampTraffic call.1 call.2) =
        ⟨(s.record key).rxRateBps, (s.record key).txRateBps, false, false⟩ :=
    decideRates_of_stall hpoint hreset hchanged htime
  rw [hdecision] at hstored
  exact hstored.trans hpoint

/-! ## A series of repeated samples -/

/-- The samples of a series are all of the device and repeat its stored point. -/
def RepeatsDevice (key : Str) (s : StateStore) (call : TrafficCall) : Prop :=
  ForDevice s key call ∧ Repeats s key call

instance (key : Str) (s : StateStore) (call : TrafficCall) :
    Decidable (RepeatsDevice key s call) :=
  inferInstanceAs (Decidable (_ ∧ _))

/-- A series of repeated samples ticks the cell at the times of the samples. -/
theorem repeated_samples {s : StateStore} {key : Str} {calls : List TrafficCall}
    (hkey : key ≠ []) (hcalls : Runs.Conforms trafficStep (RepeatsDevice key) s calls) :
    rateCell ((Runs.run trafficStep s calls).record key) =
      Runs.run (HeldValue.tick (RateFresh s.config) RateLive (0, 0)) (rateCell (s.record key))
        (calls.map callTime) := by
  induction calls generalizing s with
  | nil => rfl
  | cons call calls ih =>
      obtain ⟨⟨hdevice, hrepeats⟩, hrest⟩ := hcalls
      have hconfig := (trafficStep_device hkey hdevice).1
      have hcell := (repeated_sample hkey hdevice hrepeats).2
      rw [Runs.run_cons, ih hrest, hconfig, hcell, List.map_cons, Runs.run_cons]

theorem not_rateLive_zero : ¬ RateLive (0, 0) := by
  decide +kernel

/-- After a series that is not empty the device has a record. -/
theorem lookup_repeated_samples {s : StateStore} {key : Str} {calls : List TrafficCall}
    (hkey : key ≠ []) (hcalls : Runs.Conforms trafficStep (RepeatsDevice key) s calls)
    (hne : calls ≠ []) :
    (Runs.run trafficStep s calls).devicesByKey.lookup key =
      some ((Runs.run trafficStep s calls).record key) := by
  obtain ⟨before, last, rfl⟩ := (List.eq_nil_or_concat' calls).resolve_left hne
  obtain ⟨-, ⟨hdevice, -⟩, -⟩ := Runs.conforms_append.mp hcalls
  rw [Runs.run_concat]
  exact (trafficStep_device hkey hdevice).2.1

/-- **Exactly when a held rate has expired.**  A sample of a device differs from
the stored point, and the samples after it, at least one, repeat its counters.
After the last of them both rates are zero if and only if the differing sample
was a counter reset, or two neighbouring samples of the series are further apart
than the hold time (or one of them counts for time zero, which stands for
"never").  Neither the order of the times nor their total span matters. -/
theorem held_rate_expired_iff {s : StateStore} {key : Str} {first : TrafficCall}
    {later : List TrafficCall} {point : TrafficSnapshot} (hs : s.Reachable)
    (hmax : 1 ≤ s.config.maxTrafficPointsPerDevice.toNat)
    (hdevice : ForDevice s key first) (hpoint : s.storedPoint key = some point)
    (hdiffers : ¬ SameCounters first.2 point)
    (hlater : Runs.Conforms trafficStep (RepeatsDevice key) (trafficStep s first) later)
    (hrepeat : ∀ call ∈ later, SameCounters call.2 first.2) (hne : later ≠ []) :
    ∃ d, (Runs.run trafficStep s (first :: later)).devicesByKey.lookup key = some d ∧
      ((d.rxRateBps = 0 ∧ d.txRateBps = 0) ↔
        CountersReset first.2 point ∨
          ¬ List.IsChain (RateFresh s.config) (callTime first :: later.map callTime)) := by
  have hkey : key ≠ [] := by
    rintro rfl
    have hlinked := keysLinked_of_reachable hs
    have hpoints : ([] : Str) ∈ s.trafficPoints := by
      by_contra hnone
      rw [storedPoint, AList.getD, AList.lookup_eq_none.mpr hnone] at hpoint
      exact absurd hpoint (by simp)
    exact hlinked.nil_not_stored (hlinked.points_stored [] hpoints)
  have hconfig := (trafficStep_device hkey hdevice).1
  have hcell := repeated_samples hkey hlater
  rw [hconfig] at hcell
  rw [Runs.run_cons]
  refine ⟨_, lookup_repeated_samples hkey hlater hne, ?_⟩
  generalize (Runs.run trafficStep (trafficStep s first) later).record key = final at hcell ⊢
  have hfinal : (final.rxRateBps = 0 ∧ final.txRateBps = 0) ↔
      (rateCell final).value = (0, 0) := by
    simp [rateCell]
  rw [hfinal, hcell]
  by_cases hreset : CountersReset first.2 point
  · have hcleared := (reset_sample hkey hmax hdevice hpoint hreset).2
    exact iff_of_true (HeldValue.run_cleared hcleared _) (Or.inl hreset)
  · by_cases htime : point.ts < callTime first
    · obtain ⟨-, hlive, hstamp⟩ :=
        growing_sample hkey hmax hdevice hpoint hreset hdiffers htime
      rw [← hstamp, ← HeldValue.live_run_iff not_rateLive_zero hlive (later.map callTime)]
      constructor
      · intro hzero
        rw [hzero]
        exact Or.inr not_rateLive_zero
      · rintro (h | h)
        · exact absurd h hreset
        · rcases HeldValue.run_value (RateFresh s.config) RateLive (0, 0)
            (rateCell ((trafficStep s first).record key)) (later.map callTime) with hv | hv
          · exact absurd (hv.symm ▸ hlive) h
          · exact hv
    · have hkept := untimed_sample hkey hdevice hpoint hreset hdiffers htime
      obtain ⟨next, rest, rfl⟩ := List.exists_cons_of_ne_nil hne
      obtain ⟨⟨-, other, hother, hsame⟩, -⟩ := hlater
      have hpoints : other = point := Option.some.inj (hother.symm.trans hkept)
      have hnext := hrepeat next (by simp)
      refine absurd ⟨?_, ?_⟩ hdiffers
      · rw [← hpoints, ← hsame.1, hnext.1]
      · rw [← hpoints, ← hsame.2, hnext.2]

/-- A device with a stored point at second 100. -/
def sampledOnce : StateStore :=
  Runs.run apply (init {})
    [.updateTraffic (seconds 100) { mac := str "aa:01", ip := str "10.0.0.5", rxBytes := 1000 }]

/-- A sample of that device at a given second. -/
def sampleAt (second : Int) (rxBytes : UInt64) : TrafficCall :=
  (seconds second, { mac := str "aa:01", ip := str "10.0.0.5", rxBytes := rxBytes })

/-- One repetition after 140 seconds clears the rate that the sample at second
160 set: the default hold time is 75 seconds. -/
theorem held_rate_expired_iff_long_gap :
    ∃ d, (Runs.run trafficStep sampledOnce
        [sampleAt 160 1600, sampleAt 300 1600]).devicesByKey.lookup (macKey (str "aa:01")) =
          some d ∧ d.rxRateBps = 0 ∧ d.txRateBps = 0 := by
  obtain ⟨d, hd, hiff⟩ := held_rate_expired_iff (s := sampledOnce) ⟨_, _, rfl⟩
    (by decide +kernel)
    (show ForDevice sampledOnce (macKey (str "aa:01")) (sampleAt 160 1600) by decide +kernel)
    (show sampledOnce.storedPoint (macKey (str "aa:01")) =
      some { (sampleAt 100 1000).2 with ts := seconds 100 } by decide +kernel)
    (by decide +kernel)
    (show Runs.Conforms trafficStep (RepeatsDevice (macKey (str "aa:01")))
      (trafficStep sampledOnce (sampleAt 160 1600)) [sampleAt 300 1600] by decide +kernel)
    (by decide +kernel) (by simp)
  exact ⟨d, hd, hiff.mpr (Or.inr (by decide +kernel))⟩

/-- Repetitions every 50 seconds keep the rate alive: 100 seconds after the last
change, with a hold time of 75, the device still shows 80 bits per second. -/
theorem spaced_repetitions_keep_rate :
    ForDevice sampledOnce (macKey (str "aa:01")) (sampleAt 160 1600) ∧
      ¬ Repeats sampledOnce (macKey (str "aa:01")) (sampleAt 160 1600) ∧
      Runs.Conforms trafficStep (RepeatsDevice (macKey (str "aa:01")))
        (trafficStep sampledOnce (sampleAt 160 1600)) [sampleAt 210 1600, sampleAt 260 1600] ∧
      callTime (sampleAt 260 1600) - callTime (sampleAt 160 1600) >
        seconds sampledOnce.config.trafficRateHoldSeconds ∧
      ((Runs.run trafficStep sampledOnce
        [sampleAt 160 1600, sampleAt 210 1600, sampleAt 260 1600]).devicesByKey.lookup
          (macKey (str "aa:01"))).map DeviceState.rxRateBps = some 80 := by
  refine ⟨by decide +kernel, by decide +kernel, by decide +kernel, by decide +kernel,
    by decide +kernel⟩

end StateStore

end Netmon
