import Netmon.RateHold

/-!
# Rates account for the bytes

A rate is the growth of a counter since the stored point of its device, over the time
since that point.  So a rate multiplied by its interval gives the growth back, and the
products of a series of snapshots telescope to the growth from the first stored point to
the last: no byte is lost and none is counted twice, whatever the times of the snapshots.
What carries the argument is that the point which a snapshot is compared with is always
the last one that was stored.
-/

namespace Netmon

namespace StateStore

/-- No counter of `later` is below that of `earlier`. -/
def NotBelow (earlier later : TrafficSnapshot) : Prop :=
  earlier.rxBytes ≤ later.rxBytes ∧ earlier.txBytes ≤ later.txBytes

instance (earlier later : TrafficSnapshot) : Decidable (NotBelow earlier later) :=
  inferInstanceAs (Decidable (_ ∧ _))

/-- The snapshot becomes a stored point of the device under `key`. -/
def StoresPoint (key : Str) (s : StateStore) (call : TrafficCall) : Prop :=
  ForDevice s key call ∧
    (decideRates s.config (s.trafficPoints.getD key []) (s.record key)
      (stampTraffic call.1 call.2)).shouldStorePoint = true

instance (key : Str) (s : StateStore) (call : TrafficCall) : Decidable (StoresPoint key s call) :=
  inferInstanceAs (Decidable (_ ∧ _))

/-- The bits that a snapshot accounts for: the rate that it sets, over the time since the
point stored before it.  The first point accounts for none. -/
def snapshotBits (rate : DeviceState → ℚ) (key : Str) (s : StateStore) (call : TrafficCall) : ℚ :=
  match s.storedPoint key with
  | none => 0
  | some previous =>
      if StoresPoint key s call then
        rate ((trafficStep s call).record key) * inSeconds (callTime call - previous.ts)
      else 0

/-- The bits that a series of snapshots accounts for. -/
def ratedBits (rate : DeviceState → ℚ) (key : Str) : StateStore → List TrafficCall → ℚ
  | _, [] => 0
  | s, call :: calls =>
      snapshotBits rate key s call + ratedBits rate key (trafficStep s call) calls

/-- The first point of a series: the one that is stored already, or the first that
is. -/
def firstPoint (key : Str) : StateStore → List TrafficCall → Option TrafficSnapshot
  | s, [] => s.storedPoint key
  | s, call :: calls => (s.storedPoint key).or (firstPoint key (trafficStep s call) calls)

theorem firstPoint_of_some {key : Str} {s : StateStore} {point : TrafficSnapshot}
    (h : s.storedPoint key = some point) (calls : List TrafficCall) :
    firstPoint key s calls = some point := by
  cases calls with
  | nil => exact h
  | cons call calls => rw [firstPoint, h, Option.some_or]

/-! ## One snapshot -/

theorem trafficStep_config (s : StateStore) (call : TrafficCall) :
    (trafficStep s call).config = s.config := by
  rcases s.updateTraffic_cases call.1 call.2 with ⟨-, -, hsame⟩ | ⟨_, _, -, -, -, hconfig, -⟩
  · rw [trafficStep, hsame]
  · exact hconfig

/-- A snapshot of another device leaves the point. -/
theorem storedPoint_of_other {s : StateStore} {key : Str} {call : TrafficCall}
    (hother : ¬ ForDevice s key call) :
    (trafficStep s call).storedPoint key = s.storedPoint key := by
  rcases s.updateTraffic_cases call.1 call.2 with
    ⟨-, -, hsame⟩ | ⟨record, points, -, -, -, -, -, -, htraffic⟩
  · rw [trafficStep, hsame]
  · unfold storedPoint trafficStep
    rw [htraffic, AList.getD, AList.lookup_insert_ne (Ne.symm hother)]
    rfl

/-- The rate that a growth sets gives the growth back. -/
theorem rateBps_mul {current previous : UInt64} (h : previous ≤ current) {deltaTime : ℚ}
    (htime : 0 < deltaTime) :
    rateBps current previous deltaTime * deltaTime =
      8 * ((current.toNat : ℚ) - previous.toNat) := by
  have hsub : ((current.toNat - previous.toNat : ℕ) : ℚ) = (current.toNat : ℚ) - previous.toNat :=
    Nat.cast_sub (UInt64.le_iff_toNat_le.mp h)
  rw [rateBps_of_le h, div_mul_cancel₀ _ htime.ne', hsub, mul_comm]

/-- The bits of one snapshot are what the counters of the point have grown by, and the
point after it is the one before it or the snapshot. -/
structure Accounts (key : Str) (s : StateStore) (call : TrafficCall)
    (previous next : TrafficSnapshot) : Prop where
  stored : (trafficStep s call).storedPoint key = some next
  point : next = previous ∨ next = stampTraffic call.1 call.2
  rx : snapshotBits DeviceState.rxRateBps key s call =
    8 * ((next.rxBytes.toNat : ℚ) - previous.rxBytes.toNat)
  tx : snapshotBits DeviceState.txRateBps key s call =
    8 * ((next.txBytes.toNat : ℚ) - previous.txBytes.toNat)

/-- A snapshot that stores no point accounts for nothing. -/
theorem Accounts.of_kept {key : Str} {s : StateStore} {call : TrafficCall}
    {previous : TrafficSnapshot} (hprevious : s.storedPoint key = some previous)
    (hkept : (trafficStep s call).storedPoint key = s.storedPoint key)
    (hno : ¬ StoresPoint key s call) : Accounts key s call previous previous where
  stored := hkept.trans hprevious
  point := Or.inl rfl
  rx := by simp only [snapshotBits, hprevious, if_neg hno, sub_self, mul_zero]
  tx := by simp only [snapshotBits, hprevious, if_neg hno, sub_self, mul_zero]

/-- **One snapshot accounts for the growth of the point.** -/
theorem trafficStep_accounts {s : StateStore} {key : Str} {call : TrafficCall}
    {previous : TrafficSnapshot} (hkey : key ≠ [])
    (hmax : 1 ≤ s.config.maxTrafficPointsPerDevice.toNat)
    (hprevious : s.storedPoint key = some previous) (hnot : NotBelow previous call.2) :
    ∃ next, Accounts key s call previous next := by
  by_cases hdevice : ForDevice s key call
  · obtain ⟨-, -, hrecord, hstored⟩ := trafficStep_device hkey hdevice
    have hstep := decideRates_step s.config (s.trafficPoints.getD key []) (s.record key)
      (stampTraffic call.1 call.2)
    -- the five outcomes that have a previous point
    generalize hdecision : decideRates s.config (s.trafficPoints.getD key []) (s.record key)
      (stampTraffic call.1 call.2) = decision at hrecord hstored hstep
    have hskip : decision.shouldStorePoint = false → ∃ next, Accounts key s call previous next := by
      intro hskip
      rw [storePoint_of_not hskip] at hstored
      refine ⟨previous, .of_kept hprevious hstored fun h => ?_⟩
      rw [StoresPoint, hdecision, hskip] at h
      exact absurd h.2 Bool.false_ne_true
    cases hstep with
    | first hnone => exact absurd (hprevious.symm.trans hnone) (by simp)
    | reset hlast hreset =>
        have hsame := Option.some.inj (hprevious.symm.trans hlast)
        rw [← hsame] at hreset
        exact (hreset.elim (UInt64.not_lt.mpr hnot.1) (UInt64.not_lt.mpr hnot.2)).elim
    | growth hlast hrx htx hgrew htime =>
        have hsame := Option.some.inj (hprevious.symm.trans hlast)
        rw [← hsame] at hrx htx htime hrecord
        have hdelta : 0 < inSeconds (callTime call - previous.ts) :=
          inSeconds_pos.mpr (sub_pos.mpr htime)
        have hstores : StoresPoint key s call := ⟨hdevice, by rw [hdecision]⟩
        refine ⟨stampTraffic call.1 call.2, hstored.trans (storePoint_getLast? hmax rfl),
          Or.inr rfl, ?_, ?_⟩
        · simp only [snapshotBits, hprevious, if_pos hstores]
          rw [hrecord]
          exact rateBps_mul hrx hdelta
        · simp only [snapshotBits, hprevious, if_pos hstores]
          rw [hrecord]
          exact rateBps_mul htx hdelta
    | stall hlast hreset hchanged htime => exact hskip rfl
    | held hlast hrx htx hrecent => exact hskip rfl
    | expired hlast hrx htx hrecent => exact hskip rfl
  · exact ⟨previous, .of_kept hprevious (storedPoint_of_other hdevice) fun h => hdevice h.1⟩

/-- Before the first point a snapshot accounts for nothing, and the point after it, if
there is one, is the snapshot. -/
theorem trafficStep_first {s : StateStore} {key : Str} (hkey : key ≠ [])
    (hmax : 1 ≤ s.config.maxTrafficPointsPerDevice.toNat) (hnone : s.storedPoint key = none)
    (call : TrafficCall) :
    (trafficStep s call).storedPoint key = none ∨
      (trafficStep s call).storedPoint key = some (stampTraffic call.1 call.2) := by
  by_cases hdevice : ForDevice s key call
  · obtain ⟨-, -, -, hstored⟩ := trafficStep_device hkey hdevice
    rw [decideRates_of_none hnone] at hstored
    exact Or.inr (hstored.trans (storePoint_getLast? hmax rfl))
  · exact Or.inl ((storedPoint_of_other hdevice).trans hnone)

/-! ## A series of snapshots -/

/-- The counters of a series never go down. -/
def Growing (calls : List TrafficCall) : Prop :=
  calls.Pairwise fun earlier later => NotBelow earlier.2 later.2

instance (calls : List TrafficCall) : Decidable (Growing calls) :=
  inferInstanceAs (Decidable (List.Pairwise _ _))

/-- From a stored point on, the bits of a growing series telescope. -/
theorem ratedBits_of_point {key : Str} (hkey : key ≠ []) {calls : List TrafficCall}
    {s : StateStore} {first : TrafficSnapshot}
    (hmax : 1 ≤ s.config.maxTrafficPointsPerDevice.toNat)
    (hfirst : s.storedPoint key = some first) (hgrow : Growing calls)
    (hstart : ∀ call ∈ calls, NotBelow first call.2) :
    ∃ last, (Runs.run trafficStep s calls).storedPoint key = some last ∧
      ratedBits DeviceState.rxRateBps key s calls =
        8 * ((last.rxBytes.toNat : ℚ) - first.rxBytes.toNat) ∧
      ratedBits DeviceState.txRateBps key s calls =
        8 * ((last.txBytes.toNat : ℚ) - first.txBytes.toNat) := by
  induction calls generalizing s first with
  | nil => exact ⟨first, hfirst, by simp [ratedBits], by simp [ratedBits]⟩
  | cons call calls ih =>
      obtain ⟨hlater, hrest⟩ := List.pairwise_cons.mp hgrow
      obtain ⟨next, hstored, hpoint, hrx, htx⟩ :=
        trafficStep_accounts hkey hmax hfirst (hstart call List.mem_cons_self)
      -- the point after the snapshot is below the rest of the series, whichever it is
      have hnext : ∀ later ∈ calls, NotBelow next later.2 := by
        intro later hmem
        rcases hpoint with rfl | rfl
        · exact hstart later (List.mem_cons_of_mem call hmem)
        · exact hlater later hmem
      obtain ⟨last, hlast, hrxs, htxs⟩ :=
        ih ((trafficStep_config s call).symm ▸ hmax) hstored hrest hnext
      refine ⟨last, hlast, ?_, ?_⟩
      · rw [ratedBits, hrx, hrxs]
        ring
      · rw [ratedBits, htx, htxs]
        ring

/-- The bits of a growing series telescope from its first point. -/
theorem ratedBits_telescope {key : Str} (hkey : key ≠ []) {calls : List TrafficCall}
    {s : StateStore} {first : TrafficSnapshot}
    (hmax : 1 ≤ s.config.maxTrafficPointsPerDevice.toNat) (hgrow : Growing calls)
    (hstart : ∀ point, s.storedPoint key = some point → ∀ call ∈ calls, NotBelow point call.2)
    (hfirst : firstPoint key s calls = some first) :
    ∃ last, (Runs.run trafficStep s calls).storedPoint key = some last ∧
      ratedBits DeviceState.rxRateBps key s calls =
        8 * ((last.rxBytes.toNat : ℚ) - first.rxBytes.toNat) ∧
      ratedBits DeviceState.txRateBps key s calls =
        8 * ((last.txBytes.toNat : ℚ) - first.txBytes.toNat) := by
  induction calls generalizing s with
  | nil => exact ratedBits_of_point hkey hmax hfirst hgrow (hstart first hfirst)
  | cons call calls ih =>
      cases hpoint : s.storedPoint key with
      | some point =>
          have hsame : point = first :=
            Option.some.inj ((firstPoint_of_some hpoint _).symm.trans hfirst)
          rw [hsame] at hpoint
          exact ratedBits_of_point hkey hmax hpoint hgrow (hstart first hpoint)
      | none =>
          obtain ⟨hlater, hrest⟩ := List.pairwise_cons.mp hgrow
          rw [firstPoint, hpoint, Option.none_or] at hfirst
          have hnext : ∀ point, (trafficStep s call).storedPoint key = some point →
              ∀ later ∈ calls, NotBelow point later.2 := by
            intro point hstored
            rcases trafficStep_first hkey hmax hpoint call with hnone | hsome
            · exact absurd (hnone.symm.trans hstored) (by simp)
            · cases Option.some.inj (hsome.symm.trans hstored)
              exact hlater
          have hzero : ∀ rate, snapshotBits rate key s call = 0 := by
            intro rate
            rw [snapshotBits, hpoint]
          simp only [ratedBits, hzero, zero_add]
          exact ih ((trafficStep_config s call).symm ▸ hmax) hrest hnext hfirst

/-! ## The snapshots of one MAC -/

/-- No point is stored under the empty key. -/
theorem KeysLinked.storedPoint_nil {s : StateStore} (hs : KeysLinked s) :
    s.storedPoint [] = none := by
  have hnone : ([] : Str) ∉ s.trafficPoints := fun h =>
    hs.nil_not_stored (hs.points_stored [] h)
  rw [storedPoint, AList.getD, AList.lookup_eq_none.mpr hnone]
  rfl

theorem KeysLinked.firstPoint_nil {s : StateStore} (hs : KeysLinked s) (calls : List TrafficCall) :
    firstPoint [] s calls = none := by
  induction calls generalizing s with
  | nil => exact hs.storedPoint_nil
  | cons call calls ih =>
      rw [firstPoint, hs.storedPoint_nil, Option.none_or]
      exact ih (hs.updateTraffic call.1 call.2)

/-- A MAC with a record keeps it, and its snapshots are booked there. -/
theorem forDevice_of_known {m : Str} (hm : m ≠ []) {calls : List TrafficCall} {s : StateStore}
    (hmac : ∀ call ∈ calls, lower call.2.mac = lower m)
    (hknown : macKey (lower m) ∈ s.devicesByKey) :
    Runs.Conforms trafficStep (fun t call => ForDevice t (macKey (lower m)) call) s calls := by
  induction calls generalizing s with
  | nil => trivial
  | cons call calls ih =>
      have hthis := hmac call List.mem_cons_self
      have hfound : s.findKeyLocked call.2.mac call.2.ip = macKey (lower m) := by
        unfold findKeyLocked
        rw [hthis, if_pos ⟨lower_eq_nil.not.mpr hm, hknown⟩]
      have hdevice : ForDevice s (macKey (lower m)) call := by
        rw [ForDevice, resolveKey, hfound, if_neg (macKey_ne_nil _)]
      refine ⟨hdevice, ih (fun later h => hmac later (List.mem_cons_of_mem call h)) ?_⟩
      exact AList.mem_of_lookup (trafficStep_device (macKey_ne_nil _) hdevice).2.1

/-- The snapshots of the first MAC of a store are for its device. -/
theorem KeysLinked.forDevice_of_empty {s : StateStore} (hs : KeysLinked s) {m : Str} (hm : m ≠ [])
    {calls : List TrafficCall} (hmac : ∀ call ∈ calls, lower call.2.mac = lower m)
    (hempty : s.devicesByKey = ∅) :
    Runs.Conforms trafficStep (fun t call => ForDevice t (macKey (lower m)) call) s calls := by
  cases calls with
  | nil => trivial
  | cons call calls =>
      have hthis := hmac call List.mem_cons_self
      have hnone : ∀ k, k ∉ s.devicesByKey := by
        intro k
        rw [hempty]
        exact AList.notMem_empty k
      have hfound : s.findKeyLocked call.2.mac call.2.ip = [] := by
        rcases hs.found_stored call.2.mac call.2.ip with h | h
        · exact h
        · exact absurd h (hnone _)
      have hne : call.2.mac ≠ [] := by
        intro hnil
        rw [hnil] at hthis
        exact hm (lower_eq_nil.mp hthis.symm)
      have hdevice : ForDevice s (macKey (lower m)) call := by
        rw [ForDevice, resolveKey, if_pos hfound, makeKey_of_mac hne, hthis]
      refine ⟨hdevice, forDevice_of_known hm
        (fun later h => hmac later (List.mem_cons_of_mem call h)) ?_⟩
      exact AList.mem_of_lookup (trafficStep_device (macKey_ne_nil _) hdevice).2.1

/-- A series of a device that is not empty has a first point. -/
theorem exists_firstPoint {key : Str} (hkey : key ≠ []) {calls : List TrafficCall} {s : StateStore}
    (hmax : 1 ≤ s.config.maxTrafficPointsPerDevice.toNat)
    (hdevice : Runs.Conforms trafficStep (fun t call => ForDevice t key call) s calls)
    (hne : calls ≠ []) : ∃ first, firstPoint key s calls = some first := by
  obtain ⟨call, rest, rfl⟩ := List.exists_cons_of_ne_nil hne
  cases hpoint : s.storedPoint key with
  | some point => exact ⟨point, firstPoint_of_some hpoint _⟩
  | none =>
      obtain ⟨-, -, -, hstored⟩ := trafficStep_device hkey hdevice.1
      rw [decideRates_of_none hpoint] at hstored
      have hfirst := hstored.trans (storePoint_getLast? hmax rfl)
      refine ⟨stampTraffic call.1 call.2, ?_⟩
      rw [firstPoint, hpoint, Option.none_or]
      exact firstPoint_of_some hfirst rest

/-- **Rates account for the bytes.**  Snapshots of one MAC arrive with counters that never
go down, at any times and in any order of them.  On every device they are booked on, the
rates that they set, each over the time since the point stored before, sum up to eight
times the growth from the first point to the last.  The device is that of the MAC, if
it has a record or the store is empty. -/
theorem rates_account_for_bytes {s : StateStore} (hs : s.Reachable)
    (hmax : 1 ≤ s.config.maxTrafficPointsPerDevice.toNat) {m : Str} (hm : m ≠ [])
    {calls : List TrafficCall} (hmac : ∀ call ∈ calls, lower call.2.mac = lower m)
    (hgrow : Growing calls) :
    (∀ key first,
      (∀ point, s.storedPoint key = some point → ∀ call ∈ calls, NotBelow point call.2) →
      firstPoint key s calls = some first →
      ∃ last, (Runs.run trafficStep s calls).storedPoint key = some last ∧
        ratedBits DeviceState.rxRateBps key s calls =
          8 * ((last.rxBytes.toNat : ℚ) - first.rxBytes.toNat) ∧
        ratedBits DeviceState.txRateBps key s calls =
          8 * ((last.txBytes.toNat : ℚ) - first.txBytes.toNat)) ∧
    (macKey (lower m) ∈ s.devicesByKey ∨ s.devicesByKey = ∅ → calls ≠ [] →
      Runs.Conforms trafficStep (fun t call => ForDevice t (macKey (lower m)) call) s calls ∧
        ∃ first, firstPoint (macKey (lower m)) s calls = some first) := by
  have hlinked := keysLinked_of_reachable hs
  constructor
  · intro key first hstart hfirst
    have hkey : key ≠ [] := by
      rintro rfl
      exact absurd ((hlinked.firstPoint_nil calls).symm.trans hfirst) (by simp)
    exact ratedBits_telescope hkey hmax hgrow hstart hfirst
  · intro hown hne
    have hdevice : Runs.Conforms trafficStep (fun t call => ForDevice t (macKey (lower m)) call)
        s calls :=
      hown.elim (forDevice_of_known hm hmac) (hlinked.forDevice_of_empty hm hmac)
    exact ⟨hdevice, exists_firstPoint (macKey_ne_nil _) hmax hdevice hne⟩

/-- A repetition, an older snapshot and one with a repeated time, between two that
store. -/
def unevenCalls : List TrafficCall :=
  [ sampleAt 100 1000, sampleAt 100 1000, sampleAt 90 1200, sampleAt 100 1300,
    sampleAt 105 1500, sampleAt 103 1600, sampleAt 107 1800 ]

/-- They account for the eight hundred bytes between the first point and the last. -/
theorem rates_account_for_bytes_uneven :
    ratedBits DeviceState.rxRateBps (macKey (str "aa:01")) (init {}) unevenCalls = 8 * 800 := by
  have hend : (Runs.run trafficStep (init {}) unevenCalls).storedPoint (macKey (str "aa:01")) =
      some { (sampleAt 107 1800).2 with ts := seconds 107 } := by decide +kernel
  obtain ⟨last, hlast, hrx, -⟩ := (rates_account_for_bytes (s := init {}) (m := str "aa:01")
    ⟨{}, [], rfl⟩ (by decide) (by decide)
    (show ∀ call ∈ unevenCalls, lower call.2.mac = lower (str "aa:01") by decide +kernel)
    (by decide +kernel)).1 (macKey (str "aa:01")) { (sampleAt 100 1000).2 with ts := seconds 100 }
    (by intro point hpoint; cases hpoint) (by decide +kernel)
  cases hend.symm.trans hlast
  rw [hrx]
  decide +kernel

end StateStore

end Netmon
