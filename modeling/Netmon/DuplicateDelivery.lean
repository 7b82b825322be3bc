import Netmon.LearnedMac
import Netmon.RateHold

/-!
# Duplicate delivery

A collector may send a message twice, and so may the network.  A device update that
arrives again finds the record it has written and writes it once more
(`updateDevice_twice`).  So does a traffic snapshot, whose counters then repeat the
point it has stored; the one thing that a repetition can still change is a negative
rate, which no snapshot sets.  An interface report that arrives again meets a time
difference of zero and clears the rate that it had set.
-/

namespace Netmon

/-! ## Records -/

theorem setIfNotEmpty_idem (dest value : Str) :
    setIfNotEmpty (setIfNotEmpty dest value) value = setIfNotEmpty dest value := by
  unfold setIfNotEmpty
  split <;> rfl

theorem addTags_of_subset {current incoming : List Str} (h : incoming ⊆ current) :
    addTags current incoming = current := by
  induction incoming with
  | nil => rfl
  | cons tag incoming ih =>
      obtain ⟨htag, hrest⟩ := List.cons_subset.mp h
      rw [addTags_cons_of_mem htag]
      exact ih hrest

theorem addTags_idem (current incoming : List Str) :
    addTags (addTags current incoming) incoming = addTags current incoming :=
  addTags_of_subset fun _ h => mem_addTags.mpr (Or.inr h)

namespace StateStore

theorem raiseLog_idem (last ts : TimePoint) :
    raiseLog (raiseLog last ts) ts = raiseLog last ts := by
  unfold raiseLog
  by_cases h : last = 0 ∨ ts > last
  · rw [if_pos h]
    split <;> rfl
  · rw [if_neg h, if_neg h]

/-- A first sighting that was set is not set again. -/
theorem firstSeen_again (first seen : TimePoint) :
    (if (if first = 0 then seen else first) = 0 then seen else
      if first = 0 then seen else first) = if first = 0 then seen else first := by
  by_cases h : first = 0
  · rw [if_pos h, ite_self]
  · rw [if_neg h, if_neg h]

/-- **Merging an update again** changes nothing. -/
theorem mergeDeviceLocked_idem (config : Config) (current incoming : DeviceState)
    (now : TimePoint) :
    mergeDeviceLocked config (mergeDeviceLocked config current incoming now) incoming now =
      mergeDeviceLocked config current incoming now := by
  have hkeep : ∀ {α : Type} {c : Prop} [Decidable c] (new old : α),
      (if c then new else if c then new else old) = if c then new else old := by
    intro α c _ new old
    split <;> rfl
  have hlast : ∀ last seen : TimePoint,
      (if (if last = 0 ∨ seen > last then seen else last) = 0 ∨
          seen > (if last = 0 ∨ seen > last then seen else last) then seen else
        if last = 0 ∨ seen > last then seen else last) =
          if last = 0 ∨ seen > last then seen else last := raiseLog_idem
  unfold mergeDeviceLocked
  simp only [setIfNotEmpty_idem, addTags_idem, hkeep, firstSeen_again, hlast]
  rfl

/-! ## Writing a record again -/

/-- Writing a record twice, with the last-log time touched each time, is writing it
once. -/
theorem putDevice_again (s : StateStore) (key : Str) (record : DeviceState) (now ts : TimePoint) :
    (((s.putDevice key record).touchLastLogLocked now ts).putDevice key
      record).touchLastLogLocked now ts = (s.putDevice key record).touchLastLogLocked now ts := by
  simp only [touchLastLogLocked_eq, putDevice, AList.insert_insert, raiseLog_idem]
  by_cases hip : record.ip ≠ []
  · simp only [if_pos hip, AList.insert_insert]
  · simp only [if_neg hip]

/-- **An update finds its key again.**  After a record was written under the key that an
update works on, the update works on the same key. -/
theorem KeysLinked.findKeyLocked_again {s t : StateStore} (hs : KeysLinked s) {mac ip : Str}
    {record : DeviceState} (hkey : s.resolveKey mac ip ≠ [])
    (hdevices : t.devicesByKey = s.devicesByKey.insert (s.resolveKey mac ip) record)
    (hindex : t.ipToKey = indexAfter s.ipToKey (s.resolveKey mac ip) record) :
    t.findKeyLocked mac ip = s.resolveKey mac ip := by
  have hstored : ∀ k, k ∈ t.devicesByKey ↔ k = s.resolveKey mac ip ∨ k ∈ s.devicesByKey := by
    intro k
    rw [hdevices, AList.mem_insert]
  have hlookup : t.ipToKey.lookup ip = some (s.resolveKey mac ip) ∨
      t.ipToKey.lookup ip = s.ipToKey.lookup ip := by
    rw [hindex]
    unfold indexAfter
    split
    · rw [AList.lookup_insert_if]
      split
      · exact Or.inl rfl
      · exact Or.inr rfl
    · exact Or.inr rfl
  -- the MAC was unknown: the address leads to the key, if the MAC does not
  have hindirect : ¬ (mac ≠ [] ∧ macKey (lower mac) ∈ s.devicesByKey) → ip ≠ [] →
      (s.ipToKey.lookup ip = some (s.resolveKey mac ip) ∨
        s.ipToKey.lookup ip = none ∧ s.resolveKey mac ip = ipKey ip) →
      t.findKeyLocked mac ip = s.resolveKey mac ip := by
    intro hfree hip hfound
    unfold findKeyLocked
    by_cases hmac : lower mac ≠ [] ∧ macKey (lower mac) ∈ t.devicesByKey
    · rw [if_pos hmac]
      refine ((hstored _).mp hmac.2).resolve_right fun h => hfree ⟨?_, h⟩
      exact lower_eq_nil.not.mp hmac.1
    · rw [if_neg hmac, if_pos hip]
      rcases hlookup with hnew | hold
      · rw [hnew]
      · rcases hfound with hsome | ⟨hnone, hipkey⟩
        · rw [hold, hsome]
        · rw [hold, hnone, hipkey, if_pos]
          exact (hstored _).mpr (Or.inl hipkey.symm)
  rcases s.findKeyLocked_cases mac ip with ⟨hmac, hmem, hfound⟩ | ⟨hfree, hip, hsome⟩ |
      ⟨hfree, hip, hnone, -, hfound⟩ | ⟨hfree, hunknown, hfound⟩
  · have hresolved : s.resolveKey mac ip = macKey (lower mac) := by
      rw [resolveKey, hfound, if_neg (macKey_ne_nil _)]
    unfold findKeyLocked
    rw [if_pos ⟨lower_eq_nil.not.mpr hmac, (hstored _).mpr (Or.inr hmem)⟩, hresolved]
  · refine hindirect hfree hip (Or.inl ?_)
    have hne : s.findKeyLocked mac ip ≠ [] := fun hnil =>
      hs.nil_not_stored (hnil ▸ hs.index_stored _ _ hsome)
    rw [resolveKey, if_neg hne, hsome]
  · refine hindirect hfree hip (Or.inr ⟨hnone, ?_⟩)
    rw [resolveKey, hfound, if_neg (ipKey_ne_nil _)]
  · have hmade : s.resolveKey mac ip = makeKey mac ip := by rw [resolveKey, if_pos hfound]
    rcases makeKey_cases mac ip with hcase | hcase | hcase
    · exact absurd (hmade.trans hcase.2.2) hkey
    · have hresolved := hmade.trans hcase.2
      have hmem : macKey (lower mac) ∈ t.devicesByKey := (hstored _).mpr (Or.inl hresolved.symm)
      unfold findKeyLocked
      rw [if_pos ⟨lower_eq_nil.not.mpr hcase.1, hmem⟩, hresolved]
    · refine hindirect hfree hcase.2.1 (Or.inr ⟨?_, hmade.trans hcase.2.2⟩)
      exact (hunknown.resolve_left hcase.2.1).1

/-- A store that an update has just written its merged record to is left as it is by
the same update, once the update finds that record again. -/
theorem updateDevice_settled {s t : StateStore} {device current record : DeviceState} {key : Str}
    {now : TimePoint} (hfirst : t = (s.putDevice key record).touchLastLogLocked now record.lastSeen)
    (hrecord : record = mergeDeviceLocked s.config current device now) (hkey : key ≠ [])
    (hfound : t.findKeyLocked device.mac device.ip = key)
    (hmove : ¬ t.Rekeys device.mac device.ip) :
    t.updateDevice now device = t := by
  obtain ⟨hconfig, hdevices, -, -⟩ := s.putDevice_tables key record now record.lastSeen
  rw [← hfirst] at hconfig hdevices
  have hresolved : t.resolveKey device.mac device.ip = key := by
    rw [resolveKey, hfound, if_neg hkey]
  have hhere : t.devicesByKey.getD key {} = record := by
    rw [AList.getD, hdevices, AList.lookup_insert]
    rfl
  have hmerged : mergeDeviceLocked t.config record device now = record := by
    rw [hconfig, hrecord, mergeDeviceLocked_idem]
  have hsecond := updateDevice_of_plain (hresolved ▸ hkey) hmove now
  simp only [hresolved, hhere, hmerged] at hsecond
  rw [hsecond, hfirst, putDevice_again]

/-- **A device update twice is a device update once**, at the same clock reading. -/
theorem KeysLinked.updateDevice_twice {s : StateStore} (hs : KeysLinked s) (now : TimePoint)
    (device : DeviceState) :
    (s.updateDevice now device).updateDevice now device = s.updateDevice now device := by
  by_cases hkey : s.resolveKey device.mac device.ip = []
  · have hsame : s.updateDevice now device = s := by simp [StateStore.updateDevice, hkey]
    rw [hsame, hsame]
  by_cases hmove : s.Rekeys device.mac device.ip
  · obtain ⟨node, hnode⟩ := AList.exists_lookup_of_mem hmove.2.2
    have hfirst := updateDevice_of_rekeys hmove hnode now
    obtain ⟨-, hdevices, -, -⟩ := putDevice_tables
      (s.moveRecord (s.findKeyLocked device.mac device.ip) (macKey (lower device.mac)) node)
      (macKey (lower device.mac)) (mergeDeviceLocked s.config node device now) now
      (mergeDeviceLocked s.config node device now).lastSeen
    rw [← hfirst] at hdevices
    have hfound : (s.updateDevice now device).findKeyLocked device.mac device.ip =
        macKey (lower device.mac) := by
      unfold findKeyLocked
      rw [if_pos ⟨lower_eq_nil.not.mpr hmove.1, by simp [hdevices]⟩]
    refine updateDevice_settled hfirst rfl (macKey_ne_nil _) hfound fun hagain => ?_
    have hip := hagain.2.1
    rw [hfound, isIpKey_macKey] at hip
    exact absurd hip (by decide)
  · have hfirst := updateDevice_of_plain hkey hmove now
    obtain ⟨-, hdevices, hindex, -⟩ := s.putDevice_tables (s.resolveKey device.mac device.ip)
      (mergeDeviceLocked s.config (s.devicesByKey.getD (s.resolveKey device.mac device.ip) {})
        device now) now _
    rw [← hfirst] at hdevices hindex
    have hfound := hs.findKeyLocked_again hkey hdevices hindex
    refine updateDevice_settled hfirst rfl hkey hfound fun hagain => hmove ?_
    -- a key of an address that an update with a MAC works on is the key of a record
    have hip := hagain.2.1
    rw [hfound] at hip
    have hold : s.findKeyLocked device.mac device.ip ≠ [] := by
      intro hnone
      rw [resolveKey, if_pos hnone, makeKey_of_mac hagain.1, isIpKey_macKey] at hip
      exact absurd hip (by decide)
    rw [resolveKey, if_neg hold] at hip
    exact ⟨hagain.1, hip, (hs.found_stored _ _).resolve_left hold⟩

/-! ## Traffic -/

/-- A decision that sets the same rates and sees no reset leaves the record. -/
theorem trafficDevice_again {config : Config} {device : DeviceState} {current : TrafficSnapshot}
    {first second : RateDecision} (hrx : second.rxRate = first.rxRate)
    (htx : second.txRate = first.txRate) (hreset : second.countersReset = false) :
    trafficDevice config (trafficDevice config device current first) current second =
      trafficDevice config device current first := by
  have htags : ∀ tags : List Str,
      (if hasTag (if hasTag tags (str "traffic") then tags else tags ++ [str "traffic"])
          (str "traffic") then
        if hasTag tags (str "traffic") then tags else tags ++ [str "traffic"]
      else (if hasTag tags (str "traffic") then tags else tags ++ [str "traffic"]) ++
        [str "traffic"]) = if hasTag tags (str "traffic") then tags else tags ++ [str "traffic"] :=
    fun tags => addTags_idem tags [str "traffic"]
  have hrate : (if first.rxRate > 0 ∨ first.txRate > 0 then current.ts
      else if second.countersReset then 0
      else if first.rxRate > 0 ∨ first.txRate > 0 then current.ts
      else if first.countersReset then 0 else device.lastRate) =
        if first.rxRate > 0 ∨ first.txRate > 0 then current.ts
        else if first.countersReset then 0 else device.lastRate := by
    rw [hreset]
    split <;> rfl
  unfold trafficDevice
  simp only [hrx, htx, setIfNotEmpty_idem, firstSeen_again, htags, hrate, max_assoc, max_self]
  rfl

/-- After a snapshot its rates are recent, if one of them is positive. -/
theorem hasRecentRate_trafficDevice {config : Config} (hhold : 0 ≤ config.trafficRateHoldSeconds)
    {current : TrafficSnapshot} (hts : current.ts ≠ 0) (device : DeviceState)
    (decision : RateDecision) :
    hasRecentRate config (trafficDevice config device current decision) current.ts =
      if decision.rxRate > 0 ∨ decision.txRate > 0 then true
      else if decision.countersReset then false
      else hasRecentRate config device current.ts := by
  have hlast : (trafficDevice config device current decision).lastRate =
      if decision.rxRate > 0 ∨ decision.txRate > 0 then current.ts
      else if decision.countersReset then 0 else device.lastRate := rfl
  unfold hasRecentRate
  rw [hlast]
  split
  · have hnow : current.ts - current.ts ≤ seconds config.trafficRateHoldSeconds := by
      rw [sub_self]
      exact mul_nonneg hhold (by decide)
    exact decide_eq_true ⟨hts, hnow⟩
  · split
    · simp
    · rfl

/-- A snapshot that was stored is compared with itself when it is repeated, unless no
point is kept at all. -/
theorem decideRates_of_stored (config : Config) (points : List TrafficSnapshot)
    (device : DeviceState) (current : TrafficSnapshot) (decision : RateDecision)
    (hstore : decision.shouldStorePoint = true) :
    let points' := storePoint config points current decision
    let device' := trafficDevice config device current decision
    let second := decideRates config points' device' current
    second.countersReset = false ∧ storePoint config points' current second = points' ∧
      (second.rxRate = decision.rxRate ∧ second.txRate = decision.txRate ↔
        config.maxTrafficPointsPerDevice.toNat = 0 ∨
          hasRecentRate config device' current.ts = true ∨
          (decision.rxRate = 0 ∧ decision.txRate = 0)) := by
  intro points' device' second
  by_cases hmax : config.maxTrafficPointsPerDevice.toNat = 0
  · have hpoints : points' = [] := storePoint_eq_nil hmax hstore
    have hsecond : second = ⟨device'.rxRateBps, device'.txRateBps, true, false⟩ :=
      decideRates_of_none (by rw [hpoints]; rfl)
    rw [hsecond, hpoints]
    exact ⟨rfl, storePoint_eq_nil hmax rfl, iff_of_true ⟨rfl, rfl⟩ (Or.inl hmax)⟩
  · have hlast : points'.getLast? = some current :=
      storePoint_getLast? (Nat.one_le_iff_ne_zero.mpr hmax) hstore
    have hsecond : second = if hasRecentRate config device' current.ts then
        ⟨device'.rxRateBps, device'.txRateBps, false, false⟩ else ⟨0, 0, false, false⟩ :=
      decideRates_of_same hlast rfl rfl
    by_cases hrecent : hasRecentRate config device' current.ts = true
    · rw [if_pos hrecent] at hsecond
      rw [hsecond]
      exact ⟨rfl, rfl, iff_of_true ⟨rfl, rfl⟩ (Or.inr (Or.inl hrecent))⟩
    · rw [if_neg hrecent] at hsecond
      rw [hsecond]
      refine ⟨rfl, rfl, ?_⟩
      constructor
      · rintro ⟨hrx, htx⟩
        exact Or.inr (Or.inr ⟨hrx.symm, htx.symm⟩)
      · rintro (h | h | ⟨hrx, htx⟩)
        · exact absurd h hmax
        · exact absurd h hrecent
        · exact ⟨hrx.symm, htx.symm⟩

/-- A repetition clears the rates of the record: it has no point yet, and a negative rate
without a positive one that was not set within the hold time. -/
def ClearsRates (config : Config) (points : List TrafficSnapshot) (device : DeviceState)
    (ts : TimePoint) : Prop :=
  1 ≤ config.maxTrafficPointsPerDevice.toNat ∧ points = [] ∧
    (device.rxRateBps ≠ 0 ∨ device.txRateBps ≠ 0) ∧
    ¬ (device.rxRateBps > 0 ∨ device.txRateBps > 0) ∧ ¬ hasRecentRate config device ts = true

instance (config : Config) (points : List TrafficSnapshot) (device : DeviceState)
    (ts : TimePoint) : Decidable (ClearsRates config points device ts) :=
  inferInstanceAs (Decidable (_ ∧ _))

/-- **The decision of a repeated snapshot.**  It stores nothing new and sees no reset, and
it sets the rates that were set before unless it clears them. -/
theorem decideRates_again {config : Config} (hhold : 0 ≤ config.trafficRateHoldSeconds)
    (points : List TrafficSnapshot) (device : DeviceState) {current : TrafficSnapshot}
    (hts : current.ts ≠ 0) :
    let first := decideRates config points device current
    let points' := storePoint config points current first
    let second := decideRates config points' (trafficDevice config device current first) current
    second.countersReset = false ∧ storePoint config points' current second = points' ∧
      (second.rxRate = first.rxRate ∧ second.txRate = first.txRate ↔
        ¬ ClearsRates config points device current.ts) := by
  intro first
  have hstep := decideRates_step config points device current
  change RateStep config points device current first at hstep
  have hpos := hasRecentRate_trafficDevice hhold hts device first
  clear_value first
  have hkept : points ≠ [] → ¬ ClearsRates config points device current.ts := fun hne h =>
    hne h.2.1
  have hsome : ∀ {previous : TrafficSnapshot}, points.getLast? = some previous → points ≠ [] := by
    rintro previous hlast rfl
    exact absurd hlast (by simp)
  cases hstep with
  | first hnone =>
      have hpoints : points = [] := List.getLast?_eq_none_iff.mp hnone
      obtain ⟨hreset, hstored, hrates⟩ := decideRates_of_stored config points device current
        ⟨device.rxRateBps, device.txRateBps, true, false⟩ rfl
      refine ⟨hreset, hstored, hrates.trans ?_⟩
      rw [hpos]
      by_cases hpositive : device.rxRateBps > 0 ∨ device.txRateBps > 0
      · rw [if_pos hpositive]
        exact iff_of_true (Or.inr (Or.inl rfl)) fun h => h.2.2.2.1 hpositive
      · rw [if_neg hpositive, if_neg Bool.false_ne_true]
        unfold ClearsRates
        constructor
        · rintro (hmax | hrecent | ⟨hrx, htx⟩) ⟨hroom, -, hrate, -, hold⟩
          · omega
          · exact hold hrecent
          · exact hrate.elim (fun h => h hrx) fun h => h htx
        · intro hkeeps
          by_contra hno
          obtain ⟨hmax, hold, hrate⟩ := by simpa only [not_or] using hno
          refine hkeeps ⟨Nat.one_le_iff_ne_zero.mpr hmax, hpoints, ?_, hpositive, hold⟩
          exact not_and_or.mp hrate
  | reset hlast hreset =>
      obtain ⟨hno, hstored, hrates⟩ := decideRates_of_stored config points device current
        ⟨0, 0, true, true⟩ rfl
      refine ⟨hno, hstored, iff_of_true (hrates.mpr ?_) (hkept (hsome hlast))⟩
      exact Or.inr (Or.inr ⟨rfl, rfl⟩)
  | @growth previous hlast hrx htx hgrew htime =>
      obtain ⟨hno, hstored, hrates⟩ := decideRates_of_stored config points device current
        ⟨rateBps current.rxBytes previous.rxBytes (inSeconds (current.ts - previous.ts)),
          rateBps current.txBytes previous.txBytes (inSeconds (current.ts - previous.ts)),
          true, false⟩ rfl
      have hdelta : 0 < inSeconds (current.ts - previous.ts) :=
        inSeconds_pos.mpr (sub_pos.mpr htime)
      refine ⟨hno, hstored, iff_of_true (hrates.mpr (Or.inr (Or.inl ?_))) (hkept (hsome hlast))⟩
      rw [hpos, if_pos]
      exact hgrew.imp (fun h => rateBps_pos h hdelta) fun h => rateBps_pos h hdelta
  | stall hlast hreset hchanged htime =>
      rw [storePoint_of_not rfl]
      intro points' second
      have hsecond : second = ⟨device.rxRateBps, device.txRateBps, false, false⟩ :=
        decideRates_of_stall hlast hreset hchanged htime
      rw [hsecond]
      exact ⟨rfl, rfl, iff_of_true ⟨rfl, rfl⟩ (hkept (hsome hlast))⟩
  | held hlast hrx htx hrecent =>
      have hagain : hasRecentRate config (trafficDevice config device current
          ⟨device.rxRateBps, device.txRateBps, false, false⟩) current.ts = true := by
        rw [hpos, if_neg Bool.false_ne_true, hrecent, ite_self]
      rw [storePoint_of_not rfl]
      intro points' second
      have hsecond : second = ⟨device.rxRateBps, device.txRateBps, false, false⟩ :=
        (decideRates_of_same hlast hrx htx).trans (if_pos hagain)
      rw [hsecond]
      exact ⟨rfl, rfl, iff_of_true ⟨rfl, rfl⟩ (hkept (hsome hlast))⟩
  | expired hlast hrx htx hrecent =>
      have hagain : ¬ hasRecentRate config (trafficDevice config device current
          ⟨0, 0, false, false⟩) current.ts = true := by
        rw [hpos, if_neg (by simp), if_neg Bool.false_ne_true]
        exact hrecent
      rw [storePoint_of_not rfl]
      intro points' second
      have hsecond : second = ⟨0, 0, false, false⟩ :=
        (decideRates_of_same hlast hrx htx).trans (if_neg hagain)
      rw [hsecond]
      exact ⟨rfl, rfl, iff_of_true ⟨rfl, rfl⟩ (hkept (hsome hlast))⟩

/-- A store that a snapshot has just written its points and its record to: the same
snapshot finds both, and when it stores no other points, it only writes the record. -/
theorem updateTraffic_found_again {s t : StateStore} {snapshot : TrafficSnapshot} {key : Str}
    {points : List TrafficSnapshot} {record : DeviceState} {now : TimePoint}
    (hfirst : t = ({ s with trafficPoints := s.trafficPoints.insert key points }.putDevice key
      record).touchLastLogLocked now (stampTraffic now snapshot).ts) (hkey : key ≠ [])
    (hfound : t.findKeyLocked snapshot.mac snapshot.ip = key)
    (hstored : storePoint s.config points (stampTraffic now snapshot)
      (decideRates s.config points record (stampTraffic now snapshot)) = points) :
    t.updateTraffic now snapshot =
      (t.putDevice key (trafficDevice s.config record (stampTraffic now snapshot)
        (decideRates s.config points record
          (stampTraffic now snapshot)))).touchLastLogLocked now (stampTraffic now snapshot).ts := by
  obtain ⟨hconfig, hdevices, -, hpoints⟩ := putDevice_tables
    { s with trafficPoints := s.trafficPoints.insert key points } key record now
    (stampTraffic now snapshot).ts
  rw [← hfirst] at hconfig hdevices hpoints
  have hresolved : t.resolveKey snapshot.mac snapshot.ip = key := by
    rw [resolveKey, hfound, if_neg hkey]
  have hrecord : t.devicesByKey.getD key {} = record := by
    rw [AList.getD, hdevices, AList.lookup_insert]
    rfl
  have hhere : t.trafficPoints.getD key [] = points := by
    rw [AList.getD, hpoints, AList.lookup_insert]
    rfl
  have hkept : { t with trafficPoints := t.trafficPoints.insert key points } = t := by
    have htable : t.trafficPoints.insert key points = t.trafficPoints := by
      rw [hpoints]
      exact AList.insert_insert _
    rw [htable]
  have hconfig : s.config = t.config := hconfig.symm
  rw [hconfig] at hstored ⊢
  have hsecond := updateTraffic_of_key (hresolved ▸ hkey) now
  simp only [hresolved, hrecord, hhere, hstored, hkept] at hsecond
  exact hsecond

/-- A repetition of the snapshot clears the rates of its device. -/
def ClearsOnRepeat (s : StateStore) (snapshot : TrafficSnapshot) : Prop :=
  ClearsRates s.config (s.trafficPoints.getD (s.resolveKey snapshot.mac snapshot.ip) [])
    (s.record (s.resolveKey snapshot.mac snapshot.ip)) snapshot.ts

instance (s : StateStore) (snapshot : TrafficSnapshot) : Decidable (ClearsOnRepeat s snapshot) :=
  inferInstanceAs (Decidable (ClearsRates _ _ _ _))

/-- **A traffic snapshot twice is the snapshot once**, unless the repetition clears the
rates. -/
theorem KeysLinked.updateTraffic_twice {s : StateStore} (hs : KeysLinked s)
    (hhold : 0 ≤ s.config.trafficRateHoldSeconds) (now : TimePoint) {snapshot : TrafficSnapshot}
    (hts : snapshot.ts ≠ 0) :
    (s.updateTraffic now snapshot).updateTraffic now snapshot = s.updateTraffic now snapshot ↔
      ¬ ClearsOnRepeat s snapshot := by
  by_cases hkey : s.resolveKey snapshot.mac snapshot.ip = []
  · have hnone : s.record [] = {} := by
      rw [record, AList.getD, AList.lookup_eq_none.mpr hs.nil_not_stored]
      rfl
    have hsame := updateTraffic_of_nil hkey now
    refine iff_of_true (by rw [hsame, hsame]) fun hclears => ?_
    unfold ClearsOnRepeat at hclears
    rw [hkey, hnone] at hclears
    exact hclears.2.2.1.elim (fun h => h rfl) fun h => h rfl
  · have hstamp : (stampTraffic now snapshot).ts = snapshot.ts := if_neg hts
    have hagain := decideRates_again hhold
      (s.trafficPoints.getD (s.resolveKey snapshot.mac snapshot.ip) [])
      (s.devicesByKey.getD (s.resolveKey snapshot.mac snapshot.ip) {}) (hstamp.symm ▸ hts)
    have hfirst := updateTraffic_of_key hkey now
    obtain ⟨hreset, hstored, hrates⟩ := hagain
    rw [hstamp] at hrates
    rcases s.updateTraffic_cases now snapshot with
      ⟨hmac, hip, -⟩ | ⟨record, points, -, hrecord, -, -, hdevices, hindex, -⟩
    · exact absurd (by rw [hmac, hip, resolveKey_nil_nil]) hkey
    have hfound := hs.findKeyLocked_again hkey hdevices hindex
    have hsecond := updateTraffic_found_again hfirst hkey hfound hstored
    refine Iff.trans ⟨fun htwice => ?_, fun hsame => ?_⟩ hrates
    · obtain ⟨-, hwritten, -, -⟩ := putDevice_tables (s.updateTraffic now snapshot)
        (s.resolveKey snapshot.mac snapshot.ip) (trafficDevice s.config _ _ _) now
        (stampTraffic now snapshot).ts
      rw [← hsecond, htwice, hdevices, AList.insert_insert] at hwritten
      have hlookup := congrArg (fun table => table.lookup
        (s.resolveKey snapshot.mac snapshot.ip)) hwritten
      simp only [AList.lookup_insert, Option.some.injEq] at hlookup
      rw [hrecord] at hlookup
      exact ⟨congrArg DeviceState.rxRateBps hlookup.symm,
        congrArg DeviceState.txRateBps hlookup.symm⟩
    · rw [hsecond, trafficDevice_again hsame.1 hsame.2 hreset, hfirst]
      exact putDevice_again _ _ _ _ _

/-- **Duplicate delivery.**  A device update that arrives again leaves the store.  A timed
traffic snapshot does too, except on a record without a point that holds a negative rate
and no positive one, not set within the hold time. -/
theorem duplicate_telemetry {s : StateStore} (hs : s.Reachable) :
    (∀ now device,
      (s.updateDevice now device).updateDevice now device = s.updateDevice now device) ∧
    (0 ≤ s.config.trafficRateHoldSeconds → ∀ now snapshot, snapshot.ts ≠ 0 →
      ((s.updateTraffic now snapshot).updateTraffic now snapshot = s.updateTraffic now snapshot ↔
        ¬ ClearsOnRepeat s snapshot)) := by
  have hlinked := keysLinked_of_reachable hs
  refine ⟨hlinked.updateDevice_twice, fun hhold now snapshot hts => ?_⟩
  exact hlinked.updateTraffic_twice hhold now hts

/-- A record that was given a negative rate. -/
def negativeRate : StateStore :=
  Runs.run apply (init {})
    [.updateDevice (seconds 100) { mac := str "aa:01", rxRateBps := -5, lastSeen := seconds 90 }]

def firstCounters : TrafficSnapshot :=
  { mac := str "aa:01", rxBytes := 1000, txBytes := 10, ts := seconds 110 }

/-- The first snapshot of such a record leaves the rate, and its repetition clears it. -/
theorem negative_rate_cleared :
    negativeRate.Reachable ∧ 0 ≤ negativeRate.config.trafficRateHoldSeconds ∧
      ((negativeRate.updateTraffic (seconds 120) firstCounters).record
        (macKey (str "aa:01"))).rxRateBps = -5 ∧
      (((negativeRate.updateTraffic (seconds 120) firstCounters).updateTraffic (seconds 120)
        firstCounters).record (macKey (str "aa:01"))).rxRateBps = 0 ∧
      (negativeRate.updateTraffic (seconds 120) firstCounters).updateTraffic (seconds 120)
        firstCounters ≠ negativeRate.updateTraffic (seconds 120) firstCounters := by
  have hfirst : ((negativeRate.updateTraffic (seconds 120) firstCounters).record
      (macKey (str "aa:01"))).rxRateBps = -5 := by decide +kernel
  have hsecond : (((negativeRate.updateTraffic (seconds 120) firstCounters).updateTraffic
      (seconds 120) firstCounters).record (macKey (str "aa:01"))).rxRateBps = 0 := by
    decide +kernel
  refine ⟨⟨_, _, rfl⟩, by decide +kernel, hfirst, hsecond, fun hsame => ?_⟩
  rw [hsame, hfirst] at hsecond
  exact absurd hsecond (by decide)

/-- A store that learned a device and two of its counters. -/
def growingDevice : StateStore :=
  Runs.run apply (init {})
    [ .updateTraffic (seconds 100) { firstCounters with ts := seconds 100, rxBytes := 500 },
      .updateTraffic (seconds 105) { firstCounters with ts := seconds 105, rxBytes := 700 } ]

/-- A third snapshot that arrives twice sets its rate once. -/
theorem duplicate_telemetry_growing :
    (growingDevice.updateTraffic (seconds 120) firstCounters).updateTraffic (seconds 120)
        firstCounters = growingDevice.updateTraffic (seconds 120) firstCounters ∧
      ((growingDevice.updateTraffic (seconds 120) firstCounters).record
        (macKey (str "aa:01"))).rxRateBps = 480 := by
  refine ⟨?_, by decide +kernel⟩
  exact (((duplicate_telemetry ⟨_, _, rfl⟩).2 (by decide +kernel) (seconds 120) firstCounters
    (by decide)).mpr (by decide +kernel))

/-! ## Interfaces -/

/-- A rate over a positive interval is zero when its counter stood still. -/
theorem rateBps_eq_zero_iff {current previous : UInt64} {deltaTime : ℚ} (h : previous ≤ current)
    (htime : 0 < deltaTime) : rateBps current previous deltaTime = 0 ↔ ¬ previous < current := by
  constructor
  · intro hzero hgrew
    exact absurd hzero (rateBps_pos hgrew htime).ne'
  · intro hstill
    rw [UInt64.le_antisymm h (UInt64.not_lt.mp hstill), rateBps_of_le (UInt64.le_refl _)]
    simp

/-- The report sets a rate other than zero, which its repetition clears: it is later than
the report before it, no counter went down and one grew. -/
def RateLost (s : StateStore) (snapshot : InterfaceSnapshot) : Prop :=
  ∃ previous, s.interfaceSnapshots.lookup snapshot.interfaceName = some previous ∧
    previous.ts < snapshot.ts ∧ previous.rxBytes ≤ snapshot.rxBytes ∧
    previous.txBytes ≤ snapshot.txBytes ∧
    (previous.rxBytes < snapshot.rxBytes ∨ previous.txBytes < snapshot.txBytes)

instance (s : StateStore) (snapshot : InterfaceSnapshot) : Decidable (RateLost s snapshot) :=
  decidable_of_iff ((s.interfaceSnapshots.lookup snapshot.interfaceName).any fun previous =>
    previous.ts < snapshot.ts ∧ previous.rxBytes ≤ snapshot.rxBytes ∧
      previous.txBytes ≤ snapshot.txBytes ∧
      (previous.rxBytes < snapshot.rxBytes ∨ previous.txBytes < snapshot.txBytes)) (by
    unfold RateLost
    cases s.interfaceSnapshots.lookup snapshot.interfaceName <;> simp)

/-- Both rates that a timed report sets are zero exactly when none is lost. -/
theorem interfaceRates_zero_iff {s : StateStore} {snapshot : InterfaceSnapshot} :
    (((interfaceRates (s.interfaceSnapshots.lookup snapshot.interfaceName) snapshot).map
        Prod.fst).getD 0 = 0 ∧
      ((interfaceRates (s.interfaceSnapshots.lookup snapshot.interfaceName) snapshot).map
        Prod.snd).getD 0 = 0) ↔ ¬ RateLost s snapshot := by
  unfold RateLost
  cases s.interfaceSnapshots.lookup snapshot.interfaceName with
  | none => simp [interfaceRates]
  | some previous =>
      by_cases hgrowth : previous.ts < snapshot.ts ∧ previous.rxBytes ≤ snapshot.rxBytes ∧
          previous.txBytes ≤ snapshot.txBytes
      · obtain ⟨htime, hrx, htx⟩ := hgrowth
        have hdelta : 0 < inSeconds (snapshot.ts - previous.ts) :=
          inSeconds_pos.mpr (sub_pos.mpr htime)
        rw [interfaceRates_of_growth htime hrx htx]
        simp only [Option.map_some, Option.getD_some, rateBps_eq_zero_iff hrx hdelta,
          rateBps_eq_zero_iff htx hdelta]
        rw [← not_or]
        refine not_congr ⟨fun hgrew => ⟨previous, rfl, htime, hrx, htx, hgrew⟩, ?_⟩
        rintro ⟨last, hlast, -, -, -, hgrew⟩
        cases hlast
        exact hgrew
      · rw [interfaceRates_of_not hgrowth]
        refine iff_of_true ⟨rfl, rfl⟩ ?_
        rintro ⟨last, hlast, htime, hrx, htx, -⟩
        cases hlast
        exact hgrowth ⟨htime, hrx, htx⟩

/-- A report that arrives again clears the rates of its interface and changes nothing
else. -/
theorem updateInterface_again {s : StateStore} {snapshot : InterfaceSnapshot} {now : TimePoint}
    (hname : snapshot.interfaceName ≠ []) :
    let t := s.updateInterface now snapshot
    t.updateInterface now snapshot =
      { t with
        interfacesByName := t.interfacesByName.insert snapshot.interfaceName
          { t.interfacesByName.getD snapshot.interfaceName {} with
            rxRateBps := 0
            txRateBps := 0 } } := by
  intro t
  have hfirst : t = _ := updateInterface_of_name hname now s
  obtain ⟨hinterfaces, hreports⟩ := updateInterface_tables hname now s
  change t.interfacesByName = _ at hinterfaces
  change t.interfaceSnapshots = _ at hreports
  have hsecond := updateInterface_of_name hname now t
  have hlast : t.interfaceSnapshots.lookup snapshot.interfaceName =
      some (stampInterface now snapshot) := by
    rw [hreports, AList.lookup_insert]
  have hsnapshots : t.interfaceSnapshots.insert snapshot.interfaceName
      (stampInterface now snapshot) = t.interfaceSnapshots := by
    rw [hreports, AList.insert_insert]
  have hlog : raiseLog t.lastLogTs
      (if (stampInterface now snapshot).ts = 0 then now else (stampInterface now snapshot).ts) =
        t.lastLogTs := by
    rw [hfirst]
    simp only [touchLastLogLocked_eq, raiseLog_idem]
  have hstate : interfaceAfter (t.interfacesByName.getD snapshot.interfaceName {})
      (stampInterface now snapshot) none =
        { t.interfacesByName.getD snapshot.interfaceName {} with
          rxRateBps := 0
          txRateBps := 0 } := by
    rw [AList.getD, hinterfaces, AList.lookup_insert]
    rfl
  simp only [hlast, interfaceRates_again, touchLastLogLocked_eq, hsnapshots, hlog, hstate]
    at hsecond
  exact hsecond

theorem clear_zero_rates {state : InterfaceState} (hrx : state.rxRateBps = 0)
    (htx : state.txRateBps = 0) : { state with rxRateBps := 0, txRateBps := 0 } = state := by
  obtain ⟨name, seen, rate, rxTotal, txTotal, rx, tx⟩ := state
  simp only at hrx htx
  rw [hrx, htx]

/-- **An interface report twice** is the report once, in the interfaces, their reports and
the last-log time and so in every summary, exactly when the first delivery sets no rate
other than zero. -/
theorem duplicate_interface_iff (s : StateStore) {snapshot : InterfaceSnapshot}
    (hname : snapshot.interfaceName ≠ []) (hts : snapshot.ts ≠ 0) (now : TimePoint) :
    let once := s.updateInterface now snapshot
    let twice := once.updateInterface now snapshot
    (twice.interfacesByName = once.interfacesByName ∧
        twice.interfaceSnapshots = once.interfaceSnapshots ∧
        twice.lastLogTs = once.lastLogTs ∧
        ∀ later, twice.summary later = once.summary later) ↔
      ¬ RateLost s snapshot := by
  intro once twice
  have hstamp : stampInterface now snapshot = snapshot := by
    rw [stampInterface, if_neg hts]
  have hagain : twice = _ := updateInterface_again hname
  generalize hstate : interfaceAfter (s.interfacesByName.getD snapshot.interfaceName {}) snapshot
    (interfaceRates (s.interfaceSnapshots.lookup snapshot.interfaceName) snapshot) = state
  have honce : once.interfacesByName =
      s.interfacesByName.insert snapshot.interfaceName state := by
    rw [← hstate, ← hstamp]
    exact (updateInterface_tables hname now s).1
  have hhere : once.interfacesByName.getD snapshot.interfaceName {} = state := by
    rw [AList.getD, honce, AList.lookup_insert]
    rfl
  have htwice : twice.interfacesByName = s.interfacesByName.insert snapshot.interfaceName
      { state with rxRateBps := 0, txRateBps := 0 } := by
    rw [hagain, hhere, honce]
    exact AList.insert_insert _
  rw [← interfaceRates_zero_iff]
  constructor
  · rintro ⟨hsame, -, -, -⟩
    have hcleared : { state with rxRateBps := 0, txRateBps := 0 } = state := by
      have hlookup := congrArg (fun table => table.lookup snapshot.interfaceName) hsame
      simpa only [htwice, honce, AList.lookup_insert, Option.some.injEq] using hlookup
    rw [← hstate] at hcleared
    exact ⟨congrArg InterfaceState.rxRateBps hcleared.symm,
      congrArg InterfaceState.txRateBps hcleared.symm⟩
  · rintro ⟨hrx, htx⟩
    have hrx : state.rxRateBps = 0 := hstate ▸ hrx
    have htx : state.txRateBps = 0 := hstate ▸ htx
    have hsame : twice = once := by
      rw [hagain, hhere, clear_zero_rates hrx htx, honce, AList.insert_insert, ← honce]
    rw [hsame]
    exact ⟨rfl, rfl, rfl, fun _ => rfl⟩

/-- The WAN interface reported a thousand bytes at second 100. -/
def reportedOnce : StateStore :=
  Runs.run apply (init {})
    [.updateInterface (seconds 100)
      { interfaceName := str "wan", rxBytes := 1000, txBytes := 10, ts := seconds 100 }]

/-- It reports a thousand more a second later. -/
def secondReport : InterfaceSnapshot :=
  { interfaceName := str "wan", rxBytes := 2000, txBytes := 10, ts := seconds 101 }

/-- Delivered once, the summary shows eight kilobits per second; delivered twice, none, and
it still takes the interface for the source of its rate. -/
theorem duplicate_report_clears_rate :
    let once := reportedOnce.updateInterface (seconds 102) secondReport
    let twice := once.updateInterface (seconds 102) secondReport
    reportedOnce.Reachable ∧ secondReport.interfaceName ≠ [] ∧ secondReport.ts ≠ 0 ∧
      (once.summary (seconds 102)).rxRateBps = 8000 ∧
      (twice.summary (seconds 102)).rxRateBps = 0 ∧
      (twice.summary (seconds 102)).rateInterface = str "wan" ∧
      twice.interfacesByName ≠ once.interfacesByName := by
  refine ⟨⟨_, _, rfl⟩, by decide +kernel, by decide, by decide +kernel, by decide +kernel,
    by decide +kernel, fun hsame => ?_⟩
  have hrate := congrArg (fun table => (AList.getD table (str "wan") {}).rxRateBps) hsame
  exact absurd hrate (by decide +kernel)

/-- A report that repeats its counters may arrive twice. -/
theorem duplicate_interface_still :
    let still := { secondReport with rxBytes := 1000 }
    let once := reportedOnce.updateInterface (seconds 102) still
    (once.updateInterface (seconds 102) still).interfacesByName = once.interfacesByName :=
  ((duplicate_interface_iff reportedOnce (by decide +kernel) (by decide) (seconds 102)).mpr
    (by decide +kernel)).1

end StateStore

end Netmon
