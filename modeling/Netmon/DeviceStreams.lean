import Netmon.DeviceUniqueness
import Netmon.Interleaving

/-!
# Streams of different devices

The receivers of UDP and TCP run in threads of their own, so the updates of the
store come in any interleaving.  Updates that report a MAC belong to the stream
of that MAC.  While different streams report different addresses, every index
entry leads to the record of the stream that reported the address, and an update
finds the record of its own MAC or none.  So streams meet in `last_log_ts_` only,
and there the latest time wins in every interleaving, unless a time before the
epoch meets a time of zero, which the store takes for "never".
-/

namespace Netmon

namespace StateStore

open Interleaving

/-! ## Families of streams -/

/-- The lower-case MAC that a call reports; empty if it reports none. -/
def reportedMac (op : StoreOp) : Str :=
  match telemetry op with
  | some (mac, _) => lower mac
  | none => []

/-- The address that a call reports; empty if it reports none. -/
def reportedIp (op : StoreOp) : Str :=
  match telemetry op with
  | some (_, ip) => ip
  | none => []

/-- Calls of different streams share no address but the empty one and the
placeholders. -/
def SeparateAddresses (streams : Str → List StoreOp) : Prop :=
  ∀ m m', m ≠ m' → ∀ op ∈ streams m, ∀ op' ∈ streams m',
    reportedIp op = reportedIp op' → reportedIp op = [] ∨ IsPlaceholder (reportedIp op)

/-- A call of one of the streams, which are those of non-empty MACs. -/
def InStreams (streams : Str → List StoreOp) (op : StoreOp) : Prop :=
  reportedMac op ≠ [] ∧ op ∈ streams (reportedMac op)

/-- Every record is kept by MAC, and its address and every index entry that
leads to it come from the stream of that MAC. -/
structure OwnedByStreams (config : Config) (streams : Str → List StoreOp) (s : StateStore) :
    Prop where
  linked : KeysLinked s
  config_eq : s.config = config
  keyed : ∀ k, k ∈ s.devicesByKey → ∃ m, k = macKey m
  record : ∀ m d, s.devicesByKey.lookup (macKey m) = some d → d.ip ≠ [] →
    ∃ op ∈ streams m, reportedIp op = d.ip
  index : ∀ a m, s.ipToKey.lookup a = some (macKey m) → ∃ op ∈ streams m, reportedIp op = a

/-! ## What a call of a stream does -/

/-- The record of a MAC after a call of its stream. -/
def recordAfter (config : Config) (record : Option DeviceState)
    (points : Option (List TrafficSnapshot)) : StoreOp → DeviceState
  | .updateDevice now device => mergeDeviceLocked config (record.getD {}) device now
  | .updateTraffic now snapshot =>
      trafficDevice config (record.getD {}) (stampTraffic now snapshot)
        (decideRates config (points.getD []) (record.getD {}) (stampTraffic now snapshot))
  | _ => record.getD {}

/-- The traffic points of a MAC after a call of its stream. -/
def pointsAfter (config : Config) (record : Option DeviceState)
    (points : Option (List TrafficSnapshot)) : StoreOp → Option (List TrafficSnapshot)
  | .updateTraffic now snapshot =>
      some (storePoint config (points.getD []) (stampTraffic now snapshot)
        (decideRates config (points.getD []) (record.getD {}) (stampTraffic now snapshot)))
  | _ => points

/-- The time by which a call may raise the last-log time, given the record it
has written. -/
def touchedTime (record : DeviceState) : StoreOp → TimePoint
  | .updateDevice now _ => if record.lastSeen = 0 then now else record.lastSeen
  | .updateTraffic now snapshot => if snapshot.ts = 0 then now else snapshot.ts
  | _ => 0

variable {config : Config} {streams : Str → List StoreOp}

/-- A call of a stream works on the key of its own MAC. -/
theorem OwnedByStreams.resolved {s : StateStore} (hs : OwnedByStreams config streams s)
    (hsep : SeparateAddresses streams) {op : StoreOp} (hop : InStreams streams op)
    {mac ip : Str} (htelemetry : telemetry op = some (mac, ip)) :
    s.resolveKey mac ip = macKey (lower mac) ∧ ¬ s.Rekeys mac ip := by
  have hmac : reportedMac op = lower mac := by simp [reportedMac, htelemetry]
  have hip : reportedIp op = ip := by simp [reportedIp, htelemetry]
  have hne : mac ≠ [] := by
    intro hnil
    exact hop.1 (by rw [hmac, hnil]; rfl)
  have hplain : ∀ k, k ∈ s.devicesByKey → isIpKey k = false := by
    intro k hk
    obtain ⟨m, rfl⟩ := hs.keyed k hk
    exact isIpKey_macKey m
  have hnoRekey : ¬ s.Rekeys mac ip := by
    intro hmove
    have hfalse := hplain _ hmove.2.2
    rw [hmove.2.1] at hfalse
    exact absurd hfalse (by simp)
  refine ⟨?_, hnoRekey⟩
  rcases s.findKeyLocked_cases mac ip with hf | hf | hf | hf
  · simp [resolveKey, hf.2.2, macKey_ne_nil]
  · obtain ⟨m, hm⟩ := hs.keyed _ (hs.linked.index_stored _ _ hf.2.2)
    have hindex : s.ipToKey.lookup ip = some (macKey m) := by rw [hf.2.2, hm]
    obtain ⟨op', hop', hip'⟩ := hs.index ip m hindex
    have hsame : reportedMac op = m := by
      by_contra hother
      rcases hsep _ _ hother op hop.2 op' hop' (hip.trans hip'.symm) with hempty | hplaceholder
      · exact hf.2.1 (hip.symm.trans hempty)
      · rw [hip] at hplaceholder
        exact hs.linked.index_ordinary _ _ hf.2.2 hplaceholder
    have hstored : macKey (lower mac) ∈ s.devicesByKey := by
      rw [← hmac, hsame]
      exact hs.linked.index_stored _ _ hindex
    exact absurd ⟨hne, hstored⟩ hf.1
  · have hfalse := hplain _ hf.2.2.2.1
    simp at hfalse
  · simp [resolveKey, hf.2.2, makeKey_of_mac hne]

/-- **What a call of a stream does.**  It writes the record, the traffic points
and the index entry of its own MAC, from what was there for that MAC, and raises
the last-log time. -/
theorem OwnedByStreams.apply_tables {s : StateStore} (hs : OwnedByStreams config streams s)
    (hsep : SeparateAddresses streams) {op : StoreOp} (hop : InStreams streams op)
    {key : Str} (hkey : key = macKey (reportedMac op)) {record : DeviceState}
    (hrecord : record = recordAfter config (s.devicesByKey.lookup key)
      (s.trafficPoints.lookup key) op) :
    (s.apply op).config = config ∧
      (s.apply op).devicesByKey = s.devicesByKey.insert key record ∧
      (s.apply op).ipToKey = indexAfter s.ipToKey key record ∧
      (∀ k, (s.apply op).trafficPoints.lookup k =
        if k = key then pointsAfter config (s.devicesByKey.lookup key)
          (s.trafficPoints.lookup key) op
        else s.trafficPoints.lookup k) ∧
      (s.apply op).lastLogTs = raiseLog s.lastLogTs (touchedTime record op) := by
  have hconfig := hs.config_eq
  cases op with
  | updateDevice now device =>
      obtain ⟨hresolved, hplain⟩ := hs.resolved hsep hop (by rfl)
      replace hkey : key = s.resolveKey device.mac device.ip := hkey.trans hresolved.symm
      have hne : s.resolveKey device.mac device.ip ≠ [] := by
        rw [hresolved]
        exact macKey_ne_nil _
      have hrecord' : record = mergeDeviceLocked s.config
          (s.devicesByKey.getD (s.resolveKey device.mac device.ip) {}) device now := by
        rw [hrecord, hconfig, hkey]
        rfl
      have happly : s.apply (.updateDevice now device) =
          (s.putDevice key record).touchLastLogLocked now record.lastSeen := by
        show s.updateDevice now device = _
        rw [updateDevice_of_plain hne hplain, hrecord', hkey]
      obtain ⟨hc, hd, hi, hp⟩ := putDevice_tables s key record now record.lastSeen
      rw [happly]
      refine ⟨hc.trans hconfig, hd, hi, fun k => ?_, touchLastLogLocked_lastLogTs _ _ _⟩
      rw [hp]
      by_cases hk : k = key
      · rw [if_pos hk, hk]
        rfl
      · rw [if_neg hk]
  | updateTraffic now snapshot =>
      obtain ⟨hresolved, -⟩ := hs.resolved hsep hop (by rfl)
      replace hkey : key = s.resolveKey snapshot.mac snapshot.ip := hkey.trans hresolved.symm
      have hne : s.resolveKey snapshot.mac snapshot.ip ≠ [] := by
        rw [hresolved]
        exact macKey_ne_nil _
      obtain ⟨points, hpoints⟩ : ∃ points, pointsAfter config (s.devicesByKey.lookup key)
          (s.trafficPoints.lookup key) (.updateTraffic now snapshot) = some points := ⟨_, rfl⟩
      have happly : s.apply (.updateTraffic now snapshot) =
          ({ s with trafficPoints := s.trafficPoints.insert key points }.putDevice key
            record).touchLastLogLocked now (stampTraffic now snapshot).ts := by
        show s.updateTraffic now snapshot = _
        rw [updateTraffic_of_key hne, ← Option.some.inj hpoints, hrecord, ← hconfig, hkey]
        rfl
      obtain ⟨hc, hd, hi, hp⟩ := putDevice_tables
        { s with trafficPoints := s.trafficPoints.insert key points } key record now
        (stampTraffic now snapshot).ts
      rw [happly]
      refine ⟨hc.trans hconfig, hd, hi, fun k => ?_, ?_⟩
      · rw [hp, AList.lookup_insert_if, hpoints]
      · rw [touchLastLogLocked_lastLogTs]
        by_cases hts : snapshot.ts = 0
        · simp [putDevice, stampTraffic, touchedTime, hts]
        · simp [putDevice, stampTraffic, touchedTime, hts]
  | updateInterface now snapshot => exact absurd rfl hop.1
  | addEvent now event => exact absurd rfl hop.1
  | addWANAttack now later event => exact absurd rfl hop.1
  | nextEventId => exact absurd rfl hop.1
  | cleanup now => exact absurd rfl hop.1

/-! ## Independence of the streams -/

/-- An update writes its own address or keeps the one that was there. -/
theorem recordAfter_ip {op : StoreOp} (hop : InStreams streams op) (record : Option DeviceState)
    (points : Option (List TrafficSnapshot)) :
    (recordAfter config record points op).ip =
      setIfNotEmpty (record.getD {}).ip (reportedIp op) := by
  cases op with
  | updateDevice now device => rfl
  | updateTraffic now snapshot => rfl
  | updateInterface now snapshot => exact absurd rfl hop.1
  | addEvent now event => exact absurd rfl hop.1
  | addWANAttack now later event => exact absurd rfl hop.1
  | nextEventId => exact absurd rfl hop.1
  | cleanup now => exact absurd rfl hop.1

/-- The address of a written record was reported by the stream of its MAC. -/
theorem OwnedByStreams.written_ip {s : StateStore} (hs : OwnedByStreams config streams s)
    {op : StoreOp} (hop : InStreams streams op) {points : Option (List TrafficSnapshot)}
    (hne : (recordAfter config (s.devicesByKey.lookup (macKey (reportedMac op))) points
      op).ip ≠ []) :
    ∃ op' ∈ streams (reportedMac op), reportedIp op' =
      (recordAfter config (s.devicesByKey.lookup (macKey (reportedMac op))) points op).ip := by
  rw [recordAfter_ip hop] at hne ⊢
  rcases setIfNotEmpty_cases ((s.devicesByKey.lookup (macKey (reportedMac op))).getD {}).ip
    (reportedIp op) with hold | hnew
  · rw [hold] at hne ⊢
    cases hd : s.devicesByKey.lookup (macKey (reportedMac op)) with
    | none =>
        rw [hd] at hne
        exact absurd rfl hne
    | some d =>
        rw [hd] at hne
        exact hs.record _ d hd hne
  · rw [hnew]
    exact ⟨op, hop.2, rfl⟩

/-- A call of a stream keeps the tables owned by the streams. -/
theorem OwnedByStreams.apply {s : StateStore} (hs : OwnedByStreams config streams s)
    (hsep : SeparateAddresses streams) {op : StoreOp} (hop : InStreams streams op) :
    OwnedByStreams config streams (s.apply op) := by
  obtain ⟨hconfig, hdevices, hindex, -, -⟩ := hs.apply_tables hsep hop rfl rfl
  refine ⟨hs.linked.apply op, hconfig, ?_, ?_, ?_⟩
  · intro k hk
    rw [hdevices, AList.mem_insert] at hk
    rcases hk with rfl | hold
    · exact ⟨reportedMac op, rfl⟩
    · exact hs.keyed k hold
  · intro m d hd hne
    rw [hdevices, AList.lookup_insert_if] at hd
    split at hd
    · rename_i hkey
      cases hd
      rw [macKey_inj.mp hkey]
      exact hs.written_ip hop hne
    · exact hs.record m d hd hne
  · intro a m ha
    rw [hindex] at ha
    rcases lookup_indexAfter ha with ⟨rfl, hne, hkey⟩ | ⟨-, hold⟩
    · rw [macKey_inj.mp hkey]
      exact hs.written_ip hop hne
    · exact hs.index a m hold

/-- What the stream of a MAC sees of the tables: its record, its traffic points
and the addresses that lead to it. -/
def streamView (m : Str) (s : StateStore) :
    Option DeviceState × Option (List TrafficSnapshot) × (Str → Prop) :=
  (s.devicesByKey.lookup (macKey m), s.trafficPoints.lookup (macKey m),
    fun a => s.ipToKey.lookup a = some (macKey m))

/-- A written record has its own address and those it had. -/
theorem indexAfter_own {index : StrMap Str} {key a : Str} {record : DeviceState} :
    (indexAfter index key record).lookup a = some key ↔
      (a = record.ip ∧ record.ip ≠ []) ∨ index.lookup a = some key := by
  unfold indexAfter
  by_cases hip : record.ip = []
  · simp [hip]
  · rw [if_pos hip, AList.lookup_insert_if]
    by_cases ha : a = record.ip
    · simp [ha, hip]
    · simp [ha]

/-- Another record keeps its addresses if that of the written record is none of them. -/
theorem indexAfter_other {index : StrMap Str} {key key' a : Str} {record : DeviceState}
    (hkey : key ≠ key') (hfree : record.ip ≠ [] → index.lookup record.ip ≠ some key') :
    (indexAfter index key record).lookup a = some key' ↔ index.lookup a = some key' := by
  unfold indexAfter
  by_cases hip : record.ip = []
  · simp [hip]
  · rw [if_pos hip, AList.lookup_insert_if]
    by_cases ha : a = record.ip
    · subst ha
      simp [hkey, hfree hip]
    · simp [ha]

/-- **The streams are independent.** -/
theorem independent_streams (config : Config) {streams : Str → List StoreOp}
    (hsep : SeparateAddresses streams) :
    Independent reportedMac apply streamView (OwnedByStreams config streams)
      (InStreams streams) where
  inv_step := fun s op hs hop => hs.apply hsep hop
  own := by
    intro s t op hs ht hop hview
    simp only [streamView, Prod.mk.injEq] at hview
    obtain ⟨hrecord, hpoints, hleads⟩ := hview
    obtain ⟨-, hdevices, hindex, hafter, -⟩ := hs.apply_tables hsep hop rfl rfl
    obtain ⟨-, hdevices', hindex', hafter', -⟩ := ht.apply_tables hsep hop rfl rfl
    have hleads' : ∀ a, s.ipToKey.lookup a = some (macKey (reportedMac op)) ↔
        t.ipToKey.lookup a = some (macKey (reportedMac op)) :=
      fun a => iff_of_eq (congrFun hleads a)
    simp only [streamView, hdevices, hdevices', hindex, hindex', hafter, hafter', hrecord,
      hpoints, AList.lookup_insert, if_true, indexAfter_own, hleads']
  other := by
    intro s op m hs hop hm
    obtain ⟨-, hdevices, hindex, hafter, -⟩ := hs.apply_tables hsep hop rfl rfl
    have hkey : macKey (reportedMac op) ≠ macKey m := fun h => hm (macKey_inj.mp h)
    have hfree : ∀ {record : DeviceState}, record = recordAfter config
        (s.devicesByKey.lookup (macKey (reportedMac op)))
        (s.trafficPoints.lookup (macKey (reportedMac op))) op →
        record.ip ≠ [] → s.ipToKey.lookup record.ip ≠ some (macKey m) := by
      rintro record rfl hne hleads
      obtain ⟨op', hop', hip'⟩ := hs.written_ip hop hne
      obtain ⟨other, hother, hip⟩ := hs.index _ m hleads
      rcases hsep _ _ hm op' hop' other hother (hip'.trans hip.symm) with hempty | hplaceholder
      · exact hne (hip'.symm.trans hempty)
      · rw [hip'] at hplaceholder
        exact hs.linked.index_ordinary _ _ hleads hplaceholder
    simp only [streamView, hdevices, hindex, hafter, AList.lookup_insert_ne (Ne.symm hkey),
      if_neg (Ne.symm hkey), indexAfter_other hkey (hfree rfl)]

/-- Owned tables are determined by what the streams see of them. -/
theorem OwnedByStreams.tables_eq {s t : StateStore} (hs : OwnedByStreams config streams s)
    (ht : OwnedByStreams config streams t) (hview : ∀ m, streamView m s = streamView m t) :
    (∀ k, s.devicesByKey.lookup k = t.devicesByKey.lookup k) ∧
      (∀ a, s.ipToKey.lookup a = t.ipToKey.lookup a) ∧
      (∀ k, s.trafficPoints.lookup k = t.trafficPoints.lookup k) := by
  have hparts : ∀ m, s.devicesByKey.lookup (macKey m) = t.devicesByKey.lookup (macKey m) ∧
      s.trafficPoints.lookup (macKey m) = t.trafficPoints.lookup (macKey m) ∧
      ∀ a, s.ipToKey.lookup a = some (macKey m) ↔ t.ipToKey.lookup a = some (macKey m) := by
    intro m
    have hm := hview m
    simp only [streamView, Prod.mk.injEq] at hm
    exact ⟨hm.1, hm.2.1, fun a => iff_of_eq (congrFun hm.2.2 a)⟩
  refine ⟨?_, ?_, ?_⟩
  · intro k
    by_cases hk : ∃ m, k = macKey m
    · obtain ⟨m, rfl⟩ := hk
      exact (hparts m).1
    · rw [AList.lookup_eq_none.mpr (mt (hs.keyed k) hk),
        AList.lookup_eq_none.mpr (mt (ht.keyed k) hk)]
  · intro a
    have hkeys : ∀ k, s.ipToKey.lookup a = some k ↔ t.ipToKey.lookup a = some k := by
      intro k
      constructor
      · intro hk
        obtain ⟨m, rfl⟩ := hs.keyed k (hs.linked.index_stored a k hk)
        exact ((hparts m).2.2 a).mp hk
      · intro hk
        obtain ⟨m, rfl⟩ := ht.keyed k (ht.linked.index_stored a k hk)
        exact ((hparts m).2.2 a).mpr hk
    exact Option.ext hkeys
  · intro k
    by_cases hk : ∃ m, k = macKey m
    · obtain ⟨m, rfl⟩ := hk
      exact (hparts m).2.1
    · rw [AList.lookup_eq_none.mpr fun h => hk (hs.keyed k (hs.linked.points_stored k h)),
        AList.lookup_eq_none.mpr fun h => hk (ht.keyed k (ht.linked.points_stored k h))]

/-- An empty store is owned by the streams. -/
theorem ownedByStreams_init (config : Config) (streams : Str → List StoreOp) :
    OwnedByStreams config streams (init config) where
  linked := keysLinked_init config
  config_eq := rfl
  keyed := by simp [init]
  record := by simp [init]
  index := by simp [init]

/-! ## The last-log time -/

/-- The time a call counts for: the one it carries, or the clock. -/
def countedTime : StoreOp → TimePoint
  | .updateDevice now device => if device.lastSeen = 0 then now else device.lastSeen
  | .updateTraffic now snapshot => if snapshot.ts = 0 then now else snapshot.ts
  | _ => 0

/-- No call counts for time zero, or none for a time before it. -/
def SettledTimes (streams : Str → List StoreOp) : Prop :=
  (∀ m, ∀ op ∈ streams m, countedTime op ≠ 0) ∨ (∀ m, ∀ op ∈ streams m, 0 ≤ countedTime op)

/-- A time as a level, with zero for "never" at the bottom. -/
def timeLevel (t : TimePoint) : WithBot Int := if t = 0 then ⊥ else (t : Int)

/-- Different times have different levels. -/
theorem timeLevel_inj {t u : TimePoint} (h : timeLevel t = timeLevel u) : t = u := by
  unfold timeLevel at h
  split at h <;> split at h
  · rename_i ht hu
    rw [ht, hu]
  · exact absurd h.symm (WithBot.coe_ne_bot)
  · exact absurd h (WithBot.coe_ne_bot)
  · exact WithBot.coe_inj.mp h

/-- A log with a time sets the time of the last log. -/
theorem raiseLog_ne_zero {last ts : TimePoint} (h : ts ≠ 0) : raiseLog last ts ≠ 0 := by
  unfold raiseLog
  split
  · exact h
  · rename_i hlast
    exact (not_or.mp hlast).1

/-- The time of the last log stays from zero on. -/
theorem raiseLog_nonneg {last ts : TimePoint} (hlast : 0 ≤ last) (hts : 0 ≤ ts) :
    0 ≤ raiseLog last ts := by
  unfold raiseLog
  split
  · exact hts
  · exact hlast

/-- Touching raises the level, unless zero meets a time before it. -/
theorem timeLevel_raiseLog {last ts : TimePoint} (h : ts ≠ 0 ∨ 0 ≤ last) :
    timeLevel (raiseLog last ts) = timeLevel last ⊔ timeLevel ts := by
  by_cases hlast : last = 0
  · simp [raiseLog, timeLevel, hlast]
  · by_cases hts : ts = 0
    · have hpos : ¬ ts > last := by
        rw [hts]
        exact not_lt.mpr (h.resolve_left (not_not.mpr hts))
      simp [raiseLog, timeLevel, hlast, hts, hts ▸ hpos]
    · by_cases hlater : ts > last
      · have hle : (last : WithBot Int) ≤ (ts : Int) := WithBot.coe_le_coe.mpr hlater.le
        simp [raiseLog, timeLevel, hlast, hts, hlater, hle]
      · have hle : (ts : WithBot Int) ≤ (last : Int) := WithBot.coe_le_coe.mpr (not_lt.mp hlater)
        simp [raiseLog, timeLevel, hlast, hts, hlater, hle]

/-- The last-log time and the times of the records are not before the epoch. -/
structure AfterEpoch (s : StateStore) : Prop where
  log : 0 ≤ s.lastLogTs
  records : ∀ k, 0 ≤ ((s.devicesByKey.lookup k).getD {}).lastSeen

/-- The record of a call was last seen at the time of the call or before. -/
theorem recordAfter_lastSeen_nonneg {op : StoreOp} {record : Option DeviceState}
    (points : Option (List TrafficSnapshot)) (hop : 0 ≤ countedTime op)
    (hrecord : 0 ≤ (record.getD {}).lastSeen) :
    0 ≤ (recordAfter config record points op).lastSeen := by
  cases op with
  | updateDevice now device => exact raiseLog_nonneg hrecord hop
  | updateTraffic now snapshot => exact le_max_of_le_left hrecord
  | updateInterface now snapshot => exact hrecord
  | addEvent now event => exact hrecord
  | addWANAttack now later event => exact hrecord
  | nextEventId => exact hrecord
  | cleanup now => exact hrecord

/-- A merged record that was never seen was reported at time zero. -/
theorem countedTime_of_unseen {record : Option DeviceState}
    {points : Option (List TrafficSnapshot)} {now : TimePoint} {device : DeviceState}
    (h : (recordAfter config record points (.updateDevice now device)).lastSeen = 0) :
    countedTime (.updateDevice now device) = 0 := by
  by_contra hop
  exact raiseLog_ne_zero hop h

/-- The time that a call leaves behind stays from zero on. -/
theorem touchedTime_nonneg {op : StoreOp} {record : Option DeviceState}
    (points : Option (List TrafficSnapshot)) (hop : 0 ≤ countedTime op)
    (hrecord : 0 ≤ (record.getD {}).lastSeen) :
    0 ≤ touchedTime (recordAfter config record points op) op := by
  cases op with
  | updateDevice now device =>
      simp only [touchedTime]
      split
      · rename_i hunseen
        have hzero := countedTime_of_unseen hunseen
        simp only [countedTime] at hzero
        split at hzero
        · exact hzero.ge
        · contradiction
      · exact recordAfter_lastSeen_nonneg points hop hrecord
  | updateTraffic now snapshot => exact hop
  | updateInterface now snapshot => exact le_refl 0
  | addEvent now event => exact le_refl 0
  | addWANAttack now later event => exact le_refl 0
  | nextEventId => exact le_refl 0
  | cleanup now => exact le_refl 0

/-- A call with a time leaves one behind. -/
theorem touchedTime_ne_zero {op : StoreOp} (hstream : InStreams streams op)
    {record : Option DeviceState} (points : Option (List TrafficSnapshot))
    (hop : countedTime op ≠ 0) : touchedTime (recordAfter config record points op) op ≠ 0 := by
  cases op with
  | updateDevice now device =>
      have hseen : (recordAfter config record points (.updateDevice now device)).lastSeen ≠ 0 :=
        mt countedTime_of_unseen hop
      simp only [touchedTime]
      rwa [if_neg hseen]
  | updateTraffic now snapshot => exact hop
  | updateInterface now snapshot => exact absurd rfl hstream.1
  | addEvent now event => exact absurd rfl hstream.1
  | addWANAttack now later event => exact absurd rfl hstream.1
  | nextEventId => exact absurd rfl hstream.1
  | cleanup now => exact absurd rfl hstream.1

/-- The last-log time of two interleavings. -/
theorem lastLogTs_agree (config : Config) {streams : Str → List StoreOp}
    (hsep : SeparateAddresses streams) (htimes : SettledTimes streams)
    {ops ops' : List StoreOp} (hok : ∀ op ∈ ops, InStreams streams op)
    (hok' : ∀ op ∈ ops', InStreams streams op)
    (hops : Interleaves reportedMac streams ops) (hops' : Interleaves reportedMac streams ops') :
    (Runs.run apply (init config) ops).lastLogTs =
      (Runs.run apply (init config) ops').lastLogTs := by
  let positive : Prop := ∀ m, ∀ op ∈ streams m, 0 ≤ countedTime op
  have hindependent := (independent_streams config hsep).strengthen
    (fun s => OwnedByStreams config streams s ∧ (positive → AfterEpoch s))
    (fun s hs => hs.1) ?_
  · let mark : StateStore → StoreOp → WithBot Int := fun s op =>
      timeLevel (touchedTime (recordAfter config
        (s.devicesByKey.lookup (macKey (reportedMac op)))
        (s.trafficPoints.lookup (macKey (reportedMac op))) op) op)
    apply timeLevel_inj
    refine hindependent.run_level mark (fun s => timeLevel s.lastLogTs) ?_ ?_ ?_ hok hok' hops hops'
    · intro s t op _ _ _ hview
      simp only [streamView, Prod.mk.injEq] at hview
      simp only [mark, hview.1, hview.2.1]
    · intro s op hs hop
      obtain ⟨-, -, -, -, hlog⟩ := hs.1.apply_tables hsep hop rfl rfl
      simp only [mark, hlog]
      apply timeLevel_raiseLog
      rcases htimes with hnonzero | hpositive
      · exact Or.inl (touchedTime_ne_zero hop _ (hnonzero _ op hop.2))
      · exact Or.inr (hs.2 hpositive).log
    · refine ⟨ownedByStreams_init config streams, fun _ => ⟨le_refl 0, fun k => ?_⟩⟩
      simp [init]
  · intro s op hs hop
    refine ⟨hs.1.apply hsep hop, fun hpositive => ?_⟩
    obtain ⟨-, hdevices, -, -, hlog⟩ := hs.1.apply_tables hsep hop rfl rfl
    have hbefore := hs.2 hpositive
    have hop' := hpositive _ op hop.2
    refine ⟨?_, fun k => ?_⟩
    · rw [hlog]
      exact raiseLog_nonneg hbefore.log (touchedTime_nonneg _ hop' (hbefore.records _))
    · rw [hdevices, AList.lookup_insert_if]
      split
      · exact recordAfter_lastSeen_nonneg _ hop' (hbefore.records _)
      · exact hbefore.records k

/-! ## Interleavings -/

/-- Every call of an interleaving is in a stream. -/
theorem inStreams_of_mem {ops : List StoreOp} (hmacs : streams [] = [])
    (hops : Interleaves reportedMac streams ops) {op : StoreOp} (hop : op ∈ ops) :
    InStreams streams op := by
  have hmem := hops.mem hop
  refine ⟨fun hnil => ?_, hmem⟩
  rw [hnil, hmacs] at hmem
  exact absurd hmem (by simp)

/-- **Streams of different devices do not interfere.**  Take a stream of updates
for every non-empty lower-case MAC, such that different streams share no address
but the empty one and the placeholders.  All interleavings end in the same
records, the same index and the same traffic points, and the record and the
points of a MAC are those of its stream alone.  The last-log time is the same as
well, unless one call counts for time zero and another for a time before it. -/
theorem interleavings_agree (config : Config) (streams : Str → List StoreOp)
    (hmacs : streams [] = []) (hsep : SeparateAddresses streams) (ops ops' : List StoreOp)
    (hops : Interleaves reportedMac streams ops)
    (hops' : Interleaves reportedMac streams ops') :
    (∀ k, (Runs.run apply (init config) ops).devicesByKey.lookup k =
        (Runs.run apply (init config) ops').devicesByKey.lookup k) ∧
      (∀ a, (Runs.run apply (init config) ops).ipToKey.lookup a =
        (Runs.run apply (init config) ops').ipToKey.lookup a) ∧
      (∀ k, (Runs.run apply (init config) ops).trafficPoints.lookup k =
        (Runs.run apply (init config) ops').trafficPoints.lookup k) ∧
      (SettledTimes streams → (Runs.run apply (init config) ops).lastLogTs =
        (Runs.run apply (init config) ops').lastLogTs) ∧
      (∀ m, (Runs.run apply (init config) ops).devicesByKey.lookup (macKey m) =
          (Runs.run apply (init config) (streams m)).devicesByKey.lookup (macKey m) ∧
        (Runs.run apply (init config) ops).trafficPoints.lookup (macKey m) =
          (Runs.run apply (init config) (streams m)).trafficPoints.lookup (macKey m)) := by
  have hindependent := independent_streams config hsep
  have hinit := ownedByStreams_init config streams
  have hok : ∀ op ∈ ops, InStreams streams op := fun op => inStreams_of_mem hmacs hops
  have hok' : ∀ op ∈ ops', InStreams streams op := fun op => inStreams_of_mem hmacs hops'
  have halone : ∀ m, streamView m (Runs.run apply (init config) ops) =
      streamView m (Runs.run apply (init config) (streams m)) := by
    intro m
    rw [← hops m]
    exact hindependent.run_view hinit hinit rfl hok
  have halone' : ∀ m, streamView m (Runs.run apply (init config) ops') =
      streamView m (Runs.run apply (init config) (streams m)) := by
    intro m
    rw [← hops' m]
    exact hindependent.run_view hinit hinit rfl hok'
  obtain ⟨hdevices, hindex, hpoints⟩ :=
    (hindependent.run_inv hinit hok).tables_eq (hindependent.run_inv hinit hok')
      fun m => (halone m).trans (halone' m).symm
  refine ⟨hdevices, hindex, hpoints, ?_, ?_⟩
  · intro htimes
    exact lastLogTs_agree config hsep htimes hok hok' hops hops'
  · intro m
    have hm := halone m
    simp only [streamView, Prod.mk.injEq] at hm
    exact ⟨hm.1, hm.2.1⟩

/-- The streams of a list of calls. -/
def streamsOf (ops : List StoreOp) (m : Str) : List StoreOp := stream reportedMac m ops

/-- Streams are separate if their calls are. -/
theorem separateAddresses_streamsOf {ops : List StoreOp}
    (h : ∀ op ∈ ops, ∀ op' ∈ ops, reportedMac op ≠ reportedMac op' →
      reportedIp op = reportedIp op' → reportedIp op = [] ∨ IsPlaceholder (reportedIp op)) :
    SeparateAddresses (streamsOf ops) := by
  intro m m' hm op hop op' hop'
  obtain ⟨hmem, hmac⟩ := List.mem_filter.mp hop
  obtain ⟨hmem', hmac'⟩ := List.mem_filter.mp hop'
  refine h op hmem op' hmem' ?_
  rw [of_decide_eq_true hmac, of_decide_eq_true hmac']
  exact hm

/-- A lease and a traffic sample of one device. -/
def leaseAndSample (mac ip : String) : List StoreOp :=
  [ .updateDevice (seconds 10) { mac := str mac, ip := str ip, hostname := str "host" },
    .updateTraffic (seconds 20) { mac := str mac, ip := str "*", rxBytes := 7 } ]

/-- Two devices one after the other, and in turns. -/
theorem interleavings_agree_two :
    let first := leaseAndSample "AA:01" "10.0.0.5" ++ leaseAndSample "bb:02" "10.0.0.6"
    let turns := [leaseAndSample "bb:02" "10.0.0.6", leaseAndSample "AA:01" "10.0.0.5"]
    let mixed := turns.filterMap (·.head?) ++ turns.filterMap (·.getLast?)
    (∀ k, (Runs.run apply (init {}) first).devicesByKey.lookup k =
        (Runs.run apply (init {}) mixed).devicesByKey.lookup k) ∧
      (Runs.run apply (init {}) first).devicesByKey.lookup (str "mac:aa:01") ≠ none := by
  refine ⟨(interleavings_agree {} (streamsOf (leaseAndSample "AA:01" "10.0.0.5" ++
    leaseAndSample "bb:02" "10.0.0.6")) (by rfl) (separateAddresses_streamsOf (by decide)) _ _
    (fun m => rfl) ?_).1, by decide +kernel⟩
  intro m
  by_cases hfirst : m = str "aa:01"
  · subst hfirst
    rfl
  · by_cases hsecond : m = str "bb:02"
    · subst hsecond
      rfl
    · have hother : ∀ ops : List StoreOp,
          (∀ op ∈ ops, reportedMac op = str "aa:01" ∨ reportedMac op = str "bb:02") →
          streamsOf ops m = [] := by
        intro ops hops
        apply List.filter_eq_nil_iff.mpr
        intro op hop hm
        rw [decide_eq_true_eq] at hm
        rcases hops op hop with hmac | hmac
        · exact hfirst (hm.symm.trans hmac)
        · exact hsecond (hm.symm.trans hmac)
      exact (hother _ (by decide)).trans (hother _ (by decide)).symm

/-- A device stamped by a clock at the epoch and one with a time before it: the
last-log time depends on which comes last. -/
theorem epoch_order_matters :
    let unset : StoreOp := .updateDevice 0 { mac := str "aa:01" }
    let early : StoreOp := .updateDevice 0 { mac := str "bb:02", lastSeen := seconds (-5) }
    (streamsOf [unset, early] [] = [] ∧ SeparateAddresses (streamsOf [unset, early]) ∧
        Interleaves reportedMac (streamsOf [unset, early]) [unset, early] ∧
        Interleaves reportedMac (streamsOf [unset, early]) [early, unset]) ∧
      (Runs.run apply (init {}) [unset, early]).lastLogTs = seconds (-5) ∧
      (Runs.run apply (init {}) [early, unset]).lastLogTs = 0 := by
  intro unset early
  refine ⟨⟨rfl, separateAddresses_streamsOf (by decide), fun m => rfl, fun m => ?_⟩,
    by decide +kernel, by decide +kernel⟩
  have hmacs : reportedMac unset ≠ reportedMac early := by decide
  by_cases hunset : reportedMac unset = m
  · subst hunset
    simp [streamsOf, stream, Ne.symm hmacs]
  · simp [streamsOf, stream, List.filter_cons, hunset]

end StateStore

end Netmon
