import Netmon.CounterRuns
import Netmon.EventRetention
import Netmon.TrafficReport

/-!
# The traffic of each device over a window

The report makes one pass over the samples of its window, joined with the stored devices,
and keeps an accumulator for each key.  What the accumulator of a key ends with is a closed
form over the samples of that key alone (`totalOf`): a counter contributes the last reading
of each of its maximal runs, less the first reading of all.

The pass looks at the key of a sample twice, once in SQL for the order and the join and once
for the accumulator, where the address may come from the joined device.  The tables that
statements leave are such that both are the same key (`Tidy.reportKey_joinDevice`).
-/

namespace Netmon

/-- Stored times keep their order. -/
theorem timeFromColumn_mono {a b : Int} (h : a ≤ b) : timeFromColumn a ≤ timeFromColumn b := by
  unfold timeFromColumn fromUnixSeconds
  split <;> split
  · exact Int.le_refl _
  · show (0 : Int) ≤ _
    unfold seconds
    omega
  · omega
  · unfold seconds
    show (_ : Int) ≤ _
    omega

namespace Database

/-! ## The tables that statements leave -/

/-- The tables as the report finds them: automatic ids in the order of insertion, texts of
samples without a NUL and with the MAC in lower case, and no address for a device that
stands under the key of no address. -/
structure Tidy (db : Database) : Prop where
  keyed : db.Keyed
  ordered : db.trafficSamples.Pairwise fun a b => a.id < b.id
  mac_text : ∀ row ∈ db.trafficSamples, 0 ∉ row.mac ∧ lower row.mac = row.mac
  ip_text : ∀ row ∈ db.trafficSamples, 0 ∉ row.ip
  no_address : ∀ row, db.devices.lookup (str "ip:") = some row → row.ip = []

/-- A stored MAC is in lower case. -/
theorem lower_cString_lower (value : Str) :
    lower (cString (lower value)) = cString (lower value) := by
  refine (List.map_congr_left fun b hb => ?_).trans (List.map_id _)
  obtain ⟨c, -, rfl⟩ := List.mem_map.mp ((List.takeWhile_subset _) hb)
  exact toLower_toLower c

/-- A device row that stands under the key of no address has no address. -/
theorem ip_of_deviceRow {now : TimePoint} {device : DeviceState}
    (h : (deviceRow now device).deviceKey = str "ip:") : (deviceRow now device).ip = [] := by
  have hkey : cString (makeKey device.mac device.ip) = str "ip:" := h
  unfold makeKey at hkey
  split at hkey
  · have hcut : cString (macKey (lower device.mac)) = macKey (cString (lower device.mac)) := rfl
    rw [hcut] at hkey
    exact absurd hkey.symm (ipKey_ne_macKey [] _)
  · split at hkey
    · have hcut : cString (ipKey device.ip) = str "ip:" ++ cString device.ip := rfl
      rw [hcut] at hkey
      exact List.append_right_eq_self.mp hkey
    · exact absurd hkey (by decide)

/-- Taking rows away leaves the tables tidy. -/
theorem Tidy.shrinks {db db' : Database} (h : db.Tidy) (hs : Shrinks db db') : db'.Tidy where
  keyed := h.keyed.shrinks hs
  ordered := h.ordered.sublist hs.samples
  mac_text := fun row hrow => h.mac_text row (hs.samples.subset hrow)
  ip_text := fun row hrow => h.ip_text row (hs.samples.subset hrow)
  no_address := fun row hrow => h.no_address row (hs.devices ▸ hrow)

/-- Writing a device leaves the tables tidy. -/
theorem Tidy.upsertDevice {db : Database} (h : db.Tidy) (now : TimePoint) (device : DeviceState) :
    (db.upsertDevice now device).Tidy := by
  have hkeyed : (db.upsertDevice now device).Keyed := h.keyed.upsertDevices now [device]
  unfold Database.upsertDevice at hkeyed ⊢
  split at hkeyed
  · rw [if_pos ‹_›]
    exact h
  · rw [if_neg ‹_›]
    refine ⟨hkeyed, h.ordered, h.mac_text, h.ip_text, fun row hrow => ?_⟩
    rw [AList.lookup_insert_if] at hrow
    split at hrow
    · rename_i hkey
      cases hrow
      exact ip_of_deviceRow hkey.symm
    · exact h.no_address row hrow

/-- Writing all devices leaves the tables tidy. -/
theorem Tidy.upsertDevices {db : Database} (h : db.Tidy) (now : TimePoint)
    (devices : List DeviceState) : (db.upsertDevices now devices).Tidy := by
  induction devices generalizing db with
  | nil => exact h
  | cons device devices ih => exact ih (h.upsertDevice now device)

/-- A new sample leaves the tables tidy. -/
theorem Tidy.insertTraffic {db : Database} (h : db.Tidy) (snapshot : TrafficSnapshot) :
    (db.insertTraffic snapshot).Tidy := by
  have hkeyed : (db.insertTraffic snapshot).Keyed := h.keyed.apply (.insertTraffic snapshot)
  refine ⟨hkeyed, ?_, ?_, ?_, h.no_address⟩
  · refine List.pairwise_append.mpr ⟨h.ordered, List.pairwise_singleton _ _, ?_⟩
    intro a ha b hb
    rw [List.mem_singleton.mp hb]
    exact Nat.lt_succ_of_le (h.keyed.samples a ha)
  · intro row hrow
    rcases List.mem_append.mp hrow with hrow | hrow
    · exact h.mac_text row hrow
    · rw [List.mem_singleton.mp hrow]
      exact ⟨zero_notMem_cString _, lower_cString_lower _⟩
  · intro row hrow
    rcases List.mem_append.mp hrow with hrow | hrow
    · exact h.ip_text row hrow
    · rw [List.mem_singleton.mp hrow]
      exact zero_notMem_cString _

/-- Every statement leaves the tables tidy. -/
theorem Tidy.apply {db : Database} (h : db.Tidy) (op : HistoryOp) : (db.apply op).Tidy := by
  have hkeyed := h.keyed.apply op
  cases op with
  | upsertDevices now devices => exact h.upsertDevices now devices
  | insertTraffic snapshot => exact h.insertTraffic snapshot
  | insertEvent event => exact ⟨hkeyed, h.ordered, h.mac_text, h.ip_text, h.no_address⟩
  | insertWANAttack event => exact ⟨hkeyed, h.ordered, h.mac_text, h.ip_text, h.no_address⟩
  | applyRetention config now bytes =>
      exact h.shrinks (db.shrinks_applyRetention config now bytes)

/-- Every run over an empty database leaves the tables tidy. -/
theorem tidy_run (ops : List HistoryOp) : (Runs.run apply {} ops).Tidy := by
  refine Runs.run_invariant Tidy (fun db op h => h.apply op) ?_ ops
  refine ⟨⟨⟨?_, List.nodup_nil, List.nodup_nil⟩, ?_, ?_⟩, List.Pairwise.nil, ?_, ?_, ?_⟩
  all_goals simp

/-! ## One key for a sample -/

/-- **The accumulator's key is the key of the order and the join.** -/
theorem Tidy.reportKey_joinDevice {db : Database} (h : db.Tidy) {row : TrafficRow}
    (hrow : row ∈ db.trafficSamples) : reportKey (db.joinDevice row) = joinKey row := by
  obtain ⟨hmac, hlower⟩ := h.mac_text row hrow
  have hread : lower (cString row.mac) = row.mac := by rw [cString_eq_self hmac, hlower]
  have hreport : reportKey (db.joinDevice row) =
      if row.mac ≠ [] then macKey row.mac else ipKey (cString (db.joinDevice row).ip) := by
    rw [reportKey]
    show (if lower (cString row.mac) ≠ [] then macKey (lower (cString row.mac))
      else ipKey (cString (db.joinDevice row).ip)) = _
    rw [hread]
  rw [hreport, joinKey, sampleKey, hlower]
  split
  · rfl
  · rename_i hnomac
    congr 1
    by_cases hip : row.ip = []
    · -- without an address the sample is joined with the device of no address
      have hkey : joinKey row = str "ip:" := by
        rw [joinKey, sampleKey, if_neg hnomac, hip]
        rfl
      rw [hip, joinDevice, hkey]
      show cString (if row.ip ≠ [] then row.ip else _) = []
      rw [if_neg (not_not.mpr hip)]
      cases hdevice : db.devices.lookup (str "ip:") with
      | none => rfl
      | some device =>
          show cString device.ip = []
          rw [h.no_address device hdevice]
          rfl
    · show cString (if row.ip ≠ [] then row.ip else _) = row.ip
      rw [if_pos hip, cString_eq_self (h.ip_text row hrow)]

/-! ## What an accumulator ends with -/

/-- The columns of a joined sample as the pass reads them. -/
structure Reading where
  mac : Str
  ip : Str
  hostname : Str
  ts : TimePoint
  rx : UInt64
  tx : UInt64

/-- What the report reads of a joined row. -/
def reading (joined : JoinedSample) : Reading where
  mac := lower (cString joined.sample.mac)
  ip := cString joined.ip
  hostname := cString joined.hostname
  ts := timeFromColumn joined.sample.ts
  rx := joined.sample.rxBytes.toUInt64
  tx := joined.sample.txBytes.toUInt64

/-- A reading is added to its device. -/
def addReading (acc : Accumulator) (r : Reading) : Accumulator :=
  acc.add r.mac r.ip r.hostname r.ts r.rx r.tx

/-- A counter that runs on does not go down. -/
def runsOn (previous current : UInt64) : Bool := decide (previous ≤ current)

/-- What a counter has counted: the last reading of each maximal run, less the first
reading, with the wrap-around of 64-bit arithmetic. -/
def bytesCounted (counters : List UInt64) : UInt64 :=
  (CounterRuns.runEnds runsOn counters).sum - counters.head?.getD 0

/-- The entry of a device with these readings. -/
def totalOf (readings : List Reading) : DeviceTrafficTotal where
  mac := (readings.head?.map Reading.mac).getD []
  ip := (readings.head?.map Reading.ip).getD []
  hostname := (readings.head?.map Reading.hostname).getD []
  firstTs := (readings.head?.map Reading.ts).getD 0
  lastTs := (readings.getLast?.map Reading.ts).getD 0
  rxBytes := bytesCounted (readings.map Reading.rx)
  txBytes := bytesCounted (readings.map Reading.tx)
  samples := readings.length

/-- A further counter adds what it has grown by. -/
theorem bytesCounted_concat {counters : List UInt64} (h : counters ≠ []) (counter : UInt64) :
    bytesCounted (counters ++ [counter]) =
      bytesCounted counters + counterGrowth counter (counters.getLast h) := by
  have htotal : ∀ {counters : List UInt64}, counters ≠ [] →
      bytesCounted counters = CounterRuns.total runsOn counters := by
    intro counters h
    obtain ⟨first, rest, rfl⟩ := List.exists_cons_of_ne_nil h
    exact (CounterRuns.total_cons runsOn first rest).symm
  have hgrowth : ∀ previous, CounterRuns.growth runsOn previous counter =
      counterGrowth counter previous := by
    intro previous
    simp [CounterRuns.growth, runsOn, counterGrowth]
  rw [htotal h, htotal (by simp), CounterRuns.total_append_singleton runsOn h, hgrowth]

/-- **The pass over the readings of one device.** -/
theorem foldl_addReading {readings : List Reading} (h : readings ≠ []) :
    readings.foldl addReading {} =
      { total := totalOf readings
        previousRx := (readings.getLast h).rx
        previousTx := (readings.getLast h).tx
        hasPrevious := true } := by
  induction readings using List.reverseRecOn with
  | nil => exact absurd rfl h
  | append_singleton readings r ih =>
      rw [List.foldl_append, List.foldl_cons, List.foldl_nil]
      by_cases hnil : readings = []
      · subst hnil
        simp [addReading, Accumulator.add, totalOf, bytesCounted,
          CounterRuns.runEnds_singleton]
      · have hsamples : ¬ (totalOf readings).samples = 0 := by
          simpa [totalOf] using hnil
        have hrx : bytesCounted (readings.map Reading.rx ++ [r.rx]) = _ :=
          bytesCounted_concat (by simpa using hnil) r.rx
        have htx : bytesCounted (readings.map Reading.tx ++ [r.tx]) = _ :=
          bytesCounted_concat (by simpa using hnil) r.tx
        rw [List.getLast_map] at hrx htx
        have hhead : (readings ++ [r]).head? = readings.head? :=
          List.head?_append_of_ne_nil _ hnil
        rw [ih hnil, addReading, Accumulator.add, if_neg hsamples]
        simp [totalOf, hhead, hrx, htx]

/-! ## The entries of the report -/

/-- The samples of a device in the window, in the order of time and id. -/
def deviceSamples (cutoff : Int) (key : Str) (db : Database) : List TrafficRow :=
  (db.trafficSamples.filter fun row => row.ts ≥ cutoff ∧ joinKey row = key).insertionSort
    fun a b => NewestSample b a

/-- The readings of a device from a time on. -/
def deviceReadings (cutoff : Int) (key : Str) (db : Database) : List Reading :=
  (db.deviceSamples cutoff key).map fun row => reading (db.joinDevice row)

/-- The keys of the devices with a sample in the window.  A sample with neither a MAC nor
an address belongs to no device. -/
def reportedKeys (cutoff : Int) (db : Database) : List Str :=
  (((db.trafficSamples.filter fun row => row.ts ≥ cutoff).map joinKey).filter
    fun key => key ≠ str "ip:").dedup

/-- The samples of a device are those from the cutoff on that join under its key. -/
theorem mem_deviceSamples {db : Database} {cutoff : Int} {key : Str} {row : TrafficRow} :
    row ∈ db.deviceSamples cutoff key ↔
      row ∈ db.trafficSamples ∧ row.ts ≥ cutoff ∧ joinKey row = key := by
  rw [deviceSamples, (List.perm_insertionSort _ _).mem_iff, List.mem_filter, decide_eq_true_eq]

/-- A device is reported if it has an address or a MAC, and a sample. -/
theorem mem_reportedKeys {db : Database} {cutoff : Int} {key : Str} :
    key ∈ db.reportedKeys cutoff ↔ key ≠ str "ip:" ∧ db.deviceSamples cutoff key ≠ [] := by
  rw [reportedKeys, List.mem_dedup, List.mem_filter, decide_eq_true_eq, and_comm]
  refine and_congr_right fun _ => ?_
  rw [List.mem_map]
  constructor
  · rintro ⟨row, hrow, hkey⟩
    rw [List.mem_filter, decide_eq_true_eq] at hrow
    exact List.ne_nil_of_mem (mem_deviceSamples.mpr ⟨hrow.1, hrow.2, hkey⟩)
  · intro hsome
    obtain ⟨row, hrow⟩ := List.exists_mem_of_ne_nil _ hsome
    obtain ⟨hstored, hwindow, hkey⟩ := mem_deviceSamples.mp hrow
    exact ⟨row, List.mem_filter.mpr ⟨hstored, decide_eq_true hwindow⟩, hkey⟩

/-- A counted row is added to its device only. -/
theorem accumulate_of_counted {joined : JoinedSample} (h : Counted joined)
    (byDevice : StrMap Accumulator) :
    accumulate byDevice joined = byDevice.insert (reportKey joined)
      (addReading (byDevice.getD (reportKey joined) {}) (reading joined)) :=
  if_neg h

/-- The pass meets the samples of a device in the order of time and id. -/
theorem Tidy.samples_of_key {db : Database} (h : db.Tidy) (cutoff : Int) {key : Str}
    (hkey : key ≠ str "ip:") :
    ((((db.countedSamples cutoff).map db.joinDevice).insertionSort JoinOrder).filter
        fun joined => reportKey joined = key) =
      (db.deviceSamples cutoff key).map db.joinDevice := by
  have hties : Ranking.NoTies JoinOrder ((db.countedSamples cutoff).map db.joinDevice) :=
    db.joined_noTies (h.keyed.keys.samples_noTies.sublist List.filter_sublist)
  have hrows : ((db.countedSamples cutoff).filter
      fun row => decide (reportKey (db.joinDevice row) = key)) =
      db.trafficSamples.filter fun row => row.ts ≥ cutoff ∧ joinKey row = key := by
    rw [countedSamples, List.filter_filter]
    refine List.filter_congr fun row hrow => ?_
    have hreport := h.reportKey_joinDevice hrow
    have hcounted : Counted (db.joinDevice row) ↔ joinKey row ≠ str "ip:" := by
      unfold Counted
      rw [hreport]
    by_cases hsame : joinKey row = key
    · simp [hreport, hcounted, hsame, hkey]
    · simp [hreport, hsame]
  rw [Ranking.filter_insertionSort hties, List.filter_map, deviceSamples,
    List.map_insertionSort _ JoinOrder]
  · congr 2
  · intro a ha b hb
    have hsame : joinKey a = joinKey b := by
      have ha := (List.mem_filter.mp ha).2
      have hb := (List.mem_filter.mp hb).2
      rw [decide_eq_true_eq] at ha hb
      rw [ha.2, hb.2]
    rw [joinOrder_iff]
    show _ ↔ joinKey a < joinKey b ∨ (joinKey a = joinKey b ∧ NewestSample b a)
    rw [hsame]
    simp [List.lt_irrefl]

/-- **The accumulators after the pass**, one for each key with a sample in the window. -/
theorem Tidy.lookup_totalsByDevice {db : Database} (h : db.Tidy) (cutoff : Int) (key : Str)
    (acc : Accumulator) :
    (db.totalsByDevice cutoff).lookup key = some acc ↔
      key ∈ db.reportedKeys cutoff ∧
        (db.deviceReadings cutoff key).foldl addReading {} = acc := by
  have hfold : db.totalsByDevice cutoff = (∅ : StrMap Accumulator).foldByKey reportKey
      (fun acc joined => addReading acc (reading joined)) {}
      (((db.countedSamples cutoff).map db.joinDevice).insertionSort JoinOrder) := by
    rw [h.keyed.keys.totalsByDevice_eq, AList.foldByKey]
    exact List.foldl_ext _ _ _ fun byDevice joined hjoined =>
      accumulate_of_counted (counted_of_mem hjoined) byDevice
  rw [hfold, AList.lookup_foldByKey, mem_reportedKeys]
  by_cases hkey : key = str "ip:"
  · have hnone : ((((db.countedSamples cutoff).map db.joinDevice).insertionSort
        JoinOrder).filter fun joined => reportKey joined = key) = [] := by
      refine List.filter_eq_nil_iff.mpr fun joined hjoined => ?_
      rw [decide_eq_true_eq, hkey]
      exact counted_of_mem hjoined
    rw [if_pos hnone]
    exact ⟨fun hsome => (by cases hsome), fun hmem => absurd hkey hmem.1.1⟩
  · rw [h.samples_of_key cutoff hkey]
    by_cases hnil : db.deviceSamples cutoff key = []
    · rw [if_pos (List.map_eq_nil_iff.mpr hnil)]
      exact ⟨fun hsome => (by cases hsome), fun hmem => absurd hnil hmem.1.2⟩
    · rw [if_neg (mt List.map_eq_nil_iff.mp hnil), Option.some_inj, deviceReadings,
        List.foldl_map, List.foldl_map]
      exact (and_iff_right ⟨hkey, hnil⟩).symm

/-- The traffic by which the entries are ordered. -/
def totalBytes (total : DeviceTrafficTotal) : Int := (total.rxBytes + total.txBytes).toNat

/-- An entry that another does not come before has more traffic, or as much and is as late. -/
theorem not_totalBefore_iff {a b : DeviceTrafficTotal} :
    ¬ totalBefore b a ↔
      totalBytes b < totalBytes a ∨ (totalBytes b = totalBytes a ∧ b.lastTs ≤ a.lastTs) := by
  rw [totalBefore, totalBytes, totalBytes]
  by_cases hsame : b.rxBytes + b.txBytes = a.rxBytes + a.txBytes
  · simp [hsame]
  · have hne : (b.rxBytes + b.txBytes).toNat ≠ (a.rxBytes + a.txBytes).toNat := fun h =>
      hsame (UInt64.toNat_inj.mp h)
    rw [if_pos hsame, decide_eq_true_eq, gt_iff_lt, UInt64.lt_iff_toNat_lt]
    omega

instance : Std.Total fun lhs rhs : DeviceTrafficTotal => ¬ totalBefore rhs lhs :=
  Ranking.total_of_newest totalBytes DeviceTrafficTotal.lastTs fun _ _ => not_totalBefore_iff

instance : IsTrans DeviceTrafficTotal fun lhs rhs => ¬ totalBefore rhs lhs :=
  Ranking.trans_of_newest totalBytes DeviceTrafficTotal.lastTs fun _ _ => not_totalBefore_iff

/-- No device is reported twice. -/
theorem nodup_reportedKeys (cutoff : Int) (db : Database) : (db.reportedKeys cutoff).Nodup :=
  List.nodup_dedup _

/-- The first second of the window. -/
abbrev windowStart (now : TimePoint) (hours : Int) : Int :=
  unixSeconds (now - seconds (3600 * hours))

/-- **The report without a limit**, up to the order of its entries. -/
theorem Tidy.perm_report {db : Database} (h : db.Tidy) (now : TimePoint) (hours : Int) :
    (db.deviceTrafficTotals now hours 0).Perm
      ((db.reportedKeys (windowStart now hours)).map fun key =>
        totalOf (db.deviceReadings (windowStart now hours) key)) := by
  have hentries := AList.entries_perm (nodup_reportedKeys _ db)
    (h.lookup_totalsByDevice (windowStart now hours))
  have htotals := hentries.map fun e => e.2.total
  rw [List.map_map] at htotals
  refine (perm_totals now hours db).trans (htotals.trans ?_)
  refine List.Perm.of_eq (List.map_congr_left fun key hkey => ?_)
  have hsome : db.deviceReadings (windowStart now hours) key ≠ [] :=
    mt List.map_eq_nil_iff.mp (mem_reportedKeys.mp hkey).2
  show (List.foldl addReading {} _).total = _
  rw [foldl_addReading hsome]

/-- A limit of at least the number of devices does not cut the report. -/
theorem Tidy.report_uncut {db : Database} (h : db.Tidy) {now : TimePoint} {hours : Int}
    {limit : UInt64}
    (hlimit : limit = 0 ∨ (db.reportedKeys (windowStart now hours)).length ≤ limit.toNat) :
    db.deviceTrafficTotals now hours limit = db.deviceTrafficTotals now hours 0 := by
  rcases hlimit with rfl | hlimit
  · rfl
  · have hlength := (h.perm_report now hours).length_eq
    rw [List.length_map] at hlength
    rw [← hlength, deviceTrafficTotals_zero] at hlimit
    rw [deviceTrafficTotals_zero]
    exact if_neg fun hcut => absurd hcut.2 (not_lt.mpr hlimit)

/-- The samples of a device come in the order of their times. -/
theorem pairwise_deviceSamples (cutoff : Int) (key : Str) (db : Database) :
    (db.deviceSamples cutoff key).Pairwise fun a b => a.ts ≤ b.ts := by
  have htotal := Ranking.total_flip (r := NewestSample)
  have htrans := Ranking.trans_flip (r := NewestSample)
  refine (List.pairwise_insertionSort (fun a b => NewestSample b a) _).imp ?_
  rintro a b (hlt | ⟨heq, -⟩) <;> omega

/-- The first and the last time of a device are the extremes of its samples. -/
theorem totalOf_extremes (db : Database) (cutoff : Int) {key : Str} {row : TrafficRow}
    (hrow : row ∈ db.deviceSamples cutoff key) :
    (totalOf (db.deviceReadings cutoff key)).firstTs ≤ timeFromColumn row.ts ∧
      timeFromColumn row.ts ≤ (totalOf (db.deviceReadings cutoff key)).lastTs := by
  have hsorted := pairwise_deviceSamples cutoff key db
  unfold deviceReadings
  generalize db.deviceSamples cutoff key = rows at hrow hsorted
  have hnil := List.ne_nil_of_mem hrow
  have : Std.Refl fun a b : TrafficRow => a.ts ≤ b.ts := ⟨fun a => Int.le_refl _⟩
  simp only [totalOf, List.head?_map, List.getLast?_map, List.head?_eq_some_head hnil,
    List.getLast?_eq_some_getLast hnil]
  exact ⟨timeFromColumn_mono (hsorted.rel_head hrow),
    timeFromColumn_mono (hsorted.rel_getLast hrow)⟩

/-! ## The order of insertion -/

/-- A row without its automatic id. -/
def unnumbered (row : TrafficRow) : TrafficRow := { row with id := 0 }

/-- The row of a snapshot, without its automatic id. -/
def storedSample (snapshot : TrafficSnapshot) : TrafficRow where
  id := 0
  mac := cString (lower snapshot.mac)
  ip := cString snapshot.ip
  ts := unixSeconds snapshot.ts
  rxBytes := snapshot.rxBytes.toInt64
  txBytes := snapshot.txBytes.toInt64

/-- The two lists have the same snapshots, and list those of one device and one second in
the same order. -/
def SameSeries (first second : List TrafficSnapshot) : Prop :=
  ∀ key ts, (first.filter fun snapshot =>
      joinKey (storedSample snapshot) = key ∧ unixSeconds snapshot.ts = ts) =
    second.filter fun snapshot =>
      joinKey (storedSample snapshot) = key ∧ unixSeconds snapshot.ts = ts

/-- Samples are appended in the order in which they arrive. -/
theorem run_insertTraffic (snapshots : List TrafficSnapshot) (db : Database) :
    (Runs.run apply db (snapshots.map .insertTraffic)).devices = db.devices ∧
      (Runs.run apply db (snapshots.map .insertTraffic)).trafficSamples.map unnumbered =
        db.trafficSamples.map unnumbered ++ snapshots.map storedSample := by
  induction snapshots generalizing db with
  | nil => simp
  | cons snapshot snapshots ih =>
      obtain ⟨hdevices, hsamples⟩ := ih (db.insertTraffic snapshot)
      refine ⟨hdevices, hsamples.trans ?_⟩
      simp [insertTraffic, unnumbered, storedSample]

/-- The samples of a device at one second are in the order of insertion. -/
theorem Tidy.deviceSamples_at {db : Database} (h : db.Tidy) (cutoff : Int) (key : Str) (t : Int) :
    (((db.deviceSamples cutoff key).map unnumbered).filter fun row => row.ts = t) =
      ((db.trafficSamples.map unnumbered).filter fun row => joinKey row = key ∧ row.ts = t).filter
        fun row => row.ts ≥ cutoff := by
  have htotal := Ranking.total_flip (r := NewestSample)
  have htrans := Ranking.trans_flip (r := NewestSample)
  have hties : Ranking.NoTies (fun a b => NewestSample b a)
      (db.trafficSamples.filter fun row => row.ts ≥ cutoff ∧ joinKey row = key) :=
    (h.keyed.keys.samples_noTies.sublist List.filter_sublist).flip
  rw [List.filter_map, deviceSamples, Ranking.filter_insertionSort hties,
    List.Pairwise.insertionSort_eq]
  · rw [List.filter_filter, List.filter_filter, List.filter_map]
    congr 1
    refine List.filter_congr fun row _ => ?_
    show (decide (row.ts = t) && decide (row.ts ≥ cutoff ∧ joinKey row = key)) =
      (decide (row.ts ≥ cutoff) && decide (joinKey row = key ∧ row.ts = t))
    by_cases hts : row.ts = t <;> by_cases hkey : joinKey row = key <;> simp [hts, hkey]
  · -- at one second the order of the ids decides
    refine List.Pairwise.imp_of_mem ?_ ((h.ordered.filter _).filter _)
    intro a b ha hb hid
    have hat : a.ts = t := of_decide_eq_true (List.mem_filter.mp ha).2
    have hbt : b.ts = t := of_decide_eq_true (List.mem_filter.mp hb).2
    exact Or.inr ⟨hat.trans hbt.symm, hid.le⟩

/-- The readings depend only on the samples of each device at each time. -/
theorem Tidy.deviceReadings_eq {db db' : Database} (h : db.Tidy) (h' : db'.Tidy)
    (hdevices : db'.devices = db.devices)
    (hsamples : ∀ key t,
      ((db'.trafficSamples.map unnumbered).filter fun row => joinKey row = key ∧ row.ts = t) =
        (db.trafficSamples.map unnumbered).filter fun row => joinKey row = key ∧ row.ts = t)
    (cutoff : Int) (key : Str) :
    db'.deviceReadings cutoff key = db.deviceReadings cutoff key := by
  have hread : ∀ db : Database, db.deviceReadings cutoff key =
      ((db.deviceSamples cutoff key).map unnumbered).map
        fun row => reading (db.joinDevice row) := by
    intro db
    rw [List.map_map]
    rfl
  have hsorted : ∀ db : Database, ((db.deviceSamples cutoff key).map unnumbered).Pairwise
      fun a b => a.ts ≤ b.ts := fun db =>
    List.pairwise_map.mpr (pairwise_deviceSamples cutoff key db)
  have hrows : (db'.deviceSamples cutoff key).map unnumbered =
      (db.deviceSamples cutoff key).map unnumbered := by
    refine Ranking.eq_of_sorted_of_filter (hsorted db') (hsorted db) fun t => ?_
    rw [h'.deviceSamples_at, h.deviceSamples_at, hsamples]
  have hjoin : db'.joinDevice = db.joinDevice := by
    funext row
    unfold joinDevice
    rw [hdevices]
  rw [hread, hread, hrows, hjoin]

/-- Databases whose devices have the same readings report the same devices. -/
theorem reportedKeys_perm {db db' : Database} {cutoff : Int}
    (h : ∀ key, db'.deviceReadings cutoff key = db.deviceReadings cutoff key) :
    (db'.reportedKeys cutoff).Perm (db.reportedKeys cutoff) := by
  have hnil : ∀ (db : Database) key, db.deviceSamples cutoff key ≠ [] ↔
      db.deviceReadings cutoff key ≠ [] := fun db key => not_congr List.map_eq_nil_iff.symm
  refine (List.perm_ext_iff_of_nodup (nodup_reportedKeys _ db') (nodup_reportedKeys _ db)).mpr ?_
  intro key
  rw [mem_reportedKeys, mem_reportedKeys, hnil db', hnil db, h]

/-- Databases whose devices have the same readings have the same report. -/
theorem Tidy.perm_report_of_readings {db db' : Database} (h : db.Tidy) (h' : db'.Tidy)
    {now : TimePoint} {hours : Int} {limit : UInt64}
    (hreadings : ∀ key, db'.deviceReadings (windowStart now hours) key =
      db.deviceReadings (windowStart now hours) key)
    (hlimit : limit = 0 ∨ (db.reportedKeys (windowStart now hours)).length ≤ limit.toNat) :
    (db'.deviceTrafficTotals now hours limit).Perm (db.deviceTrafficTotals now hours limit) := by
  have hkeys := reportedKeys_perm hreadings
  rw [h.report_uncut hlimit, h'.report_uncut (hkeys.length_eq ▸ hlimit)]
  refine (h'.perm_report now hours).trans (List.Perm.trans ?_ (h.perm_report now hours).symm)
  simp only [hreadings]
  exact hkeys.map _

/-- Runs that end with the same series leave the same readings. -/
theorem deviceReadings_of_sameSeries (before : List HistoryOp)
    {first second : List TrafficSnapshot} (h : SameSeries first second) (cutoff : Int)
    (key : Str) :
    (Runs.run apply {} (before ++ second.map .insertTraffic)).deviceReadings cutoff key =
      (Runs.run apply {} (before ++ first.map .insertTraffic)).deviceReadings cutoff key := by
  refine (tidy_run _).deviceReadings_eq (tidy_run _) ?_ (fun key t => ?_) cutoff key
  · rw [Runs.run_append, Runs.run_append, (run_insertTraffic _ _).1, (run_insertTraffic _ _).1]
  · have hstored : ∀ snapshots : List TrafficSnapshot,
        ((snapshots.map storedSample).filter fun row => joinKey row = key ∧ row.ts = t) =
          (snapshots.filter fun snapshot =>
            joinKey (storedSample snapshot) = key ∧ unixSeconds snapshot.ts = t).map
              storedSample := fun _ => List.filter_map
    rw [Runs.run_append, Runs.run_append, (run_insertTraffic _ _).2, (run_insertTraffic _ _).2,
      List.filter_append, List.filter_append, hstored, hstored, h key t]

/-- **The totals of a window.**  Over every run of statements on the tables, the report has
one entry for each device with a sample in its window, and the entry is the closed form over
the samples of that device in the order of time and id: the bytes of each direction are the
last readings of the maximal runs of its counter less the first reading, with the
wrap-around of 64-bit arithmetic, next to the number of the samples and the extremes of their
times.  Inserting further samples in another order changes nothing, as long as those of one
device and one second keep theirs. -/
theorem device_totals_of_run (ops : List HistoryOp) (now : TimePoint) (hours : Int)
    (limit : UInt64) :
    let db := Runs.run apply {} ops
    let cutoff := windowStart now hours;
    limit = 0 ∨ (db.reportedKeys cutoff).length ≤ limit.toNat →
      ((db.deviceTrafficTotals now hours limit).Perm
          ((db.reportedKeys cutoff).map fun key => totalOf (db.deviceReadings cutoff key)) ∧
        (db.deviceTrafficTotals now hours limit).Pairwise fun a b => ¬ totalBefore b a) ∧
      ((db.reportedKeys cutoff).Nodup ∧
        ∀ key, key ∈ db.reportedKeys cutoff ↔ key ≠ str "ip:" ∧
          ∃ row ∈ db.trafficSamples, row.ts ≥ cutoff ∧ joinKey row = key) ∧
      (∀ row ∈ db.trafficSamples, row.ts ≥ cutoff →
        (totalOf (db.deviceReadings cutoff (joinKey row))).firstTs ≤ timeFromColumn row.ts ∧
          timeFromColumn row.ts ≤ (totalOf (db.deviceReadings cutoff (joinKey row))).lastTs) ∧
      ∀ before first second, ops = before ++ first.map .insertTraffic → SameSeries first second →
        ((Runs.run apply {} (before ++ second.map .insertTraffic)).deviceTrafficTotals now hours
          limit).Perm (db.deviceTrafficTotals now hours limit) := by
  intro db cutoff hlimit
  have htidy : db.Tidy := tidy_run ops
  have huncut := htidy.report_uncut hlimit
  refine ⟨⟨huncut ▸ htidy.perm_report now hours, ?_⟩, ⟨nodup_reportedKeys _ db, ?_⟩, ?_, ?_⟩
  · rw [huncut, deviceTrafficTotals_zero]
    exact List.pairwise_insertionSort _ _
  · intro key
    rw [mem_reportedKeys]
    refine and_congr_right fun _ => ⟨fun hsome => ?_, ?_⟩
    · obtain ⟨row, hrow⟩ := List.exists_mem_of_ne_nil _ hsome
      exact ⟨row, mem_deviceSamples.mp hrow⟩
    · rintro ⟨row, hrow⟩
      exact List.ne_nil_of_mem (mem_deviceSamples.mpr hrow)
  · exact fun row hrow hwindow =>
      totalOf_extremes db cutoff (mem_deviceSamples.mpr ⟨hrow, hwindow, rfl⟩)
  · rintro before first second rfl hsame
    exact htidy.perm_report_of_readings (tidy_run _)
      (deviceReadings_of_sameSeries before hsame cutoff) hlimit

/-- Two devices in turns, the second of which starts its counters again. -/
def turns : List HistoryOp :=
  [.insertTraffic { mac := str "AA:01", ts := seconds 100, rxBytes := 10, txBytes := 7 },
    .insertTraffic { ip := str "10.0.0.2", ts := seconds 101, rxBytes := 50, txBytes := 1 },
    .insertTraffic { mac := str "AA:01", ts := seconds 105, rxBytes := 25, txBytes := 7 },
    .insertTraffic { ip := str "10.0.0.2", ts := seconds 106, rxBytes := 80, txBytes := 2 },
    .insertTraffic { ip := str "10.0.0.2", ts := seconds 111, rxBytes := 5, txBytes := 3 }]

/-- The counter that starts again counts `80 + 5 - 50` bytes. -/
theorem device_totals_of_run_turns :
    ((Runs.run apply {} turns).reportedKeys (windowStart (seconds 120) 24)).map
        (fun key => (totalOf ((Runs.run apply {} turns).deviceReadings
          (windowStart (seconds 120) 24) key)).rxBytes) = [15, 35] ∧
      ((Runs.run apply {} turns).deviceTrafficTotals (seconds 120) 24 2).Perm
        (((Runs.run apply {} turns).reportedKeys (windowStart (seconds 120) 24)).map fun key =>
          totalOf ((Runs.run apply {} turns).deviceReadings
            (windowStart (seconds 120) 24) key)) :=
  ⟨by decide +kernel,
    (device_totals_of_run turns (seconds 120) 24 2 (Or.inr (by decide +kernel))).1.1⟩

end Database

end Netmon
