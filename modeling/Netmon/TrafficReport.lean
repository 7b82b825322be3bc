import Netmon.DatabaseQueries
import Netmon.Retention

/-!
# Retention and the report of the last 24 hours

The traffic of each device over the last 24 hours is added up from the samples
that are still stored.  The cut by age is no danger to it, since the retention
period is at least a day.  But the cut by number keeps a fixed number of samples
of a device, however little time they cover, and pruning takes the oldest
samples of all.  `report_kept_iff` says exactly when neither touches a sample
that the report counts.

The report skips the samples that have neither a MAC nor an address, and it
counts each other sample of its window once (`samplesCounted_foldl`), so that a lost
sample always shows.
-/

namespace Netmon

namespace Database

/-! ## What the report counts -/

/-- The key under which the report adds up a sample. -/
def reportKey (joined : JoinedSample) : Str :=
  if lower (cString joined.sample.mac) ≠ [] then macKey (lower (cString joined.sample.mac))
  else ipKey (cString joined.ip)

/-- The report has a key for the sample. -/
def Counted (joined : JoinedSample) : Prop := reportKey joined ≠ str "ip:"

instance (joined : JoinedSample) : Decidable (Counted joined) :=
  inferInstanceAs (Decidable (¬ _))

/-- A row that is not counted changes nothing. -/
theorem accumulate_of_not_counted {joined : JoinedSample} (h : ¬ Counted joined)
    (byDevice : StrMap Accumulator) : accumulate byDevice joined = byDevice := by
  exact if_pos (not_not.mp h)

/-- The fold over the samples is the fold over the counted ones. -/
theorem foldl_accumulate_counted (samples : List JoinedSample) (byDevice : StrMap Accumulator) :
    samples.foldl accumulate byDevice =
      (samples.filter fun joined => Counted joined).foldl accumulate byDevice := by
  induction samples generalizing byDevice with
  | nil => rfl
  | cons joined samples ih =>
      rw [List.foldl_cons, ih]
      by_cases h : Counted joined
      · rw [List.filter_cons_of_pos (by simpa using h), List.foldl_cons]
      · rw [List.filter_cons_of_neg (by simpa using h), accumulate_of_not_counted h]

/-- The samples that the report has counted so far. -/
def samplesCounted (byDevice : StrMap Accumulator) : Nat :=
  (byDevice.entries.map fun e => e.2.total.samples).sum

/-- Each counted sample raises the number by one. -/
theorem samplesCounted_accumulate {joined : JoinedSample} (h : Counted joined)
    (byDevice : StrMap Accumulator) :
    samplesCounted (accumulate byDevice joined) = samplesCounted byDevice + 1 := by
  have hinsert : accumulate byDevice joined = byDevice.insert (reportKey joined)
      ((byDevice.getD (reportKey joined) {}).add (lower (cString joined.sample.mac))
        (cString joined.ip) (cString joined.hostname) (timeFromColumn joined.sample.ts)
        joined.sample.rxBytes.toUInt64 joined.sample.txBytes.toUInt64) := if_neg h
  have hadd : ∀ (acc : Accumulator) (mac ip hostname : Str) (ts : TimePoint) (rx tx : UInt64),
      (acc.add mac ip hostname ts rx tx).total.samples = acc.total.samples + 1 := by
    intro acc mac ip hostname ts rx tx
    simp only [Accumulator.add]
    split
    · rfl
    · split <;> rfl
  have hsum := AList.sum_insert (fun acc : Accumulator => acc.total.samples) byDevice
    (reportKey joined) ((byDevice.getD (reportKey joined) {}).add
      (lower (cString joined.sample.mac)) (cString joined.ip) (cString joined.hostname)
      (timeFromColumn joined.sample.ts) joined.sample.rxBytes.toUInt64
      joined.sample.txBytes.toUInt64)
  rw [← hinsert, hadd] at hsum
  have hold : (byDevice.lookup (reportKey joined)).elim 0 (fun acc => acc.total.samples) =
      (byDevice.getD (reportKey joined) {}).total.samples := by
    unfold AList.getD
    cases byDevice.lookup (reportKey joined) <;> rfl
  unfold samplesCounted
  omega

/-- Every counted row is counted once. -/
theorem samplesCounted_foldl {samples : List JoinedSample} (h : ∀ joined ∈ samples, Counted joined)
    (byDevice : StrMap Accumulator) :
    samplesCounted (samples.foldl accumulate byDevice) =
      samplesCounted byDevice + samples.length := by
  induction samples generalizing byDevice with
  | nil => rfl
  | cons joined samples ih =>
      rw [List.foldl_cons, ih fun j hj => h j (List.mem_cons_of_mem _ hj),
        samplesCounted_accumulate (h joined List.mem_cons_self), List.length_cons]
      omega

/-! ## The order of the query -/

/-- The order of the join: by key, and then the oldest first. -/
theorem joinOrder_iff {a b : JoinedSample} :
    JoinOrder a b ↔ joinKey a.sample < joinKey b.sample ∨
      (joinKey a.sample = joinKey b.sample ∧ NewestSample b.sample a.sample) := Iff.rfl

instance : Std.Total JoinOrder := by
  refine ⟨fun a b => ?_⟩
  rw [joinOrder_iff, joinOrder_iff]
  by_cases hab : joinKey a.sample < joinKey b.sample
  · exact Or.inl (Or.inl hab)
  by_cases hba : joinKey b.sample < joinKey a.sample
  · exact Or.inr (Or.inl hba)
  have hkey := List.le_antisymm (List.not_lt.mp hba) (List.not_lt.mp hab)
  rcases Std.Total.total (r := NewestSample) b.sample a.sample with h | h
  · exact Or.inl (Or.inr ⟨hkey, h⟩)
  · exact Or.inr (Or.inr ⟨hkey.symm, h⟩)

instance : IsTrans JoinedSample JoinOrder := by
  refine ⟨fun a b c hab hbc => ?_⟩
  rw [joinOrder_iff] at hab hbc ⊢
  rcases hab with hab | ⟨hab, hsab⟩ <;> rcases hbc with hbc | ⟨hbc, hsbc⟩
  · exact Or.inl (List.lt_trans hab hbc)
  · exact Or.inl (hbc ▸ hab)
  · exact Or.inl (hab ▸ hbc)
  · exact Or.inr ⟨hab.trans hbc, IsTrans.trans _ _ _ hsbc hsab⟩

/-- The order of the query separates samples with different ids. -/
theorem joined_noTies (db : Database) {rows : List TrafficRow}
    (h : Ranking.NoTies NewestSample rows) :
    Ranking.NoTies JoinOrder (rows.map db.joinDevice) := by
  refine List.pairwise_map.mpr (List.Pairwise.imp ?_ h)
  rintro a b hne ⟨hab, hba⟩
  rw [joinOrder_iff] at hab hba
  rcases hab with hab | ⟨hkey, hsab⟩
  · rcases hba with hba | ⟨hkey, -⟩
    · exact List.lt_irrefl _ (List.lt_trans hab hba)
    · exact List.lt_irrefl _ (hkey ▸ hab)
  · rcases hba with hba | ⟨-, hsba⟩
    · exact List.lt_irrefl _ (hkey ▸ hba)
    · exact hne ⟨hsba, hsab⟩

/-! ## The report is made from the counted samples of its window -/

/-- The samples that the report of a window counts. -/
def countedSamples (cutoff : Int) (db : Database) : List TrafficRow :=
  db.trafficSamples.filter fun row => row.ts ≥ cutoff ∧ Counted (db.joinDevice row)

/-- The totals of each device, before they are ordered and cut. -/
def totalsByDevice (cutoff : Int) (db : Database) : StrMap Accumulator :=
  (db.windowSamples cutoff).foldl accumulate ∅

/-- The report walks over the counted samples in the order of the join. -/
theorem PrimaryKeys.totalsByDevice_eq {db : Database} (h : db.PrimaryKeys) (cutoff : Int) :
    db.totalsByDevice cutoff =
      (((db.countedSamples cutoff).map db.joinDevice).insertionSort JoinOrder).foldl
        accumulate ∅ := by
  have hties : Ranking.NoTies JoinOrder
      ((db.trafficSamples.filter fun row => row.ts ≥ cutoff).map db.joinDevice) :=
    db.joined_noTies (h.samples_noTies.sublist List.filter_sublist)
  rw [totalsByDevice, foldl_accumulate_counted, windowSamples,
    Ranking.filter_insertionSort hties, List.filter_map, List.filter_filter]
  congr 3
  refine List.filter_congr fun row _ => ?_
  simp [Function.comp, Bool.and_comm]

/-- The samples that the report walks over are all counted. -/
theorem counted_of_mem {db : Database} {cutoff : Int} {joined : JoinedSample}
    (h : joined ∈ ((db.countedSamples cutoff).map db.joinDevice).insertionSort JoinOrder) :
    Counted joined := by
  obtain ⟨row, hrow, rfl⟩ := List.mem_map.mp ((List.perm_insertionSort _ _).mem_iff.mp h)
  have hcounted := (List.mem_filter.mp hrow).2
  rw [decide_eq_true_eq] at hcounted
  exact hcounted.2

/-- The report counts every counted sample once. -/
theorem PrimaryKeys.samplesCounted_totals {db : Database} (h : db.PrimaryKeys) (cutoff : Int) :
    samplesCounted (db.totalsByDevice cutoff) = (db.countedSamples cutoff).length := by
  rw [h.totalsByDevice_eq, samplesCounted_foldl]
  · rw [List.length_insertionSort, List.length_map]
    exact Nat.zero_add _
  · exact fun joined hjoined => counted_of_mem hjoined

/-- The report without a limit is the totals in order. -/
theorem deviceTrafficTotals_zero (now : TimePoint) (hours : Int) (db : Database) :
    db.deviceTrafficTotals now hours 0 =
      ((db.totalsByDevice (unixSeconds (now - seconds (3600 * hours)))).entries.map
        fun e => e.2.total).insertionSort fun lhs rhs => ¬ totalBefore rhs lhs := by
  simp only [deviceTrafficTotals]
  exact if_neg (by simp)

/-- The report without a limit holds the total of each device once. -/
theorem perm_totals (now : TimePoint) (hours : Int) (db : Database) :
    (db.deviceTrafficTotals now hours 0).Perm
      ((db.totalsByDevice (unixSeconds (now - seconds (3600 * hours)))).entries.map
        fun e => e.2.total) := by
  rw [deviceTrafficTotals_zero]
  exact List.perm_insertionSort _ _

/-- **A lost sample shows.**  The report over a part of the database is the same
for every limit exactly when the part still has every sample that it counts. -/
theorem PrimaryKeys.totals_eq_iff {db db' : Database} (h : db.PrimaryKeys) (hs : Shrinks db db')
    (now : TimePoint) (hours : Int) :
    (∀ limit, db'.deviceTrafficTotals now hours limit = db.deviceTrafficTotals now hours limit) ↔
      ∀ row ∈ db.countedSamples (unixSeconds (now - seconds (3600 * hours))),
        row ∈ db'.trafficSamples := by
  have hjoin : db'.joinDevice = db.joinDevice := by
    funext row
    unfold joinDevice
    rw [hs.devices]
  have hpart : (db'.countedSamples (unixSeconds (now - seconds (3600 * hours)))).Sublist
      (db.countedSamples (unixSeconds (now - seconds (3600 * hours)))) := by
    unfold countedSamples
    rw [hjoin]
    exact hs.samples.filter _
  constructor
  · intro hsame row hrow
    have hperm := (perm_totals now hours db').symm.trans
      ((List.Perm.of_eq (hsame 0)).trans (perm_totals now hours db))
    have hcount := (hperm.map DeviceTrafficTotal.samples).sum_eq
    rw [List.map_map, List.map_map] at hcount
    have hlength : (db'.countedSamples (unixSeconds (now - seconds (3600 * hours)))).length =
        (db.countedSamples (unixSeconds (now - seconds (3600 * hours)))).length := by
      rw [← (h.shrinks hs).samplesCounted_totals, ← h.samplesCounted_totals]
      exact hcount
    rw [← hpart.eq_of_length hlength] at hrow
    exact (List.mem_filter.mp hrow).1
  · intro hkept limit
    have hrows : db'.countedSamples (unixSeconds (now - seconds (3600 * hours))) =
        db.countedSamples (unixSeconds (now - seconds (3600 * hours))) := by
      have hnodup : (db.countedSamples (unixSeconds (now - seconds (3600 * hours)))).Nodup :=
        h.samples_noTies.nodup.sublist List.filter_sublist
      refine hpart.eq_of_length_le (hnodup.subperm fun row hrow => ?_).length_le
      refine List.mem_filter.mpr ⟨hkept row hrow, ?_⟩
      rw [hjoin]
      exact (List.mem_filter.mp hrow).2
    have htotals : db'.totalsByDevice (unixSeconds (now - seconds (3600 * hours))) =
        db.totalsByDevice (unixSeconds (now - seconds (3600 * hours))) := by
      rw [(h.shrinks hs).totalsByDevice_eq, h.totalsByDevice_eq, hrows, hjoin]
    unfold totalsByDevice at htotals
    simp only [deviceTrafficTotals, htotals]

/-! ## The samples that retention keeps -/

/-- The samples within the retention period and the limit of their device. -/
def trimmedSamples (config : Config) (now : TimePoint) (db : Database) : List TrafficRow :=
  db.trafficSamples.filter fun row => ¬ row.ts < retentionCutoff config now ∧
    db.rowNumber row ≤ boundLimit (max 1 config.sqliteMaxTrafficPointsPerDevice)

/-- What the cuts leave of the samples. -/
theorem PrimaryKeys.trafficSamples_trimHistory {db : Database} (h : db.PrimaryKeys)
    (config : Config) (now : TimePoint) :
    (db.trimHistory config now).trafficSamples = db.trimmedSamples config now := by
  rw [(h.trimHistory_tables config now).2.2, Ranking.keepEach, List.filter_filter, trimmedSamples]
  refine List.filter_congr fun row hrow => ?_
  by_cases hold : row.ts < retentionCutoff config now
  · simp [hold]
  · -- rows newer than a row above the cutoff are above it too
    have hrank : Ranking.rankIn NewestSample samplePartition
        (db.trafficSamples.filter fun row => ¬ row.ts < retentionCutoff config now) row =
          Ranking.rankIn NewestSample samplePartition db.trafficSamples row := by
      rw [Ranking.rankIn, Ranking.rankIn, List.countP_filter]
      refine List.countP_congr fun other _ => ?_
      have hnewer : NewestSample other row → ¬ other.ts < retentionCutoff config now := by
        rintro (hlt | ⟨heq, -⟩) <;> omega
      simp only [Bool.and_eq_true, decide_eq_true_eq]
      exact ⟨fun hboth => hboth.1, fun hsame => ⟨hsame, hnewer hsame.2⟩⟩
    have hlimit := rowNumber_gt_iff hrow (max 1 config.sqliteMaxTrafficPointsPerDevice)
    have hlimit' : db.rowNumber row ≤ boundLimit (max 1 config.sqliteMaxTrafficPointsPerDevice) ↔
        Ranking.rankIn NewestSample samplePartition db.trafficSamples row ≤
          quotaOf (max 1 config.sqliteMaxTrafficPointsPerDevice) := by
      rw [← not_lt, ← not_lt]
      exact not_congr hlimit
    rw [hrank]
    simp [hold, hlimit']

/-- How many rounds of pruning the size readings lead to. -/
def roundsRun (maxBytes : Int) (bytes : Nat → Int) : Nat → Nat → Nat
  | 0, _ => 0
  | rounds + 1, reading =>
      if bytes reading > maxBytes then roundsRun maxBytes bytes rounds (reading + 1) + 1 else 0

/-- The rounds of pruning of a pass. -/
def sizeRounds (config : Config) (bytes : Nat → Int) : Nat :=
  if bytes 0 ≤ max 1 config.sqliteMaxDbMb * 1024 * 1024 then 0
  else roundsRun (max 1 config.sqliteMaxDbMb * 1024 * 1024) bytes 12 1

/-- The loop is a number of rounds. -/
theorem pruneRounds_eq (maxBytes : Int) (bytes : Nat → Int) (rounds reading : Nat)
    (db : Database) :
    pruneRounds maxBytes bytes rounds reading db =
      pruneRound^[roundsRun maxBytes bytes rounds reading] db := by
  induction rounds generalizing reading db with
  | zero => rfl
  | succ rounds ih =>
      rw [pruneRounds, roundsRun]
      split
      · rw [ih, Function.iterate_succ_apply]
      · rfl

/-- The size limit is a number of rounds. -/
theorem enforceSizeLimit_eq (config : Config) (bytes : Nat → Int) (db : Database) :
    db.enforceSizeLimit config bytes = pruneRound^[sizeRounds config bytes] db := by
  rw [enforceSizeLimit, sizeRounds]
  split
  · rfl
  · exact pruneRounds_eq _ _ _ _ _

/-- A round takes away the thousand oldest samples. -/
theorem PrimaryKeys.trafficSamples_pruneRound {db : Database} (h : db.PrimaryKeys) :
    db.pruneRound.trafficSamples = db.trafficSamples.filter fun row =>
      ¬ Ranking.rankLast NewestSample db.trafficSamples row ≤ 1000 := by
  rw [← filter_ids h.samples fun row => Ranking.mem_take_last_iff h.samples_noTies]
  rfl

/-- Each round of pruning takes the thousand oldest samples. -/
theorem PrimaryKeys.mem_pruned_iff {db : Database} (h : db.PrimaryKeys) (rounds : Nat)
    {row : TrafficRow} :
    row ∈ (pruneRound^[rounds] db).trafficSamples ↔
      row ∈ db.trafficSamples ∧
        1000 * rounds < Ranking.rankLast NewestSample db.trafficSamples row := by
  induction rounds generalizing db with
  | zero => exact ⟨fun hrow => ⟨hrow, Ranking.rankLast_pos hrow⟩, And.left⟩
  | succ rounds ih =>
      rw [Function.iterate_succ_apply, ih (h.shrinks (shrinks_pruneRound db)),
        h.trafficSamples_pruneRound, List.mem_filter, decide_eq_true_eq, and_assoc]
      refine and_congr_right fun hrow => ?_
      constructor
      · rintro ⟨hover, hrest⟩
        have hadd := Ranking.rankLast_filter_add h.samples_noTies hrow (not_le.mp hover)
        omega
      · intro hover
        have hthousand : 1000 < Ranking.rankLast NewestSample db.trafficSamples row := by omega
        have hadd := Ranking.rankLast_filter_add h.samples_noTies hrow hthousand
        omega

/-- **The samples that survive.**  A sample survives a retention pass when it is
within the period and the limit of its device, and enough such samples are as
old or older for the rounds of pruning to stop before it. -/
theorem PrimaryKeys.mem_retained_iff {db : Database} (h : db.PrimaryKeys) (config : Config)
    (now : TimePoint) (bytes : Nat → Int) {row : TrafficRow} :
    row ∈ (db.applyRetention config now bytes).trafficSamples ↔
      row ∈ db.trimmedSamples config now ∧ 1000 * sizeRounds config bytes <
        Ranking.rankLast NewestSample (db.trimmedSamples config now) row := by
  rw [applyRetention_eq, enforceSizeLimit_eq,
    (h.shrinks (db.shrinks_trimHistory config now)).mem_pruned_iff, h.trafficSamples_trimHistory]

/-! ## The report of the last 24 hours -/

/-- Every sample that the report of the last 24 hours counts is one of the
newest of its device, up to the limit, and is not reached by pruning. -/
def ReportSafe (config : Config) (now : TimePoint) (bytes : Nat → Int) (db : Database) : Prop :=
  ∀ row ∈ db.countedSamples (unixSeconds (now - seconds (3600 * 24))),
    db.rowNumber row ≤ boundLimit (max 1 config.sqliteMaxTrafficPointsPerDevice) ∧
      1000 * sizeRounds config bytes <
        Ranking.rankLast NewestSample (db.trimmedSamples config now) row

instance (config : Config) (now : TimePoint) (bytes : Nat → Int) (db : Database) :
    Decidable (ReportSafe config now bytes db) :=
  inferInstanceAs (Decidable (∀ _ ∈ _, _))

/-- The retention period covers the window of the report. -/
theorem retentionCutoff_le (config : Config) (now : TimePoint) :
    retentionCutoff config now ≤ unixSeconds (now - seconds (3600 * 24)) := by
  have hperiod : seconds (3600 * 24) ≤
      seconds (3600 * (24 * max 1 config.sqliteRetentionDays)) := by
    unfold seconds
    omega
  exact unixSeconds_mono (Int.sub_le_sub_left hperiod now)

/-- **Exactly when retention leaves the report alone.**  The totals of the last
24 hours are the same before and after a retention pass at the same time, for
every limit of the report, if and only if every sample they count is within the
limit of its device and out of the reach of pruning. -/
theorem report_kept_iff (db : Database) (hkeys : db.PrimaryKeys) (config : Config)
    (now : TimePoint) (bytes : Nat → Int) :
    (∀ limit, (db.applyRetention config now bytes).deviceTrafficTotals now 24 limit =
      db.deviceTrafficTotals now 24 limit) ↔ ReportSafe config now bytes db := by
  rw [hkeys.totals_eq_iff (db.shrinks_applyRetention config now bytes)]
  refine forall_congr' fun row => forall_congr' fun hrow => ?_
  obtain ⟨hstored, hwindow⟩ := List.mem_filter.mp hrow
  rw [decide_eq_true_eq] at hwindow
  have hfresh : ¬ row.ts < retentionCutoff config now :=
    not_lt.mpr ((retentionCutoff_le config now).trans hwindow.1)
  rw [hkeys.mem_retained_iff, trimmedSamples, List.mem_filter, decide_eq_true_eq]
  exact and_congr_left fun _ => ⟨fun h => h.2.2, fun h => ⟨hstored, hfresh, h⟩⟩

/-- Under the default limits the report on `crowded` is not touched. -/
theorem report_kept_iff_crowded :
    ((crowded.deviceTrafficTotals (seconds 1000002) 24 0).map fun total =>
        (total.mac, total.rxBytes, total.samples)) =
      [(str "aa:01", 5, 2), ([], 0, 1)] ∧
      (crowded.applyRetention {} (seconds 1000002) fun _ => 0).deviceTrafficTotals
        (seconds 1000002) 24 0 = crowded.deviceTrafficTotals (seconds 1000002) 24 0 :=
  ⟨by decide +kernel,
    (report_kept_iff crowded (by decide +kernel) {} (seconds 1000002) fun _ => 0).mpr
      (by decide +kernel) 0⟩

/-- A limit of one sample for each device: the traffic between the two samples
of the window is gone from the report. -/
theorem report_loses_traffic :
    let after := crowded.applyRetention newestOnly (seconds 1000002) fun _ => 0
    crowded.PrimaryKeys ∧
      (crowded.deviceTrafficTotals (seconds 1000002) 24 0).map DeviceTrafficTotal.rxBytes =
        [5, 0] ∧
      (after.deviceTrafficTotals (seconds 1000002) 24 0).map DeviceTrafficTotal.rxBytes =
        [0, 0] ∧
      after.deviceTrafficTotals (seconds 1000002) 24 0 ≠
        crowded.deviceTrafficTotals (seconds 1000002) 24 0 := by
  refine ⟨by decide +kernel, by decide +kernel, by decide +kernel, by decide +kernel⟩

end Database

end Netmon
