import Netmon.DatabaseQueries
import Netmon.EventRetention
import Netmon.GroupMaxima
import Netmon.RateDecision

/-!
# The rates of the traffic history

The history walks over the newest samples in the order of time and adds the rate of each
sample, since the sample before it of the same device, to the bucket of five seconds that the
sample falls into.  So a bucket is the sum over all steps of all devices that end in it
(`bucketAt_rates`).  Rates of several devices are to be added, but those of one device are
not: two samples of a device in one bucket count its rate twice.  `history_true_iff` says that
this is the only way in which the history shows more than the devices' own rates.
-/

namespace Netmon

namespace Database

/-! ## Steps of a device -/

/-- The device of a sample in the walk. -/
def walkKey (row : TrafficRow) : Str := sampleKey (cString row.mac) (cString row.ip)

/-- The stored counter of received bytes, as it was reported. -/
def rxCounter (row : TrafficRow) : UInt64 := row.rxBytes.toUInt64

/-- The stored counter of sent bytes, as it was reported. -/
def txCounter (row : TrafficRow) : UInt64 := row.txBytes.toUInt64

/-- Two consecutive samples of a device. -/
structure SampleStep where
  previous : TrafficRow
  current : TrafficRow

namespace SampleStep

/-- The device of a step. -/
def device (step : SampleStep) : Str := walkKey step.current

/-- The bucket that the step ends in. -/
def bucket (step : SampleStep) : Int := bucketTs step.current.ts

/-- The step takes time and neither counter goes down. -/
def Rated (step : SampleStep) : Prop :=
  step.previous.ts < step.current.ts ∧ rxCounter step.previous ≤ rxCounter step.current ∧
    txCounter step.previous ≤ txCounter step.current

instance (step : SampleStep) : Decidable step.Rated := inferInstanceAs (Decidable (_ ∧ _))

/-- The counter has grown over the step. -/
def Grows (counter : TrafficRow → UInt64) (step : SampleStep) : Prop :=
  counter step.previous < counter step.current

/-- The bits per second that a counter has grown by. -/
def rate (counter : TrafficRow → UInt64) (step : SampleStep) : ℚ :=
  (((counter step.current).toNat - (counter step.previous).toNat : ℕ) : ℚ) * 8 /
    ((step.current.ts - step.previous.ts : Int) : ℚ)

end SampleStep

/-- The last sample of a device among some samples. -/
def lastOf (key : Str) (rows : List TrafficRow) : Option TrafficRow :=
  (rows.filter fun row => walkKey row = key).getLast?

/-- The step that a sample ends, if its device has a sample before it. -/
def stepAt (before : List TrafficRow) (row : TrafficRow) : Option SampleStep :=
  if walkKey row = str "ip:" then none
  else (lastOf (walkKey row) before).map fun previous => ⟨previous, row⟩

/-- The steps that samples end, with the samples before them. -/
def stepsFrom (before : List TrafficRow) : List TrafficRow → List SampleStep
  | [] => []
  | row :: rest => (stepAt before row).toList ++ stepsFrom (before ++ [row]) rest

/-- The steps of all devices that have a rate. -/
def ratedSteps (rows : List TrafficRow) : List SampleStep :=
  (stepsFrom [] rows).filter fun step => step.Rated

/-- The two ends of a step are samples. -/
theorem mem_stepsFrom {before rows : List TrafficRow} {step : SampleStep}
    (h : step ∈ stepsFrom before rows) :
    step.previous ∈ before ++ rows ∧ step.current ∈ before ++ rows := by
  induction rows generalizing before with
  | nil => cases h
  | cons row rest ih =>
      rcases List.mem_append.mp h with hhere | hlater
      · rw [Option.mem_toList, stepAt] at hhere
        split at hhere
        · cases hhere
        · obtain ⟨previous, hprevious, rfl⟩ := Option.map_eq_some_iff.mp hhere
          have hbefore := (List.mem_filter.mp (List.mem_of_getLast? hprevious)).1
          exact ⟨List.mem_append_left _ hbefore, List.mem_append_right _ List.mem_cons_self⟩
      · have := ih hlater
        rwa [List.append_assoc, List.singleton_append] at this

/-! ## The walk -/

/-- What the walk remembers of a sample. -/
def previousSample (row : TrafficRow) : PreviousSample :=
  ⟨fromUnixSeconds row.ts, rxCounter row, txCounter row⟩

/-- Differences of stored times are whole seconds. -/
theorem inSeconds_fromUnixSeconds (a b : Int) :
    inSeconds (fromUnixSeconds a - fromUnixSeconds b) = ((a - b : Int) : ℚ) := by
  unfold inSeconds fromUnixSeconds seconds
  push_cast
  ring

/-- The rates that the walk computes are those of the step, if it has one. -/
theorem sampleRates_eq (step : SampleStep) :
    sampleRates (previousSample step.previous) (fromUnixSeconds step.current.ts)
        (rxCounter step.current) (txCounter step.current) =
      if step.Rated then some (step.rate rxCounter, step.rate txCounter) else none := by
  have hdelta : inSeconds (fromUnixSeconds step.current.ts - fromUnixSeconds step.previous.ts) =
      ((step.current.ts - step.previous.ts : Int) : ℚ) := inSeconds_fromUnixSeconds _ _
  have hrated : (((step.current.ts - step.previous.ts : Int) : ℚ) > 0 ∧
      ¬ (rxCounter step.current < rxCounter step.previous ∨
        txCounter step.current < txCounter step.previous)) ↔ step.Rated := by
    rw [not_or, UInt64.not_lt, UInt64.not_lt, gt_iff_lt, Int.cast_pos, sub_pos]
    rfl
  simp only [sampleRates, previousSample, hdelta, hrated]
  by_cases h : step.Rated
  · rw [if_pos h, if_pos h, StateStore.rateBps_of_le h.2.1, StateStore.rateBps_of_le h.2.2]
    rfl
  · rw [if_neg h, if_neg h]

/-- Add a step to its bucket. -/
def addStep (bucket : Bucket) (step : SampleStep) : Bucket :=
  bucket.add (step.rate rxCounter, step.rate txCounter)

/-- The walk has the last sample of each device. -/
def Follows (walk : HistoryWalk) (before : List TrafficRow) : Prop :=
  ∀ key, key ≠ str "ip:" →
    walk.previousByDevice.lookup key = (lastOf key before).map previousSample

/-- A further sample is the last one of its device. -/
theorem lastOf_concat (key : Str) (before : List TrafficRow) (row : TrafficRow) :
    lastOf key (before ++ [row]) = if walkKey row = key then some row else lastOf key before := by
  by_cases h : walkKey row = key <;> simp [lastOf, List.filter_append, h]

/-- The walk goes on remembering the last sample of each device. -/
theorem Follows.walkSample {walk : HistoryWalk} {before : List TrafficRow}
    (h : Follows walk before) (row : TrafficRow) :
    Follows (walkSample walk row) (before ++ [row]) := by
  intro key hkey
  rw [lastOf_concat]
  by_cases hrow : walkKey row = str "ip:"
  · have hsame : Database.walkSample walk row = walk := if_pos hrow
    rw [hsame, if_neg fun hwalk => hkey (hwalk.symm.trans hrow)]
    exact h key hkey
  · have hprevious : (Database.walkSample walk row).previousByDevice =
        walk.previousByDevice.insert (walkKey row) (previousSample row) :=
      congrArg HistoryWalk.previousByDevice (if_neg hrow)
    rw [hprevious, AList.lookup_insert_if]
    by_cases hsame : walkKey row = key
    · rw [if_pos hsame.symm, if_pos hsame]
      rfl
    · rw [if_neg (Ne.symm hsame), if_neg hsame]
      exact h key hkey

/-- A sample goes into its bucket if it ends a step with a rate. -/
theorem Follows.buckets_walkSample {walk : HistoryWalk} {before : List TrafficRow}
    (h : Follows walk before) (row : TrafficRow) :
    (Database.walkSample walk row).buckets =
      walk.buckets.foldByKey SampleStep.bucket addStep {}
        ((stepAt before row).toList.filter fun step => step.Rated) := by
  by_cases hrow : walkKey row = str "ip:"
  · have hsame : Database.walkSample walk row = walk := if_pos hrow
    rw [hsame, stepAt, if_pos hrow]
    rfl
  · have hlast : walk.previousByDevice.lookup (sampleKey (cString row.mac) (cString row.ip)) =
        (lastOf (walkKey row) before).map previousSample := h _ hrow
    have hkey : ¬ sampleKey (cString row.mac) (cString row.ip) = str "ip:" := hrow
    unfold Database.walkSample
    dsimp only
    rw [if_neg hkey, hlast, stepAt, if_neg hrow]
    cases lastOf (walkKey row) before with
    | none => rfl
    | some previous =>
        have hrates := sampleRates_eq ⟨previous, row⟩
        change sampleRates _ _ row.rxBytes.toUInt64 row.txBytes.toUInt64 = _ at hrates
        rw [Option.map_some, Option.bind_some, hrates, Option.map_some, Option.toList_some]
        by_cases hrated : (SampleStep.mk previous row).Rated
        · rw [if_pos hrated, List.filter_cons_of_pos (by simpa using hrated)]
          rfl
        · rw [if_neg hrated, List.filter_cons_of_neg (by simpa using hrated)]
          rfl

/-- **The buckets of a walk** hold the steps with a rate. -/
theorem Follows.buckets_foldl {walk : HistoryWalk} {before : List TrafficRow}
    (h : Follows walk before) (rows : List TrafficRow) :
    (rows.foldl Database.walkSample walk).buckets =
      walk.buckets.foldByKey SampleStep.bucket addStep {}
        ((stepsFrom before rows).filter fun step => step.Rated) := by
  induction rows generalizing walk before with
  | nil => rfl
  | cons row rest ih =>
      rw [List.foldl_cons, ih (h.walkSample row), h.buckets_walkSample row, stepsFrom,
        List.filter_append, AList.foldByKey, AList.foldByKey, AList.foldByKey, List.foldl_append]

/-! ## The rates of a bucket -/

/-- The bucket of the history that starts at a second. -/
def bucketAt (limit : UInt64) (start : Int) (db : Database) : Bucket :=
  ((db.historyRows limit).foldl walkSample {}).buckets.getD start {}

/-- The steps with a rate that end in a bucket. -/
def stepsIn (start : Int) (rows : List TrafficRow) : List SampleStep :=
  (ratedSteps rows).filter fun step => step.bucket = start

/-- The rates of a bucket are the sums of the rates of its steps. -/
theorem foldl_addStep (steps : List SampleStep) (bucket : Bucket) :
    (steps.foldl addStep bucket).rxRateBps =
        bucket.rxRateBps + (steps.map (SampleStep.rate rxCounter)).sum ∧
      (steps.foldl addStep bucket).txRateBps =
        bucket.txRateBps + (steps.map (SampleStep.rate txCounter)).sum := by
  induction steps generalizing bucket with
  | nil => simp
  | cons step steps ih =>
      obtain ⟨hrx, htx⟩ := ih (addStep bucket step)
      rw [List.foldl_cons, hrx, htx, List.map_cons, List.map_cons, List.sum_cons, List.sum_cons,
        ← add_assoc, ← add_assoc]
      exact ⟨rfl, rfl⟩

/-- A bucket is there if a step ends in it, and holds its steps. -/
theorem lookup_buckets (rows : List TrafficRow) (start : Int) :
    (rows.foldl walkSample {}).buckets.lookup start =
      if stepsIn start rows = [] then none
      else some ((stepsIn start rows).foldl addStep {}) := by
  have hfollows : Follows {} [] := fun key _ => rfl
  rw [hfollows.buckets_foldl, AList.lookup_foldByKey]
  rfl

/-- **The rates of a bucket** are the sums over the steps that end in it. -/
theorem bucketAt_rates (limit : UInt64) (start : Int) (db : Database) :
    (db.bucketAt limit start).rxRateBps =
        ((stepsIn start (db.historyRows limit)).map (SampleStep.rate rxCounter)).sum ∧
      (db.bucketAt limit start).txRateBps =
        ((stepsIn start (db.historyRows limit)).map (SampleStep.rate txCounter)).sum := by
  rw [bucketAt, AList.getD, lookup_buckets]
  by_cases hnil : stepsIn start (db.historyRows limit) = []
  · rw [if_pos hnil, hnil]
    exact ⟨rfl, rfl⟩
  · rw [if_neg hnil, Option.getD_some]
    obtain ⟨hrx, htx⟩ := foldl_addStep (stepsIn start (db.historyRows limit)) {}
    rw [hrx, htx]
    exact ⟨zero_add _, zero_add _⟩

/-- A point of the history is a bucket in which a step ends. -/
theorem point_of_history {limit : UInt64} {db : Database} {point : TrafficHistoryPoint}
    (h : point ∈ db.trafficHistory limit) :
    ∃ start, stepsIn start (db.historyRows limit) ≠ [] ∧
      point.rxRateBps = (db.bucketAt limit start).rxRateBps := by
  obtain ⟨⟨start, bucket⟩, hentry, rfl⟩ := List.mem_map.mp (List.mem_of_mem_drop h)
  have hlookup := AList.mem_entries_iff.mp ((List.perm_insertionSort _ _).mem_iff.mp hentry)
  refine ⟨start, fun hnil => ?_, ?_⟩
  · rw [lookup_buckets, if_pos hnil] at hlookup
    cases hlookup
  · rw [bucketAt, AList.getD, hlookup]
    rfl

/-- The steps of a bucket have a rate. -/
theorem rated_of_mem {rows : List TrafficRow} {start : Int} {step : SampleStep}
    (h : step ∈ stepsIn start rows) : step.Rated :=
  of_decide_eq_true (List.mem_filter.mp (List.mem_filter.mp h).1).2

/-- A step with a rate takes time. -/
theorem SampleStep.Rated.time_pos {step : SampleStep} (h : step.Rated) :
    (0 : ℚ) < ((step.current.ts - step.previous.ts : Int) : ℚ) :=
  Int.cast_pos.mpr (sub_pos.mpr h.1)

/-- A rate is not negative. -/
theorem SampleStep.Rated.rate_nonneg {step : SampleStep} (h : step.Rated)
    (counter : TrafficRow → UInt64) : 0 ≤ step.rate counter :=
  div_nonneg (mul_nonneg (Nat.cast_nonneg _) (by norm_num)) h.time_pos.le

/-- A step has a positive rate when its counter grows. -/
theorem SampleStep.Rated.rate_pos_iff {step : SampleStep} (h : step.Rated)
    (counter : TrafficRow → UInt64) : 0 < step.rate counter ↔ step.Grows counter := by
  rw [rate, div_pos_iff_of_pos_right h.time_pos, mul_pos_iff_of_pos_right (by norm_num),
    Nat.cast_pos, Nat.sub_pos_iff_lt, ← UInt64.lt_iff_toNat_lt]
  rfl

/-! ## True rates -/

/-- The sum over the devices of the largest rate of a step that ends in the bucket. -/
def largestRates (counter : TrafficRow → UInt64) (start : Int) (rows : List TrafficRow) : ℚ :=
  GroupMaxima.groupLargest SampleStep.device (SampleStep.rate counter) (stepsIn start rows)

/-- The samples of one device, at different seconds, whose counters do not go down and whose
received bytes grow by `r` bits per second. -/
def Steady (r : ℚ) (rows : List TrafficRow) : Prop :=
  (∀ a ∈ rows, ∀ b ∈ rows, walkKey a = walkKey b) ∧
    rows.Pairwise (fun a b => a.ts ≠ b.ts) ∧
    ∀ a ∈ rows, ∀ b ∈ rows, a.ts < b.ts →
      rxCounter a ≤ rxCounter b ∧ txCounter a ≤ txCounter b ∧
        (((rxCounter b).toNat - (rxCounter a).toNat : ℕ) : ℚ) * 8 = r * ((b.ts - a.ts : Int) : ℚ)

instance (r : ℚ) (rows : List TrafficRow) : Decidable (Steady r rows) :=
  inferInstanceAs (Decidable (_ ∧ _ ∧ _))

/-- The history shows the rates of the devices: the rate of a steady device at every point,
and in no bucket more than the largest rates of the devices together. -/
structure TrueRates (limit : UInt64) (db : Database) : Prop where
  steady : ∀ r, Steady r db.trafficSamples →
    db.trafficSamples.length ≤ max (historyWanted limit * 12) (historyWanted limit) →
      ∀ point ∈ db.trafficHistory limit, point.rxRateBps = r
  bounded : ∀ start,
    (db.bucketAt limit start).rxRateBps ≤ largestRates rxCounter start (db.historyRows limit) ∧
      (db.bucketAt limit start).txRateBps ≤ largestRates txCounter start (db.historyRows limit)

/-- No device has two steps that end in one bucket and over which the same counter grows. -/
def OncePerBucket (rows : List TrafficRow) : Prop :=
  (ratedSteps rows).Pairwise fun a b => a.device = b.device → a.bucket = b.bucket →
    ¬ (a.Grows rxCounter ∧ b.Grows rxCounter) ∧ ¬ (a.Grows txCounter ∧ b.Grows txCounter)

/-- The steps of one bucket at which a counter grows are of different devices. -/
theorem sum_le_largestRates_iff (counter : TrafficRow → UInt64) (start : Int)
    (rows : List TrafficRow) :
    ((stepsIn start rows).map (SampleStep.rate counter)).sum ≤ largestRates counter start rows ↔
      (stepsIn start rows).Pairwise fun a b => a.device = b.device →
        ¬ (a.Grows counter ∧ b.Grows counter) := by
  have hnonneg : ∀ step ∈ stepsIn start rows, 0 ≤ step.rate counter := fun step hstep =>
    (rated_of_mem hstep).rate_nonneg counter
  rw [largestRates, GroupMaxima.sum_le_groupLargest_iff hnonneg]
  refine List.Pairwise.iff_of_mem fun {a b} ha hb => ?_
  rw [(rated_of_mem ha).rate_pos_iff, (rated_of_mem hb).rate_pos_iff]

/-- The condition for each bucket on its own. -/
theorem oncePerBucket_iff (rows : List TrafficRow) :
    OncePerBucket rows ↔ ∀ start,
      (stepsIn start rows).Pairwise (fun a b => a.device = b.device →
        ¬ (a.Grows rxCounter ∧ b.Grows rxCounter)) ∧
      (stepsIn start rows).Pairwise (fun a b => a.device = b.device →
        ¬ (a.Grows txCounter ∧ b.Grows txCounter)) := by
  constructor
  · intro h start
    rw [stepsIn, List.pairwise_filter, List.pairwise_filter]
    refine ⟨h.imp ?_, h.imp ?_⟩
    · intro a b honce ha hb hdevice
      exact (honce hdevice ((of_decide_eq_true ha).trans (of_decide_eq_true hb).symm)).1
    · intro a b honce ha hb hdevice
      exact (honce hdevice ((of_decide_eq_true ha).trans (of_decide_eq_true hb).symm)).2
  · intro h
    refine List.pairwise_iff_forall_sublist.mpr fun {a b} hab hdevice hbucket => ?_
    have hsub : [a, b].Sublist (stepsIn a.bucket rows) := by
      have := hab.filter fun step => decide (step.bucket = a.bucket)
      simpa [stepsIn, hbucket.symm] using this
    obtain ⟨hrx, htx⟩ := h a.bucket
    exact ⟨List.pairwise_iff_forall_sublist.mp hrx hsub hdevice,
      List.pairwise_iff_forall_sublist.mp htx hsub hdevice⟩

/-- The samples that the history reads are stored. -/
theorem mem_historyRows {limit : UInt64} {db : Database} {row : TrafficRow}
    (h : row ∈ db.historyRows limit) : row ∈ db.trafficSamples :=
  (List.perm_insertionSort _ _).mem_iff.mp
    (List.mem_of_mem_take ((List.perm_insertionSort _ _).mem_iff.mp h))

/-- Every step of a steady device has its rate, and ends at its device. -/
theorem Steady.rate_of_mem {r : ℚ} {limit : UInt64} {db : Database}
    (h : Steady r db.trafficSamples) {start : Int} {step : SampleStep}
    (hstep : step ∈ stepsIn start (db.historyRows limit)) :
    step.rate rxCounter = r ∧ step.current ∈ db.trafficSamples := by
  have hrated := rated_of_mem hstep
  obtain ⟨hprevious, hcurrent⟩ :=
    mem_stepsFrom (List.mem_filter.mp (List.mem_filter.mp hstep).1).1
  rw [List.nil_append] at hprevious hcurrent
  obtain ⟨-, -, hgrowth⟩ := h.2.2 _ (mem_historyRows hprevious) _ (mem_historyRows hcurrent)
    hrated.1
  refine ⟨?_, mem_historyRows hcurrent⟩
  rw [SampleStep.rate, hgrowth, mul_div_assoc, div_self hrated.time_pos.ne', mul_one]

/-- Steps of a steady device that do not share a bucket show its rate. -/
theorem Steady.sum_rates {r : ℚ} {limit : UInt64} {db : Database}
    (h : Steady r db.trafficSamples) {start : Int}
    (honce : (stepsIn start (db.historyRows limit)).Pairwise fun a b => a.device = b.device →
      ¬ (a.Grows rxCounter ∧ b.Grows rxCounter))
    (hsome : stepsIn start (db.historyRows limit) ≠ []) :
    ((stepsIn start (db.historyRows limit)).map (SampleStep.rate rxCounter)).sum = r := by
  have hrates : ∀ step ∈ stepsIn start (db.historyRows limit), step.rate rxCounter = r :=
    fun step hstep => (h.rate_of_mem hstep).1
  rw [List.map_congr_left hrates, List.map_const', List.sum_replicate]
  by_cases hzero : r = 0
  · rw [hzero, smul_zero]
  · -- every step grows, so that there is only one
    have hone : (stepsIn start (db.historyRows limit)).length = 1 := by
      have hshort : (stepsIn start (db.historyRows limit)).Pairwise fun _ _ => False := by
        refine List.Pairwise.imp_of_mem (fun {a b} ha hb hab => ?_) honce
        have hgrows : ∀ step ∈ stepsIn start (db.historyRows limit), step.Grows rxCounter := by
          intro step hstep
          have hrated := rated_of_mem hstep
          rw [← hrated.rate_pos_iff]
          exact lt_of_le_of_ne (hrated.rate_nonneg _) fun hnone =>
            hzero ((hrates step hstep).symm.trans hnone.symm)
        exact hab (h.1 _ (h.rate_of_mem ha).2 _ (h.rate_of_mem hb).2) ⟨hgrows a ha, hgrows b hb⟩
      match hlist : stepsIn start (db.historyRows limit) with
      | [] => exact absurd hlist hsome
      | [step] => rfl
      | a :: b :: rest =>
          rw [hlist] at hshort
          exact ((List.pairwise_cons.mp hshort).1 b List.mem_cons_self).elim
    rw [hone, one_smul]

/-- **Exactly when the history is true.**  It shows the rate of a steady device at every point,
and in no bucket more than the largest rates of the devices together, if and only if no device
has two steps that end in one bucket and over which the same counter grows. -/
theorem history_true_iff (limit : UInt64) (db : Database) :
    TrueRates limit db ↔ OncePerBucket (db.historyRows limit) := by
  have hbounded : (∀ start,
      (db.bucketAt limit start).rxRateBps ≤ largestRates rxCounter start (db.historyRows limit) ∧
        (db.bucketAt limit start).txRateBps ≤
          largestRates txCounter start (db.historyRows limit)) ↔
      OncePerBucket (db.historyRows limit) := by
    rw [oncePerBucket_iff]
    refine forall_congr' fun start => ?_
    obtain ⟨hrx, htx⟩ := db.bucketAt_rates limit start
    rw [hrx, htx, sum_le_largestRates_iff, sum_le_largestRates_iff]
  constructor
  · exact fun h => hbounded.mp h.bounded
  · intro honce
    refine ⟨fun r hsteady _ point hpoint => ?_, hbounded.mpr honce⟩
    obtain ⟨start, hsome, hrate⟩ := point_of_history hpoint
    rw [hrate, (db.bucketAt_rates limit start).1]
    exact hsteady.sum_rates ((oncePerBucket_iff _).mp honce start).1 hsome

/-- A device that receives 125 bytes in each of two seconds. -/
def steadySeconds : Database :=
  Runs.run apply {}
    [.insertTraffic { mac := str "aa:01", ts := seconds 100, rxBytes := 0, txBytes := 0 },
      .insertTraffic { mac := str "aa:01", ts := seconds 101, rxBytes := 125, txBytes := 0 },
      .insertTraffic { mac := str "aa:01", ts := seconds 102, rxBytes := 250, txBytes := 0 }]

/-- A device at 1000 bits per second is shown at 2000: both of its steps end in one bucket. -/
theorem steady_rate_doubled :
    Steady 1000 steadySeconds.trafficSamples ∧
      (steadySeconds.trafficHistory 0).map TrafficHistoryPoint.rxRateBps = [2000] ∧
      largestRates rxCounter 100 (steadySeconds.historyRows 0) = 1000 ∧
      ¬ TrueRates 0 steadySeconds := by
  have hsteady : Steady 1000 steadySeconds.trafficSamples := by decide +kernel
  have hpoints : (steadySeconds.trafficHistory 0).map TrafficHistoryPoint.rxRateBps = [2000] := by
    decide +kernel
  refine ⟨hsteady, hpoints, by decide +kernel, fun h => ?_⟩
  obtain ⟨point, hpoint, hrate⟩ := List.mem_map.mp (hpoints ▸ List.mem_singleton_self (2000 : ℚ))
  have htrue := h.steady 1000 hsteady (by decide +kernel) point hpoint
  rw [hrate] at htrue
  exact absurd htrue (by norm_num)

end Database

end Netmon
