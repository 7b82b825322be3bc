import Netmon.Database
import Netmon.Ranking

/-!
# What retention keeps

`applyRetention` cuts the three histories at an age, then keeps the newest rows
of the events, of the attacks and of the samples of each device, and prunes the
oldest rows only while the file is above its size cap.  Its statements name the
rows to delete by their ids, so the primary keys of the tables (`PrimaryKeys`)
are what makes them delete the rows they mean.

Each table after the cuts is the one before without the old rows, trimmed by
`Ranking.keepEach`, and the bounds follow from what is known about that.
-/

namespace Netmon

namespace Database

/-! ## Primary keys -/

/-- The primary keys of the three histories: an event stands under its id, and
the ids of samples and attacks are unique. -/
structure PrimaryKeys (db : Database) : Prop where
  events : ∀ id row, db.events.lookup id = some row → row.id = id
  samples : (db.trafficSamples.map TrafficRow.id).Nodup
  attacks : (db.wanAttacks.map WANAttackRow.id).Nodup

instance (db : Database) : Decidable db.PrimaryKeys :=
  decidable_of_iff
    ((∀ e ∈ db.events.entries, e.2.id = e.1) ∧ (db.trafficSamples.map TrafficRow.id).Nodup ∧
      (db.wanAttacks.map WANAttackRow.id).Nodup)
    ⟨fun h => ⟨fun _ _ hrow => h.1 _ (AList.mem_entries_iff.mpr hrow), h.2.1, h.2.2⟩,
      fun h => ⟨fun e he => h.events e.1 e.2 (AList.mem_entries_iff.mp he), h.samples, h.attacks⟩⟩

/-- The rows of the event table. -/
def eventRows (db : Database) : List EventRow := db.events.entries.map Sigma.snd

/-- No two rows of the event table have one id. -/
theorem PrimaryKeys.event_ids {db : Database} (h : db.PrimaryKeys) :
    (db.eventRows.map EventRow.id).Nodup := by
  have hkeys : db.eventRows.map EventRow.id = db.events.keys := by
    unfold eventRows AList.keys List.keys
    rw [List.map_map]
    apply List.map_congr_left
    intro e he
    exact h.events e.1 e.2 (AList.mem_entries_iff.mp he)
  rw [hkeys]
  exact db.events.keys_nodup

/-- Deleting the ids of some rows of a table deletes those rows. -/
theorem filter_ids {α γ : Type} [BEq γ] [LawfulBEq γ] {id : α → γ} {table doomed : List α}
    (hids : (table.map id).Nodup) {lost : α → Prop} [DecidablePred lost]
    (hdoomed : ∀ a, a ∈ doomed ↔ a ∈ table ∧ lost a) :
    (table.filter fun a => id a ∉ doomed.map id) = table.filter fun a => ¬ lost a := by
  refine List.filter_congr fun a ha => ?_
  have hiff : id a ∈ doomed.map id ↔ lost a := by
    constructor
    · intro hid
      obtain ⟨b, hb, hsame⟩ := List.mem_map.mp hid
      obtain ⟨hb, hlost⟩ := (hdoomed b).mp hb
      exact List.inj_on_of_nodup_map hids hb ha hsame ▸ hlost
    · intro hlost
      exact List.mem_map_of_mem ((hdoomed a).mpr ⟨ha, hlost⟩)
  simp [hiff]

/-! ## The orders of the statements -/

instance : Std.Total NewestEvent := Ranking.total_of_newest EventRow.ts EventRow.id
  fun _ _ => Iff.rfl

instance : IsTrans EventRow NewestEvent := Ranking.trans_of_newest EventRow.ts EventRow.id
  fun _ _ => Iff.rfl

instance : Std.Total NewestAttack := Ranking.total_of_newest WANAttackRow.ts WANAttackRow.id
  fun _ _ => Iff.rfl

instance : IsTrans WANAttackRow NewestAttack :=
  Ranking.trans_of_newest WANAttackRow.ts WANAttackRow.id fun _ _ => Iff.rfl

instance : Std.Total NewestSample := Ranking.total_of_newest TrafficRow.ts TrafficRow.id
  fun _ _ => Iff.rfl

instance : IsTrans TrafficRow NewestSample := Ranking.trans_of_newest TrafficRow.ts TrafficRow.id
  fun _ _ => Iff.rfl

/-- The order of the events decides between any two rows. -/
theorem PrimaryKeys.events_noTies {db : Database} (h : db.PrimaryKeys) :
    Ranking.NoTies NewestEvent db.eventRows :=
  Ranking.noTies_of_newest EventRow.ts EventRow.id (fun _ _ => Iff.rfl) h.event_ids

/-- The order of the attacks decides between any two rows. -/
theorem PrimaryKeys.attacks_noTies {db : Database} (h : db.PrimaryKeys) :
    Ranking.NoTies NewestAttack db.wanAttacks :=
  Ranking.noTies_of_newest WANAttackRow.ts WANAttackRow.id (fun _ _ => Iff.rfl) h.attacks

/-- The order of the traffic samples decides between any two rows. -/
theorem PrimaryKeys.samples_noTies {db : Database} (h : db.PrimaryKeys) :
    Ranking.NoTies NewestSample db.trafficSamples :=
  Ranking.noTies_of_newest TrafficRow.ts TrafficRow.id (fun _ _ => Iff.rfl) h.samples

/-! ## The tables after the cuts -/

/-- The whole table as one group. -/
def oneGroup {α : Type} (_ : α) : Unit := ()

/-- The rows that a limit leaves. -/
def quotaOf (limit : UInt64) : Nat := (boundLimit limit).toNat

/-- A limit that fits into a signed integer is bound as it is. -/
theorem quotaOf_eq {limit : UInt64} (h : limit.toNat < 2 ^ 63) : quotaOf limit = limit.toNat := by
  have hint : limit.toInt64.toInt = (limit.toNat : Int) := by
    show limit.toInt64.toBitVec.toInt = _
    rw [BitVec.toInt_eq_toNat_of_lt]
    · rfl
    · show 2 * limit.toNat < 2 ^ 64
      omega
  rw [quotaOf, boundLimit, hint, Int.toNat_natCast]

/-- In a table that is one group, the rank in the group is the rank. -/
theorem rankIn_oneGroup {α : Type} (r : α → α → Prop) [DecidableRel r] (l : List α) (a : α) :
    Ranking.rankIn r oneGroup l a = Ranking.rank r l a := by
  simp [Ranking.rankIn, Ranking.rank, oneGroup]

/-- Deleting, by id, all but the first rows of the sorted table. -/
theorem filter_beyond_limit {α γ : Type} [BEq γ] [LawfulBEq γ] {r : α → α → Prop}
    [DecidableRel r] [Std.Total r] [IsTrans α r] {id : α → γ} {table : List α}
    (hids : (table.map id).Nodup)
    (hties : Ranking.NoTies r table) (n : Nat) :
    (table.filter fun a => id a ∉ ((table.insertionSort r).drop n).map id) =
      Ranking.keepEach r oneGroup n table := by
  rw [filter_ids hids fun a => Ranking.mem_drop_sort_iff hties]
  refine List.filter_congr fun a _ => ?_
  rw [rankIn_oneGroup]
  simp

/-- Deleting events by id removes the rows with these ids. -/
theorem PrimaryKeys.eventRows_deleteEvents {db : Database} (h : db.PrimaryKeys)
    (doomed : List EventRow) :
    (db.deleteEvents doomed).eventRows =
      db.eventRows.filter fun row => row.id ∉ doomed.map EventRow.id := by
  have hentries : ∀ e ∈ db.events.entries, e.2.id = e.1 :=
    fun e he => h.events e.1 e.2 (AList.mem_entries_iff.mp he)
  unfold eventRows deleteEvents AList.filterEntries
  rw [List.filter_map]
  refine congrArg _ (List.filter_congr fun e he => ?_)
  simp only [Function.comp, hentries e he]

/-- `LIMIT -1 OFFSET` keeps the newest events, as many as the limit says. -/
theorem PrimaryKeys.eventRows_beyondLimit {db : Database} (h : db.PrimaryKeys) (limit : UInt64) :
    (db.deleteEventsBeyondLimit limit).eventRows =
      Ranking.keepEach NewestEvent oneGroup (quotaOf limit) db.eventRows := by
  rw [← filter_beyond_limit h.event_ids h.events_noTies]
  exact h.eventRows_deleteEvents _

/-- The cut keeps the newest attacks, as many as the limit says. -/
theorem PrimaryKeys.wanAttacks_beyondLimit {db : Database} (h : db.PrimaryKeys)
    (limit : UInt64) :
    (db.deleteAttacksBeyondLimit limit).wanAttacks =
      Ranking.keepEach NewestAttack oneGroup (quotaOf limit) db.wanAttacks := by
  rw [← filter_beyond_limit h.attacks h.attacks_noTies]
  rfl

/-- `ROW_NUMBER()` is the rank of a sample among those of its device. -/
theorem rowNumber_eq (db : Database) (row : TrafficRow) :
    db.rowNumber row = Ranking.rankIn NewestSample samplePartition db.trafficSamples row := by
  rw [rowNumber, Ranking.rankIn, List.countP_eq_length_filter]

/-- A row number exceeds a limit, read as a signed integer, exactly when it
exceeds the rows that the limit leaves. -/
theorem rowNumber_gt_iff {db : Database} {row : TrafficRow} (hrow : row ∈ db.trafficSamples)
    (limit : UInt64) :
    db.rowNumber row > boundLimit limit ↔
      quotaOf limit < Ranking.rankIn NewestSample samplePartition db.trafficSamples row := by
  have hpos : 0 < Ranking.rankIn NewestSample samplePartition db.trafficSamples row := by
    rw [Ranking.rankIn_eq]
    exact Ranking.rank_pos (by simpa using hrow)
  rw [rowNumber_eq, quotaOf]
  omega

/-- The samples are cut for each device on its own. -/
theorem PrimaryKeys.trafficSamples_beyondLimit {db : Database} (h : db.PrimaryKeys)
    (limit : UInt64) :
    (db.deleteTrafficBeyondDeviceLimit limit).trafficSamples =
      Ranking.keepEach NewestSample samplePartition (quotaOf limit) db.trafficSamples := by
  have hdoomed : ∀ row, row ∈ (db.trafficSamples.filter fun row =>
      db.rowNumber row > boundLimit limit) ↔ row ∈ db.trafficSamples ∧
        db.rowNumber row > boundLimit limit := by
    intro row
    simp
  show (db.trafficSamples.filter _) = _
  rw [filter_ids h.samples hdoomed]
  refine List.filter_congr fun row hrow => ?_
  rw [decide_eq_decide, rowNumber_gt_iff hrow, not_lt]

/-- The second database holds rows of the first and no others, in their order. -/
structure Shrinks (db db' : Database) : Prop where
  devices : db'.devices = db.devices
  events : db'.events.entries.Sublist db.events.entries
  samples : db'.trafficSamples.Sublist db.trafficSamples
  attacks : db'.wanAttacks.Sublist db.wanAttacks
  trafficSeq : db'.trafficSeq = db.trafficSeq
  attackSeq : db'.attackSeq = db.attackSeq

theorem Shrinks.refl (db : Database) : Shrinks db db :=
  ⟨rfl, List.Sublist.refl _, List.Sublist.refl _, List.Sublist.refl _, rfl, rfl⟩

theorem Shrinks.trans {a b c : Database} (hab : Shrinks a b) (hbc : Shrinks b c) : Shrinks a c where
  devices := hbc.devices.trans hab.devices
  events := hbc.events.trans hab.events
  samples := hbc.samples.trans hab.samples
  attacks := hbc.attacks.trans hab.attacks
  trafficSeq := hbc.trafficSeq.trans hab.trafficSeq
  attackSeq := hbc.attackSeq.trans hab.attackSeq

theorem Shrinks.eventRows {db db' : Database} (h : Shrinks db db') :
    db'.eventRows.Sublist db.eventRows := h.events.map _

/-- A row that is left was there before. -/
theorem Shrinks.lookup {db db' : Database} (h : Shrinks db db') {id : Str} {row : EventRow}
    (hrow : db'.events.lookup id = some row) : db.events.lookup id = some row :=
  AList.mem_entries_iff.mp (h.events.subset (AList.mem_entries_iff.mpr hrow))

/-- An id that is left was there before. -/
theorem Shrinks.mem {db db' : Database} (h : Shrinks db db') {id : Str} (hid : id ∈ db'.events) :
    id ∈ db.events := by
  obtain ⟨row, hrow⟩ := AList.exists_lookup_of_mem hid
  exact AList.mem_of_lookup (h.lookup hrow)

/-- The cut by age takes rows away from all three histories. -/
theorem shrinks_deleteOlderThan (cutoff : Int) (db : Database) :
    Shrinks db (db.deleteOlderThan cutoff) :=
  ⟨rfl, List.filter_sublist, List.filter_sublist, List.filter_sublist, rfl, rfl⟩

/-- Deleting events takes rows away from the events only. -/
theorem shrinks_deleteEvents (doomed : List EventRow) (db : Database) :
    Shrinks db (db.deleteEvents doomed) :=
  ⟨rfl, List.filter_sublist, List.Sublist.refl _, List.Sublist.refl _, rfl, rfl⟩

/-- Deleting attacks takes rows away from the attacks only. -/
theorem shrinks_deleteAttacks (doomed : List WANAttackRow) (db : Database) :
    Shrinks db (db.deleteAttacks doomed) :=
  ⟨rfl, List.Sublist.refl _, List.Sublist.refl _, List.filter_sublist, rfl, rfl⟩

/-- Deleting samples takes rows away from the samples only. -/
theorem shrinks_deleteSamples (doomed : List TrafficRow) (db : Database) :
    Shrinks db (db.deleteSamples doomed) :=
  ⟨rfl, List.Sublist.refl _, List.filter_sublist, List.Sublist.refl _, rfl, rfl⟩

/-- A round of pruning only takes rows away. -/
theorem shrinks_pruneRound (db : Database) : Shrinks db db.pruneRound :=
  ((shrinks_deleteSamples _ _).trans (shrinks_deleteEvents _ _)).trans (shrinks_deleteAttacks _ _)

/-- The primary keys of a database are those of every part of it. -/
theorem PrimaryKeys.shrinks {db db' : Database} (h : db.PrimaryKeys) (hs : Shrinks db db') :
    db'.PrimaryKeys where
  events := fun id row hrow => h.events id row (hs.lookup hrow)
  samples := h.samples.sublist (hs.samples.map _)
  attacks := h.attacks.sublist (hs.attacks.map _)

/-- The cut by age keeps the rows that are not below the cutoff. -/
theorem eventRows_deleteOlderThan (cutoff : Int) (db : Database) :
    (db.deleteOlderThan cutoff).eventRows = db.eventRows.filter fun row => ¬ row.ts < cutoff := by
  unfold eventRows Database.deleteOlderThan AList.filterEntries
  rw [List.filter_map]
  rfl

/-- The cuts by age and by number, before the size is looked at. -/
def trimHistory (config : Config) (now : TimePoint) (db : Database) : Database :=
  (((db.deleteOlderThan (retentionCutoff config now)).deleteEventsBeyondLimit
    (max 1 config.sqliteMaxEvents)).deleteAttacksBeyondLimit
      (max 1 config.maxAttackEvents)).deleteTrafficBeyondDeviceLimit
        (max 1 config.sqliteMaxTrafficPointsPerDevice)

/-- Retention cuts the histories and then looks at the size. -/
theorem applyRetention_eq (config : Config) (now : TimePoint) (bytes : Nat → Int)
    (db : Database) :
    db.applyRetention config now bytes =
      (db.trimHistory config now).enforceSizeLimit config bytes := rfl

/-- The cuts only take rows away. -/
theorem shrinks_trimHistory (db : Database) (config : Config) (now : TimePoint) :
    Shrinks db (db.trimHistory config now) :=
  (((shrinks_deleteOlderThan _ db).trans (shrinks_deleteEvents _ _)).trans
    (shrinks_deleteAttacks _ _)).trans (shrinks_deleteSamples _ _)

/-- **The tables after the cuts.**  Each is the table before without the rows
below the cutoff, trimmed to its limit. -/
theorem PrimaryKeys.trimHistory_tables {db : Database} (h : db.PrimaryKeys) (config : Config)
    (now : TimePoint) :
    (db.trimHistory config now).eventRows =
        Ranking.keepEach NewestEvent oneGroup (quotaOf (max 1 config.sqliteMaxEvents))
          (db.eventRows.filter fun row => ¬ row.ts < retentionCutoff config now) ∧
      (db.trimHistory config now).wanAttacks =
        Ranking.keepEach NewestAttack oneGroup (quotaOf (max 1 config.maxAttackEvents))
          (db.wanAttacks.filter fun row => ¬ row.ts < retentionCutoff config now) ∧
      (db.trimHistory config now).trafficSamples =
        Ranking.keepEach NewestSample samplePartition
          (quotaOf (max 1 config.sqliteMaxTrafficPointsPerDevice))
          (db.trafficSamples.filter fun row => ¬ row.ts < retentionCutoff config now) := by
  have haged := h.shrinks (shrinks_deleteOlderThan (retentionCutoff config now) db)
  have hevents : ((db.deleteOlderThan (retentionCutoff config now)).deleteEventsBeyondLimit
      (max 1 config.sqliteMaxEvents)).PrimaryKeys := haged.shrinks (shrinks_deleteEvents _ _)
  have hattacks : (((db.deleteOlderThan (retentionCutoff config now)).deleteEventsBeyondLimit
      (max 1 config.sqliteMaxEvents)).deleteAttacksBeyondLimit
        (max 1 config.maxAttackEvents)).PrimaryKeys := hevents.shrinks (shrinks_deleteAttacks _ _)
  refine ⟨?_, hevents.wanAttacks_beyondLimit _, hattacks.trafficSamples_beyondLimit _⟩
  rw [← eventRows_deleteOlderThan]
  exact haged.eventRows_beyondLimit _

/-- Any number of rounds of pruning only takes rows away. -/
theorem shrinks_pruneRounds (maxBytes : Int) (bytes : Nat → Int) (rounds reading : Nat)
    (db : Database) : Shrinks db (pruneRounds maxBytes bytes rounds reading db) := by
  induction rounds generalizing reading db with
  | zero => exact Shrinks.refl db
  | succ rounds ih =>
      rw [pruneRounds]
      split
      · exact (shrinks_pruneRound db).trans (ih _ _)
      · exact Shrinks.refl db

/-- The size limit only takes rows away. -/
theorem shrinks_enforceSizeLimit (db : Database) (config : Config) (bytes : Nat → Int) :
    Shrinks db (db.enforceSizeLimit config bytes) := by
  rw [enforceSizeLimit]
  split
  · exact Shrinks.refl _
  · exact shrinks_pruneRounds _ _ _ _ _

/-- Retention only takes rows away. -/
theorem shrinks_applyRetention (db : Database) (config : Config) (now : TimePoint)
    (bytes : Nat → Int) : Shrinks db (db.applyRetention config now bytes) :=
  (db.shrinks_trimHistory config now).trans (shrinks_enforceSizeLimit _ config bytes)

/-! ## The bounds -/

/-- The limits of the histories fit into signed 64-bit integers. -/
def LimitsFit (config : Config) : Prop :=
  config.sqliteMaxEvents.toNat < 2 ^ 63 ∧ config.maxAttackEvents.toNat < 2 ^ 63 ∧
    config.sqliteMaxTrafficPointsPerDevice.toNat < 2 ^ 63

/-- The first size reading does not exceed the cap. -/
def WithinSize (config : Config) (bytes : Nat → Int) : Prop :=
  bytes 0 ≤ max 1 config.sqliteMaxDbMb * 1024 * 1024

instance (config : Config) : Decidable (LimitsFit config) :=
  inferInstanceAs (Decidable (_ ∧ _ ∧ _))

instance (config : Config) (bytes : Nat → Int) : Decidable (WithinSize config bytes) :=
  inferInstanceAs (Decidable (_ ≤ _))

/-- A file that is read as empty is within every cap. -/
theorem withinSize_zero (config : Config) : WithinSize config fun _ => 0 := by
  show (0 : Int) ≤ max 1 config.sqliteMaxDbMb * 1024 * 1024
  omega

/-- Within the cap nothing is pruned. -/
theorem enforceSizeLimit_within {config : Config} {bytes : Nat → Int}
    (h : WithinSize config bytes) (db : Database) : db.enforceSizeLimit config bytes = db := by
  simp only [enforceSizeLimit]
  exact if_pos h

/-- A limit of zero counts as one. -/
theorem quotaOf_max {limit : UInt64} (h : limit.toNat < 2 ^ 63) :
    quotaOf (max 1 limit) = max 1 limit.toNat := by
  have hmax : (max 1 limit).toNat = max 1 limit.toNat := by
    show (if 1 ≤ limit then limit else 1).toNat = _
    have hle : 1 ≤ limit ↔ 1 ≤ limit.toNat := UInt64.le_iff_toNat_le
    by_cases h1 : 1 ≤ limit
    · rw [if_pos h1, max_eq_right (hle.mp h1)]
    · rw [if_neg h1, max_eq_left (by have := mt hle.mpr h1; omega)]
      rfl
  rw [quotaOf_eq (by omega), hmax]

/-- Rows that are all there still make the same database. -/
theorem trimHistory_eq_self {config : Config} {now : TimePoint} {db : Database}
    (hevents : (db.trimHistory config now).eventRows = db.eventRows)
    (hattacks : (db.trimHistory config now).wanAttacks = db.wanAttacks)
    (hsamples : (db.trimHistory config now).trafficSamples = db.trafficSamples) :
    db.trimHistory config now = db := by
  have hlength := congrArg List.length hevents
  simp only [eventRows, List.length_map] at hlength
  have hentries : (db.trimHistory config now).events = db.events :=
    AList.ext ((db.shrinks_trimHistory config now).events.eq_of_length hlength)
  have hshape : db.trimHistory config now =
      { db with
        events := (db.trimHistory config now).events
        wanAttacks := (db.trimHistory config now).wanAttacks
        trafficSamples := (db.trimHistory config now).trafficSamples } := rfl
  rw [hshape, hentries, hattacks, hsamples]

/-- The oldest second that is kept, written out: the time of the pass less the days of the
configuration, at least one, in whole seconds. -/
theorem retentionCutoff_days (config : Config) (now : TimePoint) :
    retentionCutoff config now =
      (now - max 1 config.sqliteRetentionDays * (24 * 60 * 60 * 1000000000)).tdiv 1000000000 := by
  have hperiod : seconds (3600 * (24 * max 1 config.sqliteRetentionDays)) =
      max 1 config.sqliteRetentionDays * (24 * 60 * 60 * 1000000000) := by
    unfold seconds
    ring
  rw [retentionCutoff, hperiod, unixSeconds]
  split
  · rename_i hzero
    rw [hzero]
    rfl
  · rfl

/-- **Retention.**  As long as the size cap is not exceeded, `applyRetention`
leaves no row below the cutoff, which is the days of the configuration before the
pass, and no more rows than the limits in the three histories, for the samples of
each device; it changes no row and deletes one above the cutoff only behind a full
quota of newer survivors; and run again at the same time it deletes nothing. -/
theorem retention_bounds (db : Database) (hkeys : db.PrimaryKeys) (config : Config)
    (hlimits : LimitsFit config) (now : TimePoint) (bytes : Nat → Int)
    (hsize : WithinSize config bytes) :
    let day : Int := 24 * 60 * 60 * 1000000000
    let cutoff : Int := (now - max 1 config.sqliteRetentionDays * day).tdiv 1000000000
    Ranking.Trimmed NewestEvent oneGroup (max 1 config.sqliteMaxEvents.toNat)
        (fun row => ¬ row.ts < cutoff)
        db.eventRows (db.applyRetention config now bytes).eventRows ∧
      Ranking.Trimmed NewestAttack oneGroup (max 1 config.maxAttackEvents.toNat)
        (fun row => ¬ row.ts < cutoff)
        db.wanAttacks (db.applyRetention config now bytes).wanAttacks ∧
      Ranking.Trimmed NewestSample samplePartition
        (max 1 config.sqliteMaxTrafficPointsPerDevice.toNat)
        (fun row => ¬ row.ts < cutoff)
        db.trafficSamples (db.applyRetention config now bytes).trafficSamples ∧
      (db.applyRetention config now bytes).devices = db.devices ∧
      ∀ bytes', WithinSize config bytes' →
        (db.applyRetention config now bytes).applyRetention config now bytes' =
          db.applyRetention config now bytes := by
  intro day cutoff
  have hcutoff : cutoff = retentionCutoff config now := (retentionCutoff_days config now).symm
  rw [hcutoff, applyRetention_eq, enforceSizeLimit_within hsize]
  obtain ⟨hevents, hattacks, hsamples⟩ := hkeys.trimHistory_tables config now
  have htrimmed := hkeys.shrinks (db.shrinks_trimHistory config now)
  obtain ⟨hevents2, hattacks2, hsamples2⟩ := htrimmed.trimHistory_tables config now
  rw [quotaOf_max hlimits.1] at hevents hevents2
  rw [quotaOf_max hlimits.2.1] at hattacks hattacks2
  rw [quotaOf_max hlimits.2.2] at hsamples hsamples2
  have hE : Ranking.Trimmed NewestEvent oneGroup (max 1 config.sqliteMaxEvents.toNat) _
      db.eventRows (db.trimHistory config now).eventRows :=
    hevents ▸ Ranking.trimmed_keepEach hkeys.events_noTies _ _
  have hA : Ranking.Trimmed NewestAttack oneGroup (max 1 config.maxAttackEvents.toNat) _
      db.wanAttacks (db.trimHistory config now).wanAttacks :=
    hattacks ▸ Ranking.trimmed_keepEach hkeys.attacks_noTies _ _
  have hS : Ranking.Trimmed NewestSample samplePartition
      (max 1 config.sqliteMaxTrafficPointsPerDevice.toNat) _
      db.trafficSamples (db.trimHistory config now).trafficSamples :=
    hsamples ▸ Ranking.trimmed_keepEach hkeys.samples_noTies _ _
  refine ⟨hE, hA, hS, rfl, fun bytes' hsize' => ?_⟩
  rw [applyRetention_eq, enforceSizeLimit_within hsize']
  exact trimHistory_eq_self (hevents2.trans hE.again) (hattacks2.trans hA.again)
    (hsamples2.trans hS.again)

/-- Two events, an old sample, and two samples of one device. -/
def crowded : Database :=
  { events := (∅ : StrMap EventRow).insert (str "evt-1") ⟨str "evt-1", 1000000, [], [], [], [], []⟩
      |>.insert (str "evt-2") ⟨str "evt-2", 1000001, [], [], [], [], []⟩
    trafficSamples :=
      [⟨1, str "aa:01", str "10.0.0.5", 10, 0, 0⟩, ⟨2, str "aa:01", str "10.0.0.5", 1000000, 0, 0⟩,
        ⟨3, str "aa:01", str "10.0.0.6", 1000000, 5, 5⟩, ⟨4, [], str "10.0.0.7", 1000000, 0, 0⟩]
    trafficSeq := 4 }

/-- The smallest limits. -/
def newestOnly : Config := { sqliteMaxEvents := 1, sqliteMaxTrafficPointsPerDevice := 1 }

/-- A day of history and more rows than there are. -/
def lastDay : Config := { sqliteRetentionDays := 1 }

/-- With the smallest limits one event and one sample of each device are left, the newest
ones.  With room for all of them the sample of the first day goes, by its age alone. -/
theorem retention_bounds_crowded :
    let after := crowded.applyRetention newestOnly (seconds 1000002) fun _ => 0
    let aged := crowded.applyRetention lastDay (seconds 1000002) fun _ => 0
    after.eventRows.map EventRow.id = [str "evt-2"] ∧
      after.trafficSamples.map TrafficRow.id = [3, 4] ∧
      after.eventRows.Sublist crowded.eventRows ∧
      after.applyRetention newestOnly (seconds 1000002) (fun _ => 0) = after ∧
      aged.trafficSamples.map TrafficRow.id = [2, 3, 4] ∧
      ∀ row ∈ aged.trafficSamples, ¬ row.ts < 913602 := by
  intro after aged
  have hkeys : crowded.PrimaryKeys := by decide +kernel
  have hbounds := retention_bounds crowded hkeys newestOnly (by decide) (seconds 1000002)
    (fun _ => 0) (by decide)
  have haged := retention_bounds crowded hkeys lastDay (by decide) (seconds 1000002)
    (fun _ => 0) (by decide)
  exact ⟨by decide +kernel, by decide +kernel, hbounds.1.rows, hbounds.2.2.2.2 _ (by decide),
    by decide +kernel, haged.2.2.1.passed⟩

end Database

end Netmon
