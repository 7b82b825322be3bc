import Netmon.EventRecords
import Netmon.Retention

/-!
# The order in which events are dropped

Event ids are the texts `evt-1`, `evt-2`, … and the time of a row is a whole
second, so the statements that trim the event table order the rows of one second
by text, where `evt-9` comes after `evt-10`.  A run over the database is any
sequence of its statements; the events that it persists are numbered, with times
that do not decrease with the number.

Retention always keeps an initial part of the statements' own order.  So it
drops the oldest events first exactly as far as that order is the order of the
numbers.
-/

namespace Netmon

/-! ## Runs over the database -/

/-- The statements that change the tables. -/
inductive HistoryOp
  | upsertDevices (now : TimePoint) (devices : List DeviceState)
  | insertTraffic (snapshot : TrafficSnapshot)
  | insertEvent (event : Event)
  | insertWANAttack (event : WANAttackEvent)
  | applyRetention (config : Config) (now : TimePoint) (bytes : Nat → Int)

namespace Database

/-- What a statement does to the database. -/
def apply (db : Database) : HistoryOp → Database
  | .upsertDevices now devices => db.upsertDevices now devices
  | .insertTraffic snapshot => db.insertTraffic snapshot
  | .insertEvent event => db.insertEvent event
  | .insertWANAttack event => db.insertWANAttack event
  | .applyRetention config now bytes => db.applyRetention config now bytes

/-- The primary keys, with the automatic ids within those given out. -/
structure Keyed (db : Database) : Prop where
  keys : db.PrimaryKeys
  samples : ∀ row ∈ db.trafficSamples, row.id ≤ db.trafficSeq
  attacks : ∀ row ∈ db.wanAttacks, row.id ≤ db.attackSeq

/-- A new automatic id is none of the old ones. -/
theorem nodup_concat_id {α : Type} {id : α → Nat} {rows : List α} {seq : Nat} {row : α}
    (hrow : id row = seq + 1) (hle : ∀ a ∈ rows, id a ≤ seq) (h : (rows.map id).Nodup) :
    ((rows ++ [row]).map id).Nodup := by
  rw [List.map_append, List.nodup_append]
  refine ⟨h, by simp, ?_⟩
  intro n hn m hm
  obtain ⟨a, ha, rfl⟩ := List.mem_map.mp hn
  have hseq := hle a ha
  simp only [List.map_cons, List.map_nil, List.mem_singleton] at hm
  omega

/-- The ids stay below the sequence. -/
theorem forall_concat_le {α : Type} {id : α → Nat} {rows : List α} {seq : Nat} {row : α}
    (hrow : id row = seq + 1) (hle : ∀ a ∈ rows, id a ≤ seq) :
    ∀ a ∈ rows ++ [row], id a ≤ seq + 1 := by
  intro a ha
  rcases List.mem_append.mp ha with ha | ha
  · exact (hle a ha).trans (Nat.le_succ seq)
  · rw [List.mem_singleton.mp ha, hrow]

/-- Taking rows away leaves the keys in order. -/
theorem Keyed.shrinks {db db' : Database} (h : db.Keyed) (hs : Shrinks db db') : db'.Keyed where
  keys := h.keys.shrinks hs
  samples := fun row hrow => hs.trafficSeq ▸ h.samples row (hs.samples.subset hrow)
  attacks := fun row hrow => hs.attackSeq ▸ h.attacks row (hs.attacks.subset hrow)

/-- Writing devices leaves the keys in order. -/
theorem Keyed.upsertDevices {db : Database} (h : db.Keyed) (now : TimePoint)
    (devices : List DeviceState) : (db.upsertDevices now devices).Keyed := by
  induction devices generalizing db with
  | nil => exact h
  | cons device devices ih =>
      refine ih ?_
      unfold upsertDevice
      split
      · exact h
      · exact ⟨⟨h.keys.events, h.keys.samples, h.keys.attacks⟩, h.samples, h.attacks⟩

/-- Every statement keeps the primary keys. -/
theorem Keyed.apply {db : Database} (h : db.Keyed) (op : HistoryOp) : (db.apply op).Keyed := by
  cases op with
  | upsertDevices now devices => exact h.upsertDevices now devices
  | insertTraffic snapshot =>
      refine ⟨⟨h.keys.events, nodup_concat_id rfl h.samples h.keys.samples, h.keys.attacks⟩,
        ?_, h.attacks⟩
      exact forall_concat_le rfl h.samples
  | insertEvent event =>
      refine ⟨⟨?_, h.keys.samples, h.keys.attacks⟩, h.samples, h.attacks⟩
      intro id row hrow
      simp only [Database.apply, insertEvent, AList.lookup_insert_if] at hrow
      split at hrow
      · rename_i hid
        cases hrow
        exact hid.symm
      · exact h.keys.events id row hrow
  | insertWANAttack event =>
      refine ⟨⟨h.keys.events, h.keys.samples, nodup_concat_id rfl h.attacks h.keys.attacks⟩,
        h.samples, ?_⟩
      exact forall_concat_le rfl h.attacks
  | applyRetention config now bytes => exact h.shrinks (db.shrinks_applyRetention config now bytes)

/-! ## Retention keeps an initial part of its order -/

/-- Of the events of the first database, the second holds with each also those
that the statements take for newer. -/
def KeepsNewer (db db' : Database) : Prop :=
  ∀ a ∈ db.eventRows, ∀ b ∈ db'.eventRows, NewestEvent a b → a ∈ db'.eventRows

/-- Keeping the newer events is transitive along deletions. -/
theorem KeepsNewer.trans {a b c : Database} (hs : Shrinks b c) (hab : KeepsNewer a b)
    (hbc : KeepsNewer b c) : KeepsNewer a c := by
  intro x hx y hy hxy
  exact hbc x (hab x hx y (hs.eventRows.subset hy) hxy) y hy hxy

/-- An event survives the cuts if it is young enough and among the newest of those. -/
theorem mem_trimHistory_iff {db : Database} (h : db.PrimaryKeys) (config : Config)
    (now : TimePoint) {row : EventRow} :
    row ∈ (db.trimHistory config now).eventRows ↔
      row ∈ db.eventRows ∧ ¬ row.ts < retentionCutoff config now ∧
        Ranking.rank NewestEvent
          (db.eventRows.filter fun row => ¬ row.ts < retentionCutoff config now) row ≤
            quotaOf (max 1 config.sqliteMaxEvents) := by
  rw [(h.trimHistory_tables config now).1, Ranking.keepEach, List.mem_filter, List.mem_filter,
    rankIn_oneGroup, decide_eq_true_eq, decide_eq_true_eq, and_assoc]

/-- The cuts keep the newer events. -/
theorem keepsNewer_trimHistory {db : Database} (h : db.PrimaryKeys) (config : Config)
    (now : TimePoint) : KeepsNewer db (db.trimHistory config now) := by
  intro a ha b hb hab
  rw [mem_trimHistory_iff h] at hb ⊢
  obtain ⟨-, hfresh, hrank⟩ := hb
  refine ⟨ha, ?_, (Ranking.rank_mono hab _).trans hrank⟩
  rcases hab with hlt | ⟨heq, -⟩ <;> omega

/-- A round of pruning keeps the newer events. -/
theorem keepsNewer_pruneRound {db : Database} (h : db.PrimaryKeys) :
    KeepsNewer db db.pruneRound := by
  have hrows : db.pruneRound.eventRows = db.eventRows.filter fun row =>
      ¬ Ranking.rankLast NewestEvent db.eventRows row ≤ 250 := by
    rw [← filter_ids h.event_ids fun row => Ranking.mem_take_last_iff h.events_noTies]
    exact (h.shrinks (shrinks_deleteSamples _ db)).eventRows_deleteEvents _
  intro a ha b hb hab
  rw [hrows, List.mem_filter, decide_eq_true_eq] at hb ⊢
  have hrank := Ranking.rankLast_mono hab db.eventRows
  exact ⟨ha, by omega⟩

/-- Any number of rounds of pruning keeps the newer events. -/
theorem keepsNewer_pruneRounds {db : Database} (h : db.PrimaryKeys) (maxBytes : Int)
    (bytes : Nat → Int) (rounds reading : Nat) :
    KeepsNewer db (pruneRounds maxBytes bytes rounds reading db) := by
  induction rounds generalizing reading db with
  | zero => exact fun a ha _ _ _ => ha
  | succ rounds ih =>
      rw [pruneRounds]
      split
      · exact (keepsNewer_pruneRound h).trans (shrinks_pruneRounds _ _ _ _ _)
          (ih (h.shrinks (shrinks_pruneRound db)) _)
      · exact fun a ha _ _ _ => ha

/-- **Initial part.**  Whatever the limits and the size, retention deletes no
event that the statements take for newer than a survivor. -/
theorem keepsNewer_applyRetention {db : Database} (h : db.PrimaryKeys) (config : Config)
    (now : TimePoint) (bytes : Nat → Int) :
    KeepsNewer db (db.applyRetention config now bytes) := by
  have htrim := keepsNewer_trimHistory h config now
  rw [applyRetention_eq, enforceSizeLimit]
  split
  · exact htrim
  · exact htrim.trans (shrinks_pruneRounds _ _ _ _ _)
      (keepsNewer_pruneRounds (h.shrinks (db.shrinks_trimHistory config now)) _ _ _ _)

/-! ## Numbered events -/

/-- Every event row is that of a numbered event. -/
def EventsNumbered (time : Nat → TimePoint) (db : Database) : Prop :=
  ∀ row ∈ db.eventRows, ∃ n, row.id = StateStore.eventIdText n ∧ row.ts = unixSeconds (time n)

/-- An event that a statement persists has the id of some number, and the time
of that number. -/
def PersistsNumbered (time : Nat → TimePoint) (op : HistoryOp) : Prop :=
  ∀ event, op = .insertEvent event →
    ∃ n, event.id = StateStore.eventIdText n ∧ event.ts = time n

/-- The rows are those under some id. -/
theorem mem_eventRows_iff {db : Database} {row : EventRow} :
    row ∈ db.eventRows ↔ ∃ id, db.events.lookup id = some row := by
  unfold eventRows
  rw [List.mem_map]
  constructor
  · rintro ⟨e, he, rfl⟩
    exact ⟨e.1, AList.mem_entries_iff.mp he⟩
  · rintro ⟨id, hid⟩
    exact ⟨⟨id, row⟩, AList.mem_entries_iff.mpr hid, rfl⟩

/-- An id is there if a row has it. -/
theorem PrimaryKeys.mem_events_iff {db : Database} (h : db.PrimaryKeys) {id : Str} :
    id ∈ db.events ↔ ∃ row ∈ db.eventRows, row.id = id := by
  constructor
  · intro hid
    obtain ⟨row, hrow⟩ := AList.exists_lookup_of_mem hid
    exact ⟨row, mem_eventRows_iff.mpr ⟨id, hrow⟩, h.events id row hrow⟩
  · rintro ⟨row, hrow, rfl⟩
    obtain ⟨id, hid⟩ := mem_eventRows_iff.mp hrow
    rw [h.events id row hid]
    exact AList.mem_of_lookup hid

/-- A statement keeps the events numbered. -/
theorem EventsNumbered.apply {time : Nat → TimePoint} {db : Database}
    (h : EventsNumbered time db) {op : HistoryOp} (hop : PersistsNumbered time op) :
    EventsNumbered time (db.apply op) := by
  cases op with
  | upsertDevices now devices =>
      intro row hrow
      refine h row ?_
      rwa [eventRows, Database.apply, upsertDevices_events] at hrow
  | insertTraffic snapshot => exact h
  | insertEvent event =>
      intro row hrow
      obtain ⟨id, hid⟩ := mem_eventRows_iff.mp hrow
      simp only [Database.apply, insertEvent, AList.lookup_insert_if] at hid
      split at hid
      · cases hid
        obtain ⟨n, hn, hts⟩ := hop event rfl
        refine ⟨n, ?_, by rw [← hts]; rfl⟩
        show cString event.id = _
        rw [hn, cString_eq_self (StateStore.zero_notMem_eventIdText n)]
      · exact h row (mem_eventRows_iff.mpr ⟨id, hid⟩)
  | insertWANAttack event => exact h
  | applyRetention config now bytes =>
      exact fun row hrow =>
        h row ((db.shrinks_applyRetention config now bytes).eventRows.subset hrow)

/-- Every run keeps the primary keys and, if it persists numbered events, holds
no others. -/
theorem run_numbered {time : Nat → TimePoint} {ops : List HistoryOp}
    (hops : ∀ op ∈ ops, PersistsNumbered time op) :
    (Runs.run apply {} ops).Keyed ∧ EventsNumbered time (Runs.run apply {} ops) := by
  have hrun : Runs.Conforms apply (fun _ op => PersistsNumbered time op) {} ops :=
    Runs.conforms_of_forall (fun op hop _ => hops op hop) _
  refine hrun.invariant (fun db => db.Keyed ∧ EventsNumbered time db) ?_ ?_
  · exact fun db op hdb hop => ⟨hdb.1.apply op, hdb.2.apply hop⟩
  · exact ⟨⟨⟨nofun, List.nodup_nil, List.nodup_nil⟩, nofun, nofun⟩, nofun⟩

/-! ## Oldest first -/

/-- No event that is gone was generated after one that is left. -/
def OldestFirst (db db' : Database) : Prop :=
  ∀ m n, StateStore.eventIdText m ∈ db.events → StateStore.eventIdText m ∉ db'.events →
    StateStore.eventIdText n ∈ db'.events → m < n

/-- Among the stored events of one second, not older than the cutoff, the texts
of the ids are ordered as their numbers. -/
def TextOrder (cutoff : Int) (db : Database) : Prop :=
  ∀ a ∈ db.eventRows, ∀ b ∈ db.eventRows, a.ts = b.ts → cutoff ≤ a.ts →
    ∀ m n, a.id = StateStore.eventIdText m → b.id = StateStore.eventIdText n →
      m < n → StateStore.eventIdText m < StateStore.eventIdText n

/-- No survivor is older than the cutoff. -/
theorem fresh_of_survives {db : Database} (h : db.PrimaryKeys) {config : Config}
    {now : TimePoint} {bytes : Nat → Int} {row : EventRow}
    (hrow : row ∈ (db.applyRetention config now bytes).eventRows) :
    retentionCutoff config now ≤ row.ts := by
  have htrim : row ∈ (db.trimHistory config now).eventRows :=
    (shrinks_enforceSizeLimit _ config bytes).eventRows.subset hrow
  exact not_lt.mp ((mem_trimHistory_iff h config now).mp htrim).2.1

/-- Where the texts are ordered as the numbers, the oldest events go first. -/
theorem TextOrder.oldestFirst {time : Nat → TimePoint} (htime : Monotone time) {db : Database}
    (h : db.PrimaryKeys) (hnumbered : EventsNumbered time db) {config : Config}
    {now : TimePoint} (horder : TextOrder (retentionCutoff config now) db)
    (bytes : Nat → Int) : OldestFirst db (db.applyRetention config now bytes) := by
  have hshrinks := db.shrinks_applyRetention config now bytes
  intro m n hm hgone hn
  obtain ⟨a, ha, hida⟩ := h.mem_events_iff.mp hm
  obtain ⟨b, hb, hidb⟩ := (h.shrinks hshrinks).mem_events_iff.mp hn
  have hbold := hshrinks.eventRows.subset hb
  by_contra hle
  have hne : m ≠ n := by
    rintro rfl
    exact hgone hn
  have hlt : n < m := by omega
  have hnewer : NewestEvent a b := by
    obtain ⟨i, hi, hats⟩ := hnumbered a ha
    obtain ⟨j, hj, hbts⟩ := hnumbered b hbold
    obtain rfl := StateStore.eventIdText_inj.mp (hida.symm.trans hi)
    obtain rfl := StateStore.eventIdText_inj.mp (hidb.symm.trans hj)
    have hts : b.ts ≤ a.ts := by
      rw [hats, hbts]
      exact unixSeconds_mono (htime hlt.le)
    rcases hts.lt_or_eq with hlater | hsame
    · exact Or.inl hlater
    · refine Or.inr ⟨hsame, ?_⟩
      rw [hida, hidb]
      exact List.le_of_lt
        (horder b hbold a ha hsame (fresh_of_survives h hb) n m hidb hida hlt)
  have hkept := keepsNewer_applyRetention h config now bytes a ha b hb hnewer
  exact hgone ((h.shrinks hshrinks).mem_events_iff.mpr ⟨a, hkept, hida⟩)

/-- The events that the cut by age leaves. -/
def freshEvents (config : Config) (now : TimePoint) (db : Database) : List EventRow :=
  db.eventRows.filter fun row => ¬ row.ts < retentionCutoff config now

/-- For every event that the cut by age leaves there is a limit that it just
meets. -/
theorem exists_limit {db : Database} (h : db.PrimaryKeys) (config : Config) (now : TimePoint)
    (hrows : db.eventRows.length < 2 ^ 63) {a : EventRow} (ha : a ∈ db.freshEvents config now) :
    ∃ limit, ∀ row, row ∈ (db.applyRetention { config with sqliteMaxEvents := limit } now
        fun _ => 0).eventRows ↔
      row ∈ db.freshEvents config now ∧
        Ranking.rank NewestEvent (db.freshEvents config now) row ≤
          Ranking.rank NewestEvent (db.freshEvents config now) a := by
  have hrank : Ranking.rank NewestEvent (db.freshEvents config now) a < 2 ^ 63 :=
    ((Ranking.rank_le_length _ a).trans (List.length_filter_le _ _)).trans_lt hrows
  have hpos : 0 < Ranking.rank NewestEvent (db.freshEvents config now) a := Ranking.rank_pos ha
  have hlimit : (UInt64.ofNat (Ranking.rank NewestEvent (db.freshEvents config now) a)).toNat =
      Ranking.rank NewestEvent (db.freshEvents config now) a := by
    rw [UInt64.toNat_ofNat_of_lt']
    exact hrank.trans (by decide)
  have hquota : quotaOf (max 1 (UInt64.ofNat
      (Ranking.rank NewestEvent (db.freshEvents config now) a))) =
        Ranking.rank NewestEvent (db.freshEvents config now) a := by
    rw [quotaOf_max (by omega), hlimit, max_eq_right hpos]
  refine ⟨UInt64.ofNat (Ranking.rank NewestEvent (db.freshEvents config now) a), fun row => ?_⟩
  rw [applyRetention_eq, enforceSizeLimit_within (withinSize_zero _), mem_trimHistory_iff h]
  show row ∈ db.eventRows ∧ ¬ row.ts < retentionCutoff config now ∧
    Ranking.rank NewestEvent (db.freshEvents config now) row ≤ quotaOf (max 1 _) ↔ _
  rw [hquota, ← and_assoc]
  refine and_congr_left fun _ => ?_
  rw [freshEvents, List.mem_filter, decide_eq_true_eq]

/-- Where two texts are ordered against their numbers, some limit deletes the
newer event and keeps the older one. -/
theorem textOrder_of_oldestFirst {db : Database} (h : db.PrimaryKeys) (config : Config)
    (now : TimePoint) (hrows : db.eventRows.length < 2 ^ 63)
    (hfirst : ∀ limit bytes, OldestFirst db
      (db.applyRetention { config with sqliteMaxEvents := limit } now bytes)) :
    TextOrder (retentionCutoff config now) db := by
  intro a ha b hb hts hfresh m n hida hidb hlt
  by_contra hnot
  have hle : b.id ≤ a.id := by
    rw [hida, hidb]
    exact List.not_lt.mp hnot
  have hba : ¬ NewestEvent b a := by
    rintro (hlater | ⟨-, hle'⟩)
    · omega
    · have hsame := List.le_antisymm hle hle'
      rw [hida, hidb, StateStore.eventIdText_inj] at hsame
      omega
  have hat : a ∈ db.freshEvents config now := List.mem_filter.mpr ⟨ha, by simpa using hfresh⟩
  have hbt : b ∈ db.freshEvents config now :=
    List.mem_filter.mpr ⟨hb, by simpa [← hts] using hfresh⟩
  have hrank := Ranking.rank_lt hbt (Or.inr ⟨hts.symm, hle⟩) hba
  obtain ⟨limit, hlimit⟩ := exists_limit h config now hrows hat
  have hafter := h.shrinks (db.shrinks_applyRetention { config with sqliteMaxEvents := limit } now
    fun _ => 0)
  have hkept := hafter.mem_events_iff.mpr ⟨a, (hlimit a).mpr ⟨hat, le_refl _⟩, hida⟩
  have hgone : StateStore.eventIdText n ∉ (db.applyRetention
      { config with sqliteMaxEvents := limit } now fun _ => 0).events := by
    intro hn
    obtain ⟨c, hc, hidc⟩ := hafter.mem_events_iff.mp hn
    have hcb : c = b := List.inj_on_of_nodup_map h.event_ids
      ((db.shrinks_applyRetention _ _ _).eventRows.subset hc) hb (hidc.trans hidb.symm)
    have hover := ((hlimit c).mp hc).2
    rw [hcb] at hover
    omega
  have horder := hfirst limit (fun _ => 0) n m (h.mem_events_iff.mpr ⟨b, hb, hidb⟩) hgone hkept
  omega

/-- **When the oldest events go first.**  After every run that persists numbered
events with times that do not decrease, a retention pass deletes no event that
was generated after a survivor, provided that among the stored events of each
second the texts of the ids are ordered as the numbers.  Where they are not, the
pass does so for some limit of the configuration. -/
theorem oldest_events_first (time : Nat → TimePoint) (htime : Monotone time)
    {ops : List HistoryOp} (hops : ∀ op ∈ ops, PersistsNumbered time op) (config : Config)
    (now : TimePoint) :
    (TextOrder (retentionCutoff config now) (Runs.run apply {} ops) →
      ∀ bytes, OldestFirst (Runs.run apply {} ops)
        ((Runs.run apply {} ops).applyRetention config now bytes)) ∧
    ((Runs.run apply {} ops).eventRows.length < 2 ^ 63 →
      (∀ limit bytes, OldestFirst (Runs.run apply {} ops)
        ((Runs.run apply {} ops).applyRetention
          { config with sqliteMaxEvents := limit } now bytes)) →
      TextOrder (retentionCutoff config now) (Runs.run apply {} ops)) := by
  obtain ⟨hkeyed, hnumbered⟩ := run_numbered hops
  exact ⟨fun horder bytes => horder.oldestFirst htime hkeyed.keys hnumbered bytes,
    textOrder_of_oldestFirst hkeyed.keys config now⟩

/-- Ten events within one second. -/
def tenEvents : List HistoryOp :=
  (List.range 11).tail.map fun n =>
    .insertEvent { id := StateStore.eventIdText n, ts := seconds 1000 }

/-- Two events of one second: the pass that keeps one of them keeps the newer. -/
theorem oldest_events_first_two :
    let db := Runs.run apply {} (tenEvents.take 2)
    db.eventRows.length = 2 ∧
      (db.applyRetention newestOnly (seconds 2000) fun _ => 0).eventRows.map EventRow.id =
        [StateStore.eventIdText 2] ∧
      OldestFirst db (db.applyRetention newestOnly (seconds 2000) fun _ => 0) := by
  refine ⟨by decide +kernel, by decide +kernel,
    (oldest_events_first (fun _ => seconds 1000) monotone_const ?_ _ _).1 ?_ _⟩
  · intro op hop
    fin_cases hop
    · rintro event ⟨⟩
      exact ⟨1, rfl, rfl⟩
    · rintro event ⟨⟩
      exact ⟨2, rfl, rfl⟩
  · intro a ha b hb _ _ m n hm hn hlt
    have hids : (Runs.run apply {} (tenEvents.take 2)).eventRows.map EventRow.id =
        [StateStore.eventIdText 2, StateStore.eventIdText 1] := by decide +kernel
    have ham := List.mem_map_of_mem (f := EventRow.id) ha
    have hbn := List.mem_map_of_mem (f := EventRow.id) hb
    simp only [hids, hm, hn, List.mem_cons, List.not_mem_nil, or_false,
      StateStore.eventIdText_inj] at ham hbn
    obtain ⟨rfl, rfl⟩ : m = 1 ∧ n = 2 := by omega
    decide +kernel

/-- Of ten events of one second the pass that keeps one keeps the ninth and
deletes the tenth, whose id is the smaller text. -/
theorem tenth_event_dropped_first :
    let db := Runs.run apply {} tenEvents
    (db.applyRetention newestOnly (seconds 2000) fun _ => 0).eventRows.map EventRow.id =
        [StateStore.eventIdText 9] ∧
      ¬ OldestFirst db (db.applyRetention newestOnly (seconds 2000) fun _ => 0) := by
  refine ⟨by decide +kernel, fun hfirst => ?_⟩
  exact absurd (hfirst 10 9 (by decide +kernel) (by decide +kernel) (by decide +kernel)) (by decide)

end Database

end Netmon
