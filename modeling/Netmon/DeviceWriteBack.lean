import Netmon.DeviceRows
import Netmon.WriteBack

/-!
# Device rows written by concurrent handlers

Every handler of a line about a device, and the cleanup thread, calls the store,
takes a snapshot of all devices with `devices()` and hands it to `upsertDevices`.
Each of the three is atomic under a lock of its own, and nothing holds between
them.  A handler that is slow with its last step writes old rows over newer ones.

The service is an instance of `WriteBack`: the values are the records by the key
of their row, the level is the second of `last_seen`, and a record is written as
the row of its time of writing with the status it had in the snapshot.  The
counters `taken` and `written` are not part of the program; they number the
snapshots, so that the order of the writes can be spoken of.
-/

namespace Netmon

/-! ## Handlers -/

/-- Where a handler stands between `updateDevice` and the like, `devices()` and
`upsertDevices`.  The snapshot it holds carries its number and its time. -/
inductive Phase where
  | idle
  | updated
  | holding (number : Nat) (view : TimePoint) (snapshot : List DeviceState)
  deriving DecidableEq

namespace Phase

/-- The phase, with the values of the snapshot by row key. -/
def values : Phase → WriteBack.Phase Str DeviceState
  | .idle => .idle
  | .updated => .updated
  | .holding number _ snapshot => .holding number (valueAt snapshot)

@[simp] theorem values_idle : idle.values = .idle := rfl

@[simp] theorem values_updated : updated.values = .updated := rfl

@[simp] theorem values_holding (number : Nat) (view : TimePoint) (snapshot : List DeviceState) :
    (holding number view snapshot).values = .holding number (valueAt snapshot) := rfl

/-- Who holds values holds a snapshot with them. -/
theorem of_values_holding {p : Phase} {number : Nat} {held : Str → Option DeviceState}
    (h : p.values = .holding number held) :
    ∃ view snapshot, p = .holding number view snapshot ∧ held = valueAt snapshot := by
  cases p with
  | idle => exact absurd h (by simp)
  | updated => exact absurd h (by simp)
  | holding n view snapshot =>
      cases h
      exact ⟨view, snapshot, rfl, rfl⟩

/-- A step of one handler changes its own phase only. -/
theorem values_update (phase : Nat → Phase) (handler : Nat) (p : Phase) :
    (fun other => (Function.update phase handler p other).values) =
      Function.update (fun other => (phase other).values) handler p.values := by
  funext other
  by_cases h : other = handler
  · subst h
    simp
  · simp [h]

end Phase

/-- The store and the database with the handlers at work on them, named by
numbers. -/
structure Service where
  store : StateStore
  db : Database
  phase : Nat → Phase
  taken : Nat
  written : Nat

/-- One atomic step of a handler, with the clock reading it takes. -/
inductive ServiceStep where
  | update (handler : Nat) (op : StoreOp)
  | snapshot (handler : Nat) (now : TimePoint)
  | upsert (handler : Nat) (now : TimePoint)

namespace Service

/-- All handlers are idle and nothing has been taken. -/
def start (store : StateStore) (db : Database) : Service where
  store := store
  db := db
  phase := fun _ => .idle
  taken := 0
  written := 0

/-- A step that does not fit the phase of its handler does nothing.  A call that
leaves the records alone, such as `addEvent`, is not followed by a snapshot. -/
def step (s : Service) : ServiceStep → Service
  | .update handler op =>
      match s.phase handler with
      | .holding _ _ _ => s
      | _ =>
          { s with
            store := s.store.apply op
            phase :=
              if StateStore.writesDevices op then Function.update s.phase handler .updated
              else s.phase }
  | .snapshot handler now =>
      match s.phase handler with
      | .updated =>
          { s with
            phase := Function.update s.phase handler
              (.holding (s.taken + 1) now (s.store.devices now))
            taken := s.taken + 1 }
      | _ => s
  | .upsert handler now =>
      match s.phase handler with
      | .holding number _ snapshot =>
          { s with
            db := s.db.upsertDevices now snapshot
            phase := Function.update s.phase handler .idle
            written := number }
      | _ => s

/-- A `last_seen` of a row key, in the table or in a snapshot on its way there. -/
def Recorded (s : Service) (k : Str) (t : Int) : Prop :=
  (∃ row, s.db.devices.lookup k = some row ∧ row.lastSeen = t) ∨
    ∃ handler number view snapshot, s.phase handler = .holding number view snapshot ∧
      ∃ d ∈ snapshot, deviceKey d ≠ [] ∧ rowKey d = k ∧ unixSeconds d.lastSeen = t

/-- The steps that keep the rows in order.  Records stay apart by their row keys,
and one that had no time in memory, being new or forgotten by the cleanup, is
not older than what is recorded of it; a snapshot is written only after those
taken before it. -/
def Admissible (s : Service) : ServiceStep → Prop
  | .update handler op => StateStore.writesDevices op = true →
      (∀ number view snapshot, s.phase handler ≠ .holding number view snapshot) →
        OneEach (s.store.apply op).records ∧
          ∀ d' ∈ (s.store.apply op).records, deviceKey d' ≠ [] →
            (∃ d ∈ s.store.records, deviceKey d ≠ [] ∧ rowKey d = rowKey d' ∧
              d.lastSeen ≠ 0) ∨
              ∀ t, s.Recorded (rowKey d') t → t ≤ unixSeconds d'.lastSeen
  | .snapshot _ _ => True
  | .upsert handler _ => ∀ number view snapshot,
      s.phase handler = .holding number view snapshot → s.written < number

/-- A store and a database to start from: the rows are told apart, and no record
is older than its row. -/
def Startable (store : StateStore) (db : Database) : Prop :=
  OneEach store.records ∧ ∀ d ∈ store.records, deviceKey d ≠ [] →
    ∀ row, db.devices.lookup (rowKey d) = some row → row.lastSeen ≤ unixSeconds d.lastSeen

/-- An empty store can start on any database. -/
theorem startable_init (config : Config) (db : Database) :
    Startable (StateStore.init config) db :=
  ⟨fun _ hd => absurd hd List.not_mem_nil, fun _ hd => absurd hd List.not_mem_nil⟩

/-- Every record with a key is in the devices table with its values, and with
the status it had at some time. -/
def RowsShown (store : StateStore) (db : Database) : Prop :=
  ∀ d ∈ store.records, deviceKey d ≠ [] → ∃ view written,
    db.devices.lookup (rowKey d) =
      some (deviceRow written { d with status := statusFor store.config d view })

/-! ## The service writes snapshots back -/

/-- The values that the service holds, by row key. -/
def values (s : Service) : WriteBack.State Nat Str DeviceState DeviceRow where
  memory := valueAt s.store.records
  table := fun k => s.db.devices.lookup k
  phase := fun handler => (s.phase handler).values
  taken := s.taken
  written := s.written

/-- The time of the snapshot that a handler holds. -/
def viewOf : Phase → TimePoint
  | .holding _ view _ => view
  | _ => 0

/-- The step on the values, if it is one. -/
def stepValues (s : Service) :
    ServiceStep → Option (WriteBack.Step Nat Str DeviceState (TimePoint × TimePoint))
  | .update handler op =>
      if StateStore.writesDevices op then
        some (.update handler (valueAt (s.store.apply op).records))
      else none
  | .snapshot handler _ => some (.snapshot handler)
  | .upsert handler now => some (.write handler (viewOf (s.phase handler), now))

/-- What makes the values well defined: records and snapshots are told apart by
their row keys, and the snapshots have the status of their time. -/
structure Formed (config : Config) (s : Service) : Prop where
  settings : s.store.config = config
  apart : OneEach s.store.records
  flights : ∀ handler number view snapshot, s.phase handler = .holding number view snapshot →
    OneEach snapshot ∧ ∀ d ∈ snapshot, d.status = statusFor config d view

/-- A call that writes no device is no step for the values. -/
theorem values_of_not_writesDevices {s : Service} {handler : Nat} {op : StoreOp}
    (h : StateStore.writesDevices op = false) :
    (s.step (.update handler op)).values = s.values := by
  have hrecords : (s.store.apply op).records = s.store.records := by
    unfold StateStore.records
    rw [StateStore.apply_of_not_writesDevices h]
  cases hphase : s.phase handler with
  | holding number view snapshot => simp [step, values, hphase]
  | idle => simp [step, values, hphase, h, hrecords]
  | updated => simp [step, values, hphase, h, hrecords]

/-- **The service refines the write-back of values.**  Each of its steps is one of
theirs, or changes no value. -/
theorem Formed.values_step {config : Config} {s : Service} (h : Formed config s)
    (i : ServiceStep) :
    (s.stepValues i = none ∧ (s.step i).values = s.values) ∨
      ∃ j, s.stepValues i = some j ∧
        (s.step i).values = WriteBack.step (rowAt config) s.values j := by
  cases i with
  | update handler op =>
      cases hwrites : StateStore.writesDevices op with
      | false =>
          exact Or.inl ⟨by simp [stepValues, hwrites], values_of_not_writesDevices hwrites⟩
      | true =>
          refine Or.inr ⟨_, if_pos hwrites, ?_⟩
          cases hphase : s.phase handler with
          | holding number view snapshot => simp [step, WriteBack.step, values, hphase]
          | idle => simp [step, WriteBack.step, values, hphase, hwrites, Phase.values_update]
          | updated => simp [step, WriteBack.step, values, hphase, hwrites, Phase.values_update]
  | snapshot handler now =>
      refine Or.inr ⟨_, rfl, ?_⟩
      cases hphase : s.phase handler with
      | updated =>
          simp [step, WriteBack.step, values, hphase, Phase.values_update,
            StateStore.valueAt_devices h.apart]
      | idle => simp [step, WriteBack.step, values, hphase]
      | holding number view snapshot => simp [step, WriteBack.step, values, hphase]
  | upsert handler now =>
      refine Or.inr ⟨_, rfl, ?_⟩
      cases hphase : s.phase handler with
      | holding number view snapshot =>
          obtain ⟨hone, hstatus⟩ := h.flights handler number view snapshot hphase
          simp [step, WriteBack.step, values, hphase, Phase.values_update, viewOf,
            lookup_upsertDevices hone hstatus]
      | idle => simp [step, WriteBack.step, values, hphase]
      | updated => simp [step, WriteBack.step, values, hphase]

/-- A call on the store by a handler that holds no snapshot. -/
theorem Formed.update {config : Config} {s : Service} (h : Formed config s) {handler : Nat}
    {op : StoreOp} (hfree : ∀ number view snapshot, s.phase handler ≠ .holding number view snapshot)
    (hi : s.Admissible (.update handler op)) :
    Formed config
      { s with
        store := s.store.apply op
        phase :=
          if StateStore.writesDevices op then Function.update s.phase handler .updated
          else s.phase } := by
  have hsettings := (s.store.apply_records op).1.trans h.settings
  cases hwrites : StateStore.writesDevices op with
  | true =>
      exact ⟨hsettings, (hi hwrites hfree).1, fun _ _ _ _ hphase =>
        h.flights _ _ _ _ (Function.eq_of_update_eq hphase (by simp))⟩
  | false =>
      refine ⟨hsettings, ?_, h.flights⟩
      show OneEach (s.store.apply op).records
      unfold StateStore.records
      rw [StateStore.apply_of_not_writesDevices hwrites]
      exact h.apart

/-- An admissible step keeps the values well defined. -/
theorem Formed.next {config : Config} {s : Service} (h : Formed config s) {i : ServiceStep}
    (hi : s.Admissible i) : Formed config (s.step i) := by
  cases i with
  | update handler op =>
      cases hphase : s.phase handler with
      | holding number view snapshot => simpa [step, hphase] using h
      | idle => simpa only [step, hphase] using h.update (by simp [hphase]) hi
      | updated => simpa only [step, hphase] using h.update (by simp [hphase]) hi
  | snapshot handler now =>
      cases hphase : s.phase handler with
      | idle => simpa [step, hphase] using h
      | holding number view snapshot => simpa [step, hphase] using h
      | updated =>
          simp only [step, hphase]
          refine ⟨h.settings, h.apart, fun other number view snapshot hholds => ?_⟩
          rcases Function.update_cases hholds with ⟨-, hnew⟩ | ⟨-, hold⟩
          · cases hnew
            refine ⟨StateStore.oneEach_devices h.apart now, fun d hd => ?_⟩
            obtain ⟨r, -, rfl⟩ := StateStore.mem_devices_iff.mp hd
            rw [h.settings]
            rfl
          · exact h.flights other number view snapshot hold
  | upsert handler now =>
      cases hphase : s.phase handler with
      | idle => simpa [step, hphase] using h
      | updated => simpa [step, hphase] using h
      | holding number view snapshot =>
          simp only [step, hphase]
          exact ⟨h.settings, h.apart, fun _ _ _ _ hholds =>
            h.flights _ _ _ _ (Function.eq_of_update_eq hholds (by simp))⟩

/-- The second of the last sighting of a record, and of a row. -/
def levelOf (d : DeviceState) : Int := unixSeconds d.lastSeen

/-- A row is stamped with when its device was last seen. -/
theorem stamp_rowAt (config : Config) (clock : TimePoint × TimePoint) (d : DeviceState) :
    (rowAt config clock d).lastSeen = levelOf d := rfl

/-- What is known of a row key in the values is recorded in the service. -/
theorem Formed.recorded {config : Config} {s : Service} (h : Formed config s) {k : Str} {t : Int}
    (hknown : WriteBack.Known levelOf DeviceRow.lastSeen s.values k t) : s.Recorded k t := by
  rcases hknown with hrow | ⟨handler, number, held, v, hphase, hv, rfl⟩
  · exact Or.inl hrow
  · obtain ⟨view, snapshot, hholds, rfl⟩ := Phase.of_values_holding hphase
    obtain ⟨hone, -⟩ := h.flights handler number view snapshot hholds
    obtain ⟨d, hd, hkey, hrow, rfl⟩ := (valueAt_eq_some_iff hone).mp hv
    exact Or.inr ⟨handler, number, view, snapshot, hholds, d, hd, hkey, hrow, rfl⟩

/-- An admissible step is an ordered step on the values. -/
theorem Formed.ordered {config : Config} {s : Service} (h : Formed config s) {i : ServiceStep}
    (hi : s.Admissible i) {j : WriteBack.Step Nat Str DeviceState (TimePoint × TimePoint)}
    (hj : s.stepValues i = some j) :
    WriteBack.Ordered levelOf DeviceRow.lastSeen s.values j := by
  cases i with
  | update handler op =>
      cases hwrites : StateStore.writesDevices op with
      | false => simp [stepValues, hwrites] at hj
      | true =>
          obtain rfl : .update handler (valueAt (s.store.apply op).records) = j := by
            simpa [stepValues, hwrites] using hj
          intro hfree k v' hv'
          have hnot : ∀ number view snapshot,
              s.phase handler ≠ .holding number view snapshot := by
            intro number view snapshot hholds
            exact hfree number (valueAt snapshot) (congrArg Phase.values hholds)
          obtain ⟨hone, hrecent⟩ := hi hwrites hnot
          obtain ⟨d', hd', hkey', rfl, rfl⟩ := (valueAt_eq_some_iff hone).mp hv'
          rcases hrecent d' hd' hkey' with ⟨d, hd, hkey, hrow, hseen⟩ | hnew
          · refine Or.inl
              ⟨plain d, (valueAt_eq_some_iff h.apart).mpr ⟨d, hd, hkey, hrow, rfl⟩, ?_⟩
            show unixSeconds d.lastSeen ≤ unixSeconds d'.lastSeen
            exact unixSeconds_mono
              (StateStore.lastSeen_kept h.apart hone hd hd' hkey hkey' hrow hseen)
          · exact Or.inr fun t ht => hnew t (h.recorded ht)
  | snapshot handler now =>
      cases hj
      trivial
  | upsert handler now =>
      cases hj
      intro number held hphase
      obtain ⟨view, snapshot, hholds, -⟩ := Phase.of_values_holding hphase
      exact hi number view snapshot hholds

/-- The service at a point of a run: its values are well defined and written
back in order. -/
structure Sound (config : Config) (shown : Prop) (s : Service) : Prop where
  formed : Formed config s
  inv : WriteBack.Inv (rowAt config) levelOf DeviceRow.lastSeen shown s.values

/-- An admissible step keeps the service sound. -/
theorem Sound.next {config : Config} {shown : Prop} {s : Service} (h : Sound config shown s)
    {i : ServiceStep} (hi : s.Admissible i) : Sound config shown (s.step i) := by
  refine ⟨h.formed.next hi, ?_⟩
  rcases h.formed.values_step i with ⟨-, hsame⟩ | ⟨j, hj, hstep⟩
  · rw [hsame]
    exact h.inv
  · rw [hstep]
    exact h.inv.next (stamp_rowAt config) (h.formed.ordered hi hj)

/-- An admissible step keeps every row, with a time that is not earlier. -/
theorem Sound.row_rises {config : Config} {shown : Prop} {s : Service} (h : Sound config shown s)
    {i : ServiceStep} (hi : s.Admissible i) {k : Str} {row : DeviceRow}
    (hrow : s.db.devices.lookup k = some row) :
    ∃ row', (s.step i).db.devices.lookup k = some row' ∧ row.lastSeen ≤ row'.lastSeen := by
  show ∃ row', (s.step i).values.table k = some row' ∧ row.lastSeen ≤ row'.lastSeen
  rcases h.formed.values_step i with ⟨-, hsame⟩ | ⟨j, hj, hstep⟩
  · rw [hsame]
    exact ⟨row, hrow, le_refl _⟩
  · rw [hstep]
    exact h.inv.table_rises (stamp_rowAt config) (h.formed.ordered hi hj) hrow

/-- The rows show the records exactly when the table shows the values. -/
theorem Formed.shown_iff {config : Config} {s : Service} (h : Formed config s) :
    WriteBack.Shown (rowAt config) s.values ↔ RowsShown s.store s.db := by
  constructor
  · intro hshown d hd hkey
    obtain ⟨clock, hrow⟩ := hshown (rowKey d) (plain d)
      ((valueAt_eq_some_iff h.apart).mpr ⟨d, hd, hkey, rfl, rfl⟩)
    refine ⟨clock.1, clock.2, ?_⟩
    rw [h.settings]
    exact hrow
  · intro hshown k v hv
    obtain ⟨d, hd, hkey, rfl, rfl⟩ := (valueAt_eq_some_iff h.apart).mp hv
    obtain ⟨view, written, hrow⟩ := hshown d hd hkey
    rw [h.settings] at hrow
    exact ⟨(view, written), hrow⟩

/-- A service that may start is sound. -/
theorem sound_start {store : StateStore} {db : Database} (h : Startable store db) :
    Sound store.config (RowsShown store db) (start store db) := by
  have hformed : Formed store.config (start store db) := ⟨rfl, h.1, nofun⟩
  have hinv : WriteBack.Inv (rowAt store.config) levelOf DeviceRow.lastSeen
      (WriteBack.Shown (rowAt store.config) (start store db).values)
      (start store db).values := by
    refine WriteBack.inv_start fun k v row hv hrow => ?_
    obtain ⟨d, hd, hkey, rfl, rfl⟩ := (valueAt_eq_some_iff h.1).mp hv
    exact h.2 d hd hkey row hrow
  rw [hformed.shown_iff] at hinv
  exact ⟨hformed, hinv⟩

/-- **Write-back in order.**  In every run of admissible steps no `last_seen` in
the devices table ever decreases; and once all handlers are idle, every record
in memory is in the table with its current values, if a snapshot was taken at
all or the table showed the records at the start. -/
theorem rows_follow_records (store : StateStore) (db : Database) (before after : List ServiceStep)
    (hstart : Startable store db)
    (hrun : Runs.Conforms step Admissible (start store db) (before ++ after)) :
    let early := Runs.run step (start store db) before
    let late := Runs.run step (start store db) (before ++ after)
    (∀ k row, early.db.devices.lookup k = some row →
      ∃ row', late.db.devices.lookup k = some row' ∧ row.lastSeen ≤ row'.lastSeen) ∧
    ((∀ handler, late.phase handler = .idle) → late.taken ≠ 0 ∨ RowsShown store db →
      RowsShown late.store late.db) := by
  intro early late
  obtain ⟨hbefore, hafter⟩ := Runs.conforms_append.mp hrun
  have hearly : Sound store.config (RowsShown store db) early :=
    hbefore.invariant _ (fun _ _ h hi => h.next hi) (sound_start hstart)
  -- along the rest of the run the rows of the early state stay and rise
  have hlate : Sound store.config (RowsShown store db) late ∧
      ∀ k row, early.db.devices.lookup k = some row →
        ∃ row', late.db.devices.lookup k = some row' ∧ row.lastSeen ≤ row'.lastSeen := by
    have hsplit : late = Runs.run step early after := Runs.run_append _ _ _ _
    rw [hsplit]
    refine hafter.invariant
      (fun s => Sound store.config (RowsShown store db) s ∧
        ∀ k row, early.db.devices.lookup k = some row →
          ∃ row', s.db.devices.lookup k = some row' ∧ row.lastSeen ≤ row'.lastSeen)
      ?_ ⟨hearly, fun k row hrow => ⟨row, hrow, le_refl _⟩⟩
    rintro s i ⟨hsound, hrisen⟩ hi
    refine ⟨hsound.next hi, fun k row hrow => ?_⟩
    obtain ⟨row₁, hrow₁, hle₁⟩ := hrisen k row hrow
    obtain ⟨row₂, hrow₂, hle₂⟩ := hsound.row_rises hi hrow₁
    exact ⟨row₂, hrow₂, hle₁.trans hle₂⟩
  refine ⟨hlate.2, fun hidle hshown => ?_⟩
  refine hlate.1.formed.shown_iff.mp (hlate.1.inv.quiescent (fun handler => ?_) hshown)
  exact congrArg Phase.values (hidle handler)

/-- Two handlers see a device at two times.  Both have taken their snapshots before the first
writes its one. -/
def twoHandlers : List ServiceStep :=
  [.update 0 (.updateDevice (seconds 10) { mac := str "aa:bb", lastSeen := seconds 10 }),
   .snapshot 0 (seconds 11),
   .update 1 (.updateDevice (seconds 20) { mac := str "aa:bb", lastSeen := seconds 20 }),
   .snapshot 1 (seconds 21), .upsert 0 (seconds 22), .upsert 1 (seconds 23)]

/-- They write in the order of their snapshots. -/
theorem twoHandlers_conforms :
    Runs.Conforms step Admissible (start (StateStore.init {}) {}) twoHandlers := by
  refine ⟨fun _ _ => ⟨?_, fun d _ _ => Or.inr ?_⟩, trivial,
    fun _ _ => ⟨?_, fun d hd hkey => Or.inl ?_⟩, trivial, ?_, ?_, trivial⟩
  · decide +kernel
  · intro t hseen
    rcases hseen with ⟨row, hrow, -⟩ | ⟨handler, number, view, snapshot, hphase, -⟩
    · exact absurd hrow (by simp [start])
    · exact absurd hphase (by simp [start])
  · decide +kernel
  · revert d
    decide +kernel
  · intro number view snapshot hphase
    obtain ⟨rfl, -, -⟩ := Phase.holding.inj (hphase : Phase.holding 1 _ _ = _)
    exact Nat.one_pos
  · intro number view snapshot hphase
    obtain ⟨rfl, -, -⟩ := Phase.holding.inj (hphase : Phase.holding 2 _ _ = _)
    exact Nat.one_lt_two

/-- After both have written, the record is in the table as it is in memory; the row that the
first one wrote has risen. -/
theorem rows_follow_records_interleaved :
    let early := Runs.run step (start (StateStore.init {}) {}) (twoHandlers.take 5)
    let late := Runs.run step (start (StateStore.init {}) {}) twoHandlers
    (early.db.devices.lookup (macKey (str "aa:bb"))).map DeviceRow.lastSeen = some 10 ∧
      (∃ row, late.db.devices.lookup (macKey (str "aa:bb")) = some row ∧ 10 ≤ row.lastSeen) ∧
      late.store.records.length = 1 ∧ RowsShown late.store late.db := by
  intro early late
  have hrisen := rows_follow_records (StateStore.init {}) {} (twoHandlers.take 5)
    (twoHandlers.drop 5) (startable_init {} {}) twoHandlers_conforms
  have hrow : (early.db.devices.lookup (macKey (str "aa:bb"))).map DeviceRow.lastSeen =
      some 10 := by decide +kernel
  obtain ⟨row, hfirst, hseen⟩ := Option.map_eq_some_iff.mp hrow
  refine ⟨hrow, hseen ▸ hrisen.1 _ row hfirst, by decide +kernel,
    hrisen.2 (fun handler => ?_) (Or.inl (by decide +kernel))⟩
  match handler with
  | 0 => rfl
  | 1 => rfl
  | n + 2 => rfl

/-- Two handlers see a device at two times, and the later one writes it. -/
def lateWriter : List ServiceStep :=
  [.update 0 (.updateDevice (seconds 10) { mac := str "aa:bb", lastSeen := seconds 10 }),
   .snapshot 0 (seconds 10),
   .update 1 (.updateDevice (seconds 20) { mac := str "aa:bb", lastSeen := seconds 20 }),
   .snapshot 1 (seconds 20), .upsert 1 (seconds 20)]

/-- The earlier handler writes last: the row goes back from 20 to 10 and stays
there, with all handlers idle and the record in memory at 20. -/
theorem late_writer_restores_old_row :
    let early := Runs.run step (start (StateStore.init {}) {}) lateWriter
    let late := Runs.run step (start (StateStore.init {}) {})
      (lateWriter ++ [.upsert 0 (seconds 21)])
    (early.db.devices.lookup (macKey (str "aa:bb"))).map DeviceRow.lastSeen = some 20 ∧
      (late.db.devices.lookup (macKey (str "aa:bb"))).map DeviceRow.lastSeen = some 10 ∧
      (∀ handler, late.phase handler = .idle) ∧ late.taken ≠ 0 ∧
      ¬ RowsShown late.store late.db := by
  intro early late
  have hrow : (late.db.devices.lookup (macKey (str "aa:bb"))).map DeviceRow.lastSeen = some 10 := by
    decide +kernel
  have hrecord : ∃ d ∈ late.store.records, deviceKey d ≠ [] ∧
      rowKey d = macKey (str "aa:bb") ∧ unixSeconds d.lastSeen = 20 := by
    decide +kernel
  refine ⟨by decide +kernel, hrow, ?_, by decide +kernel, fun hshown => ?_⟩
  · intro handler
    match handler with
    | 0 => rfl
    | 1 => rfl
    | n + 2 => rfl
  · obtain ⟨d, hd, hkey, hrowKey, hseen⟩ := hrecord
    obtain ⟨view, written, hshown⟩ := hshown d hd hkey
    rw [hrowKey] at hshown
    rw [hshown] at hrow
    exact absurd (hseen.symm.trans (Option.some.inj hrow)) (by decide)

end Service

end Netmon
