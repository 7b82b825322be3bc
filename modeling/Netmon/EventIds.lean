import Netmon.EventRecords
import Netmon.StoreCalls

/-!
# Event ids across restarts

Within one lifetime of the process the ids it gives out are new: the counter
only goes up, and the ring and the table hold ids of the start and numbers that
the counter has passed.  The counter is not part of the database, though.  Every
lifetime counts from one again over the table of the one before, so its ids are
new only as far as the table holds none of the numbers it gets to
(`ids_fresh_of_numbers_free`).
-/

namespace Netmon

namespace StateStore

/-! ## Ids of the ring -/

/-- The ids of the ring are among `known` or have a number that the counter has
passed. -/
def RingFrom (known : Str → Prop) (s : StateStore) : Prop :=
  ∀ e ∈ s.events.items, known (cString e.id) ∨ ∃ n, n ≤ s.eventSeq ∧ e.id = eventIdText n

/-- What only gives out the next ids leaves a ring of known and numbered ids. -/
theorem RingFrom.givesIds {known : Str → Prop} {s t : StateStore} (h : RingFrom known s)
    (hst : GivesIds s t) : RingFrom known t := by
  intro e he
  rcases hst.ring e he with hold | ⟨n, -, hle, hid⟩
  · rcases h e hold with hknown | ⟨n, hn, hid⟩
    · exact Or.inl hknown
    · exact Or.inr ⟨n, hn.trans hst.counter, hid⟩
  · exact Or.inr ⟨n, hle, hid⟩

/-- A number that the counter has not passed and that is not known is in no event
of the ring. -/
theorem RingFrom.other_id {known : Str → Prop} {s : StateStore} (h : RingFrom known s) {n : Nat}
    (hn : s.eventSeq < n) (hknown : ¬ known (eventIdText n)) :
    ∀ e ∈ s.events.items, cString e.id ≠ eventIdText n := by
  intro e he hsame
  rcases h e he with hold | ⟨m, hm, hid⟩
  · exact hknown (hsame ▸ hold)
  · rw [hid, cString_eq_self (zero_notMem_eventIdText m), eventIdText_inj] at hsame
    omega

/-- An event is known by its id, or gets the next number. -/
theorem RingFrom.addEvent {known : Str → Prop} {s : StateStore} (h : RingFrom known s)
    (now : TimePoint) {event : Event} (hknown : known (cString event.id)) :
    RingFrom known (s.addEvent now event) := by
  by_cases hid : event.id = []
  · obtain ⟨hevents, hseq⟩ := addEvent_unnamed now hid s
    apply h.givesIds
    refine ⟨by omega, fun e he => ?_⟩
    rw [hevents] at he
    rcases RingBuffer.mem_push he with hold | rfl
    · exact Or.inl hold
    · exact Or.inr ⟨s.eventSeq + 1, by omega, hseq.ge, rfl⟩
  · obtain ⟨hevents, hseq⟩ := addEvent_named now hid s
    intro e he
    rw [hevents] at he
    rw [hseq]
    rcases RingBuffer.mem_push he with hold | rfl
    · exact h e hold
    · exact Or.inl hknown

/-- A load fills the ring with ids of the table. -/
theorem ringFrom_loadInto (config : Config) (clock : Database.LoadClock) {db : Database}
    (h : db.EventsKeyed) :
    RingFrom (· ∈ db.events) (db.loadInto config clock (init config)) := by
  obtain ⟨hbefore, hafter⟩ := loadInto_sameEvents config clock db (init config)
  have hempty : RingFrom (· ∈ db.events) (init config) := by
    intro e he
    simp [init, RingBuffer.empty] at he
  have hrows : ∀ (rows : List EventRow) (s : StateStore),
      (∀ row ∈ rows, ∃ id, db.events.lookup id = some row) → RingFrom (· ∈ db.events) s →
      RingFrom (· ∈ db.events)
        (rows.foldl (fun s row => s.addEvent (clock.event row) (eventFromRow row)) s) := by
    intro rows
    induction rows with
    | nil => intro s _ hs; exact hs
    | cons row rows ih =>
        intro s hstored hs
        refine ih _ (fun r hr => hstored r (List.mem_cons_of_mem _ hr)) (hs.addEvent _ ?_)
        obtain ⟨id, hid⟩ := hstored row List.mem_cons_self
        obtain ⟨hrow, htext⟩ := h id row hid
        show cString (cString row.id) ∈ db.events
        rw [hrow, cString_eq_self htext, cString_eq_self htext]
        exact AList.mem_of_lookup hid
  exact (hrows _ _ (fun _ hrow => Database.mem_recentEventRows hrow)
    (hempty.givesIds hbefore.givesIds)).givesIds hafter.givesIds

end StateStore

namespace App

/-! ## Ids in a lifetime -/

/-- How many ids a step gives out: one for a line, and one for each device that
the cleanup finds gone. -/
def idsNeeded (app : App) : AppOp → Nat
  | .handleLog _ _ _ => 1
  | .cleanup clock =>
      (app.state.devicesByKey.entries.map Sigma.snd).countP
        (StateStore.goesOffline app.state.config clock.now)

/-- How many ids a run of steps gives out. -/
def idsUsed : App → List AppOp → Nat
  | _, [] => 0
  | app, op :: ops => app.idsNeeded op + idsUsed (app.step op) ops

/-- The counter moves on by the ids a step needs. -/
theorem step_eventSeq (app : App) (op : AppOp) :
    (app.step op).state.eventSeq = app.state.eventSeq + app.idsNeeded op := by
  cases op with
  | handleLog clock line peerIp => exact (handleLog_records clock line peerIp app).eventSeq
  | cleanup clock =>
      show (app.cleanupCycle clock).state.eventSeq = _
      rw [cleanupCycle_state]
      exact (StateStore.cleanup_events clock.now app.state).2

/-- The ids of the ring and of the table are among `known` or have a number that
the counter has passed. -/
structure IdsFrom (known : Str → Prop) (app : App) : Prop where
  ring : app.state.RingFrom known
  table : ∀ k, k ∈ app.db.events → known k ∨
    ∃ n, n ≤ app.state.eventSeq ∧ k = StateStore.eventIdText n
  keyed : app.db.EventsKeyed

/-- A line brings in no id but the next numbers. -/
theorem IdsFrom.handleLog {known : Str → Prop} {app : App} (h : IdsFrom known app)
    (clock : LogClock) (line peerIp : Str) : IdsFrom known (app.handleLog clock line peerIp) := by
  have hrec := handleLog_records clock line peerIp app
  have hseq : (app.handleLog clock line peerIp).state.eventSeq = app.state.eventSeq + 1 :=
    hrec.eventSeq
  refine ⟨fun e he => ?_, fun k hk => ?_, hrec.keyed h.keyed⟩
  · rcases hrec.ring e he with hold | hnew
    · rcases h.ring e hold with hknown | ⟨n, hn, hid⟩
      · exact Or.inl hknown
      · exact Or.inr ⟨n, by omega, hid⟩
    · exact Or.inr ⟨_, hseq.ge, hnew⟩
  · rcases hrec.table hk with hold | hnew
    · rcases h.table k hold with hknown | ⟨n, hn, hid⟩
      · exact Or.inl hknown
      · exact Or.inr ⟨n, by omega, hid⟩
    · rw [cString_eq_self (StateStore.zero_notMem_eventIdText _)] at hnew
      exact Or.inr ⟨_, hseq.ge, hnew⟩

/-- A row after the history was written back is an old one or that of an event in it. -/
theorem persistRecentEvents_lookup (app : App) {k : Str} {row : EventRow}
    (h : app.persistRecentEvents.db.events.lookup k = some row) :
    app.db.events.lookup k = some row ∨
      ∃ e ∈ app.state.events.items, cString e.id = k ∧
        eventRow (preprocessEventForStorage e) = row := by
  by_cases hsqlite : sqliteEnabled app.config = true
  · rw [persistRecentEvents_events app hsqlite] at h
    rcases AList.of_lookup_insertAll h with ⟨e, he, hid, hrow⟩ | hold
    · exact Or.inr ⟨e, List.mem_of_mem_drop he, hid, hrow⟩
    · exact Or.inl hold
  · rw [persistRecentEvents, if_neg hsqlite] at h
    exact Or.inl h

/-- **A row after a cleanup cycle** was there before, or it is that of an event in
the ring that the cleanup left. -/
theorem cleanupCycle_lookup (clock : CleanupClock) (app : App) {k : Str} {row : EventRow}
    (h : (app.cleanupCycle clock).db.events.lookup k = some row) :
    app.db.events.lookup k = some row ∨
      ∃ e ∈ (app.state.cleanup clock.now).events.items, cString e.id = k ∧
        eventRow (preprocessEventForStorage e) = row := by
  have hquiet := quiet_persistDevices clock.view clock.written
    (app.updateState (·.cleanup clock.now))
  have hwritten : (((app.updateState (·.cleanup clock.now)).persistDevices clock.view
      clock.written).persistRecentEvents).db.events.lookup k = some row := by
    simp only [cleanupCycle] at h
    split at h
    · exact (Database.shrinks_applyRetention _ _ _ _).lookup h
    · exact h
  rcases persistRecentEvents_lookup _ hwritten with hold | ⟨e, he, hid, hrow⟩
  · rw [hquiet.table] at hold
    exact Or.inl hold
  · rw [hquiet.state.events] at he
    exact Or.inr ⟨e, he, hid, hrow⟩

/-- A cleanup cycle keeps every row under its own id. -/
theorem cleanupCycle_keyed (clock : CleanupClock) {app : App} (h : app.db.EventsKeyed) :
    (app.cleanupCycle clock).db.EventsKeyed := by
  intro k row hrow
  rcases cleanupCycle_lookup clock app hrow with hold | ⟨e, -, rfl, rfl⟩
  · exact h k row hold
  · exact ⟨rfl, zero_notMem_cString _⟩

/-- A cleanup cycle brings in no id but the next numbers. -/
theorem IdsFrom.cleanupCycle {known : Str → Prop} {app : App} (h : IdsFrom known app)
    (clock : CleanupClock) : IdsFrom known (app.cleanupCycle clock) := by
  obtain ⟨hgives, -⟩ := StateStore.cleanup_events clock.now app.state
  have hring := h.ring.givesIds hgives
  refine ⟨?_, ?_, cleanupCycle_keyed clock h.keyed⟩
  · rw [cleanupCycle_state]
    exact hring
  · rw [cleanupCycle_state]
    intro k hk
    obtain ⟨row, hrow⟩ := AList.exists_lookup_of_mem hk
    rcases cleanupCycle_lookup clock app hrow with hold | ⟨e, he, hid, -⟩
    · rcases h.table k (AList.mem_of_lookup hold) with hknown | ⟨n, hn, hid⟩
      · exact Or.inl hknown
      · exact Or.inr ⟨n, hn.trans hgives.counter, hid⟩
    · rcases hring e he with hknown | ⟨n, hn, hname⟩
      · exact Or.inl (hid ▸ hknown)
      · rw [hname, cString_eq_self (StateStore.zero_notMem_eventIdText n)] at hid
        exact Or.inr ⟨n, hn, hid.symm⟩

/-- Every step keeps the ids in step with the counter. -/
theorem IdsFrom.step {known : Str → Prop} {app : App} (h : IdsFrom known app) (op : AppOp) :
    IdsFrom known (app.step op) := by
  cases op with
  | handleLog clock line peerIp => exact h.handleLog clock line peerIp
  | cleanup clock => exact h.cleanupCycle clock

/-- At the start the ring and the table hold ids of the table. -/
theorem idsFrom_openStore (config : Config) (readings : StartReadings) {db : Database}
    (h : db.EventsKeyed) :
    IdsFrom (· ∈ (openStore config readings db).db.events) (openStore config readings db) := by
  have hkept := (db.shrinks_applyRetention config readings.now readings.bytes).keyed h
  exact ⟨StateStore.ringFrom_loadInto config readings.load hkept, fun k hk => Or.inl hk, hkept⟩

/-- A number that the counter has not passed and that is not known is in no row. -/
theorem IdsFrom.notMem {known : Str → Prop} {app : App} (h : IdsFrom known app) {n : Nat}
    (hn : app.state.eventSeq < n) (hknown : ¬ known (StateStore.eventIdText n)) :
    StateStore.eventIdText n ∉ app.db.events := by
  intro hstored
  rcases h.table _ hstored with hold | ⟨m, hm, hsame⟩
  · exact hknown hold
  · rw [StateStore.eventIdText_inj] at hsame
    omega

/-- **The rule for a run that gets to none of the known numbers**: what such a step does from
the invariant, and the invariant itself, hold at every step. -/
theorem IdsFrom.conforms {known : Str → Prop} {ok : App → AppOp → Prop} (inv : App → Prop)
    (hok : ∀ app op, IdsFrom known app → inv app →
      (∀ n, app.state.eventSeq < n → n ≤ (app.step op).state.eventSeq →
        ¬ known (StateStore.eventIdText n)) → ok app op ∧ inv (app.step op))
    {app : App} (hids : IdsFrom known app) (h : inv app) {ops : List AppOp}
    (hfree : ∀ n, n ≤ app.state.eventSeq + app.idsUsed ops → app.state.eventSeq < n →
      ¬ known (StateStore.eventIdText n)) :
    Runs.Conforms App.step ok app ops := by
  induction ops generalizing app with
  | nil => trivial
  | cons op ops ih =>
      have hseq := step_eventSeq app op
      rw [idsUsed] at hfree
      obtain ⟨hnow, hnext⟩ := hok app op hids h fun n hlt hle => hfree n (by omega) hlt
      exact ⟨hnow, ih (hids.step op) hnext fun n hle hlt => hfree n (by omega) (by omega)⟩

/-- The ids that the step gives out are in no row of the table. -/
def FreshIds (app : App) (op : AppOp) : Prop :=
  ∀ n, n ≤ (app.step op).state.eventSeq → app.state.eventSeq < n →
    StateStore.eventIdText n ∉ app.db.events

instance (app : App) (op : AppOp) : Decidable (FreshIds app op) :=
  inferInstanceAs (Decidable (∀ n, n ≤ _ → _))

/-- A run that gets to none of the known numbers gives out fresh ids only. -/
theorem IdsFrom.fresh {known : Str → Prop} {app : App} (h : IdsFrom known app)
    {ops : List AppOp}
    (hfree : ∀ n, n ≤ app.state.eventSeq + app.idsUsed ops → app.state.eventSeq < n →
      ¬ known (StateStore.eventIdText n)) :
    Runs.Conforms App.step FreshIds app ops := by
  refine IdsFrom.conforms (fun _ => True) (fun app op hids _ hnew => ⟨?_, trivial⟩) h trivial hfree
  intro n hle hlt
  exact hids.notMem hlt (hnew n hlt hle)

/-- A line with a fresh id replaces no row. -/
theorem FreshIds.rows_kept {app : App} {clock : LogClock} {line peerIp : Str}
    (h : FreshIds app (.handleLog clock line peerIp)) {id : Str} {row : EventRow}
    (hrow : app.db.events.lookup id = some row) :
    (app.handleLog clock line peerIp).db.events.lookup id = some row := by
  have hrec := handleLog_records clock line peerIp app
  rw [hrec.rows id, hrow]
  intro hid
  rw [cString_eq_self (StateStore.zero_notMem_eventIdText _)] at hid
  exact h (app.state.eventSeq + 1) hrec.eventSeq.ge (by omega) (hid ▸ AList.mem_of_lookup hrow)

/-- Lines alone remove no row, so a number in use stays in the way. -/
theorem free_of_fresh_lines {app : App} {ops : List AppOp}
    (hlines : ∀ op ∈ ops, ∃ clock line peerIp, op = AppOp.handleLog clock line peerIp)
    (hfresh : Runs.Conforms step FreshIds app ops) :
    ∀ n, n ≤ app.state.eventSeq + app.idsUsed ops → app.state.eventSeq < n →
      StateStore.eventIdText n ∉ app.db.events := by
  induction ops generalizing app with
  | nil =>
      intro n hle hlt
      rw [idsUsed] at hle
      omega
  | cons op ops ih =>
      intro n hle hlt hstored
      have hseq := step_eventSeq app op
      rw [idsUsed] at hle
      by_cases hnow : n ≤ (app.step op).state.eventSeq
      · exact hfresh.1 n hnow hlt hstored
      · obtain ⟨clock, line, peerIp, rfl⟩ := hlines op List.mem_cons_self
        have hkept := (handleLog_records clock line peerIp app).kept _ hstored
        exact ih (fun o ho => hlines o (List.mem_cons_of_mem _ ho)) hfresh.2 n (by omega)
          (by omega) hkept

end App

/-! ## The rows of the events in the ring -/

/-- A row is that of an event, up to the time: it was written for the event, or
the event was read from it. -/
def SameEvent (e : Event) (row : EventRow) : Prop :=
  (∃ ts, row = eventRow (preprocessEventForStorage { e with ts := ts })) ∨
    ∃ ts, e = { eventFromRow row with ts := ts }

/-- The events of the ring have different ids, and a row under the id of one of
them is its row. -/
structure RowsMatch (ring : RingBuffer Event) (table : StrMap EventRow) : Prop where
  distinct : (ring.items.map fun e => cString e.id).Nodup
  same : ∀ e ∈ ring.items, ∀ row, table.lookup (cString e.id) = some row → SameEvent e row

/-- Events with one id are one event. -/
theorem RowsMatch.eq_of_id {ring : RingBuffer Event} {table : StrMap EventRow}
    (h : RowsMatch ring table) {a b : Event} (ha : a ∈ ring.items) (hb : b ∈ ring.items)
    (hid : cString a.id = cString b.id) : a = b :=
  List.inj_on_of_nodup_map h.distinct ha hb hid

/-- An event with an id of its own, which is in no row. -/
theorem RowsMatch.push {ring : RingBuffer Event} {table : StrMap EventRow}
    (h : RowsMatch ring table) {e : Event}
    (hring : ∀ old ∈ ring.items, cString old.id ≠ cString e.id) (htable : cString e.id ∉ table) :
    RowsMatch (ring.push e) table := by
  constructor
  · rw [RingBuffer.push_items]
    refine List.Nodup.sublist ((popFrontTo_sublist _ _).map _) ?_
    rw [List.map_append, List.map_singleton, ← List.concat_eq_append]
    refine h.distinct.concat fun hmem => ?_
    obtain ⟨old, hold, hid⟩ := List.mem_map.mp hmem
    exact hring old hold hid
  · intro e' he row hrow
    rcases RingBuffer.mem_push he with hold | rfl
    · exact h.same e' hold row hrow
    · exact absurd (AList.mem_of_lookup hrow) htable

/-- A row is stored under an id that only the event of the row may have in the ring. -/
theorem RowsMatch.store {ring : RingBuffer Event} {table : StrMap EventRow}
    (h : RowsMatch ring table) {id : Str} {row : EventRow}
    (hrow : ∀ e ∈ ring.items, cString e.id = id → SameEvent e row) :
    RowsMatch ring (table.insert id row) := by
  refine ⟨h.distinct, fun e he row' hrow' => ?_⟩
  by_cases hid : cString e.id = id
  · rw [hid, AList.lookup_insert] at hrow'
    exact Option.some.inj hrow' ▸ hrow e he hid
  · rw [AList.lookup_insert_ne hid] at hrow'
    exact h.same e he row' hrow'

/-- The notices of a cleanup take ids of their own. -/
theorem RowsMatch.announceAll {known : Str → Prop} {table : StrMap EventRow} (now : TimePoint)
    {devices : List DeviceState} {s : StateStore} (h : RowsMatch s.events table)
    (hring : s.RingFrom known)
    (hnew : ∀ n, s.eventSeq < n → n ≤ (s.announceAll now devices).eventSeq →
      ¬ known (StateStore.eventIdText n) ∧ StateStore.eventIdText n ∉ table) :
    RowsMatch (s.announceAll now devices).events table := by
  induction devices generalizing s with
  | nil => exact h
  | cons device devices ih =>
      by_cases hgone : StateStore.goesOffline s.config now device = true
      · rw [StateStore.announceAll_cons_of_pos hgone] at hnew ⊢
        obtain ⟨hevents, hseq⟩ := StateStore.announceOffline_ring now
          (StateStore.sweepDevice s.config now device) s
        have hgives := (StateStore.announceOffline_events now
          (StateStore.sweepDevice s.config now device) s).1
        have hlater := (StateStore.announceAll_events now devices
          (s.announceOffline now (StateStore.sweepDevice s.config now device))).1.counter
        obtain ⟨hunknown, hfree⟩ := hnew (s.eventSeq + 1) (by omega) (by omega)
        have hkey := cString_eq_self (StateStore.zero_notMem_eventIdText (s.eventSeq + 1))
        refine ih ?_ (hring.givesIds hgives) fun n hlt hle => hnew n (by omega) hle
        rw [hevents]
        refine h.push (fun old hold => ?_) ?_
        · exact hkey.symm ▸ hring.other_id (Nat.lt_succ_self _) hunknown old hold
        · exact hkey.symm ▸ hfree
      · rw [StateStore.announceAll_cons_of_neg hgone] at hnew ⊢
        exact ih h hring hnew

namespace App

/-- A step replaces a row only by one that is written for the event of that row. -/
def KeepsEvents (app : App) (op : AppOp) : Prop :=
  ∀ id row row', app.db.events.lookup id = some row →
    (app.step op).db.events.lookup id = some row' →
      row' = row ∨ ∃ e, SameEvent e row ∧ row' = eventRow (preprocessEventForStorage e)

section

variable {known : Str → Prop} {app : App} (hids : IdsFrom known app)
  (h : RowsMatch app.state.events app.db.events)

include hids h

/-- The event of a line joins the ring and gets a row of its own. -/
theorem rowsMatch_handleLog (clock : LogClock) (line peerIp : Str)
    (hnew : ¬ known (StateStore.eventIdText (app.state.eventSeq + 1))) :
    RowsMatch (app.handleLog clock line peerIp).state.events
      (app.handleLog clock line peerIp).db.events := by
  have hkey := cString_eq_self (StateStore.zero_notMem_eventIdText (app.state.eventSeq + 1))
  have hlt : app.state.eventSeq < app.state.eventSeq + 1 := Nat.lt_succ_self _
  rcases (handleLog_records clock line peerIp app).events with
    ⟨hring, htable⟩ | ⟨event, hid, hring, htable⟩
  · rw [hring, htable]
    exact h
  · have hpushed : RowsMatch (app.state.events.push (StateStore.stampEvent clock.event event))
        app.db.events := by
      refine h.push (fun old hold => ?_) ?_ <;>
        rw [show (StateStore.stampEvent clock.event event).id = event.id from rfl, hid, hkey]
      · exact hids.ring.other_id hlt hnew old hold
      · exact hids.notMem hlt hnew
    rw [hring, htable, persistEvent_table]
    split
    · refine hpushed.store fun e he hsame => ?_
      rcases RingBuffer.mem_push he with hold | rfl
      · rw [hid, hkey] at hsame
        exact absurd hsame (hids.ring.other_id hlt hnew e hold)
      · exact Or.inl ⟨event.ts, rfl⟩
    · exact hpushed

/-- After a cleanup every row under the id of an event of the ring is still its row. -/
theorem rowsMatch_cleanup (clock : CleanupClock)
    (hnew : ∀ n, app.state.eventSeq < n → n ≤ (app.state.cleanup clock.now).eventSeq →
      ¬ known (StateStore.eventIdText n)) :
    RowsMatch (app.state.cleanup clock.now).events app.db.events := by
  have hsame := StateStore.cleanup_sameEvents clock.now app.state
  rw [hsame.eventSeq] at hnew
  rw [hsame.events]
  exact h.announceAll clock.now hids.ring fun n hlt hle =>
    ⟨hnew n hlt hle, hids.notMem hlt (hnew n hlt hle)⟩

/-- **A step keeps ring and table matched**, as long as it gets to no known number. -/
theorem rowsMatch_step (op : AppOp)
    (hnew : ∀ n, app.state.eventSeq < n → n ≤ (app.step op).state.eventSeq →
      ¬ known (StateStore.eventIdText n)) :
    RowsMatch (app.step op).state.events (app.step op).db.events := by
  cases op with
  | handleLog clock line peerIp =>
      refine rowsMatch_handleLog hids h clock line peerIp (hnew _ (Nat.lt_succ_self _) ?_)
      exact (handleLog_records clock line peerIp app).eventSeq.ge
  | cleanup clock =>
      rw [step, cleanupCycle_state] at hnew ⊢
      have hclean := rowsMatch_cleanup hids h clock hnew
      refine ⟨hclean.distinct, fun e he row hrow => ?_⟩
      rcases cleanupCycle_lookup clock app hrow with hold | ⟨e', he', hid, rfl⟩
      · exact hclean.same e he row hold
      · obtain rfl := hclean.eq_of_id he' he hid
        exact Or.inl ⟨e'.ts, rfl⟩

/-- **A step replaces no row by that of another event**, as long as it gets to no
known number. -/
theorem keepsEvents_step (op : AppOp)
    (hnew : ∀ n, app.state.eventSeq < n → n ≤ (app.step op).state.eventSeq →
      ¬ known (StateStore.eventIdText n)) : KeepsEvents app op := by
  intro id row row' hrow hrow'
  cases op with
  | handleLog clock line peerIp =>
      have hfresh : FreshIds app (.handleLog clock line peerIp) :=
        fun n hle hlt => hids.notMem hlt (hnew n hlt hle)
      exact Or.inl (Option.some.inj (hrow'.symm.trans (hfresh.rows_kept hrow)))
  | cleanup clock =>
      rw [step, cleanupCycle_state] at hnew
      rcases cleanupCycle_lookup clock app hrow' with hold | ⟨e, he, hid, hwritten⟩
      · exact Or.inl (Option.some.inj (hold.symm.trans hrow))
      · subst hid
        exact Or.inr ⟨e, (rowsMatch_cleanup hids h clock hnew).same e he row hrow, hwritten.symm⟩

end

/-- **A run replaces no row by that of another event**, if it gets to none of the
known numbers. -/
theorem keepsEvents_run {known : Str → Prop} {app : App} {ops : List AppOp}
    (hids : IdsFrom known app) (h : RowsMatch app.state.events app.db.events)
    (hfree : ∀ n, n ≤ app.state.eventSeq + app.idsUsed ops → app.state.eventSeq < n →
      ¬ known (StateStore.eventIdText n)) :
    Runs.Conforms App.step KeepsEvents app ops :=
  IdsFrom.conforms (fun app => RowsMatch app.state.events app.db.events)
    (fun _ op hids h hnew => ⟨keepsEvents_step hids h op hnew, rowsMatch_step hids h op hnew⟩)
    hids h hfree

/-- What a start loads is matched with the table that it was loaded from. -/
theorem rowsMatch_openStore (config : Config) (readings : StartReadings) {db : Database}
    (h : db.EventsKeyed) (hnamed : [] ∉ db.events) :
    RowsMatch (openStore config readings db).state.events
      (openStore config readings db).db.events := by
  have hshrinks := db.shrinks_applyRetention config readings.now readings.bytes
  have hkeyed := hshrinks.keyed h
  have hitems := (@Database.loadInto_events config readings.load _
    (hkeyed.recent_named fun hnil => hnamed (hshrinks.mem hnil))).1
  constructor
  · rw [openStore, hitems]
    exact hkeyed.loaded_nodup config readings.load
  · intro e he row hrow
    rw [openStore, hitems] at he
    obtain ⟨held, hheld, rfl⟩ := List.mem_map.mp he
    rw [hkeyed.loaded_id readings.load hheld] at hrow
    obtain rfl := Option.some.inj ((hkeyed.held_lookup hheld).1.symm.trans hrow)
    exact Or.inr ⟨(loadedEvent readings.load held).ts, rfl⟩

end App

/-! ## Lifetimes over one database -/

/-- A lifetime of the process with the database switched on. -/
structure Lifetime where
  config : Config
  sqlite : App.sqliteEnabled config = true
  readings : App.StartReadings
  ops : List App.AppOp

namespace Lifetime

/-- The process after its start. -/
def opened (db : Database) (life : Lifetime) : App :=
  App.openStore life.config life.readings db

/-- A start on a database opens it. -/
theorem start_eq_opened (db : Database) (life : Lifetime) :
    App.start life.config life.readings db = some (life.opened db) := by
  rw [App.start, if_pos life.sqlite]
  rfl

/-- The database that the lifetime leaves behind. -/
def after (db : Database) (life : Lifetime) : Database :=
  (Runs.run App.step (life.opened db) life.ops).db

/-- Every id that the lifetime gives out is new in the table at that moment. -/
def IdsFresh (db : Database) (life : Lifetime) : Prop :=
  Runs.Conforms App.step App.FreshIds (life.opened db) life.ops

instance (db : Database) (life : Lifetime) : Decidable (IdsFresh db life) :=
  inferInstanceAs (Decidable (Runs.Conforms App.step App.FreshIds _ _))

/-- The table that the lifetime starts on holds none of the numbers up to the
number of ids that it will need. -/
def NumbersFree (db : Database) (life : Lifetime) : Prop :=
  ∀ n, n ≤ (life.opened db).state.eventSeq + (life.opened db).idsUsed life.ops →
    (life.opened db).state.eventSeq < n →
      StateStore.eventIdText n ∉ (life.opened db).db.events

instance (db : Database) (life : Lifetime) : Decidable (NumbersFree db life) :=
  inferInstanceAs (Decidable (∀ n, n ≤ _ → _))

/-- After a whole lifetime the ids are those of the table it opened and its numbers. -/
theorem idsFrom_run (db : Database) (h : db.EventsKeyed) (life : Lifetime) :
    App.IdsFrom (· ∈ (life.opened db).db.events)
      (Runs.run App.step (life.opened db) life.ops) :=
  Runs.run_invariant _ (fun _ op hs => hs.step op)
    (App.idsFrom_openStore life.config life.readings h) life.ops

/-- The ids of a lifetime are fresh if its numbers are free. -/
theorem ids_fresh_of_numbers_free {db : Database} (h : db.EventsKeyed) {life : Lifetime}
    (hfree : NumbersFree db life) : IdsFresh db life :=
  (App.idsFrom_openStore life.config life.readings h).fresh hfree

/-- No step of the lifetime replaces a row by that of another event. -/
def EventsKept (db : Database) (life : Lifetime) : Prop :=
  Runs.Conforms App.step App.KeepsEvents (life.opened db) life.ops

/-- A lifetime on a table without empty ids leaves none. -/
theorem after_named {db : Database} (h : db.EventsKeyed) (hnamed : [] ∉ db.events)
    (life : Lifetime) : [] ∉ (life.after db).events := by
  intro hnil
  rcases (idsFrom_run db h life).table [] hnil with hold | ⟨n, -, hid⟩
  · exact hnamed ((db.shrinks_applyRetention _ _ _).mem hold)
  · exact StateStore.eventIdText_ne_nil n hid.symm

/-- A lifetime whose numbers are free replaces no row by that of another event. -/
theorem events_kept_of_numbers_free {db : Database} (h : db.EventsKeyed) (hnamed : [] ∉ db.events)
    {life : Lifetime} (hfree : NumbersFree db life) : EventsKept db life :=
  App.keepsEvents_run (App.idsFrom_openStore life.config life.readings h)
    (App.rowsMatch_openStore life.config life.readings h hnamed) hfree

/-- **Ids across restarts.**  Over every sequence of lifetimes in which each one
starts on a table without the numbers that it will need, every id given out is
new in the table at that moment; a line whose id is new replaces no row.  For a
lifetime that handles lines and gets to no cleanup, the condition is also
necessary.  On a table with no empty id, no step of these lifetimes replaces a
row by that of another event: what a cleanup cycle writes back is the event of
the row. -/
theorem ids_fresh_across_restarts (db : Database) (hkeyed : db.EventsKeyed) :
    (∀ lives : List Lifetime,
      Runs.Conforms after NumbersFree db lives → Runs.Conforms after IdsFresh db lives) ∧
    (∀ (app : App) (clock : LogClock) (line peerIp : Str),
      App.FreshIds app (.handleLog clock line peerIp) →
        ∀ id row, app.db.events.lookup id = some row →
          (app.handleLog clock line peerIp).db.events.lookup id = some row) ∧
    (∀ life : Lifetime,
      (∀ op ∈ life.ops, ∃ clock line peerIp, op = App.AppOp.handleLog clock line peerIp) →
        (IdsFresh db life ↔ NumbersFree db life)) ∧
    (∀ lives : List Lifetime, [] ∉ db.events →
      Runs.Conforms after NumbersFree db lives → Runs.Conforms after EventsKept db lives) := by
  refine ⟨fun lives hfree => ?_, fun _ _ _ _ hfresh _ _ => hfresh.rows_kept,
    fun life hlines => ⟨App.free_of_fresh_lines hlines, ids_fresh_of_numbers_free hkeyed⟩,
    fun lives hnamed hfree => ?_⟩
  · exact Runs.Conforms.imp_of_invariant Database.EventsKeyed
      (fun _ _ h => ids_fresh_of_numbers_free h)
      (fun db life h _ => (idsFrom_run db h life).keyed) hfree hkeyed
  · exact Runs.Conforms.imp_of_invariant (fun db => db.EventsKeyed ∧ [] ∉ db.events)
      (fun _ _ h => events_kept_of_numbers_free h.1 h.2)
      (fun db life h _ => ⟨(idsFrom_run db h.1 life).keyed, after_named h.1 h.2 life⟩) hfree
      ⟨hkeyed, hnamed⟩

/-- A clock that stands still. -/
def lineClock (now : TimePoint) : LogClock := ⟨now, now, now, now, now, now, now⟩

/-- A lifetime that starts at a time and handles one line a second later. -/
def oneLine (start : Int) (line : String) : Lifetime where
  config := App.sqliteConfig
  sqlite := by decide
  readings := ⟨seconds start, fun _ => 0, StateStore.stillClock⟩
  ops := [.handleLog (lineClock (seconds (start + 1))) (str line) (str "10.0.0.1")]

/-- A lifetime that also gets to a cleanup cycle, which writes the event of its
line back. -/
def oneLineCleaned (start : Int) (line : String) : Lifetime :=
  { oneLine start line with
    ops := (oneLine start line).ops ++
      [.cleanup ⟨seconds (start + 2), seconds (start + 2), seconds (start + 2),
        seconds (start + 2), fun _ => 0⟩] }

/-- A restart after eight days: the retention has emptied the table, and the
first id is free again.  The cleanup cycles replace the row of a line by itself. -/
theorem ids_fresh_across_restarts_late :
    Runs.Conforms after IdsFresh {}
        [oneLineCleaned 1000000 "netifd: wan is down",
          oneLineCleaned 1691200 "netifd: wan is up"] ∧
      Runs.Conforms after EventsKept {}
        [oneLineCleaned 1000000 "netifd: wan is down",
          oneLineCleaned 1691200 "netifd: wan is up"] := by
  have hfree : Runs.Conforms after NumbersFree {}
      [oneLineCleaned 1000000 "netifd: wan is down",
        oneLineCleaned 1691200 "netifd: wan is up"] := by decide +kernel
  obtain ⟨hfresh, -, -, hkept⟩ := ids_fresh_across_restarts {} fun _ _ h => by simp at h
  exact ⟨hfresh _ hfree, hkept _ (by simp) hfree⟩

/-- The database after the first line. -/
def afterFirstLine : Database := after {} (oneLine 1000000 "netifd: wan is down")

/-- A restart after a minute: the second line gets the id of the first one, whose
row is still there, and replaces it. -/
theorem restart_reuses_id :
    (afterFirstLine.events.lookup (str "evt-1")).map EventRow.message =
        some (str "netifd: wan is down") ∧
      str "evt-1" ∈ ((oneLine 1000060 "netifd: wan is up").opened afterFirstLine).db.events ∧
      ¬ IdsFresh afterFirstLine (oneLine 1000060 "netifd: wan is up") ∧
      ((after afterFirstLine (oneLine 1000060 "netifd: wan is up")).events.lookup
        (str "evt-1")).map EventRow.message = some (str "netifd: wan is up") ∧
      (after afterFirstLine (oneLine 1000060 "netifd: wan is up")).events.keys =
        [str "evt-1"] := by
  decide +kernel

end Lifetime

end Netmon
