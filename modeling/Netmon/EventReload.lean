import Netmon.EventHistory
import Netmon.StorageText
import Netmon.DeviceRestore

/-!
# Reloading the stored events

After a restart the newest event rows are loaded into the ring, and the next
cleanup cycle writes the ring back over them.  Cleaned texts survive the second
cleaning, but the loaded event holds the JSON of its fields as one field that
the storage allow-list does not know, so every row comes back with an empty
object in its place.  `reload_keeps_events_iff` says exactly which tables are
left unchanged.
-/

namespace Netmon

/-! ## Rows of cleaned events -/

/-- A row that `insertEvent` wrote for a preprocessed event with an id. -/
def StoredEvent (row : EventRow) : Prop :=
  ∃ event : Event, cString event.id ≠ [] ∧ row = eventRow (preprocessEventForStorage event)

/-- What is known about the texts of such a row. -/
structure CleanRow (row : EventRow) : Prop where
  named : row.id ≠ []
  id_text : 0 ∉ row.id
  type_text : 0 ∉ row.type
  severity : ∃ severity : EventSeverity, row.severity = severity.toText
  source : StorageText 80 row.source
  message : StorageText 240 row.message

/-- A severity is stored as it is. -/
theorem cString_severity (severity : EventSeverity) :
    cString severity.toText = severity.toText := by
  cases severity <;> decide

/-- A severity is read back. -/
theorem parseSeverity_toText (severity : EventSeverity) :
    parseSeverity severity.toText = severity := by
  cases severity <;> decide

/-- The text for unparsed lines passes the cleaning. -/
theorem unparsed_clean : StorageText 240 (str "Unparsed syslog line") :=
  ⟨by decide +kernel, by decide +kernel, by decide⟩

/-- A stored event has clean texts. -/
theorem StoredEvent.clean {row : EventRow} (h : StoredEvent row) : CleanRow row := by
  obtain ⟨event, hid, rfl⟩ := h
  refine ⟨hid, zero_notMem_cString _, zero_notMem_cString _,
    ⟨event.severity, cString_severity _⟩, storageText_clean _ (by omega), ?_⟩
  show StorageText 240 (cString (if event.type = str "raw" then _ else _))
  split
  · rw [cString_eq_self unparsed_clean.text]
    exact unparsed_clean
  · exact storageText_clean _ (by omega)

/-- The event in the ring after its row was loaded. -/
def loadedEvent (clock : Database.LoadClock) (row : EventRow) : Event :=
  StateStore.stampEvent (clock.event row) (eventFromRow row)

/-- The row that is written back for a loaded row. -/
def restoredEventRow (clock : Database.LoadClock) (row : EventRow) : EventRow :=
  eventRow (preprocessEventForStorage (loadedEvent clock row))

/-- No field of a loaded event is stored again. -/
theorem cleanFields_loaded (type : Str) (row : EventRow) :
    cleanFields type (eventFromRow row).fields.entries ∅ = ∅ := by
  have hname : lower (cleanStorageValue (str "fields_json") 48) = str "fields_json" := by
    decide +kernel
  have hother : str "fields_json" ≠ [] ∧
      ¬ (str "fields_json" = str "raw" ∨ str "fields_json" = str "csv") := by decide
  have hrefused : storageFieldAllowed type (str "fields_json") = false := by
    unfold storageFieldAllowed
    rw [Bool.or_eq_false_iff]
    exact ⟨by decide, Bool.and_eq_false_imp.mpr fun _ => by decide⟩
  unfold eventFromRow
  by_cases hjson : cString row.fieldsJson = []
  · simp only [hjson, ne_eq, not_true_eq_false, if_false]
    rfl
  · simp only [ne_eq, hjson, not_false_eq_true, if_true]
    show cleanFields type [⟨str "fields_json", cString row.fieldsJson⟩] ∅ = ∅
    simp [cleanFields, hname, hother, hrefused]

/-- The time that is written back: a row without one gets that of the load. -/
theorem restored_ts (clock : Database.LoadClock) (row : EventRow) :
    (restoredEventRow clock row).ts =
      if row.ts ≤ 0 then unixSeconds (clock.event row) else row.ts := by
  show unixSeconds
    (if timeFromColumn row.ts = 0 then clock.event row else timeFromColumn row.ts) = _
  unfold timeFromColumn
  by_cases h : row.ts ≤ 0
  · simp [h]
  · have hne : fromUnixSeconds row.ts ≠ 0 := by
      rw [ne_eq, fromUnixSeconds_eq_zero]
      omega
    rw [if_neg h, if_neg hne, if_neg h, unixSeconds_fromUnixSeconds]

/-- Writing a loaded row back keeps its id, type, severity and source, and
changes at most the time, the message and the fields. -/
theorem CleanRow.restored {row : EventRow} (h : CleanRow row) (clock : Database.LoadClock) :
    restoredEventRow clock row =
      { row with
        ts := if row.ts ≤ 0 then unixSeconds (clock.event row) else row.ts
        message := if row.type = str "raw" then str "Unparsed syslog line" else row.message
        fieldsJson := [123, 125] } := by
  obtain ⟨severity, hseverity⟩ := h.severity
  have hid : (restoredEventRow clock row).id = row.id := by
    show cString (cString row.id) = row.id
    rw [cString_eq_self h.id_text, cString_eq_self h.id_text]
  have htype : (restoredEventRow clock row).type = row.type := by
    show cString (cString row.type) = row.type
    rw [cString_eq_self h.type_text, cString_eq_self h.type_text]
  have hsev : (restoredEventRow clock row).severity = row.severity := by
    show cString (parseSeverity (cString row.severity)).toText = row.severity
    rw [hseverity, cString_severity severity, parseSeverity_toText, cString_severity]
  have hsource : (restoredEventRow clock row).source = row.source := by
    show cString (cleanStorageValue (cString row.source) 80) = row.source
    rw [cString_eq_self h.source.text, h.source.clean, cString_eq_self h.source.text]
  have hmessage : (restoredEventRow clock row).message =
      if row.type = str "raw" then str "Unparsed syslog line" else row.message := by
    show cString (if cString row.type = str "raw" then str "Unparsed syslog line"
      else cleanStorageValue (cString row.message) 240) = _
    rw [cString_eq_self h.type_text, cString_eq_self h.message.text, h.message.clean]
    split
    · exact cString_eq_self unparsed_clean.text
    · exact cString_eq_self h.message.text
  have hfields : (restoredEventRow clock row).fieldsJson = [123, 125] := by
    show cString (fieldsJson (cleanFields (cString row.type) (eventFromRow row).fields.entries ∅)) =
      [123, 125]
    rw [cleanFields_loaded]
    decide
  have hts := restored_ts clock row
  generalize restoredEventRow clock row = restored at *
  cases restored
  simp_all

/-- A row that a reload leaves as it is: without fields, with a time of its own
or the one of the load, and with the fixed message if it is a raw line. -/
def SurvivesReload (clock : Database.LoadClock) (row : EventRow) : Prop :=
  row.fieldsJson = [123, 125] ∧ (1 ≤ row.ts ∨ row.ts = unixSeconds (clock.event row)) ∧
    (row.type = str "raw" → row.message = str "Unparsed syslog line")

instance (clock : Database.LoadClock) (row : EventRow) : Decidable (SurvivesReload clock row) :=
  inferInstanceAs (Decidable (_ ∧ _ ∧ _))

/-- A clean row is restored as it was exactly if it survives a reload. -/
theorem CleanRow.restored_eq_iff {row : EventRow} (h : CleanRow row)
    (clock : Database.LoadClock) :
    restoredEventRow clock row = row ↔ SurvivesReload clock row := by
  rw [h.restored clock]
  obtain ⟨id, ts, type, severity, source, message, fields⟩ := row
  simp only [SurvivesReload, EventRow.mk.injEq, true_and]
  constructor
  · rintro ⟨hts, hmessage, hfields⟩
    refine ⟨hfields.symm, ?_, fun hraw => ?_⟩
    · by_cases hpos : ts ≤ 0
      · rw [if_pos hpos] at hts
        exact Or.inr hts.symm
      · exact Or.inl (by omega)
    · rw [if_pos hraw] at hmessage
      exact hmessage.symm
  · rintro ⟨hfields, hts, hraw⟩
    refine ⟨?_, ?_, hfields.symm⟩
    · split
      · rcases hts with hpos | hnow
        · omega
        · exact hnow.symm
      · rfl
    · split
      · rename_i htype
        exact (hraw htype).symm
      · rfl

/-! ## The event table -/

namespace Database

/-- Every event row stands under its own id, which is read back as it is. -/
def EventsKeyed (db : Database) : Prop :=
  ∀ id row, db.events.lookup id = some row → row.id = id ∧ 0 ∉ id

/-- Every row was written for a preprocessed event, under its id. -/
def EventsStored (db : Database) : Prop :=
  ∀ id row, db.events.lookup id = some row → StoredEvent row ∧ row.id = id

/-- Stored events stand under their ids. -/
theorem EventsStored.keyed {db : Database} (h : db.EventsStored) : db.EventsKeyed := by
  intro id row hrow
  obtain ⟨hstored, hid⟩ := h id row hrow
  exact ⟨hid, hid ▸ hstored.clean.id_text⟩

/-- Storing preprocessed events keeps the table one of stored events. -/
theorem EventsStored.insertEvent {db : Database} (h : db.EventsStored) {event : Event}
    (hid : cString event.id ≠ []) :
    (db.insertEvent (preprocessEventForStorage event)).EventsStored := by
  intro id row hrow
  simp only [Database.insertEvent, AList.lookup_insert_if] at hrow
  split at hrow
  · rename_i hsame
    obtain rfl := Option.some.inj hrow
    exact ⟨⟨event, hid, rfl⟩, hsame.symm⟩
  · exact h id row hrow

/-- Inserting an event keeps the rows under their ids. -/
theorem EventsKeyed.insertEvent {db : Database} (h : db.EventsKeyed) (event : Event) :
    (db.insertEvent event).EventsKeyed := by
  intro id row hrow
  simp only [Database.insertEvent, AList.lookup_insert_if] at hrow
  split at hrow
  · rename_i hsame
    obtain rfl := Option.some.inj hrow
    exact ⟨hsame.symm, hsame ▸ zero_notMem_cString _⟩
  · exact h id row hrow

/-- A limit takes part of the rows. -/
theorem takeLimit_sublist {α : Type} (limit : Int) (rows : List α) :
    (takeLimit limit rows).Sublist rows := by
  unfold takeLimit
  split
  · exact List.Sublist.refl rows
  · exact List.take_sublist _ _

/-- The ids of the rows of the table are its keys. -/
theorem EventsKeyed.ids {db : Database} (h : db.EventsKeyed) :
    (db.events.entries.map Sigma.snd).map EventRow.id = db.events.keys := by
  unfold AList.keys List.keys
  rw [List.map_map]
  apply List.map_congr_left
  intro e he
  exact (h e.1 e.2 (AList.mem_entries_iff.mp he)).1

/-- The rows that are loaded are rows of the table. -/
theorem mem_recentEventRows {config : Config} {db : Database} {row : EventRow}
    (h : row ∈ db.recentEventRows config) : ∃ id, db.events.lookup id = some row := by
  have hlimit := (List.perm_insertionSort _ _).mem_iff.mp h
  have hsorted := (takeLimit_sublist _ _).subset hlimit
  obtain ⟨e, he, rfl⟩ := List.mem_map.mp ((List.perm_insertionSort _ _).mem_iff.mp hsorted)
  exact ⟨e.1, AList.mem_entries_iff.mp he⟩

/-- No id is loaded twice. -/
theorem EventsKeyed.recent_nodup {db : Database} (h : db.EventsKeyed) (config : Config) :
    ((db.recentEventRows config).map EventRow.id).Nodup := by
  unfold recentEventRows
  rw [((List.perm_insertionSort _ _).map _).nodup_iff]
  refine List.Nodup.sublist ((takeLimit_sublist _ _).map _) ?_
  rw [((List.perm_insertionSort _ _).map _).nodup_iff, h.ids]
  exact db.events.keys_nodup

/-- The rows that a load leaves in the event history. -/
def heldEventRows (config : Config) (db : Database) : List EventRow :=
  popFrontTo config.maxEvents.toNat (db.recentEventRows config)

/-- The table holds no row without an id. -/
theorem EventsStored.named {db : Database} (h : db.EventsStored) : [] ∉ db.events := by
  intro hnil
  obtain ⟨row, hrow⟩ := AList.exists_lookup_of_mem hnil
  obtain ⟨hstored, hid⟩ := h [] row hrow
  exact hstored.clean.named hid

section

variable {db : Database} (h : db.EventsKeyed) {config : Config}

include h

/-- The recent rows have ids if all rows do. -/
theorem EventsKeyed.recent_named (hnamed : [] ∉ db.events) :
    ∀ row ∈ db.recentEventRows config, cString row.id ≠ [] := by
  intro row hrow
  obtain ⟨id, hid⟩ := mem_recentEventRows hrow
  obtain ⟨hrow, htext⟩ := h id row hid
  rw [hrow, cString_eq_self htext]
  intro hnil
  exact hnamed (hnil ▸ AList.mem_of_lookup hid)

/-- A held row stands in the table, under its own id. -/
theorem EventsKeyed.held_lookup {row : EventRow} (hrow : row ∈ db.heldEventRows config) :
    db.events.lookup row.id = some row ∧ 0 ∉ row.id := by
  obtain ⟨id, hid⟩ := mem_recentEventRows ((popFrontTo_sublist _ _).subset hrow)
  obtain ⟨rfl, htext⟩ := h id row hid
  exact ⟨hid, htext⟩

/-- The event of a held row is written back under the id of the row. -/
theorem EventsKeyed.loaded_id (clock : LoadClock) {row : EventRow}
    (hrow : row ∈ db.heldEventRows config) : cString (loadedEvent clock row).id = row.id := by
  have htext := (h.held_lookup hrow).2
  show cString (cString row.id) = row.id
  rw [cString_eq_self htext, cString_eq_self htext]

/-- The events of the held rows have different ids. -/
theorem EventsKeyed.loaded_nodup (config : Config) (clock : LoadClock) :
    (((db.heldEventRows config).map (loadedEvent clock)).map
      fun event => cString event.id).Nodup := by
  have hids : ((db.heldEventRows config).map (loadedEvent clock)).map
      (fun event => cString event.id) = (db.heldEventRows config).map EventRow.id := by
    rw [List.map_map]
    exact List.map_congr_left fun row hrow => h.loaded_id clock hrow
  rw [hids]
  exact List.Nodup.sublist ((popFrontTo_sublist _ _).map _) (h.recent_nodup config)

end

/-- A load into a fresh store puts the newest rows into its history. -/
theorem loadInto_events {config : Config} (clock : LoadClock) {db : Database}
    (hnamed : ∀ row ∈ db.recentEventRows config, cString row.id ≠ []) :
    (db.loadInto config clock (StateStore.init config)).events.items =
        (db.heldEventRows config).map (loadedEvent clock) ∧
      (db.loadInto config clock (StateStore.init config)).events.capacity =
        config.maxEvents.toNat := by
  obtain ⟨hbefore, hafter⟩ :=
    StateStore.loadInto_sameEvents config clock db (StateStore.init config)
  have hpushed : ∀ (rows : List EventRow) (s : StateStore), (∀ row ∈ rows, cString row.id ≠ []) →
      (rows.foldl (fun s row => s.addEvent (clock.event row) (eventFromRow row)) s).events =
        (rows.map (loadedEvent clock)).foldl (fun b value => b.push value) s.events := by
    intro rows
    induction rows with
    | nil => intro s _; rfl
    | cons row rows ih =>
        intro s hrows
        rw [List.foldl_cons, ih _ fun r hr => hrows r (List.mem_cons_of_mem _ hr),
          (StateStore.addEvent_named _ (hrows row List.mem_cons_self) s).1]
        rfl
  have hevents : (db.loadInto config clock (StateStore.init config)).events =
      ((db.recentEventRows config).map (loadedEvent clock)).foldl (fun b value => b.push value)
        (RingBuffer.empty config.maxEvents.toNat) := by
    rw [hafter.events, loadEvents, hpushed _ _ hnamed, hbefore.events]
    rfl
  rw [hevents]
  refine ⟨?_, RingBuffer.foldl_push_capacity _ _⟩
  rw [RingBuffer.foldl_push_items, heldEventRows, ← popFrontTo_map]
  rfl

end Database

namespace App

/-- A process that has just loaded the database into a fresh store. -/
def reloaded (config : Config) (clock : Database.LoadClock) (db : Database) : App :=
  { config := config, state := db.loadInto config clock (StateStore.init config), db := db }

/-- Writing the history back inserts one row for each event in it. -/
theorem persistRecentEvents_events (app : App) (h : sqliteEnabled app.config = true) :
    app.persistRecentEvents.db.events =
      app.db.events.insertAll (fun event => cString event.id)
        (fun event => eventRow (preprocessEventForStorage event))
        (app.state.recentEvents app.config.maxEvents.toNat) := by
  have hinserted : ∀ (events : List Event) (db : Database),
      (events.foldl (fun db event => db.insertEvent (preprocessEventForStorage event)) db).events =
        db.events.insertAll (fun event => cString event.id)
          (fun event => eventRow (preprocessEventForStorage event)) events := by
    intro events
    induction events with
    | nil => intro db; rfl
    | cons event events ih => intro db; exact ih _
  simp only [persistRecentEvents, h, if_true]
  exact hinserted _ _

/-- The table after a reload: each held row in its restored form, every other
row as it was. -/
theorem reloaded_lookup {config : Config} (clock : Database.LoadClock) {db : Database}
    (hsqlite : sqliteEnabled config = true) (hstored : db.EventsStored) :
    (∀ row ∈ db.heldEventRows config,
      (reloaded config clock db).persistRecentEvents.db.events.lookup row.id =
        some (restoredEventRow clock row)) ∧
    (∀ id, (∀ row ∈ db.heldEventRows config, row.id ≠ id) →
      (reloaded config clock db).persistRecentEvents.db.events.lookup id =
        db.events.lookup id) := by
  have hkey : ∀ row ∈ db.heldEventRows config, cString (loadedEvent clock row).id = row.id :=
    fun row hrow => hstored.keyed.loaded_id clock hrow
  obtain ⟨hitems, hcapacity⟩ :=
    @Database.loadInto_events config clock db (hstored.keyed.recent_named hstored.named)
  have hwritten : (reloaded config clock db).state.recentEvents config.maxEvents.toNat =
      (db.heldEventRows config).map (loadedEvent clock) := by
    unfold reloaded StateStore.recentEvents
    rw [← hcapacity, RingBuffer.newest_capacity, hitems]
  have htable := persistRecentEvents_events (reloaded config clock db) hsqlite
  rw [show (reloaded config clock db).config = config from rfl, hwritten] at htable
  refine ⟨fun row hrow => ?_, fun id hid => ?_⟩
  · rw [htable, ← hkey row hrow]
    exact AList.lookup_insertAll_of_mem (hstored.keyed.loaded_nodup config clock)
      (List.mem_map_of_mem hrow)
  · rw [htable]
    apply AList.lookup_insertAll_of_notMem
    intro event hevent
    obtain ⟨row, hrow, rfl⟩ := List.mem_map.mp hevent
    rw [hkey row hrow]
    exact hid row hrow

/-- **Exactly when a reload keeps the stored events.**  For every table of stored
events, loading it into a fresh store and writing the history back leaves every
row unchanged if and only if each row that the history holds survives. -/
theorem reload_keeps_events_iff (config : Config) (clock : Database.LoadClock) (db : Database)
    (hsqlite : sqliteEnabled config = true) (hstored : db.EventsStored) :
    (∀ id row, db.events.lookup id = some row →
        (reloaded config clock db).persistRecentEvents.db.events.lookup id = some row) ↔
      ∀ row ∈ db.heldEventRows config, SurvivesReload clock row := by
  obtain ⟨hwritten, hother⟩ := reloaded_lookup clock hsqlite hstored
  have hrows : ∀ row ∈ db.heldEventRows config,
      db.events.lookup row.id = some row ∧ CleanRow row := by
    intro row hrow
    obtain ⟨id, hid⟩ := Database.mem_recentEventRows ((popFrontTo_sublist _ _).subset hrow)
    obtain ⟨hstoredRow, hsame⟩ := hstored id row hid
    rw [hsame]
    exact ⟨hid, hstoredRow.clean⟩
  constructor
  · intro hkept row hrow
    obtain ⟨hlookup, hclean⟩ := hrows row hrow
    have hback := hkept row.id row hlookup
    rw [hwritten row hrow] at hback
    exact (hclean.restored_eq_iff clock).mp (Option.some.inj hback)
  · intro hsurvive id row hlookup
    by_cases hheld : ∃ held ∈ db.heldEventRows config, held.id = id
    · obtain ⟨held, hmem, rfl⟩ := hheld
      obtain ⟨hlookup', hclean⟩ := hrows held hmem
      obtain rfl : held = row := Option.some.inj (hlookup'.symm.trans hlookup)
      rw [hwritten held hmem, (hclean.restored_eq_iff clock).mpr (hsurvive held hmem)]
    · rw [hother id fun held hmem heq => hheld ⟨held, hmem, heq⟩, hlookup]

/-- Settings with the database switched on. -/
def sqliteConfig : Config := { storageMode := str "SQLite" }

/-- A table with the one row of an event. -/
def tableOf (event : Event) : Database :=
  Database.insertEvent (preprocessEventForStorage event) {}

/-- The table of one event with an id. -/
theorem eventsStored_tableOf {event : Event} (h : cString event.id ≠ []) :
    (tableOf event).EventsStored := by
  have hempty : Database.EventsStored {} := fun id row hrow => by simp at hrow
  exact hempty.insertEvent h

/-- An event without fields. -/
def plainEvent : Event :=
  { id := str "evt-1", ts := seconds 900, type := str "wan", message := str "wan is up" }

/-- The event of a device snapshot, with the device's MAC as a field. -/
def deviceEvent : Event :=
  { id := str "evt-1", ts := seconds 900, type := str "device", message := str "Device snapshot",
    fields := (∅ : StrMap Str).insert (str "mac") (str "aa:01") }

/-- The row of an event without fields survives a reload. -/
theorem reload_keeps_events_iff_plain :
    (reloaded sqliteConfig StateStore.stillClock
      (tableOf plainEvent)).persistRecentEvents.db.events.lookup (str "evt-1") =
        some (eventRow plainEvent) := by
  refine (reload_keeps_events_iff sqliteConfig StateStore.stillClock (tableOf plainEvent)
    (by decide) (eventsStored_tableOf (by decide))).mpr ?_ (str "evt-1") _ ?_
  · decide +kernel
  · decide +kernel

/-- The row of a device snapshot loses its fields. -/
theorem reload_drops_fields :
    (tableOf deviceEvent).EventsStored ∧
      ((tableOf deviceEvent).events.lookup (str "evt-1")).map EventRow.fieldsJson =
        some (str "\x7b\"mac\":\"aa:01\"\x7d") ∧
      ((reloaded sqliteConfig StateStore.stillClock
        (tableOf deviceEvent)).persistRecentEvents.db.events.lookup (str "evt-1")).map
          EventRow.fieldsJson = some (str "\x7b\x7d") :=
  ⟨eventsStored_tableOf (by decide), by decide +kernel, by decide +kernel⟩

end App

end Netmon
