import Netmon.EventReload
import Netmon.Retention

/-!
# What a step does to the events

The event table and the ring of recent events change in two ways: retention
removes rows, and a line of the log records one event under the id it was given.
Most parts of a step leave both alone (`Quiet`); a line is such parts around the
two that add the event and store it (`records_of_quiet`).
-/

namespace Netmon

/-! ## Rows -/

namespace Database

/-- Retention only removes rows, so what is left stands under its own id. -/
theorem Shrinks.keyed {db db' : Database} (h : Shrinks db db') (hk : db.EventsKeyed) :
    db'.EventsKeyed := fun id row hrow => hk id row (h.lookup hrow)

/-- Writing the devices leaves the event table alone. -/
theorem upsertDevices_events (now : TimePoint) (devices : List DeviceState) (db : Database) :
    (db.upsertDevices now devices).events = db.events := by
  induction devices generalizing db with
  | nil => rfl
  | cons device devices ih =>
      have hstep : (upsertDevice now db device).events = db.events := by
        unfold upsertDevice
        split <;> rfl
      exact (ih (upsertDevice now db device)).trans hstep

end Database

namespace App

/-! ## What a line adds -/

/-- A part of a step that touches neither the history nor the event table. -/
structure Quiet (a b : App) : Prop where
  config : b.config = a.config
  state : StateStore.SameEvents a.state b.state
  table : b.db.events = a.db.events

theorem Quiet.refl (app : App) : Quiet app app := ⟨rfl, StateStore.SameEvents.refl _, rfl⟩

theorem Quiet.trans {a b c : App} (hab : Quiet a b) (hbc : Quiet b c) : Quiet a c :=
  ⟨hbc.config.trans hab.config, hab.state.trans hbc.state, hbc.table.trans hab.table⟩

/-- A call on the store that records no event is such a part. -/
theorem quiet_updateState {f : StateStore → StateStore} (hf : ∀ s, StateStore.SameEvents s (f s))
    (app : App) : Quiet app (app.updateState f) := ⟨rfl, hf app.state, rfl⟩

theorem quiet_updateStats (f : RuntimeStats → RuntimeStats) (app : App) :
    Quiet app (app.updateStats f) := ⟨rfl, StateStore.SameEvents.refl _, rfl⟩

theorem quiet_publishUpdate (type : Str) (app : App) : Quiet app (app.publishUpdate type) :=
  ⟨rfl, StateStore.SameEvents.refl _, rfl⟩

/-- Writing the devices is such a part. -/
theorem quiet_persistDevices (view written : TimePoint) (app : App) :
    Quiet app (app.persistDevices view written) := by
  unfold persistDevices
  split
  · exact ⟨rfl, StateStore.SameEvents.refl _, Database.upsertDevices_events _ _ _⟩
  · exact Quiet.refl app

/-- Writing a traffic sample leaves the events alone. -/
theorem quiet_persistTraffic (snapshot : TrafficSnapshot) (app : App) :
    Quiet app (app.persistTraffic snapshot) := by
  unfold persistTraffic
  split
  · exact ⟨rfl, StateStore.SameEvents.refl _, rfl⟩
  · exact Quiet.refl app

/-- Writing an attack leaves the events alone. -/
theorem quiet_persistWANAttack (attack : WANAttackEvent) (app : App) :
    Quiet app (app.persistWANAttack attack) := by
  unfold persistWANAttack
  split
  · exact ⟨rfl, StateStore.SameEvents.refl _, rfl⟩
  · exact Quiet.refl app

/-- The event table after an event was stored, if there is a database. -/
theorem persistEvent_table (event : Event) (app : App) :
    (app.persistEvent event).db.events =
      if sqliteEnabled app.config then
        app.db.events.insert (cString event.id) (eventRow (preprocessEventForStorage event))
      else app.db.events := by
  unfold persistEvent
  split <;> rfl

/-- What a line leaves of itself: it gives out no further id, and either nothing changes or one
event under its id is pushed to the ring and stored. -/
structure Records (id : Str) (now : TimePoint) (a b : App) : Prop where
  eventSeq : b.state.eventSeq = a.state.eventSeq
  config : b.config = a.config
  events : (b.state.events = a.state.events ∧ b.db.events = a.db.events) ∨
    ∃ event : Event, event.id = id ∧
      b.state.events = a.state.events.push (StateStore.stampEvent now event) ∧
      b.db.events = (a.persistEvent event).db.events

/-- A quiet step is one that records nothing. -/
theorem Quiet.records {a b : App} (h : Quiet a b) (id : Str) (now : TimePoint) :
    Records id now a b :=
  ⟨h.state.eventSeq, h.config, Or.inl ⟨h.state.events, h.table⟩⟩

/-- **The rule for a line**: an event is added, and later stored, with quiet parts before,
between and after. -/
theorem records_of_quiet {a b c d : App} {event : Event} {id : Str} {now : TimePoint}
    (hid : event.id = id) (hne : id ≠ []) (hab : Quiet a b)
    (hbc : Quiet (b.updateState (·.addEvent now event)) c) (hcd : Quiet (c.persistEvent event) d) :
    Records id now a d := by
  obtain ⟨hpush, hseq⟩ := StateStore.addEvent_named now (hid ▸ hne) b.state
  have hconfig : c.config = a.config := hbc.config.trans hab.config
  have hstored : (c.persistEvent event).config = c.config ∧
      StateStore.SameEvents c.state (c.persistEvent event).state := by
    unfold persistEvent
    split <;> exact ⟨rfl, StateStore.SameEvents.refl _⟩
  have hstate := hbc.state.trans (hstored.2.trans hcd.state)
  have htable : c.db.events = a.db.events := hbc.table.trans hab.table
  refine ⟨hstate.eventSeq.trans (hseq.trans hab.state.eventSeq),
    hcd.config.trans (hstored.1.trans hconfig), Or.inr ⟨event, hid, ?_, ?_⟩⟩
  · exact hstate.events.trans (hpush.trans (by rw [hab.state.events]))
  · rw [hcd.table, persistEvent_table, persistEvent_table, hconfig, htable]

section

variable {id : Str} {now : TimePoint} {a b : App} (h : Records id now a b)

include h

/-- The ring has no event that is new and under another id. -/
theorem Records.ring : ∀ e ∈ b.state.events.items, e ∈ a.state.events.items ∨ e.id = id := by
  intro e he
  rcases h.events with ⟨hring, -⟩ | ⟨event, hid, hring, -⟩
  · exact Or.inl (hring ▸ he)
  · rw [hring] at he
    rcases RingBuffer.mem_push he with hold | rfl
    · exact Or.inl hold
    · exact Or.inr hid

/-- The rows under other ids are as they were. -/
theorem Records.rows (k : Str) (hk : k ≠ cString id) :
    b.db.events.lookup k = a.db.events.lookup k := by
  rcases h.events with ⟨-, htable⟩ | ⟨event, hid, -, htable⟩
  · rw [htable]
  · rw [htable, persistEvent_table]
    split
    · exact AList.lookup_insert_ne (hid.symm ▸ hk)
    · rfl

/-- No row is lost. -/
theorem Records.kept (k : Str) (hk : k ∈ a.db.events) : k ∈ b.db.events := by
  rcases h.events with ⟨-, htable⟩ | ⟨event, -, -, htable⟩
  · exact htable ▸ hk
  · rw [htable, persistEvent_table]
    split
    · exact (AList.mem_insert _).mpr (Or.inr hk)
    · exact hk

/-- A step that records keeps the rows under their ids. -/
theorem Records.keyed (hk : a.db.EventsKeyed) : b.db.EventsKeyed := by
  rcases h.events with ⟨-, htable⟩ | ⟨event, -, -, htable⟩
  · unfold Database.EventsKeyed at hk ⊢
    rwa [htable]
  · unfold Database.EventsKeyed
    rw [htable]
    unfold persistEvent
    split
    · exact hk.insertEvent _
    · exact hk

/-- The only row that is new is under the id. -/
theorem Records.table {k : Str} (hk : k ∈ b.db.events) : k ∈ a.db.events ∨ k = cString id := by
  by_cases hid : k = cString id
  · exact Or.inr hid
  · obtain ⟨row, hrow⟩ := AList.exists_lookup_of_mem hk
    exact Or.inl (AList.mem_of_lookup ((h.rows k hid).symm.trans hrow))

end

/-- A quiet part before a line is one of its parts. -/
theorem Quiet.trans_records {a b c : App} {id : Str} {now : TimePoint} (hab : Quiet a b)
    (hbc : Records id now b c) : Records id now a c := by
  refine ⟨hbc.eventSeq.trans hab.state.eventSeq, hbc.config.trans hab.config, ?_⟩
  rcases hbc.events with ⟨hring, htable⟩ | ⟨event, hid, hring, htable⟩
  · exact Or.inl ⟨hring.trans hab.state.events, htable.trans hab.table⟩
  · refine Or.inr ⟨event, hid, by rw [hring, hab.state.events], ?_⟩
    rw [htable, persistEvent_table, persistEvent_table, hab.config, hab.table]

/-- Whatever the type of the line, it records one event at most, under its id. -/
theorem applyEvent_records (clock : LogClock) (result : ParseResult) {event : Event} {id : Str}
    (hid : event.id = id) (hne : id ≠ []) (app : App) :
    Records id clock.event app (app.applyEvent clock result event) := by
  have heffect := applyEvent_effect clock result event app
  rw [hid] at heffect
  generalize app.applyEvent clock result event = after at heffect
  cases heffect with
  | device _ device e he =>
      exact records_of_quiet he hne
        (quiet_updateState (StateStore.updateDevice_sameEvents clock.update device) app)
        (quiet_persistDevices clock.view clock.written _) (quiet_publishUpdate _ _)
  | traffic _ snapshot e he =>
      have hbefore := quiet_updateState
        (StateStore.updateTraffic_sameEvents clock.update snapshot) app
      exact records_of_quiet he hne ((hbefore.trans (quiet_persistTraffic snapshot _)).trans
        (quiet_persistDevices clock.view clock.written _)) (Quiet.refl _) (quiet_publishUpdate _ _)
  | event _ e he =>
      exact records_of_quiet he hne (Quiet.refl app) (Quiet.refl _) (quiet_publishUpdate _ _)
  | interface _ snapshot =>
      exact ((quiet_updateState (StateStore.updateInterface_sameEvents _ _) app).trans
        (quiet_publishUpdate _ _)).records id clock.event
  | nothing => exact (Quiet.refl app).records id clock.event
  | attack _ attack e he =>
      have hbefore := quiet_updateState
        (StateStore.addWANAttack_sameEvents clock.update clock.later attack) app
      exact records_of_quiet he hne (hbefore.trans (quiet_updateStats _ _))
        (quiet_persistWANAttack attack _) (quiet_publishUpdate _ _)

/-- **What a line leaves behind.**  It takes the next id and records one event at most, under
that id. -/
theorem handleLog_records (clock : LogClock) (line peerIp : Str) (app : App) :
    Records (StateStore.eventIdText (app.state.eventSeq + 1)) clock.event
      { app with state := app.state.nextEventId.2 } (app.handleLog clock line peerIp) := by
  have hne := StateStore.eventIdText_ne_nil (app.state.eventSeq + 1)
  unfold handleLog
  cases parse line with
  | none =>
      dsimp only
      refine Quiet.trans_records ?_
        (records_of_quiet (by rfl) hne (Quiet.refl _) (Quiet.refl _) (quiet_publishUpdate _ _))
      exact ⟨rfl, ⟨rfl, rfl⟩, rfl⟩
  | some result =>
      dsimp only
      refine Quiet.trans_records ?_ (applyEvent_records clock result (by rfl) hne _)
      exact ⟨rfl, ⟨rfl, rfl⟩, rfl⟩

end App

end Netmon
