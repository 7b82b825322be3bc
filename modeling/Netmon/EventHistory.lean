import Netmon.KeysLinked
import Netmon.Database

/-!
# The event history and its counter

Which operations of the store touch the event ring and the id counter.  Device,
traffic, interface and attack updates leave both alone; an event with an id is
pushed as it is, stamped when it has no time; cleanup gives one new id to each
device that goes offline.  Loading a database fills the ring with the newest
rows and, since every stored event has an id, never moves the counter.
-/

namespace Netmon

namespace StateStore

/-! ## Ids -/

/-- Different numbers make different ids. -/
theorem eventIdText_inj {m n : Nat} : eventIdText m = eventIdText n ↔ m = n := by
  rw [eventIdText, eventIdText, List.append_cancel_left_eq, decimal_inj]

/-- An id is not empty. -/
theorem eventIdText_ne_nil (n : Nat) : eventIdText n ≠ [] := by
  intro h
  exact absurd (List.append_eq_nil_iff.mp h).1 (by decide)

/-- An id has no zero byte, so that it is stored as it is. -/
theorem zero_notMem_eventIdText (n : Nat) : 0 ∉ eventIdText n := by
  intro h
  rcases List.mem_append.mp h with hprefix | hdigit
  · exact absurd hprefix (by decide)
  · exact absurd (isDigit_of_mem_decimal hdigit) (by decide)

/-! ## Operations that leave the history alone -/

/-- Two stores with the same events and the same counter. -/
structure SameEvents (s t : StateStore) : Prop where
  events : t.events = s.events
  eventSeq : t.eventSeq = s.eventSeq

theorem SameEvents.refl (s : StateStore) : SameEvents s s := ⟨rfl, rfl⟩

theorem SameEvents.trans {s t u : StateStore} (hst : SameEvents s t) (htu : SameEvents t u) :
    SameEvents s u :=
  ⟨htu.events.trans hst.events, htu.eventSeq.trans hst.eventSeq⟩

/-- A loop of steps that leave the events alone leaves them alone. -/
theorem sameEvents_foldl {ι : Type} {f : StateStore → ι → StateStore}
    (hf : ∀ s i, SameEvents s (f s i)) (inputs : List ι) (s : StateStore) :
    SameEvents s (inputs.foldl f s) :=
  Runs.run_related SameEvents SameEvents.refl SameEvents.trans hf s inputs

/-- The time of the last log is no event. -/
theorem touchLastLogLocked_sameEvents (now ts : TimePoint) (s : StateStore) :
    SameEvents s (s.touchLastLogLocked now ts) := by
  rw [touchLastLogLocked_eq]
  exact ⟨rfl, rfl⟩

/-- Moving a device to its MAC leaves the events alone. -/
theorem rekey_sameEvents (key desired : Str) (s : StateStore) :
    SameEvents s (s.rekey key desired).1 := by
  unfold rekey
  cases s.devicesByKey.lookup key with
  | none => exact SameEvents.refl s
  | some node => exact ⟨rfl, rfl⟩

/-- A notice about a device leaves the events alone. -/
theorem updateDevice_sameEvents (now : TimePoint) (device : DeviceState) (s : StateStore) :
    SameEvents s (s.updateDevice now device) := by
  by_cases hkey : s.resolveKey device.mac device.ip = []
  · simp only [updateDevice, if_pos hkey]
    exact SameEvents.refl s
  · simp only [updateDevice, if_neg hkey]
    refine SameEvents.trans ?_ (touchLastLogLocked_sameEvents _ _ _)
    split
    · exact (rekey_sameEvents _ _ s).trans ⟨rfl, rfl⟩
    · exact ⟨rfl, rfl⟩

/-- A traffic sample leaves the events alone. -/
theorem updateTraffic_sameEvents (now : TimePoint) (snapshot : TrafficSnapshot)
    (s : StateStore) : SameEvents s (s.updateTraffic now snapshot) := by
  by_cases hnone : snapshot.mac = [] ∧ snapshot.ip = []
  · simp only [updateTraffic, if_pos hnone]
    exact SameEvents.refl s
  · simp only [updateTraffic, if_neg hnone]
    split
    · exact SameEvents.refl s
    · exact SameEvents.trans (by exact ⟨rfl, rfl⟩) (touchLastLogLocked_sameEvents _ _ _)

/-- An interface sample leaves the events alone. -/
theorem updateInterface_sameEvents (now : TimePoint) (snapshot : InterfaceSnapshot)
    (s : StateStore) : SameEvents s (s.updateInterface now snapshot) := by
  unfold updateInterface
  split
  · exact SameEvents.refl s
  · exact SameEvents.trans (by exact ⟨rfl, rfl⟩) (touchLastLogLocked_sameEvents _ _ _)

/-- An attack has a buffer of its own and leaves the events alone. -/
theorem addWANAttack_sameEvents (now later : TimePoint) (event : WANAttackEvent)
    (s : StateStore) : SameEvents s (s.addWANAttack now later event) := by
  unfold addWANAttack
  exact SameEvents.trans (by exact ⟨rfl, rfl⟩) (touchLastLogLocked_sameEvents _ _ _)

theorem eraseDevice_sameEvents (s : StateStore) (key : Str) :
    SameEvents s (s.eraseDevice key) := ⟨rfl, rfl⟩

/-! ## Events -/

/-- An event as the ring holds it: with the clock in place of a missing time. -/
def stampEvent (now : TimePoint) (event : Event) : Event :=
  { event with ts := if event.ts = 0 then now else event.ts }

/-- An event that has an id is pushed under it. -/
theorem addEvent_named (now : TimePoint) {event : Event} (h : event.id ≠ []) (s : StateStore) :
    (s.addEvent now event).events = s.events.push (stampEvent now event) ∧
      (s.addEvent now event).eventSeq = s.eventSeq := by
  have hsame := touchLastLogLocked_sameEvents now (stampEvent now event).ts
    { s with events := s.events.push (stampEvent now event) }
  unfold addEvent pushEventLocked
  simp only [if_neg h]
  exact ⟨hsame.events, hsame.eventSeq⟩

/-- An event without one gets the next id. -/
theorem addEvent_unnamed (now : TimePoint) {event : Event} (h : event.id = []) (s : StateStore) :
    (s.addEvent now event).events =
        s.events.push { stampEvent now event with id := eventIdText (s.eventSeq + 1) } ∧
      (s.addEvent now event).eventSeq = s.eventSeq + 1 := by
  have hsame := touchLastLogLocked_sameEvents now (stampEvent now event).ts
    { s with
      events := s.events.push { stampEvent now event with id := eventIdText (s.eventSeq + 1) }
      eventSeq := s.eventSeq + 1 }
  unfold addEvent pushEventLocked
  simp only [if_pos h]
  exact ⟨hsame.events, hsame.eventSeq⟩

/-- The store gives out ids above its counter: the counter never goes back, and
an event that was not there before carries a number in between. -/
structure GivesIds (s t : StateStore) : Prop where
  counter : s.eventSeq ≤ t.eventSeq
  ring : ∀ e ∈ t.events.items, e ∈ s.events.items ∨
    ∃ n, s.eventSeq < n ∧ n ≤ t.eventSeq ∧ e.id = eventIdText n

/-- Where no event is made, no id is given. -/
theorem SameEvents.givesIds {s t : StateStore} (h : SameEvents s t) : GivesIds s t :=
  ⟨h.eventSeq.ge, fun _ he => Or.inl (h.events ▸ he)⟩

/-- Ids are given one after the other. -/
theorem GivesIds.trans {s t u : StateStore} (hst : GivesIds s t) (htu : GivesIds t u) :
    GivesIds s u := by
  refine ⟨hst.counter.trans htu.counter, fun e he => ?_⟩
  rcases htu.ring e he with hold | ⟨n, hlt, hle, hid⟩
  · rcases hst.ring e hold with holder | ⟨n, hlt, hle, hid⟩
    · exact Or.inl holder
    · exact Or.inr ⟨n, hlt, hle.trans htu.counter, hid⟩
  · exact Or.inr ⟨n, lt_of_le_of_lt hst.counter hlt, hle, hid⟩

/-- A notice takes the next id and joins the ring. -/
theorem announceOffline_ring (now : TimePoint) (device : DeviceState) (s : StateStore) :
    (s.announceOffline now device).events =
        s.events.push (offlineEvent (eventIdText (s.eventSeq + 1)) now device) ∧
      (s.announceOffline now device).eventSeq = s.eventSeq + 1 := by
  have hsame := touchLastLogLocked_sameEvents now now
    { s with
      events := s.events.push (offlineEvent (eventIdText (s.eventSeq + 1)) now device)
      eventSeq := s.eventSeq + 1 }
  exact ⟨hsame.events, hsame.eventSeq⟩

/-- An announcement is one event, with the next id. -/
theorem announceOffline_events (now : TimePoint) (device : DeviceState) (s : StateStore) :
    GivesIds s (s.announceOffline now device) ∧
      (s.announceOffline now device).eventSeq = s.eventSeq + 1 := by
  obtain ⟨hevents, hseq⟩ := announceOffline_ring now device s
  refine ⟨⟨by omega, fun e he => ?_⟩, hseq⟩
  rw [hevents] at he
  rcases RingBuffer.mem_push he with hold | rfl
  · exact Or.inl hold
  · exact Or.inr ⟨s.eventSeq + 1, by omega, hseq.ge, rfl⟩

/-- The walk gives one id to each device that goes offline. -/
theorem announceAll_events (now : TimePoint) (devices : List DeviceState) (s : StateStore) :
    GivesIds s (s.announceAll now devices) ∧
      (s.announceAll now devices).eventSeq =
        s.eventSeq + devices.countP (goesOffline s.config now) := by
  induction devices generalizing s with
  | nil => exact ⟨(SameEvents.refl s).givesIds, rfl⟩
  | cons device devices ih =>
      by_cases h : goesOffline s.config now device = true
      · obtain ⟨hgives, hseq⟩ := announceOffline_events now (sweepDevice s.config now device) s
        obtain ⟨hrest, hcount⟩ := ih (s.announceOffline now (sweepDevice s.config now device))
        rw [(announceOffline_same now _ s).config] at hcount
        rw [announceAll_cons_of_pos h, List.countP_cons_of_pos h]
        exact ⟨hgives.trans hrest, by omega⟩
      · rw [announceAll_cons_of_neg h, List.countP_cons_of_neg h]
        exact ih s

/-- Apart from the notices, cleanup leaves the history alone. -/
theorem cleanup_sameEvents (now : TimePoint) (s : StateStore) :
    SameEvents (s.announceAll now (s.devicesByKey.entries.map Sigma.snd)) (s.cleanup now) := by
  unfold cleanup
  refine SameEvents.trans ?_ (sameEvents_foldl eraseDevice_sameEvents _ _)
  exact ⟨rfl, rfl⟩

/-- Cleanup gives ids to the devices that go offline and to nothing else. -/
theorem cleanup_events (now : TimePoint) (s : StateStore) :
    GivesIds s (s.cleanup now) ∧
      (s.cleanup now).eventSeq = s.eventSeq +
        (s.devicesByKey.entries.map Sigma.snd).countP (goesOffline s.config now) := by
  obtain ⟨hgives, hcount⟩ := announceAll_events now (s.devicesByKey.entries.map Sigma.snd) s
  have hsame := cleanup_sameEvents now s
  exact ⟨hgives.trans hsame.givesIds, hsame.eventSeq.trans hcount⟩

/-! ## Loading -/

/-- Around the event rows, a load leaves the history of a fresh store alone. -/
theorem loadInto_sameEvents (config : Config) (clock : Database.LoadClock) (db : Database)
    (s : StateStore) :
    SameEvents s (db.loadDevices clock s) ∧
      SameEvents (db.loadEvents config clock (db.loadDevices clock s))
        (db.loadInto config clock s) :=
  ⟨sameEvents_foldl (fun s _ => updateDevice_sameEvents _ _ s) _ _,
    sameEvents_foldl (fun s _ => addWANAttack_sameEvents _ _ _ s) _ _⟩

end StateStore

end Netmon
