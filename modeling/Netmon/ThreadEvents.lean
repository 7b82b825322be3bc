import Netmon.EventRecords
import Netmon.Threads

/-!
# Events under concurrent threads

A line takes an id, its event joins the ring of the store and is stored in the
database, each in a step of its own; a cleanup pass announces devices with ids of its
own, and the cleanup thread copies the whole ring and stores it again, event by event,
while other threads go on.  So an event can be stored by two threads, and the id of a
line can lie between two ids of a pass.

`made` lists the events in the order of their ids.  The ids are numbers of the counter,
each used once (`Recorded.numbered`), the ring holds events that were made and the table
their rows (`Recorded`), whichever thread has written them.
-/

namespace Netmon

/-! ## Events without their ids -/

/-- The call, with another id for an event that it adds. -/
def StoreOp.withId (id : Str) : StoreOp → StoreOp
  | .addEvent now event => .addEvent now { event with id := id }
  | op => op

namespace App

/-- The calls of an event depend on its id only where they add it. -/
theorem eventCalls_withId (clock : LogClock) (result : ParseResult) (event : Event) (id : Str) :
    eventCalls clock result { event with id := id } =
      (eventCalls clock result event).map (StoreOp.withId id) := by
  unfold eventCalls
  dsimp only
  by_cases hnetdev : result.type = str "netdev"
  · rw [if_pos hnetdev, if_pos hnetdev]
    rfl
  rw [if_neg hnetdev, if_neg hnetdev]
  by_cases hdhcp : result.type = str "dhcp"
  · rw [if_pos hdhcp, if_pos hdhcp]
    rfl
  rw [if_neg hdhcp, if_neg hdhcp]
  by_cases htraffic : result.type = str "nettraffic"
  · rw [if_pos htraffic, if_pos htraffic]
    by_cases hcounters : str "rx_bytes" ∈ result.fields ∧ str "tx_bytes" ∈ result.fields
    · rw [if_pos hcounters, if_pos hcounters]
      rfl
    · rw [if_neg hcounters, if_neg hcounters]
      rfl
  rw [if_neg htraffic, if_neg htraffic]
  by_cases hiface : result.type = str "netiface"
  · rw [if_pos hiface, if_pos hiface]
    by_cases hcounters : str "rx_bytes" ∈ result.fields ∧ str "tx_bytes" ∈ result.fields
    · rw [if_pos hcounters]
      rfl
    · rw [if_neg hcounters]
      rfl
  rw [if_neg hiface, if_neg hiface]
  by_cases hattack : result.type = str "wan_attack"
  · rw [if_pos hattack, if_pos hattack]
    rfl
  rw [if_neg hattack, if_neg hattack]
  by_cases hwan : result.type = str "wan"
  · rw [if_pos hwan, if_pos hwan]
    rfl
  rw [if_neg hwan, if_neg hwan]
  by_cases hwifi : result.type = str "wifi"
  · rw [if_pos hwifi, if_pos hwifi]
    rfl
  rw [if_neg hwifi, if_neg hwifi]
  rfl

/-- The event of a line before it has an id. -/
def unnamedEvent (clock : LogClock) (line peerIp : Str) : Event :=
  { lineEvent clock line peerIp (StateStore.init {}) with id := [] }

/-- The event of a line differs by its id only. -/
theorem lineEvent_eq (clock : LogClock) (line peerIp : Str) (s : StateStore) :
    lineEvent clock line peerIp s =
      { unnamedEvent clock line peerIp with id := StateStore.eventIdText (s.eventSeq + 1) } := by
  unfold unnamedEvent lineEvent
  cases parse line <;> rfl

/-- The time of an event is a reading of the clock or the time on the line. -/
theorem unnamedEvent_ts {clock : LogClock} (hmade : clock.made ≠ 0) (hstamp : clock.stamp ≠ 0)
    (line peerIp : Str) : (unnamedEvent clock line peerIp).ts ≠ 0 := by
  unfold unnamedEvent lineEvent
  cases parse line with
  | none => exact hmade
  | some result =>
      show tsFromFields clock.stamp result.fields ≠ 0
      unfold tsFromFields
      dsimp only
      split
      · rename_i hpos
        rw [Ne, fromUnixSeconds_eq_zero]
        intro hzero
        have hsigned := congrArg Int64.toUInt64
          (Int64.toInt_inj.mp (hzero.trans Int64.toInt_zero.symm))
        rw [UInt64.toUInt64_toInt64] at hsigned
        rw [hsigned] at hpos
        exact absurd hpos (by decide)
      · exact hstamp

end App

namespace Threads

variable {ι : Type}

/-- The calls of a line differ by the id of its event only. -/
theorem madeCalls_eq (clock : LogClock) (line peerIp : Str) (s : StateStore) :
    madeCalls clock line peerIp s =
      (App.eventCalls clock (App.lineResult line) (App.unnamedEvent clock line peerIp)).map
        (StoreOp.withId (StateStore.eventIdText (s.eventSeq + 1))) := by
  rw [madeCalls, App.lineEvent_eq, App.eventCalls_withId]

/-- The calls for a line add its event, under its id and at its time, or make an update. -/
theorem madeCalls_cases {clock : LogClock} {line peerIp : Str} {s : StateStore} {op : StoreOp}
    (h : op ∈ madeCalls clock line peerIp s) :
    (∃ now event, op = .addEvent now event ∧
      event ∈ App.addedEvents (madeCalls clock line peerIp s) ∧
      event.id = StateStore.eventIdText (s.eventSeq + 1) ∧
      event.ts = (App.unnamedEvent clock line peerIp).ts) ∨
    (∃ now device, op = .updateDevice now device) ∨
    (∃ now snapshot, op = .updateTraffic now snapshot) ∨
    (∃ now snapshot, op = .updateInterface now snapshot) ∨
    (∃ now later attack, op = .addWANAttack now later attack) := by
  have hevent := App.lineEvent_eq clock line peerIp s
  unfold madeCalls at h ⊢
  rcases App.eventCalls_cases clock (App.lineResult line) (App.lineEvent clock line peerIp s) with
    ⟨-, hcalls | ⟨snapshot, hcalls, -⟩⟩ | ⟨-, attack, e, hcalls, -, hts, hid⟩ |
      ⟨-, -, e, hcalls | ⟨device, hcalls, -⟩ | ⟨snapshot, hcalls, -⟩, hts, hid⟩ <;>
    rw [hcalls] at h ⊢ <;>
    simp only [List.mem_cons, List.not_mem_nil, or_false] at h
  · rw [h]
    exact Or.inr (Or.inr (Or.inr (Or.inl ⟨_, _, rfl⟩)))
  · rcases h with rfl | rfl
    · exact Or.inr (Or.inr (Or.inr (Or.inr ⟨_, _, _, rfl⟩)))
    · exact Or.inl ⟨_, e, rfl, by simp [App.addedEvents], hid.trans (by rw [hevent]),
        hts.trans (by rw [hevent])⟩
  · rw [h]
    exact Or.inl ⟨_, e, rfl, by simp [App.addedEvents], hid.trans (by rw [hevent]),
      hts.trans (by rw [hevent])⟩
  · rcases h with rfl | rfl
    · exact Or.inr (Or.inl ⟨_, _, rfl⟩)
    · exact Or.inl ⟨_, e, rfl, by simp [App.addedEvents], hid.trans (by rw [hevent]),
        hts.trans (by rw [hevent])⟩
  · rcases h with rfl | rfl
    · exact Or.inr (Or.inr (Or.inl ⟨_, _, rfl⟩))
    · exact Or.inl ⟨_, e, rfl, by simp [App.addedEvents], hid.trans (by rw [hevent]),
        hts.trans (by rw [hevent])⟩

/-- The events that a line makes have the id that it has taken. -/
theorem addedEvents_madeCalls {clock : LogClock} {line peerIp : Str} {s : StateStore}
    {event : Event}
    (h : event ∈ App.addedEvents (madeCalls clock line peerIp s)) :
    event.id = StateStore.eventIdText (s.eventSeq + 1) := by
  obtain ⟨op, hop, hadds⟩ := List.mem_filterMap.mp h
  rcases madeCalls_cases hop with ⟨now, e, rfl, -, hid, -⟩ | ⟨_, _, rfl⟩ | ⟨_, _, rfl⟩ |
      ⟨_, _, rfl⟩ | ⟨_, _, _, rfl⟩ <;> cases hadds
  exact hid

/-- A line makes at most one event. -/
theorem length_addedEvents_madeCalls (clock : LogClock) (line peerIp : Str) (s : StateStore) :
    (App.addedEvents (madeCalls clock line peerIp s)).length ≤ 1 := by
  unfold madeCalls
  rcases App.eventCalls_cases clock (App.lineResult line) (App.lineEvent clock line peerIp s) with
    ⟨-, hcalls | ⟨snapshot, hcalls, -⟩⟩ | ⟨-, attack, e, hcalls, -⟩ |
      ⟨-, -, e, hcalls | ⟨device, hcalls, -⟩ | ⟨snapshot, hcalls, -⟩, -⟩ <;>
    rw [hcalls] <;> simp [App.addedEvents]

/-! ## What an action does to the events -/

/-- The ring, the counter and the events that were made are as before. -/
structure SameHistory (s s' : Shared ι) : Prop where
  config : s'.app.config = s.app.config
  store : StateStore.SameEvents s.app.state s'.app.state
  made : s'.made = s.made

/-- What an action does to the events: nothing; remove rows; make events with the next
id; add an event that has an id; announce a device; or store an event. -/
inductive EventEffect (s : Shared ι) (t : Thread) (s' : Shared ι) : Action → Prop where
  | quiet {action : Action} (hmake : ∀ clock line peerIp, action ≠ .makeEvent clock line peerIp)
      (hinsert : ∀ event, action ≠ .insertEvent event) (hsame : SameHistory s s')
      (htable : s'.app.db.events = s.app.db.events) :
      EventEffect s t s' action
  | trims (now : TimePoint) (bytes : Nat → Int) (hsame : SameHistory s s')
      (htable : Database.Shrinks s.app.db s'.app.db) :
      EventEffect s t s' (.applyRetention now bytes)
  | makes (clock : LogClock) (line peerIp : Str) (hconfig : s'.app.config = s.app.config)
      (hring : s'.app.state.events = s.app.state.events)
      (hseq : s'.app.state.eventSeq = s.app.state.eventSeq + 1)
      (hmade : s'.made = s.made ++ App.addedEvents (madeCalls clock line peerIp s.app.state))
      (htable : s'.app.db.events = s.app.db.events) :
      EventEffect s t s' (.makeEvent clock line peerIp)
  | adds (now : TimePoint) (event : Event) (hconfig : s'.app.config = s.app.config)
      (hring : s'.app.state.events = s.app.state.events.push (StateStore.stampEvent now event))
      (hseq : s'.app.state.eventSeq = s.app.state.eventSeq) (hmade : s'.made = s.made)
      (htable : s'.app.db.events = s.app.db.events) :
      EventEffect s t s' (.call (.addEvent now event))
  | announces (now : TimePoint) (event : Event) (hconfig : s'.app.config = s.app.config)
      (hid : event.id = StateStore.eventIdText (s.app.state.eventSeq + 1))
      (hring : s'.app.state.events = s.app.state.events.push event)
      (hseq : s'.app.state.eventSeq = s.app.state.eventSeq + 1)
      (hmade : s'.made = s.made ++ [event])
      (htable : s'.app.db.events = s.app.db.events) : EventEffect s t s' (.announce now)
  | stores {action : Action} (event : Event)
      (haction : action = .insertEvent event ∨ action = .insertHistory ∧ event ∈ t.history)
      (hsame : SameHistory s s')
      (htable : s'.app.db.events = (s.app.persistEvent event).db.events) :
      EventEffect s t s' action

/-- The walk over the devices leaves the events alone. -/
theorem sweep_sameEvents (now : TimePoint) (s : StateStore) :
    StateStore.SameEvents s (s.sweep now) :=
  StateStore.SameEvents.trans (by exact ⟨rfl, rfl⟩)
    (StateStore.sameEvents_foldl StateStore.eraseDevice_sameEvents _ _)

/-- Writing an event makes none. -/
theorem SameHistory.persists {s s' : Shared ι} {event : Event}
    (happ : s'.app = s.app.persistEvent event) (hmade : s'.made = s.made) : SameHistory s s' := by
  refine ⟨?_, ?_, hmade⟩
  · rw [happ]
    unfold App.persistEvent
    split <;> rfl
  · rw [happ, App.persistEvent_state]
    exact StateStore.SameEvents.refl _

/-- A call other than `nextEventId` and `cleanup`, and with an id for an event. -/
def NamedCall : StoreOp → Prop
  | .addEvent _ event => event.id ≠ []
  | .nextEventId => False
  | .cleanup _ => False
  | _ => True

/-- **What an action does to the events** is one of these. -/
theorem perform_eventEffect (i : ι) (s : Shared ι) (t : Thread) {action : Action}
    (hcall : ∀ op, action = .call op → NamedCall op) :
    EventEffect s t (perform i s t action).1 action := by
  have hquiet : ∀ (s' : Shared ι) (a : Action),
      (∀ clock line peerIp, a ≠ .makeEvent clock line peerIp) →
      (∀ event, a ≠ .insertEvent event) → s'.app = s.app → s'.made = s.made →
      EventEffect s t s' a := by
    intro s' a hmake hinsert happ hmade
    exact .quiet hmake hinsert
      ⟨by rw [happ], by rw [happ]; exact StateStore.SameEvents.refl _, hmade⟩
      (by rw [happ])
  cases action with
  | makeEvent clock line peerIp => exact .makes clock line peerIp rfl rfl rfl rfl rfl
  | call op =>
      have hop := hcall op rfl
      cases op with
      | updateDevice now device =>
          exact .quiet (by simp) (by simp)
            ⟨rfl, StateStore.updateDevice_sameEvents now device _, rfl⟩ rfl
      | updateTraffic now snapshot =>
          exact .quiet (by simp) (by simp)
            ⟨rfl, StateStore.updateTraffic_sameEvents now snapshot _, rfl⟩ rfl
      | updateInterface now snapshot =>
          exact .quiet (by simp) (by simp)
            ⟨rfl, StateStore.updateInterface_sameEvents now snapshot _, rfl⟩ rfl
      | addWANAttack now later attack =>
          exact .quiet (by simp) (by simp)
            ⟨rfl, StateStore.addWANAttack_sameEvents now later attack _, rfl⟩ rfl
      | addEvent now event =>
          obtain ⟨hring, hseq⟩ := StateStore.addEvent_named now hop s.app.state
          exact .adds now event rfl hring hseq rfl rfl
      | nextEventId => exact absurd hop id
      | cleanup now => exact absurd hop id
  | insertTraffic snapshot =>
      refine .quiet (by simp) (by simp) ⟨?_, ?_, rfl⟩ ?_ <;>
        simp only [perform, Action.effect, App.persistTraffic]
      · split <;> rfl
      · split <;> exact StateStore.SameEvents.refl _
      · split <;> rfl
  | insertAttack attack =>
      refine .quiet (by simp) (by simp) ⟨?_, ?_, rfl⟩ ?_ <;>
        simp only [perform, Action.effect, App.persistWANAttack]
      · split <;> rfl
      · split <;> exact StateStore.SameEvents.refl _
      · split <;> rfl
  | insertEvent event =>
      exact .stores event (Or.inl rfl) (.persists rfl rfl) rfl
  | upsertDevices now =>
      refine .quiet (by simp) (by simp) ⟨?_, ?_, rfl⟩ ?_ <;> simp only [perform, Action.effect]
      · split <;> rfl
      · split <;> exact StateStore.SameEvents.refl _
      · split
        · exact Database.upsertDevices_events now t.devices s.app.db
        · rfl
  | announce now =>
      simp only [perform]
      cases t.gone with
      | nil => exact hquiet s _ (by simp) (by simp) rfl rfl
      | cons device gone =>
          obtain ⟨hring, hseq⟩ := StateStore.announceOffline_ring now device s.app.state
          exact .announces now _ rfl rfl hring hseq rfl rfl
  | endCleanup now =>
      exact .quiet (by simp) (by simp) ⟨rfl, sweep_sameEvents now s.app.state, rfl⟩ rfl
  | insertHistory =>
      simp only [perform]
      cases hhistory : t.history with
      | nil => exact hquiet s _ (by simp) (by simp) rfl rfl
      | cons event history =>
          refine .stores event (Or.inr ⟨rfl, ?_⟩) (.persists rfl rfl) rfl
          rw [hhistory]
          exact List.mem_cons_self
  | applyRetention now bytes =>
      refine .trims now bytes ⟨?_, ?_, rfl⟩ ?_ <;> simp only [perform, Action.effect]
      · split <;> rfl
      · split <;> exact StateStore.SameEvents.refl _
      · split
        · exact Database.shrinks_applyRetention _ _ _ _
        · exact Database.Shrinks.refl _
  | readCounters fields => cases fields <;> exact hquiet s _ (by simp) (by simp) rfl rfl
  | publish update => exact .quiet (by simp) (by simp) ⟨rfl, StateStore.SameEvents.refl _, rfl⟩ rfl
  | countMessage => exact .quiet (by simp) (by simp) ⟨rfl, StateStore.SameEvents.refl _, rfl⟩ rfl
  | countType type => exact .quiet (by simp) (by simp) ⟨rfl, StateStore.SameEvents.refl _, rfl⟩ rfl
  | countParseError => exact .quiet (by simp) (by simp) ⟨rfl, StateStore.SameEvents.refl _, rfl⟩ rfl
  | countAttack => exact .quiet (by simp) (by simp) ⟨rfl, StateStore.SameEvents.refl _, rfl⟩ rfl
  | readDevices now => exact hquiet _ _ (by simp) (by simp) rfl rfl
  | beginCleanup now => exact hquiet _ _ (by simp) (by simp) rfl rfl
  | readHistory => exact hquiet _ _ (by simp) (by simp) rfl rfl

/-! ## Every event has one id and one row -/

/-- The row under which an event is stored. -/
def storedRow (event : Event) : EventRow := eventRow (preprocessEventForStorage event)

/-- The events that were made have numbers of the counter as ids, in ascending order;
the ring holds such events, and the table their rows beside those it started with. -/
structure Recorded (first : Nat) (table : StrMap EventRow) (s : Shared ι) : Prop where
  counter : first ≤ s.app.state.eventSeq
  numbered : ∃ numbers : List Nat,
    s.made.map Event.id = numbers.map StateStore.eventIdText ∧ numbers.Pairwise (· < ·) ∧
      ∀ n ∈ numbers, first < n ∧ n ≤ s.app.state.eventSeq
  ring : ∀ event ∈ s.app.state.events.items, event ∈ s.made
  rows : ∀ k row, s.app.db.events.lookup k = some row →
    table.lookup k = some row ∨ ∃ event ∈ s.made, event.id = k ∧ row = storedRow event

/-- What a thread has in hand was made, and has a time. -/
structure Owns (s : Shared ι) (t : Thread) : Prop where
  adds : ∀ now event, .call (.addEvent now event) ∈ t.todo → event ∈ s.made ∧ event.ts ≠ 0
  inserts : ∀ event, .insertEvent event ∈ t.todo → event ∈ s.made
  history : ∀ event ∈ t.history, event ∈ s.made
  clocks : ∀ clock line peerIp, .makeEvent clock line peerIp ∈ t.todo →
    clock.made ≠ 0 ∧ clock.stamp ≠ 0
  calls : .call .nextEventId ∉ t.todo ∧ ∀ now, .call (.cleanup now) ∉ t.todo

/-- What was made stays made. -/
theorem EventEffect.made_subset {s s' : Shared ι} {t : Thread} {action : Action}
    (h : EventEffect s t s' action) : ∀ event ∈ s.made, event ∈ s'.made := by
  intro event hevent
  cases h with
  | quiet _ _ hsame _ => rwa [hsame.made]
  | trims _ _ hsame _ => rwa [hsame.made]
  | makes _ _ _ _ _ _ hmade _ =>
      rw [hmade]
      exact List.mem_append_left _ hevent
  | adds _ _ _ _ _ hmade _ => rwa [hmade]
  | announces _ _ _ _ _ _ hmade _ =>
      rw [hmade]
      exact List.mem_append_left _ hevent
  | stores _ _ hsame _ => rwa [hsame.made]

/-- The events that were made have the numbers since the start. -/
theorem Recorded.id_of_mem {first : Nat} {table : StrMap EventRow} {s : Shared ι}
    (h : Recorded first table s) {event : Event} (hevent : event ∈ s.made) :
    ∃ n, first < n ∧ n ≤ s.app.state.eventSeq ∧ event.id = StateStore.eventIdText n := by
  obtain ⟨numbers, hids, -, hbound⟩ := h.numbered
  have hmem : event.id ∈ s.made.map Event.id := List.mem_map_of_mem hevent
  rw [hids] at hmem
  obtain ⟨n, hn, hid⟩ := List.mem_map.mp hmem
  exact ⟨n, (hbound n hn).1, (hbound n hn).2, hid.symm⟩

/-- No id was given twice. -/
theorem Recorded.nodup {first : Nat} {table : StrMap EventRow} {s : Shared ι}
    (h : Recorded first table s) : (s.made.map Event.id).Nodup := by
  obtain ⟨numbers, hids, hsorted, -⟩ := h.numbered
  rw [hids]
  refine (List.Pairwise.imp (fun hlt => Nat.ne_of_lt hlt) hsorted).map _ fun a b hne heq => ?_
  exact hne (StateStore.eventIdText_inj.mp heq)

/-- Nothing new but rows of events that were made. -/
theorem Recorded.same {first : Nat} {table : StrMap EventRow} {s s' : Shared ι}
    (h : Recorded first table s) (hsame : SameHistory s s')
    (hrows : ∀ k row, s'.app.db.events.lookup k = some row →
      table.lookup k = some row ∨ ∃ event ∈ s.made, event.id = k ∧ row = storedRow event) :
    Recorded first table s' := by
  refine ⟨?_, ?_, ?_, ?_⟩
  · rw [hsame.store.eventSeq]
    exact h.counter
  · rw [hsame.made, hsame.store.eventSeq]
    exact h.numbered
  · rw [hsame.made, hsame.store.events]
    exact h.ring
  · rw [hsame.made]
    exact hrows

/-- New events under the next id. -/
theorem Recorded.numbered_append {first : Nat} {table : StrMap EventRow} {s s' : Shared ι}
    (h : Recorded first table s) {more : List Event} (hlength : more.length ≤ 1)
    (hid : ∀ event ∈ more, event.id = StateStore.eventIdText (s.app.state.eventSeq + 1))
    (hmade : s'.made = s.made ++ more)
    (hseq : s'.app.state.eventSeq = s.app.state.eventSeq + 1) :
    ∃ numbers : List Nat,
      s'.made.map Event.id = numbers.map StateStore.eventIdText ∧ numbers.Pairwise (· < ·) ∧
        ∀ n ∈ numbers, first < n ∧ n ≤ s'.app.state.eventSeq := by
  obtain ⟨numbers, hids, hsorted, hbound⟩ := h.numbered
  have hcounter := h.counter
  match more, hlength with
  | [], _ =>
      refine ⟨numbers, by rw [hmade, List.append_nil, hids], hsorted, fun n hn => ?_⟩
      have := hbound n hn
      omega
  | [event], _ =>
      refine ⟨numbers ++ [s.app.state.eventSeq + 1], ?_, ?_, fun n hn => ?_⟩
      · rw [hmade, List.map_append, List.map_append, hids, List.map_singleton, List.map_singleton,
          hid event (List.mem_singleton_self _)]
      · refine List.pairwise_append.mpr ⟨hsorted, List.pairwise_singleton _ _, fun n hn m hm => ?_⟩
        rw [List.mem_singleton.mp hm]
        have := hbound n hn
        omega
      · rcases List.mem_append.mp hn with hold | hnew
        · have := hbound n hold
          omega
        · rw [List.mem_singleton.mp hnew]
          omega

/-- Storing an event that was made. -/
theorem Recorded.rows_stored {first : Nat} {table : StrMap EventRow} {s : Shared ι}
    (h : Recorded first table s) {event : Event} (hevent : event ∈ s.made) {k : Str}
    {row : EventRow}
    (hrow : (s.app.persistEvent event).db.events.lookup k = some row) :
    table.lookup k = some row ∨ ∃ e ∈ s.made, e.id = k ∧ row = storedRow e := by
  unfold App.persistEvent at hrow
  split at hrow
  · obtain ⟨n, -, -, hid⟩ := h.id_of_mem hevent
    have hkey : (eventRow (preprocessEventForStorage event)).id = event.id := by
      show cString event.id = event.id
      rw [hid]
      exact cString_eq_self (StateStore.zero_notMem_eventIdText n)
    simp only [Database.insertEvent] at hrow
    rw [hkey, AList.lookup_insert_if] at hrow
    split at hrow
    · rename_i hk
      exact Or.inr ⟨event, hevent, hk.symm, (Option.some.inj hrow).symm⟩
    · exact h.rows k row hrow
  · exact h.rows k row hrow

/-- **An action keeps the record.** -/
theorem Recorded.effect {first : Nat} {table : StrMap EventRow} {s s' : Shared ι} {t : Thread}
    {action : Action} (h : Recorded first table s) (heffect : EventEffect s t s' action)
    (hadds : ∀ now event, action = .call (.addEvent now event) → event ∈ s.made ∧ event.ts ≠ 0)
    (hinserts : ∀ event, action = .insertEvent event → event ∈ s.made)
    (hhistory : ∀ event ∈ t.history, event ∈ s.made) : Recorded first table s' := by
  cases heffect with
  | quiet _ _ hsame htable =>
      exact h.same hsame fun k row hrow => h.rows k row (htable ▸ hrow)
  | trims now bytes hsame htable =>
      exact h.same hsame fun k row hrow => h.rows k row (htable.lookup hrow)
  | makes clock line peerIp hconfig hring hseq hmade htable =>
      refine ⟨?_, ?_, ?_, ?_⟩
      · rw [hseq]
        exact h.counter.trans (Nat.le_succ _)
      · exact h.numbered_append (length_addedEvents_madeCalls clock line peerIp _)
          (fun _ => addedEvents_madeCalls) hmade hseq
      · rw [hring, hmade]
        exact fun e he => List.mem_append_left _ (h.ring e he)
      · rw [hmade, htable]
        intro k row hrow
        refine (h.rows k row hrow).imp_right fun hmem => ?_
        obtain ⟨e, he, hk⟩ := hmem
        exact ⟨e, List.mem_append_left _ he, hk⟩
  | adds now event hconfig hring hseq hmade htable =>
      obtain ⟨hevent, hts⟩ := hadds now event rfl
      refine ⟨?_, ?_, ?_, ?_⟩
      · rw [hseq]
        exact h.counter
      · rw [hmade, hseq]
        exact h.numbered
      · rw [hring, hmade]
        intro e he
        rcases RingBuffer.mem_push he with hold | rfl
        · exact h.ring e hold
        · have hsame : StateStore.stampEvent now event = event := by
            rw [StateStore.stampEvent, if_neg hts]
          rwa [hsame]
      · rw [hmade, htable]
        exact h.rows
  | announces now event hconfig hid hring hseq hmade htable =>
      refine ⟨?_, ?_, ?_, ?_⟩
      · rw [hseq]
        exact h.counter.trans (Nat.le_succ _)
      · refine h.numbered_append (Nat.le_refl _) (fun e he => ?_) hmade hseq
        rw [List.mem_singleton.mp he]
        exact hid
      · rw [hring, hmade]
        intro e he
        rcases RingBuffer.mem_push he with hold | rfl
        · exact List.mem_append_left _ (h.ring e hold)
        · exact List.mem_append_right _ (List.mem_singleton_self _)
      · rw [hmade, htable]
        intro k row hrow
        refine (h.rows k row hrow).imp_right fun hmem => ?_
        obtain ⟨e, he, hk⟩ := hmem
        exact ⟨e, List.mem_append_left _ he, hk⟩
  | stores event haction hsame htable =>
      have hevent : event ∈ s.made := by
        rcases haction with hinsert | ⟨-, hcopied⟩
        · exact hinserts event hinsert
        · exact hhistory event hcopied
      exact h.same hsame fun k row hrow => h.rows_stored hevent (htable ▸ hrow)

/-! ## Threads -/

/-- The newest events are events of the buffer. -/
theorem recentEvents_subset {limit : Nat} {s : StateStore} {event : Event}
    (h : event ∈ s.recentEvents limit) : event ∈ s.events.items :=
  List.mem_of_mem_drop h

/-- What a thread has copied of the history. -/
theorem perform_history (i : ι) (s : Shared ι) (t : Thread) (action : Action) :
    ∀ event ∈ (perform i s t action).2.history,
      event ∈ t.history ∨ event ∈ s.app.state.events.items := by
  cases action with
  | readHistory => exact fun event hevent => Or.inr (recentEvents_subset hevent)
  | announce now =>
      simp only [perform]
      cases t.gone <;> exact fun event hevent => Or.inl hevent
  | insertHistory =>
      simp only [perform]
      cases hhistory : t.history with
      | nil =>
          intro event hevent
          exact Or.inl (hhistory ▸ hevent)
      | cons first history => exact fun event hevent => Or.inl (List.mem_cons_of_mem _ hevent)
  | readCounters fields => cases fields <;> exact fun event hevent => Or.inl hevent
  | _ => exact fun event hevent => Or.inl hevent

/-- What an event leads to is in the hands of its thread. -/
theorem made_callActions {clock : LogClock} {line peerIp : Str} {s : StateStore} {action : Action}
    (hclock : clock.made ≠ 0 ∧ clock.stamp ≠ 0)
    (h : action ∈ callActions clock (App.lineType line) (madeCalls clock line peerIp s)) :
    (∀ now event, action = .call (.addEvent now event) →
      event ∈ App.addedEvents (madeCalls clock line peerIp s) ∧ event.ts ≠ 0) ∧
    (∀ event, action = .insertEvent event →
      event ∈ App.addedEvents (madeCalls clock line peerIp s)) ∧
    (∀ clock line peerIp, action ≠ .makeEvent clock line peerIp) ∧
    action ≠ .call .nextEventId ∧ ∀ now, action ≠ .call (.cleanup now) := by
  rcases callActions_cases h with ⟨op, hop, rfl⟩ | ⟨event, hevent, rfl⟩ | haside
  · rcases madeCalls_cases hop with ⟨now, event, rfl, hevent, -, hts⟩ | ⟨_, _, rfl⟩ | ⟨_, _, rfl⟩ |
      ⟨_, _, rfl⟩ | ⟨_, _, _, rfl⟩
    · refine ⟨fun now' event' heq => ?_, by simp, by simp, by simp, by simp⟩
      obtain ⟨-, rfl⟩ : now = now' ∧ event = event' := by simpa using heq
      exact ⟨hevent, hts ▸ App.unnamedEvent_ts hclock.1 hclock.2 line peerIp⟩
    all_goals simp
  · refine ⟨by simp, fun event' heq => ?_, by simp, by simp, by simp⟩
    obtain rfl : event = event' := by simpa using heq
    exact hevent
  · cases action <;> first | cases haside; done | simp

/-- The calls that a thread has in hand are named. -/
theorem Owns.namedCall {first : Nat} {table : StrMap EventRow} {s : Shared ι} {t : Thread}
    (h : Owns s t) (hs : Recorded first table s) {op : StoreOp} (hop : .call op ∈ t.todo) :
    NamedCall op := by
  cases op with
  | addEvent now event =>
      obtain ⟨n, -, -, hid⟩ := hs.id_of_mem (h.adds now event hop).1
      show event.id ≠ []
      rw [hid]
      exact StateStore.eventIdText_ne_nil n
  | nextEventId => exact absurd hop h.calls.1
  | cleanup now => exact absurd hop (h.calls.2 now)
  | _ => trivial

/-- What follows an action is owned. -/
theorem Follows.owned {i : ι} {s : Shared ι} {t : Thread} {action : Action} {more : List Action}
    (hfollows : Follows s.app.state action more)
    (hclock : ∀ clock line peerIp, action = .makeEvent clock line peerIp →
      clock.made ≠ 0 ∧ clock.stamp ≠ 0) {a : Action} (ha : a ∈ more) :
    (∀ now event, a = .call (.addEvent now event) →
      event ∈ (perform i s t action).1.made ∧ event.ts ≠ 0) ∧
    (∀ event, a = .insertEvent event → event ∈ (perform i s t action).1.made) ∧
    (∀ clock line peerIp, a ≠ .makeEvent clock line peerIp) ∧
    a ≠ .call .nextEventId ∧ ∀ now, a ≠ .call (.cleanup now) := by
  cases hfollows with
  | done _ => cases ha
  | announce now => simp [List.mem_singleton.mp ha]
  | insertHistory => simp [List.mem_singleton.mp ha]
  | readCounters field fields => simp [List.mem_singleton.mp ha]
  | makeEvent clock line peerIp =>
      obtain ⟨hadds, hinserts, hrest⟩ := made_callActions (hclock clock line peerIp rfl) ha
      refine ⟨fun now event heq => ?_, fun event heq => ?_, hrest⟩
      · exact ⟨List.mem_append_right _ (hadds now event heq).1, (hadds now event heq).2⟩
      · exact List.mem_append_right _ (hinserts event heq)

/-- **A thread owns what it has in hand**, also after an action of its own. -/
theorem Owns.perform {first : Nat} {table : StrMap EventRow} {s : Shared ι} {t : Thread}
    {action : Action} {rest : List Action} (h : Owns s t) (hs : Recorded first table s)
    (htodo : t.todo = action :: rest) (i : ι) :
    Owns (perform i s { t with todo := rest } action).1
      (perform i s { t with todo := rest } action).2 := by
  have hnow : action ∈ t.todo := htodo ▸ List.mem_cons_self
  have hlater : ∀ a ∈ rest, a ∈ t.todo := fun a ha => htodo ▸ List.mem_cons_of_mem _ ha
  have hsubset := (perform_eventEffect i s { t with todo := rest }
    fun op haction => h.namedCall hs (haction ▸ hnow)).made_subset
  obtain ⟨more, hfollows, hmore⟩ := perform_todo i s { t with todo := rest } action
  have howned := fun a (ha : a ∈ more) => hfollows.owned (i := i) (t := { t with todo := rest })
    (fun clock line peerIp haction => h.clocks clock line peerIp (haction ▸ hnow)) ha
  refine ⟨fun now event hmem => ?_, fun event hmem => ?_, fun event hmem => ?_,
    fun clock line peerIp hmem => ?_, fun hmem => ?_, fun now hmem => ?_⟩
  · rcases List.mem_append.mp (hmore ▸ hmem) with hnew | hold
    · exact (howned _ hnew).1 now event rfl
    · obtain ⟨hevent, hts⟩ := h.adds now event (hlater _ hold)
      exact ⟨hsubset event hevent, hts⟩
  · rcases List.mem_append.mp (hmore ▸ hmem) with hnew | hold
    · exact (howned _ hnew).2.1 event rfl
    · exact hsubset event (h.inserts event (hlater _ hold))
  · rcases perform_history i s { t with todo := rest } action event hmem with hold | hring
    · exact hsubset event (h.history event hold)
    · exact hsubset event (hs.ring event hring)
  · rcases List.mem_append.mp (hmore ▸ hmem) with hnew | hold
    · exact absurd rfl ((howned _ hnew).2.2.1 clock line peerIp)
    · exact h.clocks clock line peerIp (hlater _ hold)
  · rcases List.mem_append.mp (hmore ▸ hmem) with hnew | hold
    · exact (howned _ hnew).2.2.2.1 rfl
    · exact h.calls.1 (hlater _ hold)
  · rcases List.mem_append.mp (hmore ▸ hmem) with hnew | hold
    · exact (howned _ hnew).2.2.2.2 now rfl
    · exact h.calls.2 now (hlater _ hold)

/-- What is owned stays owned while others make more. -/
theorem Owns.mono {s s' : Shared ι} {t : Thread} (h : Owns s t)
    (hsubset : ∀ event ∈ s.made, event ∈ s'.made) : Owns s' t where
  adds := fun now event hmem => ⟨hsubset event (h.adds now event hmem).1, (h.adds now event hmem).2⟩
  inserts := fun event hmem => hsubset event (h.inserts event hmem)
  history := fun event hmem => hsubset event (h.history event hmem)
  clocks := h.clocks
  calls := h.calls

/-- **Whatever thread moves**, the record is kept and every thread owns what it has. -/
theorem keeps_recorded (first : Nat) (table : StrMap EventRow) :
    ThreadPool.Keeps move (Recorded first table) (fun (_ : ι) s t => Owns s t) := by
  have hmove : ∀ (i : ι) s t, Recorded first table s → Owns s t →
      Recorded first table (move i s t).1 ∧ Owns (move i s t).1 (move i s t).2 ∧
        ∀ event ∈ s.made, event ∈ (move i s t).1.made := by
    intro i s t hs ht
    rcases move_cases i s t with hrest | ⟨action, rest, htodo, -, hmove⟩
    · rw [hrest]
      exact ⟨hs, ht, fun _ h => h⟩
    rw [hmove]
    have hnow : action ∈ t.todo := htodo ▸ List.mem_cons_self
    have heffect := perform_eventEffect i s { t with todo := rest }
      fun op haction => ht.namedCall hs (haction ▸ hnow)
    refine ⟨hs.effect heffect (fun now event haction => ht.adds now event (haction ▸ hnow))
      (fun event haction => ht.inserts event (haction ▸ hnow)) ht.history,
      ht.perform hs htodo i, heffect.made_subset⟩
  exact ⟨fun i s t hs ht => (hmove i s t hs ht).1, fun i s t hs ht => (hmove i s t hs ht).2.1,
    fun i j s t u _ hs ht hu => hu.mono (hmove i s t hs ht).2.2⟩

/-! ## The ring -/

/-- The event that an action adds to the ring. -/
def Action.added : Action → Multiset Event
  | .call (.addEvent _ event) => {event}
  | _ => 0

/-- The events that a thread still has to add. -/
def toAdd (todo : List Action) : Multiset Event := (todo.map Action.added).sum

theorem toAdd_cons (action : Action) (todo : List Action) :
    toAdd (action :: todo) = action.added + toAdd todo := by
  simp [toAdd]

/-- What is to be added of two lists adds up. -/
theorem toAdd_append (before after : List Action) :
    toAdd (before ++ after) = toAdd before + toAdd after := by
  simp [toAdd]

/-- A line adds the events that it has made. -/
theorem toAdd_callActions (clock : LogClock) (line peerIp : Str) (s : StateStore) :
    toAdd (callActions clock (App.lineType line) (madeCalls clock line peerIp s)) =
      (App.addedEvents (madeCalls clock line peerIp s) : Multiset Event) := by
  unfold madeCalls
  rcases App.eventCalls_cases clock (App.lineResult line) (App.lineEvent clock line peerIp s) with
    ⟨-, hcalls | ⟨snapshot, hcalls, -⟩⟩ | ⟨-, attack, e, hcalls, -⟩ |
      ⟨-, -, e, hcalls | ⟨device, hcalls, -⟩ | ⟨snapshot, hcalls, -⟩, -⟩ <;>
    rw [hcalls] <;> rfl

/-- Anything else that follows an action adds nothing. -/
theorem Follows.toAdd_eq_zero {s : StateStore} {action : Action} {more : List Action}
    (h : Follows s action more)
    (hother : ∀ clock line peerIp, action ≠ .makeEvent clock line peerIp) :
    toAdd more = 0 := by
  cases h with
  | makeEvent clock line peerIp => exact absurd rfl (hother clock line peerIp)
  | _ => rfl

/-- The buffer holds no more than what was put into it. -/
theorem push_le (ring : RingBuffer Event) (event : Event) :
    ((ring.push event).items : Multiset Event) ≤ (ring.items : Multiset Event) + {event} := by
  rw [RingBuffer.push_items, ← Multiset.coe_singleton, Multiset.coe_add]
  exact Multiset.coe_le.mpr (popFrontTo_sublist _ _).subperm

/-- **No move lets the ring hold more than was made**, together with what is still to be
added. -/
theorem ring_le_move {first : Nat} {table : StrMap EventRow} (i : ι) {s : Shared ι} {t : Thread}
    (hs : Recorded first table s) (ht : Owns s t) :
    ((move i s t).1.app.state.events.items : Multiset Event) + toAdd (move i s t).2.todo +
        (s.made : Multiset Event) ≤
      (s.app.state.events.items : Multiset Event) + toAdd t.todo +
        ((move i s t).1.made : Multiset Event) := by
  rcases move_cases i s t with hrest | ⟨action, rest, htodo, -, hmove⟩
  · rw [hrest]
  have hnow : action ∈ t.todo := htodo ▸ List.mem_cons_self
  have heffect := perform_eventEffect i s { t with todo := rest }
    fun op haction => ht.namedCall hs (haction ▸ hnow)
  obtain ⟨more, hfollows, hmore⟩ := perform_todo i s { t with todo := rest } action
  rw [hmove, hmore, htodo, toAdd_append, toAdd_cons]
  generalize (perform i s { t with todo := rest } action).1 = s' at heffect
  have hpop : toAdd rest ≤ action.added + toAdd rest := Multiset.le_add_left _ _
  cases heffect with
  | quiet hother _ hsame htable =>
      rw [hsame.store.events, hsame.made, hfollows.toAdd_eq_zero hother, zero_add]
      exact add_le_add_left (add_le_add_right hpop _) _
  | trims now bytes hsame htable =>
      rw [hsame.store.events, hsame.made, hfollows.toAdd_eq_zero (by simp), zero_add]
      exact add_le_add_left (add_le_add_right hpop _) _
  | makes clock line peerIp hconfig hring hseq hmade htable =>
      have hadded : toAdd more =
          (App.addedEvents (madeCalls clock line peerIp s.app.state) : Multiset Event) := by
        cases hfollows with
        | done hother => exact absurd rfl (hother clock line peerIp)
        | makeEvent => exact toAdd_callActions clock line peerIp s.app.state
      rw [hring, hmade, hadded, ← Multiset.coe_add]
      apply le_of_eq
      show _ = _ + (0 + toAdd rest) + _
      abel
  | adds now event hconfig hring hseq hmade htable =>
      obtain ⟨-, hts⟩ := ht.adds now event hnow
      have hsame : StateStore.stampEvent now event = event := by
        rw [StateStore.stampEvent, if_neg hts]
      rw [hring, hmade, hsame, hfollows.toAdd_eq_zero (by simp), zero_add]
      refine add_le_add_left ?_ _
      calc ((s.app.state.events.push event).items : Multiset Event) + toAdd rest
          ≤ (s.app.state.events.items : Multiset Event) + {event} + toAdd rest :=
            add_le_add_left (push_le _ _) _
        _ = (s.app.state.events.items : Multiset Event) +
              ((Action.call (.addEvent now event)).added + toAdd rest) := add_assoc _ _ _
  | announces now event hconfig hid hring hseq hmade htable =>
      rw [hring, hmade, hfollows.toAdd_eq_zero (by simp), zero_add, ← Multiset.coe_add]
      calc ((s.app.state.events.push event).items : Multiset Event) + toAdd rest + s.made
          ≤ (s.app.state.events.items : Multiset Event) + {event} + toAdd rest + s.made :=
            add_le_add_left (add_le_add_left (push_le _ _) _) _
        _ = (s.app.state.events.items : Multiset Event) + (0 + toAdd rest) +
              (s.made + {event}) := by
            abel
  | stores event haction hsame htable =>
      have hother : ∀ clock line peerIp, action ≠ .makeEvent clock line peerIp := by
        rcases haction with rfl | ⟨rfl, -⟩ <;> simp
      rw [hsame.store.events, hsame.made, hfollows.toAdd_eq_zero hother, zero_add]
      exact add_le_add_left (add_le_add_right hpop _) _

/-! ## Schedules -/

/-- The clock of a job has been set when it is read. -/
def Job.ClockSet : Job → Prop
  | .handleLog clock _ _ => clock.made ≠ 0 ∧ clock.stamp ≠ 0
  | _ => True

/-- Jobs begin with nothing in hand. -/
theorem Job.actions_cases {job : Job} {action : Action} (h : action ∈ job.actions) :
    (∀ op, action ≠ .call op) ∧ (∀ event, action ≠ .insertEvent event) ∧
      ∀ clock line peerIp, action = .makeEvent clock line peerIp →
        job = .handleLog clock line peerIp := by
  cases job with
  | handleLog clock line peerIp =>
      rcases Job.mem_actions_handleLog h with rfl | rfl | rfl | rfl <;> simp
  | cleanup clock =>
      simp only [Job.actions] at h
      fin_cases h <;> simp
  | snapshot =>
      rw [List.mem_singleton.mp h]
      simp

/-- A pool that starts with an empty buffer is recorded. -/
theorem holds_recorded (app : App) (hring : app.state.events.items = []) {jobs : ι → List Job}
    (hclocks : ∀ i, ∀ job ∈ jobs i, job.ClockSet) :
    ThreadPool.Holds (Recorded app.state.eventSeq app.db.events) (fun (_ : ι) s t => Owns s t)
      (start app jobs) := by
  refine ⟨⟨Nat.le_refl _, ⟨[], rfl, List.Pairwise.nil, by simp⟩, ?_, fun k row h => Or.inl h⟩,
    fun i => ?_⟩
  · intro event hevent
    rw [show (start app jobs).shared.app = app from rfl, hring] at hevent
    cases hevent
  · have hcases : ∀ action ∈ ((start app jobs).thread i).todo, ∃ job ∈ jobs i,
        action ∈ job.actions := fun action haction => List.mem_flatMap.mp haction
    refine ⟨fun now event hmem => ?_, fun event hmem => ?_, fun event hmem => ?_,
      fun clock line peerIp hmem => ?_, fun hmem => ?_, fun now hmem => ?_⟩
    · obtain ⟨job, -, haction⟩ := hcases _ hmem
      exact absurd rfl ((Job.actions_cases haction).1 _)
    · obtain ⟨job, -, haction⟩ := hcases _ hmem
      exact absurd rfl ((Job.actions_cases haction).2.1 _)
    · cases hmem
    · obtain ⟨job, hjob, haction⟩ := hcases _ hmem
      obtain rfl := (Job.actions_cases haction).2.2 clock line peerIp rfl
      exact hclocks i _ hjob
    · obtain ⟨job, -, haction⟩ := hcases _ hmem
      exact absurd rfl ((Job.actions_cases haction).1 _)
    · obtain ⟨job, -, haction⟩ := hcases _ hmem
      exact absurd rfl ((Job.actions_cases haction).1 _)

variable [DecidableEq ι] [Fintype ι]

/-- Every event is in the ring at most once. -/
theorem ring_le_made {app : App} (hring : app.state.events.items = []) {jobs : ι → List Job}
    (hclocks : ∀ i, ∀ job ∈ jobs i, job.ClockSet) (schedule : List ι) :
    ((runSchedule (start app jobs) schedule).shared.app.state.events.items : Multiset Event) ≤
      ((runSchedule (start app jobs) schedule).shared.made : Multiset Event) := by
  have hstart : ((start app jobs).shared.app.state.events.items : Multiset Event) +
      ThreadPool.totalDue (fun t : Thread => toAdd t.todo) (start app jobs) ≤
        ((start app jobs).shared.made : Multiset Event) := by
    have hnone : ∀ i, toAdd ((start app jobs).thread i).todo = 0 := by
      intro i
      refine List.sum_eq_zero fun events hevents => ?_
      obtain ⟨action, haction, rfl⟩ := List.mem_map.mp hevents
      obtain ⟨job, -, hjob⟩ := List.mem_flatMap.mp haction
      have hcall := (Job.actions_cases hjob).1
      cases action with
      | call op => exact absurd rfl (hcall op)
      | _ => rfl
    rw [show (start app jobs).shared.app = app from rfl, hring]
    simp [ThreadPool.totalDue, hnone]
  have hrun := (keeps_recorded app.state.eventSeq app.db.events).dominated
    (fun s : Shared ι => (s.app.state.events.items : Multiset Event))
    (fun s => (s.made : Multiset Event)) (fun t : Thread => toAdd t.todo)
    (fun i s t hs ht => ring_le_move i hs ht) (holds_recorded app hring hclocks) hstart schedule
  exact (Multiset.le_add_right _ _).trans hrun

/-- **Events under concurrent threads.**  Take any threads that handle lines, run cleanup
cycles or take snapshots, over a process with an empty event history and a table without
generated ids, and any order of their steps.  No two events that are made have one id;
the ring holds events that were made, each at most once; every row of the table is the row
of the event that was made under its id, or was there at the start; and a row of the start
is never replaced. -/
theorem events_of_concurrent_threads {config : Config} {state : StateStore} {db : Database}
    (hring : state.events.items = []) (hfresh : ∀ n, StateStore.eventIdText n ∉ db.events)
    {jobs : ι → List Job} (hclocks : ∀ i, ∀ job ∈ jobs i, job.ClockSet) (schedule : List ι) :
    let p := runSchedule (start { config := config, state := state, db := db } jobs) schedule
    let made := p.shared.made
    (made.map Event.id).Nodup ∧
      (p.shared.app.state.events.items.map Event.id).Nodup ∧
      (∀ event ∈ p.shared.app.state.events.items, event ∈ made) ∧
      (∀ k row, p.shared.app.db.events.lookup k = some row →
        db.events.lookup k = some row ∨ ∃ event ∈ made, event.id = k ∧ row = storedRow event) ∧
      (∀ k row, db.events.lookup k = some row →
        p.shared.app.db.events.lookup k = some row ∨ p.shared.app.db.events.lookup k = none) := by
  intro p made
  have hstart : ThreadPool.Holds (Recorded state.eventSeq db.events) (fun (_ : ι) s t => Owns s t)
      (start { config := config, state := state, db := db } jobs) :=
    holds_recorded { config := config, state := state, db := db } hring hclocks
  have hholds := ((keeps_recorded state.eventSeq db.events).holds_run hstart schedule).1
  have hle : (p.shared.app.state.events.items : Multiset Event) ≤ (made : Multiset Event) :=
    ring_le_made hring hclocks schedule
  refine ⟨hholds.nodup, ?_, hholds.ring, hholds.rows, fun k row hrow => ?_⟩
  · have hids := Multiset.map_le_map (f := Event.id) hle
    rw [Multiset.map_coe, Multiset.map_coe] at hids
    exact Multiset.coe_nodup.mp (Multiset.nodup_of_le hids (Multiset.coe_nodup.mpr hholds.nodup))
  · cases hnow : p.shared.app.db.events.lookup k with
    | none => exact Or.inr rfl
    | some other =>
        rcases hholds.rows k other hnow with hold | ⟨event, hevent, hid, -⟩
        · exact Or.inl (hold.symm.trans hrow)
        · obtain ⟨n, -, -, hn⟩ := hholds.id_of_mem hevent
          exact absurd (AList.mem_of_lookup hrow) (hid ▸ hn ▸ hfresh n)

/-- Two threads with a line each, the second one faster: both events are in the ring. -/
theorem events_of_two_lines :
    let clock : LogClock := ⟨1, 1, 1, 1, 1, 1, 1⟩
    let jobs : Fin 2 → List Job :=
      ![[.handleLog clock (str "a") []], [.handleLog clock (str "b") []]]
    let p := runSchedule (start { config := {}, state := StateStore.init {}, db := {} } jobs)
      [0, 0, 0, 0, 1, 1, 1, 1, 1, 0]
    p.shared.app.state.events.items.map Event.message = [str "b", str "a"] ∧
      (p.shared.app.state.events.items.map Event.id).Nodup := by
  refine ⟨by decide +kernel, ?_⟩
  refine (events_of_concurrent_threads rfl (fun n h => absurd h (AList.notMem_empty _)) ?_ _).2.1
  intro i
  fin_cases i <;> simp [Job.ClockSet]

end Threads

end Netmon
