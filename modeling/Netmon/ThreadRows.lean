import Netmon.MalformedCounters
import Netmon.ThreadEvents

/-!
# Rows under concurrent threads

Between cleanup cycles the three histories of the database only grow: a line stores
its event, and a traffic report or an attack also a row of its own.  Each of these is
an insertion by the thread of the line, some steps after the event was made.  Here no
insertion is lost and none is made twice, however the threads are interleaved: when
all lines are through, the tables hold what they held at the start and for every line
the rows that it calls for.
-/

namespace Netmon

namespace Threads

variable {ι : Type}

/-! ## Lines only -/

/-- The action removes rows or writes the history back. -/
def Action.cleans : Action → Bool
  | .announce _ => true
  | .insertHistory => true
  | .applyRetention _ _ => true
  | _ => false

/-- The thread has no cleanup cycle to run. -/
def HandlesOnly (t : Thread) : Prop := ∀ action ∈ t.todo, action.cleans = false

/-- An action that does not clean up leads to none that does. -/
theorem Follows.cleans {s : StateStore} {action : Action} {more : List Action}
    (h : Follows s action more) (haction : action.cleans = false) :
    ∀ a ∈ more, a.cleans = false := by
  cases h with
  | done _ => simp
  | announce now => exact absurd haction (by simp [Action.cleans])
  | insertHistory => exact absurd haction (by simp [Action.cleans])
  | readCounters field fields => simp [Action.cleans]
  | makeEvent clock line peerIp =>
      intro a ha
      rcases callActions_cases ha with ⟨op, -, rfl⟩ | ⟨event, -, rfl⟩ | haside
      · rfl
      · rfl
      · cases a <;> first | rfl | cases haside

/-- A thread that only handles lines goes on doing so. -/
theorem HandlesOnly.move {t : Thread} (h : HandlesOnly t) (i : ι) (s : Shared ι) :
    HandlesOnly (move i s t).2 := by
  rcases move_cases i s t with hrest | ⟨action, rest, htodo, -, hmove⟩
  · rw [hrest]
    exact h
  obtain ⟨more, hfollows, hmore⟩ := perform_todo i s { t with todo := rest } action
  rw [hmove]
  intro a ha
  rw [hmore] at ha
  rcases List.mem_append.mp ha with hnew | hold
  · exact hfollows.cleans (h action (htodo ▸ List.mem_cons_self)) a hnew
  · exact h a (htodo ▸ List.mem_cons_of_mem _ hold)

/-- A job without a cleanup cycle. -/
def Job.handlesOnly : Job → Bool
  | .cleanup _ => false
  | _ => true

/-- A thread whose jobs only handle lines starts that way. -/
theorem handlesOnly_start {app : App} {jobs : ι → List Job}
    (h : ∀ i, ∀ job ∈ jobs i, job.handlesOnly = true) (i : ι) :
    HandlesOnly ((start app jobs).thread i) := by
  intro action haction
  obtain ⟨job, hjob, hmem⟩ := List.mem_flatMap.mp haction
  have hhandles := h i job hjob
  cases job with
  | cleanup clock => cases hhandles
  | snapshot =>
      rw [List.mem_singleton.mp hmem]
      rfl
  | handleLog clock line peerIp =>
      rcases Job.mem_actions_handleLog hmem with rfl | rfl | rfl | rfl <;> rfl

/-! ## Rows of events -/

/-- Every event that was made is stored, or some thread has still to store it; and the
rows of the start are there. -/
structure Complete (table : StrMap EventRow) (p : Pool ι) : Prop where
  old : ∀ k row, table.lookup k = some row → p.shared.app.db.events.lookup k = some row
  stored : ∀ event ∈ p.shared.made,
    (∃ i, .insertEvent event ∈ (p.thread i).todo) ∨
      p.shared.app.db.events.lookup event.id = some (storedRow event)

/-- A row that is stored stays when an event that was made is stored: its row is the
same or stands elsewhere. -/
theorem lookup_persistEvent {first : Nat} {table : StrMap EventRow} {s : Shared ι}
    (h : Recorded first table s) {event : Event} (hevent : event ∈ s.made) (k : Str) :
    (s.app.persistEvent event).db.events.lookup k =
      if App.sqliteEnabled s.app.config ∧ k = event.id then some (storedRow event)
      else s.app.db.events.lookup k := by
  obtain ⟨n, -, -, hid⟩ := h.id_of_mem hevent
  have hkey : (eventRow (preprocessEventForStorage event)).id = event.id := by
    show cString event.id = event.id
    rw [hid]
    exact cString_eq_self (StateStore.zero_notMem_eventIdText n)
  unfold App.persistEvent
  by_cases henabled : App.sqliteEnabled s.app.config = true
  · rw [if_pos henabled]
    simp only [Database.insertEvent, hkey, AList.lookup_insert_if, henabled, true_and]
    rfl
  · rw [if_neg henabled, if_neg fun hand => henabled hand.1]

/-- The events that were made are told apart by their ids. -/
theorem Recorded.eq_of_id {first : Nat} {table : StrMap EventRow} {s : Shared ι}
    (h : Recorded first table s) {a b : Event} (ha : a ∈ s.made) (hb : b ∈ s.made)
    (hid : a.id = b.id) : a = b :=
  List.inj_on_of_nodup_map h.nodup ha hb hid

/-- A line stores the events that it has made. -/
theorem insertEvent_mem_callActions {clock : LogClock} {line peerIp : Str} {s : StateStore}
    {event : Event} (h : event ∈ App.addedEvents (madeCalls clock line peerIp s)) :
    .insertEvent event ∈ callActions clock (App.lineType line) (madeCalls clock line peerIp s) := by
  unfold madeCalls at h ⊢
  rcases App.eventCalls_cases clock (App.lineResult line) (App.lineEvent clock line peerIp s) with
    ⟨-, hcalls | ⟨snapshot, hcalls, -⟩⟩ | ⟨-, attack, e, hcalls, -⟩ |
      ⟨-, -, e, hcalls | ⟨device, hcalls, -⟩ | ⟨snapshot, hcalls, -⟩, -⟩ <;>
    rw [hcalls] at h ⊢ <;>
    simp only [App.addedEvents, List.filterMap_cons, List.filterMap_nil, List.mem_singleton,
      List.not_mem_nil] at h <;>
    simp [callActions, h]

section

variable [DecidableEq ι]

/-- What is to be stored is still to be stored after a move, unless the move does it. -/
theorem pending_step {p : Pool ι} {i : ι} {action : Action} {rest : List Action}
    (htodo : (p.thread i).todo = action :: rest)
    (hmove : move i p.shared (p.thread i) =
      perform i p.shared { p.thread i with todo := rest } action) {event : Event}
    (h : ∃ j, Action.insertEvent event ∈ (p.thread j).todo) :
    (∃ j, Action.insertEvent event ∈ ((ThreadPool.step move p i).thread j).todo) ∨
      action = .insertEvent event := by
  obtain ⟨j, hj⟩ := h
  by_cases hij : j = i
  · subst hij
    rw [htodo] at hj
    rcases List.mem_cons.mp hj with hfirst | hlater
    · exact Or.inr hfirst.symm
    · obtain ⟨more, -, hmore⟩ := perform_todo j p.shared { p.thread j with todo := rest } action
      refine Or.inl ⟨j, ?_⟩
      rw [ThreadPool.step_thread_self, hmove, hmore]
      exact List.mem_append_right _ hlater
  · refine Or.inl ⟨j, ?_⟩
    rw [ThreadPool.step_thread_of_ne move p hij]
    exact hj

/-- **A move loses no event.** -/
theorem Complete.step {first : Nat} {table : StrMap EventRow} {p : Pool ι}
    (h : Complete table p) (hfresh : ∀ n, StateStore.eventIdText n ∉ table)
    (hp : ThreadPool.Holds (Recorded first table) (fun (_ : ι) s t => Owns s t) p)
    (hlines : ∀ i, HandlesOnly (p.thread i))
    (henabled : App.sqliteEnabled p.shared.app.config = true) (i : ι) :
    Complete table (ThreadPool.step move p i) := by
  obtain ⟨hs, ht⟩ := hp
  rcases move_cases i p.shared (p.thread i) with hrest | ⟨action, rest, htodo, -, hmove⟩
  · have hsame : ThreadPool.step move p i = p := by
      simp [ThreadPool.step, hrest]
    rw [hsame]
    exact h
  have hnow : action ∈ (p.thread i).todo := htodo ▸ List.mem_cons_self
  have heffect := perform_eventEffect i p.shared { p.thread i with todo := rest }
    fun op haction => (ht i).namedCall hs (haction ▸ hnow)
  obtain ⟨more, hfollows, hmore⟩ := perform_todo i p.shared { p.thread i with todo := rest } action
  have hshared : (ThreadPool.step move p i).shared =
      (perform i p.shared { p.thread i with todo := rest } action).1 := by
    rw [ThreadPool.step_shared, hmove]
  rw [← hshared] at heffect
  have hclean : action.cleans = false := hlines i action hnow
  have hsame : (ThreadPool.step move p i).shared.app.db.events = p.shared.app.db.events →
      (∀ event, action ≠ .insertEvent event) →
      (∀ k row, table.lookup k = some row →
        (ThreadPool.step move p i).shared.app.db.events.lookup k = some row) ∧
      ∀ event ∈ p.shared.made,
        (∃ j, .insertEvent event ∈ ((ThreadPool.step move p i).thread j).todo) ∨
          (ThreadPool.step move p i).shared.app.db.events.lookup event.id =
            some (storedRow event) := by
    intro htable hinsert
    rw [htable]
    refine ⟨h.old, fun event hevent => ?_⟩
    rcases h.stored event hevent with hin | hrow
    · exact Or.inl ((pending_step htodo hmove hin).resolve_right (hinsert event))
    · exact Or.inr hrow
  cases heffect with
  | quiet _ hinsert hhistory htable =>
      obtain ⟨hold, hstored⟩ := hsame htable hinsert
      exact ⟨hold, hhistory.made ▸ hstored⟩
  | trims now bytes _ _ => cases hclean
  | announces now event _ _ _ _ _ _ => cases hclean
  | adds now event _ _ _ hmade htable =>
      obtain ⟨hold, hstored⟩ := hsame htable (by simp)
      exact ⟨hold, hmade ▸ hstored⟩
  | makes clock line peerIp _ _ _ hmade htable =>
      obtain ⟨hold, hstored⟩ := hsame htable (by simp)
      refine ⟨hold, fun event hevent => ?_⟩
      rw [hmade] at hevent
      rcases List.mem_append.mp hevent with hbefore | hnew
      · exact hstored event hbefore
      · refine Or.inl ⟨i, ?_⟩
        rw [ThreadPool.step_thread_self, hmove, hmore]
        refine List.mem_append_left _ ?_
        cases hfollows with
        | done hother => exact absurd rfl (hother clock line peerIp)
        | makeEvent => exact insertEvent_mem_callActions hnew
  | stores event haction hhistory htable =>
      obtain rfl : action = .insertEvent event := by
        rcases haction with hinsert | ⟨rfl, -⟩
        · exact hinsert
        · cases hclean
      have hevent := (ht i).inserts event hnow
      have hlookup := lookup_persistEvent hs hevent
      rw [← htable] at hlookup
      refine ⟨fun k row hrow => ?_, fun e he => ?_⟩
      · obtain ⟨n, -, -, hid⟩ := hs.id_of_mem hevent
        have hne : k ≠ event.id := by
          intro heq
          exact hfresh n (hid ▸ heq ▸ AList.mem_of_lookup hrow)
        rw [hlookup, if_neg fun hand => hne hand.2]
        exact h.old k row hrow
      · rw [hhistory.made] at he
        by_cases hid : e.id = event.id
        · obtain rfl := hs.eq_of_id he hevent hid
          exact Or.inr ((hlookup e.id).trans (if_pos ⟨henabled, rfl⟩))
        · rcases h.stored e he with hin | hrow
          · rcases pending_step htodo hmove hin with hstill | hdone
            · exact Or.inl hstill
            · obtain rfl : event = e := by simpa using hdone
              exact absurd rfl hid
          · exact Or.inr ((hlookup e.id).trans ((if_neg fun hand => hid hand.2).trans hrow))

end

/-! ## What lines call for -/

/-- The traffic reports among calls on the store. -/
def reportedTraffic (calls : List StoreOp) : List TrafficSnapshot :=
  calls.filterMap fun
    | .updateTraffic _ snapshot => some snapshot
    | _ => none

/-- The calls on the store that a job leads to, with no id yet for an event. -/
def Job.calls : Job → List StoreOp
  | .handleLog clock line peerIp =>
      App.eventCalls clock (App.lineResult line) (App.unnamedEvent clock line peerIp)
  | _ => []

/-- An event without its id. -/
def unname (event : Event) : Event := { event with id := [] }

/-- A sample row without its number. -/
def unnumberedSample (row : TrafficRow) : TrafficRow := { row with id := 0 }

/-- A row of an attack without its row id. -/
def unnumberedAttack (row : WANAttackRow) : WANAttackRow := { row with id := 0 }

/-- The row of a traffic report, without a number. -/
def sampleOf (snapshot : TrafficSnapshot) : TrafficRow where
  id := 0
  mac := cString (lower snapshot.mac)
  ip := cString snapshot.ip
  ts := unixSeconds snapshot.ts
  rxBytes := snapshot.rxBytes.toInt64
  txBytes := snapshot.txBytes.toInt64

/-- The row of an attack as it is cleaned for storage, without a number. -/
def attackRowOf (attack : WANAttackEvent) : WANAttackRow :=
  let cleaned := preprocessWANAttackForStorage attack
  { id := 0
    ts := unixSeconds cleaned.ts
    inIf := cString cleaned.inIf
    srcIp := cString cleaned.srcIp
    dstIp := cString cleaned.dstIp
    srcPort := cString cleaned.srcPort
    dstPort := cString cleaned.dstPort
    proto := cString cleaned.proto
    length := cString cleaned.length
    raw := cString cleaned.raw }

/-- The events of the calls of a line get the id of the line's event. -/
theorem addedEvents_withId (id : Str) (calls : List StoreOp) :
    App.addedEvents (calls.map (StoreOp.withId id)) =
      (App.addedEvents calls).map fun event => { event with id := id } := by
  induction calls with
  | nil => rfl
  | cons op calls ih =>
      have hcons : ∀ (op : StoreOp) (rest : List StoreOp),
          App.addedEvents (op :: rest) = App.addedEvents [op] ++ App.addedEvents rest :=
        fun op rest => App.addedEvents_append [op] rest
      rw [List.map_cons, hcons, ih, hcons op, List.map_append]
      cases op <;> rfl

/-- The attacks of the calls do not depend on the id. -/
theorem addedAttacks_withId (id : Str) (calls : List StoreOp) :
    App.addedAttacks (calls.map (StoreOp.withId id)) = App.addedAttacks calls := by
  simp only [App.addedAttacks, List.filterMap_map]
  congr 1
  funext op
  cases op <;> rfl

/-- The samples of the calls do not depend on the id. -/
theorem reportedTraffic_withId (id : Str) (calls : List StoreOp) :
    reportedTraffic (calls.map (StoreOp.withId id)) = reportedTraffic calls := by
  simp only [reportedTraffic, List.filterMap_map]
  congr 1
  funext op
  cases op <;> rfl

section

variable {M : Type} [AddCommMonoid M]

/-- What a list of actions has for a table. -/
def duty (each : Action → M) (todo : List Action) : M := (todo.map each).sum

theorem duty_cons (each : Action → M) (action : Action) (todo : List Action) :
    duty each (action :: todo) = each action + duty each todo := by
  simp [duty]

/-- The duties of two lists add up. -/
theorem duty_append (each : Action → M) (before after : List Action) :
    duty each (before ++ after) = duty each before + duty each after := by
  simp [duty]

/-- A table takes what the actions of a line have for it. -/
def Takes (held : Shared ι → M) (each : Action → M) : Prop :=
  ∀ (i : ι) s t action more, App.sqliteEnabled s.app.config = true →
    Follows s.app.state action more → action.cleans = false →
    held (perform i s t action).1 + duty each more = held s + each action

end

/-- Nothing is to be expected of what follows an action that makes no event. -/
theorem Follows.duty_eq {M : Type} [AddCommMonoid M] {each : Action → M} {s : StateStore}
    {action : Action} {more : List Action} (h : Follows s action more)
    (hother : ∀ clock line peerIp, action ≠ .makeEvent clock line peerIp)
    (hread : ∀ fields, each (.readCounters fields) = 0) (hclean : action.cleans = false) :
    duty each more = 0 := by
  cases h with
  | done _ => rfl
  | announce now => cases hclean
  | insertHistory => cases hclean
  | readCounters field fields => simp [duty, hread]
  | makeEvent clock line peerIp => exact absurd rfl (hother clock line peerIp)

/-- The samples that an action adds or leads to. -/
def Action.samples : Action → Multiset TrafficRow
  | .insertTraffic snapshot => {sampleOf snapshot}
  | .makeEvent clock line peerIp =>
      ((reportedTraffic (Job.handleLog clock line peerIp).calls).map sampleOf : List TrafficRow)
  | _ => 0

/-- The attack rows that an action adds or leads to. -/
def Action.attackRows : Action → Multiset WANAttackRow
  | .insertAttack attack => {attackRowOf attack}
  | .makeEvent clock line peerIp =>
      ((App.addedAttacks (Job.handleLog clock line peerIp).calls).map attackRowOf :
        List WANAttackRow)
  | _ => 0

/-- The events that an action makes, without their ids. -/
def Action.events : Action → Multiset Event
  | .makeEvent clock line peerIp =>
      ((App.addedEvents (Job.handleLog clock line peerIp).calls).map unname : List Event)
  | _ => 0

/-- The calls of a line are those of its job, with the next id. -/
theorem madeCalls_eq_calls (clock : LogClock) (line peerIp : Str) (s : StateStore) :
    madeCalls clock line peerIp s = (Job.handleLog clock line peerIp).calls.map
      (StoreOp.withId (StateStore.eventIdText (s.eventSeq + 1))) :=
  madeCalls_eq clock line peerIp s

/-- What an action of a line does to the histories of traffic and attacks. -/
def Action.writeHistory : Action → Database → Database
  | .insertTraffic snapshot, db => db.insertTraffic snapshot
  | .insertAttack attack, db => db.insertWANAttack (preprocessWANAttackForStorage attack)
  | _, db => db

/-- Writing devices leaves the attacks alone. -/
theorem upsertDevices_attacks (now : TimePoint) (devices : List DeviceState) (db : Database) :
    (db.upsertDevices now devices).wanAttacks = db.wanAttacks := by
  refine Runs.run_related (fun a b : Database => b.wanAttacks = a.wanAttacks)
    (fun _ => rfl) (fun hst htu => htu.trans hst) (fun db device => ?_) db devices
  unfold Database.upsertDevice
  split <;> rfl

/-- An action writes to the two histories without a key as `writeHistory` says. -/
theorem perform_histories (i : ι) (s : Shared ι) (t : Thread) {action : Action}
    (henabled : App.sqliteEnabled s.app.config = true) (hclean : action.cleans = false) :
    (perform i s t action).1.app.db.trafficSamples =
        (action.writeHistory s.app.db).trafficSamples ∧
      (perform i s t action).1.app.db.wanAttacks = (action.writeHistory s.app.db).wanAttacks := by
  cases action with
  | insertTraffic snapshot =>
      simp [perform, Action.effect, App.persistTraffic, henabled, Action.writeHistory]
  | insertAttack attack =>
      simp [perform, Action.effect, App.persistWANAttack, henabled, Action.writeHistory]
  | insertEvent event =>
      simp [perform, Action.effect, App.persistEvent, henabled, Action.writeHistory,
        Database.insertEvent]
  | upsertDevices now =>
      simp [perform, Action.effect, henabled, Action.writeHistory, App.upsertDevices_samples,
        upsertDevices_attacks]
  | announce now => cases hclean
  | insertHistory => cases hclean
  | applyRetention now bytes => cases hclean
  | readCounters fields => cases fields <;> exact ⟨rfl, rfl⟩
  | _ => exact ⟨rfl, rfl⟩

/-- What a line that has made its event leads to. -/
theorem duty_callActions (clock : LogClock) (line peerIp : Str) (s : StateStore) :
    duty Action.samples (callActions clock (App.lineType line) (madeCalls clock line peerIp s)) =
        Action.samples (.makeEvent clock line peerIp) ∧
      duty Action.attackRows
          (callActions clock (App.lineType line) (madeCalls clock line peerIp s)) =
        Action.attackRows (.makeEvent clock line peerIp) ∧
      duty Action.events
          (callActions clock (App.lineType line) (madeCalls clock line peerIp s)) = 0 := by
  have hsamples : Action.samples (.makeEvent clock line peerIp) =
      ((reportedTraffic (madeCalls clock line peerIp s)).map sampleOf : List TrafficRow) := by
    rw [madeCalls_eq_calls, reportedTraffic_withId]
    rfl
  have hattacks : Action.attackRows (.makeEvent clock line peerIp) =
      ((App.addedAttacks (madeCalls clock line peerIp s)).map attackRowOf :
        List WANAttackRow) := by
    rw [madeCalls_eq_calls, addedAttacks_withId]
    rfl
  rw [hsamples, hattacks]
  unfold madeCalls
  rcases App.eventCalls_cases clock (App.lineResult line) (App.lineEvent clock line peerIp s) with
    ⟨-, hcalls | ⟨snapshot, hcalls, -⟩⟩ | ⟨-, attack, e, hcalls, -⟩ |
      ⟨-, -, e, hcalls | ⟨device, hcalls, -⟩ | ⟨snapshot, hcalls, -⟩, -⟩ <;>
    rw [hcalls] <;> exact ⟨rfl, rfl, rfl⟩

/-- It is enough to look at the making of an event and at the actions that make none. -/
theorem takes_of {M : Type} [AddCommMonoid M] {held : Shared ι → M} {each : Action → M}
    (hread : ∀ fields, each (.readCounters fields) = 0)
    (hmake : ∀ i s t clock line peerIp, App.sqliteEnabled s.app.config = true →
      held (perform i s t (.makeEvent clock line peerIp)).1 +
          duty each (callActions clock (App.lineType line)
            (madeCalls clock line peerIp s.app.state)) =
        held s + each (.makeEvent clock line peerIp))
    (hother : ∀ i s t action, App.sqliteEnabled s.app.config = true → action.cleans = false →
      (∀ clock line peerIp, action ≠ .makeEvent clock line peerIp) →
      held (perform i s t action).1 = held s + each action) : Takes held each := by
  intro i s t action more henabled hfollows hclean
  by_cases hmakes : ∃ clock line peerIp, action = .makeEvent clock line peerIp
  · obtain ⟨clock, line, peerIp, rfl⟩ := hmakes
    cases hfollows with
    | done hnot => exact absurd rfl (hnot clock line peerIp)
    | makeEvent => exact hmake i s t clock line peerIp henabled
  · have hnot : ∀ clock line peerIp, action ≠ .makeEvent clock line peerIp :=
      fun clock line peerIp heq => hmakes ⟨clock, line, peerIp, heq⟩
    rw [hfollows.duty_eq hnot hread hclean, add_zero]
    exact hother i s t action henabled hclean hnot

/-- The samples that the database holds, without their numbers. -/
def heldSamples (db : Database) : Multiset TrafficRow :=
  (db.trafficSamples.map unnumberedSample : List TrafficRow)

/-- The rows of the attacks, whatever their row ids. -/
def heldAttacks (db : Database) : Multiset WANAttackRow :=
  (db.wanAttacks.map unnumberedAttack : List WANAttackRow)

/-- The table of samples takes what lines have for it. -/
theorem takes_samples :
    Takes (fun s : Shared ι => heldSamples s.app.db) Action.samples := by
  refine takes_of (fun _ => rfl) (fun i s t clock line peerIp henabled => ?_)
    (fun i s t action henabled hclean hnot => ?_)
  · unfold heldSamples
    rw [(perform_histories i s t henabled rfl).1, (duty_callActions clock line peerIp _).1]
    rfl
  · unfold heldSamples
    rw [(perform_histories i s t henabled hclean).1]
    cases action with
    | insertTraffic snapshot =>
        simp only [Action.writeHistory, Database.insertTraffic, List.map_append,
          ← Multiset.coe_add]
        rfl
    | makeEvent clock line peerIp => exact absurd rfl (hnot clock line peerIp)
    | _ => exact (add_zero _).symm

/-- The table of attacks takes what lines have for it. -/
theorem takes_attackRows :
    Takes (fun s : Shared ι => heldAttacks s.app.db) Action.attackRows := by
  refine takes_of (fun _ => rfl) (fun i s t clock line peerIp henabled => ?_)
    (fun i s t action henabled hclean hnot => ?_)
  · unfold heldAttacks
    rw [(perform_histories i s t henabled rfl).2, (duty_callActions clock line peerIp _).2.1]
    rfl
  · unfold heldAttacks
    rw [(perform_histories i s t henabled hclean).2]
    cases action with
    | insertAttack attack =>
        simp only [Action.writeHistory, Database.insertWANAttack, List.map_append,
          ← Multiset.coe_add]
        rfl
    | makeEvent clock line peerIp => exact absurd rfl (hnot clock line peerIp)
    | _ => exact (add_zero _).symm

/-- The events that are made are those that lines have. -/
theorem takes_events :
    Takes (fun s : Shared ι => ((s.made.map unname : List Event) : Multiset Event))
      Action.events := by
  refine takes_of (fun _ => rfl) (fun i s t clock line peerIp henabled => ?_)
    (fun i s t action henabled hclean hnot => ?_)
  · rw [(duty_callActions clock line peerIp _).2.2, add_zero]
    show (((s.made ++ App.addedEvents (madeCalls clock line peerIp s.app.state)).map unname :
      List Event) : Multiset Event) = _
    rw [madeCalls_eq_calls, addedEvents_withId, List.map_append, List.map_map, ← Multiset.coe_add]
    rfl
  · cases action with
    | makeEvent clock line peerIp => exact absurd rfl (hnot clock line peerIp)
    | announce now => cases hclean
    | insertHistory => cases hclean
    | readCounters fields => cases fields <;> exact (add_zero _).symm
    | _ => exact (add_zero _).symm

/-! ## Whole schedules -/

/-- The actions without an answer leave the settings and the store alone. -/
theorem Action.effect_same (devices : List DeviceState) (app : App) (action : Action) :
    (action.effect devices app).config = app.config ∧
      (action.effect devices app).state = app.state := by
  have hif : ∀ (p : Bool) (changed : Database),
      (if p then { app with db := changed } else app).config = app.config ∧
        (if p then { app with db := changed } else app).state = app.state := by
    intro p changed
    cases p <;> exact ⟨rfl, rfl⟩
  cases action with
  | insertTraffic snapshot => exact hif _ _
  | insertAttack attack => exact hif _ _
  | insertEvent event => exact hif _ _
  | upsertDevices now => exact hif _ _
  | applyRetention now bytes => exact hif _ _
  | _ => exact ⟨rfl, rfl⟩

/-- No action changes the configuration. -/
theorem perform_config (i : ι) (s : Shared ι) (t : Thread) (action : Action) :
    (perform i s t action).1.app.config = s.app.config := by
  cases action with
  | readCounters fields => cases fields <;> rfl
  | announce now =>
      simp only [perform]
      split <;> rfl
  | insertHistory =>
      simp only [perform]
      split
      · rfl
      · exact (Action.effect_same [] s.app (.insertEvent _)).1
  | makeEvent clock line peerIp => rfl
  | call op => rfl
  | readDevices now => rfl
  | readHistory => rfl
  | beginCleanup now => rfl
  | endCleanup now => rfl
  | _ => exact (Action.effect_same t.devices s.app _).1

/-- No move of a thread changes the configuration. -/
theorem move_config (i : ι) (s : Shared ι) (t : Thread) :
    (move i s t).1.app.config = s.app.config := by
  rcases move_cases i s t with hrest | ⟨action, rest, -, -, hmove⟩
  · rw [hrest]
  · rw [hmove, perform_config]

/-- The mode of the database stays, and lines bring no cleanup cycle. -/
theorem keeps_handlesOnly : ThreadPool.Keeps move
    (fun s : Shared ι => App.sqliteEnabled s.app.config = true) (fun _ _ t => HandlesOnly t) where
  shared := by
    intro i s t hs _
    rw [move_config]
    exact hs
  mover := fun i s t _ ht => ht.move i s
  other := fun _ _ _ _ _ _ _ _ hj => hj

/-- A move passes on what the thread has for a table. -/
theorem Takes.move {M : Type} [AddCommMonoid M] {held : Shared ι → M} {each : Action → M}
    (h : Takes held each) (i : ι) {s : Shared ι} {t : Thread}
    (henabled : App.sqliteEnabled s.app.config = true) (hlines : HandlesOnly t) :
    held (move i s t).1 + duty each (move i s t).2.todo = held s + duty each t.todo := by
  rcases move_cases i s t with hrest | ⟨action, rest, htodo, -, hmove⟩
  · rw [hrest]
  obtain ⟨more, hfollows, hmore⟩ := perform_todo i s { t with todo := rest } action
  have htakes := h i s { t with todo := rest } action more henabled hfollows
    (hlines action (htodo ▸ List.mem_cons_self))
  rw [hmove, hmore, htodo, duty_append, duty_cons, ← add_assoc, htakes, add_assoc]

/-- A table that takes what the actions of a line have for it, where the whole of this
can be read off the calls on the store that the line leads to. -/
structure Books {M : Type} [AddCommMonoid M] (held : Shared ι → M) (each : Action → M)
    (rows : List StoreOp → M) : Prop where
  takes : Takes held each
  nil : rows [] = 0
  append : ∀ calls more, rows (calls ++ more) = rows calls + rows more
  make : ∀ clock line peerIp, each (.makeEvent clock line peerIp) =
    rows (Job.handleLog clock line peerIp).calls
  countMessage : each .countMessage = 0
  countType : ∀ type, each (.countType type) = 0
  countParseError : each .countParseError = 0
  readCounters : ∀ fields, each (.readCounters fields) = 0

/-- The duty of a job is the rows of its calls. -/
theorem Books.duty_job {M : Type} [AddCommMonoid M] {held : Shared ι → M} {each : Action → M}
    {rows : List StoreOp → M} (h : Books held each rows) {job : Job}
    (hlines : job.handlesOnly = true) : duty each job.actions = rows job.calls := by
  cases job with
  | cleanup clock => cases hlines
  | snapshot =>
      show duty each [.readCounters allCounters] = rows []
      rw [h.nil, duty_cons, h.readCounters]
      exact add_zero _
  | handleLog clock line peerIp =>
      have herror : duty each (if parse line = none then [.countParseError] else []) = 0 := by
        split
        · rw [duty_cons, h.countParseError]
          exact add_zero _
        · rfl
      simp only [Job.actions, duty_append, duty_cons, herror, h.countMessage, h.countType, h.make]
      simp [duty]

/-- What the jobs of a thread have for a table, read off their calls on the store. -/
theorem Books.duty_jobs {M : Type} [AddCommMonoid M] {held : Shared ι → M} {each : Action → M}
    {rows : List StoreOp → M} (h : Books held each rows) {jobs : List Job}
    (hlines : ∀ job ∈ jobs, job.handlesOnly = true) :
    duty each (jobs.flatMap Job.actions) = rows (jobs.flatMap Job.calls) := by
  induction jobs with
  | nil => exact h.nil.symm
  | cons job jobs ih =>
      rw [List.flatMap_cons, List.flatMap_cons, duty_append, h.append,
        h.duty_job (hlines job List.mem_cons_self),
        ih fun job hjob => hlines job (List.mem_cons_of_mem _ hjob)]

variable [DecidableEq ι]

/-- Every event stays stored or to be stored along a schedule. -/
theorem complete_run (app : App) (henabled : App.sqliteEnabled app.config = true)
    (hring : app.state.events.items = [])
    (hfresh : ∀ n, StateStore.eventIdText n ∉ app.db.events) {jobs : ι → List Job}
    (hclocks : ∀ i, ∀ job ∈ jobs i, job.ClockSet)
    (hlines : ∀ i, ∀ job ∈ jobs i, job.handlesOnly = true) (schedule : List ι) :
    Complete app.db.events (runSchedule (start app jobs) schedule) := by
  have hrun := Runs.run_invariant
    (fun p : Pool ι => ThreadPool.Holds (Recorded app.state.eventSeq app.db.events)
        (fun _ s t => Owns s t) p ∧
      ThreadPool.Holds (fun s => App.sqliteEnabled s.app.config = true)
        (fun _ _ t => HandlesOnly t) p ∧
      Complete app.db.events p)
    (fun p i h => ⟨(keeps_recorded _ _).holds_step h.1 i, keeps_handlesOnly.holds_step h.2.1 i,
      h.2.2.step hfresh h.1 h.2.1.2 h.2.1.1 i⟩)
    ⟨holds_recorded app hring hclocks, ⟨henabled, handlesOnly_start hlines⟩,
      fun _ _ hrow => hrow, fun event hevent => absurd hevent List.not_mem_nil⟩ schedule
  exact hrun.2.2

variable [Fintype ι]

/-- **Nothing is lost and nothing comes twice.**  When all lines are through, the table
holds what it held at the start and what their calls have for it. -/
theorem Books.finished {M : Type} [AddCancelCommMonoid M] {held : Shared ι → M}
    {each : Action → M} {rows : List StoreOp → M} (h : Books held each rows) {app : App}
    (henabled : App.sqliteEnabled app.config = true) {jobs : ι → List Job}
    (hlines : ∀ i, ∀ job ∈ jobs i, job.handlesOnly = true) {schedule : List ι}
    (hdone : Finished (runSchedule (start app jobs) schedule)) :
    held (runSchedule (start app jobs) schedule).shared =
      held (start app jobs).shared + ∑ i, rows ((jobs i).flatMap Job.calls) := by
  have hrun := keeps_handlesOnly.conserves held (fun t : Thread => duty each t.todo)
    (fun i s t hs ht => h.takes.move i hs ht) (p := start app jobs)
    ⟨henabled, handlesOnly_start hlines⟩ schedule
  have hend : ThreadPool.totalDue (fun t : Thread => duty each t.todo)
      (runSchedule (start app jobs) schedule) = 0 := by
    refine Finset.sum_eq_zero fun i _ => ?_
    show duty each ((runSchedule (start app jobs) schedule).thread i).todo = 0
    rw [hdone i]
    rfl
  have hbegin : ThreadPool.totalDue (fun t : Thread => duty each t.todo) (start app jobs) =
      ∑ i, rows ((jobs i).flatMap Job.calls) :=
    Finset.sum_congr rfl fun i _ => h.duty_jobs (hlines i)
  rw [← hbegin, ← hrun]
  show _ = held (runSchedule (start app jobs) schedule).shared + ThreadPool.totalDue _
    (runSchedule (start app jobs) schedule)
  rw [hend, add_zero]

/-- The rows of samples that calls on the store lead to. -/
def sampleRows (calls : List StoreOp) : Multiset TrafficRow :=
  ((reportedTraffic calls).map sampleOf : List TrafficRow)

/-- The rows of attacks that calls on the store lead to. -/
def attackRows (calls : List StoreOp) : Multiset WANAttackRow :=
  ((App.addedAttacks calls).map attackRowOf : List WANAttackRow)

/-- The events that calls on the store add, without their ids. -/
def eventsOf (calls : List StoreOp) : Multiset Event :=
  ((App.addedEvents calls).map unname : List Event)

omit [DecidableEq ι] [Fintype ι] in
/-- The books of the traffic samples. -/
theorem books_samples : Books (fun s : Shared ι => heldSamples s.app.db) Action.samples
    sampleRows where
  takes := takes_samples
  nil := rfl
  append calls more := by
    simp [sampleRows, reportedTraffic]
  make _ _ _ := rfl
  countMessage := rfl
  countType _ := rfl
  countParseError := rfl
  readCounters _ := rfl

omit [DecidableEq ι] [Fintype ι] in
/-- The books of the attacks. -/
theorem books_attackRows : Books (fun s : Shared ι => heldAttacks s.app.db) Action.attackRows
    attackRows where
  takes := takes_attackRows
  nil := rfl
  append calls more := by
    simp [attackRows, App.addedAttacks]
  make _ _ _ := rfl
  countMessage := rfl
  countType _ := rfl
  countParseError := rfl
  readCounters _ := rfl

omit [DecidableEq ι] [Fintype ι] in
/-- The books of the events that were made. -/
theorem books_events :
    Books (fun s : Shared ι => ((s.made.map unname : List Event) : Multiset Event))
      Action.events eventsOf where
  takes := takes_events
  nil := rfl
  append calls more := by
    simp [eventsOf, App.addedEvents_append]
  make _ _ _ := rfl
  countMessage := rfl
  countType _ := rfl
  countParseError := rfl
  readCounters _ := rfl

/-- **No row is lost between cleanup cycles.**  Take a process that stores, with an empty
event history and a table without generated ids, and any threads that handle lines or
take snapshots.  In whatever order they step, when they are through the events that were
made are those of the lines, and each is stored under its id beside the rows of the
start; and the tables of samples and of attacks hold the rows of the start and one for
every traffic report and every attack, none lost and none twice. -/
theorem rows_of_concurrent_lines {config : Config} {state : StateStore} {db : Database}
    (henabled : App.sqliteEnabled config = true) (hring : state.events.items = [])
    (hfresh : ∀ n, StateStore.eventIdText n ∉ db.events) {jobs : ι → List Job}
    (hclocks : ∀ i, ∀ job ∈ jobs i, job.ClockSet)
    (hlines : ∀ i, ∀ job ∈ jobs i, job.handlesOnly = true) {schedule : List ι}
    (hdone : Finished
      (runSchedule (start { config := config, state := state, db := db } jobs) schedule)) :
    let p := runSchedule (start { config := config, state := state, db := db } jobs) schedule
    let stored := p.shared.app.db
    ((p.shared.made.map unname : List Event) : Multiset Event) =
        ∑ i, eventsOf ((jobs i).flatMap Job.calls) ∧
      (∀ event ∈ p.shared.made, stored.events.lookup event.id = some (storedRow event)) ∧
      (∀ k row, db.events.lookup k = some row → stored.events.lookup k = some row) ∧
      heldSamples stored = heldSamples db + ∑ i, sampleRows ((jobs i).flatMap Job.calls) ∧
      heldAttacks stored = heldAttacks db + ∑ i, attackRows ((jobs i).flatMap Job.calls) := by
  intro p stored
  have hcomplete : Complete db.events p :=
    complete_run { config := config, state := state, db := db } henabled hring hfresh hclocks
      hlines schedule
  have hevents := books_events.finished henabled hlines hdone
  refine ⟨?_, fun event hevent => ?_, hcomplete.old,
    books_samples.finished henabled hlines hdone,
    books_attackRows.finished henabled hlines hdone⟩
  · exact hevents.trans (zero_add _)
  · rcases hcomplete.stored event hevent with ⟨i, hpending⟩ | hrow
    · rw [hdone i] at hpending
      cases hpending
    · exact hrow

/-- A traffic report that is overtaken by a line without a tag: both events are stored,
and the sample. -/
theorem rows_of_two_lines :
    let clock : LogClock := ⟨1, 1, 1, 1, 1, 1, 1⟩
    let jobs : Fin 2 → List Job :=
      ![[.handleLog clock (str "NETTRAFFIC mac=aa:01 rx_bytes=1000 tx_bytes=10 ts=100") []],
        [.handleLog clock (str "b") []]]
    let config : Config := { storageMode := str "sqlite" }
    let p := runSchedule
      (start { config := config, state := StateStore.init config, db := {} } jobs)
      [0, 0, 0, 0, 1, 1, 1, 1, 1, 1, 1, 0, 0, 0, 0, 0, 0]
    p.shared.made.length = 2 ∧
      (∀ event ∈ p.shared.made,
        p.shared.app.db.events.lookup event.id = some (storedRow event)) ∧
      p.shared.app.db.trafficSamples.length = 1 := by
  refine ⟨by decide +kernel, ?_, by decide +kernel⟩
  refine (rows_of_concurrent_lines (by decide) rfl
    (fun n h => absurd h (AList.notMem_empty _)) ?_ ?_ ?_).2.1
  · intro i
    fin_cases i <;> simp [Job.ClockSet]
  · intro i
    fin_cases i <;> simp [Job.handlesOnly]
  · intro i
    fin_cases i <;> exact List.isEmpty_iff.mp (by decide +kernel)

end Threads

end Netmon
