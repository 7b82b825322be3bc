import Netmon.ThreadRows

/-!
# The store under concurrent threads

The methods of the store take its mutex, but the ids of events come from a counter
beside it: a line takes its id before it calls the store, and a cleanup pass takes one
for each device that it announces while other lines take theirs.  So the ids depend on
the order of all these steps.  Everything else in the store is what the calls would have
left one after another, in an order that keeps the order of every thread.
-/

namespace Netmon

namespace StateStore

/-! ## Stores that differ in ids only -/

/-- The store with another event history and counter. -/
def withEvents (ring : RingBuffer Event) (seq : Nat) (s : StateStore) : StateStore :=
  { s with events := ring, eventSeq := seq }

/-- Two stores that agree in everything but the ids of their events and the counter. -/
structure SameButIds (s t : StateStore) : Prop where
  tables : s.withEvents t.events t.eventSeq = t
  capacity : s.events.capacity = t.events.capacity
  events : s.events.items.map Threads.unname = t.events.items.map Threads.unname

theorem SameButIds.refl (s : StateStore) : SameButIds s s := ⟨rfl, rfl, rfl⟩

theorem SameButIds.trans {s t u : StateStore} (hst : SameButIds s t) (htu : SameButIds t u) :
    SameButIds s u := by
  refine ⟨?_, hst.capacity.trans htu.capacity, hst.events.trans htu.events⟩
  have hthrough : t.withEvents u.events u.eventSeq = s.withEvents u.events u.eventSeq := by
    rw [← hst.tables]
    rfl
  rw [← hthrough]
  exact htu.tables

theorem SameButIds.symm {s t : StateStore} (h : SameButIds s t) : SameButIds t s := by
  refine ⟨?_, h.capacity.symm, h.events.symm⟩
  rw [← h.tables]
  rfl

/-- The function neither reads nor writes the event history and its counter. -/
def IgnoresEvents (f : StateStore → StateStore) : Prop :=
  ∀ ring seq s, f (s.withEvents ring seq) = (f s).withEvents ring seq

/-- A call that ignores the events keeps two stores equal up to ids. -/
theorem SameButIds.map {f : StateStore → StateStore} (hf : IgnoresEvents f) {s t : StateStore}
    (h : SameButIds s t) : SameButIds (f s) (f t) := by
  have hs : f s = (f s).withEvents s.events s.eventSeq := hf s.events s.eventSeq s
  have ht : f t = (f s).withEvents t.events t.eventSeq := by
    rw [← hf, h.tables]
  refine ⟨?_, ?_, ?_⟩
  · rw [ht]
    rfl
  · rw [hs, ht]
    exact h.capacity
  · rw [hs, ht]
    exact h.events

/-- The last-log time does not depend on the events. -/
theorem ignoresEvents_touchLastLogLocked (now ts : TimePoint) :
    IgnoresEvents (touchLastLogLocked now ts) := by
  intro ring seq s
  unfold touchLastLogLocked
  simp only [withEvents]
  split <;> split <;> rfl

/-- Re-keying a record neither reads nor changes the events. -/
theorem rekey_withEvents (key desired : Str) (ring : RingBuffer Event) (seq : Nat)
    (s : StateStore) :
    (s.withEvents ring seq).rekey key desired =
      ((s.rekey key desired).1.withEvents ring seq, (s.rekey key desired).2) := by
  have hlookup : (s.withEvents ring seq).devicesByKey.lookup key = s.devicesByKey.lookup key :=
    rfl
  unfold rekey
  rw [hlookup]
  cases s.devicesByKey.lookup key <;> rfl

/-- A device update neither reads nor changes the events. -/
theorem ignoresEvents_updateDevice (now : TimePoint) (device : DeviceState) :
    IgnoresEvents (updateDevice now device) := by
  intro ring seq s
  have hkey : (s.withEvents ring seq).resolveKey device.mac device.ip =
      s.resolveKey device.mac device.ip := rfl
  unfold updateDevice
  simp only [hkey]
  split
  · rfl
  split
  · rw [rekey_withEvents, ← ignoresEvents_touchLastLogLocked]
    rfl
  · rw [← ignoresEvents_touchLastLogLocked]
    rfl

/-- A traffic report neither reads nor changes the events. -/
theorem ignoresEvents_updateTraffic (now : TimePoint) (snapshot : TrafficSnapshot) :
    IgnoresEvents (updateTraffic now snapshot) := by
  intro ring seq s
  have hkey : ∀ mac ip, (s.withEvents ring seq).resolveKey mac ip = s.resolveKey mac ip :=
    fun _ _ => rfl
  unfold updateTraffic
  split
  · rfl
  simp only [hkey]
  split
  · rfl
  · rw [← ignoresEvents_touchLastLogLocked]
    rfl

/-- A report of an interface neither reads nor changes the events. -/
theorem ignoresEvents_updateInterface (now : TimePoint) (snapshot : InterfaceSnapshot) :
    IgnoresEvents (updateInterface now snapshot) := by
  intro ring seq s
  unfold updateInterface
  split
  · rfl
  · rw [← ignoresEvents_touchLastLogLocked]
    rfl

/-- An attack has a buffer of its own and does not look at the events. -/
theorem ignoresEvents_addWANAttack (now later : TimePoint) (attack : WANAttackEvent) :
    IgnoresEvents (addWANAttack now later attack) := by
  intro ring seq s
  unfold addWANAttack
  rw [← ignoresEvents_touchLastLogLocked]
  rfl

/-- The removal of records does not look at the events. -/
theorem ignoresEvents_eraseAll (keys : List Str) : IgnoresEvents (eraseAll keys) := by
  intro ring seq s
  induction keys generalizing s with
  | nil => rfl
  | cons key keys ih => exact ih (s.eraseDevice key)

/-- The walk over the records at the end of a pass does not look at the events. -/
theorem ignoresEvents_sweep (now : TimePoint) : IgnoresEvents (sweep now) := by
  intro ring seq s
  exact ignoresEvents_eraseAll (s.expiredKeys now) ring seq
    { s with devicesByKey := s.devicesByKey.mapValues (sweepDevice s.config now) }

/-- An id that is taken changes nothing else. -/
theorem sameButIds_nextEventId (s : StateStore) : SameButIds s s.nextEventId.2 := ⟨rfl, rfl, rfl⟩

/-- Rings that agree up to ids agree after a push of events that do. -/
theorem map_unname_push {a b : RingBuffer Event} (hcapacity : a.capacity = b.capacity)
    (hitems : a.items.map Threads.unname = b.items.map Threads.unname) {x y : Event}
    (h : Threads.unname x = Threads.unname y) :
    (a.push x).capacity = (b.push y).capacity ∧
      (a.push x).items.map Threads.unname = (b.push y).items.map Threads.unname := by
  have hpush : ∀ (ring : RingBuffer Event) (event : Event),
      (ring.push event).items.map Threads.unname =
        popFrontTo ring.capacity (ring.items.map Threads.unname ++ [Threads.unname event]) := by
    intro ring event
    rw [RingBuffer.push_items, ← popFrontTo_map, List.map_append]
    rfl
  refine ⟨?_, ?_⟩
  · rw [RingBuffer.push_capacity, RingBuffer.push_capacity, hcapacity]
  · rw [hpush, hpush, hcapacity, hitems, h]

/-- The same event under two ids. -/
theorem SameButIds.push {s t : StateStore} (h : SameButIds s t) {x y : Event}
    (hevent : Threads.unname x = Threads.unname y) (m n : Nat) :
    SameButIds (s.withEvents (s.events.push x) m) (t.withEvents (t.events.push y) n) := by
  obtain ⟨hcapacity, hitems⟩ := map_unname_push h.capacity h.events hevent
  refine ⟨?_, hcapacity, hitems⟩
  rw [← h.tables]
  rfl

/-- A notice keeps two stores equal up to the id that it takes. -/
theorem SameButIds.announceOffline {s t : StateStore} (h : SameButIds s t) (now : TimePoint)
    (device : DeviceState) :
    SameButIds (s.announceOffline now device) (t.announceOffline now device) :=
  (h.push (x := offlineEvent s.nextEventId.1 now device)
    (y := offlineEvent t.nextEventId.1 now device) rfl _ _).map
      (ignoresEvents_touchLastLogLocked now now)

/-- All notices of a pass keep two stores equal up to the ids that they take. -/
theorem SameButIds.announced {s t : StateStore} (h : SameButIds s t) (now : TimePoint)
    (devices : List DeviceState) :
    SameButIds (devices.foldl (fun state device => state.announceOffline now device) s)
      (devices.foldl (fun state device => state.announceOffline now device) t) := by
  induction devices generalizing s t with
  | nil => exact h
  | cons device devices ih => exact ih (h.announceOffline now device)

/-- Which devices have gone does not depend on ids. -/
theorem SameButIds.gone {s t : StateStore} (h : SameButIds s t) (now : TimePoint) :
    s.gone now = t.gone now := by
  rw [← h.tables]
  rfl

/-- **A cleanup pass keeps two stores equal up to ids.** -/
theorem SameButIds.cleanup {s t : StateStore} (h : SameButIds s t) (now : TimePoint) :
    SameButIds (s.cleanup now) (t.cleanup now) := by
  rw [← Threads.sweep_announced, ← Threads.sweep_announced, h.gone now]
  exact (h.announced now _).map (ignoresEvents_sweep now)

/-- Adding an event does, if the events agree up to their ids. -/
theorem SameButIds.addEvent {s t : StateStore} (h : SameButIds s t) (now : TimePoint)
    {x y : Event} (hevent : Threads.unname x = Threads.unname y) :
    SameButIds (s.addEvent now x) (t.addEvent now y) := by
  have hts : (Threads.unname x).ts = (Threads.unname y).ts := congrArg Event.ts hevent
  have hnamed : ∀ (s : StateStore) (event : Event), ∃ id seq,
      s.addEvent now event = touchLastLogLocked now (if event.ts = 0 then now else event.ts)
        (s.withEvents (s.events.push
          { event with id := id, ts := if event.ts = 0 then now else event.ts }) seq) := by
    intro s event
    unfold StateStore.addEvent pushEventLocked
    split
    · exact ⟨_, _, rfl⟩
    · exact ⟨_, _, rfl⟩
  obtain ⟨i, m, hs⟩ := hnamed s x
  obtain ⟨j, n, ht⟩ := hnamed t y
  rw [hs, ht, show x.ts = y.ts from hts]
  refine (h.push ?_ m n).map (ignoresEvents_touchLastLogLocked now _)
  exact congrArg (fun e : Event => { e with ts := if y.ts = 0 then now else y.ts }) hevent

/-- **A call keeps stores that differ in ids only**, whatever id its event has. -/
theorem SameButIds.apply {s t : StateStore} (h : SameButIds s t) (op : StoreOp) (id : Str) :
    SameButIds (s.apply op) (t.apply (op.withId id)) := by
  cases op with
  | updateDevice now device => exact h.map (ignoresEvents_updateDevice now device)
  | updateTraffic now snapshot => exact h.map (ignoresEvents_updateTraffic now snapshot)
  | updateInterface now snapshot => exact h.map (ignoresEvents_updateInterface now snapshot)
  | addEvent now event => exact h.addEvent now rfl
  | addWANAttack now later attack => exact h.map (ignoresEvents_addWANAttack now later attack)
  | nextEventId =>
      exact ⟨by rw [← h.tables]; rfl, h.capacity, h.events⟩
  | cleanup now => exact h.cleanup now

end StateStore

namespace Threads

variable {ι : Type}

/-! ## The order of the calls -/

/-- The calls that an action makes or leads to, with no id for an event. -/
def Action.storeCalls : Action → List StoreOp
  | .makeEvent clock line peerIp =>
      .nextEventId :: (Job.handleLog clock line peerIp).calls.map (StoreOp.withId [])
  | .call op => [op.withId []]
  | .endCleanup now => [.cleanup now]
  | _ => []

/-- The calls that are still to come. -/
def dueCalls (todo : List Action) : List StoreOp := todo.flatMap Action.storeCalls

/-- The calls of a job: a line takes an id and calls the store, and a cleanup cycle makes
one pass. -/
def Job.storeCalls : Job → List StoreOp
  | .handleLog clock line peerIp =>
      .nextEventId :: (Job.handleLog clock line peerIp).calls.map (StoreOp.withId [])
  | .cleanup clock => [.cleanup clock.now]
  | .snapshot => []

/-- The calls so far, in the order in which they took effect. -/
def order (s : Shared ι) : List (ι × StoreOp) := s.calls.map fun c => (c.1, c.2.withId [])

/-- The calls of one thread among them. -/
def callsOf [DecidableEq ι] (i : ι) (calls : List (ι × StoreOp)) : List StoreOp :=
  (calls.filter fun c => c.1 = i).map Prod.snd

/-- Only the last id that is given to a call counts. -/
theorem withId_withId (a b : Str) (op : StoreOp) : (op.withId a).withId b = op.withId b := by
  cases op <;> rfl

/-- Once the event of a line is made, the calls of the line are due. -/
theorem dueCalls_callActions (clock : LogClock) (line peerIp : Str) (s : StateStore) :
    dueCalls (callActions clock (App.lineType line) (madeCalls clock line peerIp s)) =
      (Job.handleLog clock line peerIp).calls.map (StoreOp.withId []) := by
  have hcalls : (madeCalls clock line peerIp s).map (StoreOp.withId []) =
      (Job.handleLog clock line peerIp).calls.map (StoreOp.withId []) := by
    rw [madeCalls_eq_calls, List.map_map]
    exact List.map_congr_left fun op _ => withId_withId _ _ op
  rw [← hcalls]
  unfold madeCalls
  rcases App.eventCalls_cases clock (App.lineResult line) (App.lineEvent clock line peerIp s) with
    ⟨-, hcalls | ⟨snapshot, hcalls, -⟩⟩ | ⟨-, attack, e, hcalls, -⟩ |
      ⟨-, -, e, hcalls | ⟨device, hcalls, -⟩ | ⟨snapshot, hcalls, -⟩, -⟩ <;>
    rw [hcalls] <;> rfl

/-- At the start the calls of all jobs are due. -/
theorem dueCalls_jobs (jobs : List Job) :
    dueCalls (jobs.flatMap Job.actions) = jobs.flatMap Job.storeCalls := by
  rw [dueCalls, List.flatMap_assoc]
  refine List.flatMap_congr fun job _ => ?_
  cases job with
  | handleLog clock line peerIp =>
      simp only [Job.actions]
      split <;> simp [Action.storeCalls, Job.storeCalls]
  | cleanup clock => rfl
  | snapshot => rfl

/-- The action changes the store or its mutex. -/
def Action.changesStore : Action → Bool
  | .makeEvent _ _ _ => true
  | .call _ => true
  | .beginCleanup _ => true
  | .announce _ => true
  | .endCleanup _ => true
  | _ => false

/-- An action that is not a call leaves store, mutex and order of calls alone. -/
theorem perform_of_not_changesStore (i : ι) (s : Shared ι) (t : Thread) {action : Action}
    (h : action.changesStore = false) :
    (perform i s t action).1.app.state = s.app.state ∧
      (perform i s t action).1.holder = s.holder ∧
      (perform i s t action).1.calls = s.calls := by
  cases action with
  | makeEvent clock line peerIp => cases h
  | call op => cases h
  | beginCleanup now => cases h
  | announce now => cases h
  | endCleanup now => cases h
  | readCounters fields => cases fields <;> exact ⟨rfl, rfl, rfl⟩
  | insertHistory =>
      simp only [perform]
      split
      · exact ⟨rfl, rfl, rfl⟩
      · exact ⟨(Action.effect_same [] s.app (.insertEvent _)).2, rfl, rfl⟩
  | readDevices now => exact ⟨rfl, rfl, rfl⟩
  | readHistory => exact ⟨rfl, rfl, rfl⟩
  | _ => exact ⟨(Action.effect_same t.devices s.app _).2, rfl, rfl⟩

/-- Only the making of an event brings calls with it. -/
theorem Follows.dueCalls_eq {s : StateStore} {action : Action} {more : List Action}
    (h : Follows s action more)
    (hother : ∀ clock line peerIp, action ≠ .makeEvent clock line peerIp) :
    dueCalls more = [] := by
  cases h with
  | makeEvent clock line peerIp => exact absurd rfl (hother clock line peerIp)
  | _ => rfl

/-- A call takes its place at the end of the order. -/
theorem order_append {s s' : Shared ι} {i : ι} (op : StoreOp)
    (h : s'.calls = s.calls ++ [(i, op)]) : order s' = order s ++ [(i, op.withId [])] := by
  simp [order, h]

/-- An action makes its calls now or leaves them to the actions that follow it. -/
theorem perform_order (i : ι) (s : Shared ι) (t : Thread) {action : Action}
    {more : List Action} (h : Follows s.app.state action more) :
    ∃ calls : List StoreOp, order (perform i s t action).1 = order s ++ calls.map (i, ·) ∧
      calls ++ dueCalls more = action.storeCalls := by
  by_cases hstore : action.changesStore = true
  · cases action with
    | makeEvent clock line peerIp =>
        refine ⟨[.nextEventId], order_append .nextEventId rfl, ?_⟩
        cases h with
        | done hother => exact absurd rfl (hother clock line peerIp)
        | makeEvent => rw [dueCalls_callActions]; rfl
    | call op =>
        refine ⟨[op.withId []], order_append op rfl, ?_⟩
        rw [h.dueCalls_eq (by simp)]
        rfl
    | endCleanup now =>
        refine ⟨[.cleanup now], order_append (.cleanup now) rfl, ?_⟩
        rw [h.dueCalls_eq (by simp)]
        rfl
    | beginCleanup now => exact ⟨[], by simp [order, perform], h.dueCalls_eq (by simp)⟩
    | announce now =>
        refine ⟨[], ?_, h.dueCalls_eq (by simp)⟩
        simp only [perform]
        split <;> simp [order]
    | _ => cases hstore
  · rw [Bool.not_eq_true] at hstore
    have hother : ∀ clock line peerIp, action ≠ .makeEvent clock line peerIp := by
      intro clock line peerIp heq
      subst heq
      cases hstore
    refine ⟨[], ?_, ?_⟩
    · simp [order, (perform_of_not_changesStore i s t hstore).2.2]
    · rw [h.dueCalls_eq hother]
      cases action <;> first | rfl | cases hstore

variable [DecidableEq ι]

/-- The calls of a thread in two parts of the order. -/
theorem callsOf_append (i : ι) (calls more : List (ι × StoreOp)) :
    callsOf i (calls ++ more) = callsOf i calls ++ callsOf i more := by
  simp [callsOf]

/-- In its own calls a thread finds all of them. -/
theorem callsOf_self (i : ι) (calls : List StoreOp) : callsOf i (calls.map (i, ·)) = calls := by
  simp [callsOf, List.filter_map, Function.comp_def]

/-- In the calls of another thread it finds none. -/
theorem callsOf_other {i j : ι} (h : j ≠ i) (calls : List StoreOp) :
    callsOf j (calls.map (i, ·)) = [] := by
  simp [callsOf, List.filter_map, Function.comp_def, h.symm]

/-- **The calls of a thread come in its own order.** -/
theorem keeps_order (program : ι → List StoreOp) :
    ThreadPool.Keeps move (fun _ : Shared ι => True)
      (fun i s t => callsOf i (order s) ++ dueCalls t.todo = program i) where
  shared := fun _ _ _ _ _ => trivial
  mover := by
    intro i s t _ ht
    rcases move_cases i s t with hrest | ⟨action, rest, htodo, -, hmove⟩
    · rw [hrest]
      exact ht
    obtain ⟨more, hfollows, hmore⟩ := perform_todo i s { t with todo := rest } action
    obtain ⟨calls, horder, hcalls⟩ := perform_order i s { t with todo := rest } hfollows
    rw [hmove, hmore, horder, callsOf_append, callsOf_self, List.append_assoc, ← ht, htodo]
    refine congrArg _ ?_
    show calls ++ dueCalls (more ++ rest) = dueCalls (action :: rest)
    rw [dueCalls, dueCalls, List.flatMap_append, List.flatMap_cons, ← List.append_assoc]
    exact congrArg (· ++ _) hcalls
  other := by
    intro i j s ti tj hij _ _ hj
    rcases move_cases i s ti with hrest | ⟨action, rest, htodo, -, hmove⟩
    · rw [hrest]
      exact hj
    obtain ⟨more, hfollows, -⟩ := perform_todo i s { ti with todo := rest } action
    obtain ⟨calls, horder, -⟩ := perform_order i s { ti with todo := rest } hfollows
    rw [hmove, horder, callsOf_append, callsOf_other hij, List.append_nil]
    exact hj

omit [DecidableEq ι]

/-! ## Passes -/

/-- The action belongs to a cleanup pass. -/
def Action.inPass : Action → Bool
  | .beginCleanup _ => true
  | .announce _ => true
  | .endCleanup _ => true
  | _ => false

/-- The actions of a pass stand together. -/
inductive Bracketed : List Action → Prop where
  | nil : Bracketed []
  | pass (now : TimePoint) {rest : List Action} (h : Bracketed rest) :
      Bracketed (.beginCleanup now :: .announce now :: .endCleanup now :: rest)
  | outside {action : Action} {rest : List Action} (haction : action.inPass = false)
      (h : Bracketed rest) : Bracketed (action :: rest)

/-- Actions outside a pass may stand in front. -/
theorem Bracketed.append (more : List Action) {rest : List Action}
    (hmore : ∀ action ∈ more, action.inPass = false)
    (hrest : Bracketed rest) : Bracketed (more ++ rest) := by
  induction more with
  | nil => exact hrest
  | cons action more ih =>
      exact .outside (hmore action List.mem_cons_self)
        (ih fun action haction => hmore action (List.mem_cons_of_mem _ haction))

/-- The actions of every job keep their passes together. -/
theorem bracketed_jobs (jobs : List Job) : Bracketed (jobs.flatMap Job.actions) := by
  induction jobs with
  | nil => exact .nil
  | cons job jobs ih =>
      rw [List.flatMap_cons]
      cases job with
      | handleLog clock line peerIp =>
          refine Bracketed.append _ (fun action haction => ?_) ih
          rcases Job.mem_actions_handleLog haction with rfl | rfl | rfl | rfl <;> rfl
      | cleanup clock =>
          refine .pass clock.now ?_
          exact Bracketed.append [.readDevices clock.view, .upsertDevices clock.written,
            .readHistory, .insertHistory, .applyRetention clock.retention clock.bytes,
            .publish (str "summary_update")] (by simp [Action.inPass]) ih
      | snapshot => exact .outside rfl ih

/-- What follows an action outside a pass is outside as well. -/
theorem Follows.outside {s : StateStore} {action : Action} {more : List Action}
    (h : Follows s action more) (haction : action.inPass = false) :
    ∀ a ∈ more, a.inPass = false := by
  cases h with
  | done _ => simp
  | announce now => cases haction
  | insertHistory => simp [Action.inPass]
  | readCounters field fields => simp [Action.inPass]
  | makeEvent clock line peerIp =>
      intro a ha
      rcases callActions_cases ha with ⟨op, -, rfl⟩ | ⟨event, -, rfl⟩ | haside
      · rfl
      · rfl
      · cases a <;> first | rfl | cases haside

/-- The store after the calls so far, one after another. -/
def linear (first : StateStore) (s : Shared ι) : StateStore :=
  Runs.run StateStore.apply first ((order s).map Prod.snd)

/-- A further call is applied to the store of the calls before it. -/
theorem linear_append {first : StateStore} {s s' : Shared ι} {i : ι} (op : StoreOp)
    (h : s'.calls = s.calls ++ [(i, op)]) :
    linear first s' = (linear first s).apply (op.withId []) := by
  rw [linear, order_append op h, List.map_append, Runs.run_append]
  rfl

/-- The store of the calls depends on nothing but the calls. -/
theorem linear_congr {first : StateStore} {s s' : Shared ι} (h : s'.calls = s.calls) :
    linear first s' = linear first s := by
  rw [linear, linear, order, order, h]

/-- Where a thread is: outside a pass, or in one of its own.  There the store is on its way
to what the pass makes of the calls so far. -/
inductive Stage (first : StateStore) (i : ι) (s : Shared ι) (t : Thread) : Prop where
  | outside (hholder : s.holder ≠ some i) (htodo : Bracketed t.todo)
  | announcing (now : TimePoint) (rest : List Action) (hholder : s.holder = some i)
      (htodo : t.todo = .announce now :: .endCleanup now :: rest) (hrest : Bracketed rest)
      (hstore : StateStore.SameButIds
        ((t.gone.foldl (fun state device => state.announceOffline now device)
          s.app.state).sweep now) ((linear first s).cleanup now))
  | sweeping (now : TimePoint) (rest : List Action) (hholder : s.holder = some i)
      (htodo : t.todo = .endCleanup now :: rest) (hrest : Bracketed rest)
      (hstore : StateStore.SameButIds (s.app.state.sweep now) ((linear first s).cleanup now))

/-- Outside passes the store is what the calls have made of it. -/
def Linear (first : StateStore) (s : Shared ι) : Prop :=
  s.holder = none → StateStore.SameButIds s.app.state (linear first s)

/-- An action outside a pass, while no pass is under way. -/
theorem perform_outside {first : StateStore} (i : ι) {s : Shared ι} (t : Thread)
    {action : Action} (haction : action.inPass = false) (h : Linear first s) :
    (perform i s t action).1.holder = s.holder ∧ Linear first (perform i s t action).1 := by
  by_cases hstore : action.changesStore = true
  · cases action with
    | makeEvent clock line peerIp =>
        refine ⟨rfl, fun hholder => ?_⟩
        rw [linear_append (s := s) (i := i) .nextEventId rfl]
        exact (h hholder).apply .nextEventId []
    | call op =>
        refine ⟨rfl, fun hholder => ?_⟩
        rw [linear_append (s := s) (i := i) op rfl]
        exact (h hholder).apply op []
    | beginCleanup now => cases haction
    | announce now => cases haction
    | endCleanup now => cases haction
    | _ => cases hstore
  · obtain ⟨hstate, hholder, hcalls⟩ :=
      perform_of_not_changesStore i s t (Bool.not_eq_true _ ▸ hstore)
    refine ⟨hholder, fun hnone => ?_⟩
    rw [hstate, linear_congr hcalls]
    exact h (hholder ▸ hnone)

/-- An action outside a pass, while another thread is in one. -/
theorem perform_beside (first : StateStore) (i : ι) {s : Shared ι} (t : Thread)
    {action : Action} (haction : action.inPass = false)
    (hlocks : action.locksStore s.app.config = false) :
    (perform i s t action).1.holder = s.holder ∧
      StateStore.SameButIds (perform i s t action).1.app.state s.app.state ∧
      StateStore.SameButIds (linear first s) (linear first (perform i s t action).1) := by
  by_cases hstore : action.changesStore = true
  · cases action with
    | makeEvent clock line peerIp =>
        refine ⟨rfl, (StateStore.sameButIds_nextEventId s.app.state).symm, ?_⟩
        have hnext : linear first (perform i s t (.makeEvent clock line peerIp)).1 =
            (linear first s).nextEventId.2 := linear_append (i := i) .nextEventId rfl
        rw [hnext]
        exact StateStore.sameButIds_nextEventId _
    | call op => cases hlocks
    | beginCleanup now => cases haction
    | announce now => cases haction
    | endCleanup now => cases haction
    | _ => cases hstore
  · obtain ⟨hstate, hholder, hcalls⟩ :=
      perform_of_not_changesStore i s t (Bool.not_eq_true _ ▸ hstore)
    refine ⟨hholder, ?_, ?_⟩
    · rw [hstate]
      exact StateStore.SameButIds.refl _
    · rw [linear_congr hcalls]
      exact StateStore.SameButIds.refl _

/-- A thread that does not hold the mutex is between its passes. -/
theorem Stage.bracketed {first : StateStore} {j : ι} {s : Shared ι} {u : Thread}
    (h : Stage first j s u) (hholder : s.holder ≠ some j) : Bracketed u.todo := by
  cases h with
  | outside _ htodo => exact htodo
  | announcing _ _ hmine => exact absurd hmine hholder
  | sweeping _ _ hmine => exact absurd hmine hholder

/-- A thread stays at its stage while another acts outside a pass. -/
theorem Stage.beside {first : StateStore} {i j : ι} {s : Shared ι} {t u : Thread}
    (h : Stage first j s u) {action : Action} (haction : action.inPass = false)
    (hfree : action.locksStore s.app.config = true → s.holder = none) (hs : Linear first s) :
    Stage first j (perform i s t action).1 u := by
  have hsame := (perform_outside i t haction hs).1
  have hlocks : s.holder = some j → action.locksStore s.app.config = false := by
    intro hmine
    rw [← Bool.not_eq_true]
    intro hlock
    rw [hfree hlock] at hmine
    cases hmine
  cases h with
  | outside hnot htodo => exact .outside (hsame ▸ hnot) htodo
  | announcing now rest hmine htodo hrest hstore =>
      obtain ⟨-, hstate, hline⟩ := perform_beside first i t haction (hlocks hmine)
      refine .announcing now rest (hsame.trans hmine) htodo hrest ?_
      exact ((hstate.announced now _).map (StateStore.ignoresEvents_sweep now)).trans
        (hstore.trans (hline.cleanup now))
  | sweeping now rest hmine htodo hrest hstore =>
      obtain ⟨-, hstate, hline⟩ := perform_beside first i t haction (hlocks hmine)
      refine .sweeping now rest (hsame.trans hmine) htodo hrest ?_
      exact (hstate.map (StateStore.ignoresEvents_sweep now)).trans
        (hstore.trans (hline.cleanup now))

/-- **What a move does to the order of the calls.**  It keeps the store in line with them,
brings the thread to its next stage, and leaves the other threads at theirs. -/
theorem Stage.move {first : StateStore} {i : ι} {s : Shared ι} {t : Thread}
    (ht : Stage first i s t) (hs : Linear first s) :
    Linear first (move i s t).1 ∧ Stage first i (move i s t).1 (move i s t).2 ∧
      ∀ j u, j ≠ i → Stage first j s u → Stage first j (move i s t).1 u := by
  rcases move_cases i s t with hrest | ⟨action, rest, htodo, hfree, hmove⟩
  · rw [hrest]
    exact ⟨hs, ht, fun _ _ _ hu => hu⟩
  rw [hmove]
  cases ht with
  | outside hholder hb =>
      rw [htodo] at hb
      cases hb with
      | pass now hlater =>
          have hnone : s.holder = none := hfree rfl
          refine ⟨fun h => absurd h (by simp [perform]), ?_, fun j u hj hu => ?_⟩
          · refine .announcing now _ rfl rfl hlater ?_
            show StateStore.SameButIds (((s.app.state.gone now).foldl _ s.app.state).sweep now) _
            rw [sweep_announced]
            exact (hs hnone).cleanup now
          · exact .outside (by simpa [perform] using Ne.symm hj) (hu.bracketed (by simp [hnone]))
      | outside haction hlater =>
          obtain ⟨more, hfollows, hmore⟩ := perform_todo i s { t with todo := rest } action
          obtain ⟨hsame, hlinear⟩ := perform_outside i { t with todo := rest } haction hs
          refine ⟨hlinear, .outside (hsame ▸ hholder) ?_,
            fun j u _ hu => hu.beside haction hfree hs⟩
          rw [hmore]
          exact Bracketed.append more (hfollows.outside haction) hlater
  | announcing now later hholder hnow hlater hstore =>
      obtain ⟨rfl, rfl⟩ : action = .announce now ∧ rest = .endCleanup now :: later := by
        rw [htodo] at hnow
        exact List.cons_eq_cons.mp hnow
      simp only [perform]
      cases hgone : t.gone with
      | nil =>
          rw [hgone] at hstore
          refine ⟨hs, .sweeping now later hholder rfl hlater hstore, fun j u hj hu => hu⟩
      | cons device gone =>
          rw [hgone] at hstore
          refine ⟨fun h => absurd (hholder.symm.trans h) (by simp),
            .announcing now later hholder rfl hlater hstore,
            fun j u hj hu => .outside (by simp [hholder, Ne.symm hj])
              (hu.bracketed (by simp [hholder, Ne.symm hj]))⟩
  | sweeping now later hholder hnow hlater hstore =>
      obtain ⟨rfl, rfl⟩ : action = .endCleanup now ∧ rest = later := by
        rw [htodo] at hnow
        exact List.cons_eq_cons.mp hnow
      refine ⟨fun _ => ?_, .outside (by simp [perform]) hlater, fun j u hj hu => ?_⟩
      · rw [linear_append (i := i) (.cleanup now) rfl]
        exact hstore
      · exact .outside (by simp [perform]) (hu.bracketed (by simp [hholder, Ne.symm hj]))

/-- Every move keeps the store linear and every thread at a stage. -/
theorem keeps_stage (first : StateStore) :
    ThreadPool.Keeps move (Linear first) (fun (i : ι) s t => Stage first i s t) where
  shared _ _ _ hs ht := (ht.move hs).1
  mover _ _ _ hs ht := (ht.move hs).2.1
  other _ j _ _ u hj hs ht hu := (ht.move hs).2.2 j u hj hu

/-- The thread that holds the mutex can always go on. -/
theorem Stage.next {first : StateStore} {i : ι} {s : Shared ι} {t : Thread}
    (h : Stage first i s t) (hholder : s.holder = some i) :
    ∃ action rest, t.todo = action :: rest ∧ action.locksStore s.app.config = false := by
  cases h with
  | outside hnot _ => exact absurd hholder hnot
  | announcing now rest _ htodo _ _ => exact ⟨_, _, htodo, rfl⟩
  | sweeping now rest _ htodo _ _ => exact ⟨_, _, htodo, rfl⟩

variable [DecidableEq ι]

/-- **The store under concurrent threads.**  Take any threads that handle lines, run
cleanup cycles or take snapshots, and any order of their steps.  The calls that took effect
come, for every thread, in the order of its jobs.  Whenever no cleanup pass is under way,
the store is what these calls leave one after another, up to the ids of events.  A pass
does not outlast its thread, and as long as some thread is not through, some thread can
act. -/
theorem store_of_concurrent_threads (app : App) (jobs : ι → List Job) (schedule : List ι) :
    let p := runSchedule (start app jobs) schedule
    (∀ i, callsOf i (order p.shared) ++ dueCalls (p.thread i).todo =
        (jobs i).flatMap Job.storeCalls) ∧
      (p.shared.holder = none → StateStore.SameButIds p.shared.app.state
        (Runs.run StateStore.apply app.state ((order p.shared).map Prod.snd))) ∧
      (Finished p → p.shared.holder = none) ∧
      (¬ Finished p → ∃ i action rest, (p.thread i).todo = action :: rest ∧
        move i p.shared (p.thread i) =
          perform i p.shared { p.thread i with todo := rest } action) := by
  intro p
  have horder := (keeps_order fun i => (jobs i).flatMap Job.storeCalls).holds_run
    (p := start app jobs) ⟨trivial, fun i => dueCalls_jobs (jobs i)⟩ schedule
  have hstage := (keeps_stage app.state).holds_run (p := start app jobs)
    ⟨fun _ => StateStore.SameButIds.refl _, fun i => .outside (by simp [start])
      (bracketed_jobs (jobs i))⟩ schedule
  refine ⟨horder.2, hstage.1, fun hdone => ?_, fun hnot => ?_⟩
  · cases hholder : p.shared.holder with
    | none => rfl
    | some i =>
        obtain ⟨action, rest, htodo, -⟩ := (hstage.2 i).next hholder
        exact absurd ((hdone i).symm.trans htodo) (by simp)
  · cases hholder : p.shared.holder with
    | some i =>
        obtain ⟨action, rest, htodo, hlocks⟩ := (hstage.2 i).next hholder
        refine ⟨i, action, rest, htodo, move_eq_perform htodo fun h => ?_⟩
        exact absurd (hlocks.symm.trans h) Bool.false_ne_true
    | none =>
        obtain ⟨i, hi⟩ := not_forall.mp hnot
        obtain ⟨action, rest, htodo⟩ := List.exists_cons_of_ne_nil hi
        exact ⟨i, action, rest, htodo, move_eq_perform htodo fun _ => hholder⟩

end Threads

end Netmon
