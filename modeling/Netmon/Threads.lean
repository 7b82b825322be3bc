import Netmon.EventHistory
import Netmon.MessageAccounting
import Netmon.ThreadPool

/-!
# The threads of the process

The lines of the UDP socket and of every TCP connection are handled by threads of
their own, `runCleanupLoop` is a further one, and every HTTP request is answered on
one.  They share the store, the counters and the database.  What is atomic is less
than a line: each increment of a counter, each call on the store (under its mutex),
each statement group on the database (under the other mutex) and each broadcast.
`nextEventId` takes no lock, so ids can be given out in the middle of a cleanup pass
of another thread; every other call waits for the pass to end.

Here a job of a thread is its list of atomic actions, and `move` performs the next
one.  A job that is not interrupted does what `handleLog` and `cleanupCycle` say
(`alone_line`, `alone_cleanup`), so a run of `App` is the schedule in which every job runs
to its end (`alone_ops`).

`made` and `calls` are not part of the program.  They record the events that were
made and the calls on the store, in order and with the thread that made them.
-/

namespace Netmon

namespace RuntimeStats

/-- `++syslog_messages_total_`. -/
def countMessage (stats : RuntimeStats) : RuntimeStats :=
  { stats with syslogMessagesTotal := stats.syslogMessagesTotal + 1 }

/-- `++syslog_messages_by_type_[...]`, under the mutex of the map. -/
def countType (type : Str) (stats : RuntimeStats) : RuntimeStats :=
  let name := if type = [] then str "unknown" else lower type
  { stats with
    syslogMessagesByType :=
      stats.syslogMessagesByType.insert name (stats.syslogMessagesByType.getD name 0 + 1) }

end RuntimeStats

namespace StateStore

/-- The records that a cleanup pass announces, as it has swept them. -/
def gone (now : TimePoint) (s : StateStore) : List DeviceState :=
  ((s.devicesByKey.entries.map Sigma.snd).filter (goesOffline s.config now)).map
    (sweepDevice s.config now)

/-- The rest of a cleanup pass, after its announcements. -/
def sweep (now : TimePoint) (s : StateStore) : StateStore :=
  eraseAll (s.expiredKeys now)
    { s with devicesByKey := s.devicesByKey.mapValues (sweepDevice s.config now) }

end StateStore

namespace Threads

/-! ## Actions -/

/-- The counters, in the order in which `RuntimeStats::snapshot` reads them. -/
inductive Counter where
  | total
  | parseErrors
  | attacks
  | types
  deriving DecidableEq

/-- The counters in the order in which a snapshot reads them. -/
def allCounters : List Counter := [.total, .parseErrors, .attacks, .types]

/-- One atomic action.  `makeEvent` takes the next id and decides what follows;
`announce`, `insertHistory` and `readCounters` come again until they are through. -/
inductive Action where
  | countMessage
  | countType (type : Str)
  | countParseError
  | countAttack
  | makeEvent (clock : LogClock) (line peerIp : Str)
  | call (op : StoreOp)
  | insertTraffic (snapshot : TrafficSnapshot)
  | insertAttack (attack : WANAttackEvent)
  | insertEvent (event : Event)
  | readDevices (now : TimePoint)
  | upsertDevices (now : TimePoint)
  | publish (update : Str)
  | beginCleanup (now : TimePoint)
  | announce (now : TimePoint)
  | endCleanup (now : TimePoint)
  | readHistory
  | insertHistory
  | applyRetention (now : TimePoint) (bytes : Nat → Int)
  | readCounters (fields : List Counter)

/-- The actions after an event was made, given the calls on the store that its line
leads to. -/
def callActions (clock : LogClock) (type : Str) : List StoreOp → List Action
  | [.updateDevice now device, .addEvent later event] =>
      [.call (.updateDevice now device), .call (.addEvent later event), .readDevices clock.view,
        .upsertDevices clock.written, .insertEvent event, .publish (str "device_update")]
  | [.updateTraffic now snapshot, .addEvent later event] =>
      [.call (.updateTraffic now snapshot), .insertTraffic snapshot, .readDevices clock.view,
        .upsertDevices clock.written, .call (.addEvent later event), .insertEvent event,
        .publish (str "traffic_update")]
  | [.updateInterface now snapshot] =>
      [.call (.updateInterface now snapshot), .publish (str "summary_update")]
  | [.addWANAttack now later attack, .addEvent latest event] =>
      [.call (.addWANAttack now later attack), .countAttack, .call (.addEvent latest event),
        .insertAttack attack, .insertEvent event, .publish (str "wan_attack")]
  | [.addEvent now event] =>
      [.call (.addEvent now event), .insertEvent event,
        .publish (if type = str "nettraffic" then str "traffic_update" else str "event")]
  | _ => []

/-- The actions that an event leads to beside its calls and its row. -/
def Action.aside : Action → Bool
  | .insertTraffic _ => true
  | .insertAttack _ => true
  | .readDevices _ => true
  | .upsertDevices _ => true
  | .countAttack => true
  | .publish _ => true
  | _ => false

/-- What an event leads to: its calls, the row of an event that they add, and actions
beside them. -/
theorem callActions_cases {clock : LogClock} {type : Str} {calls : List StoreOp} {action : Action}
    (h : action ∈ callActions clock type calls) :
    (∃ op ∈ calls, action = .call op) ∨
      (∃ event ∈ App.addedEvents calls, action = .insertEvent event) ∨ action.aside = true := by
  unfold callActions at h
  split at h <;> simp only [List.mem_cons, List.not_mem_nil, or_false] at h
  · rcases h with rfl | rfl | rfl | rfl | rfl | rfl <;> simp [App.addedEvents, Action.aside]
  · rcases h with rfl | rfl | rfl | rfl | rfl | rfl | rfl <;>
      simp [App.addedEvents, Action.aside]
  · rcases h with rfl | rfl <;> simp [Action.aside]
  · rcases h with rfl | rfl | rfl | rfl | rfl | rfl <;> simp [App.addedEvents, Action.aside]
  · rcases h with rfl | rfl | rfl <;> simp [App.addedEvents, Action.aside]

/-- The calls on the store for an event of a line. -/
def madeCalls (clock : LogClock) (line peerIp : Str) (s : StateStore) : List StoreOp :=
  App.eventCalls clock (App.lineResult line) (App.lineEvent clock line peerIp s)

/-- What a thread has to do. -/
inductive Job where
  | handleLog (clock : LogClock) (line peerIp : Str)
  | cleanup (clock : CleanupClock)
  | snapshot

/-- The actions of a job, in the order of the source. -/
def Job.actions : Job → List Action
  | .handleLog clock line peerIp =>
      [.countMessage, .countType (App.lineType line)] ++
        (if parse line = none then [.countParseError] else []) ++
          [.makeEvent clock line peerIp]
  | .cleanup clock =>
      [.beginCleanup clock.now, .announce clock.now, .endCleanup clock.now,
        .readDevices clock.view, .upsertDevices clock.written, .readHistory, .insertHistory,
        .applyRetention clock.retention clock.bytes, .publish (str "summary_update")]
  | .snapshot => [.readCounters allCounters]

/-- A line is counted and then makes its event. -/
theorem Job.mem_actions_handleLog {clock : LogClock} {line peerIp : Str} {action : Action}
    (h : action ∈ (Job.handleLog clock line peerIp).actions) :
    action = .countMessage ∨ action = .countType (App.lineType line) ∨
      action = .countParseError ∨ action = .makeEvent clock line peerIp := by
  have herror : ∀ a ∈ (if parse line = none then [Action.countParseError] else []),
      a = .countParseError := by
    intro a ha
    split at ha
    · exact List.mem_singleton.mp ha
    · cases ha
  simp only [Job.actions, List.mem_append, List.mem_cons, List.not_mem_nil, or_false] at h
  rcases h with ((h | h) | h) | h
  · exact Or.inl h
  · exact Or.inr (Or.inl h)
  · exact Or.inr (Or.inr (Or.inl (herror action h)))
  · exact Or.inr (Or.inr (Or.inr h))

/-! ## Threads -/

/-- A thread: the actions still to do, and what it has copied: the devices and the
history from the store, the records it is about to announce, and the counters. -/
structure Thread where
  todo : List Action
  devices : List DeviceState := []
  history : List Event := []
  gone : List DeviceState := []
  counters : RuntimeStats := {}

/-- What the threads share, with the holder of the mutex of the store during a
cleanup pass. -/
structure Shared (ι : Type) where
  app : App
  holder : Option ι := none
  made : List Event := []
  calls : List (ι × StoreOp) := []

/-- The action takes the mutex of the store.  Without a database `persistDevices` and
`persistRecentEvents` do not ask the store at all; what the two actions copy is then not
used. -/
def Action.locksStore (config : Config) : Action → Bool
  | .call _ => true
  | .readDevices _ => App.sqliteEnabled config
  | .beginCleanup _ => true
  | .readHistory => App.sqliteEnabled config
  | _ => false

/-- What the actions without an answer do to the process, given the devices that the
thread has copied. -/
def Action.effect (devices : List DeviceState) (app : App) : Action → App
  | .countMessage => app.updateStats (·.countMessage)
  | .countType type => app.updateStats (·.countType type)
  | .countParseError => app.updateStats (·.recordParseError)
  | .countAttack => app.updateStats (·.recordWANAttack)
  | .insertTraffic snapshot => app.persistTraffic snapshot
  | .insertAttack attack => app.persistWANAttack attack
  | .insertEvent event => app.persistEvent event
  | .upsertDevices now =>
      if App.sqliteEnabled app.config then { app with db := app.db.upsertDevices now devices }
      else app
  | .publish update => app.publishUpdate update
  | .applyRetention now bytes =>
      if App.sqliteEnabled app.config then
        { app with db := app.db.applyRetention app.config now bytes }
      else app
  | _ => app

/-- The copy of the counters after one of them was read. -/
def readInto (stats counters : RuntimeStats) : Counter → RuntimeStats
  | .total => { counters with syslogMessagesTotal := stats.syslogMessagesTotal }
  | .parseErrors => { counters with parseErrorsTotal := stats.parseErrorsTotal }
  | .attacks => { counters with wanAttacksTotal := stats.wanAttacksTotal }
  | .types => { counters with syslogMessagesByType := stats.syslogMessagesByType }

variable {ι : Type}

/-- The thread `i` performs an action that it has taken off its list. -/
def perform (i : ι) (s : Shared ι) (t : Thread) : Action → Shared ι × Thread
  | .makeEvent clock line peerIp =>
      let calls := madeCalls clock line peerIp s.app.state
      ({ s with
          app := s.app.updateState (·.nextEventId.2)
          made := s.made ++ App.addedEvents calls
          calls := s.calls ++ [(i, .nextEventId)] },
        { t with todo := callActions clock (App.lineType line) calls ++ t.todo })
  | .call op =>
      ({ s with app := s.app.updateState (·.apply op), calls := s.calls ++ [(i, op)] }, t)
  | .readDevices now => (s, { t with devices := s.app.state.devices now })
  | .beginCleanup now => ({ s with holder := some i }, { t with gone := s.app.state.gone now })
  | .announce now =>
      match t.gone with
      | [] => (s, t)
      | device :: gone =>
          ({ s with
              app := s.app.updateState (·.announceOffline now device)
              made := s.made ++ [StateStore.offlineEvent s.app.state.nextEventId.1 now device] },
            { t with gone := gone, todo := .announce now :: t.todo })
  | .endCleanup now =>
      ({ s with
          app := s.app.updateState (·.sweep now)
          holder := none
          calls := s.calls ++ [(i, .cleanup now)] }, t)
  | .readHistory =>
      (s, { t with history := s.app.state.recentEvents s.app.config.maxEvents.toNat })
  | .insertHistory =>
      match t.history with
      | [] => (s, t)
      | event :: history =>
          ({ s with app := s.app.persistEvent event },
            { t with history := history, todo := .insertHistory :: t.todo })
  | .readCounters [] => (s, t)
  | .readCounters (field :: fields) =>
      (s, { t with
        counters := readInto s.app.stats t.counters field
        todo := .readCounters fields :: t.todo })
  | action => ({ s with app := action.effect t.devices s.app }, t)

/-- The next action of a thread.  It waits while a cleanup pass holds the mutex that
the action takes. -/
def move (i : ι) (s : Shared ι) (t : Thread) : Shared ι × Thread :=
  match t.todo with
  | [] => (s, t)
  | action :: rest =>
      if action.locksStore s.app.config ∧ s.holder.isSome then (s, t)
      else perform i s { t with todo := rest } action

/-- The threads of the process. -/
abbrev Pool (ι : Type) := ThreadPool.Pool ι (Shared ι) Thread

/-- The threads at the start of their jobs. -/
def start (app : App) (jobs : ι → List Job) : Pool ι where
  shared := { app := app }
  thread := fun i => { todo := (jobs i).flatMap Job.actions }

/-- The state after a schedule. -/
def runSchedule [DecidableEq ι] (p : Pool ι) (schedule : List ι) : Pool ι :=
  Runs.run (ThreadPool.step move) p schedule

/-- Every thread has done its jobs. -/
def Finished (p : Pool ι) : Prop := ∀ i, (p.thread i).todo = []

/-- **What a move can be**: the thread rests, or performs its next action and needs no
mutex that is taken. -/
theorem move_cases (i : ι) (s : Shared ι) (t : Thread) :
    move i s t = (s, t) ∨
      ∃ action rest, t.todo = action :: rest ∧
        (action.locksStore s.app.config = true → s.holder = none) ∧
        move i s t = perform i s { t with todo := rest } action := by
  unfold move
  cases htodo : t.todo with
  | nil => exact Or.inl rfl
  | cons action rest =>
      by_cases hwait : action.locksStore s.app.config ∧ s.holder.isSome
      · exact Or.inl (if_pos hwait)
      · refine Or.inr ⟨action, rest, rfl, fun hlocks => ?_, if_neg hwait⟩
        rw [not_and] at hwait
        simpa using hwait hlocks

/-- What an action can leave to do: nothing, itself once more, the rest of a counter
snapshot, or what the event that it made leads to. -/
inductive Follows (s : StateStore) : Action → List Action → Prop where
  | done {action : Action} (h : ∀ clock line peerIp, action ≠ .makeEvent clock line peerIp) :
      Follows s action []
  | announce (now : TimePoint) : Follows s (.announce now) [.announce now]
  | insertHistory : Follows s .insertHistory [.insertHistory]
  | readCounters (field : Counter) (fields : List Counter) :
      Follows s (.readCounters (field :: fields)) [.readCounters fields]
  | makeEvent (clock : LogClock) (line peerIp : Str) :
      Follows s (.makeEvent clock line peerIp)
        (callActions clock (App.lineType line) (madeCalls clock line peerIp s))

/-- An action is followed by what it leads to. -/
theorem perform_todo (i : ι) (s : Shared ι) (t : Thread) (action : Action) :
    ∃ more, Follows s.app.state action more ∧
      (perform i s t action).2.todo = more ++ t.todo := by
  cases action with
  | makeEvent clock line peerIp => exact ⟨_, .makeEvent clock line peerIp, rfl⟩
  | announce now =>
      simp only [perform]
      cases t.gone with
      | nil => exact ⟨[], .done (by simp), rfl⟩
      | cons device gone => exact ⟨_, .announce now, rfl⟩
  | insertHistory =>
      simp only [perform]
      cases t.history with
      | nil => exact ⟨[], .done (by simp), rfl⟩
      | cons event history => exact ⟨_, .insertHistory, rfl⟩
  | readCounters fields =>
      cases fields with
      | nil => exact ⟨[], .done (by simp), rfl⟩
      | cons field fields => exact ⟨_, .readCounters field fields, rfl⟩
  | _ => exact ⟨[], .done (by simp), rfl⟩

/-- What an action does to the counters. -/
def Action.count : Action → RuntimeStats → RuntimeStats
  | .countMessage, stats => stats.countMessage
  | .countType type, stats => stats.countType type
  | .countParseError, stats => stats.recordParseError
  | .countAttack, stats => stats.recordWANAttack
  | _, stats => stats

/-- An action changes the counters as it counts. -/
theorem perform_stats (i : ι) (s : Shared ι) (t : Thread) (action : Action) :
    (perform i s t action).1.app.stats = action.count s.app.stats := by
  cases action with
  | insertTraffic snapshot => exact App.persistTraffic_stats snapshot s.app
  | insertAttack attack => exact App.persistWANAttack_stats attack s.app
  | insertEvent event => exact App.persistEvent_stats event s.app
  | upsertDevices now =>
      simp only [perform, Action.effect]
      split <;> rfl
  | applyRetention now bytes =>
      simp only [perform, Action.effect]
      split <;> rfl
  | announce now =>
      simp only [perform]
      cases t.gone <;> rfl
  | insertHistory =>
      simp only [perform]
      cases t.history with
      | nil => rfl
      | cons event history => exact App.persistEvent_stats event s.app
  | readCounters fields => cases fields <;> rfl
  | _ => rfl

/-! ## A job on its own -/

open ThreadPool (Alone)

/-- A thread whose next action may take the lock performs it. -/
theorem move_eq_perform {i : ι} {s : Shared ι} {t : Thread} {action : Action}
    {rest : List Action} (htodo : t.todo = action :: rest)
    (hfree : action.locksStore s.app.config = true → s.holder = none) :
    move i s t = perform i s { t with todo := rest } action := by
  unfold move
  rw [htodo]
  refine if_neg fun h => ?_
  rw [hfree h.1] at h
  exact absurd h.2 (by simp)

/-- Such an action is one move of its thread alone. -/
theorem alone_perform {i : ι} {s : Shared ι} {t : Thread} {action : Action}
    {rest : List Action} (htodo : t.todo = action :: rest)
    (hfree : action.locksStore s.app.config = true → s.holder = none) :
    Alone move i (s, t) (perform i s { t with todo := rest } action) :=
  move_eq_perform htodo hfree ▸ Alone.one i s t

/-- The actions of a line other than `makeEvent`. -/
def Action.straight : Action → Bool
  | .makeEvent _ _ _ => false
  | .beginCleanup _ => false
  | .announce _ => false
  | .endCleanup _ => false
  | .readHistory => false
  | .insertHistory => false
  | .readCounters _ => false
  | _ => true

/-- The process and the copied devices after such an action. -/
def afterAction (x : App × List DeviceState) : Action → App × List DeviceState
  | .call op => (x.1.updateState (·.apply op), x.2)
  | .readDevices now => (x.1, x.1.state.devices now)
  | action => (action.effect x.2 x.1, x.2)

/-- A straight action changes the service as in one thread. -/
theorem perform_straight {action : Action} (h : action.straight = true) (i : ι) (s : Shared ι)
    (t : Thread) :
    ((perform i s t action).1.app, (perform i s t action).2.devices) =
        afterAction (s.app, t.devices) action ∧
      (perform i s t action).1.holder = s.holder ∧
      (perform i s t action).2.todo = t.todo := by
  cases action <;> first | exact ⟨rfl, rfl, rfl⟩ | exact absurd h Bool.false_ne_true

/-- Straight actions are performed one after the other. -/
theorem alone_straight (i : ι) {actions : List Action} (rest : List Action)
    (hstraight : ∀ action ∈ actions, action.straight = true) {s : Shared ι}
    (hfree : s.holder = none) {t : Thread} (htodo : t.todo = actions ++ rest) :
    ∃ s' t', Alone move i (s, t) (s', t') ∧
      (s'.app, t'.devices) = actions.foldl afterAction (s.app, t.devices) ∧
      s'.holder = none ∧ t'.todo = rest := by
  induction actions generalizing s t with
  | nil => exact ⟨s, t, Alone.refl i _, rfl, hfree, htodo⟩
  | cons action actions ih =>
      obtain ⟨happ, hholder, hnext⟩ := perform_straight (hstraight action List.mem_cons_self) i s
        { t with todo := actions ++ rest }
      obtain ⟨s', t', halone, hlast, hfree', hrest⟩ :=
        ih (fun a ha => hstraight a (List.mem_cons_of_mem _ ha)) (hholder.trans hfree) hnext
      refine ⟨s', t', (alone_perform htodo fun _ => hfree).trans halone, ?_, hfree', hrest⟩
      rw [hlast, List.foldl_cons, happ]

/-- The actions of the calls of an event are straight. -/
theorem callActions_straight {clock : LogClock} {type : Str} {calls : List StoreOp}
    {action : Action} (h : action ∈ callActions clock type calls) : action.straight = true := by
  rcases callActions_cases h with ⟨op, -, rfl⟩ | ⟨event, -, rfl⟩ | haside
  · rfl
  · rfl
  · cases action <;> first | rfl | cases haside

/-- **The actions of an event do what `applyEvent` does.** -/
theorem callActions_applyEvent (clock : LogClock) (result : ParseResult) (event : Event)
    (app : App) (devices : List DeviceState) :
    ((callActions clock result.type (App.eventCalls clock result event)).foldl afterAction
      (app, devices)).1 = app.applyEvent clock result event := by
  unfold App.applyEvent App.eventCalls
  dsimp only
  by_cases hnetdev : result.type = str "netdev"
  · rw [if_pos hnetdev, if_pos hnetdev]
    rfl
  rw [if_neg hnetdev, if_neg hnetdev]
  by_cases hdhcp : result.type = str "dhcp"
  · rw [if_pos hdhcp, if_pos hdhcp]
    rfl
  rw [if_neg hdhcp, if_neg hdhcp]
  by_cases htraffic : result.type = str "nettraffic"
  · rw [if_pos htraffic, if_pos htraffic]
    by_cases hcounters : str "rx_bytes" ∈ result.fields ∧ str "tx_bytes" ∈ result.fields
    · rw [if_pos hcounters, if_pos hcounters]
      rfl
    · rw [if_neg hcounters, if_neg hcounters, htraffic]
      rfl
  rw [if_neg htraffic, if_neg htraffic]
  by_cases hiface : result.type = str "netiface"
  · rw [if_pos hiface, if_pos hiface]
    by_cases hcounters : str "rx_bytes" ∈ result.fields ∧ str "tx_bytes" ∈ result.fields
    · rw [if_pos hcounters, if_pos hcounters]
      rfl
    · rw [if_neg hcounters, if_neg hcounters]
      rfl
  rw [if_neg hiface, if_neg hiface]
  by_cases hattack : result.type = str "wan_attack"
  · rw [if_pos hattack, if_pos hattack]
    rfl
  rw [if_neg hattack, if_neg hattack]
  by_cases hwan : result.type = str "wan"
  · rw [if_pos hwan, if_pos hwan, hwan]
    rfl
  rw [if_neg hwan, if_neg hwan]
  by_cases hwifi : result.type = str "wifi"
  · rw [if_pos hwifi, if_pos hwifi]
    rfl
  rw [if_neg hwifi, if_neg hwifi]
  simp only [callActions, if_neg htraffic]
  rfl

/-- Before it makes its event, a line is counted. -/
theorem counted_line (clock : LogClock) (line peerIp : Str) (app : App)
    (devices : List DeviceState) :
    ∃ counts, (Job.handleLog clock line peerIp).actions =
        counts ++ [.makeEvent clock line peerIp] ∧
      (∀ action ∈ counts, action.straight = true) ∧
      counts.foldl afterAction (app, devices) =
        (app.updateStats fun stats =>
          if parse line = none then (stats.recordSyslogMessage (str "raw")).recordParseError
          else stats.recordSyslogMessage (App.lineType line), devices) := by
  refine ⟨_, rfl, ?_, ?_⟩
  · intro action haction
    by_cases hparse : parse line = none
    · rw [if_pos hparse] at haction
      fin_cases haction <;> rfl
    · rw [if_neg hparse] at haction
      fin_cases haction <;> rfl
  · by_cases hparse : parse line = none
    · have htype : App.lineType line = str "raw" := by
        rw [App.lineType, App.lineResult, hparse]
        rfl
      rw [if_pos hparse, htype]
      simp only [if_pos hparse]
      rfl
    · rw [if_neg hparse]
      simp only [if_neg hparse]
      rfl

/-- **A line that is not interrupted** is handled as `handleLog` says. -/
theorem alone_line {i : ι} {s : Shared ι} (hfree : s.holder = none) {t : Thread}
    {clock : LogClock} {line peerIp : Str} {rest : List Action}
    (htodo : t.todo = (Job.handleLog clock line peerIp).actions ++ rest) :
    ∃ s' t', Alone move i (s, t) (s', t') ∧ s'.app = s.app.handleLog clock line peerIp ∧
      s'.holder = none ∧ t'.todo = rest := by
  obtain ⟨counts, hactions, hstraight, hcounted⟩ := counted_line clock line peerIp s.app t.devices
  rw [hactions, List.append_assoc] at htodo
  obtain ⟨s₁, t₁, halone₁, happ₁, hfree₁, htodo₁⟩ := alone_straight i _ hstraight hfree htodo
  rw [hcounted] at happ₁
  have halone₂ := alone_perform (i := i) (s := s₁) htodo₁ fun _ => hfree₁
  obtain ⟨s₃, t₃, halone₃, happ₃, hfree₃, htodo₃⟩ := alone_straight i rest
    (fun _ => callActions_straight)
    (s := (perform i s₁ { t₁ with todo := rest } (.makeEvent clock line peerIp)).1) hfree₁
    (t := (perform i s₁ { t₁ with todo := rest } (.makeEvent clock line peerIp)).2) rfl
  refine ⟨s₃, t₃, (halone₁.trans halone₂).trans halone₃, ?_, hfree₃, htodo₃⟩
  have happ : s₃.app = (s₁.app.updateState (·.nextEventId.2)).applyEvent clock
      (App.lineResult line) (App.lineEvent clock line peerIp s₁.app.state) := by
    rw [← callActions_applyEvent clock _ _ _ t₁.devices]
    exact congrArg Prod.fst happ₃
  rw [happ, (Prod.mk.inj happ₁).1]
  unfold App.handleLog App.lineEvent App.lineResult
  cases hparse : parse line with
  | none => rfl
  | some result =>
      simp only [App.lineType, App.lineResult, hparse, Option.getD_some]
      rfl

/-! ## A cleanup cycle on its own -/

/-- The announcements of a pass, one after the other. -/
theorem alone_announce (i : ι) (now : TimePoint) (rest : List Action) (devices : List DeviceState)
    {s : Shared ι} {t : Thread} (hgone : t.gone = devices)
    (htodo : t.todo = .announce now :: rest) :
    ∃ s' t', Alone move i (s, t) (s', t') ∧
      s'.app = s.app.updateState (devices.foldl fun state device =>
        state.announceOffline now device) ∧
      s'.holder = s.holder ∧ t'.todo = rest := by
  induction devices generalizing s t with
  | nil =>
      refine ⟨s, { t with todo := rest }, ?_, rfl, rfl, rfl⟩
      have halone := alone_perform (i := i) (s := s) htodo fun h => absurd h Bool.false_ne_true
      simp only [perform, hgone] at halone
      rw [← hgone] at halone
      exact halone
  | cons device devices ih =>
      have halone := alone_perform (i := i) (s := s) htodo fun h => absurd h Bool.false_ne_true
      simp only [perform, hgone] at halone
      obtain ⟨s', t', hrest, happ, hholder, hlast⟩ := ih
        (s := { s with
          app := s.app.updateState (·.announceOffline now device)
          made := s.made ++ [StateStore.offlineEvent s.app.state.nextEventId.1 now device] })
        (t := { t with gone := devices, todo := .announce now :: rest }) rfl rfl
      exact ⟨s', t', halone.trans hrest, happ, hholder, hlast⟩

/-- The copied history is stored event by event. -/
theorem alone_insertHistory (i : ι) (rest : List Action) (events : List Event)
    {s : Shared ι} {t : Thread} (hhistory : t.history = events)
    (htodo : t.todo = .insertHistory :: rest) :
    ∃ s' t', Alone move i (s, t) (s', t') ∧
      s'.app = events.foldl (fun app event => app.persistEvent event) s.app ∧
      s'.holder = s.holder ∧ t'.todo = rest := by
  induction events generalizing s t with
  | nil =>
      refine ⟨s, { t with todo := rest }, ?_, rfl, rfl, rfl⟩
      have halone := alone_perform (i := i) (s := s) htodo fun h => absurd h Bool.false_ne_true
      simp only [perform, hhistory] at halone
      rw [← hhistory] at halone
      exact halone
  | cons event events ih =>
      have halone := alone_perform (i := i) (s := s) htodo fun h => absurd h Bool.false_ne_true
      simp only [perform, hhistory] at halone
      obtain ⟨s', t', hrest, happ, hholder, hlast⟩ := ih
        (s := { s with app := s.app.persistEvent event })
        (t := { t with history := events, todo := .insertHistory :: rest }) rfl rfl
      exact ⟨s', t', halone.trans hrest, happ, hholder, hlast⟩

/-- Persisting events one by one is persisting them all. -/
theorem foldl_persistEvent (events : List Event) (app : App) :
    events.foldl (fun app event => app.persistEvent event) app =
      if App.sqliteEnabled app.config then
        { app with
          db := events.foldl (fun db event => db.insertEvent (preprocessEventForStorage event))
            app.db }
      else app := by
  induction events generalizing app with
  | nil => split <;> rfl
  | cons event events ih =>
      rw [List.foldl_cons, ih]
      by_cases h : App.sqliteEnabled app.config = true
      · simp only [App.persistEvent, h, if_true, List.foldl_cons]
      · have hsame : app.persistEvent event = app := if_neg h
        rw [hsame, if_neg h, if_neg h]

/-- A pass announces the records that go offline and then sweeps. -/
theorem sweep_announced (now : TimePoint) (s : StateStore) :
    ((s.gone now).foldl (fun state device => state.announceOffline now device) s).sweep now =
      s.cleanup now := by
  have hfold : ∀ (devices : List DeviceState) (t : StateStore), t.config = s.config →
      ((devices.filter (StateStore.goesOffline s.config now)).map
        (StateStore.sweepDevice s.config now)).foldl
          (fun state device => state.announceOffline now device) t =
        t.announceAll now devices := by
    intro devices
    induction devices with
    | nil => intro t _; rfl
    | cons device devices ih =>
        intro t hconfig
        by_cases h : StateStore.goesOffline s.config now device = true
        · rw [List.filter_cons_of_pos h, List.map_cons, List.foldl_cons,
            StateStore.announceAll_cons_of_pos (hconfig ▸ h), ih _ (by
              rw [(StateStore.announceOffline_same now _ t).config, hconfig]), hconfig]
        · rw [List.filter_cons_of_neg h, StateStore.announceAll_cons_of_neg (hconfig ▸ h),
            ih t hconfig]
  have hsame := StateStore.announceAll_same now (s.devicesByKey.entries.map Sigma.snd) s
  rw [StateStore.gone, hfold _ s rfl, StateStore.cleanup_eq, StateStore.sweep]
  generalize s.announceAll now (s.devicesByKey.entries.map Sigma.snd) = announced at hsame
  have hkeys : announced.expiredKeys now = s.expiredKeys now := by
    rw [StateStore.expiredKeys, StateStore.expiredKeys, hsame.config, hsame.devices]
  have hswept : announced.devicesByKey.mapValues (StateStore.sweepDevice announced.config now) =
      s.devicesByKey.mapValues (StateStore.sweepDevice s.config now) := by
    rw [hsame.config, hsame.devices]
  rw [hkeys, hswept]

/-- A pass on its own. -/
theorem alone_pass {i : ι} {now : TimePoint} {rest : List Action} {s : Shared ι}
    (hfree : s.holder = none) {t : Thread}
    (htodo : t.todo = [.beginCleanup now, .announce now, .endCleanup now] ++ rest) :
    ∃ s' t', Alone move i (s, t) (s', t') ∧ s'.app = s.app.updateState (·.cleanup now) ∧
      s'.holder = none ∧ t'.todo = rest := by
  have hbegin := alone_perform (i := i) (s := s) htodo fun _ => hfree
  obtain ⟨s₁, t₁, hannounce, happ₁, -, htodo₁⟩ := alone_announce i now
    (.endCleanup now :: rest) (s.app.state.gone now) (s := { s with holder := some i })
    (t := { t with
      gone := s.app.state.gone now, todo := [.announce now, .endCleanup now] ++ rest })
    rfl rfl
  have hend := alone_perform (i := i) (s := s₁) htodo₁ fun h => absurd h Bool.false_ne_true
  refine ⟨_, _, hbegin.trans (hannounce.trans hend), ?_, rfl, rfl⟩
  show s₁.app.updateState (·.sweep now) = _
  rw [happ₁]
  exact congrArg (fun state => { s.app with state := state }) (sweep_announced now s.app.state)

/-- The history is written back. -/
theorem alone_history {i : ι} {rest : List Action} {s : Shared ι} (hfree : s.holder = none)
    {t : Thread} (htodo : t.todo = [.readHistory, .insertHistory] ++ rest) :
    ∃ s' t', Alone move i (s, t) (s', t') ∧ s'.app = s.app.persistRecentEvents ∧
      s'.holder = none ∧ t'.todo = rest := by
  have hread := alone_perform (i := i) (s := s) htodo fun _ => hfree
  obtain ⟨s', t', hinsert, happ, hholder, hlast⟩ := alone_insertHistory i rest
    (s.app.state.recentEvents s.app.config.maxEvents.toNat) (s := s)
    (t := { t with
      history := s.app.state.recentEvents s.app.config.maxEvents.toNat
      todo := [.insertHistory] ++ rest }) rfl rfl
  exact ⟨s', t', hread.trans hinsert, happ.trans (foldl_persistEvent _ _), hholder.trans hfree,
    hlast⟩

/-- **A cleanup cycle that is not interrupted** does what `cleanupCycle` says. -/
theorem alone_cleanup {i : ι} {s : Shared ι} (hfree : s.holder = none) {t : Thread}
    {clock : CleanupClock} {rest : List Action}
    (htodo : t.todo = (Job.cleanup clock).actions ++ rest) :
    ∃ s' t', Alone move i (s, t) (s', t') ∧ s'.app = s.app.cleanupCycle clock ∧
      s'.holder = none ∧ t'.todo = rest := by
  obtain ⟨s₁, t₁, hpass, happ₁, hfree₁, htodo₁⟩ := alone_pass (i := i) hfree htodo
  have hcopy : ∀ action ∈ [Action.readDevices clock.view, .upsertDevices clock.written],
      action.straight = true := by
    intro action haction
    fin_cases haction <;> rfl
  obtain ⟨s₂, t₂, hdevices, happ₂, hfree₂, htodo₂⟩ := alone_straight i
    ([.readHistory, .insertHistory] ++ ([.applyRetention clock.retention clock.bytes,
      .publish (str "summary_update")] ++ rest)) hcopy hfree₁ htodo₁
  obtain ⟨s₃, t₃, hhistory, happ₃, hfree₃, htodo₃⟩ := alone_history (i := i) hfree₂ htodo₂
  have htrim : ∀ action ∈ [Action.applyRetention clock.retention clock.bytes,
      .publish (str "summary_update")], action.straight = true := by
    intro action haction
    fin_cases haction <;> rfl
  obtain ⟨s₄, t₄, hlast, happ₄, hfree₄, htodo₄⟩ := alone_straight i rest htrim hfree₃ htodo₃
  refine ⟨s₄, t₄, hpass.trans (hdevices.trans (hhistory.trans hlast)), ?_, hfree₄, htodo₄⟩
  have hdev : s₂.app = (s.app.updateState (·.cleanup clock.now)).persistDevices clock.view
      clock.written := by
    rw [← happ₁]
    exact congrArg Prod.fst happ₂
  have hfinal := congrArg Prod.fst happ₄
  rw [happ₃, hdev] at hfinal
  exact hfinal

/-- The job of a step of the process. -/
def Job.ofOp : App.AppOp → Job
  | .handleLog clock line peerIp => .handleLog clock line peerIp
  | .cleanup clock => .cleanup clock

/-- **The steps of a process are jobs that are not interrupted.** -/
theorem alone_ops {i : ι} (ops : List App.AppOp) (rest : List Action) {s : Shared ι}
    (hfree : s.holder = none) {t : Thread}
    (htodo : t.todo = ops.flatMap (fun op => (Job.ofOp op).actions) ++ rest) :
    ∃ s' t', Alone move i (s, t) (s', t') ∧ s'.app = Runs.run App.step s.app ops ∧
      s'.holder = none ∧ t'.todo = rest := by
  induction ops generalizing s t with
  | nil => exact ⟨s, t, Alone.refl i _, rfl, hfree, htodo⟩
  | cons op ops ih =>
      rw [List.flatMap_cons, List.append_assoc] at htodo
      have hop : ∃ s' t', Alone move i (s, t) (s', t') ∧ s'.app = s.app.step op ∧
          s'.holder = none ∧
          t'.todo = ops.flatMap (fun op => (Job.ofOp op).actions) ++ rest := by
        cases op with
        | handleLog clock line peerIp => exact alone_line hfree htodo
        | cleanup clock => exact alone_cleanup hfree htodo
      obtain ⟨s₁, t₁, halone₁, happ₁, hfree₁, htodo₁⟩ := hop
      obtain ⟨s₂, t₂, halone₂, happ₂, hfree₂, htodo₂⟩ := ih hfree₁ htodo₁
      refine ⟨s₂, t₂, halone₁.trans halone₂, ?_, hfree₂, htodo₂⟩
      rw [happ₂, happ₁, Runs.run_cons]

end Threads

end Netmon
