import Netmon.EventIds

/-!
# Message accounting

Every line that is handled is counted once, under its type, and leads to one event
unless it is an interface report.  The counters are a function of the types of the
lines alone (`run_stats`), and so are the numbers of calls that add an event or an
attack (`added_runCalls`), which makes the counters and the calls agree after every run.
-/

namespace Netmon

namespace RuntimeStats

/-- The counters after lines of the given types. -/
def afterLines (types : List Str) (stats : RuntimeStats) : RuntimeStats where
  syslogMessagesTotal := stats.syslogMessagesTotal + types.length
  parseErrorsTotal := stats.parseErrorsTotal + types.count (str "raw")
  wanAttacksTotal := stats.wanAttacksTotal + types.count (str "wan_attack")
  syslogMessagesByType := stats.syslogMessagesByType.tally types

/-- Lines are counted one after the other. -/
theorem afterLines_append (before after : List Str) (stats : RuntimeStats) :
    stats.afterLines (before ++ after) = (stats.afterLines before).afterLines after := by
  simp only [afterLines, List.length_append, List.count_append, AList.tally, List.foldl_append,
    Nat.add_assoc]

/-- A message of a type that the parser gives is counted under that very type. -/
theorem recordSyslogMessage_of_lineType {type : Str} (h : type ∈ str "raw" :: lineTypes)
    (stats : RuntimeStats) :
    stats.recordSyslogMessage type =
      { stats with
        syslogMessagesTotal := stats.syslogMessagesTotal + 1
        syslogMessagesByType := stats.syslogMessagesByType.tally [type] } := by
  have hname : ∀ t ∈ str "raw" :: lineTypes, t ≠ [] ∧ lower t = t := by decide
  obtain ⟨hne, hlower⟩ := hname type h
  simp only [recordSyslogMessage, if_neg hne, hlower]
  rfl

end RuntimeStats

namespace App

/-! ## The counters -/

@[simp] theorem updateState_stats (f : StateStore → StateStore) (app : App) :
    (app.updateState f).stats = app.stats := rfl

@[simp] theorem updateStats_stats (f : RuntimeStats → RuntimeStats) (app : App) :
    (app.updateStats f).stats = f app.stats := rfl

@[simp] theorem publishUpdate_stats (type : Str) (app : App) :
    (app.publishUpdate type).stats = app.stats := rfl

@[simp] theorem persistDevices_stats (view written : TimePoint) (app : App) :
    (app.persistDevices view written).stats = app.stats := by
  unfold persistDevices
  split <;> rfl

@[simp] theorem persistEvent_stats (event : Event) (app : App) :
    (app.persistEvent event).stats = app.stats := by
  unfold persistEvent
  split <;> rfl

@[simp] theorem persistTraffic_stats (snapshot : TrafficSnapshot) (app : App) :
    (app.persistTraffic snapshot).stats = app.stats := by
  unfold persistTraffic
  split <;> rfl

@[simp] theorem persistWANAttack_stats (event : WANAttackEvent) (app : App) :
    (app.persistWANAttack event).stats = app.stats := by
  unfold persistWANAttack
  split <;> rfl

@[simp] theorem persistRecentEvents_stats (app : App) :
    app.persistRecentEvents.stats = app.stats := by
  unfold persistRecentEvents
  split <;> rfl

@[simp] theorem recordEvent_stats (clock : LogClock) (event : Event) (app : App) :
    (app.recordEvent clock event).stats = app.stats := by
  simp [recordEvent]

@[simp] theorem recordDevice_stats (clock : LogClock) (device : DeviceState) (event : Event)
    (app : App) : (app.recordDevice clock device event).stats = app.stats := by
  simp [recordDevice]

/-- Of all branches, only the one for attacks counts anything. -/
theorem applyEvent_stats (clock : LogClock) (result : ParseResult) (event : Event) (app : App) :
    (app.applyEvent clock result event).stats =
      if result.type = str "wan_attack" then app.stats.recordWANAttack else app.stats := by
  have heffect := applyEvent_effect clock result event app
  generalize app.applyEvent clock result event = after at heffect
  cases heffect with
  | device htype => simp [htype]
  | traffic htype => simp [htype]
  | event htype => simp [htype]
  | interface htype => simp [htype]
  | nothing htype => simp [htype]
  | attack htype => simp [htype]

/-- The type under which a line is counted. -/
def lineType (line : Str) : Str := (lineResult line).type

/-- **A line is counted once, under its type.** -/
theorem handleLog_stats (clock : LogClock) (line peerIp : Str) (app : App) :
    (app.handleLog clock line peerIp).stats = app.stats.afterLines [lineType line] := by
  unfold handleLog lineType lineResult
  cases hparse : parse line with
  | none =>
      simp only [publishUpdate_stats, recordEvent_stats, updateStats_stats]
      rw [RuntimeStats.recordSyslogMessage_of_lineType List.mem_cons_self]
      rfl
  | some result =>
      have htype := parse_type hparse
      have hraw : result.type ≠ str "raw" := by
        have hlisted : ∀ t ∈ lineTypes, t ≠ str "raw" := by decide
        exact hlisted _ htype
      simp only [applyParseResult, applyEvent_stats, updateStats_stats, Option.getD_some]
      rw [RuntimeStats.recordSyslogMessage_of_lineType (List.mem_cons_of_mem _ htype)]
      simp only [RuntimeStats.afterLines, List.count_singleton, beq_iff_eq, hraw, if_false,
        List.length_singleton, Nat.add_zero]
      split <;> rfl

/-- A cleanup cycle counts nothing. -/
theorem cleanupCycle_stats (clock : CleanupClock) (app : App) :
    (app.cleanupCycle clock).stats = app.stats := by
  unfold cleanupCycle
  simp only [publishUpdate_stats]
  split <;> simp

/-- The lines that a run handles. -/
def handledLines : List AppOp → List Str
  | [] => []
  | .handleLog _ line _ :: ops => line :: handledLines ops
  | .cleanup _ :: ops => handledLines ops

/-- **The counters after a run** are a function of the types of its lines. -/
theorem run_stats (app : App) (ops : List AppOp) :
    (Runs.run step app ops).stats = app.stats.afterLines ((handledLines ops).map lineType) := by
  induction ops generalizing app with
  | nil => rfl
  | cons op ops ih =>
      rw [Runs.run_cons, ih]
      cases op with
      | handleLog clock line peerIp =>
          rw [step, handleLog_stats, ← RuntimeStats.afterLines_append]
          rfl
      | cleanup clock =>
          rw [step, cleanupCycle_stats]
          rfl

/-! ## The calls -/

/-- The events that the calls add, in order. -/
def addedEvents (calls : List StoreOp) : List Event :=
  calls.filterMap fun
    | .addEvent _ event => some event
    | _ => none

/-- The attacks that the calls add, in order. -/
def addedAttacks (calls : List StoreOp) : List WANAttackEvent :=
  calls.filterMap fun
    | .addWANAttack _ _ event => some event
    | _ => none

/-- **A line adds one event**, under the next id, unless it is an interface report; it
adds an attack when it reports one. -/
theorem added_lineCalls (clock : LogClock) (line peerIp : Str) (s : StateStore) :
    (addedEvents (lineCalls clock line peerIp s)).map Event.id =
        (if lineType line = str "netiface" then []
          else [StateStore.eventIdText (s.eventSeq + 1)]) ∧
      (addedAttacks (lineCalls clock line peerIp s)).length =
        if lineType line = str "wan_attack" then 1 else 0 := by
  have hid : (lineEvent clock line peerIp s).id = StateStore.eventIdText (s.eventSeq + 1) := by
    unfold lineEvent
    cases parse line <;> rfl
  unfold lineCalls
  rcases eventCalls_cases clock (lineResult line) (lineEvent clock line peerIp s) with
    ⟨htype, hcalls | ⟨snapshot, hcalls, -⟩⟩ | ⟨htype, attack, e, hcalls, -, -, he⟩ |
      ⟨hiface, hattack, e, hcalls | ⟨device, hcalls, -⟩ | ⟨snapshot, hcalls, -⟩, -, he⟩ <;>
    rw [hcalls] <;> unfold lineType
  · rw [htype]
    exact ⟨rfl, rfl⟩
  · rw [htype]
    exact ⟨rfl, rfl⟩
  · rw [htype, ← hid, ← he]
    exact ⟨rfl, rfl⟩
  · rw [if_neg hiface, if_neg hattack, ← hid, ← he]
    exact ⟨rfl, rfl⟩
  · rw [if_neg hiface, if_neg hattack, ← hid, ← he]
    exact ⟨rfl, rfl⟩
  · rw [if_neg hiface, if_neg hattack, ← hid, ← he]
    exact ⟨rfl, rfl⟩

/-- The calls of a run are those of its first step and those of the rest. -/
theorem runCalls_cons (app : App) (op : AppOp) (ops : List AppOp) :
    runCalls app.state (op :: ops) =
      stepCalls app.state op ++ runCalls (app.step op).state ops := by
  rw [step_state]
  rfl

/-- The events of two parts of a run. -/
theorem addedEvents_append (before after : List StoreOp) :
    addedEvents (before ++ after) = addedEvents before ++ addedEvents after :=
  List.filterMap_append

/-- The attacks of two parts of a run. -/
theorem addedAttacks_append (before after : List StoreOp) :
    addedAttacks (before ++ after) = addedAttacks before ++ addedAttacks after :=
  List.filterMap_append

/-- Every line of a run adds one event unless it is an interface report, and one attack
if it reports one. -/
theorem added_runCalls (app : App) (ops : List AppOp) :
    (addedEvents (runCalls app.state ops)).length +
        ((handledLines ops).map lineType).count (str "netiface") = (handledLines ops).length ∧
      (addedAttacks (runCalls app.state ops)).length =
        ((handledLines ops).map lineType).count (str "wan_attack") := by
  induction ops generalizing app with
  | nil => exact ⟨rfl, rfl⟩
  | cons op ops ih =>
      obtain ⟨hevents, hattacks⟩ := ih (app.step op)
      rw [runCalls_cons, addedEvents_append, addedAttacks_append, List.length_append,
        List.length_append]
      cases op with
      | cleanup clock => exact ⟨(Nat.zero_add _).symm ▸ hevents, (Nat.zero_add _).trans hattacks⟩
      | handleLog clock line peerIp =>
          obtain ⟨hids, hadded⟩ := added_lineCalls clock line peerIp app.state
          have hone := congrArg List.length hids
          rw [List.length_map] at hone
          rw [stepCalls, handledLines, List.map_cons, List.count_cons, List.count_cons,
            List.length_cons, hone, hadded, hattacks]
          simp only [beq_iff_eq]
          constructor
          · split
            · simp only [List.length_nil]
              omega
            · simp only [List.length_singleton]
              omega
          · exact Nat.add_comm _ _

/-- The ids of the events that a run adds are distinct, and come after the counter. -/
theorem addedEvents_ids (app : App) (ops : List AppOp) :
    ((addedEvents (runCalls app.state ops)).map Event.id).Nodup ∧
      ∀ id ∈ (addedEvents (runCalls app.state ops)).map Event.id,
        ∃ n, app.state.eventSeq < n ∧ id = StateStore.eventIdText n := by
  induction ops generalizing app with
  | nil => exact ⟨List.nodup_nil, by simp [runCalls, addedEvents]⟩
  | cons op ops ih =>
      obtain ⟨hnodup, hlater⟩ := ih (app.step op)
      have hseq := step_eventSeq app op
      have hrest : ∀ id ∈ (addedEvents (runCalls (app.step op).state ops)).map Event.id,
          ∃ n, app.state.eventSeq < n ∧ id = StateStore.eventIdText n := by
        intro id hid
        obtain ⟨n, hn, htext⟩ := hlater id hid
        exact ⟨n, by omega, htext⟩
      rw [runCalls_cons, addedEvents_append, List.map_append]
      cases op with
      | cleanup clock => exact ⟨hnodup, hrest⟩
      | handleLog clock line peerIp =>
          rw [stepCalls, (added_lineCalls clock line peerIp app.state).1]
          split
          · exact ⟨hnodup, hrest⟩
          · refine ⟨List.nodup_cons.mpr ⟨fun hmem => ?_, hnodup⟩, fun id hid => ?_⟩
            · obtain ⟨n, hn, htext⟩ := hlater _ hmem
              rw [StateStore.eventIdText_inj] at htext
              have hneeded : app.idsNeeded (.handleLog clock line peerIp) = 1 := rfl
              omega
            · rcases List.mem_cons.mp hid with rfl | hid
              · exact ⟨_, Nat.lt_succ_self _, rfl⟩
              · exact hrest id hid

/-- **Message accounting.**  Whatever lines a process handles after its counters were
set to zero, with cleanup cycles in between: the number of messages is the number of
lines and the sum over the types, the parse errors are the messages of type `raw`, the
attacks are the messages of type `wan_attack` and the attacks added to the store, and
every message adds one event to the store except the interface reports; no two events
added have one id. -/
theorem message_accounting (config : Config) (state : StateStore) (db : Database)
    (ops : List AppOp) :
    let app : App := { config := config, state := state, db := db }
    let stats := (Runs.run step app ops).stats
    let calls := runCalls state ops
    (Runs.run step app ops).state = Runs.run StateStore.apply state calls ∧
      stats.syslogMessagesTotal = (handledLines ops).length ∧
      stats.syslogMessagesTotal = (stats.syslogMessagesByType.entries.map Sigma.snd).sum ∧
      stats.parseErrorsTotal = stats.syslogMessagesByType.getD (str "raw") 0 ∧
      stats.wanAttacksTotal = stats.syslogMessagesByType.getD (str "wan_attack") 0 ∧
      stats.wanAttacksTotal = (addedAttacks calls).length ∧
      (addedEvents calls).length + stats.syslogMessagesByType.getD (str "netiface") 0 =
        (handledLines ops).length ∧
      ((addedEvents calls).map Event.id).Nodup := by
  intro app stats calls
  obtain ⟨hevents, hattacks⟩ := added_runCalls app ops
  have hstats : stats = ({} : RuntimeStats).afterLines ((handledLines ops).map lineType) :=
    run_stats app ops
  have htype : ∀ type, stats.syslogMessagesByType.getD type 0 =
      ((handledLines ops).map lineType).count type := by
    intro type
    have hnone : ({} : RuntimeStats).syslogMessagesByType.getD type 0 = 0 := rfl
    rw [hstats, RuntimeStats.afterLines, AList.getD_tally, hnone, Nat.zero_add]
  have hsum : (stats.syslogMessagesByType.entries.map Sigma.snd).sum =
      ((handledLines ops).map lineType).length := by
    rw [hstats]
    exact (AList.sum_tally _ _).trans (Nat.zero_add _)
  have htotal : stats.syslogMessagesTotal = (handledLines ops).length := by
    rw [hstats]
    exact (Nat.zero_add _).trans (List.length_map _)
  have hwan : stats.wanAttacksTotal =
      ((handledLines ops).map lineType).count (str "wan_attack") := by
    rw [hstats]
    exact Nat.zero_add _
  refine ⟨run_state app ops, htotal, ?_, ?_, ?_, ?_, ?_, (addedEvents_ids app ops).1⟩
  · rw [htotal, hsum, List.length_map]
  · rw [htype, hstats]
    exact Nat.zero_add _
  · rw [htype, hwan]
  · rw [hwan]
    exact hattacks.symm
  · rw [htype]
    exact hevents

end App

end Netmon
