import Netmon.Threads

/-!
# Counters under concurrent threads

A line adds to the total, then to the count of its type, then perhaps to the parse
errors or, later, to the attacks.  Between these steps other threads count their own
lines, and `RuntimeStats::snapshot` reads the four counters at four different moments.

Every counter, together with what the threads still have to add to it, is the number of
lines that call for it (`Counts.run`).  In the list of a thread the counts of a line
stand in the order above, so what is pending of a later count is never less than what
is pending of an earlier one (`Balanced`).  Both facts together bound the counters by
each other at every moment, and since counters only grow, the bounds survive in a
snapshot whose parts were read one after the other.
-/

namespace Netmon

namespace Threads

variable {ι : Type}

/-! ## Counts that are due -/

/-- The name under which a type is counted. -/
def typeName (type : Str) : Str := if type = [] then str "unknown" else lower type

/-- The sum of the counts by type. -/
def typesTotal (stats : RuntimeStats) : Nat :=
  (stats.syslogMessagesByType.entries.map Sigma.snd).sum

/-- What an action adds to the number of messages. -/
def messageDue : Action → Nat
  | .countMessage => 1
  | _ => 0

/-- What an action adds to the sum of the counters by type. -/
def typeDue : Action → Nat
  | .countType _ => 1
  | _ => 0

/-- What an action adds to the counter of one type. -/
def typeOfDue (type : Str) : Action → Nat
  | .countType other => if typeName other = type then 1 else 0
  | _ => 0

/-- What an action adds to the number of parse errors. -/
def parseErrorDue : Action → Nat
  | .countParseError => 1
  | _ => 0

/-- An attack is counted after its event was made. -/
def attackDue : Action → Nat
  | .countAttack => 1
  | .makeEvent _ line _ => if App.lineType line = str "wan_attack" then 1 else 0
  | _ => 0

/-- What a list of actions still has to add. -/
def due (each : Action → Nat) (todo : List Action) : Nat := (todo.map each).sum

@[simp] theorem due_nil (each : Action → Nat) : due each [] = 0 := rfl

@[simp] theorem due_cons (each : Action → Nat) (action : Action) (todo : List Action) :
    due each (action :: todo) = each action + due each todo := by
  simp [due]

/-- What is due of two lists is due of both. -/
theorem due_append (each : Action → Nat) (before after : List Action) :
    due each (before ++ after) = due each before + due each after := by
  simp [due]

/-- Nothing is due of actions that add nothing. -/
theorem due_eq_zero {each : Action → Nat} {todo : List Action}
    (h : ∀ action ∈ todo, each action = 0) : due each todo = 0 := by
  induction todo with
  | nil => rfl
  | cons action todo ih =>
      rw [due_cons, h action List.mem_cons_self,
        ih fun a ha => h a (List.mem_cons_of_mem _ ha)]

/-- The actions that an event leads to, apart from the count of an attack, count nothing. -/
theorem count_callActions {clock : LogClock} {type : Str} {calls : List StoreOp} {action : Action}
    (h : action ∈ callActions clock type calls) :
    action = .countAttack ∨ messageDue action = 0 ∧ typeDue action = 0 ∧
      (∀ name, typeOfDue name action = 0) ∧ parseErrorDue action = 0 := by
  rcases callActions_cases h with ⟨op, -, rfl⟩ | ⟨event, -, rfl⟩ | haside
  · exact Or.inr ⟨rfl, rfl, fun _ => rfl, rfl⟩
  · exact Or.inr ⟨rfl, rfl, fun _ => rfl, rfl⟩
  · cases action with
    | countAttack => exact Or.inl rfl
    | _ => first | exact Or.inr ⟨rfl, rfl, fun _ => rfl, rfl⟩ | cases haside

/-- The event of an attack leads to one count of an attack, any other event to none. -/
theorem due_attack_callActions (clock : LogClock) (line peerIp : Str) (s : StateStore) :
    due attackDue (callActions clock (App.lineType line) (madeCalls clock line peerIp s)) =
      if App.lineType line = str "wan_attack" then 1 else 0 := by
  unfold madeCalls App.lineType
  rcases App.eventCalls_cases clock (App.lineResult line) (App.lineEvent clock line peerIp s) with
    ⟨htype, hcalls | ⟨snapshot, hcalls, -⟩⟩ | ⟨htype, attack, e, hcalls, -⟩ |
      ⟨-, hattack, e, hcalls | ⟨device, hcalls, -⟩ | ⟨snapshot, hcalls, -⟩, -⟩ <;> rw [hcalls]
  · rw [htype]
    rfl
  · rw [htype]
    rfl
  · rw [htype]
    rfl
  · rw [if_neg hattack]
    rfl
  · rw [if_neg hattack]
    rfl
  · rw [if_neg hattack]
    rfl

/-- A counter grows by what an action has due, and the actions that an event leads to
have what was due for the event. -/
structure Counts (value : RuntimeStats → Nat) (each : Action → Nat) : Prop where
  count : ∀ action, (∀ clock line peerIp, action ≠ .makeEvent clock line peerIp) →
    ∀ stats, value (action.count stats) = value stats + each action
  event : ∀ clock line peerIp s,
    due each (callActions clock (App.lineType line) (madeCalls clock line peerIp s)) =
      each (.makeEvent clock line peerIp)

/-- **A move passes counts on** from what is due to the counter. -/
theorem Counts.move {value : RuntimeStats → Nat} {each : Action → Nat} (h : Counts value each)
    (i : ι) (s : Shared ι) (t : Thread) :
    value (move i s t).1.app.stats + due each (move i s t).2.todo =
      value s.app.stats + due each t.todo := by
  rcases move_cases i s t with hrest | ⟨action, rest, htodo, -, hmove⟩
  · rw [hrest]
  obtain ⟨more, hfollows, hmore⟩ := perform_todo i s { t with todo := rest } action
  rw [hmove, perform_stats, hmore, htodo, due_append, due_cons]
  have hstep : value (action.count s.app.stats) + due each more =
      value s.app.stats + each action := by
    cases hfollows with
    | done hother => exact h.count action hother s.app.stats
    | announce now => rfl
    | insertHistory => rfl
    | readCounters field fields =>
        have hnow := h.count (.readCounters (field :: fields)) (by simp) s.app.stats
        have hlater := h.count (.readCounters fields) (by simp) s.app.stats
        simp only [Action.count] at hnow hlater ⊢
        rw [due_cons, due_nil]
        omega
    | makeEvent clock line peerIp => exact congrArg _ (h.event clock line peerIp _)
  show _ + (due each more + due each rest) = _
  omega

/-- The number of messages counts the messages that are due. -/
theorem counts_total : Counts RuntimeStats.syslogMessagesTotal messageDue where
  count := by intro action hother stats; cases action <;> rfl
  event := by
    intro clock line peerIp s
    refine due_eq_zero fun action haction => ?_
    rcases count_callActions haction with rfl | hzero
    · rfl
    · exact hzero.1

/-- Counting a type is one step of a tally. -/
theorem countType_eq (type : Str) (stats : RuntimeStats) :
    (stats.countType type).syslogMessagesByType =
      stats.syslogMessagesByType.tally [typeName type] := rfl

/-- The sum over the types counts every message once. -/
theorem counts_typesTotal : Counts typesTotal typeDue where
  count := by
    intro action hother stats
    cases action with
    | countType type =>
        show ((stats.countType type).syslogMessagesByType.entries.map Sigma.snd).sum = _
        rw [countType_eq, AList.sum_tally]
        rfl
    | _ => rfl
  event := by
    intro clock line peerIp s
    refine due_eq_zero fun action haction => ?_
    rcases count_callActions haction with rfl | hzero
    · rfl
    · exact hzero.2.1

/-- The counter of a type counts the messages of that type. -/
theorem counts_type (name : Str) :
    Counts (fun stats => stats.syslogMessagesByType.getD name 0) (typeOfDue name) where
  count := by
    intro action hother stats
    cases action with
    | countType type =>
        show (stats.countType type).syslogMessagesByType.getD name 0 = _
        rw [countType_eq, AList.getD_tally, List.count_singleton]
        simp only [beq_iff_eq]
        rfl
    | _ => rfl
  event := by
    intro clock line peerIp s
    refine due_eq_zero fun action haction => ?_
    rcases count_callActions haction with rfl | hzero
    · rfl
    · exact hzero.2.2.1 name

/-- The number of parse errors counts the lines that no format takes. -/
theorem counts_parseErrors : Counts RuntimeStats.parseErrorsTotal parseErrorDue where
  count := by intro action hother stats; cases action <;> rfl
  event := by
    intro clock line peerIp s
    refine due_eq_zero fun action haction => ?_
    rcases count_callActions haction with rfl | hzero
    · rfl
    · exact hzero.2.2.2

/-- The number of attacks counts the attacks that are recorded. -/
theorem counts_attacks : Counts RuntimeStats.wanAttacksTotal attackDue where
  count := by
    intro action hother stats
    cases action with
    | makeEvent clock line peerIp => exact absurd rfl (hother clock line peerIp)
    | _ => rfl
  event := due_attack_callActions

/-! ## The order of the counts of a line -/

/-- What a list of actions has due: of the types not less than of the messages and at
most `b` more, of the parse errors not less than of the type `raw`, and of the attacks
not less than of the type `wan_attack`. -/
structure Ordered (b : Nat) (todo : List Action) : Prop where
  message_le : due messageDue todo ≤ due typeDue todo
  type_le : due typeDue todo ≤ due messageDue todo + b
  raw_le : due (typeOfDue (str "raw")) todo ≤ due parseErrorDue todo
  attack_le : due (typeOfDue (str "wan_attack")) todo ≤ due attackDue todo

/-- Every end of the list is ordered, the list itself included. -/
def Balanced (b : Nat) : List Action → Prop
  | [] => True
  | action :: rest => Ordered b (action :: rest) ∧ Balanced b rest

/-- A balanced list is ordered. -/
theorem Balanced.ordered {b : Nat} {todo : List Action} (h : Balanced b todo) : Ordered b todo := by
  cases todo with
  | nil => exact ⟨Nat.le_refl _, Nat.zero_le _, Nat.le_refl _, Nat.le_refl _⟩
  | cons action rest => exact h.1

/-- Actions that count no message and no type may come first. -/
theorem Balanced.append {b : Nat} {todo more : List Action} (h : Balanced b todo)
    (hmore : ∀ action ∈ more, messageDue action = 0 ∧ typeDue action = 0 ∧
      ∀ name, typeOfDue name action = 0) : Balanced b (more ++ todo) := by
  induction more with
  | nil => exact h
  | cons action more ih =>
      have hrest := ih fun a ha => hmore a (List.mem_cons_of_mem _ ha)
      obtain ⟨hmessage, htype, hname⟩ := hmore action List.mem_cons_self
      have hold := hrest.ordered
      refine ⟨⟨?_, ?_, ?_, ?_⟩, hrest⟩
      · rw [List.append_eq, due_cons, due_cons, hmessage, htype]
        exact Nat.add_le_add_left hold.message_le 0
      · rw [List.append_eq, due_cons, due_cons, hmessage, htype, Nat.zero_add, Nat.zero_add]
        exact hold.type_le
      · rw [List.append_eq, due_cons, due_cons, hname]
        have := hold.raw_le
        omega
      · rw [List.append_eq, due_cons, due_cons, hname]
        have := hold.attack_le
        omega

/-- A move keeps the list of its thread balanced. -/
theorem Balanced.move {b : Nat} {t : Thread} (h : Balanced b t.todo) (i : ι) (s : Shared ι) :
    Balanced b (move i s t).2.todo := by
  rcases move_cases i s t with hrest | ⟨action, rest, htodo, -, hmove⟩
  · rw [hrest]
    exact h
  obtain ⟨more, hfollows, hmore⟩ := perform_todo i s { t with todo := rest } action
  rw [htodo] at h
  rw [hmove, hmore]
  refine h.2.append ?_
  cases hfollows with
  | done hother => simp
  | announce now => simp [messageDue, typeDue, typeOfDue]
  | insertHistory => simp [messageDue, typeDue, typeOfDue]
  | readCounters field fields => simp [messageDue, typeDue, typeOfDue]
  | makeEvent clock line peerIp =>
      intro a ha
      rcases count_callActions ha with rfl | hzero
      · exact ⟨rfl, rfl, fun _ => rfl⟩
      · exact ⟨hzero.1, hzero.2.1, hzero.2.2.1⟩

/-! ## What jobs call for -/

/-- The line that a job handles, if any. -/
def Job.lines : Job → List Str
  | .handleLog _ line _ => [line]
  | _ => []

/-- The lines that a thread handles. -/
def linesOf (jobs : List Job) : List Str := jobs.flatMap Job.lines

/-- The type of a line is a name that is counted as it is. -/
theorem typeName_lineType (line : Str) : typeName (App.lineType line) = App.lineType line := by
  have hlisted : App.lineType line ∈ str "raw" :: lineTypes := by
    rw [App.lineType, App.lineResult]
    cases hparse : parse line with
    | none => exact List.mem_cons_self
    | some result => exact List.mem_cons_of_mem _ (parse_type hparse)
  have hname : ∀ t ∈ str "raw" :: lineTypes, typeName t = t := by decide
  exact hname _ hlisted

/-- The lines of type `raw` are those that no format takes. -/
theorem lineType_eq_raw_iff (line : Str) : App.lineType line = str "raw" ↔ parse line = none := by
  rw [App.lineType, App.lineResult]
  cases hparse : parse line with
  | none => exact iff_of_true rfl rfl
  | some result =>
      have hlisted : ∀ t ∈ lineTypes, t ≠ str "raw" := by decide
      exact iff_of_false (hlisted _ (parse_type hparse)) (by simp)

/-- The actions of a line after it was counted under its type. -/
def lineRest (clock : LogClock) (line peerIp : Str) : List Action :=
  (if parse line = none then [.countParseError] else []) ++ [.makeEvent clock line peerIp]

/-- A line is counted, then counted by type, then handled. -/
theorem actions_line (clock : LogClock) (line peerIp : Str) :
    (Job.handleLog clock line peerIp).actions =
      .countMessage :: .countType (App.lineType line) :: lineRest clock line peerIp := rfl

/-- What is due of a line after it has been counted. -/
theorem due_lineRest (each : Action → Nat) (clock : LogClock) (line peerIp : Str) :
    due each (lineRest clock line peerIp) =
      (if App.lineType line = str "raw" then each .countParseError else 0) +
        each (.makeEvent clock line peerIp) := by
  simp only [lineRest, due_append, due_cons, due_nil, lineType_eq_raw_iff]
  split <;> simp

/-- What is due of a whole line. -/
theorem due_line (each : Action → Nat) (clock : LogClock) (line peerIp : Str) :
    due each (Job.handleLog clock line peerIp).actions =
      each .countMessage + (each (.countType (App.lineType line)) +
        ((if App.lineType line = str "raw" then each .countParseError else 0) +
          each (.makeEvent clock line peerIp))) := by
  rw [actions_line, due_cons, due_cons, due_lineRest]

/-- An action that leaves the counters alone has nothing due. -/
theorem Counts.eq_zero {value : RuntimeStats → Nat} {each : Action → Nat} (h : Counts value each)
    {action : Action} (hother : ∀ clock line peerIp, action ≠ .makeEvent clock line peerIp)
    (hsame : action.count {} = {}) : each action = 0 := by
  have hcount := h.count action hother {}
  rw [hsame] at hcount
  omega

/-- **What jobs call for** is a number of their lines. -/
theorem Counts.due_jobs {value : RuntimeStats → Nat} {each : Action → Nat} (h : Counts value each)
    {p : Str → Bool}
    (hline : ∀ clock line peerIp, due each (Job.handleLog clock line peerIp).actions =
      if p line then 1 else 0) (jobs : List Job) :
    due each (jobs.flatMap Job.actions) = (linesOf jobs).countP p := by
  induction jobs with
  | nil => rfl
  | cons job jobs ih =>
      have hlines : linesOf (job :: jobs) = job.lines ++ linesOf jobs := List.flatMap_cons
      rw [List.flatMap_cons, due_append, ih, hlines, List.countP_append]
      congr 1
      cases job with
      | handleLog clock line peerIp => rw [hline, Job.lines, List.countP_singleton]
      | cleanup clock =>
          refine due_eq_zero fun action haction => ?_
          simp only [Job.actions] at haction
          fin_cases haction <;> exact h.eq_zero (by simp) rfl
      | snapshot => exact due_eq_zero (by simpa [Job.actions] using h.eq_zero (by simp) rfl)

/-- As many messages are due as there are lines. -/
theorem due_message_jobs (jobs : List Job) :
    due messageDue (jobs.flatMap Job.actions) = (linesOf jobs).length := by
  have hline : ∀ clock line peerIp, due messageDue (Job.handleLog clock line peerIp).actions =
      if (fun _ => true) line = true then 1 else 0 := by
    intro clock line peerIp
    rw [due_line]
    split <;> rfl
  rw [counts_total.due_jobs hline, List.countP_true]

/-- As many counts by type are due as there are lines. -/
theorem due_type_jobs (jobs : List Job) :
    due typeDue (jobs.flatMap Job.actions) = (linesOf jobs).length := by
  have hline : ∀ clock line peerIp, due typeDue (Job.handleLog clock line peerIp).actions =
      if (fun _ => true) line = true then 1 else 0 := by
    intro clock line peerIp
    rw [due_line]
    split <;> rfl
  rw [counts_typesTotal.due_jobs hline, List.countP_true]

/-- The lines of a type, among those of the jobs. -/
def countLines (type : Str) (jobs : List Job) : Nat :=
  (linesOf jobs).countP fun line => App.lineType line = type

/-- Of a type, as many are due as there are lines of it. -/
theorem due_typeOf_jobs (type : Str) (jobs : List Job) :
    due (typeOfDue type) (jobs.flatMap Job.actions) = countLines type jobs := by
  refine (counts_type type).due_jobs (fun clock line peerIp => ?_) jobs
  rw [due_line]
  simp only [typeOfDue, typeName_lineType, decide_eq_true_eq]
  split <;> simp

/-- As many parse errors are due as there are lines without a format. -/
theorem due_parseError_jobs (jobs : List Job) :
    due parseErrorDue (jobs.flatMap Job.actions) = countLines (str "raw") jobs := by
  refine counts_parseErrors.due_jobs (fun clock line peerIp => ?_) jobs
  rw [due_line]
  simp only [parseErrorDue, decide_eq_true_eq]
  split <;> rfl

/-- As many attacks are due as there are lines about attacks. -/
theorem due_attack_jobs (jobs : List Job) :
    due attackDue (jobs.flatMap Job.actions) = countLines (str "wan_attack") jobs := by
  refine counts_attacks.due_jobs (fun clock line peerIp => ?_) jobs
  rw [due_line]
  simp only [attackDue, decide_eq_true_eq]
  split <;> simp

/-- The counts of a list of jobs stand in order.  A thread without lines is never behind. -/
theorem balanced_jobs {b : Nat} {jobs : List Job} (hb : linesOf jobs ≠ [] → 1 ≤ b) :
    Balanced b (jobs.flatMap Job.actions) := by
  induction jobs with
  | nil => trivial
  | cons job jobs ih =>
      have hlines : linesOf (job :: jobs) = job.lines ++ linesOf jobs := List.flatMap_cons
      have hrest := ih fun hne => hb (by rw [hlines]; simp [hne])
      rw [List.flatMap_cons]
      cases job with
      | cleanup clock =>
          refine hrest.append fun action haction => ?_
          simp only [Job.actions] at haction
          fin_cases haction <;> exact ⟨rfl, rfl, fun _ => rfl⟩
      | snapshot =>
          refine hrest.append fun action haction => ?_
          simp only [Job.actions] at haction
          fin_cases haction
          exact ⟨rfl, rfl, fun _ => rfl⟩
      | handleLog clock line peerIp =>
          have hone := hb (by rw [hlines]; simp [Job.lines])
          have hlater : Balanced b (lineRest clock line peerIp ++ jobs.flatMap Job.actions) := by
            refine hrest.append ?_
            unfold lineRest
            split <;> simp [messageDue, typeDue, typeOfDue]
          have hmessage := due_message_jobs jobs
          have htype := due_type_jobs jobs
          have hraw := due_typeOf_jobs (str "raw") jobs
          have hattack := due_typeOf_jobs (str "wan_attack") jobs
          have herrors := due_parseError_jobs jobs
          have hattacks := due_attack_jobs jobs
          have hcounted : Ordered b (.countType (App.lineType line) ::
              (lineRest clock line peerIp ++ jobs.flatMap Job.actions)) := by
            constructor
            · simp only [due_cons, due_append, due_lineRest, messageDue, typeDue]
              split <;> omega
            · simp only [due_cons, due_append, due_lineRest, messageDue, typeDue]
              split <;> omega
            · simp only [due_cons, due_append, due_lineRest, typeOfDue, parseErrorDue,
                typeName_lineType]
              split <;> omega
            · simp only [due_cons, due_append, due_lineRest, typeOfDue, attackDue,
                typeName_lineType]
              split <;> split <;> omega
          rw [actions_line]
          refine ⟨⟨?_, ?_, ?_, ?_⟩, hcounted, hlater⟩
          · simp only [List.append_eq, due_cons, due_append, due_lineRest, messageDue, typeDue]
            split <;> omega
          · simp only [List.append_eq, due_cons, due_append, due_lineRest, messageDue, typeDue]
            split <;> omega
          · rw [due_cons, due_cons]
            exact Nat.add_le_add_left hcounted.raw_le 0
          · rw [due_cons, due_cons]
            exact Nat.add_le_add_left hcounted.attack_le 0

/-! ## Counters at every moment -/

/-- Nothing is asked of the shared state, and the list of every thread is balanced. -/
theorem keeps_balanced (jobs : ι → List Job) :
    ThreadPool.Keeps move (fun _ : Shared ι => True)
      (fun i _ t => Balanced (if linesOf (jobs i) ≠ [] then 1 else 0) t.todo) where
  shared := fun _ _ _ _ _ => trivial
  mover := fun i s _ _ h => h.move i s
  other := fun _ _ _ _ _ _ _ _ h => h

/-- At the start every thread is balanced, with one line in hand at most. -/
theorem holds_balanced (app : App) (jobs : ι → List Job) :
    ThreadPool.Holds (fun _ => True)
      (fun i _ t => Balanced (if linesOf (jobs i) ≠ [] then 1 else 0) t.todo)
      (start app jobs) := by
  refine ⟨trivial, fun i => balanced_jobs fun hne => ?_⟩
  rw [if_pos hne]

variable [DecidableEq ι] [Fintype ι]

/-- The threads that handle lines. -/
def handlers (jobs : ι → List Job) : Finset ι := Finset.univ.filter fun i => linesOf (jobs i) ≠ []

/-- **A counter and what is due of it** add up to what the jobs call for. -/
theorem Counts.run {value : RuntimeStats → Nat} {each : Action → Nat} (h : Counts value each)
    (app : App) (jobs : ι → List Job) (schedule : List ι) :
    value (runSchedule (start app jobs) schedule).shared.app.stats +
        ∑ i, due each ((runSchedule (start app jobs) schedule).thread i).todo =
      value app.stats + ∑ i, due each ((jobs i).flatMap Job.actions) :=
  (keeps_balanced jobs).conserves (fun s => value s.app.stats) (fun t => due each t.todo)
    (fun i s t _ _ => h.move i s t) (holds_balanced app jobs) schedule

/-- The counters of a snapshot or of the process fit each other, up to `k` messages
that are counted in the total and not yet under their type. -/
structure Consistent (k : Nat) (stats : RuntimeStats) : Prop where
  parseErrors_le : stats.parseErrorsTotal ≤ stats.syslogMessagesByType.getD (str "raw") 0
  attacks_le : stats.wanAttacksTotal ≤ stats.syslogMessagesByType.getD (str "wan_attack") 0
  total_le : stats.syslogMessagesTotal ≤ typesTotal stats + k

/-- **The counters fit each other at every moment.** -/
theorem consistent_run {app : App} (hnew : app.stats = {}) (jobs : ι → List Job)
    (schedule : List ι) :
    Consistent (handlers jobs).card (runSchedule (start app jobs) schedule).shared.app.stats := by
  have hordered : ∀ i, Ordered (if linesOf (jobs i) ≠ [] then 1 else 0)
      ((runSchedule (start app jobs) schedule).thread i).todo := fun i =>
    (((keeps_balanced jobs).holds_run (holds_balanced app jobs) schedule).2 i).ordered
  have hhandlers : ∑ i, (if linesOf (jobs i) ≠ [] then 1 else 0) = (handlers jobs).card :=
    (Finset.card_filter _ _).symm
  constructor
  · have hraw := (counts_type (str "raw")).run app jobs schedule
    have herrors := counts_parseErrors.run app jobs schedule
    have hdue := Finset.sum_le_sum fun i (_ : i ∈ Finset.univ) => (hordered i).raw_le
    simp only [hnew, due_typeOf_jobs, due_parseError_jobs] at hraw herrors
    have hnone : (({} : RuntimeStats).syslogMessagesByType).getD (str "raw") 0 = 0 := rfl
    omega
  · have hwan := (counts_type (str "wan_attack")).run app jobs schedule
    have hattacks := counts_attacks.run app jobs schedule
    have hdue := Finset.sum_le_sum fun i (_ : i ∈ Finset.univ) => (hordered i).attack_le
    simp only [hnew, due_typeOf_jobs, due_attack_jobs] at hwan hattacks
    have hnone : (({} : RuntimeStats).syslogMessagesByType).getD (str "wan_attack") 0 = 0 := rfl
    omega
  · have htotal := counts_total.run app jobs schedule
    have htypes := counts_typesTotal.run app jobs schedule
    have hdue := Finset.sum_le_sum fun i (_ : i ∈ Finset.univ) => (hordered i).type_le
    rw [Finset.sum_add_distrib, hhandlers] at hdue
    simp only [hnew, due_message_jobs, due_type_jobs] at htotal htypes
    have hnone : typesTotal {} = 0 := rfl
    omega

/-! ## Snapshots -/

/-- The counters that a thread in the middle of a snapshot has still to read. -/
def Thread.unread (t : Thread) : List Counter :=
  match t.todo with
  | .readCounters fields :: _ => fields
  | _ => []

/-- The thread is not between two reads of a snapshot. -/
def Thread.Settled (t : Thread) : Prop := t.unread = [] ∨ t.unread = allCounters

/-- What a thread in the middle of a snapshot has read fits the present counts by
type, and a snapshot that is complete fits its own. -/
def Fits (k : Nat) (stats seen : RuntimeStats) (unread : List Counter) : Prop :=
  if unread = [] ∨ unread = allCounters then Consistent k seen
  else
    (.total ∉ unread → seen.syslogMessagesTotal ≤ typesTotal stats + k) ∧
      (.parseErrors ∉ unread →
        seen.parseErrorsTotal ≤ stats.syslogMessagesByType.getD (str "raw") 0) ∧
      (.attacks ∉ unread →
        seen.wanAttacksTotal ≤ stats.syslogMessagesByType.getD (str "wan_attack") 0)

omit [DecidableEq ι] [Fintype ι] in
/-- The counts by type never go down. -/
theorem typesTotal_le_move (i : ι) (s : Shared ι) (t : Thread) :
    typesTotal s.app.stats ≤ typesTotal (move i s t).1.app.stats ∧
      ∀ name, s.app.stats.syslogMessagesByType.getD name 0 ≤
        (move i s t).1.app.stats.syslogMessagesByType.getD name 0 := by
  rcases move_cases i s t with hrest | ⟨action, rest, -, -, hmove⟩
  · rw [hrest]
    exact ⟨Nat.le_refl _, fun _ => Nat.le_refl _⟩
  rw [hmove, perform_stats]
  cases action with
  | countType type =>
      have hsum := counts_typesTotal.count (.countType type) (by simp) s.app.stats
      refine ⟨by omega, fun name => ?_⟩
      have hname := (counts_type name).count (.countType type) (by simp) s.app.stats
      omega
  | _ => exact ⟨Nat.le_refl _, fun _ => Nat.le_refl _⟩

/-- What a reader has seen still fits when the counters have gone on. -/
theorem Fits.mono {k : Nat} {stats later seen : RuntimeStats} {unread : List Counter}
    (h : Fits k stats seen unread) (htotal : typesTotal stats ≤ typesTotal later)
    (hname : ∀ name, stats.syslogMessagesByType.getD name 0 ≤
      later.syslogMessagesByType.getD name 0) : Fits k later seen unread := by
  by_cases hsettled : unread = [] ∨ unread = allCounters
  · rw [Fits, if_pos hsettled] at h ⊢
    exact h
  · rw [Fits, if_neg hsettled] at h ⊢
    exact ⟨fun hread => (h.1 hread).trans (Nat.add_le_add_right htotal k),
      fun hread => (h.2.1 hread).trans (hname _), fun hread => (h.2.2 hread).trans (hname _)⟩

/-- Where a thread stands in its snapshots. -/
structure Reads (k : Nat) (stats : RuntimeStats) (t : Thread) : Prop where
  unread : t.unread <:+ allCounters
  later : ∀ fields, .readCounters fields ∈ t.todo.tail → fields = allCounters
  fits : Fits k stats t.counters t.unread

/-- A finished snapshot is consistent up to the lines in hand. -/
theorem Reads.consistent {k : Nat} {stats : RuntimeStats} {t : Thread} (h : Reads k stats t)
    (hsettled : t.Settled) : Consistent k t.counters := by
  have hfits := h.fits
  unfold Thread.Settled at hsettled
  rwa [Fits, if_pos hsettled] at hfits

/-- A thread with whole snapshots before it. -/
theorem reads_of_consistent {k : Nat} (stats : RuntimeStats) {t : Thread}
    (hall : ∀ fields, .readCounters fields ∈ t.todo → fields = allCounters)
    (h : Consistent k t.counters) : Reads k stats t := by
  have hsettled : t.Settled := by
    unfold Thread.Settled Thread.unread
    split
    · rename_i fields rest htodo
      exact Or.inr (hall fields (htodo ▸ List.mem_cons_self))
    · exact Or.inl rfl
  refine ⟨?_, fun fields hmem => hall fields (List.mem_of_mem_tail hmem), ?_⟩
  · rcases hsettled with hnone | hfull
    · rw [hnone]
      exact List.nil_suffix
    · rw [hfull]
  · unfold Thread.Settled at hsettled
    rwa [Fits, if_pos hsettled]

/-- One more counter is read. -/
theorem fits_read {k : Nat} {stats seen : RuntimeStats} {field : Counter} {fields : List Counter}
    (hstats : Consistent k stats) (hsuffix : field :: fields <:+ allCounters)
    (h : Fits k stats seen (field :: fields)) :
    Fits k stats (readInto stats seen field) fields := by
  simp only [allCounters, List.suffix_cons_iff, List.suffix_nil, List.cons.injEq, reduceCtorEq,
    or_false] at hsuffix
  rcases hsuffix with ⟨rfl, rfl⟩ | ⟨rfl, rfl⟩ | ⟨rfl, rfl⟩ | ⟨rfl, rfl⟩
  · rw [Fits, if_neg (by decide)]
    exact ⟨fun _ => hstats.total_le, by simp, by simp⟩
  · rw [Fits, if_neg (by decide)] at h ⊢
    exact ⟨fun _ => h.1 (by decide), fun _ => hstats.parseErrors_le, by simp⟩
  · rw [Fits, if_neg (by decide)] at h ⊢
    exact ⟨fun _ => h.1 (by decide), fun _ => h.2.1 (by decide), fun _ => hstats.attacks_le⟩
  · rw [Fits, if_neg (by decide)] at h
    rw [Fits, if_pos (Or.inl rfl)]
    exact ⟨h.2.1 (by decide), h.2.2 (by decide), h.1 (by decide)⟩

/-- Only reads change what a thread has read. -/
theorem perform_counters {ι : Type} (i : ι) (s : Shared ι) (t : Thread) {action : Action}
    (h : ∀ fields, action ≠ .readCounters fields) :
    (perform i s t action).2.counters = t.counters := by
  cases action with
  | readCounters fields => exact absurd rfl (h fields)
  | announce now =>
      simp only [perform]
      cases t.gone <;> rfl
  | insertHistory =>
      simp only [perform]
      cases t.history <;> rfl
  | _ => rfl

/-- No other action leads to a read. -/
theorem Follows.no_read {s : StateStore} {action : Action} {more : List Action}
    (h : Follows s action more)
    (hother : ∀ fields, action ≠ .readCounters fields) (fields : List Counter) :
    .readCounters fields ∉ more := by
  cases h with
  | done _ => simp
  | announce now => simp
  | insertHistory => simp
  | readCounters field fields => exact absurd rfl (hother _)
  | makeEvent clock line peerIp =>
      intro hmem
      exact absurd (callActions_straight hmem) Bool.false_ne_true

/-- A thread moves on in its snapshots. -/
theorem Reads.move {ι : Type} {k : Nat} {s : Shared ι} {t : Thread} (h : Reads k s.app.stats t)
    (hstats : Consistent k s.app.stats) (i : ι) :
    Reads k (move i s t).1.app.stats (move i s t).2 := by
  rcases move_cases i s t with hrest | ⟨action, rest, htodo, -, hmove⟩
  · rw [hrest]
    exact h
  rw [hmove]
  have hlater : ∀ fields, .readCounters fields ∈ rest → fields = allCounters := by
    intro fields hmem
    exact h.later fields (by rw [htodo]; exact hmem)
  by_cases hread : ∃ fields, action = .readCounters fields
  · obtain ⟨fields, rfl⟩ := hread
    have hunread : t.unread = fields := by
      rw [Thread.unread, htodo]
    cases fields with
    | nil => exact reads_of_consistent _ hlater (h.consistent (Or.inl hunread))
    | cons field fields =>
        have hsuffix := h.unread
        have hfits := h.fits
        rw [hunread] at hsuffix hfits
        exact ⟨(List.suffix_cons field fields).trans hsuffix, hlater,
          fits_read hstats hsuffix hfits⟩
  · have hother : ∀ fields, action ≠ .readCounters fields := fun fields heq =>
      hread ⟨fields, heq⟩
    obtain ⟨more, hfollows, hmore⟩ := perform_todo i s { t with todo := rest } action
    refine reads_of_consistent _ (fun fields hmem => ?_) ?_
    · rw [hmore] at hmem
      rcases List.mem_append.mp hmem with hnew | hold
      · exact absurd hnew (hfollows.no_read hother fields)
      · exact hlater fields hold
    · rw [perform_counters i s _ hother]
      refine h.consistent (Or.inl ?_)
      rw [Thread.unread, htodo]
      cases action with
      | readCounters fields => exact absurd rfl (hother fields)
      | _ => rfl

/-- **Snapshots under any schedule.** -/
theorem reads_run {app : App} (hnew : app.stats = {}) (jobs : ι → List Job) (schedule : List ι)
    (i : ι) :
    Reads (handlers jobs).card (runSchedule (start app jobs) schedule).shared.app.stats
      ((runSchedule (start app jobs) schedule).thread i) := by
  induction schedule using List.reverseRecOn generalizing i with
  | nil =>
      refine reads_of_consistent _ (fun fields hmem => ?_)
        ⟨Nat.le_refl _, Nat.le_refl _, Nat.zero_le _⟩
      obtain ⟨job, -, hjob⟩ := List.mem_flatMap.mp hmem
      cases job with
      | handleLog clock line peerIp =>
          simp only [Job.actions] at hjob
          split at hjob <;> simp at hjob
      | cleanup clock => simp [Job.actions] at hjob
      | snapshot => simpa [Job.actions] using hjob
  | append_singleton schedule j ih =>
      have hstats := consistent_run hnew jobs schedule
      rw [runSchedule, Runs.run_concat]
      rw [runSchedule] at hstats ih
      generalize Runs.run (ThreadPool.step move) (start app jobs) schedule = p at hstats ih ⊢
      by_cases hij : i = j
      · subst hij
        rw [ThreadPool.step_thread_self]
        exact (ih i).move hstats i
      · rw [ThreadPool.step_thread_of_ne move p hij]
        obtain ⟨htotal, hname⟩ := typesTotal_le_move j p.shared (p.thread j)
        exact ⟨(ih i).unread, (ih i).later, (ih i).fits.mono htotal hname⟩

/-- When every thread is through, a counter is what the jobs call for. -/
theorem Counts.finished {value : RuntimeStats → Nat} {each : Action → Nat} (h : Counts value each)
    (app : App) {jobs : ι → List Job} {schedule : List ι}
    (hfinished : Finished (runSchedule (start app jobs) schedule)) :
    value (runSchedule (start app jobs) schedule).shared.app.stats =
      value app.stats + ∑ i, due each ((jobs i).flatMap Job.actions) := by
  rw [← h.run app jobs schedule]
  have hnone : ∀ i, due each ((runSchedule (start app jobs) schedule).thread i).todo = 0 := by
    intro i
    rw [hfinished i]
    rfl
  simp only [hnone, Finset.sum_const_zero, Nat.add_zero]

/-- **Counters under concurrent threads.**  Whatever lines the threads of a fresh process
handle, beside cleanup cycles and snapshots of other threads, and in whatever order their
steps come: at every moment, and in every snapshot that is complete, the parse errors are
at most the messages of type `raw`, the attacks at most those of type `wan_attack`, and
the total is ahead of the counts by type by at most one message for each thread that
handles lines.  When every thread is through, no message was lost or counted twice. -/
theorem counters_of_concurrent_threads (config : Config) (state : StateStore) (db : Database)
    (jobs : ι → List Job) (schedule : List ι) :
    let p := runSchedule (start { config := config, state := state, db := db } jobs) schedule
    let stats := p.shared.app.stats
    Consistent (handlers jobs).card stats ∧
      (∀ i, (p.thread i).Settled → Consistent (handlers jobs).card (p.thread i).counters) ∧
      (Finished p →
        stats.syslogMessagesTotal = ∑ i, (linesOf (jobs i)).length ∧
        typesTotal stats = stats.syslogMessagesTotal ∧
        (∀ type, stats.syslogMessagesByType.getD type 0 = ∑ i, countLines type (jobs i)) ∧
        stats.parseErrorsTotal = ∑ i, countLines (str "raw") (jobs i) ∧
        stats.wanAttacksTotal = ∑ i, countLines (str "wan_attack") (jobs i)) := by
  intro p stats
  refine ⟨consistent_run rfl jobs schedule,
    fun i hsettled => (reads_run rfl jobs schedule i).consistent hsettled, fun hfinished => ?_⟩
  have htotal : stats.syslogMessagesTotal = ∑ i, (linesOf (jobs i)).length := by
    rw [counts_total.finished _ hfinished]
    simp only [due_message_jobs, Nat.zero_add]
  refine ⟨htotal, ?_, fun type => ?_, ?_, ?_⟩
  · rw [htotal, counts_typesTotal.finished _ hfinished]
    simp only [due_type_jobs]
    exact Nat.zero_add _
  · rw [(counts_type type).finished _ hfinished]
    simp only [due_typeOf_jobs]
    exact Nat.zero_add _
  · rw [counts_parseErrors.finished _ hfinished]
    simp only [due_parseError_jobs, Nat.zero_add]
  · rw [counts_attacks.finished _ hfinished]
    simp only [due_attack_jobs, Nat.zero_add]

end Threads

end Netmon
