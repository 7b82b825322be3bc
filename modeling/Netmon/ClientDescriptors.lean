import Netmon.Descriptors
import Netmon.Runs
import Netmon.WebAccess

/-!
# Descriptors of the web server's connections

Every accepted connection is served by a thread of its own, which keeps the
descriptor number that `accept` returned and closes it as its last action.  A
broadcast closes the numbers of the WebSocket clients to which it could not
send; the threads of these clients learn of it only when they next read.  By
then the kernel may have given the number to another connection.

The actions of a thread are those of `handleClient`.  Reading changes nothing
here: what a connection received is part of its peer.  To `stop()` the clients
are what they are to a broadcast that fails for all of them.
-/

namespace Netmon

namespace WebServer

open Descriptors (Stage)

/-! ## The actions of a connection -/

/-- Where the thread of a connection stands, by the actions it has left. -/
def stage (actions : List ClientAction) : Stage :=
  if actions = [] then .finished
  else if .addWebSocketClient ∈ actions then .serving
  else if .removeWebSocketClient ∈ actions then .client
  else .closing

/-- The lists of actions that a thread can have left. -/
inductive Plan : List ClientAction → Prop
  | finished : Plan []
  | close : Plan [.close]
  | remove : Plan [.removeWebSocketClient, .close]
  | add {rest : List ClientAction} (hrest : Plan rest) (hclient : stage rest = .client) :
      Plan (.addWebSocketClient :: rest)
  | send {rest : List ClientAction} (bytes : Str) (hrest : Plan rest) (hne : rest ≠ []) :
      Plan (.send bytes :: rest)

/-- Sending is no stage of its own. -/
theorem stage_send {rest : List ClientAction} (bytes : Str) (h : rest ≠ []) :
    stage (.send bytes :: rest) = stage rest := by
  simp [stage, h]

@[simp] theorem stage_add (rest : List ClientAction) :
    stage (.addWebSocketClient :: rest) = .serving := by
  simp [stage]

@[simp] theorem stage_nil : stage [] = .finished := rfl

@[simp] theorem stage_eq_finished {actions : List ClientAction} :
    stage actions = .finished ↔ actions = [] := by
  unfold stage
  split
  · simp [*]
  · split
    · simp [*]
    · split <;> simp [*]

/-- **What a thread does next.**  It sends, joins the clients, leaves them, or
closes its number and is finished. -/
theorem Plan.next {action : ClientAction} {rest : List ClientAction}
    (h : Plan (action :: rest)) :
    Plan rest ∧
      ((∃ bytes, action = .send bytes ∧ stage rest = stage (action :: rest)) ∨
        (action = .addWebSocketClient ∧ stage (action :: rest) = .serving ∧
          stage rest = .client) ∨
        (action = .removeWebSocketClient ∧ stage (action :: rest) = .client ∧
          stage rest = .closing) ∨
        (action = .close ∧ stage (action :: rest) = .closing ∧ stage rest = .finished)) := by
  cases h with
  | close => exact ⟨.finished, Or.inr (Or.inr (Or.inr (by decide)))⟩
  | remove => exact ⟨.close, Or.inr (Or.inr (Or.inl (by decide)))⟩
  | add hrest hclient => exact ⟨hrest, Or.inr (Or.inl ⟨rfl, stage_add rest, hclient⟩)⟩
  | send bytes hrest hne =>
      exact ⟨hrest, Or.inl ⟨bytes, rfl, (stage_send bytes hne).symm⟩⟩

/-- The actions of a connection from its start: it has a plan and may become a
client, or only has to be closed. -/
def Opening (actions : List ClientAction) : Prop :=
  Plan actions ∧ (stage actions = .serving ∨ stage actions = .closing)

/-- A reply and a close are how a connection may begin. -/
theorem opening_reply (bytes : Str) : Opening [.send bytes, .close] :=
  ⟨.send bytes .close (by simp), Or.inr (by simp [stage])⟩

/-- What a request for a web socket leads to is how a connection may begin. -/
theorem handleWebSocket_opening (config : Config) (delivered : Bool) (request : Request) :
    Opening (handleWebSocket config delivered request) := by
  unfold handleWebSocket
  dsimp only
  split
  · exact opening_reply _
  · split
    · exact opening_reply _
    · split
      · exact opening_reply _
      · refine ⟨.send _ (.add (.send _ .remove (by simp)) ?_) (by simp), Or.inl ?_⟩
        · simp [stage]
        · simp [stage]

/-- What any request leads to is how a connection may begin. -/
theorem handleClient_opening (config : Config) (files : Files) (t : Telemetry)
    (delivered : Bool) (chunks : List Str) :
    Opening (handleClient config files t delivered chunks) := by
  unfold handleClient
  split
  · exact ⟨.close, Or.inr (by decide)⟩
  · split
    · exact opening_reply _
    · split
      · exact handleWebSocket_opening config delivered _
      · exact opening_reply _

/-! ## Connections side by side -/

/-- The other end of a connection, and what the server reads while it answers. -/
structure Peer where
  files : Files
  telemetry : Telemetry
  delivered : Bool
  chunks : List Str

/-- The descriptors that are open, with the connection each belongs to; for every
connection the number its thread keeps and the actions it has left; and
`ws_clients_`.  Connections are numbered as they are accepted. -/
structure Connections where
  table : Nat → Option Nat
  number : Nat → Nat
  actions : Nat → List ClientAction
  accepted : Nat
  wsClients : Finset Nat

/-- One atomic step: the kernel gives a number to a new connection, the thread of
a connection reads or takes its next action, or a broadcast fails for some
numbers. -/
inductive ServerStep where
  | accept (fd : Nat) (peer : Peer)
  | receive (connection : Nat)
  | act (connection : Nat)
  | broadcast (failed : List Nat)

namespace Connections

/-- No connection has been accepted. -/
def start : Connections where
  table := fun _ => none
  number := fun _ => 0
  actions := fun _ => []
  accepted := 0
  wsClients := ∅

/-- The effect of an action of the thread of a connection. -/
def perform (c : Nat) (s : Connections) : ClientAction → Connections
  | .send _ => s
  | .addWebSocketClient => { s with wsClients := insert (s.number c) s.wsClients }
  | .removeWebSocketClient => { s with wsClients := s.wsClients.erase (s.number c) }
  | .close => { s with table := Function.update s.table (s.number c) none }

/-- A number that is in use is not given out, and a finished thread does
nothing. -/
def step (config : Config) (s : Connections) : ServerStep → Connections
  | .accept fd peer =>
      match s.table fd with
      | some _ => s
      | none =>
          { s with
            table := Function.update s.table fd (some s.accepted)
            number := Function.update s.number s.accepted fd
            actions := Function.update s.actions s.accepted
              (handleClient config peer.files peer.telemetry peer.delivered peer.chunks)
            accepted := s.accepted + 1 }
  | .receive _ => s
  | .act c =>
      match s.actions c with
      | [] => s
      | action :: rest =>
          { s.perform c action with actions := Function.update s.actions c rest }
  | .broadcast failed =>
      { s with
        table := fun fd => if fd ∈ s.wsClients ∧ fd ∈ failed then none else s.table fd
        wsClients := s.wsClients.filter (· ∉ failed) }

/-- The thread that takes a step with its number: it sends, reads, joins or
leaves the clients, or closes. -/
def user : ServerStep → Option Nat
  | .receive c => some c
  | .act c => some c
  | _ => none

/-- A step does not touch a number that belongs to another connection. -/
def OnOwnNumber (s : Connections) (i : ServerStep) : Prop :=
  ∀ c ∈ user i, s.actions c ≠ [] → ∀ c', s.table (s.number c) = some c' → c' = c

/-- `ws_clients_` has only numbers of open WebSocket connections. -/
def ClientsOpen (s : Connections) : Prop :=
  ∀ fd ∈ s.wsClients, ∃ c, s.table fd = some c ∧ stage (s.actions c) = .client

/-- The kernel gives out an unused number only when no unfinished thread keeps
it. -/
def FreshNumber (s : Connections) : ServerStep → Prop
  | .accept fd _ => s.table fd = none → ∀ c, s.actions c ≠ [] → s.number c ≠ fd
  | _ => True

/-- A broadcast reaches all the clients. -/
def ReachesAll (s : Connections) : ServerStep → Prop
  | .broadcast failed => ∀ fd ∈ s.wsClients, fd ∉ failed
  | _ => True

/-- An unfinished thread still has its number: it was not closed by another. -/
def NumbersHeld (s : Connections) : Prop :=
  ∀ c, s.actions c ≠ [] → s.table (s.number c) = some c

/-! ## The numbers and their owners -/

/-- The connections as a table of descriptors. -/
def view (s : Connections) : Descriptors.State Nat Nat where
  table := s.table
  number := s.number
  stage := fun c => stage (s.actions c)
  clients := s.wsClients

/-- The step on the numbers, if it is one. -/
def viewStep (config : Config) (s : Connections) :
    ServerStep → Option (Descriptors.Step Nat Nat)
  | .accept fd peer => some (.accept fd s.accepted
      (stage (handleClient config peer.files peer.telemetry peer.delivered peer.chunks)))
  | .receive _ => none
  | .act c =>
      match s.actions c with
      | .addWebSocketClient :: _ => some (.join c)
      | .removeWebSocketClient :: _ => some (.leave c)
      | .close :: _ => some (.close c)
      | _ => none
  | .broadcast failed => some (.drop failed)

/-- What holds whatever the kernel does: every thread follows a plan, and there is
none for a connection that is still to come. -/
structure Planned (s : Connections) : Prop where
  plan : ∀ c, Plan (s.actions c)
  unborn : ∀ c, s.accepted ≤ c → s.actions c = []

/-- A connection that goes on changes its own stage only. -/
theorem stage_update (actions : Nat → List ClientAction) (c : Nat) (rest : List ClientAction) :
    (fun c' => stage (Function.update actions c rest c')) =
      Function.update (fun c' => stage (actions c')) c (stage rest) := by
  funext c'
  by_cases h : c' = c
  · subst h
    simp
  · simp [h]

/-- **The server is a user of descriptors.**  Each of its steps is one of theirs,
or none, and fits the stage of its owner. -/
theorem Planned.view_step {s : Connections} (h : s.Planned) (config : Config) (i : ServerStep) :
    (s.viewStep config i = none ∧ (s.step config i).view = s.view) ∨
      ∃ j, s.viewStep config i = some j ∧ Descriptors.Allowed s.view j ∧
        (s.step config i).view = Descriptors.step s.view j := by
  cases i with
  | accept fd peer =>
      refine Or.inr ⟨_, rfl, ⟨?_, (handleClient_opening config _ _ _ _).2⟩, ?_⟩
      · simp [view, h.unborn s.accepted (le_refl _)]
      · cases htable : s.table fd with
        | some c => simp [step, Descriptors.step, view, htable]
        | none => simp [step, Descriptors.step, view, htable, stage_update]
  | receive c => exact Or.inl ⟨rfl, rfl⟩
  | act c =>
      cases hactions : s.actions c with
      | nil => exact Or.inl ⟨by simp [viewStep, hactions], by simp [step, hactions]⟩
      | cons action rest =>
          have hplan := h.plan c
          rw [hactions] at hplan
          rcases hplan.next.2 with ⟨bytes, rfl, hsame⟩ | ⟨rfl, -, hto⟩ | ⟨rfl, hfrom, hto⟩ |
            ⟨rfl, hfrom, hto⟩
          · refine Or.inl ⟨by simp [viewStep, hactions], ?_⟩
            have hstage : (fun c' => stage (s.actions c')) c = stage rest := by
              rw [hsame, ← hactions]
            simp [step, perform, view, hactions, stage_update, ← hstage]
          · refine Or.inr ⟨.join c, by simp [viewStep, hactions], ?_, ?_⟩
            · simp [Descriptors.Allowed, view, hactions]
            · simp [step, perform, Descriptors.step, view, hactions, stage_update, hto]
          · refine Or.inr ⟨.leave c, by simp [viewStep, hactions], ?_, ?_⟩
            · simpa [Descriptors.Allowed, view, hactions] using hfrom
            · simp [step, perform, Descriptors.step, view, hactions, stage_update, hto]
          · refine Or.inr ⟨.close c, by simp [viewStep, hactions], ?_, ?_⟩
            · simpa [Descriptors.Allowed, view, hactions] using hfrom
            · simp [step, perform, Descriptors.step, view, hactions, stage_update, hto]
  | broadcast failed => exact Or.inr ⟨_, rfl, trivial, rfl⟩

/-- Every connection stays on the plan of its thread. -/
theorem Planned.next {s : Connections} (h : s.Planned) (config : Config) (i : ServerStep) :
    (s.step config i).Planned := by
  cases i with
  | accept fd peer =>
      cases htable : s.table fd with
      | some c => simpa [step, htable] using h
      | none =>
          simp only [step, htable]
          refine ⟨fun c => ?_, fun c hc => ?_⟩
          · by_cases hne : c = s.accepted
            · subst hne
              simpa using (handleClient_opening config _ _ _ _).1
            · simpa [hne] using h.plan c
          · have hlater : s.accepted < c := hc
            simpa [hlater.ne'] using h.unborn c hlater.le
  | receive c => exact h
  | act c =>
      cases hactions : s.actions c with
      | nil => simpa [step, hactions] using h
      | cons action rest =>
          have hplan := h.plan c
          rw [hactions] at hplan
          have hborn : ¬ s.accepted ≤ c := by
            intro hle
            rw [h.unborn c hle] at hactions
            exact absurd hactions (by simp)
          have haccepted : (s.perform c action).accepted = s.accepted := by
            cases action <;> rfl
          simp only [step, hactions]
          refine ⟨fun c' => ?_, fun c' hc' => ?_⟩
          · by_cases hne : c' = c
            · subst hne
              simpa using hplan.next.1
            · simpa [hne] using h.plan c'
          · have hlater : s.accepted ≤ c' := haccepted ▸ hc'
            have hne : c' ≠ c := fun heq => hborn (heq ▸ hlater)
            simpa [hne] using h.unborn c' hlater
  | broadcast failed => exact ⟨h.plan, h.unborn⟩

/-- A thread's action is at most one of three steps on the numbers. -/
theorem viewStep_act {s : Connections} {config : Config} {c : Nat}
    {j : Descriptors.Step Nat Nat} (h : j ∈ s.viewStep config (.act c)) :
    j = .join c ∨ j = .leave c ∨ j = .close c := by
  simp only [viewStep] at h
  split at h <;> simp at h <;> simp [← h]

/-- The kernel gives out a free number, in the terms of the table. -/
theorem freshNumber_iff {s : Connections} (config : Config) {i : ServerStep} :
    s.FreshNumber i ↔ ∀ j ∈ s.viewStep config i, Descriptors.Fresh s.view j := by
  cases i with
  | accept fd peer => simp [FreshNumber, viewStep, Descriptors.Fresh, view]
  | receive c => simp [FreshNumber, viewStep]
  | act c =>
      refine iff_of_true trivial fun j hj => ?_
      rcases viewStep_act hj with rfl | rfl | rfl <;> trivial
  | broadcast failed => simp [FreshNumber, viewStep, Descriptors.Fresh]

/-- A broadcast reaches all clients, in the terms of the table. -/
theorem reachesAll_iff {s : Connections} (config : Config) {i : ServerStep} :
    s.ReachesAll i ↔ ∀ j ∈ s.viewStep config i, Descriptors.Sparing s.view j := by
  cases i with
  | accept fd peer => simp [ReachesAll, viewStep, Descriptors.Sparing]
  | receive c => simp [ReachesAll, viewStep]
  | act c =>
      refine iff_of_true trivial fun j hj => ?_
      rcases viewStep_act hj with rfl | rfl | rfl <;> trivial
  | broadcast failed => simp [ReachesAll, viewStep, Descriptors.Sparing, view]

/-- What the allowed steps on the numbers keep, the server keeps. -/
theorem Planned.keeps {s : Connections} (h : s.Planned) {config : Config} {i : ServerStep}
    {P : Descriptors.State Nat Nat → Prop} (hs : P s.view)
    (hkeep : ∀ j ∈ s.viewStep config i, Descriptors.Allowed s.view j →
      P (Descriptors.step s.view j)) : P (s.step config i).view := by
  rcases h.view_step config i with ⟨-, hsame⟩ | ⟨j, hj, hallowed, hstep⟩
  · rwa [hsame]
  · rw [hstep]
    exact hkeep j hj hallowed

/-- What a step on the numbers must meet to lead to a property, a step of the
server that leads there meets. -/
theorem Planned.meets {s : Connections} (h : s.Planned) {config : Config} {i : ServerStep}
    {P : Descriptors.State Nat Nat → Prop} {Q : Descriptors.Step Nat Nat → Prop}
    (hP : P (s.step config i).view)
    (hmeet : ∀ j, Descriptors.Allowed s.view j → P (Descriptors.step s.view j) → Q j) :
    ∀ j ∈ s.viewStep config i, Q j := by
  intro j hj
  rcases h.view_step config i with ⟨hnone, -⟩ | ⟨j', hj', hallowed, hstep⟩
  · rw [hnone] at hj
    exact absurd hj (by simp)
  · rw [hj'] at hj
    cases hj
    exact hmeet j hallowed (hstep ▸ hP)

/-- Every connection works on its own number, in the terms of the table. -/
theorem onOwnNumber_iff {s : Connections} :
    (∀ i, s.OnOwnNumber i) ↔ Descriptors.Sole s.view := by
  constructor
  · intro h c hc
    exact h (.receive c) c rfl (by simpa [view] using hc)
  · intro h i c _ hc
    exact h c (by simpa [view] using hc)

/-- Every registered number is held, in the terms of the table. -/
theorem numbersHeld_iff {s : Connections} : s.NumbersHeld ↔ Descriptors.Held s.view := by
  simp [NumbersHeld, Descriptors.Held, view]

/-- The invariant of the server: plans, and the numbers with their owners. -/
structure Inv (s : Connections) : Prop where
  planned : s.Planned
  numbers : Descriptors.Inv s.view

/-- The invariant holds at the start. -/
theorem inv_start : start.Inv where
  planned := ⟨fun _ => .finished, fun _ _ => rfl⟩
  numbers := Descriptors.inv_start _

/-- A step keeps it, if the kernel gives out free numbers. -/
theorem Inv.next {s : Connections} (h : s.Inv) {config : Config} {i : ServerStep}
    (hi : s.FreshNumber i) : (s.step config i).Inv where
  planned := h.planned.next config i
  numbers := h.planned.keeps h.numbers fun j hj hallowed =>
    h.numbers.next hallowed ((freshNumber_iff config).mp hi j hj)

/-- While every thread has its number, the numbers given out are fresh. -/
theorem freshNumber_of_held {s : Connections} (h : s.NumbersHeld) (i : ServerStep) :
    s.FreshNumber i :=
  (freshNumber_iff {}).mpr fun j _ => (numbersHeld_iff.mp h).fresh j

/-- A step keeps the registered numbers held, if broadcasts reach all clients. -/
theorem NumbersHeld.next {s : Connections} (h : s.NumbersHeld) (hplanned : s.Planned)
    {config : Config} {i : ServerStep} (hi : s.ReachesAll i) : (s.step config i).NumbersHeld := by
  rw [numbersHeld_iff] at h ⊢
  exact hplanned.keeps h fun j hj hallowed =>
    h.next hallowed ((reachesAll_iff config).mp hi j hj)

/-- **Descriptors and their threads.**  In every run, no thread can ever come to
use a number that belongs to another connection and `ws_clients_` has only
numbers of open WebSocket connections, exactly when the kernel never gives out a
number that an unfinished thread keeps.  And no number is ever closed but by its
own thread exactly when every broadcast reaches all the clients. -/
theorem own_numbers_iff (config : Config) (steps : List ServerStep) :
    ((∀ before after, steps = before ++ after →
        (∀ i, (Runs.run (step config) start before).OnOwnNumber i) ∧
          (Runs.run (step config) start before).ClientsOpen) ↔
      Runs.Conforms (step config) FreshNumber start steps) ∧
    ((∀ before after, steps = before ++ after →
        (Runs.run (step config) start before).NumbersHeld) ↔
      Runs.Conforms (step config) ReachesAll start steps) := by
  constructor
  · refine Runs.conforms_iff_of_invariant Inv
      (fun s => (∀ i, s.OnOwnNumber i) ∧ s.ClientsOpen)
      (fun s h => ⟨onOwnNumber_iff.mpr h.numbers.sole, h.numbers.clients_open⟩)
      (fun s i h => h.next) ?_ inv_start steps
    rintro s i h ⟨hown, -⟩
    exact (freshNumber_iff config).mpr
      (h.planned.meets (onOwnNumber_iff.mp hown) fun j => Descriptors.fresh_of_sole)
  · refine Runs.conforms_iff_of_invariant (fun s => s.Inv ∧ s.NumbersHeld) NumbersHeld
      (fun s h => h.2) ?_ ?_ ⟨inv_start, nofun⟩ steps
    · rintro s i ⟨hinv, hheld⟩ hi
      exact ⟨hinv.next (freshNumber_of_held hheld i), hheld.next hinv.planned hi⟩
    · rintro s i ⟨hinv, -⟩ hheld
      exact (reachesAll_iff config).mpr
        (hinv.planned.meets (numbersHeld_iff.mp hheld) fun j _ =>
          hinv.numbers.sparing_of_held)

/-- A peer that asks for a WebSocket. -/
def upgradingPeer : Peer where
  files := fun _ => none
  telemetry := idleTelemetry 0
  delivered := true
  chunks := [str "GET /ws HTTP/1.1\r\nUpgrade: websocket\r\nSec-WebSocket-Key: a2V5\r\n\r\n"]

/-- A client joins with the number 5, a broadcast to it fails, and the kernel
gives its number to the next connection. -/
def reusedNumber : List ServerStep :=
  [.accept 5 upgradingPeer, .act 0, .act 0, .act 0, .broadcast [5], .accept 5 upgradingPeer]

/-- The first thread goes on to read from the second connection.  It takes the
number out of the clients, the second connection joins them, and the first
thread closes it: the clients have a closed number. -/
theorem old_thread_closes_new_connection :
    let reused := Runs.run (step {}) start reusedNumber
    let after := Runs.run (step {}) reused [.receive 0, .act 0, .act 1, .act 1, .act 0]
    reused.table 5 = some 1 ∧ ¬ reused.OnOwnNumber (.receive 0) ∧
      ¬ reused.OnOwnNumber (.act 0) ∧ after.table 5 = none ∧ after.actions 1 ≠ [] ∧
      ¬ after.ClientsOpen := by
  intro reused after
  have hnumber : reused.number 0 = 5 := by decide +kernel
  have htable : reused.table 5 = some 1 := by decide +kernel
  have hbusy : reused.actions 0 ≠ [] := by decide +kernel
  have hclosed : after.table 5 = none := by decide +kernel
  have hclient : 5 ∈ after.wsClients := by decide +kernel
  refine ⟨htable, fun hown => ?_, fun hown => ?_, hclosed, by decide +kernel, fun hopen => ?_⟩
  · exact absurd (hown 0 rfl hbusy 1 (hnumber ▸ htable)) (by decide)
  · exact absurd (hown 0 rfl hbusy 1 (hnumber ▸ htable)) (by decide)
  · obtain ⟨c, hc, -⟩ := hopen 5 hclient
    rw [hclosed] at hc
    exact absurd hc (by simp)

end Connections

end WebServer

end Netmon
