import Netmon.FiniteMap

/-!
# Reusable numbers and their owners

A table gives numbers to owners, and a number that is closed can be given out
again.  Every owner keeps the number it was given until it is finished, and
closes it at its end.  On the way it may become a client; the numbers of the
clients are in a shared set, and another party may close some of them and take
them out of the set without telling the owner.

An owner that goes on with a number closed behind its back is harmless as long
as the number is not given out again.  `Fresh` is that condition; under it no
owner ever holds a number that belongs to another (`Inv.sole`) and the set has
only open numbers of clients (`Inv.clients_open`), and without it the first fails
at once (`fresh_of_sole`).  That every number is closed by its owner alone needs
more: nobody may close the numbers of clients (`Sparing`).
-/

namespace Descriptors

/-- Where an owner stands: it may still become a client, is one, only has to
close its number, or is finished. -/
inductive Stage where
  | serving
  | client
  | closing
  | finished
  deriving DecidableEq

/-- The table of open descriptors, the number that each owner remembers, and the
registered clients. -/
structure State (φ κ : Type) where
  table : φ → Option κ
  number : κ → φ
  stage : κ → Stage
  clients : Finset φ

inductive Step (φ κ : Type) where
  | accept (fd : φ) (owner : κ) (stage : Stage)
  | join (owner : κ)
  | leave (owner : κ)
  | close (owner : κ)
  | drop (failed : List φ)

variable {φ κ : Type} [DecidableEq φ] [DecidableEq κ]

def step (s : State φ κ) : Step φ κ → State φ κ
  | .accept fd owner stage =>
      match s.table fd with
      | some _ => s
      | none =>
          { s with
            table := Function.update s.table fd (some owner)
            number := Function.update s.number owner fd
            stage := Function.update s.stage owner stage }
  | .join owner =>
      { s with
        stage := Function.update s.stage owner .client
        clients := insert (s.number owner) s.clients }
  | .leave owner =>
      { s with
        stage := Function.update s.stage owner .closing
        clients := s.clients.erase (s.number owner) }
  | .close owner =>
      { s with
        table := Function.update s.table (s.number owner) none
        stage := Function.update s.stage owner .finished }
  | .drop failed =>
      { s with
        table := fun fd => if fd ∈ s.clients ∧ fd ∈ failed then none else s.table fd
        clients := s.clients.filter (· ∉ failed) }

/-- The step fits the stage of its owner. -/
def Allowed (s : State φ κ) : Step φ κ → Prop
  | .accept _ owner stage => s.stage owner = .finished ∧ (stage = .serving ∨ stage = .closing)
  | .join owner => s.stage owner = .serving
  | .leave owner => s.stage owner = .client
  | .close owner => s.stage owner = .closing
  | .drop _ => True

/-- An unused number is given out only when no unfinished owner keeps it. -/
def Fresh (s : State φ κ) : Step φ κ → Prop
  | .accept fd _ _ => s.table fd = none → ∀ c, s.stage c ≠ .finished → s.number c ≠ fd
  | _ => True

/-- No number of a client is closed by another party. -/
def Sparing (s : State φ κ) : Step φ κ → Prop
  | .drop failed => ∀ fd ∈ s.clients, fd ∉ failed
  | _ => True

/-- The number of an unfinished owner belongs to no other. -/
def Sole (s : State φ κ) : Prop :=
  ∀ c, s.stage c ≠ .finished → ∀ c', s.table (s.number c) = some c' → c' = c

/-- The number of an unfinished owner is open, and its own. -/
def Held (s : State φ κ) : Prop :=
  ∀ c, s.stage c ≠ .finished → s.table (s.number c) = some c

/-- The set of the clients has open numbers of clients only. -/
def ClientsOpen (s : State φ κ) : Prop :=
  ∀ fd ∈ s.clients, ∃ c, s.table fd = some c ∧ s.stage c = .client

/-- What holds while the numbers given out are fresh.  An open number is kept by
its owner, and nobody closes the number of an owner that is still serving. -/
structure Inv (s : State φ κ) : Prop where
  kept : ∀ fd c, s.table fd = some c → s.stage c ≠ .finished ∧ s.number c = fd
  sole : Sole s
  held : ∀ c, s.stage c = .serving → s.table (s.number c) = some c
  clients_open : ClientsOpen s

/-! ## One step at a time -/

/-- A connection on a free number keeps the invariant. -/
theorem Inv.accept {s : State φ κ} (h : Inv s) {fd : φ} {owner : κ} {stage : Stage}
    (hnew : s.stage owner = .finished) (hstage : stage = .serving ∨ stage = .closing)
    (hunused : s.table fd = none) (hfresh : ∀ c, s.stage c ≠ .finished → s.number c ≠ fd) :
    Inv
      { s with
        table := Function.update s.table fd (some owner)
        number := Function.update s.number owner fd
        stage := Function.update s.stage owner stage } := by
  -- whoever has an open number is not the new owner
  have hother : ∀ {fd' c}, s.table fd' = some c → c ≠ owner := by
    rintro fd' c hopen rfl
    exact (h.kept fd' c hopen).1 hnew
  refine ⟨?_, ?_, ?_, ?_⟩
  · intro fd' c hopen
    rcases Function.update_cases hopen with ⟨rfl, hc⟩ | ⟨-, hold⟩
    · cases hc
      refine ⟨?_, Function.update_self _ _ _⟩
      show Function.update s.stage owner stage owner ≠ .finished
      rw [Function.update_self]
      rcases hstage with rfl | rfl <;> simp
    · have hne := hother hold
      simpa only [Function.update_of_ne hne] using h.kept fd' c hold
  · intro c hc c' hopen
    by_cases hne : c = owner
    · subst hne
      simp only [Function.update_self] at hopen
      exact (Option.some.inj hopen).symm
    · simp only [Function.update_of_ne hne] at hc hopen
      rcases Function.update_cases hopen with ⟨hnumber, -⟩ | ⟨-, hold⟩
      · exact absurd hnumber (hfresh c hc)
      · exact h.sole c hc c' hold
  · intro c hc
    by_cases hne : c = owner
    · subst hne
      simp only [Function.update_self]
    · simp only [Function.update_of_ne hne] at hc ⊢
      have hold := h.held c hc
      have hnumber : s.number c ≠ fd := hfresh c (by simp [hc])
      rwa [Function.update_of_ne hnumber]
  · intro fd' hmem
    obtain ⟨c, hopen, hclient⟩ := h.clients_open fd' hmem
    have hne : fd' ≠ fd := by
      rintro rfl
      rw [hunused] at hopen
      exact absurd hopen (by simp)
    refine ⟨c, ?_, ?_⟩
    · exact (Function.update_of_ne hne _ _).trans hopen
    · exact (Function.update_of_ne (hother hopen) _ _).trans hclient

omit [DecidableEq φ] in
/-- An owner that moves on without finishing keeps what the invariant says of
the numbers. -/
theorem Inv.moved {s : State φ κ} (h : Inv s) {owner : κ} {new : Stage} {clients : Finset φ}
    (hbusy : s.stage owner ≠ .finished) (hnew : new = .client ∨ new = .closing)
    (hclients : ClientsOpen
      { s with stage := Function.update s.stage owner new, clients := clients }) :
    Inv { s with stage := Function.update s.stage owner new, clients := clients } := by
  refine ⟨?_, ?_, ?_, hclients⟩
  · intro fd c hopen
    refine ⟨fun hc => ?_, (h.kept fd c hopen).2⟩
    rcases Function.update_cases hc with ⟨-, rfl⟩ | ⟨-, hold⟩
    · exact absurd hnew (by simp)
    · exact (h.kept fd c hopen).1 hold
  · intro c hc
    refine h.sole c fun hold => hc ?_
    have hne : c ≠ owner := fun heq => hbusy (heq ▸ hold)
    exact (Function.update_of_ne hne _ _).trans hold
  · intro c hc
    rcases Function.update_cases hc with ⟨-, rfl⟩ | ⟨-, hold⟩
    · exact absurd hnew (by simp)
    · exact h.held c hold

/-- A connection that becomes a client keeps the invariant. -/
theorem Inv.join {s : State φ κ} (h : Inv s) {owner : κ} (hserving : s.stage owner = .serving) :
    Inv (step s (.join owner)) := by
  refine h.moved (by simp [hserving]) (Or.inl rfl) fun fd hmem => ?_
  rcases Finset.mem_insert.mp hmem with rfl | hmem
  · exact ⟨owner, h.held owner hserving, Function.update_self _ _ _⟩
  · obtain ⟨c, hopen, hclient⟩ := h.clients_open fd hmem
    refine ⟨c, hopen, (Function.update_of_ne ?_ _ _).trans hclient⟩
    rintro rfl
    rw [hserving] at hclient
    exact absurd hclient (by simp)

/-- A client that leaves keeps the invariant. -/
theorem Inv.leave {s : State φ κ} (h : Inv s) {owner : κ} (hclient : s.stage owner = .client) :
    Inv (step s (.leave owner)) := by
  refine h.moved (by simp [hclient]) (Or.inr rfl) fun fd hmem => ?_
  obtain ⟨hne, hmem⟩ := Finset.mem_erase.mp hmem
  obtain ⟨c, hopen, hc⟩ := h.clients_open fd hmem
  refine ⟨c, hopen, (Function.update_of_ne ?_ _ _).trans hc⟩
  rintro rfl
  exact hne (h.kept fd c hopen).2.symm

/-- A close keeps the invariant. -/
theorem Inv.close {s : State φ κ} (h : Inv s) {owner : κ} (hclosing : s.stage owner = .closing) :
    Inv (step s (.close owner)) := by
  -- what is still open has another number, and another owner
  have hrest : ∀ {fd c}, Function.update s.table (s.number owner) none fd = some c →
      fd ≠ s.number owner ∧ s.table fd = some c ∧ c ≠ owner := by
    intro fd c hopen
    rcases Function.update_cases hopen with ⟨-, hnot⟩ | ⟨hne, hold⟩
    · exact absurd hnot (by simp)
    · refine ⟨hne, hold, ?_⟩
      rintro rfl
      exact hne (h.kept fd c hold).2.symm
  -- only the owner itself has the number that is closed
  have hstays : ∀ {fd c}, s.table fd = some c → c ≠ owner →
      Function.update s.table (s.number owner) none fd = some c := by
    intro fd c hopen hne
    refine (Function.update_of_ne ?_ _ _).trans hopen
    rintro rfl
    exact hne (h.sole owner (by simp [hclosing]) c hopen)
  refine ⟨?_, ?_, ?_, ?_⟩
  · intro fd c hopen
    obtain ⟨-, hold, hne⟩ := hrest hopen
    refine ⟨fun hc => (h.kept fd c hold).1 ?_, (h.kept fd c hold).2⟩
    exact (Function.update_of_ne hne _ _).symm.trans hc
  · intro c hc c' hopen
    have hne : c ≠ owner := by
      rintro rfl
      exact hc (Function.update_self _ _ _)
    refine h.sole c (fun hold => hc ?_) c' (hrest hopen).2.1
    exact (Function.update_of_ne hne _ _).trans hold
  · intro c hc
    rcases Function.update_cases hc with ⟨-, hnot⟩ | ⟨hne, hold⟩
    · exact absurd hnot (by simp)
    · exact hstays (h.held c hold) hne
  · intro fd hmem
    obtain ⟨c, hopen, hclient⟩ := h.clients_open fd hmem
    have hne : c ≠ owner := by
      rintro rfl
      rw [hclosing] at hclient
      exact absurd hclient (by simp)
    exact ⟨c, hstays hopen hne, (Function.update_of_ne hne _ _).trans hclient⟩

/-- Dropping clients from the set keeps the invariant. -/
theorem Inv.drop {s : State φ κ} (h : Inv s) (failed : List φ) :
    Inv (step s (.drop failed)) := by
  have hrest : ∀ {fd c}, (step s (.drop failed)).table fd = some c →
      s.table fd = some c := by
    intro fd c hopen
    simp only [step] at hopen
    split at hopen
    · exact absurd hopen (by simp)
    · exact hopen
  refine ⟨fun fd c hopen => h.kept fd c (hrest hopen),
    fun c hc c' hopen => h.sole c hc c' (hrest hopen), fun c hc => ?_, fun fd hmem => ?_⟩
  · have hopen := h.held c hc
    -- the number of an owner that is still serving is not in the set
    have hnot : s.number c ∉ s.clients := by
      intro hmem
      obtain ⟨c', hopen', hclient⟩ := h.clients_open _ hmem
      rw [hopen] at hopen'
      cases hopen'
      exact absurd (hc.symm.trans hclient) (by simp)
    simpa [step, hnot] using hopen
  · obtain ⟨hmem, hkept⟩ := Finset.mem_filter.mp hmem
    obtain ⟨c, hopen, hclient⟩ := h.clients_open fd hmem
    exact ⟨c, by simpa [step, hkept] using hopen, hclient⟩

/-- **One step.**  A step that gives out no number still kept keeps the
invariant. -/
theorem Inv.next {s : State φ κ} (h : Inv s) {i : Step φ κ} (hallowed : Allowed s i)
    (hfresh : Fresh s i) : Inv (step s i) := by
  cases i with
  | accept fd owner stage =>
      cases htable : s.table fd with
      | some c => simpa [step, htable] using h
      | none =>
          have hnext := h.accept hallowed.1 hallowed.2 htable (hfresh htable)
          simpa only [step, htable] using hnext
  | join owner => exact h.join hallowed
  | leave owner => exact h.leave hallowed
  | close owner => exact h.close hallowed
  | drop failed => exact h.drop failed

/-- **The condition is needed.**  After a number still kept was given out, it
belongs to another than the one who keeps it. -/
theorem fresh_of_sole {s : State φ κ} {i : Step φ κ} (hallowed : Allowed s i)
    (hsole : Sole (step s i)) : Fresh s i := by
  cases i with
  | accept fd owner stage =>
      intro htable c hc hnumber
      have hne : c ≠ owner := fun heq => hc (heq ▸ hallowed.1)
      simp only [step, htable] at hsole
      have hgiven := hsole c (by simpa only [Function.update_of_ne hne] using hc) owner
        (by simp only [Function.update_of_ne hne, hnumber, Function.update_self])
      exact hne hgiven.symm
  | join owner => trivial
  | leave owner => trivial
  | close owner => trivial
  | drop failed => trivial

/-! ## Numbers closed by their owners alone -/

omit [DecidableEq φ] [DecidableEq κ] in
/-- While every owner holds its number, an unused one is kept by nobody. -/
theorem Held.fresh {s : State φ κ} (h : Held s) (i : Step φ κ) : Fresh s i := by
  cases i with
  | accept fd owner stage =>
      intro htable c hc hnumber
      have hopen := h c hc
      rw [hnumber, htable] at hopen
      exact absurd hopen (by simp)
  | join owner => trivial
  | leave owner => trivial
  | close owner => trivial
  | drop failed => trivial

omit [DecidableEq φ] in
/-- An owner that goes on holds its number. -/
theorem Held.moved {s : State φ κ} (h : Held s) {owner : κ} {new : Stage} {clients : Finset φ}
    (hbusy : s.stage owner ≠ .finished) :
    Held { s with stage := Function.update s.stage owner new, clients := clients } := by
  intro c hc
  by_cases hne : c = owner
  · exact h c (hne ▸ hbusy)
  · exact h c (by simpa only [Function.update_of_ne hne] using hc)

/-- A step that spares the clients leaves every owner its number. -/
theorem Held.next {s : State φ κ} (h : Held s) {i : Step φ κ} (hallowed : Allowed s i)
    (hspares : Sparing s i) : Held (step s i) := by
  cases i with
  | accept fd owner stage =>
      cases htable : s.table fd with
      | some c => simpa [step, htable] using h
      | none =>
          simp only [step, htable]
          intro c hc
          by_cases hne : c = owner
          · subst hne
            simp only [Function.update_self]
          · simp only [Function.update_of_ne hne] at hc ⊢
            have hnumber : s.number c ≠ fd := h.fresh (.accept fd owner stage) htable c hc
            exact (Function.update_of_ne hnumber _ _).trans (h c hc)
  | join owner => exact h.moved (by rw [show s.stage owner = .serving from hallowed]; simp)
  | leave owner => exact h.moved (by rw [show s.stage owner = .client from hallowed]; simp)
  | close owner =>
      intro c hc
      have hne : c ≠ owner := by
        rintro rfl
        exact hc (Function.update_self _ _ _)
      have hopen := h c (by simpa only [step, Function.update_of_ne hne] using hc)
      have hnumber : s.number c ≠ s.number owner := by
        intro heq
        have howner := h owner (by rw [show s.stage owner = .closing from hallowed]; simp)
        rw [← heq, hopen] at howner
        exact hne (Option.some.inj howner)
      exact (Function.update_of_ne hnumber _ _).trans hopen
  | drop failed =>
      intro c hc
      have hkept : ¬ (s.number c ∈ s.clients ∧ s.number c ∈ failed) := by
        rintro ⟨hmem, hfailed⟩
        exact hspares _ hmem hfailed
      exact (if_neg hkept).trans (h c hc)

/-- A step that does not spare a client takes its number away. -/
theorem Inv.sparing_of_held {s : State φ κ} (h : Inv s) {i : Step φ κ}
    (hheld : Held (step s i)) : Sparing s i := by
  cases i with
  | accept fd owner stage => trivial
  | join owner => trivial
  | leave owner => trivial
  | close owner => trivial
  | drop failed =>
      intro fd hmem hfailed
      obtain ⟨c, hopen, hclient⟩ := h.clients_open fd hmem
      have hnumber := (h.kept fd c hopen).2
      have hstill := hheld c (by simp [step, hclient])
      simp [step, hnumber, hmem, hfailed] at hstill

omit [DecidableEq φ] [DecidableEq κ] in
/-- Nothing is given out yet. -/
theorem inv_start (number : κ → φ) :
    Inv ({ table := fun _ => none, number := number, stage := fun _ => .finished,
           clients := ∅ } : State φ κ) where
  kept := nofun
  sole := nofun
  held := nofun
  clients_open := nofun

end Descriptors
