import Netmon.FiniteMap

/-!
# Writing snapshots back

Several parties share a memory and a table.  Each of them changes the memory,
takes a snapshot of the whole memory, and writes the snapshot into the table,
as three separate steps; between the last two the snapshot is in flight.  A
value has a level that should only rise, and is written in a form that may
depend on the time of writing.

The steps of different parties interleave in any way.  `Ordered` is what makes
that safe: a changed value is not below what is known of its key, and a snapshot
is not written after a later one.  Then the levels in the table never fall
(`Inv.table_rises`), and when no party is busy the table shows the memory
(`Inv.quiescent`).
-/

namespace WriteBack

/-- Where a party stands.  A snapshot in flight carries its number in the order
in which the snapshots were taken. -/
inductive Phase (κ ν : Type) where
  | idle
  | updated
  | holding (number : Nat) (snapshot : κ → Option ν)

structure State (η κ ν τ : Type) where
  memory : κ → Option ν
  table : κ → Option τ
  phase : η → Phase κ ν
  taken : Nat
  written : Nat

inductive Step (η κ ν γ : Type) where
  | update (party : η) (memory : κ → Option ν)
  | snapshot (party : η)
  | write (party : η) (clock : γ)

variable {η κ ν τ γ : Type} [DecidableEq η] (render : γ → ν → τ)

/-- A step that does not fit the phase of its party does nothing. -/
def step (s : State η κ ν τ) : Step η κ ν γ → State η κ ν τ
  | .update party memory =>
      match s.phase party with
      | .holding _ _ => s
      | _ => { s with memory := memory, phase := Function.update s.phase party .updated }
  | .snapshot party =>
      match s.phase party with
      | .updated =>
          { s with
            phase := Function.update s.phase party (.holding (s.taken + 1) s.memory)
            taken := s.taken + 1 }
      | _ => s
  | .write party clock =>
      match s.phase party with
      | .holding number snapshot =>
          { s with
            table := fun k => ((snapshot k).map (render clock)).or (s.table k)
            phase := Function.update s.phase party .idle
            written := number }
      | _ => s

variable (level : ν → Int) (stamp : τ → Int)

/-- A level of the key in the table or in flight. -/
def Known (s : State η κ ν τ) (k : κ) (t : Int) : Prop :=
  (∃ w, s.table k = some w ∧ stamp w = t) ∨
    ∃ party number snapshot v, s.phase party = .holding number snapshot ∧
      snapshot k = some v ∧ level v = t

/-- A change keeps or raises the level of each key it had, and gives no other key
a level below a known one; a snapshot is written only after earlier ones. -/
def Ordered (s : State η κ ν τ) : Step η κ ν γ → Prop
  | .update party memory => (∀ number snapshot, s.phase party ≠ .holding number snapshot) →
      ∀ k v', memory k = some v' →
        (∃ v, s.memory k = some v ∧ level v ≤ level v') ∨
          ∀ t, Known level stamp s k t → t ≤ level v'
  | .snapshot _ => True
  | .write party _ => ∀ number snapshot, s.phase party = .holding number snapshot →
      s.written < number

/-- The table has every value of the memory, in a form of some time. -/
def Shown (s : State η κ ν τ) : Prop :=
  ∀ k v, s.memory k = some v → ∃ clock, s.table k = some (render clock v)

/-- What holds throughout: the memory is not below anything known, later
snapshots are not below earlier ones nor, unless already overtaken, below the
table; and either someone still has to write what the memory holds, or it is
written.  Before the first snapshot that is so if it was so at the start. -/
structure Inv (shown : Prop) (s : State η κ ν τ) : Prop where
  memory_latest : ∀ k v, s.memory k = some v → ∀ t, Known level stamp s k t → t ≤ level v
  numbered : ∀ party number snapshot, s.phase party = .holding number snapshot →
    number ≤ s.taken
  flights : ∀ party number snapshot, s.phase party = .holding number snapshot →
    ∀ party' number' snapshot', s.phase party' = .holding number' snapshot' →
      number < number' → ∀ k v v', snapshot k = some v → snapshot' k = some v' →
        level v ≤ level v'
  rows : ∀ party number snapshot, s.phase party = .holding number snapshot →
    s.written < number → ∀ k w v, s.table k = some w → snapshot k = some v →
      stamp w ≤ level v
  settled : (∃ party, s.phase party = .updated) ∨
    (∃ party, s.phase party = .holding s.taken s.memory) ∨
      (s.written = s.taken ∧ (s.taken ≠ 0 ∨ shown → Shown render s))

/-! ## What a step does -/

/-- **What a step does.**  It does nothing, changes the memory, takes a snapshot
or writes one. -/
theorem step_cases (s : State η κ ν τ) (i : Step η κ ν γ) :
    step render s i = s ∨
    (∃ party memory, i = .update party memory ∧
      (∀ number snapshot, s.phase party ≠ .holding number snapshot) ∧
      step render s i =
        { s with memory := memory, phase := Function.update s.phase party .updated }) ∨
    (∃ party, i = .snapshot party ∧
      step render s i =
        { s with
          phase := Function.update s.phase party (.holding (s.taken + 1) s.memory)
          taken := s.taken + 1 }) ∨
    (∃ party clock number snapshot, i = .write party clock ∧
      s.phase party = .holding number snapshot ∧
      step render s i =
        { s with
          table := fun k => ((snapshot k).map (render clock)).or (s.table k)
          phase := Function.update s.phase party .idle
          written := number }) := by
  cases i with
  | update party memory =>
      cases hphase : s.phase party with
      | idle => exact Or.inr (Or.inl ⟨party, memory, rfl, by simp [hphase], by simp [step, hphase]⟩)
      | updated =>
          exact Or.inr (Or.inl ⟨party, memory, rfl, by simp [hphase], by simp [step, hphase]⟩)
      | holding number snapshot => exact Or.inl (by simp [step, hphase])
  | snapshot party =>
      cases hphase : s.phase party with
      | idle => exact Or.inl (by simp [step, hphase])
      | updated => exact Or.inr (Or.inr (Or.inl ⟨party, rfl, by simp [step, hphase]⟩))
      | holding number snapshot => exact Or.inl (by simp [step, hphase])
  | write party clock =>
      cases hphase : s.phase party with
      | idle => exact Or.inl (by simp [step, hphase])
      | updated => exact Or.inl (by simp [step, hphase])
      | holding number snapshot =>
          exact Or.inr (Or.inr (Or.inr
            ⟨party, clock, number, snapshot, rfl, hphase, by simp [step, hphase]⟩))

/-! ## The invariant -/

variable {render level stamp} {shown : Prop}

theorem Inv.update {s : State η κ ν τ} (h : Inv render level stamp shown s) {party : η}
    {memory : κ → Option ν}
    (hordered : ∀ k v', memory k = some v' →
      (∃ v, s.memory k = some v ∧ level v ≤ level v') ∨
        ∀ t, Known level stamp s k t → t ≤ level v') :
    Inv render level stamp shown
      { s with memory := memory, phase := Function.update s.phase party .updated } := by
  have hflight : ∀ {party' number snapshot},
      Function.update s.phase party .updated party' = .holding number snapshot →
        s.phase party' = .holding number snapshot :=
    fun hphase => Function.eq_of_update_eq hphase (by simp)
  refine ⟨?_, ?_, ?_, ?_, Or.inl ⟨party, Function.update_self _ _ _⟩⟩
  · intro k v' hv' t ht
    have hknown : Known level stamp s k t := by
      rcases ht with hrow | ⟨party', number, snapshot, v, hphase, hv, hlevel⟩
      · exact Or.inl hrow
      · exact Or.inr ⟨party', number, snapshot, v, hflight hphase, hv, hlevel⟩
    rcases hordered k v' hv' with ⟨v, hv, hle⟩ | hnew
    · exact (h.memory_latest k v hv t hknown).trans hle
    · exact hnew t hknown
  · exact fun party' number snapshot hphase => h.numbered _ _ _ (hflight hphase)
  · intro party₁ number₁ snapshot₁ h₁ party₂ number₂ snapshot₂ h₂
    exact h.flights _ _ _ (hflight h₁) _ _ _ (hflight h₂)
  · intro party' number snapshot hphase
    exact h.rows _ _ _ (hflight hphase)

theorem Inv.snapshot {s : State η κ ν τ} (h : Inv render level stamp shown s) (party : η) :
    Inv render level stamp shown
      { s with
        phase := Function.update s.phase party (.holding (s.taken + 1) s.memory)
        taken := s.taken + 1 } := by
  refine ⟨?_, ?_, ?_, ?_, Or.inr (Or.inl ⟨party, Function.update_self _ _ _⟩)⟩
  · intro k v hv t ht
    rcases ht with hrow | ⟨party', number, snapshot, v', hphase, hv', rfl⟩
    · exact h.memory_latest k v hv t (Or.inl hrow)
    · rcases Function.update_cases hphase with ⟨-, hnew⟩ | ⟨-, hold⟩
      · cases hnew
        rw [Option.some.inj (hv'.symm.trans hv)]
      · exact h.memory_latest k v hv _ (Or.inr ⟨party', number, snapshot, v', hold, hv', rfl⟩)
  · intro party' number snapshot hphase
    rcases Function.update_cases hphase with ⟨-, hnew⟩ | ⟨-, hold⟩
    · cases hnew
      exact le_refl _
    · exact (h.numbered _ _ _ hold).trans (Nat.le_succ _)
  · intro party₁ number₁ snapshot₁ h₁ party₂ number₂ snapshot₂ h₂ hlt k v v' hv hv'
    rcases Function.update_cases h₂ with ⟨-, hnew⟩ | ⟨-, hold₂⟩
    · cases hnew
      rcases Function.update_cases h₁ with ⟨-, hnew⟩ | ⟨-, hold₁⟩
      · cases hnew
        exact absurd hlt (lt_irrefl _)
      · exact h.memory_latest k v' hv' _ (Or.inr ⟨_, _, _, v, hold₁, hv, rfl⟩)
    · rcases Function.update_cases h₁ with ⟨-, hnew⟩ | ⟨-, hold₁⟩
      · cases hnew
        have hnumber := h.numbered _ _ _ hold₂
        omega
      · exact h.flights _ _ _ hold₁ _ _ _ hold₂ hlt k v v' hv hv'
  · intro party' number snapshot hphase hlt k w v hw hv
    rcases Function.update_cases hphase with ⟨-, hnew⟩ | ⟨-, hold⟩
    · cases hnew
      exact h.memory_latest k v hv _ (Or.inl ⟨w, hw, rfl⟩)
    · exact h.rows _ _ _ hold hlt k w v hw hv

/-- What stands in the table after a write. -/
theorem written_cases {snapshot : κ → Option ν} {clock : γ} {table : κ → Option τ} {k : κ} {w : τ}
    (h : ((snapshot k).map (render clock)).or (table k) = some w) :
    (∃ v, snapshot k = some v ∧ w = render clock v) ∨ (snapshot k = none ∧ table k = some w) := by
  cases hv : snapshot k with
  | none => exact Or.inr ⟨rfl, by simpa [hv] using h⟩
  | some v => exact Or.inl ⟨v, rfl, by simpa [hv, eq_comm] using h⟩

theorem Inv.write (hstamp : ∀ clock v, stamp (render clock v) = level v) {s : State η κ ν τ}
    (h : Inv render level stamp shown s) {party : η} {number : Nat} {snapshot : κ → Option ν}
    (hphase : s.phase party = .holding number snapshot) (hlater : s.written < number)
    (clock : γ) :
    Inv render level stamp shown
      { s with
        table := fun k => ((snapshot k).map (render clock)).or (s.table k)
        phase := Function.update s.phase party .idle
        written := number } := by
  have hflight : ∀ {party' number' snapshot'},
      Function.update s.phase party .idle party' = .holding number' snapshot' →
        s.phase party' = .holding number' snapshot' :=
    fun hphase' => Function.eq_of_update_eq hphase' (by simp)
  refine ⟨?_, ?_, ?_, ?_, ?_⟩
  · intro k v hv t ht
    refine h.memory_latest k v hv t ?_
    rcases ht with ⟨w, hw, rfl⟩ | ⟨party', number', snapshot', v', hphase', hv', hlevel⟩
    · rcases written_cases hw with ⟨v', hv', rfl⟩ | ⟨-, hold⟩
      · exact Or.inr ⟨party, number, snapshot, v', hphase, hv', (hstamp clock v').symm⟩
      · exact Or.inl ⟨w, hold, rfl⟩
    · exact Or.inr ⟨party', number', snapshot', v', hflight hphase', hv', hlevel⟩
  · exact fun party' number' snapshot' hphase' => h.numbered _ _ _ (hflight hphase')
  · intro party₁ number₁ snapshot₁ h₁ party₂ number₂ snapshot₂ h₂
    exact h.flights _ _ _ (hflight h₁) _ _ _ (hflight h₂)
  · intro party' number' snapshot' hphase' hlt k w v hw hv
    have hold := hflight hphase'
    rcases written_cases hw with ⟨v', hv', rfl⟩ | ⟨-, hrow⟩
    · rw [hstamp]
      exact h.flights _ _ _ hphase _ _ _ hold hlt k v' v hv' hv
    · exact h.rows _ _ _ hold (hlater.trans hlt) k w v hrow hv
  · rcases h.settled with ⟨party', hupdated⟩ | ⟨party', hlatest⟩ | ⟨hall, -⟩
    · refine Or.inl ⟨party', ?_⟩
      have hne : party' ≠ party := by
        rintro rfl
        rw [hupdated] at hphase
        exact absurd hphase (by simp)
      exact (Function.update_of_ne hne _ _).trans hupdated
    · by_cases hparty : party' = party
      · subst hparty
        rw [hphase] at hlatest
        cases hlatest
        refine Or.inr (Or.inr ⟨rfl, fun _ k v hv => ⟨clock, ?_⟩⟩)
        show ((s.memory k).map (render clock)).or (s.table k) = _
        rw [show s.memory k = some v from hv]
        rfl
      · refine Or.inr (Or.inl ⟨party', ?_⟩)
        exact (Function.update_of_ne hparty _ _).trans hlatest
    · have hnumber := h.numbered _ _ _ hphase
      omega

/-- **One step.**  An ordered step keeps the invariant. -/
theorem Inv.next (hstamp : ∀ clock v, stamp (render clock v) = level v) {s : State η κ ν τ}
    (h : Inv render level stamp shown s) {i : Step η κ ν γ} (hi : Ordered level stamp s i) :
    Inv render level stamp shown (step render s i) := by
  rcases step_cases render s i with
    hsame | ⟨party, memory, rfl, hfree, hstep⟩ | ⟨party, rfl, hstep⟩ |
      ⟨party, clock, number, snapshot, rfl, hphase, hstep⟩
  · rw [hsame]
    exact h
  · rw [hstep]
    exact h.update (hi hfree)
  · rw [hstep]
    exact h.snapshot party
  · rw [hstep]
    exact h.write hstamp hphase (hi number snapshot hphase) clock

/-- **Levels in the table never fall.** -/
theorem Inv.table_rises (hstamp : ∀ clock v, stamp (render clock v) = level v)
    {s : State η κ ν τ} (h : Inv render level stamp shown s) {i : Step η κ ν γ}
    (hi : Ordered level stamp s i) {k : κ} {w : τ} (hw : s.table k = some w) :
    ∃ w', (step render s i).table k = some w' ∧ stamp w ≤ stamp w' := by
  rcases step_cases render s i with
    hsame | ⟨party, memory, rfl, -, hstep⟩ | ⟨party, rfl, hstep⟩ |
      ⟨party, clock, number, snapshot, rfl, hphase, hstep⟩
  · rw [hsame]
    exact ⟨w, hw, le_refl _⟩
  · rw [hstep]
    exact ⟨w, hw, le_refl _⟩
  · rw [hstep]
    exact ⟨w, hw, le_refl _⟩
  · rw [hstep]
    cases hv : snapshot k with
    | none => exact ⟨w, by simpa [hv] using hw, le_refl _⟩
    | some v =>
        refine ⟨render clock v, by simp [hv], ?_⟩
        rw [hstamp]
        exact h.rows _ _ _ hphase (hi number snapshot hphase) k w v hw hv

omit [DecidableEq η] in
/-- **When no party is busy the table shows the memory**, if a snapshot was taken
or it did at the start. -/
theorem Inv.quiescent {s : State η κ ν τ} (h : Inv render level stamp shown s)
    (hidle : ∀ party, s.phase party = .idle) (hshown : s.taken ≠ 0 ∨ shown) :
    Shown render s := by
  rcases h.settled with ⟨party, hupdated⟩ | ⟨party, hlatest⟩ | ⟨-, hsettled⟩
  · rw [hidle party] at hupdated
    exact absurd hupdated (by simp)
  · rw [hidle party] at hlatest
    exact absurd hlatest (by simp)
  · exact hsettled hshown

omit [DecidableEq η] in
/-- Idle parties, over a table that is not ahead of the memory. -/
theorem inv_start {memory : κ → Option ν} {table : κ → Option τ}
    (h : ∀ k v w, memory k = some v → table k = some w → stamp w ≤ level v) :
    let s : State η κ ν τ :=
      { memory := memory, table := table, phase := fun _ => .idle, taken := 0, written := 0 }
    Inv render level stamp (Shown render s) s where
  memory_latest := by
    rintro k v hv t (⟨w, hw, rfl⟩ | ⟨party, number, snapshot, v', hphase, -⟩)
    · exact h k v w hv hw
    · exact absurd hphase (by simp)
  numbered := nofun
  flights := nofun
  rows := nofun
  settled := Or.inr (Or.inr ⟨rfl, fun hshown => hshown.resolve_left fun hne => hne rfl⟩)

end WriteBack
