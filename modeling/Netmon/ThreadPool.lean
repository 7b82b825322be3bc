import Netmon.Runs

/-!
# Threads over a shared state

A pool is a shared state with a family of threads, each with a state of its own.
A move of a thread is one atomic step: it changes the shared state and the state
of that thread, and a thread that waits for a lock moves without changing anything.
A schedule lists the threads in the order in which they move, so a statement about
every schedule is one about every interleaving.

Two rules carry the proofs about schedules.  A property of the shared state and one
of each thread hold throughout when the mover keeps both and disturbs no other
thread (`Keeps.holds_run`).  A quantity that every move passes on between the shared state
and the mover is the same in the end as in the beginning (`Keeps.conserves`).
-/

namespace ThreadPool

open Runs

variable {ι σ τ : Type}

/-- A shared state and the states of the threads. -/
structure Pool (ι σ τ : Type) where
  shared : σ
  thread : ι → τ

variable [DecidableEq ι] (move : ι → σ → τ → σ × τ)

/-- One thread moves. -/
def step (p : Pool ι σ τ) (i : ι) : Pool ι σ τ where
  shared := (move i p.shared (p.thread i)).1
  thread := Function.update p.thread i (move i p.shared (p.thread i)).2

@[simp] theorem step_shared (p : Pool ι σ τ) (i : ι) :
    (step move p i).shared = (move i p.shared (p.thread i)).1 := rfl

@[simp] theorem step_thread_self (p : Pool ι σ τ) (i : ι) :
    (step move p i).thread i = (move i p.shared (p.thread i)).2 := by
  simp [step]

/-- A step of one thread leaves the others where they are. -/
theorem step_thread_of_ne (p : Pool ι σ τ) {i j : ι} (h : j ≠ i) :
    (step move p i).thread j = p.thread j := by
  simp [step, h]

/-! ## Properties of the shared state and of each thread -/

/-- A mover keeps the property of the shared state and its own, and leaves those of
the other threads alone. -/
structure Keeps (global : σ → Prop) (own : ι → σ → τ → Prop) : Prop where
  shared : ∀ i s t, global s → own i s t → global (move i s t).1
  mover : ∀ i s t, global s → own i s t → own i (move i s t).1 (move i s t).2
  other : ∀ i j s t u, j ≠ i → global s → own i s t → own j s u → own j (move i s t).1 u

/-- The properties hold of a pool. -/
def Holds (global : σ → Prop) (own : ι → σ → τ → Prop) (p : Pool ι σ τ) : Prop :=
  global p.shared ∧ ∀ i, own i p.shared (p.thread i)

variable {move} {global : σ → Prop} {own : ι → σ → τ → Prop}

/-- A step keeps what every move keeps. -/
theorem Keeps.holds_step (h : Keeps move global own) {p : Pool ι σ τ} (hp : Holds global own p)
    (i : ι) : Holds global own (step move p i) := by
  obtain ⟨hglobal, hown⟩ := hp
  refine ⟨h.shared i _ _ hglobal (hown i), fun j => ?_⟩
  by_cases hj : j = i
  · subst hj
    rw [step_thread_self]
    exact h.mover j _ _ hglobal (hown j)
  · rw [step_thread_of_ne move p hj]
    exact h.other i j _ _ _ hj hglobal (hown i) (hown j)

/-- **Ownership rule.**  The properties hold after every schedule. -/
theorem Keeps.holds_run (h : Keeps move global own) {p : Pool ι σ τ} (hp : Holds global own p)
    (schedule : List ι) : Holds global own (run (step move) p schedule) :=
  run_invariant (Holds global own) (fun _ i hp => h.holds_step hp i) hp schedule

/-! ## Quantities that moves pass on -/

section

variable [Fintype ι] {M : Type} [AddCancelCommMonoid M]

/-- What the threads still owe, together. -/
def totalDue (due : τ → M) (p : Pool ι σ τ) : M := ∑ i, due (p.thread i)

variable (move) in
/-- A step changes what is due by what is due of its thread. -/
theorem totalDue_step (due : τ → M) (p : Pool ι σ τ) (i : ι) :
    totalDue due (step move p i) + due (p.thread i) =
      totalDue due p + due (move i p.shared (p.thread i)).2 := by
  have hrest : ∑ j ∈ Finset.univ.erase i, due ((step move p i).thread j) =
      ∑ j ∈ Finset.univ.erase i, due (p.thread j) := by
    refine Finset.sum_congr rfl fun j hj => ?_
    rw [step_thread_of_ne move p (Finset.ne_of_mem_erase hj)]
  unfold totalDue
  rw [← Finset.add_sum_erase _ _ (Finset.mem_univ i),
    ← Finset.add_sum_erase _ (fun j => due (p.thread j)) (Finset.mem_univ i), hrest,
    step_thread_self]
  rw [add_right_comm, add_comm (due (move i p.shared (p.thread i)).2), add_right_comm]

/-- **Conservation rule.**  What is held and what is still due add up to the same
after every schedule, if they do for every move. -/
theorem Keeps.conserves (h : Keeps move global own) (held : σ → M) (due : τ → M)
    (hmove : ∀ i s t, global s → own i s t →
      held (move i s t).1 + due (move i s t).2 = held s + due t)
    {p : Pool ι σ τ} (hp : Holds global own p) (schedule : List ι) :
    held (run (step move) p schedule).shared +
        totalDue due (run (step move) p schedule) =
      held p.shared + totalDue due p := by
  induction schedule generalizing p with
  | nil => rfl
  | cons i schedule ih =>
      rw [run_cons, ih (h.holds_step hp i)]
      have hone := hmove i p.shared (p.thread i) hp.1 (hp.2 i)
      have hdue := totalDue_step move due p i
      apply add_right_cancel (b := due (p.thread i))
      calc held (step move p i).shared + totalDue due (step move p i) +
            due (p.thread i)
          = held (move i p.shared (p.thread i)).1 +
              (totalDue due (step move p i) + due (p.thread i)) := add_assoc _ _ _
        _ = held (move i p.shared (p.thread i)).1 + due (move i p.shared (p.thread i)).2 +
              totalDue due p := by rw [hdue, add_comm (totalDue due p), add_assoc]
        _ = held p.shared + totalDue due p + due (p.thread i) := by
              rw [hone, add_right_comm]

/-- **Domination rule.**  What is held and what is still due never come to more than
what has been given out, if no move makes it so. -/
theorem Keeps.dominated [PartialOrder M] [IsOrderedCancelAddMonoid M]
    (h : Keeps move global own) (held given : σ → M) (due : τ → M)
    (hmove : ∀ i s t, global s → own i s t →
      held (move i s t).1 + due (move i s t).2 + given s ≤ held s + due t + given (move i s t).1)
    {p : Pool ι σ τ} (hp : Holds global own p)
    (hstart : held p.shared + totalDue due p ≤ given p.shared) (schedule : List ι) :
    held (run (step move) p schedule).shared + totalDue due (run (step move) p schedule) ≤
      given (run (step move) p schedule).shared := by
  induction schedule generalizing p with
  | nil => exact hstart
  | cons i schedule ih =>
      refine ih (h.holds_step hp i) ?_
      have hone := hmove i p.shared (p.thread i) hp.1 (hp.2 i)
      have hdue := totalDue_step move due p i
      apply le_of_add_le_add_right (a := due (p.thread i) + given p.shared)
      calc held (step move p i).shared + totalDue due (step move p i) +
            (due (p.thread i) + given p.shared)
          = held (move i p.shared (p.thread i)).1 +
              (totalDue due (step move p i) + due (p.thread i)) + given p.shared := by
            rw [step_shared]
            abel
        _ = held (move i p.shared (p.thread i)).1 + due (move i p.shared (p.thread i)).2 +
              given p.shared + totalDue due p := by
            rw [hdue]
            abel
        _ ≤ held p.shared + due (p.thread i) + given (step move p i).shared + totalDue due p :=
            add_le_add_left hone _
        _ = held p.shared + totalDue due p + due (p.thread i) + given (step move p i).shared := by
            abel
        _ ≤ given p.shared + due (p.thread i) + given (step move p i).shared :=
            add_le_add_left (add_le_add_left hstart _) _
        _ = given (step move p i).shared + (due (p.thread i) + given p.shared) := by
            abel

end

/-! ## A thread on its own -/

variable (move)

/-- A thread can get from one state to another while the others rest. -/
def Alone (i : ι) (before after : σ × τ) : Prop :=
  ∃ n, (fun x : σ × τ => move i x.1 x.2)^[n] before = after

variable {move}

omit [DecidableEq ι] in
theorem Alone.refl (i : ι) (x : σ × τ) : Alone move i x x := ⟨0, rfl⟩

omit [DecidableEq ι] in
theorem Alone.one (i : ι) (s : σ) (t : τ) : Alone move i (s, t) (move i s t) := ⟨1, rfl⟩

omit [DecidableEq ι] in
/-- Runs of one thread alone can be put one after the other. -/
theorem Alone.trans {i : ι} {x y z : σ × τ} (hxy : Alone move i x y) (hyz : Alone move i y z) :
    Alone move i x z := by
  obtain ⟨n, rfl⟩ := hxy
  obtain ⟨m, rfl⟩ := hyz
  exact ⟨m + n, Function.iterate_add_apply _ m n x⟩

/-- A schedule of one thread moves that thread and rests the others. -/
theorem Alone.schedule {i : ι} {p : Pool ι σ τ} {after : σ × τ}
    (h : Alone move i (p.shared, p.thread i) after) :
    ∃ n, run (step move) p (List.replicate n i) =
      { shared := after.1, thread := Function.update p.thread i after.2 } := by
  obtain ⟨n, rfl⟩ := h
  refine ⟨n, ?_⟩
  induction n generalizing p with
  | zero => simp
  | succ n ih =>
      rw [List.replicate_succ, run_cons, ih]
      simp only [Function.iterate_succ_apply, step_shared, step_thread_self]
      congr 1
      simp [step]

end ThreadPool
