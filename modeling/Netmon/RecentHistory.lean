import Netmon.OfflineNotices

/-!
# The recent history

The specification of a bounded history is a capacity and a list: append, then
keep the last `capacity` entries.  `RingBuffer` follows it through every series
of pushes and changes of capacity.

In the store nothing but a push reaches the two rings, and their capacities stay
those of the configuration.  What the store returns as its recent events and
attacks is therefore the newest part of all that was ever added to it.
-/

namespace Netmon

/-! ## The buffer and its specification -/

/-- The calls that change a buffer. -/
inductive BufferOp (α : Type) where
  | push (value : α)
  | setCapacity (capacity : Nat)

namespace RingBuffer

variable {α : Type}

/-- The buffer after one call. -/
def step (b : RingBuffer α) : BufferOp α → RingBuffer α
  | .push value => b.push value
  | .setCapacity capacity => b.setCapacity capacity

/-- The specification: a capacity and the entries that it keeps. -/
def keepLast : Nat × List α → BufferOp α → Nat × List α
  | (capacity, items), .push value => (capacity, (items ++ [value]).rtake capacity)
  | (_, items), .setCapacity capacity => (capacity, items.rtake capacity)

theorem popFrontTo_eq_rtake (n : Nat) (items : List α) : popFrontTo n items = items.rtake n :=
  popFrontTo_eq_drop n items

theorem setCapacity_items (capacity : Nat) (b : RingBuffer α) :
    (b.setCapacity capacity).items = b.items.rtake capacity := by
  unfold setCapacity trim
  by_cases hzero : capacity = 0
  · simp [hzero]
  · simp [hzero, popFrontTo_eq_rtake]

/-- **One call follows the specification.** -/
theorem step_keepLast (b : RingBuffer α) (op : BufferOp α) :
    ((b.step op).capacity, (b.step op).items) = keepLast (b.capacity, b.items) op := by
  cases op with
  | push value =>
      simp only [step, keepLast, push_capacity, push_items, popFrontTo_eq_rtake]
  | setCapacity capacity =>
      simp only [step, keepLast, setCapacity_items]
      rfl

/-- **Every series of calls follows the specification.** -/
theorem run_keepLast (b : RingBuffer α) (ops : List (BufferOp α)) :
    ((Runs.run step b ops).capacity, (Runs.run step b ops).items) =
      Runs.run keepLast (b.capacity, b.items) ops := by
  induction ops generalizing b with
  | nil => rfl
  | cons op ops ih => rw [Runs.run_cons, Runs.run_cons, ih, step_keepLast]

theorem rtake_min_length (n : Nat) (items : List α) :
    items.rtake (min n items.length) = items.rtake n := by
  unfold List.rtake
  congr 1
  omega

/-- Pushes alone keep the newest values that fit. -/
theorem run_pushes (capacity : Nat) (values : List α) :
    (Runs.run step (empty capacity) (values.map .push)).items =
      values.rtake (min capacity values.length) := by
  have hpushes : Runs.run step (empty capacity) (values.map .push) =
      values.foldl (fun b value => b.push value) (empty capacity) := by
    rw [Runs.run, List.foldl_map]
    rfl
  rw [hpushes, foldl_push_items, rtake_min_length, popFrontTo_eq_rtake]
  rfl

/-- The newest entries are the last `limit` ones, or all of them. -/
theorem newest_eq (limit : Nat) (b : RingBuffer α) :
    b.newest limit = if limit = 0 ∨ b.size < limit then b.items else b.items.rtake limit := by
  unfold newest size
  by_cases hall : limit = 0 ∨ limit > b.items.length
  · simp only [if_pos hall, Nat.sub_self, List.drop_zero]
  · simp only [if_neg hall]
    rfl

/-- The newest part of what a buffer has kept is the newest part of all that was
pushed. -/
theorem newest_of_items {b : RingBuffer α} {history : List α} {capacity : Nat}
    (h : b.items = history.rtake capacity) (limit : Nat) :
    b.newest limit = history.rtake (if limit = 0 then capacity else min limit capacity) := by
  rw [newest_eq, size, h]
  by_cases hzero : limit = 0
  · simp [hzero]
  · have hlength : (history.rtake capacity).length = min capacity history.length := by
      rw [List.rtake, List.length_drop]
      omega
    simp only [hzero, false_or, if_false, hlength]
    by_cases hlong : min capacity history.length < limit
    · rw [if_pos hlong]
      unfold List.rtake
      congr 1
      omega
    · rw [if_neg hlong]
      unfold List.rtake
      rw [List.drop_drop, List.length_drop]
      congr 1
      omega

end RingBuffer

/-! ## What is added to the store -/

namespace StateStore

/-- The events that a call adds, as the ring takes them. -/
def eventsAdded (s : StateStore) : StoreOp → List Event
  | .addEvent now event =>
      [{ stampEvent now event with
          id := if event.id = [] then eventIdText (s.eventSeq + 1) else event.id }]
  | .cleanup now => noticesFrom s.eventSeq now (s.records.filter (goesOffline s.config now))
  | _ => []

/-- The attack that a call adds, with the clock in place of a missing time. -/
def attacksAdded : StoreOp → List WANAttackEvent
  | .addWANAttack now _ event => [{ event with ts := if event.ts = 0 then now else event.ts }]
  | _ => []

/-- All the events that a history adds, oldest first. -/
def eventHistory : StateStore → List StoreOp → List Event
  | _, [] => []
  | s, op :: ops => s.eventsAdded op ++ eventHistory (s.apply op) ops

/-- **A call pushes the events it adds** and touches the ring in no other way. -/
theorem apply_events (s : StateStore) (op : StoreOp) :
    (s.apply op).events = (s.eventsAdded op).foldl (fun ring e => ring.push e) s.events := by
  cases op with
  | updateDevice now device => exact (updateDevice_sameEvents now device s).events
  | updateTraffic now snapshot => exact (updateTraffic_sameEvents now snapshot s).events
  | updateInterface now snapshot => exact (updateInterface_sameEvents now snapshot s).events
  | addEvent now event =>
      by_cases hid : event.id = []
      · simp only [eventsAdded, if_pos hid, List.foldl_cons, List.foldl_nil]
        exact (addEvent_unnamed now hid s).1
      · simp only [eventsAdded, if_neg hid, List.foldl_cons, List.foldl_nil]
        exact (addEvent_named now hid s).1
  | addWANAttack now later event => exact (addWANAttack_sameEvents now later event s).events
  | nextEventId => rfl
  | cleanup now => exact (cleanup_ring now s).1

theorem touchLastLogLocked_wanAttacks (now ts : TimePoint) (s : StateStore) :
    (s.touchLastLogLocked now ts).wanAttacks = s.wanAttacks := by
  rw [touchLastLogLocked_eq]

theorem rekey_wanAttacks (key desired : Str) (s : StateStore) :
    (s.rekey key desired).1.wanAttacks = s.wanAttacks := by
  unfold rekey
  cases s.devicesByKey.lookup key with
  | none => rfl
  | some node => rfl

theorem updateDevice_wanAttacks (now : TimePoint) (device : DeviceState) (s : StateStore) :
    (s.updateDevice now device).wanAttacks = s.wanAttacks := by
  by_cases hkey : s.resolveKey device.mac device.ip = []
  · simp only [updateDevice, if_pos hkey]
  · simp only [updateDevice, if_neg hkey, touchLastLogLocked_wanAttacks]
    split
    · exact rekey_wanAttacks _ _ s
    · rfl

/-- **A call pushes the attack it adds** and touches the ring in no other way. -/
theorem apply_wanAttacks (s : StateStore) (op : StoreOp) :
    (s.apply op).wanAttacks =
      (attacksAdded op).foldl (fun ring e => ring.push e) s.wanAttacks := by
  cases op with
  | updateDevice now device => exact updateDevice_wanAttacks now device s
  | updateTraffic now snapshot =>
      change (s.updateTraffic now snapshot).wanAttacks = s.wanAttacks
      by_cases hnone : snapshot.mac = [] ∧ snapshot.ip = []
      · simp only [updateTraffic, if_pos hnone]
      · simp only [updateTraffic, if_neg hnone]
        split
        · rfl
        · rw [touchLastLogLocked_wanAttacks]
          rfl
  | updateInterface now snapshot =>
      change (s.updateInterface now snapshot).wanAttacks = s.wanAttacks
      unfold updateInterface
      split
      · rfl
      · rw [touchLastLogLocked_wanAttacks]
  | addEvent now event =>
      change (s.addEvent now event).wanAttacks = s.wanAttacks
      unfold addEvent pushEventLocked
      rw [touchLastLogLocked_wanAttacks]
      by_cases hid : event.id = []
      · simp only [if_pos hid]
        rfl
      · simp only [if_neg hid]
  | addWANAttack now later event =>
      change (s.addWANAttack now later event).wanAttacks = _
      unfold addWANAttack
      rw [touchLastLogLocked_wanAttacks]
      rfl
  | nextEventId => rfl
  | cleanup now =>
      refine cleanup_related (R := fun s t => t.wanAttacks = s.wanAttacks) (fun _ => rfl)
        (fun hst htu => htu.trans hst) (fun t device => ?_) (fun _ _ => rfl) (fun _ _ => rfl) s
      exact touchLastLogLocked_wanAttacks _ _ _

/-- A history pushes the events it adds, in order. -/
theorem run_events (s : StateStore) (ops : List StoreOp) :
    (Runs.run apply s ops).events =
      (eventHistory s ops).foldl (fun ring e => ring.push e) s.events := by
  induction ops generalizing s with
  | nil => rfl
  | cons op ops ih =>
      rw [Runs.run_cons, ih, apply_events, eventHistory, List.foldl_append]

theorem run_wanAttacks (s : StateStore) (ops : List StoreOp) :
    (Runs.run apply s ops).wanAttacks =
      (ops.flatMap attacksAdded).foldl (fun ring e => ring.push e) s.wanAttacks := by
  induction ops generalizing s with
  | nil => rfl
  | cons op ops ih =>
      rw [Runs.run_cons, ih, apply_wanAttacks, List.flatMap_cons, List.foldl_append]

end StateStore

/-- The entries of an empty ring after pushes. -/
theorem RingBuffer.empty_pushed_items {α : Type} (capacity : Nat) (values : List α) :
    (values.foldl (fun ring value => ring.push value) (RingBuffer.empty capacity)).items =
      values.rtake capacity := by
  rw [foldl_push_items, popFrontTo_eq_rtake]
  rfl

/-- **Bounded histories are exact.**  A buffer follows the specification "append,
then keep the last `capacity` entries" through every series of pushes and changes
of capacity, and returns the last of them; and what the store returns as recent
events and attacks is the newest part of everything that was added to it, oldest
first. -/
theorem recent_history_exact {α : Type} (capacity : Nat) (ops : List (BufferOp α))
    (values : List α) (limit : Nat) (config : Config) (calls : List StoreOp) :
    let b := Runs.run RingBuffer.step (RingBuffer.empty capacity) ops
    let store := Runs.run StateStore.apply (StateStore.init config) calls
    let within (bound : UInt64) := if limit = 0 then bound.toNat else min limit bound.toNat
    (b.capacity, b.items) = Runs.run RingBuffer.keepLast (capacity, []) ops ∧
      (Runs.run RingBuffer.step (RingBuffer.empty capacity) (values.map .push)).items =
        values.rtake (min capacity values.length) ∧
      b.newest limit =
        (if limit = 0 ∨ b.size < limit then b.items else b.items.rtake limit) ∧
      store.recentEvents limit =
        (StateStore.eventHistory (StateStore.init config) calls).rtake
          (within config.maxEvents) ∧
      store.recentWANAttacks limit =
        (calls.flatMap StateStore.attacksAdded).rtake (within config.maxAttackEvents) := by
  intro b store within
  refine ⟨RingBuffer.run_keepLast _ ops, RingBuffer.run_pushes capacity values,
    RingBuffer.newest_eq limit b, ?_, ?_⟩
  · refine RingBuffer.newest_of_items ?_ limit
    rw [StateStore.run_events]
    exact RingBuffer.empty_pushed_items _ _
  · refine RingBuffer.newest_of_items ?_ limit
    rw [StateStore.run_wanAttacks]
    exact RingBuffer.empty_pushed_items _ _

end Netmon
