import Netmon.CleanupPass

/-!
# Following a record through a run

A record keeps its key until an update learns the MAC of a device that was known
by address only; then it moves from its `ip:` key to a `mac:` key.  `carriedKey`
says where the record of a key is after a call and `carriedKeys` where it is after
a run.  `Touches` says which calls write or move the record of a key: only device
and traffic updates do, and a call that does not touch a key leaves its record
alone unless it is a cleanup pass.
-/

namespace Netmon

namespace StateStore

instance (s : StateStore) (mac ip : Str) : Decidable (s.Rekeys mac ip) :=
  inferInstanceAs (Decidable (_ ∧ _ ∧ _))

/-- The key under which the record of `k` is kept after a call. -/
def carriedKey (s : StateStore) (k : Str) : StoreOp → Str
  | .updateDevice _ device =>
      if s.Rekeys device.mac device.ip ∧ s.findKeyLocked device.mac device.ip = k then
        macKey (lower device.mac)
      else k
  | _ => k

/-- The key under which the record of `k` is kept after a run. -/
def carriedKeys (s : StateStore) (k : Str) : List StoreOp → Str
  | [] => k
  | op :: ops => carriedKeys (s.apply op) (s.carriedKey k op) ops

/-- The call writes the record of `k`, or moves it away. -/
def Touches (s : StateStore) (k : Str) : StoreOp → Prop
  | .updateDevice _ device =>
      s.resolveKey device.mac device.ip = k ∨
        s.Rekeys device.mac device.ip ∧ macKey (lower device.mac) = k
  | .updateTraffic _ snapshot => s.resolveKey snapshot.mac snapshot.ip = k
  | _ => False

instance (s : StateStore) (k : Str) (op : StoreOp) : Decidable (s.Touches k op) := by
  cases op <;> unfold Touches <;> infer_instance

/-- A record moves only when it is touched. -/
theorem carriedKey_of_not_touches {s : StateStore} {k : Str} {op : StoreOp}
    (h : ¬ s.Touches k op) : s.carriedKey k op = k := by
  cases op with
  | updateDevice now device =>
      have hstays : ¬ (s.Rekeys device.mac device.ip ∧
          s.findKeyLocked device.mac device.ip = k) := by
        rintro ⟨hmove, hfound⟩
        exact h (Or.inl (hmove.resolveKey_eq.trans hfound))
      exact if_neg hstays
  | updateTraffic now snapshot => rfl
  | updateInterface now snapshot => rfl
  | addEvent now event => rfl
  | addWANAttack now later event => rfl
  | nextEventId => rfl
  | cleanup now => rfl

/-- **What is not touched stays.**  A call that does not touch a key leaves its
record alone, unless it is a cleanup pass. -/
theorem lookup_of_not_touches {s : StateStore} {k : Str} {op : StoreOp}
    (h : ¬ s.Touches k op) :
    (∃ now, op = .cleanup now) ∨
      (s.apply op).devicesByKey.lookup k = s.devicesByKey.lookup k := by
  cases op with
  | updateDevice now device =>
      right
      have hresolved : k ≠ s.resolveKey device.mac device.ip := fun heq =>
        h (Or.inl heq.symm)
      rcases s.updateDevice_cases now device with
        ⟨-, hsame⟩ | ⟨record, -, -, -, -, hdevices, -, -⟩ |
          ⟨node, record, hmove, -, -, -, hdevices, -, -⟩
      · exact congrArg (fun t => t.devicesByKey.lookup k) hsame
      · rw [apply, hdevices, AList.lookup_insert_ne hresolved]
      · have hmac : k ≠ macKey (lower device.mac) := fun heq => h (Or.inr ⟨hmove, heq.symm⟩)
        rw [hmove.resolveKey_eq] at hresolved
        rw [apply, hdevices, AList.lookup_insert_ne hmac, AList.lookup_erase_ne hresolved]
  | updateTraffic now snapshot =>
      right
      have hresolved : k ≠ s.resolveKey snapshot.mac snapshot.ip := fun heq => h heq.symm
      rcases s.updateTraffic_cases now snapshot with
        ⟨-, -, hsame⟩ | ⟨record, points, -, -, -, -, hdevices, -, -⟩
      · exact congrArg (fun t => t.devicesByKey.lookup k) hsame
      · rw [apply, hdevices, AList.lookup_insert_ne hresolved]
  | cleanup now => exact Or.inl ⟨now, rfl⟩
  | updateInterface now snapshot =>
      exact Or.inr (congrArg _ (updateInterface_same now snapshot s).devices)
  | addEvent now event => exact Or.inr (congrArg _ (addEvent_same now event s).devices)
  | addWANAttack now later event =>
      exact Or.inr (congrArg _ (addWANAttack_same now later event s).devices)
  | nextEventId => exact Or.inr rfl

/-- **What becomes of a record.**  It stays as it is, is swept, or takes in an update;
moving it changes nothing else. -/
theorem carried_record {s : StateStore} {op : StoreOp} {k : Str} {d d' : DeviceState}
    (hd : s.devicesByKey.lookup k = some d)
    (hd' : (s.apply op).devicesByKey.lookup (s.carriedKey k op) = some d') :
    d' = d ∨ (∃ now, d' = sweepDevice s.config now d) ∨
      (∃ now device, op = .updateDevice now device ∧
        d' = mergeDeviceLocked s.config d device now) ∨
      ∃ now snapshot decision, op = .updateTraffic now snapshot ∧
        d' = trafficDevice s.config d (stampTraffic now snapshot) decision := by
  by_cases htouch : s.Touches k op
  · cases op with
    | updateDevice now device =>
        rcases s.updateDevice_cases now device with
          ⟨hnone, hsame⟩ | ⟨record, -, hplain, hrecord, -, hdevices, -, -⟩ |
            ⟨node, record, hmove, hnode, hrecord, -, hdevices, -, -⟩
        · have hstays : s.carriedKey k (.updateDevice now device) = k := by
            refine if_neg fun hmove => ?_
            rw [hmove.1.resolveKey_eq] at hnone
            have hip := hmove.1.2.1
            rw [hnone] at hip
            exact absurd hip (by decide)
          rw [hstays, apply, hsame, hd] at hd'
          exact Or.inl (Option.some.inj hd').symm
        · have hk : s.resolveKey device.mac device.ip = k :=
            htouch.resolve_right fun hmove => hplain hmove.1
          have hstays : s.carriedKey k (.updateDevice now device) = k :=
            if_neg fun hmove => hplain hmove.1
          rw [hk] at hrecord hdevices
          rw [hstays, apply, hdevices, AList.lookup_insert] at hd'
          rw [AList.getD, hd] at hrecord
          exact Or.inr (Or.inr (Or.inl ⟨now, device, rfl,
            (Option.some.inj hd').symm.trans hrecord⟩))
        · -- the key of the MAC is free, so the record is the one that moves there
          have hk : s.findKeyLocked device.mac device.ip = k := by
            rcases htouch with hk | ⟨-, hk⟩
            · exact hmove.resolveKey_eq ▸ hk
            · exact absurd (hk ▸ AList.mem_of_lookup hd) hmove.macKey_free
          have hmoves : s.carriedKey k (.updateDevice now device) = macKey (lower device.mac) :=
            if_pos ⟨hmove, hk⟩
          rw [hmoves, apply, hdevices, AList.lookup_insert] at hd'
          rw [hk, hd] at hnode
          cases hnode
          exact Or.inr (Or.inr (Or.inl ⟨now, device, rfl,
            (Option.some.inj hd').symm.trans hrecord⟩))
    | updateTraffic now snapshot =>
        change (s.updateTraffic now snapshot).devicesByKey.lookup k = some d' at hd'
        rcases s.updateTraffic_cases now snapshot with
          ⟨-, -, hsame⟩ | ⟨record, points, -, hrecord, -, -, hdevices, -, -⟩
        · rw [hsame, hd] at hd'
          exact Or.inl (Option.some.inj hd').symm
        · have hk : s.resolveKey snapshot.mac snapshot.ip = k := htouch
          rw [hk] at hrecord hdevices
          rw [hdevices, AList.lookup_insert] at hd'
          rw [AList.getD, hd] at hrecord
          exact Or.inr (Or.inr (Or.inr ⟨now, snapshot, _, rfl,
            (Option.some.inj hd').symm.trans hrecord⟩))
    | updateInterface now snapshot => exact absurd htouch id
    | addEvent now event => exact absurd htouch id
    | addWANAttack now later event => exact absurd htouch id
    | nextEventId => exact absurd htouch id
    | cleanup now => exact absurd htouch id
  · rw [carriedKey_of_not_touches htouch] at hd'
    rcases lookup_of_not_touches htouch with ⟨now, rfl⟩ | hsame
    · rw [show s.apply (.cleanup now) = s.cleanup now from rfl, cleanup_lookup, hd] at hd'
      obtain ⟨e, he, rfl⟩ := Option.map_eq_some_iff.mp hd'
      obtain rfl : d = e := Option.some.inj (Option.filter_eq_some_iff.mp he).1
      exact Or.inr (Or.inl ⟨now, rfl⟩)
    · rw [hsame, hd] at hd'
      exact Or.inl (Option.some.inj hd').symm

/-- No call changes the settings. -/
@[simp] theorem run_config (s : StateStore) (ops : List StoreOp) :
    (Runs.run apply s ops).config = s.config :=
  Runs.run_invariant (fun t : StateStore => t.config = s.config)
    (fun t op ht => (t.apply_records op).1.trans ht) rfl ops

end StateStore

end Netmon
