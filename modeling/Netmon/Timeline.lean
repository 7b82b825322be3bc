import Netmon.LearnedMac
import Netmon.EventHistory

/-!
# The times of a record

A record carries six times that different calls keep by different rules: the first
sighting is set once, the last one only grows, the DHCP and traffic times are
overwritten, and the time of the last rate is overwritten or cleared.  The calls that
are made for a line stamp everything with the time of the line.  If these times are
positive, the order `0 < first ≤ last ≤ last log` holds of every record after every
run, however late or early the lines arrive.
-/

namespace Netmon

namespace StateStore

/-! ## The last-log time -/

/-- The time of the last log is not before a log. -/
theorem le_raiseLog_right (last ts : TimePoint) : ts ≤ raiseLog last ts := by
  unfold raiseLog
  split
  · exact le_refl ts
  · rename_i h
    exact not_lt.mp (not_or.mp h).2

/-- The time of the last log does not go back. -/
theorem le_raiseLog_left {last ts : TimePoint} (h : 0 ≤ ts) : last ≤ raiseLog last ts := by
  unfold raiseLog
  split
  · rename_i hraise
    rcases hraise with rfl | hlt
    · exact h
    · exact le_of_lt hlt
  · exact le_refl last

/-- Touching with a positive time raises the last-log time to it at least. -/
theorem touchLastLogLocked_le (now : TimePoint) {ts : TimePoint} (hts : 0 < ts) (s : StateStore) :
    s.lastLogTs ≤ (s.touchLastLogLocked now ts).lastLogTs ∧
      ts ≤ (s.touchLastLogLocked now ts).lastLogTs := by
  rw [touchLastLogLocked_lastLogTs, if_neg hts.ne']
  exact ⟨le_raiseLog_left hts.le, le_raiseLog_right _ _⟩

/-! ## The calls of a line of one time -/

/-- The call carries the time `ts`, in every field that it sets. -/
def StampedAt (ts : TimePoint) : StoreOp → Prop
  | .updateDevice _ device => App.ReportedAt ts device
  | .updateTraffic _ snapshot => snapshot.ts = ts
  | .updateInterface _ snapshot => snapshot.ts = ts
  | .addEvent _ event => event.ts = ts
  | .addWANAttack _ _ event => event.ts = ts
  | .nextEventId => True
  | .cleanup _ => False

end StateStore

/-- The call is one of those that are made for a line whose event has time `ts`. -/
def App.BuiltAt (ts : TimePoint) (op : StoreOp) : Prop :=
  op = .nextEventId ∨ ∃ clock result, ∃ event : Event, event.ts = ts ∧
    op ∈ App.eventCalls clock result event

namespace StateStore

/-- A call that is built at a time carries that time. -/
theorem stampedAt_of_builtAt {ts : TimePoint} {op : StoreOp} (h : App.BuiltAt ts op) :
    StampedAt ts op := by
  rcases h with rfl | ⟨clock, result, event, rfl, hop⟩
  · trivial
  · rcases App.eventCalls_cases clock result event with
      ⟨-, hcalls | ⟨snapshot, hcalls, hts⟩⟩ | ⟨-, attack, e, hcalls, hattack, he, -⟩ |
        ⟨-, -, e, hcalls | ⟨device, hcalls, hdevice⟩ | ⟨snapshot, hcalls, hts⟩, he, -⟩ <;>
      rw [hcalls] at hop
    · exact absurd hop (by simp)
    · rw [List.mem_singleton.mp hop]
      exact hts
    · rcases List.mem_pair.mp hop with rfl | rfl
      · exact hattack
      · exact he
    · rw [List.mem_singleton.mp hop]
      exact he
    · rcases List.mem_pair.mp hop with rfl | rfl
      · exact hdevice
      · exact he
    · rcases List.mem_pair.mp hop with rfl | rfl
      · exact hts
      · exact he

/-! ## One record -/

/-- The times of a record are in order; a time that was never set is zero. -/
structure InOrder (d : DeviceState) : Prop where
  seen_nonneg : 0 ≤ d.lastSeen
  first : d.firstSeen = 0 ∨ 0 < d.firstSeen ∧ d.firstSeen ≤ d.lastSeen
  dhcp : d.lastDhcp = 0 ∨ d.lastDhcp ≤ d.lastSeen
  traffic : d.lastTraffic = 0 ∨ d.lastTraffic ≤ d.lastSeen
  rate : d.lastRate = 0 ∨ d.lastRate ≤ d.lastSeen

/-- The times of an empty record are in order. -/
theorem inOrder_blank : InOrder {} :=
  ⟨le_refl 0, Or.inl rfl, Or.inl rfl, Or.inl rfl, Or.inl rfl⟩

/-- A time that was in order stays so when the last sighting grows. -/
theorem zero_or_le_trans {t seen seen' : TimePoint} (h : t = 0 ∨ t ≤ seen)
    (hle : seen ≤ seen') : t = 0 ∨ t ≤ seen' :=
  h.imp_right fun hseen => hseen.trans hle

/-- A first sighting that is set once stays in order when the last one grows. -/
theorem first_set_once {first seen seen' ts : TimePoint}
    (h : first = 0 ∨ 0 < first ∧ first ≤ seen) (hts : 0 < ts) (hle : seen ≤ seen')
    (hts' : ts ≤ seen') :
    0 < (if first = 0 then ts else first) ∧ (if first = 0 then ts else first) ≤ seen' := by
  split
  · exact ⟨hts, hts'⟩
  · rename_i hset
    obtain ⟨hpos, hfirst⟩ := h.resolve_left hset
    exact ⟨hpos, hfirst.trans hle⟩

section

variable (config : Config) (now : TimePoint) {ts : TimePoint} {d : DeviceState}

/-- A merged record is not seen before either of its parts. -/
theorem le_merge_lastSeen {incoming : DeviceState} (hts : 0 < ts) (hin : incoming.lastSeen = ts) :
    d.lastSeen ≤ (mergeDeviceLocked config d incoming now).lastSeen ∧
      ts ≤ (mergeDeviceLocked config d incoming now).lastSeen := by
  simp only [mergeDeviceLocked, hin, if_neg hts.ne']
  split
  · rename_i h
    refine ⟨?_, le_refl ts⟩
    rcases h with h | h
    · exact h ▸ hts.le
    · exact le_of_lt h
  · rename_i h
    exact ⟨le_refl _, not_lt.mp (not_or.mp h).2⟩

/-- A notice with a time leaves the times in order. -/
theorem InOrder.afterMerge {incoming : DeviceState} (h : InOrder d)
    (hin : App.ReportedAt ts incoming) (hts : 0 < ts) :
    InOrder (mergeDeviceLocked config d incoming now) ∧
      0 < (mergeDeviceLocked config d incoming now).firstSeen := by
  have hle := le_merge_lastSeen config now (d := d) hts hin.lastSeen
  have hfirst : (mergeDeviceLocked config d incoming now).firstSeen =
      if d.firstSeen = 0 then ts else d.firstSeen := by
    simp only [mergeDeviceLocked, hin.lastSeen, if_neg hts.ne']
  have hset := first_set_once h.first hts hle.1 hle.2
  rw [← hfirst] at hset
  refine ⟨⟨h.seen_nonneg.trans hle.1, Or.inr hset, ?_, ?_, ?_⟩, hset.1⟩
  · show (if incoming.lastDhcp ≠ 0 then incoming.lastDhcp else d.lastDhcp) = 0 ∨
      (if incoming.lastDhcp ≠ 0 then incoming.lastDhcp else d.lastDhcp) ≤ _
    split
    · rename_i hne
      exact Or.inr ((hin.lastDhcp.resolve_left hne).trans_le hle.2)
    · exact zero_or_le_trans h.dhcp hle.1
  · rw [(hin.toWithoutTraffic.merge config d now).lastTraffic]
    exact zero_or_le_trans h.traffic hle.1
  · rw [(hin.toWithoutTraffic.merge config d now).lastRate]
    exact zero_or_le_trans h.rate hle.1

/-- A traffic sample with a time leaves the times in order. -/
theorem InOrder.afterTraffic {current : TrafficSnapshot} (h : InOrder d) (hts : 0 < current.ts)
    (decision : RateDecision) :
    InOrder (trafficDevice config d current decision) ∧
      0 < (trafficDevice config d current decision).firstSeen := by
  have hle : d.lastSeen ≤ max d.lastSeen current.ts := le_max_left _ _
  have hts' : current.ts ≤ max d.lastSeen current.ts := le_max_right _ _
  have hset := first_set_once h.first hts hle hts'
  refine ⟨⟨h.seen_nonneg.trans hle, Or.inr hset, h.dhcp.imp_right (·.trans hle), Or.inr hts', ?_⟩,
    hset.1⟩
  show (if decision.rxRate > 0 ∨ decision.txRate > 0 then current.ts
      else if decision.countersReset then 0 else d.lastRate) = 0 ∨
    (if decision.rxRate > 0 ∨ decision.txRate > 0 then current.ts
      else if decision.countersReset then 0 else d.lastRate) ≤ max d.lastSeen current.ts
  split
  · exact Or.inr hts'
  · split
    · exact Or.inl rfl
    · exact zero_or_le_trans h.rate hle

/-- The walk of the cleanup leaves the times in order. -/
theorem InOrder.afterSweep (h : InOrder d) : InOrder (sweepDevice config now d) := by
  rw [sweepDevice_eq]
  exact ⟨h.seen_nonneg, h.first, h.dhcp, h.traffic, h.rate⟩

end

/-! ## The last-log time never goes back -/

/-- The cleanup does not move the time of the last log back. -/
theorem cleanup_lastLogTs_le {now : TimePoint} (hnow : 0 < now) (s : StateStore) :
    s.lastLogTs ≤ (s.cleanup now).lastLogTs :=
  cleanup_related (R := fun s t => s.lastLogTs ≤ t.lastLogTs) (fun _ => le_refl _) le_trans
    (fun _ _ => (touchLastLogLocked_le now hnow _).1) (fun _ _ => le_refl _)
    (fun _ _ => le_refl _) s

/-- A device update raises the last-log time to the last sighting it writes. -/
theorem updateDevice_logged {ts : TimePoint} {device : DeviceState} (hts : 0 < ts)
    (hin : device.lastSeen = ts) (now : TimePoint) (s : StateStore) :
    s.lastLogTs ≤ (s.updateDevice now device).lastLogTs ∧
      (s.resolveKey device.mac device.ip ≠ [] → ¬ s.Rekeys device.mac device.ip →
        (mergeDeviceLocked s.config (s.devicesByKey.getD (s.resolveKey device.mac device.ip) {})
          device now).lastSeen ≤ (s.updateDevice now device).lastLogTs) ∧
      ∀ node, s.Rekeys device.mac device.ip →
        s.devicesByKey.lookup (s.findKeyLocked device.mac device.ip) = some node →
        (mergeDeviceLocked s.config node device now).lastSeen ≤
          (s.updateDevice now device).lastLogTs := by
  have hpos : ∀ d, 0 < (mergeDeviceLocked s.config d device now).lastSeen := fun d =>
    lt_of_lt_of_le hts (le_merge_lastSeen s.config now hts hin).2
  by_cases hkey : s.resolveKey device.mac device.ip = []
  · have hsame : s.updateDevice now device = s := by simp [updateDevice, hkey]
    refine ⟨by rw [hsame], fun h => absurd hkey h, fun node hmove _ => ?_⟩
    rw [hmove.resolveKey_eq] at hkey
    have hip := hmove.2.1
    rw [hkey] at hip
    exact absurd hip (by decide)
  · by_cases hmove : s.Rekeys device.mac device.ip
    · obtain ⟨node, hnode⟩ := AList.exists_lookup_of_mem hmove.2.2
      rw [updateDevice_of_rekeys hmove hnode]
      refine ⟨(touchLastLogLocked_le now (hpos node) _).1, fun _ h => absurd hmove h,
        fun node' _ hnode' => ?_⟩
      rw [hnode] at hnode'
      cases hnode'
      exact (touchLastLogLocked_le now (hpos node) _).2
    · rw [updateDevice_of_plain hkey hmove]
      exact ⟨(touchLastLogLocked_le now (hpos _) _).1,
        fun _ _ => (touchLastLogLocked_le now (hpos _) _).2, fun _ h => absurd h hmove⟩

/-- A traffic update raises the last-log time to the time of the snapshot. -/
theorem updateTraffic_logged {snapshot : TrafficSnapshot} (hts : 0 < snapshot.ts)
    (now : TimePoint) (s : StateStore) :
    s.lastLogTs ≤ (s.updateTraffic now snapshot).lastLogTs ∧
      (s.resolveKey snapshot.mac snapshot.ip ≠ [] →
        snapshot.ts ≤ (s.updateTraffic now snapshot).lastLogTs) := by
  have hstamp : (stampTraffic now snapshot).ts = snapshot.ts := if_neg hts.ne'
  by_cases hkey : s.resolveKey snapshot.mac snapshot.ip = []
  · exact ⟨by rw [updateTraffic_of_nil hkey], fun h => absurd hkey h⟩
  · rw [updateTraffic_of_key hkey]
    rw [← hstamp] at hts ⊢
    exact ⟨(touchLastLogLocked_le now hts _).1, fun _ => (touchLastLogLocked_le now hts _).2⟩

/-- A call with a positive time: one that is made for a line, or a cleanup pass. -/
def TimedCall (op : StoreOp) : Prop :=
  (∃ ts, 0 < ts ∧ App.BuiltAt ts op) ∨ ∃ now, 0 < now ∧ op = .cleanup now

/-- A timed notice about a device carries one time. -/
theorem TimedCall.device {now : TimePoint} {device : DeviceState}
    (h : TimedCall (.updateDevice now device)) : ∃ ts, 0 < ts ∧ App.ReportedAt ts device := by
  rcases h with ⟨ts, hts, hbuilt⟩ | ⟨now, -, hcleanup⟩
  · exact ⟨ts, hts, stampedAt_of_builtAt hbuilt⟩
  · exact absurd hcleanup (by simp)

/-- A timed traffic sample carries a time. -/
theorem TimedCall.traffic {now : TimePoint} {snapshot : TrafficSnapshot}
    (h : TimedCall (.updateTraffic now snapshot)) : 0 < snapshot.ts := by
  rcases h with ⟨ts, hts, hbuilt⟩ | ⟨now, -, hcleanup⟩
  · exact (stampedAt_of_builtAt hbuilt : snapshot.ts = ts) ▸ hts
  · exact absurd hcleanup (by simp)

/-- No timed call moves the time of the last log back. -/
theorem apply_lastLogTs_le {op : StoreOp} (hop : TimedCall op) (s : StateStore) :
    s.lastLogTs ≤ (s.apply op).lastLogTs := by
  rcases hop with ⟨ts, hts, hbuilt⟩ | ⟨now, hnow, rfl⟩
  · have hstamp := stampedAt_of_builtAt hbuilt
    cases op with
    | updateDevice now device => exact (updateDevice_logged hts hstamp.lastSeen now s).1
    | updateTraffic now snapshot => exact (updateTraffic_logged (hstamp ▸ hts) now s).1
    | updateInterface now snapshot =>
        obtain rfl : snapshot.ts = ts := hstamp
        show s.lastLogTs ≤ (s.updateInterface now snapshot).lastLogTs
        unfold updateInterface
        split
        · exact le_refl _
        · refine (touchLastLogLocked_le now ?_ _).1
          simpa [hts.ne'] using hts
    | addEvent now event =>
        obtain rfl : event.ts = ts := hstamp
        show s.lastLogTs ≤ (s.addEvent now event).lastLogTs
        unfold addEvent pushEventLocked
        refine le_trans ?_ (touchLastLogLocked_le now ?_ _).1
        · dsimp only
          split <;> exact le_refl _
        · simpa [hts.ne'] using hts
    | addWANAttack now later event =>
        obtain rfl : event.ts = ts := hstamp
        show s.lastLogTs ≤ (s.addWANAttack now later event).lastLogTs
        unfold addWANAttack
        refine (touchLastLogLocked_le later ?_ _).1
        simpa [hts.ne'] using hts
    | nextEventId => exact le_refl _
    | cleanup now => exact absurd hstamp id
  · exact cleanup_lastLogTs_le hnow s

/-! ## Every record, after every run -/

/-- The times of every record are in order and not after the last-log time. -/
def Timely (s : StateStore) : Prop :=
  AllRecords (fun _ d => InOrder d ∧ 0 < d.firstSeen ∧ d.lastSeen ≤ s.lastLogTs) s

/-- **A call with a positive time keeps the times in order.** -/
theorem Timely.next {s : StateStore} (h : Timely s) {op : StoreOp} (hop : TimedCall op) :
    Timely (s.apply op) := by
  have hlog := apply_lastLogTs_le hop s
  have hstart : AllRecords (fun _ d => InOrder d ∧ 0 < d.firstSeen ∧
      d.lastSeen ≤ (s.apply op).lastLogTs) s :=
    fun k d hd => ⟨(h k d hd).1, (h k d hd).2.1, (h k d hd).2.2.trans hlog⟩
  have hseed : ∀ key, InOrder (s.devicesByKey.getD key {}) := fun key =>
    AllRecords.getD (P := fun _ => InOrder) (fun k d hd => (h k d hd).1) inOrder_blank
  refine hstart.apply op ?_ ?_ ?_ ?_
  · rintro now device rfl hkey hplain
    obtain ⟨ts, hts, hreported⟩ := hop.device
    obtain ⟨horder, hfirst⟩ := (hseed _).afterMerge s.config now hreported hts
    exact ⟨horder, hfirst, (updateDevice_logged hts hreported.lastSeen now s).2.1 hkey hplain⟩
  · rintro now device node rfl hmove hnode
    obtain ⟨ts, hts, hreported⟩ := hop.device
    obtain ⟨horder, hfirst⟩ := (h _ node hnode).1.afterMerge s.config now hreported hts
    exact ⟨horder, hfirst,
      (updateDevice_logged hts hreported.lastSeen now s).2.2 node hmove hnode⟩
  · rintro now snapshot decision rfl hkey -
    have hts := hop.traffic
    have hstamp : (stampTraffic now snapshot).ts = snapshot.ts := if_neg hts.ne'
    obtain ⟨horder, hfirst⟩ := (hseed (s.resolveKey snapshot.mac snapshot.ip)).afterTraffic
      s.config (hstamp ▸ hts) decision
    have hlogged := (updateTraffic_logged hts now s).2 hkey
    refine ⟨horder, hfirst, max_le ?_ (hstamp ▸ hlogged)⟩
    exact AllRecords.getD (P := fun _ d => d.lastSeen ≤ (s.updateTraffic now snapshot).lastLogTs)
      (fun k d hd => (hstart k d hd).2.2) (hts.le.trans hlogged)
  · rintro now k d ⟨horder, hfirst, hseen⟩
    refine ⟨horder.afterSweep s.config now, ?_, ?_⟩
    · rw [sweepDevice_eq]
      exact hfirst
    · rw [sweepDevice_eq]
      exact hseen

/-- **A call keeps the first sighting of a record and moves the last one on.** -/
theorem Timely.carried {s : StateStore} (h : Timely s) {op : StoreOp} (hop : TimedCall op)
    {k : Str} {d d' : DeviceState} (hd : s.devicesByKey.lookup k = some d)
    (hd' : (s.apply op).devicesByKey.lookup (s.carriedKey k op) = some d') :
    d'.firstSeen = d.firstSeen ∧ d.lastSeen ≤ d'.lastSeen := by
  have hfirst : d.firstSeen ≠ 0 := (h k d hd).2.1.ne'
  rcases carried_record hd hd' with rfl | ⟨now, rfl⟩ | ⟨now, device, rfl, rfl⟩ |
    ⟨now, snapshot, decision, rfl, rfl⟩
  · exact ⟨rfl, le_refl _⟩
  · rw [sweepDevice_eq]
    exact ⟨rfl, le_refl _⟩
  · obtain ⟨ts, hts, hreported⟩ := hop.device
    exact ⟨if_neg hfirst, (le_merge_lastSeen s.config now hts hreported.lastSeen).1⟩
  · exact ⟨if_neg hfirst, le_max_left _ _⟩

/-- The record of `k` is there at every point of the run, under whatever key. -/
def Persists : StateStore → Str → List StoreOp → Prop
  | s, k, [] => k ∈ s.devicesByKey
  | s, k, op :: ops => k ∈ s.devicesByKey ∧ Persists (s.apply op) (s.carriedKey k op) ops

instance decidablePersists : (s : StateStore) → (k : Str) → (ops : List StoreOp) →
    Decidable (Persists s k ops)
  | s, k, [] => inferInstanceAs (Decidable (k ∈ s.devicesByKey))
  | s, k, op :: ops =>
      have := decidablePersists (s.apply op) (s.carriedKey k op) ops
      inferInstanceAs (Decidable (_ ∧ Persists (s.apply op) (s.carriedKey k op) ops))

/-- A record that persists is there. -/
theorem Persists.mem {s : StateStore} {k : Str} {ops : List StoreOp} (h : Persists s k ops) :
    k ∈ s.devicesByKey := by
  cases ops with
  | nil => exact h
  | cons op ops => exact h.1

/-- Over a run, a record keeps its first sighting and is never seen earlier. -/
theorem Timely.persists {s : StateStore} (h : Timely s) {ops : List StoreOp}
    (hops : ∀ op ∈ ops, TimedCall op) {k : Str} (hk : Persists s k ops) {d d' : DeviceState}
    (hd : s.devicesByKey.lookup k = some d)
    (hd' : (Runs.run apply s ops).devicesByKey.lookup (s.carriedKeys k ops) = some d') :
    d'.firstSeen = d.firstSeen ∧ d.lastSeen ≤ d'.lastSeen := by
  induction ops generalizing s k d with
  | nil =>
      obtain rfl : d = d' := Option.some.inj (hd.symm.trans hd')
      exact ⟨rfl, le_refl _⟩
  | cons op ops ih =>
      have hop := hops op List.mem_cons_self
      obtain ⟨next, hnext⟩ := AList.exists_lookup_of_mem hk.2.mem
      obtain ⟨hfirst, hseen⟩ := h.carried hop hd hnext
      obtain ⟨hfirst', hseen'⟩ := ih (h.next hop)
        (fun op' hop' => hops op' (List.mem_cons_of_mem op hop')) hk.2 hnext hd'
      exact ⟨hfirst'.trans hfirst, hseen.trans hseen'⟩

/-- Timed calls keep the times in order over a whole run. -/
theorem timely_run {s : StateStore} (h : Timely s) {ops : List StoreOp}
    (hops : ∀ op ∈ ops, TimedCall op) : Timely (Runs.run apply s ops) :=
  Runs.Conforms.invariant Timely (fun _ _ hs hop => hs.next hop)
    (Runs.conforms_of_forall (fun op hop _ => hops op hop) s) h

/-- Timed calls never move the time of the last log back. -/
theorem lastLogTs_le_run {ops : List StoreOp} (hops : ∀ op ∈ ops, TimedCall op) (s : StateStore) :
    s.lastLogTs ≤ (Runs.run apply s ops).lastLogTs :=
  Runs.Conforms.invariant (fun t : StateStore => s.lastLogTs ≤ t.lastLogTs)
    (fun t _ ht hop => ht.trans (apply_lastLogTs_le hop t))
    (Runs.conforms_of_forall (fun op hop _ => hops op hop) s) (le_refl _)

/-- **The timeline.**  In a run of calls with positive times every record satisfies
`0 < first_seen ≤ last_seen ≤ last_log_ts_`, and its DHCP, traffic and rate times are
unset or not after the last sighting.  As long as a record is there, its first
sighting stays and its last one does not go back, also when it is re-keyed; nor does
the last-log time. -/
theorem timeline_in_order (config : Config) (ops : List StoreOp)
    (hops : ∀ op ∈ ops, TimedCall op) :
    (∀ before after, ops = before ++ after →
      let s := Runs.run apply (init config) before
      ∀ k d, s.devicesByKey.lookup k = some d →
        0 < d.firstSeen ∧ d.firstSeen ≤ d.lastSeen ∧ d.lastSeen ≤ s.lastLogTs ∧
          (d.lastDhcp = 0 ∨ d.lastDhcp ≤ d.lastSeen) ∧
          (d.lastTraffic = 0 ∨ d.lastTraffic ≤ d.lastSeen) ∧
          (d.lastRate = 0 ∨ d.lastRate ≤ d.lastSeen)) ∧
    (∀ before between after, ops = before ++ between ++ after →
      let s := Runs.run apply (init config) before
      let t := Runs.run apply s between
      s.lastLogTs ≤ t.lastLogTs ∧
      ∀ k d d', Persists s k between → s.devicesByKey.lookup k = some d →
        t.devicesByKey.lookup (s.carriedKeys k between) = some d' →
        d'.firstSeen = d.firstSeen ∧ d.lastSeen ≤ d'.lastSeen) := by
  have hstart : Timely (init config) := allRecords_init config
  constructor
  · rintro before after rfl s k d hd
    obtain ⟨horder, hpos, hlog⟩ := timely_run hstart
      (fun op hop => hops op (List.mem_append_left after hop)) k d hd
    exact ⟨hpos, (horder.first.resolve_left hpos.ne').2, hlog, horder.dhcp, horder.traffic,
      horder.rate⟩
  · rintro before between after rfl s t
    have hbefore : ∀ op ∈ before, TimedCall op := fun op hop =>
      hops op (List.mem_append_left after (List.mem_append_left between hop))
    have hbetween : ∀ op ∈ between, TimedCall op := fun op hop =>
      hops op (List.mem_append_left after (List.mem_append_right before hop))
    exact ⟨lastLogTs_le_run hbetween s, fun k d d' hk hd hd' =>
      (timely_run hstart hbefore).persists hbetween hk hd hd'⟩

/-- The calls of a line about a device that is known by its address only. -/
def addressCalls : List StoreOp :=
  App.eventCalls ⟨0, 0, 0, 0, 0, 0, 0⟩
    { type := str "netdev"
      fields := (∅ : StrMap Str).insert (str "ip") (str "10.0.0.5")
      raw := [] }
    { ts := seconds 5 }

/-- The calls of a DHCP line that brings its MAC. -/
def leaseCalls : List StoreOp :=
  App.eventCalls ⟨0, 0, 0, 0, 0, 0, 0⟩
    { type := str "dhcp"
      fields := ((∅ : StrMap Str).insert (str "ip") (str "10.0.0.5")).insert (str "mac")
        (str "aa:01")
      raw := [] }
    { ts := seconds 9 }

/-- The lease moves the record to the key of its MAC.  It keeps its first sighting and is in
order there. -/
theorem timeline_in_order_rekeyed :
    let s := Runs.run apply (init {}) addressCalls
    let t := Runs.run apply s leaseCalls
    ∃ d d', s.devicesByKey.lookup (ipKey (str "10.0.0.5")) = some d ∧
      t.devicesByKey.lookup (macKey (str "aa:01")) = some d' ∧
      (d'.firstSeen = d.firstSeen ∧ d.lastSeen ≤ d'.lastSeen) ∧
      0 < d'.firstSeen ∧ d'.firstSeen ≤ d'.lastSeen ∧ d'.lastSeen ≤ t.lastLogTs := by
  intro s t
  have hops : ∀ op ∈ addressCalls ++ leaseCalls, TimedCall op := by
    intro op hop
    rcases List.mem_append.mp hop with hop | hop
    · exact Or.inl ⟨seconds 5, by decide, Or.inr ⟨_, _, _, rfl, hop⟩⟩
    · exact Or.inl ⟨seconds 9, by decide, Or.inr ⟨_, _, _, rfl, hop⟩⟩
  obtain ⟨horder, hkept⟩ := timeline_in_order {} (addressCalls ++ leaseCalls) hops
  obtain ⟨d, hd⟩ := AList.exists_lookup_of_mem
    (show ipKey (str "10.0.0.5") ∈ s.devicesByKey by decide +kernel)
  obtain ⟨d', hd'⟩ := AList.exists_lookup_of_mem
    (show macKey (str "aa:01") ∈ t.devicesByKey by decide +kernel)
  have hcarried : s.carriedKeys (ipKey (str "10.0.0.5")) leaseCalls = macKey (str "aa:01") := by
    decide +kernel
  have hpersists := (hkept addressCalls leaseCalls [] (List.append_nil _).symm).2
    (ipKey (str "10.0.0.5")) d d' (by decide +kernel) hd (hcarried.symm ▸ hd')
  have hrun : Runs.run apply (init {}) (addressCalls ++ leaseCalls) = t :=
    Runs.run_append apply _ _ _
  have hlast := horder (addressCalls ++ leaseCalls) [] (List.append_nil _).symm
    (macKey (str "aa:01")) d' (hrun.symm ▸ hd')
  rw [hrun] at hlast
  exact ⟨d, d', hd, hd', hpersists, hlast.1, hlast.2.1, hlast.2.2.1⟩

end StateStore

end Netmon
