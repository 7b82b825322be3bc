import Netmon.AgeOut
import Netmon.RateDecision

/-!
# The live views

The two views of the store, `devices()` and `summary()`, against each other and against the
history.  At one time they agree: the summary counts under every status the devices that are
listed with it, and the list is in the order of the statuses and of the last sightings
(`live_views_agree`).

The rate of the summary is that of the interface whose rate was set last, if that is at most
ten seconds ago, and otherwise the sum over the devices.  Which interface that is and what it
shows is a function of the reports alone (`live_rates_of_history`): a report that sets no rate,
because a counter went down or no time passed, shows zero until the next one, for as long as
the last rate before it is fresh.
-/

namespace Netmon

namespace StateStore

/-! ## Devices and their counts -/

/-- The devices that a summary counts under a status. -/
def devicesIn (summary : Summary) : DeviceStatus → Nat
  | .online => summary.activeDevices
  | .idle => summary.idleDevices
  | .offline => summary.offlineDevices
  | .unknown => summary.unknownDevices

/-- A device is counted under its status. -/
theorem devicesIn_countDevice (config : Config) (now : TimePoint) (out : Summary)
    (device : DeviceState) (status : DeviceStatus) :
    devicesIn (countDevice config now out device) status =
      devicesIn out status + if statusFor config device now = status then 1 else 0 := by
  unfold countDevice
  cases statusFor config device now <;> cases status <;> rfl

/-- The rates of a device are added to the sums. -/
theorem rates_countDevice (config : Config) (now : TimePoint) (out : Summary)
    (device : DeviceState) :
    (countDevice config now out device).rxRateBps = out.rxRateBps + device.rxRateBps ∧
      (countDevice config now out device).txRateBps = out.txRateBps + device.txRateBps ∧
      (countDevice config now out device).rateSource = out.rateSource := by
  unfold countDevice
  cases statusFor config device now <;> exact ⟨rfl, rfl, rfl⟩

/-- **The counting loop**, from any summary on. -/
theorem foldl_countDevice (config : Config) (now : TimePoint) (devices : List DeviceState)
    (out : Summary) :
    let counted := devices.foldl (countDevice config now) out
    (∀ status, devicesIn counted status =
        devicesIn out status + devices.countP fun d => statusFor config d now = status) ∧
      counted.rxRateBps = out.rxRateBps + (devices.map DeviceState.rxRateBps).sum ∧
      counted.txRateBps = out.txRateBps + (devices.map DeviceState.txRateBps).sum ∧
      counted.rateSource = out.rateSource := by
  induction devices generalizing out with
  | nil => simp
  | cons d devices ih =>
      obtain ⟨hcount, hrx, htx, hsource⟩ := ih (countDevice config now out d)
      obtain ⟨hrx', htx', hsource'⟩ := rates_countDevice config now out d
      refine ⟨fun status => ?_, ?_, ?_, hsource.trans hsource'⟩
      · rw [List.foldl_cons, hcount, devicesIn_countDevice, List.countP_cons]
        simp only [decide_eq_true_eq]
        omega
      · rw [List.foldl_cons, hrx, hrx', List.map_cons, List.sum_cons, add_assoc]
      · rw [List.foldl_cons, htx, htx', List.map_cons, List.sum_cons, add_assoc]

/-- The records as `devices()` shows them, before they are sorted. -/
def shown (now : TimePoint) (s : StateStore) : List DeviceState :=
  s.devicesByKey.entries.map fun e => { e.2 with status := statusFor s.config e.2 now }

/-- The devices that are shown are those of the store, in some order. -/
theorem devices_perm (s : StateStore) (now : TimePoint) : (s.devices now).Perm (s.shown now) :=
  List.perm_insertionSort _ _

/-- The order of the list: by status, then the last seen first. -/
def ListedBefore (a b : DeviceState) : Prop :=
  statusRank a.status < statusRank b.status ∨ a.status = b.status ∧ b.lastSeen ≤ a.lastSeen

/-- Different statuses have different ranks. -/
theorem statusRank_injective : Function.Injective statusRank := by
  intro a b h
  cases a <;> cases b <;> first | rfl | exact absurd h (by decide)

/-- The order of the list, in the words of the source's comparison. -/
theorem listedBefore_iff {a b : DeviceState} : ListedBefore a b ↔ ¬ devicesBefore b a = true := by
  unfold ListedBefore devicesBefore
  by_cases hsame : b.status = a.status
  · simp [hsame]
  · have hrank : statusRank b.status ≠ statusRank a.status := fun h =>
      hsame (statusRank_injective h)
    simp only [hsame, Ne, not_false_eq_true, if_true, decide_eq_true_eq, not_lt,
      Ne.symm hsame, false_and, or_false]
    exact ⟨le_of_lt, fun h => lt_of_le_of_ne h (Ne.symm hrank)⟩

/-- Of two devices one may stand before the other. -/
theorem listedBefore_total (a b : DeviceState) : ListedBefore a b ∨ ListedBefore b a := by
  unfold ListedBefore
  rcases lt_trichotomy (statusRank a.status) (statusRank b.status) with h | h | h
  · exact Or.inl (Or.inl h)
  · have hsame := statusRank_injective h
    rcases le_total b.lastSeen a.lastSeen with hseen | hseen
    · exact Or.inl (Or.inr ⟨hsame, hseen⟩)
    · exact Or.inr (Or.inr ⟨hsame.symm, hseen⟩)
  · exact Or.inr (Or.inl h)

/-- The order of the list is transitive. -/
theorem ListedBefore.trans {a b c : DeviceState} (hab : ListedBefore a b)
    (hbc : ListedBefore b c) : ListedBefore a c := by
  rcases hab with hab | ⟨hab, hseen⟩
  · rcases hbc with hbc | ⟨hbc, -⟩
    · exact Or.inl (hab.trans hbc)
    · exact Or.inl (hbc ▸ hab)
  · rcases hbc with hbc | ⟨hbc, hseen'⟩
    · exact Or.inl (hab ▸ hbc)
    · exact Or.inr ⟨hab.trans hbc, le_trans hseen' hseen⟩

/-- **The list of the devices is in order.** -/
theorem devices_listed (s : StateStore) (now : TimePoint) :
    (s.devices now).Pairwise ListedBefore := by
  have htotal : Std.Total fun a b : DeviceState => ¬ devicesBefore b a = true := by
    constructor
    intro a b
    rw [← listedBefore_iff, ← listedBefore_iff]
    exact listedBefore_total a b
  have htrans : IsTrans DeviceState fun a b => ¬ devicesBefore b a = true := by
    constructor
    intro a b c hab hbc
    rw [← listedBefore_iff] at hab hbc ⊢
    exact hab.trans hbc
  have hsorted := List.pairwise_insertionSort (fun a b => ¬ devicesBefore b a = true)
    (s.shown now)
  exact hsorted.imp fun h => listedBefore_iff.mpr h

/-- The summary counts the devices of the list, by their statuses. -/
theorem summary_counts (s : StateStore) (now : TimePoint) (status : DeviceStatus) :
    devicesIn (s.summary now) status =
      (s.devices now).countP fun d => d.status = status := by
  have hcounted := (foldl_countDevice s.config now (s.devicesByKey.entries.map Sigma.snd)
    { lastLogTs := s.lastLogTs }).1 status
  have hnone : devicesIn ({ lastLogTs := s.lastLogTs } : Summary) status = 0 := by
    cases status <;> rfl
  have hsame : devicesIn (s.summary now) status =
      devicesIn ((s.devicesByKey.entries.map Sigma.snd).foldl (countDevice s.config now)
        { lastLogTs := s.lastLogTs }) status := by
    unfold summary
    split <;> cases status <;> rfl
  rw [hsame, hcounted, hnone, Nat.zero_add, (s.devices_perm now).countP_eq, shown,
    List.countP_map, List.countP_map]
  rfl

/-- Every device has one of the four statuses. -/
theorem length_eq_sum_statuses (devices : List DeviceState) :
    devices.length =
      (devices.countP fun d => d.status = .online) + (devices.countP fun d => d.status = .idle) +
        (devices.countP fun d => d.status = .offline) +
        (devices.countP fun d => d.status = .unknown) := by
  induction devices with
  | nil => rfl
  | cons d devices ih =>
      simp only [List.countP_cons, List.length_cons, ih, decide_eq_true_eq]
      cases d.status <;> simp <;> omega

/-- **The live views agree.**  At one time the summary counts under every status the devices
that are listed with it, and all of them together; the list holds every record once, those
that are online first and under one status the last seen first. -/
theorem live_views_agree (s : StateStore) (now : TimePoint) :
    (∀ status, devicesIn (s.summary now) status =
        (s.devices now).countP fun d => d.status = status) ∧
      (s.summary now).activeDevices + (s.summary now).idleDevices +
        (s.summary now).offlineDevices + (s.summary now).unknownDevices =
          s.devicesByKey.keys.length ∧
      (s.devices now).Perm (s.devicesByKey.entries.map fun e =>
        { e.2 with status := statusFor s.config e.2 now }) ∧
      (s.devices now).Pairwise ListedBefore := by
  refine ⟨s.summary_counts now, ?_, s.devices_perm now, s.devices_listed now⟩
  have hkeys : s.devicesByKey.keys.length = (s.devices now).length := by
    rw [(s.devices_perm now).length_eq, shown, List.length_map]
    exact List.length_map _
  rw [hkeys, length_eq_sum_statuses, ← summary_counts, ← summary_counts, ← summary_counts,
    ← summary_counts]
  rfl

/-! ## The interface that is shown -/

/-- A rate that was set at most ten seconds ago. -/
def IsFresh (now lastRate : TimePoint) : Prop := lastRate ≠ 0 ∧ now - lastRate ≤ seconds 10

/-- One round of the search. -/
def fresher (now : TimePoint) (best : Option InterfaceState) (iface : InterfaceState) :
    Option InterfaceState :=
  if iface.lastRate = 0 ∨ now - iface.lastRate > seconds 10 then best
  else
    match best with
    | none => some iface
    | some chosen => if iface.lastRate > chosen.lastRate then some iface else some chosen

/-- What the search knows of the interfaces it has seen. -/
structure Freshest (now : TimePoint) (seen : List InterfaceState) (best : Option InterfaceState) :
    Prop where
  chosen : ∀ b, best = some b → b ∈ seen ∧ IsFresh now b.lastRate
  newest : ∀ i ∈ seen, IsFresh now i.lastRate → ∃ b, best = some b ∧ i.lastRate ≤ b.lastRate

/-- An interface that is not fresher leaves the choice as it is. -/
theorem Freshest.keep {now : TimePoint} {seen : List InterfaceState}
    {best : Option InterfaceState} (h : Freshest now seen best) {iface : InterfaceState}
    (hiface : IsFresh now iface.lastRate → ∃ b, best = some b ∧ iface.lastRate ≤ b.lastRate) :
    Freshest now (seen ++ [iface]) best where
  chosen := fun b hb => ⟨List.mem_append_left _ (h.chosen b hb).1, (h.chosen b hb).2⟩
  newest := by
    intro i hi hfresh
    rcases List.mem_append.mp hi with hold | hnew
    · exact h.newest i hold hfresh
    · rw [List.mem_singleton.mp hnew] at hfresh ⊢
      exact hiface hfresh

/-- One that is fresher becomes the choice. -/
theorem Freshest.replace {now : TimePoint} {seen : List InterfaceState}
    {best : Option InterfaceState} (h : Freshest now seen best) {iface : InterfaceState}
    (hfresh : IsFresh now iface.lastRate)
    (hnewer : ∀ b, best = some b → b.lastRate ≤ iface.lastRate) :
    Freshest now (seen ++ [iface]) (some iface) where
  chosen := by
    intro b hb
    obtain rfl := Option.some.inj hb
    exact ⟨List.mem_append_right _ List.mem_cons_self, hfresh⟩
  newest := by
    intro i hi hi'
    refine ⟨iface, rfl, ?_⟩
    rcases List.mem_append.mp hi with hold | hnew
    · obtain ⟨b, hb, hle⟩ := h.newest i hold hi'
      exact le_trans hle (hnewer b hb)
    · rw [List.mem_singleton.mp hnew]

/-- **A round keeps what the search knows.** -/
theorem Freshest.step {now : TimePoint} {seen : List InterfaceState}
    {best : Option InterfaceState} (h : Freshest now seen best) (iface : InterfaceState) :
    Freshest now (seen ++ [iface]) (fresher now best iface) := by
  unfold fresher
  by_cases hstale : iface.lastRate = 0 ∨ now - iface.lastRate > seconds 10
  · rw [if_pos hstale]
    refine h.keep fun hfresh => ?_
    rcases hstale with hzero | hold
    · exact absurd hzero hfresh.1
    · exact absurd hfresh.2 (not_le.mpr hold)
  · rw [if_neg hstale]
    have hfresh : IsFresh now iface.lastRate :=
      ⟨fun hzero => hstale (Or.inl hzero), not_lt.mp fun hold => hstale (Or.inr hold)⟩
    cases best with
    | none => exact h.replace hfresh fun b hb => absurd hb (by simp)
    | some chosen =>
        simp only
        split
        · rename_i hlater
          refine h.replace hfresh fun b hb => ?_
          obtain rfl := Option.some.inj hb
          exact le_of_lt hlater
        · rename_i hlater
          exact h.keep fun _ => ⟨chosen, rfl, not_lt.mp hlater⟩

/-- The loop over the interfaces chooses the freshest. -/
theorem freshest_foldl {now : TimePoint} {seen : List InterfaceState}
    {best : Option InterfaceState} (h : Freshest now seen best) (more : List InterfaceState) :
    Freshest now (seen ++ more) (more.foldl (fresher now) best) := by
  induction more generalizing seen best with
  | nil =>
      rw [List.append_nil]
      exact h
  | cons iface more ih =>
      have hlater := ih (h.step iface)
      rw [List.append_assoc, List.singleton_append] at hlater
      exact hlater

/-- The chosen interface is the freshest of all. -/
theorem freshest_freshestInterface (s : StateStore) (now : TimePoint) :
    Freshest now (s.interfacesByName.entries.map Sigma.snd) (s.freshestInterface now) := by
  have hnone : Freshest now [] none := ⟨fun b hb => absurd hb (by simp), fun i hi => by simp at hi⟩
  exact freshest_foldl hnone _

/-! ## Interfaces and their reports -/

/-- The report of an interface that a call processes. -/
def reportsIn (name : Str) : StoreOp → List InterfaceSnapshot
  | .updateInterface now snapshot =>
      if snapshot.interfaceName = name ∧ name ≠ [] then [stampInterface now snapshot] else []
  | _ => []

/-- The reports of an interface in a history. -/
def reportsOf (name : Str) (ops : List StoreOp) : List InterfaceSnapshot :=
  ops.flatMap (reportsIn name)

/-- The state of an interface and its last report after one more. -/
def entryAfter (entry : InterfaceState × Option InterfaceSnapshot) (report : InterfaceSnapshot) :
    InterfaceState × Option InterfaceSnapshot :=
  (interfaceAfter entry.1 report (interfaceRates entry.2 report), some report)

/-- What the tables hold of an interface. -/
def entry (s : StateStore) (name : Str) : InterfaceState × Option InterfaceSnapshot :=
  (s.interfacesByName.getD name {}, s.interfaceSnapshots.lookup name)

/-- **A call changes an interface only by its report.** -/
theorem entry_apply (s : StateStore) (op : StoreOp) (name : Str) :
    (s.apply op).entry name = (reportsIn name op).foldl entryAfter (s.entry name) := by
  have hquiet : ∀ {t : StateStore}, SameInterfaces s t → t.entry name = s.entry name := by
    intro t h
    rw [entry, entry, h.states, h.snapshots]
  cases op with
  | updateDevice now device => exact hquiet (updateDevice_sameInterfaces now device s)
  | updateTraffic now snapshot => exact hquiet (updateTraffic_sameInterfaces now snapshot s)
  | addEvent now event => exact hquiet (addEvent_sameInterfaces now event s)
  | addWANAttack now later event =>
      exact hquiet (SameInterfaces.trans (by exact ⟨rfl, rfl⟩)
        (touchLastLogLocked_sameInterfaces _ _ _))
  | nextEventId => exact hquiet (by exact ⟨rfl, rfl⟩)
  | cleanup now => exact hquiet (cleanup_sameInterfaces now s)
  | updateInterface now snapshot =>
      show (s.updateInterface now snapshot).entry name = _
      by_cases hname : snapshot.interfaceName = []
      · have hnone : ¬ (snapshot.interfaceName = name ∧ name ≠ []) := fun h => h.2 (h.1 ▸ hname)
        rw [reportsIn, if_neg hnone, updateInterface, if_pos hname]
        rfl
      · obtain ⟨hstates, hsnapshots⟩ := updateInterface_tables hname now s
        rw [entry, hstates, hsnapshots]
        by_cases hsame : snapshot.interfaceName = name
        · subst hsame
          rw [reportsIn, if_pos ⟨rfl, hname⟩, AList.getD, AList.lookup_insert, AList.lookup_insert]
          rfl
        · have hother : ¬ (snapshot.interfaceName = name ∧ name ≠ []) := fun h => hsame h.1
          rw [reportsIn, if_neg hother, AList.getD, AList.lookup_insert_ne (Ne.symm hsame),
            AList.lookup_insert_ne (Ne.symm hsame)]
          rfl

/-- **A history leaves of an interface what its reports make of it.** -/
theorem entry_run (s : StateStore) (ops : List StoreOp) (name : Str) :
    (Runs.run apply s ops).entry name = (reportsOf name ops).foldl entryAfter (s.entry name) := by
  induction ops generalizing s with
  | nil => rfl
  | cons op ops ih =>
      rw [Runs.run_cons, ih, entry_apply, reportsOf, reportsOf, List.flatMap_cons,
        List.foldl_append]

/-- The times of the reports that set a rate. -/
def ratedTimes : List InterfaceSnapshot → List TimePoint
  | previous :: report :: reports =>
      (if (interfaceRates (some previous) report).isSome then [report.ts] else []) ++
        ratedTimes (report :: reports)
  | _ => []

/-- When a rate was set last; zero if never. -/
def lastRated (reports : List InterfaceSnapshot) : TimePoint :=
  (ratedTimes reports).getLast?.getD 0

/-- The last rate is that of the last report that had one. -/
theorem lastRate_foldl (reports : List InterfaceSnapshot) (state : InterfaceState)
    (previous : InterfaceSnapshot) :
    (reports.foldl entryAfter (state, some previous)).1.lastRate =
      (ratedTimes (previous :: reports)).getLast?.getD state.lastRate := by
  induction reports generalizing state previous with
  | nil => rfl
  | cons report reports ih =>
      have hstep : entryAfter (state, some previous) report =
          (interfaceAfter state report (interfaceRates (some previous) report), some report) := rfl
      rw [List.foldl_cons, hstep, ih, ratedTimes, List.getLast?_append]
      cases hlast : (ratedTimes (report :: reports)).getLast? with
      | some time => simp
      | none => by_cases hrated : (interfaceRates (some previous) report).isSome <;>
          simp [interfaceAfter, hrated]

/-- From the first report on, the last rate is that of the last report that had one. -/
theorem lastRate_reports (reports : List InterfaceSnapshot) :
    (reports.foldl entryAfter ({}, none)).1.lastRate = lastRated reports := by
  cases reports with
  | nil => rfl
  | cons first reports => exact lastRate_foldl reports _ first

/-- The last report is kept. -/
theorem lastReport_reports (reports : List InterfaceSnapshot) :
    (reports.foldl entryAfter ({}, none)).2 = reports.getLast? := by
  induction reports using List.reverseRecOn with
  | nil => rfl
  | append_singleton earlier last _ =>
      rw [List.foldl_append, List.getLast?_concat]
      rfl

/-- The reports of a name have that name. -/
theorem interfaceName_of_mem {name : Str} {ops : List StoreOp} {report : InterfaceSnapshot}
    (h : report ∈ reportsOf name ops) : report.interfaceName = name := by
  obtain ⟨op, -, hop⟩ := List.mem_flatMap.mp h
  cases op with
  | updateInterface now snapshot =>
      simp only [reportsIn] at hop
      split at hop
      · rename_i hname
        rw [List.mem_singleton.mp hop]
        exact hname.1
      · exact absurd hop List.not_mem_nil
  | _ => exact absurd hop List.not_mem_nil

/-- After any calls the last rate is that of the reports of that interface. -/
theorem lastRate_run (config : Config) (ops : List StoreOp) (name : Str) :
    ((Runs.run apply (init config) ops).entry name).1.lastRate =
      lastRated (reportsOf name ops) := by
  rw [entry_run]
  exact lastRate_reports _

/-- A record of an interface is what its table entry shows. -/
theorem entry_of_lookup {s : StateStore} {name : Str} {iface : InterfaceState}
    (h : s.interfacesByName.lookup name = some iface) : (s.entry name).1 = iface := by
  rw [entry, AList.getD, h]
  rfl

/-- An interface that set a rate is in the table. -/
theorem lookup_of_rated {config : Config} {ops : List StoreOp} {name : Str}
    (h : lastRated (reportsOf name ops) ≠ 0) :
    ∃ iface, (Runs.run apply (init config) ops).interfacesByName.lookup name = some iface ∧
      iface.lastRate = lastRated (reportsOf name ops) := by
  have hrate := lastRate_run config ops name
  cases hlookup : (Runs.run apply (init config) ops).interfacesByName.lookup name with
  | none =>
      rw [entry, AList.getD, hlookup] at hrate
      exact absurd hrate.symm h
  | some iface =>
      rw [entry_of_lookup hlookup] at hrate
      exact ⟨iface, rfl, hrate⟩

/-- **What an interface shows** is set by its last report and the one before it. -/
theorem interface_of_reports {config : Config} {ops : List StoreOp} {name : Str}
    {iface : InterfaceState}
    (hlookup : (Runs.run apply (init config) ops).interfacesByName.lookup name = some iface)
    (hrated : iface.lastRate ≠ 0) :
    ∃ earlier last, reportsOf name ops = earlier ++ [last] ∧ iface.interfaceName = name ∧
      iface.lastSeen = last.ts ∧ iface.lastRate = lastRated (reportsOf name ops) ∧
      iface.rxRateBps = ((interfaceRates earlier.getLast? last).map Prod.fst).getD 0 ∧
      iface.txRateBps = ((interfaceRates earlier.getLast? last).map Prod.snd).getD 0 := by
  have hrate := lastRate_run config ops name
  have hentry := entry_run (init config) ops name
  have hiface := entry_of_lookup hlookup
  rw [hiface] at hrate
  have hne : reportsOf name ops ≠ [] := by
    intro hnil
    rw [hnil] at hrate
    exact hrated hrate
  obtain ⟨earlier, last, hreports⟩ :=
    (List.eq_nil_or_concat' (reportsOf name ops)).resolve_left hne
  have hname : last.interfaceName = name :=
    interfaceName_of_mem (hreports ▸ List.mem_append_right _ List.mem_cons_self)
  have hlast : iface = interfaceAfter (earlier.foldl entryAfter ({}, none)).1 last
      (interfaceRates earlier.getLast? last) := by
    rw [← lastReport_reports, ← hiface, hentry, hreports, List.foldl_append]
    rfl
  refine ⟨earlier, last, hreports, ?_, ?_, hrate, ?_, ?_⟩
  · rw [hlast]
    exact hname
  · rw [hlast]
    rfl
  · rw [hlast]
    rfl
  · rw [hlast]
    rfl

/-- The summary without a fresh interface shows the sum over the devices. -/
theorem summary_of_none {s : StateStore} {now : TimePoint} (h : s.freshestInterface now = none) :
    (s.summary now).rateSource = str "devices" ∧
      (s.summary now).rxRateBps = ((s.devices now).map DeviceState.rxRateBps).sum ∧
      (s.summary now).txRateBps = ((s.devices now).map DeviceState.txRateBps).sum := by
  obtain ⟨-, hrx, htx, hsource⟩ := foldl_countDevice s.config now
    (s.devicesByKey.entries.map Sigma.snd) { lastLogTs := s.lastLogTs }
  have hperm := s.devices_perm now
  unfold summary
  rw [h]
  refine ⟨hsource, ?_, ?_⟩
  · rw [(hperm.map _).sum_eq, shown, List.map_map]
    refine hrx.trans ?_
    rw [zero_add, List.map_map]
    rfl
  · rw [(hperm.map _).sum_eq, shown, List.map_map]
    refine htx.trans ?_
    rw [zero_add, List.map_map]
    rfl

/-- With a fresh interface, the rates of the summary are those of the interface. -/
theorem summary_of_some {s : StateStore} {now : TimePoint} {iface : InterfaceState}
    (h : s.freshestInterface now = some iface) :
    (s.summary now).rateSource = str "interface" ∧
      (s.summary now).rateInterface = iface.interfaceName ∧
      (s.summary now).lastInterfaceTs = iface.lastSeen ∧
      (s.summary now).rxRateBps = iface.rxRateBps ∧
      (s.summary now).txRateBps = iface.txRateBps := by
  unfold summary
  rw [h]
  exact ⟨rfl, rfl, rfl, rfl, rfl⟩

/-- The interfaces are those under some name. -/
theorem mem_interfaces_iff {s : StateStore} {iface : InterfaceState} :
    iface ∈ s.interfacesByName.entries.map Sigma.snd ↔
      ∃ name, s.interfacesByName.lookup name = some iface := by
  constructor
  · intro h
    obtain ⟨⟨name, state⟩, hmem, rfl⟩ := List.mem_map.mp h
    exact ⟨name, AList.mem_lookup_iff.mpr hmem⟩
  · intro h
    obtain ⟨name, hname⟩ := h
    exact List.mem_map.mpr ⟨⟨name, iface⟩, AList.mem_lookup_iff.mp hname, rfl⟩

/-- **The live rates, from the history.**  After any calls on a fresh store, the summary shows
the rates of an interface exactly when some interface set a rate at most ten seconds ago.  It is
one whose rate was set last, and the rates shown are those between its last two reports, or zero
if these set none.  Otherwise the summary shows the sum over the devices. -/
theorem live_rates_of_history (config : Config) (ops : List StoreOp) (now : TimePoint) :
    let s := Runs.run apply (init config) ops
    let summary := s.summary now
    let rated (name : Str) := lastRated (reportsOf name ops)
    (summary.rateSource = str "interface" ∧
        IsFresh now (rated summary.rateInterface) ∧
        (∀ other, IsFresh now (rated other) → rated other ≤ rated summary.rateInterface) ∧
        ∃ earlier last, reportsOf summary.rateInterface ops = earlier ++ [last] ∧
          summary.lastInterfaceTs = last.ts ∧
          summary.rxRateBps = ((interfaceRates earlier.getLast? last).map Prod.fst).getD 0 ∧
          summary.txRateBps = ((interfaceRates earlier.getLast? last).map Prod.snd).getD 0) ∨
      (summary.rateSource = str "devices" ∧ (∀ name, ¬ IsFresh now (rated name)) ∧
        summary.rxRateBps = ((s.devices now).map DeviceState.rxRateBps).sum ∧
        summary.txRateBps = ((s.devices now).map DeviceState.txRateBps).sum) := by
  intro s summary rated
  have hsearch := s.freshest_freshestInterface now
  -- a fresh name is in the table, under the time of its last rate
  have hnewest : ∀ name, IsFresh now (rated name) →
      ∃ best, s.freshestInterface now = some best ∧ rated name ≤ best.lastRate := by
    intro name hfresh
    obtain ⟨iface, hlookup, hrate⟩ := @lookup_of_rated config ops name hfresh.1
    have hmem := mem_interfaces_iff.mpr ⟨name, hlookup⟩
    obtain ⟨best, hbest, hle⟩ := hsearch.newest iface hmem (by rw [hrate]; exact hfresh)
    exact ⟨best, hbest, hrate.ge.trans hle⟩
  cases hbest : s.freshestInterface now with
  | none =>
      obtain ⟨hsource, hrx, htx⟩ := summary_of_none hbest
      refine Or.inr ⟨hsource, fun name hfresh => ?_, hrx, htx⟩
      obtain ⟨best, hsome, -⟩ := hnewest name hfresh
      rw [hbest] at hsome
      exact absurd hsome (by simp)
  | some iface =>
      obtain ⟨hmem, hfresh⟩ := hsearch.chosen iface hbest
      obtain ⟨name, hlookup⟩ := mem_interfaces_iff.mp hmem
      obtain ⟨earlier, last, hreports, hname, hseen, hrate, hrx, htx⟩ :=
        interface_of_reports hlookup hfresh.1
      obtain ⟨hsource, hshown, hts, hrx', htx'⟩ := summary_of_some hbest
      have hown : summary.rateInterface = name := hshown.trans hname
      refine Or.inl ⟨hsource, ?_, fun other hother => ?_, earlier, last, ?_, hts.trans hseen,
        hrx'.trans hrx, htx'.trans htx⟩
      · rw [hown]
        show IsFresh now (lastRated (reportsOf name ops))
        rw [← hrate]
        exact hfresh
      · obtain ⟨best, hsome, hle⟩ := hnewest other hother
        rw [hbest] at hsome
        obtain rfl := Option.some.inj hsome
        rw [hown]
        exact hle.trans_eq hrate
      · rw [hown]
        exact hreports

end StateStore

end Netmon
