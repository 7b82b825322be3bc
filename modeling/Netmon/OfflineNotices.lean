import Netmon.RecordTracks
import Netmon.EventHistory

/-!
# Notices of offline devices

A cleanup pass pushes one "Device offline" event for every record that was not
offline and has not been seen for the idle time.  The pass also stores the new
status, and time does not turn an offline record into anything else.  So as long
as cleanup times do not go back, a record is announced a second time only after a
device or traffic update has touched it.
-/

namespace Netmon

namespace StateStore

/-! ## The events of one pass -/

/-- The notices of a list of records, with consecutive ids above `n`. -/
def noticesFrom (n : Nat) (now : TimePoint) : List DeviceState → List Event
  | [] => []
  | device :: devices =>
      offlineEvent (eventIdText (n + 1)) now device :: noticesFrom (n + 1) now devices

/-- What a notice says: that a device is offline, when, and which one, with its addresses and
its name and nothing else in its fields. -/
structure IsNotice (now : TimePoint) (device : DeviceState) (e : Event) : Prop where
  ts : e.ts = now
  type : e.type = str "device"
  severity : e.severity = .warning
  source : e.source = str "state"
  message : e.message = str "Device offline"
  mac : e.fields.lookup (str "mac") = some device.mac
  ip : e.fields.lookup (str "ip") = some device.ip
  hostname : e.fields.lookup (str "hostname") = some device.hostname
  fields : ∀ key, key ∈ e.fields ↔ key ∈ [str "mac", str "ip", str "hostname"]

theorem isNotice_offlineEvent (id : Str) (now : TimePoint) (device : DeviceState) :
    IsNotice now device (offlineEvent id now device) where
  ts := rfl
  type := rfl
  severity := rfl
  source := rfl
  message := rfl
  mac := by
    have hip : str "mac" ≠ str "ip" := by decide
    have hname : str "mac" ≠ str "hostname" := by decide
    rw [offlineEvent, AList.lookup_insert_ne hname, AList.lookup_insert_ne hip,
      AList.lookup_insert]
  ip := by
    have hname : str "ip" ≠ str "hostname" := by decide
    rw [offlineEvent, AList.lookup_insert_ne hname, AList.lookup_insert]
  hostname := by rw [offlineEvent, AList.lookup_insert]
  fields := by
    intro key
    simp only [offlineEvent, AList.mem_insert, List.mem_cons, List.not_mem_nil, or_false,
      AList.notMem_empty]
    tauto

/-- **The notices are those of the records**, one for each and in their order. -/
theorem noticesFrom_isNotice (n : Nat) (now : TimePoint) (devices : List DeviceState) :
    List.Forall₂ (IsNotice now) devices (noticesFrom n now devices) := by
  induction devices generalizing n with
  | nil => exact .nil
  | cons device devices ih => exact .cons (isNotice_offlineEvent _ now device) (ih (n + 1))

/-- The ids of the notices are above `n`. -/
theorem noticesFrom_id {n : Nat} {now : TimePoint} {devices : List DeviceState} {e : Event}
    (h : e ∈ noticesFrom n now devices) : ∃ i, n < i ∧ e.id = eventIdText i := by
  induction devices generalizing n with
  | nil => simp [noticesFrom] at h
  | cons device devices ih =>
      rcases List.mem_cons.mp h with rfl | hrest
      · exact ⟨n + 1, by omega, rfl⟩
      · obtain ⟨i, hi, hid⟩ := ih hrest
        exact ⟨i, by omega, hid⟩

/-- No two notices have one id. -/
theorem noticesFrom_nodup (n : Nat) (now : TimePoint) (devices : List DeviceState) :
    ((noticesFrom n now devices).map Event.id).Nodup := by
  induction devices generalizing n with
  | nil => exact List.nodup_nil
  | cons device devices ih =>
      refine List.nodup_cons.mpr ⟨fun hmem => ?_, ih (n + 1)⟩
      obtain ⟨e, he, hid⟩ := List.mem_map.mp hmem
      obtain ⟨i, hi, hi'⟩ := noticesFrom_id he
      have heq : i = n + 1 := eventIdText_inj.mp (hi'.symm.trans hid)
      omega

/-- A notice names the record, which sweeping does not change. -/
theorem offlineEvent_sweepDevice (config : Config) (id : Str) (now : TimePoint)
    (device : DeviceState) :
    offlineEvent id now (sweepDevice config now device) = offlineEvent id now device := by
  rw [sweepDevice_eq]
  rfl

/-- The walk pushes the notices of the records that go offline, in order. -/
theorem announceAll_ring (now : TimePoint) (devices : List DeviceState) (s : StateStore) :
    (s.announceAll now devices).events =
      (noticesFrom s.eventSeq now (devices.filter (goesOffline s.config now))).foldl
        (fun ring e => ring.push e) s.events := by
  induction devices generalizing s with
  | nil => rfl
  | cons device devices ih =>
      by_cases h : goesOffline s.config now device = true
      · obtain ⟨hevents, hseq⟩ := announceOffline_ring now (sweepDevice s.config now device) s
        rw [announceAll_cons_of_pos h, ih, (announceOffline_same now _ s).config, hevents, hseq,
          offlineEvent_sweepDevice, List.filter_cons_of_pos h]
        rfl
      · rw [announceAll_cons_of_neg h, ih, List.filter_cons_of_neg h]

/-- **The events of a pass.**  The ring takes the notices of the records that go
offline and nothing else, and the counter moves on by their number. -/
theorem cleanup_ring (now : TimePoint) (s : StateStore) :
    (s.cleanup now).events =
        (noticesFrom s.eventSeq now (s.records.filter (goesOffline s.config now))).foldl
          (fun ring e => ring.push e) s.events ∧
      (s.cleanup now).eventSeq =
        s.eventSeq + (s.records.filter (goesOffline s.config now)).length := by
  refine ⟨(cleanup_sameEvents now s).events.trans (announceAll_ring now s.records s), ?_⟩
  rw [(cleanup_events now s).2, List.countP_eq_length_filter]
  rfl

/-! ## Between two notices -/

/-- A pass at `now` announces the record of `k`. -/
def Announced (s : StateStore) (now : TimePoint) (k : Str) : Prop :=
  ∃ d, s.devicesByKey.lookup k = some d ∧ d.status ≠ .offline ∧ d.lastSeen ≠ 0 ∧
    now - d.lastSeen > seconds s.config.deviceIdleTtlSeconds

/-- There is no record under `k`, or it is offline at `now` and stored so. -/
def Silent (s : StateStore) (now : TimePoint) (k : Str) : Prop :=
  ∀ d, s.devicesByKey.lookup k = some d →
    d.status = .offline ∧ statusFor s.config d now = .offline

/-- What a pass has announced is silent after it. -/
theorem Announced.silent {s : StateStore} {now : TimePoint} {k : Str} (h : s.Announced now k) :
    (s.cleanup now).Silent now k := by
  obtain ⟨d, hd, -, hseen, hage⟩ := h
  have hoffline : statusFor s.config d now = .offline :=
    statusFor_eq_offline_iff.mpr ⟨hseen, hage⟩
  intro d' hd'
  rw [cleanup_lookup, hd] at hd'
  obtain ⟨e, he, rfl⟩ := Option.map_eq_some_iff.mp hd'
  obtain rfl : d = e := Option.some.inj (Option.filter_eq_some_iff.mp he).1
  rw [(s.cleanup_tables now).1, sweepDevice_status, statusFor_sweepDevice]
  exact ⟨hoffline, hoffline⟩

/-- A call that does not touch a silent record leaves it silent, if a cleanup pass
does not go back in time. -/
theorem Silent.next {s : StateStore} {now : TimePoint} {k : Str} (h : s.Silent now k)
    {op : StoreOp} (hop : ¬ s.Touches k op) (htime : ∀ later, op = .cleanup later → now ≤ later) :
    (s.apply op).Silent now k := by
  intro d hd
  rw [(s.apply_records op).1]
  rcases lookup_of_not_touches hop with ⟨later, rfl⟩ | hsame
  · rw [show s.apply (.cleanup later) = s.cleanup later from rfl, cleanup_lookup] at hd
    obtain ⟨e, he, rfl⟩ := Option.map_eq_some_iff.mp hd
    obtain ⟨-, hoffline⟩ := h e (Option.filter_eq_some_iff.mp he).1
    rw [sweepDevice_status, statusFor_sweepDevice]
    exact ⟨statusFor_offline_mono (htime later rfl) hoffline, hoffline⟩
  · rw [hsame] at hd
    exact h d hd

/-- A silent record is not announced. -/
theorem Silent.not_announced {s : StateStore} {now later : TimePoint} {k : Str}
    (h : s.Silent now k) : ¬ s.Announced later k := by
  rintro ⟨d, hd, hstatus, -⟩
  exact hstatus (h d hd).1

/-- The times of the cleanup passes of a run. -/
def cleanupTimes (ops : List StoreOp) : List TimePoint :=
  ops.filterMap fun
    | .cleanup now => some now
    | _ => none

/-- A silent record that becomes anything else was touched on the way. -/
theorem Silent.touched {s : StateStore} {now : TimePoint} {k : Str} (h : s.Silent now k)
    {ops : List StoreOp} (htimes : ∀ later ∈ cleanupTimes ops, now ≤ later)
    (hend : ¬ (Runs.run apply s ops).Silent now (s.carriedKeys k ops)) :
    ∃ pre op post, ops = pre ++ op :: post ∧
      (Runs.run apply s pre).Touches (s.carriedKeys k pre) op := by
  induction ops generalizing s k with
  | nil => exact absurd h hend
  | cons op ops ih =>
      by_cases htouch : s.Touches k op
      · exact ⟨[], op, ops, rfl, htouch⟩
      · have hcarried := carriedKey_of_not_touches htouch
        have hnext : (s.apply op).Silent now (s.carriedKey k op) := by
          rw [hcarried]
          refine h.next htouch fun later hlater => htimes later ?_
          simp [cleanupTimes, hlater]
        obtain ⟨pre, op', post, hops, hop'⟩ := ih hnext
          (fun later hlater => htimes later (List.mem_filterMap.mpr
            ((List.mem_filterMap.mp hlater).imp fun _ hop =>
              ⟨List.mem_cons_of_mem _ hop.1, hop.2⟩)))
          hend
        exact ⟨op :: pre, op', post, by rw [hops]; rfl, hop'⟩

/-- **Offline notices are exact.**  In a run whose cleanup times do not go back,
every pass pushes one notice, with a new id, for each record that is not stored as
offline and was seen longer ago than the idle time, and pushes nothing else.  The
notice says "Device offline" and carries the MAC, the address and the name of its
record.  And if one record is announced twice, under whatever keys, then a device or
traffic update touched it in between. -/
theorem offline_notices_exact (config : Config) (ops : List StoreOp)
    (htimes : (cleanupTimes ops).Pairwise (· ≤ ·)) :
    (∀ before now after, ops = before ++ .cleanup now :: after →
      let s := Runs.run apply (init config) before
      let lapsed := s.records.filter fun d => d.status ≠ .offline ∧ d.lastSeen ≠ 0 ∧
        now - d.lastSeen > seconds config.deviceIdleTtlSeconds
      let notices := noticesFrom s.eventSeq now lapsed
      (s.cleanup now).events = notices.foldl (fun ring e => ring.push e) s.events ∧
        (s.cleanup now).eventSeq = s.eventSeq + lapsed.length ∧
        List.Forall₂ (IsNotice now) lapsed notices ∧
        (notices.map Event.id).Nodup ∧
        ∀ e ∈ notices, ∀ n ≤ s.eventSeq, e.id ≠ eventIdText n) ∧
    (∀ before now between later after k,
      ops = before ++ .cleanup now :: between ++ .cleanup later :: after →
      let s := Runs.run apply (init config) before
      let t := s.cleanup now
      s.Announced now k → (Runs.run apply t between).Announced later (t.carriedKeys k between) →
      ∃ pre op post, between = pre ++ op :: post ∧
        (Runs.run apply t pre).Touches (t.carriedKeys k pre) op) := by
  constructor
  · intro before now after _ s lapsed notices
    have hlapsed : s.records.filter (goesOffline s.config now) = lapsed := by
      refine List.filter_congr fun d _ => ?_
      rw [Bool.eq_iff_iff, goesOffline_iff, decide_eq_true_iff]
      simp [s, init]
    obtain ⟨hevents, hseq⟩ := s.cleanup_ring now
    rw [hlapsed] at hevents hseq
    refine ⟨hevents, hseq, noticesFrom_isNotice _ _ _, noticesFrom_nodup _ _ _,
      fun e he n hn heq => ?_⟩
    obtain ⟨i, hi, hid⟩ := noticesFrom_id he
    have hin : i = n := eventIdText_inj.mp (hid.symm.trans heq)
    omega
  · intro before now between later after k hops s t hfirst hsecond
    refine Silent.touched hfirst.silent (fun m hm => ?_)
      fun hsilent => hsilent.not_announced hsecond
    rw [hops] at htimes
    simp only [cleanupTimes, List.filterMap_append, List.filterMap_cons] at htimes
    have hafter := (List.pairwise_append.mp (List.pairwise_append.mp htimes).1).2.1
    exact (List.pairwise_cons.mp hafter).1 m hm

/-- A device that goes offline, sends traffic and goes offline again. -/
def goneTwice : List StoreOp :=
  [.updateDevice 0 { ip := str "10.0.0.7", hostname := str "tv", lastSeen := seconds 1 },
    .cleanup (seconds 700), .updateTraffic 0 { ip := str "10.0.0.7", ts := seconds 800 },
    .cleanup (seconds 1500)]

/-- The store with the device that has not gone yet. -/
def beforeGone : StateStore := Runs.run apply (init {}) (goneTwice.take 1)

/-- The first pass pushes one notice, for this device and by its name, and before the second
notice the traffic touched it. -/
theorem offline_notices_exact_gone_twice :
    (∃ device e, beforeGone.records = [device] ∧
        (beforeGone.cleanup (seconds 700)).events.items = [e] ∧ e.id = str "evt-1" ∧
        e.message = str "Device offline" ∧ e.fields.lookup (str "ip") = some (str "10.0.0.7") ∧
        e.fields.lookup (str "hostname") = some (str "tv") ∧ IsNotice (seconds 700) device e) ∧
    ∃ pre op post,
      [StoreOp.updateTraffic 0 { ip := str "10.0.0.7", ts := seconds 800 }] = pre ++ op :: post ∧
        (Runs.run apply (beforeGone.cleanup (seconds 700)) pre).Touches
          (carriedKeys (beforeGone.cleanup (seconds 700)) (ipKey (str "10.0.0.7")) pre) op := by
  obtain ⟨hnotices, htouched⟩ := offline_notices_exact {} goneTwice (by decide)
  constructor
  · obtain ⟨-, -, hall, -⟩ := hnotices (goneTwice.take 1) (seconds 700) (goneTwice.drop 2) rfl
    cases hall with
    | cons hnotice _ => exact ⟨_, _, rfl, rfl, rfl, rfl, rfl, rfl, hnotice⟩
  · refine htouched (goneTwice.take 1) (seconds 700)
      [.updateTraffic 0 { ip := str "10.0.0.7", ts := seconds 800 }] (seconds 1500) []
      (ipKey (str "10.0.0.7")) rfl ⟨_, rfl, ?_⟩ ⟨_, rfl, ?_⟩
    · decide +kernel
    · decide +kernel

end StateStore

end Netmon
