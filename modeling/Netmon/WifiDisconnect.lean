import Netmon.RecordTracks
import Netmon.StoreCalls

/-!
# Wi-Fi disconnects

A disconnect line merges a record with status `Offline`, and the merge stores that
status.  The readers do not look at it: `devices()` and `summary()` compute the status
of every record anew from its last sighting, which the disconnect line has just moved
to the present.  So the station is shown as gone only when it has not been seen for
the idle time, as without the line.
-/

namespace Netmon

/-! ## Disconnect lines -/

theorem searchText_eq_some {α : Type} {matchAt : Str → Option α} {text : Str} {a : α}
    (h : searchText matchAt text = some a) : ∃ rest, matchAt rest = some a := by
  induction text with
  | nil => exact ⟨[], h⟩
  | cons b text ih =>
      rcases Option.or_eq_some_iff.mp h with hhere | ⟨-, hlater⟩
      · exact ⟨_, hhere⟩
      · exact ih hlater

theorem hostapdAt_ne_nil {text mac : Str} (h : hostapdAt text = some mac) : mac ≠ [] := by
  unfold hostapdAt at h
  split at h
  · exact absurd h (by simp)
  · dsimp only at h
    split at h
    · rename_i hmac
      cases h
      rintro hnil
      rw [hnil] at hmac
      exact absurd hmac.2 (by decide)
    · exact absurd h (by simp)

/-- A Wi-Fi line carries an event and a MAC, and no time. -/
theorem parse_wifi {line : Str} {result : ParseResult} (h : parse line = some result)
    (htype : result.type = str "wifi") :
    ∃ event mac, mac ≠ [] ∧ lower mac = mac ∧
      result.fields = ((∅ : StrMap Str).insert (str "event") event).insert (str "mac") mac := by
  obtain ⟨format, hformat, htaken⟩ := parse_format h
  rw [htype] at hformat htaken
  have hhostapd : format = parseHostapd := by
    simp only [lineFormats, lineTypes, List.zip_cons_cons, List.zip_nil_left, List.mem_cons,
      Prod.mk.injEq, List.not_mem_nil, or_false] at hformat
    rcases hformat with ⟨-, hother⟩ | ⟨-, hother⟩ | ⟨-, hother⟩ | ⟨-, hother⟩ | ⟨-, hother⟩ |
      ⟨-, hother⟩ | ⟨rfl, -⟩
    · exact absurd hother (by decide)
    · exact absurd hother (by decide)
    · exact absurd hother (by decide)
    · exact absurd hother (by decide)
    · exact absurd hother (by decide)
    · exact absurd hother (by decide)
    · rfl
  rw [hhostapd, parseHostapd] at htaken
  split at htaken
  · obtain ⟨mac, hmac, hpair⟩ := Option.map_eq_some_iff.mp htaken
    obtain ⟨rest, hrest⟩ := searchText_eq_some hmac
    exact ⟨_, lower mac, lower_eq_nil.not.mpr (hostapdAt_ne_nil hrest), lower_lower mac,
      (congrArg Prod.snd hpair).symm⟩
  · exact absurd htaken (by simp)

/-- The line reports that the station `mac` has left. -/
def Disconnects (line mac : Str) : Prop :=
  ∃ result, parse line = some result ∧ result.type = str "wifi" ∧
    result.fields.lookup (str "event") = some (str "wifi_disconnected") ∧
    result.fields.lookup (str "mac") = some mac

theorem Disconnects.mac {line mac : Str} (h : Disconnects line mac) :
    mac ≠ [] ∧ lower mac = mac := by
  obtain ⟨result, hparse, htype, -, hmac⟩ := h
  obtain ⟨event, m, hne, hlower, hfields⟩ := parse_wifi hparse htype
  rw [hfields, AList.lookup_insert] at hmac
  cases hmac
  exact ⟨hne, hlower⟩

/-- What is merged for a station that has left. -/
def goneStation (mac : Str) (ts : TimePoint) : DeviceState :=
  { mac := mac
    source := str "wifi"
    lastSeen := ts
    tags := [str "wifi"]
    status := .offline }

namespace App

/-- **The calls of a disconnect line**: an offline record with the time of the line is
merged, and an event added. -/
theorem disconnect_calls {line mac : Str} (h : Disconnects line mac) (clock : LogClock)
    (peerIp : Str) (s : StateStore) :
    ∃ event, lineCalls clock line peerIp s =
      [.nextEventId, .updateDevice clock.update (goneStation mac clock.stamp),
        .addEvent clock.event event] := by
  obtain ⟨result, hparse, htype, hevent, hmac⟩ := h
  obtain ⟨event, m, -, -, hfields⟩ := parse_wifi hparse htype
  have hts : tsFromFields clock.stamp result.fields = clock.stamp := by
    rw [hfields]
    rfl
  have hget : ∀ {key value : Str} (fallback : Str), result.fields.lookup key = some value →
      result.fields.getD key fallback = value := by
    intro key value fallback hlookup
    rw [AList.getD, hlookup]
    rfl
  unfold lineCalls lineResult lineEvent
  rw [hparse]
  simp only [Option.getD_some, eventCalls, htype, hts, hget _ hmac, hget _ hevent]
  rw [if_neg (by decide), if_neg (by decide), if_neg (by decide), if_neg (by decide),
    if_neg (by decide), if_neg (by decide), if_pos trivial]
  exact ⟨_, rfl⟩

end App

namespace StateStore

/-! ## What the readers report -/

/-- The summary counts the records that are offline at its time. -/
theorem summary_offline (s : StateStore) (view : TimePoint) :
    (s.summary view).offlineDevices = (s.devicesByKey.entries.map fun e =>
      if statusFor s.config e.2 view = .offline then 1 else 0).sum := by
  have hfold : ∀ (devices : List DeviceState) (out : Summary),
      (devices.foldl (countDevice s.config view) out).offlineDevices = out.offlineDevices +
        (devices.map fun d => if statusFor s.config d view = .offline then 1 else 0).sum := by
    intro devices
    induction devices with
    | nil => exact fun _ => rfl
    | cons d devices ih =>
        intro out
        have hstep : (countDevice s.config view out d).offlineDevices =
            out.offlineDevices + if statusFor s.config d view = .offline then 1 else 0 := by
          unfold countDevice
          cases statusFor s.config d view <;> rfl
        rw [List.foldl_cons, ih, hstep, List.map_cons, List.sum_cons, Nat.add_assoc]
  have hcounted := hfold (s.devicesByKey.entries.map Sigma.snd) { lastLogTs := s.lastLogTs }
  rw [List.map_map] at hcounted
  unfold summary
  split
  · exact hcounted.trans (Nat.zero_add _)
  · exact hcounted.trans (Nat.zero_add _)

/-- The readers show the record of `k` as offline: `devices()` lists it so and
`summary()` counts it. -/
def ReportedOffline (s : StateStore) (view : TimePoint) (k : Str) : Prop :=
  ∃ d, s.devicesByKey.lookup k = some d ∧ { d with status := .offline } ∈ s.devices view ∧
    (s.summary view).offlineDevices =
      (summary view { s with devicesByKey := s.devicesByKey.erase k }).offlineDevices + 1

/-- **The readers go by the last sighting.** -/
theorem reportedOffline_iff {s : StateStore} {view : TimePoint} {k : Str} {d : DeviceState}
    (hd : s.devicesByKey.lookup k = some d) :
    s.ReportedOffline view k ↔ statusFor s.config d view = .offline := by
  constructor
  · rintro ⟨d', hd', hlisted, -⟩
    rw [hd] at hd'
    cases hd'
    obtain ⟨r, -, heq⟩ := mem_devices_iff.mp hlisted
    -- the status of a record does not depend on the stored one
    calc statusFor s.config d view
        = statusFor s.config { d with status := .offline } view := rfl
      _ = statusFor s.config { r with status := statusFor s.config r view } view :=
          congrArg (fun d => statusFor s.config d view) heq
      _ = statusFor s.config r view := rfl
      _ = .offline := (congrArg DeviceState.status heq).symm
  · intro hoffline
    refine ⟨d, hd, mem_devices_iff.mpr ⟨d, mem_records_iff.mpr ⟨k, hd⟩, by rw [hoffline]⟩, ?_⟩
    rw [summary_offline, summary_offline]
    have hsum := AList.sum_erase (fun d => if statusFor s.config d view = .offline then 1 else 0)
      s.devicesByKey k
    rw [hd] at hsum
    simpa [hoffline] using hsum.symm

/-- A record that no call touches keeps its last sighting. -/
theorem lastSeen_of_untouched {s : StateStore} {k : Str} {ops : List StoreOp}
    (h : Runs.Conforms apply (fun s op => ¬ s.Touches k op) s ops) {d' : DeviceState}
    (hd' : (Runs.run apply s ops).devicesByKey.lookup k = some d') :
    ∃ d, s.devicesByKey.lookup k = some d ∧ d.lastSeen = d'.lastSeen := by
  induction ops generalizing s with
  | nil => exact ⟨d', hd', rfl⟩
  | cons op ops ih =>
      obtain ⟨next, hnext, hseen⟩ := ih h.2 hd'
      rcases lookup_of_not_touches h.1 with ⟨now, rfl⟩ | hsame
      · rw [show s.apply (.cleanup now) = s.cleanup now from rfl, cleanup_lookup] at hnext
        obtain ⟨d, hd, rfl⟩ := Option.map_eq_some_iff.mp hnext
        exact ⟨d, (Option.filter_eq_some_iff.mp hd).1, (sweepDevice_lastSeen ..).symm.trans hseen⟩
      · exact ⟨next, hsame ▸ hnext, hseen⟩

/-! ## After a disconnect -/

/-- The last sighting that an update with time `ts` leaves, given the one before. -/
def sightingAfter (before ts : TimePoint) : TimePoint :=
  if before = 0 ∨ ts > before then ts else before

/-- A MAC without an address leads to its own key. -/
theorem resolveKey_of_no_ip (s : StateStore) {mac : Str} (hmac : mac ≠ []) :
    s.resolveKey mac [] = macKey (lower mac) := by
  have hne : lower mac ≠ [] := lower_eq_nil.not.mpr hmac
  by_cases hstored : macKey (lower mac) ∈ s.devicesByKey
  · simp [resolveKey, findKeyLocked, hne, hstored, macKey_ne_nil]
  · simp [resolveKey, findKeyLocked, hstored, makeKey_of_mac hmac]

/-- The record of a station after its disconnect line. -/
theorem disconnect_record {line mac : Str} (h : Disconnects line mac) (clock : LogClock)
    (peerIp : Str) (app : App) :
    (app.handleLog clock line peerIp).state.config = app.state.config ∧
      (app.handleLog clock line peerIp).state.devicesByKey.lookup (macKey mac) =
        some (mergeDeviceLocked app.state.config (app.state.devicesByKey.getD (macKey mac) {})
          (goneStation mac clock.stamp) clock.update) := by
  obtain ⟨hne, hlower⟩ := h.mac
  obtain ⟨event, hcalls⟩ := App.disconnect_calls h clock peerIp app.state
  have hkey : app.state.nextEventId.2.resolveKey mac [] = macKey mac := by
    rw [resolveKey_of_no_ip _ hne, hlower]
  have hstays : ¬ app.state.nextEventId.2.Rekeys mac [] := fun hmove => by
    have hip := hmove.2.1
    rw [← hmove.resolveKey_eq, hkey, isIpKey_macKey] at hip
    exact absurd hip (by decide)
  rw [App.handleLog_state, hcalls]
  refine ⟨run_config _ _, ?_⟩
  show ((app.state.nextEventId.2.updateDevice clock.update (goneStation mac clock.stamp)).addEvent
    clock.event event).devicesByKey.lookup (macKey mac) = _
  rw [(addEvent_same clock.event event _).devices]
  have hresolved : app.state.nextEventId.2.resolveKey (goneStation mac clock.stamp).mac
      (goneStation mac clock.stamp).ip = macKey mac := hkey
  rw [updateDevice_of_plain (hresolved ▸ macKey_ne_nil mac) hstays, hresolved]
  rw [(touchLastLogLocked_same _ _ _).devices]
  exact AList.lookup_insert _

/-- **When a disconnect takes effect.**  Let a station's disconnect line be handled, and
let no later call touch its record while it is kept.  The readers show the station as
offline exactly when they run more than the idle time after its last sighting, which is
the time of the line or, if that is later, the sighting before it. -/
theorem disconnect_effective_iff (app : App) (clock : LogClock) (line peerIp mac : Str)
    (hline : Disconnects line mac) (later : List StoreOp)
    (hquiet : Runs.Conforms apply (fun s op => ¬ s.Touches (macKey mac) op)
      (app.handleLog clock line peerIp).state later)
    (hkept : macKey mac ∈
      (Runs.run apply (app.handleLog clock line peerIp).state later).devicesByKey)
    (view : TimePoint) :
    let seen := sightingAfter (app.state.devicesByKey.getD (macKey mac) {}).lastSeen
      (if clock.stamp = 0 then clock.update else clock.stamp)
    (Runs.run apply (app.handleLog clock line peerIp).state later).ReportedOffline view
        (macKey mac) ↔
      seen ≠ 0 ∧ view - seen > seconds app.state.config.deviceIdleTtlSeconds := by
  intro seen
  obtain ⟨d, hd⟩ := AList.exists_lookup_of_mem hkept
  obtain ⟨merged, hmerged, hseen⟩ := lastSeen_of_untouched hquiet hd
  obtain ⟨hconfig, hrecord⟩ := disconnect_record hline clock peerIp app
  rw [hrecord] at hmerged
  cases hmerged
  rw [reportedOffline_iff hd, run_config, hconfig, statusFor_eq_offline_iff, ← hseen]
  exact Iff.rfl

/-- A line that reports the end of an association. -/
def goneLine : Str := str "hostapd: wlan0: AP-STA-DISCONNECTED aa:bb:cc:dd:ee:01"

theorem goneLine_disconnects : Disconnects goneLine (str "aa:bb:cc:dd:ee:01") := by
  have hparsed : (parse goneLine).map (fun result => (result.type,
      result.fields.lookup (str "event"), result.fields.lookup (str "mac"))) =
        some (str "wifi", some (str "wifi_disconnected"), some (str "aa:bb:cc:dd:ee:01")) := by
    decide +kernel
  obtain ⟨result, hresult, heq⟩ := Option.map_eq_some_iff.mp hparsed
  exact ⟨result, hresult, congrArg Prod.fst heq, congrArg (·.2.1) heq, congrArg (·.2.2) heq⟩

/-- A process with the default settings that has just handled the line, at 100 s. -/
def afterGoneLine : App :=
  ({ config := {}, state := init {}, db := {} } : App).handleLog
    ⟨seconds 100, seconds 100, seconds 100, seconds 100, seconds 100, seconds 100, seconds 100⟩
    goneLine []

/-- The station is shown as offline eleven minutes after it has left. -/
theorem disconnect_effective_iff_late :
    afterGoneLine.state.ReportedOffline (seconds 760) (macKey (str "aa:bb:cc:dd:ee:01")) := by
  refine (disconnect_effective_iff _ _ goneLine [] _ goneLine_disconnects [] trivial ?_
    (seconds 760)).mpr ⟨?_, ?_⟩
  · decide +kernel
  · decide +kernel
  · decide +kernel

/-- The moment after a station has left, the readers show it as online, and the summary
counts no device as offline. -/
theorem disconnect_shown_online :
    Disconnects goneLine (str "aa:bb:cc:dd:ee:01") ∧
      (afterGoneLine.state.devices (seconds 100)).map (fun d => (d.mac, d.status)) =
        [(str "aa:bb:cc:dd:ee:01", .online)] ∧
      (afterGoneLine.state.summary (seconds 100)).offlineDevices = 0 := by
  refine ⟨goneLine_disconnects, ?_, ?_⟩
  · decide +kernel
  · decide +kernel

end StateStore

end Netmon
