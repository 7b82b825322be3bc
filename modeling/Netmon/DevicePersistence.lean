import Netmon.DeviceRestore
import Netmon.SplitJoin

/-!
# The round trip of a device through the database

A record is written with `upsertDevices` and read back by `loadInto` through
`mergeDeviceLocked`.  Counters survive as 64-bit patterns, rates as they are,
times as whole seconds and tags as a comma-separated text.  Two things do not
survive.  The merge has no use for an incoming `first_seen`: a new record starts
at its `last_seen`, and so does the restored one.  And texts are bound and read
as C strings, which end at a NUL byte.
-/

namespace Netmon

namespace StateStore

/-! ## What the records of a store look like -/

/-- The texts of a stored record: the MAC in lower case, no placeholders, and
no tag twice. -/
structure StoredFields (d : DeviceState) : Prop where
  mac_lower : lower d.mac = d.mac
  mac : ¬ IsPlaceholder d.mac
  ip : ¬ IsPlaceholder d.ip
  hostname : ¬ IsPlaceholder d.hostname
  interfaceName : ¬ IsPlaceholder d.interfaceName
  source : ¬ IsPlaceholder d.source
  neighState : ¬ IsPlaceholder d.neighState
  tags : d.tags.Nodup

/-- An empty record can be stored. -/
theorem storedFields_blank : StoredFields {} :=
  ⟨rfl, by decide, by decide, by decide, by decide, by decide, by decide, List.nodup_nil⟩

/-- Adding tags one by one never repeats one. -/
theorem addTags_nodup {tags : List Str} (h : tags.Nodup) (incoming : List Str) :
    (addTags tags incoming).Nodup := by
  induction incoming generalizing tags with
  | nil => exact h
  | cons tag incoming ih =>
      by_cases hmem : tag ∈ tags
      · rw [addTags_cons_of_mem hmem]
        exact ih h
      · rw [addTags_cons_of_notMem hmem]
        apply ih
        rw [List.nodup_append]
        refine ⟨h, List.nodup_singleton tag, ?_⟩
        rintro a ha b hb rfl
        exact hmem (List.mem_singleton.mp hb ▸ ha)

/-- A MAC in lower case stays so. -/
theorem lower_setIfNotEmpty {dest value : Str} (hdest : lower dest = dest)
    (hvalue : lower value = value) :
    lower (setIfNotEmpty dest value) = setIfNotEmpty dest value := by
  rcases setIfNotEmpty_cases dest value with h | h
  · rw [h, hdest]
  · rw [h, hvalue]

/-- A merged record can be stored. -/
theorem StoredFields.merge {d : DeviceState} (h : StoredFields d) (config : Config)
    (incoming : DeviceState) (now : TimePoint) :
    StoredFields (mergeDeviceLocked config d incoming now) where
  mac_lower := lower_setIfNotEmpty h.mac_lower (lower_lower _)
  mac := setIfNotEmpty_ordinary h.mac
  ip := setIfNotEmpty_ordinary h.ip
  hostname := setIfNotEmpty_ordinary h.hostname
  interfaceName := setIfNotEmpty_ordinary h.interfaceName
  source := setIfNotEmpty_ordinary h.source
  neighState := setIfNotEmpty_ordinary h.neighState
  tags := addTags_nodup h.tags incoming.tags

/-- A record can be stored after a traffic sample. -/
theorem StoredFields.traffic {d : DeviceState} (h : StoredFields d) (config : Config)
    (now : TimePoint) (snapshot : TrafficSnapshot) (decision : RateDecision) :
    StoredFields (trafficDevice config d (stampTraffic now snapshot) decision) where
  mac_lower := lower_setIfNotEmpty h.mac_lower (lower_lower _)
  mac := setIfNotEmpty_ordinary h.mac
  ip := setIfNotEmpty_ordinary h.ip
  hostname := h.hostname
  interfaceName := h.interfaceName
  source := by
    show ¬ IsPlaceholder (str "traffic")
    decide
  neighState := h.neighState
  tags := by
    have hadd := addTags_nodup h.tags [str "traffic"]
    simpa [addTags, trafficDevice] using hadd

/-- A record that the cleanup has walked can be stored. -/
theorem StoredFields.sweep {d : DeviceState} (h : StoredFields d) (config : Config)
    (now : TimePoint) : StoredFields (sweepDevice config now d) := by
  unfold sweepDevice
  split
  · exact ⟨h.mac_lower, h.mac, h.ip, h.hostname, h.interfaceName, h.source, h.neighState, h.tags⟩
  · exact ⟨h.mac_lower, h.mac, h.ip, h.hostname, h.interfaceName, h.source, h.neighState, h.tags⟩

/-- Every record of a reachable store has such texts. -/
theorem storedFields_of_reachable {s : StateStore} (h : s.Reachable) :
    AllRecords (fun _ => StoredFields) s := by
  obtain ⟨config, ops, rfl⟩ := h
  refine Runs.run_invariant (AllRecords fun _ => StoredFields) ?_ (allRecords_init config) ops
  intro s op hs
  apply hs.apply
  · intro now device _ _ _
    exact (hs.getD storedFields_blank).merge s.config device now
  · intro now device node _ _ hnode
    exact (hs _ node hnode).merge s.config device now
  · intro now snapshot decision _ _ _
    exact (hs.getD storedFields_blank).traffic s.config now snapshot decision
  · intro now k d hd
    exact hd.sweep s.config now

/-! ## The columns one by one -/

/-- A time cut to whole seconds. -/
def wholeSeconds (t : TimePoint) : TimePoint := fromUnixSeconds (unixSeconds t)

/-- A time from zero on is stored as a number from zero on. -/
theorem unixSeconds_nonneg {t : TimePoint} (h : 0 ≤ t) : 0 ≤ unixSeconds t := by
  unfold unixSeconds
  split
  · exact le_refl 0
  · exact Int.tdiv_nonneg h (by norm_num)

/-- A time comes back as its whole seconds. -/
theorem time_round_trip {t : TimePoint} (h : 0 ≤ t) :
    timeFromColumn (unixSeconds t) = wholeSeconds t := by
  unfold timeFromColumn wholeSeconds
  split
  · rename_i hle
    rw [le_antisymm hle (unixSeconds_nonneg h)]
    rfl
  · rfl

/-- An ordinary text comes back if and only if it holds no NUL byte. -/
theorem text_round_trip {value : Str} (h : ¬ IsPlaceholder value) :
    setIfNotEmpty [] (cString (cString value)) = value ↔ 0 ∉ value := by
  constructor
  · intro hback
    rw [← hback]
    rcases setIfNotEmpty_cases [] (cString (cString value)) with hcase | hcase
    · simp [hcase]
    · rw [hcase]
      exact zero_notMem_cString _
  · intro htext
    rw [cString_eq_self htext, cString_eq_self htext]
    exact setIfNotEmpty_self h

/-- A MAC is restored unless it has a zero byte. -/
theorem mac_round_trip {mac : Str} (hlower : lower mac = mac) (h : ¬ IsPlaceholder mac) :
    setIfNotEmpty [] (lower (cString (cString (lower mac)))) = mac ↔ 0 ∉ mac := by
  rw [hlower]
  constructor
  · intro hback
    rw [← hback]
    rcases setIfNotEmpty_cases [] (lower (cString (cString mac))) with hcase | hcase
    · simp [hcase]
    · rw [hcase, zero_mem_lower]
      exact zero_notMem_cString _
  · intro htext
    rw [cString_eq_self htext, cString_eq_self htext, hlower]
    exact setIfNotEmpty_self h

/-- Tags that are all new are appended. -/
theorem addTags_of_nodup {tags incoming : List Str} (h : (tags ++ incoming).Nodup) :
    addTags tags incoming = tags ++ incoming := by
  induction incoming generalizing tags with
  | nil => simp [addTags]
  | cons tag incoming ih =>
      have hnew : tag ∉ tags := by
        intro hmem
        exact (List.nodup_append.mp h).2.2 tag hmem tag (by simp) rfl
      rw [addTags_cons_of_notMem hnew, ih (by simpa using h)]
      simp

/-- The column of the tags has no zero byte if no tag has one. -/
theorem zero_notMem_tagsText {tags : List Str} (h : ∀ tag ∈ tags, 0 ∉ tag) :
    0 ∉ tagsText tags := by
  unfold tagsText
  induction tags with
  | nil => simp [List.intercalate]
  | cons tag tags ih =>
      cases tags with
      | nil => simpa [List.intercalate] using h tag (by simp)
      | cons next tags =>
          have hrest := ih fun t ht => h t (List.mem_cons_of_mem _ ht)
          have htag := h tag (by simp)
          rw [List.intercalate_cons_cons]
          simp [htag, hrest]

/-- Comma-free, trimmed tags without repetition come back if and only if none
is empty or holds a NUL byte. -/
theorem tags_round_trip {tags : List Str} (hnodup : tags.Nodup)
    (htags : ∀ tag ∈ tags, 44 ∉ tag ∧ trim tag = tag) :
    addTags [] (parseTags (cString (cString (tagsText tags)))) = tags ↔
      ∀ tag ∈ tags, 0 ∉ tag ∧ tag ≠ [] := by
  constructor
  · intro hback tag htag
    rw [← hback] at htag
    have hparsed := (mem_addTags.mp htag).resolve_left (by simp)
    simp only [parseTags, List.mem_filter, List.mem_map, decide_eq_true_eq] at hparsed
    obtain ⟨⟨part, hpart, rfl⟩, hne⟩ := hparsed
    refine ⟨fun hzero => ?_, by simpa using hne⟩
    exact zero_notMem_cString _ (mem_of_mem_split hpart (trim_subset part hzero))
  · intro hgood
    have htext := zero_notMem_tagsText fun tag htag => (hgood tag htag).1
    rw [cString_eq_self htext, cString_eq_self htext]
    have hparsed : parseTags (tagsText tags) = tags :=
      parseTags_tagsText (fun tag htag => (hgood tag htag).2) (fun tag htag => (htags tag htag).2)
        fun tag htag => (htags tag htag).1
    rw [hparsed, addTags_of_nodup (by simpa using hnodup), List.nil_append]

/-! ## The whole record -/

/-- `r` is `d` on every persisted field, with the times cut to whole seconds. -/
structure SameOnDisk (d r : DeviceState) : Prop where
  mac : r.mac = d.mac
  ip : r.ip = d.ip
  hostname : r.hostname = d.hostname
  interfaceName : r.interfaceName = d.interfaceName
  source : r.source = d.source
  neighState : r.neighState = d.neighState
  rxBytesTotal : r.rxBytesTotal = d.rxBytesTotal
  txBytesTotal : r.txBytesTotal = d.txBytesTotal
  rxRateBps : r.rxRateBps = d.rxRateBps
  txRateBps : r.txRateBps = d.txRateBps
  tags : r.tags = d.tags
  firstSeen : r.firstSeen = wholeSeconds d.firstSeen
  lastSeen : r.lastSeen = wholeSeconds d.lastSeen
  lastDhcp : r.lastDhcp = wholeSeconds d.lastDhcp
  lastTraffic : r.lastTraffic = wholeSeconds d.lastTraffic
  lastRate : r.lastRate = wholeSeconds d.lastRate

/-- No text or tag of the record holds a NUL byte, and no tag is empty. -/
structure PlainTexts (d : DeviceState) : Prop where
  mac : 0 ∉ d.mac
  ip : 0 ∉ d.ip
  hostname : 0 ∉ d.hostname
  interfaceName : 0 ∉ d.interfaceName
  source : 0 ∉ d.source
  neighState : 0 ∉ d.neighState
  tags : ∀ tag ∈ d.tags, 0 ∉ tag ∧ tag ≠ []

/-- Writing the record into an empty database and loading a fresh store from it
gives one record, equal to the one written. -/
def RoundTrips (config : Config) (written : TimePoint) (clock : Database.LoadClock)
    (d : DeviceState) : Prop :=
  ∃ k r, ((Database.upsertDevices written [d] {}).loadInto config clock
      (init config)).devicesByKey.entries = [⟨k, r⟩] ∧ SameOnDisk d r

/-- The database after one device was written. -/
theorem deviceRows_upsert {written : TimePoint} {d : DeviceState} (hmac : d.mac ≠ []) :
    (Database.upsertDevices written [d] {}).deviceRows = [deviceRow written d] := by
  have hkey : deviceKey d ≠ [] := by
    unfold deviceKey
    rw [makeKey_of_mac hmac]
    exact macKey_ne_nil _
  simp [Database.upsertDevices, Database.upsertDevice, hkey, Database.deviceRows]

/-- The record that comes back, if one does. -/
theorem entries_round_trip {config : Config} {written : TimePoint} {clock : Database.LoadClock}
    {d : DeviceState} (hmac : d.mac ≠ []) :
    ((Database.upsertDevices written [d] {}).loadInto config clock
        (init config)).devicesByKey.entries =
      if makeKey (cString (cString (lower d.mac))) (cString (cString d.ip)) = [] then []
      else [⟨makeKey (cString (cString (lower d.mac))) (cString (cString d.ip)),
        mergeDeviceLocked config {} (deviceFromRow (deviceRow written d))
          (clock.device (deviceRow written d))⟩] := by
  rw [(loadInto_same _ _ _ _).devices]
  unfold Database.loadDevices Database.replayDevices
  rw [deviceRows_upsert hmac, List.foldl_cons, List.foldl_nil]
  have hnone : (init config).findKeyLocked (deviceFromRow (deviceRow written d)).mac
      (deviceFromRow (deviceRow written d)).ip = [] := by
    rw [(keysLinked_init config).not_found_iff]
    simp [init]
  by_cases hkey : makeKey (cString (cString (lower d.mac))) (cString (cString d.ip)) = []
  · rw [if_pos hkey]
    rcases (init config).updateDevice_cases (clock.device (deviceRow written d))
        (deviceFromRow (deviceRow written d)) with
      ⟨-, hsame⟩ | ⟨record, hne, -⟩ | ⟨node, record, hmove, -⟩
    · rw [hsame]
      rfl
    · rw [resolveKey, if_pos hnone] at hne
      exact absurd hkey hne
    · have hip := hmove.2.1
      rw [hnone] at hip
      exact absurd hip (by decide)
  · rw [if_neg hkey]
    have hcreates : (init config).Creates (deviceFromRow (deviceRow written d)) := ⟨hnone, hkey⟩
    exact (hcreates.updateDevice (keysLinked_init config) _).1

/-- A counter survives the signed column. -/
theorem counter_round_trip (x : UInt64) :
    (if x.toInt64.toUInt64 > 0 then x.toInt64.toUInt64 else 0) = x := by
  rw [UInt64.toUInt64_toInt64]
  split
  · rfl
  · rename_i h
    exact (UInt64.le_zero_iff.mp (UInt64.not_lt.mp h)).symm

/-- A rate is restored. -/
theorem rate_round_trip (x : ℚ) : (if |x| > 0 then x else 0) = x := by
  split
  · rfl
  · rename_i h
    exact (abs_nonpos_iff.mp (not_lt.mp h)).symm

/-- A time is restored in whole seconds. -/
theorem stamp_round_trip {t : TimePoint} (h : 0 ≤ t) :
    (if timeFromColumn (unixSeconds t) ≠ 0 then timeFromColumn (unixSeconds t) else 0) =
      wholeSeconds t := by
  rw [time_round_trip h]
  split
  · rfl
  · rename_i hzero
    exact (not_not.mp hzero).symm

/-- A time within the first second becomes zero. -/
theorem wholeSeconds_eq_zero {t : TimePoint} : wholeSeconds t = 0 ↔ unixSeconds t = 0 := by
  simp [wholeSeconds, fromUnixSeconds, seconds]

/-- Times of one second become equal. -/
theorem wholeSeconds_inj {t u : TimePoint} :
    wholeSeconds t = wholeSeconds u ↔ unixSeconds t = unixSeconds u := by
  simp [wholeSeconds, fromUnixSeconds, seconds]

/-- The record read back equals the written one exactly when the first and the
last sight of the device fall into one second after the first of the epoch, and
its texts are plain. -/
theorem sameOnDisk_iff {d : DeviceState} (hfields : StoredFields d)
    (hlast : 0 < d.lastSeen) (hdhcp : 0 ≤ d.lastDhcp) (htraffic : 0 ≤ d.lastTraffic)
    (hrate : 0 ≤ d.lastRate) (htags : ∀ tag ∈ d.tags, 44 ∉ tag ∧ trim tag = tag)
    (config : Config) (written : TimePoint) {now : TimePoint} (hnow : 0 < now) :
    SameOnDisk d (mergeDeviceLocked config {} (deviceFromRow (deviceRow written d)) now) ↔
      (unixSeconds d.firstSeen = unixSeconds d.lastSeen ∧ 1 ≤ unixSeconds d.lastSeen) ∧
        PlainTexts d := by
  have hseen : (deviceFromRow (deviceRow written d)).lastSeen = wholeSeconds d.lastSeen :=
    time_round_trip (le_of_lt hlast)
  have hnonneg := unixSeconds_nonneg (le_of_lt hlast)
  constructor
  · intro h
    have hstamp : 1 ≤ unixSeconds d.lastSeen := by
      by_contra hsmall
      have hzero : wholeSeconds d.lastSeen = 0 := wholeSeconds_eq_zero.mpr (by omega)
      have hback := h.lastSeen
      simp only [mergeDeviceLocked, hseen, hzero, true_or, if_true] at hback
      exact absurd hback (ne_of_gt hnow)
    have hne : wholeSeconds d.lastSeen ≠ 0 := by
      rw [Ne, wholeSeconds_eq_zero]
      omega
    have hfirst := h.firstSeen
    simp only [mergeDeviceLocked, hseen, hne, if_false, if_true] at hfirst
    refine ⟨⟨(wholeSeconds_inj.mp hfirst).symm, hstamp⟩, ?_⟩
    exact
      { mac := (mac_round_trip hfields.mac_lower hfields.mac).mp h.mac
        ip := (text_round_trip hfields.ip).mp h.ip
        hostname := (text_round_trip hfields.hostname).mp h.hostname
        interfaceName := (text_round_trip hfields.interfaceName).mp h.interfaceName
        source := (text_round_trip hfields.source).mp h.source
        neighState := (text_round_trip hfields.neighState).mp h.neighState
        tags := (tags_round_trip hfields.tags htags).mp h.tags }
  · rintro ⟨⟨hfirst, hstamp⟩, hplain⟩
    have hne : wholeSeconds d.lastSeen ≠ 0 := by
      rw [Ne, wholeSeconds_eq_zero]
      omega
    exact
      { mac := (mac_round_trip hfields.mac_lower hfields.mac).mpr hplain.mac
        ip := (text_round_trip hfields.ip).mpr hplain.ip
        hostname := (text_round_trip hfields.hostname).mpr hplain.hostname
        interfaceName := (text_round_trip hfields.interfaceName).mpr hplain.interfaceName
        source := (text_round_trip hfields.source).mpr hplain.source
        neighState := (text_round_trip hfields.neighState).mpr hplain.neighState
        rxBytesTotal := counter_round_trip d.rxBytesTotal
        txBytesTotal := counter_round_trip d.txBytesTotal
        rxRateBps := rate_round_trip d.rxRateBps
        txRateBps := rate_round_trip d.txRateBps
        tags := (tags_round_trip hfields.tags htags).mpr hplain.tags
        firstSeen := by
          simp only [mergeDeviceLocked, hseen, hne, if_false, if_true]
          exact wholeSeconds_inj.mpr hfirst.symm
        lastSeen := by
          simp only [mergeDeviceLocked, hseen, hne, if_false, true_or, if_true]
        lastDhcp := stamp_round_trip hdhcp
        lastTraffic := stamp_round_trip htraffic
        lastRate := stamp_round_trip hrate }

/-- **Exactly when a device survives a restart unchanged.**  Take any record of
a reachable store with a MAC, a positive last sight, no negative time of a lease,
of traffic or of a rate, and trimmed tags without commas.  Writing it into an
empty database and loading a fresh store gives one record equal to it, on all
persisted fields and with the times in whole seconds, if and only if its first
and last sight fall into the same second, not the first of the epoch, and no text
or tag holds a NUL byte and no tag is empty. -/
theorem device_round_trip_iff {s : StateStore} {k : Str} {d : DeviceState} (hs : s.Reachable)
    (hd : s.devicesByKey.lookup k = some d) (hmac : d.mac ≠ []) (hlast : 0 < d.lastSeen)
    (hdhcp : 0 ≤ d.lastDhcp) (htraffic : 0 ≤ d.lastTraffic) (hrate : 0 ≤ d.lastRate)
    (htags : ∀ tag ∈ d.tags, 44 ∉ tag ∧ trim tag = tag)
    (config : Config) (written : TimePoint) {clock : Database.LoadClock}
    (hclock : ∀ row, 0 < clock.device row) :
    RoundTrips config written clock d ↔
      (unixSeconds d.firstSeen = unixSeconds d.lastSeen ∧ 1 ≤ unixSeconds d.lastSeen) ∧
        PlainTexts d := by
  have hfields := storedFields_of_reachable hs k d hd
  rw [← sameOnDisk_iff hfields hlast hdhcp htraffic hrate htags config written
    (hclock (deviceRow written d))]
  unfold RoundTrips
  rw [entries_round_trip hmac]
  constructor
  · rintro ⟨key, r, hentries, hsame⟩
    split at hentries
    · exact absurd hentries (by simp)
    · rw [List.singleton_inj, Sigma.mk.injEq] at hentries
      exact (eq_of_heq hentries.2).symm ▸ hsame
  · intro hsame
    have hread : cString (cString (lower d.mac)) ≠ [] := by
      intro hnil
      have hback : setIfNotEmpty [] (lower (cString (cString (lower d.mac)))) = d.mac := hsame.mac
      rw [hnil, lower_nil, setIfNotEmpty_nil] at hback
      exact hmac hback.symm
    rw [if_neg (by rw [makeKey_of_mac hread]; exact macKey_ne_nil _)]
    exact ⟨_, _, rfl, hsame⟩

/-- A device seen once. -/
def seenOnce : StateStore :=
  Runs.run apply (init {})
    [.updateDevice (seconds 300)
      { mac := str "aa:01", ip := str "10.0.0.5", hostname := str "laptop",
        lastSeen := seconds 200, rxBytesTotal := 18446744073709551615, tags := [str "dhcp"] }]

/-- The record of that device. -/
def seenOnceRecord : DeviceState := seenOnce.devicesByKey.getD (macKey (str "aa:01")) {}

/-- A device seen once comes back as it was, its counter of 2^64 - 1 included. -/
theorem device_round_trip_iff_once :
    RoundTrips {} (seconds 400) stillClock seenOnceRecord := by
  refine (device_round_trip_iff (s := seenOnce) (k := macKey (str "aa:01")) ⟨_, _, rfl⟩
    (by rfl) (by decide +kernel) (by decide +kernel) (by decide +kernel) (by decide +kernel)
    (by decide +kernel) (by decide +kernel) {} (seconds 400)
    fun _ => show 0 < seconds 1000 by decide).mpr ?_
  exact ⟨by decide +kernel, ⟨by decide +kernel, by decide +kernel, by decide +kernel,
    by decide +kernel, by decide +kernel, by decide +kernel, by decide +kernel⟩⟩

/-- The same device seen again a hundred seconds later. -/
def seenTwice : StateStore :=
  Runs.run apply (init {})
    [ .updateDevice (seconds 300) { mac := str "aa:01", lastSeen := seconds 200 },
      .updateDevice (seconds 400) { mac := str "aa:01", lastSeen := seconds 300 } ]

/-- The record of the device that was seen twice. -/
def seenTwiceRecord : DeviceState := seenTwice.devicesByKey.getD (macKey (str "aa:01")) {}

/-- A device seen twice comes back as if first seen at its last sight. -/
theorem first_seen_lost :
    seenTwice.Reachable ∧
      seenTwice.devicesByKey.lookup (macKey (str "aa:01")) = some seenTwiceRecord ∧
      wholeSeconds seenTwiceRecord.firstSeen = seconds 200 ∧
      ((Database.upsertDevices (seconds 500) [seenTwiceRecord] {}).loadInto {} stillClock
        (init {})).devicesByKey.entries.map (fun e => e.2.firstSeen) = [seconds 300] ∧
      ¬ RoundTrips {} (seconds 500) stillClock seenTwiceRecord := by
  have hfirst : wholeSeconds seenTwiceRecord.firstSeen = seconds 200 := by decide +kernel
  have hback : ((Database.upsertDevices (seconds 500) [seenTwiceRecord] {}).loadInto {} stillClock
      (init {})).devicesByKey.entries.map (fun e => e.2.firstSeen) = [seconds 300] := by
    decide +kernel
  refine ⟨⟨_, _, rfl⟩, rfl, hfirst, hback, ?_⟩
  rintro ⟨k, r, hentries, hsame⟩
  rw [hentries, List.map_singleton, List.singleton_inj, hsame.firstSeen, hfirst] at hback
  exact absurd hback (by decide)

end StateStore

end Netmon
