import Netmon.App
import Netmon.CheckedInt
import Netmon.Retention

/-!
# Times in 64 bits

Elsewhere times are exact integers.  The clock counts nanoseconds in 64 bits, signed, and
two computations take numbers from outside to it: the time of a line, a count of seconds
that an unsigned 64-bit integer holds, and the retention period, a count of days that an
`int` holds.  They are written here once more with the widths of the source
(`tsFromFieldsChecked`, `retentionPointChecked`).  Where they do not overflow they are the
exact computations, and the bounds up to which they do not are 9223372036 seconds and
106751 days.
-/

namespace Netmon

open CheckedInt

/-! ## The time of a line -/

/-- `fromUnixSeconds` in the 64-bit clock: seconds become nanoseconds. -/
def fromUnixSecondsChecked (n : Int) : Option TimePoint := mul 64 n 1000000000

/-- `tsFromFields` with its widths: the unsigned number is converted to a signed one. -/
def tsFromFieldsChecked (stamp : TimePoint) (fields : StrMap Str) : Option TimePoint :=
  let ts := parseUint64 (fields.getD (str "ts") []) 0
  if ts > 0 then fromUnixSecondsChecked (wrap 64 ts.toNat) else some stamp

/-- Where the clock holds the time, it is the exact one. -/
theorem tsFromFieldsChecked_exact {stamp t : TimePoint} {fields : StrMap Str}
    (h : tsFromFieldsChecked stamp fields = some t) : App.tsFromFields stamp fields = t := by
  unfold tsFromFieldsChecked at h
  unfold App.tsFromFields
  dsimp only at h ⊢
  split at h
  · rename_i hpos
    rw [if_pos hpos, (mul_eq_some.mp h).1]
    exact congrArg seconds (BitVec.toInt_eq_toNat_bmod _)
  · rename_i hzero
    rw [if_neg hzero]
    exact Option.some.inj h

theorem tsFromFieldsChecked_of_parses {fields : StrMap Str} {n : Nat}
    (h : ParsesAs (fields.getD (str "ts") []) n) (hpos : 0 < n) (stamp : TimePoint) :
    tsFromFieldsChecked stamp fields = fromUnixSecondsChecked (wrap 64 n) := by
  have hvalue := h.toNat_parseUint64 0
  unfold tsFromFieldsChecked
  dsimp only
  rw [if_pos, hvalue]
  rw [gt_iff_lt, UInt64.lt_iff_toNat_lt, hvalue]
  exact hpos

/-- **Exactly when the time of a line is faithful.**  A number `n` above zero in the field
`ts` is converted without wrapping around and becomes the time `n` seconds after the epoch
(or the line falls back to the clock) if and only if it is at most 9223372036. -/
theorem log_time_faithful_iff (stamp : TimePoint) (fields : StrMap Str) :
    (∀ n : Nat, ParsesAs (fields.getD (str "ts") []) n → 0 < n →
      wrap 64 n = n ∧
        (tsFromFieldsChecked stamp fields = some (seconds n) ∨
          tsFromFieldsChecked stamp fields = some stamp)) ↔
      ∀ n : Nat, ParsesAs (fields.getD (str "ts") []) n → n ≤ 9223372036 := by
  constructor
  · intro hfaithful n hn
    by_contra hlarge
    obtain ⟨hexact, htime⟩ := hfaithful n hn (by omega)
    have hoverflow : ¬ Fits 64 ((n : Int) * 1000000000) := by
      unfold Fits
      omega
    have hsome : ∃ t, fromUnixSecondsChecked n = some t := by
      rw [tsFromFieldsChecked_of_parses hn (by omega), hexact] at htime
      exact htime.elim (fun h => ⟨_, h⟩) fun h => ⟨_, h⟩
    obtain ⟨t, ht⟩ := hsome
    exact hoverflow (mul_eq_some.mp ht).2
  · intro hsmall n hn hpos
    have hbound := hsmall n hn
    have hexact : wrap 64 n = n := (wrap_eq_self (by omega)).mpr (by unfold Fits; omega)
    refine ⟨hexact, Or.inl ?_⟩
    rw [tsFromFieldsChecked_of_parses hn hpos, hexact]
    exact mul_eq_some.mpr ⟨rfl, by unfold Fits; omega⟩

/-- A line whose time counts milliseconds. -/
def millisecondFields : StrMap Str := (∅ : StrMap Str).insert (str "ts") (str "1700000000000")

/-- The nanoseconds overflow; wrapped around, they are a time in the year 2061. -/
theorem millisecond_time_overflows :
    ParsesAs (millisecondFields.getD (str "ts") []) 1700000000000 ∧
      tsFromFieldsChecked 0 millisecondFields = none ∧
      wrap 64 (seconds 1700000000000) = 2899545218721251328 := by
  refine ⟨by decide +kernel, by decide +kernel, by decide +kernel⟩

example :
    tsFromFieldsChecked 0 ((∅ : StrMap Str).insert (str "ts") (str "1700000000")) =
      some (seconds 1700000000) := by decide +kernel

/-! ## The retention period -/

/-- The time before which rows are deleted, with the widths of the source: the hours are
an `int`, and the clock takes them as nanoseconds. -/
def retentionPointChecked (config : Config) (now : TimePoint) : Option TimePoint := do
  let hours ← mul 32 24 (max 1 config.sqliteRetentionDays)
  let period ← mul 64 hours 3600000000000
  sub 64 now period

/-- The retention period in nanoseconds. -/
def retentionPeriod (config : Config) : Int :=
  seconds (3600 * (24 * max 1 config.sqliteRetentionDays))

/-- The point is what exact arithmetic gives, as long as no step overflows. -/
theorem retentionPointChecked_eq_some {config : Config} {now t : TimePoint} :
    retentionPointChecked config now = some t ↔
      t = now - retentionPeriod config ∧ Fits 32 (24 * max 1 config.sqliteRetentionDays) ∧
        Fits 64 (retentionPeriod config) ∧ Fits 64 (now - retentionPeriod config) := by
  have hperiod :
      24 * max 1 config.sqliteRetentionDays * 3600000000000 = retentionPeriod config := by
    unfold retentionPeriod seconds
    ring
  simp only [retentionPointChecked, Option.bind_eq_bind, Option.bind_eq_some_iff, mul_eq_some,
    sub_eq_some]
  constructor
  · rintro ⟨hours, ⟨rfl, hhours⟩, period, ⟨rfl, hlong⟩, rfl, hpoint⟩
    rw [hperiod] at hlong hpoint
    exact ⟨by rw [hperiod], hhours, hlong, hpoint⟩
  · rintro ⟨rfl, hhours, hlong, hpoint⟩
    refine ⟨_, ⟨rfl, hhours⟩, _, ⟨rfl, ?_⟩, ?_, ?_⟩
    · rwa [hperiod]
    · rw [hperiod]
    · rwa [hperiod]

/-- Where the clock holds the point, retention deletes up to it. -/
theorem retentionPointChecked_exact {config : Config} {now t : TimePoint}
    (h : retentionPointChecked config now = some t) :
    Database.retentionCutoff config now = unixSeconds t := by
  rw [(retentionPointChecked_eq_some.mp h).1]
  rfl

/-- No row at or after the point is deleted. -/
def DeletesOnlyOlder (point : TimePoint) : Prop :=
  ∀ db : Database,
    (∀ row ∈ db.eventRows, point ≤ fromUnixSeconds row.ts →
      row ∈ (db.deleteOlderThan (unixSeconds point)).eventRows) ∧
    (∀ row ∈ db.wanAttacks, point ≤ fromUnixSeconds row.ts →
      row ∈ (db.deleteOlderThan (unixSeconds point)).wanAttacks) ∧
    (∀ row ∈ db.trafficSamples, point ≤ fromUnixSeconds row.ts →
      row ∈ (db.deleteOlderThan (unixSeconds point)).trafficSamples)

/-- Whole seconds are taken towards zero, which deletes nothing at or after the point on
either side of the epoch. -/
theorem deletesOnlyOlder (point : TimePoint) : DeletesOnlyOlder point := by
  have hkept : ∀ ts : Int, point ≤ fromUnixSeconds ts → ¬ ts < unixSeconds point := by
    intro ts hlater
    have hmono := unixSeconds_mono hlater
    rw [unixSeconds_fromUnixSeconds] at hmono
    exact not_lt.mpr hmono
  intro db
  refine ⟨fun row hrow hlater => ?_, fun row hrow hlater => ?_, fun row hrow hlater => ?_⟩
  · rw [Database.eventRows_deleteOlderThan]
    exact List.mem_filter.mpr ⟨hrow, decide_eq_true (hkept row.ts hlater)⟩
  · exact List.mem_filter.mpr ⟨hrow, decide_eq_true (hkept row.ts hlater)⟩
  · exact List.mem_filter.mpr ⟨hrow, decide_eq_true (hkept row.ts hlater)⟩

/-- **Exactly when the retention point is sound.**  Between 1970 and 2200 it is the current
time less the retention period, computed without overflow, and only older rows are
deleted, if and only if at most 106751 days are kept. -/
theorem retention_point_sound_iff (config : Config) {now : TimePoint}
    (hnow : 0 ≤ now ∧ now ≤ fromUnixSeconds 7258118400) :
    (∃ point, retentionPointChecked config now = some point ∧
        point = now - fromUnixSeconds (max 1 config.sqliteRetentionDays * (24 * 3600)) ∧
        DeletesOnlyOlder point) ↔
      config.sqliteRetentionDays ≤ 106751 := by
  have hperiod : retentionPeriod config =
      fromUnixSeconds (max 1 config.sqliteRetentionDays * (24 * 3600)) := by
    unfold retentionPeriod fromUnixSeconds seconds
    ring
  constructor
  · rintro ⟨point, hpoint, -, -⟩
    obtain ⟨-, -, hlong, -⟩ := retentionPointChecked_eq_some.mp hpoint
    rw [hperiod] at hlong
    unfold Fits fromUnixSeconds seconds at hlong
    omega
  · intro hsmall
    refine ⟨_, retentionPointChecked_eq_some.mpr ⟨rfl, ?_, ?_, ?_⟩, by rw [hperiod],
      deletesOnlyOlder _⟩
    · unfold Fits
      omega
    · rw [hperiod]
      unfold Fits fromUnixSeconds seconds
      omega
    · have hlow : (0 : Int) ≤ now := hnow.1
      have hhigh : (7258118400000000000 : Int) ≥ now := hnow.2
      rw [hperiod]
      unfold Fits fromUnixSeconds seconds
      omega

/-- A configuration that keeps its history for more than five centuries. -/
def keepForever : Config := { sqliteRetentionDays := parseInt (str "200000") 7 }

def inNovember2023 : TimePoint := fromUnixSeconds 1700000000

/-- The period overflows; wrapped around it is negative, and the point lies 36 years
ahead, so that a row written now is deleted. -/
theorem keep_forever_overflows :
    keepForever.sqliteRetentionDays = 200000 ∧
      retentionPointChecked keepForever inNovember2023 = none ∧
      wrap 64 (retentionPeriod keepForever) = -1166744073709551616 ∧
      unixSeconds inNovember2023 <
        unixSeconds (inNovember2023 - wrap 64 (retentionPeriod keepForever)) := by
  refine ⟨by decide +kernel, by decide +kernel, by decide +kernel, by decide +kernel⟩

/-- Thirty days are kept. -/
theorem retention_point_sound_month :
    ∃ point, retentionPointChecked { sqliteRetentionDays := 30 } inNovember2023 = some point ∧
      point = inNovember2023 - fromUnixSeconds (30 * (24 * 3600)) := by
  obtain ⟨point, hpoint, hexact, -⟩ :=
    (retention_point_sound_iff { sqliteRetentionDays := 30 }
      (show 0 ≤ inNovember2023 ∧ inNovember2023 ≤ fromUnixSeconds 7258118400 by
        decide +kernel)).mpr (by decide)
  exact ⟨point, hpoint, hexact⟩

end Netmon
