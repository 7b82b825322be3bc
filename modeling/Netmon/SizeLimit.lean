import Netmon.EventRetention
import Netmon.TrafficReport

/-!
# The size limit

`enforceSizeLimit` prunes in rounds: as long as the database is larger than its cap, the
thousand oldest samples and the 250 oldest events and attacks go, at most twelve times.  It
reads the size before every round, and what it leaves depends on these readings only through
the number of rounds (`size_limit_exact`).
-/

namespace Netmon

namespace Database

/-! ## The rounds -/

/-- **The loop stops at the first reading within the cap**, or after its last round. -/
theorem roundsRun_spec (maxBytes : Int) (bytes : Nat → Int) (rounds reading : Nat) :
    roundsRun maxBytes bytes rounds reading ≤ rounds ∧
      (∀ j < roundsRun maxBytes bytes rounds reading, maxBytes < bytes (reading + j)) ∧
      (roundsRun maxBytes bytes rounds reading < rounds →
        bytes (reading + roundsRun maxBytes bytes rounds reading) ≤ maxBytes) := by
  induction rounds generalizing reading with
  | zero => simp [roundsRun]
  | succ rounds ih =>
      obtain ⟨hle, hover, hstop⟩ := ih (reading + 1)
      rw [roundsRun]
      by_cases hlarge : bytes reading > maxBytes
      · rw [if_pos hlarge]
        refine ⟨by omega, fun j hj => ?_, fun hlt => ?_⟩
        · cases j with
          | zero => exact hlarge
          | succ j =>
              have hlater := hover j (by omega)
              rw [Nat.add_assoc, Nat.add_comm 1 j] at hlater
              exact hlater
        · have hlater := hstop (by omega)
          rw [Nat.add_assoc, Nat.add_comm 1] at hlater
          exact hlater
      · rw [if_neg hlarge]
        exact ⟨Nat.zero_le _, fun j hj => absurd hj (Nat.not_lt_zero j), fun _ => not_lt.mp hlarge⟩

/-! ## The tables -/

/-- **A table after rounds of pruning**, if every round takes its oldest `n` rows. -/
theorem PrimaryKeys.table_pruned {α : Type} {r : α → α → Prop} [DecidableRel r] [Std.Total r]
    [IsTrans α r] {table : Database → List α} {n : Nat}
    (hround : ∀ db : Database, db.PrimaryKeys → Ranking.NoTies r (table db) ∧
      table db.pruneRound = (table db).filter fun row => n < Ranking.rankLast r (table db) row)
    {db : Database} (h : db.PrimaryKeys) (rounds : Nat) :
    table (pruneRound^[rounds] db) =
      (table db).filter fun row => n * rounds < Ranking.rankLast r (table db) row := by
  induction rounds generalizing db with
  | zero =>
      refine (List.filter_eq_self.mpr fun row hrow => ?_).symm
      exact decide_eq_true (Ranking.rankLast_pos hrow)
  | succ rounds ih =>
      obtain ⟨hties, htable⟩ := hround db h
      rw [Function.iterate_succ_apply, ih (h.shrinks (shrinks_pruneRound db)), htable,
        Ranking.filter_rankLast_add hties]
      refine List.filter_congr fun row _ => ?_
      rw [Nat.mul_succ, Nat.add_comm]

theorem PrimaryKeys.samples_round {db : Database} (h : db.PrimaryKeys) :
    db.pruneRound.trafficSamples = db.trafficSamples.filter fun row =>
      1000 < Ranking.rankLast NewestSample db.trafficSamples row := by
  rw [h.trafficSamples_pruneRound]
  simp only [not_le]

theorem PrimaryKeys.events_round {db : Database} (h : db.PrimaryKeys) :
    db.pruneRound.eventRows = db.eventRows.filter fun row =>
      250 < Ranking.rankLast NewestEvent db.eventRows row := by
  simp only [← not_le]
  rw [← filter_ids h.event_ids fun row => Ranking.mem_take_last_iff h.events_noTies]
  exact (h.shrinks (shrinks_deleteSamples _ db)).eventRows_deleteEvents _

theorem PrimaryKeys.attacks_round {db : Database} (h : db.PrimaryKeys) :
    db.pruneRound.wanAttacks = db.wanAttacks.filter fun row =>
      250 < Ranking.rankLast NewestAttack db.wanAttacks row := by
  simp only [← not_le]
  rw [← filter_ids h.attacks fun row => Ranking.mem_take_last_iff h.attacks_noTies]
  rfl

/-- The cap of the configuration, in bytes. -/
def sizeCap (config : Config) : Int := max 1 config.sqliteMaxDbMb * 1024 * 1024

/-- **The size limit.**  Of a database with its primary keys, the size limit leaves the devices
as they are and of each history exactly what `k` rounds leave, the rows that are not among the
oldest `1000 k` samples, `250 k` events and `250 k` attacks.  `k` is at most twelve; before
every round the database was over the cap, and with fewer rounds than twelve the last reading
was within it. -/
theorem size_limit_exact {db : Database} (h : db.PrimaryKeys) (config : Config)
    (bytes : Nat → Int) :
    let k := sizeRounds config bytes
    let after := db.enforceSizeLimit config bytes
    (after.trafficSamples = db.trafficSamples.filter fun row =>
        1000 * k < Ranking.rankLast NewestSample db.trafficSamples row) ∧
      (after.eventRows = db.eventRows.filter fun row =>
        250 * k < Ranking.rankLast NewestEvent db.eventRows row) ∧
      (after.wanAttacks = db.wanAttacks.filter fun row =>
        250 * k < Ranking.rankLast NewestAttack db.wanAttacks row) ∧
      after.trafficSamples.length = db.trafficSamples.length - 1000 * k ∧
      after.eventRows.length = db.eventRows.length - 250 * k ∧
      after.wanAttacks.length = db.wanAttacks.length - 250 * k ∧
      after.devices = db.devices ∧ k ≤ 12 ∧
      (0 < k → ∀ j ≤ k, sizeCap config < bytes j) ∧
      (k < 12 → bytes 0 ≤ sizeCap config ∨ bytes (k + 1) ≤ sizeCap config) := by
  intro k after
  have hafter : after = pruneRound^[k] db := enforceSizeLimit_eq config bytes db
  have hsamples := h.table_pruned (fun db h => ⟨h.samples_noTies, h.samples_round⟩) k
  have hevents := h.table_pruned (fun db h => ⟨h.events_noTies, h.events_round⟩) k
  have hattacks := h.table_pruned (fun db h => ⟨h.attacks_noTies, h.attacks_round⟩) k
  rw [← hafter] at hsamples hevents hattacks
  obtain ⟨hle, hover, hstop⟩ := roundsRun_spec (sizeCap config) bytes 12 1
  refine ⟨hsamples, hevents, hattacks, ?_, ?_, ?_,
    (shrinks_enforceSizeLimit db config bytes).devices, ?_⟩
  · rw [hsamples, Ranking.length_filter_rankLast h.samples_noTies]
  · rw [hevents, Ranking.length_filter_rankLast h.events_noTies]
  · rw [hattacks, Ranking.length_filter_rankLast h.attacks_noTies]
  by_cases hsmall : bytes 0 ≤ sizeCap config
  · have hk : k = 0 := if_pos hsmall
    exact ⟨by omega, fun hpos => absurd hpos (by omega), fun _ => Or.inl hsmall⟩
  · have hk : k = roundsRun (sizeCap config) bytes 12 1 := if_neg hsmall
    rw [← hk] at hle hover hstop
    refine ⟨hle, fun _ j hj => ?_, fun hlt => Or.inr ?_⟩
    · cases j with
      | zero => exact not_le.mp hsmall
      | succ j =>
          have hreading := hover j (by omega)
          rw [Nat.add_comm] at hreading
          exact hreading
    · have hreading := hstop hlt
      rw [Nat.add_comm] at hreading
      exact hreading

/-- Two samples of one device. -/
def twoSamples : Database where
  trafficSamples :=
    [⟨1, str "aa:01", str "10.0.0.5", 10, 0, 0⟩, ⟨2, str "aa:01", str "10.0.0.5", 20, 5, 5⟩]
  trafficSeq := 2

theorem primaryKeys_twoSamples : twoSamples.PrimaryKeys where
  events := fun _ _ hrow => absurd hrow (by simp [twoSamples])
  samples := by decide
  attacks := by decide

/-- A database that is over the cap in the first two readings is pruned once, and two samples
do not survive that. -/
theorem size_limit_one_round :
    let bytes : Nat → Int := fun reading => if reading ≤ 1 then 1000000000000 else 0
    sizeRounds {} bytes = 1 ∧
      (twoSamples.enforceSizeLimit {} bytes).trafficSamples.length = 0 := by
  intro bytes
  have hrounds : sizeRounds {} bytes = 1 := by decide
  have hlength := (size_limit_exact primaryKeys_twoSamples {} bytes).2.2.2.1
  rw [hrounds] at hlength
  exact ⟨hrounds, hlength⟩

end Database

end Netmon
