import Netmon.SyslogReception
import Netmon.ThreadCounters

/-!
# From the wire to the counters

The syslog receivers as a whole: one thread for the datagrams, one for every connection, and
a list of trusted peers in front of both.  Each thread hands the lines it makes out to the
same handler, at its own pace and beside the cleanup cycles and snapshots of other threads.

What the counters then say is a fact about the bytes on the wire alone: `heard` are the lines
in the streams and datagrams of trusted peers, cut at their newlines, and when all is handled
the counters count exactly them (`counters_of_traffic`).  How the streams were cut into chunks,
in what order the threads took their steps and what the clocks showed does not matter, and
untrusted peers leave no trace.

A datagram is handed over whole.  So it has to carry one line, and it is measured with the
newline that ends it: a line of exactly the maximum length fits a stream but not a datagram.
-/

namespace Netmon

namespace SyslogServer

/-! ## The receivers -/

/-- Without a list of peers everyone is trusted. -/
def isTrustedPeer (trustedIps : List Str) (peerIp : Str) : Bool :=
  if trustedIps = [] then true else trustedIps.any fun trusted => trim trusted = trim peerIp

def shouldAccept (config : Config) (peerIp : Str) : Bool :=
  isTrustedPeer config.trustedRouterIps peerIp

/-- What arrives: the datagrams with their peers, and for every connection its peer and the
chunks that `recv` returns. -/
structure Traffic (κ : Type) where
  datagrams : List (Str × Str)
  connections : κ → Str × List Str

/-- The lines that `runUdp` hands to the handler, with their peers. -/
def runUdp (config : Config) (datagrams : List (Str × Str)) : List (Str × Str) :=
  datagrams.flatMap fun d =>
    if shouldAccept config d.1 then (handleDatagram config d.2).map fun line => (line, d.1) else []

/-- The lines that the thread of a connection hands to the handler; `runTcp` closes the
connection of a peer that is not trusted and starts no thread. -/
def runTcp (config : Config) (connection : Str × List Str) : List (Str × Str) :=
  if shouldAccept config connection.1 then
    (handleTcpClient config connection.2).map fun line => (line, connection.1)
  else []

variable {κ : Type}

/-- The calls of the handler that each thread makes: the thread of the datagrams, if it is
started, and those of the connections. -/
def calls (config : Config) (traffic : Traffic κ) : Option κ → List (Str × Str)
  | none => if config.enableUdp then runUdp config traffic.datagrams else []
  | some c => if config.enableTcp then runTcp config (traffic.connections c) else []

/-! ## The lines on the wire -/

/-- The lines of a stream without their end bytes, those that are not empty then. -/
def streamLines (stream : Str) : List Str :=
  ((stream.splitOn 10).map stripLineEnd).filter (· ≠ [])

/-- The lines of the datagrams of trusted peers. -/
def heardUdp (config : Config) (traffic : Traffic κ) : List Str :=
  if config.enableUdp then
    (traffic.datagrams.filter fun d => shouldAccept config d.1).flatMap fun d => streamLines d.2
  else []

/-- The lines of a trusted peer's stream. -/
def heardTcp (config : Config) (traffic : Traffic κ) (c : κ) : List Str :=
  if config.enableTcp ∧ shouldAccept config (traffic.connections c).1 then
    streamLines (traffic.connections c).2.flatten
  else []

/-- All lines that trusted peers sent. -/
def heard [Fintype κ] (config : Config) (traffic : Traffic κ) : Multiset Str :=
  heardUdp config traffic + ∑ c, (heardTcp config traffic c : Multiset Str)

/-- What trusted peers send is within the limits: every datagram leaves room in the buffer and
carries one line, with any end bytes behind it, and every line of a stream is within the
maximum length. -/
structure Conforming (config : Config) (traffic : Traffic κ) : Prop where
  datagrams : ∀ d ∈ traffic.datagrams, shouldAccept config d.1 = true →
    d.2.length < (config.maxSyslogLineLength + 1).toNat ∧ 10 ∉ stripLineEnd d.2
  streams : ∀ c, shouldAccept config (traffic.connections c).1 = true →
    ∀ line ∈ (traffic.connections c).2.flatten.splitOn 10,
      line.length ≤ config.maxSyslogLineLength.toNat

/-- The lines of a stream after its first newline are counted on their own. -/
theorem streamLines_line {line : Str} (h : 10 ∉ line) (stream : Str) :
    streamLines (line ++ 10 :: stream) =
      [stripLineEnd line].filter (· ≠ []) ++ streamLines stream := by
  have hsplit : (line ++ 10 :: stream).splitOn 10 = line :: stream.splitOn 10 := by
    rw [LineFraming.splitOn_eq_frame, LineFraming.frame_line 10 h, LineFraming.splitOn_eq_frame]
    rfl
  rw [streamLines, hsplit, List.map_cons, ← List.singleton_append, List.filter_append]
  rfl

/-- A stream without a newline is one line. -/
theorem streamLines_open {line : Str} (h : 10 ∉ line) :
    streamLines line = [stripLineEnd line].filter (· ≠ []) := by
  rw [streamLines, List.splitOn_eq_singleton h]
  rfl

/-- End bytes behind a line add no other line. -/
theorem streamLines_ends {line ends : Str} (h : 10 ∉ line)
    (hends : ∀ b ∈ ends, isLineEnd b = true) :
    streamLines (line ++ ends) = [stripLineEnd line].filter (· ≠ []) := by
  induction ends generalizing line with
  | nil =>
      rw [List.append_nil]
      exact streamLines_open h
  | cons b ends ih =>
      have hlater : ∀ c ∈ ends, isLineEnd c = true := fun c hc =>
        hends c (List.mem_cons_of_mem b hc)
      by_cases hbreak : b = 10
      · rw [hbreak, streamLines_line h]
        have hrest := @ih [] List.not_mem_nil hlater
        rw [List.nil_append] at hrest
        rw [hrest]
        exact List.append_nil _
      · have hmore : 10 ∉ line ++ [b] := by
          intro hmem
          rcases List.mem_append.mp hmem with hold | hnew
          · exact h hold
          · exact hbreak (List.mem_singleton.mp hnew).symm
        rw [← List.singleton_append, ← List.append_assoc, ih hmore hlater,
          stripLineEnd_concat (hends b List.mem_cons_self)]

/-- **A datagram of one line is handed over as that line.** -/
theorem handleDatagram_of_line {config : Config} {datagram : Str}
    (hroom : datagram.length < (config.maxSyslogLineLength + 1).toNat)
    (hline : 10 ∉ stripLineEnd datagram) :
    handleDatagram config datagram = streamLines datagram := by
  have hends : ∀ b ∈ datagram.rtakeWhile isLineEnd, isLineEnd b = true :=
    fun b hb => List.mem_rtakeWhile_imp hb
  have hparts : stripLineEnd datagram ++ datagram.rtakeWhile isLineEnd = datagram :=
    List.rdropWhile_append_rtakeWhile
  have hlines := streamLines_ends hline hends
  have hstrip : stripLineEnd (stripLineEnd datagram) = stripLineEnd datagram :=
    List.rdropWhile_idempotent _ _
  rw [hparts, hstrip] at hlines
  rw [handleDatagram_of_room hroom, hlines]

/-- The lines that `runUdp` hands over, without their peers. -/
theorem map_fst_runUdp (config : Config) (datagrams : List (Str × Str)) :
    (runUdp config datagrams).map Prod.fst =
      (datagrams.filter fun d => shouldAccept config d.1).flatMap fun d =>
        handleDatagram config d.2 := by
  induction datagrams with
  | nil => rfl
  | cons d datagrams ih =>
      have hcons : runUdp config (d :: datagrams) =
          (if shouldAccept config d.1 then
            (handleDatagram config d.2).map fun line => (line, d.1) else []) ++
            runUdp config datagrams := rfl
      rw [hcons, List.map_append, ih]
      by_cases h : shouldAccept config d.1 = true
      · have hkept : (d :: datagrams).filter (fun d => shouldAccept config d.1) =
            d :: datagrams.filter fun d => shouldAccept config d.1 := List.filter_cons_of_pos h
        rw [if_pos h, hkept, List.flatMap_cons, List.map_map]
        exact congrArg (· ++ _) (List.map_id _)
      · have hdropped : (d :: datagrams).filter (fun d => shouldAccept config d.1) =
            datagrams.filter fun d => shouldAccept config d.1 := List.filter_cons_of_neg h
        rw [if_neg h, hdropped]
        rfl

/-- The lines that a thread hands over are those on the wire. -/
theorem map_fst_calls {config : Config} {traffic : Traffic κ} (h : Conforming config traffic)
    (i : Option κ) :
    (calls config traffic i).map Prod.fst =
      i.elim (heardUdp config traffic) (heardTcp config traffic) := by
  cases i with
  | none =>
      simp only [calls, Option.elim_none, heardUdp]
      split
      · rw [map_fst_runUdp]
        refine List.flatMap_congr fun d hd => ?_
        obtain ⟨hmem, haccept⟩ := List.mem_filter.mp hd
        obtain ⟨hroom, hline⟩ := h.datagrams d hmem haccept
        exact handleDatagram_of_line hroom hline
      · rfl
  | some c =>
      simp only [calls, Option.elim_some, heardTcp, runTcp]
      by_cases henabled : config.enableTcp = true
      · by_cases haccept : shouldAccept config (traffic.connections c).1 = true
        · have hlines := h.streams c haccept
          rw [if_pos henabled, if_pos haccept, if_pos ⟨henabled, haccept⟩, List.map_map,
            handleTcpClient_of_fits (fitsBeforeEnd_of_lines hlines), filterMap_deliver hlines]
          exact List.map_id _
        · rw [if_pos henabled, if_neg haccept, if_neg fun hboth => haccept hboth.2]
          rfl
      · rw [if_neg henabled, if_neg fun hboth => henabled hboth.1]
        rfl

/-- No call is made for a peer that is not trusted. -/
theorem trusted_of_mem_calls {config : Config} {traffic : Traffic κ} {i : Option κ}
    {call : Str × Str} (h : call ∈ calls config traffic i) :
    shouldAccept config call.2 = true := by
  cases i with
  | none =>
      simp only [calls] at h
      split at h
      · obtain ⟨d, -, hcall⟩ := List.mem_flatMap.mp h
        split at hcall
        · obtain ⟨line, -, rfl⟩ := List.mem_map.mp hcall
          assumption
        · cases hcall
      · cases h
  | some c =>
      simp only [calls, runTcp] at h
      split at h
      · split at h
        · obtain ⟨line, -, rfl⟩ := List.mem_map.mp h
          assumption
        · cases h
      · cases h

end SyslogServer

/-! ## The whole service -/

namespace Threads

open SyslogServer

/-- The thread hands these lines to the handler, each at some reading of the clock. -/
def Handles (jobs : List Job) (calls : List (Str × Str)) : Prop :=
  List.Forall₂ (fun job call => ∃ clock, job = .handleLog clock call.1 call.2) jobs calls

theorem Handles.linesOf {jobs : List Job} {calls : List (Str × Str)} (h : Handles jobs calls) :
    linesOf jobs = calls.map Prod.fst := by
  induction h with
  | nil => rfl
  | cons hjob _ ih =>
      obtain ⟨clock, rfl⟩ := hjob
      rw [List.map_cons, ← ih]
      rfl

variable {κ ω : Type} [Fintype κ] [Fintype ω]

/-- A count over the lines of all threads is one over the lines on the wire. -/
theorem sum_lines {config : Config} {traffic : Traffic κ} (hconforming : Conforming config traffic)
    {jobs : Option κ ⊕ ω → List Job}
    (hhandlers : ∀ i, Handles (jobs (.inl i)) (calls config traffic i))
    (hothers : ∀ o, linesOf (jobs (.inr o)) = []) (p : Str → Prop) [DecidablePred p] :
    ∑ i, (linesOf (jobs i)).countP (fun line => p line) = (heard config traffic).countP p := by
  have hlines : ∀ i, linesOf (jobs (.inl i)) =
      i.elim (heardUdp config traffic) (heardTcp config traffic) := by
    intro i
    rw [(hhandlers i).linesOf, map_fst_calls hconforming]
  have hsum : (∑ c, (heardTcp config traffic c : Multiset Str)).countP p =
      ∑ c, (heardTcp config traffic c).countP fun line => p line := by
    rw [← Multiset.coe_countPAddMonoidHom, map_sum]
    rfl
  rw [Fintype.sum_sum_type, Fintype.sum_option, heard, Multiset.countP_add, hsum]
  simp only [hlines, hothers, List.countP_nil, Finset.sum_const_zero, Nat.add_zero,
    Option.elim_none, Option.elim_some, Multiset.coe_countP]

variable [DecidableEq κ] [DecidableEq ω]

/-- **From the wire to the counters.**  Let the threads of a fresh process handle what arrives
in datagrams and on connections, each line at any reading of the clock and in any order of
their steps, beside threads that clean up or take snapshots.  If what trusted peers send is
within the limits, then in the end the counters count exactly the lines that trusted peers
sent: all of them, by type, those that no format takes and the attacks.  And the handler is
never called for anyone else. -/
theorem counters_of_traffic (config : Config) (state : StateStore) (db : Database)
    (traffic : Traffic κ) (hconforming : Conforming config traffic)
    (jobs : Option κ ⊕ ω → List Job)
    (hhandlers : ∀ i, Handles (jobs (.inl i)) (calls config traffic i))
    (hothers : ∀ o, linesOf (jobs (.inr o)) = []) (schedule : List (Option κ ⊕ ω))
    (hfinished : Finished
      (runSchedule (start { config := config, state := state, db := db } jobs) schedule)) :
    let p := runSchedule (start { config := config, state := state, db := db } jobs) schedule
    let stats := p.shared.app.stats
    stats.syslogMessagesTotal = (heard config traffic).card ∧
      (∀ type, stats.syslogMessagesByType.getD type 0 =
        (heard config traffic).countP fun line => App.lineType line = type) ∧
      stats.parseErrorsTotal = (heard config traffic).countP (parse · = none) ∧
      stats.wanAttacksTotal =
        (heard config traffic).countP (App.lineType · = str "wan_attack") ∧
      ∀ i, ∀ call ∈ calls config traffic i, shouldAccept config call.2 = true := by
  intro p stats
  have hcount := fun (q : Str → Prop) [DecidablePred q] =>
    sum_lines hconforming hhandlers hothers q
  refine ⟨?_, fun type => ?_, ?_, ?_, fun _ _ hcall => trusted_of_mem_calls hcall⟩
  · rw [counts_total.finished _ hfinished, ← Multiset.countP_True, ← hcount]
    simp only [due_message_jobs, decide_true, List.countP_true, Nat.zero_add]
  · rw [(counts_type type).finished _ hfinished, ← hcount]
    simp only [due_typeOf_jobs]
    exact Nat.zero_add _
  · rw [counts_parseErrors.finished _ hfinished, ← hcount]
    simp only [due_parseError_jobs, countLines, lineType_eq_raw_iff, Nat.zero_add]
  · rw [counts_attacks.finished _ hfinished, ← hcount]
    simp only [due_attack_jobs, Nat.zero_add]
    rfl

/-- Two lines of the trusted router, cut inside the first, a datagram of it and one of somebody
else. -/
def routerTraffic : Traffic (Fin 1) where
  datagrams := [(str "192.168.1.1", str "d\r\n"), (str "10.0.0.9", str "x\n")]
  connections := fun _ => (str "192.168.1.1", [str "a", str "b\nc\n"])

def routerConfig : Config := { enableTcp := true, trustedRouterIps := [str "192.168.1.1"] }

/-- The threads of the datagrams and of the router's connection, and one that takes a
snapshot. -/
def routerJobs : Option (Fin 1) ⊕ Fin 1 → List Job
  | .inl none => [.handleLog ⟨3, 3, 3, 3, 3, 3, 3⟩ (str "d") (str "192.168.1.1")]
  | .inl (some _) =>
      [.handleLog ⟨1, 1, 1, 1, 1, 1, 1⟩ (str "ab") (str "192.168.1.1"),
        .handleLog ⟨2, 2, 2, 2, 2, 2, 2⟩ (str "c") (str "192.168.1.1")]
  | .inr _ => [.snapshot]

/-- The connection's first line, the datagram and the snapshot in between, and the rest. -/
def routerRun : Pool (Option (Fin 1) ⊕ Fin 1) :=
  runSchedule
    (start { config := routerConfig, state := StateStore.init routerConfig, db := {} } routerJobs)
    (List.replicate 4 (.inl (some 0)) ++ List.replicate 10 (.inl none) ++
      List.replicate 6 (.inr 0) ++ List.replicate 16 (.inl (some 0)))

/-- The lines of the router are counted, and those only. -/
theorem counters_of_router_traffic : routerRun.shared.app.stats.syslogMessagesTotal = 3 := by
  have hhandlers : ∀ i, Handles (routerJobs (.inl i)) (calls routerConfig routerTraffic i) := by
    intro i
    cases i with
    | none => exact .cons ⟨_, rfl⟩ .nil
    | some c => exact .cons ⟨_, rfl⟩ (.cons ⟨_, rfl⟩ .nil)
  have hconforming : Conforming routerConfig routerTraffic := by
    constructor
    · decide
    · intro c _
      fin_cases c
      decide
  have hfinished : Finished routerRun := by
    intro i
    fin_cases i <;> exact List.isEmpty_iff.mp (by decide)
  exact (counters_of_traffic routerConfig (StateStore.init routerConfig) {} routerTraffic
    hconforming routerJobs hhandlers (fun _ => rfl) _ hfinished).1

end Threads

end Netmon
