import Netmon.DashboardToken
import Netmon.DebouncedWindow
import Netmon.JsonBodies
import Netmon.Runs

/-!
# The dashboard

The page of `app.js` as a machine that takes timers, messages, clicks and replies in any
order.  It refreshes itself in two loops, a fast one for the summary, the integrations and the
devices, and a slow one for the events, the attacks and the traffic of the devices.  A loop
sends its three requests together and takes the replies together; while they are on their way
it sends no others.

Time is counted in moments, one for every step.  A reply is what the server reports at some
moment after the step that asked and before the step of its arrival.  The page then never
shows anything older than what it showed before.  Only the events and the attacks are asked
for by a source, the one that is selected when they are asked for; the devices are always those
of the live store (`page_never_goes_back`).

Every complete refresh of the fast loop is a sample of the chart of the rates.  A sample that
comes less than 850 ms after its predecessor takes its place, so the chart holds the samples
with no close successor and the newest; while samples keep coming that close, it stays at one
point (`live_history_exact`).
-/

namespace Netmon

namespace Dashboard

open WebServer JsonValue

/-! ## Samples -/

/-- `payload.name`, for an object. -/
def member (name : String) : JsonValue.Value → Option JsonValue.Value
  | .object members => ((members.find? fun m => m.1 = str name)).map Prod.snd
  | _ => none

/-- `Number(payload.name || 0)`, for a number. -/
def numberAt (name : String) (payload : JsonValue.Value) : ℚ :=
  match member name payload with
  | some (.number q) => q
  | _ => 0

/-- A point of the live chart: when it was taken, the two rates and the two numbers of
clients. -/
structure Sample where
  ts : Int
  rx : ℚ
  tx : ℚ
  clients : ℚ
  total : ℚ

/-- All devices of a summary, whatever their status. -/
def knownDevices (summary : JsonValue.Value) : ℚ :=
  numberAt "active_devices" summary + numberAt "idle_devices" summary +
    numberAt "offline_devices" summary + numberAt "unknown_devices" summary

/-- The sample of a summary that arrives at a reading of the clock, in milliseconds. -/
def sampleOf (now : Int) (summary : JsonValue.Value) : Sample where
  ts := now
  rx := numberAt "rx_rate_bps" summary
  tx := numberAt "tx_rate_bps" summary
  clients := knownDevices summary
  total := numberAt "rx_rate_bps" summary + numberAt "tx_rate_bps" summary

/-- A sample that comes less than 850 ms after the last one. -/
def isClose (last sample : Sample) : Bool := sample.ts - last.ts < 850

/-- The chart keeps this many points. -/
def historyLimit : Nat := 180

/-- `addLiveSample`: the samples after the last one are shifted out until the limit is met. -/
def addLiveSample (sample : Sample) (history : List Sample) : List Sample :=
  let next :=
    match history.getLast? with
    | none => history ++ [sample]
    | some last =>
        if sample.ts - last.ts < 850 then history.dropLast ++ [sample] else history ++ [sample]
  next.drop (next.length - historyLimit)

/-! ## The requests -/

/-- The two loops. -/
inductive Loop where
  | fast
  | slow
  deriving DecidableEq

/-- What a loop asks for. -/
def Loop.reports : Loop → List Report
  | .fast => [.summary, .integrations, .devices]
  | .slow => [.events, .wanAttacks, .deviceTraffic24h]

/-- `sourceQuery`, for the selected source. -/
def sourceQuery (source : String) : Str := str "source=" ++ encodeURIComponent source

/-- What a report is asked for with.  Only the events and the attacks depend on the selected
source; the devices are always those of the live store. -/
def address (source : String) : Report → Str
  | .devices => str "/api/devices?source=live&limit=1000"
  | .events => str "/api/events?" ++ sourceQuery source ++ str "&limit=80"
  | .wanAttacks => str "/api/wan-attacks?" ++ sourceQuery source ++ str "&limit=100"
  | .deviceTraffic24h => str "/api/device-traffic-24h?limit=500"
  | report => report.path

/-- The parameter `source` of an address, as the server reads it. -/
def askedSource (address : Str) : Str :=
  findParam (str "source") (split ((splitFirst 63 address).getD (address, [])).2 38)

/-! ## The page -/

/-- A refresh on its way: when it was sent, which source was selected then, and which replies
are there, by the moment of the server that they report. -/
structure Refresh where
  asked : Nat
  source : String
  made : Report → Option Nat

/-- A reply that is shown: when and with what it was asked for, and the moment of the server
that it reports. -/
structure Shown where
  asked : Nat
  address : Str
  made : Nat

/-- The page, and the number of steps that it has made. -/
structure Page where
  moment : Nat := 0
  source : String := "live"
  shown : Report → Option Shown := fun _ => none
  inFlight : Loop → Option Refresh := fun _ => none
  liveHistory : List Sample := []

/-- The page when it is loaded, with what was stored of the selection last time. -/
def load (stored : String) : Page := { source := if stored = "" then "live" else stored }

/-- `refreshFast` and `refreshSlow` up to the replies. -/
def refresh (loop : Loop) (p : Page) : Page :=
  if (p.inFlight loop).isSome then p
  else
    { p with
      inFlight := Function.update p.inFlight loop
        (some { asked := p.moment, source := p.source, made := fun _ => none }) }

/-- The selection of a source. -/
def select (source : String) (p : Page) : Page := { p with source := source }

/-- `renderSourceButtons`: SQLite stays selected only if the page knows that it is there. -/
def renderSourceButtons (config : Config) (p : Page) : Page :=
  if p.source = "sqlite" ∧ ¬ ((p.shown .integrations).isSome ∧ App.sqliteEnabled config) then
    select "live" p
  else p

/-- `setSource`, at a click. -/
def setSource (config : Config) (source : String) (p : Page) : Page :=
  refresh .slow (refresh .fast (renderSourceButtons config (select source p)))

/-- All replies of a refresh are shown together. -/
def showReplies (loop : Loop) (r : Refresh) (p : Page) : Page :=
  { p with
    shown := fun report =>
      if report ∈ loop.reports then
        (r.made report).map fun made =>
          { asked := r.asked, address := address r.source report, made := made }
      else p.shown report
    inFlight := Function.update p.inFlight loop none }

/-- A summary that is shown is sampled. -/
def takeSample (server : Nat → Telemetry) (now : Int) (r : Refresh) (p : Page) : Page :=
  match r.made .summary with
  | none => p
  | some made =>
      { p with
        liveHistory := addLiveSample (sampleOf now (summaryValue (server made))) p.liveHistory }

/-- The end of a refresh: what came is shown, and the fast loop takes a sample. -/
def finish (config : Config) (server : Nat → Telemetry) (loop : Loop) (now : Int) (r : Refresh)
    (p : Page) : Page :=
  let shown := showReplies loop r p
  renderSourceButtons config (if loop = .fast then takeSample server now r shown else shown)

/-- Every reply is there. -/
def Refresh.complete (loop : Loop) (r : Refresh) : Bool :=
  loop.reports.all fun report => (r.made report).isSome

/-- A reply that can come: to a request that is on its way, made after it was sent and before
the moment of its arrival. -/
def Refresh.Awaits (loop : Loop) (moment : Nat) (report : Report) (made : Nat) (r : Refresh) :
    Prop :=
  report ∈ loop.reports ∧ r.made report = none ∧ r.asked ≤ made ∧ made < moment

instance (loop : Loop) (moment : Nat) (report : Report) (made : Nat) (r : Refresh) :
    Decidable (r.Awaits loop moment report made) :=
  inferInstanceAs (Decidable (_ ∧ _ ∧ _ ∧ _))

/-- The arrival of the reply that the server made at a moment after the request. -/
def receive (config : Config) (server : Nat → Telemetry) (loop : Loop) (report : Report)
    (made : Nat) (now : Int) (p : Page) : Page :=
  match p.inFlight loop with
  | none => p
  | some r =>
      if r.Awaits loop p.moment report made then
        let r := { r with made := Function.update r.made report (some made) }
        if r.complete loop then finish config server loop now r p
        else { p with inFlight := Function.update p.inFlight loop (some r) }
      else p

/-- A request fails; the refresh is given up. -/
def fail (loop : Loop) (p : Page) : Page :=
  { p with inFlight := Function.update p.inFlight loop none }

/-- What happens to the page: a timer or, for the fast loop, a message of the socket; a click;
a reply; a failure. -/
inductive Input where
  | tick (loop : Loop)
  | click (source : String)
  | reply (loop : Loop) (report : Report) (made : Nat) (now : Int)
  | failure (loop : Loop)

/-- What the page does about it. -/
def react (config : Config) (server : Nat → Telemetry) (p : Page) : Input → Page
  | .tick loop => refresh loop p
  | .click source => setSource config source p
  | .reply loop report made now => receive config server loop report made now p
  | .failure loop => fail loop p

/-- One step takes one moment. -/
def step (config : Config) (server : Nat → Telemetry) (p : Page) (input : Input) : Page :=
  { react config server p input with moment := p.moment + 1 }

/-! ## The refreshes of a run -/

/-- A refresh of the fast loop that is complete: the moment of the server that its summary
reports, and the clock when the last reply came. -/
structure Completion where
  made : Nat
  now : Int

/-- The fast refresh that an input completes, with the last reply that was missing. -/
def completion (p : Page) : Input → Option Completion
  | .reply .fast report made now =>
      (p.inFlight .fast).bind fun r =>
        if r.Awaits .fast p.moment report made ∧
            ∀ other ∈ Loop.fast.reports, other ≠ report → (r.made other).isSome then
          (if report = .summary then some made else r.made .summary).map fun time => ⟨time, now⟩
        else none
  | _ => none

/-- The fast refreshes that are completed in a run, in order. -/
def completions (config : Config) (server : Nat → Telemetry) : Page → List Input → List Completion
  | _, [] => []
  | p, input :: inputs =>
      (completion p input).toList ++ completions config server (step config server p input) inputs

/-- The sample of a complete refresh. -/
def Completion.sample (server : Nat → Telemetry) (c : Completion) : Sample :=
  sampleOf c.now (summaryValue (server c.made))

/-! ## What a sample shows -/

/-- **A sample shows the rates and the devices that the server reports.** -/
theorem sampleOf_summary (now : Int) (t : Telemetry) :
    let summary := t.state.summary t.summaryNow
    sampleOf now (summaryValue t) =
      { ts := now
        rx := printed summary.rxRateBps
        tx := printed summary.txRateBps
        clients := summary.activeDevices + summary.idleDevices + summary.offlineDevices +
          summary.unknownDevices
        total := printed summary.rxRateBps + printed summary.txRateBps } := by
  intro summary
  rfl

/-! ## What a page keeps to -/

/-- What holds of a refresh on its way: it was asked for before `limit` and every reply came
after that, and it is newer than what its loop shows. -/
structure Fits (limit : Nat) (p : Page) (loop : Loop) (r : Refresh) : Prop where
  asked : r.asked < limit
  replies : ∀ report made, r.made report = some made → r.asked ≤ made ∧ made < limit
  newer : ∀ report ∈ loop.reports, ∀ s, p.shown report = some s → s.made ≤ r.asked

/-- Only what is shown counts. -/
theorem Fits.of_same {limit : Nat} {p q : Page} {loop : Loop} {r : Refresh}
    (h : Fits limit p loop r) (hshown : q.shown = p.shown) : Fits limit q loop r where
  asked := h.asked
  replies := h.replies
  newer := hshown ▸ h.newer

/-- What holds of a page: everything shown was asked for and made before `limit`, and what is on
its way fits. -/
structure Sound (limit : Nat) (p : Page) : Prop where
  shown : ∀ report s, p.shown report = some s → s.asked < limit ∧ s.made < limit
  inFlight : ∀ loop r, p.inFlight loop = some r → Fits limit p loop r

/-- A page that is loaded shows nothing and has asked for nothing. -/
theorem sound_load (stored : String) : Sound 0 (load stored) := by
  constructor <;> simp [load]

/-- A sound page stays sound at a later moment. -/
theorem Sound.mono {limit limit' : Nat} {p : Page} (h : Sound limit p) (hlimit : limit ≤ limit') :
    Sound limit' p where
  shown := fun report s hs =>
    ⟨(h.shown report s hs).1.trans_le hlimit, (h.shown report s hs).2.trans_le hlimit⟩
  inFlight := by
    intro loop r hr
    obtain ⟨hasked, hreplies, hnewer⟩ := h.inFlight loop r hr
    exact ⟨hasked.trans_le hlimit,
      fun report made hmade => ⟨(hreplies report made hmade).1,
        (hreplies report made hmade).2.trans_le hlimit⟩, hnewer⟩

/-- A loop's requests are replaced. -/
theorem update_inFlight {p : Page} {loop other : Loop} {value : Option Refresh} {r : Refresh}
    (h : Function.update p.inFlight loop value other = some r) :
    other = loop ∧ value = some r ∨ other ≠ loop ∧ p.inFlight other = some r := by
  by_cases hother : other = loop
  · subst hother
    rw [Function.update_self] at h
    exact Or.inl ⟨rfl, h⟩
  · rw [Function.update_of_ne hother] at h
    exact Or.inr ⟨hother, h⟩

/-- A refresh that is sent now is newer than what is shown. -/
theorem sound_refresh {p : Page} {limit : Nat} (h : Sound limit p) (hlimit : limit = p.moment + 1)
    (loop : Loop) : Sound limit (refresh loop p) := by
  unfold refresh
  split
  · exact h
  refine ⟨h.shown, fun other r hr => ?_⟩
  rcases update_inFlight hr with ⟨-, hnew⟩ | ⟨-, hold⟩
  · obtain rfl := Option.some.inj hnew
    refine ⟨hlimit ▸ Nat.lt_succ_self _, fun report made hmade => ?_, fun report _ s hs => ?_⟩
    · cases hmade
    · have hmade := (h.shown report s hs).2
      rw [hlimit] at hmade
      exact Nat.le_of_lt_succ hmade
  · exact (h.inFlight other r hold).of_same rfl

/-- A page that shows and awaits the same is as sound. -/
theorem Sound.of_same {limit : Nat} {p q : Page} (h : Sound limit p) (hshown : q.shown = p.shown)
    (hflight : q.inFlight = p.inFlight) : Sound limit q where
  shown := hshown ▸ h.shown
  inFlight := by
    intro loop r hr
    rw [hflight] at hr
    exact (h.inFlight loop r hr).of_same hshown

/-- The loops ask for different reports. -/
theorem reports_disjoint {loop other : Loop} (h : other ≠ loop) {report : Report}
    (hreport : report ∈ other.reports) : report ∉ loop.reports := by
  cases loop with
  | fast =>
      cases other with
      | fast => exact absurd rfl h
      | slow => revert report; decide
  | slow =>
      cases other with
      | fast => revert report; decide
      | slow => exact absurd rfl h

/-- Replies that fit the page leave it sound. -/
theorem sound_showReplies {p : Page} {limit : Nat} (h : Sound limit p) {loop : Loop} {r : Refresh}
    (hr : Fits limit p loop r) : Sound limit (showReplies loop r p) where
  shown := by
    intro report s hs
    simp only [showReplies] at hs
    split at hs
    · obtain ⟨made, hmade, rfl⟩ := Option.map_eq_some_iff.mp hs
      exact ⟨hr.asked, (hr.replies report made hmade).2⟩
    · exact h.shown report s hs
  inFlight := by
    intro other r' hr'
    rcases update_inFlight hr' with ⟨-, hnone⟩ | ⟨hother, hold⟩
    · cases hnone
    · obtain ⟨hasked, hreplies, hnewer⟩ := h.inFlight other r' hold
      refine ⟨hasked, hreplies, fun report hreport s hs => ?_⟩
      simp only [showReplies, if_neg (reports_disjoint hother hreport)] at hs
      exact hnewer report hreport s hs

/-- Drawing the source buttons may correct the selection and does nothing else. -/
theorem renderSourceButtons_same (config : Config) (p : Page) :
    ∃ source, renderSourceButtons config p = { p with source := source } := by
  unfold renderSourceButtons
  split
  · exact ⟨"live", rfl⟩
  · exact ⟨p.source, rfl⟩

/-- After the replies are shown, the end of a refresh changes the chart and the selection only. -/
theorem finish_same (config : Config) (server : Nat → Telemetry) (loop : Loop) (now : Int)
    (r : Refresh) (p : Page) :
    ∃ source history, finish config server loop now r p =
      { showReplies loop r p with source := source, liveHistory := history } := by
  have hsampled : ∃ history, (if loop = .fast then takeSample server now r (showReplies loop r p)
      else showReplies loop r p) = { showReplies loop r p with liveHistory := history } := by
    unfold takeSample
    split
    · split
      · exact ⟨(showReplies loop r p).liveHistory, rfl⟩
      · exact ⟨_, rfl⟩
    · exact ⟨(showReplies loop r p).liveHistory, rfl⟩
  obtain ⟨history, hhistory⟩ := hsampled
  obtain ⟨source, hsource⟩ :=
    renderSourceButtons_same config { showReplies loop r p with liveHistory := history }
  exact ⟨source, history, by rw [finish, hhistory, hsource]⟩

/-- The end of a refresh that fits the page leaves it sound. -/
theorem sound_finish {p : Page} {limit : Nat} (h : Sound limit p) {loop : Loop} {r : Refresh}
    (hr : Fits limit p loop r) (config : Config) (server : Nat → Telemetry) (now : Int) :
    Sound limit (finish config server loop now r p) := by
  obtain ⟨source, history, hfinish⟩ := finish_same config server loop now r p
  rw [hfinish]
  exact (sound_showReplies h hr).of_same rfl rfl

/-- One more reply. -/
theorem Fits.reply {p : Page} {limit : Nat} {loop : Loop} {r : Refresh} (h : Fits limit p loop r)
    (report : Report) {made : Nat} (hasked : r.asked ≤ made) (hmade : made < limit) :
    Fits limit p loop { r with made := Function.update r.made report (some made) } where
  asked := h.asked
  replies := by
    intro other time htime
    by_cases hother : other = report
    · subst hother
      simp only [Function.update_self, Option.some.injEq] at htime
      subst htime
      exact ⟨hasked, hmade⟩
    · simp only [Function.update_of_ne hother] at htime
      exact h.replies other time htime
  newer := h.newer

/-- A reply leaves the page sound, whether it completes its refresh or not. -/
theorem sound_receive {p : Page} (h : Sound p.moment p) (config : Config)
    (server : Nat → Telemetry) (loop : Loop) (report : Report) (made : Nat) (now : Int) :
    Sound p.moment (receive config server loop report made now p) := by
  unfold receive
  cases hflight : p.inFlight loop with
  | none => exact h
  | some r =>
      simp only
      split
      · rename_i hguard
        have hr := (h.inFlight loop r hflight).reply report hguard.2.2.1 hguard.2.2.2
        split
        · exact sound_finish h hr config server now
        · refine ⟨h.shown, fun other r' hr' => ?_⟩
          rcases update_inFlight hr' with ⟨rfl, hnew⟩ | ⟨-, hold⟩
          · obtain rfl := Option.some.inj hnew
            exact hr.of_same rfl
          · exact (h.inFlight other r' hold).of_same rfl
      · exact h

/-- A failed request leaves the page sound. -/
theorem sound_fail {p : Page} {limit : Nat} (h : Sound limit p) (loop : Loop) :
    Sound limit (fail loop p) := by
  refine ⟨h.shown, fun other r hr => ?_⟩
  rcases update_inFlight hr with ⟨-, hnone⟩ | ⟨-, hold⟩
  · cases hnone
  · exact (h.inFlight other r hold).of_same rfl

/-- Starting a refresh takes no time. -/
theorem refresh_moment (loop : Loop) (p : Page) : (refresh loop p).moment = p.moment := by
  unfold refresh
  split <;> rfl

/-- Choosing a source leaves the page sound, a moment later. -/
theorem sound_setSource {p : Page} (h : Sound p.moment p) (config : Config) (source : String) :
    Sound (p.moment + 1) (setSource config source p) := by
  obtain ⟨selected, hselected⟩ := renderSourceButtons_same config (select source p)
  have hlater : Sound (p.moment + 1) { p with source := selected } :=
    (h.mono (Nat.le_succ _)).of_same rfl rfl
  rw [setSource, hselected]
  exact sound_refresh (sound_refresh hlater rfl .fast) (by rw [refresh_moment]) .slow

/-- **A step keeps a page sound.** -/
theorem sound_step {p : Page} (h : Sound p.moment p) (config : Config) (server : Nat → Telemetry)
    (input : Input) :
    Sound (step config server p input).moment (step config server p input) := by
  have hlater := h.mono (Nat.le_succ p.moment)
  have hreact : Sound (p.moment + 1) (react config server p input) := by
    cases input with
    | tick loop => exact sound_refresh hlater rfl loop
    | click source => exact sound_setSource h config source
    | reply loop report made now =>
        exact (sound_receive h config server loop report made now).mono (Nat.le_succ _)
    | failure loop => exact sound_fail hlater loop
  exact hreact.of_same rfl rfl

/-- Starting a refresh shows nothing new. -/
theorem refresh_shown (loop : Loop) (p : Page) : (refresh loop p).shown = p.shown := by
  unfold refresh
  split <;> rfl

/-- Drawing the buttons shows no report. -/
theorem renderSourceButtons_shown (config : Config) (p : Page) :
    (renderSourceButtons config p).shown = p.shown := by
  obtain ⟨source, hsource⟩ := renderSourceButtons_same config p
  rw [hsource]

/-- A finished refresh shows its replies and nothing else. -/
theorem finish_shown (config : Config) (server : Nat → Telemetry) (loop : Loop) (now : Int)
    (r : Refresh) (p : Page) :
    (finish config server loop now r p).shown = (showReplies loop r p).shown := by
  obtain ⟨source, history, hfinish⟩ := finish_same config server loop now r p
  rw [hfinish]

/-- What is shown is as new as what was shown. -/
def AsNew (before after : Page) : Prop :=
  ∀ report s, before.shown report = some s → ∃ s', after.shown report = some s' ∧ s.made ≤ s'.made

/-- A page that shows the same shows nothing older. -/
theorem AsNew.of_same {before after : Page} (h : after.shown = before.shown) :
    AsNew before after := by
  intro report s hs
  exact ⟨s, by rw [h]; exact hs, le_rfl⟩

/-- Showing nothing older is transitive. -/
theorem AsNew.trans {a b c : Page} (hab : AsNew a b) (hbc : AsNew b c) : AsNew a c := by
  intro report s hs
  obtain ⟨s₁, hs₁, hle₁⟩ := hab report s hs
  obtain ⟨s₂, hs₂, hle₂⟩ := hbc report s₁ hs₁
  exact ⟨s₂, hs₂, hle₁.trans hle₂⟩

/-- A complete refresh is newer than what its loop showed. -/
theorem asNew_showReplies {p : Page} {limit : Nat} {loop : Loop} {r : Refresh}
    (hr : Fits limit p loop r) (hcomplete : r.complete loop = true) :
    AsNew p (showReplies loop r p) := by
  intro report s hs
  by_cases hreport : report ∈ loop.reports
  · obtain ⟨made, hmade⟩ :=
      Option.isSome_iff_exists.mp (List.all_eq_true.mp hcomplete report hreport)
    refine ⟨{ asked := r.asked, address := address r.source report, made := made }, ?_, ?_⟩
    · simp only [showReplies, if_pos hreport, hmade, Option.map_some]
    · exact (hr.newer report hreport s hs).trans (hr.replies report made hmade).1
  · exact ⟨s, by simp only [showReplies, if_neg hreport, hs], le_rfl⟩

/-- **A step never shows anything older.** -/
theorem asNew_step {p : Page} (h : Sound p.moment p) (config : Config) (server : Nat → Telemetry)
    (input : Input) : AsNew p (step config server p input) := by
  cases input with
  | tick loop => exact AsNew.of_same (refresh_shown loop p)
  | click source =>
      refine AsNew.of_same ?_
      exact (refresh_shown _ _).trans ((refresh_shown _ _).trans (renderSourceButtons_shown _ _))
  | failure loop => exact AsNew.of_same rfl
  | reply loop report made now =>
      have hreceive : AsNew p (receive config server loop report made now p) := by
        unfold receive
        cases hflight : p.inFlight loop with
        | none => exact AsNew.of_same rfl
        | some r =>
            simp only
            split
            · rename_i hguard
              have hr := (h.inFlight loop r hflight).reply report hguard.2.2.1 hguard.2.2.2
              split
              · rename_i hcomplete
                exact (asNew_showReplies hr hcomplete).trans
                  (AsNew.of_same (finish_shown config server loop now _ p))
              · exact AsNew.of_same rfl
            · exact AsNew.of_same rfl
      exact hreceive

/-- A page is sound after any inputs. -/
theorem sound_run (config : Config) (server : Nat → Telemetry) (stored : String)
    (inputs : List Input) :
    Sound (Runs.run (step config server) (load stored) inputs).moment
      (Runs.run (step config server) (load stored) inputs) :=
  Runs.run_invariant (fun p => Sound p.moment p)
    (fun _ input h => sound_step h config server input) (sound_load stored) inputs

/-- Later in a run the page shows nothing older. -/
theorem asNew_run (config : Config) (server : Nat → Telemetry) {p : Page} (h : Sound p.moment p)
    (inputs : List Input) : AsNew p (Runs.run (step config server) p inputs) := by
  induction inputs generalizing p with
  | nil => exact AsNew.of_same rfl
  | cons input inputs ih =>
      exact (asNew_step h config server input).trans (ih (sound_step h config server input))

/-! ## The source of what is shown -/

/-- Everything on its way and everything shown was asked for by the source that was selected at
the moment when it was asked for. -/
structure AskedBy (selected : Nat → String) (p : Page) : Prop where
  shown : ∀ report s, p.shown report = some s → s.address = address (selected s.asked) report
  inFlight : ∀ loop r, p.inFlight loop = some r → r.source = selected r.asked

variable {selected : Nat → String}

/-- A page that is loaded has asked for nothing. -/
theorem askedBy_load (stored : String) : AskedBy selected (load stored) := by
  constructor <;> simp [load]

/-- Only what is shown and what is on its way counts. -/
theorem AskedBy.of_same {p q : Page} (h : AskedBy selected p) (hshown : q.shown = p.shown)
    (hflight : q.inFlight = p.inFlight) : AskedBy selected q :=
  ⟨hshown ▸ h.shown, hflight ▸ h.inFlight⟩

/-- A refresh that is sent now is for the source that is selected now. -/
theorem AskedBy.refresh {p : Page} (h : AskedBy selected p) (hnow : p.source = selected p.moment)
    (loop : Loop) : AskedBy selected (refresh loop p) := by
  unfold Dashboard.refresh
  split
  · exact h
  refine ⟨h.shown, fun other r hr => ?_⟩
  rcases update_inFlight hr with ⟨-, hnew⟩ | ⟨-, hold⟩
  · obtain rfl := Option.some.inj hnew
    exact hnow
  · exact h.inFlight other r hold

/-- Starting a refresh leaves the selection alone. -/
theorem refresh_source (loop : Loop) (p : Page) : (refresh loop p).source = p.source := by
  unfold refresh
  split <;> rfl

/-- A click asks for what is selected after it. -/
theorem AskedBy.setSource {p : Page} (h : AskedBy selected p) (config : Config) (source : String)
    (hnow : (setSource config source p).source = selected p.moment) :
    AskedBy selected (setSource config source p) := by
  obtain ⟨chosen, hchosen⟩ := renderSourceButtons_same config (select source p)
  rw [Dashboard.setSource, hchosen] at hnow ⊢
  rw [refresh_source, refresh_source] at hnow
  have hselected : AskedBy selected { p with source := chosen } := h.of_same rfl rfl
  refine (hselected.refresh hnow .fast).refresh ?_ .slow
  rw [refresh_source, refresh_moment]
  exact hnow

/-- The replies of a refresh are shown with what it asked for. -/
theorem AskedBy.finish {p : Page} (h : AskedBy selected p) {loop : Loop} {r : Refresh}
    (hr : r.source = selected r.asked) (config : Config) (server : Nat → Telemetry) (now : Int) :
    AskedBy selected (finish config server loop now r p) := by
  obtain ⟨source, history, hfinish⟩ := finish_same config server loop now r p
  rw [hfinish]
  constructor
  · intro report s hs
    simp only [showReplies] at hs
    split at hs
    · obtain ⟨made, -, rfl⟩ := Option.map_eq_some_iff.mp hs
      exact congrArg (address · report) hr
    · exact h.shown report s hs
  · intro other r' hr'
    rcases update_inFlight hr' with ⟨-, hnone⟩ | ⟨-, hold⟩
    · cases hnone
    · exact h.inFlight other r' hold

/-- A reply changes nothing of what was asked for. -/
theorem AskedBy.receive {p : Page} (h : AskedBy selected p) (config : Config)
    (server : Nat → Telemetry) (loop : Loop) (report : Report) (made : Nat) (now : Int) :
    AskedBy selected (receive config server loop report made now p) := by
  unfold Dashboard.receive
  cases hflight : p.inFlight loop with
  | none => exact h
  | some r =>
      have hr := h.inFlight loop r hflight
      simp only
      split
      · split
        · exact h.finish (r := { r with made := Function.update r.made report (some made) }) hr
            config server now
        · refine ⟨h.shown, fun other r' hr' => ?_⟩
          rcases update_inFlight hr' with ⟨-, hnew⟩ | ⟨-, hold⟩
          · obtain rfl := Option.some.inj hnew
            exact hr
          · exact h.inFlight other r' hold
      · exact h

/-- **A step asks for what is selected after it.** -/
theorem AskedBy.step {p : Page} (h : AskedBy selected p) (config : Config)
    (server : Nat → Telemetry) (input : Input)
    (hnow : (step config server p input).source = selected p.moment) :
    AskedBy selected (step config server p input) := by
  have hreact : AskedBy selected (react config server p input) := by
    cases input with
    | tick loop => exact h.refresh ((refresh_source loop p).symm.trans hnow) loop
    | click source => exact h.setSource config source hnow
    | reply loop report made now => exact h.receive config server loop report made now
    | failure loop =>
        refine ⟨h.shown, fun other r hr => ?_⟩
        rcases update_inFlight hr with ⟨-, hnone⟩ | ⟨-, hold⟩
        · cases hnone
        · exact h.inFlight other r hold
  exact hreact.of_same rfl rfl

/-- **A run asks for what is selected after each of its steps.** -/
theorem AskedBy.run {p : Page} (h : AskedBy selected p) (config : Config)
    (server : Nat → Telemetry) (inputs : List Input)
    (hselected : ∀ n < inputs.length, selected (p.moment + n) =
      (Runs.run (Dashboard.step config server) p (inputs.take (n + 1))).source) :
    AskedBy selected (Runs.run (Dashboard.step config server) p inputs) := by
  induction inputs generalizing p with
  | nil => exact h
  | cons input inputs ih =>
      refine ih (h.step config server input (hselected 0 (Nat.succ_pos _)).symm) fun n hn => ?_
      have hlater := hselected (n + 1) (Nat.succ_lt_succ hn)
      rw [← Nat.add_assoc, Nat.add_right_comm] at hlater
      exact hlater

/-- The steps of a run are counted. -/
theorem moment_run (config : Config) (server : Nat → Telemetry) (p : Page) (inputs : List Input) :
    (Runs.run (step config server) p inputs).moment = p.moment + inputs.length := by
  induction inputs generalizing p with
  | nil => rfl
  | cons input inputs ih =>
      rw [Runs.run_cons, ih, List.length_cons, Nat.add_comm inputs.length, ← Nat.add_assoc]
      rfl

/-- The first parameter of a query is the one that the server finds. -/
theorem askedSource_sourceQuery {path : Str} (hpath : 63 ∉ path) (source : String) (rest : Str) :
    askedSource (path ++ 63 :: (sourceQuery source ++ 38 :: rest)) =
      encodeURIComponent source := by
  have hquery : sourceQuery source = str "source" ++ [61] ++ encodeURIComponent source := by
    rw [sourceQuery, show str "source=" = str "source" ++ [61] by decide]
  rw [askedSource, splitFirst_append_of_notMem hpath, Option.getD_some, split_append_delimiter,
    sourceQuery, split_encoded (by decide), ← sourceQuery, hquery]
  exact findParam_head (by decide) _ _

/-- The events and the attacks are asked for by the selected source. -/
theorem askedSource_selected (source : String) {report : Report}
    (hreport : report ∈ [Report.events, Report.wanAttacks]) :
    askedSource (address source report) = encodeURIComponent source := by
  simp only [List.mem_cons, List.not_mem_nil, or_false] at hreport
  rcases hreport with rfl | rfl
  · have haddress : address source .events =
        str "/api/events" ++ 63 :: (sourceQuery source ++ 38 :: str "limit=80") := by
      rw [address, show str "/api/events?" = str "/api/events" ++ [63] by decide,
        show str "&limit=80" = 38 :: str "limit=80" by decide]
      simp only [List.append_assoc, List.cons_append, List.nil_append]
    rw [haddress]
    exact askedSource_sourceQuery (by decide) source _
  · have haddress : address source .wanAttacks =
        str "/api/wan-attacks" ++ 63 :: (sourceQuery source ++ 38 :: str "limit=100") := by
      rw [address, show str "/api/wan-attacks?" = str "/api/wan-attacks" ++ [63] by decide,
        show str "&limit=100" = 38 :: str "limit=100" by decide]
      simp only [List.append_assoc, List.cons_append, List.nil_append]
    rw [haddress]
    exact askedSource_sourceQuery (by decide) source _

/-- The devices are asked for from the live store, whatever is selected. -/
theorem askedSource_devices (source : String) :
    askedSource (address source .devices) = str "live" := by
  rw [address]
  decide

/-- **The page never goes back.**  However timers, messages, clicks, replies and failures come,
the moment of the server that the page shows in a report never decreases.  The events and the
attacks that it shows were asked for in some step of the run, by the source that was selected
after that step; the devices that it shows were asked for from the live store, whatever is
selected. -/
theorem page_never_goes_back (config : Config) (server : Nat → Telemetry) (stored : String)
    (before after : List Input) :
    let page := Runs.run (step config server) (load stored)
    (∀ report s, (page before).shown report = some s →
        ∃ s', (page (before ++ after)).shown report = some s' ∧ s.made ≤ s'.made) ∧
      (∀ report ∈ [Report.events, Report.wanAttacks], ∀ s,
        (page before).shown report = some s → s.asked < before.length ∧
          askedSource s.address =
            encodeURIComponent (page (before.take (s.asked + 1))).source) ∧
      ∀ s, (page before).shown .devices = some s → askedSource s.address = str "live" := by
  intro page
  have hsound := sound_run config server stored before
  have hasked : AskedBy (fun n => (page (before.take (n + 1))).source) (page before) := by
    refine (askedBy_load stored).run config server before fun n _ => ?_
    rw [show (load stored).moment = 0 from rfl, Nat.zero_add]
  refine ⟨?_, fun report hreport s hs => ⟨?_, ?_⟩, fun s hs => ?_⟩
  · rw [show page (before ++ after) = Runs.run (step config server) (page before) after from
      Runs.run_append _ _ _ _]
    exact asNew_run config server hsound after
  · have hbefore := (hsound.shown report s hs).1
    rw [moment_run, show (load stored).moment = 0 from rfl, Nat.zero_add] at hbefore
    exact hbefore
  · rw [hasked.shown report s hs, askedSource_selected _ hreport]
  · rw [hasked.shown .devices s hs, askedSource_devices]

/-! ## The chart -/

/-- The points of the chart are a debounced window of 180. -/
theorem addLiveSample_eq (sample : Sample) (history : List Sample) :
    addLiveSample sample history = DebouncedWindow.push isClose 179 history sample := by
  unfold addLiveSample DebouncedWindow.push
  cases hlast : history.getLast? with
  | none =>
      rw [List.getLast?_eq_none_iff.mp hlast]
      rfl
  | some last =>
      simp only [isClose, decide_eq_true_eq]
      rfl

@[simp] theorem refresh_liveHistory (loop : Loop) (p : Page) :
    (refresh loop p).liveHistory = p.liveHistory := by
  unfold refresh
  split <;> rfl

@[simp] theorem renderSourceButtons_liveHistory (config : Config) (p : Page) :
    (renderSourceButtons config p).liveHistory = p.liveHistory := by
  unfold renderSourceButtons
  split <;> rfl

/-- What a page shows of the complete fast refreshes: the chart and the last summary. -/
structure Keeps (server : Nat → Telemetry) (before after : Page) (c : Option Completion) :
    Prop where
  liveHistory : after.liveHistory =
    (c.map (Completion.sample server)).elim before.liveHistory
      fun sample => addLiveSample sample before.liveHistory
  summary : (after.shown .summary).map Shown.made =
    (c.map Completion.made).or ((before.shown .summary).map Shown.made)

/-- A page that changes neither has completed nothing. -/
theorem keeps_none {server : Nat → Telemetry} {before after : Page}
    (hhistory : after.liveHistory = before.liveHistory)
    (hshown : after.shown .summary = before.shown .summary) :
    Keeps server before after none :=
  ⟨hhistory, by rw [hshown]; rfl⟩

/-- A reply completes a refresh if the others are there. -/
theorem complete_update {loop : Loop} {r : Refresh} {report : Report} {made : Nat} :
    Refresh.complete loop { r with made := Function.update r.made report (some made) } = true ↔
      ∀ other ∈ loop.reports, other ≠ report → (r.made other).isSome := by
  rw [Refresh.complete, List.all_eq_true]
  refine forall₂_congr fun other _ => ?_
  by_cases hother : other = report
  · subst hother
    simp
  · simp [hother]

/-- The end of a fast refresh shows its summary and takes the sample of it. -/
theorem keeps_finish (config : Config) (server : Nat → Telemetry) (now : Int) {r : Refresh}
    {made : Nat} (hmade : r.made .summary = some made) (p : Page) :
    Keeps server p (finish config server .fast now r p) (some ⟨made, now⟩) := by
  constructor
  · rw [finish, renderSourceButtons_liveHistory, if_pos rfl, takeSample]
    simp only [hmade, Option.map_some, Option.elim_some, Completion.sample, showReplies]
  · rw [finish_shown]
    simp [showReplies, Loop.reports, hmade]

/-- A reply of the slow loop changes neither the chart nor the summary. -/
theorem keeps_receive_slow (config : Config) (server : Nat → Telemetry) (report : Report)
    (made : Nat) (now : Int) (p : Page) :
    Keeps server p (receive config server .slow report made now p) none := by
  unfold receive
  cases p.inFlight .slow with
  | none => exact keeps_none rfl rfl
  | some r =>
      simp only
      split
      · split
        · refine keeps_none (renderSourceButtons_liveHistory _ _) ?_
          rw [finish_shown]
          rfl
        · exact keeps_none rfl rfl
      · exact keeps_none rfl rfl

/-- A reply of the fast loop changes them exactly when it completes the refresh. -/
theorem keeps_receive_fast (config : Config) (server : Nat → Telemetry) (report : Report)
    (made : Nat) (now : Int) (p : Page) :
    Keeps server p (receive config server .fast report made now p)
      (completion p (.reply .fast report made now)) := by
  unfold receive completion
  cases p.inFlight .fast with
  | none => exact keeps_none rfl rfl
  | some r =>
      simp only [Option.bind_some]
      by_cases hawaits : r.Awaits .fast p.moment report made
      · rw [if_pos hawaits]
        by_cases hcomplete : ∀ other ∈ Loop.fast.reports, other ≠ report → (r.made other).isSome
        · rw [if_pos (complete_update.mpr hcomplete), if_pos ⟨hawaits, hcomplete⟩]
          obtain ⟨time, htime⟩ : ∃ time,
              Function.update r.made report (some made) .summary = some time := by
            refine Option.isSome_iff_exists.mp ?_
            exact List.all_eq_true.mp (complete_update.mpr hcomplete) .summary (by decide)
          have hsummary : (if report = .summary then some made else r.made .summary) =
              some time := by
            rw [← htime, Function.update_apply]
            simp only [eq_comm]
          rw [hsummary]
          exact keeps_finish config server now htime p
        · rw [if_neg (mt complete_update.mp hcomplete), if_neg fun h => hcomplete h.2]
          exact keeps_none rfl rfl
      · rw [if_neg hawaits, if_neg fun h => hawaits h.1]
        exact keeps_none rfl rfl

/-- **A step takes a sample exactly when it completes a fast refresh.** -/
theorem keeps_step (config : Config) (server : Nat → Telemetry) (p : Page) (input : Input) :
    Keeps server p (step config server p input) (completion p input) := by
  have hreact : Keeps server p (react config server p input) (completion p input) := by
    cases input with
    | tick loop => exact keeps_none (refresh_liveHistory loop p) (by rw [react, refresh_shown])
    | click source =>
        refine keeps_none ?_ ?_
        · simp only [react, setSource, refresh_liveHistory, renderSourceButtons_liveHistory]
          rfl
        · simp only [react, setSource, refresh_shown, renderSourceButtons_shown]
          rfl
    | reply loop report made now =>
        cases loop with
        | fast => exact keeps_receive_fast config server report made now p
        | slow => exact keeps_receive_slow config server report made now p
    | failure loop => exact keeps_none rfl rfl
  exact ⟨hreact.liveHistory, hreact.summary⟩

/-- **The chart of a run** is made of the samples of its complete refreshes, in order. -/
theorem liveHistory_run (config : Config) (server : Nat → Telemetry) (p : Page)
    (inputs : List Input) :
    (Runs.run (step config server) p inputs).liveHistory =
      ((completions config server p inputs).map (Completion.sample server)).foldl
        (DebouncedWindow.push isClose 179) p.liveHistory := by
  induction inputs generalizing p with
  | nil => rfl
  | cons input inputs ih =>
      rw [Runs.run_cons, ih, (keeps_step config server p input).liveHistory, completions]
      cases completion p input with
      | none => rfl
      | some c =>
          simp only [Option.map_some, Option.elim_some, Option.toList_some, List.singleton_append,
            List.map_cons, List.foldl_cons, addLiveSample_eq]

/-- **The summary of a run** is that of its last complete refresh. -/
theorem summary_run (config : Config) (server : Nat → Telemetry) (p : Page) (inputs : List Input) :
    ((Runs.run (step config server) p inputs).shown .summary).map Shown.made =
      ((completions config server p inputs).getLast?.map Completion.made).or
        ((p.shown .summary).map Shown.made) := by
  induction inputs generalizing p with
  | nil => rfl
  | cons input inputs ih =>
      rw [Runs.run_cons, ih, (keeps_step config server p input).summary, completions,
        List.getLast?_append, ← Option.or_assoc, Option.map_or]
      cases completion p input <;> rfl

/-- **What the chart shows.**  In every run the page shows the summary of the last complete
refresh of the fast loop.  Every complete refresh is a sample: its time is the reading of the
clock at the last reply, its rates and devices are those that the server reported in the summary.
Of the samples with no successor within 850 ms and the newest sample, the chart holds the last
180.  So while samples come within 850 ms of each other, the chart stays at one point, and if the
clock never goes back, no two points are closer than that. -/
theorem live_history_exact (config : Config) (server : Nat → Telemetry) (stored : String)
    (inputs : List Input) :
    let p := Runs.run (step config server) (load stored) inputs
    let refreshes := completions config server (load stored) inputs
    let samples := refreshes.map (Completion.sample server)
    (p.shown .summary).map Shown.made = refreshes.getLast?.map Completion.made ∧
      p.liveHistory = (DebouncedWindow.settled (fun a b => b.ts - a.ts < 850) samples ++
        samples.getLast?.toList).rtake 180 ∧
      (∀ c ∈ refreshes,
        let summary := (server c.made).state.summary (server c.made).summaryNow
        (c.sample server).ts = c.now ∧
          (c.sample server).rx = printed summary.rxRateBps ∧
          (c.sample server).tx = printed summary.txRateBps ∧
          (c.sample server).total = printed summary.rxRateBps + printed summary.txRateBps ∧
          (c.sample server).clients = summary.activeDevices + summary.idleDevices +
            summary.offlineDevices + summary.unknownDevices) ∧
      (samples.IsChain (fun a b => b.ts - a.ts < 850) →
        p.liveHistory = samples.getLast?.toList) ∧
      (samples.Pairwise (fun a b => a.ts ≤ b.ts) →
        p.liveHistory.Pairwise fun a b => 850 ≤ b.ts - a.ts) := by
  intro p refreshes samples
  have hhistory : p.liveHistory =
      (DebouncedWindow.settled isClose samples ++ samples.getLast?.toList).rtake 180 :=
    (liveHistory_run config server (load stored) inputs).trans
      (DebouncedWindow.run_push isClose 179 samples)
  refine ⟨?_, hhistory, fun c _ => ?_, fun hclose => ?_, fun hclock => ?_⟩
  · exact (summary_run config server (load stored) inputs).trans (Option.or_none)
  · rw [Completion.sample, sampleOf_summary]
    exact ⟨rfl, rfl, rfl, rfl, rfl⟩
  · rw [hhistory, DebouncedWindow.settled_eq_nil]
    · cases samples.getLast? <;> simp [List.rtake]
    · exact hclose.imp fun a b hab => decide_eq_true hab
  · rw [hhistory]
    have hfar := DebouncedWindow.settled_pairwise isClose (l := samples)
      (hclock.imp fun {b c} hbc a hab => by
        have hab' := of_decide_eq_false hab
        refine decide_eq_false ?_
        omega)
    exact (hfar.sublist (List.drop_sublist _ _)).imp fun {a b} hab => by
      have hab' := of_decide_eq_false hab
      omega

/-- Two replies complete nothing; the third takes the sample of the first. -/
example (config : Config) (server : Nat → Telemetry) :
    completions config server (load "live")
      [.tick .fast, .reply .fast .summary 0 5, .reply .fast .devices 1 6,
        .reply .fast .integrations 2 7] = [⟨0, 7⟩] := rfl

end Dashboard

end Netmon
