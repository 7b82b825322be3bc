import Netmon.ExpositionReader
import Netmon.MessageAccounting
import Netmon.MetricsLines
import Netmon.NumberText

/-!
# The document of the metrics

The whole document that `renderPrometheusMetrics` writes, read by a reader of the text format:
ten families of the service and, if they are configured, two of the devices, each introduced
once, with its samples under its own name.  The reader refuses a document with any other line,
so there is none, whatever the message types and the names of the devices contain.

A document may hold one series twice: two device records with one label and one status are two
samples under the same labels.  The strict reader takes exactly the documents where that does
not happen (`metrics_read_back`).
-/

namespace Netmon

open ExpositionReader (Family Series Line)

/-! ## Numbers -/

/-- A rate as it is printed, in thousandths. -/
def rounded (rate : ℚ) : ℚ :=
  (if rate < 0 then -1 else 1) * ((roundHalfEven (|rate| * 1000) : ℚ) / 1000)

/-- **A printed rate is off by at most half a thousandth.** -/
theorem rounded_error (rate : ℚ) : |rounded rate - rate| ≤ 1 / 2000 := by
  have herror := abs_le.mp (roundHalfEven_error (show 0 ≤ |rate| * 1000 by positivity))
  unfold rounded
  rw [abs_le]
  by_cases hneg : rate < 0
  · rw [abs_of_neg hneg] at herror ⊢
    rw [if_pos hneg]
    constructor <;> linarith [herror.1, herror.2]
  · rw [abs_of_nonneg (not_lt.mp hneg)] at herror ⊢
    rw [if_neg hneg]
    constructor <;> linarith [herror.1, herror.2]

/-- The numeral of a printed rate. -/
def fixedNumeral (rate : ℚ) : DecimalText.Numeral where
  negative := rate < 0
  whole := decimal (roundHalfEven (|rate| * 1000) / 1000)
  fraction := zeroPadded 3 (roundHalfEven (|rate| * 1000) % 1000)

/-- The numeral of a rate is what the program writes. -/
theorem text_fixedNumeral (rate : ℚ) : (fixedNumeral rate).text = formatFixed3 rate := by
  have hpoint : str "." = [46] := by decide
  have hminus : str "-" = [45] := by decide
  have hne : (fixedNumeral rate).fraction ≠ [] := zeroPadded_ne_nil _ _
  rw [DecimalText.Numeral.text, if_neg hne]
  simp only [fixedNumeral, formatFixed3, DecimalText.Numeral.exponentText, hpoint, hminus,
    decide_eq_true_eq, List.append_nil, List.append_assoc, List.singleton_append]

/-- The numeral of a rate is well formed. -/
theorem wellFormed_fixedNumeral (rate : ℚ) : (fixedNumeral rate).WellFormed where
  whole_ne_nil := decimal_ne_nil _
  no_leading_zero := decimal_no_leading_zero
  whole := digits_decimal _
  fraction := zeroPadded_digits _ _
  exponent := by simp [fixedNumeral]

/-- A number that fits has the width. -/
theorem length_zeroPadded {width n : Nat} (hwidth : 0 < width) (h : n < 10 ^ width) :
    (zeroPadded width n).length = width := by
  have hlength := (length_decimal_le_iff hwidth).mpr h
  rw [zeroPadded, List.length_append, List.length_replicate]
  omega

/-- The numeral of a rate is worth the rate to three decimals. -/
theorem value_fixedNumeral (rate : ℚ) : (fixedNumeral rate).value = rounded rate := by
  have hlength : (zeroPadded 3 (roundHalfEven (|rate| * 1000) % 1000)).length = 3 :=
    length_zeroPadded (by omega) (Nat.mod_lt _ (by omega))
  have hdigits : DecimalText.value (decimal (roundHalfEven (|rate| * 1000) / 1000) ++
      zeroPadded 3 (roundHalfEven (|rate| * 1000) % 1000)) = roundHalfEven (|rate| * 1000) := by
    rw [DecimalText.value_append, value_decimal, value_zeroPadded, hlength]
    exact Nat.div_add_mod' _ _
  simp only [DecimalText.Numeral.value, fixedNumeral, DecimalText.pointed, hdigits, hlength,
    DecimalText.Numeral.exponentValue, rounded, decide_eq_true_eq]
  norm_num

/-- A rate is read back to three decimals. -/
theorem readNumber_formatFixed3 (rate : ℚ) :
    ExpositionReader.readNumber (formatFixed3 rate) = some (rounded rate) := by
  rw [← text_fixedNumeral, ExpositionReader.readNumber_text (wellFormed_fixedNumeral rate),
    value_fixedNumeral]

/-- An integer is read back. -/
theorem readNumber_decimalInt (n : Int) :
    ExpositionReader.readNumber (decimalInt n) = some (n : ℚ) := by
  rw [← text_intNumeral, ExpositionReader.readNumber_text (wellFormed_intNumeral n),
    value_intNumeral]

/-- The text of an integer is a number. -/
theorem isNumber_decimalInt (n : Int) : MetricsReader.isNumber (decimalInt n) = true := by
  have hnumber := ExpositionReader.isNumber_digits (decimal_ne_nil n.natAbs) fun b hb =>
    isDigit_of_mem_decimal hb
  unfold decimalInt
  split
  · exact hnumber.2
  · exact hnumber.1

/-- A natural number has no sign. -/
theorem decimalInt_natCast (n : Nat) : decimalInt n = decimal n :=
  if_neg (not_lt.mpr (Int.natCast_nonneg n))

/-! ## Samples -/

/-- A sample without labels. -/
def bare (value : ℚ) : Series := { labels := [], value := value }

/-- A sample with one label. -/
def tagged (label : String) (tag : Str) (value : ℚ) : Series :=
  { labels := [(str label, tag)], value := value }

/-- The sample of a device. -/
def deviceSeries (config : Config) (device : DeviceState) (rate : ℚ) : Series where
  labels := [(str "device", deviceLabel config device), (str "status", device.status.toText)]
  value := rounded rate

/-- A line is the sample of a metric. -/
def Samples (name : String) (line : Str) (series : Series) : Prop :=
  ExpositionReader.readLine line = some (.sample (str name) series)

/-- A line without labels is read as the series without labels. -/
theorem samples_bare {name : String} (hname : MetricsReader.isName (str name) = true) {text : Str}
    {value : ℚ} (hnumber : MetricsReader.isNumber text = true)
    (hvalue : ExpositionReader.readNumber text = some value) :
    Samples name (sample name text) (bare value) := by
  have hline : sample name text = str name ++ 32 :: text := by simp [sample]
  have hread := ExpositionReader.readSample_bare hname hnumber
  rw [← hline] at hread
  exact ExpositionReader.readLine_sample hread hvalue

/-- A line with a count is read as the series without labels. -/
theorem samples_count {name : String} (hname : MetricsReader.isName (str name) = true) (n : Nat) :
    Samples name (sample name (decimal n)) (bare n) := by
  rw [← decimalInt_natCast]
  exact samples_bare hname (isNumber_decimalInt n) (readNumber_decimalInt n)

/-- A line with a rate is read as the series without labels. -/
theorem samples_rate {name : String} (hname : MetricsReader.isName (str name) = true) (rate : ℚ) :
    Samples name (sample name (formatFixed3 rate)) (bare (rounded rate)) :=
  samples_bare hname (isNumber_formatFixed3 rate) (readNumber_formatFixed3 rate)

/-- A counter with a label, whatever the label contains. -/
theorem samples_labelled {name label : String} (hname : MetricsReader.isName (str name) = true)
    (hlabel : MetricsReader.isName (str label) = true) (tag : Str) (n : Nat) :
    Samples name (labelled name label (labelEscape tag) (decimal n)) (tagged label tag n) := by
  have hnames : ∀ l ∈ [(str label, tag)], MetricsReader.isName l.1 = true := by
    intro l hl
    rw [List.mem_singleton.mp hl]
    exact hlabel
  have hread := MetricsReader.readSample_write readLabelValue_labelEscape hname _ hnames
    (isNumber_decimalInt n)
  have hopen : str "=\"" = [61, 34] := by decide
  have hclose : str "\"\x7d " = [34, 125, 32] := by decide
  have hline : labelled name label (labelEscape tag) (decimal n) =
      str name ++ [123] ++ [44].intercalate
        ([(str label, tag)].map (MetricsReader.writeLabel labelEscape)) ++ [125, 32] ++
        decimalInt n := by
    simp [labelled, MetricsReader.writeLabel, hopen, hclose, decimalInt_natCast]
  rw [← hline] at hread
  exact ExpositionReader.readLine_sample hread (readNumber_decimalInt n)

/-- A line of a device is read as its series, with its labels. -/
theorem samples_device (config : Config) {name : String}
    (hname : MetricsReader.isName (str name) = true) (device : DeviceState) (rate : ℚ) :
    Samples name (deviceSample config name device rate) (deviceSeries config device rate) :=
  ExpositionReader.readLine_sample (readSample_deviceSample config hname device rate)
    (readNumber_formatFixed3 rate)

/-! ## Families -/

/-- A family of the program's own texts. -/
def family (name help kind : String) (series : List Series) : Family where
  name := str name
  help := str help
  kind := str kind
  series := series

/-- Lines that are read as the lines of some families. -/
def Describes (lines : List Str) (families : List Family) : Prop :=
  List.Forall₂ (fun line p => ExpositionReader.readLine line = some p) lines
    (families.flatMap Family.lines)

/-- Blocks that are described can be put one after the other. -/
theorem Describes.append {a b : List Str} {as bs : List Family} (ha : Describes a as)
    (hb : Describes b bs) : Describes (a ++ b) (as ++ bs) := by
  unfold Describes
  rw [List.flatMap_append]
  exact List.rel_append ha hb

/-- A name, a help text and a kind that the format allows. -/
def introduces (name help kind : String) : Bool :=
  MetricsReader.isName (str name) && (str help).all (· ≠ 92) &&
    ExpositionReader.kinds.contains (str kind)

/-- What the two comment lines of a block have to keep to. -/
theorem introduces_iff {name help kind : String} :
    introduces name help kind = true ↔ MetricsReader.isName (str name) = true ∧
      (str help).all (· ≠ 92) = true ∧ ExpositionReader.kinds.contains (str kind) = true := by
  rw [introduces, Bool.and_eq_true, Bool.and_eq_true, and_assoc]

/-- **A metric and its samples are read as its family.** -/
theorem describes_family {name help kind : String} (h : introduces name help kind = true)
    {lines : List Str} {series : List Series} (hlines : List.Forall₂ (Samples name) lines series) :
    Describes (appendHelpType name help kind ++ lines) [family name help kind series] := by
  obtain ⟨hname, hhelp, hkind⟩ := introduces_iff.mp h
  have hhelpWord : str "# HELP " = ExpositionReader.helpWord := by decide
  have hkindWord : str "# TYPE " = ExpositionReader.kindWord := by decide
  have hfirst := ExpositionReader.readLine_help hname hhelp
  have hsecond := ExpositionReader.readLine_kind hname hkind
  unfold Describes
  rw [List.flatMap_singleton, appendHelpType, hhelpWord, hkindWord]
  simp only [List.append_assoc, List.singleton_append]
  exact .cons hfirst (.cons hsecond (List.forall₂_map_right_iff.mpr hlines))

/-- A metric after what was written before. -/
theorem Describes.metric {before lines : List Str} {families : List Family}
    (hbefore : Describes before families) {name help kind : String}
    (h : introduces name help kind = true) {series : List Series}
    (hlines : List.Forall₂ (Samples name) lines series) :
    Describes (before ++ appendHelpType name help kind ++ lines)
      (families ++ [family name help kind series]) := by
  rw [List.append_assoc]
  exact hbefore.append (describes_family h hlines)

/-- A metric with a single sample. -/
theorem Describes.single {before : List Str} {families : List Family}
    (hbefore : Describes before families) {name help kind : String}
    (h : introduces name help kind = true) {line : Str} {series : Series}
    (hline : MetricsReader.isName (str name) = true → Samples name line series) :
    Describes (before ++ appendHelpType name help kind ++ [line])
      (families ++ [family name help kind [series]]) :=
  hbefore.metric h (.cons (hline (introduces_iff.mp h).1) .nil)

/-! ## The families of the service -/

/-- The messages: all of them, then by their types. -/
def messageSeries (stats : RuntimeStats) : List Series :=
  tagged "type" (str "all") stats.syslogMessagesTotal ::
    (countersByType stats.syslogMessagesByType).map fun c => tagged "type" c.1 c.2

/-- The families that do not depend on the devices. -/
def serviceFamilies (t : Telemetry) : List Family :=
  let summary := t.state.summary t.summaryNow
  [family "openwrt_netmon_up" "Whether the netmon service is running." "gauge" [bare 1]] ++
  [family "openwrt_netmon_uptime_seconds" "Netmon service uptime in seconds." "counter"
    [bare t.uptime]] ++
  [family "openwrt_netmon_syslog_messages_total" "Syslog messages received by parsed type."
    "counter" (messageSeries t.stats)] ++
  [family "openwrt_netmon_parse_errors_total"
    "Syslog messages that could not be parsed into a known event." "counter"
    [bare t.stats.parseErrorsTotal]] ++
  [family "openwrt_netmon_devices" "Number of devices by current status." "gauge"
    [tagged "status" (str "online") summary.activeDevices,
      tagged "status" (str "idle") summary.idleDevices,
      tagged "status" (str "offline") summary.offlineDevices,
      tagged "status" (str "unknown") summary.unknownDevices]] ++
  [family "openwrt_netmon_rx_rate_bps" "Current aggregate receive rate in bits per second."
    "gauge" [bare (rounded summary.rxRateBps)]] ++
  [family "openwrt_netmon_tx_rate_bps" "Current aggregate transmit rate in bits per second."
    "gauge" [bare (rounded summary.txRateBps)]] ++
  [family "openwrt_netmon_wan_attacks_total" "WAN attack or firewall drop events observed."
    "counter" [bare t.stats.wanAttacksTotal]] ++
  [family "openwrt_netmon_wan_attacks_5m"
    "WAN attack or firewall drop events in the last five minutes." "gauge"
    [bare summary.wanAttack5m]] ++
  [family "openwrt_netmon_event_buffer_size" "Current in-memory event buffer size." "gauge"
    [bare t.state.events.size]]

/-- The families of the devices. -/
def deviceFamilies (config : Config) (devices : List DeviceState) : List Family :=
  [family "openwrt_netmon_device_rx_rate_bps"
    "Current per-device receive rate in bits per second." "gauge"
    (devices.map fun d => deviceSeries config d d.rxRateBps)] ++
  [family "openwrt_netmon_device_tx_rate_bps"
    "Current per-device transmit rate in bits per second." "gauge"
    (devices.map fun d => deviceSeries config d d.txRateBps)]

/-- All families of a scrape.  Those of the devices are a choice of the configuration. -/
def metricFamilies (config : Config) (t : Telemetry) : List Family :=
  serviceFamilies t ++
    if config.prometheusIncludeDeviceLabels then
      deviceFamilies config (t.state.devices t.devicesNow)
    else []

/-- The lines of the devices describe their families. -/
theorem describes_deviceMetrics (config : Config) (devices : List DeviceState) :
    Describes (deviceMetrics config devices) (deviceFamilies config devices) := by
  have hsamples : ∀ {name : String}, MetricsReader.isName (str name) = true →
      ∀ rate : DeviceState → ℚ, List.Forall₂ (Samples name)
        (devices.map fun d => deviceSample config name d (rate d))
        (devices.map fun d => deviceSeries config d (rate d)) := by
    intro name hname rate
    rw [List.forall₂_map_left_iff, List.forall₂_map_right_iff, List.forall₂_same]
    exact fun d _ => samples_device config hname d (rate d)
  exact (describes_family (by decide) (hsamples (by decide) DeviceState.rxRateBps)).metric
    (by decide) (hsamples (by decide) DeviceState.txRateBps)

/-- The samples of the messages, whatever the types contain. -/
theorem samples_messages (stats : RuntimeStats) :
    List.Forall₂ (Samples "openwrt_netmon_syslog_messages_total")
      ([labelled "openwrt_netmon_syslog_messages_total" "type" (str "all")
          (decimal stats.syslogMessagesTotal)] ++
        (countersByType stats.syslogMessagesByType).map fun c =>
          labelled "openwrt_netmon_syslog_messages_total" "type" (labelEscape c.1) (decimal c.2))
      (messageSeries stats) := by
  have hname : MetricsReader.isName (str "openwrt_netmon_syslog_messages_total") = true := by
    decide
  have hlabel : MetricsReader.isName (str "type") = true := by decide
  have hall : labelEscape (str "all") = str "all" := by decide
  rw [List.singleton_append]
  refine .cons ?_ ?_
  · have hfirst := samples_labelled hname hlabel (str "all") stats.syslogMessagesTotal
    rw [hall] at hfirst
    exact hfirst
  · rw [List.forall₂_map_left_iff, List.forall₂_map_right_iff, List.forall₂_same]
    exact fun c _ => samples_labelled hname hlabel c.1 c.2

/-- The line of a status is read as its series. -/
theorem samples_status (status : String) (h : labelEscape (str status) = str status) (n : Nat) :
    Samples "openwrt_netmon_devices"
      (labelled "openwrt_netmon_devices" "status" (str status) (decimal n))
      (tagged "status" (str status) n) := by
  have hsample := samples_labelled (show MetricsReader.isName (str "openwrt_netmon_devices") = true
    by decide) (show MetricsReader.isName (str "status") = true by decide) (str status) n
  rw [h] at hsample
  exact hsample

/-- **The lines of the metrics are read as their families.** -/
theorem describes_prometheusLines (config : Config) (t : Telemetry) :
    Describes (prometheusLines config t) (metricFamilies config t) := by
  have hone : Samples "openwrt_netmon_up" (sample "openwrt_netmon_up" (str "1")) (bare 1) := by
    have hcount := samples_count (show MetricsReader.isName (str "openwrt_netmon_up") = true
      by decide) 1
    rw [Nat.cast_one] at hcount
    exact hcount
  refine Describes.append ?_ ?_
  · refine Describes.single ?_ (by decide) fun hname => samples_count hname _
    refine Describes.single ?_ (by decide) fun hname => samples_count hname _
    refine Describes.single ?_ (by decide) fun hname => samples_count hname _
    refine Describes.single ?_ (by decide) fun hname => samples_rate hname _
    refine Describes.single ?_ (by decide) fun hname => samples_rate hname _
    refine Describes.metric ?_ (by decide) (.cons (samples_status "online" (by decide) _)
      (.cons (samples_status "idle" (by decide) _) (.cons (samples_status "offline" (by decide) _)
        (.cons (samples_status "unknown" (by decide) _) .nil))))
    refine Describes.single ?_ (by decide) fun hname => samples_count hname _
    rw [List.append_assoc _ [labelled _ _ _ _]]
    refine Describes.metric ?_ (by decide) (samples_messages t.stats)
    refine Describes.single ?_ (by decide) fun hname =>
      samples_bare hname (isNumber_decimalInt _) (readNumber_decimalInt _)
    exact describes_family (by decide) (.cons hone .nil)
  · split
    · exact describes_deviceMetrics config _
    · exact .nil

/-- No family comes twice. -/
theorem metricFamilies_names (config : Config) (t : Telemetry) :
    ((metricFamilies config t).map Family.name).Nodup := by
  have hnames : ([str "openwrt_netmon_up", str "openwrt_netmon_uptime_seconds",
      str "openwrt_netmon_syslog_messages_total", str "openwrt_netmon_parse_errors_total",
      str "openwrt_netmon_devices", str "openwrt_netmon_rx_rate_bps",
      str "openwrt_netmon_tx_rate_bps", str "openwrt_netmon_wan_attacks_total",
      str "openwrt_netmon_wan_attacks_5m", str "openwrt_netmon_event_buffer_size",
      str rxMetric, str txMetric]).Nodup := by
    decide
  unfold metricFamilies
  split
  · exact hnames
  · rw [List.append_nil]
    exact hnames.sublist (List.sublist_append_left _ [str rxMetric, str txMetric])

/-- The document is read to its last line. -/
theorem readDocument_metrics (config : Config) (t : Telemetry) :
    ExpositionReader.readDocument (split (renderPrometheusMetrics config t) 10) =
      some (metricFamilies config t) := by
  rw [split_renderPrometheusMetrics]
  exact ExpositionReader.readDocument_lines (describes_prometheusLines config t)
    (metricFamilies_names config t)

/-! ## Series that are there once -/

/-- The series of the messages are distinct if no type has the name that stands for all. -/
theorem messageSeries_nodup_iff {stats : RuntimeStats} :
    ((messageSeries stats).map Series.labels).Nodup ↔
      str "all" ∉ stats.syslogMessagesByType.keys := by
  have hlabels : (messageSeries stats).map Series.labels =
      (str "all" :: stats.syslogMessagesByType.keys.insertionSort (· ≤ ·)).map
        fun type => [(str "type", type)] := by
    simp [messageSeries, countersByType, tagged, Function.comp_def]
  have hsorted : (stats.syslogMessagesByType.keys.insertionSort (· ≤ ·)).Nodup := by
    rw [(List.perm_insertionSort _ _).nodup_iff]
    exact AList.keys_nodup _
  rw [hlabels, List.nodup_map_iff fun a b hab => by simpa using hab, List.nodup_cons,
    (List.perm_insertionSort _ _).mem_iff]
  exact and_iff_left hsorted

/-- Only the messages can have a series of the service twice. -/
theorem distinct_serviceFamilies {t : Telemetry} :
    ExpositionReader.Distinct (serviceFamilies t) ↔
      str "all" ∉ t.stats.syslogMessagesByType.keys := by
  have hsingle : ∀ (name help kind : String) (value : ℚ),
      ((family name help kind [bare value]).series.map Series.labels).Nodup :=
    fun _ _ _ _ => List.nodup_singleton _
  have hstatus : ([[(str "status", str "online")], [(str "status", str "idle")],
      [(str "status", str "offline")], [(str "status", str "unknown")]]).Nodup := by decide
  rw [← messageSeries_nodup_iff]
  simp only [ExpositionReader.Distinct, serviceFamilies, List.forall_mem_append,
    List.forall_mem_singleton]
  constructor
  · intro h
    obtain ⟨⟨⟨⟨⟨⟨⟨⟨-, hmessages⟩, -⟩, -⟩, -⟩, -⟩, -⟩, -⟩, -⟩ := h
    exact hmessages
  · intro h
    exact ⟨⟨⟨⟨⟨⟨⟨⟨⟨hsingle _ _ _ _, hsingle _ _ _ _⟩, h⟩, hsingle _ _ _ _⟩, hstatus⟩,
      hsingle _ _ _ _⟩, hsingle _ _ _ _⟩, hsingle _ _ _ _⟩, hsingle _ _ _ _⟩, hsingle _ _ _ _⟩

/-- Different statuses have different texts. -/
theorem status_toText_injective : Function.Injective DeviceStatus.toText := by
  intro a b h
  cases a <;> cases b <;> first | rfl | exact absurd h (by decide)

/-- The series of the devices are distinct if no two have the same label and status. -/
theorem distinct_deviceFamilies (config : Config) (devices : List DeviceState) :
    ExpositionReader.Distinct (deviceFamilies config devices) ↔
      (devices.map fun d => (deviceLabel config d, d.status)).Nodup := by
  have hlabels : ∀ rate : DeviceState → ℚ,
      ((devices.map fun d => deviceSeries config d (rate d)).map Series.labels).Nodup ↔
        (devices.map fun d => (deviceLabel config d, d.status)).Nodup := by
    intro rate
    have hpairs : (devices.map fun d => deviceSeries config d (rate d)).map Series.labels =
        (devices.map fun d => (deviceLabel config d, d.status)).map fun pair =>
          [(str "device", pair.1), (str "status", pair.2.toText)] := by
      simp [deviceSeries, Function.comp_def]
    rw [hpairs]
    refine List.nodup_map_iff fun a b hab => ?_
    simp only [List.cons.injEq, Prod.mk.injEq, true_and, and_true] at hab
    exact Prod.ext hab.1 (status_toText_injective hab.2)
  simp only [ExpositionReader.Distinct, deviceFamilies, List.forall_mem_append,
    List.forall_mem_singleton]
  exact ⟨fun h => (hlabels _).mp h.1, fun h => ⟨(hlabels _).mpr h, (hlabels _).mpr h⟩⟩

/-- **When every series is there once.** -/
theorem distinct_metricFamilies (config : Config) (t : Telemetry) :
    ExpositionReader.Distinct (metricFamilies config t) ↔
      str "all" ∉ t.stats.syslogMessagesByType.keys ∧
        (config.prometheusIncludeDeviceLabels = true →
          ((t.state.devices t.devicesNow).map fun d =>
            (deviceLabel config d, d.status)).Nodup) := by
  rw [metricFamilies, ExpositionReader.distinct_append, distinct_serviceFamilies]
  refine and_congr_right fun _ => ?_
  split
  · rename_i hlabels
    rw [distinct_deviceFamilies]
    exact ⟨fun h _ => h, fun h => h hlabels⟩
  · rename_i hlabels
    exact ⟨fun _ h => absurd h hlabels, fun _ f hf => absurd hf List.not_mem_nil⟩

/-- **The metrics as a document of the format.**  Whatever the message types and the names of
the devices contain, the reader takes the document to its last line as the families of the
service and, if configured, of the devices: counters exactly, and rates to within half a
thousandth.  Every series is there once, as the strict reader asks, exactly if no message type
has the name that stands for all of them and, where the devices are written, no two of them
have the same label and status. -/
theorem metrics_read_back (config : Config) (t : Telemetry) :
    ExpositionReader.readDocument (split (renderPrometheusMetrics config t) 10) =
        some (metricFamilies config t) ∧
      (ExpositionReader.readStrict (split (renderPrometheusMetrics config t) 10) =
          some (metricFamilies config t) ↔
        str "all" ∉ t.stats.syslogMessagesByType.keys ∧
          (config.prometheusIncludeDeviceLabels = true →
            ((t.state.devices t.devicesNow).map fun d =>
              (deviceLabel config d, d.status)).Nodup)) ∧
      ∀ rate, |rounded rate - rate| ≤ 1 / 2000 := by
  refine ⟨readDocument_metrics config t, ?_, rounded_error⟩
  rw [ExpositionReader.readStrict_eq_some_iff (readDocument_metrics config t)]
  exact distinct_metricFamilies config t

/-! ## What a scrape shows of a run -/

/-- A series with one label is known by the value of the label and its own. -/
theorem tagged_inj {label : String} {a b : Str} {m n : ℚ} :
    tagged label a m = tagged label b n ↔ a = b ∧ m = n := by
  simp [tagged]

/-- The messages are counted once in total and once for each type. -/
theorem mem_messageSeries {stats : RuntimeStats} {type : Str} {n : ℚ} :
    tagged "type" type n ∈ messageSeries stats ↔
      type = str "all" ∧ n = stats.syslogMessagesTotal ∨
        type ∈ stats.syslogMessagesByType.keys ∧ n = stats.syslogMessagesByType.getD type 0 := by
  rw [messageSeries, List.mem_cons, tagged_inj]
  refine or_congr_right ?_
  simp only [countersByType, List.map_map, List.mem_map, Function.comp_apply, tagged_inj,
    (List.perm_insertionSort _ _).mem_iff]
  constructor
  · intro h
    obtain ⟨key, hkey, rfl, rfl⟩ := h
    exact ⟨hkey, rfl⟩
  · intro h
    exact ⟨type, h.1, rfl, h.2.symm⟩

/-- Only what was counted is in a tally. -/
theorem mem_keys_tally {items : List Str} {m : StrMap Nat} {type : Str} :
    type ∈ (m.tally items).keys ↔ type ∈ m.keys ∨ type ∈ items := by
  induction items generalizing m with
  | nil => simp [AList.tally]
  | cons a items ih =>
      have hstep : m.tally (a :: items) = (m.insert a (m.getD a 0 + 1)).tally items := rfl
      rw [hstep, ih, ← AList.mem_keys, AList.mem_insert, AList.mem_keys, List.mem_cons]
      tauto

/-- A line is never counted under the name that stands for all lines. -/
theorem App.lineType_ne_all (line : Str) : App.lineType line ≠ str "all" := by
  have hnames : ∀ type ∈ str "raw" :: lineTypes, type ≠ str "all" := by decide
  refine hnames _ ?_
  unfold App.lineType App.lineResult
  cases hparse : parse line with
  | none => exact List.mem_cons_self
  | some result => exact List.mem_cons_of_mem _ (parse_type hparse)

/-- **A scrape counts the lines.**  Whatever lines a process handles after its counters were set
to zero, with cleanup cycles in between, a scrape at any time after it is read as families in
which the messages are counted exactly: one series for all lines and one for every type that
occurred, with the number of its lines.  No series of the service is written twice. -/
theorem scrape_of_run (config : Config) (state : StateStore) (db : Database)
    (ops : List App.AppOp) (uptime : Int) (summaryNow devicesNow totalsNow : TimePoint) :
    let app := Runs.run App.step { config := config, state := state, db := db } ops
    let t : Telemetry :=
      { state := app.state, stats := app.stats, db := app.db, uptime := uptime
        summaryNow := summaryNow, devicesNow := devicesNow, totalsNow := totalsNow }
    let types := (App.handledLines ops).map App.lineType
    ∃ families messages,
      ExpositionReader.readDocument (split (renderPrometheusMetrics config t) 10) =
          some families ∧
        family "openwrt_netmon_syslog_messages_total" "Syslog messages received by parsed type."
          "counter" messages ∈ families ∧
        (∀ type n, tagged "type" type n ∈ messages ↔
          type = str "all" ∧ n = types.length ∨ type ∈ types ∧ n = types.count type) ∧
        ∀ f ∈ families, f.name ≠ str rxMetric → f.name ≠ str txMetric →
          (f.series.map Series.labels).Nodup := by
  intro app t types
  have hstats : t.stats = ({} : RuntimeStats).afterLines types := App.run_stats _ ops
  have hkeys : ∀ type, type ∈ t.stats.syslogMessagesByType.keys ↔ type ∈ types := by
    intro type
    rw [hstats, RuntimeStats.afterLines, mem_keys_tally]
    simp
  have htotal : t.stats.syslogMessagesTotal = types.length := by
    rw [hstats]
    exact Nat.zero_add _
  have hcount : ∀ type, t.stats.syslogMessagesByType.getD type 0 = types.count type := by
    intro type
    rw [hstats, RuntimeStats.afterLines, AList.getD_tally]
    exact Nat.zero_add _
  have hall : str "all" ∉ t.stats.syslogMessagesByType.keys := by
    rw [hkeys]
    intro hmem
    obtain ⟨line, -, hline⟩ := List.mem_map.mp hmem
    exact App.lineType_ne_all line hline
  refine ⟨metricFamilies config t, messageSeries t.stats, ?_, ?_, fun type n => ?_,
    fun f hf hrx htx => ?_⟩
  · exact readDocument_metrics config t
  · refine List.mem_append_left _ ?_
    simp [serviceFamilies]
  · rw [mem_messageSeries, hkeys, htotal, hcount]
  · rcases List.mem_append.mp hf with hservice | hdevice
    · exact distinct_serviceFamilies.mpr hall f hservice
    · split at hdevice
      · rcases List.mem_append.mp hdevice with hmem | hmem
        · exact absurd (by rw [List.mem_singleton.mp hmem]; rfl) hrx
        · exact absurd (by rw [List.mem_singleton.mp hmem]; rfl) htx
      · exact absurd hdevice List.not_mem_nil

end Netmon
