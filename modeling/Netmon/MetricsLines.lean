import Netmon.MetricsReader
import Netmon.NumberText
import Netmon.Reports

/-!
# The lines of the metrics

No line that the exporter writes contains a line break, whatever the names and
addresses of the devices contain: label values are escaped and everything else is
made of fixed texts and numbers.  Cutting the document at its line breaks gives the
lines back, and the lines of a per-device metric are one sample for each device,
with the label of the device under the escapes.
-/

namespace Netmon

/-! ## Labels and numbers -/

/-- The escape of a byte is read as the byte. -/
theorem readLabelValue_labelEscapeByte (b : UInt8) (more : Str) :
    MetricsReader.readLabelValue (labelEscapeByte b ++ more) =
      (MetricsReader.readLabelValue more).map fun read => (b :: read.1, read.2) := by
  unfold labelEscapeByte
  by_cases hslash : b = 92
  · rw [if_pos hslash, hslash]
    exact MetricsReader.readLabelValue_escape (by decide) more
  rw [if_neg hslash]
  by_cases hquote : b = 34
  · rw [if_pos hquote, hquote]
    exact MetricsReader.readLabelValue_escape (by decide) more
  rw [if_neg hquote]
  by_cases hbreak : b = 10
  · rw [if_pos hbreak, hbreak]
    exact MetricsReader.readLabelValue_escape (by decide) more
  rw [if_neg hbreak]
  exact MetricsReader.readLabelValue_plain hquote hslash hbreak more

/-- **A label is read back** up to its closing quote. -/
theorem readLabelValue_labelEscape (value more : Str) :
    MetricsReader.readLabelValue (labelEscape value ++ 34 :: more) = some (value, more) :=
  MetricsReader.readLabelValue_flatMap readLabelValue_labelEscapeByte value more

/-- An escaped label stays on its line. -/
theorem break_notMem_labelEscape (value : Str) : 10 ∉ labelEscape value := by
  intro h
  obtain ⟨b, -, hb⟩ := List.mem_flatMap.mp h
  unfold labelEscapeByte at hb
  split at hb
  · exact absurd hb (by decide)
  · split at hb
    · exact absurd hb (by decide)
    · split at hb
      · exact absurd hb (by decide)
      · rename_i hbreak
        exact hbreak (List.mem_singleton.mp hb).symm

/-- A number stays on its line. -/
theorem break_notMem_decimal (n : Nat) : 10 ∉ decimal n := by
  intro h
  exact absurd (isDigit_of_mem_decimal h) (by decide)

/-- An integer stays on its line. -/
theorem break_notMem_decimalInt (n : Int) : 10 ∉ decimalInt n := by
  unfold decimalInt
  split
  · intro h
    rcases List.mem_append.mp h with hsign | hdigits
    · exact absurd hsign (by decide)
    · exact break_notMem_decimal _ hdigits
  · exact break_notMem_decimal _

/-- A padded number is not empty. -/
theorem zeroPadded_ne_nil (width n : Nat) : zeroPadded width n ≠ [] := by
  intro h
  exact decimal_ne_nil n (List.append_eq_nil_iff.mp h).2

/-- The bytes of a rate are digits, a point and a sign. -/
theorem break_notMem_formatFixed3 (x : ℚ) : 10 ∉ formatFixed3 x := by
  unfold formatFixed3
  simp only [List.mem_append, not_or]
  refine ⟨⟨⟨?_, break_notMem_decimal _⟩, by decide⟩, ?_⟩
  · split
    · decide
    · exact List.not_mem_nil
  · intro h
    exact absurd (zeroPadded_digits _ _ _ h) (by decide)

/-- A rate is written as a number. -/
theorem isNumber_formatFixed3 (x : ℚ) : MetricsReader.isNumber (formatFixed3 x) = true := by
  have hnumber := MetricsReader.isNumber_of_isUnsigned (MetricsReader.isUnsigned_fraction
    (decimal_ne_nil (roundHalfEven (|x| * 1000) / 1000)) (fun b hb => isDigit_of_mem_decimal hb)
    (zeroPadded_ne_nil 3 (roundHalfEven (|x| * 1000) % 1000))
    (zeroPadded_digits _ _))
  have hpoint : str "." = [46] := by decide
  have hminus : str "-" = [45] := by decide
  unfold formatFixed3
  by_cases hneg : x < 0
  · simpa [hneg, hpoint, hminus] using hnumber.2
  · simpa [hneg, hpoint] using hnumber.1

/-! ## Lines -/

/-- The lines of a document without line breaks in them are its parts. -/
theorem split_lines {lines : List Str} (h : ∀ line ∈ lines, 10 ∉ line) :
    split (lines.flatMap (· ++ [10])) 10 = lines ++ [[]] := by
  induction lines with
  | nil => rfl
  | cons line lines ih =>
      have hrest := ih fun l hl => h l (List.mem_cons_of_mem _ hl)
      rw [List.flatMap_cons, List.append_assoc, List.singleton_append, split_append_delimiter,
        split_of_notMem (h line List.mem_cons_self), hrest]
      rfl

/-- The sample of a device is read back. -/
theorem readSample_deviceSample (config : Config) {name : String}
    (hname : MetricsReader.isName (str name) = true) (device : DeviceState) (rate : ℚ) :
    MetricsReader.readSample (deviceSample config name device rate) =
      some ⟨str name, [(str "device", deviceLabel config device),
        (str "status", device.status.toText)], formatFixed3 rate⟩ := by
  have hnames : ∀ label ∈ [(str "device", deviceLabel config device),
      (str "status", device.status.toText)], MetricsReader.isName label.1 = true := by
    intro label hlabel
    rcases List.mem_pair.mp hlabel with rfl | rfl
    · show MetricsReader.isName (str "device") = true
      decide
    · show MetricsReader.isName (str "status") = true
      decide
  have hread := MetricsReader.readSample_write readLabelValue_labelEscape hname _ hnames
    (isNumber_formatFixed3 rate)
  rw [← hread]
  congr 1
  have h1 : str "\x7bdevice=\"" = [123] ++ str "device" ++ [61, 34] := by decide
  have h2 : str "\",status=\"" = [34] ++ [44] ++ str "status" ++ [61, 34] := by decide
  have h3 : str "\"\x7d " = [34] ++ [125, 32] := by decide
  simp [deviceSample, h1, h2, h3, MetricsReader.writeLabel, List.intercalate_cons_cons]

/-! ## The document -/

/-- The name of the received rate of a device. -/
def rxMetric : String := "openwrt_netmon_device_rx_rate_bps"

/-- The name of the sent rate of a device. -/
def txMetric : String := "openwrt_netmon_device_tx_rate_bps"

/-- Lines without breaks that belong to neither of the per-device metrics. -/
def PlainLines (lines : List Str) : Prop :=
  ∀ line ∈ lines, 10 ∉ line ∧ MetricsReader.metricName line ≠ str rxMetric ∧
    MetricsReader.metricName line ≠ str txMetric

/-- Plain lines can be put one after the other. -/
theorem PlainLines.append {a b : List Str} (ha : PlainLines a) (hb : PlainLines b) :
    PlainLines (a ++ b) := by
  intro line hline
  rcases List.mem_append.mp hline with h | h
  · exact ha line h
  · exact hb line h

theorem PlainLines.cons {line : Str} {lines : List Str} (hline : PlainLines [line])
    (hlines : PlainLines lines) : PlainLines (line :: lines) :=
  hline.append hlines

/-- The name of another metric. -/
def otherMetric (name : String) : Bool :=
  MetricsReader.isName (str name) && str name ≠ str rxMetric && str name ≠ str txMetric

/-- A metric name stays on its line. -/
theorem break_notMem_name {name : Str} (h : MetricsReader.isName name = true) : 10 ∉ name := by
  intro hbreak
  rw [MetricsReader.isName, Bool.and_eq_true, Bool.and_eq_true, List.all_eq_true] at h
  exact absurd (h.1.1 10 hbreak) (by decide)

/-- A line of another metric, with anything but a break after its name. -/
theorem plainLines_named {line rest : Str} {name : String} {b : UInt8}
    (hline : line = str name ++ b :: rest) (h : otherMetric name = true)
    (hb : MetricsReader.isNameByte b = false) (hbreak : 10 ∉ b :: rest) : PlainLines [line] := by
  rw [otherMetric, Bool.and_eq_true, Bool.and_eq_true, decide_eq_true_iff, decide_eq_true_iff] at h
  intro l hl
  rw [List.mem_singleton.mp hl, hline, MetricsReader.metricName,
    (MetricsReader.name_append h.1.1 hb rest).1]
  refine ⟨fun hmem => ?_, h.1.2, h.2⟩
  rcases List.mem_append.mp hmem with hname | hrest
  · exact break_notMem_name h.1.1 hname
  · exact hbreak hrest

/-- A sample of another metric is a plain line. -/
theorem plainLines_sample {name : String} (h : otherMetric name = true) {value : Str}
    (hvalue : 10 ∉ value) : PlainLines [sample name value] := by
  have hline : sample name value = str name ++ 32 :: value := by simp [sample]
  exact plainLines_named hline h (by decide) (by simp [hvalue])

/-- A sample of another metric with a label is a plain line. -/
theorem plainLines_labelled {name label : String} (h : otherMetric name = true)
    (hlabel : MetricsReader.isName (str label) = true) {labelValue value : Str}
    (hlabelValue : 10 ∉ labelValue) (hvalue : 10 ∉ value) :
    PlainLines [labelled name label labelValue value] := by
  have hopen : 10 ∉ str "=\"" := by decide
  have hclose : 10 ∉ str "\"\x7d " := by decide
  have hline : labelled name label labelValue value = str name ++ 123 ::
      (str label ++ str "=\"" ++ labelValue ++ str "\"\x7d " ++ value) := by
    simp [labelled]
  refine plainLines_named hline h (by decide) ?_
  simp [break_notMem_name hlabel, hlabelValue, hvalue, hopen, hclose]

/-- The lines that introduce a metric belong to none. -/
theorem plainLines_help {name help type : String}
    (h : (str name ++ str help ++ str type).all (· ≠ 10) = true) :
    PlainLines (appendHelpType name help type) := by
  have hnone : ∀ rest : Str, MetricsReader.metricName (35 :: rest) = [] := by
    intro rest
    exact List.takeWhile_cons_of_neg (by decide)
  have hrx : ([] : Str) ≠ str rxMetric := by decide
  have htx : ([] : Str) ≠ str txMetric := by decide
  have hbytes : 10 ∉ str name ∧ 10 ∉ str help ∧ 10 ∉ str type := by
    rw [List.all_eq_true] at h
    refine ⟨fun hmem => ?_, fun hmem => ?_, fun hmem => ?_⟩
    · exact absurd (h 10 (by simp [hmem])) (by decide)
    · exact absurd (h 10 (by simp [hmem])) (by decide)
    · exact absurd (h 10 (by simp [hmem])) (by decide)
  have hhelp : str "# HELP " = [35, 32, 72, 69, 76, 80, 32] := by decide
  have htype : str "# TYPE " = [35, 32, 84, 89, 80, 69, 32] := by decide
  intro line hline
  rcases List.mem_pair.mp hline with rfl | rfl
  · rw [hhelp]
    simp only [List.cons_append, List.nil_append]
    rw [hnone]
    exact ⟨by simp [hbytes], hrx, htx⟩
  · rw [htype]
    simp only [List.cons_append, List.nil_append]
    rw [hnone]
    exact ⟨by simp [hbytes], hrx, htx⟩

/-- A metric and its samples after what was written before. -/
theorem PlainLines.metric {before samples : List Str} {name help type : String}
    (hbefore : PlainLines before)
    (h : (str name ++ str help ++ str type).all (· ≠ 10) = true) (hsamples : PlainLines samples) :
    PlainLines (before ++ appendHelpType name help type ++ samples) :=
  (hbefore.append (plainLines_help h)).append hsamples

/-- A metric with a single sample. -/
theorem PlainLines.sampled {before : List Str} {name help type : String} {value : Str}
    (hbefore : PlainLines before)
    (h : (str name ++ str help ++ str type).all (· ≠ 10) = true) (hname : otherMetric name = true)
    (hvalue : 10 ∉ value) :
    PlainLines (before ++ appendHelpType name help type ++ [sample name value]) :=
  hbefore.metric h (plainLines_sample hname hvalue)

/-- **The metrics of the service** are plain lines, and those of the devices follow
them. -/
theorem prometheusLines_parts (config : Config) (t : Telemetry) :
    ∃ service, PlainLines service ∧ prometheusLines config t = service ++
      if config.prometheusIncludeDeviceLabels then
        deviceMetrics config (t.state.devices t.devicesNow)
      else [] := by
  have htypes : PlainLines ((countersByType t.stats.syslogMessagesByType).map fun c =>
      labelled "openwrt_netmon_syslog_messages_total" "type" (labelEscape c.1)
        (decimal c.2)) := by
    intro line hline
    obtain ⟨c, -, rfl⟩ := List.mem_map.mp hline
    exact plainLines_labelled (by decide) (by decide) (break_notMem_labelEscape _)
      (break_notMem_decimal _) _ (List.mem_singleton_self _)
  have hstatus : ∀ status : String, 10 ∉ str status → ∀ count : Nat,
      PlainLines [labelled "openwrt_netmon_devices" "status" (str status) (decimal count)] :=
    fun status hbreak count =>
      plainLines_labelled (by decide) (by decide) hbreak (break_notMem_decimal count)
  refine ⟨_, ?_, rfl⟩
  refine PlainLines.sampled ?_ (by decide) (by decide) (break_notMem_decimal _)
  refine PlainLines.sampled ?_ (by decide) (by decide) (break_notMem_decimal _)
  refine PlainLines.sampled ?_ (by decide) (by decide) (break_notMem_decimal _)
  refine PlainLines.sampled ?_ (by decide) (by decide) (break_notMem_formatFixed3 _)
  refine PlainLines.sampled ?_ (by decide) (by decide) (break_notMem_formatFixed3 _)
  refine PlainLines.metric ?_ (by decide) (PlainLines.cons ?_ (PlainLines.cons ?_
    (PlainLines.cons ?_ ?_)))
  · refine PlainLines.sampled ?_ (by decide) (by decide) (break_notMem_decimal _)
    refine PlainLines.append (PlainLines.metric ?_ (by decide)
      (plainLines_labelled (by decide) (by decide) (by decide) (break_notMem_decimal _))) htypes
    refine PlainLines.sampled ?_ (by decide) (by decide) (break_notMem_decimalInt _)
    exact (plainLines_help (by decide)).append (plainLines_sample (by decide) (by decide))
  · exact hstatus "online" (by decide) _
  · exact hstatus "idle" (by decide) _
  · exact hstatus "offline" (by decide) _
  · exact hstatus "unknown" (by decide) _

/-! ## The lines of the devices -/

/-- The line of a device begins with its metric. -/
theorem metricName_deviceSample (config : Config) {name : String}
    (hname : MetricsReader.isName (str name) = true) (device : DeviceState) (rate : ℚ) :
    MetricsReader.metricName (deviceSample config name device rate) = str name := by
  have hlabel : str "\x7bdevice=\"" = 123 :: str "device=\"" := by decide
  have hline : deviceSample config name device rate = str name ++ 123 :: (str "device=\"" ++
      labelEscape (deviceLabel config device) ++ str "\",status=\"" ++
      labelEscape device.status.toText ++ str "\"\x7d " ++ formatFixed3 rate) := by
    simp [deviceSample, hlabel]
  rw [hline, MetricsReader.metricName, (MetricsReader.name_append hname (by decide) _).1]

/-- The line of a device is one line. -/
theorem break_notMem_deviceSample (config : Config) {name : String}
    (hname : MetricsReader.isName (str name) = true) (device : DeviceState) (rate : ℚ) :
    10 ∉ deviceSample config name device rate := by
  have hopen : 10 ∉ str "\x7bdevice=\"" := by decide
  have hnext : 10 ∉ str "\",status=\"" := by decide
  have hclose : 10 ∉ str "\"\x7d " := by decide
  simp [deviceSample, break_notMem_name hname, hopen, hnext, hclose, break_notMem_labelEscape,
    break_notMem_formatFixed3]

/-- Plain lines belong to no per-device metric. -/
theorem PlainLines.filter_eq_nil {lines : List Str} (h : PlainLines lines) {name : String}
    (hname : name = rxMetric ∨ name = txMetric) :
    lines.filter (fun line => MetricsReader.metricName line = str name) = [] := by
  refine List.filter_eq_nil_iff.mpr fun line hline => ?_
  rcases hname with rfl | rfl
  · simpa using (h line hline).2.1
  · simpa using (h line hline).2.2

/-- The samples of one metric belong to it or, under another name, not at all. -/
theorem filter_deviceSamples (config : Config) {own name : String}
    (hown : MetricsReader.isName (str own) = true) (devices : List DeviceState)
    (rate : DeviceState → ℚ) :
    (devices.map fun d => deviceSample config own d (rate d)).filter
        (fun line => MetricsReader.metricName line = str name) =
      if str own = str name then devices.map fun d => deviceSample config own d (rate d)
      else [] := by
  by_cases hsame : str own = str name
  · rw [if_pos hsame]
    refine List.filter_eq_self.mpr fun line hline => ?_
    obtain ⟨d, -, rfl⟩ := List.mem_map.mp hline
    rw [metricName_deviceSample config hown, decide_eq_true_iff]
    exact hsame
  · rw [if_neg hsame]
    refine List.filter_eq_nil_iff.mpr fun line hline => ?_
    obtain ⟨d, -, rfl⟩ := List.mem_map.mp hline
    rw [metricName_deviceSample config hown, decide_eq_true_iff]
    exact hsame

theorem isName_rxMetric : MetricsReader.isName (str rxMetric) = true := by decide

theorem isName_txMetric : MetricsReader.isName (str txMetric) = true := by decide

theorem rxMetric_ne_txMetric : str rxMetric ≠ str txMetric := by decide

/-- The device lines: two introductions with the samples of each metric. -/
theorem deviceMetrics_parts (config : Config) (devices : List DeviceState) :
    ∃ rxHelp txHelp, PlainLines rxHelp ∧ PlainLines txHelp ∧
      deviceMetrics config devices = rxHelp ++
        devices.map (fun d => deviceSample config rxMetric d d.rxRateBps) ++ txHelp ++
        devices.map (fun d => deviceSample config txMetric d d.txRateBps) :=
  ⟨_, _, plainLines_help (by decide), plainLines_help (by decide), rfl⟩

/-- The lines of the devices are one line each. -/
theorem break_notMem_deviceMetrics (config : Config) (devices : List DeviceState) :
    ∀ line ∈ deviceMetrics config devices, 10 ∉ line := by
  obtain ⟨rxHelp, txHelp, hrx, htx, hparts⟩ := deviceMetrics_parts config devices
  intro line hline
  rw [hparts, List.mem_append, List.mem_append, List.mem_append] at hline
  rcases hline with ((hhelp | hsample) | hhelp) | hsample
  · exact (hrx line hhelp).1
  · obtain ⟨d, -, rfl⟩ := List.mem_map.mp hsample
    exact break_notMem_deviceSample config isName_rxMetric d _
  · exact (htx line hhelp).1
  · obtain ⟨d, -, rfl⟩ := List.mem_map.mp hsample
    exact break_notMem_deviceSample config isName_txMetric d _

/-- The lines of a per-device metric are the samples of the devices. -/
theorem filter_deviceMetrics (config : Config) (devices : List DeviceState) :
    (deviceMetrics config devices).filter
        (fun line => MetricsReader.metricName line = str rxMetric) =
        devices.map (fun d => deviceSample config rxMetric d d.rxRateBps) ∧
      (deviceMetrics config devices).filter
        (fun line => MetricsReader.metricName line = str txMetric) =
        devices.map (fun d => deviceSample config txMetric d d.txRateBps) := by
  obtain ⟨rxHelp, txHelp, hrx, htx, hparts⟩ := deviceMetrics_parts config devices
  rw [hparts]
  simp only [List.filter_append]
  constructor
  · rw [hrx.filter_eq_nil (Or.inl rfl), htx.filter_eq_nil (Or.inl rfl),
      filter_deviceSamples config isName_rxMetric, filter_deviceSamples config isName_txMetric,
      if_pos rfl, if_neg rxMetric_ne_txMetric.symm, List.nil_append, List.append_nil,
      List.append_nil]
  · rw [hrx.filter_eq_nil (Or.inr rfl), htx.filter_eq_nil (Or.inr rfl),
      filter_deviceSamples config isName_rxMetric, filter_deviceSamples config isName_txMetric,
      if_neg rxMetric_ne_txMetric, if_pos rfl]
    rfl

/-- **Cutting the metrics at their line breaks gives the lines back.** -/
theorem split_renderPrometheusMetrics (config : Config) (t : Telemetry) :
    split (renderPrometheusMetrics config t) 10 = prometheusLines config t ++ [[]] := by
  obtain ⟨service, hservice, hparts⟩ := prometheusLines_parts config t
  refine split_lines fun line hline => ?_
  rw [hparts, List.mem_append] at hline
  rcases hline with hline | hline
  · exact (hservice line hline).1
  · split at hline
    · exact break_notMem_deviceMetrics config _ line hline
    · exact absurd hline List.not_mem_nil

/-- **Device data cannot break the metrics.**  Of the lines of the document, those
of each per-device metric are one well-formed sample for each device, in the order
of `devices()`, and its label decodes to the label of the device. -/
theorem device_metrics_exact (config : Config) (t : Telemetry)
    (h : config.prometheusIncludeDeviceLabels = true) :
    let lines := split (renderPrometheusMetrics config t) 10
    let samplesOf (name : String) :=
      (lines.filter fun line => MetricsReader.metricName line = str name).map
        MetricsReader.readSample
    let expected (name : String) (rate : DeviceState → ℚ) :=
      (t.state.devices t.devicesNow).map fun d =>
        some (⟨str name, [(str "device", deviceLabel config d), (str "status", d.status.toText)],
          formatFixed3 (rate d)⟩ : MetricsReader.Sample)
    samplesOf "openwrt_netmon_device_rx_rate_bps" =
        expected "openwrt_netmon_device_rx_rate_bps" DeviceState.rxRateBps ∧
      samplesOf "openwrt_netmon_device_tx_rate_bps" =
        expected "openwrt_netmon_device_tx_rate_bps" DeviceState.txRateBps := by
  intro lines samplesOf expected
  obtain ⟨service, hservice, hparts⟩ := prometheusLines_parts config t
  obtain ⟨hrx, htx⟩ := filter_deviceMetrics config (t.state.devices t.devicesNow)
  have hlines : lines = service ++ deviceMetrics config (t.state.devices t.devicesNow) ++ [[]] := by
    rw [show lines = _ from split_renderPrometheusMetrics config t, hparts, if_pos h]
  have hlast : PlainLines [[]] := by
    intro line hline
    rw [List.mem_singleton.mp hline]
    exact ⟨List.not_mem_nil, by decide, by decide⟩
  have hfilter : ∀ name, name = rxMetric ∨ name = txMetric →
      lines.filter (fun line => MetricsReader.metricName line = str name) =
        (deviceMetrics config (t.state.devices t.devicesNow)).filter
          (fun line => MetricsReader.metricName line = str name) := by
    intro name hname
    rw [hlines, List.filter_append, List.filter_append, hservice.filter_eq_nil hname,
      hlast.filter_eq_nil hname, List.nil_append, List.append_nil]
  constructor
  · refine (congrArg (List.map MetricsReader.readSample)
      ((hfilter rxMetric (Or.inl rfl)).trans hrx)).trans ?_
    rw [List.map_map]
    exact List.map_congr_left fun d _ => readSample_deviceSample config isName_rxMetric d _
  · refine (congrArg (List.map MetricsReader.readSample)
      ((hfilter txMetric (Or.inr rfl)).trans htx)).trans ?_
    rw [List.map_map]
    exact List.map_congr_left fun d _ => readSample_deviceSample config isName_txMetric d _

/-- A service that shows the MAC texts of its devices. -/
def labelsConfig : Config :=
  { prometheusIncludeDeviceLabels := true, prometheusDeviceLabelMode := str "raw_mac" }

/-- A device whose MAC text is a quote, a backslash and a line break. -/
def quotedDevice : Telemetry where
  state := (StateStore.init labelsConfig).updateDevice (seconds 10) { mac := [34, 92, 10] }
  stats := {}
  db := {}
  uptime := 0
  summaryNow := seconds 10
  devicesNow := seconds 10
  totalsNow := seconds 10

/-- A device whose MAC is a quote, a backslash and a line feed is read back as such. -/
theorem device_metrics_exact_quoted :
    ((split (renderPrometheusMetrics labelsConfig quotedDevice) 10).filter fun line =>
        MetricsReader.metricName line = str "openwrt_netmon_device_rx_rate_bps").map
          MetricsReader.readSample =
      [some ⟨str "openwrt_netmon_device_rx_rate_bps",
        [(str "device", [34, 92, 10]), (str "status", str "online")], str "0.000"⟩] :=
  (device_metrics_exact labelsConfig quotedDevice rfl).1.trans (by decide +kernel)

end Netmon
