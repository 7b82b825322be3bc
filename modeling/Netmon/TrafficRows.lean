import Netmon.CollectorLines

/-!
# The two forms of a traffic line

`netmon-traffic.sh` sends the counters of a client either as fields or, when it does
not recognise the columns, as the row of `nlbw` itself.  The service then finds the
columns by their separator, takes the first MAC among them and the numbers after it.
Both forms give the same counters: the three splitters return the columns of the row
(`Joined.splitLooseColumns_eq`), and the reading of the columns depends only on what
stands after the MAC (`NlbwRow.parseNlbwCsv_tokens`).
-/

namespace Netmon

/-! ## Rows -/

/-- The tags that are looked for before that of traffic. -/
def earlierTags : List Str := [str "WAN_ATTACK:", str "NETDEV", str "NETIFACE"]

/-- The text of a column: no separator, no quote, no white space and no tag. -/
structure Column (column : Str) : Prop where
  bytes : ∀ b ∈ column, isSpace b = false ∧ b ≠ 44 ∧ b ≠ 59 ∧ b ≠ 34 ∧ b ≠ 39
  tagFree : ∀ tag ∈ earlierTags, ¬ tag <:+: column

instance (column : Str) : Decidable (Column column) :=
  decidable_of_iff ((∀ b ∈ column, isSpace b = false ∧ b ≠ 44 ∧ b ≠ 59 ∧ b ≠ 34 ∧ b ≠ 39) ∧
    ∀ tag ∈ earlierTags, ¬ tag <:+: column)
    ⟨fun h => ⟨h.1, h.2⟩, fun h => ⟨h.bytes, h.tagFree⟩⟩

/-- A row with one client: its MAC after any columns, and five numbers after it among
columns that are not numbers. -/
structure NlbwRow where
  before : List Str
  mac : Str
  after : List Str
  conns : Str
  rxBytes : Str
  rxPkts : Str
  txBytes : Str
  txPkts : Str
  column : ∀ c ∈ before ++ mac :: after, Column c
  mac_valid : looksLikeMac mac = true
  before_plain : ∀ c ∈ before, looksLikeMac c = false ∧ isHeaderName c = false
  after_plain : ∀ c ∈ after, isHeaderName c = false
  numbers : after.filter isNumericToken = [conns, rxBytes, rxPkts, txBytes, txPkts]

namespace NlbwRow

/-- The columns in their order, with the MAC among them. -/
def columns (row : NlbwRow) : List Str := row.before ++ row.mac :: row.after

/-- The fields of the row, as the script names and orders them. -/
def pairs (row : NlbwRow) (ts : Str) : List (Str × Str) :=
  [(str "ts", ts), (str "mac", row.mac), (str "rx_bytes", row.rxBytes),
    (str "tx_bytes", row.txBytes), (str "rx_pkts", row.rxPkts), (str "tx_pkts", row.txPkts),
    (str "conns", row.conns)]

/-- The fields that are compared, as the service stores them. -/
def counters (row : NlbwRow) : List (Str × Str) :=
  [(str "mac", lower row.mac), (str "conns", row.conns), (str "rx_bytes", row.rxBytes),
    (str "rx_pkts", row.rxPkts), (str "tx_bytes", row.txBytes), (str "tx_pkts", row.txPkts)]

end NlbwRow

/-- A column as it is written between separators, with or without quotes. -/
def Written (column cell : Str) : Prop := cell = column ∨ cell = 34 :: (column ++ [34])

/-- Columns with white space between them. -/
inductive Spaced : List Str → Str → Prop
  | last (column : Str) : Spaced [column] column
  | more (column : Str) {gap : Str} {columns : List Str} {text : Str} (ne_nil : gap ≠ [])
      (blank : ∀ b ∈ gap, isSpace b = true) (rest : Spaced columns text) :
      Spaced (column :: columns) (column ++ (gap ++ text))

/-- The text of a row: commas or semicolons between columns that may be quoted, or
white space. -/
inductive Joined (columns : List Str) : Str → Prop
  | separated (separator : UInt8) (cells : List Str) (known : separator = 44 ∨ separator = 59)
      (written : List.Forall₂ Written columns cells) :
      Joined columns ([separator].intercalate cells)
  | spaced {text : Str} (spaced : Spaced columns text) : Joined columns text

/-! ## The quoted splitter -/

/-- Outside quotes a column without separators and quotes is taken over. -/
theorem splitSeparatedLoop_plain {separator : UInt8} {column : Str}
    (h : ∀ b ∈ column, b ≠ separator ∧ b ≠ 34 ∧ b ≠ 39) (current rest : Str) :
    splitSeparatedLoop separator (column ++ rest) current none =
      splitSeparatedLoop separator rest (current ++ column) none := by
  induction column generalizing current with
  | nil => simp
  | cons b column ih =>
      obtain ⟨hseparator, hdouble, hsingle⟩ := h b List.mem_cons_self
      have hquote : ¬ (b = 34 || b = 39) = true := by simp [hdouble, hsingle]
      rw [List.cons_append, splitSeparatedLoop, if_neg hquote, if_neg hseparator,
        ih fun c hc => h c (List.mem_cons_of_mem _ hc)]
      simp

/-- Inside quotes everything is taken over up to the closing quote. -/
theorem splitSeparatedLoop_quoted {separator : UInt8} {column : Str} (h : 34 ∉ column)
    (current rest : Str) :
    splitSeparatedLoop separator (column ++ 34 :: rest) current (some 34) =
      splitSeparatedLoop separator rest (current ++ column) none := by
  induction column generalizing current with
  | nil => simp [splitSeparatedLoop]
  | cons b column ih =>
      obtain ⟨hb, hcolumn⟩ := not_or.mp (mt List.mem_cons.mpr h)
      rw [List.cons_append, splitSeparatedLoop, if_neg (Ne.symm hb), ih hcolumn]
      simp

/-- **A cell adds its column**, whether it is quoted or not. -/
theorem splitSeparatedLoop_cell {separator : UInt8} {column cell : Str}
    (h : ∀ b ∈ column, b ≠ separator ∧ b ≠ 34 ∧ b ≠ 39) (hcell : Written column cell)
    (current rest : Str) :
    splitSeparatedLoop separator (cell ++ rest) current none =
      splitSeparatedLoop separator rest (current ++ column) none := by
  rcases hcell with rfl | rfl
  · exact splitSeparatedLoop_plain h current rest
  · have hquote : 34 ∉ column := fun hb => (h 34 hb).2.1 rfl
    rw [List.cons_append, List.append_assoc, List.singleton_append, splitSeparatedLoop,
      if_pos (by simp), splitSeparatedLoop_quoted hquote]

/-- A column has no white space at its ends. -/
theorem Column.trim_eq {column : Str} (h : Column column) : trim column = column :=
  trim_eq_self (fun b hb => (h.bytes b (List.mem_of_mem_head? hb)).1)
    (fun b hb => (h.bytes b (List.mem_of_mem_getLast? hb)).1)

/-- A column has no quotes around it. -/
theorem Column.stripQuotes_eq {column : Str} (h : Column column) : stripQuotes column = column := by
  have hhead : ∀ b, column.head? = some b → b ≠ 34 ∧ b ≠ 39 := fun b hb =>
    (h.bytes b (List.mem_of_mem_head? hb)).2.2.2
  have hdouble : column.head? ≠ some 34 := fun hb => (hhead 34 hb).1 rfl
  have hsingle : column.head? ≠ some 39 := fun hb => (hhead 39 hb).2 rfl
  unfold stripQuotes
  simp [h.trim_eq, hdouble, hsingle]

/-- **The quoted splitter returns the columns.** -/
theorem splitSeparated_intercalate {separator : UInt8}
    (hseparator : separator = 44 ∨ separator = 59) {columns cells : List Str} (hne : columns ≠ [])
    (hcolumns : ∀ c ∈ columns, Column c)
    (hcells : List.Forall₂ Written columns cells) :
    splitSeparated ([separator].intercalate cells) separator = columns := by
  have hbytes : ∀ c ∈ columns, ∀ b ∈ c, b ≠ separator ∧ b ≠ 34 ∧ b ≠ 39 := by
    intro c hc b hb
    have hb' := ((hcolumns c hc).bytes b hb).2
    rcases hseparator with rfl | rfl
    · exact ⟨hb'.1, hb'.2.2⟩
    · exact ⟨hb'.2.1, hb'.2.2⟩
  have hquote : ¬ (separator = 34 || separator = 39) = true := by
    rcases hseparator with rfl | rfl <;> decide
  unfold splitSeparated
  induction hcells with
  | nil => exact absurd rfl hne
  | @cons column cell columns cells hcell hrest ih =>
      have hcolumn := hcolumns column List.mem_cons_self
      have hown := hbytes column List.mem_cons_self
      cases hrest with
      | nil =>
          have hend := splitSeparatedLoop_cell hown hcell [] []
          rw [List.append_nil, List.nil_append] at hend
          rw [List.intercalate_singleton, hend, splitSeparatedLoop, hcolumn.trim_eq,
            hcolumn.stripQuotes_eq]
      | cons hnext hmore =>
          rw [List.intercalate_cons_cons, List.append_assoc, splitSeparatedLoop_cell hown hcell,
            List.nil_append, List.singleton_append, splitSeparatedLoop, if_neg hquote, if_pos rfl,
            ih (by simp) (fun c hc => hcolumns c (List.mem_cons_of_mem _ hc))
              (fun c hc => hbytes c (List.mem_cons_of_mem _ hc)),
            hcolumn.trim_eq, hcolumn.stripQuotes_eq]

/-! ## The splitter at white space -/

/-- White space in front makes no word. -/
theorem words_of_space {b : UInt8} (hb : isSpace b = true) (rest : Str) :
    words (b :: rest) = words rest := by
  rw [words.eq_def]
  simp [hb]

/-- White space in front makes no word, however much of it there is. -/
theorem words_blank_append {gap : Str} (hgap : ∀ b ∈ gap, isSpace b = true) (rest : Str) :
    words (gap ++ rest) = words rest := by
  induction gap with
  | nil => rfl
  | cons b gap ih =>
      rw [List.cons_append, words_of_space (hgap b List.mem_cons_self)]
      exact ih fun c hc => hgap c (List.mem_cons_of_mem _ hc)

/-- A word up to the next space. -/
theorem words_append {word : Str} (hne : word ≠ []) (hword : ∀ b ∈ word, isSpace b = false)
    (rest : Str) (hrest : ∀ b ∈ rest.head?, isSpace b = true) :
    words (word ++ rest) = word :: words rest := by
  induction word with
  | nil => exact absurd rfl hne
  | cons b word ih =>
      have hb := hword b List.mem_cons_self
      cases word with
      | nil =>
          cases rest with
          | nil => simp [words, hb]
          | cons c rest => simp [words, hb, hrest c rfl]
      | cons c word =>
          have hc := hword c (by simp)
          have hstep := ih (by simp) fun d hd => hword d (List.mem_cons_of_mem _ hd)
          rw [List.cons_append] at hstep ⊢
          rw [List.cons_append, words.eq_def]
          simp only [hb, hc, Bool.false_eq_true, if_false]
          rw [← List.cons_append, List.cons_append, hstep]

/-- Spaces at the end add no word. -/
theorem words_append_blank {gap : Str} (hgap : ∀ b ∈ gap, isSpace b = true) (text : Str) :
    words (text ++ gap) = words text := by
  have hnone : words gap = [] := by simpa [words] using words_blank_append hgap []
  induction text with
  | nil => exact hnone
  | cons b text ih =>
      by_cases hb : isSpace b = true
      · rw [List.cons_append, words_of_space hb, words_of_space hb, ih]
      · have hb' : isSpace b = false := Bool.eq_false_iff.mpr hb
        cases text with
        | nil =>
            have hword := words_append (List.cons_ne_nil b []) (by simpa using hb') gap
              fun c hc => hgap c (List.mem_of_mem_head? hc)
            rw [hword, hnone]
            simp [words, hb']
        | cons c text =>
            rw [List.cons_append, List.cons_append, words.eq_def,
              words.eq_def (b :: c :: text)]
            rw [List.cons_append] at ih
            simp only [hb', ih]

/-- **Columns with white space between them are its words**, but for empty ones. -/
theorem Spaced.words_eq {columns : List Str} {text : Str} (h : Spaced columns text)
    (hcolumns : ∀ c ∈ columns, ∀ b ∈ c, isSpace b = false) :
    words text = columns.filter (· ≠ []) := by
  induction h with
  | last column =>
      by_cases hne : column = []
      · simp [hne, words]
      · have hword := words_append hne (hcolumns column List.mem_cons_self) [] (by simp)
        rw [List.append_nil] at hword
        simp [hword, words, hne]
  | @more column gap columns text ne_nil blank rest ih =>
      have hrest := ih fun c hc => hcolumns c (List.mem_cons_of_mem _ hc)
      by_cases hne : column = []
      · rw [hne, List.nil_append, words_blank_append blank, hrest]
        simp
      · have hhead : ∀ b ∈ (gap ++ text).head?, isSpace b = true := by
          intro b hb
          rw [List.head?_append_of_ne_nil _ ne_nil] at hb
          exact blank b (List.mem_of_mem_head? hb)
        rw [words_append hne (hcolumns column List.mem_cons_self) _ hhead,
          words_blank_append blank, hrest]
        simp [hne]

/-- Trimming does not change the words. -/
theorem words_trim (text : Str) : words (trim text) = words text := by
  have hfront : words (text.dropWhile isSpace) = words text := by
    have hgap : ∀ b ∈ text.takeWhile isSpace, isSpace b = true := fun b hb =>
      List.mem_takeWhile_imp hb
    have hwords := words_blank_append hgap (text.dropWhile isSpace)
    rw [List.takeWhile_append_dropWhile] at hwords
    exact hwords.symm
  have hback : ∀ w : Str, words (w.rdropWhile isSpace) = words w := by
    intro w
    have hgap : ∀ b ∈ w.rtakeWhile isSpace, isSpace b = true := fun b hb =>
      List.mem_rtakeWhile_imp hb
    have hwords := words_append_blank hgap (w.rdropWhile isSpace)
    rw [List.rdropWhile_append_rtakeWhile] at hwords
    exact hwords.symm
  rw [trim, hback, hfront]

/-! ## The columns of a row -/

/-- Every cell is a column as it is written. -/
theorem exists_of_mem_cells {columns cells : List Str} (h : List.Forall₂ Written columns cells)
    {cell : Str} (hcell : cell ∈ cells) : ∃ column ∈ columns, Written column cell := by
  induction h with
  | nil => exact absurd hcell List.not_mem_nil
  | @cons column first columns cells hfirst _ ih =>
      rcases List.mem_cons.mp hcell with rfl | hrest
      · exact ⟨column, List.mem_cons_self, hfirst⟩
      · obtain ⟨other, hother, hwritten⟩ := ih hrest
        exact ⟨other, List.mem_cons_of_mem _ hother, hwritten⟩

/-- The bytes of a separated row. -/
theorem mem_separated {separator b : UInt8} {columns cells : List Str}
    (h : List.Forall₂ Written columns cells) (hb : b ∈ [separator].intercalate cells) :
    b = separator ∨ b = 34 ∨ ∃ column ∈ columns, b ∈ column := by
  by_cases hseparator : b = separator
  · exact Or.inl hseparator
  · have hnot : separator ∉ [b] := by simpa using Ne.symm hseparator
    rw [← List.singleton_infix_iff, Substrings.infix_intercalate hnot (by simp)] at hb
    obtain ⟨cell, hcell, hin⟩ := hb
    obtain ⟨column, hcolumn, hwritten⟩ := exists_of_mem_cells h hcell
    rw [List.singleton_infix_iff] at hin
    rcases hwritten with rfl | rfl
    · exact Or.inr (Or.inr ⟨cell, hcolumn, hin⟩)
    · rcases List.mem_cons.mp hin with hquote | hrest
      · exact Or.inr (Or.inl hquote)
      · rcases List.mem_append.mp hrest with hown | hquote
        · exact Or.inr (Or.inr ⟨column, hcolumn, hown⟩)
        · exact Or.inr (Or.inl (List.mem_singleton.mp hquote))

/-- A spaced row consists of white space and its columns. -/
theorem mem_spaced {columns : List Str} {text : Str} (h : Spaced columns text) {b : UInt8}
    (hb : b ∈ text) : isSpace b = true ∨ ∃ column ∈ columns, b ∈ column := by
  induction h with
  | last column => exact Or.inr ⟨column, List.mem_cons_self, hb⟩
  | @more column gap columns text _ blank _ ih =>
      rcases List.mem_append.mp hb with hown | hrest
      · exact Or.inr ⟨column, List.mem_cons_self, hown⟩
      · rcases List.mem_append.mp hrest with hgap | htext
        · exact Or.inl (blank b hgap)
        · rcases ih htext with hspace | ⟨other, hother, hin⟩
          · exact Or.inl hspace
          · exact Or.inr ⟨other, List.mem_cons_of_mem _ hother, hin⟩

/-- A separated row of two columns or more holds its separator. -/
theorem separator_mem (separator : UInt8) {columns cells : List Str}
    (h : List.Forall₂ Written columns cells) (hlength : 2 ≤ columns.length) :
    separator ∈ [separator].intercalate cells := by
  have hcells : 2 ≤ cells.length := h.length_eq ▸ hlength
  match cells, hcells with
  | first :: second :: cells, _ => simp [List.intercalate_cons_cons]

/-- **Each splitter returns the columns of the row**, at white space without the empty
ones. -/
theorem Joined.splitLooseColumns_eq {columns : List Str} {text : Str} (h : Joined columns text)
    (hcolumns : ∀ c ∈ columns, Column c) (hlength : 2 ≤ columns.length) :
    splitLooseColumns (trim text) = columns ∨
      splitLooseColumns (trim text) = columns.filter (· ≠ []) := by
  have hne : columns ≠ [] := by
    intro hnil
    simp [hnil] at hlength
  have hspaces : ∀ c ∈ columns, ∀ b ∈ c, isSpace b = false := fun c hc b hb =>
    ((hcolumns c hc).bytes b hb).1
  cases h with
  | separated separator cells known written =>
      refine Or.inl ?_
      have hsolid : ∀ b ∈ [separator].intercalate cells, isSpace b = false := by
        intro b hb
        rcases mem_separated written hb with rfl | rfl | ⟨column, hcolumn, hin⟩
        · rcases known with rfl | rfl <;> decide
        · decide
        · exact hspaces column hcolumn b hin
      have htrim : trim ([separator].intercalate cells) = [separator].intercalate cells :=
        trim_eq_self (fun b hb => hsolid b (List.mem_of_mem_head? hb))
          (fun b hb => hsolid b (List.mem_of_mem_getLast? hb))
      have hsplit := splitSeparated_intercalate known hne hcolumns written
      have hmem := separator_mem separator written hlength
      unfold splitLooseColumns
      simp only [htrim]
      rcases known with rfl | rfl
      · rw [if_pos hmem, hsplit]
      · have hcomma : 44 ∉ [59].intercalate cells := by
          intro hb
          rcases mem_separated written hb with heq | heq | ⟨column, hcolumn, hin⟩
          · exact absurd heq (by decide)
          · exact absurd heq (by decide)
          · exact ((hcolumns column hcolumn).bytes 44 hin).2.1 rfl
        rw [if_neg hcomma, if_pos hmem, hsplit]
  | spaced spaced =>
      refine Or.inr ?_
      have hnone : ∀ b, isSpace b = false → (∀ c ∈ columns, b ∉ c) → b ∉ trim (trim text) := by
        intro b hb hin hmem
        rcases mem_spaced spaced (trim_subset _ (trim_subset _ hmem)) with hspace | ⟨c, hc, hbc⟩
        · exact absurd (hb.symm.trans hspace) (by simp)
        · exact hin c hc hbc
      have hcomma : 44 ∉ trim (trim text) :=
        hnone 44 (by decide) fun c hc hb => ((hcolumns c hc).bytes 44 hb).2.1 rfl
      have hsemicolon : 59 ∉ trim (trim text) :=
        hnone 59 (by decide) fun c hc hb => ((hcolumns c hc).bytes 59 hb).2.2.1 rfl
      unfold splitLooseColumns
      simp only [if_neg hcomma, if_neg hsemicolon, words_trim, spaced.words_eq hspaces]
      have hmap : (columns.filter (· ≠ [])).map stripQuotes = (columns.filter (· ≠ [])).map id :=
        List.map_congr_left fun c hc => (hcolumns c (List.mem_of_mem_filter hc)).stripQuotes_eq
      rw [hmap, List.map_id]

/-! ## The counters of a row -/

/-- A MAC is not the name of a column. -/
theorem isHeaderName_of_mac {mac : Str} (h : looksLikeMac mac = true) :
    isHeaderName mac = false := by
  rw [looksLikeMac, Bool.and_eq_true] at h
  have hlength : (lower mac).length = 17 := by
    rw [lower, List.length_map]
    exact of_decide_eq_true h.1
  have hnames : ∀ name ∈ [str "rx_bytes", str "tx_bytes", str "downld.", str "upload"],
      name.length ≠ 17 := by decide +kernel
  rw [isHeaderName, decide_eq_false_iff_not]
  exact fun hmem => hnames _ hmem hlength

/-- The names of the fields that a row gives. -/
theorem NlbwRow.counters_keys (row : NlbwRow) : row.counters.map Prod.fst =
    [str "mac", str "conns", str "rx_bytes", str "rx_pkts", str "tx_bytes", str "tx_pkts"] := rfl

/-- The numbers are stored beside the MAC. -/
theorem NlbwRow.lookup_counted (row : NlbwRow) {base : StrMap Str}
    (hbase : base.lookup (str "mac") = some (lower row.mac)) :
    ∀ pair ∈ row.counters,
      (base.insertAll Prod.fst Prod.snd row.counters.tail).lookup pair.1 = some pair.2 := by
  have hnodup : (row.counters.map Prod.fst).Nodup := by
    rw [row.counters_keys]
    decide +kernel
  have hcons : row.counters = (str "mac", lower row.mac) :: row.counters.tail := rfl
  rw [hcons, List.map_cons] at hnodup
  obtain ⟨hmac, htail⟩ := List.nodup_cons.mp hnodup
  intro pair hpair
  rw [hcons] at hpair
  rcases List.mem_cons.mp hpair with rfl | hrest
  · rw [AList.lookup_insertAll_of_notMem fun other hother heq =>
      hmac (List.mem_map.mpr ⟨other, hother, heq⟩)]
    exact hbase
  · exact AList.lookup_insertAll_of_mem htail hrest

/-- **What stands after the MAC decides the counters**, wherever it stands. -/
theorem NlbwRow.parseNlbwCsv_tokens (row : NlbwRow) {payload : Str} {before after : List Str}
    (htokens : splitLooseColumns payload = before ++ row.mac :: after)
    (hbefore : ∀ c ∈ before, looksLikeMac c = false ∧ isHeaderName c = false)
    (hafter : ∀ c ∈ after, isHeaderName c = false)
    (hnumbers : after.filter isNumericToken =
      [row.conns, row.rxBytes, row.rxPkts, row.txBytes, row.txPkts]) :
    ∃ parsed, parseNlbwCsv payload = some parsed ∧
      ∀ pair ∈ row.counters, parsed.lookup pair.1 = some pair.2 := by
  have hheader : ¬ (before ++ row.mac :: after = [] ∨
      (before ++ row.mac :: after).any isHeaderName = true) := by
    simp only [List.append_eq_nil_iff, List.cons_ne_nil, and_false, false_or, List.any_eq_true,
      List.mem_append, List.mem_cons]
    rintro ⟨c, hc | rfl | hc, hname⟩
    · exact absurd ((hbefore c hc).2.symm.trans hname) (by simp)
    · exact absurd ((isHeaderName_of_mac row.mac_valid).symm.trans hname) (by simp)
    · exact absurd ((hafter c hc).symm.trans hname) (by simp)
  have hindex : (before ++ row.mac :: after).findIdx? looksLikeMac = some before.length := by
    have hnone : before.findIdx? looksLikeMac = none :=
      List.findIdx?_eq_none_iff.mpr fun c hc => (hbefore c hc).1
    rw [List.findIdx?_append, hnone, List.findIdx?_cons, row.mac_valid]
    simp
  have hmac : (before ++ row.mac :: after)[before.length]? = some row.mac := by simp
  have hdrop : (before ++ row.mac :: after).drop (before.length + 1) = after := by
    rw [← List.drop_drop, List.drop_left]
    rfl
  unfold parseNlbwCsv
  simp only [htokens, if_neg hheader, hindex, Option.some_or, hdrop, hnumbers, Option.bind_some,
    hmac]
  refine ⟨_, rfl, row.lookup_counted ?_⟩
  split
  · rw [AList.lookup_insert_if, if_neg (by decide), AList.lookup_insert]
  · rw [AList.lookup_insert]

/-- **The row gives its counters** in each of its forms. -/
theorem NlbwRow.parseNlbwCsv_joined (row : NlbwRow) {text : Str} (h : Joined row.columns text) :
    ∃ parsed, parseNlbwCsv (trim text) = some parsed ∧
      ∀ pair ∈ row.counters, parsed.lookup pair.1 = some pair.2 := by
  have hlength : 2 ≤ row.columns.length := by
    have hfilter := List.length_filter_le isNumericToken row.after
    rw [row.numbers] at hfilter
    simp only [List.length_cons, List.length_nil] at hfilter
    rw [columns, List.length_append, List.length_cons]
    omega
  rcases h.splitLooseColumns_eq row.column hlength with hall | hsome
  · exact row.parseNlbwCsv_tokens hall row.before_plain row.after_plain row.numbers
  · have hmac : row.mac ≠ [] := by
      intro hnil
      exact absurd (hnil ▸ row.mac_valid) (by decide)
    rw [columns, List.filter_append, List.filter_cons_of_pos (by simpa using hmac)] at hsome
    refine row.parseNlbwCsv_tokens hsome
      (fun c hc => row.before_plain c (List.mem_of_mem_filter hc))
      (fun c hc => row.after_plain c (List.mem_of_mem_filter hc)) ?_
    rw [List.filter_filter, ← row.numbers]
    refine List.filter_congr fun c _ => ?_
    simp only [isNumericToken]
    by_cases hc : c = [] <;> simp [hc]

/-! ## The lines -/

/-- The time of a line: a value without white space, quotes at its front and tags. -/
structure Stamp (ts : Str) : Prop where
  solid : ∀ b ∈ ts, isSpace b = false
  unquoted : ∀ b ∈ ts.head?, b ≠ 34 ∧ b ≠ 39
  tagFree : ∀ tag ∈ earlierTags, ¬ tag <:+: ts

/-- The row as it is: `NETTRAFFIC: ts=… csv=…`. -/
def rowLine (ts text : Str) : Str :=
  netmonSend "NETTRAFFIC" (str "ts=" ++ ts ++ str " csv=" ++ text)

/-- The row as fields. -/
def fieldsLine (ts : Str) (row : NlbwRow) : Str :=
  netmonSend "NETTRAFFIC" ([32].intercalate ((row.pairs ts).map pairText))

/-- What `parseNetTraffic` makes of the fields it reads. -/
def trafficFields (fields : StrMap Str) : StrMap Str :=
  match ((lowerField (str "mac") fields).lookup (str "csv")).bind parseNlbwCsv with
  | some parsed =>
      parsed.entries.foldl (fun fields e => fields.insert e.1 e.2) (lowerField (str "mac") fields)
  | none => lowerField (str "mac") fields

/-- Without a row the fields are taken as they are, with the MAC in lower case. -/
theorem trafficFields_of_none {fields : StrMap Str} (h : fields.lookup (str "csv") = none) :
    trafficFields fields = lowerField (str "mac") fields := by
  have hcsv : (lowerField (str "mac") fields).lookup (str "csv") = none := by
    rw [lookup_lowerField, if_neg (by decide), h]
  simp only [trafficFields, hcsv, Option.bind_none]

/-- What the row gives is stored over the other fields. -/
theorem lookup_trafficFields_of_some {fields parsed : StrMap Str} {row key value : Str}
    (hcsv : fields.lookup (str "csv") = some row) (hrow : parseNlbwCsv row = some parsed)
    (hkey : parsed.lookup key = some value) : (trafficFields fields).lookup key = some value := by
  have hsource : (lowerField (str "mac") fields).lookup (str "csv") = some row := by
    rw [lookup_lowerField, if_neg (by decide), hcsv]
  have hentry : (⟨key, value⟩ : Sigma fun _ : Str => Str) ∈ parsed.entries :=
    AList.mem_lookup_iff.mp hkey
  have hstored : ((lowerField (str "mac") fields).insertAll Sigma.fst Sigma.snd
      parsed.entries).lookup key = some value :=
    AList.lookup_insertAll_of_mem parsed.nodupKeys hentry
  simp only [trafficFields, hsource, Option.bind_some, hrow]
  exact hstored

/-- The tags that are looked for before `NETTRAFFIC` cannot come about by accident. -/
theorem earlierTags_plain : ∀ tag ∈ earlierTags, tag ∈ messageTags ∧ 32 ∉ tag ∧ 61 ∉ tag ∧
    34 ∉ tag ∧ 44 ∉ tag ∧ 59 ∉ tag ∧ tag ≠ [] ∧ tag.all (!isSpace ·) = true ∧
    Substrings.Clear tag (str "NETTRAFFIC") ∧ ¬ tag <:+: str "NETTRAFFIC" ++ [58] := by
  decide +kernel

/-- A traffic line is read by `parseNetTraffic` when its message holds no other tag. -/
theorem parse_nettraffic {message : Str} (htags : ∀ tag ∈ earlierTags, ¬ tag <:+: message)
    (hne : message ≠ []) (hstarts : ∀ b ∈ message.head?, isSpace b = false)
    (hends : ∀ b ∈ message.getLast?, isSpace b = false) :
    ∃ raw, parse (netmonSend "NETTRAFFIC" message) =
      some ⟨str "nettraffic", trafficFields (parseKeyValueFields message), raw⟩ := by
  have hnot : ¬ str "NETTRAFFIC" <:+: ([] : Str) := by decide +kernel
  obtain ⟨left, hleft, hstrip, hfound, htag⟩ :=
    netmonSend_stripped (by simp) hnot hne hstarts hends
  obtain rfl := List.suffix_nil.mp hleft
  rw [List.nil_append] at hstrip hfound htag
  have hnone : ∀ tag ∈ earlierTags, ¬ tag <:+: netmonSend "NETTRAFFIC" message := by
    intro tag hmem
    obtain ⟨-, hspace, -, -, -, -, hempty, -, hclear, hown⟩ := earlierTags_plain tag hmem
    rw [← List.nil_append (netmonSend "NETTRAFFIC" message), infix_netmonSend hspace hclear hown]
    intro hcases
    exact hcases.elim (fun hnil => hempty (List.eq_nil_of_infix_nil hnil)) (htags tag hmem)
  refine ⟨_, parse_eq_some hstrip ?_⟩
  simp only [lineFormats, List.findSome?_cons,
    parseWANAttack_eq_none (hnone _ (by decide +kernel)),
    parseNetDev_eq_none (hnone _ (by decide +kernel)),
    parseNetIface_eq_none (hnone _ (by decide +kernel)), parseNetTraffic, hfound, if_true, htag]
  rfl

/-- No tag runs over the separators of a row. -/
theorem Joined.text_tagFree {columns : List Str} {text : Str} (h : Joined columns text)
    (hcolumns : ∀ c ∈ columns, Column c) : ∀ tag ∈ earlierTags, ¬ tag <:+: text := by
  intro tag htag
  obtain ⟨-, -, -, hquote, hcomma, hsemicolon, hne, hsolid, -, -⟩ := earlierTags_plain tag htag
  cases h with
  | separated separator cells known written =>
      have hseparator : separator ∉ tag := by
        rcases known with rfl | rfl
        · exact hcomma
        · exact hsemicolon
      rw [Substrings.infix_intercalate hseparator hne]
      intro hpart
      obtain ⟨cell, hcell, hin⟩ := hpart
      obtain ⟨column, hcolumn, hwritten⟩ := exists_of_mem_cells written hcell
      have hfree := (hcolumns column hcolumn).tagFree tag htag
      rcases hwritten with rfl | rfl
      · exact hfree hin
      · rw [← List.nil_append (34 :: (column ++ [34])), Substrings.infix_append_cons hquote,
          Substrings.infix_append_cons hquote] at hin
        rcases hin with hnil | hown | hnil
        · exact hne (List.eq_nil_of_infix_nil hnil)
        · exact hfree hown
        · exact hne (List.eq_nil_of_infix_nil hnil)
  | spaced spaced =>
      induction spaced with
      | last column => exact (hcolumns column List.mem_cons_self).tagFree tag htag
      | @more column gap columns text ne_nil blank _ ih =>
          have hgap : ∀ b ∈ gap, b ∉ tag := by
            intro b hb hmem
            have hspace := List.all_eq_true.mp hsolid b hmem
            simp [blank b hb] at hspace
          rw [Substrings.infix_append_run hgap ne_nil]
          intro hcases
          rcases hcases with hown | hrest
          · exact (hcolumns column List.mem_cons_self).tagFree tag htag hown
          · exact ih (fun c hc => hcolumns c (List.mem_cons_of_mem _ hc)) hrest

/-- The row without white space at its end, as the stripped line has it. -/
theorem parse_rowLine_trimmed {ts text : Str} (hts : Stamp ts)
    (htext : ∀ tag ∈ earlierTags, ¬ tag <:+: text)
    (hends : ∀ b ∈ text.getLast?, isSpace b = false) :
    ∃ raw, parse (rowLine ts text) =
      some ⟨str "nettraffic", trafficFields ((∅ : StrMap Str).insertAll Prod.fst Prod.snd
        [(str "ts", ts), (str "csv", trim text)]), raw⟩ := by
  have hmessage : str "ts=" ++ ts ++ str " csv=" ++ text =
      [32].intercalate ([(str "ts", ts)].map pairText ++ [str "csv" ++ 61 :: text]) := by
    have hfirst : str "ts=" = str "ts" ++ [61] := by decide
    have hsecond : str " csv=" = 32 :: (str "csv" ++ [61]) := by decide
    simp [hfirst, hsecond, pairText, List.intercalate_cons_cons]
  have hpairs : ∀ pair ∈ [(str "ts", ts)], PlainPair pair := by
    intro pair hpair
    rw [List.mem_singleton] at hpair
    subst hpair
    exact
      { keyBytes := List.all_eq_true.mp (show (str "ts").all isKeyByte = true by decide +kernel)
        ne_csv := show str "ts" ≠ str "csv" by decide
        solid := hts.solid
        unquoted := hts.unquoted }
  have hfree : ∀ tag ∈ earlierTags, ¬ tag <:+: str "ts=" ++ ts ++ str " csv=" ++ text := by
    intro tag htag hin
    obtain ⟨-, hspace, hequals, -, -, -, hne, -⟩ := earlierTags_plain tag htag
    have hkeys : ∀ tag ∈ earlierTags, ¬ tag <:+: str "ts" ∧ ¬ tag <:+: str "csv" := by
      decide +kernel
    have hpairs : [32].intercalate ([(str "ts", ts)].map pairText ++ [str "csv" ++ 61 :: text]) =
        [32].intercalate ([(str "ts", ts), (str "csv", text)].map pairText) := rfl
    rw [hmessage, hpairs, infix_pairs_iff hspace hequals hne] at hin
    simp only [List.exists_mem_cons_iff, List.not_mem_nil, false_and, exists_false, or_false] at hin
    rcases hin with (hkey | hvalue) | (hkey | hvalue)
    · exact (hkeys tag htag).1 hkey
    · exact hts.tagFree tag htag hvalue
    · exact (hkeys tag htag).2 hkey
    · exact htext tag htag hvalue
  have hlast : ∀ b ∈ (str "ts=" ++ ts ++ str " csv=" ++ text).getLast?, isSpace b = false := by
    intro b hb
    by_cases hempty : text = []
    · rw [hempty, List.append_nil, List.getLast?_append_of_ne_nil _ (by decide)] at hb
      obtain rfl : 61 = b := Option.some.inj hb
      rfl
    · rw [List.getLast?_append_of_ne_nil _ hempty] at hb
      exact hends b hb
  have hhead : ∀ b ∈ (str "ts=" ++ ts ++ str " csv=" ++ text).head?, isSpace b = false := by
    intro b hb
    obtain rfl : 116 = b := Option.some.inj hb
    rfl
  have hne : str "ts=" ++ ts ++ str " csv=" ++ text ≠ [] := by
    intro hnil
    simp only [List.append_eq_nil_iff] at hnil
    exact absurd hnil.1.1.1 (by decide)
  obtain ⟨raw, hparse⟩ := parse_nettraffic hfree hne hhead hlast
  refine ⟨raw, hparse.trans ?_⟩
  rw [hmessage, parseKeyValueFields_csv hpairs]
  rfl

/-- **A line with a row** is read from its stamp and its row, trimmed. -/
theorem parse_rowLine {ts text : Str} (hts : Stamp ts)
    (htext : ∀ tag ∈ earlierTags, ¬ tag <:+: text) :
    ∃ raw, parse (rowLine ts text) =
      some ⟨str "nettraffic", trafficFields ((∅ : StrMap Str).insertAll Prod.fst Prod.snd
        [(str "ts", ts), (str "csv", trim text)]), raw⟩ := by
  have hgap : ∀ b ∈ text.rtakeWhile isSpace, isSpace b = true := fun b hb =>
    List.mem_rtakeWhile_imp hb
  have hparts : text = text.rdropWhile isSpace ++ text.rtakeWhile isSpace :=
    (List.rdropWhile_append_rtakeWhile ..).symm
  have hprefix : text.rdropWhile isSpace <+: text := List.rdropWhile_prefix _ _
  have hline : rowLine ts text =
      [] ++ rowLine ts (text.rdropWhile isSpace) ++ text.rtakeWhile isSpace := by
    conv_lhs => rw [hparts]
    simp [rowLine, netmonSend]
  have htrim : trim (rowLine ts text) = trim (rowLine ts (text.rdropWhile isSpace)) := by
    rw [hline]
    exact trim_pad (List.forall_mem_nil _) hgap _
  have hvalue : trim text = trim (text.rdropWhile isSpace) := by
    conv_lhs => rw [hparts]
    exact trim_pad (List.forall_mem_nil _) hgap _
  have hends : ∀ b ∈ (text.rdropWhile isSpace).getLast?, isSpace b = false := by
    intro b hb
    have hne : text.rdropWhile isSpace ≠ [] := by
      intro hnil
      simp [hnil] at hb
    rw [List.getLast?_eq_some_getLast hne] at hb
    obtain rfl := Option.some.inj hb
    exact Bool.eq_false_iff.mpr (List.rdropWhile_last_not isSpace text hne)
  rw [parse_congr htrim, hvalue]
  exact parse_rowLine_trimmed hts (fun tag htag hin => htext tag htag (hin.trans hprefix.isInfix))
    hends

/-! ## The line of fields -/

namespace NlbwRow

variable (row : NlbwRow)

/-- The counters are numbers. -/
theorem counter_digits {value : Str}
    (h : value ∈ [row.conns, row.rxBytes, row.rxPkts, row.txBytes, row.txPkts]) :
    ∀ b ∈ value, isDigit b = true := by
  rw [← row.numbers] at h
  have hnumeric := (List.mem_filter.mp h).2
  rw [isNumericToken, Bool.and_eq_true] at hnumeric
  exact List.all_eq_true.mp hnumeric.2

/-- The keys of the line. -/
def keys : List Str :=
  [str "ts", str "mac", str "rx_bytes", str "tx_bytes", str "rx_pkts", str "tx_pkts", str "conns"]

/-- The names of the fields that stand for a row. -/
theorem pairs_keys (ts : Str) : (row.pairs ts).map Prod.fst = keys := rfl

/-- The names that stand for a row are keys, none of them a row itself, and without a
capital N. -/
theorem keys_plain : ∀ key ∈ keys, key.all isKeyByte = true ∧ key ≠ str "csv" ∧ 78 ∉ key := by
  decide +kernel

/-- A value of the line is its stamp or is made of digits, letters up to F and colons. -/
theorem value_cases {ts : Str} {pair : Str × Str} (hpair : pair ∈ row.pairs ts) :
    pair.2 = ts ∨ ∀ b ∈ pair.2, (isHexByte b || b = 58) = true := by
  have hdigit : ∀ b, isDigit b = true → (isHexByte b || b = 58) = true := by
    intro b hb
    simp [isHexByte, hb]
  simp only [pairs, List.mem_cons, List.not_mem_nil, or_false] at hpair
  rcases hpair with rfl | rfl | rfl | rfl | rfl | rfl | rfl
  · exact Or.inl rfl
  · exact Or.inr (mem_looksLikeMac row.mac_valid)
  · exact Or.inr fun b hb => hdigit b (row.counter_digits (by simp) b hb)
  · exact Or.inr fun b hb => hdigit b (row.counter_digits (by simp) b hb)
  · exact Or.inr fun b hb => hdigit b (row.counter_digits (by simp) b hb)
  · exact Or.inr fun b hb => hdigit b (row.counter_digits (by simp) b hb)
  · exact Or.inr fun b hb => hdigit b (row.counter_digits (by simp) b hb)

/-- The fields that stand for a row can be written without quotes. -/
theorem pairs_plain {ts : Str} (hts : Stamp ts) : ∀ pair ∈ row.pairs ts, PlainPair pair := by
  intro pair hpair
  have hkey := keys_plain pair.1 (row.pairs_keys ts ▸ List.mem_map_of_mem hpair)
  rcases row.value_cases hpair with heq | hbytes
  · exact
      { keyBytes := List.all_eq_true.mp hkey.1
        ne_csv := hkey.2.1
        solid := heq ▸ hts.solid
        unquoted := heq ▸ hts.unquoted }
  · exact plainPair_of_sent hkey.1 hkey.2.1 fun b hb =>
      isSentByte_of_class (by simp [hbytes b hb])

/-- No tag of another format stands among them. -/
theorem pairs_tagFree {ts : Str} (hts : Stamp ts) : ∀ tag ∈ earlierTags,
    ¬ tag <:+: [32].intercalate ((row.pairs ts).map pairText) := by
  intro tag htag
  obtain ⟨hmessage, hspace, hequals, -, -, -, hne, -⟩ := earlierTags_plain tag htag
  rw [infix_pairs_iff hspace hequals hne]
  intro hcases
  obtain ⟨pair, hpair, hkey | hvalue⟩ := hcases
  · have hplain := keys_plain pair.1 (row.pairs_keys ts ▸ List.mem_map_of_mem hpair)
    exact no_tag_of_notMem hmessage hplain.2.2 hkey
  · rcases row.value_cases hpair with heq | hbytes
    · exact hts.tagFree tag htag (heq ▸ hvalue)
    · exact no_tag_of_notMem hmessage (fun hb => absurd (hbytes 78 hb) (by decide)) hvalue

/-- The line of fields gives the counters as they were sent. -/
theorem parse_fieldsLine {ts : Str} (hts : Stamp ts) :
    ∃ result, parse (fieldsLine ts row) = some result ∧ result.type = str "nettraffic" ∧
      ∀ pair ∈ row.counters, result.fields.lookup pair.1 = some pair.2 := by
  have hplain := row.pairs_plain hts
  obtain ⟨hne, hstarts, hends⟩ := pairText_solid hplain (by simp [pairs])
  obtain ⟨raw, hparse⟩ := parse_nettraffic (row.pairs_tagFree hts) hne hstarts hends
  have hfields := lookup_parseKeyValueFields_pairs hplain
    (row.pairs_keys ts ▸ (show keys.Nodup by decide +kernel))
  have hcsv : (parseKeyValueFields ([32].intercalate ((row.pairs ts).map pairText))).lookup
      (str "csv") = none := by
    rw [parseKeyValueFields_pairs hplain, AList.lookup_insertAll_of_notMem, AList.lookup_empty]
    exact fun pair hpair => (hplain pair hpair).ne_csv
  generalize parseKeyValueFields ([32].intercalate ((row.pairs ts).map pairText)) = fields
    at hparse hfields hcsv
  refine ⟨_, hparse, rfl, ?_⟩
  simp only [pairs, List.forall_mem_cons] at hfields
  obtain ⟨-, hmac, hrxBytes, htxBytes, hrxPkts, htxPkts, hconns, -⟩ := hfields
  simp only [trafficFields_of_none hcsv, lookup_lowerField]
  simp only [counters, List.forall_mem_cons, if_true]
  refine ⟨congrArg (Option.map lower) hmac, ?_, ?_, ?_, ?_, ?_, List.forall_mem_nil _⟩
  · rw [if_neg (by decide)]
    exact hconns
  · rw [if_neg (by decide)]
    exact hrxBytes
  · rw [if_neg (by decide)]
    exact hrxPkts
  · rw [if_neg (by decide)]
    exact htxBytes
  · rw [if_neg (by decide)]
    exact htxPkts

end NlbwRow

/-- **Both forms of a traffic line agree.**  For every row, however its columns are
joined, the line with the row and the line with its fields are read with the same MAC
and the same counters. -/
theorem traffic_formats_agree (row : NlbwRow) (text ts : Str) (htext : Joined row.columns text)
    (hts : Stamp ts) :
    ∃ fromRow fromFields, parse (rowLine ts text) = some fromRow ∧
      parse (fieldsLine ts row) = some fromFields ∧
      fromRow.type = str "nettraffic" ∧ fromFields.type = str "nettraffic" ∧
      ∀ pair ∈ row.counters, fromRow.fields.lookup pair.1 = some pair.2 ∧
        fromFields.fields.lookup pair.1 = some pair.2 := by
  obtain ⟨raw, hparse⟩ := parse_rowLine hts (htext.text_tagFree row.column)
  obtain ⟨result, hresult, htype, hcounters⟩ := row.parse_fieldsLine hts
  obtain ⟨parsed, hparsed, hlookup⟩ := row.parseNlbwCsv_joined htext
  have hcsv : ((∅ : StrMap Str).insertAll Prod.fst Prod.snd
      [(str "ts", ts), (str "csv", trim text)]).lookup (str "csv") = some (trim text) :=
    AList.lookup_insert _
  refine ⟨_, result, hparse, hresult, rfl, htype, fun pair hpair => ⟨?_, hcounters pair hpair⟩⟩
  exact lookup_trafficFields_of_some hcsv hparsed (hlookup pair hpair)

/-- `IPv4;"AA:BB:CC:DD:EE:01";x;12;2000;15;900;9`. -/
def sampleRow : NlbwRow where
  before := [str "IPv4"]
  mac := str "AA:BB:CC:DD:EE:01"
  after := [str "x", str "12", str "2000", str "15", str "900", str "9"]
  conns := str "12"
  rxBytes := str "2000"
  rxPkts := str "15"
  txBytes := str "900"
  txPkts := str "9"
  column := by decide +kernel
  mac_valid := by decide +kernel
  before_plain := by decide +kernel
  after_plain := by decide +kernel
  numbers := by decide +kernel

/-- A row with semicolons and a quoted MAC. -/
theorem traffic_formats_agree_sample :
    ∃ fromRow, parse (rowLine (str "1700000000")
        (str "IPv4;\"AA:BB:CC:DD:EE:01\";x;12;2000;15;900;9")) = some fromRow ∧
      fromRow.fields.lookup (str "rx_pkts") = some (str "15") := by
  have hjoined : Joined sampleRow.columns (str "IPv4;\"AA:BB:CC:DD:EE:01\";x;12;2000;15;900;9") :=
    .separated 59 [str "IPv4", str "\"AA:BB:CC:DD:EE:01\"", str "x", str "12", str "2000",
      str "15", str "900", str "9"] (Or.inr rfl)
      (.cons (Or.inl rfl) (.cons (Or.inr rfl) (.cons (Or.inl rfl) (.cons (Or.inl rfl)
        (.cons (Or.inl rfl) (.cons (Or.inl rfl) (.cons (Or.inl rfl) (.cons (Or.inl rfl) .nil))))))))
  obtain ⟨fromRow, fromFields, hparse, -, -, -, hagree⟩ := traffic_formats_agree sampleRow _
    (str "1700000000") hjoined
    ⟨by decide +kernel, by decide +kernel, by decide +kernel⟩
  exact ⟨fromRow, hparse, (hagree (str "rx_pkts", str "15") (by decide +kernel)).1⟩

end Netmon
