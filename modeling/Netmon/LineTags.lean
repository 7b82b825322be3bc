import Netmon.FiniteMap
import Netmon.LogParser
import Netmon.Substrings

/-!
# Tags in a line

The formats look for their tags anywhere in the line.  This file says where a tag
is found: `containsStr` and `afterFirst` are the infix relation of lists, a syslog
prefix is stripped to one of its own ends, and the formats before DHCP take a line
exactly when it holds their tag.
-/

namespace Netmon

/-! ## Searching -/

/-- Containment is that of the standard library. -/
theorem containsStr_iff {text needle : Str} :
    containsStr text needle = true ↔ needle <:+: text := by
  induction text with
  | nil => simp [containsStr, List.infix_nil]
  | cons b rest ih =>
      rw [containsStr, Bool.or_eq_true, List.isPrefixOf_iff_prefix, ih, List.infix_cons_iff]

/-- Nothing follows a text that is not there. -/
theorem afterFirst_eq_none_iff {text needle : Str} :
    afterFirst text needle = none ↔ ¬ needle <:+: text := by
  induction text with
  | nil =>
      rw [afterFirst]
      by_cases hprefix : needle.isPrefixOf [] = true
      · rw [if_pos hprefix]
        simp [(List.isPrefixOf_iff_prefix.mp hprefix).isInfix]
      · rw [if_neg hprefix]
        simpa [List.infix_nil] using hprefix
  | cons b rest ih =>
      rw [afterFirst, List.infix_cons_iff, not_or, ← ih]
      by_cases hprefix : needle.isPrefixOf (b :: rest) = true
      · rw [if_pos hprefix]
        simp [List.isPrefixOf_iff_prefix.mp hprefix]
      · rw [if_neg hprefix]
        have hnot := mt List.isPrefixOf_iff_prefix.mpr hprefix
        simp [hnot]

/-- The first occurrence of a word that does not overlap itself, after a text without
it. -/
theorem afterFirst_append {needle before : Str} (hclear : Substrings.Clear needle needle)
    (hne : needle ≠ []) (hbefore : ¬ needle <:+: before) (rest : Str) :
    afterFirst (before ++ (needle ++ rest)) needle = some rest := by
  induction before with
  | nil =>
      obtain ⟨b, needle, rfl⟩ := List.exists_cons_of_ne_nil hne
      have hprefix : (b :: needle).isPrefixOf (b :: (needle ++ rest)) = true :=
        List.isPrefixOf_iff_prefix.mpr (List.prefix_append (b :: needle) rest)
      rw [List.nil_append, List.cons_append, afterFirst, if_pos hprefix]
      simp
  | cons b before ih =>
      have hnot := hclear.not_prefix_cons hbefore rest
      rw [List.cons_append] at hnot ⊢
      rw [afterFirst, if_neg (mt List.isPrefixOf_iff_prefix.mp hnot)]
      exact ih fun h => hbefore (List.infix_cons h)

/-- What follows a tag with its colon. -/
theorem afterTag_append {tag before : Str} (hclear : Substrings.Clear tag tag) (hne : tag ≠ [])
    (hbefore : ¬ tag <:+: before) (rest : Str) :
    afterTag (before ++ (tag ++ 58 :: rest)) tag = trim rest := by
  rw [afterTag, afterFirst_append hclear hne hbefore]
  rfl

/-! ## Prefixes -/

/-- A message that a syslog prefix can stand before: it begins and ends with bytes
other than white space, and no bracket is near its front. -/
structure Message (body : Str) : Prop where
  ne_nil : body ≠ []
  starts : ∀ b ∈ body.head?, isSpace b = false ∧ b ≠ 60
  ends : ∀ b ∈ body.getLast?, isSpace b = false
  noBracket : 62 ∉ body.take 8

/-- Only what stands before a text without white space at its ends is trimmed. -/
theorem trim_append {body : Str} (hne : body ≠ [])
    (hstarts : ∀ b ∈ body.head?, isSpace b = false)
    (hends : ∀ b ∈ body.getLast?, isSpace b = false) (before : Str) :
    trim (before ++ body) = before.dropWhile isSpace ++ body := by
  have hstart : body.dropWhile isSpace = body := by
    cases body with
    | nil => rfl
    | cons b rest => simp [hstarts b rfl]
  have hdrop : (before ++ body).dropWhile isSpace = before.dropWhile isSpace ++ body := by
    rw [List.dropWhile_append, hstart]
    by_cases hempty : (before.dropWhile isSpace).isEmpty
    · rw [if_pos hempty, List.isEmpty_iff.mp hempty, List.nil_append]
    · rw [if_neg hempty]
  have hjoined : before.dropWhile isSpace ++ body ≠ [] := by simp [hne]
  have hlast : isSpace ((before.dropWhile isSpace ++ body).getLast hjoined) = false := by
    refine hends _ ?_
    rw [List.getLast_append_of_ne_nil _ hne]
    exact List.getLast_mem_getLast? hne
  rw [trim, hdrop, List.rdropWhile_eq_self_iff]
  intro _
  simp [hlast]

/-- Trimming does not reach a message. -/
theorem Message.trim_append {body : Str} (h : Message body) (before : Str) :
    trim (before ++ body) = before.dropWhile isSpace ++ body :=
  Netmon.trim_append h.ne_nil (fun b hb => (h.starts b hb).1) h.ends before

/-- A bracket that closes a priority before a message stands before it. -/
theorem Message.lt_of_findIdx {body left : Str} (h : Message body) {close : Nat}
    (hfind : (left ++ body).findIdx? (· = 62) = some close) (hclose : close < 8) :
    close < left.length := by
  rw [List.findIdx?_append] at hfind
  cases hleft : left.findIdx? (· = 62) with
  | some k =>
      rw [hleft, Option.some_or, Option.some.injEq] at hfind
      have hk := (List.findIdx?_eq_some_iff_findIdx_eq.mp hleft).1
      omega
  | none =>
      rw [hleft, Option.none_or] at hfind
      obtain ⟨k, hk, hsum⟩ := Option.map_eq_some_iff.mp hfind
      obtain ⟨hlength, hbyte, -⟩ := List.findIdx?_eq_some_iff_getElem.mp hk
      have hmem : body[k] ∈ body.take 8 :=
        List.mem_take_iff_getElem.mpr ⟨k, by omega, rfl⟩
      rw [decide_eq_true_iff] at hbyte
      exact absurd (hbyte ▸ hmem) h.noBracket

/-- **Stripping leaves the message whole**, after an end of the prefix. -/
theorem Message.stripSyslogPriority_append {body : Str} (h : Message body) (before : Str) :
    ∃ left, left <:+ before ∧ stripSyslogPriority (before ++ body) = left ++ body := by
  have hsuffix : before.dropWhile isSpace <:+ before := List.dropWhile_suffix _
  unfold stripSyslogPriority
  rw [h.trim_append]
  simp only
  split
  · split
    · rename_i close hfind
      split
      · rename_i hclose
        have hle : close + 1 ≤ (before.dropWhile isSpace).length := h.lt_of_findIdx hfind hclose
        rw [List.drop_append_of_le_length hle, h.trim_append]
        exact ⟨_, ((List.dropWhile_suffix _).trans (List.drop_suffix _ _)).trans hsuffix, rfl⟩
      · exact ⟨_, hsuffix, rfl⟩
    · exact ⟨_, hsuffix, rfl⟩
  · exact ⟨_, hsuffix, rfl⟩

/-- White space around a line does not matter. -/
theorem stripSyslogPriority_congr {line line' : Str} (h : trim line = trim line') :
    stripSyslogPriority line = stripSyslogPriority line' := by
  unfold stripSyslogPriority
  rw [h]

/-! ## Addresses -/

/-- An address consists of digits and dots. -/
theorem mem_looksLikeIpv4 {ip : Str} (h : looksLikeIpv4 ip = true) :
    ∀ b ∈ ip, (b = 46 || isDigit b) = true := by
  rw [looksLikeIpv4, Bool.and_eq_true] at h
  exact List.all_eq_true.mp h.1

/-- A MAC consists of hexadecimal digits and colons. -/
theorem mem_looksLikeMac {mac : Str} (h : looksLikeMac mac = true) :
    ∀ b ∈ mac, (isHexByte b || b = 58) = true := by
  rw [looksLikeMac, Bool.and_eq_true] at h
  intro b hb
  obtain ⟨i, hi, rfl⟩ := List.mem_iff_getElem.mp hb
  have hbyte := List.all_eq_true.mp h.2 (mac[i], i)
    (List.mk_mem_zipIdx_iff_getElem?.mpr (by simp [hi]))
  simp only at hbyte
  split at hbyte
  · simp [of_decide_eq_true hbyte]
  · simp [hbyte]

/-! ## Formats -/

/-- The tags of the formats that are tried before DHCP. -/
def messageTags : List Str :=
  [str "WAN_ATTACK:", str "NETDEV", str "NETIFACE", str "NETTRAFFIC"]

/-- A line without its tag is no attack. -/
theorem parseWANAttack_eq_none {text : Str} (h : ¬ str "WAN_ATTACK:" <:+: text) :
    parseWANAttack text = none := by
  rw [parseWANAttack, afterFirst_eq_none_iff.mpr h]

/-- A line without its tag is no notice about a device. -/
theorem parseNetDev_eq_none {text : Str} (h : ¬ str "NETDEV" <:+: text) :
    parseNetDev text = none := by
  rw [parseNetDev, if_neg (mt containsStr_iff.mp h)]

/-- A line without its tag is no interface sample. -/
theorem parseNetIface_eq_none {text : Str} (h : ¬ str "NETIFACE" <:+: text) :
    parseNetIface text = none := by
  rw [parseNetIface, if_neg (mt containsStr_iff.mp h)]

/-- A line without its tag is no traffic sample. -/
theorem parseNetTraffic_eq_none {text : Str} (h : ¬ str "NETTRAFFIC" <:+: text) :
    parseNetTraffic text = none := by
  rw [parseNetTraffic, if_neg (mt containsStr_iff.mp h)]

/-- With the tag of attacks the first format takes a line. -/
theorem exists_parseWANAttack {text : Str} (h : str "WAN_ATTACK:" <:+: text) :
    ∃ fields, parseWANAttack text = some (str "wan_attack", fields) := by
  obtain ⟨payload, hpayload⟩ := Option.ne_none_iff_exists'.mp
    (mt afterFirst_eq_none_iff.mp (not_not.mpr h))
  rw [parseWANAttack, hpayload]
  exact ⟨_, rfl⟩

/-- With its tag the format of devices takes a line. -/
theorem exists_parseNetDev {text : Str} (h : str "NETDEV" <:+: text) :
    ∃ fields, parseNetDev text = some (str "netdev", fields) := by
  rw [parseNetDev, if_pos (containsStr_iff.mpr h)]
  exact ⟨_, rfl⟩

/-- With its tag the format of interfaces takes a line. -/
theorem exists_parseNetIface {text : Str} (h : str "NETIFACE" <:+: text) :
    ∃ fields, parseNetIface text = some (str "netiface", fields) := by
  rw [parseNetIface, if_pos (containsStr_iff.mpr h)]
  exact ⟨_, rfl⟩

/-- With its tag the format of traffic takes a line. -/
theorem exists_parseNetTraffic {text : Str} (h : str "NETTRAFFIC" <:+: text) :
    ∃ fields, parseNetTraffic text = some (str "nettraffic", fields) := by
  rw [parseNetTraffic, if_pos (containsStr_iff.mpr h)]
  exact ⟨_, rfl⟩

/-- The first format that takes the stripped line decides. -/
theorem parse_eq_some {line text type : Str} {fields : StrMap Str}
    (htext : stripSyslogPriority line = text)
    (hformat : (lineFormats.findSome? fun format => format text) = some (type, fields)) :
    parse line = some { type := type, fields := fields, raw := text } := by
  rw [parse]
  simp only [htext, hformat, Option.map_some]

/-- White space around a line does not matter. -/
theorem parse_congr {line line' : Str} (h : trim line = trim line') : parse line = parse line' := by
  unfold parse
  rw [stripSyslogPriority_congr h]

/-- One field is put into lower case and the others are left. -/
theorem lookup_lowerField (name : Str) (fields : StrMap Str) (key : Str) :
    (lowerField name fields).lookup key =
      if key = name then (fields.lookup name).map lower else fields.lookup key := by
  unfold lowerField
  cases hname : fields.lookup name with
  | none =>
      by_cases hkey : key = name
      · rw [if_pos hkey, hkey]
        exact hname
      · rw [if_neg hkey]
  | some value => exact AList.lookup_insert_if ..

/-- A field that is copied under a second name. -/
theorem lookup_copyIfPresent {fields : StrMap Str} {source value : Str}
    (hsource : fields.lookup source = some value) (dest key : Str) :
    (copyIfPresent fields fields (source, dest)).lookup key =
      if key = dest then some value else fields.lookup key := by
  unfold copyIfPresent
  simp only [hsource]
  exact AList.lookup_insert_if ..

/-- Every tag has a capital N. -/
theorem capitalN_mem_tag {tag : Str} (h : tag ∈ messageTags) : 78 ∈ tag := by
  revert tag
  decide

/-- A text without a capital N holds no tag. -/
theorem no_tag_of_notMem {tag text : Str} (h : tag ∈ messageTags) (htext : 78 ∉ text) :
    ¬ tag <:+: text :=
  fun hoccurs => htext (hoccurs.subset (capitalN_mem_tag h))

end Netmon
