import Netmon.Types

/-!
# The log parser

`log_parser.cpp` with the key-value reader of `utils.cpp`.  `parse` strips the
syslog priority and tries seven line formats in turn; a line that none of them
takes is unparsed, which is `none` here.

The two regular expressions are written out as the searches they perform.  In
`METHOD\(([^)]*)\)\s+(.+)$` the bracket ends at the first `)`, and `.` matches
everything but line breaks, so that the last group is the rest of the text from
its first non-space byte on.  The leftmost position that matches wins.
-/

namespace Netmon

/-! ## Key-value fields -/

/-- A byte of a key: neither `=` nor a space. -/
def isKeyByte (b : UInt8) : Bool := b ≠ 61 && !isSpace b

/-- The value at the front of a text and what follows it.  A value in quotes
runs to the closing quote, any other to the next space. -/
def takeValue : Str → Str × Str
  | [] => ([], [])
  | b :: rest =>
      if b = 34 || b = 39 then (rest.takeWhile (· ≠ b), (rest.dropWhile (· ≠ b)).drop 1)
      else ((b :: rest).takeWhile (!isSpace ·), (b :: rest).dropWhile (!isSpace ·))

/-- The reading loop.  Each round takes a word without `=`, a `csv` field that
takes the whole rest, or a key with its value. -/
def parseFieldsLoop : Nat → Str → StrMap Str → StrMap Str
  | 0, _, fields => fields
  | fuel + 1, text, fields =>
      let text := text.dropWhile isSpace
      if text = [] then fields
      else
        let key := text.takeWhile isKeyByte
        match text.dropWhile isKeyByte with
        | 61 :: rest =>
            if key = str "csv" then fields.insert key (trim rest)
            else
              parseFieldsLoop fuel (takeValue rest).2 (fields.insert key (takeValue rest).1)
        | rest => parseFieldsLoop fuel (rest.dropWhile (!isSpace ·)) fields

/-- The loop takes a byte at each turn, so that it ends within the length of the text. -/
def parseKeyValueFields (value : Str) : StrMap Str :=
  parseFieldsLoop (value.length + 1) value ∅

/-- What is left after dropping is no longer. -/
theorem length_dropWhile_le (p : UInt8 → Bool) (text : Str) :
    (text.dropWhile p).length ≤ text.length :=
  (List.dropWhile_suffix p).length_le

/-- What is left after a value is no longer. -/
theorem takeValue_length (text : Str) : (takeValue text).2.length ≤ text.length := by
  cases text with
  | nil => simp [takeValue]
  | cons b rest =>
      rw [takeValue]
      by_cases hquote : (b = 34 || b = 39) = true
      · have h := length_dropWhile_le (· ≠ b) rest
        rw [if_pos hquote, List.length_drop, List.length_cons]
        omega
      · rw [if_neg hquote]
        exact length_dropWhile_le _ _

/-- A word at the front of a text is not empty. -/
theorem length_after_word {text : Str} (hspace : text.dropWhile isSpace = text)
    (hne : text ≠ []) (hword : ∀ rest, text.dropWhile isKeyByte ≠ 61 :: rest) :
    (text.dropWhile isKeyByte).length < text.length := by
  cases text with
  | nil => exact absurd rfl hne
  | cons b rest =>
      have hb : isSpace b = false := by
        by_contra hb
        have hlength := congrArg List.length hspace
        rw [List.dropWhile_cons, if_pos (by simpa using hb)] at hlength
        have hle := length_dropWhile_le isSpace rest
        rw [List.length_cons] at hlength
        omega
      by_cases heq : b = 61
      · exact absurd (by simp [heq, isKeyByte]) (hword rest)
      · have hkey : isKeyByte b = true := by simp [isKeyByte, heq, hb]
        have hle := length_dropWhile_le isKeyByte rest
        rw [List.dropWhile_cons, if_pos hkey, List.length_cons]
        omega

/-! ## Tokens -/

/-- A priority in angle brackets is dropped if it ends within eight bytes. -/
def stripSyslogPriority (line : Str) : Str :=
  let text := trim line
  if text.head? = some 60 then
    match text.findIdx? (· = 62) with
    | some close => if close < 8 then trim (text.drop (close + 1)) else text
    | none => text
  else text

/-- Digits and exactly three dots. -/
def looksLikeIpv4 (value : Str) : Bool :=
  value.all (fun b => b = 46 || isDigit b) && value.count 46 = 3

/-- A hexadecimal digit, in either case. -/
def isHexByte (b : UInt8) : Bool :=
  isDigit b || (65 ≤ b && b ≤ 70) || (97 ≤ b && b ≤ 102)

/-- Six pairs of hexadecimal digits with colons between them. -/
def looksLikeMac (value : Str) : Bool :=
  value.length = 17 &&
    value.zipIdx.all fun (b, i) => if i % 3 = 2 then b = 58 else isHexByte b

/-- The event of each DHCP method. -/
def eventNameForDhcpMethod (method : Str) : Str :=
  if method = str "DHCPREQUEST" then str "dhcp_request"
  else if method = str "DHCPACK" then str "dhcp_ack"
  else if method = str "DHCPDISCOVER" then str "dhcp_discover"
  else if method = str "DHCPOFFER" then str "dhcp_offer"
  else str "dhcp"

/-- What follows a tag and an optional colon, trimmed. -/
def afterTag (line tag : Str) : Str :=
  match afterFirst line tag with
  | none => []
  | some (58 :: rest) => trim rest
  | some rest => trim rest

/-- One digit or more, and nothing else. -/
def isNumericToken (value : Str) : Bool := value ≠ [] && value.all isDigit

/-- The loop of `splitSeparated`: quotes are dropped and protect separators. -/
def splitSeparatedLoop (separator : UInt8) : Str → Str → Option UInt8 → List Str
  | [], current, _ => [stripQuotes (trim current)]
  | b :: rest, current, none =>
      if b = 34 || b = 39 then splitSeparatedLoop separator rest current (some b)
      else if b = separator then
        stripQuotes (trim current) :: splitSeparatedLoop separator rest [] none
      else splitSeparatedLoop separator rest (current ++ [b]) none
  | b :: rest, current, some quote =>
      if b = quote then splitSeparatedLoop separator rest current none
      else splitSeparatedLoop separator rest (current ++ [b]) (some quote)

/-- The columns of a line, with quotes respected. -/
def splitSeparated (line : Str) (separator : UInt8) : List Str :=
  splitSeparatedLoop separator line [] none

/-- The maximal runs of bytes that are not spaces, as `stream >> token` reads
them. -/
def words : Str → List Str
  | [] => []
  | b :: rest =>
      if isSpace b then words rest
      else
        match rest with
        | [] => [[b]]
        | c :: _ =>
            if isSpace c then [b] :: words rest
            else
              match words rest with
              | [] => [[b]]
              | word :: others => (b :: word) :: others

/-- By commas if there is one, else by semicolons, else by white space. -/
def splitLooseColumns (line : Str) : List Str :=
  let text := trim line
  if 44 ∈ text then splitSeparated text 44
  else if 59 ∈ text then splitSeparated text 59
  else (words text).map stripQuotes

/-- The names by which a header line of a table is known. -/
def isHeaderName (token : Str) : Bool :=
  lower token ∈ [str "rx_bytes", str "tx_bytes", str "downld.", str "upload"]

/-- The fields of one row of `nlbw`: the first MAC and the first address among
the columns, and the numbers after the MAC (or, without one, the address). -/
def parseNlbwCsv (payload : Str) : Option (StrMap Str) :=
  let tokens := splitLooseColumns payload
  if tokens = [] ∨ tokens.any isHeaderName then none
  else
    let macIndex := tokens.findIdx? looksLikeMac
    let ipIndex := tokens.findIdx? looksLikeIpv4
    match macIndex.or ipIndex with
    | none => none
    | some anchor =>
        match (tokens.drop (anchor + 1)).filter isNumericToken with
        | conns :: rxBytes :: rxPkts :: txBytes :: more =>
            let named : StrMap Str :=
              match macIndex.bind fun i => tokens[i]? with
              | some mac => (∅ : StrMap Str).insert (str "mac") (lower mac)
              | none => ∅
            let addressed :=
              match ipIndex.bind fun i => tokens[i]? with
              | some ip => named.insert (str "ip") ip
              | none => named
            let counted :=
              ((((addressed.insert (str "conns") conns).insert (str "rx_bytes") rxBytes).insert
                (str "rx_pkts") rxPkts).insert (str "tx_bytes") txBytes)
            match more with
            | txPkts :: _ => some (counted.insert (str "tx_pkts") txPkts)
            | [] => some counted
        | _ => none

/-! ## Line formats -/

/-- What the parser makes of a line that one of the formats takes. -/
structure ParseResult where
  type : Str
  fields : StrMap Str
  raw : Str

/-- Set `dest` to the value of `source`, if there is one. -/
def copyIfPresent (original fields : StrMap Str) (names : Str × Str) : StrMap Str :=
  match original.lookup names.1 with
  | some value => fields.insert names.2 value
  | none => fields

/-- Lower-case the value of a field in place. -/
def lowerField (name : Str) (fields : StrMap Str) : StrMap Str :=
  match fields.lookup name with
  | some value => fields.insert name (lower value)
  | none => fields

/-- `WAN_ATTACK:` and then the fields of the firewall, some of them under other names. -/
def parseWANAttack (line : Str) : Option (Str × StrMap Str) :=
  match afterFirst line (str "WAN_ATTACK:") with
  | none => none
  | some payload =>
      let fields := parseKeyValueFields (trim payload)
      some (str "wan_attack",
        [ (str "IN", str "in_if"), (str "OUT", str "out_if"), (str "SRC", str "src_ip"),
          (str "DST", str "dst_ip"), (str "SPT", str "src_port"), (str "DPT", str "dst_port"),
          (str "PROTO", str "proto"), (str "LEN", str "len") ].foldl (copyIfPresent fields) fields)

/-- The methods that are looked for. -/
def dhcpMethods : List Str :=
  [str "DHCPREQUEST", str "DHCPACK", str "DHCPDISCOVER", str "DHCPOFFER"]

/-- `\s+(.+)$` at the front of a text: the greedy run of spaces gives one byte
back only when nothing follows it. -/
def afterSpaces (text : Str) : Option Str :=
  let spaces := text.takeWhile isSpace
  let rest := text.dropWhile isSpace
  if spaces = [] then none
  else if rest ≠ [] then if 10 ∈ rest ∨ 13 ∈ rest then none else some rest
  else
    match spaces.getLast? with
    | some b => if 2 ≤ spaces.length ∧ b ≠ 10 ∧ b ≠ 13 then some [b] else none
    | none => none

/-- The DHCP expression anchored at the front: method, interface and the rest. -/
def dhcpAt (text : Str) : Option (Str × Str × Str) :=
  match dhcpMethods.find? (fun method => (method ++ [40]).isPrefixOf text) with
  | none => none
  | some method =>
      let inner := text.drop (method.length + 1)
      match inner.dropWhile (· ≠ 41) with
      | [] => none
      | _ :: rest => (afterSpaces rest).map fun tail => (method, inner.takeWhile (· ≠ 41), tail)

/-- The leftmost match. -/
def searchText {α : Type} (matchAt : Str → Option α) : Str → Option α
  | [] => matchAt []
  | b :: rest => (matchAt (b :: rest)).or (searchText matchAt rest)

/-- A line of `dnsmasq-dhcp`: the method, the interface and what stands behind them. -/
def parseDHCP (line : Str) : Option (Str × StrMap Str) :=
  if containsStr line (str "dnsmasq-dhcp") then
    match searchText dhcpAt line with
    | none => none
    | some (method, interface, rest) =>
        let base :=
          (((∅ : StrMap Str).insert (str "event") (eventNameForDhcpMethod method)).insert
            (str "method") method).insert (str "interface") interface
        let tokens := ((split rest 32).map trim).filter (· ≠ [])
        let fields :=
          match tokens with
          | [] => base
          | first :: others =>
              if looksLikeIpv4 first then
                let addressed := base.insert (str "ip") first
                let named :=
                  match others.head? with
                  | some mac =>
                      if looksLikeMac mac then addressed.insert (str "mac") (lower mac)
                      else addressed
                  | none => addressed
                match others with
                | _ :: hostname :: _ => named.insert (str "hostname") hostname
                | _ => named
              else if looksLikeMac first then
                let named := base.insert (str "mac") (lower first)
                match others with
                | hostname :: _ => named.insert (str "hostname") hostname
                | [] => named
              else base
        some (str "dhcp", fields)
  else none

/-- `NETDEV` and then fields; the host is also the host name. -/
def parseNetDev (line : Str) : Option (Str × StrMap Str) :=
  if containsStr line (str "NETDEV") then
    let fields := lowerField (str "mac") (parseKeyValueFields (afterTag line (str "NETDEV")))
    some (str "netdev", copyIfPresent fields fields (str "host", str "hostname"))
  else none

/-- `NETIFACE` and then fields; either name of the interface is also `interface`. -/
def parseNetIface (line : Str) : Option (Str × StrMap Str) :=
  if containsStr line (str "NETIFACE") then
    let fields := parseKeyValueFields (afterTag line (str "NETIFACE"))
    some (str "netiface",
      if str "if" ∈ fields then copyIfPresent fields fields (str "if", str "interface")
      else copyIfPresent fields fields (str "iface", str "interface"))
  else none

/-- `NETTRAFFIC` and then fields, among them perhaps a row of a table. -/
def parseNetTraffic (line : Str) : Option (Str × StrMap Str) :=
  if containsStr line (str "NETTRAFFIC") then
    let fields := lowerField (str "mac") (parseKeyValueFields (afterTag line (str "NETTRAFFIC")))
    some (str "nettraffic",
      match (fields.lookup (str "csv")).bind parseNlbwCsv with
      | some parsed => parsed.entries.foldl (fun fields e => fields.insert e.1 e.2) fields
      | none => fields)
  else none

/-- A line of `netifd` or `pppd` about the uplink. -/
def parseWanLink (line : Str) : Option (Str × StrMap Str) :=
  let text := lower line
  if ¬ containsStr text (str "netifd") ∧ ¬ containsStr text (str "pppd") then none
  else if ¬ containsStr text (str "wan") ∧ ¬ containsStr text (str "pppoe") then none
  else
    let fields := (∅ : StrMap Str).insert (str "message") line
    some (str "wan",
      if containsStr text (str "down") ∨ containsStr text (str "fail") ∨
          containsStr text (str "disconnect") then fields.insert (str "state") (str "down")
      else if containsStr text (str "up") ∨ containsStr text (str "connect") then
        fields.insert (str "state") (str "up")
      else fields)

/-- The Wi-Fi expression anchored at the front: the MAC after a tag. -/
def hostapdAt (text : Str) : Option Str :=
  match [str "AP-STA-CONNECTED", str "AP-STA-DISCONNECTED"].find?
      (fun tag => tag.isPrefixOf text) with
  | none => none
  | some tag =>
      let after := text.drop tag.length
      let mac := (after.dropWhile isSpace).take 17
      if after.takeWhile isSpace ≠ [] ∧ looksLikeMac mac then some mac else none

/-- A station that joins or leaves the access point. -/
def parseHostapd (line : Str) : Option (Str × StrMap Str) :=
  let connected := containsStr line (str "AP-STA-CONNECTED")
  let disconnected := containsStr line (str "AP-STA-DISCONNECTED")
  if containsStr line (str "hostapd") ∧ (connected ∨ disconnected) then
    (searchText hostapdAt line).map fun mac =>
      (str "wifi",
        ((∅ : StrMap Str).insert (str "event")
          (if connected then str "wifi_connected" else str "wifi_disconnected")).insert
            (str "mac") (lower mac))
  else none

/-- The formats in the order in which they are tried. -/
def lineFormats : List (Str → Option (Str × StrMap Str)) :=
  [parseWANAttack, parseNetDev, parseNetIface, parseNetTraffic, parseDHCP, parseWanLink,
    parseHostapd]

/-- The first format that takes the line. -/
def parse (line : Str) : Option ParseResult :=
  let text := stripSyslogPriority line
  (lineFormats.findSome? fun format => format text).map fun (type, fields) =>
    { type := type, fields := fields, raw := text }

/-- The types of the formats, in the same order. -/
def lineTypes : List Str :=
  [str "wan_attack", str "netdev", str "netiface", str "nettraffic", str "dhcp", str "wan",
    str "wifi"]

/-- A format takes lines of its own type only. -/
theorem format_type {format : Str → Option (Str × StrMap Str)} {own : Str}
    (hformat : (format, own) ∈ lineFormats.zip lineTypes) {text type : Str} {fields : StrMap Str}
    (h : format text = some (type, fields)) : type = own := by
  simp only [lineFormats, lineTypes, List.zip_cons_cons, List.zip_nil_left, List.mem_cons,
    Prod.mk.injEq, List.not_mem_nil, or_false] at hformat
  rcases hformat with ⟨rfl, rfl⟩ | ⟨rfl, rfl⟩ | ⟨rfl, rfl⟩ | ⟨rfl, rfl⟩ | ⟨rfl, rfl⟩ |
    ⟨rfl, rfl⟩ | ⟨rfl, rfl⟩
  · rw [parseWANAttack] at h
    split at h
    · exact absurd h (by simp)
    · cases h
      rfl
  · rw [parseNetDev] at h
    split at h
    · cases h
      rfl
    · exact absurd h (by simp)
  · rw [parseNetIface] at h
    split at h
    · cases h
      rfl
    · exact absurd h (by simp)
  · rw [parseNetTraffic] at h
    split at h
    · cases h
      rfl
    · exact absurd h (by simp)
  · rw [parseDHCP] at h
    split at h
    · split at h
      · exact absurd h (by simp)
      · cases h
        rfl
    · exact absurd h (by simp)
  · rw [parseWanLink] at h
    split at h
    · exact absurd h (by simp)
    · split at h
      · exact absurd h (by simp)
      · cases h
        rfl
  · rw [parseHostapd] at h
    split at h
    · obtain ⟨mac, -, heq⟩ := Option.map_eq_some_iff.mp h
      cases heq
      rfl
    · exact absurd h (by simp)

/-- **A parsed line was taken by the format of its type.** -/
theorem parse_format {line : Str} {result : ParseResult} (h : parse line = some result) :
    ∃ format, (format, result.type) ∈ lineFormats.zip lineTypes ∧
      format (stripSyslogPriority line) = some (result.type, result.fields) := by
  obtain ⟨⟨type, fields⟩, hfound, rfl⟩ := Option.map_eq_some_iff.mp h
  obtain ⟨format, hformat, htaken⟩ := List.exists_of_findSome?_eq_some hfound
  have hfirst : (lineFormats.zip lineTypes).map Prod.fst = lineFormats :=
    List.map_fst_zip (by decide)
  rw [← hfirst] at hformat
  obtain ⟨⟨_, own⟩, hzip, rfl⟩ := List.mem_map.mp hformat
  exact ⟨_, format_type hzip htaken ▸ hzip, htaken⟩

/-- A parsed line has one of the known types. -/
theorem parse_type {line : Str} {result : ParseResult} (h : parse line = some result) :
    result.type ∈ lineTypes := by
  obtain ⟨format, hformat, -⟩ := parse_format h
  exact (List.of_mem_zip hformat).2

example : (parse (str "<30>dnsmasq-dhcp[1]: DHCPACK(br-lan) 10.0.0.5 AA:bb:cc:dd:ee:01 tv")).map
    (fun r => r.fields.lookup (str "mac")) = some (some (str "aa:bb:cc:dd:ee:01")) := by
  decide +kernel

end Netmon
