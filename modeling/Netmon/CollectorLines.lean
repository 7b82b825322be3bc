import Netmon.KeyValueFields
import Netmon.LineTags

/-!
# The lines of the device collector

`netmon-devices.sh` reads the lease file and sends one `NETDEV` line for each lease;
the service parses it with `parseNetDev`.  The two sides agree: after any prefix
without the tags that are looked for first, the service finds each value as it was
sent, also when the host name holds a tag.
-/

namespace Netmon

/-! ## What is sent -/

/-- An ASCII letter. -/
def isLetter (b : UInt8) : Bool := (65 ≤ b && b ≤ 90) || (97 ≤ b && b ≤ 122)

/-- The bytes of a host name. -/
def isHostByte (b : UInt8) : Bool := isLetter b || isDigit b || b = 46 || b = 45

/-- A line of the lease file, as `read -r expiry mac ip host clientid` takes it. -/
structure Lease where
  expiry : Str
  mac : Str
  ip : Str
  host : Str
  expiry_digits : ∀ b ∈ expiry, isDigit b = true
  mac_bytes : ∀ b ∈ mac, (isHexByte b || b = 58) = true
  ip_bytes : ∀ b ∈ ip, (isHexByte b || b = 46 || b = 58) = true
  host_bytes : host = str "*" ∨ ∀ b ∈ host, isHostByte b = true

/-- `[ -n "$value" ] || value="unknown"`. -/
def orUnknown (value : Str) : Str := if value = [] then str "unknown" else value

/-- The fields of a lease in the order in which they are sent. -/
def leasePairs (ts : Str) (lease : Lease) (state : Str) : List (Str × Str) :=
  [(str "ts", ts), (str "mac", lease.mac), (str "ip", lease.ip),
    (str "host", orUnknown lease.host), (str "lease_expiry", lease.expiry),
    (str "neigh", orUnknown state)]

/-- A message of the collectors after its tag. -/
def netmonSend (tag : String) (message : Str) : Str := str tag ++ str ": " ++ message

/-- The line for one lease; a lease without a MAC or an address is skipped. -/
def emitDevice (ts : Str) (lease : Lease) (state : Str) : Option Str :=
  if lease.mac = [] ∨ lease.ip = [] then none
  else some (netmonSend "NETDEV" ([32].intercalate ((leasePairs ts lease state).map pairText)))

/-! ## Its bytes -/

/-- The bytes of the values that the collector sends. -/
def isSentByte (b : UInt8) : Bool := isHostByte b || b = 58 || b = 42

theorem isSentByte_of_class {b : UInt8}
    (h : (isDigit b || (isHexByte b || b = 58) || (isHexByte b || b = 46 || b = 58) ||
      isHostByte b || isLetter b) = true) : isSentByte b = true := by
  revert b
  decide +kernel

/-- The bytes that the collector sends are no white space, no quotes and no underscore. -/
theorem isSentByte_plain {b : UInt8} (h : isSentByte b = true) :
    isSpace b = false ∧ b ≠ 34 ∧ b ≠ 39 ∧ b ≠ 95 := by
  revert b
  decide +kernel

/-- A pair with such a value is sent without quotes. -/
theorem plainPair_of_sent {pair : Str × Str} (hkey : pair.1.all isKeyByte = true)
    (hcsv : pair.1 ≠ str "csv") (hvalue : ∀ b ∈ pair.2, isSentByte b = true) :
    PlainPair pair where
  keyBytes := List.all_eq_true.mp hkey
  ne_csv := hcsv
  solid := fun b hb => (isSentByte_plain (hvalue b hb)).1
  unquoted := fun b hb =>
    have hplain := isSentByte_plain (hvalue b (List.mem_of_mem_head? hb))
    ⟨hplain.2.1, hplain.2.2.1⟩

/-- Every value of a line is made of these bytes. -/
theorem isSentByte_of_mem_pairs {ts state : Str} {lease : Lease}
    (hts : ∀ b ∈ ts, isDigit b = true) (hstate : ∀ b ∈ state, isLetter b = true)
    {pair : Str × Str} (hpair : pair ∈ leasePairs ts lease state) :
    ∀ b ∈ pair.2, isSentByte b = true := by
  have hunknown : ∀ b ∈ str "unknown", isSentByte b = true := by
    have hall : (str "unknown").all isSentByte = true := by decide
    exact List.all_eq_true.mp hall
  have horUnknown : ∀ value : Str, (∀ b ∈ value, isSentByte b = true) →
      ∀ b ∈ orUnknown value, isSentByte b = true := by
    intro value hvalue
    unfold orUnknown
    split
    · exact hunknown
    · exact hvalue
  simp only [leasePairs, List.mem_cons, List.not_mem_nil, or_false] at hpair
  rcases hpair with rfl | rfl | rfl | rfl | rfl | rfl
  · intro b hb
    exact isSentByte_of_class (by simp [hts b hb])
  · intro b hb
    exact isSentByte_of_class (by simp [lease.mac_bytes b hb])
  · intro b hb
    exact isSentByte_of_class (by simp [lease.ip_bytes b hb])
  · refine horUnknown _ ?_
    rcases lease.host_bytes with hstar | hhost
    · rw [hstar]
      have hall : (str "*").all isSentByte = true := by decide
      exact List.all_eq_true.mp hall
    · intro b hb
      exact isSentByte_of_class (by simp [hhost b hb])
  · intro b hb
    exact isSentByte_of_class (by simp [lease.expiry_digits b hb])
  · refine horUnknown _ fun b hb => ?_
    exact isSentByte_of_class (by simp [hstate b hb])

/-- The keys of a line. -/
def leaseKeys : List Str :=
  [str "ts", str "mac", str "ip", str "host", str "lease_expiry", str "neigh"]

/-- The names of the fields that the collector sends. -/
theorem leasePairs_keys (ts : Str) (lease : Lease) (state : Str) :
    (leasePairs ts lease state).map Prod.fst = leaseKeys := rfl

/-- The names that the collector sends are keys, and no tag of attacks is among them. -/
theorem leaseKeys_plain : ∀ key ∈ leaseKeys,
    key.all isKeyByte = true ∧ key ≠ str "csv" ∧ ¬ str "WAN_ATTACK:" <:+: key := by
  decide

/-- The fields can be sent without quotes. -/
theorem leasePairs_plain {ts state : Str} (lease : Lease) (hts : ∀ b ∈ ts, isDigit b = true)
    (hstate : ∀ b ∈ state, isLetter b = true) :
    ∀ pair ∈ leasePairs ts lease state, PlainPair pair := by
  intro pair hpair
  have hkey := leaseKeys_plain pair.1 (leasePairs_keys ts lease state ▸ List.mem_map_of_mem hpair)
  exact plainPair_of_sent hkey.1 hkey.2.1 (isSentByte_of_mem_pairs hts hstate hpair)

/-- Nothing in the fields of a lease is taken for an attack. -/
theorem not_wanAttack_infix_pairs {ts state : Str} {lease : Lease}
    (hts : ∀ b ∈ ts, isDigit b = true) (hstate : ∀ b ∈ state, isLetter b = true) :
    ¬ str "WAN_ATTACK:" <:+: [32].intercalate ((leasePairs ts lease state).map pairText) := by
  rw [infix_pairs_iff (by decide) (by decide) (by decide)]
  intro hcases
  obtain ⟨pair, hpair, hkey | hvalue⟩ := hcases
  · have hplain := leaseKeys_plain pair.1
      (leasePairs_keys ts lease state ▸ List.mem_map_of_mem hpair)
    exact hplain.2.2 hkey
  · -- the tag has an underscore, the values have none
    have hmem : 95 ∈ pair.2 := hvalue.subset (by decide)
    exact (isSentByte_plain (isSentByte_of_mem_pairs hts hstate hpair 95 hmem)).2.2.2 rfl

/-! ## What is read -/

/-- A line with a collector's tag is a message. -/
theorem message_netmonSend {tag : String} (htag : tag ∈ ["NETDEV", "NETTRAFFIC"]) {message : Str}
    (hne : message ≠ []) (hends : ∀ b ∈ message.getLast?, isSpace b = false) :
    Message (netmonSend tag message) where
  ne_nil := by simp [netmonSend, hne]
  starts := by
    simp only [List.mem_cons, List.not_mem_nil, or_false] at htag
    intro b hb
    rcases htag with rfl | rfl <;>
    · obtain rfl : 78 = b := Option.some.inj hb
      decide
  ends := by
    intro b hb
    rw [netmonSend, List.getLast?_append_of_ne_nil _ hne] at hb
    exact hends b hb
  noBracket := by
    simp only [List.mem_cons, List.not_mem_nil, or_false] at htag
    rcases htag with rfl | rfl
    · rw [netmonSend, List.take_append_of_le_length (by decide)]
      decide
    · rw [netmonSend, List.take_append_of_le_length (by decide)]
      decide

/-- What `parseNetDev` makes of the fields it reads. -/
def netDevFields (fields : StrMap Str) : StrMap Str :=
  copyIfPresent (lowerField (str "mac") fields) (lowerField (str "mac") fields)
    (str "host", str "hostname")

/-- The host becomes the host name, and the MAC is put into lower case. -/
theorem lookup_netDevFields {fields : StrMap Str} {host : Str}
    (hhost : fields.lookup (str "host") = some host) (key : Str) :
    (netDevFields fields).lookup key =
      if key = str "hostname" then some host
      else if key = str "mac" then (fields.lookup (str "mac")).map lower
      else fields.lookup key := by
  have hsource : (lowerField (str "mac") fields).lookup (str "host") = some host := by
    rw [lookup_lowerField, if_neg (by decide), hhost]
  rw [netDevFields, lookup_copyIfPresent hsource, lookup_lowerField]

/-- A line is its tag, a colon, a space and the message. -/
theorem netmonSend_eq (tag : String) (message : Str) :
    netmonSend tag message = str tag ++ 58 :: 32 :: message := by
  rw [netmonSend, List.append_assoc]
  rfl

/-- A word that cannot run into the tag is in the prefix or in the message. -/
theorem infix_netmonSend {word : Str} {tag : String} (hspace : 32 ∉ word)
    (hclear : Substrings.Clear word (str tag)) (hword : ¬ word <:+: str tag ++ [58])
    {left message : Str} :
    word <:+: left ++ netmonSend tag message ↔ word <:+: left ∨ word <:+: message := by
  have hparts : str tag ++ 58 :: 32 :: message = (str tag ++ [58]) ++ 32 :: message := by simp
  rw [netmonSend_eq, hclear.infix_append, hparts, Substrings.infix_append_cons hspace]
  simp [hword]

/-- **A collector's line is found after any prefix** that does not hold its tag. -/
theorem netmonSend_stripped {tag : String} (htag : tag ∈ ["NETDEV", "NETTRAFFIC"])
    {before message : Str} (hbefore : ¬ str tag <:+: before) (hne : message ≠ [])
    (hstarts : ∀ b ∈ message.head?, isSpace b = false)
    (hends : ∀ b ∈ message.getLast?, isSpace b = false) :
    ∃ left, left <:+ before ∧
      stripSyslogPriority (before ++ netmonSend tag message) = left ++ netmonSend tag message ∧
      containsStr (left ++ netmonSend tag message) (str tag) = true ∧
      afterTag (left ++ netmonSend tag message) (str tag) = message := by
  have htags : ∀ tag ∈ ["NETDEV", "NETTRAFFIC"],
      Substrings.Clear (str tag) (str tag) ∧ str tag ≠ [] := by decide
  obtain ⟨left, hleft, hstrip⟩ :=
    (message_netmonSend htag hne hends).stripSyslogPriority_append before
  refine ⟨left, hleft, hstrip, ?_, ?_⟩
  · refine containsStr_iff.mpr ⟨left, 58 :: 32 :: message, ?_⟩
    simp [netmonSend_eq]
  · rw [netmonSend_eq, afterTag_append (htags tag htag).1 (htags tag htag).2
      fun hin => hbefore (hin.trans hleft.isInfix)]
    exact trim_append hne hstarts hends [32]

/-- A device line is read by `parseNetDev` when neither the prefix nor the message holds
the tag of attacks. -/
theorem parse_netdev {before message : Str} (hbefore : ¬ str "NETDEV" <:+: before)
    (hattack : ¬ str "WAN_ATTACK:" <:+: before) (hmessage : ¬ str "WAN_ATTACK:" <:+: message)
    (hne : message ≠ []) (hstarts : ∀ b ∈ message.head?, isSpace b = false)
    (hends : ∀ b ∈ message.getLast?, isSpace b = false) :
    ∃ raw, parse (before ++ netmonSend "NETDEV" message) =
      some ⟨str "netdev", netDevFields (parseKeyValueFields message), raw⟩ := by
  obtain ⟨left, hleft, hstrip, hfound, htag⟩ :=
    netmonSend_stripped (by simp) hbefore hne hstarts hends
  have hnone : parseWANAttack (left ++ netmonSend "NETDEV" message) = none := by
    refine parseWANAttack_eq_none ?_
    rw [infix_netmonSend (by decide) (by decide) (by decide)]
    intro hcases
    exact hcases.elim (fun hin => hattack (hin.trans hleft.isInfix)) hmessage
  refine ⟨_, parse_eq_some hstrip ?_⟩
  simp only [lineFormats, List.findSome?_cons, hnone, parseNetDev, hfound, if_true, htag]
  rfl

/-- **Collector lines decode to what was sent**, after every prefix that holds neither
of the two tags. -/
theorem collector_line_decodes (before ts state : Str) (lease : Lease) (line : Str)
    (hbefore : ¬ str "NETDEV" <:+: before) (hattack : ¬ str "WAN_ATTACK:" <:+: before)
    (hts : ∀ b ∈ ts, isDigit b = true) (hstate : ∀ b ∈ state, isLetter b = true)
    (hline : emitDevice ts lease state = some line) :
    ∃ result, parse (before ++ line) = some result ∧
      result.type = str "netdev" ∧
      result.fields.lookup (str "ts") = some ts ∧
      result.fields.lookup (str "mac") = some (lower lease.mac) ∧
      result.fields.lookup (str "ip") = some lease.ip ∧
      result.fields.lookup (str "hostname") = some (orUnknown lease.host) ∧
      result.fields.lookup (str "lease_expiry") = some lease.expiry ∧
      result.fields.lookup (str "neigh") = some (orUnknown state) := by
  have hplain := leasePairs_plain lease hts hstate
  obtain ⟨hne, hstarts, hends⟩ := pairText_solid hplain (by simp [leasePairs])
  unfold emitDevice at hline
  split at hline
  · exact absurd hline (by simp)
  · cases hline
    obtain ⟨raw, hparse⟩ := parse_netdev hbefore hattack
      (not_wanAttack_infix_pairs hts hstate) hne hstarts hends
    have hfields := lookup_parseKeyValueFields_pairs hplain
      (leasePairs_keys ts lease state ▸ (show leaseKeys.Nodup by decide +kernel))
    generalize parseKeyValueFields ([32].intercalate ((leasePairs ts lease state).map pairText)) =
      fields at hparse hfields
    simp only [leasePairs, List.forall_mem_cons] at hfields
    obtain ⟨hts, hmac, hip, hhost, hexpiry, hneigh, -⟩ := hfields
    have hkept : ∀ key ∈ [str "ts", str "ip", str "lease_expiry", str "neigh"],
        (netDevFields fields).lookup key = fields.lookup key := by
      have hkeys : ∀ key ∈ [str "ts", str "ip", str "lease_expiry", str "neigh"],
          key ≠ str "hostname" ∧ key ≠ str "mac" := by decide +kernel
      intro key hkey
      rw [lookup_netDevFields hhost, if_neg (hkeys key hkey).1, if_neg (hkeys key hkey).2]
    refine ⟨_, hparse, rfl, (hkept _ (by simp)).trans hts, ?_, (hkept _ (by simp)).trans hip, ?_,
      (hkept _ (by simp)).trans hexpiry, (hkept _ (by simp)).trans hneigh⟩
    · rw [lookup_netDevFields hhost, if_neg (by decide), if_pos rfl]
      exact congrArg (Option.map lower) hmac
    · rw [lookup_netDevFields hhost, if_pos rfl]

/-- A phone whose name holds two tags. -/
def taggedLease : Lease where
  expiry := str "1700003600"
  mac := str "AA:BB:CC:DD:EE:01"
  ip := str "10.0.0.5"
  host := str "NETDEV-NETIFACE"
  expiry_digits := List.all_eq_true.mp (by decide +kernel)
  mac_bytes := List.all_eq_true.mp (by decide +kernel)
  ip_bytes := List.all_eq_true.mp (by decide +kernel)
  host_bytes := Or.inr (List.all_eq_true.mp (by decide +kernel))

theorem collector_line_decodes_tagged :
    ((parse (str "<13>" ++ (emitDevice (str "1700000000") taggedLease (str "REACHABLE")).getD
      [])).bind fun result => result.fields.lookup (str "hostname")) =
      some (str "NETDEV-NETIFACE") := by
  obtain ⟨result, hparse, -, -, -, -, hhost, -⟩ := collector_line_decodes (str "<13>")
    (str "1700000000") (str "REACHABLE") taggedLease _ (by decide +kernel) (by decide +kernel)
    (List.all_eq_true.mp (by decide +kernel)) (List.all_eq_true.mp (by decide +kernel)) rfl
  rw [show emitDevice (str "1700000000") taggedLease (str "REACHABLE") = some _ from rfl,
    Option.getD_some, hparse]
  exact hhost

end Netmon
