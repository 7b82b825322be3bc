import Netmon.CollectorLines

/-!
# DHCP lines and the names in them

`dnsmasq` reports leases with a host name that the client chose.  The formats that
are tried before DHCP look for their tags anywhere in the line, so that such a name
can give the line to another format.  A line is read as the DHCP notice it is exactly
when neither the interface nor the host name holds one of those tags.
-/

namespace Netmon

/-! ## Notices -/

/-- What `dnsmasq` reports about one client. -/
structure DhcpNotice where
  pid : Str
  method : Str
  interface : Str
  ip : Str
  mac : Str
  host : Str
  pid_digits : ∀ b ∈ pid, isDigit b = true
  method_mem : method ∈ dhcpMethods
  bracket_notMem : 41 ∉ interface
  ip_valid : looksLikeIpv4 ip = true
  mac_valid : looksLikeMac mac = true
  host_bytes : ∀ b ∈ host, isHostByte b = true

namespace DhcpNotice

/-- The name of the program and its process id. -/
def opening (n : DhcpNotice) : Str := str "dnsmasq-dhcp[" ++ (n.pid ++ str "]:")

/-- The method with its interface, and what follows it. -/
def call (n : DhcpNotice) (rest : Str) : Str :=
  n.method ++ 40 :: (n.interface ++ 41 :: 32 :: rest)

/-- `dnsmasq-dhcp[pid]: METHOD(interface) ip mac host`. -/
def line (n : DhcpNotice) : Str :=
  n.opening ++ 32 :: n.call (n.ip ++ 32 :: (n.mac ++ 32 :: n.host))

/-- The words after the call; no space is left behind when there is no name. -/
def address (n : DhcpNotice) : Str :=
  n.ip ++ 32 :: (n.mac ++ if n.host = [] then [] else 32 :: n.host)

/-- The line without white space at its end. -/
def body (n : DhcpNotice) : Str := n.opening ++ 32 :: n.call n.address

end DhcpNotice

/-- None of the tags that are looked for before DHCP. -/
def TagFree (text : Str) : Prop := ∀ tag ∈ messageTags, ¬ tag <:+: text

instance (text : Str) : Decidable (TagFree text) :=
  inferInstanceAs (Decidable (∀ tag ∈ messageTags, ¬ tag <:+: text))

/-- No DHCP call. -/
def CallFree (text : Str) : Prop := ∀ method ∈ dhcpMethods, ¬ method ++ [40] <:+: text

instance (text : Str) : Decidable (CallFree text) :=
  inferInstanceAs (Decidable (∀ method ∈ dhcpMethods, ¬ method ++ [40] <:+: text))

/-! ## The bytes of a notice -/

/-- The bytes of addresses and names: no white space, no line break. -/
theorem isSentByte_solid {w : Str} (h : ∀ b ∈ w, isSentByte b = true) :
    32 ∉ w ∧ 10 ∉ w ∧ 13 ∉ w ∧ trim w = w := by
  have hsolid : ∀ b ∈ w, isSpace b = false := fun b hb => (isSentByte_plain (h b hb)).1
  refine ⟨fun hb => absurd (hsolid 32 hb) (by decide), fun hb => absurd (hsolid 10 hb) (by decide),
    fun hb => absurd (hsolid 13 hb) (by decide), ?_⟩
  exact trim_eq_self (fun b hb => hsolid b (List.mem_of_mem_head? hb))
    (fun b hb => hsolid b (List.mem_of_mem_getLast? hb))

namespace DhcpNotice

variable (n : DhcpNotice)

/-- An address is made of bytes that the line keeps, and has no capital N. -/
theorem ip_sent : ∀ b ∈ n.ip, isSentByte b = true ∧ b ≠ 78 := by
  have hclass : ∀ b : UInt8, (b = 46 || isDigit b) = true → isSentByte b = true ∧ b ≠ 78 := by
    decide +kernel
  exact fun b hb => hclass b (mem_looksLikeIpv4 n.ip_valid b hb)

/-- A MAC is made of bytes that the line keeps, and has no capital N. -/
theorem mac_sent : ∀ b ∈ n.mac, isSentByte b = true ∧ b ≠ 78 := by
  have hclass : ∀ b : UInt8, (isHexByte b || b = 58) = true → isSentByte b = true ∧ b ≠ 78 := by
    decide +kernel
  exact fun b hb => hclass b (mem_looksLikeMac n.mac_valid b hb)

/-- A host name is made of bytes that the line keeps. -/
theorem host_sent : ∀ b ∈ n.host, isSentByte b = true := by
  intro b hb
  exact isSentByte_of_class (by simp [n.host_bytes b hb])

theorem ip_ne_nil : n.ip ≠ [] := by
  intro hnil
  exact absurd (hnil ▸ n.ip_valid) (by decide)

theorem mac_ne_nil : n.mac ≠ [] := by
  intro hnil
  exact absurd (hnil ▸ n.mac_valid) (by decide)

/-! ## Where the tags are -/

/-- The four tags have no space and no bracket, and do not reach into the opening. -/
theorem tag_separators : ∀ tag ∈ messageTags, 32 ∉ tag ∧ 40 ∉ tag ∧ 41 ∉ tag ∧ tag ≠ [] ∧
    Substrings.Clear tag (str "dnsmasq-dhcp[") := by
  decide

/-- Neither a tag nor a call can stand before the call of the notice. -/
theorem notMem_opening {b : UInt8} (hb : b = 78 ∨ b = 40) : b ∉ n.opening := by
  have hletters : ∀ b : UInt8, b = 78 ∨ b = 40 →
      isDigit b = false ∧ b ∉ str "dnsmasq-dhcp[" ∧ b ∉ str "]:" := by decide +kernel
  obtain ⟨hdigit, hname, hclose⟩ := hletters b hb
  have hpid : b ∉ n.pid := fun hin => absurd (hdigit.symm.trans (n.pid_digits b hin)) (by simp)
  simp [opening, hpid, hname, hclose]

/-- No method has a capital N, with which three of the tags begin. -/
theorem capitalN_notMem_method : 78 ∉ n.method := by
  have hmethods : ∀ method ∈ dhcpMethods, 78 ∉ method := by decide
  exact hmethods _ n.method_mem

/-- **A tag in the line is a tag in the prefix, the interface or the host name.** -/
theorem tag_infix_iff {tag : Str} (htag : tag ∈ messageTags) (left : Str) :
    tag <:+: left ++ n.body ↔ tag <:+: left ∨ tag <:+: n.interface ∨ tag <:+: n.host := by
  obtain ⟨hspace, hopen, hclose, hne, hclear⟩ := tag_separators tag htag
  have hip := no_tag_of_notMem htag fun hb => (n.ip_sent 78 hb).2 rfl
  have hmac := no_tag_of_notMem htag fun hb => (n.mac_sent 78 hb).2 rfl
  have haddress : tag <:+: n.address ↔ tag <:+: n.host := by
    rw [address, Substrings.infix_append_cons hspace]
    by_cases hhost : n.host = []
    · simp [hhost, hip, hmac, hne]
    · rw [if_neg hhost, Substrings.infix_append_cons hspace]
      simp [hip, hmac]
  have hcall : tag <:+: n.call n.address ↔ tag <:+: n.interface ∨ tag <:+: n.host := by
    rw [call, Substrings.infix_append_cons hopen, Substrings.infix_append_cons hclose,
      ← List.nil_append (32 :: n.address), Substrings.infix_append_cons hspace, haddress]
    simp [no_tag_of_notMem htag n.capitalN_notMem_method, hne]
  have hbody : tag <:+: n.body ↔ tag <:+: n.interface ∨ tag <:+: n.host := by
    rw [body, Substrings.infix_append_cons hspace, hcall]
    simp [no_tag_of_notMem htag (n.notMem_opening (Or.inl rfl))]
  have hseam : n.body = str "dnsmasq-dhcp[" ++ (n.pid ++ str "]:" ++ 32 :: n.call n.address) := by
    simp [body, opening]
  rw [hseam, hclear.infix_append, ← hseam, hbody]

/-! ## The stripped line -/

/-- The address part does not end with white space. -/
theorem address_ends : ∀ b ∈ n.address.getLast?, isSpace b = false := by
  intro b hb
  have hsent : ∀ w : Str, (∀ c ∈ w, isSentByte c = true) → b ∈ w.getLast? → isSpace b = false :=
    fun w hw hlast => (isSentByte_plain (hw b (List.mem_of_mem_getLast? hlast))).1
  by_cases hhost : n.host = []
  · have hlast : n.address.getLast? = n.mac.getLast? := by
      rw [address, if_pos hhost, List.append_nil, List.getLast?_append_of_ne_nil _ (by simp),
        List.getLast?_cons_of_ne_nil n.mac_ne_nil]
    exact hsent n.mac (fun c hc => (n.mac_sent c hc).1) (hlast ▸ hb)
  · have hlast : n.address.getLast? = n.host.getLast? := by
      rw [address, if_neg hhost, List.getLast?_append_of_ne_nil _ (by simp),
        List.getLast?_cons_of_ne_nil (by simp), List.getLast?_append_of_ne_nil _ (by simp),
        List.getLast?_cons_of_ne_nil hhost]
    exact hsent n.host n.host_sent (hlast ▸ hb)

theorem address_ne_nil : n.address ≠ [] := by simp [address]

/-- The text of a notice is a message as the parser strips it. -/
theorem message_body : Message n.body where
  ne_nil := by simp [body]
  starts := by
    intro b hb
    obtain rfl : 100 = b := Option.some.inj hb
    decide
  ends := by
    intro b hb
    rw [body, call, List.getLast?_append_of_ne_nil _ (by simp),
      List.getLast?_cons_of_ne_nil (by simp), List.getLast?_append_of_ne_nil _ (by simp),
      List.getLast?_cons_of_ne_nil (by simp), List.getLast?_append_of_ne_nil _ (by simp),
      List.getLast?_cons_of_ne_nil (by simp), List.getLast?_cons_of_ne_nil n.address_ne_nil] at hb
    exact n.address_ends b hb
  noBracket := by
    rw [body, opening, List.append_assoc, List.take_append_of_le_length (by decide)]
    decide

/-- **The notice is left whole** by the stripping of a prefix. -/
theorem stripSyslogPriority_line (before : Str) :
    ∃ left, left <:+ before ∧ stripSyslogPriority (before ++ n.line) = left ++ n.body := by
  have htrim : trim (before ++ n.line) = trim (before ++ n.body) := by
    by_cases hhost : n.host = []
    · have hline : before ++ n.line = [] ++ (before ++ n.body) ++ [32] := by
        simp [line, body, call, address, hhost]
      rw [hline]
      exact trim_pad (List.forall_mem_nil _) (by simp [isSpace]) _
    · simp [line, body, address, hhost]
  rw [stripSyslogPriority_congr htrim]
  exact n.message_body.stripSyslogPriority_append before

end DhcpNotice

/-! ## The search -/

section Search

variable {α : Type} {matchAt : Str → Option α}

/-- A match at the start is the one that is found. -/
theorem searchText_of_match {text : Str} {found : α} (h : matchAt text = some found) :
    searchText matchAt text = some found := by
  cases text with
  | nil => exact h
  | cons b rest => rw [searchText, h, Option.some_or]

/-- A text in front without a match is passed over. -/
theorem searchText_append {before text : Str}
    (h : ∀ s, s ≠ [] → s <:+ before → matchAt (s ++ text) = none) :
    searchText matchAt (before ++ text) = searchText matchAt text := by
  induction before with
  | nil => rfl
  | cons b before ih =>
      have hhead := h (b :: before) (by simp) (List.suffix_refl _)
      rw [List.cons_append] at hhead ⊢
      rw [searchText, hhead, Option.none_or]
      exact ih fun s hs hsuffix => h s hs (hsuffix.trans (List.suffix_cons b before))

/-- A match is found, here or further left. -/
theorem searchText_append_isSome {text : Str} {found : α} (h : matchAt text = some found)
    (before : Str) : (searchText matchAt (before ++ text)).isSome = true := by
  induction before with
  | nil => rw [List.nil_append, searchText_of_match h, Option.isSome_some]
  | cons b before ih =>
      rw [List.cons_append, searchText, Option.isSome_or, ih, Bool.or_true]

end Search

/-- Without a call at its front, a text does not match. -/
theorem dhcpAt_eq_none {text : Str} (h : ∀ method ∈ dhcpMethods, ¬ method ++ [40] <+: text) :
    dhcpAt text = none := by
  have hfind : dhcpMethods.find? (fun method => (method ++ [40]).isPrefixOf text) = none := by
    refine List.find?_eq_none.mpr fun method hmethod => ?_
    exact mt List.isPrefixOf_iff_prefix.mp (h method hmethod)
  rw [dhcpAt, hfind]

namespace DhcpNotice

variable (n : DhcpNotice)

/-- The method that stands there is the one that is found. -/
theorem find_method (rest : Str) :
    dhcpMethods.find? (fun method => (method ++ [40]).isPrefixOf (n.method ++ 40 :: rest)) =
      some n.method := by
  have hmethod := n.method_mem
  generalize n.method = method at hmethod ⊢
  simp only [dhcpMethods, List.mem_cons, List.not_mem_nil, or_false] at hmethod
  rcases hmethod with rfl | rfl | rfl | rfl <;> rfl

/-- After the bracket come spaces and then the address part. -/
theorem afterSpaces_address : afterSpaces (32 :: n.address) = some n.address := by
  have hip := isSentByte_solid fun b hb => (n.ip_sent b hb).1
  have hmac := isSentByte_solid fun b hb => (n.mac_sent b hb).1
  have hhost := isSentByte_solid n.host_sent
  have hbreaks : 10 ∉ n.address ∧ 13 ∉ n.address := by
    unfold address
    by_cases hname : n.host = []
    · simp [hname, hip, hmac]
    · simp [hname, hip, hmac, hhost]
  have hhead : ∀ b ∈ n.address.head?, isSpace b = false := by
    intro b hb
    rw [address, List.head?_append_of_ne_nil _ n.ip_ne_nil] at hb
    exact (isSentByte_plain (n.ip_sent b (List.mem_of_mem_head? hb)).1).1
  obtain ⟨htake, hdrop⟩ := span_append (show ∀ b ∈ [32], isSpace b = true by simp [isSpace])
    n.address hhead
  rw [List.singleton_append] at htake hdrop
  unfold afterSpaces
  simp [htake, hdrop, n.address_ne_nil, hbreaks]

/-- A method with its bracket does not reach into the opening. -/
theorem call_separators : ∀ method ∈ dhcpMethods, 32 ∉ method ++ [40] ∧ 40 ∈ method ++ [40] ∧
    Substrings.Clear (method ++ [40]) (str "dnsmasq-dhcp[") := by
  decide

/-- **The call of the notice matches**, with its interface and its address. -/
theorem dhcpAt_call : dhcpAt (n.call n.address) = some (n.method, n.interface, n.address) := by
  have hinner : (n.call n.address).drop (n.method.length + 1) =
      n.interface ++ 41 :: 32 :: n.address := by
    rw [call, ← List.drop_drop, List.drop_left]
    rfl
  have hbracket : ∀ b ∈ n.interface, decide (b ≠ 41) = true := fun b hb =>
    decide_eq_true (ne_of_mem_of_not_mem hb n.bracket_notMem)
  obtain ⟨htake, hdrop⟩ := span_append hbracket (41 :: 32 :: n.address) (by simp)
  rw [dhcpAt, call, n.find_method]
  rw [call] at hinner
  simp only [hinner, htake, hdrop, n.afterSpaces_address, Option.map_some]

/-- Only the call of the notice matches, when the prefix has none. -/
theorem searchText_body {left : Str} (hleft : CallFree left) :
    searchText dhcpAt (left ++ n.body) = some (n.method, n.interface, n.address) := by
  have hparts : left ++ n.body = (left ++ n.opening ++ [32]) ++ n.call n.address := by
    simp [body]
  rw [hparts, searchText_append, searchText_of_match n.dhcpAt_call]
  intro s hs hsuffix
  refine dhcpAt_eq_none fun method hmethod hprefix => ?_
  obtain ⟨hspace, hopen, hclear⟩ := call_separators method hmethod
  rcases List.suffix_concat_iff.mp hsuffix with hnil | ⟨t, rfl, ht⟩
  · exact hs hnil
  · -- a call has no space, so that it would end before the one in front of the notice
    rw [List.append_assoc, List.singleton_append] at hprefix
    have hoccurs : method ++ [40] <:+: left ++ n.opening :=
      (Substrings.prefix_of_prefix_append_cons hspace hprefix).isInfix.trans ht.isInfix
    rw [opening, hclear.infix_append, ← opening] at hoccurs
    rcases hoccurs with hin | hin
    · exact hleft method hmethod hin
    · exact n.notMem_opening (Or.inr rfl) (hin.subset hopen)

/-! ## The fields -/

/-- The words of the address. -/
theorem address_tokens :
    ((split n.address 32).map trim).filter (· ≠ []) =
      n.ip :: n.mac :: if n.host = [] then [] else [n.host] := by
  have hip := isSentByte_solid fun b hb => (n.ip_sent b hb).1
  have hmac := isSentByte_solid fun b hb => (n.mac_sent b hb).1
  have hhost := isSentByte_solid n.host_sent
  rw [address, split_append_delimiter, split_of_notMem hip.1]
  by_cases hname : n.host = []
  · rw [if_pos hname, if_pos hname, List.append_nil, split_of_notMem hmac.1]
    simp [hip.2.2.2, hmac.2.2.2, n.ip_ne_nil, n.mac_ne_nil]
  · rw [if_neg hname, if_neg hname, split_append_delimiter, split_of_notMem hmac.1,
      split_of_notMem hhost.1]
    simp [hip.2.2.2, hmac.2.2.2, hhost.2.2.2, n.ip_ne_nil, n.mac_ne_nil, hname]

/-- The fields of the notice in the order in which they are set. -/
def pairs : List (Str × Str) :=
  [(str "event", eventNameForDhcpMethod n.method), (str "method", n.method),
    (str "interface", n.interface), (str "ip", n.ip), (str "mac", lower n.mac)] ++
    if n.host = [] then [] else [(str "hostname", n.host)]

/-- The line names the DHCP server. -/
theorem containsStr_body (left : Str) :
    containsStr (left ++ n.body) (str "dnsmasq-dhcp") = true := by
  refine containsStr_iff.mpr ⟨left, 91 :: (n.pid ++ str "]:" ++ 32 :: n.call n.address), ?_⟩
  have hname : str "dnsmasq-dhcp[" = str "dnsmasq-dhcp" ++ [91] := by decide
  simp [body, opening, hname]

/-- Where the call is found as it was written, the fields are those of the notice. -/
theorem parseDHCP_body {left : Str}
    (h : searchText dhcpAt (left ++ n.body) = some (n.method, n.interface, n.address)) :
    parseDHCP (left ++ n.body) =
      some (str "dhcp", (∅ : StrMap Str).insertAll Prod.fst Prod.snd n.pairs) := by
  unfold parseDHCP pairs
  rw [if_pos (n.containsStr_body left), h]
  simp only [n.address_tokens, n.ip_valid, n.mac_valid, List.head?_cons, if_true]
  by_cases hname : n.host = []
  · simp only [hname, if_true]
    rfl
  · simp only [if_neg hname]
    rfl

/-- A tag in the text of a notice stands before it, in the interface or in the host. -/
theorem tagFree_body (left : Str) :
    TagFree (left ++ n.body) ↔ TagFree left ∧ TagFree n.interface ∧ TagFree n.host := by
  constructor
  · intro h
    refine ⟨fun tag htag hin => h tag htag ?_, fun tag htag hin => h tag htag ?_,
      fun tag htag hin => h tag htag ?_⟩
    · exact (n.tag_infix_iff htag left).mpr (Or.inl hin)
    · exact (n.tag_infix_iff htag left).mpr (Or.inr (Or.inl hin))
    · exact (n.tag_infix_iff htag left).mpr (Or.inr (Or.inr hin))
  · intro h tag htag hin
    rcases (n.tag_infix_iff htag left).mp hin with hleft | hinterface | hhost
    · exact h.1 tag htag hleft
    · exact h.2.1 tag htag hinterface
    · exact h.2.2 tag htag hhost

/-- Whatever stands before it, the notice is taken by the DHCP format. -/
theorem exists_parseDHCP_body (left : Str) :
    ∃ fields, parseDHCP (left ++ n.body) = some (str "dhcp", fields) := by
  have hparts : left ++ n.body = (left ++ n.opening ++ [32]) ++ n.call n.address := by
    simp [body]
  have hfound := searchText_append_isSome n.dhcpAt_call (left ++ n.opening ++ [32])
  rw [← hparts] at hfound
  obtain ⟨found, hfound⟩ := Option.isSome_iff_exists.mp hfound
  unfold parseDHCP
  rw [if_pos (n.containsStr_body left), hfound]
  exact ⟨_, rfl⟩

end DhcpNotice

/-! ## Classification -/

/-- The end of a text without tags has none. -/
theorem TagFree.suffix {left before : Str} (h : TagFree before) (hleft : left <:+ before) :
    TagFree left :=
  fun tag htag hin => h tag htag (hin.trans hleft.isInfix)

/-- The end of a text without calls has none. -/
theorem CallFree.suffix {left before : Str} (h : CallFree before) (hleft : left <:+ before) :
    CallFree left :=
  fun method hmethod hin => h method hmethod (hin.trans hleft.isInfix)

/-- A text without tags comes to the DHCP format. -/
theorem TagFree.findSome {text : Str} (h : TagFree text) {taken : Str × StrMap Str}
    (hdhcp : parseDHCP text = some taken) :
    (lineFormats.findSome? fun format => format text) = some taken := by
  simp only [lineFormats, List.findSome?_cons, parseWANAttack_eq_none (h _ (by decide)),
    parseNetDev_eq_none (h _ (by decide)), parseNetIface_eq_none (h _ (by decide)),
    parseNetTraffic_eq_none (h _ (by decide)), hdhcp]

/-- **A tag gives the line to its format**, before DHCP is tried. -/
theorem findSome_of_tag {text : Str} (h : ¬ TagFree text) :
    ∃ type fields, (lineFormats.findSome? fun format => format text) = some (type, fields) ∧
      type ≠ str "dhcp" := by
  by_cases hattack : str "WAN_ATTACK:" <:+: text
  · obtain ⟨fields, hfields⟩ := exists_parseWANAttack hattack
    refine ⟨str "wan_attack", fields, ?_, by decide⟩
    simp only [lineFormats, List.findSome?_cons, hfields]
  by_cases hdev : str "NETDEV" <:+: text
  · obtain ⟨fields, hfields⟩ := exists_parseNetDev hdev
    refine ⟨str "netdev", fields, ?_, by decide⟩
    simp only [lineFormats, List.findSome?_cons, parseWANAttack_eq_none hattack, hfields]
  by_cases hiface : str "NETIFACE" <:+: text
  · obtain ⟨fields, hfields⟩ := exists_parseNetIface hiface
    refine ⟨str "netiface", fields, ?_, by decide⟩
    simp only [lineFormats, List.findSome?_cons, parseWANAttack_eq_none hattack,
      parseNetDev_eq_none hdev, hfields]
  by_cases htraffic : str "NETTRAFFIC" <:+: text
  · obtain ⟨fields, hfields⟩ := exists_parseNetTraffic htraffic
    refine ⟨str "nettraffic", fields, ?_, by decide⟩
    simp only [lineFormats, List.findSome?_cons, parseWANAttack_eq_none hattack,
      parseNetDev_eq_none hdev, parseNetIface_eq_none hiface, hfields]
  · refine absurd ?_ h
    simp only [TagFree, messageTags, List.forall_mem_cons]
    exact ⟨hattack, hdev, hiface, htraffic, List.forall_mem_nil _⟩

/-- The line is read as the notice. -/
def ReadAs (line : Str) (n : DhcpNotice) : Prop :=
  ∃ result, parse line = some result ∧ result.type = str "dhcp" ∧
    result.fields.lookup (str "interface") = some n.interface ∧
    result.fields.lookup (str "ip") = some n.ip ∧
    result.fields.lookup (str "mac") = some (lower n.mac) ∧
    result.fields.getD (str "hostname") [] = n.host

/-- The names of the fields of a notice. -/
def noticeKeys : List Str :=
  [str "event", str "method", str "interface", str "ip", str "mac"]

theorem DhcpNotice.nodup_pairs (n : DhcpNotice) : (n.pairs.map Prod.fst).Nodup := by
  unfold DhcpNotice.pairs
  by_cases hname : n.host = []
  · rw [if_pos hname, List.append_nil]
    exact (show noticeKeys.Nodup by decide)
  · rw [if_neg hname]
    exact (show (noticeKeys ++ [str "hostname"]).Nodup by decide)

/-- The fields of a notice are found under their names. -/
theorem DhcpNotice.lookup_pairs (n : DhcpNotice) :
    ((∅ : StrMap Str).insertAll Prod.fst Prod.snd n.pairs).lookup (str "interface") =
        some n.interface ∧
      ((∅ : StrMap Str).insertAll Prod.fst Prod.snd n.pairs).lookup (str "ip") = some n.ip ∧
      ((∅ : StrMap Str).insertAll Prod.fst Prod.snd n.pairs).lookup (str "mac") =
        some (lower n.mac) ∧
      ((∅ : StrMap Str).insertAll Prod.fst Prod.snd n.pairs).getD (str "hostname") [] =
        n.host := by
  have hset : ∀ pair ∈ n.pairs,
      ((∅ : StrMap Str).insertAll Prod.fst Prod.snd n.pairs).lookup pair.1 = some pair.2 :=
    fun pair hpair => AList.lookup_insertAll_of_mem n.nodup_pairs hpair
  refine ⟨hset (str "interface", n.interface) (by simp [pairs]),
    hset (str "ip", n.ip) (by simp [pairs]), hset (str "mac", lower n.mac) (by simp [pairs]), ?_⟩
  by_cases hname : n.host = []
  · have hnone : ∀ pair ∈ n.pairs, pair.1 ≠ str "hostname" := by
      intro pair hpair
      have hkey : pair.1 ∈ n.pairs.map Prod.fst := List.mem_map_of_mem hpair
      rw [pairs, if_pos hname, List.append_nil] at hkey
      have hkeys : ∀ key ∈ noticeKeys, key ≠ str "hostname" := by decide
      exact hkeys _ hkey
    rw [AList.getD, AList.lookup_insertAll_of_notMem hnone, hname]
    rfl
  · rw [AList.getD, hset (str "hostname", n.host) (by simp [pairs, hname])]
    rfl

/-- **Which DHCP lines are read as such.**  After a prefix without tags, a line is of
the DHCP type exactly when neither its interface nor its host name holds a tag; when
the prefix has no call of its own, that is also exactly when every field is read as it
was sent. -/
theorem dhcp_line_read_iff (before : Str) (n : DhcpNotice) (hbefore : TagFree before) :
    ((∃ result, parse (before ++ n.line) = some result ∧ result.type = str "dhcp") ↔
      TagFree n.interface ∧ TagFree n.host) ∧
    (CallFree before →
      (ReadAs (before ++ n.line) n ↔ TagFree n.interface ∧ TagFree n.host)) := by
  obtain ⟨left, hleft, hstrip⟩ := n.stripSyslogPriority_line before
  have hfree := n.tagFree_body left
  simp only [hbefore.suffix hleft, true_and] at hfree
  -- a tag in the names takes the line away from the DHCP format
  have honly : (∃ result, parse (before ++ n.line) = some result ∧
      result.type = str "dhcp") → TagFree n.interface ∧ TagFree n.host := by
    intro hresult
    obtain ⟨result, hparse, htype⟩ := hresult
    by_contra hnot
    obtain ⟨type, fields, hformat, hother⟩ := findSome_of_tag (mt hfree.mp hnot)
    rw [parse_eq_some hstrip hformat] at hparse
    cases hparse
    exact hother htype
  refine ⟨⟨honly, fun hnames => ?_⟩, fun hcalls => ⟨fun hread => ?_, fun hnames => ?_⟩⟩
  · obtain ⟨fields, hdhcp⟩ := n.exists_parseDHCP_body left
    exact ⟨_, parse_eq_some hstrip ((hfree.mpr hnames).findSome hdhcp), rfl⟩
  · obtain ⟨result, hparse, htype, -⟩ := hread
    exact honly ⟨result, hparse, htype⟩
  · have hdhcp := n.parseDHCP_body (n.searchText_body (hcalls.suffix hleft))
    exact ⟨_, parse_eq_some hstrip ((hfree.mpr hnames).findSome hdhcp), rfl, n.lookup_pairs⟩

/-- A lease for a client with the given name. -/
def noticeOf (host : Str) (hhost : ∀ b ∈ host, isHostByte b = true) : DhcpNotice where
  pid := str "1"
  method := str "DHCPACK"
  interface := str "br-lan"
  ip := str "10.0.0.5"
  mac := str "AA:bb:cc:dd:ee:01"
  host := host
  pid_digits := List.all_eq_true.mp (by decide +kernel)
  method_mem := by decide +kernel
  bracket_notMem := by decide
  ip_valid := by decide +kernel
  mac_valid := by decide +kernel
  host_bytes := hhost

/-- A client that names itself `laptop-2`. -/
def laptopNotice : DhcpNotice := noticeOf (str "laptop-2") (List.all_eq_true.mp (by decide +kernel))

/-- A client that calls itself after the tag of the device collector. -/
def taggedNotice : DhcpNotice :=
  noticeOf (str "NETDEV-tv") (List.all_eq_true.mp (by decide +kernel))

/-- The line of the laptop, with a priority and a date in front, is read as sent. -/
theorem dhcp_line_read_iff_laptop :
    ReadAs (str "<13>May 29 openwrt " ++ laptopNotice.line) laptopNotice :=
  ((dhcp_line_read_iff (str "<13>May 29 openwrt ") laptopNotice (by decide +kernel)).2
    (by decide +kernel)).mpr (by decide +kernel)

/-- **A host name takes the line away from DHCP**: the notice is read as a device
report. -/
theorem dhcp_host_captures_line :
    TagFree [] ∧ CallFree [] ∧
      (parse ([] ++ taggedNotice.line)).map ParseResult.type = some (str "netdev") ∧
      ¬ ReadAs ([] ++ taggedNotice.line) taggedNotice := by
  have htype : (parse ([] ++ taggedNotice.line)).map ParseResult.type = some (str "netdev") := by
    decide +kernel
  refine ⟨by decide +kernel, by decide +kernel, htype, ?_⟩
  intro hread
  obtain ⟨result, hparse, hdhcp, -⟩ := hread
  rw [hparse, Option.map_some, hdhcp] at htype
  exact absurd htype (by decide)

end Netmon
