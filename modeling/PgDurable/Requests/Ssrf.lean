import PgDurable.Library.Cidr
import PgDurable.Endpoints.Prepare

/-!
# Destinations of requests

Where requests may go. In restricted mode only HTTPS to hosts of the allow-list is requested, and
names are resolved to addresses outside of `restrictedV4` and `restrictedV6` only.
`check_blocked_ip_eq` and `validate_iff` say what the two checks accept.
-/

namespace PgDurable.Requests

open Text Endpoints

inductive HttpSecurity where
  | disabled
  | restricted
  | unrestricted
  deriving DecidableEq

/-! ## Addresses -/

abbrev Ipv4Addr := BitVec 32

abbrev Ipv6Addr := BitVec 128

inductive IpAddr where
  | v4 (address : Ipv4Addr)
  | v6 (address : Ipv6Addr)
  deriving DecidableEq

/-- The octet at an index, the first one at 0. -/
def octet (address : Ipv4Addr) (index : Nat) : Nat :=
  (address.extractLsb' (8 * (3 - index)) 8).toNat

/-- The segment at an index, the first one at 0. -/
def segment (address : Ipv6Addr) (index : Nat) : BitVec 16 :=
  address.extractLsb' (16 * (7 - index)) 16

/-- The embedded address of `::ffff:A.B.C.D`. -/
def toIpv4Mapped (address : Ipv6Addr) : Option Ipv4Addr :=
  if address.extractLsb' 32 96 = 0xFFFF#96 then some (address.extractLsb' 0 32) else none

def checkBlockedIpv4 (address : Ipv4Addr) : Option String :=
  let first := octet address 0
  let second := octet address 1
  if first = 0 then some "reserved (0.0.0.0/8)"
  else if first = 10 then some "private (10.0.0.0/8)"
  else if first = 100 ∧ 64 ≤ second ∧ second ≤ 127 then some "shared/CGNAT (100.64.0.0/10)"
  else if first = 127 then some "loopback (127.0.0.0/8)"
  else if first = 169 ∧ second = 254 then some "link-local (169.254.0.0/16)"
  else if first = 172 ∧ 16 ≤ second ∧ second ≤ 31 then some "private (172.16.0.0/12)"
  else if first = 192 ∧ second = 168 then some "private (192.168.0.0/16)"
  else none

def checkBlockedIpv6 (address : Ipv6Addr) : Option String :=
  if address = 0#128 then some "unspecified (::)"
  else if address = 1#128 then some "loopback (::1)"
  else if segment address 0 &&& 0xFFC0#16 = 0xFE80#16 then some "link-local (fe80::/10)"
  else if segment address 0 &&& 0xFE00#16 = 0xFC00#16 then some "unique local (fc00::/7)"
  else none

/-- The reason why an address is blocked. -/
def checkBlockedIp : IpAddr → Option String
  | .v4 address => checkBlockedIpv4 address
  | .v6 address =>
      match toIpv4Mapped address with
      | some embedded => checkBlockedIpv4 embedded
      | none => checkBlockedIpv6 address

/-- The blocks that are not reached, with the reasons. -/
def restrictedV4 : List (Cidr 32 × String) :=
  [(⟨0x00000000#32, 8⟩, "reserved (0.0.0.0/8)"), (⟨0x0A000000#32, 8⟩, "private (10.0.0.0/8)"),
    (⟨0x64400000#32, 10⟩, "shared/CGNAT (100.64.0.0/10)"),
    (⟨0x7F000000#32, 8⟩, "loopback (127.0.0.0/8)"),
    (⟨0xA9FE0000#32, 16⟩, "link-local (169.254.0.0/16)"),
    (⟨0xAC100000#32, 12⟩, "private (172.16.0.0/12)"),
    (⟨0xC0A80000#32, 16⟩, "private (192.168.0.0/16)")]

def restrictedV6 : List (Cidr 128 × String) :=
  [(⟨0#128, 128⟩, "unspecified (::)"), (⟨1#128, 128⟩, "loopback (::1)"),
    (⟨0xFE800000000000000000000000000000#128, 10⟩, "link-local (fe80::/10)"),
    (⟨0xFC000000000000000000000000000000#128, 7⟩, "unique local (fc00::/7)")]

/-- The block of addresses that stand for an IPv4 address. -/
def mappedBlock : Cidr 128 := ⟨0xFFFF00000000#128, 96⟩

/-- The reason of the first block with an address. A mapped address is looked up as the embedded
one. -/
def restriction : IpAddr → Option String
  | .v4 address => Cidr.firstLabel restrictedV4 address
  | .v6 address =>
      if mappedBlock.Contains address then
        Cidr.firstLabel restrictedV4 (address.setWidth 32)
      else Cidr.firstLabel restrictedV6 address

theorem octet_eq (address : Ipv4Addr) (index : Nat) :
    octet address index = address.toNat / 2 ^ (8 * (3 - index)) % 2 ^ 8 :=
  extract_to_nat address _ _

/-- The first octet and the first 8 bits, and so on, are the same test. -/
theorem check_v4_eq (address : Ipv4Addr) :
    checkBlockedIpv4 address = Cidr.firstLabel restrictedV4 address := by
  have hbound := address.isLt
  have hfirst : octet address 0 = address.toNat / 2 ^ 24 % 2 ^ 8 := octet_eq address 0
  have hsecond : octet address 1 = address.toNat / 2 ^ 16 % 2 ^ 8 := octet_eq address 1
  simp only [checkBlockedIpv4, restrictedV4, Cidr.firstLabel,
    Cidr.contains_iff_div, hfirst, hsecond]
  refine if_congr ?_ rfl (if_congr ?_ rfl (if_congr ?_ rfl (if_congr ?_ rfl (if_congr ?_ rfl
    (if_congr ?_ rfl (if_congr ?_ rfl rfl))))))
  all_goals
    simp only [BitVec.toNat_ofNat]
    omega

theorem mapped_iff (address : Ipv6Addr) :
    address.extractLsb' 32 96 = 0xFFFF#96 ↔ mappedBlock.Contains address := by
  have hbound := address.isLt
  rw [Cidr.contains_iff_div, ← BitVec.toNat_inj, extract_to_nat, mappedBlock]
  simp only [BitVec.toNat_ofNat]
  omega

theorem check_v6_eq (address : Ipv6Addr) :
    checkBlockedIpv6 address = Cidr.firstLabel restrictedV6 address := by
  have hbound := address.isLt
  have hsegment : (segment address 0).toNat = address.toNat / 2 ^ 112 % 2 ^ 16 :=
    extract_to_nat address 112 16
  -- A mask on the first segment is a block of segments.
  have hlink : segment address 0 &&& 0xFFC0#16 = 0xFE80#16 ↔
      (⟨0xFE80#16, 10⟩ : Cidr 16).Contains (segment address 0) := Iff.rfl
  have hlocal : segment address 0 &&& 0xFE00#16 = 0xFC00#16 ↔
      (⟨0xFC00#16, 7⟩ : Cidr 16).Contains (segment address 0) := Iff.rfl
  simp only [checkBlockedIpv6, restrictedV6, Cidr.firstLabel, hlink, hlocal, Cidr.contains_iff_div,
    hsegment, ← BitVec.toNat_inj]
  refine if_congr ?_ rfl (if_congr ?_ rfl (if_congr ?_ rfl (if_congr ?_ rfl rfl)))
  all_goals
    simp only [BitVec.toNat_ofNat]
    omega

/-- The check finds the first block with the address. -/
theorem check_blocked_ip_eq (ip : IpAddr) : checkBlockedIp ip = restriction ip := by
  cases ip with
  | v4 address => exact check_v4_eq address
  | v6 address =>
      have hlow : address.extractLsb' 0 32 = address.setWidth 32 := by
        rw [← BitVec.toNat_inj, extract_to_nat, BitVec.toNat_setWidth, Nat.pow_zero, Nat.div_one]
      rw [checkBlockedIp, restriction, toIpv4Mapped]
      by_cases hmapped : mappedBlock.Contains address
      · rw [if_pos ((mapped_iff address).2 hmapped), if_pos hmapped, hlow]
        exact check_v4_eq _
      · rw [if_neg fun h => hmapped ((mapped_iff address).1 h), if_neg hmapped]
        exact check_v6_eq _

/-- An IPv4 address is let through exactly if it is in no block. -/
theorem check_v4_none {address : Ipv4Addr} :
    checkBlockedIpv4 address = none ↔ ∀ entry ∈ restrictedV4, ¬ entry.1.Contains address := by
  rw [check_v4_eq, Cidr.first_label_none]

/-- An IPv6 address is let through exactly if it is in no block, a mapped one as what it embeds. -/
theorem check_v6_none {address : Ipv6Addr} : checkBlockedIp (.v6 address) = none ↔
    if mappedBlock.Contains address then
      ∀ entry ∈ restrictedV4, ¬ entry.1.Contains (address.setWidth 32)
    else ∀ entry ∈ restrictedV6, ¬ entry.1.Contains address := by
  rw [check_blocked_ip_eq, restriction]
  split_ifs <;> exact Cidr.first_label_none

/-! ## Resolving names -/

structure SocketAddr where
  ip : IpAddr
  port : Nat
  deriving DecidableEq

/-- Resolve a name and drop the blocked addresses. -/
def SsrfSafeResolver.resolve (inner : String → Except String (List SocketAddr)) (name : String) :
    Except String (List SocketAddr) := do
  let filtered := (← inner name).filter fun addr => (checkBlockedIp addr.ip).isNone
  if filtered.isEmpty then
    .error ("Blocked: the resolved IP address for '" ++ name ++ "' is in a restricted range. " ++
      "df.http() cannot access private or internal network addresses.")
  else .ok filtered

/-- `str::contains`. -/
def containsText (word : List Char) : List Char → Bool
  | [] => word.isEmpty
  | c :: text => word.isPrefixOf (c :: text) || containsText word text

theorem contains_text_iff (word text : List Char) :
    containsText word text = true ↔ word <:+: text := by
  induction text with
  | nil => rw [containsText, List.isEmpty_iff, List.infix_nil]
  | cons c text ih =>
      rw [containsText, Bool.or_eq_true, List.isPrefixOf_iff_prefix, ih, List.infix_cons_iff]

/-- Whether an error is one of the resolver. -/
def isSsrfBlockError (message : String) : Bool :=
  containsText "Blocked:".toList message.toList && containsText "restricted".toList message.toList

theorem block_error_recognized (name : String) :
    isSsrfBlockError ("Blocked: the resolved IP address for '" ++ name ++
      "' is in a restricted range. " ++
      "df.http() cannot access private or internal network addresses.") = true := by
  have hblocked : "Blocked:".toList <+: "Blocked: the resolved IP address for '".toList :=
    ⟨" the resolved IP address for '".toList, rfl⟩
  have hrestricted : "restricted".toList <:+: "' is in a restricted range. ".toList :=
    ⟨"' is in a ".toList, " range. ".toList, rfl⟩
  rw [isSsrfBlockError, Bool.and_eq_true, contains_text_iff, contains_text_iff]
  simp only [String.toList_append, List.append_assoc]
  refine ⟨hblocked.isInfix.trans (List.prefix_append _ _).isInfix, hrestricted.trans ?_⟩
  rw [← List.append_assoc]
  exact List.infix_append' _ _ _

/-- What a name is resolved to are its addresses outside of the blocks. If there are none, the error
is recognized. -/
theorem resolve_safe (inner : String → Except String (List SocketAddr)) {name : String}
    {found : List SocketAddr} (h : inner name = .ok found) :
    (∀ addrs, SsrfSafeResolver.resolve inner name = .ok addrs ↔
      addrs ≠ [] ∧ addrs = found.filter fun addr => (restriction addr.ip).isNone) ∧
    ∀ error, SsrfSafeResolver.resolve inner name = .error error →
      isSsrfBlockError error = true ∧ ∀ addr ∈ found, (restriction addr.ip).isSome := by
  have hfilter : (found.filter fun addr => (checkBlockedIp addr.ip).isNone) =
      found.filter fun addr => (restriction addr.ip).isNone := by
    simp only [check_blocked_ip_eq]
  have hrun : SsrfSafeResolver.resolve inner name =
      if (found.filter fun addr => (restriction addr.ip).isNone).isEmpty then
        .error ("Blocked: the resolved IP address for '" ++ name ++ "' is in a restricted range. " ++
          "df.http() cannot access private or internal network addresses.")
      else .ok (found.filter fun addr => (restriction addr.ip).isNone) := by
    rw [SsrfSafeResolver.resolve, h, ← hfilter]
    rfl
  rw [hrun]
  refine ⟨fun addrs => ?_, fun error herror => ?_⟩
  · split_ifs with hempty
    · refine iff_of_false (fun h => (by cases h)) fun h => h.1 ?_
      rw [h.2]
      exact List.isEmpty_iff.1 hempty
    · constructor
      · intro h
        cases h
        exact ⟨fun hnone => hempty (List.isEmpty_iff.2 hnone), rfl⟩
      · rintro ⟨-, rfl⟩
        rfl
  · split_ifs at herror with hempty
    cases herror
    refine ⟨block_error_recognized name, fun addr haddr => ?_⟩
    rw [List.isEmpty_iff, List.filter_eq_nil_iff] at hempty
    have hblocked := hempty addr haddr
    rw [Option.isNone_iff_eq_none] at hblocked
    exact Option.isSome_iff_ne_none.2 hblocked

/-! ## The allow-list -/

/-- A host, in the form to which parsing brings it. -/
inductive Host where
  | domain (name : String)
  | ipv4 (address : Ipv4Addr)
  | ipv6 (address : Ipv6Addr)
  deriving DecidableEq

/-- What the URL package does: parse the text of a host, and tell what the host of a URL is. -/
structure Hosts where
  parse : String → Option Host
  classify : String → Host

def Hosts.of (hosts : Hosts) (url : Url) : Option Host := url.host.map hosts.classify

structure DomainAllowlist where
  exactDomains : List String
  domainSuffixes : List String

/-- The labels of a host name. -/
def labels (host : String) : List (List Char) := host.toList.splitOn '.'

/-- A DNS label. -/
def isLabel (label : List Char) : Bool :=
  !label.isEmpty && (String.ofList label).utf8ByteSize ≤ 63 && label.head? != some '-' &&
    label.getLast? != some '-' && label.all fun c => c.isAlphanum || c == '-'

/-- Add an entry of the list. -/
def DomainAllowlist.add (hosts : Hosts) (debug : String → String) (allowlist : DomainAllowlist)
    (entry : List Char × Nat) : Except String DomainAllowlist :=
  let text := String.ofList (trim entry.1)
  let invalid (reason : String) : Except String DomainAllowlist :=
    .error ("entry " ++ toString (entry.2 + 1) ++ " (" ++ debug text ++ "): " ++ reason)
  let subdomains := stripPrefix "*." text
  let domain := subdomains.getD text
  if domain.toList.contains '%' then invalid "percent-encoded hostnames are not permitted"
  else
    match hosts.parse domain with
    | none => invalid "expected a hostname or *.hostname"
    | some (.ipv4 _) | some (.ipv6 _) => invalid "IP addresses are not permitted"
    | some (.domain host) =>
        if 253 < host.utf8ByteSize ∨ !(labels host).all isLabel then
          invalid "expected a DNS hostname without a trailing dot"
        else if subdomains.isSome then
          .ok { allowlist with domainSuffixes := allowlist.domainSuffixes ++ ["." ++ host] }
        else .ok { allowlist with exactDomains := allowlist.exactDomains ++ [host] }

def DomainAllowlist.parse (hosts : Hosts) (debug : String → String) (value : String) :
    Except String DomainAllowlist :=
  if (trim value.toList).isEmpty then .ok ⟨[], []⟩
  else ((value.toList.splitOn ',').zipIdx).foldlM (DomainAllowlist.add hosts debug) ⟨[], []⟩

def DomainAllowlist.admits (allowlist : DomainAllowlist) (host : String) : Bool :=
  allowlist.exactDomains.any (host == ·) ||
    allowlist.domainSuffixes.any fun suffix =>
      decide (suffix.utf8ByteSize < host.utf8ByteSize) && suffix.toList.isSuffixOf host.toList

def DomainAllowlist.validate (hosts : Hosts) (allowlist : DomainAllowlist) (url : Url) :
    Except String Unit :=
  match hosts.of url with
  | some (.ipv4 _) | some (.ipv6 _) =>
      .error ("Blocked: requests to bare IP addresses are not permitted. " ++
        "Use an approved service hostname instead.")
  | none => .error "Blocked: unable to extract hostname from URL."
  | some (.domain host) =>
      if allowlist.admits host then .ok ()
      else
        .error ("Blocked: '" ++ host ++ "' is not in the allowed endpoint list. " ++
          "Configure pg_durable.http_allowed_domains to allow this hostname.")

/-- What an entry covers: a host, or the hosts below one. -/
def Covers (hosts : Hosts) (entry : String) (host : String) : Prop :=
  match stripPrefix "*." entry with
  | none => hosts.parse entry = some (.domain host)
  | some domain => ∃ name front, hosts.parse domain = some (.domain name) ∧ front ≠ [] ∧
      host.toList = front ++ '.' :: name.toList

/-- A longer text with the suffix has something in front of it. -/
theorem suffix_test_iff (host name : String) :
    (decide (("." ++ name).utf8ByteSize < host.utf8ByteSize) &&
        ("." ++ name).toList.isSuffixOf host.toList) = true ↔
      ∃ front, front ≠ [] ∧ host.toList = front ++ '.' :: name.toList := by
  have hdot : ("." ++ name).toList = '.' :: name.toList := String.toList_append
  rw [Bool.and_eq_true, decide_eq_true_iff, List.isSuffixOf_iff_suffix, hdot]
  have hsize : ∀ front, host.toList = front ++ '.' :: name.toList →
      host.utf8ByteSize = (String.ofList front).utf8ByteSize + ("." ++ name).utf8ByteSize := by
    intro front hfront
    have hhost : host = String.ofList front ++ ("." ++ name) := by
      rw [← String.toList_inj, String.toList_append, String.toList_ofList, hdot, hfront]
    rw [← String.utf8ByteSize_append, ← hhost]
  constructor
  · rintro ⟨hlonger, front, hfront⟩
    refine ⟨front, fun hnil => ?_, hfront.symm⟩
    have hsame := hsize front hfront.symm
    rw [hnil] at hsame
    rw [hsame] at hlonger
    exact absurd hlonger (by simp)
  · rintro ⟨front, hfront, hhost⟩
    refine ⟨?_, front, hhost.symm⟩
    have hpositive : (String.ofList front).utf8ByteSize ≠ 0 := by
      intro hzero
      have hempty := congrArg String.toList (String.utf8ByteSize_eq_zero_iff.1 hzero)
      rw [String.toList_ofList] at hempty
      exact hfront hempty
    rw [hsize front hhost]
    omega

theorem admits_iff (allowlist : DomainAllowlist) (host : String) :
    allowlist.admits host = true ↔ host ∈ allowlist.exactDomains ∨
      ∃ suffix ∈ allowlist.domainSuffixes,
        (decide (suffix.utf8ByteSize < host.utf8ByteSize) &&
          suffix.toList.isSuffixOf host.toList) = true := by
  rw [DomainAllowlist.admits, Bool.or_eq_true, List.any_eq_true, List.any_eq_true]
  refine or_congr ⟨fun ⟨domain, hdomain, heq⟩ => ?_, fun h => ⟨host, h, beq_self_eq_true _⟩⟩ Iff.rfl
  rw [beq_iff_eq.1 heq]
  exact hdomain

/-- An entry that is added is a host, or a pattern for the hosts below one, with valid labels. -/
theorem add_ok {hosts : Hosts} {debug : String → String} {allowlist next : DomainAllowlist}
    {entry : List Char × Nat} (h : allowlist.add hosts debug entry = .ok next) :
    (stripPrefix "*." (String.ofList (trim entry.1)) = none ∧
      ∃ name, hosts.parse (String.ofList (trim entry.1)) = some (.domain name) ∧
        (labels name).all isLabel = true ∧
        next = ⟨allowlist.exactDomains ++ [name], allowlist.domainSuffixes⟩) ∨
    ∃ domain name, stripPrefix "*." (String.ofList (trim entry.1)) = some domain ∧
      hosts.parse domain = some (.domain name) ∧ (labels name).all isLabel = true ∧
      next = ⟨allowlist.exactDomains, allowlist.domainSuffixes ++ ["." ++ name]⟩ := by
  unfold DomainAllowlist.add at h
  dsimp only at h
  split at h
  · cases h
  split at h
  · cases h
  · cases h
  · cases h
  next name hparse =>
  split at h
  · cases h
  next hlabels =>
  have hvalid : (labels name).all isLabel = true := by
    rw [not_or, Bool.not_eq_true', Bool.not_eq_false] at hlabels
    exact hlabels.2
  cases hstripped : stripPrefix "*." (String.ofList (trim entry.1)) with
  | none =>
      rw [hstripped] at h hparse
      cases h
      exact .inl ⟨rfl, name, hparse, hvalid, rfl⟩
  | some domain =>
      rw [hstripped] at h hparse
      cases h
      exact .inr ⟨domain, name, rfl, hparse, hvalid, rfl⟩

/-- An entry that is added admits what it covers. -/
theorem add_admits {hosts : Hosts} {debug : String → String} {allowlist next : DomainAllowlist}
    {entry : List Char × Nat} (h : allowlist.add hosts debug entry = .ok next) (host : String) :
    next.admits host = true ↔
      allowlist.admits host = true ∨ Covers hosts (String.ofList (trim entry.1)) host := by
  rw [admits_iff, admits_iff]
  unfold Covers
  rcases add_ok h with ⟨hstripped, domain, hparse, -, rfl⟩ |
    ⟨text, name, hstripped, hparse, -, rfl⟩
  · rw [hstripped]
    simp only [List.mem_append, List.mem_singleton, hparse, Option.some.injEq, Host.domain.injEq]
    rw [or_right_comm, eq_comm]
  · rw [hstripped]
    simp only [List.mem_append, List.mem_singleton, hparse, Option.some.injEq, Host.domain.injEq,
      or_and_right, exists_or, exists_eq_left, suffix_test_iff, or_assoc, exists_and_left,
      exists_eq_left']

/-- Entries that are added admit what one of them covers. -/
theorem fold_admits {hosts : Hosts} {debug : String → String} (entries : List (List Char × Nat))
    {allowlist final : DomainAllowlist}
    (h : entries.foldlM (DomainAllowlist.add hosts debug) allowlist = .ok final) (host : String) :
    final.admits host = true ↔ allowlist.admits host = true ∨
      ∃ entry ∈ entries, Covers hosts (String.ofList (trim entry.1)) host := by
  induction entries generalizing allowlist with
  | nil =>
      cases h
      exact ⟨.inl, fun h => h.resolve_right fun ⟨_, hnone, _⟩ => (by cases hnone)⟩
  | cons entry entries ih =>
      obtain ⟨next, hadd, hrest⟩ := Json.bind_eq_ok h
      rw [ih hrest, add_admits hadd, or_assoc]
      refine or_congr Iff.rfl ?_
      constructor
      · rintro (hcovers | ⟨other, hother, hcovers⟩)
        · exact ⟨entry, List.mem_cons_self, hcovers⟩
        · exact ⟨other, List.mem_cons_of_mem _ hother, hcovers⟩
      · rintro ⟨other, hother, hcovers⟩
        rcases List.mem_cons.1 hother with rfl | hother
        · exact .inl hcovers
        · exact .inr ⟨other, hother, hcovers⟩

/-- The entries of a list, without the space around them. -/
def entriesOf (value : String) : List String :=
  if (trim value.toList).isEmpty then []
  else (value.toList.splitOn ',').map fun entry => String.ofList (trim entry)

/-- A list admits the hosts that one of its entries covers. -/
theorem parsed_admits {hosts : Hosts} {debug : String → String} {value : String}
    {allowlist : DomainAllowlist} (h : DomainAllowlist.parse hosts debug value = .ok allowlist)
    (host : String) :
    allowlist.admits host = true ↔ ∃ entry ∈ entriesOf value, Covers hosts entry host := by
  unfold DomainAllowlist.parse at h
  unfold entriesOf
  split_ifs at h ⊢ with hempty
  · cases h
    exact iff_of_false Bool.false_ne_true fun ⟨_, hnone, _⟩ => (by cases hnone)
  · have hnone : (⟨[], []⟩ : DomainAllowlist).admits host ≠ true := Bool.false_ne_true
    rw [fold_admits _ h host, or_iff_right hnone]
    constructor
    · rintro ⟨entry, hentry, hcovers⟩
      have hmem : entry.1 ∈ value.toList.splitOn ',' := by
        rw [← List.zipIdx_map_fst 0 (value.toList.splitOn ',')]
        exact List.mem_map_of_mem hentry
      exact ⟨_, List.mem_map_of_mem hmem, hcovers⟩
    · rintro ⟨text, htext, hcovers⟩
      obtain ⟨entry, hentry, rfl⟩ := List.mem_map.1 htext
      rw [← List.zipIdx_map_fst 0 (value.toList.splitOn ',')] at hentry
      obtain ⟨indexed, hindexed, rfl⟩ := List.mem_map.1 hentry
      exact ⟨indexed, hindexed, hcovers⟩

/-- The URL is accepted exactly if its host is a name that an entry covers. -/
theorem validate_iff {hosts : Hosts} {debug : String → String} {value : String}
    {allowlist : DomainAllowlist} (h : DomainAllowlist.parse hosts debug value = .ok allowlist)
    (url : Url) :
    allowlist.validate hosts url = .ok () ↔ ∃ host, hosts.of url = some (.domain host) ∧
      ∃ entry ∈ entriesOf value, Covers hosts entry host := by
  unfold DomainAllowlist.validate
  cases hhost : hosts.of url with
  | none => exact iff_of_false (fun h => (by cases h)) fun ⟨_, hnone, _⟩ => (by cases hnone)
  | some host =>
      cases host with
      | ipv4 address =>
          exact iff_of_false (fun h => (by cases h)) fun ⟨_, hnone, _⟩ => (by cases hnone)
      | ipv6 address =>
          exact iff_of_false (fun h => (by cases h)) fun ⟨_, hnone, _⟩ => (by cases hnone)
      | domain host =>
          dsimp only
          split_ifs with hadmits
          · exact iff_of_true rfl ⟨host, rfl, (parsed_admits h host).1 hadmits⟩
          · refine iff_of_false (fun h => (by cases h)) ?_
            rintro ⟨other, heq, hcovers⟩
            cases heq
            exact hadmits ((parsed_admits h _).2 hcovers)

/-- An entry covers whole labels: those of its host, behind others where it is a pattern. -/
theorem covers_labels {hosts : Hosts} {entry host : String} (h : Covers hosts entry host) :
    ∃ domain name front, hosts.parse domain = some (.domain name) ∧
      labels host = front ++ labels name ∧
      ((stripPrefix "*." entry = none ∧ domain = entry ∧ front = []) ∨
        (stripPrefix "*." entry = some domain ∧ front ≠ [])) := by
  unfold Covers at h
  cases hstripped : stripPrefix "*." entry with
  | none =>
      rw [hstripped] at h
      exact ⟨entry, host, [], h, rfl, .inl ⟨rfl, rfl, rfl⟩⟩
  | some domain =>
      rw [hstripped] at h
      obtain ⟨name, front, hparse, -, hhost⟩ := h
      refine ⟨domain, name, front.splitOn '.', hparse, ?_,
        .inr ⟨rfl, List.splitOn_ne_nil _ _⟩⟩
      rw [labels, labels, hhost, List.splitOn_append_cons_self]

/-! ## Policies -/

structure HttpPolicy where
  security : HttpSecurity
  allowedDomains : DomainAllowlist

def validateSchemeValue (scheme : String) (security : HttpSecurity) : Except String Unit :=
  let allowsPlaintext := security != .restricted
  match scheme with
  | "https" => .ok ()
  | "http" =>
      if allowsPlaintext then .ok ()
      else
        .error ("Blocked: plaintext HTTP is not permitted in restricted mode. HTTPS is required.")
  | _ =>
      .error ("Blocked: unsupported URL scheme. Only " ++
        (if allowsPlaintext then "http and https" else "https") ++ " is allowed.")

def validateScheme (url : Url) (security : HttpSecurity) : Except String Unit :=
  validateSchemeValue url.scheme security

/-- The text before the first `://`. -/
def beforeAuthority : List Char → List Char
  | [] => []
  | c :: rest =>
      if "://".toList.isPrefixOf (c :: rest) then [] else c :: beforeAuthority rest

/-- Check the scheme of a text that is not parsed yet. -/
def precheckUrlScheme (url : String) (security : HttpSecurity) : Except String Unit :=
  validateSchemeValue (lower (String.ofList (beforeAuthority url.toList))) security

def validateAllowlist (hosts : Hosts) (url : Url) (policy : HttpPolicy) : Except String Unit :=
  match policy.security with
  | .disabled =>
      .error ("Blocked: outbound HTTP requests are disabled. " ++
        "Configure pg_durable.http_security = 'restricted' and restart the server to enable them.")
  | .restricted => policy.allowedDomains.validate hosts url
  | .unrestricted => .ok ()

end PgDurable.Requests
