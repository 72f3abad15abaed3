import Syscape.Network
import Syscape.Error
import Syscape.Lib.LastValue
import Syscape.Lib.Lines
import Syscape.Lib.Text

/-!
# Resolver configurations

A configuration names the servers in its order. Its search list and its domain name are two
forms of one setting, and the last directive that sets it counts. Reading a text line by line
is reading its parts one after the other.
-/
namespace Syscape.Network
open Checked Text Lines LastValue

section Records

/-- `dns_server_record`. -/
structure DnsServerRecord where
  address : IpAddressRecord
  interfaceIndex : Option ℕ
  deriving DecidableEq, Repr

/-- `dns_record`. -/
structure DnsRecord where
  servers : List DnsServerRecord
  searchDomains : Option (List (List UInt8))
  domainName : Option (List UInt8)
  deriving DecidableEq, Repr

/-- The converter of addresses and the lookup of interfaces, as functions of their texts. -/
structure ResolverApi where
  inetPton4 : List UInt8 → Option (Vector UInt8 4)
  inetPton6 : List UInt8 → Option (Vector UInt8 16)
  indexOf : List UInt8 → Result ℕ

/-- `IF_NAMESIZE`. -/
def ifNamesize : ℕ := 16

end Records

section Lines

def resolverBlank (c : UInt8) : Bool := c == 0x20 || c == 0x09

/-- `tokenize_resolver_line`. -/
def tokenizeResolverLine (line : List UInt8) : List (List UInt8) :=
  let line := line.rdropWhile fun c => c == 0x0D || c == 0x0A
  let line := line.dropWhile resolverBlank
  if line.head? = some 0x23 ∨ line.head? = some 0x3B then [] else splitBlank resolverBlank line

variable (api : ResolverApi)

/-- `parse_resolver_address`. -/
def parseResolverAddress (token : List UInt8) : Result IpAddressRecord :=
  if token = [] ∨ token.length ≥ 64 ∨ 0 ∈ token then fail .malformedData
  else
    match api.inetPton4 token with
    | some bytes => .ok ⟨.ipv4, addressValue bytes.toList, 0⟩
    | none =>
      match api.inetPton6 token with
      | some bytes => .ok ⟨.ipv6, bytes, 0⟩
      | none => fail .malformedData

/-- `parse_resolver_server`: nothing where the interface of the zone is gone. -/
def parseResolverServer (token : List UInt8) : Result (Option IpAddressRecord) :=
  match token.idxOf? 0x25 with
  | none => do
    let address ← parseResolverAddress api token
    .ok (some address)
  | some zoneStart =>
    let zone := token.drop (zoneStart + 1)
    if zone = [] ∨ 0x25 ∈ zone then fail .malformedData
    else do
      let address ← parseResolverAddress api (token.take zoneStart)
      if address.family ≠ .ipv6 then fail .malformedData
      else if zone.length ≥ ifNamesize then fail .malformedData
      else
        match api.indexOf zone with
        | .ok index => .ok (some { address with scopeId := index })
        | .error _ => .ok none

/-- The variables of the loop over the lines. -/
structure ResolverState where
  servers : List DnsServerRecord := []
  searchList : List (List UInt8) := []
  hasDomain : Bool := false
  domainValue : List UInt8 := []
  lastWasSearch : Bool := false

/-- One turn of the loop. -/
def resolverLine (st : ResolverState) (line : List UInt8) : Result ResolverState :=
  match tokenizeResolverLine line with
  | [] => .ok st
  | directive :: values =>
    if directive = ascii "nameserver" then
      match values with
      | [token] => do
        match ← parseResolverServer api token with
        | some address => .ok { st with servers := st.servers ++ [⟨address, none⟩] }
        | none => .ok st
      | _ => fail .malformedData
    else if directive = ascii "search" then
      if values = [] then fail .malformedData
      else .ok { st with searchList := values, lastWasSearch := true }
    else if directive = ascii "domain" then
      match values with
      | [value] => .ok { st with domainValue := value, hasDomain := true, lastWasSearch := false }
      | _ => fail .malformedData
    else .ok st

/-- What the variables come to at the end of the text. -/
def ResolverState.parsed (st : ResolverState) : DnsRecord :=
  if st.lastWasSearch then ⟨st.servers, some st.searchList, none⟩
  else if st.hasDomain then ⟨st.servers, some [st.domainValue], some st.domainValue⟩
  else ⟨st.servers, some [], none⟩

/-- `parse_resolver_conf`. -/
def parseResolverConf (content : List UInt8) : Result DnsRecord := do
  let st ← (lines 0x0A content).foldlM (resolverLine api) {}
  .ok st.parsed

end Lines

section Directives

/-- A directive that sets the search list. -/
inductive Directive where
  | search (list : List (List UInt8))
  | domain (value : List UInt8)
  deriving DecidableEq, Repr

/-- The list that the directive sets. -/
def Directive.list : Directive → List (List UInt8)
  | search list => list
  | domain value => [value]

/-- The name of the local domain, which only one of the two directives gives. -/
def Directive.name : Directive → Option (List UInt8)
  | search _ => none
  | domain value => some value

/-- The directive that stands in a line. -/
def directive (line : List UInt8) : Option Directive :=
  match tokenizeResolverLine line with
  | [] => none
  | keyword :: values =>
    if keyword = ascii "search" then some (.search values)
    else if keyword = ascii "domain" then some (.domain (values.headD []))
    else none

variable (api : ResolverApi)

/-- The server that a line names. -/
def server (line : List UInt8) : Option IpAddressRecord :=
  match tokenizeResolverLine line with
  | [keyword, token] =>
    if keyword = ascii "nameserver" then
      match parseResolverServer api token with
      | .ok address => address
      | .error _ => none
    else none
  | _ => none

/-- The line is as its directive wants it. -/
def Accepted (line : List UInt8) : Prop :=
  match tokenizeResolverLine line with
  | [] => True
  | keyword :: values =>
    if keyword = ascii "nameserver" then
      ∃ token address, values = [token] ∧ parseResolverServer api token = .ok address
    else if keyword = ascii "search" then values ≠ []
    else if keyword = ascii "domain" then ∃ value, values = [value]
    else True

/-- A server that no interface is bound to. -/
def unbound (address : IpAddressRecord) : DnsServerRecord := ⟨address, none⟩

/-- The variables behind a line with this directive. -/
def ResolverState.set (st : ResolverState) : Option Directive → ResolverState
  | none => st
  | some (.search list) => { st with searchList := list, lastWasSearch := true }
  | some (.domain value) =>
    { st with domainValue := value, hasDomain := true, lastWasSearch := false }

/-- The variables behind a line that is accepted. -/
def ResolverState.next (st : ResolverState) (line : List UInt8) : ResolverState :=
  { st with servers := st.servers ++ (server api line).toList.map unbound }.set (directive line)

variable {api}

@[simp] theorem set_none (st : ResolverState) : st.set none = st := rfl

/-- Only a line with its keyword names a server. -/
theorem server_of_keyword_ne {line : List UInt8}
    (h : (tokenizeResolverLine line).head? ≠ some (ascii "nameserver")) :
    server api line = none := by
  unfold server
  split
  · rename_i keyword token htokens
    rw [htokens] at h
    exact if_neg fun hkeyword => h (congrArg some hkeyword)
  · rfl

/-- A turn of the loop depends on the line only, and changes what the line sets. -/
theorem resolverLine_eq_ok (st : ResolverState) (line : List UInt8) (st' : ResolverState) :
    resolverLine api st line = .ok st' ↔ Accepted api line ∧ st' = st.next api line := by
  unfold resolverLine Accepted ResolverState.next directive
  rcases htokens : tokenizeResolverLine line with _ | ⟨keyword, values⟩
  · rw [server_of_keyword_ne (by simp [htokens])]
    simpa using eq_comm
  by_cases hserver : keyword = ascii "nameserver"
  · have hsearch : ¬ ascii "nameserver" = ascii "search" := by decide
    have hdomain : ¬ ascii "nameserver" = ascii "domain" := by decide
    subst hserver
    simp only [if_true, if_neg hsearch, if_neg hdomain, set_none, server, htokens]
    match values with
    | [] => simp
    | [token] =>
      rcases h : parseResolverServer api token with e | _ | address
      · simp [h]
      · simpa [h] using eq_comm
      · simp [h, unbound, eq_comm]
    | _ :: _ :: _ => simp
  · rw [server_of_keyword_ne (by simpa [htokens] using hserver)]
    simp only [if_neg hserver, Option.toList_none, List.map_nil, List.append_nil]
    by_cases hsearch : keyword = ascii "search"
    · simpa [hsearch, ResolverState.set, guard_eq_ok] using fun _ => eq_comm
    by_cases hdomain : keyword = ascii "domain"
    · have hother : ¬ ascii "domain" = ascii "search" := by decide
      subst hdomain
      match values with
      | [] => simp [hother]
      | [value] => simp [hother, ResolverState.set, eq_comm]
      | _ :: _ :: _ => simp [hother]
    · simpa [hsearch, hdomain] using eq_comm

end Directives

section Snapshot

variable {api : ResolverApi}

/-- What the lines of a text come to: the servers in order, and what the last directive
sets. -/
def snapshot (api : ResolverApi) (text : List (List UInt8)) : DnsRecord where
  servers := (text.filterMap (server api)).map unbound
  searchDomains := some ((lastOf directive text).elim [] Directive.list)
  domainName := (lastOf directive text).bind Directive.name

/-- The variables stand for the directive that counts. -/
def ResolverState.Keeps (st : ResolverState) : Option Directive → Prop
  | none => st.lastWasSearch = false ∧ st.hasDomain = false
  | some (.search list) => st.lastWasSearch = true ∧ st.searchList = list
  | some (.domain value) =>
    st.lastWasSearch = false ∧ st.hasDomain = true ∧ st.domainValue = value

/-- The variables agree with what the lines come to. -/
structure Settled (api : ResolverApi) (text : List (List UInt8)) (st : ResolverState) : Prop where
  servers : st.servers = (text.filterMap (server api)).map unbound
  keeps : st.Keeps (lastOf directive text)

theorem settled_nil : Settled api [] {} where
  servers := rfl
  keeps := ⟨rfl, rfl⟩

@[simp] theorem set_servers (st : ResolverState) (d : Option Directive) :
    (st.set d).servers = st.servers := by
  rcases d with _ | list | value <;> rfl

/-- A directive overrides whatever was set before, and a line without one sets nothing. -/
theorem keeps_set {st : ResolverState} {last : Option Directive} (h : st.Keeps last)
    (d : Option Directive) : (st.set d).Keeps (d.or last) := by
  rcases d with _ | list | value
  · exact h
  · exact ⟨rfl, rfl⟩
  · exact ⟨rfl, rfl, rfl⟩

/-- The servers are no part of the setting. -/
theorem keeps_servers {st : ResolverState} {last : Option Directive} (h : st.Keeps last)
    (servers : List DnsServerRecord) : ResolverState.Keeps { st with servers } last := by
  rcases last with _ | list | value <;> exact h

/-- One more line. -/
theorem Settled.next {text : List (List UInt8)} {st : ResolverState} (h : Settled api text st)
    (line : List UInt8) : Settled api (text ++ [line]) (st.next api line) where
  servers := by
    have hline : [line].filterMap (server api) = (server api line).toList := by
      cases hserver : server api line <;> simp [hserver]
    rw [ResolverState.next, set_servers, List.filterMap_append, List.map_append, hline, ← h.servers]
  keeps := by
    rw [lastOf_concat]
    exact keeps_set (keeps_servers h.keeps _) _

theorem parsed_of_keeps {st : ResolverState} {last : Option Directive} (h : st.Keeps last) :
    st.parsed = ⟨st.servers, some (last.elim [] Directive.list), last.bind Directive.name⟩ := by
  rcases last with _ | list | value
  · obtain ⟨hsearch, hdomain⟩ := h
    simp [ResolverState.parsed, hsearch, hdomain]
  · obtain ⟨hsearch, rfl⟩ := h
    simp [ResolverState.parsed, hsearch, Directive.list, Directive.name]
  · obtain ⟨hsearch, hdomain, rfl⟩ := h
    simp [ResolverState.parsed, hsearch, hdomain, Directive.list, Directive.name]

theorem Settled.parsed_eq {text : List (List UInt8)} {st : ResolverState}
    (h : Settled api text st) : st.parsed = snapshot api text := by
  rw [parsed_of_keeps h.keeps, h.servers, snapshot]

/-- The variables behind all lines. -/
theorem settled_foldl {done : List (List UInt8)} {st : ResolverState} (h : Settled api done st)
    (text : List (List UInt8)) :
    Settled api (done ++ text) (text.foldl (ResolverState.next api) st) := by
  induction text generalizing done st with
  | nil => simpa using h
  | cons line text ih =>
    have hmore := ih (h.next line)
    rwa [List.append_assoc, List.singleton_append] at hmore

/-- A text is read if all its lines are accepted, and gives what they come to. -/
theorem parseResolverConf_eq_ok {content : List UInt8} {parsed : DnsRecord} :
    parseResolverConf api content = .ok parsed ↔
      (∀ line ∈ lines 0x0A content, Accepted api line) ∧
        parsed = snapshot api (lines 0x0A content) := by
  have hsettled := settled_foldl (@settled_nil api) (lines 0x0A content)
  rw [List.nil_append] at hsettled
  simp only [parseResolverConf, bind_eq_ok, foldlM_eq_ok resolverLine_eq_ok, Except.ok.injEq]
  constructor
  · rintro ⟨_, ⟨haccepted, rfl⟩, rfl⟩
    exact ⟨haccepted, hsettled.parsed_eq⟩
  · rintro ⟨haccepted, rfl⟩
    exact ⟨_, ⟨haccepted, rfl⟩, hsettled.parsed_eq⟩

/-- A part of a text that sets the list overrides the part in front of it. -/
theorem snapshot_append_of_set {text more : List (List UInt8)}
    (h : ∃ line ∈ more, directive line ≠ none) :
    (snapshot api (text ++ more)).searchDomains = (snapshot api more).searchDomains ∧
      (snapshot api (text ++ more)).domainName = (snapshot api more).domainName := by
  obtain ⟨d, hd⟩ : ∃ d, lastOf directive more = some d := by
    rw [← Option.ne_none_iff_exists']
    intro hnone
    obtain ⟨line, hline, hne⟩ := h
    exact hne ((lastOf_eq_none_iff directive).mp hnone line hline)
  simp only [snapshot, lastOf_append, hd, Option.some_or, and_self]

/-- A part of a text that does not set it leaves what was set. -/
theorem snapshot_append_of_not_set {text more : List (List UInt8)}
    (h : ∀ line ∈ more, directive line = none) :
    (snapshot api (text ++ more)).searchDomains = (snapshot api text).searchDomains ∧
      (snapshot api (text ++ more)).domainName = (snapshot api text).domainName := by
  have hnone := (lastOf_eq_none_iff directive).mpr h
  simp only [snapshot, lastOf_append, hnone, Option.none_or, and_self]

/-- The domain name is there if the last directive gives it, and then is the whole list. -/
theorem domainName_snapshot {text : List (List UInt8)} {name : List UInt8} :
    (snapshot api text).domainName = some name ↔
      lastOf directive text = some (.domain name) := by
  rw [snapshot]
  rcases lastOf directive text with _ | list | value <;> simp [Directive.name]

theorem parse_resolver_conf (api : ResolverApi) :
    (∀ a b parsedA parsedB, (∀ c ∈ a.getLast?, c = 0x0A) →
      parseResolverConf api a = .ok parsedA → parseResolverConf api b = .ok parsedB →
      ∃ parsed, parseResolverConf api (a ++ b) = .ok parsed ∧
        parsed.servers = parsedA.servers ++ parsedB.servers ∧
        ((∃ line ∈ lines 0x0A b, directive line ≠ none) →
          parsed.searchDomains = parsedB.searchDomains ∧
            parsed.domainName = parsedB.domainName) ∧
        ((∀ line ∈ lines 0x0A b, directive line = none) →
          parsed.searchDomains = parsedA.searchDomains ∧
            parsed.domainName = parsedA.domainName)) ∧
    ∀ content parsed, parseResolverConf api content = .ok parsed →
      (parsed.domainName ≠ none ↔
        ∃ value, lastOf directive (lines 0x0A content) = some (.domain value)) ∧
      ∀ name, parsed.domainName = some name → parsed.searchDomains = some [name] := by
  simp only [parseResolverConf_eq_ok]
  constructor
  · rintro a b _ _ hend ⟨ha, rfl⟩ ⟨hb, rfl⟩
    rw [lines_append hend, List.forall_mem_append]
    refine ⟨_, ⟨⟨ha, hb⟩, rfl⟩, ?_, snapshot_append_of_set, snapshot_append_of_not_set⟩
    rw [snapshot, snapshot, snapshot, List.filterMap_append, List.map_append]
  · rintro content _ ⟨-, rfl⟩
    constructor
    · rw [Option.ne_none_iff_exists']
      simp only [domainName_snapshot]
    · intro name hname
      rw [snapshot, domainName_snapshot.mp hname]
      rfl

/-- A part of a dotted address: a number of one byte in decimal digits, without zeros in front. -/
def dottedOctet (part : List UInt8) : Option UInt8 :=
  let n := part.foldl (fun n c => n * 10 + (c.toNat - 0x30)) 0
  if part ≠ [] ∧ (∀ c ∈ part, 0x30 ≤ c ∧ c ≤ 0x39) ∧
      (part.head? = some 0x30 → part.length = 1) ∧ n < 256 then some (UInt8.ofNat n)
  else none

/-- A dotted address. -/
def dottedAddress (text : List UInt8) : Option (Vector UInt8 4) :=
  match (text.splitOn 0x2E).mapM dottedOctet with
  | some [a, b, c, d] => some ⟨#[a, b, c, d], rfl⟩
  | _ => none

/-- The link-local address of a router. -/
def routerAddress : Vector UInt8 16 :=
  ⟨#[0xFE, 0x80, 0, 0, 0, 0, 0, 0, 0, 0, 0, 0, 0, 0, 0, 1], rfl⟩

/-- A converter that knows dotted addresses and that one, on a machine with one interface. -/
def routerApi : ResolverApi where
  inetPton4 := dottedAddress
  inetPton6 text := if text = ascii "fe80::1" then some routerAddress else none
  indexOf name := if name = ascii "eth0" then .ok 2 else fail .notFound

def routerLines : List UInt8 :=
  ascii "# written by the router\nnameserver 192.0.2.53\ndomain a.example\n"

def moreLines : List UInt8 := ascii "nameserver fe80::1%eth0\nsearch b.example c.example\n"

/-- The servers of both parts are kept, and a later directive of the other kind takes the name
with it. -/
theorem parse_resolver_conf_search : ∃ parsed,
    parseResolverConf routerApi (routerLines ++ moreLines) = .ok parsed ∧
      parsed.servers = [⟨⟨.ipv4, addressValue [192, 0, 2, 53], 0⟩, none⟩,
        ⟨⟨.ipv6, routerAddress, 2⟩, none⟩] ∧
      parsed.searchDomains = some [ascii "b.example", ascii "c.example"] ∧
      parsed.domainName = none := by
  obtain ⟨parsed, hparsed, hservers, hset, -⟩ :=
    (parse_resolver_conf routerApi).1 routerLines moreLines
      ⟨[⟨⟨.ipv4, addressValue [192, 0, 2, 53], 0⟩, none⟩], some [ascii "a.example"],
        some (ascii "a.example")⟩
      ⟨[⟨⟨.ipv6, routerAddress, 2⟩, none⟩], some [ascii "b.example", ascii "c.example"], none⟩
      (by decide +kernel) (by decide +kernel) (by decide +kernel)
  have hsearch := hset ⟨ascii "search b.example c.example", by decide +kernel, by decide +kernel⟩
  exact ⟨parsed, hparsed, hservers, hsearch.1, hsearch.2⟩

end Snapshot

end Syscape.Network
