import Syscape.RoutesMacosDump

/-!
# Interfaces from `getifaddrs`

The system lists rows, one for each address of an interface, with the address and its netmask
as socket addresses. A netmask is handed on as the length of its prefix, so its bits have to be
ones first and zeros behind them. What the headers of a system define is a parameter.
-/
namespace Syscape.InterfacesPosix
open Checked Endian Network RoutesMacos

section Source

/-- The loop of `prefix_from_netmask` over the bits of a byte, of which the first `k` from below
are left; the prefix has 8 bits. -/
def bitLoop (byte : ℕ) : ℕ → ℕ → ℕ × ℕ
  | 0, length => (length, 0)
  | k + 1, length =>
    if byte.testBit k then bitLoop byte k ((length + 1) % 256) else (length, 2 ^ k)

/-- The loop of `prefix_from_netmask` over the bytes. -/
def byteLoop : List UInt8 → ℕ → Bool → Result ℕ
  | [], length, _ => .ok length
  | byte :: bytes, length, partialSeen =>
    if partialSeen then
      if byte ≠ 0 then fail .malformedData else byteLoop bytes length true
    else if byte = 0xFF then byteLoop bytes ((length + 8) % 256) false
    else
      let (length, mask) := bitLoop byte.toNat 8 length
      if byte.toNat &&& (mask - 1) ≠ 0 then fail .malformedData
      else byteLoop bytes length true

/-- `prefix_from_netmask`. -/
def prefixFromNetmask (bytes : List UInt8) (maximum : ℕ) : Result ℕ := do
  let length ← byteLoop bytes 0 false
  if length > maximum then fail .malformedData else .ok length

/-- What a system calls its address families and flags, and how its socket addresses look. -/
structure Platform where
  afInet : ℕ
  afInet6 : ℕ
  afUnspec : ℕ
  iffUp : ℕ
  /-- `IFF_RUNNING`, or `IFF_LINK`. -/
  iffRunning : ℕ
  iffLoopback : ℕ
  order : ByteOrder
  /-- A socket address records its length, and trailing zeros of a netmask may be left out. -/
  recordsLength : Bool
  /-- The scope of a link-local address may stand in its second pair of bytes. -/
  embedsScope : Bool
  /-- `AF_PACKET`. -/
  afPacket : Option ℕ
  /-- `AF_LINK`. -/
  afLink : Option ℕ
  /-- The data of a row has the MTU. -/
  linkMtu : Bool

/-- A socket address: the family, the recorded length, and the memory from its beginning. -/
structure SocketAddress where
  family : ℕ
  recorded : ℕ
  memory : List UInt8

/-- `ifaddrs`; of the data only `ifi_mtu` is looked at. -/
structure Ifaddrs where
  name : Option (List UInt8)
  flags : ℕ
  addr : Option SocketAddress
  netmask : Option SocketAddress
  data : Option ℕ

/-- The calls that resolve the name of an interface. -/
structure InterfaceApi where
  indexOf : List UInt8 → Result ℕ
  mtuOf : List UInt8 → Result ℕ

/-- `interface_state`. -/
inductive InterfaceState where
  | unknown
  | down
  | up
  deriving DecidableEq, Repr

/-- `unicast_record`. -/
structure UnicastRecord where
  family : AddressFamily
  value : Vector UInt8 16
  prefixLength : ℕ
  scopeId : ℕ
  deriving DecidableEq, Repr

/-- `interface_record`. -/
structure InterfaceRecord where
  name : List UInt8
  index : ℕ
  state : InterfaceState := .unknown
  loopback : Bool := false
  hardwareAddress : List UInt8 := []
  addresses : List UnicastRecord := []
  mtuBytes : ℕ
  deriving DecidableEq, Repr

/-- `classify_state`. -/
def classifyState (platform : Platform) (flags : ℕ) : InterfaceState :=
  if flags &&& platform.iffUp = 0 then .down
  else if flags &&& platform.iffRunning ≠ 0 then .up
  else .unknown

/-- Where the address stands in a socket address: `sin_addr` and `sin6_addr`. -/
def addressOffset : AddressFamily → ℕ
  | .ipv4 => 4
  | .ipv6 => 8

/-- `copy_netmask_bytes`. -/
def copyNetmaskBytes (platform : Platform) (netmask : SocketAddress) (family : AddressFamily) :
    Result (List UInt8) :=
  let recorded := if platform.recordsLength then netmask.recorded
    else addressOffset family + octetCount family
  netmaskBytes netmask.memory 0 recorded (addressOffset family) (octetCount family)

/-- The scope in a link-local address is not part of the address. -/
def withoutScope (scopeId : ℕ) (value : Vector UInt8 16) : Vector UInt8 16 :=
  if scopeId ≠ 0 ∧ value[0]! = 0xFE ∧ value[1]! &&& 0xC0 = 0x80 then (value.set 2 0).set 3 0
  else value

/-- `make_ipv4_record` and `make_ipv6_record`; an IPv4 address has no scope. -/
def makeRecord (family : AddressFamily) (address : List UInt8) (netmask : Option (List UInt8))
    (scopeId : ℕ) : Result UnicastRecord :=
  match netmask with
  | none => fail .malformedData
  | some netmask => do
    let prefixLength ← prefixFromNetmask netmask (maximumPrefixLength family)
    .ok ⟨family, withoutScope scopeId (addressValue address), prefixLength, scopeId⟩

/-- The scope of an IPv6 address. -/
def scopeOf (platform : Platform) (addr : SocketAddress) (address : List UInt8) : Result ℕ := do
  let scope ← slice addr.memory 24 4
  let scopeId := value platform.order scope
  if platform.embedsScope ∧ scopeId = 0 then
    if address.getD 0 0 = 0xFE ∧ address.getD 1 0 &&& 0xC0 = 0x80 then
      .ok ((address.getD 2 0).toNat * 256 + (address.getD 3 0).toNat)
    else .ok 0
  else .ok scopeId

/-- The scope of the address of a row. -/
def rowScope (platform : Platform) (family : AddressFamily) (addr : SocketAddress)
    (address : List UInt8) : Result ℕ :=
  match family with
  | .ipv4 => .ok 0
  | .ipv6 => scopeOf platform addr address

/-- The bytes of the netmask of a row, which may have none. -/
def rowNetmask (platform : Platform) (family : AddressFamily) :
    Option SocketAddress → Result (Option (List UInt8))
  | none => .ok none
  | some netmask => (copyNetmaskBytes platform netmask family).map some

/-- The part of `convert_ifaddrs_row` for an IPv4 or IPv6 address. -/
def convertAddress (platform : Platform) (family : AddressFamily) (native : ℕ)
    (addr : SocketAddress) (netmask : Option SocketAddress) : Result UnicastRecord :=
  if netmask.any (fun m => m.family ≠ native ∧ m.family ≠ platform.afUnspec ∧ m.family ≠ 0) then
    fail .malformedData
  else do
    let bytes ← rowNetmask platform family netmask
    let address ← slice addr.memory (addressOffset family) (octetCount family)
    let scopeId ← rowScope platform family addr address
    makeRecord family address bytes scopeId

/-- The `AF_PACKET` part: `sll_halen` and `sll_addr` of a `sockaddr_ll`. -/
def packetAddress (addr : SocketAddress) : Result (List UInt8) := do
  let length ← readByte addr.memory 11
  if length > 8 then fail .notSupported else slice addr.memory 12 length

/-- The `AF_LINK` part: `sdl_len`, `sdl_nlen`, `sdl_alen` and `sdl_data` of a `sockaddr_dl`. An
address of no bytes leaves the hardware address as it is. -/
def linkAddress (addr : SocketAddress) : Result (Option (List UInt8)) := do
  let nameLength ← readByte addr.memory 5
  let addressLength ← readByte addr.memory 6
  let totalLength ← readByte addr.memory 0
  let available := if totalLength > 8 + nameLength then totalLength - (8 + nameLength) else 0
  if addressLength > available then fail .malformedData
  else if addressLength > 0 then (slice addr.memory (8 + nameLength) addressLength).map some
  else .ok none

/-- The MTU of a new interface; the data of the row is the second choice. -/
def rowMtu (platform : Platform) (api : InterfaceApi) (row : Ifaddrs) (name : List UInt8) :
    Result ℕ :=
  match api.mtuOf name with
  | .ok mtu => .ok mtu
  | .error error =>
    match row.data with
    | some mtu => if platform.linkMtu ∧ mtu > 0 then .ok (mtu % 2 ^ 32) else .error error
    | none => .error error

/-- The interface of a row, which may be new: its position, and the interfaces. -/
def findOrCreate (platform : Platform) (api : InterfaceApi) (row : Ifaddrs) (name : List UInt8)
    (interfaces : List InterfaceRecord) : Result (ℕ × List InterfaceRecord) :=
  match interfaces.findIdx? fun entry => entry.name = name with
  | some i => .ok (i, interfaces)
  | none => do
    let index ← api.indexOf name
    let mtuBytes ← rowMtu platform api row name
    .ok (interfaces.length, interfaces ++ [{ name, index, mtuBytes }])

/-- What the socket address of a row changes in its interface. -/
def convertRowAddress (platform : Platform) (row : Ifaddrs) (addr : SocketAddress)
    (entry : InterfaceRecord) : Result InterfaceRecord :=
  if addr.family = platform.afInet then do
    let record ← convertAddress platform .ipv4 platform.afInet addr row.netmask
    .ok { entry with addresses := entry.addresses ++ [record] }
  else if addr.family = platform.afInet6 then do
    let record ← convertAddress platform .ipv6 platform.afInet6 addr row.netmask
    .ok { entry with addresses := entry.addresses ++ [record] }
  else if platform.afPacket = some addr.family then do
    let hardwareAddress ← packetAddress addr
    .ok { entry with hardwareAddress }
  else if platform.afPacket = none ∧ platform.afLink = some addr.family then do
    let hardwareAddress ← linkAddress addr
    .ok { entry with hardwareAddress := hardwareAddress.getD entry.hardwareAddress }
  else .ok entry

/-- The flags of a row say how its interface is. -/
def withFlags (platform : Platform) (row : Ifaddrs) (entry : InterfaceRecord) : InterfaceRecord :=
  { entry with
    state := classifyState platform row.flags
    loopback := row.flags &&& platform.iffLoopback ≠ 0 }

/-- `convert_ifaddrs_row`; an error ends the whole query. -/
def convertIfaddrsRow (platform : Platform) (api : InterfaceApi)
    (interfaces : List InterfaceRecord) (row : Ifaddrs) : Result (List InterfaceRecord) :=
  match row.name with
  | none => fail .malformedData
  | some name => do
    let (i, interfaces) ← findOrCreate platform api row name interfaces
    let interfaces := interfaces.modify i (withFlags platform row)
    match row.addr, interfaces[i]? with
    | some addr, some entry => do
      let entry ← convertRowAddress platform row addr entry
      .ok (interfaces.set i entry)
    | _, _ => .ok interfaces

/-- `convert_ifaddrs`. -/
def convertIfaddrs (platform : Platform) (api : InterfaceApi) (rows : List Ifaddrs) :
    Result (List InterfaceRecord) :=
  rows.foldlM (convertIfaddrsRow platform api) []

end Source

section Netmasks
variable {bytes : List UInt8} {p q maximum : ℕ}

/-- The bits of the mask are `p` ones, and zeros behind them. -/
def Contiguous (p : ℕ) (bytes : List UInt8) : Prop :=
  ∃ zeros, Bits.ofBytes bytes = List.replicate p true ++ List.replicate zeros false

/-- The number of ones is unique. -/
theorem Contiguous.unique (hp : Contiguous p bytes) (hq : Contiguous q bytes) : p = q := by
  have hcount {p : ℕ} (h : Contiguous p bytes) : (Bits.ofBytes bytes).count true = p := by
    obtain ⟨zeros, hbits⟩ := h
    rw [hbits, List.count_append, List.count_replicate_self, List.count_replicate]
    rfl
  rw [← hcount hp, hcount hq]

/-- A mask of one length is the rendering of its prefix. -/
theorem contiguous_iff :
    Contiguous p bytes ↔ p ≤ 8 * bytes.length ∧ bytes = netmask bytes.length p := by
  constructor
  · rintro ⟨zeros, hbits⟩
    have hlength := congrArg List.length hbits
    rw [Bits.length_ofBytes, List.length_append, List.length_replicate, List.length_replicate]
      at hlength
    refine ⟨by omega, ?_⟩
    rw [← Bits.ofBytes_inj, hbits, ofBytes_netmask (by omega)]
    congr 2
    omega
  · rintro ⟨hle, hbytes⟩
    refine ⟨8 * bytes.length - p, ?_⟩
    conv_lhs => rw [hbytes]
    exact ofBytes_netmask hle

lemma snd_maskLoop (byte k n : ℕ) : (maskLoop byte k n).2 = (maskLoop byte k 0).2 := by
  induction k generalizing n with
  | zero => rfl
  | succ k ih =>
    rw [maskLoop, maskLoop]
    split_ifs
    · rw [ih, ih (0 + 1)]
    · rfl

/-- In a byte whose bits are ones first, there are seven ones at most. -/
lemma exists_ones (byte : UInt8) (hbyte : byte ≠ 0xFF)
    (h : byte.toNat &&& ((maskLoop byte.toNat 8 0).2 - 1) = 0) :
    ∃ k < 8, byte = UInt8.ofNat (256 - 2 ^ (8 - k)) := by
  have hall : ∀ i : Fin 256, i.val ≠ 255 → i.val &&& ((maskLoop i.val 8 0).2 - 1) = 0 →
      ∃ k < 8, i.val = 256 - 2 ^ (8 - k) := by decide +kernel
  obtain ⟨k, hk, hvalue⟩ := hall ⟨byte.toNat, byte.toNat_lt⟩
    (fun hval => hbyte (UInt8.toNat_inj.mp hval)) h
  refine ⟨k, hk, ?_⟩
  rw [← hvalue, UInt8.ofNat_toNat]

lemma netmaskLoop_mid (bytes : List UInt8) (n : ℕ) :
    netmaskLoop bytes n true = fail .malformedData ∨ bytes = netmask bytes.length 0 := by
  induction bytes with
  | nil => exact .inr rfl
  | cons byte bytes ih =>
    unfold netmaskLoop
    rw [if_pos rfl]
    split_ifs with hbyte
    · exact .inl rfl
    · rw [ne_eq, not_not] at hbyte
      refine ih.imp_right fun hbytes => ?_
      conv_lhs => rw [hbytes, hbyte]
      rfl

/-- What is not refused is a rendering. -/
lemma netmaskLoop_cases (bytes : List UInt8) (n : ℕ) :
    netmaskLoop bytes n false = fail .malformedData ∨
      ∃ p ≤ 8 * bytes.length, bytes = netmask bytes.length p := by
  induction bytes generalizing n with
  | nil => exact .inr ⟨0, le_rfl, rfl⟩
  | cons byte bytes ih =>
    unfold netmaskLoop
    rw [if_neg (by decide)]
    by_cases hbyte : byte = 0xFF
    · rw [if_pos hbyte]
      refine (ih (n + 8)).imp_right ?_
      rintro ⟨p, hp, hbytes⟩
      refine ⟨p + 8, by rw [List.length_cons]; omega, ?_⟩
      rw [List.length_cons, netmask, Nat.add_sub_cancel, ← hbytes, show 8 - (p + 8) = 0 by omega,
        hbyte]
      rfl
    · rw [if_neg hbyte]
      simp only
      rw [snd_maskLoop]
      split_ifs with hbits
      · exact .inl rfl
      · rw [ne_eq, not_not] at hbits
        obtain ⟨k, hk, hones⟩ := exists_ones byte hbyte hbits
        refine (netmaskLoop_mid bytes _).imp_right fun hbytes => ?_
        refine ⟨k, by rw [List.length_cons]; omega, ?_⟩
        rw [List.length_cons, netmask, ← hones, Nat.sub_eq_zero_of_le (Nat.le_of_lt hk), ← hbytes]

/-- The loop with the counter of 8 bits, beside the loop with an unbounded one. -/
lemma bitLoop_eq (byte k n : ℕ) :
    bitLoop byte k (n % 256) = ((maskLoop byte k n).1 % 256, (maskLoop byte k n).2) := by
  induction k generalizing n with
  | zero => rfl
  | succ k ih =>
    rw [bitLoop, maskLoop, Nat.mod_add_mod, ih]
    split_ifs <;> rfl

lemma byteLoop_eq (bytes : List UInt8) (n : ℕ) (partialSeen : Bool) :
    byteLoop bytes (n % 256) partialSeen =
      (netmaskLoop bytes n partialSeen).map fun length => length % 256 := by
  induction bytes generalizing n partialSeen with
  | nil => rfl
  | cons byte bytes ih =>
    unfold byteLoop netmaskLoop
    rw [bitLoop_eq, Nat.mod_add_mod, ih, ih]
    simp only [ih]
    split_ifs <;> rfl

/-- The prefix of a contiguous mask is counted with 8 bits. -/
theorem prefixFromNetmask_of_contiguous (h : Contiguous p bytes) (maximum : ℕ) :
    prefixFromNetmask bytes maximum =
      if p % 256 > maximum then fail .malformedData else .ok (p % 256) := by
  obtain ⟨hle, hbytes⟩ := contiguous_iff.mp h
  have hloop := byteLoop_eq bytes 0 false
  rw [hbytes, netmaskLoop_netmask hle, Nat.zero_add, ← hbytes] at hloop
  unfold prefixFromNetmask
  rw [Nat.zero_mod] at hloop
  rw [hloop]
  rfl

theorem prefixFromNetmask_of_not_contiguous (h : ¬ ∃ p, Contiguous p bytes) (maximum : ℕ) :
    prefixFromNetmask bytes maximum = fail .malformedData := by
  have hloop := byteLoop_eq bytes 0 false
  rcases netmaskLoop_cases bytes 0 with hfail | ⟨p, hp, hbytes⟩
  · rw [hfail, Nat.zero_mod] at hloop
    unfold prefixFromNetmask
    rw [hloop]
    rfl
  · exact absurd ⟨p, contiguous_iff.mpr ⟨hp, hbytes⟩⟩ h

/-- A mask whose bits the result can count. -/
theorem prefixFromNetmask_eq_ok_iff (hsize : bytes.length < 32)
    (hmaximum : 8 * bytes.length ≤ maximum) :
    prefixFromNetmask bytes maximum = .ok p ↔ Contiguous p bytes := by
  by_cases h : ∃ q, Contiguous q bytes
  · obtain ⟨q, hq⟩ := h
    have hle := (contiguous_iff.mp hq).1
    rw [prefixFromNetmask_of_contiguous hq, Nat.mod_eq_of_lt (by omega), if_neg (by omega)]
    constructor
    · intro heq
      cases heq
      exact hq
    · intro hp
      rw [hp.unique hq]
  · rw [prefixFromNetmask_of_not_contiguous h]
    simp only [fail_ne_ok, false_iff]
    exact fun hp => h ⟨p, hp⟩

theorem contiguous_netmask {size : ℕ} (h : p ≤ 8 * size) : Contiguous p (netmask size p) :=
  contiguous_iff.mpr ⟨by rwa [length_netmask], by rw [length_netmask]⟩

end Netmasks

section Rows
variable {platform : Platform} {api : InterfaceApi} {row : Ifaddrs} {family : AddressFamily}
  {interfaces result : List InterfaceRecord} {record : UnicastRecord}

/-- The prefix is that of the netmask of the row, and its bits are ones first. -/
def Reported (platform : Platform) (row : Ifaddrs) (record : UnicastRecord) : Prop :=
  ∃ mask bytes, row.netmask = some mask ∧ copyNetmaskBytes platform mask record.family = .ok bytes ∧
    Contiguous record.prefixLength bytes

lemma length_netmaskBytes {data bytes : List UInt8} {mask recorded offset size : ℕ}
    (h : netmaskBytes data mask recorded offset size = .ok bytes) : bytes.length = size := by
  unfold netmaskBytes at h
  split_ifs at h
  · obtain ⟨copied, hcopied, hok⟩ := bind_eq_ok.mp h
    have hlength := congrArg List.length (slice_eq_ok.mp hcopied).2
    rw [List.length_take] at hlength
    cases hok
    rw [List.length_append, List.length_replicate]
    omega
  · cases h
    exact List.length_replicate

/-- A record of a row has the prefix of its netmask. -/
lemma convertAddress_reported {native : ℕ} {addr : SocketAddress}
    (h : convertAddress platform family native addr row.netmask = .ok record) :
    Reported platform row record := by
  unfold convertAddress at h
  split_ifs at h
  · cases h
  · obtain ⟨bytes, hbytes, h⟩ := bind_eq_ok.mp h
    obtain ⟨address, -, h⟩ := bind_eq_ok.mp h
    obtain ⟨scopeId, -, h⟩ := bind_eq_ok.mp h
    unfold makeRecord at h
    cases hmask : row.netmask with
    | none =>
      rw [hmask] at hbytes
      cases hbytes
      cases h
    | some mask =>
      rw [hmask] at hbytes
      obtain ⟨copied, hcopied, rfl⟩ := map_eq_ok.mp hbytes
      obtain ⟨length, hlength, hok⟩ := bind_eq_ok.mp h
      cases hok
      refine ⟨mask, copied, hmask, hcopied, ?_⟩
      have hsize := length_netmaskBytes hcopied
      refine (prefixFromNetmask_eq_ok_iff ?_ ?_).mp hlength
      · rw [hsize]
        cases family <;> decide
      · rw [hsize]
        cases family <;> decide

lemma convertRowAddress_reported {addr : SocketAddress} {entry out : InterfaceRecord}
    (h : convertRowAddress platform row addr entry = .ok out) :
    ∀ record ∈ out.addresses, record ∈ entry.addresses ∨ Reported platform row record := by
  have hadded {family : AddressFamily} {native : ℕ}
      (h : (convertAddress platform family native addr row.netmask >>= fun record =>
        (.ok { entry with addresses := entry.addresses ++ [record] } : Result _)) = .ok out) :
      ∀ record ∈ out.addresses, record ∈ entry.addresses ∨ Reported platform row record := by
    obtain ⟨added, hadded, hok⟩ := bind_eq_ok.mp h
    cases hok
    intro record hrecord
    rcases List.mem_append.mp hrecord with hold | hnew
    · exact .inl hold
    · rw [List.mem_singleton.mp hnew]
      exact .inr (convertAddress_reported hadded)
  unfold convertRowAddress at h
  split_ifs at h
  · exact hadded h
  · exact hadded h
  · obtain ⟨_, -, hok⟩ := bind_eq_ok.mp h
    cases hok
    exact fun record hrecord => .inl hrecord
  · obtain ⟨_, -, hok⟩ := bind_eq_ok.mp h
    cases hok
    exact fun record hrecord => .inl hrecord
  · cases h
    exact fun record hrecord => .inl hrecord

/-- The records of an interface are old ones if its state alone has changed. -/
lemma exists_of_mem_modify {entry : InterfaceRecord} {i : ℕ}
    (h : entry ∈ interfaces.modify i (withFlags platform row)) :
    ∃ e ∈ interfaces, e.addresses = entry.addresses := by
  obtain ⟨j, hj⟩ := List.mem_iff_getElem?.mp h
  rw [List.getElem?_modify] at hj
  obtain ⟨e, he, hentry⟩ := Option.map_eq_some_iff.mp hj
  refine ⟨e, List.mem_of_getElem? he, ?_⟩
  rw [← hentry]
  split_ifs
  · rfl
  · rfl

lemma exists_of_mem_findOrCreate {name : List UInt8} {i : ℕ} {found : List InterfaceRecord}
    (h : findOrCreate platform api row name interfaces = .ok (i, found)) {entry : InterfaceRecord}
    (hentry : entry ∈ found) (hrecord : record ∈ entry.addresses) :
    ∃ e ∈ interfaces, record ∈ e.addresses := by
  unfold findOrCreate at h
  split at h
  · cases h
    exact ⟨entry, hentry, hrecord⟩
  · obtain ⟨index, -, h⟩ := bind_eq_ok.mp h
    obtain ⟨mtuBytes, -, hok⟩ := bind_eq_ok.mp h
    cases hok
    rcases List.mem_append.mp hentry with hold | hnew
    · exact ⟨entry, hold, hrecord⟩
    · rw [List.mem_singleton.mp hnew] at hrecord
      cases hrecord

/-- Every record behind a row was there before, or has the prefix of the row's netmask. -/
theorem convertIfaddrsRow_reported
    (h : convertIfaddrsRow platform api interfaces row = .ok result) :
    ∀ entry ∈ result, ∀ record ∈ entry.addresses,
      (∃ e ∈ interfaces, record ∈ e.addresses) ∨ Reported platform row record := by
  unfold convertIfaddrsRow at h
  split at h
  · cases h
  · obtain ⟨⟨i, found⟩, hfound, h⟩ := bind_eq_ok.mp h
    have hold {entry : InterfaceRecord} (hentry : entry ∈ found.modify i (withFlags platform row))
        {record : UnicastRecord} (hrecord : record ∈ entry.addresses) :
        ∃ e ∈ interfaces, record ∈ e.addresses := by
      obtain ⟨e, he, haddresses⟩ := exists_of_mem_modify hentry
      exact exists_of_mem_findOrCreate hfound he (haddresses ▸ hrecord)
    simp only at h
    split at h
    · next addr entry haddr hentry =>
      obtain ⟨out, hout, hok⟩ := bind_eq_ok.mp h
      cases hok
      intro e he record hrecord
      rcases List.mem_or_eq_of_mem_set he with he | rfl
      · exact .inl (hold he hrecord)
      · refine (convertRowAddress_reported hout record hrecord).imp_left fun hrecord => ?_
        exact hold (List.mem_of_getElem? hentry) hrecord
    · cases h
      intro e he record hrecord
      exact .inl (hold he hrecord)

lemma foldlM_reported {rows : List Ifaddrs}
    (h : rows.foldlM (convertIfaddrsRow platform api) interfaces = .ok result) :
    ∀ entry ∈ result, ∀ record ∈ entry.addresses,
      (∃ e ∈ interfaces, record ∈ e.addresses) ∨ ∃ row ∈ rows, Reported platform row record := by
  induction rows generalizing interfaces with
  | nil =>
    cases h
    exact fun entry hentry record hrecord => .inl ⟨entry, hentry, hrecord⟩
  | cons row rows ih =>
    rw [List.foldlM_cons] at h
    obtain ⟨next, hnext, h⟩ := bind_eq_ok.mp h
    intro entry hentry record hrecord
    rcases ih h entry hentry record hrecord with ⟨e, he, hrecord⟩ | ⟨row', hrow', hreported⟩
    · refine (convertIfaddrsRow_reported hnext e he record hrecord).imp_right fun hreported => ?_
      exact ⟨row, by simp, hreported⟩
    · exact .inr ⟨row', by simp [hrow'], hreported⟩

/-- In the whole list, every prefix is that of a netmask whose bits are ones first. -/
theorem convertIfaddrs_reported {rows : List Ifaddrs}
    (h : convertIfaddrs platform api rows = .ok result) :
    ∀ entry ∈ result, ∀ record ∈ entry.addresses, ∃ row ∈ rows, Reported platform row record := by
  intro entry hentry record hrecord
  rcases foldlM_reported h entry hentry record hrecord with ⟨e, he, -⟩ | hreported
  · cases he
  · exact hreported

/-- A mask succeeds exactly if its bits are ones first, and gives their number, as far as 8 bits
can count them and the largest prefix allows; so it does for all masks of addresses. -/
theorem prefix_from_netmask :
    (∀ bytes p maximum, Contiguous p bytes → prefixFromNetmask bytes maximum =
      if p % 256 > maximum then fail .malformedData else .ok (p % 256)) ∧
    (∀ bytes maximum, (¬ ∃ p, Contiguous p bytes) →
      prefixFromNetmask bytes maximum = fail .malformedData) ∧
    (∀ bytes maximum p, bytes.length < 32 → 8 * bytes.length ≤ maximum →
      (prefixFromNetmask bytes maximum = .ok p ↔ Contiguous p bytes)) ∧
    (∀ bytes p q, Contiguous p bytes → Contiguous q bytes → p = q) ∧
    (∀ size maximum p, size < 32 → 8 * size ≤ maximum → p ≤ 8 * size →
      prefixFromNetmask (netmask size p) maximum = .ok p) ∧
    ∀ platform api row interfaces result,
      convertIfaddrsRow platform api interfaces row = .ok result →
      ∀ entry ∈ result, ∀ record ∈ entry.addresses,
        (∃ e ∈ interfaces, record ∈ e.addresses) ∨ Reported platform row record := by
  refine ⟨?_, ?_, ?_, ?_, ?_, ?_⟩
  · exact fun bytes p maximum h => prefixFromNetmask_of_contiguous h maximum
  · exact fun bytes maximum h => prefixFromNetmask_of_not_contiguous h maximum
  · exact fun bytes maximum p hsize hmaximum => prefixFromNetmask_eq_ok_iff hsize hmaximum
  · exact fun bytes p q hp hq => hp.unique hq
  · intro size maximum p hsize hmaximum hp
    refine (prefixFromNetmask_eq_ok_iff ?_ ?_).mpr (contiguous_netmask hp)
    · rwa [length_netmask]
    · rwa [length_netmask]
  · exact fun platform api row interfaces result h => convertIfaddrsRow_reported h

/-- The bits of 32 bytes are too many to be counted. -/
theorem prefix_from_netmask_wraps :
    Contiguous 256 (List.replicate 32 0xFF) ∧
      prefixFromNetmask (List.replicate 32 0xFF) 255 = .ok 0 := by
  have hones : Contiguous 256 (List.replicate 32 0xFF) :=
    @contiguous_netmask 256 32 (by decide)
  refine ⟨hones, ?_⟩
  rw [prefixFromNetmask_of_contiguous hones]
  rfl

end Rows

end Syscape.InterfacesPosix
