import Syscape.Connection
import Syscape.Lib.Paths
import Mathlib.Data.List.Dedup
import Mathlib.Data.List.Perm.Basic

/-!
# The socket tables of the kernel

The rows that the kernel prints for its sockets, and the entries of `/proc` that it makes
for the descriptors of the processes. The connections are the left join of the sockets with
the processes: a socket once for each of its owners, or once without an owner.
-/
namespace Syscape.Connection
open Checked Text Lines FromChars StdSort Endian Numbers Digits Numerals
open Syscape.Software (isspace isspace_eq_false)

section Rendering

/-- The bytes of an address. -/
def addressBytes : AddressFamily → ℕ
  | .ipv4 => 4
  | .ipv6 => 16

/-- One end of a socket; the bytes of the address are in network order. -/
structure Endpoint (family : AddressFamily) where
  address : Vector UInt8 (addressBytes family)
  port : ℕ
  port_lt : port < 2 ^ 16

/-- A socket, with the other columns that the kernel prints for it. -/
structure Socket (family : AddressFamily) where
  slot : ℕ
  localEnd : Endpoint family
  remoteEnd : Endpoint family
  state : TcpState
  state_known : state ≠ .unknown
  sendQueue : ℕ
  sendQueue_lt : sendQueue < 2 ^ 32
  receiveQueue : ℕ
  receiveQueue_lt : receiveQueue < 2 ^ 32
  timer : ℕ
  timerExpires : ℕ
  retransmits : ℕ
  uid : ℕ
  uid_lt : uid < 2 ^ 32
  timeout : ℕ
  inode : ℕ
  inode_lt : inode < 2 ^ 64
  /-- What stands behind the inode, and the blanks up to the width of the row. -/
  more : List UInt8
  more_head : ∀ c ∈ more.head?, c = 0x20
  more_line : 0x0A ∉ more

/-- Four bytes of an address as one word of the machine. -/
def addressWord (order : ByteOrder) (bytes : List UInt8) : List UInt8 :=
  paddedHex 8 (value order bytes)

def addressText (order : ByteOrder) :
    (family : AddressFamily) → Vector UInt8 (addressBytes family) → List UInt8
  | .ipv4, address => addressWord order address.toList
  | .ipv6, address =>
    addressWord order (address.toList.take 4) ++
      addressWord order ((address.toList.drop 4).take 4) ++
      addressWord order ((address.toList.drop 8).take 4) ++
      addressWord order ((address.toList.drop 12).take 4)

variable {family : AddressFamily}

def Endpoint.text (order : ByteOrder) (e : Endpoint family) : List UInt8 :=
  addressText order family e.address ++ 0x3A :: paddedHex 4 e.port

/-- The slot has one more column in the tables of UDP. -/
def slotWidth : Protocol → ℕ
  | .tcp => 4
  | .udp => 5

/-- The columns behind the slot, each with the blanks in front of it. -/
def Socket.columns (order : ByteOrder) (s : Socket family) : List (List UInt8 × List UInt8) :=
  [([0x20], s.localEnd.text order),
    ([0x20], s.remoteEnd.text order),
    ([0x20], paddedHex 2 s.state.number),
    ([0x20], paddedHex 8 s.sendQueue ++ 0x3A :: paddedHex 8 s.receiveQueue),
    ([0x20], paddedHex 2 s.timer ++ 0x3A :: paddedHex 8 s.timerExpires),
    ([0x20], paddedHex 8 s.retransmits),
    (0x20 :: List.replicate (5 - (decimal s.uid).length) 0x20, decimal s.uid),
    (0x20 :: List.replicate (8 - (decimal s.timeout).length) 0x20, decimal s.timeout),
    ([0x20], decimal s.inode)]

/-- The row that the kernel prints, without its newline. -/
def Socket.row (order : ByteOrder) (proto : Protocol) (s : Socket family) : List UInt8 :=
  paddedDecimal (slotWidth proto) s.slot ++ 0x3A ::
    ((s.columns order).flatMap (fun column => column.1 ++ column.2) ++ s.more)

end Rendering

section Expected

/-- An address as a record has it: in network order, the bytes behind it zero. -/
def addressValue : (family : AddressFamily) → Vector UInt8 (addressBytes family) → Vector UInt8 16
  | .ipv4, address => (address : Vector UInt8 4) ++ (Vector.replicate 12 0 : Vector UInt8 12)
  | .ipv6, address => address

variable {family : AddressFamily}

def Endpoint.record (e : Endpoint family) : SocketEndpointRecord :=
  ⟨⟨family, addressValue family e.address, 0⟩, e.port⟩

/-- An end that is bound to no address and no port. -/
def Endpoint.Unbound (e : Endpoint family) : Prop :=
  (∀ c ∈ e.address.toList, c = 0) ∧ e.port = 0

instance (e : Endpoint family) : Decidable e.Unbound :=
  inferInstanceAs (Decidable (_ ∧ _))

/-- The record of a socket with an owner or without one; a UDP socket has no TCP state. -/
def Socket.record (proto : Protocol) (s : Socket family) (pid : Option ℕ) : ConnectionRecord where
  transportProtocol := proto
  localEndpoint := s.localEnd.record
  remoteEndpoint := if s.remoteEnd.Unbound then none else some s.remoteEnd.record
  state :=
    match proto with
    | .tcp => s.state
    | .udp => .unknown
  pid := pid
  uid := some s.uid
  inode := some s.inode
  sendQueueBytes := some s.sendQueue
  receiveQueueBytes := some s.receiveQueue

end Expected

section Numbers
variable {n max : ℕ}

theorem parseUnsigned_paddedHex (width : ℕ) (hmax : n ≤ max) :
    parseUnsigned 16 max (paddedHex width n) = some n :=
  numberOf_numeral (numeral_paddedHex width n) hmax

theorem parseUnsigned_decimal (hmax : n ≤ max) : parseUnsigned 10 max (decimal n) = some n :=
  numberOf_numeral (numeral_decimal n) hmax

/-- Neither a number nor a number with a colon and another one behind it has a blank. -/
theorem mem_paddedHex {width : ℕ} {c : UInt8} (hc : c ∈ paddedHex width n) :
    0x30 ≤ c ∧ c ≠ 0x3A := by
  have h := mem_numeral (numeral_paddedHex width n) (by decide) hc
  exact ⟨h.1, h.2.2⟩

theorem le_of_mem_pair {left right : List UInt8} (hleft : ∀ c ∈ left, 0x30 ≤ c)
    (hright : ∀ c ∈ right, 0x30 ≤ c) : ∀ c ∈ left ++ 0x3A :: right, (0x30 : UInt8) ≤ c := by
  intro c hc
  rcases List.mem_append.mp hc with hc | hc
  · exact hleft c hc
  · rcases List.mem_cons.mp hc with rfl | hc
    · decide
    · exact hright c hc

end Numbers

section Addresses
variable {order : ByteOrder}

theorem ofNat_and_255 (n : ℕ) : UInt8.ofNat (n &&& 0xFF) = UInt8.ofNat n := by
  apply UInt8.toNat_inj.mp
  rw [UInt8.toNat_ofNat', UInt8.toNat_ofNat', Nat.and_two_pow_sub_one_eq_mod n 8]
  omega

/-- A word is stored with the bytes that it has in memory. -/
theorem toList_storeProcAddressWord (order : ByteOrder) (n : ℕ) :
    (storeProcAddressWord order n).toList = encode order 4 n := by
  have h16 : n >>> 16 = n / 256 / 256 := by
    rw [Nat.shiftRight_eq_div_pow]
    omega
  have h24 : n >>> 24 = n / 256 / 256 / 256 := by
    rw [Nat.shiftRight_eq_div_pow]
    omega
  have h8 : n >>> 8 = n / 256 := by rw [Nat.shiftRight_eq_div_pow]
  cases order with
  | little =>
    simp only [storeProcAddressWord, ofNat_and_255, h8, h16, h24]
    rfl
  | big =>
    simp only [storeProcAddressWord, ofNat_and_255, h8, h16, h24]
    rfl

/-- Reading a word back gives the bytes that it was printed for. -/
theorem storeProcAddressWord_value {bytes : List UInt8} (h : bytes.length = 4) :
    (storeProcAddressWord order (value order bytes)).toList = bytes := by
  rw [toList_storeProcAddressWord, encode_value order h]

theorem value_le {bytes : List UInt8} (h : bytes.length = 4) : value order bytes ≤ uint32Max := by
  have hlt := value_lt order bytes
  rw [h] at hlt
  unfold uint32Max
  omega

theorem parseUnsigned_addressWord {bytes : List UInt8} (h : bytes.length = 4) :
    parseUnsigned 16 uint32Max (addressWord order bytes) = some (value order bytes) :=
  parseUnsigned_paddedHex 8 (value_le h)

theorem length_addressWord {bytes : List UInt8} (h : bytes.length = 4) (order : ByteOrder) :
    (addressWord order bytes).length = 8 := by
  apply length_paddedHex (by decide)
  have hlt := value_lt order bytes
  rwa [h] at hlt

theorem parseHexIpv4_text (address : Vector UInt8 4) :
    parseHexIpv4 order (addressWord order address.toList) = some (addressValue .ipv4 address) := by
  have hlength : address.toList.length = 4 := address.length_toList
  have hstore : storeProcAddressWord order (value order address.toList) = address :=
    Vector.toList_inj.mp (storeProcAddressWord_value hlength)
  rw [parseHexIpv4, if_neg (by simp [length_addressWord hlength]),
    parseUnsigned_addressWord hlength, Option.bind_eq_bind, Option.bind_some, hstore]
  rfl

/-- Four pieces of one length are cut out of a text again. -/
theorem pieces_of_append {k : ℕ} {w0 w1 w2 w3 : List UInt8} (h0 : w0.length = k)
    (h1 : w1.length = k) (h2 : w2.length = k) (h3 : w3.length = k) :
    (w0 ++ w1 ++ w2 ++ w3).take k = w0 ∧ ((w0 ++ w1 ++ w2 ++ w3).drop k).take k = w1 ∧
      ((w0 ++ w1 ++ w2 ++ w3).drop (2 * k)).take k = w2 ∧
      ((w0 ++ w1 ++ w2 ++ w3).drop (3 * k)).take k = w3 := by
  refine ⟨?_, ?_, ?_, ?_⟩
  · rw [List.append_assoc, List.append_assoc, List.take_left' h0]
  · rw [List.append_assoc, List.append_assoc, List.drop_left' h0, List.take_left' h1]
  · rw [List.append_assoc, List.drop_left' (by simp; omega), List.take_left' h2]
  · rw [List.drop_left' (by simp; omega), List.take_of_length_le h3.le]

/-- A text of four pieces is put together from them. -/
theorem append_of_pieces {k : ℕ} {text : List UInt8} (h : text.length = 4 * k) :
    text.take k ++ (text.drop k).take k ++ (text.drop (2 * k)).take k ++
      (text.drop (3 * k)).take k = text := by
  have hlast : (text.drop (3 * k)).take k = text.drop (3 * k) := by
    apply List.take_of_length_le
    rw [List.length_drop]
    omega
  have hnext (i j : ℕ) (hij : j = i + k) : (text.drop i).take k ++ text.drop j = text.drop i := by
    have hsplit := List.take_append_drop k (text.drop i)
    rwa [List.drop_drop, ← hij] at hsplit
  rw [hlast, List.append_assoc, hnext (2 * k) (3 * k) (by omega), List.append_assoc,
    hnext k (2 * k) (by omega), List.take_append_drop]

theorem parseHexIpv6_text (address : Vector UInt8 16) :
    parseHexIpv6 order (addressText order .ipv6 address) = some (addressValue .ipv6 address) := by
  have hlength : address.toList.length = 16 := address.length_toList
  have hword (k : ℕ) (hk : k ≤ 12) : ((address.toList.drop k).take 4).length = 4 := by
    rw [List.length_take, List.length_drop, hlength]
    omega
  have hword0 : (address.toList.take 4).length = 4 := hword 0 (by decide)
  have hword4 := hword 4 (by decide)
  have hword8 := hword 8 (by decide)
  have hword12 := hword 12 (by decide)
  have htext : addressText order .ipv6 address =
      addressWord order (address.toList.take 4) ++
        addressWord order ((address.toList.drop 4).take 4) ++
        addressWord order ((address.toList.drop 8).take 4) ++
        addressWord order ((address.toList.drop 12).take 4) := rfl
  obtain ⟨hpiece0, hpiece1, hpiece2, hpiece3⟩ := pieces_of_append
    (length_addressWord hword0 order) (length_addressWord hword4 order)
    (length_addressWord hword8 order) (length_addressWord hword12 order)
  rw [← htext] at hpiece0 hpiece1 hpiece2 hpiece3
  have hsize : (addressText order .ipv6 address).length = 32 := by
    rw [htext]
    simp only [List.length_append, length_addressWord hword0, length_addressWord hword4,
      length_addressWord hword8, length_addressWord hword12]
  have hstore : storeProcAddressWord order (value order (address.toList.take 4)) ++
      storeProcAddressWord order (value order ((address.toList.drop 4).take 4)) ++
      storeProcAddressWord order (value order ((address.toList.drop 8).take 4)) ++
      storeProcAddressWord order (value order ((address.toList.drop 12).take 4)) = address := by
    apply Vector.toList_inj.mp
    simp only [Vector.toList_append, storeProcAddressWord_value hword0,
      storeProcAddressWord_value hword4, storeProcAddressWord_value hword8,
      storeProcAddressWord_value hword12]
    exact append_of_pieces (k := 4) hlength
  rw [parseHexIpv6, if_neg (by simp [hsize]), hpiece0, hpiece1, hpiece2, hpiece3,
    parseUnsigned_addressWord hword0, parseUnsigned_addressWord hword4,
    parseUnsigned_addressWord hword8, parseUnsigned_addressWord hword12]
  exact congrArg some hstore

variable {family : AddressFamily}

theorem mem_addressText {address : Vector UInt8 (addressBytes family)} {c : UInt8}
    (hc : c ∈ addressText order family address) : 0x30 ≤ c ∧ c ≠ 0x3A := by
  cases family with
  | ipv4 => exact mem_paddedHex hc
  | ipv6 =>
    simp only [addressText, addressWord, List.mem_append] at hc
    rcases hc with ((hc | hc) | hc) | hc <;> exact mem_paddedHex hc

theorem parseHexAddress_text (address : Vector UInt8 (addressBytes family)) :
    parseHexAddress order family (addressText order family address) =
      some (addressValue family address) := by
  cases family with
  | ipv4 => exact parseHexIpv4_text address
  | ipv6 => exact parseHexIpv6_text address

theorem parseEndpoint_text (e : Endpoint family) :
    parseEndpoint order family (e.text order) = some e.record := by
  have hcolon : (0x3A : UInt8) ∉ addressText order family e.address :=
    fun h => (mem_addressText h).2 rfl
  have hport : parseUnsigned 16 uint32Max (paddedHex 4 e.port) = some e.port := by
    apply parseUnsigned_paddedHex
    have hlt := e.port_lt
    unfold uint32Max
    omega
  have hle : ¬ e.port > 65535 := by
    have hlt := e.port_lt
    omega
  rw [parseEndpoint, Endpoint.text, Paths.idxOf?_append_cons hcolon]
  dsimp only
  rw [List.take_left, parseHexAddress_text, List.drop_length_add_append]
  simp only [List.drop_succ_cons, List.drop_zero, hport, Option.bind_eq_bind, Option.bind_some,
    if_neg hle]
  rfl

theorem isUnspecifiedAddress_value (address : Vector UInt8 (addressBytes family)) :
    isUnspecifiedAddress family (addressValue family address) = true ↔
      ∀ c ∈ address.toList, c = 0 := by
  cases family with
  | ipv4 =>
    have hlength : (address : Vector UInt8 4).toList.length = 4 := Vector.length_toList
    have htake : ((addressValue .ipv4 address).toList.take 4) = address.toList := by
      show ((address : Vector UInt8 4) ++ (Vector.replicate 12 0 : Vector UInt8 12)).toList.take 4 = _
      rw [Vector.toList_append, List.take_left' hlength]
    rw [isUnspecifiedAddress, htake, List.all_eq_true]
    simp only [beq_iff_eq]
  | ipv6 =>
    show address.toList.all (· == 0) = true ↔ _
    rw [List.all_eq_true]
    simp only [beq_iff_eq]

end Addresses

section Rows
variable {family : AddressFamily} {order : ByteOrder}

/-- The columns have blanks in front of them and none inside. -/
theorem Socket.columns_ok (s : Socket family) (order : ByteOrder) :
    (∀ p ∈ s.columns order, p.1 ≠ [] ∧ ∀ c ∈ p.1, c = 0x20) ∧
      ∀ p ∈ s.columns order, p.2 ≠ [] ∧ ∀ c ∈ p.2, 0x30 ≤ c := by
  have hhex (width n : ℕ) : ∀ c ∈ paddedHex width n, 0x30 ≤ c := fun c hc => (mem_paddedHex hc).1
  have hdecimal (n : ℕ) : ∀ c ∈ decimal n, 0x30 ≤ c := fun c hc =>
    (mem_numeral (numeral_decimal n) (by decide) hc).1
  have hend (e : Endpoint family) : ∀ c ∈ e.text order, 0x30 ≤ c :=
    le_of_mem_pair (fun c hc => (mem_addressText hc).1) (hhex 4 e.port)
  constructor
  · intro p hp
    simp only [Socket.columns, List.mem_cons, List.not_mem_nil, or_false] at hp
    rcases hp with rfl | rfl | rfl | rfl | rfl | rfl | rfl | rfl | rfl <;> simp
  · intro p hp
    simp only [Socket.columns, List.mem_cons, List.not_mem_nil, or_false] at hp
    rcases hp with rfl | rfl | rfl | rfl | rfl | rfl | rfl | rfl | rfl
    · exact ⟨by simp [Endpoint.text], hend _⟩
    · exact ⟨by simp [Endpoint.text], hend _⟩
    · exact ⟨(numeral_paddedHex _ _).ne_nil, hhex _ _⟩
    · exact ⟨by simp, le_of_mem_pair (hhex _ _) (hhex _ _)⟩
    · exact ⟨by simp, le_of_mem_pair (hhex _ _) (hhex _ _)⟩
    · exact ⟨(numeral_paddedHex _ _).ne_nil, hhex _ _⟩
    · exact ⟨decimal_ne_nil _, hdecimal _⟩
    · exact ⟨decimal_ne_nil _, hdecimal _⟩
    · exact ⟨decimal_ne_nil _, hdecimal _⟩

/-- The tokens of a row. -/
theorem Socket.splitBlank_row (s : Socket family) (order : ByteOrder) (proto : Protocol) :
    splitBlank isspace (s.row order proto) =
      (decimal s.slot ++ [0x3A]) ::
        ((s.columns order).map Prod.snd ++ splitBlank isspace s.more) := by
  have hrow : s.row order proto =
      List.replicate (slotWidth proto - (decimal s.slot).length) 0x20 ++
        ((decimal s.slot ++ [0x3A]) ++
          ((s.columns order).flatMap (fun column => column.1 ++ column.2) ++ s.more)) := by
    simp [Socket.row, paddedDecimal, List.leftpad]
  have hslot : ∀ c ∈ decimal s.slot ++ [0x3A], isspace c = false := by
    intro c hc
    apply isspace_eq_false
    rcases List.mem_append.mp hc with hc | hc
    · exact (mem_numeral (numeral_decimal s.slot) (by decide) hc).1
    · rw [List.mem_singleton.mp hc]
      decide
  obtain ⟨hblanks, htokens⟩ := s.columns_ok order
  rw [hrow, splitBlank_append_blanks, splitBlank_token (by simp) hslot, splitBlank_columns]
  · intro p hp
    refine ⟨(hblanks p hp).1, fun c hc => ?_⟩
    rw [(hblanks p hp).2 c hc]
    rfl
  · exact fun p hp => ⟨(htokens p hp).1, fun c hc => isspace_eq_false ((htokens p hp).2 c hc)⟩
  · intro c hc
    rw [s.more_head c hc]
    rfl
  · intro c hc
    obtain rfl : 0x20 = c := by simpa [Socket.columns] using hc
    rfl
  · intro c hc
    rw [(List.mem_replicate.mp hc).2]
    rfl

theorem mapLinuxTcpState_number (state : TcpState) : mapLinuxTcpState state.number = state := by
  cases state <;> rfl

/-- A row is read as the socket that it was printed for, with its first owner. -/
theorem parseProcNetLine_row (s : Socket family) (order : ByteOrder) (proto : Protocol)
    (map : InodePidMap) :
    parseProcNetLine order (s.row order proto) proto family map =
      some (s.record proto (map s.inode).head?) := by
  have hstate : parseUnsigned 16 uint32Max (paddedHex 2 s.state.number) = some s.state.number := by
    apply parseUnsigned_paddedHex
    cases s.state <;> decide
  have hsend : parseUnsigned 16 uint32Max (paddedHex 8 s.sendQueue) = some s.sendQueue :=
    parseUnsigned_paddedHex 8 (le_uint32Max s.sendQueue_lt)
  have hreceive : parseUnsigned 16 uint32Max (paddedHex 8 s.receiveQueue) = some s.receiveQueue :=
    parseUnsigned_paddedHex 8 (le_uint32Max s.receiveQueue_lt)
  have huid : parseUnsigned 10 uint32Max (decimal s.uid) = some s.uid :=
    parseUnsigned_decimal (le_uint32Max s.uid_lt)
  have hinode : parseUnsigned 10 uint64Max (decimal s.inode) = some s.inode :=
    parseUnsigned_decimal (le_uint64Max s.inode_lt)
  have hcolon : (paddedHex 8 s.sendQueue ++ 0x3A :: paddedHex 8 s.receiveQueue).idxOf? 0x3A =
      some (paddedHex 8 s.sendQueue).length :=
    Paths.idxOf?_append_cons (fun h => (mem_paddedHex h).2 rfl) _
  have hunbound : (isUnspecifiedAddress family s.remoteEnd.record.address.value = true ∧
      s.remoteEnd.record.port = 0) ↔ s.remoteEnd.Unbound := by
    rw [Endpoint.record, isUnspecifiedAddress_value]
    rfl
  have hlast : ¬ (decimal s.slot ++ [0x3A]).getLast? ≠ some (0x3A : UInt8) := by simp
  have hone : (0x3A : UInt8) ∉ paddedHex 8 s.receiveQueue := fun h => (mem_paddedHex h).2 rfl
  rw [parseProcNetLine, s.splitBlank_row]
  simp only [Socket.columns, List.map_cons, List.map_nil, List.cons_append, List.nil_append,
    if_neg hlast, parseEndpoint_text, hstate, hcolon, List.take_left, hsend,
    List.drop_length_add_append, List.drop_succ_cons, List.drop_zero, if_neg hone, hreceive, huid,
    hinode, Option.bind_eq_bind, Option.bind_some, hunbound,
    mapLinuxTcpState_number]
  cases proto <;> rfl

end Rows

section Owners

/-- A descriptor of the entry leads to the socket. -/
def ProcEntry.HasOpen (entry : ProcEntry) (inode : ℕ) : Prop :=
  ∃ fd ∈ entry.fds.getD [], fd.name.head? ≠ some 0x2E ∧ fd.target.bind socketInode = some inode

theorem mem_addOwner {pid p inode i : ℕ} {map : InodePidMap} :
    p ∈ addOwner pid map inode i ↔ p ∈ map i ∨ p = pid ∧ inode = i := by
  unfold addOwner
  split_ifs with hmem
  · constructor
    · exact .inl
    · rintro (h | ⟨rfl, rfl⟩)
      · exact h
      · exact hmem
  · by_cases hi : i = inode
    · subst hi
      simp
    · rw [Function.update_of_ne hi]
      simp [Ne.symm hi]

theorem nodup_addOwner {pid inode : ℕ} {map : InodePidMap} (h : ∀ i, (map i).Nodup) (i : ℕ) :
    (addOwner pid map inode i).Nodup := by
  unfold addOwner
  split_ifs with hmem
  · exact h i
  · by_cases hi : i = inode
    · subst hi
      rw [Function.update_self, List.nodup_append]
      refine ⟨h i, List.nodup_singleton pid, ?_⟩
      intro a ha b hb hab
      rw [List.mem_singleton.mp hb] at hab
      exact hmem (hab ▸ ha)
    · rw [Function.update_of_ne hi]
      exact h i

theorem mem_scanDescriptor {pid p i : ℕ} {map : InodePidMap} {fd : FdEntry} :
    p ∈ scanDescriptor pid map fd i ↔
      p ∈ map i ∨ p = pid ∧ fd.name.head? ≠ some 0x2E ∧ fd.target.bind socketInode = some i := by
  unfold scanDescriptor
  split_ifs with hname
  · simp [hname]
  · cases htarget : fd.target.bind socketInode with
    | none => simp
    | some inode => simp [mem_addOwner, hname]

theorem nodup_scanDescriptor {pid : ℕ} {map : InodePidMap} {fd : FdEntry}
    (h : ∀ i, (map i).Nodup) (i : ℕ) : (scanDescriptor pid map fd i).Nodup := by
  unfold scanDescriptor
  split_ifs
  · exact h i
  · cases fd.target.bind socketInode with
    | none => exact h i
    | some inode => exact nodup_addOwner h i

theorem mem_foldl_scanDescriptor {pid p i : ℕ} {fds : List FdEntry} {map : InodePidMap} :
    p ∈ fds.foldl (scanDescriptor pid) map i ↔ p ∈ map i ∨ p = pid ∧
      ∃ fd ∈ fds, fd.name.head? ≠ some 0x2E ∧ fd.target.bind socketInode = some i := by
  induction fds generalizing map with
  | nil => simp
  | cons fd fds ih =>
    rw [List.foldl_cons, ih, mem_scanDescriptor, List.exists_mem_cons_iff]
    tauto

theorem nodup_foldl_scanDescriptor {pid : ℕ} {fds : List FdEntry} {map : InodePidMap}
    (h : ∀ i, (map i).Nodup) : ∀ i, (fds.foldl (scanDescriptor pid) map i).Nodup := by
  induction fds generalizing map with
  | nil => exact h
  | cons fd fds ih => exact ih (nodup_scanDescriptor h)

theorem mem_foldl_scanProcess {p i : ℕ} {entries : List ProcEntry} {map : InodePidMap} :
    p ∈ entries.foldl scanProcess map i ↔
      p ∈ map i ∨ ∃ entry ∈ entries, entryPid entry = some p ∧ entry.HasOpen i := by
  induction entries generalizing map with
  | nil => simp
  | cons entry entries ih =>
    have hentry : p ∈ scanProcess map entry i ↔
        p ∈ map i ∨ entryPid entry = some p ∧ entry.HasOpen i := by
      unfold scanProcess
      cases hpid : entryPid entry with
      | none => simp
      | some pid =>
        dsimp only
        rw [mem_foldl_scanDescriptor, Option.some_inj, eq_comm (a := pid)]
        rfl
    rw [List.foldl_cons, ih, hentry, List.exists_mem_cons_iff, or_assoc]

theorem nodup_foldl_scanProcess {entries : List ProcEntry} {map : InodePidMap}
    (h : ∀ i, (map i).Nodup) : ∀ i, (entries.foldl scanProcess map i).Nodup := by
  induction entries generalizing map with
  | nil => exact h
  | cons entry entries ih =>
    apply ih
    unfold scanProcess
    cases entryPid entry with
    | none => exact h
    | some pid => exact nodup_foldl_scanDescriptor h

/-- The owners of an inode are the processes that have it open. -/
theorem mem_buildInodePidMap {p i : ℕ} {proc : Option (List ProcEntry)} :
    p ∈ buildInodePidMap proc i ↔
      ∃ entry ∈ proc.getD [], entryPid entry = some p ∧ entry.HasOpen i := by
  rw [buildInodePidMap, List.mem_mergeSort, mem_foldl_scanProcess]
  simp

/-- No owner is noted twice. -/
theorem nodup_buildInodePidMap (proc : Option (List ProcEntry)) (i : ℕ) :
    (buildInodePidMap proc i).Nodup := by
  rw [buildInodePidMap, (List.mergeSort_perm _ _).nodup_iff]
  exact nodup_foldl_scanProcess (fun _ => List.nodup_nil) i

end Owners

section Processes

/-- What a descriptor of a process is open on. -/
inductive Descriptor where
  | socket (inode : ℕ) (inode_lt : inode < 2 ^ 64)
  | other (target : List UInt8) (no_socket : ¬ ascii "socket:[" <+: target)

/-- The target of the link for a descriptor. -/
def Descriptor.target : Descriptor → List UInt8
  | .socket inode _ => ascii "socket:[" ++ (decimal inode ++ [0x5D])
  | .other target _ => target

def Descriptor.inode : Descriptor → Option ℕ
  | .socket inode _ => some inode
  | .other _ _ => none

theorem Descriptor.socketInode_target (d : Descriptor) : socketInode d.target = d.inode := by
  cases d with
  | socket inode hlt =>
    have hlength : (decimal inode).length ≤ 20 := length_decimal_le (by decide) (by omega)
    have hpos := List.length_pos_iff.mpr (decimal_ne_nil inode)
    have hascii : (ascii "socket:[").length = 8 := rfl
    have hseen : (ascii "socket:[" ++ (decimal inode ++ [0x5D])).take 255 =
        ascii "socket:[" ++ (decimal inode ++ [0x5D]) := by
      apply List.take_of_length_le
      simp only [List.length_append, List.length_singleton, hascii]
      omega
    have hnumber : ((ascii "socket:[" ++ (decimal inode ++ [0x5D])).drop 8).dropLast.takeWhile
        (fun c => decide (c ≠ 0)) = decimal inode := by
      rw [List.drop_left' hascii, List.dropLast_concat, List.takeWhile_eq_self_iff]
      intro c hc
      have hle := (mem_numeral (numeral_decimal inode) (by decide) hc).1
      rw [decide_eq_true_eq]
      rintro rfl
      exact absurd hle (by decide)
    rw [socketInode, Descriptor.target, hseen, hnumber, if_pos,
      parseUnsigned_decimal (le_uint64Max hlt), Descriptor.inode]
    refine ⟨List.take_left' hascii, ?_, by simp⟩
    simp only [List.length_append, List.length_singleton, hascii]
    omega
  | other target hno =>
    rw [socketInode, if_neg]
    · rfl
    · rintro ⟨htake, -, -⟩
      apply hno
      rw [List.take_take] at htake
      rw [← htake]
      exact List.take_prefix _ _

/-- A process, with its descriptors if the caller may see them. -/
structure Process where
  pid : ℕ
  pid_pos : 0 < pid
  pid_lt : pid < 2 ^ 32
  descriptors : Option (List (ℕ × Descriptor))

/-- The entry of `/proc` for a process. -/
def Process.entry (p : Process) : ProcEntry where
  name := decimal p.pid
  fds := p.descriptors.map fun ds =>
    [⟨ascii ".", none⟩, ⟨ascii "..", none⟩] ++
      ds.map fun d => ⟨decimal d.1, some d.2.target⟩

/-- As far as the caller may see, the process has the socket open. -/
def Process.Owns (p : Process) (inode : ℕ) : Prop :=
  ∃ d ∈ p.descriptors.getD [], d.2.inode = some inode

instance (p : Process) (inode : ℕ) : Decidable (p.Owns inode) :=
  inferInstanceAs (Decidable (∃ d ∈ p.descriptors.getD [], d.2.inode = some inode))

/-- An entry of `/proc` is for a process, or has a name that does not begin with a digit. -/
inductive KernelEntry where
  | process (p : Process)
  | other (entry : ProcEntry) (no_digit : ∀ c ∈ entry.name.head?, ¬ (0x30 ≤ c ∧ c ≤ 0x39))

def KernelEntry.entry : KernelEntry → ProcEntry
  | .process p => p.entry
  | .other entry _ => entry

def KernelEntry.process? : KernelEntry → Option Process
  | .process p => some p
  | .other _ _ => none

theorem Process.entryPid_entry (p : Process) : entryPid p.entry = some p.pid := by
  have hhead : (decimal p.pid).head?.any (fun c => 0x30 ≤ c && c ≤ 0x39) = true := by
    rw [List.head?_eq_some_head (decimal_ne_nil p.pid), Option.any_some]
    have hmem := mem_decimal (List.head_mem (decimal_ne_nil p.pid))
    rw [Bool.and_eq_true, decide_eq_true_eq, decide_eq_true_eq]
    exact ⟨hmem.1, hmem.2⟩
  have hpos := p.pid_pos
  rw [entryPid, Process.entry, if_pos hhead, parseUnsigned_decimal (le_uint32Max p.pid_lt)]
  rw [Option.filter_some, if_pos]
  simp
  omega

theorem entryPid_other {entry : ProcEntry} (h : ∀ c ∈ entry.name.head?, ¬ (0x30 ≤ c ∧ c ≤ 0x39)) :
    entryPid entry = none := by
  rw [entryPid, if_neg]
  cases hname : entry.name.head? with
  | none => simp
  | some c =>
    have hc := h c (by rw [hname]; rfl)
    simpa using hc

theorem Process.hasOpen_entry {p : Process} {inode : ℕ} : p.entry.HasOpen inode ↔ p.Owns inode := by
  have hdot (n : ℕ) : (decimal n).head? ≠ some 0x2E := by
    intro h
    have hmem := (mem_numeral (numeral_decimal n) (by decide) (List.mem_of_mem_head? h)).1
    exact absurd hmem (by decide)
  have hdots : (ascii ".").head? = some 0x2E ∧ (ascii "..").head? = some 0x2E := by decide
  unfold ProcEntry.HasOpen Process.Owns Process.entry
  cases p.descriptors with
  | none => simp
  | some ds => simp [hdot, hdots, Descriptor.socketInode_target]

end Processes

section Machines

/-- A table of sockets: its first line names the columns. -/
structure Table (family : AddressFamily) where
  header : List UInt8
  header_line : 0x0A ∉ header
  sockets : List (Socket family)

def Table.content {family : AddressFamily} (order : ByteOrder) (proto : Protocol)
    (t : Table family) : List UInt8 :=
  t.header ++ 0x0A :: (t.sockets.map (Socket.row order proto)).flatMap (· ++ [0x0A])

/-- A socket and the table that it is in. -/
structure ListedSocket where
  protocol : Protocol
  family : AddressFamily
  socket : Socket family

/-- What the kernel shows to a caller; without IPv6 it has no tables for that. -/
structure Machine where
  entries : List KernelEntry
  tcp : Table .ipv4
  tcp6 : Option (Table .ipv6)
  udp : Table .ipv4
  udp6 : Option (Table .ipv6)

def Machine.proc (m : Machine) : List ProcEntry := m.entries.map KernelEntry.entry

/-- A table as a file. -/
def tableFile {family : AddressFamily} (order : ByteOrder) (proto : Protocol) :
    Option (Table family) → NetFile
  | some t => .opened (t.content order proto) none
  | none => .unopenable enoent

def Machine.files (m : Machine) (order : ByteOrder) (path : List UInt8) : NetFile :=
  if path = ascii "/proc/net/tcp" then tableFile order .tcp (some m.tcp)
  else if path = ascii "/proc/net/tcp6" then tableFile order .tcp m.tcp6
  else if path = ascii "/proc/net/udp" then tableFile order .udp (some m.udp)
  else if path = ascii "/proc/net/udp6" then tableFile order .udp m.udp6
  else .unopenable enoent

def listed {family : AddressFamily} (proto : Protocol) (t : Option (Table family)) :
    List ListedSocket :=
  (t.elim [] Table.sockets).map (⟨proto, family, ·⟩)

/-- All sockets of the machine. -/
def Machine.sockets (m : Machine) : List ListedSocket :=
  listed .tcp (some m.tcp) ++ listed .tcp m.tcp6 ++ listed .udp (some m.udp) ++ listed .udp m.udp6

/-- The processes that own a socket. -/
def Machine.owners (m : Machine) (inode : ℕ) : List ℕ :=
  (((m.entries.filterMap KernelEntry.process?).filter (·.Owns inode)).map Process.pid).dedup

/-- Every left row with each of its matches, or once with none. -/
def leftJoin {α β : Type*} (matching : α → List β) (l : List α) : List (α × Option β) :=
  l.flatMap fun a => if matching a = [] then [(a, none)] else (matching a).map fun b => (a, some b)

/-- The records of all sockets with their owners. -/
def Machine.join (m : Machine) : List ConnectionRecord :=
  (leftJoin (fun s => m.owners s.socket.inode) m.sockets).map fun row =>
    row.1.socket.record row.1.protocol row.2

end Machines

section Joining
variable {family : AddressFamily}

/-- Joins with matches that differ in their order differ in their order. -/
theorem leftJoin_perm {α β : Type*} [DecidableEq β] {matching matching' : α → List β}
    (h : ∀ a, (matching a).Perm (matching' a)) (l : List α) :
    (leftJoin matching l).Perm (leftJoin matching' l) := by
  apply List.Perm.flatMap_left
  intro a _
  by_cases hnil : matching a = []
  · have hnil' : matching' a = [] := (hnil ▸ h a).nil_eq.symm
    rw [if_pos hnil, if_pos hnil']
  · have hnil' : matching' a ≠ [] := fun h' => hnil (h' ▸ h a).eq_nil
    rw [if_neg hnil, if_neg hnil']
    exact (h a).map _

/-- The owners that the scan of `/proc` finds are the owners. -/
theorem Machine.buildInodePidMap_perm (m : Machine) (inode : ℕ) :
    (buildInodePidMap (some m.proc) inode).Perm (m.owners inode) := by
  have hnodup : (m.owners inode).Nodup := List.nodup_dedup _
  rw [List.perm_ext_iff_of_nodup (nodup_buildInodePidMap _ _) hnodup]
  intro p
  rw [mem_buildInodePidMap, Machine.owners, List.mem_dedup, Machine.proc, Option.getD_some]
  simp only [List.mem_map, List.mem_filter, List.mem_filterMap, decide_eq_true_eq]
  constructor
  · rintro ⟨_, ⟨entry, hentry, rfl⟩, hpid, hopen⟩
    cases entry with
    | process process =>
      refine ⟨process, ⟨⟨_, hentry, rfl⟩, Process.hasOpen_entry.mp hopen⟩, ?_⟩
      exact Option.some.inj (process.entryPid_entry.symm.trans hpid)
    | other entry hno =>
      rw [KernelEntry.entry, entryPid_other hno] at hpid
      cases hpid
  · rintro ⟨process, ⟨⟨entry, hentry, hprocess⟩, howns⟩, rfl⟩
    cases entry with
    | process process' =>
      cases hprocess
      exact ⟨_, ⟨_, hentry, rfl⟩, process.entryPid_entry, Process.hasOpen_entry.mpr howns⟩
    | other entry hno => cases hprocess

/-- A record is added once for each owner, or once without an owner. -/
theorem appendRecordForOwners_record (s : Socket family) (proto : Protocol) (pid : Option ℕ)
    (map : InodePidMap) (out : List ConnectionRecord) :
    appendRecordForOwners (s.record proto pid) map out =
      out ++ if map s.inode = [] then [s.record proto none]
        else (map s.inode).map fun pid => s.record proto (some pid) := by
  have howners : (s.record proto pid).inode.elim [] map = map s.inode := rfl
  rw [appendRecordForOwners, howners]
  by_cases hnil : map s.inode = []
  · rw [if_neg (by simp [hnil]), if_pos hnil]
    rfl
  · rw [if_pos hnil, if_neg hnil]
    rfl

/-- A row is a line, and not an empty one. -/
theorem Socket.row_line (s : Socket family) (order : ByteOrder) (proto : Protocol) :
    0x0A ∉ s.row order proto ∧ s.row order proto ≠ [] := by
  have hlow : ∀ c : UInt8, c = 0x20 ∨ 0x30 ≤ c → c ≠ 0x0A := by
    rintro c (rfl | h)
    · decide
    · rintro rfl
      exact absurd h (by decide)
  obtain ⟨hblanks, htokens⟩ := s.columns_ok order
  refine ⟨?_, by simp [Socket.row]⟩
  intro hmem
  rw [Socket.row, paddedDecimal, List.leftpad, List.append_assoc] at hmem
  simp only [List.mem_append, List.mem_cons, List.mem_flatMap, List.mem_replicate] at hmem
  rcases hmem with ⟨-, h⟩ | h | h | ⟨p, hp, h | h⟩ | h
  · exact absurd h (by decide)
  · exact hlow _ (.inr (mem_numeral (numeral_decimal s.slot) (by decide) h).1) rfl
  · exact absurd h (by decide)
  · exact hlow _ (.inl ((hblanks p hp).2 _ h)) rfl
  · exact hlow _ (.inr ((htokens p hp).2 _ h)) rfl
  · exact s.more_line h

/-- The rows of a table add the join of its sockets with their owners. -/
theorem foldlM_rows (order : ByteOrder) (proto : Protocol) (map : InodePidMap)
    (sockets : List (Socket family)) (out : List ConnectionRecord) :
    (sockets.map (Socket.row order proto)).foldlM (readProcNetLine order proto family map) out =
      .ok (out ++ (leftJoin (fun s : Socket family => map s.inode) sockets).map
        fun row => row.1.record proto row.2) := by
  rw [List.foldlM_map, leftJoin, List.map_flatMap]
  refine foldlM_flatMap (fun out s _ => ?_) out
  have hrow : readProcNetLine order proto family map out (s.row order proto) =
      .ok (out ++ if map s.inode = [] then [s.record proto none]
        else (map s.inode).map fun pid => s.record proto (some pid)) := by
    rw [readProcNetLine, if_neg (s.row_line order proto).2, parseProcNetLine_row]
    exact congrArg Except.ok (appendRecordForOwners_record ..)
  rw [hrow]
  congr 2
  split_ifs
  · rfl
  · rw [List.map_map]
    rfl

theorem readProcNetFile_table (order : ByteOrder) (proto : Protocol) (map : InodePidMap)
    (t : Option (Table family)) (out : List ConnectionRecord) :
    readProcNetFile order (tableFile order proto t) proto family map out =
      .ok (t.isSome, out ++ (leftJoin (fun s => map s.socket.inode) (listed proto t)).map
        fun row => row.1.socket.record row.1.protocol row.2) := by
  cases t with
  | none => simp [tableFile, readProcNetFile, listed, leftJoin]
  | some t =>
    have hrows : ∀ line ∈ t.sockets.map (Socket.row order proto), 0x0A ∉ line := by
      intro line hline
      obtain ⟨s, -, rfl⟩ := List.mem_map.mp hline
      exact (s.row_line order proto).1
    have hlines : NetFile.lines (t.content order proto) none =
        t.header :: t.sockets.map (Socket.row order proto) := by
      rw [NetFile.lines, Table.content, lines_append_sep t.header_line, lines_flatMap_sep hrows]
    have hjoin : (leftJoin (fun s => map s.socket.inode) (listed proto (some t))).map
        (fun row => row.1.socket.record row.1.protocol row.2) =
        (leftJoin (fun s : Socket family => map s.inode) t.sockets).map
          fun row => row.1.record proto row.2 := by
      simp only [leftJoin, listed, Option.elim_some, List.flatMap_map, List.map_flatMap]
      congr 1
      funext s
      split_ifs <;> simp
    rw [tableFile, readProcNetFile, hlines]
    dsimp only
    rw [foldlM_rows, ok_bind, hjoin]
    rfl

/-- Before they are sorted, the connections are the join with the noted owners. -/
theorem connections_machine (sorter : Sorter compareConnectionRecords) (order : ByteOrder)
    (m : Machine) :
    connections sorter order (some m.proc) (m.files order) =
      .ok (sorter.sort ((leftJoin
        (fun s => buildInodePidMap (some m.proc) s.socket.inode) m.sockets).map
          fun row => row.1.socket.record row.1.protocol row.2)) := by
  have htcp : m.files order (ascii "/proc/net/tcp") = tableFile order .tcp (some m.tcp) := rfl
  have htcp6 : m.files order (ascii "/proc/net/tcp6") = tableFile order .tcp m.tcp6 := rfl
  have hudp : m.files order (ascii "/proc/net/udp") = tableFile order .udp (some m.udp) := rfl
  have hudp6 : m.files order (ascii "/proc/net/udp6") = tableFile order .udp m.udp6 := rfl
  simp only [connections, sources, List.foldlM_cons, List.foldlM_nil, htcp, htcp6, hudp, hudp6,
    readProcNetFile_table, ok_bind, pure_eq_ok, Option.isSome_some, Bool.or_true, Bool.true_or,
    not_true_eq_false, if_false, List.nil_append]
  congr 2
  simp only [Machine.sockets, leftJoin, List.flatMap_append, List.map_append]

end Joining

/-- A row is read as the socket that it was printed for; a record is reported once for each
owner of its socket, or once without an owner; and so the connections are the join of the
sockets of the machine with the processes. -/
theorem connections_are_join (order : ByteOrder) :
    (∀ (proto : Protocol) (family : AddressFamily) (s : Socket family) (map : InodePidMap),
      parseProcNetLine order (s.row order proto) proto family map =
        some (s.record proto (map s.inode).head?)) ∧
    (∀ (proto : Protocol) (family : AddressFamily) (s : Socket family) (pid : Option ℕ)
      (map : InodePidMap) (out : List ConnectionRecord),
      appendRecordForOwners (s.record proto pid) map out =
        out ++ if map s.inode = [] then [s.record proto none]
          else (map s.inode).map fun pid => s.record proto (some pid)) ∧
    ∀ (sorter : Sorter compareConnectionRecords) (m : Machine),
      ∃ out, connections sorter order (some m.proc) (m.files order) = .ok out ∧
        out.Perm m.join := by
  refine ⟨fun proto _ s map => parseProcNetLine_row s order proto map,
    fun proto _ s pid map out => appendRecordForOwners_record s proto pid map out, ?_⟩
  intro sorter m
  refine ⟨_, connections_machine sorter order m, ?_⟩
  have hjoin := leftJoin_perm (fun s : ListedSocket => m.buildInodePidMap_perm s.socket.inode)
    m.sockets
  exact (sorter.perm _).trans (hjoin.map _)

end Syscape.Connection
