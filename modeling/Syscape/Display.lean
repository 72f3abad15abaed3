import Syscape.Utf8Text
import Syscape.Lib.Text
import Syscape.Lib.Endian
import Syscape.Lib.Binary64
import Mathlib.Algebra.BigOperators.Group.List.Basic
import Mathlib.Data.UInt

/-!
# What a display says of itself

A display describes itself in an EDID: a base block of 128 bytes and as many extension
blocks as it announces. The bytes of every block add up to zero. The base block holds the
manufacturer, the product, the size, and four descriptors with timings and names.
-/
namespace Syscape.Display
open Checked Text Utf8
open Binary64 (Double)

/-- `edid_block_size`. -/
def edidBlockSize : ℕ := 128

/-- `maximum_edid_size`. -/
def maximumEdidSize : ℕ := edidBlockSize * 256

/-- A byte that `trim_whitespace` removes. -/
def isPadding (c : UInt8) : Bool :=
  c == 0x00 || c == 0x20 || c == 0x09 || c == 0x0D || c == 0x0A

/-- `trim_whitespace`: the padding at the end is removed before that at the front. -/
def trimWhitespace (input : List UInt8) : List UInt8 :=
  (input.rdropWhile isPadding).dropWhile isPadding

/-- `edid_facts`. -/
structure EdidFacts where
  manufacturer : Option (List UInt8)
  productCode : Option ℕ
  monitorName : Option (List UInt8)
  physicalWidthMm : Option ℕ
  physicalHeightMm : Option ℕ
  preferredWidth : Option ℕ
  preferredHeight : Option ℕ
  preferredRefreshRateHz : Option Double
  deriving DecidableEq, Repr

/-- The facts that do not come from the descriptors. -/
def EdidFacts.identity (manufacturer : Option (List UInt8)) (productCode : Option ℕ)
    (size : Option (ℕ × ℕ)) : EdidFacts where
  manufacturer := manufacturer
  productCode := productCode
  monitorName := none
  physicalWidthMm := size.map Prod.fst
  physicalHeightMm := size.map Prod.snd
  preferredWidth := none
  preferredHeight := none
  preferredRefreshRateHz := none

section Validation

/-- `expected_header`. -/
def expectedHeader : List UInt8 := [0x00, 0xFF, 0xFF, 0xFF, 0xFF, 0xFF, 0xFF, 0x00]

/-- The loop that compares the bytes from `i` on with the expected ones. -/
def checkHeader (data : List UInt8) (i : ℕ) : List UInt8 → Result Unit
  | [] => .ok ()
  | expected :: rest => do
    let b ← read data i
    if b ≠ expected then fail .malformedData else checkHeader data (i + 1) rest

/-- The sum of `count` bytes from `i` on, in eight bits. -/
def addBytes (data : List UInt8) (i : ℕ) : ℕ → UInt8 → Result UInt8
  | 0, checksum => .ok checksum
  | count + 1, checksum => do
    let b ← read data i
    addBytes data (i + 1) count (checksum + b)

/-- The loop over the checksums of `count` blocks, from the given block on. -/
def checkBlocks (data : List UInt8) (block : ℕ) : ℕ → Result Unit
  | 0 => .ok ()
  | count + 1 => do
    let checksum ← addBytes data (block * edidBlockSize) edidBlockSize 0
    if checksum ≠ 0 then fail .malformedData else checkBlocks data (block + 1) count

end Validation

section Reading

/-- The manufacturer: three letters of five bits each, the last in the lowest bits. -/
def readManufacturer (data : List UInt8) : Result (Option (List UInt8)) := do
  let b8 ← readByte data 8
  let b9 ← readByte data 9
  let raw := (b8 <<< 8) ||| b9
  let c1 := ((raw >>> 10) &&& 0x1F) + 0x41 - 1
  let c2 := ((raw >>> 5) &&& 0x1F) + 0x41 - 1
  let c3 := (raw &&& 0x1F) + 0x41 - 1
  .ok (if c1 ≥ 0x41 ∧ c1 ≤ 0x5A ∧ c2 ≥ 0x41 ∧ c2 ≤ 0x5A ∧ c3 ≥ 0x41 ∧ c3 ≤ 0x5A then
    some [UInt8.ofNat c1, UInt8.ofNat c2, UInt8.ofNat c3] else none)

/-- The product code, which is not reported when it is zero. -/
def readProductCode (data : List UInt8) : Result (Option ℕ) := do
  let b10 ← readByte data 10
  let b11 ← readByte data 11
  let code := b10 ||| (b11 <<< 8)
  .ok (if code ≠ 0 then some code else none)

/-- The size in millimetres, which is not reported when one of its sides is zero. -/
def readPhysicalSize (data : List UInt8) : Result (Option (ℕ × ℕ)) := do
  let h ← readByte data 21
  let v ← readByte data 22
  .ok (if h > 0 ∧ v > 0 then some (h * 10, v * 10) else none)

/-- `descriptor_offsets`. -/
def descriptorOffsets : List ℕ := [54, 72, 90, 108]

/-- The branch for a display descriptor, of which only a name is read. -/
def readDisplayDescriptor (data : List UInt8) (off : ℕ) (facts : EdidFacts) :
    Result EdidFacts := do
  let tag ← readByte data (off + 3)
  if tag = 0xFC then do
    let field ← slice data (off + 5) 13
    let name := trimWhitespace field
    if name ≠ [] then do
      let valid ← isValidUtf8 name
      if ¬ valid then fail .invalidEncoding else .ok { facts with monitorName := some name }
    else .ok facts
  else .ok facts

/-- The branch for a detailed timing, which is read if no timing before it was valid. -/
def readDetailedTiming (data : List UInt8) (off : ℕ) (facts : EdidFacts) : Result EdidFacts := do
  let b0 ← readByte data off
  let b1 ← readByte data (off + 1)
  let clock := b0 ||| (b1 <<< 8)
  if clock > 0 ∧ facts.preferredWidth = none then do
    let b2 ← readByte data (off + 2)
    let b4 ← readByte data (off + 4)
    let hActive := b2 ||| ((b4 &&& 0xF0) <<< 4)
    let b3 ← readByte data (off + 3)
    let hBlanking := b3 ||| ((b4 &&& 0x0F) <<< 8)
    let b5 ← readByte data (off + 5)
    let b7 ← readByte data (off + 7)
    let vActive := b5 ||| ((b7 &&& 0xF0) <<< 4)
    let b6 ← readByte data (off + 6)
    let vBlanking := b6 ||| ((b7 &&& 0x0F) <<< 8)
    let hTotal := hActive + hBlanking
    let vTotal := vActive + vBlanking
    if hActive > 0 ∧ vActive > 0 ∧ hTotal > 0 ∧ vTotal > 0 then
      let pixClockHz := (Double.ofNat clock).mul (.ofNat 10000)
      .ok { facts with
        preferredWidth := some hActive
        preferredHeight := some vActive
        preferredRefreshRateHz :=
          some (pixClockHz.div ((Double.ofNat hTotal).mul (.ofNat vTotal))) }
    else .ok facts
  else .ok facts

/-- One round of the loop over the descriptors. -/
def readDescriptor (data : List UInt8) (facts : EdidFacts) (off : ℕ) : Result EdidFacts := do
  let b0 ← readByte data off
  let b1 ← readByte data (off + 1)
  let b2 ← readByte data (off + 2)
  if b0 = 0 ∧ b1 = 0 ∧ b2 = 0 then readDisplayDescriptor data off facts
  else readDetailedTiming data off facts

/-- What `parse_edid_block` reads after the data is validated. -/
def readFacts (data : List UInt8) : Result EdidFacts := do
  let manufacturer ← readManufacturer data
  let productCode ← readProductCode data
  let size ← readPhysicalSize data
  descriptorOffsets.foldlM (readDescriptor data) (.identity manufacturer productCode size)

end Reading

/-- `parse_edid_block`, of a pointer and a size; `none` is the null pointer. -/
def parseEdidBlock (data : Option (List UInt8)) (size : ℕ) : Result EdidFacts :=
  match data with
  | none => fail .malformedData
  | some data =>
    if size < edidBlockSize ∨ size > maximumEdidSize ∨ size % edidBlockSize ≠ 0 then
      fail .malformedData
    else do
      checkHeader data 0 expectedHeader
      let last ← readByte data 126
      let blockCount := last + 1
      if size ≠ blockCount * edidBlockSize then fail .malformedData
      else do
        checkBlocks data 0 blockCount
        readFacts data

@[simp] theorem length_expectedHeader : expectedHeader.length = 8 := rfl

section Blocks
variable {data : List UInt8}

/-- The bytes of one block. -/
def block (data : List UInt8) (k : ℕ) : List UInt8 :=
  (data.drop (k * edidBlockSize)).take edidBlockSize

/-- The data is as many blocks as it announces, each adds up to zero, and the first begins
with the header. -/
structure WellFormed (data : List UInt8) : Prop where
  header : data.take 8 = expectedHeader
  length_eq : ∃ count ∈ data[126]?, data.length = (count.toNat + 1) * edidBlockSize
  sum_eq_zero : ∀ k, (k + 1) * edidBlockSize ≤ data.length → (block data k).sum = 0

theorem checkHeader_eq {i : ℕ} {header : List UInt8} (h : i + header.length ≤ data.length) :
    checkHeader data i header =
      if (data.drop i).take header.length = header then .ok () else fail .malformedData := by
  induction header generalizing i with
  | nil => simp [checkHeader]
  | cons expected rest ih =>
    rw [List.length_cons] at h
    have hlt : i < data.length := by omega
    rw [checkHeader, read_of_lt hlt, ok_bind, ih (by omega)]
    simp only [List.drop_eq_getElem_cons hlt, List.length_cons, List.take_succ_cons, List.cons.injEq]
    by_cases hb : data[i] = expected
    · simp [hb]
    · simp [hb]

theorem addBytes_eq {i count : ℕ} (h : i + count ≤ data.length) (checksum : UInt8) :
    addBytes data i count checksum = .ok (checksum + ((data.drop i).take count).sum) := by
  induction count generalizing i checksum with
  | zero => simp [addBytes]
  | succ count ih =>
    have hlt : i < data.length := by omega
    rw [addBytes, read_of_lt hlt, ok_bind, ih (by omega), List.drop_eq_getElem_cons hlt,
      List.take_succ_cons, List.sum_cons, add_assoc]

theorem checkBlocks_eq {k count : ℕ} (h : (k + count) * edidBlockSize ≤ data.length) :
    checkBlocks data k count =
      if ∀ j < count, (block data (k + j)).sum = 0 then .ok () else fail .malformedData := by
  induction count generalizing k with
  | zero => simp [checkBlocks]
  | succ count ih =>
    have hblock : k * edidBlockSize + edidBlockSize ≤ data.length := by
      apply le_trans _ h
      rw [← Nat.succ_mul]
      exact Nat.mul_le_mul_right _ (by omega)
    have hsplit : (∀ j < count + 1, (block data (k + j)).sum = 0) ↔
        (block data k).sum = 0 ∧ ∀ j < count, (block data (k + 1 + j)).sum = 0 := by
      rw [Nat.forall_lt_succ_left]
      simp only [Nat.add_zero, Nat.add_assoc, Nat.add_comm 1]
    have hrest := ih (k := k + 1) (by rw [Nat.add_assoc, Nat.add_comm 1]; exact h)
    rw [checkBlocks, addBytes_eq hblock, ok_bind, UInt8.zero_add, hrest]
    simp only [hsplit]
    by_cases hsum : (block data k).sum = 0
    · rw [if_neg (by simpa [block] using hsum)]
      simp [hsum]
    · rw [if_pos (by simpa [block] using hsum), if_neg fun hand => hsum hand.1]

theorem WellFormed.parse (h : WellFormed data) :
    parseEdidBlock (some data) data.length = readFacts data := by
  obtain ⟨count, hcount, hlength⟩ := h.length_eq
  obtain ⟨hlt, rfl⟩ := List.getElem?_eq_some_iff.mp hcount
  have hbyte := data[126].toNat_lt
  have hread : (readByte data 126 : Result ℕ) = .ok data[126].toNat := readByte_of_lt hlt
  have hguard : ¬ (data.length < edidBlockSize ∨ data.length > maximumEdidSize ∨
      data.length % edidBlockSize ≠ 0) := by
    unfold maximumEdidSize edidBlockSize at *
    omega
  have hheader : checkHeader data 0 expectedHeader = .ok () := by
    have hend : 0 + expectedHeader.length ≤ data.length := by
      rw [length_expectedHeader]
      omega
    rw [checkHeader_eq hend]
    exact if_pos h.header
  have hblocks : checkBlocks data 0 (data[126].toNat + 1) = .ok () := by
    rw [checkBlocks_eq (by rw [hlength, Nat.zero_add]), if_pos]
    intro j hj
    rw [Nat.zero_add]
    apply h.sum_eq_zero
    rw [hlength]
    exact Nat.mul_le_mul_right _ hj
  rw [parseEdidBlock, if_neg hguard, hheader, ok_bind, hread, ok_bind, if_neg (not_not_intro hlength),
    hblocks, ok_bind]

/-- Data that is not well formed is refused before anything is read from it. -/
theorem parse_malformed (h : ¬ WellFormed data) :
    parseEdidBlock (some data) data.length = fail .malformedData := by
  rw [parseEdidBlock]
  split_ifs with hguard
  · rfl
  have hlt : 126 < data.length := by
    unfold edidBlockSize at hguard
    omega
  have hread : (readByte data 126 : Result ℕ) = .ok data[126].toNat := readByte_of_lt hlt
  have hend : 0 + expectedHeader.length ≤ data.length := by
    rw [length_expectedHeader]
    omega
  rw [checkHeader_eq hend]
  split_ifs with hheader
  · rw [ok_bind, hread, ok_bind]
    dsimp only
    split_ifs with hcount
    · rfl
    rw [not_not] at hcount
    rw [checkBlocks_eq (by rw [hcount, Nat.zero_add]), if_neg]
    · rfl
    · intro hsums
      apply h
      refine ⟨hheader, ⟨data[126], List.getElem?_eq_getElem hlt, hcount⟩, fun k hk => ?_⟩
      have hlast : k + 1 ≤ data[126].toNat + 1 :=
        Nat.le_of_mul_le_mul_right (hcount ▸ hk) (by decide)
      simpa using hsums k hlast
  · rfl

/-- The parser accepts well-formed data only. -/
theorem WellFormed.of_parse {facts : EdidFacts}
    (h : parseEdidBlock (some data) data.length = .ok facts) : WellFormed data := by
  by_contra hnot
  rw [parse_malformed hnot] at h
  cases h

/-- A changed byte is noticed: the sum of its block changes with it. -/
theorem WellFormed.not_set (h : WellFormed data) {i : ℕ} (hi : i < data.length) {b : UInt8}
    (hb : b ≠ data[i]) : ¬ WellFormed (data.set i b) := by
  intro hset
  obtain ⟨count, -, hlength⟩ := h.length_eq
  have hend : (i / edidBlockSize + 1) * edidBlockSize ≤ data.length := by
    rw [hlength] at hi ⊢
    exact Nat.mul_le_mul_right _ (Nat.div_lt_of_lt_mul (by rwa [Nat.mul_comm]))
  have hstart : i / edidBlockSize * edidBlockSize ≤ i := Nat.div_mul_le_self _ _
  have hold := h.sum_eq_zero _ hend
  have hnew := hset.sum_eq_zero _ (by rwa [List.length_set])
  have hlength_block : (block data (i / edidBlockSize)).length = edidBlockSize := by
    rw [block, List.length_take, List.length_drop]
    rw [Nat.add_mul] at hend
    omega
  have hmod : i - i / edidBlockSize * edidBlockSize = i % edidBlockSize := by
    rw [Nat.mul_comm, Nat.mod_def]
  have hblock : block (data.set i b) (i / edidBlockSize) =
      (block data (i / edidBlockSize)).set (i % edidBlockSize) b := by
    rw [block, List.drop_set, if_neg (by omega), List.take_set, hmod, block]
  have hlt : i % edidBlockSize < (block data (i / edidBlockSize)).length := by
    rw [hlength_block]
    exact Nat.mod_lt _ (by decide)
  rw [hblock, List.sum_set', hold, dif_pos hlt, zero_add, neg_add_eq_zero] at hnew
  apply hb
  rw [← hnew]
  simp only [block, List.getElem_take, List.getElem_drop, Nat.div_add_mod']

end Blocks

section Bounds
variable {data : List UInt8}

theorem defined_isValidUtf8 (text : List UInt8) : Defined (isValidUtf8 text) := by
  rw [isValidUtf8_eq]
  exact defined_ok _

theorem defined_readDisplayDescriptor {off : ℕ} (h : off + 18 ≤ data.length) (facts : EdidFacts) :
    Defined (readDisplayDescriptor data off facts) := by
  apply (defined_readByte (by omega)).bind
  intro tag _
  apply Defined.ite
  · intro _
    apply (defined_slice (by omega)).bind
    intro field _
    apply Defined.ite
    · intro _
      apply (defined_isValidUtf8 _).bind
      intro valid _
      exact Defined.ite (fun _ => defined_failErrc _) fun _ => defined_ok _
    · intro _
      exact defined_ok _
  · intro _
    exact defined_ok _

theorem defined_readDetailedTiming {off : ℕ} (h : off + 18 ≤ data.length) (facts : EdidFacts) :
    Defined (readDetailedTiming data off facts) := by
  apply (defined_readByte (by omega)).bind
  intro b0 _
  apply (defined_readByte (by omega)).bind
  intro b1 _
  apply Defined.ite
  · intro _
    apply (defined_readByte (by omega)).bind
    intro b2 _
    apply (defined_readByte (by omega)).bind
    intro b4 _
    apply (defined_readByte (by omega)).bind
    intro b3 _
    apply (defined_readByte (by omega)).bind
    intro b5 _
    apply (defined_readByte (by omega)).bind
    intro b7 _
    apply (defined_readByte (by omega)).bind
    intro b6 _
    exact Defined.ite (fun _ => defined_ok _) fun _ => defined_ok _
  · intro _
    exact defined_ok _

theorem defined_readDescriptor {off : ℕ} (h : off + 18 ≤ data.length) (facts : EdidFacts) :
    Defined (readDescriptor data facts off) := by
  apply (defined_readByte (by omega)).bind
  intro b0 _
  apply (defined_readByte (by omega)).bind
  intro b1 _
  apply (defined_readByte (by omega)).bind
  intro b2 _
  exact Defined.ite (fun _ => defined_readDisplayDescriptor h facts)
    fun _ => defined_readDetailedTiming h facts

theorem defined_readFacts (h : edidBlockSize ≤ data.length) : Defined (readFacts data) := by
  have hread {i : ℕ} (hi : i < 128) : Defined (readByte data i : Result ℕ) :=
    defined_readByte (lt_of_lt_of_le hi h)
  have hpair {i j : ℕ} {α : Type} (hi : i < 128) (hj : j < 128) (f : ℕ → ℕ → α) :
      Defined (do let a ← readByte data i; let b ← readByte data j; .ok (f a b) : Result α) := by
    apply (hread hi).bind
    intro a _
    exact (hread hj).bind fun _ _ => defined_ok _
  apply (hpair (by decide) (by decide) _).bind
  intro manufacturer _
  apply (hpair (by decide) (by decide) _).bind
  intro productCode _
  apply (hpair (by decide) (by decide) _).bind
  intro size _
  apply Defined.foldlM
  intro facts off hoff
  have hend : ∀ off ∈ descriptorOffsets, off + 18 ≤ edidBlockSize := by decide
  exact defined_readDescriptor (le_trans (hend off hoff) h) facts

/-- Every read of the parser is inside the data. -/
theorem defined_parseEdidBlock (data : Option (List UInt8)) {size : ℕ}
    (h : ∀ bytes ∈ data, size = bytes.length) : Defined (parseEdidBlock data size) := by
  cases data with
  | none => exact defined_failErrc _
  | some bytes =>
    rw [h bytes rfl]
    by_cases hwell : WellFormed bytes
    · rw [hwell.parse]
      obtain ⟨count, -, hlength⟩ := hwell.length_eq
      apply defined_readFacts
      rw [hlength]
      exact Nat.le_mul_of_pos_left _ (Nat.succ_pos _)
    · rw [parse_malformed hwell]
      exact defined_failErrc _

end Bounds

end Syscape.Display
