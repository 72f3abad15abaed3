import Syscape.Numa
import Syscape.LinuxFile
import Syscape.Numbers
import Mathlib.Data.List.Destutter

/-!
# Distances between memory nodes

A node of the system is read from three files of its directory. The file of distances has
one number for each online node, in ascending order of the nodes, and the record that is
read promises that the number at index `i` is the distance to node `i`.
-/
namespace Syscape.Numa
open Checked Text Lines FromChars Digits Numerals Numbers LinuxFile

section Source

/-- `numa_node`. -/
structure NumaNode where
  id : ℕ
  logicalProcessors : List ℕ
  totalMemoryBytes : Option ℕ
  freeMemoryBytes : Option ℕ
  usedMemoryBytes : Option ℕ
  distances : List ℕ
  isOnline : Bool
  deriving DecidableEq, Repr

/-- `node_meminfo`. -/
structure NodeMeminfo where
  totalBytes : Option ℕ
  freeBytes : Option ℕ
  usedBytes : Option ℕ
  deriving DecidableEq, Repr

/-- `parse_distance_list`. -/
def parseDistanceList (input : List UInt8) : Result (List ℕ) :=
  let input := trimNumaField input
  if input = [] then .ok []
  else (splitBlank numaSpace input).mapM fun token =>
    match numberOf 10 uint32Max token with
    | some val => .ok val
    | none => fail .malformedData

/-- `parse_kb` of `parse_node_meminfo`. -/
def parseKb (valStr : List UInt8) : Result ℕ :=
  let valStr := trimNumaField valStr
  if valStr = [] then fail .malformedData
  else
    let unit := valStr.drop (valStr.length - 2)
    let valStr :=
      if valStr.length > 2 ∧ (unit = ascii "kB" ∨ unit = ascii "KB") then
        trimNumaField (valStr.take (valStr.length - 2))
      else valStr
    match numberOf 10 uint64Max valStr with
    | some kb => if kb > uint64Max / 1024 then fail .malformedData else .ok (kb * 1024)
    | none => fail .malformedData

/-- One line of `parse_node_meminfo`: the keys are told by what they end with. -/
def parseMeminfoLine (info : NodeMeminfo) (line : List UInt8) : Result NodeMeminfo :=
  match line.idxOf? 0x3A with
  | none => .ok info
  | some colon =>
    let key := trimNumaField (line.take colon)
    let valueStr := trimNumaField (line.drop (colon + 1))
    if ascii "MemTotal" <:+ key then do
      let res ← parseKb valueStr
      return { info with totalBytes := some res }
    else if ascii "MemFree" <:+ key then do
      let res ← parseKb valueStr
      return { info with freeBytes := some res }
    else if ascii "MemUsed" <:+ key then do
      let res ← parseKb valueStr
      return { info with usedBytes := some res }
    else .ok info

/-- `parse_node_meminfo`; what is used is computed when it is not given. -/
def parseNodeMeminfo (input : List UInt8) : Result NodeMeminfo := do
  let info ← (lines 0x0A input).foldlM parseMeminfoLine ⟨none, none, none⟩
  match info.totalBytes, info.freeBytes, info.usedBytes with
  | some total, some free, none =>
    return if total ≥ free then { info with usedBytes := some (total - free) } else info
  | _, _, _ => return info

/-- `validate_numa_node`. -/
def validateNumaNode (node : NumaNode) : Result NumaNode :=
  let exceeds (part : Option ℕ) : Bool :=
    match node.totalMemoryBytes, part with
    | some total, some part => part > total
    | _, _ => false
  if exceeds node.freeMemoryBytes then fail .malformedData
  else if exceeds node.usedMemoryBytes then fail .malformedData
  else
    let sorted :=
      if node.logicalProcessors.Pairwise (· ≤ ·) then node.logicalProcessors
      else node.logicalProcessors.mergeSort (· ≤ ·)
    .ok { node with logicalProcessors := sorted.destutter (· ≠ ·) }

/-- What a file of the directory gives; one that does not exist gives nothing. -/
def nodeFile {α : Type} (content : Result (List UInt8)) (missing : α)
    (parse : List UInt8 → Result α) : Result α :=
  match content with
  | .ok text => parse text
  | .error e => if isNoSuchFile e then .ok missing else .error e

/-- The directory of a node. -/
def nodeDir (nodeRoot : Path) (nodeId : ℕ) : Path := nodeRoot ++ ascii "/node" ++ decimal nodeId

def readCpulist (fs : FileSystem) (dir : Path) : Result (List ℕ) :=
  nodeFile (readTextFile fs (dir ++ ascii "/cpulist") 65536) [] fun text =>
    let trimmedCpu := trimNumaField text
    if trimmedCpu = [] then .ok [] else parseRangeList trimmedCpu

def readMeminfo (fs : FileSystem) (dir : Path) : Result NodeMeminfo :=
  nodeFile (readTextFile fs (dir ++ ascii "/meminfo") 65536) ⟨none, none, none⟩ parseNodeMeminfo

def readDistance (fs : FileSystem) (dir : Path) : Result (List ℕ) :=
  nodeFile (readTextFile fs (dir ++ ascii "/distance") 16384) [] parseDistanceList

/-- `read_single_node_at`. -/
def readSingleNodeAt (fs : FileSystem) (nodeId : ℕ) (isOnline : Bool) (nodeRoot : Path) :
    Result NumaNode :=
  let dir := nodeDir nodeRoot nodeId
  match statError fs dir with
  | some errno => if errno = enoent then fail .notFound else failErrno errno
  | none => do
    let cpus ← readCpulist fs dir
    let mem ← readMeminfo fs dir
    let distances ← readDistance fs dir
    validateNumaNode
      { id := nodeId, logicalProcessors := cpus, totalMemoryBytes := mem.totalBytes,
        freeMemoryBytes := mem.freeBytes, usedMemoryBytes := mem.usedBytes,
        distances := distances, isOnline := isOnline }

end Source

section Listed
variable {ids : Finset ℕ} {d : ℕ → UInt32}

/-- The kernel's text of a node's distances: a number for each online node, in ascending order
of the nodes, and a blank in front of each but that of node 0. -/
def distanceText (ids : Finset ℕ) (d : ℕ → UInt32) : List UInt8 :=
  (ids.sort (· ≤ ·)).flatMap (fun j => (if j ≠ 0 then [0x20] else []) ++ decimal (d j).toNat) ++
    [0x0A]

theorem numaSpace_decimal {n : ℕ} {c : UInt8} (hc : c ∈ decimal n) : numaSpace c = false := by
  obtain ⟨hle, -, -⟩ := mem_numeral (numeral_decimal n) (by decide) hc
  have hnat : 0x30 ≤ c.toNat := hle
  simp only [numaSpace, Bool.or_eq_false_iff, beq_eq_false_iff_ne]
  refine ⟨⟨⟨?_, ?_⟩, ?_⟩, ?_⟩ <;>
  · intro h
    rw [h] at hnat
    exact absurd hnat (by decide)

/-- Numbers with a blank in front of each but the first. -/
theorem splitBlank_distances {l : List ℕ} (h : l.Pairwise (· < ·)) :
    splitBlank numaSpace
        (l.flatMap (fun j => (if j ≠ 0 then [0x20] else []) ++ decimal (d j).toNat) ++ [0x0A]) =
      l.map fun j => decimal (d j).toNat := by
  have hcolumns : ∀ l : List ℕ, splitBlank numaSpace
      (l.flatMap (fun j => [0x20] ++ decimal (d j).toNat) ++ [0x0A]) =
        l.map fun j => decimal (d j).toNat := by
    intro l
    have hsplit : splitBlank numaSpace
        ((l.map fun j => ([0x20], decimal (d j).toNat)).flatMap (fun p => p.1 ++ p.2) ++ [0x0A]) =
          (l.map fun j => (([0x20] : List UInt8), decimal (d j).toNat)).map Prod.snd ++
            splitBlank numaSpace [0x0A] := by
      apply splitBlank_columns
      · simp [numaSpace]
      · simpa [decimal_ne_nil] using fun j _ c hc => numaSpace_decimal hc
      · simp [numaSpace]
    rw [List.flatMap_map] at hsplit
    rw [hsplit, splitBlank_eq_nil_iff.mpr (by simp [numaSpace])]
    simp
  cases l with
  | nil => exact hcolumns []
  | cons a l =>
    rw [List.pairwise_cons] at h
    have hrest : l.flatMap (fun j => (if j ≠ 0 then [0x20] else []) ++ decimal (d j).toNat) =
        l.flatMap fun j => [0x20] ++ decimal (d j).toNat := by
      apply List.flatMap_congr
      intro j hj
      have hlt := h.1 j hj
      rw [if_pos (by omega)]
    rw [← hcolumns, List.flatMap_cons, List.flatMap_cons, hrest]
    split_ifs with ha
    · rfl
    · exact (splitBlank_blank rfl _).symm

/-- The numbers of the file are read, in the order of the nodes. -/
theorem parseDistanceList_distanceText (ids : Finset ℕ) (d : ℕ → UInt32) :
    parseDistanceList (distanceText ids d) =
      .ok ((ids.sort (· ≤ ·)).map fun j => (d j).toNat) := by
  have htokens : splitBlank numaSpace (trimNumaField (distanceText ids d)) =
      (ids.sort (· ≤ ·)).map fun j => decimal (d j).toNat := by
    rw [trimNumaField, splitBlank_trim, distanceText,
      splitBlank_distances (Finset.sortedLT_sort ids).pairwise]
  have hread : ∀ l : List ℕ, (l.map fun j => decimal (d j).toNat).mapM (fun token =>
      match numberOf 10 uint32Max token with
      | some val => (.ok val : Result ℕ)
      | none => fail .malformedData) = .ok (l.map fun j => (d j).toNat) := by
    intro l
    rw [List.mapM_map]
    apply mapM_eq_ok
    intro j _
    rw [Function.comp_apply, numberOf_numeral (numeral_decimal (d j).toNat)
      (le_uint32Max (d j).toNat_lt)]
  unfold parseDistanceList
  simp only [htokens]
  split_ifs with hnil
  · rw [hnil, splitBlank_nil] at htokens
    rw [List.map_eq_nil_iff.mp htokens.symm]
    rfl
  · exact hread _

end Listed

section Nodes
variable {fs : FileSystem} {root dir : Path} {n : ℕ} {text : List UInt8}

/-- The processors of a node come in order, and none twice. -/
theorem pairwise_readCpulist {cpus : List ℕ} (h : readCpulist fs dir = .ok cpus) :
    cpus.Pairwise (· < ·) := by
  unfold readCpulist nodeFile at h
  split at h
  · simp only at h
    split_ifs at h with hnil
    · cases h
      exact .nil
    · simp only [parseRangeList] at h
      split_ifs at h with hends
      · simp at h
      obtain ⟨values, -, hvalues⟩ := bind_eq_ok.mp h
      split_ifs at hvalues with hempty
      · simp at hvalues
      cases hvalues
      exact (Finset.sortedLT_sort values).pairwise
  · split_ifs at h
    · cases h
      exact .nil

/-- The memory that is free and that in use do not exceed what there is. -/
def NodeMeminfo.Fits (mem : NodeMeminfo) : Prop :=
  ∀ total ∈ mem.totalBytes, (∀ free ∈ mem.freeBytes, free ≤ total) ∧
    ∀ used ∈ mem.usedBytes, used ≤ total

/-- A valid node whose processors come in order is kept as it is. -/
theorem validateNumaNode_eq {cpus distances : List ℕ} {mem : NodeMeminfo} {isOnline : Bool}
    (hcpus : cpus.Pairwise (· < ·)) (hmem : mem.Fits) :
    validateNumaNode ⟨n, cpus, mem.totalBytes, mem.freeBytes, mem.usedBytes, distances, isOnline⟩ =
      .ok ⟨n, cpus, mem.totalBytes, mem.freeBytes, mem.usedBytes, distances, isOnline⟩ := by
  obtain ⟨total, free, used⟩ := mem
  have hsorted : cpus.Pairwise (· ≤ ·) := hcpus.imp le_of_lt
  have hunique : cpus.destutter (· ≠ ·) = cpus :=
    List.destutter_of_isChain _ _ (hcpus.imp ne_of_lt).isChain
  unfold validateNumaNode
  simp only [hsorted, if_true, hunique]
  cases total with
  | none => rfl
  | some total =>
    obtain ⟨hfree, hused⟩ := hmem total rfl
    have hfree' : ∀ f, free = some f → ¬ total < f := fun f hf => not_lt.mpr (hfree f hf)
    have hused' : ∀ u, used = some u → ¬ total < u := fun u hu => not_lt.mpr (hused u hu)
    cases free <;> cases used <;> simp [hfree', hused']

/-- The directory of a node as the kernel shows it: it exists, its processors and its memory
can be read, and its file of distances has this text. -/
structure NodeListed (fs : FileSystem) (root : Path) (n : ℕ) (text : List UInt8) : Prop where
  accessible : statError fs (nodeDir root n) = none
  processors : ∃ cpus, readCpulist fs (nodeDir root n) = .ok cpus
  memory : ∃ mem, readMeminfo fs (nodeDir root n) = .ok mem ∧ mem.Fits
  distance : fs (nodeDir root n ++ ascii "/distance") = .content text

/-- A node is read just if its distances are, and has these. -/
theorem readSingleNodeAt_eq (h : NodeListed fs root n text) (isOnline : Bool) :
    ∃ (cpus : List ℕ) (mem : NodeMeminfo), readSingleNodeAt fs n isOnline root =
      (readDistance fs (nodeDir root n)).map fun distances =>
        ⟨n, cpus, mem.totalBytes, mem.freeBytes, mem.usedBytes, distances, isOnline⟩ := by
  obtain ⟨cpus, hcpus⟩ := h.processors
  obtain ⟨mem, hmem, hfits⟩ := h.memory
  refine ⟨cpus, mem, ?_⟩
  unfold readSingleNodeAt
  simp only [h.accessible, hcpus, hmem, ok_bind]
  cases readDistance fs (nodeDir root n) with
  | error e => rfl
  | ok distances => exact validateNumaNode_eq (pairwise_readCpulist hcpus) hfits

theorem readDistance_eq (h : NodeListed fs root n text) :
    readDistance fs (nodeDir root n) =
      if text.length > 16384 then fail .valueTooLarge else parseDistanceList text := by
  unfold readDistance nodeFile readTextFile
  rw [h.distance]
  by_cases hlong : text.length > 16384
  · simp only [if_pos hlong]
    rfl
  · simp only [if_neg hlong]

end Nodes

section Indices
variable {fs : FileSystem} {root : Path} {ids : Finset ℕ} {d : ℕ → ℕ → UInt32}

/-- Every online node is read, and the distance to each of them stands at its identifier. -/
def DistancesById (fs : FileSystem) (root : Path) (ids : Finset ℕ) (d : ℕ → ℕ → UInt32) : Prop :=
  ∀ n ∈ ids, ∃ node, readSingleNodeAt fs n true root = .ok node ∧
    ∀ j ∈ ids, node.distances[j]? = some (d n j).toNat

/-- The list of distances is indexed by position: it serves as one by identifier just if the
positions are the identifiers. -/
theorem indexed_iff (d : ℕ → UInt32) :
    (∀ j ∈ ids, ((ids.sort (· ≤ ·)).map fun j => (d j).toNat)[j]? = some (d j).toNat) ↔
      ids = Finset.range ids.card := by
  constructor
  · intro h
    apply Finset.eq_of_subset_of_card_le
    · intro j hj
      obtain ⟨hlt, -⟩ := List.getElem?_eq_some_iff.mp (h j hj)
      rw [List.length_map, Finset.length_sort] at hlt
      exact Finset.mem_range.mpr hlt
    · rw [Finset.card_range]
  · intro h j hj
    rw [h, Finset.mem_range] at hj
    rw [h, Finset.sort_range]
    simp [hj]

/-- Just if the online nodes are numbered from 0 on without a gap, and no file of distances is
too long, the distances are found at the identifiers of the nodes. -/
theorem distances_by_id_iff (hlisted : ∀ n ∈ ids, NodeListed fs root n (distanceText ids (d n))) :
    DistancesById fs root ids d ↔
      ids = Finset.range ids.card ∧ ∀ n ∈ ids, (distanceText ids (d n)).length ≤ 16384 := by
  have hnode : ∀ n ∈ ids, ((∃ node, readSingleNodeAt fs n true root = .ok node ∧
      ∀ j ∈ ids, node.distances[j]? = some (d n j).toNat) ↔
        ids = Finset.range ids.card ∧ (distanceText ids (d n)).length ≤ 16384) := by
    intro n hn
    obtain ⟨cpus, mem, hread⟩ := readSingleNodeAt_eq (hlisted n hn) true
    rw [hread, readDistance_eq (hlisted n hn), parseDistanceList_distanceText]
    split_ifs with hlong
    · constructor
      · intro ⟨node, hnode, _⟩
        cases hnode
      · intro ⟨_, hle⟩
        omega
    · rw [← indexed_iff (d n)]
      constructor
      · intro ⟨node, hnode, hindexed⟩
        cases hnode
        exact ⟨hindexed, not_lt.mp hlong⟩
      · intro ⟨hindexed, _⟩
        exact ⟨_, rfl, hindexed⟩
  constructor
  · intro h
    refine ⟨?_, fun n hn => ((hnode n hn).mp (h n hn)).2⟩
    rcases ids.eq_empty_or_nonempty with rfl | ⟨n, hn⟩
    · rfl
    · exact ((hnode n hn).mp (h n hn)).1
  · intro ⟨hrange, hlength⟩ n hn
    exact (hnode n hn).mpr ⟨hrange, hlength n hn⟩

end Indices

section Systems

/-- A system with node 0 and a second node, of which just the distances are shown. -/
def twoNodes (second : ℕ) : FileSystem := fun path =>
  if path = nodeDir [] 0 ∨ path = nodeDir [] second then .unreadable 21
  else if path = nodeDir [] 0 ++ ascii "/distance" then .content (ascii "10 21\n")
  else if path = nodeDir [] second ++ ascii "/distance" then .content (ascii "21 10\n")
  else .absent

def twoDistances (n j : ℕ) : UInt32 := if n = j then 10 else 21

theorem distanceText_pair {k : ℕ} (h : 0 < k) (d : ℕ → UInt32) :
    distanceText {0, k} d = decimal (d 0).toNat ++ 0x20 :: decimal (d k).toNat ++ [0x0A] := by
  have hsort := (List.toFinset_sort (· ≤ ·) (l := [0, k]) (by simp; omega)).mpr (by simp)
  have hpair : ({0, k} : Finset ℕ).sort (· ≤ ·) = [0, k] := by simpa using hsort
  rw [distanceText, hpair]
  simp [Nat.ne_of_gt h]

theorem twoNodes_listed (second n : ℕ) (text : List UInt8)
    (hdir : statError (twoNodes second) (nodeDir [] n) = none)
    (hcpulist : twoNodes second (nodeDir [] n ++ ascii "/cpulist") = .absent)
    (hmeminfo : twoNodes second (nodeDir [] n ++ ascii "/meminfo") = .absent)
    (hdistance : twoNodes second (nodeDir [] n ++ ascii "/distance") = .content text) :
    NodeListed (twoNodes second) [] n text where
  accessible := hdir
  processors := ⟨[], by rw [readCpulist, readTextFile, hcpulist]; rfl⟩
  memory := by
    refine ⟨⟨none, none, none⟩, by rw [readMeminfo, readTextFile, hmeminfo]; rfl, ?_⟩
    intro total htotal
    cases htotal
  distance := hdistance

theorem pair_listed {k : ℕ} (h : k = 1 ∨ k = 2) :
    ∀ n ∈ ({0, k} : Finset ℕ),
      NodeListed (twoNodes k) [] n (distanceText {0, k} (twoDistances n)) := by
  intro n hn
  rw [distanceText_pair (by omega)]
  rw [Finset.mem_insert, Finset.mem_singleton] at hn
  rcases h with rfl | rfl <;> rcases hn with rfl | rfl <;>
    exact twoNodes_listed _ _ _ (by decide +kernel) (by decide +kernel) (by decide +kernel)
      (by decide +kernel)

/-- Two nodes without a gap are read as they should be. -/
theorem nodes_without_gap : DistancesById (twoNodes 1) [] {0, 1} twoDistances := by
  refine (distances_by_id_iff (pair_listed (.inl rfl))).mpr ⟨by decide, ?_⟩
  intro n hn
  rw [distanceText_pair (by decide)]
  rw [Finset.mem_insert, Finset.mem_singleton] at hn
  rcases hn with rfl | rfl <;> decide +kernel

/-- With nodes 0 and 2, the distance to node 2 stands at index 1, and nothing at index 2. -/
theorem gap_shifts_distances :
    (∀ n ∈ ({0, 2} : Finset ℕ),
      NodeListed (twoNodes 2) [] n (distanceText {0, 2} (twoDistances n))) ∧
    ¬ DistancesById (twoNodes 2) [] {0, 2} twoDistances := by
  refine ⟨pair_listed (.inr rfl), ?_⟩
  intro h
  have hread : readSingleNodeAt (twoNodes 2) 0 true [] =
      .ok ⟨0, [], none, none, none, [10, 21], true⟩ := by
    decide +kernel
  obtain ⟨node, hnode, hindexed⟩ := h 0 (by simp)
  rw [hread] at hnode
  cases hnode
  have hsecond := hindexed 2 (by simp)
  cases hsecond

end Systems

end Syscape.Numa
