import Syscape.CpuBlocks
import Syscape.Lib.FirstSeen

/-!
# Instruction set features in `/proc/cpuinfo`

Each block of lines names the features of its processor, under a key that depends on the
architecture. The reader collects the names of all blocks and insists that either all
blocks have them or none.
-/
namespace Syscape.Cpu
open Checked Text Lines FromChars DigitRuns Paths FirstSeen

section Source

/-- `append_unique_label`. -/
def appendUniqueLabel (labels : List (List UInt8)) (value : List UInt8) : List (List UInt8) :=
  if labels.elem value then labels else labels ++ [value]

/-- `is_feature_key`. -/
def isFeatureKey (key : List UInt8) : Bool :=
  key = ascii "flags" ∨ key = ascii "Features" ∨ key = ascii "features"

/-- `append_feature_tokens`. -/
def appendFeatureTokens (tokens : List (List UInt8)) (value : List UInt8) : List (List UInt8) :=
  (splitBlank cpuSpace value).foldl appendUniqueLabel tokens

/-- The variables of `parse_cpuinfo_features`. -/
structure FeatureState where
  tokens : List (List UInt8) := []
  blocks : ℕ := 0
  blocksWithFeatures : ℕ := 0
  pendingBlock : Bool := false
  blockHasFeatures : Bool := false
  deriving DecidableEq

/-- A line of `parse_cpuinfo_features`. -/
def featureLine (st : FeatureState) (line : List UInt8) : Result FeatureState :=
  match line.idxOf? 0x3A with
  | none => .ok st
  | some separator =>
    let key := trimCpuField (line.take separator)
    let value := trimCpuField (line.drop (separator + 1))
    if key = ascii "processor" then
      if ¬ isIndex value then fail .malformedData
      else .ok { st with
        blocksWithFeatures :=
          if st.pendingBlock ∧ st.blockHasFeatures then st.blocksWithFeatures + 1
          else st.blocksWithFeatures
        blocks := st.blocks + 1
        pendingBlock := true
        blockHasFeatures := false }
    else if ¬ isFeatureKey key then .ok st
    else if ¬ st.pendingBlock then fail .malformedData
    else if value = [] then fail .malformedData
    else .ok { st with
      tokens := appendFeatureTokens st.tokens value
      blockHasFeatures := true }

/-- `parse_cpuinfo_features`. -/
def parseCpuinfoFeatures (input : List UInt8) : Result (List (List UInt8)) := do
  let st ← (lines 0x0A input).foldlM featureLine {}
  let blocksWithFeatures :=
    if st.pendingBlock ∧ st.blockHasFeatures then st.blocksWithFeatures + 1
    else st.blocksWithFeatures
  if st.blocks = 0 then fail .malformedData
  else if blocksWithFeatures = 0 then fail .notFound
  else if blocksWithFeatures ≠ st.blocks then fail .malformedData
  else .ok st.tokens

end Source

section Blocks

/-- A line with features. -/
structure FeatureField where
  line : List UInt8
  key : List UInt8
  value : List UInt8
  isFeature : isFeatureKey key = true
  field : Field key value line
  value_ne_nil : value ≠ []

/-- A line that says nothing about processors and features. -/
structure OtherLine where
  line : List UInt8
  other : ∀ key value, Field key value line → key ≠ ascii "processor" ∧ isFeatureKey key = false

/-- A line behind the first one of a block. -/
inductive BlockLine where
  | feature (field : FeatureField)
  | other (line : OtherLine)

def BlockLine.line : BlockLine → List UInt8
  | feature field => field.line
  | other line => line.line

def BlockLine.tokens : BlockLine → List (List UInt8)
  | feature field => splitBlank cpuSpace field.value
  | other _ => []

def BlockLine.isFeature : BlockLine → Bool
  | feature _ => true
  | other _ => false

/-- The lines of one processor: the first has its index, which need not fit into any type. -/
structure FeatureBlock where
  processor : List UInt8
  index : DigitRun
  field : Field (ascii "processor") index.digits processor
  rest : List BlockLine

def FeatureBlock.lines (block : FeatureBlock) : List (List UInt8) :=
  block.processor :: block.rest.map BlockLine.line

def FeatureBlock.tokens (block : FeatureBlock) : List (List UInt8) :=
  block.rest.flatMap BlockLine.tokens

def FeatureBlock.hasFeatures (block : FeatureBlock) : Bool := block.rest.any BlockLine.isFeature

end Blocks

section Steps
variable {st : FeatureState}

/-- What a line with a colon does. -/
lemma featureLine_field {key value line : List UInt8} (h : Field key value line) :
    featureLine st line =
      if key = ascii "processor" then
        if ¬ isIndex value then fail .malformedData
        else .ok { st with
          blocksWithFeatures :=
            if st.pendingBlock ∧ st.blockHasFeatures then st.blocksWithFeatures + 1
            else st.blocksWithFeatures
          blocks := st.blocks + 1
          pendingBlock := true
          blockHasFeatures := false }
      else if ¬ isFeatureKey key then .ok st
      else if ¬ st.pendingBlock then fail .malformedData
      else if value = [] then fail .malformedData
      else .ok { st with
        tokens := appendFeatureTokens st.tokens value
        blockHasFeatures := true } := by
  obtain ⟨before, behind, rfl, hcolon, rfl, rfl⟩ := h
  unfold featureLine
  rw [idxOf?_append_cons hcolon]
  have hbehind : (before ++ 0x3A :: behind).drop (before.length + 1) = behind := by
    rw [List.append_cons, List.drop_left' (by simp)]
  simp only [List.take_left, hbehind]

lemma featureLine_other (other : OtherLine) : featureLine st other.line = .ok st := by
  obtain ⟨line, hother⟩ := other
  by_cases hcolon : 0x3A ∈ line
  · obtain ⟨before, behind, hline, hbefore⟩ := List.eq_append_cons_of_mem hcolon
    have hfield : Field (trimCpuField before) (trimCpuField behind) line :=
      ⟨before, behind, hline, hbefore, rfl, rfl⟩
    obtain ⟨hprocessor, hfeature⟩ := hother _ _ hfield
    rw [featureLine_field hfield, if_neg hprocessor, if_pos (by simp [hfeature])]
  · unfold featureLine
    rw [List.idxOf?_eq_none_iff.mpr hcolon]

/-- What a line behind the first one does. -/
def afterLine (st : FeatureState) (line : BlockLine) : FeatureState :=
  { st with
    tokens := line.tokens.foldl appendUniqueLabel st.tokens
    blockHasFeatures := st.blockHasFeatures || line.isFeature }

lemma featureLine_blockLine (h : st.pendingBlock = true) (line : BlockLine) :
    featureLine st line.line = .ok (afterLine st line) := by
  cases line with
  | feature field =>
    have hprocessor : field.key ≠ ascii "processor" := by
      intro hkey
      have hfeature := field.isFeature
      rw [hkey] at hfeature
      exact absurd hfeature (by decide)
    rw [BlockLine.line, featureLine_field field.field, if_neg hprocessor,
      if_neg (by simp [field.isFeature]), if_neg (by simp [h]), if_neg field.value_ne_nil]
    simp [afterLine, BlockLine.tokens, BlockLine.isFeature, appendFeatureTokens]
  | other line =>
    rw [BlockLine.line, featureLine_other]
    simp [afterLine, BlockLine.tokens, BlockLine.isFeature]

lemma foldlM_blockLines (h : st.pendingBlock = true) (rest : List BlockLine) :
    (rest.map BlockLine.line).foldlM featureLine st = .ok { st with
      tokens := (rest.flatMap BlockLine.tokens).foldl appendUniqueLabel st.tokens
      blockHasFeatures := st.blockHasFeatures || rest.any BlockLine.isFeature } := by
  induction rest generalizing st with
  | nil => simp
  | cons line rest ih =>
    have hpending : (afterLine st line).pendingBlock = true := h
    rw [List.map_cons, List.foldlM_cons, featureLine_blockLine h, ok_bind, ih hpending,
      List.flatMap_cons, List.foldl_append, List.any_cons, ← Bool.or_assoc]
    rfl

/-- The blocks so far that have features, the current one included. -/
def FeatureState.covered (st : FeatureState) : ℕ :=
  if st.pendingBlock ∧ st.blockHasFeatures then st.blocksWithFeatures + 1
  else st.blocksWithFeatures

/-- What the reader knows at the end of a block. -/
def afterFeatures (st : FeatureState) (block : FeatureBlock) : FeatureState where
  tokens := block.tokens.foldl appendUniqueLabel st.tokens
  blocks := st.blocks + 1
  blocksWithFeatures := st.covered
  pendingBlock := true
  blockHasFeatures := block.hasFeatures

lemma isIndex_digits (index : DigitRun) :
    isIndex index.digits = decide (index.number ≤ uint32Max) := by
  by_cases hle : index.number ≤ uint32Max
  · simp [isIndex, index.numeral.fromChars, hle, index.ne_nil]
  · simp [isIndex, index.numeral.fromChars, hle]

lemma foldlM_featureBlock (block : FeatureBlock) :
    block.lines.foldlM featureLine st =
      if block.index.number ≤ uint32Max then .ok (afterFeatures st block)
      else fail .malformedData := by
  rw [FeatureBlock.lines, List.foldlM_cons, featureLine_field block.field, if_pos rfl,
    isIndex_digits]
  by_cases hle : block.index.number ≤ uint32Max
  · rw [if_neg (by simp [hle]), ok_bind, foldlM_blockLines rfl, if_pos hle]
    rfl
  · rw [if_pos (by simp [hle]), if_neg hle, fail_bind]

lemma foldlM_featureBlocks (blocks : List FeatureBlock) :
    (blocks.flatMap FeatureBlock.lines).foldlM featureLine st =
      if ∀ block ∈ blocks, block.index.number ≤ uint32Max then .ok (blocks.foldl afterFeatures st)
      else fail .malformedData := by
  induction blocks generalizing st with
  | nil => simp
  | cons block blocks ih =>
    rw [List.flatMap_cons, List.foldlM_append, foldlM_featureBlock]
    by_cases hle : block.index.number ≤ uint32Max
    · simp only [List.forall_mem_cons, hle, true_and, if_true, ok_bind, ih, List.foldl_cons]
    · simp only [List.forall_mem_cons, hle, false_and, if_false, fail_bind]

end Steps

section Runs
variable (blocks : List FeatureBlock)

lemma foldl_afterFeatures_tokens (st : FeatureState) :
    (blocks.foldl afterFeatures st).tokens =
      (blocks.flatMap FeatureBlock.tokens).foldl appendUniqueLabel st.tokens := by
  induction blocks generalizing st with
  | nil => rfl
  | cons block blocks ih => rw [List.foldl_cons, ih, List.flatMap_cons, List.foldl_append]; rfl

lemma foldl_afterFeatures_blocks (st : FeatureState) :
    (blocks.foldl afterFeatures st).blocks = st.blocks + blocks.length := by
  induction blocks generalizing st with
  | nil => rfl
  | cons block blocks ih =>
    have hone : (afterFeatures st block).blocks = st.blocks + 1 := rfl
    rw [List.foldl_cons, ih, hone, List.length_cons]
    omega

lemma foldl_afterFeatures_covered (st : FeatureState) :
    (blocks.foldl afterFeatures st).covered = st.covered + blocks.countP FeatureBlock.hasFeatures := by
  induction blocks generalizing st with
  | nil => rfl
  | cons block blocks ih =>
    have hone : (afterFeatures st block).covered =
        st.covered + if block.hasFeatures then 1 else 0 := by
      rw [FeatureState.covered, afterFeatures]
      cases block.hasFeatures <;> simp
    rw [List.foldl_cons, ih, hone, List.countP_cons]
    omega

end Runs

section Outcome
variable {text : List UInt8} {blocks : List FeatureBlock}

/-- What the reader is to say about so many blocks: the features in the order in which they
appear first, that there are none, or that the text is malformed. -/
def featuresOf (blocks : List FeatureBlock) : Result (List (List UInt8)) :=
  if blocks = [] ∨ ∃ block ∈ blocks, block.index.number > uint32Max then fail .malformedData
  else if ∀ block ∈ blocks, block.hasFeatures = true then
    .ok (blocks.flatMap FeatureBlock.tokens).eraseDups
  else if ∀ block ∈ blocks, block.hasFeatures = false then fail .notFound
  else fail .malformedData

theorem parseCpuinfoFeatures_eq (htext : lines 0x0A text = blocks.flatMap FeatureBlock.lines) :
    parseCpuinfoFeatures text = featuresOf blocks := by
  have hcovered : (blocks.foldl afterFeatures {}).covered =
      blocks.countP FeatureBlock.hasFeatures :=
    (foldl_afterFeatures_covered blocks {}).trans (Nat.zero_add _)
  have hcount : (blocks.foldl afterFeatures {}).blocks = blocks.length :=
    (foldl_afterFeatures_blocks blocks {}).trans (Nat.zero_add _)
  have htokens : (blocks.foldl afterFeatures {}).tokens =
      (blocks.flatMap FeatureBlock.tokens).eraseDups :=
    (foldl_afterFeatures_tokens blocks {}).trans (foldl_insertNew (fun _ _ => rfl) [] _)
  unfold parseCpuinfoFeatures
  rw [htext, foldlM_featureBlocks]
  by_cases hle : ∀ block ∈ blocks, block.index.number ≤ uint32Max
  · rw [if_pos hle, ok_bind]
    show (if (blocks.foldl afterFeatures {}).blocks = 0 then fail .malformedData
      else if (blocks.foldl afterFeatures {}).covered = 0 then fail .notFound
      else if (blocks.foldl afterFeatures {}).covered ≠ (blocks.foldl afterFeatures {}).blocks
      then fail .malformedData else .ok (blocks.foldl afterFeatures {}).tokens) = featuresOf blocks
    rw [hcovered, hcount, htokens, featuresOf]
    have hlarge : ¬ ∃ block ∈ blocks, block.index.number > uint32Max := by
      rintro ⟨block, hblock, hgt⟩
      exact absurd (hle block hblock) (by omega)
    simp only [hlarge, or_false, List.length_eq_zero_iff]
    by_cases hnil : blocks = []
    · rw [if_pos hnil, if_pos hnil]
    · have hall : blocks.countP FeatureBlock.hasFeatures = blocks.length ↔
          ∀ block ∈ blocks, block.hasFeatures = true := List.countP_eq_length
      have hnone : blocks.countP FeatureBlock.hasFeatures = 0 ↔
          ∀ block ∈ blocks, block.hasFeatures = false := by
        simp [List.countP_eq_zero]
      have hpos := List.length_pos_iff.mpr hnil
      rw [if_neg hnil, if_neg hnil]
      simp only [← hall, ← hnone]
      split_ifs <;> first | rfl | omega
  · rw [if_neg hle, fail_bind, featuresOf, if_pos]
    right
    simpa using hle

/-- Nothing changes when a block comes again behind itself. -/
theorem featuresOf_again (before between behind : List FeatureBlock) (block : FeatureBlock) :
    featuresOf (before ++ block :: (between ++ block :: behind)) =
      featuresOf (before ++ block :: (between ++ behind)) := by
  have hmem (b : FeatureBlock) : b ∈ before ++ block :: (between ++ block :: behind) ↔
      b ∈ before ++ block :: (between ++ behind) := by
    simp only [List.mem_append, List.mem_cons]
    tauto
  have htokens : ((before ++ block :: (between ++ block :: behind)).flatMap
        FeatureBlock.tokens).eraseDups =
      ((before ++ block :: (between ++ behind)).flatMap FeatureBlock.tokens).eraseDups := by
    have hseen : ∀ token ∈ block.tokens,
        token ∈ (before ++ block :: between).flatMap FeatureBlock.tokens := by
      intro token htoken
      exact List.mem_flatMap.mpr ⟨block, by simp, htoken⟩
    have hagain := eraseDups_again hseen (behind.flatMap FeatureBlock.tokens)
    simpa [List.flatMap_append, List.flatMap_cons, List.append_assoc] using hagain
  simp only [featuresOf, hmem, htokens, List.append_eq_nil_iff, List.cons_ne_nil, and_false]

/-- A text of blocks has features if and only if there is a block and all of them have some;
without any, the reader says so, and otherwise the text is malformed. The features are those
of all blocks in the order in which they appear first, so a block that comes again changes
nothing. An index that does not fit into 32 bits makes every text malformed. -/
theorem parse_cpuinfo_features :
    (∀ text blocks, lines 0x0A text = blocks.flatMap FeatureBlock.lines →
      parseCpuinfoFeatures text = featuresOf blocks ∧
      ∀ tokens, parseCpuinfoFeatures text = .ok tokens →
        tokens.Nodup ∧ (∀ token, token ∈ tokens ↔ ∃ block ∈ blocks, token ∈ block.tokens) ∧
        tokens.Pairwise fun a b => (blocks.flatMap FeatureBlock.tokens).idxOf a <
          (blocks.flatMap FeatureBlock.tokens).idxOf b) ∧
    ∀ text copy before block between behind,
      lines 0x0A text = (before ++ block :: (between ++ behind)).flatMap FeatureBlock.lines →
      lines 0x0A copy =
        (before ++ block :: (between ++ block :: behind)).flatMap FeatureBlock.lines →
      parseCpuinfoFeatures copy = parseCpuinfoFeatures text := by
  refine ⟨?_, ?_⟩
  · intro text blocks htext
    refine ⟨parseCpuinfoFeatures_eq htext, ?_⟩
    intro tokens htokens
    obtain rfl : (blocks.flatMap FeatureBlock.tokens).eraseDups = tokens := by
      rw [parseCpuinfoFeatures_eq htext, featuresOf] at htokens
      split_ifs at htokens
      · exact absurd htokens (by simp)
      · exact Except.ok.inj htokens
      · exact absurd htokens (by simp)
      · exact absurd htokens (by simp)
    refine ⟨nodup_eraseDups _, ?_, pairwise_idxOf _⟩
    intro token
    rw [List.mem_eraseDups, List.mem_flatMap]
  · intro text copy before block between behind htext hcopy
    rw [parseCpuinfoFeatures_eq htext, parseCpuinfoFeatures_eq hcopy, featuresOf_again]

/-- A processor with a line of features. -/
def flagsBlock (index : DigitRun) (value : List UInt8)
    (hindex : trimCpuField (0x20 :: index.digits) = index.digits)
    (hvalue : trimCpuField (0x20 :: value) = value) (hne : value ≠ []) : FeatureBlock where
  processor := ascii "processor\t: " ++ index.digits
  index := index
  field := ⟨ascii "processor\t", 0x20 :: index.digits, rfl, by decide, by decide, hindex⟩
  rest := [.feature
    { line := ascii "flags\t: " ++ value
      key := ascii "flags"
      value := value
      isFeature := by decide
      field := ⟨ascii "flags\t", 0x20 :: value, rfl, by decide, by decide, hvalue⟩
      value_ne_nil := hne }]

def sseBlock : FeatureBlock :=
  flagsBlock cpuZero (ascii "fpu sse") (by decide) (by decide) (by decide)

def avxBlock : FeatureBlock :=
  flagsBlock cpuOne (ascii "sse avx") (by decide) (by decide) (by decide)

/-- Two processors with a feature in common; the first one may be listed again. -/
theorem parse_cpuinfo_features_overlap :
    parseCpuinfoFeatures
        (ascii "processor\t: 0\nflags\t: fpu sse\nprocessor\t: 1\nflags\t: sse avx\n") =
      .ok [ascii "fpu", ascii "sse", ascii "avx"] ∧
    parseCpuinfoFeatures
        (ascii "processor\t: 0\nflags\t: fpu sse\nprocessor\t: 1\nflags\t: sse avx\n" ++
          ascii "processor\t: 0\nflags\t: fpu sse\n") =
      .ok [ascii "fpu", ascii "sse", ascii "avx"] := by
  have hread : parseCpuinfoFeatures
      (ascii "processor\t: 0\nflags\t: fpu sse\nprocessor\t: 1\nflags\t: sse avx\n") =
        .ok [ascii "fpu", ascii "sse", ascii "avx"] :=
    (parse_cpuinfo_features.1 _ [sseBlock, avxBlock] (by decide +kernel)).1.trans (by decide +kernel)
  refine ⟨hread, ?_⟩
  rw [← hread]
  exact parse_cpuinfo_features.2 _ _ [] sseBlock [avxBlock] [] (by decide +kernel) (by decide +kernel)
/-- A line with one feature. -/
def fpuField : FeatureField where
  line := ascii "flags\t: fpu"
  key := ascii "flags"
  value := ascii "fpu"
  isFeature := by decide
  field := ⟨ascii "flags\t", ascii " fpu", by decide, by decide, by decide, by decide⟩
  value_ne_nil := by decide

def fpuBlock (index : DigitRun) (line : List UInt8)
    (field : Field (ascii "processor") index.digits line) : FeatureBlock where
  processor := line
  index := index
  field := field
  rest := [.feature fpuField]

/-- The first index of more than 32 bits. -/
def cpuLarge : DigitRun := ⟨ascii "4294967296", by decide, forall_of_all (by decide)⟩

lemma lines_fpuBlock {index : DigitRun} {line : List UInt8}
    (field : Field (ascii "processor") index.digits line) (hline : 0x0A ∉ line) :
    lines 0x0A (line ++ 0x0A :: (ascii "flags\t: fpu" ++ 0x0A :: [])) =
      [fpuBlock index line field].flatMap FeatureBlock.lines := by
  rw [lines_append_sep hline, lines_append_sep (by decide), lines_nil]
  rfl

/-- A block with features and an index of more than 32 bits. -/
theorem large_index_refused : ∃ block,
    lines 0x0A (ascii "processor\t: 4294967296\nflags\t: fpu\n") =
        [block].flatMap FeatureBlock.lines ∧
      block.hasFeatures = true ∧
      parseCpuinfoFeatures (ascii "processor\t: 4294967296\nflags\t: fpu\n") =
        fail .malformedData := by
  have hfield : Field (ascii "processor") cpuLarge.digits (ascii "processor\t: 4294967296") :=
    ⟨ascii "processor\t", ascii " 4294967296", by decide, by decide, by decide, by decide⟩
  have hlines := lines_fpuBlock hfield (by decide)
  have hnumber : cpuLarge.number > uint32Max := by decide
  have hlarge : ∃ block ∈ [fpuBlock cpuLarge _ hfield], block.index.number > uint32Max :=
    ⟨_, List.mem_singleton_self _, hnumber⟩
  refine ⟨fpuBlock cpuLarge _ hfield, hlines, rfl, ?_⟩
  exact (parseCpuinfoFeatures_eq hlines).trans (if_pos (.inr hlarge))

end Outcome

end Syscape.Cpu
