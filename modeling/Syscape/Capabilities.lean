import Syscape.Security

/-!
# Capabilities of a process

`capabilities_at` reads a `status` file piece by piece and applies the parser of the
`Cap` fields to each line. A line may begin in one piece and end in a later one; what
is there of it is kept in `current_line`.
-/
namespace Syscape.Security
open Checked Text

/-- The fields of the status file that hold a capability mask. -/
inductive CapField where
  | inh
  | prm
  | eff
  | bnd
  | amb
  deriving DecidableEq, Repr

/-- The masks read so far: `cap_inh_mask` and `has_inh`, and so on; `none` is a mask
that the file has not given yet. -/
structure CapMasks where
  inh : Option UInt64
  prm : Option UInt64
  eff : Option UInt64
  bnd : Option UInt64
  amb : Option UInt64
  deriving DecidableEq, Repr

def CapMasks.empty : CapMasks := ⟨none, none, none, none, none⟩

def CapMasks.get (masks : CapMasks) : CapField → Option UInt64
  | .inh => masks.inh
  | .prm => masks.prm
  | .eff => masks.eff
  | .bnd => masks.bnd
  | .amb => masks.amb

def CapMasks.set (masks : CapMasks) (mask : UInt64) : CapField → CapMasks
  | .inh => { masks with inh := some mask }
  | .prm => { masks with prm := some mask }
  | .eff => { masks with eff := some mask }
  | .bnd => { masks with bnd := some mask }
  | .amb => { masks with amb := some mask }

theorem CapMasks.get_set (masks : CapMasks) (mask : UInt64) (field field' : CapField) :
    (masks.set mask field).get field' = if field = field' then some mask else masks.get field' := by
  cases field <;> cases field' <;> rfl

/-- The field that a key names. -/
def fieldOfKey (key : List UInt8) : Option CapField :=
  if key = ascii "CapInh" then some .inh
  else if key = ascii "CapPrm" then some .prm
  else if key = ascii "CapEff" then some .eff
  else if key = ascii "CapBnd" then some .bnd
  else if key = ascii "CapAmb" then some .amb
  else none

/-- The field that a line gives and the text of its value, if it is a line of a `Cap`
field at all. -/
def capLine (line : List UInt8) : Option (CapField × List UInt8) :=
  if 0x3A ∈ line then
    let key := trimWhitespace (line.takeWhile (· ≠ 0x3A))
    if ascii "Cap" <+: key then
      let value := trimWhitespace ((line.dropWhile (· ≠ 0x3A)).drop 1)
      (fieldOfKey key).map fun field => (field, value)
    else none
  else none

/-- What one complete line does to the masks. -/
def processLine (masks : CapMasks) (line : List UInt8) : Result CapMasks :=
  match capLine line with
  | none => .ok masks
  | some (field, value) => do
    let mask ← parseHexU64 value
    .ok (masks.set mask field)

/-- `process_capabilities`. -/
structure ProcessCapabilities where
  effective : List (List UInt8)
  permitted : List (List UInt8)
  inheritable : List (List UInt8)
  bounding : List (List UInt8)
  ambient : List (List UInt8)
  deriving DecidableEq, Repr

/-- A set of names; empty when the file did not give the mask. -/
def decodeMask (mask : Option UInt64) : List (List UInt8) :=
  match mask with
  | some mask => decodeLinuxCapabilities mask
  | none => []

/-- The end of `capabilities_at`, behind its loop. -/
def processCapabilities (masks : CapMasks) : Result ProcessCapabilities :=
  if masks.inh = none ∧ masks.prm = none ∧ masks.eff = none then fail .malformedData
  else
    .ok ⟨decodeMask masks.eff, decodeMask masks.prm, decodeMask masks.inh,
      decodeMask masks.bnd, decodeMask masks.amb⟩

/-- `'\n'`. -/
def newline : UInt8 := 0x0A

/-- The bytes a view of a string shows after `clear()` on the string: the terminating
zero is written over its first byte. -/
def clearedView : List UInt8 → List UInt8
  | [] => []
  | _ :: bytes => 0 :: bytes

/-- The inner loop over the bytes of one non-empty read, from an offset on. Returns
`current_line` and the masks. -/
def consumeBytes (currentLine : List UInt8) (masks : CapMasks) (bytes : List UInt8) :
    Result (List UInt8 × CapMasks) :=
  if bytes = [] then .ok (currentLine, masks)
  else if newline ∈ bytes then do
    let line :=
      if currentLine = [] then bytes.takeWhile (· ≠ newline)
      else currentLine ++ bytes.takeWhile (· ≠ newline)
    let masks ← processLine masks line
    consumeBytes [] masks ((bytes.dropWhile (· ≠ newline)).drop 1)
  else .ok (currentLine ++ bytes, masks)
termination_by bytes.length
decreasing_by
  have hle := List.length_dropWhile_le (· ≠ newline) bytes
  have hpos := List.length_pos_iff.mpr ‹bytes ≠ []›
  rw [List.length_drop]
  omega

/-- The inner loop of the read that reports the end of the file: a line that is left
over is viewed, cleared, and then processed through the view. -/
def flushLine (currentLine : List UInt8) (masks : CapMasks) : Result CapMasks :=
  if currentLine = [] then .ok masks else processLine masks (clearedView currentLine)

/-- What one call of `read` reports: some bytes of the file, or an error. -/
inductive ReadResult where
  | bytes (chunk : List UInt8) (nonempty : chunk ≠ [])
  | failed (errno : ℤ)

/-- The outer loop. The reads are those before the one that reports the end of the file. -/
def readLines (currentLine : List UInt8) (masks : CapMasks) : List ReadResult → Result CapMasks
  | [] => flushLine currentLine masks
  | .failed errno :: reads =>
    if errno = eintr then readLines currentLine masks reads else failErrno errno
  | .bytes chunk _ :: reads => do
    let (currentLine, masks) ← consumeBytes currentLine masks chunk
    readLines currentLine masks reads

/-- How opening the status file ends: an error, or what the reads will report. -/
inductive StatusFile where
  | openFails (errno : ℤ)
  | opened (reads : List ReadResult)

/-- `capabilities_at`. -/
def capabilitiesAt : StatusFile → Result ProcessCapabilities
  | .openFails errno =>
    if errno = enoent then fail .notSupported
    else if errno = eacces then fail .permissionDenied
    else failErrno errno
  | .opened reads => do
    let masks ← readLines [] .empty reads
    processCapabilities masks

end Syscape.Security
