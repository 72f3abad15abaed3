import Syscape.LinuxFile
import Syscape.Numbers
import Syscape.Utf8Text
import Syscape.Lib.Paths

/-!
# Graphics devices

What the kernel reports of a graphics device is in the files and links of its directory. An
attribute that is missing leaves a field of the record empty, and everything else that goes
wrong ends the query; it never ends with the error of a missing file.
-/
namespace Syscape.Gpu
open Checked Text Utf8 Numbers LinuxFile Paths FromChars

section Records

/-- `gpu_vendor`. -/
inductive GpuVendor where
  | unknown
  | amd
  | nvidia
  | intel
  | apple
  | armMali
  | qualcommAdreno
  | broadcomVideocore
  | imaginationPowervr
  | microsoft
  | vmware
  | virtio
  | other
  deriving DecidableEq, Repr

/-- `gpu_device`. -/
structure GpuDevice where
  id : List UInt8
  name : Option (List UInt8) := none
  vendor : GpuVendor := .unknown
  vendorName : List UInt8 := []
  vendorId : Option ℕ := none
  deviceId : Option ℕ := none
  driver : Option (List UInt8) := none
  vramBytes : Option ℕ := none
  isPrimary : Option Bool := none
  deriving DecidableEq, Repr

/-- `classify_pci_vendor_id`. -/
def classifyPciVendorId : ℕ → GpuVendor
  | 0x1002 => .amd
  | 0x1022 => .amd
  | 0x10DE => .nvidia
  | 0x8086 => .intel
  | 0x8087 => .intel
  | 0x106B => .apple
  | 0x13B5 => .armMali
  | 0x5143 => .qualcommAdreno
  | 0x14E4 => .broadcomVideocore
  | 0x1010 => .imaginationPowervr
  | 0x1414 => .microsoft
  | 0x15AD => .vmware
  | 0x1AF4 => .virtio
  | 0x1AB8 => .other
  | 0x1B36 => .other
  | vendorId => if vendorId ≠ 0 then .other else .unknown

/-- `vendor_to_string`. -/
def vendorToString : GpuVendor → List UInt8
  | .amd => ascii "AMD"
  | .nvidia => ascii "NVIDIA"
  | .intel => ascii "Intel"
  | .apple => ascii "Apple"
  | .armMali => ascii "ARM"
  | .qualcommAdreno => ascii "Qualcomm"
  | .broadcomVideocore => ascii "Broadcom"
  | .imaginationPowervr => ascii "Imagination Technologies"
  | .microsoft => ascii "Microsoft"
  | .vmware => ascii "VMware"
  | .virtio => ascii "Red Hat / VirtIO"
  | .other => ascii "Other"
  | .unknown => ascii "Unknown"

/-- The drivers that `classify_driver_or_node` knows. -/
def knownDrivers : List (List String × GpuVendor) :=
  [(["panfrost", "mali", "lima", "mali_kbase"], .armMali),
    (["vc4", "v3d", "bcm2835", "bcm2711", "bcm2712"], .broadcomVideocore),
    (["adreno", "msm", "kgsl", "kgsl-3d0"], .qualcommAdreno),
    (["powervr", "pvr", "pvrsrvkm"], .imaginationPowervr),
    (["tegra", "tegra-drm", "tegra_drm", "nouveau", "nvidia"], .nvidia),
    (["amdgpu", "radeon"], .amd),
    (["i915", "xe"], .intel),
    (["virtio-gpu", "virtio_gpu"], .virtio),
    (["vboxvideo"], .other)]

/-- `classify_driver_or_node`. -/
def classifyDriverOrNode (name : List UInt8) : GpuVendor :=
  match knownDrivers.find? fun row => row.1.any fun driver => ascii driver = name with
  | some row => row.2
  | none => .unknown

end Records

section Texts

def whitespace (c : UInt8) : Bool :=
  c == 0 || c == 0x20 || c == 0x09 || c == 0x0D || c == 0x0A

/-- `trim_whitespace`. -/
def trimWhitespace (input : List UInt8) : List UInt8 :=
  (input.rdropWhile whitespace).dropWhile whitespace

/-- The body of the loop of `parse_hex`. -/
def hexStep (resultVal : ℕ) (c : UInt8) : Result ℕ :=
  if digit c < 16 then
    if resultVal > 0xFFFFFFFF / 2 ^ 4 then fail .valueTooLarge else .ok (resultVal * 2 ^ 4 + digit c)
  else fail .malformedData

/-- `parse_hex`. -/
def parseHex (input : List UInt8) : Result ℕ :=
  let trimmed := trimWhitespace input
  let trimmed :=
    if ascii "0x" <+: trimmed ∨ ascii "0X" <+: trimmed then trimmed.drop 2 else trimmed
  if trimmed = [] then fail .malformedData else trimmed.foldlM hexStep 0

/-- `parse_decimal_u64`. -/
def parseDecimalU64 (input : List UInt8) : Result ℕ := wholeUnsigned uint64Max (trimWhitespace input)

/-- `path_basename`. -/
def pathBasename (path : List UInt8) : List UInt8 :=
  match rfind 0x2F path with
  | some slashPos => path.drop (slashPos + 1)
  | none => path

/-- A text of the device, if there is one. -/
def parseLabel (text : List UInt8) : Result (Option (List UInt8)) :=
  let label := trimWhitespace text
  if label = [] then .ok none
  else do
    let valid ← isValidUtf8 label
    if !valid then fail .invalidEncoding else .ok (some label)

/-- The flag of the primary adapter. -/
def parseBootVga (text : List UInt8) : Result Bool :=
  let trimmed := trimWhitespace text
  if trimmed = ascii "1" then .ok true
  else if trimmed = ascii "0" then .ok false
  else fail .malformedData

end Texts

section Attributes

def einval : ℤ := 22

def eopnotsupp : ℤ := 95

/-- The error code compares equal to `std::errc::operation_not_supported`. -/
def isNotSupported : Fault ErrorCode → Bool
  | .fail (.generic errno) => errno == eopnotsupp
  | .fail (.syscape e) => e == .notSupported
  | _ => false

/-- The files and links of sysfs, and what `realpath` reports; an error is a number. -/
structure Sysfs where
  files : FileSystem
  links : Path → Except ℤ Path
  realpath : Path → Except ℤ Path

/-- The value of something that may be missing. -/
def unlessMissing {α : Type} (outcome : Result α) : Result (Option α) :=
  match outcome with
  | .ok value => .ok (some value)
  | .error error => if isNoSuchFile error then .ok none else .error error

variable (sysfs : Sysfs)

/-- An attribute of a device that may be missing. -/
def readAttribute {α : Type} (path : Path) (maximumSize : ℕ) (parse : List UInt8 → Result α) :
    Result (Option α) := do
  match ← unlessMissing (readTextFile sysfs.files path maximumSize) with
  | none => .ok none
  | some text => do
    let value ← parse text
    .ok (some value)

/-- `read_driver_name`; the buffer has room for 1024 bytes. -/
def readDriverName (deviceDir : Path) : Result (Option (List UInt8)) :=
  match sysfs.links (deviceDir ++ ascii "/driver") with
  | .error errno => if errno = enoent ∨ errno = einval then .ok none else failErrno errno
  | .ok target =>
    let buffer := target.take 1024
    if buffer.length ≥ 1024 then fail .valueTooLarge
    else
      let name := pathBasename buffer
      if name = [] then .ok none
      else do
        let valid ← isValidUtf8 name
        if !valid then fail .invalidEncoding else .ok (some name)

/-- `read_vram_bytes`. -/
def readVramBytes (deviceDir : Path) : Result (Option ℕ) :=
  match readTextFile sysfs.files (deviceDir ++ ascii "/mem_info_vram_total") 64 with
  | .ok text => do
    let parsed ← parseDecimalU64 text
    .ok (some parsed)
  | .error error =>
    if !isNoSuchFile error && !isNotSupported error then .error error else .ok none

/-- `inspect_device`. -/
def inspectDevice (devId devPath : Path) : Result GpuDevice := do
  let valid ← isValidUtf8 devId
  if !valid then fail .invalidEncoding
  else do
    let vendorId ← readAttribute sysfs (devPath ++ ascii "/vendor") 64 parseHex
    let deviceId ← readAttribute sysfs (devPath ++ ascii "/device") 64 parseHex
    let driver ← readDriverName sysfs devPath
    let vendor :=
      match vendorId, driver with
      | some vendorId, _ => classifyPciVendorId vendorId
      | none, some driver => classifyDriverOrNode driver
      | none, none => .unknown
    let isPrimary ← readAttribute sysfs (devPath ++ ascii "/boot_vga") 16 parseBootVga
    let vramBytes ← readVramBytes sysfs devPath
    let label ← readAttribute sysfs (devPath ++ ascii "/label") 256 parseLabel
    let name ←
      match label.join with
      | some name => .ok (some name)
      | none => do
        let nodeName ← readAttribute sysfs (devPath ++ ascii "/of_node/name") 256 parseLabel
        .ok nodeName.join
    .ok {
      id := devId
      name
      vendor
      vendorName := vendorToString vendor
      vendorId
      deviceId
      driver
      vramBytes
      isPrimary }

end Attributes

section Missing
variable {α : Type} {fault : Fault ErrorCode} {sysfs : Sysfs}

theorem avoids_fail (h : isNoSuchFile fault = true) {e : Errc} (he : e ≠ .notFound) :
    Avoids fault (fail e : Result α) := by
  intro heq
  simp only [fail, Except.error.injEq] at heq
  rw [← heq, isNoSuchFile, beq_iff_eq] at h
  exact he h

theorem avoids_failErrno (h : isNoSuchFile fault = true) {errno : ℤ} (hne : errno ≠ enoent) :
    Avoids fault (failErrno errno : Result α) := by
  intro heq
  simp only [failErrno, Except.error.injEq] at heq
  rw [← heq, isNoSuchFile, beq_iff_eq] at h
  exact hne h

theorem avoids_ite {c : Prop} [Decidable c] {x y : Result α} (hx : Avoids fault x)
    (hy : Avoids fault y) : Avoids fault (if c then x else y) := by
  split_ifs
  · exact hx
  · exact hy

theorem avoids_unlessMissing (h : isNoSuchFile fault = true) (outcome : Result α) :
    Avoids fault (unlessMissing outcome) := by
  intro heq
  unfold unlessMissing at heq
  split at heq
  · cases heq
  · split_ifs at heq with herror
    cases heq
    exact herror h

theorem avoids_readAttribute (h : isNoSuchFile fault = true) (path : Path) (maximumSize : ℕ)
    {parse : List UInt8 → Result α} (hparse : ∀ text, Avoids fault (parse text)) :
    Avoids fault (readAttribute sysfs path maximumSize parse) := by
  apply Avoids.bind (avoids_unlessMissing h _)
  intro text _
  cases text with
  | none => exact avoids_ok _ _
  | some text => exact Avoids.bind (hparse text) fun _ _ => avoids_ok _ _

theorem avoids_parseHex (h : isNoSuchFile fault = true) (text : List UInt8) :
    Avoids fault (parseHex text) := by
  have hdigits (digits : List UInt8) : Avoids fault (digits.foldlM hexStep 0) := by
    refine Avoids.foldlM _ _ fun value c _ => ?_
    rw [hexStep]
    split_ifs
    · exact avoids_fail h (by decide)
    · exact avoids_ok _ _
    · exact avoids_fail h (by decide)
  rw [parseHex]
  apply avoids_ite
  · exact avoids_fail h (by decide)
  · exact hdigits _

theorem avoids_parseDecimalU64 (h : isNoSuchFile fault = true) (text : List UInt8) :
    Avoids fault (parseDecimalU64 text) := by
  rw [parseDecimalU64, wholeUnsigned]
  apply avoids_ite (avoids_fail h (by decide))
  apply avoids_ite (avoids_fail h (by decide))
  split
  · exact avoids_ite (avoids_fail h (by decide)) (avoids_ok _ _)
  · exact avoids_fail h (by decide)

theorem avoids_parseBootVga (h : isNoSuchFile fault = true) (text : List UInt8) :
    Avoids fault (parseBootVga text) := by
  rw [parseBootVga]
  split_ifs
  · exact avoids_ok _ _
  · exact avoids_ok _ _
  · exact avoids_fail h (by decide)

theorem avoids_parseLabel (h : isNoSuchFile fault = true) (text : List UInt8) :
    Avoids fault (parseLabel text) := by
  simp only [parseLabel, isValidUtf8_eq, ok_bind]
  split_ifs
  · exact avoids_ok _ _
  · exact avoids_fail h (by decide)
  · exact avoids_ok _ _

theorem avoids_readDriverName (h : isNoSuchFile fault = true) (path : Path) :
    Avoids fault (readDriverName sysfs path) := by
  simp only [readDriverName, isValidUtf8_eq, ok_bind]
  split
  · split_ifs with herrno
    · exact avoids_ok _ _
    · exact avoids_failErrno h fun heq => herrno (.inl heq)
  · split_ifs
    · exact avoids_fail h (by decide)
    · exact avoids_ok _ _
    · exact avoids_fail h (by decide)
    · exact avoids_ok _ _

theorem avoids_readVramBytes (h : isNoSuchFile fault = true) (path : Path) :
    Avoids fault (readVramBytes sysfs path) := by
  rw [readVramBytes]
  split
  · exact Avoids.bind (avoids_parseDecimalU64 h _) fun _ _ => avoids_ok _ _
  · split_ifs with herror
    · intro heq
      cases heq
      simp [h] at herror
    · exact avoids_ok _ _

/-- A device is inspected or refused, and never taken for a missing one. -/
theorem avoids_inspectDevice (h : isNoSuchFile fault = true) (devId devPath : Path) :
    Avoids fault (inspectDevice sysfs devId devPath) := by
  simp only [inspectDevice, isValidUtf8_eq, ok_bind]
  split_ifs
  · exact avoids_fail h (by decide)
  apply Avoids.bind (avoids_readAttribute h _ _ (avoids_parseHex h))
  intro vendorId _
  apply Avoids.bind (avoids_readAttribute h _ _ (avoids_parseHex h))
  intro deviceId _
  apply Avoids.bind (avoids_readDriverName h _)
  intro driver _
  apply Avoids.bind (avoids_readAttribute h _ _ (avoids_parseBootVga h))
  intro isPrimary _
  apply Avoids.bind (avoids_readVramBytes h _)
  intro vramBytes _
  apply Avoids.bind (avoids_readAttribute h _ _ (avoids_parseLabel h))
  intro label _
  split
  · exact avoids_ok _ _
  · exact Avoids.bind (avoids_readAttribute h _ _ (avoids_parseLabel h)) fun _ _ => avoids_ok _ _

/-- What was inspected is never passed over. -/
theorem unlessMissing_inspectDevice (sysfs : Sysfs) (devId devPath : Path) :
    unlessMissing (inspectDevice sysfs devId devPath) =
      (inspectDevice sysfs devId devPath).map some := by
  cases hinspect : inspectDevice sysfs devId devPath with
  | ok dev => rfl
  | error error =>
    by_cases herror : isNoSuchFile error = true
    · exact absurd hinspect (avoids_inspectDevice herror devId devPath)
    · simp only [unlessMissing, if_neg herror]
      rfl

end Missing

end Syscape.Gpu
