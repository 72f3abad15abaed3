import Syscape.LinuxFile
import Syscape.Security

/-!
# Encryption of a block device

`inspect_block_device_encryption` walks from a device through the `slaves`
directories of sysfs down to the devices below it, at most eight steps deep, and
merges what it finds there. The tree under `/sys/block` is a file system and a
directory lookup; it may describe any graph.
-/
namespace Syscape.BlockDevice
open Checked Text LinuxFile Security

/-- `encryption_state`. -/
inductive EncryptionState where
  | unknown
  | unencrypted
  | encrypted
  | mixed
  deriving DecidableEq, Repr

/-- `encryption_type`. -/
inductive EncryptionType where
  | unknown
  | none
  | luks
  | bitlocker
  | filevault
  | fscrypt
  | dmCrypt
  | other
  deriving DecidableEq, Repr

/-- What `opendir` and a sequence of `readdir` calls report for a path: opening fails,
or the entries are listed, possibly with an error at the end. -/
inductive Directory where
  | openFails (errno : ℤ)
  | listing (entries : List Path) (readError : Bool)
  deriving DecidableEq, Repr

abbrev DirectoryTree := Path → Directory

/-- `parse_dm_uuid_encryption`. -/
def parseDmUuidEncryption (uuid : List UInt8) : EncryptionState × EncryptionType :=
  let trimmed := trimWhitespace uuid
  if ascii "CRYPT-LUKS2-" <+: trimmed ∨ ascii "CRYPT-LUKS1-" <+: trimmed ∨
      ascii "CRYPT-LUKS-" <+: trimmed then (.encrypted, .luks)
  else if ascii "CRYPT-PLAIN-" <+: trimmed then (.encrypted, .dmCrypt)
  else if ascii "CRYPT-" <+: trimmed then (.encrypted, .other)
  else (.unknown, .unknown)

/-- Comparison of an error with `std::errc::no_such_file_or_directory`. -/
def isNoSuchFile : ErrorCode → Bool
  | .generic errno => errno == enoent
  | .syscape e => e == .notFound

/-- The counters of the loop over the slaves. -/
structure SlaveCount where
  totalSlaves : ℕ
  encryptedSlaves : ℕ
  unencryptedSlaves : ℕ
  commonType : EncryptionType
  deriving DecidableEq, Repr

/-- How one slave's result changes the counters. -/
def countSlave (count : SlaveCount) (sub : EncryptionState × EncryptionType) : SlaveCount :=
  let total := count.totalSlaves + 1
  if sub.1 = .encrypted then
    let common :=
      if count.commonType = .none then sub.2
      else if count.commonType ≠ sub.2 then .other
      else count.commonType
    ⟨total, count.encryptedSlaves + 1, count.unencryptedSlaves, common⟩
  else if sub.1 = .unencrypted then
    ⟨total, count.encryptedSlaves, count.unencryptedSlaves + 1, count.commonType⟩
  else ⟨total, count.encryptedSlaves, count.unencryptedSlaves, count.commonType⟩

/-- The decision after the loop; without a slave the function goes on to its end. -/
def decideSlaves (count : SlaveCount) : EncryptionState × EncryptionType :=
  if count.totalSlaves > 0 then
    if count.encryptedSlaves = count.totalSlaves then (.encrypted, count.commonType)
    else if count.unencryptedSlaves = count.totalSlaves then (.unencrypted, .none)
    else if count.encryptedSlaves > 0 ∧ count.unencryptedSlaves > 0 ∧
        count.encryptedSlaves + count.unencryptedSlaves = count.totalSlaves then
      (.mixed, count.commonType)
    else (.unknown, .unknown)
  else (.unknown, .unknown)

/-- The two entries that every directory lists for itself and its parent. -/
def isDotEntry (name : Path) : Bool := name == ascii "." || name == ascii ".."

def deviceDir (sysBlockRoot blockName : Path) : Path := sysBlockRoot ++ ascii "/" ++ blockName

def uuidFile (sysBlockRoot blockName : Path) : Path :=
  deviceDir sysBlockRoot blockName ++ ascii "/dm/uuid"

def slavesDir (sysBlockRoot blockName : Path) : Path :=
  deviceDir sysBlockRoot blockName ++ ascii "/slaves"

/-- `inspect_block_device_encryption`. A read error during the enumeration discards
what the loop has counted, so the recursion runs over the complete listing only. -/
def inspectBlockDeviceEncryption (fs : FileSystem) (dirs : DirectoryTree)
    (sysBlockRoot blockName : Path) (depth : ℕ) : EncryptionState × EncryptionType :=
  if depth > 8 ∨ blockName = [] then (.unknown, .unknown)
  else
    let uuid := readTextFile fs (uuidFile sysBlockRoot blockName) 512
    let slaves :=
      match dirs (slavesDir sysBlockRoot blockName) with
      | .openFails _ => (.unknown, .unknown)
      | .listing _ true => (.unknown, .unknown)
      | .listing entries false =>
        decideSlaves <| (entries.filter fun sname => !isDotEntry sname).foldl
          (fun count sname => countSlave count
            (inspectBlockDeviceEncryption fs dirs sysBlockRoot sname (depth + 1)))
          ⟨0, 0, 0, .none⟩
    match uuid with
    | .ok text =>
      let enc := parseDmUuidEncryption text
      if enc.1 = .encrypted then enc else slaves
    | .error (.fail e) => if !isNoSuchFile e then (.unknown, .unknown) else slaves
    | .error _ => (.unknown, .unknown)
termination_by 9 - depth

end Syscape.BlockDevice
