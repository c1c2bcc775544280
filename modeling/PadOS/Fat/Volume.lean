import PadOS.Core.ErrorCode
import Mathlib.Data.Nat.Basic
import Mathlib.Tactic.Common

/-! # The volume and its boot sector

`ReadSuperBlock` takes the geometry of a volume from its boot sector. The sector
is the 512 bytes read; the fields of `FATSuperBlock` are read at their offsets,
so the two views of the union overlap as they do in memory.
-/

namespace PadOS.Fat

def firstDataCluster : Nat := 2
def endFatEntry : Nat := 0x0ffffff8
def badFatEntry : Nat := 0x0ffffff7
def fatMaxSupportedFatCount : Nat := 8
def fatVolumeLabelLength : Nat := 11

/-! ## The boot sector -/

abbrev FATSuperBlock := Nat → UInt8

namespace FATSuperBlock

section

variable (sb : FATSuperBlock)

def le8 (offset : Nat) : Nat := (sb offset).toNat

def le16 (offset : Nat) : Nat :=
  sb.le8 offset + 0x100 * sb.le8 (offset + 1)

def le32 (offset : Nat) : Nat :=
  sb.le16 offset + 0x10000 * sb.le16 (offset + 2)

def text (offset length : Nat) : List UInt8 :=
  (List.range length).map fun i => sb (offset + i)

def oemName : List UInt8 := sb.text 0x03 8
def bytesPerSector : Nat := sb.le16 0x0b
def sectorsPerCluster : Nat := sb.le8 0x0d
def reservedSectors : Nat := sb.le16 0x0e
def fatCount : Nat := sb.le8 0x10
def rootDirEntryCount16 : Nat := sb.le16 0x11
def totalSectorCount16 : Nat := sb.le16 0x13
def media : Nat := sb.le8 0x15
def sectorsPerFAT16 : Nat := sb.le16 0x16
def totalSectorCount32 : Nat := sb.le32 0x20
def bootSignature16 : Nat := sb.le8 0x26
def volumeLabel16 : List UInt8 := sb.text 0x2b fatVolumeLabelLength
def sectorsPerFAT32 : Nat := sb.le32 0x24
def extendedFlags : Nat := sb.le16 0x28
def fsVersion : Nat := sb.le16 0x2a
def rootDirectory : Nat := sb.le32 0x2c
def fsInfoSector : Nat := sb.le16 0x30
def backupBootSector : Nat := sb.le16 0x32
def bootSignature32 : Nat := sb.le8 0x42
def volumeLabel32 : List UInt8 := sb.text 0x47 fatVolumeLabelLength
def signature : Nat := sb.le16 0x1fe

theorem le8_lt (offset : Nat) : sb.le8 offset < 0x100 :=
  (sb offset).toNat_lt

theorem le16_lt (offset : Nat) : sb.le16 offset < 0x10000 := by
  have low := sb.le8_lt offset
  have high := sb.le8_lt (offset + 1)
  unfold le16
  omega

end

/-! What `ReadSuperBlock` works out on the way. -/

def ntfsName : List UInt8 := "NTFS    ".toUTF8.toList
def hpfsName : List UInt8 := "HPFS    ".toUTF8.toList
def blankLabel : List UInt8 := List.replicate fatVolumeLabelLength 0x20

section

variable (sb : FATSuperBlock)

def validSectorsPerCluster : Bool :=
  sb.sectorsPerCluster != 0 && sb.sectorsPerCluster &&& (sb.sectorsPerCluster - 1) == 0 &&
    sb.sectorsPerCluster ≤ 128

def totalSectors : Nat :=
  if sb.totalSectorCount16 ≠ 0 then sb.totalSectorCount16 else sb.totalSectorCount32

def hasFAT32BPB : Bool := sb.sectorsPerFAT16 == 0

def sectorsPerFAT : Nat :=
  if sb.sectorsPerFAT16 ≠ 0 then sb.sectorsPerFAT16 else sb.sectorsPerFAT32

def rootDirectorySectorCount : Nat :=
  (sb.rootDirEntryCount16 * 32 + sb.bytesPerSector - 1) / sb.bytesPerSector

def firstDataSector : Nat :=
  sb.reservedSectors + sb.fatCount * sb.sectorsPerFAT + sb.rootDirectorySectorCount

def totalClusters : Nat :=
  (sb.totalSectors - sb.firstDataSector) / sb.sectorsPerCluster

def fatBits : Nat :=
  if sb.totalClusters < 4085 then 12 else if sb.totalClusters < 65525 then 16 else 32

def requiredFATByteCount : Nat :=
  ((sb.totalClusters + firstDataCluster) * sb.fatBits + 7) / 8

def fatMirrored : Bool := sb.extendedFlags &&& 0x80 == 0

def activeFAT : Nat :=
  if sb.fatMirrored then 0 else sb.extendedFlags &&& 0x0f

end

end FATSuperBlock

/-! ## The volume -/

/-- What a mount keeps of the boot sector; `root` is the part of the root inode
that `ReadSuperBlock` fills in. -/
structure FATVolume where
  fatBits : Nat
  bytesPerSector : Nat
  reservedSectors : Nat
  sectorsPerFAT : Nat
  sectorsPerCluster : Nat
  fatCount : Nat
  activeFAT : Nat
  rootEntriesCount : Nat
  totalSectors : Nat
  mediaDescriptor : Nat
  fsInfoSector : Nat
  backupBootSector : Nat
  totalClusters : Nat
  fatMirrored : Bool
  rootStart : Nat
  rootSectorCount : Nat
  volumeLabelEntry : Int
  volumeLabel : List UInt8
  firstDataSector : Nat
  rootSize : Nat
  rootStartCluster : Nat
  rootEndCluster : Nat
  deriving DecidableEq

def FATVolume.isDataCluster (vol : FATVolume) (cluster : Nat) : Bool :=
  firstDataCluster ≤ cluster && cluster < vol.totalClusters + firstDataCluster

def FATVolume.fatStartSector (vol : FATVolume) : Nat :=
  vol.reservedSectors + vol.activeFAT * vol.sectorsPerFAT

def FATVolume.fatEndSector (vol : FATVolume) : Nat := vol.fatStartSector + vol.sectorsPerFAT

namespace FATSuperBlock

variable (sb : FATSuperBlock)

/-- The checks common to all FAT widths, in their order. -/
def checkCommon : Except PErrorCode Unit :=
  if sb.signature ≠ 0xaa55 then .error .inval
  else if sb.oemName = ntfsName ∨ sb.oemName = hpfsName then .error .inval
  else if sb.bytesPerSector ≠ 512 ∧ sb.bytesPerSector ≠ 1024 ∧ sb.bytesPerSector ≠ 2048 then
    .error .inval
  else if !sb.validSectorsPerCluster ∨ sb.bytesPerSector * sb.sectorsPerCluster > 32 * 1024 then
    .error .inval
  else if sb.reservedSectors = 0 then .error .inval
  else if sb.fatCount = 0 ∨ sb.fatCount > fatMaxSupportedFatCount then .error .inval
  else if sb.media ≠ 0xf0 ∧ sb.media < 0xf8 then .error .inval
  else if sb.totalSectors = 0 then .error .inval
  else if sb.sectorsPerFAT = 0 then .error .inval
  else if sb.firstDataSector ≥ sb.totalSectors then .error .inval
  else if sb.totalClusters = 0 then .error .inval
  else if (sb.fatBits == 32) ≠ sb.hasFAT32BPB then .error .inval
  else if sb.fatBits = 32 ∧ sb.totalClusters > 0x0ffffff5 then .error .inval
  else if sb.requiredFATByteCount > sb.sectorsPerFAT * sb.bytesPerSector then .error .inval
  else .ok ()

def volume (bootSignature : Nat) (label : List UInt8) : FATVolume where
  fatBits := sb.fatBits
  bytesPerSector := sb.bytesPerSector
  reservedSectors := sb.reservedSectors
  sectorsPerFAT := sb.sectorsPerFAT
  sectorsPerCluster := sb.sectorsPerCluster
  fatCount := sb.fatCount
  activeFAT := 0
  rootEntriesCount := sb.rootDirEntryCount16
  totalSectors := sb.totalSectors
  mediaDescriptor := sb.media
  fsInfoSector := 0xffff
  backupBootSector := 0
  totalClusters := sb.totalClusters
  fatMirrored := true
  rootStart := 0
  rootSectorCount := 0
  volumeLabelEntry := if bootSignature = 0x29 ∧ label ≠ blankLabel then -1 else -2
  volumeLabel := if bootSignature = 0x29 then label else blankLabel
  firstDataSector := sb.firstDataSector
  rootSize := 0
  rootStartCluster := 1
  rootEndCluster := 1

def volume32 : Except PErrorCode FATVolume :=
  let vol := sb.volume sb.bootSignature32 sb.volumeLabel32
  if sb.rootDirEntryCount16 ≠ 0 then .error .inval
  else if sb.fsVersion ≠ 0 then .error .inval
  else if sb.fsInfoSector ≠ 0xffff ∧
      (sb.fsInfoSector = 0 ∨ sb.fsInfoSector ≥ sb.reservedSectors) then .error .inval
  else if sb.backupBootSector ≠ 0 ∧ sb.backupBootSector ≥ sb.reservedSectors then .error .inval
  else if sb.activeFAT ≥ sb.fatCount then .error .inval
  else if !vol.isDataCluster sb.rootDirectory then .error .inval
  else .ok { vol with
      fsInfoSector := sb.fsInfoSector, backupBootSector := sb.backupBootSector
      fatMirrored := sb.fatMirrored, activeFAT := sb.activeFAT
      rootStartCluster := sb.rootDirectory, rootEndCluster := 0 }

def volume16 : Except PErrorCode FATVolume :=
  if sb.rootDirEntryCount16 = 0 then .error .inval
  else .ok { sb.volume sb.bootSignature16 sb.volumeLabel16 with
      rootStart := sb.reservedSectors + sb.fatCount * sb.sectorsPerFAT
      rootSectorCount := sb.rootDirectorySectorCount
      rootSize := sb.rootDirectorySectorCount * sb.bytesPerSector }

end FATSuperBlock

/-- `ReadSuperBlock`, when the device has delivered `bytesRead` bytes. -/
def readSuperBlock (bytesRead : Nat) (sb : FATSuperBlock) : Except PErrorCode FATVolume :=
  if bytesRead ≠ 512 then .error .io
  else
    match sb.checkCommon with
    | .error code => .error code
    | .ok _ => if sb.fatBits = 32 then sb.volume32 else sb.volume16

/-! ## What is accepted -/

/-- The geometry that the rest of the driver relies on. -/
structure FATVolume.Accepted (vol : FATVolume) : Prop where
  sectorSize : vol.bytesPerSector = 512 ∨ vol.bytesPerSector = 1024 ∨ vol.bytesPerSector = 2048
  clusterSize : 0 < vol.sectorsPerCluster ∧ vol.sectorsPerCluster ≤ 128
  reserved : 0 < vol.reservedSectors
  fats : 0 < vol.fatCount ∧ vol.fatCount ≤ fatMaxSupportedFatCount
  active : vol.activeFAT < vol.fatCount
  someClusters : 0 < vol.totalClusters
  width : vol.fatBits = if vol.totalClusters < 4085 then 12
    else if vol.totalClusters < 65525 then 16 else 32
  atMost : vol.totalClusters ≤ 0x0ffffff5
  fatSize : ((vol.totalClusters + firstDataCluster) * vol.fatBits + 7) / 8 ≤
    vol.sectorsPerFAT * vol.bytesPerSector
  rootSize : vol.rootSectorCount ≤ 4096
  someRoot : vol.fatBits ≠ 32 → 0 < vol.rootSectorCount ∧
    vol.rootStart = vol.reservedSectors + vol.fatCount * vol.sectorsPerFAT
  dataStart : vol.firstDataSector =
    vol.reservedSectors + vol.fatCount * vol.sectorsPerFAT + vol.rootSectorCount

namespace FATSuperBlock

variable {sb : FATSuperBlock}

theorem fatBits_eq_32 : sb.fatBits = 32 ↔ 65525 ≤ sb.totalClusters := by
  unfold fatBits
  split
  · omega
  · split <;> omega

theorem rootDirectorySectorCount_le (sb : FATSuperBlock) (size : ¬(sb.bytesPerSector ≠ 512 ∧
    sb.bytesPerSector ≠ 1024 ∧ sb.bytesPerSector ≠ 2048)) : sb.rootDirectorySectorCount ≤ 4096 := by
  have entries : sb.rootDirEntryCount16 < 0x10000 := sb.le16_lt _
  have sizes : sb.bytesPerSector = 512 ∨ sb.bytesPerSector = 1024 ∨ sb.bytesPerSector = 2048 := by
    omega
  unfold rootDirectorySectorCount
  rcases sizes with size | size | size <;> rw [size] <;> omega

theorem rootDirectorySectorCount_pos (sb : FATSuperBlock) (size : ¬(sb.bytesPerSector ≠ 512 ∧
    sb.bytesPerSector ≠ 1024 ∧ sb.bytesPerSector ≠ 2048)) (entries : 0 < sb.rootDirEntryCount16) :
    0 < sb.rootDirectorySectorCount := by
  unfold rootDirectorySectorCount
  apply Nat.div_pos
  · omega
  · omega

theorem accepted_of_common {vol : FATVolume} (checked : sb.checkCommon = .ok ())
    (active : vol.activeFAT < sb.fatCount) (fatCount : vol.fatCount = sb.fatCount)
    (sectorSize : vol.bytesPerSector = sb.bytesPerSector)
    (clusterSize : vol.sectorsPerCluster = sb.sectorsPerCluster)
    (reserved : vol.reservedSectors = sb.reservedSectors) (fatBits : vol.fatBits = sb.fatBits)
    (clusters : vol.totalClusters = sb.totalClusters)
    (sectorsPerFAT : vol.sectorsPerFAT = sb.sectorsPerFAT)
    (rootSectors : vol.rootSectorCount = sb.rootDirectorySectorCount)
    (someRoot : vol.fatBits ≠ 32 → 0 < sb.rootDirEntryCount16 ∧
      vol.rootStart = sb.reservedSectors + sb.fatCount * sb.sectorsPerFAT)
    (firstDataSector : vol.firstDataSector = sb.firstDataSector) : vol.Accepted := by
  simp only [checkCommon, ite_error_eq_ok] at checked
  obtain ⟨_, _, size, cluster, someReserved, fats, _, _, _, _, some', _, notTooMany, enough, _⟩ :=
    checked
  refine ⟨?_, ?_, ?_, ?_, ?_, ?_, ?_, ?_, ?_, ?_, ?_, ?_⟩
  · rw [sectorSize]
    omega
  · rw [clusterSize]
    simp only [validSectorsPerCluster, not_or] at cluster
    have valid := cluster.1
    simp only [Bool.not_eq_true, Bool.not_eq_false', Bool.and_eq_true, bne_iff_ne,
      decide_eq_true_eq] at valid
    omega
  · rw [reserved]
    omega
  · rw [fatCount]
    omega
  · rw [fatCount]
    exact active
  · rw [clusters]
    omega
  · rw [fatBits, clusters]
    rfl
  · rw [clusters]
    by_cases wide : 65525 ≤ sb.totalClusters
    · have := fatBits_eq_32.2 wide
      omega
    · omega
  · rw [clusters, fatBits, sectorsPerFAT, sectorSize]
    simpa [requiredFATByteCount] using enough
  · rw [rootSectors]
    exact sb.rootDirectorySectorCount_le size
  · intro narrow
    rw [rootSectors, reserved, fatCount, sectorsPerFAT]
    exact ⟨sb.rootDirectorySectorCount_pos size (someRoot narrow).1, (someRoot narrow).2⟩
  · rw [firstDataSector, rootSectors, reserved, fatCount, sectorsPerFAT]
    rfl

end FATSuperBlock

theorem accepted_of_readSuperBlock {bytesRead : Nat} {sb : FATSuperBlock} {vol : FATVolume}
    (read : readSuperBlock bytesRead sb = .ok vol) : vol.Accepted := by
  simp only [readSuperBlock, ite_error_eq_ok] at read
  obtain ⟨_, read⟩ := read
  cases checked : sb.checkCommon with
  | error code => simp [checked] at read
  | ok _ =>
    simp only [checked] at read
    split at read
    · rename_i wide
      simp only [FATSuperBlock.volume32, ite_error_eq_ok] at read
      obtain ⟨noEntries, _, _, _, active, _, built⟩ := read
      obtain rfl := Except.ok.inj built
      have noRoot : 0 = sb.rootDirectorySectorCount := by
        have size : 0 < sb.bytesPerSector := by
          simp only [FATSuperBlock.checkCommon, ite_error_eq_ok] at checked
          omega
        unfold FATSuperBlock.rootDirectorySectorCount
        rw [Nat.div_eq_of_lt (by omega)]
      refine FATSuperBlock.accepted_of_common checked (by simpa using active) rfl rfl rfl rfl rfl
        rfl rfl noRoot (fun narrow => ?_) rfl
      exact absurd wide narrow
    · simp only [FATSuperBlock.volume16, ite_error_eq_ok] at read
      obtain ⟨entries, built⟩ := read
      obtain rfl := Except.ok.inj built
      have someFats : 0 < sb.fatCount := by
        simp only [FATSuperBlock.checkCommon, ite_error_eq_ok] at checked
        omega
      exact FATSuperBlock.accepted_of_common checked someFats rfl rfl rfl rfl rfl rfl rfl rfl
        (fun _ => ⟨Nat.pos_of_ne_zero entries, rfl⟩) rfl

/-! ## A floppy of 1.44 MB -/

def floppySector : FATSuperBlock := fun i =>
  (([(0x0c, 2), (0x0d, 1), (0x0e, 1), (0x10, 2), (0x11, 0xe0), (0x13, 0x40), (0x14, 0x0b),
    (0x15, 0xf0), (0x16, 9), (0x1fe, 0x55), (0x1ff, 0xaa)] : List (Nat × UInt8)).lookup i).getD 0

def floppy : FATVolume where
  fatBits := 12
  bytesPerSector := 512
  reservedSectors := 1
  sectorsPerFAT := 9
  sectorsPerCluster := 1
  fatCount := 2
  activeFAT := 0
  rootEntriesCount := 224
  totalSectors := 2880
  mediaDescriptor := 0xf0
  fsInfoSector := 0xffff
  backupBootSector := 0
  totalClusters := 2847
  fatMirrored := true
  rootStart := 19
  rootSectorCount := 14
  volumeLabelEntry := -2
  volumeLabel := FATSuperBlock.blankLabel
  firstDataSector := 33
  rootSize := 7168
  rootStartCluster := 1
  rootEndCluster := 1

theorem readSuperBlock_floppy : readSuperBlock 512 floppySector = .ok floppy := by decide +kernel

/-! ## A card of 8 MB -/

def cardSector : FATSuperBlock := fun i =>
  (([(0x0c, 2), (0x0d, 1), (0x0e, 1), (0x10, 2), (0x12, 2), (0x14, 0x40), (0x15, 0xf8), (0x16, 64),
    (0x1fe, 0x55), (0x1ff, 0xaa)] : List (Nat × UInt8)).lookup i).getD 0

def card : FATVolume where
  fatBits := 16
  bytesPerSector := 512
  reservedSectors := 1
  sectorsPerFAT := 64
  sectorsPerCluster := 1
  fatCount := 2
  activeFAT := 0
  rootEntriesCount := 512
  totalSectors := 16384
  mediaDescriptor := 0xf8
  fsInfoSector := 0xffff
  backupBootSector := 0
  totalClusters := 16223
  fatMirrored := true
  rootStart := 129
  rootSectorCount := 32
  volumeLabelEntry := -2
  volumeLabel := FATSuperBlock.blankLabel
  firstDataSector := 161
  rootSize := 16384
  rootStartCluster := 1
  rootEndCluster := 1

theorem readSuperBlock_card : readSuperBlock 512 cardSector = .ok card := by decide +kernel

end PadOS.Fat
