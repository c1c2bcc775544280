import PadOS.Fat.Volume
import Mathlib.Algebra.Group.Nat.Defs

/-! # The check of the FATs at mount

`Mount` reads the beginning of the active FAT and, when the FATs are mirrored, of
every other one, and compares the media descriptor in front of each with that of
the boot sector. The positions are worked out in 32 bits.
-/

namespace PadOS.Fat

open List

/-- A `kpread_trw` of 512 bytes: how many came and the first of them. -/
structure ReadReply where
  bytesRead : Nat
  first : UInt8

/-- The device file, by the position that is read from. -/
abbrev DeviceFile := Nat → Except PErrorCode ReadReply

namespace FATVolume

variable {vol : FATVolume}

variable (vol : FATVolume)

/-- `m_BytesPerSector * (m_ReservedSectors + i * m_SectorsPerFAT)` as the product of
`uint32_t` it is. -/
def fatPosition (i : Nat) : Nat :=
  vol.bytesPerSector * ((vol.reservedSectors + i * vol.sectorsPerFAT % 2 ^ 32) % 2 ^ 32) % 2 ^ 32

def checkFAT (deviceFile : DeviceFile) (i : Nat) : Except PErrorCode Unit :=
  match deviceFile (vol.fatPosition i) with
  | .error code => .error code
  | .ok reply =>
    if reply.bytesRead ≠ 512 then .error .io
    else if reply.first.toNat ≠ vol.mediaDescriptor then .error .io
    else .ok ()

def checkOtherFATs (vol : FATVolume) (deviceFile : DeviceFile) : List Nat → Except PErrorCode Unit
  | [] => .ok ()
  | i :: rest =>
    if i ≠ vol.activeFAT then
      match vol.checkFAT deviceFile i with
      | .error code => .error code
      | .ok _ => vol.checkOtherFATs deviceFile rest
    else vol.checkOtherFATs deviceFile rest

/-- The part of `Mount` between `ReadSuperBlock` and `SetDevice` that looks at the
FATs. -/
def checkFATs (deviceFile : DeviceFile) : Except PErrorCode Unit :=
  match vol.checkFAT deviceFile vol.activeFAT with
  | .error code => .error code
  | .ok _ =>
    if vol.fatMirrored then vol.checkOtherFATs deviceFile (range vol.fatCount) else .ok ()

/-! ## Where the FATs are -/

/-- The byte of the device a FAT begins at. -/
def fatBegin (i : Nat) : Nat :=
  vol.bytesPerSector * (vol.reservedSectors + i * vol.sectorsPerFAT)

/-- The FATs `Mount` looks at. -/
def IsChecked (i : Nat) : Prop :=
  i = vol.activeFAT ∨ (vol.fatMirrored = true ∧ i < vol.fatCount)

instance (vol : FATVolume) (i : Nat) : Decidable (vol.IsChecked i) :=
  inferInstanceAs (Decidable (_ ∨ _))

theorem fatPosition_eq_mod (i : Nat) : vol.fatPosition i = vol.fatBegin i % 2 ^ 32 := by
  unfold fatPosition fatBegin
  rw [Nat.mul_mod_mod, Nat.mul_mod, Nat.add_mod_mod, ← Nat.mul_mod]

/-- The FAT that begins at `position` has the media descriptor in front. -/
def HasMedia (deviceFile : DeviceFile) (position : Nat) : Prop :=
  ∃ reply, deviceFile position = .ok reply ∧ reply.bytesRead = 512 ∧
    reply.first.toNat = vol.mediaDescriptor

theorem checkFAT_eq_ok {deviceFile : DeviceFile} {i : Nat} :
    vol.checkFAT deviceFile i = .ok () ↔ vol.HasMedia deviceFile (vol.fatPosition i) := by
  unfold checkFAT HasMedia
  cases deviceFile (vol.fatPosition i) with
  | error code => simp
  | ok reply =>
    simp only [ite_error_eq_ok, Except.ok.injEq, exists_eq_left', and_true]
    simp

theorem checkOtherFATs_eq_ok {deviceFile : DeviceFile} {fats : List Nat} :
    vol.checkOtherFATs deviceFile fats = .ok () ↔
      ∀ i ∈ fats, i ≠ vol.activeFAT → vol.HasMedia deviceFile (vol.fatPosition i) := by
  induction fats with
  | nil => simp [checkOtherFATs]
  | cons i rest ih =>
    rw [forall_mem_cons, ← ih, ← checkFAT_eq_ok, checkOtherFATs]
    by_cases other : i ≠ vol.activeFAT
    · rw [if_pos other]
      cases vol.checkFAT deviceFile i <;> simp [other]
    · rw [if_neg other]
      simp [other]

theorem checkFATs_eq_ok {deviceFile : DeviceFile} :
    vol.checkFATs deviceFile = .ok () ↔
      ∀ i, vol.IsChecked i → vol.HasMedia deviceFile (vol.fatPosition i) := by
  have split : (∀ i, vol.IsChecked i → vol.HasMedia deviceFile (vol.fatPosition i)) ↔
      vol.checkFAT deviceFile vol.activeFAT = .ok () ∧ (vol.fatMirrored = true →
        vol.checkOtherFATs deviceFile (range vol.fatCount) = .ok ()) := by
    rw [checkFAT_eq_ok, checkOtherFATs_eq_ok]
    constructor
    · intro all
      exact ⟨all _ (.inl rfl), fun mirrored i inside _ =>
        all i (.inr ⟨mirrored, mem_range.1 inside⟩)⟩
    · rintro ⟨active, others⟩ i (rfl | ⟨mirrored, inside⟩)
      · exact active
      · rcases eq_or_ne i vol.activeFAT with rfl | other
        · exact active
        · exact others mirrored i (mem_range.2 inside) other
  rw [split]
  unfold checkFATs
  cases vol.checkFAT deviceFile vol.activeFAT with
  | error code => simp
  | ok _ => cases vol.fatMirrored <;> simp

/-- Every FAT is read where it begins, so what is accepted is a volume all of whose
FATs that are looked at have the media descriptor. -/
structure ChecksRightSectors (vol : FATVolume) : Prop where
  position : ∀ i, vol.IsChecked i → vol.fatPosition i = vol.fatBegin i
  verdict : ∀ deviceFile, vol.checkFATs deviceFile = .ok () ↔
    ∀ i, vol.IsChecked i → vol.HasMedia deviceFile (vol.fatBegin i)

theorem checksRightSectors_iff :
    vol.ChecksRightSectors ↔ ∀ i, vol.IsChecked i → vol.fatBegin i < 2 ^ 32 := by
  constructor
  · intro right i isChecked
    rw [← right.position i isChecked, fatPosition_eq_mod]
    exact Nat.mod_lt _ (Nat.two_pow_pos 32)
  · intro low
    have position i (isChecked : vol.IsChecked i) : vol.fatPosition i = vol.fatBegin i := by
      rw [fatPosition_eq_mod, Nat.mod_eq_of_lt (low i isChecked)]
    refine ⟨position, fun deviceFile => ?_⟩
    rw [checkFATs_eq_ok]
    exact forall₂_congr fun i isChecked => by rw [position i isChecked]

end FATVolume

/-! ## Accepted volumes -/

namespace FATSuperBlock

variable {sb : FATSuperBlock} {vol : FATVolume}

section

variable (accepted : readSuperBlock 512 sb = .ok vol)

include accepted

theorem narrow_fields (narrow : vol.fatBits ≠ 32) :
    vol.reservedSectors < 0x10000 ∧ vol.sectorsPerFAT < 0x10000 := by
  simp only [readSuperBlock, ite_error_eq_ok] at accepted
  obtain ⟨_, accepted⟩ := accepted
  cases checked : sb.checkCommon with
  | error code => simp [checked] at accepted
  | ok _ =>
    simp only [checked] at accepted
    split at accepted
    · rename_i wide
      simp only [volume32, ite_error_eq_ok] at accepted
      obtain ⟨_, _, _, _, _, _, built⟩ := accepted
      obtain rfl := Except.ok.inj built
      exact absurd wide narrow
    · rename_i bits
      simp only [volume16, ite_error_eq_ok] at accepted
      obtain ⟨_, built⟩ := accepted
      obtain rfl := Except.ok.inj built
      simp only [checkCommon, ite_error_eq_ok] at checked
      obtain ⟨_, _, _, _, _, _, _, _, _, _, _, layout, _⟩ := checked
      have short : sb.sectorsPerFAT16 ≠ 0 := by
        intro zero
        simp [hasFAT32BPB, zero, bits] at layout
      refine ⟨sb.le16_lt _, ?_⟩
      have size : sb.sectorsPerFAT = sb.sectorsPerFAT16 := if_pos short
      change sb.sectorsPerFAT < 0x10000
      rw [size]
      exact sb.le16_lt _

theorem fatBegin_lt_of_narrow
    (narrow : vol.fatBits ≠ 32) {i : Nat} (isChecked : vol.IsChecked i) :
    vol.fatBegin i < 2 ^ 32 := by
  have geometry := accepted_of_readSuperBlock accepted
  obtain ⟨reserved, size⟩ := narrow_fields accepted narrow
  have counted := geometry.fats.2
  unfold fatMaxSupportedFatCount at counted
  have index : i ≤ 7 := by
    rcases isChecked with rfl | ⟨_, inside⟩
    · have := geometry.active
      omega
    · omega
  have sector : vol.bytesPerSector ≤ 2048 := by
    have := geometry.sectorSize
    omega
  calc vol.fatBegin i ≤ 2048 * (0x10000 + 7 * 0x10000) :=
        Nat.mul_le_mul sector (Nat.add_le_add (Nat.le_of_lt reserved)
          (Nat.mul_le_mul index (Nat.le_of_lt size)))
    _ < 2 ^ 32 := by decide

/-- `Mount` looks at the right sectors of an accepted volume unless it is a FAT32
volume and one of the FATs to look at begins at 4 GiB or later. -/
theorem mount_checksRightSectors :
    vol.ChecksRightSectors ↔
      (vol.fatBits = 32 → ∀ i, vol.IsChecked i → vol.fatBegin i < 2 ^ 32) := by
  rw [FATVolume.checksRightSectors_iff]
  constructor
  · exact fun low _ => low
  · intro low i isChecked
    by_cases wide : vol.fatBits = 32
    · exact low wide i isChecked
    · exact fatBegin_lt_of_narrow accepted wide isChecked

end

theorem mount_checksRightSectors_floppy :
    floppy.ChecksRightSectors ↔
      (floppy.fatBits = 32 → ∀ i, floppy.IsChecked i → floppy.fatBegin i < 2 ^ 32) :=
  mount_checksRightSectors readSuperBlock_floppy

/-- Two mirrored FATs of 4 GiB each in front of 70000 clusters. -/
def largeSector : FATSuperBlock := fun i =>
  (([(0x0c, 2), (0x0d, 1), (0x0e, 32), (0x10, 2), (0x15, 0xf8), (0x20, 0x90), (0x21, 0x11),
    (0x22, 0x01), (0x23, 0x01), (0x26, 0x80), (0x2c, 2), (0x30, 1), (0x1fe, 0x55),
    (0x1ff, 0xaa)] : List (Nat × UInt8)).lookup i).getD 0

def largeVolume : FATVolume where
  fatBits := 32
  bytesPerSector := 512
  reservedSectors := 32
  sectorsPerFAT := 0x800000
  sectorsPerCluster := 1
  fatCount := 2
  activeFAT := 0
  rootEntriesCount := 0
  totalSectors := 16847248
  mediaDescriptor := 0xf8
  fsInfoSector := 1
  backupBootSector := 0
  totalClusters := 70000
  fatMirrored := true
  rootStart := 0
  rootSectorCount := 0
  volumeLabelEntry := -2
  volumeLabel := blankLabel
  firstDataSector := 16777248
  rootSize := 0
  rootStartCluster := 2
  rootEndCluster := 0

/-- The second FAT is looked for where the first one is. -/
theorem large_volume_wraps :
    readSuperBlock 512 largeSector = .ok largeVolume ∧ largeVolume.IsChecked 1 ∧
      largeVolume.fatPosition 1 = largeVolume.fatPosition 0 ∧
      ¬ largeVolume.ChecksRightSectors := by
  refine ⟨by decide +kernel, by decide, by decide, fun right => ?_⟩
  exact absurd (right.position 1 (by decide)) (by decide)

end FATSuperBlock

end PadOS.Fat
