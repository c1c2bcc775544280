import PadOS.Fat.InodeWrite
import PadOS.Fat.Lookup

/-! # Entries as they are stored

What a written entry is read back as, and what may be put into a slot without a scan
of the directory going another way: the same name, and again an entry that passes
`ValidateFATDirectoryEntry`.
-/

namespace PadOS.Fat

namespace FATDirectoryEntryCombo

theorem toNat_low (value : Nat) : (low value).toNat = value % 256 := by
  simp [low, UInt8.toNat_ofNat']

theorem toNat_high (value : Nat) : (high value).toNat = value / 256 % 256 := by
  simp [high, UInt8.toNat_ofNat', Nat.shiftRight_eq_div_pow]

theorem low_add_high (value : Nat) :
    (low value).toNat + 0x100 * (high value).toNat = value % 2 ^ 16 := by
  rw [toNat_low, toNat_high]
  omega

variable (e : FATDirectoryEntryCombo) (attribs : Nat) (times : FATTimes) (cluster size : Nat)

theorem withInode_attribs : (e.withInode attribs times cluster size).attribs = attribs % 256 :=
  toNat_low attribs

theorem withInode_fileSize (small : size < 2 ^ 32) :
    (e.withInode attribs times cluster size).fileSize = size := by
  show le16 _ 0x1c 0x1d + 0x10000 * le16 _ 0x1e 0x1f = size
  have lower : le16 (e.withInode attribs times cluster size) 0x1c 0x1d = size % 2 ^ 16 :=
    low_add_high size
  have upper : le16 (e.withInode attribs times cluster size) 0x1e 0x1f = (size >>> 16) % 2 ^ 16 :=
    low_add_high (size >>> 16)
  rw [lower, upper, Nat.shiftRight_eq_div_pow]
  omega

theorem withInode_startCluster {vol : FATVolume} (startIndex endIndex : Nat)
    (accepted : vol.Accepted) (stored : cluster = 0 ∨ vol.isDataCluster cluster) :
    (entryInfo vol startIndex endIndex (e.withInode attribs times cluster size)).startCluster =
      cluster := by
  have lower : (e.withInode attribs times cluster size).firstClusterLow = cluster % 2 ^ 16 :=
    low_add_high cluster
  have upper : (e.withInode attribs times cluster size).firstClusterHigh = (cluster >>> 16) % 2 ^ 16 :=
    low_add_high (cluster >>> 16)
  have width := accepted.width
  have atMost := accepted.atMost
  have bounded : cluster < vol.totalClusters + 2 := by
    rcases stored with rfl | data
    · omega
    · exact (FATTable.isDataCluster_iff.1 data).2
  unfold entryInfo
  dsimp only
  rw [lower, upper]
  split
  · rw [Nat.or_comm, ← Nat.shiftLeft_add_eq_or_of_lt (Nat.mod_lt _ (by decide)),
      Nat.shiftLeft_eq, Nat.shiftRight_eq_div_pow]
    omega
  · rename_i narrow
    rcases accepted.fatBits_cases with bits | bits | bits <;> rw [bits] at width
    · split at width
      · omega
      · split at width <;> omega
    · split at width
      · omega
      · split at width <;> omega
    · exact absurd bits narrow

end FATDirectoryEntryCombo

/-! ## Attributes -/

theorem land_byte {attribs mask : Nat} (small : mask < 256) :
    attribs % 256 &&& mask = attribs &&& mask := by
  have byte : attribs % 256 = attribs &&& 255 := (Nat.and_two_pow_sub_one_eq_mod attribs 8).symm
  have inside : mask &&& 255 = mask := by
    have byte : mask % 256 = mask &&& 255 := (Nat.and_two_pow_sub_one_eq_mod mask 8).symm
    omega
  rw [byte, Nat.land_assoc, Nat.land_comm 255, inside]

theorem not_longName {attribs : Nat} (noLabel : attribs &&& fatVolumeAttribute = 0) :
    ¬attribs % 256 &&& longNameAttributeMask = longNameAttributes := by
  intro isLong
  rw [land_byte (by decide)] at isLong
  have masked : attribs &&& longNameAttributeMask &&& fatVolumeAttribute = 8 := by
    rw [isLong]
    rfl
  have label : longNameAttributeMask &&& fatVolumeAttribute = fatVolumeAttribute := rfl
  rw [Nat.land_assoc, label, noLabel] at masked
  cases masked

/-! ## Slots that may be replaced -/

/-- A scan goes over `e'` as over `e`, finds the same name there, and takes it where it
took `e`. -/
structure StaysListed (vol : FATVolume) (e e' : FATDirectoryEntryCombo) : Prop where
  step : ∀ wantName state index, lfnStep wantName state index e' = lfnStep wantName state index e
  name : ∀ wantName state index, (foundEntry vol wantName state index e').filename =
    (foundEntry vol wantName state index e).filename
  valid : ∀ directory startIndex endIndex filename,
    validateFATDirectoryEntry vol directory (entryInfo vol startIndex endIndex e) filename = .ok () →
    validateFATDirectoryEntry vol directory (entryInfo vol startIndex endIndex e') filename = .ok ()

theorem StaysListed.refl (vol : FATVolume) (e : FATDirectoryEntryCombo) : StaysListed vol e e :=
  ⟨fun _ _ _ => rfl, fun _ _ _ => rfl, fun _ _ _ _ valid => valid⟩

theorem StaysListed.trans {vol : FATVolume} {e e' e'' : FATDirectoryEntryCombo}
    (first : StaysListed vol e e') (second : StaysListed vol e' e'') : StaysListed vol e e'' where
  step _ _ _ := (second.step ..).trans (first.step ..)
  name _ _ _ := (second.name ..).trans (first.name ..)
  valid _ _ _ _ valid := second.valid _ _ _ _ (first.valid _ _ _ _ valid)

/-- What an inode of a file has to be to be stored. -/
structure FATInode.IsStorable (vol : FATVolume) (inode : FATInode) : Prop where
  isFile : inode.isDirectory = false
  noLabel : inode.dosAttribs &&& fatVolumeAttribute = 0
  cluster : inode.startCluster = 0 ∨ vol.isDataCluster inode.startCluster
  size : inode.size < 2 ^ 32
  agree : inode.startCluster = 0 ↔ inode.size = 0

variable {vol : FATVolume}

/-- A storable file is an entry that is taken, in a slot that was that of a file. -/
theorem staysListed_withInode (accepted : vol.Accepted) {inode : FATInode} {e : FATDirectoryEntryCombo}
    {expectedStartCluster : Nat} (storable : inode.IsStorable vol)
    (mine : isFATInodeWriteEntryValid vol inode e expectedStartCluster) (times : FATTimes) :
    StaysListed vol e (e.withInode inode.dosAttribs times inode.startCluster inode.size) := by
  have noSubdir : inode.dosAttribs &&& fatSubdirAttribute = 0 := by
    simpa [FATInode.isDirectory] using storable.isFile
  have isEntry : e.isEnd = false ∧ e.isErased = false ∧ e.isLongName = false ∧
      e.attribs &&& fatSubdirAttribute = 0 := by
    unfold isFATInodeWriteEntryValid at mine
    simp only [storable.isFile] at mine
    split at mine
    · cases mine
    · rename_i refused
      simp only [Bool.or_eq_true, not_or, Bool.not_eq_true, bne_eq_false_iff_eq] at refused
      obtain ⟨⟨⟨⟨⟨isEnd, isErased⟩, isLongName⟩, _⟩, _⟩, isFile⟩ := refused
      exact ⟨isEnd, isErased, isLongName, by simpa using isFile⟩
  obtain ⟨isEnd, isErased, isLongName, isFile⟩ := isEntry
  have newAttribs := e.withInode_attribs inode.dosAttribs times inode.startCluster inode.size
  constructor
  · intro wantName state index
    have newEnd : (e.withInode inode.dosAttribs times inode.startCluster inode.size).isEnd = false :=
      isEnd
    have newErased :
        (e.withInode inode.dosAttribs times inode.startCluster inode.size).isErased = false := isErased
    have newLong :
        (e.withInode inode.dosAttribs times inode.startCluster inode.size).isLongName = false := by
      unfold FATDirectoryEntryCombo.isLongName
      rw [newAttribs]
      simpa using not_longName storable.noLabel
    simp [lfnStep, newEnd, newErased, newLong, isEnd, isErased, isLongName]
  · exact fun _ _ _ => rfl
  · intro directory startIndex endIndex filename valid
    have size := e.withInode_fileSize inode.dosAttribs times inode.startCluster inode.size storable.size
    have cluster := e.withInode_startCluster inode.dosAttribs times inode.startCluster inode.size
      startIndex endIndex accepted storable.cluster
    have subdir : inode.dosAttribs % 256 &&& fatSubdirAttribute = 0 := by
      rw [land_byte (by decide), noSubdir]
    have label : inode.dosAttribs % 256 &&& fatVolumeAttribute = 0 := by
      rw [land_byte (by decide), storable.noLabel]
    have readSize : (entryInfo vol startIndex endIndex
        (e.withInode inode.dosAttribs times inode.startCluster inode.size)).size = inode.size := size
    have readAttribs : (entryInfo vol startIndex endIndex
        (e.withInode inode.dosAttribs times inode.startCluster inode.size)).dosAttribs =
          inode.dosAttribs % 256 := newAttribs
    have oldAttribs : (entryInfo vol startIndex endIndex e).dosAttribs &&& fatSubdirAttribute = 0 :=
      isFile
    unfold validateFATDirectoryEntry at valid ⊢
    dsimp only at valid ⊢
    rw [cluster, readSize, readAttribs, subdir, label]
    rw [oldAttribs] at valid
    split at valid
    · cases valid
    rename_i range
    split at valid
    · cases valid
    rename_i named
    rw [not_or] at named
    split at valid
    · simp at valid
    rename_i notDot
    split at valid
    · simp at valid
    rename_i notDotDot
    have agree : ¬((inode.startCluster == 0) ≠ (inode.size == 0) ∨
        (inode.startCluster ≠ 0 ∧ !vol.isDataCluster inode.startCluster)) := by
      rintro (differ | ⟨some', notData⟩)
      · apply differ
        rw [Bool.eq_iff_iff, beq_iff_eq, beq_iff_eq]
        exact storable.agree
      · rcases storable.cluster with zero | data
        · exact some' zero
        · simp [data] at notData
    refine (if_neg range).trans ?_
    rw [if_neg (by simpa using named.1), if_neg notDot, if_neg notDotDot, if_neg (by simp),
      if_neg agree]

end PadOS.Fat
