import PadOS.Fat.ClusterSectorIterator

/-! # Where the sectors of an accepted volume lie

The boot sector's fields are not trusted. What `ReadSuperBlock` lets through has the
reserved sectors, the FATs, the fixed root and the clusters one after the other in
front of the end of the volume, so no sector or entry is addressed out of range, and
the 32- and 64-bit intermediates do not wrap.
-/

namespace PadOS.Fat

open Transition FATTableIterator

/-! ## The intermediates -/

/-- Those of `ReadSuperBlock`, each against the width it is computed or kept in. -/
structure FATSuperBlock.NoWrap (sb : FATSuperBlock) : Prop where
  bytesPerCluster : sb.bytesPerSector * sb.sectorsPerCluster < 2 ^ 32
  rootDirectoryBytes : sb.rootDirEntryCount16 * 32 + sb.bytesPerSector - 1 < 2 ^ 64
  fatRegion : sb.fatCount * sb.sectorsPerFAT < 2 ^ 64
  firstDataSector : sb.firstDataSector < 2 ^ 32
  dataSectors : sb.firstDataSector ≤ sb.totalSectors
  totalClusters : sb.totalClusters + firstDataCluster < 2 ^ 32
  requiredFATBits : (sb.totalClusters + firstDataCluster) * sb.fatBits + 7 < 2 ^ 64
  availableFATBytes : sb.sectorsPerFAT * sb.bytesPerSector < 2 ^ 64
  rootStart : sb.reservedSectors + sb.fatCount * sb.sectorsPerFAT < 2 ^ 32
  rootSectors : sb.rootDirectorySectorCount < 2 ^ 32
  rootSize : sb.rootDirectorySectorCount * sb.bytesPerSector < 2 ^ 32

namespace FATVolume

/-- Those of `GetBlockSector`, `SetCluster` and `AcquireMirrorBlocks`. -/
structure NoWrap (vol : FATVolume) : Prop where
  clusterIndex : ∀ cluster, vol.isDataCluster cluster → 2 ≤ cluster
  rootSector : ∀ sector < vol.rootSectorCount, vol.rootStart + sector < 2 ^ 32
  dataSector : ∀ cluster sector, vol.isDataCluster cluster → sector < vol.sectorsPerCluster →
    vol.firstDataSector + (cluster - 2) * vol.sectorsPerCluster + sector < 2 ^ 63
  entryBit : ∀ cluster, vol.isDataCluster cluster → cluster * vol.fatBits < 2 ^ 64
  fatEnd : vol.fatEndSector < 2 ^ 63
  mirror : ∀ sector f, vol.InActiveFAT sector → f < vol.fatCount →
    vol.mirrorSector sector f < 2 ^ 63

/-! ## The regions -/

def InReserved (vol : FATVolume) (sector : Nat) : Prop := sector < vol.reservedSectors

/-- Sector of FAT `f`. -/
def InFAT (vol : FATVolume) (f sector : Nat) : Prop :=
  vol.reservedSectors + f * vol.sectorsPerFAT ≤ sector ∧
    sector < vol.reservedSectors + (f + 1) * vol.sectorsPerFAT

def InFixedRoot (vol : FATVolume) (sector : Nat) : Prop :=
  vol.rootStart ≤ sector ∧ sector < vol.rootStart + vol.rootSectorCount

/-- The bytes `GetEntry` and `SetEntry` access for an entry, by sector and offset. -/
def entryBytes (vol : FATVolume) (cluster : Nat) : List (Nat × Nat) :=
  let sector := vol.entrySector cluster
  let offset := vol.entryOffset cluster
  if vol.fatBits = 12 then
    [(sector, offset), if offset = vol.bytesPerSector - 1 then (sector + 1, 0) else (sector, offset + 1)]
  else (List.range (vol.fatBits / 8)).map fun i => (sector, offset + i)

/-- What the geometry is for: sectors of clusters lie behind everything else and in
front of the end, none twice; entries lie in the active FAT and at the same place of
the mirrors; the checks of the table iterator pass, whatever it was used for. -/
structure AddressesInRange (vol : FATVolume) : Prop where
  data : ∀ cluster sector visited, vol.isDataCluster cluster → sector < vol.sectorsPerCluster →
    vol.firstDataSector ≤ FATClusterSectorIterator.blockSector vol ⟨cluster, sector, visited⟩ ∧
      FATClusterSectorIterator.blockSector vol ⟨cluster, sector, visited⟩ < vol.totalSectors
  injective : ∀ it it' : FATClusterSectorIterator, vol.isDataCluster it.currentCluster →
    it.currentSector < vol.sectorsPerCluster → vol.isDataCluster it'.currentCluster →
    it'.currentSector < vol.sectorsPerCluster → it.blockSector vol = it'.blockSector vol →
    it.currentCluster = it'.currentCluster ∧ it.currentSector = it'.currentSector
  apart : ∀ sector, vol.firstDataSector ≤ sector →
    ¬vol.InReserved sector ∧ (∀ f < vol.fatCount, ¬vol.InFAT f sector) ∧ ¬vol.InFixedRoot sector
  entry : ∀ cluster, vol.isDataCluster cluster → ∀ byte ∈ vol.entryBytes cluster,
    vol.InFAT vol.activeFAT byte.1 ∧ byte.2 < vol.bytesPerSector
  mirrored : ∀ cluster, vol.isDataCluster cluster → ∀ byte ∈ vol.entryBytes cluster,
    ∀ f < vol.fatCount, vol.InFAT f (vol.mirrorSector byte.1 f) ∧
      vol.mirrorSector byte.1 f - (vol.reservedSectors + f * vol.sectorsPerFAT) =
        byte.1 - vol.fatStartSector
  setCluster : ∀ (it : FATTableIterator) cluster, vol.isDataCluster cluster →
    (it.setCluster vol cluster).1 = none
  acquireMirrorBlocks : ∀ cluster, vol.isDataCluster cluster → ∀ disk s faults it,
    (tableCalls vol).Reaches (OnDataClusters vol) ⟨start vol cluster, disk⟩ s →
    s.it.update vol faults = (none, it) → ∃ mirrors, it.acquireMirrors vol noFaults = .ok mirrors

/-! ## What the checks leave -/

/-- The fields of a volume that lie beyond `Accepted`. -/
structure Ends (vol : FATVolume) : Prop where
  clusters : vol.firstDataSector + vol.totalClusters * vol.sectorsPerCluster ≤ vol.totalSectors
  total : vol.totalSectors < 2 ^ 32
  noRoot : vol.fatBits = 32 → vol.rootSectorCount = 0

variable {vol : FATVolume}

theorem inActiveFAT_iff {sector : Nat} : vol.InActiveFAT sector ↔ vol.InFAT vol.activeFAT sector := by
  unfold InActiveFAT InFAT fatEndSector fatStartSector
  rw [Nat.succ_mul]
  omega

theorem fat_le {f : Nat} (below : f < vol.fatCount) :
    (f + 1) * vol.sectorsPerFAT ≤ vol.fatCount * vol.sectorsPerFAT :=
  Nat.mul_le_mul_right _ below

theorem blockSector_data (it : FATClusterSectorIterator) (data : vol.isDataCluster it.currentCluster) :
    it.blockSector vol =
      vol.firstDataSector + ((it.currentCluster - 2) * vol.sectorsPerCluster + it.currentSector) := by
  have number := FATTable.isDataCluster_iff.1 data
  have notRoot : isFixedRoot it.currentCluster = false := by
    simp only [isFixedRoot, beq_eq_false_iff_ne]
    omega
  simp only [FATClusterSectorIterator.blockSector, notRoot, Bool.false_eq_true, if_false]
  omega

theorem entryBytes_spec (accepted : vol.Accepted) {cluster : Nat} (data : vol.isDataCluster cluster) :
    ∀ byte ∈ vol.entryBytes cluster, vol.InActiveFAT byte.1 ∧ byte.2 < vol.bytesPerSector := by
  have positive := accepted.bytesPerSector_pos
  have first : vol.InActiveFAT (vol.entrySector cluster) :=
    ⟨Nat.le_add_right _ _, accepted.entrySector_lt data⟩
  have offset : vol.entryOffset cluster < vol.bytesPerSector := Nat.mod_lt _ positive
  intro byte mem
  unfold entryBytes at mem
  dsimp only at mem
  split at mem
  · rcases List.mem_pair.1 mem with rfl | rfl
    · exact ⟨first, offset⟩
    · split
      · rename_i straddles
        exact ⟨⟨first.1.trans (Nat.le_succ _), accepted.straddling_sector_lt data straddles⟩, positive⟩
      · refine ⟨first, ?_⟩
        show vol.entryOffset cluster + 1 < vol.bytesPerSector
        omega
  · rename_i wide
    obtain ⟨i, inside, rfl⟩ := List.mem_map.1 mem
    refine ⟨first, ?_⟩
    have whole : ¬vol.Straddles cluster := fun straddles =>
      wide (accepted.fatBits_of_straddles straddles)
    have room := inside_of_not_straddles accepted whole
    rw [List.mem_range] at inside
    show vol.entryOffset cluster + i < vol.bytesPerSector
    rcases accepted.fatBits_cases with width | width | width
    · exact absurd width wide
    · rw [width] at room inside
      simp only [Nat.reduceEqDiff, if_false] at room
      omega
    · rw [width] at room inside
      simp only [if_true] at room
      omega

theorem mirrorSector_spec {sector f : Nat} (active : vol.InActiveFAT sector) :
    vol.InFAT f (vol.mirrorSector sector f) ∧
      vol.mirrorSector sector f - (vol.reservedSectors + f * vol.sectorsPerFAT) =
        sector - vol.fatStartSector := by
  unfold InActiveFAT fatEndSector at active
  unfold InFAT mirrorSector
  rw [Nat.succ_mul]
  omega

theorem addressesInRange (accepted : vol.Accepted) (ends : vol.Ends) : vol.AddressesInRange where
  data cluster sector visited data inside := by
    have number := FATTable.isDataCluster_iff.1 data
    have within : (cluster - 2) * vol.sectorsPerCluster + sector <
        vol.totalClusters * vol.sectorsPerCluster := by
      calc (cluster - 2) * vol.sectorsPerCluster + sector
          < (cluster - 2 + 1) * vol.sectorsPerCluster := by
            rw [Nat.succ_mul]
            omega
        _ ≤ vol.totalClusters * vol.sectorsPerCluster :=
            Nat.mul_le_mul_right _ (by omega)
    have fits := ends.clusters
    rw [blockSector_data ⟨cluster, sector, visited⟩ data]
    dsimp only
    omega
  injective it it' data inside data' inside' same := by
    have number := FATTable.isDataCluster_iff.1 data
    have number' := FATTable.isDataCluster_iff.1 data'
    rw [blockSector_data it data, blockSector_data it' data'] at same
    have place := place_unique inside inside' (Nat.add_left_cancel same)
    omega
  apart sector behind := by
    have start := accepted.dataStart
    refine ⟨fun reserved => ?_, fun f below inside => ?_, fun root => ?_⟩
    · unfold InReserved at reserved
      omega
    · have := inside.2
      have := fat_le below
      omega
    · have beyond := root.2
      by_cases wide : vol.fatBits = 32
      · have front := root.1
        rw [ends.noRoot wide] at beyond
        omega
      · rw [(accepted.someRoot wide).2] at beyond
        omega
  entry cluster data byte mem := by
    obtain ⟨active, offset⟩ := entryBytes_spec accepted data byte mem
    exact ⟨inActiveFAT_iff.1 active, offset⟩
  mirrored cluster data byte mem f _ :=
    mirrorSector_spec (entryBytes_spec accepted data byte mem).1
  setCluster it cluster data := by rw [setCluster_spec accepted data]
  acquireMirrorBlocks cluster data disk s faults it run updated := by
    have after := update_spec accepted (window_run accepted data run) faults
    rw [updated] at after
    rcases acquireMirrors_spec accepted after.window (after.loaded rfl) noFaults with
      ⟨_, _, fault, _⟩ | acquired
    · cases fault
    · exact ⟨_, acquired⟩

theorem noWrap (accepted : vol.Accepted) (ends : vol.Ends) : vol.NoWrap := by
  have start := accepted.dataStart
  have total := ends.total
  have few := ends.clusters
  have clusters := accepted.atMost
  refine ⟨fun cluster data => (FATTable.isDataCluster_iff.1 data).1, fun sector inside => ?_,
    fun cluster sector data inside => ?_, fun cluster data => ?_, ?_, fun sector f active below => ?_⟩
  · by_cases wide : vol.fatBits = 32
    · rw [ends.noRoot wide] at inside
      cases inside
    · rw [(accepted.someRoot wide).2]
      omega
  · have range := (addressesInRange accepted ends).data cluster sector 1 data inside
    rw [blockSector_data ⟨cluster, sector, 1⟩ data] at range
    dsimp only at range
    omega
  · have number := (FATTable.isDataCluster_iff.1 data).2
    have narrow : vol.fatBits ≤ 32 := by
      rcases accepted.fatBits_cases with width | width | width <;> omega
    calc cluster * vol.fatBits
        ≤ 0x0ffffff7 * 32 := Nat.mul_le_mul (by omega) narrow
      _ < 2 ^ 64 := by decide
  · have room := fat_le accepted.active
    rw [Nat.succ_mul] at room
    unfold fatEndSector fatStartSector
    omega
  · have inside := (mirrorSector_spec (f := f) active).1.2
    have room := fat_le below
    omega

end FATVolume

/-! ## From the boot sector -/

namespace FATSuperBlock

variable {sb : FATSuperBlock} {vol : FATVolume}

theorem le32_lt (sb : FATSuperBlock) (offset : Nat) : sb.le32 offset < 2 ^ 32 := by
  have low := sb.le16_lt offset
  have high := sb.le16_lt (offset + 2)
  unfold le32
  omega

theorem totalSectors_lt (sb : FATSuperBlock) : sb.totalSectors < 2 ^ 32 := by
  unfold totalSectors
  split
  · exact (sb.le16_lt _).trans (by decide)
  · exact sb.le32_lt _

theorem sectorsPerFAT_lt (sb : FATSuperBlock) : sb.sectorsPerFAT < 2 ^ 32 := by
  unfold sectorsPerFAT
  split
  · exact (sb.le16_lt _).trans (by decide)
  · exact sb.le32_lt _

theorem clusters_fit (sb : FATSuperBlock) (front : sb.firstDataSector < sb.totalSectors) :
    sb.firstDataSector + sb.totalClusters * sb.sectorsPerCluster ≤ sb.totalSectors := by
  have whole := Nat.div_mul_le_self (sb.totalSectors - sb.firstDataSector) sb.sectorsPerCluster
  unfold totalClusters
  omega

theorem noWrap_of_checkCommon (checked : sb.checkCommon = .ok ()) : sb.NoWrap := by
  simp only [checkCommon, ite_error_eq_ok] at checked
  obtain ⟨_, _, size, cluster, _, fats, _, _, _, front, _, _, notTooMany, _⟩ := checked
  have sector : sb.bytesPerSector ≤ 2048 := by omega
  have perCluster : sb.sectorsPerCluster < 0x100 := sb.le8_lt _
  have entries : sb.rootDirEntryCount16 < 0x10000 := sb.le16_lt _
  have total := sb.totalSectors_lt
  have fatSize := sb.sectorsPerFAT_lt
  have root := sb.rootDirectorySectorCount_le size
  have start : sb.firstDataSector =
    sb.reservedSectors + sb.fatCount * sb.sectorsPerFAT + sb.rootDirectorySectorCount := rfl
  have clusters : sb.totalClusters ≤ 0x0ffffff5 := by
    by_cases wide : 65525 ≤ sb.totalClusters
    · have := fatBits_eq_32.2 wide
      omega
    · omega
  have narrow : sb.fatBits ≤ 32 := by
    unfold fatBits
    split
    · omega
    · split <;> omega
  refine ⟨?_, ?_, ?_, ?_, ?_, ?_, ?_, ?_, ?_, ?_, ?_⟩
  · calc sb.bytesPerSector * sb.sectorsPerCluster
        ≤ 2048 * 0x100 := Nat.mul_le_mul sector (Nat.le_of_lt perCluster)
      _ < 2 ^ 32 := by decide
  · omega
  · omega
  · omega
  · omega
  · unfold firstDataCluster
    omega
  · calc (sb.totalClusters + firstDataCluster) * sb.fatBits + 7
        ≤ 0x0ffffff7 * 32 + 7 :=
          Nat.add_le_add_right (Nat.mul_le_mul (Nat.add_le_add_right clusters 2) narrow) 7
      _ < 2 ^ 64 := by decide
  · calc sb.sectorsPerFAT * sb.bytesPerSector
        ≤ 2 ^ 32 * 2048 := Nat.mul_le_mul (Nat.le_of_lt fatSize) sector
      _ < 2 ^ 64 := by decide
  · omega
  · omega
  · calc sb.rootDirectorySectorCount * sb.bytesPerSector
        ≤ 4096 * 2048 := Nat.mul_le_mul root sector
      _ < 2 ^ 32 := by decide

theorem ends_of_common (checked : sb.checkCommon = .ok ())
    (start : vol.firstDataSector = sb.firstDataSector)
    (clusters : vol.totalClusters = sb.totalClusters)
    (size : vol.sectorsPerCluster = sb.sectorsPerCluster)
    (total : vol.totalSectors = sb.totalSectors)
    (noRoot : vol.fatBits = 32 → vol.rootSectorCount = 0) : vol.Ends := by
  simp only [checkCommon, ite_error_eq_ok] at checked
  obtain ⟨_, _, _, _, _, _, _, _, _, front, _⟩ := checked
  refine ⟨?_, ?_, noRoot⟩
  · rw [start, clusters, size, total]
    exact sb.clusters_fit (by omega)
  · rw [total]
    exact sb.totalSectors_lt

theorem ends_of_readSuperBlock (accepted : readSuperBlock 512 sb = .ok vol) :
    sb.checkCommon = .ok () ∧ vol.Ends := by
  simp only [readSuperBlock, ite_error_eq_ok] at accepted
  obtain ⟨_, accepted⟩ := accepted
  cases checked : sb.checkCommon with
  | error code => simp [checked] at accepted
  | ok _ =>
    refine ⟨rfl, ?_⟩
    simp only [checked] at accepted
    split at accepted
    · simp only [volume32, ite_error_eq_ok] at accepted
      obtain ⟨_, _, _, _, _, _, built⟩ := accepted
      obtain rfl := Except.ok.inj built
      exact ends_of_common checked rfl rfl rfl rfl fun _ => rfl
    · rename_i narrow
      simp only [volume16, ite_error_eq_ok] at accepted
      obtain ⟨_, built⟩ := accepted
      obtain rfl := Except.ok.inj built
      exact ends_of_common checked rfl rfl rfl rfl fun wide => absurd wide narrow

/-- Whatever the fields of an accepted boot sector are, nothing wraps and everything
is addressed where it lies. -/
theorem readSuperBlock_inRange (accepted : readSuperBlock 512 sb = .ok vol) :
    sb.NoWrap ∧ vol.NoWrap ∧ vol.AddressesInRange := by
  obtain ⟨checked, ends⟩ := ends_of_readSuperBlock accepted
  have geometry := accepted_of_readSuperBlock accepted
  exact ⟨noWrap_of_checkCommon checked, FATVolume.noWrap geometry ends,
    FATVolume.addressesInRange geometry ends⟩

theorem readSuperBlock_inRange_floppy :
    floppySector.NoWrap ∧ floppy.NoWrap ∧ floppy.AddressesInRange :=
  readSuperBlock_inRange readSuperBlock_floppy

end FATSuperBlock

end PadOS.Fat
