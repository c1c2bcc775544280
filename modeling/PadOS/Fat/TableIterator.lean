import PadOS.Core.Transition
import PadOS.Fat.Volume
import Mathlib.Data.List.Basic
import Mathlib.Tactic.Ring

/-! # The table iterator

`FATTableIterator` holds the one or two sectors its current entry lies in. The
block cache is seen through its contract: a sector that is asked for is
delivered, or the call throws. `Disk` is what the cache holds; a descriptor names
the sector of its block and the sector its buffer pointer shows. `Reset` gives up
the block and keeps the pointer.
-/

namespace PadOS.Fat

abbrev Disk := Nat → Nat → UInt8

/-- The sectors that cannot be had at the moment, with the code thrown. -/
abbrev Faults := Nat → Option PErrorCode

def noFaults : Faults := fun _ => none

def Disk.set (disk : Disk) (sector offset : Nat) (byte : Nat) : Disk :=
  fun s i => if s = sector ∧ i = offset then UInt8.ofNat byte else disk s i

structure KCacheBlockDesc where
  block : Option Nat := none
  buffer : Option Nat := none
  deriving DecidableEq

def KCacheBlockDesc.of (sector : Nat) : KCacheBlockDesc := ⟨some sector, some sector⟩

def KCacheBlockDesc.reset (desc : KCacheBlockDesc) : KCacheBlockDesc := { desc with block := none }

/-- Sector -1 of the source is `none`. -/
structure FATTableIterator where
  currentCluster : Nat
  currentSector : Nat
  offsetInSector : Nat
  loadedSector1 : Option Nat := none
  loadedSector2 : Option Nat := none
  block1 : KCacheBlockDesc := {}
  block2 : KCacheBlockDesc := {}
  deriving DecidableEq

def FATVolume.fatByteOffset (vol : FATVolume) (cluster : Nat) : Nat := cluster * vol.fatBits / 8

/-- The sector of the active FAT where the entry of a cluster begins. -/
def FATVolume.entrySector (vol : FATVolume) (cluster : Nat) : Nat :=
  vol.fatStartSector + vol.fatByteOffset cluster / vol.bytesPerSector

def FATVolume.entryOffset (vol : FATVolume) (cluster : Nat) : Nat :=
  vol.fatByteOffset cluster % vol.bytesPerSector

namespace FATTableIterator

/-- The constructor. -/
def start (vol : FATVolume) (startCluster : Nat) : FATTableIterator where
  currentCluster := startCluster
  currentSector := vol.entrySector startCluster
  offsetInSector := vol.entryOffset startCluster

def moveTo (vol : FATVolume) (it : FATTableIterator) (cluster : Nat) : FATTableIterator :=
  { it with
    currentCluster := cluster, currentSector := vol.entrySector cluster
    offsetInSector := vol.entryOffset cluster }

def setCluster (vol : FATVolume) (it : FATTableIterator) (cluster : Nat) :
    Option Stop × FATTableIterator :=
  let it := it.moveTo vol cluster
  (if it.currentSector < vol.fatEndSector then none else some .panics, it)

def increment (vol : FATVolume) (it : FATTableIterator) : Option Stop × FATTableIterator :=
  if it.currentCluster + 1 = vol.totalClusters + firstDataCluster then
    it.setCluster vol firstDataCluster
  else it.setCluster vol (it.currentCluster + 1)

/-- The first part of a reload: the sector the entry begins in. -/
def loadFirst (it : FATTableIterator) (faults : Faults) : Except PErrorCode FATTableIterator :=
  if it.block2.buffer.isSome ∧ it.loadedSector2 = some it.currentSector then
    .ok { it with
      block1 := it.block2, block2 := {}
      loadedSector1 := some it.currentSector, loadedSector2 := none }
  else
    match faults it.currentSector with
    | some code => .error code
    | none => .ok { it with
        block1 := .of it.currentSector, block2 := it.block2.reset
        loadedSector1 := some it.currentSector, loadedSector2 := none }

/-- The second part: the next sector, if the entry goes on there. -/
def loadSecond (vol : FATVolume) (it : FATTableIterator) (faults : Faults) :
    Option Stop × FATTableIterator :=
  if it.offsetInSector = vol.bytesPerSector - 1 then
    match faults (it.currentSector + 1) with
    | some code => (some (.throws code), { it with block1 := it.block1.reset, loadedSector1 := none })
    | none => (none, { it with
        block2 := .of (it.currentSector + 1), loadedSector2 := some (it.currentSector + 1) })
  else (none, it)

def update (vol : FATVolume) (it : FATTableIterator) (faults : Faults) :
    Option Stop × FATTableIterator :=
  if !vol.isDataCluster it.currentCluster then (some .panics, it)
  else if it.offsetInSector ≠ vol.entryOffset it.currentCluster then (some .panics, it)
  else if it.loadedSector1 = some it.currentSector then (none, it)
  else
    match it.loadFirst faults with
    | .error code => (some (.throws code), it)
    | .ok it => it.loadSecond vol faults

/-- Reserved markers are widened to the 28 bits of a FAT32 entry. -/
def widen (fatBits val : Nat) : Nat :=
  if fatBits = 12 then if val ≥ 0xff0 then val ||| 0x0ffff000 else val
  else if fatBits = 16 then if val ≥ 0xfff0 then val ||| 0x0fff0000 else val
  else val

section

variable (vol : FATVolume)

variable (it : FATTableIterator)

/-- The entry as `GetEntry` takes it from the buffers. A null buffer is a failed
`kassert` or a wild read. -/
def readEntry (disk : Disk) : Except Stop Nat :=
  match it.block1.buffer with
  | none => .error .panics
  | some block1 =>
    let byte i := (disk block1 (it.offsetInSector + i)).toNat
    if vol.fatBits = 12 then
      let entry val := if it.currentCluster % 2 = 1 then val >>> 4 else val &&& 0xfff
      if it.offsetInSector = vol.bytesPerSector - 1 then
        match it.block2.buffer with
        | none => .error .panics
        | some block2 => .ok (widen 12 (entry (byte 0 + 0x100 * (disk block2 0).toNat)))
      else .ok (widen 12 (entry (byte 0 + 0x100 * byte 1)))
    else if vol.fatBits = 16 then .ok (widen 16 (byte 0 + 0x100 * byte 1))
    else if vol.fatBits = 32 then
      .ok (byte 0 + 0x100 * byte 1 + 0x10000 * byte 2 + 0x1000000 * (byte 3 &&& 0x0f))
    else .error (.throws .io)

def getEntry (faults : Faults) (disk : Disk) :
    Except Stop Nat × FATTableIterator :=
  match it.update vol faults with
  | (some stop, it) => (.error stop, it)
  | (none, it) => (it.readEntry vol disk, it)

/-! ## Writing -/

/-- The sectors of the other FATs that mirror a sector of the active one. -/
def acquireMirrorBlocks (faults : Faults) (activeSector : Nat) :
    Except Stop (List Nat) :=
  if !vol.fatMirrored then .ok []
  else if vol.fatCount > fatMaxSupportedFatCount then .error (.throws .io)
  else if activeSector < vol.fatStartSector ∨ activeSector ≥ vol.fatEndSector then
    .error (.throws .io)
  else
    ((List.range vol.fatCount).filter (· ≠ vol.activeFAT)).mapM fun fatIndex =>
      let mirrorSector := vol.reservedSectors + fatIndex * vol.sectorsPerFAT +
        (activeSector - vol.fatStartSector)
      match faults mirrorSector with
      | some code => .error (.throws code)
      | none => .ok mirrorSector

/-- The mirror blocks of the first sector and, if there is one, of the second. -/
def acquireMirrors (faults : Faults) :
    Except Stop (List Nat × List Nat) :=
  match acquireMirrorBlocks vol faults (it.loadedSector1.getD 0) with
  | .error stop => .error stop
  | .ok mirrors1 =>
    match it.loadedSector2 with
    | none => .ok (mirrors1, [])
    | some second =>
      match acquireMirrorBlocks vol faults second with
      | .error stop => .error stop
      | .ok mirrors2 => .ok (mirrors1, mirrors2)

def copyToMirrorBlocks (disk : Disk) (source : Nat) (mirrors : List Nat) : Disk :=
  mirrors.foldl (fun disk mirror s i =>
    if s = mirror ∧ i < vol.bytesPerSector then disk source i else disk s i) disk

/-- The bytes of the entry as `SetEntry` puts them into the buffers. -/
def writeEntry (value : Nat) (disk : Disk) :
    Option Stop × Disk :=
  match it.block1.buffer with
  | none => (some .panics, disk)
  | some block1 =>
    let offset := it.offsetInSector
    let byte i := (disk block1 (offset + i)).toNat
    if vol.fatBits = 12 then
      let odd := it.currentCluster % 2 = 1
      let entryBits := if odd then (value &&& 0xfff) <<< 4 else value &&& 0xfff
      let preserveMask := if odd then 0xf else 0xf000
      let disk1 := disk.set block1 offset ((byte 0 &&& preserveMask) ||| entryBits)
      if offset = vol.bytesPerSector - 1 then
        match it.block2.buffer with
        | none => (some .panics, disk1)
        | some block2 => (none, disk1.set block2 0
            (((disk1 block2 0).toNat &&& (preserveMask >>> 8)) ||| (entryBits >>> 8)))
      else (none, disk1.set block1 (offset + 1)
        ((byte 1 &&& (preserveMask >>> 8)) ||| (entryBits >>> 8)))
    else if vol.fatBits = 16 then
      (none, (disk.set block1 offset (value &&& 0xff)).set block1 (offset + 1)
        ((value >>> 8) &&& 0xff))
    else if vol.fatBits = 32 then
      if value &&& 0xf0000000 ≠ 0 then (some .panics, disk)
      else
        (none, (((disk.set block1 offset (value &&& 0xff)).set block1 (offset + 1)
          ((value >>> 8) &&& 0xff)).set block1 (offset + 2) ((value >>> 16) &&& 0xff)).set
            block1 (offset + 3) ((byte 3 &&& 0xf0) ||| ((value >>> 24) &&& 0x0f)))
    else (some (.throws .io), disk)

def setEntry (faults : Faults) (value : Nat)
    (disk : Disk) : Option Stop × FATTableIterator × Disk :=
  match it.update vol faults with
  | (some stop, it) => (some stop, it, disk)
  | (none, it) =>
    match it.acquireMirrors vol faults with
    | .error stop => (some stop, it, disk)
    | .ok (mirrors1, mirrors2) =>
      match it.writeEntry vol value disk with
      | (some stop, disk) => (some stop, it, disk)
      | (none, disk) =>
        let disk := copyToMirrorBlocks vol disk (it.block1.buffer.getD 0) mirrors1
        (none, it, copyToMirrorBlocks vol disk (it.block2.buffer.getD 0) mirrors2)

end

end FATTableIterator

end PadOS.Fat
