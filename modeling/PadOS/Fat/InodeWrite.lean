import PadOS.Fat.Calls
import PadOS.Fat.DirectoryIterator

/-! # Writing an inode to its directory entry

`FATInode::Write` finds the slot by the parent and the index of the inode, checks that
it is still that of the inode and puts the members there.
-/

namespace PadOS.Fat

/-! ## Inode numbers -/

def invalidInodeIDBitsMask : Nat := 0x9 <<< 60

def isDirIndexInodeID (id : Nat) : Bool := id &&& artificialInodeIDBits == 0

def isArtificialInodeID (id : Nat) : Bool := id &&& artificialInodeIDBits == artificialInodeIDBits

def isInvalidInodeID (id : Nat) : Bool :=
  (!isDirClusterInodeID id && !isDirIndexInodeID id && !isArtificialInodeID id) ||
    id &&& invalidInodeIDBitsMask != 0

def indexOfDirIndexInodeID (id : Nat) : Nat := id &&& 0xffffffff

def dirOfInodeID (id : Nat) : Nat := (id >>> 32) &&& 0x0fffffff

/-! ## Inodes -/

def FATInode.isDirectory (inode : FATInode) : Bool := inode.dosAttribs &&& fatSubdirAttribute != 0

def FATInode.setChain (inode : FATInode) (startCluster endCluster allocatedClusterCount : Nat) :
    FATInode :=
  { inode with startCluster, endCluster, allocatedClusterCount }

namespace FATDirectoryEntryCombo

def low (value : Nat) : UInt8 := UInt8.ofNat value

def high (value : Nat) : UInt8 := UInt8.ofNat (value >>> 8)

/-- What `Write` stores in an entry. -/
def withInode (e : FATDirectoryEntryCombo) (attribs : Nat) (times : FATTimes) (cluster size : Nat) :
    FATDirectoryEntryCombo := fun i =>
  match i.val with
  | 0x0b => low attribs
  | 0x0d => low times.createTimeFine
  | 0x0e => low times.createTime
  | 0x0f => high times.createTime
  | 0x10 => low times.createDate
  | 0x11 => high times.createDate
  | 0x12 => low times.accessDate
  | 0x13 => high times.accessDate
  | 0x14 => low (cluster >>> 16)
  | 0x15 => high (cluster >>> 16)
  | 0x16 => low times.modificationTime
  | 0x17 => high times.modificationTime
  | 0x18 => low times.modificationDate
  | 0x19 => high times.modificationDate
  | 0x1a => low cluster
  | 0x1b => high cluster
  | 0x1c => low size
  | 0x1d => high size
  | 0x1e => low (size >>> 16)
  | 0x1f => high (size >>> 16)
  | _ => e i

end FATDirectoryEntryCombo

/-- The parent's cluster and the first cluster that the entry should still have. -/
def getFATInodeWriteLocation (vol : FATVolume) (maps : InodeMap) (inode : FATInode) :
    Option (Nat × Nat) :=
  if !isDirClusterInodeID inode.parentInodeID then none
  else
    let parentCluster := clusterOfDirClusterInodeID inode.parentInodeID
    if (!vol.isDataCluster parentCluster ∧ !isFixedRoot parentCluster) ∨
        inode.dirEndIndex < inode.dirStartIndex ∨
        inode.dirEndIndex - inode.dirStartIndex > longNameMaxEntryCount then none
    else
      let locationID := (maps.inodeToLocation inode.inodeID).getD inode.inodeID
      if isArtificialInodeID locationID ∨ isInvalidInodeID locationID ∨
          dirOfInodeID locationID ≠ parentCluster then none
      else if isDirIndexInodeID locationID then
        if indexOfDirIndexInodeID locationID ≠ inode.dirStartIndex then none
        else some (parentCluster, 0)
      else if isDirClusterInodeID locationID then
        let expectedStartCluster := clusterOfDirClusterInodeID locationID
        if !vol.isDataCluster expectedStartCluster then none
        else some (parentCluster, expectedStartCluster)
      else none

def rawDotName : List UInt8 := ".          ".toUTF8.toList

def rawDotDotName : List UInt8 := "..         ".toUTF8.toList

def isFATInodeWriteEntryValid (vol : FATVolume) (inode : FATInode) (e : FATDirectoryEntryCombo)
    (expectedStartCluster : Nat) : Bool :=
  let isDotEntry := e.filename == rawDotName || e.filename == rawDotDotName
  let entryIsDirectory := e.attribs &&& fatSubdirAttribute != 0
  if e.isEnd || e.isErased || e.isLongName || e.attribs &&& fatVolumeAttribute != 0 || isDotEntry ||
      entryIsDirectory != inode.isDirectory then false
  else
    let entryStartCluster := if vol.fatBits = 32 then e.firstClusterLow ||| (e.firstClusterHigh <<< 16)
      else e.firstClusterLow
    entryStartCluster == expectedStartCluster

namespace Driver

def perform (e : FATCall) : Driver e.Result := Program.perform e

/-! ## The table -/

def getEntry (cluster : Nat) : Driver Nat := perform (.getEntry cluster)

def setEntry (cluster value : Nat) : Driver Unit := perform (.setEntry cluster value)

/-- The loop of `GetChainEntry`. -/
def follow (vol : FATVolume) : Nat → Nat → Driver Nat
  | 0, cluster => pure cluster
  | index + 1, cluster => do
      let next ← getEntry cluster
      if vol.isDataCluster next then follow vol index next else pure next

def getChainEntry (vol : FATVolume) (chainStart index : Nat) : Driver Nat :=
  if !vol.isDataCluster chainStart ∨ index > vol.totalClusters then .throws .io
  else follow vol index chainStart

/-! ## Memory -/

def recollect : Driver Memory := perform .recollect

def update (change : Memory → Memory) : Driver Unit := perform (.update change)

/-- There is always an inode behind the pointer to one. -/
def node (id : Nat) : Driver FATInode := do
  match (← recollect).nodes id with
  | some inode => pure inode
  | none => .panics

/-- The inode behind a pointer, for every specification that lets the memory be read. -/
theorem every_node {τ β : Type} {spec : Program.Spec FATCall FATCall.Result τ} {t t' : τ} {m : Memory}
    {id : Nat} {inode : FATInode} {f : FATInode → Driver β} {post : Except Stop β → τ → Prop}
    (recalls : ∀ post, post (.ok m) t' → spec .recollect t post) (known : m.nodes id = some inode)
    (rest : (f inode).Every spec t' post) : (node id >>= f).Every spec t post := by
  rw [Program.every_bind]
  unfold node recollect
  rw [Program.every_bind]
  apply recalls
  simp only [Program.Every, Program.Rest, known]
  exact rest

def setNode (id : Nat) (change : FATInode → FATInode) : Driver Unit :=
  update fun m => { m with nodes := fun i => if i = id then (m.nodes i).map change else m.nodes i }

def discardPendingMetadata (id : Nat) : Driver Unit :=
  update fun m => { m with dirty := fun i => if i = id then false else m.dirty i }

def markMetadataDirty (id : Nat) : Driver Unit :=
  update fun m => { m with dirty := fun i => if i = id then true else m.dirty i }

/-! ## Directories -/

/-- The place of a slot, as the directory iterator finds it from the first sector on. -/
def seekSlot (vol : FATVolume) (start index : Nat) : Driver (Nat × Nat) :=
  let sectors := index / vol.entriesPerSector
  if isFixedRoot start then
    if vol.fatBits ≠ 32 ∧ sectors < vol.rootSectorCount then pure (start, index) else .throws .io
  else if sectors < vol.sectorsPerCluster then
    if vol.isDataCluster start then pure (start, index) else .throws .io
  else do
    let advance := sectors / vol.sectorsPerCluster
    let next ← getChainEntry vol start advance
    if vol.isDataCluster next then
      if advance > vol.totalClusters - 1 then .throws .io
      else pure (next, index % (vol.sectorsPerCluster * vol.entriesPerSector))
    else .throws .io

/-- `FATInode::Write`. -/
def write (vol : FATVolume) (id : Nat) : Driver Unit := do
  let m ← recollect
  let inode ← node id
  if m.deleted id then discardPendingMetadata id
  else if inode.startCluster ≠ 0 ∧ !vol.isDataCluster inode.startCluster then .throws .io
  else
    match getFATInodeWriteLocation vol m.maps inode with
    | none => .throws .io
    | some (parentCluster, expectedStartCluster) => do
        let place ← seekSlot vol parentCluster inode.dirEndIndex
        let e ← perform (.readSlot place.1 place.2)
        if !isFATInodeWriteEntryValid vol inode e expectedStartCluster then .throws .io
        else do
          let size := if inode.isDirectory then 0 else inode.size
          let written := e.withInode inode.dosAttribs (m.times id) inode.startCluster size
          perform (.writeSlot place.1 place.2 written)
          discardPendingMetadata id

end Driver

end PadOS.Fat
