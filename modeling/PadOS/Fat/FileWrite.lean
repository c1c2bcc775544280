import PadOS.Fat.Allocation

/-! # Writing and resizing a file

`FATFilesystem::Write`, `ResizeFile` and the truncating `OpenFile`. The sectors of the
file are transferred one by one along its chain; what they hold is left out.
-/

namespace PadOS.Fat

def fatMaxFileSize : Nat := 0xffffffff

def fatArchiveAttribute : Nat := 0x20
def fatReadOnlyAttribute : Nat := 0x01

structure FATFileNode where
  fatIteration : Nat
  fatChainIndex : Nat
  cachedCluster : Nat
  deriving DecidableEq

/-- The modification time at the moment of an operation, as it is packed. -/
structure FATNow where
  modificationTime : Nat
  modificationDate : Nat

def FATTimes.modifiedAt (times : FATTimes) (now : FATNow) : FATTimes :=
  { times with
    modificationTime := now.modificationTime, modificationDate := now.modificationDate }

structure WriteRequest where
  openedReadOnly : Bool := false
  append : Bool := false
  volumeReadOnly : Bool := false
  nullBuffer : Bool := false
  len : Nat
  pos : Int

/-- Where the bytes are meant to go. -/
def WriteRequest.position (request : WriteRequest) (inode : FATInode) : Nat :=
  if request.append then inode.size else request.pos.toNat

structure OpenRequest where
  creates : Bool := false
  writes : Bool := false
  truncates : Bool := false
  volumeReadOnly : Bool := false

namespace Driver

variable (vol : FATVolume)

/-! ## The sectors of a file -/

/-- `FATClusterSectorIterator::Increment`. -/
def incrementSector (it : FATClusterSectorIterator) (sectors : Nat) :
    Driver (Bool × FATClusterSectorIterator) :=
  if it.currentSector = endOfChain then .throws .io
  else if sectors = 0 then pure (true, it)
  else if isFixedRoot it.currentCluster then
    if it.currentSector + sectors < vol.rootSectorCount then
      pure (true, { it with currentSector := it.currentSector + sectors })
    else pure (false, { it with currentSector := endOfChain })
  else if it.currentSector + sectors < vol.sectorsPerCluster then
    pure (true, { it with currentSector := it.currentSector + sectors })
  else do
    let advance := (it.currentSector + sectors) / vol.sectorsPerCluster
    let next ← getChainEntry vol it.currentCluster advance
    if next = endFatEntry then pure (false, { it with currentSector := endOfChain })
    else if vol.isDataCluster next then
      if it.visitedClusterCount > vol.totalClusters ∨
          advance > vol.totalClusters - it.visitedClusterCount then .throws .io
      else pure (true,
        { currentCluster := next
          currentSector := (it.currentSector + sectors) % vol.sectorsPerCluster
          visitedClusterCount := it.visitedClusterCount + advance })
    else .throws .io

/-- The sector after the current ones has to be there. -/
def advanceSector (it : FATClusterSectorIterator) (sectors : Nat) : Driver FATClusterSectorIterator := do
  let (more, it) ← incrementSector vol it sectors
  if more then pure it else .throws .io

/-- `GetBlock_`, `WriteBlock` and `MarkBlockDirty` of the current sector. -/
def transferSector (it : FATClusterSectorIterator) : Driver Unit :=
  if !FATClusterSectorIterator.isValidClusterSector vol it.currentCluster it.currentSector then
    .throws .io
  else perform .transfer

/-! ## Clearing -/

/-- The loop of `ClearFileRange`, with the bytes that are left. -/
def clearRangeLoop : Nat → FATClusterSectorIterator → Nat → Nat → Driver Unit
  | 0, _, _, _ => pure ()
  | rounds + 1, it, currentPosition, endPosition =>
    if currentPosition < endPosition then do
      let sectorOffset := currentPosition % vol.bytesPerSector
      let bytesToClear := min (vol.bytesPerSector - sectorOffset) (endPosition - currentPosition)
      transferSector vol it
      let currentPosition := currentPosition + bytesToClear
      if currentPosition < endPosition then do
        let it ← advanceSector vol it 1
        clearRangeLoop rounds it currentPosition endPosition
      else pure ()
    else pure ()

def clearFileRange (id startPosition endPosition : Nat) : Driver Unit :=
  if startPosition ≥ endPosition then pure ()
  else do
    let inode ← node id
    let it ← advanceSector vol { currentCluster := inode.startCluster, currentSector := 0 }
      (startPosition / vol.bytesPerSector)
    clearRangeLoop vol (endPosition - startPosition) it startPosition endPosition

/-! ## Metadata -/

def setModification (id : Nat) (now : FATNow) : Driver Unit :=
  update fun m => { m with times := fun i => if i = id then (m.times i).modifiedAt now else m.times i }

def markContentsModified (id : Nat) (now : FATNow) (updateModificationTime : Bool) : Driver Unit := do
  if updateModificationTime then setModification id now
  setNode id fun inode => { inode with dosAttribs := inode.dosAttribs ||| fatArchiveAttribute }
  if !(← recollect).deleted id then markMetadataDirty id

def setSize (id size : Nat) : Driver Unit := setNode id fun inode => { inode with size }

/-- The closure of `ResizeFile`. -/
def restoreModificationMetadata (id : Nat) (times : FATTimes) (dosAttribs : Nat)
    (metadataWasDirty : Bool) : Driver Unit := do
  setModification id { modificationTime := times.modificationTime, modificationDate := times.modificationDate }
  setNode id fun inode => { inode with dosAttribs }
  if !metadataWasDirty then discardPendingMetadata id

/-! ## `ResizeFile` -/

def resizeFile (id : Nat) (fileSize : Int) (now : FATNow) (updateModificationTime : Bool) :
    Driver Unit :=
  if fileSize < 0 then .throws .inval
  else if fileSize > fatMaxFileSize then .throws .fbig
  else do
    let fileSize := fileSize.toNat
    let oldFileSize := (← node id).size
    if fileSize = oldFileSize then pure ()
    else do
      ensureClusterChainMetadataLoaded vol id
      let old ← node id
      let oldMemory ← recollect
      let newClusterCount := getFileClusterCount vol fileSize
      let restore := do
        setSize id oldFileSize
        restoreModificationMetadata id (oldMemory.times id) old.dosAttribs (oldMemory.dirty id)
      if fileSize < oldFileSize then do
        setSize id fileSize
        markContentsModified id now updateModificationTime
        if newClusterCount ≠ 0 then (write vol id).scopeFail restore
      (setChainLength vol id newClusterCount true).scopeFail do
        if (← node id).allocatedClusterCount = old.allocatedClusterCount ∧ newClusterCount = 0 then
          restore
      if fileSize > oldFileSize then do
        clearFileRange vol id oldFileSize fileSize
        setSize id fileSize
        markContentsModified id now updateModificationTime
        (write vol id).scopeFail restore

/-! ## `Write` -/

/-- Part of the bytes has been written when something fails. -/
def partiallyWritten {α : Type} (id : Nat) (now : FATNow) (bytesWritten : Nat) (p : Driver α) : Driver α :=
  p.scopeFail (if bytesWritten ≠ 0 then markContentsModified id now true else pure ())

/-- The middle sectors. -/
def writeMiddle (id : Nat) (now : FATNow) (len : Nat) : Nat → FATClusterSectorIterator → Nat →
    Driver (FATClusterSectorIterator × Nat)
  | 0, it, bytesWritten => pure (it, bytesWritten)
  | rounds + 1, it, bytesWritten =>
    if bytesWritten + vol.bytesPerSector ≤ len then do
      partiallyWritten id now bytesWritten (transferSector vol it)
      let bytesWritten := bytesWritten + vol.bytesPerSector
      if bytesWritten < len then do
        let it ← partiallyWritten id now bytesWritten (advanceSector vol it 1)
        writeMiddle id now len rounds it bytesWritten
      else writeMiddle id now len rounds it bytesWritten
    else pure (it, bytesWritten)

/-- The data, from the sector of the position on; the iterator ends at the last one. -/
def writeData (id : Nat) (now : FATNow) (len pos : Nat) (it : FATClusterSectorIterator) :
    Driver FATClusterSectorIterator := do
  let offset := pos % vol.bytesPerSector
  let (it, bytesWritten) ←
    if offset ≠ 0 then do
      transferSector vol it
      let bytesWritten := min (vol.bytesPerSector - offset) len
      if bytesWritten < len then do
        let it ← partiallyWritten id now bytesWritten (advanceSector vol it 1)
        pure (it, bytesWritten)
      else pure (it, bytesWritten)
    else pure (it, 0)
  let (it, bytesWritten) ← writeMiddle vol id now len (len / vol.bytesPerSector) it bytesWritten
  if bytesWritten < len then do
    partiallyWritten id now bytesWritten (transferSector vol it)
    pure it
  else pure it

/-- Room for the bytes, and zeros up to the position. -/
def extendFile (id oldFileSize pos writeEnd : Nat) : Driver Unit :=
  if writeEnd > oldFileSize then do
    let requiredClusterCount := getFileClusterCount vol writeEnd
    if requiredClusterCount > getFileClusterCount vol oldFileSize then do
      ensureClusterChainMetadataLoaded vol id
      if requiredClusterCount > (← node id).allocatedClusterCount then
        setChainLength vol id requiredClusterCount true
    if pos > oldFileSize then clearFileRange vol id oldFileSize pos
  else pure ()

/-- Where the bytes are put: at the cluster the file node has cached, or from the start. -/
def writeStart (file : FATFileNode) (inode : FATInode) (pos : Nat) : Except Stop (Option (Nat × Nat)) :=
  let cached := file.fatChainIndex * vol.bytesPerSector * vol.sectorsPerCluster % 2 ^ 32
  if inode.size ≠ 0 ∧ file.fatIteration = inode.iteration ∧ pos ≥ cached then
    if !vol.isDataCluster file.cachedCluster then .error (.throws .inval)
    else .ok (some (file.cachedCluster, pos - cached))
  else .ok none

def writeBytes (id : Nat) (file : FATFileNode) (now : FATNow) (len pos : Nat) :
    Driver (Nat × FATFileNode) := do
  let inode ← node id
  let oldFileSize := inode.size
  let writeEnd := pos + len
  match writeStart vol file inode pos with
  | .error stop => .done (.error stop)
  | .ok cached => do
      extendFile vol id oldFileSize pos writeEnd
      let startCluster := (← node id).startCluster
      let (cluster1, diff) := cached.getD (startCluster, pos)
      let it ← advanceSector vol { currentCluster := cluster1, currentSector := 0 }
        (diff / vol.bytesPerSector)
      let it ← writeData vol id now len pos it
      markContentsModified id now true
      if writeEnd > oldFileSize then do
        setSize id writeEnd
        (write vol id).scopeFail (setSize id oldFileSize)
      let inode ← node id
      pure (len,
        { fatIteration := inode.iteration
          fatChainIndex := (pos + len - 1) / vol.bytesPerSector / vol.sectorsPerCluster
          cachedCluster := it.currentCluster })

/-- `FATFilesystem::Write`; the count and the file node are returned. -/
def writeFile (id : Nat) (file : FATFileNode) (now : FATNow) (request : WriteRequest) :
    Driver (Nat × FATFileNode) := do
  let inode ← node id
  if inode.isDirectory then .throws .isdir
  else if request.openedReadOnly then .throws .perm
  else if request.volumeReadOnly then .throws .rofs
  else if request.pos < 0 then .throws .inval
  else
    let pos := request.position inode
    if request.len = 0 then pure (0, file)
    else if request.nullBuffer then .throws .fault
    else if pos ≥ fatMaxFileSize then .throws .fbig
    else writeBytes vol id file now (min request.len (fatMaxFileSize - pos)) pos

/-! ## `OpenFile` -/

def openFile (id : Nat) (now : FATNow) (request : OpenRequest) : Driver FATFileNode := do
  let inode ← node id
  if request.creates then .throws .inval
  else if request.volumeReadOnly && (request.writes || request.truncates) then .throws .rofs
  else if inode.isDirectory && (request.writes || request.truncates) then .throws .isdir
  else if inode.dosAttribs &&& fatReadOnlyAttribute != 0 && (request.writes || request.truncates) then
    .throws .perm
  else if request.truncates && !request.writes then .throws .perm
  else do
    if request.truncates then resizeFile vol id 0 now true
    let inode ← node id
    pure { fatIteration := inode.iteration, fatChainIndex := 0, cachedCluster := inode.startCluster }

end Driver

end PadOS.Fat
