import PadOS.Fat.InodeWrite

/-! # Allocation of clusters

The four ways in which `FATTable` changes the table, and the loading of the chain
metadata of an inode. A scope that fails cleans up with what its variables hold at the
moment, so each call in it that may throw is guarded by itself.
-/

namespace PadOS.Fat.Driver

variable (vol : FATVolume)

def updateFSInfo : Driver Unit :=
  if vol.fsInfoSector ≠ 0xffff then perform .updateFSInfo else pure ()

/-! ## Chains -/

/-- The loop of `GetChainLength`. -/
def chainLengthLoop : Nat → Nat → Nat → Driver (Nat × Nat)
  | 0, _, _ => .throws .io
  | rounds + 1, count, cluster => do
      let next ← getEntry cluster
      if next = endFatEntry then pure (count, cluster)
      else if !vol.isDataCluster next then .throws .io
      else chainLengthLoop rounds (count + 1) next

/-- The length and the end cluster. -/
def getChainLength (cluster : Nat) : Driver (Nat × Nat) :=
  if !vol.isDataCluster cluster then .throws .io else chainLengthLoop vol vol.totalClusters 1 cluster

/-- The loop of `ClearFATChain`, which returns the cluster it stops at. -/
def clearLoop : Nat → Nat → Driver Nat
  | 0, cluster => pure cluster
  | rounds + 1, cluster =>
    if vol.isDataCluster cluster then do
      let next ← getEntry cluster
      if next = 0 then pure cluster
      else do
        setEntry cluster 0
        update fun m =>
          if m.freeClusters < vol.totalClusters then { m with freeClusters := m.freeClusters + 1 }
          else m
        clearLoop rounds next
    else pure cluster

def clearFATChain (cluster : Nat) : Driver Unit :=
  if !vol.isDataCluster cluster then .throws .io
  else do
    let last ← clearLoop vol vol.totalClusters cluster
    updateFSInfo vol
    if last ≠ endFatEntry then .throws .io else pure ()

def clearFATChainAfterFailureNoThrow (startCluster : Nat) : Driver Unit :=
  if startCluster ≠ 0 then (clearFATChain vol startCluster).handle fun _ => pure () else pure ()

/-! ## `AllocateClusters` -/

/-- The cleanup scope: what has been allocated so far, and a cluster that is not linked yet. -/
def releaseAllocated (firstCluster detachedCluster : Nat) : Driver Unit := do
  clearFATChainAfterFailureNoThrow vol firstCluster
  clearFATChainAfterFailureNoThrow vol detachedCluster

/-- What is done with a free entry; the first and the last cluster are returned. -/
def claimCluster (firstCluster lastCluster allocatedClusterCount : Nat) : Driver (Nat × Nat) := do
  (perform (.iteratorSetEntry endFatEntry)).scopeFail (releaseAllocated vol firstCluster 0)
  let detachedCluster ← perform .iteratorCluster
  update fun m =>
    if m.freeClusters > 0 then { m with freeClusters := m.freeClusters - 1 } else m
  let linked ←
    if allocatedClusterCount = 0 then
      if firstCluster = 0 then pure (detachedCluster, detachedCluster) else .panics
    else if vol.isDataCluster firstCluster && vol.isDataCluster lastCluster then do
      (setEntry lastCluster detachedCluster).scopeFail
        (releaseAllocated vol firstCluster detachedCluster)
      pure (firstCluster, detachedCluster)
    else .panics
  update fun m => { m with lastAllocatedCluster := linked.2 }
  pure linked

/-- The loop over the table; the first and the last cluster and their number are returned. -/
def allocateLoop (clusterCount : Nat) : Nat → Nat → Nat → Nat → Driver (Nat × Nat × Nat)
  | 0, firstCluster, lastCluster, allocatedClusterCount =>
    pure (firstCluster, lastCluster, allocatedClusterCount)
  | rounds + 1, firstCluster, lastCluster, allocatedClusterCount => do
      let value ← (perform .iteratorGetEntry).scopeFail (releaseAllocated vol firstCluster 0)
      if value = 0 then do
        let linked ← claimCluster vol firstCluster lastCluster allocatedClusterCount
        if allocatedClusterCount + 1 = clusterCount then
          pure (linked.1, linked.2, allocatedClusterCount + 1)
        else do
          perform .iteratorIncrement
          allocateLoop clusterCount rounds linked.1 linked.2 (allocatedClusterCount + 1)
      else do
        perform .iteratorIncrement
        allocateLoop clusterCount rounds firstCluster lastCluster allocatedClusterCount

/-- The first and the end cluster of a new chain. -/
def allocateClusters (clusterCount : Nat) : Driver (Nat × Nat) :=
  if clusterCount = 0 then .throws .inval
  else if clusterCount > vol.totalClusters then .throws .nospc
  else do
    perform (.openIterator (← recollect).lastAllocatedCluster)
    let (firstCluster, lastCluster, allocated) ← allocateLoop vol clusterCount vol.totalClusters 0 0 0
    (updateFSInfo vol).scopeFail (releaseAllocated vol firstCluster 0)
    if allocated ≠ clusterCount then
      (Program.throws .nospc).scopeFail (releaseAllocated vol firstCluster 0)
    else if vol.isDataCluster firstCluster && vol.isDataCluster lastCluster then
      pure (firstCluster, lastCluster)
    else .panics

/-! ## `SetChainLength` -/

/-- The mapping of an inode that got or lost its first cluster. -/
def setMapping (inodeID locationID : Nat) : Driver Unit := do
  match (← recollect).maps.setInodeIDToLocationIDMapping inodeID locationID with
  | .error (.throws code) => .throws code
  | .error .panics => .panics
  | .ok maps => update fun m => { m with maps }

/-- The iteration of an inode, which tells file nodes that the chain has changed. -/
def nextIteration (id : Nat) : Driver Unit :=
  setNode id fun inode => { inode with iteration := (inode.iteration + 1) % 2 ^ 32 }

def truncateChain (id : Nat) (updateICache : Bool) : Driver Unit := do
  let old ← node id
  setNode id fun inode => inode.setChain 0 0 0
  (write vol id).scopeFail (setNode id fun inode =>
    inode.setChain old.startCluster old.endCluster old.allocatedClusterCount)
  nextIteration id
  if updateICache then
    setMapping old.inodeID (generateDirIndexInodeID old.parentInodeID old.dirStartIndex)
  clearFATChain vol old.startCluster

def startChain (id clusterCount : Nat) (updateICache : Bool) : Driver Unit := do
  let (newStartCluster, newEndCluster) ← allocateClusters vol clusterCount
  setNode id fun inode => inode.setChain newStartCluster newEndCluster clusterCount
  (write vol id).scopeFail do
    setNode id fun inode => inode.setChain 0 0 0
    clearFATChainAfterFailureNoThrow vol newStartCluster
  nextIteration id
  if updateICache then
    let inode ← node id
    setMapping inode.inodeID (generateDirClusterInodeID inode.parentInodeID inode.startCluster)

def growChain (id clusterCount : Nat) : Driver Unit := do
  let inode ← node id
  let (newStartCluster, newEndCluster) ←
    allocateClusters vol (clusterCount - inode.allocatedClusterCount)
  if !vol.isDataCluster newStartCluster then .panics
  else do
    (setEntry inode.endCluster newStartCluster).scopeFail
      (clearFATChainAfterFailureNoThrow vol newStartCluster)
    setNode id fun inode => inode.setChain inode.startCluster newEndCluster clusterCount
    nextIteration id

def shrinkChain (id clusterCount : Nat) : Driver Unit := do
  let inode ← node id
  let newEndCluster ← getChainEntry vol inode.startCluster (clusterCount - 1)
  if !vol.isDataCluster newEndCluster then .throws .io
  else do
    let trailingChainStart ← getEntry newEndCluster
    if !vol.isDataCluster trailingChainStart then .throws .io
    else do
      setEntry newEndCluster endFatEntry
      setNode id fun inode => inode.setChain inode.startCluster newEndCluster clusterCount
      nextIteration id
      clearFATChain vol trailingChainStart

/-- The metadata that `SetChainLength` takes to be inconsistent. -/
def hasInconsistentChain (inode : FATInode) : Bool :=
  if inode.startCluster ≠ 0 then
    isFixedRoot inode.startCluster || !vol.isDataCluster inode.startCluster ||
      !vol.isDataCluster inode.endCluster || inode.allocatedClusterCount == 0
  else inode.endCluster != 0 || inode.allocatedClusterCount != 0

def setChainLength (id clusterCount : Nat) (updateICache : Bool) : Driver Unit := do
  let inode ← node id
  if hasInconsistentChain vol inode then .throws .io
  else if clusterCount > vol.totalClusters then .throws .nospc
  else if clusterCount = inode.allocatedClusterCount then pure ()
  else if clusterCount = 0 then truncateChain vol id updateICache
  else if inode.startCluster = 0 then startChain vol id clusterCount updateICache
  else if clusterCount > inode.allocatedClusterCount then growChain vol id clusterCount
  else shrinkChain vol id clusterCount

/-! ## Loading the metadata -/

def getFileClusterCount (fileSize : Nat) : Nat :=
  if fileSize = 0 then 0
  else
    let bytesPerCluster := vol.bytesPerSector * vol.sectorsPerCluster
    (fileSize + bytesPerCluster - 1) / bytesPerCluster

def ensureClusterChainMetadataLoaded (id : Nat) : Driver Unit := do
  let inode ← node id
  if inode.startCluster = 0 ∨ inode.allocatedClusterCount ≠ 0 ∨ isFixedRoot inode.startCluster then
    pure ()
  else do
    let (chainLength, endCluster) ← getChainLength vol inode.startCluster
    if !inode.isDirectory ∧ chainLength < getFileClusterCount vol inode.size then .throws .io
    else
      setNode id fun inode =>
        let inode := inode.setChain inode.startCluster endCluster chainLength
        if inode.isDirectory then
          { inode with size := chainLength * vol.sectorsPerCluster * vol.bytesPerSector }
        else inode

end PadOS.Fat.Driver
