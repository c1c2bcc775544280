import PadOS.Core.Asking
import PadOS.Fat.ReadDirectory

/-! # Directory scans on the table

The iterators once more, with `FATTable::GetEntry` as a question. The table answers it
through the one window of its iterator. Where no access meets a stale window, a scan
ends as on the packed table, which the functions of before read.
-/

namespace PadOS.Fat

open Unicode List Asking FATTableIterator

variable {vol : FATVolume} {disk : Disk} {t : TableState} {directory : FATInode} {rounds : Nat}

abbrev TableScan := Asking Nat Nat

namespace TableScan

def getEntry (cluster : Nat) : TableScan Nat := .ask cluster pure

section

variable (vol : FATVolume)

/-- The loop of `GetChainEntry`. -/
def follow : Nat → Nat → TableScan Nat
  | 0, cluster => pure cluster
  | index + 1, cluster => do
    let next ← getEntry cluster
    if vol.isDataCluster next then follow index next else return next

def getChainEntry (chainStart index : Nat) : TableScan Nat :=
  if !vol.isDataCluster chainStart ∨ index > vol.totalClusters then throws .io
  else follow vol index chainStart

/-- Callers never pass a negative count. -/
def increment (it : FATClusterSectorIterator) (sectors : Nat) :
    TableScan (Bool × FATClusterSectorIterator) :=
  if it.currentSector = endOfChain then throws .io
  else if sectors = 0 then pure (true, it)
  else if isFixedRoot it.currentCluster then
    if it.currentSector + sectors < vol.rootSectorCount then
      pure (true, { it with currentSector := it.currentSector + sectors })
    else pure (false, { it with currentSector := endOfChain })
  else if it.currentSector + sectors < vol.sectorsPerCluster then
    pure (true, { it with currentSector := it.currentSector + sectors })
  else do
    let advance := (it.currentSector + sectors) / vol.sectorsPerCluster
    let next ← getChainEntry vol it.currentCluster advance
    if next = endFatEntry then return (false, { it with currentSector := endOfChain })
    else if vol.isDataCluster next then
      if it.visitedClusterCount > vol.totalClusters ∨
          advance > vol.totalClusters - it.visitedClusterCount then throws .io
      else return (true,
        { currentCluster := next
          currentSector := (it.currentSector + sectors) % vol.sectorsPerCluster
          visitedClusterCount := it.visitedClusterCount + advance })
    else throws .io

/-- The constructor of `FATDirectoryIterator`. -/
def create (cluster index : Nat) : TableScan FATDirectoryIterator := do
  let start : FATClusterSectorIterator := { currentCluster := cluster, currentSector := 0 }
  let sectorIterator ←
    if index ≥ vol.entriesPerSector then
      (·.2) <$> increment vol start (index / vol.entriesPerSector)
    else pure start
  let currentBlock ← ofExcept (sectorIterator.getBlock vol)
  return { sectorIterator, startingCluster := cluster, currentIndex := index, currentBlock }

variable (disk : Disk)

def enterNextSector (it : FATDirectoryIterator) :
    TableScan (Option FATDirectoryEntryCombo × FATDirectoryIterator) := do
  let (more, sectorIterator) ← increment vol it.sectorIterator 1
  if more then
    let currentBlock ← ofExcept (sectorIterator.getBlock vol)
    let it := { it with sectorIterator, currentBlock }
    return (it.getCurrentEntry vol disk, it)
  else return (none, { it with sectorIterator })

def getNextRawEntry (it : FATDirectoryIterator) :
    TableScan (Option FATDirectoryEntryCombo × FATDirectoryIterator) :=
  if it.currentBlock.buffer.isNone then pure (none, it)
  else
    let it := { it with currentIndex := (it.currentIndex + 1) % 2 ^ 32 }
    if it.currentIndex % vol.entriesPerSector = 0 then enterNextSector vol disk it.releaseCurrentBlock
    else pure (it.getCurrentEntry vol disk, it)

def lfnLoop (disk : Disk) (wantName : Bool) : Nat → LFNState →
    Option FATDirectoryEntryCombo → FATDirectoryIterator →
    TableScan (Option (LFNState × FATDirectoryEntryCombo) × FATDirectoryIterator)
  | 0, _, _, _ => unfinished
  | _ + 1, _, none, it => pure (none, it)
  | rounds + 1, state, some buffer, it =>
    match lfnStep wantName state it.currentIndex buffer with
    | .endOfTable => pure (none, it)
    | .entry => pure (some (state, buffer), it)
    | .skip state => do
        let (buffer, it) ← getNextRawEntry vol disk it
        lfnLoop disk wantName rounds state buffer it

def getNextLFNEntry (wantName : Bool) (rounds : Nat)
    (it : FATDirectoryIterator) : TableScan (Option FoundEntry × FATDirectoryIterator) := do
  let (found, it) ← lfnLoop vol disk wantName rounds {} (it.getCurrentEntry vol disk) it
  match found with
  | none => return (none, it)
  | some (state, buffer) =>
    let entry := foundEntry vol wantName state it.currentIndex buffer
    let (_, it) ← getNextRawEntry vol disk it
    return (some entry, it)

/-- `GetNextLFNEntry` until it returns false. -/
def getAllEntries (disk : Disk) (rounds : Nat) : Nat → FATDirectoryIterator →
    TableScan (List FoundEntry)
  | 0, _ => unfinished
  | calls + 1, it => do
      let (found, it) ← getNextLFNEntry vol disk true rounds it
      match found with
      | none => return []
      | some entry => return entry :: (← getAllEntries disk rounds calls it)

/-- The loop over labels of `GetNextDirectoryEntry`. -/
def getNextVisibleEntry (disk : Disk) (directory : FATInode) (rounds : Nat) :
    Nat → FATDirectoryIterator → TableScan (Option FoundEntry × FATDirectoryIterator)
  | 0, _ => unfinished
  | calls + 1, it => do
      let (found, it) ← getNextLFNEntry vol disk true rounds it
      match found with
      | none => return (none, it)
      | some f =>
        if isHidden vol directory f.info then getNextVisibleEntry disk directory rounds calls it
        else return (some f, it)

def getNextDirectoryEntry (directory : FATInode) (rounds : Nat)
    (maps : InodeMap) (it : FATDirectoryIterator) :
    TableScan (Option DirectoryRecord × InodeMap × FATDirectoryIterator) := do
  let (found, it) ← getNextVisibleEntry vol disk directory rounds rounds it
  match found with
  | none => return (none, maps, it)
  | some f =>
    let (record, maps) ← ofExcept (toRecord vol directory maps f)
    return (some record, maps, it)

/-- The loop of `DoLocateInode`. -/
def locateLoop (disk : Disk) (directory : FATInode) (fileName : PString)
    (rounds : Nat) : Nat → InodeMap → FATDirectoryIterator → TableScan (Option Nat × InodeMap)
  | 0, _, _ => unfinished
  | calls + 1, maps, it => do
      let (found, maps, it) ← getNextDirectoryEntry vol disk directory rounds maps it
      match found with
      | none => return (none, maps)
      | some record =>
        if record.filename = fileName then return (some record.inodeID, maps)
        else locateLoop disk directory fileName rounds calls maps it

/-- `DoLocateInode`: the number of the inode to get, or nothing for "not found". -/
def doLocateInode (directory : FATInode) (fileName : PString)
    (rounds : Nat) (maps : InodeMap) : TableScan (Option Nat × InodeMap) := do
  if fileName = dotName ∧ directory.isRoot vol then return (some directory.inodeID, maps)
  if fileName = dotDotName ∧ directory.isRoot vol then return (some directory.parentInodeID, maps)
  let it ← create vol directory.startCluster 0
  locateLoop vol disk directory fileName rounds rounds maps it

end

/-- The loop of `ReadDirectory` over the stored entries. -/
def readLoop (layout : DirentLayout) (vol : FATVolume) (disk : Disk) (directory : FATInode)
    (rounds : Nat) : Nat → DirEntryWriter → ReadState → FATDirectoryIterator →
    TableScan (DirEntryWriter × ReadState)
  | 0, _, _, _ => unfinished
  | calls + 1, w, s, it =>
    if w.remainingSize < layout.recordSize 0 then pure (w, s)
    else do
      let (found, maps, it) ← getNextDirectoryEntry vol disk directory rounds s.maps it
      match found with
      | none => return (w, { currentIndex := savedIndex vol directory it.currentIndex, maps })
      | some record =>
        match w.addEntry layout record.dirent with
        | none => if w.bytesWritten = 0 then throws .nametoolong else return (w, { s with maps })
        | some w =>
          readLoop layout vol disk directory rounds calls w
            { currentIndex := savedIndex vol directory it.currentIndex, maps } it

/-- `ReadDirectory`; the buffer is aligned. -/
def readDirectory (layout : DirentLayout) (vol : FATVolume) (disk : Disk) (directory : FATInode)
    (rounds bufferSize : Nat) (s : ReadState) : TableScan (List Dirent × ReadState) := do
  if bufferSize < layout.recordSize 0 then throws .inval
  let (more, w, currentIndex) ← ofExcept (if directory.isRoot vol then
    addRootEntries layout vol 2 { bufferSize } s.currentIndex
    else .ok (true, { bufferSize }, s.currentIndex))
  if !more then return (w.entries, { s with currentIndex })
  let it ← create vol directory.startCluster (iteratorIndex vol directory currentIndex)
  let (w, s) ← readLoop layout vol disk directory rounds rounds w { s with currentIndex } it
  return (w.entries, s)

/-! ## On the packed table -/

/-- What `FATTable::GetEntry` finds with a fresh window. -/
def packed (vol : FATVolume) (disk : Disk) (cluster : Nat) : Except Stop Nat :=
  if vol.isDataCluster cluster then vol.tableEntry disk cluster else .error .panics

theorem getEntry_packed (cluster : Nat) :
    (getEntry cluster).answered (packed vol disk) = Run.ofExcept (packed vol disk cluster) := by
  unfold getEntry answered
  cases packed vol disk cluster with
  | error stop => rfl
  | ok next => rfl

theorem follow_packed {index cluster : Nat} (data : vol.isDataCluster cluster) :
    (follow vol index cluster).answered (packed vol disk) =
      Run.ofExcept (vol.follow disk index cluster) := by
  induction index generalizing cluster with
  | zero => rfl
  | succ index ih =>
    have rest (next : Nat) : (if vol.isDataCluster next then follow vol index next
        else pure next : TableScan Nat).answered (packed vol disk) =
          Run.ofExcept (if vol.isDataCluster next then vol.follow disk index next else .ok next) := by
      split
      · rename_i more
        exact ih more
      · rfl
    apply (answered_bind (getEntry_packed cluster) rest).trans
    rw [FATVolume.follow, packed, if_pos data]
    cases vol.tableEntry disk cluster with
    | error stop => rfl
    | ok next => rfl

theorem getChainEntry_packed (chainStart index : Nat) :
    (getChainEntry vol chainStart index).answered (packed vol disk) =
      Run.ofExcept (vol.getChainEntry disk chainStart index) := by
  unfold getChainEntry FATVolume.getChainEntry
  split
  · rfl
  · rename_i inside
    apply follow_packed
    by_contra outside
    exact inside (.inl (by simpa using outside))

theorem increment_packed (it : FATClusterSectorIterator) (sectors : Nat) :
    (increment vol it sectors).answered (packed vol disk) =
      Run.ofExcept (it.increment vol disk sectors) := by
  unfold increment FATClusterSectorIterator.increment
  split
  · rfl
  split
  · rfl
  split
  · split <;> rfl
  split
  · rfl
  apply (answered_bind (getChainEntry_packed _ _) fun _ => rfl).trans
  dsimp only
  cases vol.getChainEntry disk it.currentCluster _ with
  | error stop => rfl
  | ok next =>
    show Asking.answered _ (if next = endFatEntry then _ else _) = _
    dsimp only
    split
    · rfl
    split
    · split <;> rfl
    · rfl

theorem create_packed (cluster index : Nat) : (create vol cluster index).answered (packed vol disk) =
    Run.ofExcept (FATDirectoryIterator.create vol disk cluster index) := by
  have load (it : FATClusterSectorIterator) : (do
      let currentBlock ← ofExcept (it.getBlock vol)
      return { sectorIterator := it, startingCluster := cluster, currentIndex := index, currentBlock } :
        TableScan FATDirectoryIterator).answered (packed vol disk) = Run.ofExcept (do
      let currentBlock ← it.getBlock vol
      pure { sectorIterator := it, startingCluster := cluster, currentIndex := index, currentBlock }) := by
    cases it.getBlock vol with
    | error stop => rfl
    | ok block => rfl
  unfold create FATDirectoryIterator.create
  dsimp only
  split
  · apply (answered_bind (answered_bind (increment_packed _ _) fun _ => rfl) load).trans
    cases FATClusterSectorIterator.increment vol disk _ _ with
    | error stop => rfl
    | ok result => rfl
  · exact answered_bind (answered_pure _) load

theorem enterNextSector_packed (it : FATDirectoryIterator) :
    (enterNextSector vol disk it).answered (packed vol disk) =
      Run.ofExcept (it.enterNextSector vol disk) := by
  unfold enterNextSector FATDirectoryIterator.enterNextSector
  apply (answered_bind (increment_packed _ _) fun _ => rfl).trans
  cases it.sectorIterator.increment vol disk 1 with
  | error stop => rfl
  | ok result =>
    obtain ⟨more, sectorIterator⟩ := result
    cases more with
    | false => rfl
    | true =>
      show Asking.answered _ (ofExcept (sectorIterator.getBlock vol) >>= _) = _
      dsimp only
      cases sectorIterator.getBlock vol <;> rfl

theorem getNextRawEntry_packed (it : FATDirectoryIterator) :
    (getNextRawEntry vol disk it).answered (packed vol disk) =
      Run.ofExcept (it.getNextRawEntry vol disk) := by
  unfold getNextRawEntry FATDirectoryIterator.getNextRawEntry
  split
  · rfl
  dsimp only
  split
  · exact enterNextSector_packed _
  · rfl

variable {it : FATDirectoryIterator}

theorem lfnLoop_packed {wantName : Bool} {state : LFNState} {buffer : Option FATDirectoryEntryCombo}
    : (lfnLoop vol disk wantName rounds state buffer it).answered (packed vol disk) =
      it.lfnLoop vol disk wantName rounds state buffer := by
  induction rounds generalizing state buffer it with
  | zero => rfl
  | succ rounds ih =>
    cases buffer with
    | none => rfl
    | some buffer =>
      rw [lfnLoop, FATDirectoryIterator.lfnLoop]
      cases lfnStep wantName state it.currentIndex buffer with
      | endOfTable => rfl
      | entry => rfl
      | skip state => exact answered_bind (getNextRawEntry_packed it) fun _ => ih

theorem getNextLFNEntry_packed (wantName : Bool) (it : FATDirectoryIterator) :
    (getNextLFNEntry vol disk wantName rounds it).answered (packed vol disk) =
      it.getNextLFNEntry vol disk wantName rounds := by
  apply answered_bind lfnLoop_packed
  intro result
  obtain ⟨found, it⟩ := result
  cases found with
  | none => rfl
  | some found => exact answered_bind (getNextRawEntry_packed it) fun _ => rfl

theorem getAllEntries_packed {calls : Nat} :
    (getAllEntries vol disk rounds calls it).answered (packed vol disk) =
      it.getAllEntries vol disk rounds calls := by
  induction calls generalizing it with
  | zero => rfl
  | succ calls ih =>
    apply answered_bind (getNextLFNEntry_packed true it)
    intro result
    obtain ⟨found, it⟩ := result
    cases found with
    | none => rfl
    | some found => exact answered_bind ih fun _ => rfl

theorem getNextVisibleEntry_packed {calls : Nat} :
    (getNextVisibleEntry vol disk directory rounds calls it).answered (packed vol disk) =
      it.getNextVisibleEntry vol disk directory rounds calls := by
  induction calls generalizing it with
  | zero => rfl
  | succ calls ih =>
    apply answered_bind (getNextLFNEntry_packed true it)
    intro result
    obtain ⟨found, it⟩ := result
    cases found with
    | none => rfl
    | some found =>
      dsimp only
      split
      · exact ih
      · rfl

theorem getNextDirectoryEntry_packed (maps : InodeMap) (it : FATDirectoryIterator) :
    (getNextDirectoryEntry vol disk directory rounds maps it).answered (packed vol disk) =
      it.getNextDirectoryEntry vol disk directory rounds maps := by
  apply answered_bind getNextVisibleEntry_packed
  intro result
  obtain ⟨found, it⟩ := result
  cases found with
  | none => rfl
  | some found =>
    apply answered_bind rfl
    intro result
    rfl

theorem locateLoop_packed {fileName : PString} {calls : Nat} {maps : InodeMap} :
    (locateLoop vol disk directory fileName rounds calls maps it).answered (packed vol disk) =
      PadOS.Fat.locateLoop vol disk directory fileName rounds calls maps it := by
  induction calls generalizing maps it with
  | zero => rfl
  | succ calls ih =>
    apply answered_bind (getNextDirectoryEntry_packed maps it)
    intro result
    obtain ⟨found, maps, it⟩ := result
    cases found with
    | none => rfl
    | some record =>
      dsimp only
      split
      · rfl
      · exact ih

theorem doLocateInode_packed (fileName : PString) (maps : InodeMap) :
    (doLocateInode vol disk directory fileName rounds maps).answered (packed vol disk) =
      PadOS.Fat.doLocateInode vol disk directory fileName rounds maps := by
  unfold doLocateInode PadOS.Fat.doLocateInode
  split
  · rfl
  split
  · rfl
  exact answered_bind (create_packed _ _) fun _ => locateLoop_packed

theorem readLoop_packed {layout : DirentLayout} {calls : Nat} {w : DirEntryWriter} {s : ReadState}
    :
    (readLoop layout vol disk directory rounds calls w s it).answered (packed vol disk) =
      PadOS.Fat.readLoop layout vol disk directory rounds calls w s it := by
  induction calls generalizing w s it with
  | zero => rfl
  | succ calls ih =>
    rw [readLoop, PadOS.Fat.readLoop]
    split
    · rfl
    apply answered_bind (getNextDirectoryEntry_packed s.maps it)
    intro result
    obtain ⟨found, maps, it⟩ := result
    cases found with
    | none => rfl
    | some record =>
      dsimp only
      cases w.addEntry layout record.dirent with
      | none =>
        dsimp only
        split <;> rfl
      | some w => exact ih

theorem readDirectory_packed (layout : DirentLayout) (bufferSize : Nat) (s : ReadState) :
    (readDirectory layout vol disk directory rounds bufferSize s).answered (packed vol disk) =
      PadOS.Fat.readDirectory layout vol disk directory rounds bufferSize s := by
  unfold readDirectory PadOS.Fat.readDirectory
  dsimp only
  by_cases small : bufferSize < layout.recordSize 0
  · rw [if_pos small, if_pos small]
    rfl
  rw [if_neg small, if_neg small]
  apply answered_bind rfl
  intro result
  obtain ⟨more, w, currentIndex⟩ := result
  cases more with
  | false => rfl
  | true =>
    apply answered_bind (create_packed _ _)
    intro it
    apply answered_bind readLoop_packed
    intro result
    rfl

/-! ## Through the window -/

/-- `FATTable::GetEntry`, with all sectors at hand. -/
def throughWindow (vol : FATVolume) : Asking.Server Nat Nat TableState :=
  FATTable.getEntry vol noFaults

variable {α : Type}

/-- No access of the scan meets a stale window. -/
def StaysFresh (vol : FATVolume) (x : TableScan α) (t : TableState) : Prop :=
  x.Keeps (throughWindow vol) (fun cluster t =>
    vol.isDataCluster cluster → ¬(FATTable.seek vol t cluster).it.Stale vol) t

/-- The scan ends and returns this. -/
def Returns (vol : FATVolume) (x : TableScan α) (t : TableState) (a : α) : Prop :=
  ∃ t', x.run (throughWindow vol) t = pure (a, t')

theorem getEntry_outside {cluster : Nat} (outside : ¬vol.isDataCluster cluster) :
    (FATTable.getEntry vol noFaults cluster t).1 = .error .panics := by
  have still : (t.it.moveTo vol cluster).update vol noFaults = (some .panics, t.it.moveTo vol cluster) := by
    unfold update
    rw [if_pos]
    simpa [moveTo] using outside
  unfold FATTable.getEntry setCluster
  by_cases inside : (t.it.moveTo vol cluster).currentSector < vol.fatEndSector
  · simp only [inside, if_true, FATTableIterator.getEntry, still]
  · simp only [inside, if_false]

theorem follows_packed (accepted : vol.Accepted) (disk : Disk) :
    Follows (throughWindow vol) (packed vol disk)
      (fun cluster t => vol.isDataCluster cluster → ¬(FATTable.seek vol t cluster).it.Stale vol)
      (fun t => Window vol t.it ∧ t.disk = disk) := by
  constructor
  · rintro cluster t ⟨window, rfl⟩ fresh
    unfold packed
    split
    · rename_i data
      exact (FATTable.getEntry_fresh accepted window data (fresh data)).1
    · rename_i outside
      exact getEntry_outside outside
  · rintro cluster t next ⟨window, rfl⟩ fresh told
    unfold packed at told
    split at told
    · rename_i data
      have spec := FATTable.getEntry_fresh accepted window data (fresh data)
      exact ⟨spec.2.2, spec.2.1⟩
    · cases told

theorem returns_iff {x : TableScan α} {a : α} (accepted : vol.Accepted)
    (window : Window vol t.it) (fresh : StaysFresh vol x t) :
    Returns vol x t a ↔ x.answered (packed vol t.disk) = pure a :=
  run_eq_pure (follows_packed accepted t.disk) ⟨window, rfl⟩ fresh

theorem fresh_of_whole (whole : ∀ cluster, ¬vol.Straddles cluster) (x : TableScan α)
    (t : TableState) : StaysFresh vol x t :=
  keeps_of_good (fun cluster _ _ => FATTable.not_stale_of_whole (whole cluster)) x t

end TableScan

/-! ## Exactness -/

open TableScan

/-- All calls from index 0 on. -/
def enumerateAll (vol : FATVolume) (disk : Disk) (directory : FATInode) (rounds calls : Nat) :
    TableScan (List FoundEntry) := do
  let it ← create vol directory.startCluster 0
  getAllEntries vol disk rounds calls it

/-- Repeated calls from index 0 return the live entries once and in order, then
false; and a name that is not there is not found. -/
structure EnumeratesExactly (vol : FATVolume) (t : TableState) (directory : FATInode)
    (content : DirectoryContent) : Prop where
  all : ∃ bound, ∀ rounds calls, bound ≤ rounds → bound ≤ calls →
    Returns vol (enumerateAll vol t.disk directory rounds calls) t (liveEntries vol true 0 content.items)
  missing : ∀ fileName maps, ¬((fileName = dotName ∨ fileName = dotDotName) ∧ directory.isRoot vol) →
    (∀ f ∈ liveEntries vol true 0 content.items, f.filename ≠ fileName) →
    Accepts vol directory maps (visible vol directory (liveEntries vol true 0 content.items)) →
    ∃ bound, ∀ rounds, bound ≤ rounds → ∃ maps',
      Returns vol (TableScan.doLocateInode vol t.disk directory fileName rounds maps) t (none, maps')

/-- The scans of the directory meet no stale window. -/
structure ScansFresh (vol : FATVolume) (t : TableState) (directory : FATInode) : Prop where
  all : ∀ rounds calls, StaysFresh vol (enumerateAll vol t.disk directory rounds calls) t
  lookup : ∀ fileName rounds maps,
    StaysFresh vol (TableScan.doLocateInode vol t.disk directory fileName rounds maps) t

theorem enumerateAll_packed (rounds calls : Nat) :
    (enumerateAll vol disk directory rounds calls).answered (packed vol disk) = (do
      let it ← Run.ofExcept (FATDirectoryIterator.create vol disk directory.startCluster 0)
      it.getAllEntries vol disk rounds calls) :=
  answered_bind (create_packed _ _) fun _ => getAllEntries_packed

theorem enumeratesExactly_iff_packed (accepted : vol.Accepted) (window : Window vol t.it)
    (fresh : ScansFresh vol t directory) {content : DirectoryContent} :
    EnumeratesExactly vol t directory content ↔ EnumeratesPacked vol t.disk directory content := by
  have all (rounds calls : Nat) (found : List FoundEntry) :=
    returns_iff (a := found) accepted window (fresh.all rounds calls)
  have lookup (fileName : PString) (rounds : Nat) (maps : InodeMap) (result : Option Nat × InodeMap) :=
    returns_iff (a := result) accepted window (fresh.lookup fileName rounds maps)
  simp only [enumerateAll_packed] at all
  simp only [doLocateInode_packed] at lookup
  constructor
  · rintro ⟨every, missing⟩
    simp only [all] at every
    simp only [lookup] at missing
    exact ⟨every, missing⟩
  · rintro ⟨every, missing⟩
    constructor
    · simp only [all]
      exact every
    · simp only [lookup]
      exact missing

theorem card_fresh (t : TableState) (directory : FATInode) : ScansFresh card t directory :=
  ⟨fun _ _ => fresh_of_whole card_whole _ _, fun _ _ _ => fresh_of_whole card_whole _ _⟩

def cardRoot : FATInode where
  inodeID := card.rootInodeID
  parentInodeID := card.rootInodeID
  dirStartIndex := 0
  dirEndIndex := 0
  startCluster := 1
  size := 0
  dosAttribs := fatSubdirAttribute

def cardDirectory : FATInode :=
  { cardRoot with inodeID := generateDirClusterInodeID 1 2, startCluster := 2 }

/-- Empty files `AA`, `BA` and so on, where the byte belongs to an entry. -/
def filesFrom (first : Nat) (taken : Nat → Nat → Bool) : Disk := fun sector byte =>
  if !taken sector byte then 0
  else if byte % 32 = 0 then 0x41 + (byte / 32).toUInt8
  else if byte % 32 = 1 then 0x41 + (sector - first).toUInt8
  else if byte % 32 ≤ 11 then 0x20
  else 0

/-- The directory at the clusters 2 and 3. -/
def cardWithFile : Disk := fun sector byte =>
  if sector = card.fatStartSector then if byte = 4 then 3 else if byte = 6 ∨ byte = 7 then 0xff else 0
  else filesFrom card.firstDataSector (fun s b => s == card.firstDataSector && b < 32) sector byte

def fullCard : Disk := filesFrom card.rootStart fun _ _ => true

/-- 8.3 entries up to the end. -/
def DirectoryContent.ofShort (entries tail : List FATDirectoryEntryCombo)
    (live : ∀ e ∈ entries, e.isLive) (ended : ∀ e, tail.head? = some e → e.isEnd) :
    DirectoryContent where
  items := entries.pmap DirectoryItem.short live
  tail
  ended

theorem DirectoryContent.slots_ofShort (entries tail : List FATDirectoryEntryCombo)
    (live : ∀ e ∈ entries, e.isLive) (ended : ∀ e, tail.head? = some e → e.isEnd) :
    (ofShort entries tail live ended).slots = entries ++ tail := by
  show (entries.pmap DirectoryItem.short live).flatMap DirectoryItem.slots ++ tail = _
  congr 1
  clear ended
  induction entries with
  | nil => rfl
  | cons e rest ih =>
    rw [pmap_cons, flatMap_cons, ih]
    rfl

theorem not_terminated_of_live {entries : List FATDirectoryEntryCombo}
    (live : ∀ e ∈ entries, e.isLive) : ¬Area.Terminated entries 0 := by
  rintro (⟨m, e, _, slot, isEnd⟩ | ⟨last, isLast, notLive⟩)
  · exact not_isEnd_of_isLive (live e (mem_of_getElem? slot)) isEnd
  · exact notLive (live last (mem_of_getLast? isLast))

theorem isEnd_of_head {tail : List FATDirectoryEntryCombo}
    (ended : tail.head?.all (·.isEnd) = true) : ∀ e, tail.head? = some e → e.isEnd := by
  intro e isHead
  rw [isHead] at ended
  exact ended

theorem cardDirectory_holds :
    (Area.chain [2, 3]).Holds card cardWithFile cardDirectory.startCluster :=
  ⟨.link (by decide) (by decide +kernel) (.last (by decide) (by decide +kernel)), rfl⟩

def cardWithFileContent : DirectoryContent :=
  .ofShort (((Area.chain [2, 3]).slots card cardWithFile).take 1)
    (((Area.chain [2, 3]).slots card cardWithFile).drop 1)
    (all_eq_true.1 (by decide +kernel)) (isEnd_of_head (by decide +kernel))

theorem cardWithFile_slots : (Area.chain [2, 3]).slots card cardWithFile = cardWithFileContent.slots := by
  rw [cardWithFileContent, DirectoryContent.slots_ofShort, take_append_drop]

theorem fullCard_live : ∀ e ∈ Area.fixedRoot.slots card fullCard, e.isLive :=
  all_eq_true.1 (by decide +kernel)

def fullCardContent : DirectoryContent :=
  .ofShort (Area.fixedRoot.slots card fullCard) [] fullCard_live (fun _ none => nomatch none)

theorem fullCard_slots : fullCardContent.slots = Area.fixedRoot.slots card fullCard := by
  rw [fullCardContent, DirectoryContent.slots_ofShort, append_nil]

theorem cardRoot_holds : Area.fixedRoot.Holds card fullCard cardRoot.startCluster :=
  ⟨by decide, by decide⟩

end PadOS.Fat
