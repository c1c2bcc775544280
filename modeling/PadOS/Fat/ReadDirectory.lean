import PadOS.Fat.Lookup

/-! # Reading a directory in pieces

`ReadDirectory` fills a buffer with records and saves the index of the first entry
that it has not returned. On the entries that a directory shows this is `fill`, a
recursion over a list.
-/

namespace PadOS.Fat

open Unicode

variable {vol : FATVolume} {disk : Disk} {area : Area} {start i : Nat} {directory : FATInode}

/-! ## Records -/

/-- The header and the alignment of `dirent_t`, which the C library declares. A
record of any name that the driver reads fits into 16 bits. -/
structure DirentLayout where
  headerSize : Nat
  alignment : Nat
  aligned : 0 < alignment
  room : headerSize + alignment + 2048 ≤ 0xffff

inductive FileType
  | directory
  | regular
  deriving DecidableEq

structure Dirent where
  inodeID : Nat
  type : FileType
  name : PString
  deriving DecidableEq

/-- `PGetDirEntryRecordSize`. -/
def DirentLayout.recordSize (layout : DirentLayout) (nameLength : Nat) : Nat :=
  let maxRecordSize := 0xffff
  if nameLength > maxRecordSize - layout.headerSize - 1 then 0
  else
    let unalignedSize := layout.headerSize + nameLength + 1
    let recordSize := (unalignedSize + layout.alignment - 1) / layout.alignment * layout.alignment
    if recordSize ≤ maxRecordSize then recordSize else 0

/-- `PDirEntryWriter`, with the records it has written. -/
structure DirEntryWriter where
  bufferSize : Nat
  bytesWritten : Nat := 0
  entries : List Dirent := []

namespace DirEntryWriter

def remainingSize (w : DirEntryWriter) : Nat := w.bufferSize - w.bytesWritten

def addEntry (layout : DirentLayout) (w : DirEntryWriter) (entry : Dirent) : Option DirEntryWriter :=
  let recordSize := layout.recordSize entry.name.length
  if recordSize = 0 ∨ recordSize > w.remainingSize then none
  else some { w with bytesWritten := w.bytesWritten + recordSize, entries := w.entries ++ [entry] }

end DirEntryWriter

def DirectoryRecord.dirent (record : DirectoryRecord) : Dirent where
  inodeID := record.inodeID
  type := if record.dosAttribs &&& fatSubdirAttribute ≠ 0 then .directory else .regular
  name := record.filename

/-- The records that the root does not store. -/
def rootDirent (vol : FATVolume) (name : PString) : Dirent where
  inodeID := vol.rootInodeID
  type := .directory
  name := name

def rootDirents (vol : FATVolume) : List Dirent := [rootDirent vol dotName, rootDirent vol dotDotName]

/-! ## The calls -/

/-- What a call leaves for the next one. -/
structure ReadState where
  currentIndex : Nat := 0
  maps : InodeMap

/-- The root does not store its first two records. -/
def FATInode.indexOffset (vol : FATVolume) (directory : FATInode) : Nat :=
  if directory.isRoot vol then 2 else 0

def savedIndex (vol : FATVolume) (directory : FATInode) (index : Nat) : Nat :=
  (index + directory.indexOffset vol) % 2 ^ 32

def iteratorIndex (vol : FATVolume) (directory : FATInode) (currentIndex : Nat) : Nat :=
  (currentIndex + (2 ^ 32 - directory.indexOffset vol)) % 2 ^ 32

section

variable (layout : DirentLayout)

/-- The loop over the first two records; it also says whether they all fitted. -/
def addRootEntries (vol : FATVolume) :
    Nat → DirEntryWriter → Nat → Except Stop (Bool × DirEntryWriter × Nat)
  | 0, w, index => .ok (true, w, index)
  | rounds + 1, w, index =>
    if index < 2 then
      match w.addEntry layout (rootDirent vol (if index = 0 then dotName else dotDotName)) with
      | none => if w.bytesWritten = 0 then .error (.throws .nametoolong) else .ok (false, w, index)
      | some w => addRootEntries vol rounds w (index + 1)
    else .ok (true, w, index)

/-- The loop over the stored entries. -/
def readLoop (vol : FATVolume) (disk : Disk) (directory : FATInode)
    (rounds : Nat) : Nat → DirEntryWriter → ReadState → FATDirectoryIterator →
    Run (DirEntryWriter × ReadState)
  | 0, _, _, _ => Run.unfinished
  | calls + 1, w, s, it =>
    if w.remainingSize < layout.recordSize 0 then pure (w, s)
    else do
      let (found, maps, it) ← it.getNextDirectoryEntry vol disk directory rounds s.maps
      match found with
      | none => return (w, { currentIndex := savedIndex vol directory it.currentIndex, maps })
      | some record =>
        match w.addEntry layout record.dirent with
        | none => if w.bytesWritten = 0 then throw (.throws .nametoolong) else return (w, { s with maps })
        | some w =>
          readLoop vol disk directory rounds calls w
            { currentIndex := savedIndex vol directory it.currentIndex, maps } it

/-- `ReadDirectory`; the buffer is aligned. -/
def readDirectory (vol : FATVolume) (disk : Disk) (directory : FATInode)
    (rounds bufferSize : Nat) (s : ReadState) : Run (List Dirent × ReadState) := do
  if bufferSize < layout.recordSize 0 then throw (.throws .inval)
  let (more, w, currentIndex) ← Run.ofExcept (if directory.isRoot vol then
    addRootEntries layout vol 2 { bufferSize } s.currentIndex
    else .ok (true, { bufferSize }, s.currentIndex))
  if !more then return (w.entries, { s with currentIndex })
  let it ← Run.ofExcept (FATDirectoryIterator.create vol disk directory.startCluster
    (iteratorIndex vol directory currentIndex))
  let (w, s) ← readLoop layout vol disk directory rounds rounds w { s with currentIndex } it
  return (w.entries, s)

/-! ## Filling a buffer from a list -/

/-- `readLoop` on the entries that are left. -/
def fill (vol : FATVolume) (directory : FATInode) (endIndex : Nat) :
    DirEntryWriter → ReadState → List FoundEntry → Except Stop (DirEntryWriter × ReadState)
  | w, s, [] =>
    if w.remainingSize < layout.recordSize 0 then .ok (w, s)
    else .ok (w, { s with currentIndex := savedIndex vol directory endIndex })
  | w, s, f :: rest =>
    if w.remainingSize < layout.recordSize 0 then .ok (w, s)
    else
      match toRecord vol directory s.maps f with
      | .error stop => .error stop
      | .ok (record, maps) =>
        match w.addEntry layout record.dirent with
        | none =>
          if w.bytesWritten = 0 then .error (.throws .nametoolong) else .ok (w, { s with maps })
        | some w =>
          fill vol directory endIndex w
            { currentIndex := savedIndex vol directory (f.info.endIndex + 1), maps } rest

end

/-- The records of the entries, where all are accepted. -/
def toRecords (vol : FATVolume) (directory : FATInode) :
    InodeMap → List FoundEntry → Except Stop (List DirectoryRecord)
  | _, [] => .ok []
  | maps, f :: rest =>
    match toRecord vol directory maps f with
    | .error stop => .error stop
    | .ok (record, maps) =>
      match toRecords vol directory maps rest with
      | .error stop => .error stop
      | .ok records => .ok (record :: records)

/-! ## The loop on the slots -/

/-- The enumeration from one index ends at another. -/
structure EndsAt (slots : List FATDirectoryEntryCombo) (i m : Nat) : Prop where
  above : i ≤ m
  bound : m ≤ slots.length
  passed : Area.Passable slots i m
  isEnd : ∀ e, slots[m]? = some e → e.isEnd

variable {slots : List FATDirectoryEntryCombo}

theorem EndsAt.marker {m n : Nat} (ends : EndsAt slots i m)
    (above : i ≤ n) {e : FATDirectoryEntryCombo} (slot : slots[n]? = some e) (isEnd : e.isEnd)
    (passed : Area.Passable slots i n) : n = m := by
  have inside := (List.getElem?_eq_some_iff.1 slot).1
  have notBefore : ¬n < m := fun before => ends.passed n e above before slot isEnd
  have notAfter : ¬m < n := by
    intro before
    have there : slots[m]? = some slots[m] := List.getElem?_eq_getElem (by omega)
    exact passed m _ ends.above before there (ends.isEnd _ there)
  omega

theorem EndsAt.unmarked {m : Nat} (ends : EndsAt slots i m)
    (unmarked : ¬Area.Marked slots i) : m = slots.length := by
  by_contra before
  have inside : m < slots.length := by
    have := ends.bound
    omega
  have there : slots[m]? = some slots[m] := List.getElem?_eq_getElem inside
  exact unmarked ⟨m, _, ends.above, there, ends.isEnd _ there⟩

theorem EndsAt.next {m j : Nat} (ends : EndsAt slots i m)
    (le : i ≤ j) (inside : j < slots.length) (passed : Area.Passable slots i (j + 1)) :
    EndsAt slots (j + 1) m := by
  have above : j + 1 ≤ m := by
    by_contra within
    have there : slots[m]? = some slots[m] := List.getElem?_eq_getElem (by omega)
    exact passed m _ ends.above (by omega) there (ends.isEnd _ there)
  exact ⟨above, ends.bound, fun k s after => ends.passed k s (by omega), ends.isEnd⟩

theorem savedIndex_mod (n : Nat) : savedIndex vol directory (n % 2 ^ 32) = savedIndex vol directory n :=
  Nat.mod_add_mod n (2 ^ 32) (directory.indexOffset vol)

theorem savedIndex_succ (n : Nat) :
    savedIndex vol directory (n % 2 ^ 32 + 1) = savedIndex vol directory (n + 1) := by
  rw [← savedIndex_mod (n % 2 ^ 32 + 1), Nat.mod_add_mod, savedIndex_mod]

namespace Area

/-- The entries that the directory shows from an index on. -/
def shown (vol : FATVolume) (disk : Disk) (area : Area) (directory : FATInode) (i : Nat) :
    List FoundEntry :=
  visible vol directory (enumerate vol true {} i ((area.slots vol disk).drop i))

theorem readLoop_terminated (accepted : vol.Accepted) (held : area.Holds vol disk start)
    (layout : DirentLayout) (directory : FATInode) (inside : i < (area.slots vol disk).length)
    (ends : Terminated (area.slots vol disk) i) {m : Nat} (endsAt : EndsAt (area.slots vol disk) i m)
    {rounds calls : Nat} (enough : (area.slots vol disk).length < rounds)
    (enough' : (area.slots vol disk).length - i < calls) (w : DirEntryWriter) (s : ReadState) :
    readLoop layout vol disk directory rounds calls w s (area.cursor vol start i) =
      Run.ofExcept (fill layout vol directory m w s (area.shown vol disk directory i)) := by
  induction calls generalizing i w s with
  | zero => omega
  | succ calls ih =>
    rw [readLoop, shown]
    by_cases full : w.remainingSize < layout.recordSize 0
    · rw [if_pos full]
      cases visible vol directory (enumerate vol true {} i ((area.slots vol disk).drop i)) with
      | nil | cons f rest => rw [fill, if_pos full, Run.ofExcept_ok]
    rw [if_neg full]
    rcases getNextVisibleEntry_terminated accepted held directory inside ends enough
        (show (area.slots vol disk).length - i < rounds by omega) with
      ⟨none, it, call, place⟩ | ⟨f, j, le, more, place, listed, passed, call⟩
    · have position : it.currentIndex = m % 2 ^ 32 := by
        rcases place with ⟨overran, unmarked⟩ | ⟨n, e, above, slot, isEnd, passed, here⟩
        · rw [overran, endsAt.unmarked unmarked, slots_length]
          rfl
        · rw [here, endsAt.marker above slot isEnd passed]
          rfl
      rw [none, getNextDirectoryEntry_none directory rounds s.maps call, pure_bind, fill, if_neg full,
        Run.ofExcept_ok]
      simp only [position, savedIndex_mod]
    · rw [listed, getNextDirectoryEntry_some directory rounds s.maps call, fill, if_neg full]
      cases made : toRecord vol directory s.maps f with
      | error stop => rfl
      | ok result =>
        obtain ⟨record, maps⟩ := result
        simp only [Run.ofExcept_ok, pure_bind]
        cases added : w.addEntry layout record.dirent with
        | none =>
          simp only []
          by_cases empty : w.bytesWritten = 0
          · simp only [empty, if_true]
            rfl
          · simp only [empty, if_false]
            rfl
        | some w' =>
          have saved : savedIndex vol directory (f.info.endIndex + 1) =
              savedIndex vol directory (area.cursor vol start (j + 1)).currentIndex := by
            rw [place.endIndex, savedIndex_succ]
            exact (savedIndex_mod (j + 1)).symm
          simp only [saved]
          exact ih more (ends.next passed) (endsAt.next le (by omega) passed) (by omega) w' _

end Area

end PadOS.Fat
