import PadOS.Fat.Enumeration
import PadOS.Fat.Inode

/-! # Lookup

`GetNextDirectoryEntry` hides volume labels in the root, checks each entry it
returns and finds its inode number; `DoLocateInode` calls it until a name matches.
In a directory whose enumeration ends, both are functions of its live entries.
-/

namespace PadOS.Fat

open Unicode List FATDirectoryIterator

variable {vol : FATVolume} {disk : Disk} {area : Area} {start i : Nat} {directory : FATInode}

def dotName : PString := [0x2e]
def dotDotName : PString := [0x2e, 0x2e]

/-- `ValidateFATDirectoryEntry`, of which only the outcome matters here. -/
def validateFATDirectoryEntry (vol : FATVolume) (directory : FATInode) (info : FATDirectoryEntryInfo)
    (filename : PString) : Except Stop Unit :=
  let isSubdir := info.dosAttribs &&& fatSubdirAttribute ≠ 0
  if info.endIndex < info.startIndex ∨ info.endIndex - info.startIndex > longNameMaxEntryCount then
    .error (.throws .io)
  else if filename = [] ∨ info.dosAttribs &&& fatVolumeAttribute ≠ 0 then .error (.throws .io)
  else if filename = dotName then
    if directory.isRoot vol ∨ info.startIndex ≠ 0 ∨ info.endIndex ≠ 0 ∨ ¬isSubdir ∨
        info.startCluster ≠ directory.startCluster ∨ info.size ≠ 0 then .error (.throws .io)
    else .ok ()
  else if filename = dotDotName then
    let expectedParentCluster := if directory.parentInodeID ≠ vol.rootInodeID then
      clusterOfDirClusterInodeID directory.parentInodeID else 0
    if directory.isRoot vol ∨ info.startIndex ≠ 1 ∨ info.endIndex ≠ 1 ∨ ¬isSubdir ∨
        info.startCluster ≠ expectedParentCluster ∨ info.size ≠ 0 then .error (.throws .io)
    else .ok ()
  else if isSubdir then
    if !vol.isDataCluster info.startCluster ∨ info.size ≠ 0 then .error (.throws .io) else .ok ()
  else if (info.startCluster == 0) ≠ (info.size == 0) ∨
      (info.startCluster ≠ 0 ∧ !vol.isDataCluster info.startCluster) then .error (.throws .io)
  else .ok ()

/-- The number of a location: a mapped one, else the location itself unless another
inode has it. -/
def numberOfLocation (maps : InodeMap) (location : Nat) : Except Stop (Nat × InodeMap) :=
  match maps.locationToInode location with
  | some inodeID => .ok (inodeID, maps)
  | none =>
    if (maps.inodeToLocation location).isSome then
      let (inodeID, maps) := maps.allocUniqueInodeID
      match maps.setInodeIDToLocationIDMapping inodeID location with
      | .error stop => .error stop
      | .ok maps => .ok (inodeID, maps)
    else .ok (location, maps)

/-- A directory is mapped at its first cluster, once. -/
def mapDirectory (vol : FATVolume) (maps : InodeMap) (startCluster inodeID : Nat) :
    Except Stop InodeMap :=
  match maps.directoryMap startCluster with
  | none =>
    match maps.addDirectoryMapping vol startCluster inodeID with
    | none => .error (.throws .io)
    | some maps => .ok maps
  | some mapped => if mapped ≠ inodeID then .error (.throws .io) else .ok maps

/-- The inode number of an entry, as `GetNextDirectoryEntry` finds it. -/
def identify (vol : FATVolume) (directory : FATInode) (info : FATDirectoryEntryInfo)
    (filename : PString) (maps : InodeMap) : Except Stop (Nat × InodeMap) :=
  if filename = dotName then .ok (directory.inodeID, maps)
  else if filename = dotDotName then .ok (directory.parentInodeID, maps)
  else
    let location := if vol.isDataCluster info.startCluster then
      generateDirClusterInodeID directory.inodeID info.startCluster
      else generateDirIndexInodeID directory.inodeID info.startIndex
    match numberOfLocation maps location with
    | .error stop => .error stop
    | .ok (inodeID, maps) =>
      if info.dosAttribs &&& fatSubdirAttribute ≠ 0 then
        match mapDirectory vol maps info.startCluster inodeID with
        | .error stop => .error stop
        | .ok maps => .ok (inodeID, maps)
      else .ok (inodeID, maps)

/-- A volume label in the root directory. -/
def isHidden (vol : FATVolume) (directory : FATInode) (info : FATDirectoryEntryInfo) : Bool :=
  info.dosAttribs &&& fatVolumeAttribute != 0 && directory.isRoot vol

structure DirectoryRecord where
  filename : PString
  inodeID : Nat
  dosAttribs : Nat
  deriving DecidableEq

/-- What `GetNextDirectoryEntry` makes of an entry that is not hidden. -/
def toRecord (vol : FATVolume) (directory : FATInode) (maps : InodeMap) (f : FoundEntry) :
    Except Stop (DirectoryRecord × InodeMap) :=
  match validateFATDirectoryEntry vol directory f.info f.filename with
  | .error stop => .error stop
  | .ok _ =>
    match identify vol directory f.info f.filename maps with
    | .error stop => .error stop
    | .ok (inodeID, maps) => .ok ({ filename := f.filename, inodeID, dosAttribs := f.info.dosAttribs }, maps)

namespace FATDirectoryIterator

/-- The loop over labels. -/
def getNextVisibleEntry (vol : FATVolume) (disk : Disk) (directory : FATInode) (rounds : Nat) :
    Nat → FATDirectoryIterator → Run (Option FoundEntry × FATDirectoryIterator)
  | 0, _ => Run.unfinished
  | calls + 1, it => do
      let (found, it) ← it.getNextLFNEntry vol disk true rounds
      match found with
      | none => return (none, it)
      | some f =>
        if isHidden vol directory f.info then getNextVisibleEntry vol disk directory rounds calls it
        else return (some f, it)

def getNextDirectoryEntry (vol : FATVolume) (disk : Disk) (directory : FATInode) (rounds : Nat)
    (maps : InodeMap) (it : FATDirectoryIterator) :
    Run (Option DirectoryRecord × InodeMap × FATDirectoryIterator) := do
  let (found, it) ← getNextVisibleEntry vol disk directory rounds rounds it
  match found with
  | none => return (none, maps, it)
  | some f =>
    let (record, maps) ← Run.ofExcept (toRecord vol directory maps f)
    return (some record, maps, it)

end FATDirectoryIterator

section

variable (vol : FATVolume)

/-- The loop of `DoLocateInode`. -/
def locateLoop (disk : Disk) (directory : FATInode) (fileName : PString)
    (rounds : Nat) : Nat → InodeMap → FATDirectoryIterator → Run (Option Nat × InodeMap)
  | 0, _, _ => Run.unfinished
  | calls + 1, maps, it => do
      let (found, maps, it) ← it.getNextDirectoryEntry vol disk directory rounds maps
      match found with
      | none => return (none, maps)
      | some record =>
        if record.filename = fileName then return (some record.inodeID, maps)
        else locateLoop disk directory fileName rounds calls maps it

/-- `DoLocateInode`: the number of the inode to get, or nothing for "not found". -/
def doLocateInode (disk : Disk) (directory : FATInode) (fileName : PString)
    (rounds : Nat) (maps : InodeMap) : Run (Option Nat × InodeMap) := do
  if fileName = dotName ∧ directory.isRoot vol then return (some directory.inodeID, maps)
  if fileName = dotDotName ∧ directory.isRoot vol then return (some directory.parentInodeID, maps)
  let it ← Run.ofExcept (create vol disk directory.startCluster 0)
  locateLoop vol disk directory fileName rounds rounds maps it

/-! ## On the live entries -/

/-- The entries that a directory shows. -/
def visible (directory : FATInode) (entries : List FoundEntry) : List FoundEntry :=
  entries.filter fun f => !isHidden vol directory f.info

/-- `DoLocateInode` on a list of entries. -/
def locate (directory : FATInode) (fileName : PString) (maps : InodeMap) :
    List FoundEntry → Except Stop (Option Nat × InodeMap)
  | [] => .ok (none, maps)
  | f :: rest =>
    match toRecord vol directory maps f with
    | .error stop => .error stop
    | .ok (record, maps) =>
      if record.filename = fileName then .ok (some record.inodeID, maps)
      else locate directory fileName maps rest

/-- The entries are accepted one after the other. -/
def Accepts (directory : FATInode) : InodeMap → List FoundEntry → Prop
  | _, [] => True
  | maps, f :: rest => ∃ record maps', toRecord vol directory maps f = .ok (record, maps') ∧
      Accepts directory maps' rest

end

theorem toRecord_filename {maps maps' : InodeMap} {f : FoundEntry}
    {record : DirectoryRecord} (made : toRecord vol directory maps f = .ok (record, maps')) :
    record.filename = f.filename ∧ record.dosAttribs = f.info.dosAttribs := by
  unfold toRecord at made
  split at made
  · cases made
  · split at made
    · cases made
    · obtain ⟨rfl, _⟩ := Prod.mk.inj (Except.ok.inj made)
      exact ⟨rfl, rfl⟩

theorem locate_missing {fileName : PString} {entries : List FoundEntry}
    (missing : ∀ f ∈ entries, f.filename ≠ fileName) {maps : InodeMap}
    (accepts : Accepts vol directory maps entries) :
    ∃ maps', locate vol directory fileName maps entries = .ok (none, maps') := by
  induction entries generalizing maps with
  | nil => exact ⟨maps, rfl⟩
  | cons f rest ih =>
    obtain ⟨record, maps', made, more⟩ := accepts
    obtain ⟨maps'', located⟩ := ih (fun g member => missing g (mem_cons_of_mem _ member)) more
    refine ⟨maps'', ?_⟩
    rw [locate, made]
    simp only [(toRecord_filename made).1, missing f mem_cons_self, if_false, located]

namespace Area

theorem getNextVisibleEntry_terminated (accepted : vol.Accepted) (held : area.Holds vol disk start)
    (directory : FATInode) (inside : i < (area.slots vol disk).length)
    (ends : Terminated (area.slots vol disk) i) {rounds calls : Nat}
    (enough : (area.slots vol disk).length < rounds)
    (enough' : (area.slots vol disk).length - i < calls) :
    (visible vol directory (enumerate vol true {} i ((area.slots vol disk).drop i)) = [] ∧ ∃ it,
      (area.cursor vol start i).getNextVisibleEntry vol disk directory rounds calls = pure (none, it) ∧
      (it = area.overrun vol start 0 ∧ ¬Marked (area.slots vol disk) i ∨
        ∃ m e, i ≤ m ∧ (area.slots vol disk)[m]? = some e ∧ e.isEnd ∧
          Passable (area.slots vol disk) i m ∧ it = area.cursor vol start m)) ∨
    ∃ f j, i ≤ j ∧ j + 1 < (area.slots vol disk).length ∧ StandsAt (area.slots vol disk) f j ∧
      visible vol directory (enumerate vol true {} i ((area.slots vol disk).drop i)) =
        f :: visible vol directory (enumerate vol true {} (j + 1) ((area.slots vol disk).drop (j + 1))) ∧
      Passable (area.slots vol disk) i (j + 1) ∧
      (area.cursor vol start i).getNextVisibleEntry vol disk directory rounds calls =
        pure (some f, area.cursor vol start (j + 1)) := by
  induction calls generalizing i with
  | zero => omega
  | succ calls ih =>
    rw [getNextVisibleEntry]
    rcases getNextLFNEntry_terminated accepted held inside ends true enough with
      ⟨none, it, call, place⟩ | ⟨f, j, le, more, place, listed, passed, call⟩
    · exact .inl ⟨by rw [none]; rfl, it, by rw [call, pure_bind], place⟩
    · rw [listed, call, pure_bind]
      by_cases hidden : isHidden vol directory f.info
      · have skipped : visible vol directory (f :: enumerate vol true {} (j + 1)
            ((area.slots vol disk).drop (j + 1))) = visible vol directory
            (enumerate vol true {} (j + 1) ((area.slots vol disk).drop (j + 1))) := by
          simp [visible, hidden]
        simp only [hidden, if_true, skipped]
        rcases ih more (ends.next passed) (by omega) with
          ⟨none, it, call', place⟩ | ⟨g, k, le', more', place', listed', passed', call'⟩
        · refine .inl ⟨none, it, call', ?_⟩
          rcases place with ⟨overran, unmarked⟩ | ⟨m, e, above, slot, isEnd, passed', here⟩
          · exact .inl ⟨overran, fun marked => unmarked (marked.next passed)⟩
          · exact .inr ⟨m, e, by omega, slot, isEnd, passed.trans passed', here⟩
        · exact .inr ⟨g, k, by omega, more', place', listed', passed.trans passed', call'⟩
      · refine .inr ⟨f, j, le, more, place, ?_, passed, ?_⟩
        · simp [visible, hidden]
        · simp only [hidden, Bool.false_eq_true, if_false]

theorem getNextDirectoryEntry_none (directory : FATInode) (rounds : Nat) (maps : InodeMap)
    {it it' : FATDirectoryIterator}
    (call : it.getNextVisibleEntry vol disk directory rounds rounds = pure (none, it')) :
    it.getNextDirectoryEntry vol disk directory rounds maps = pure (none, maps, it') := by
  unfold getNextDirectoryEntry
  rw [call, pure_bind]

theorem getNextDirectoryEntry_some (directory : FATInode) (rounds : Nat) (maps : InodeMap)
    {it it' : FATDirectoryIterator} {f : FoundEntry}
    (call : it.getNextVisibleEntry vol disk directory rounds rounds = pure (some f, it')) :
    it.getNextDirectoryEntry vol disk directory rounds maps =
      Run.ofExcept (toRecord vol directory maps f) >>= fun result =>
        pure (some result.1, result.2, it') := by
  unfold getNextDirectoryEntry
  rw [call, pure_bind]

theorem locateLoop_terminated (accepted : vol.Accepted) (held : area.Holds vol disk start)
    (directory : FATInode) (fileName : PString) (inside : i < (area.slots vol disk).length)
    (ends : Terminated (area.slots vol disk) i) {rounds calls : Nat}
    (enough : (area.slots vol disk).length < rounds)
    (enough' : (area.slots vol disk).length - i < calls) (maps : InodeMap) :
    locateLoop vol disk directory fileName rounds calls maps (area.cursor vol start i) =
      Run.ofExcept (locate vol directory fileName maps
        (visible vol directory (enumerate vol true {} i ((area.slots vol disk).drop i)))) := by
  induction calls generalizing i maps with
  | zero => omega
  | succ calls ih =>
    rw [locateLoop]
    rcases getNextVisibleEntry_terminated accepted held directory inside ends enough
        (show (area.slots vol disk).length - i < rounds by omega) with
      ⟨none, it, call, _⟩ | ⟨f, j, le, more, _, listed, passed, call⟩
    · rw [none, getNextDirectoryEntry_none directory rounds maps call, pure_bind]
      rfl
    · rw [listed, getNextDirectoryEntry_some directory rounds maps call, locate]
      cases made : toRecord vol directory maps f with
      | error stop => rfl
      | ok result =>
        obtain ⟨record, maps'⟩ := result
        simp only [Run.ofExcept_ok, pure_bind]
        by_cases same : record.filename = fileName
        · simp only [same, if_true]
          rfl
        · simp only [same, if_false]
          exact ih more (ends.next passed) (by omega) maps'

end Area

/-! ## Exactness -/

/-- On the packed table, repeated calls from index 0 return the live entries once and in
order, then false; and a name that is not there is not found. -/
structure EnumeratesPacked (vol : FATVolume) (disk : Disk) (directory : FATInode)
    (content : DirectoryContent) : Prop where
  all : ∃ bound, ∀ rounds calls, bound ≤ rounds → bound ≤ calls → (do
      let it ← Run.ofExcept (create vol disk directory.startCluster 0)
      it.getAllEntries vol disk rounds calls) = pure (liveEntries vol true 0 content.items)
  missing : ∀ fileName maps, ¬((fileName = dotName ∨ fileName = dotDotName) ∧ directory.isRoot vol) →
    (∀ f ∈ liveEntries vol true 0 content.items, f.filename ≠ fileName) →
    Accepts vol directory maps (visible vol directory (liveEntries vol true 0 content.items)) →
    ∃ bound, ∀ rounds, bound ≤ rounds → ∃ maps',
      doLocateInode vol disk directory fileName rounds maps = pure (none, maps')

section

variable (accepted : vol.Accepted) (held : area.Holds vol disk directory.startCluster)

include accepted held

theorem enumerates_of_terminated
    {content : DirectoryContent}
    (slots : area.slots vol disk = content.slots) (ends : Area.Terminated content.slots 0)
    (clear : SequencesClear 0 content.items) : EnumeratesPacked vol disk directory content := by
  have positive := Area.slots_length_pos accepted held
  have created := Area.create_inside accepted held positive (by decide)
  have listed : enumerate vol true {} 0 ((area.slots vol disk).drop 0) =
      liveEntries vol true 0 content.items := by
    rw [drop_zero, slots]
    exact (enumerate_items_iff rfl content.items content.ended 0).2 clear
  rw [← slots] at ends
  constructor
  · refine ⟨(area.slots vol disk).length + 1, fun rounds calls enough enough' => ?_⟩
    rw [created, Run.ofExcept_ok, pure_bind, Area.getAllEntries_terminated accepted held positive ends
      (by omega) (by omega), listed]
  · intro fileName maps plain missing accepts
    refine ⟨(area.slots vol disk).length + 1, fun rounds enough => ?_⟩
    have missing' : ∀ f ∈ visible vol directory (liveEntries vol true 0 content.items),
        f.filename ≠ fileName := fun f member => missing f (mem_of_mem_filter member)
    obtain ⟨maps', located⟩ := locate_missing missing' accepts
    refine ⟨maps', ?_⟩
    unfold doLocateInode
    rw [if_neg (fun both => plain ⟨.inl both.1, both.2⟩),
      if_neg (fun both => plain ⟨.inr both.1, both.2⟩), created]
    simp only [Run.ofExcept_ok, pure_bind]
    rw [Area.locateLoop_terminated accepted held directory fileName positive ends (by omega) (by omega),
      listed, located]
    rfl

theorem enumeratesPacked_iff {content : DirectoryContent}
    (slots : area.slots vol disk = content.slots) :
    EnumeratesPacked vol disk directory content ↔
      Area.Terminated content.slots 0 ∧ SequencesClear 0 content.items := by
  have positive := Area.slots_length_pos accepted held
  have created := Area.create_inside accepted held positive (by decide)
  refine ⟨fun exact => ?_, fun both => enumerates_of_terminated accepted held slots both.1 both.2⟩
  obtain ⟨bound, all⟩ := exact.all
  have result := all (bound + (area.slots vol disk).length + 1) (bound + (area.slots vol disk).length + 1)
    (by omega) (by omega)
  rw [created, Run.ofExcept_ok, pure_bind] at result
  have ends : Area.Terminated (area.slots vol disk) 0 := by
    by_contra endless
    simp only [Area.Terminated, not_or, not_exists, not_and, not_not] at endless
    obtain ⟨last, isLast⟩ : ∃ last, (area.slots vol disk).getLast? = some last :=
      ⟨_, getLast?_eq_some_getLast (ne_nil_of_length_pos positive)⟩
    have unmarked : ∀ e ∈ area.slots vol disk, ¬e.isEnd := by
      intro e member isEnd
      obtain ⟨m, slot⟩ := getElem?_of_mem member
      exact endless.1 ⟨m, e, zero_le, slot, isEnd⟩
    have longer := Area.getAllEntries_unterminated accepted held positive unmarked isLast
      (endless.2 last isLast) (by omega) result
    rw [drop_zero, slots] at longer
    rw [DirectoryContent.slots, enumerate_items_length vol true {} content.items content.ended 0]
      at longer
    omega
  rw [Area.getAllEntries_terminated accepted held positive ends (by omega) (by omega),
    drop_zero, slots] at result
  rw [← slots]
  exact ⟨ends, (enumerate_items_iff rfl content.items content.ended 0).1 (Run.pure_inj.1 result)⟩

end

/-- The root directory of a floppy. -/
def floppyRoot : FATInode where
  inodeID := floppy.rootInodeID
  parentInodeID := floppy.rootInodeID
  dirStartIndex := 0
  dirEndIndex := 0
  startCluster := 1
  size := 0
  dosAttribs := fatSubdirAttribute

theorem floppyRoot_holds (disk : Disk) :
    Area.fixedRoot.Holds floppy disk floppyRoot.startCluster := ⟨by decide, by decide⟩

end PadOS.Fat
