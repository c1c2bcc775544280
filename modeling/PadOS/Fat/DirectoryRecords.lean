import PadOS.Fat.Resumption

/-! # The records of a well-formed directory

What is read of an item is the item, but for a long name at the magic index, of
which the alias is read. That gives another record unless the alias says the same
and the entry is known by its cluster.
-/

namespace PadOS.Fat

open Unicode List Option

variable {vol : FATVolume} {directory : FATInode} {wantName : Bool} {maps : InodeMap}

namespace DirectoryItem

/-- What the driver reads of an item at an index. -/
def read (vol : FATVolume) (wantName : Bool) (i : Nat) : DirectoryItem → Option FoundEntry
  | long l =>
    if i % 2 ^ 32 = noSequence then
      let endIndex := (i + l.records.length) % 2 ^ 32
      some
        { info := entryInfo vol endIndex endIndex l.shortEntry
          filename := if wantName then fatRawShortNameToUtf8 l.shortEntry else []
          shortFilename := fatRawShortNameToUtf8 l.shortEntry }
    else (long l).entry vol wantName i
  | item => item.entry vol wantName i

theorem read_clear {item : DirectoryItem} {i : Nat} (clear : item.Clear i) :
    item.read vol wantName i = item.entry vol wantName i := by
  cases item with
  | erased e isErased => rfl
  | short e live => rfl
  | long l => exact if_neg clear

theorem enumerate_read (vol : FATVolume) (item : DirectoryItem) (wantName : Bool) {state : LFNState}
    (idle : state.startIndex = noSequence) (i : Nat) :
    ∃ state', state'.startIndex = noSequence ∧ ∀ rest,
      enumerate vol wantName state i (item.slots ++ rest) = (item.read vol wantName i).toList ++
          enumerate vol wantName state' (i + item.slots.length) rest := by
  by_cases clear : item.Clear i
  · rw [read_clear clear]
    exact item.enumerate_clear vol wantName idle clear
  cases item with
  | erased e isErased => exact absurd trivial clear
  | short e live => exact absurd trivial clear
  | long l =>
    have magic : i % 2 ^ 32 = noSequence := by_contra clear
    obtain ⟨state', _, unread, same⟩ := LongName.enumerate_records vol l wantName idle i
    refine ⟨{}, rfl, fun rest => ?_⟩
    have length : (long l).slots.length = l.records.length + 1 := by simp [slots]
    show enumerate vol wantName state i (l.records ++ [l.shortEntry] ++ rest) = _
    rw [append_assoc, same, singleton_append, enumerate, lfnStep_live l.live, length]
    simp only [foundEntry_idle (unread magic), read, magic, if_true]
    rfl

/-- The record of what is read is that of the item. -/
def Readable (vol : FATVolume) (directory : FATInode) (i : Nat) : DirectoryItem → Prop
  | long l =>
    i % 2 ^ 32 ≠ noSequence ∨ isHidden vol directory (entryInfo vol i i l.shortEntry) ∨
      fatRawShortNameToUtf8 l.shortEntry = assignUtf16 l.name ∧
        vol.isDataCluster (entryInfo vol i i l.shortEntry).startCluster
  | _ => True

end DirectoryItem

def readEntries (vol : FATVolume) (wantName : Bool) : Nat → List DirectoryItem → List FoundEntry
  | _, [] => []
  | i, item :: rest =>
    (item.read vol wantName i).toList ++ readEntries vol wantName (i + item.slots.length) rest

/-- All items are read as what they are. -/
def SequencesReadable (vol : FATVolume) (directory : FATInode) : Nat → List DirectoryItem → Prop
  | _, [] => True
  | i, item :: rest =>
    item.Readable vol directory i ∧ SequencesReadable vol directory (i + item.slots.length) rest

theorem enumerate_readEntries {state : LFNState} (idle : state.startIndex = noSequence)
    (items : List DirectoryItem) {tail : List FATDirectoryEntryCombo}
    (ended : ∀ e, tail.head? = some e → e.isEnd) (i : Nat) :
    enumerate vol wantName state i (items.flatMap DirectoryItem.slots ++ tail) =
      readEntries vol wantName i items := by
  induction items generalizing state i with
  | nil =>
    show enumerate vol wantName state i tail = []
    cases tail with
    | nil => rfl
    | cons e rest => rw [enumerate, lfnStep_endOfTable.2 (ended e rfl)]
  | cons item rest ih =>
    obtain ⟨state', idle', same⟩ := item.enumerate_read vol wantName idle i
    rw [flatMap_cons, append_assoc, readEntries, same, ih idle']

/-! ## One item -/

theorem validate_far {info : FATDirectoryEntryInfo} {filename : PString}
    (valid : validateFATDirectoryEntry vol directory info filename = .ok ())
    (far : 1 < info.startIndex) : filename ≠ dotName ∧ filename ≠ dotDotName := by
  unfold validateFATDirectoryEntry at valid
  simp only [ite_error_eq_ok] at valid
  obtain ⟨_, _, valid⟩ := valid
  have notDot : filename ≠ dotName := by
    intro isDot
    rw [if_pos isDot, ite_error_eq_ok] at valid
    exact valid.1 (.inr (.inl (by omega)))
  rw [if_neg notDot] at valid
  have notDotDot : filename ≠ dotDotName := by
    intro isDotDot
    rw [if_pos isDotDot] at valid
    simp only [ite_error_eq_ok] at valid
    exact valid.1 (.inr (.inl (by omega)))
  exact ⟨notDot, notDotDot⟩

theorem validate_moved {info info' : FATDirectoryEntryInfo} {filename : PString}
    (valid : validateFATDirectoryEntry vol directory info filename = .ok ())
    (far : 1 < info.startIndex) (ordered : info'.startIndex = info'.endIndex)
    (attribs : info'.dosAttribs = info.dosAttribs) (cluster : info'.startCluster = info.startCluster)
    (size : info'.size = info.size) :
    validateFATDirectoryEntry vol directory info' filename = .ok () := by
  obtain ⟨notDot, notDotDot⟩ := validate_far valid far
  unfold validateFATDirectoryEntry at valid ⊢
  simp only [attribs, cluster, size]
  have order : ¬(info'.endIndex < info'.startIndex ∨
      info'.endIndex - info'.startIndex > longNameMaxEntryCount) := by
    unfold longNameMaxEntryCount
    omega
  simp only [ite_error_eq_ok] at valid
  obtain ⟨_, named, valid⟩ := valid
  rw [if_neg notDot, if_neg notDotDot] at valid
  rw [if_neg order, if_neg named, if_neg notDot, if_neg notDotDot]
  exact valid

variable {result : DirectoryRecord × InodeMap}

theorem toRecord_moved {f g : FoundEntry}
    (made : toRecord vol directory maps f = .ok result) (far : 1 < f.info.startIndex)
    (ordered : g.info.startIndex = g.info.endIndex) (attribs : g.info.dosAttribs = f.info.dosAttribs)
    (cluster : g.info.startCluster = f.info.startCluster) (size : g.info.size = f.info.size)
    (name : g.filename = f.filename) (data : vol.isDataCluster f.info.startCluster) :
    toRecord vol directory maps g = .ok result := by
  unfold toRecord at made ⊢
  cases valid : validateFATDirectoryEntry vol directory f.info f.filename with
  | error stop => simp [valid] at made
  | ok _ =>
    obtain ⟨notDot, notDotDot⟩ := validate_far valid far
    have valid' := validate_moved valid far ordered attribs cluster size
    have same : identify vol directory g.info f.filename maps =
        identify vol directory f.info f.filename maps := by
      unfold identify
      rw [if_neg notDot, if_neg notDotDot, if_neg notDot, if_neg notDotDot]
      simp only [cluster, attribs, data, if_true]
    rw [name, valid', same, attribs]
    rw [valid] at made
    exact made

namespace InodeMap

/-- No entry has moved. -/
structure Fresh (maps : InodeMap) : Prop where
  inodes : ∀ i, maps.inodeToLocation i = none
  locations : ∀ l, maps.locationToInode l = none

theorem fresh_empty : Fresh {} := ⟨fun _ => rfl, fun _ => rfl⟩

end InodeMap

theorem numberOfLocation_fresh (fresh : maps.Fresh) (location : Nat) :
    numberOfLocation maps location = .ok (location, maps) := by
  unfold numberOfLocation
  rw [fresh.locations, fresh.inodes]
  rfl

/-- Where the inode number of an entry is its location. -/
theorem toRecord_fresh {maps' : InodeMap} (fresh : maps.Fresh) {f : FoundEntry}
    {record : DirectoryRecord} (made : toRecord vol directory maps f = .ok (record, maps')) :
    maps'.Fresh ∧ (f.filename ≠ dotName → f.filename ≠ dotDotName → record.inodeID =
      if vol.isDataCluster f.info.startCluster then
        generateDirClusterInodeID directory.inodeID f.info.startCluster
      else generateDirIndexInodeID directory.inodeID f.info.startIndex) := by
  unfold toRecord at made
  cases valid : validateFATDirectoryEntry vol directory f.info f.filename with
  | error stop => simp [valid] at made
  | ok _ =>
    simp only [valid] at made
    cases identified : identify vol directory f.info f.filename maps with
    | error stop => simp [identified] at made
    | ok result =>
      obtain ⟨inodeID, maps''⟩ := result
      simp only [identified] at made
      obtain ⟨rfl, rfl⟩ := Prod.mk.inj (Except.ok.inj made)
      unfold identify at identified
      by_cases isDot : f.filename = dotName
      · rw [if_pos isDot] at identified
        obtain ⟨_, rfl⟩ := Prod.mk.inj (Except.ok.inj identified)
        exact ⟨fresh, fun notDot => absurd isDot notDot⟩
      by_cases isDotDot : f.filename = dotDotName
      · rw [if_neg isDot, if_pos isDotDot] at identified
        obtain ⟨_, rfl⟩ := Prod.mk.inj (Except.ok.inj identified)
        exact ⟨fresh, fun _ notDotDot => absurd isDotDot notDotDot⟩
      rw [if_neg isDot, if_neg isDotDot] at identified
      simp only [numberOfLocation_fresh fresh] at identified
      by_cases isSubdir : f.info.dosAttribs &&& fatSubdirAttribute ≠ 0
      · rw [if_pos isSubdir] at identified
        split at identified
        · cases identified
        · rename_i mapped
          obtain ⟨rfl, rfl⟩ := Prod.mk.inj (Except.ok.inj identified)
          obtain ⟨directoryMap, rfl⟩ := (mapDirectory_again mapped).1
          exact ⟨⟨fresh.inodes, fresh.locations⟩, fun _ _ => rfl⟩
      · rw [if_neg isSubdir] at identified
        obtain ⟨rfl, rfl⟩ := Prod.mk.inj (Except.ok.inj identified)
        exact ⟨fresh, fun _ _ => rfl⟩

theorem generateDirIndexInodeID_mod (inodeID : Nat) {index : Nat} (small : index < 2 ^ 32) :
    generateDirIndexInodeID inodeID index % 2 ^ 32 = index := by
  have high : (inodeID <<< 32) % 2 ^ 64 % 2 ^ 32 = 0 := by
    rw [Nat.shiftLeft_eq]
    omega
  unfold generateDirIndexInodeID
  rw [Nat.or_mod_two_pow, high, Nat.zero_or, Nat.mod_eq_of_lt small]

/-! ## The list -/

theorem visible_append (first second : List FoundEntry) :
    visible vol directory (first ++ second) =
      visible vol directory first ++ visible vol directory second :=
  filter_append ..

namespace DirectoryItem

variable {item : DirectoryItem} {i : Nat}

/-- Either nothing is shown of an item, or one entry, for which another is read. -/
theorem visible_cases (vol : FATVolume) (directory : FATInode) (wantName : Bool) (i : Nat)
    (item : DirectoryItem) :
    visible vol directory (item.entry vol wantName i).toList = [] ∧
        visible vol directory (item.read vol wantName i).toList = [] ∧ item.Readable vol directory i ∨
      ∃ f g, visible vol directory (item.entry vol wantName i).toList = [f] ∧
        visible vol directory (item.read vol wantName i).toList = [g] ∧
        item.entry vol wantName i = some f ∧ item.read vol wantName i = some g := by
  have shown (f : FoundEntry) : visible vol directory (some f).toList =
      if isHidden vol directory f.info then [] else [f] := by
    by_cases hidden : isHidden vol directory f.info <;> simp [visible, hidden]
  cases item with
  | erased e isErased => exact .inl ⟨rfl, rfl, trivial⟩
  | short e live =>
    have isRead : (short e live).read vol wantName i = (short e live).entry vol wantName i := rfl
    rw [isRead, show (short e live).entry vol wantName i = some _ from rfl, shown]
    by_cases hidden : isHidden vol directory (entryInfo vol (i % 2 ^ 32) (i % 2 ^ 32) e)
    · rw [if_pos hidden]
      exact .inl ⟨rfl, rfl, trivial⟩
    · rw [if_neg hidden]
      exact .inr ⟨_, _, rfl, rfl, rfl, rfl⟩
  | long l =>
    have made : ∃ g, (long l).read vol wantName i = some g ∧
        isHidden vol directory g.info = isHidden vol directory (entryInfo vol i i l.shortEntry) := by
      unfold read
      dsimp only
      split
      · exact ⟨_, rfl, rfl⟩
      · exact ⟨_, rfl, rfl⟩
    obtain ⟨g, isRead, same⟩ := made
    rw [isRead, show (long l).entry vol wantName i = some _ from rfl, shown, shown, same]
    have same' (startIndex endIndex : Nat) :
        isHidden vol directory (entryInfo vol startIndex endIndex l.shortEntry) =
          isHidden vol directory (entryInfo vol i i l.shortEntry) := rfl
    rw [same']
    by_cases hidden : isHidden vol directory (entryInfo vol i i l.shortEntry)
    · rw [if_pos hidden, if_pos hidden]
      exact .inl ⟨rfl, rfl, .inr (.inl hidden)⟩
    · rw [if_neg hidden, if_neg hidden]
      exact .inr ⟨_, _, rfl, rfl, rfl, rfl⟩

/-- A readable item is read as the same record. -/
theorem toRecord_read {f g : FoundEntry}
    (entry : item.entry vol true i = some f) (isRead : item.read vol true i = some g)
    (plain : ¬isHidden vol directory f.info) (readable : item.Readable vol directory i)
    (made : toRecord vol directory maps f = .ok result) :
    toRecord vol directory maps g = .ok result := by
  by_cases clear : item.Clear i
  · rw [read_clear clear, entry] at isRead
    exact some.inj isRead ▸ made
  cases item with
  | erased e isErased => exact absurd trivial clear
  | short e live => exact absurd trivial clear
  | long l =>
    have magic : i % 2 ^ 32 = noSequence := by_contra clear
    have alias' : (long l).read vol true i = some _ := if_pos magic
    rw [alias'] at isRead
    obtain rfl := some.inj isRead
    obtain rfl := some.inj entry
    rcases readable with clear' | hidden | ⟨name, data⟩
    · exact absurd magic clear'
    · exact absurd hidden plain
    · refine toRecord_moved made ?_ rfl rfl rfl rfl name data
      show 1 < i % 2 ^ 32
      rw [magic]
      decide

/-- Where no entry has moved, another record is read of an item that is not
readable. -/
theorem readable_of_toRecord {maps' maps'' : InodeMap} (fresh : maps.Fresh) {f g : FoundEntry}
    {record record' : DirectoryRecord} (entry : item.entry vol true i = some f)
    (isRead : item.read vol true i = some g)
    (made : toRecord vol directory maps f = .ok (record, maps'))
    (made' : toRecord vol directory maps g = .ok (record', maps''))
    (same : record.dirent = record'.dirent) : item.Readable vol directory i := by
  by_cases clear : item.Clear i
  · cases item with
    | erased e isErased => trivial
    | short e live => trivial
    | long l => exact .inl clear
  cases item with
  | erased e isErased => trivial
  | short e live => trivial
  | long l =>
    have magic : i % 2 ^ 32 = noSequence := by_contra clear
    have alias' : (long l).read vol true i = some _ := if_pos magic
    rw [alias'] at isRead
    obtain rfl := some.inj isRead
    obtain rfl := some.inj entry
    have name : record.filename = record'.filename := congrArg Dirent.name same
    have number : record.inodeID = record'.inodeID := congrArg Dirent.inodeID same
    rw [(toRecord_filename made).1, (toRecord_filename made').1] at name
    have name : assignUtf16 l.name = fatRawShortNameToUtf8 l.shortEntry := name
    refine .inr (.inr ⟨name.symm, ?_⟩)
    by_contra noCluster
    cases valid : validateFATDirectoryEntry vol directory
        (entryInfo vol (i % 2 ^ 32) ((i + l.records.length) % 2 ^ 32) l.shortEntry)
        (assignUtf16 l.name) with
    | error stop =>
      unfold toRecord at made
      simp only [if_true, valid] at made
      cases made
    | ok _ =>
      have far : 1 < i % 2 ^ 32 := by
        rw [magic]
        decide
      obtain ⟨notDot, notDotDot⟩ := validate_far valid far
      have first := (toRecord_fresh fresh made).2 notDot notDotDot
      have second := (toRecord_fresh fresh made').2 (by
        show fatRawShortNameToUtf8 l.shortEntry ≠ dotName
        rw [← name]
        exact notDot) (by
        show fatRawShortNameToUtf8 l.shortEntry ≠ dotDotName
        rw [← name]
        exact notDotDot)
      have away (startIndex endIndex : Nat) : ¬vol.isDataCluster
          (entryInfo vol startIndex endIndex l.shortEntry).startCluster := noCluster
      rw [if_neg (away _ _)] at first second
      have first : record.inodeID = generateDirIndexInodeID directory.inodeID (i % 2 ^ 32) := first
      have second : record'.inodeID =
        generateDirIndexInodeID directory.inodeID ((i + l.records.length) % 2 ^ 32) := second
      rw [first, second] at number
      have indices := congrArg (· % 2 ^ 32) number
      rw [generateDirIndexInodeID_mod _ (Nat.mod_lt _ (by decide)),
        generateDirIndexInodeID_mod _ (Nat.mod_lt _ (by decide))] at indices
      have bounds := recordCount_bounds l.notEmpty
      have few := recordCount_le l.short
      have count := l.count
      unfold longNameMaxEntryCount at few
      unfold noSequence at magic
      omega

end DirectoryItem

theorem toRecords_singleton_append {f : FoundEntry} {rest : List FoundEntry}
    {record : DirectoryRecord} {maps' : InodeMap} {others : List DirectoryRecord}
    (made : toRecord vol directory maps f = .ok (record, maps'))
    (more : toRecords vol directory maps' rest = .ok others) :
    toRecords vol directory maps ([f] ++ rest) = .ok (record :: others) := by
  rw [singleton_append, toRecords, made]
  simp only [more]

theorem toRecords_read {i : Nat} {items : List DirectoryItem}
    (readable : SequencesReadable vol directory i items) {records : List DirectoryRecord}
    (listed : toRecords vol directory maps (visible vol directory (liveEntries vol true i items)) =
      .ok records) :
    toRecords vol directory maps (visible vol directory (readEntries vol true i items)) =
      .ok records := by
  induction items generalizing maps i records with
  | nil => exact listed
  | cons item rest ih =>
    rw [liveEntries, visible_append] at listed
    rw [readEntries, visible_append]
    rcases item.visible_cases vol directory true i with
      ⟨none, none', _⟩ | ⟨f, g, one, one', entry, isRead⟩
    · rw [none, nil_append] at listed
      rw [none', nil_append]
      exact ih readable.2 listed
    · rw [one, singleton_append] at listed
      obtain ⟨record, maps', others, made, more, rfl⟩ := toRecords_cons listed
      have plain : ¬isHidden vol directory f.info := by
        have member : f ∈ visible vol directory (item.entry vol true i).toList := by simp [one]
        simpa using (mem_filter.1 member).2
      rw [one']
      exact toRecords_singleton_append
        (DirectoryItem.toRecord_read entry isRead plain readable.1 made) (ih readable.2 more)

theorem readable_of_toRecords (fresh : maps.Fresh) {i : Nat}
    {items : List DirectoryItem} {records records' : List DirectoryRecord}
    (listed : toRecords vol directory maps (visible vol directory (liveEntries vol true i items)) =
      .ok records)
    (listed' : toRecords vol directory maps (visible vol directory (readEntries vol true i items)) =
      .ok records')
    (same : records.map DirectoryRecord.dirent = records'.map DirectoryRecord.dirent) :
    SequencesReadable vol directory i items := by
  induction items generalizing maps i records records' with
  | nil => trivial
  | cons item rest ih =>
    rw [liveEntries, visible_append] at listed
    rw [readEntries, visible_append] at listed'
    rcases item.visible_cases vol directory true i with
      ⟨none, none', readable⟩ | ⟨f, g, one, one', entry, isRead⟩
    · rw [none, nil_append] at listed
      rw [none', nil_append] at listed'
      exact ⟨readable, ih fresh listed listed' same⟩
    · rw [one, singleton_append] at listed
      rw [one', singleton_append] at listed'
      obtain ⟨record, maps', others, made, more, rfl⟩ := toRecords_cons listed
      obtain ⟨record', maps'', others', made', more', rfl⟩ := toRecords_cons listed'
      obtain ⟨first, others⟩ := cons.inj same
      have readable := DirectoryItem.readable_of_toRecord fresh entry isRead made made' first
      have plain : ¬isHidden vol directory f.info := by
        have member : f ∈ visible vol directory (item.entry vol true i).toList := by simp [one]
        simpa using (mem_filter.1 member).2
      rw [DirectoryItem.toRecord_read entry isRead plain readable made] at made'
      obtain ⟨_, rfl⟩ := Prod.mk.inj (Except.ok.inj made')
      exact ⟨readable, ih (toRecord_fresh fresh made).1 more more' others⟩

theorem visible_readEntries_length (vol : FATVolume) (directory : FATInode) (wantName : Bool) (i : Nat)
    (items : List DirectoryItem) :
    (visible vol directory (readEntries vol wantName i items)).length =
      (visible vol directory (liveEntries vol wantName i items)).length := by
  induction items generalizing i with
  | nil => rfl
  | cons item rest ih =>
    rw [liveEntries, readEntries, visible_append, visible_append, length_append, length_append, ih]
    rcases item.visible_cases vol directory wantName i with
      ⟨none, none', _⟩ | ⟨f, g, one, one', _⟩
    · rw [none, none']
    · rw [one, one']
      rfl

theorem toRecords_length {entries : List FoundEntry} {records : List DirectoryRecord}
    (listed : toRecords vol directory maps entries = .ok records) : records.length = entries.length := by
  induction entries generalizing maps records with
  | nil =>
    obtain rfl := Except.ok.inj listed
    rfl
  | cons f rest ih =>
    obtain ⟨record, maps', others, _, more, rfl⟩ := toRecords_cons listed
    rw [length_cons, length_cons, ih more]

end PadOS.Fat
