import PadOS.Fat.Scan

/-! # Well-formed directories

A well-formed directory is a list of items, each with its slots: erased slots,
8.3 entries, and long names with their records and their alias. After the items
the directory is full, or an end marker stands there with anything behind it.
-/

namespace PadOS.Fat

open Unicode List

variable {vol : FATVolume} {wantName : Bool} {name : List Nat}

/-- The units of a long name with its terminator and padding. -/
def paddedName (name : List Nat) : List Nat :=
  if name.length % charactersPerLFNEntry = 0 then name
  else name ++ 0 :: replicate (charactersPerLFNEntry - 1 - name.length % charactersPerLFNEntry) 0xffff

def recordCount (name : List Nat) : Nat :=
  (name.length + charactersPerLFNEntry - 1) / charactersPerLFNEntry

/-- Record `sequence` of a name, counted from 1, as it stands on the disk. -/
structure IsRecord (e : FATDirectoryEntryCombo) (name : List Nat) (hash sequence : Nat) : Prop where
  sequenceNumber : e.sequenceNumber = sequence + (if sequence = recordCount name then 0x40 else 0)
  longName : e.isLongName
  reserved1 : e.reserved1 = 0
  reserved2 : e.reserved2 = 0
  hash : e.hash = hash
  nameParts : e.nameParts =
    ((paddedName name).drop (charactersPerLFNEntry * (sequence - 1))).take charactersPerLFNEntry

/-- A name that the driver reads back: no terminator or padding inside. -/
structure LongName where
  name : List Nat
  records : List FATDirectoryEntryCombo
  shortEntry : FATDirectoryEntryCombo
  notEmpty : 0 < name.length
  short : name.length ≤ longNameMaxLength
  plain : ∀ unit ∈ name, unit ≠ 0 ∧ unit ≠ 0xffff
  count : records.length = recordCount name
  inOrder : ∀ k e, records[k]? = some e →
    IsRecord e name (hashMSDOSName shortEntry.filename) (recordCount name - k)
  live : shortEntry.isLive

inductive DirectoryItem
  | erased (e : FATDirectoryEntryCombo) (isErased : e.isErased)
  | short (e : FATDirectoryEntryCombo) (live : e.isLive)
  | long (entry : LongName)

namespace DirectoryItem

def slots : DirectoryItem → List FATDirectoryEntryCombo
  | erased e _ => [e]
  | short e _ => [e]
  | long entry => entry.records ++ [entry.shortEntry]

/-- What an enumeration is to return of an item at an index. -/
def entry (vol : FATVolume) (wantName : Bool) (i : Nat) : DirectoryItem → Option FoundEntry
  | erased _ _ => none
  | short e _ => some
      { info := entryInfo vol (i % 2 ^ 32) (i % 2 ^ 32) e
        filename := if wantName then fatRawShortNameToUtf8 e else []
        shortFilename := fatRawShortNameToUtf8 e }
  | long l => some
      { info := entryInfo vol (i % 2 ^ 32) ((i + l.records.length) % 2 ^ 32) l.shortEntry
        filename := if wantName then assignUtf16 l.name else []
        shortFilename := fatRawShortNameToUtf8 l.shortEntry }

/-- A long name does not begin at the index that means "no sequence". -/
def Clear (i : Nat) : DirectoryItem → Prop
  | long _ => i % 2 ^ 32 ≠ noSequence
  | _ => True

end DirectoryItem

structure DirectoryContent where
  items : List DirectoryItem
  tail : List FATDirectoryEntryCombo
  ended : ∀ e, tail.head? = some e → e.isEnd

def DirectoryContent.slots (content : DirectoryContent) : List FATDirectoryEntryCombo :=
  content.items.flatMap DirectoryItem.slots ++ content.tail

/-- The live entries from an index on. -/
def liveEntries (vol : FATVolume) (wantName : Bool) : Nat → List DirectoryItem → List FoundEntry
  | _, [] => []
  | i, item :: rest =>
    (item.entry vol wantName i).toList ++ liveEntries vol wantName (i + item.slots.length) rest

/-- No long name begins at the magic index. -/
def SequencesClear : Nat → List DirectoryItem → Prop
  | _, [] => True
  | i, item :: rest => item.Clear i ∧ SequencesClear (i + item.slots.length) rest

/-! ## Reading a long name -/

theorem recordCount_bounds (notEmpty : 0 < name.length) :
    charactersPerLFNEntry * (recordCount name - 1) < name.length ∧
      name.length ≤ charactersPerLFNEntry * recordCount name ∧ 0 < recordCount name := by
  unfold recordCount charactersPerLFNEntry
  omega

theorem recordCount_le (short : name.length ≤ longNameMaxLength) :
    recordCount name ≤ longNameMaxEntryCount := by
  unfold recordCount charactersPerLFNEntry longNameMaxEntryCount
  unfold longNameMaxLength at short
  omega

theorem paddedName_getElem? {j : Nat} (inside : j < name.length) :
    (paddedName name)[j]? = name[j]? := by
  unfold paddedName
  split
  · rfl
  · exact getElem?_append_left inside

theorem paddedName_length (notEmpty : 0 < name.length) :
    (paddedName name).length = charactersPerLFNEntry * recordCount name := by
  unfold paddedName recordCount charactersPerLFNEntry
  split
  · omega
  · simp only [length_append, length_cons, length_replicate]
    omega

namespace IsRecord

variable {e : FATDirectoryEntryCombo} {name : List Nat} {hash sequence : Nat}

section

variable (record : IsRecord e name hash sequence)

include record

theorem not_isEnd (positive : 0 < sequence) : ¬e.isEnd := by
  have number := record.sequenceNumber
  unfold FATDirectoryEntryCombo.isEnd
  rw [beq_iff_eq]
  omega

theorem not_isErased (few : sequence ≤ longNameMaxEntryCount) :
    ¬e.isErased := by
  have number := record.sequenceNumber
  unfold longNameMaxEntryCount at few
  unfold FATDirectoryEntryCombo.isErased
  rw [beq_iff_eq]
  split at number <;> omega

theorem step (positive : 0 < sequence)
    (few : sequence ≤ longNameMaxEntryCount) (state : LFNState) (index : Nat) :
    lfnStep wantName state index e =
      if state.startIndex = noSequence then .skip (state.begin wantName index e)
      else .skip (state.continue wantName e) := by
  unfold lfnStep
  rw [if_neg (record.not_isEnd positive), if_neg (record.not_isErased few), if_pos record.longName,
    if_neg (by simp [record.reserved1, record.reserved2])]

end

end IsRecord

theorem writeUnits_inside {buffer : Nat → Nat} {start j : Nat} {units : List Nat}
    (above : start ≤ j) (below : j < start + units.length) :
    writeUnits buffer start units j = units.getD (j - start) 0 :=
  if_pos ⟨above, below⟩

theorem writeUnits_outside {buffer : Nat → Nat} {start j : Nat} {units : List Nat}
    (outside : j < start ∨ start + units.length ≤ j) :
    writeUnits buffer start units j = buffer j := by
  apply if_neg
  omega

theorem lastPart (notEmpty : 0 < name.length) (plain : ∀ unit ∈ name, unit ≠ 0xffff) :
    (((paddedName name).drop (charactersPerLFNEntry * (recordCount name - 1))).take
        charactersPerLFNEntry).takeWhile (· ≠ 0xffff) =
      name.drop (charactersPerLFNEntry * (recordCount name - 1)) ++
        if name.length % charactersPerLFNEntry = 0 then [] else [0] := by
  have bounds := recordCount_bounds notEmpty
  have whole : ((paddedName name).drop (charactersPerLFNEntry * (recordCount name - 1))).take
      charactersPerLFNEntry = (paddedName name).drop (charactersPerLFNEntry * (recordCount name - 1)) := by
    apply take_of_length_le
    rw [length_drop, paddedName_length notEmpty]
    unfold charactersPerLFNEntry at *
    omega
  have kept : ∀ unit ∈ name.drop (charactersPerLFNEntry * (recordCount name - 1)),
      decide (unit ≠ 0xffff) = true := fun unit member =>
    decide_eq_true (plain unit (mem_of_mem_drop member))
  rw [whole]
  unfold paddedName
  split
  · rw [append_nil]
    rw [← append_nil (name.drop _), takeWhile_append_of_pos kept, takeWhile_nil]
  · rw [drop_append_of_le_length (by omega), takeWhile_append_of_pos kept]
    congr 1
    rw [takeWhile_cons_of_pos (by decide)]
    cases charactersPerLFNEntry - 1 - name.length % charactersPerLFNEntry with
    | zero => rfl
    | succ k => rfl

namespace LongName

/-- The state while `left` records of a sequence are still to come. -/
structure Reading (l : LongName) (wantName : Bool) (index left : Nat) (state : LFNState) : Prop where
  startIndex : state.startIndex = index
  hash : state.hash = hashMSDOSName l.shortEntry.filename
  lfnCount : state.lfnCount = left + 1
  filenameLen : wantName → state.filenameLen = l.name.length
  buffer : wantName → ∀ j, charactersPerLFNEntry * left ≤ j → j < l.name.length →
    state.utf16Buffer j = l.name.getD j 0

variable {l : LongName} {index left : Nat} {e : FATDirectoryEntryCombo} {state : LFNState}

/-- The buffer after the last part has been copied, with its terminator. -/
theorem writeUnits_lastPart (notEmpty : 0 < name.length) (buffer : Nat → Nat)
    (terminator : List Nat) {j : Nat} (above : charactersPerLFNEntry * (recordCount name - 1) ≤ j) :
    (j < name.length → writeUnits buffer (charactersPerLFNEntry * (recordCount name - 1))
      (name.drop (charactersPerLFNEntry * (recordCount name - 1)) ++ terminator) j = name.getD j 0) ∧
    (j = name.length → 0 < terminator.length →
      writeUnits buffer (charactersPerLFNEntry * (recordCount name - 1))
        (name.drop (charactersPerLFNEntry * (recordCount name - 1)) ++ terminator) j =
          terminator.getD 0 0) := by
  have bounds := (recordCount_bounds notEmpty).1
  generalize charactersPerLFNEntry * (recordCount name - 1) = start at above bounds ⊢
  constructor
  · intro inside
    rw [writeUnits_inside above (by rw [length_append, length_drop]; omega),
      getD_eq_getElem?_getD, getElem?_append_left (by rw [length_drop]; omega),
      getElem?_drop, getD_eq_getElem?_getD]
    congr 2
    omega
  · intro isEnd positive
    rw [writeUnits_inside above (by rw [length_append, length_drop]; omega),
      getD_eq_getElem?_getD, getElem?_append_right (by rw [length_drop]; omega),
      getD_eq_getElem?_getD, length_drop]
    congr 2
    omega

theorem withoutTerminator_lastPart (notEmpty : 0 < name.length)
    (plain : ∀ unit ∈ name, unit ≠ 0) (buffer : Nat → Nat) :
    let start := charactersPerLFNEntry * (recordCount name - 1)
    let units := name.drop start ++ if name.length % charactersPerLFNEntry = 0 then [] else [0]
    withoutTerminator (writeUnits buffer start units) (start + units.length) = name.length := by
  intro start units
  have bounds := (recordCount_bounds notEmpty).1
  unfold withoutTerminator
  by_cases exact : name.length % charactersPerLFNEntry = 0
  · have size : start + units.length = name.length := by
      simp only [units, exact, if_true, append_nil, length_drop]
      omega
    have last := (writeUnits_lastPart notEmpty buffer
      (if name.length % charactersPerLFNEntry = 0 then [] else [0])
      (j := name.length - 1) (show start ≤ _ by omega)).1 (by omega)
    rw [size]
    apply if_neg
    intro trimmed
    rw [getD_eq_getElem _ _ (by omega)] at last
    exact plain _ (getElem_mem (by omega)) (last.symm.trans trimmed.2)
  · have size : start + units.length = name.length + 1 := by
      simp only [units, exact, if_false, length_append, length_drop, length_singleton]
      omega
    have last := (writeUnits_lastPart notEmpty buffer
      (if name.length % charactersPerLFNEntry = 0 then [] else [0])
      (j := name.length) (show start ≤ _ by omega)).2 rfl (by simp [exact])
    rw [size]
    apply if_pos
    refine ⟨by omega, last.trans ?_⟩
    simp [exact]

theorem begin_spec (wantName : Bool) (index : Nat) (state : LFNState)
    (record : IsRecord e l.name (hashMSDOSName l.shortEntry.filename) (recordCount l.name)) :
    l.Reading wantName index (recordCount l.name - 1) (state.begin wantName index e) := by
  have bounds := recordCount_bounds l.notEmpty
  have few := recordCount_le l.short
  have number := record.sequenceNumber
  rw [if_pos rfl] at number
  have masks : ∀ n ≤ 20, (n + 0x40) &&& 0xe0 = 0x40 ∧ (n + 0x40) &&& 0x1f = n := by decide
  have mask := masks _ few
  unfold LFNState.begin
  rw [number, mask.1, mask.2, if_neg (by unfold longNameMaxEntryCount at *; omega)]
  cases wantName with
  | false =>
    refine ⟨rfl, record.hash, ?_, by simp, by simp⟩
    show recordCount l.name = _
    omega
  | true =>
    have part := lastPart l.notEmpty (fun unit member => (l.plain unit member).2)
    rw [← record.nameParts] at part
    have length := withoutTerminator_lastPart l.notEmpty (fun unit member => (l.plain unit member).1)
      state.utf16Buffer
    simp only [Bool.not_true, Bool.false_eq_true, if_false, part, length]
    refine ⟨?_, record.hash, ?_, fun _ => rfl, fun _ j above inside =>
      (writeUnits_lastPart l.notEmpty _ _ above).1 inside⟩
    · exact if_neg (by have := l.short; omega)
    · show recordCount l.name = _
      omega

theorem continue_spec (reading : l.Reading wantName index (left + 1) state)
    (below : left + 1 < recordCount l.name)
    (record : IsRecord e l.name (hashMSDOSName l.shortEntry.filename) (left + 1)) :
    l.Reading wantName index left (state.continue wantName e) := by
  have bounds := recordCount_bounds l.notEmpty
  have number := record.sequenceNumber
  rw [if_neg (by omega), add_zero] at number
  unfold LFNState.continue
  rw [if_neg (by rw [record.hash, reading.hash]; exact not_not_intro rfl), reading.lfnCount,
    if_neg (by omega)]
  refine ⟨reading.startIndex, reading.hash, by simp, reading.filenameLen, fun want j above inside => ?_⟩
  have size : e.nameParts.length = 13 := rfl
  simp only [want, if_true, Nat.add_sub_cancel]
  by_cases here : j < charactersPerLFNEntry * (left + 1)
  · rw [writeUnits_inside (by simpa using above) (by unfold charactersPerLFNEntry at *; omega)]
    rw [record.nameParts, Nat.add_sub_cancel, getD_eq_getElem?_getD, getElem?_take,
      if_pos (by unfold charactersPerLFNEntry at *; omega), getElem?_drop,
      show charactersPerLFNEntry * left + (j - charactersPerLFNEntry * left) = j by omega,
      paddedName_getElem? inside, getD_eq_getElem?_getD]
  · rw [writeUnits_outside (.inr (by unfold charactersPerLFNEntry at *; omega))]
    exact reading.buffer want j (by omega) inside

theorem record_at (l : LongName) (below : left < recordCount l.name) :
    ∃ e, l.records.drop (recordCount l.name - (left + 1)) =
        e :: l.records.drop (recordCount l.name - left) ∧
      IsRecord e l.name (hashMSDOSName l.shortEntry.filename) (left + 1) := by
  have inside : recordCount l.name - (left + 1) < l.records.length := by
    rw [l.count]
    omega
  refine ⟨l.records[recordCount l.name - (left + 1)], ?_, ?_⟩
  · rw [drop_eq_getElem_cons inside]
    congr 2
    omega
  · have record := l.inOrder _ _ (getElem?_eq_getElem inside)
    rw [show recordCount l.name - (recordCount l.name - (left + 1)) = left + 1 by omega] at record
    exact record

theorem enumerate_reading (vol : FATVolume) (reading : l.Reading wantName index left state)
    (below : left < recordCount l.name) (clear : index ≠ noSequence) :
    ∃ state', l.Reading wantName index 0 state' ∧ ∀ i rest,
      enumerate vol wantName state i (l.records.drop (recordCount l.name - left) ++ rest) =
        enumerate vol wantName state' (i + left) rest := by
  induction left generalizing state with
  | zero =>
    refine ⟨state, reading, fun i rest => ?_⟩
    rw [Nat.sub_zero, ← l.count, drop_length, nil_append, add_zero]
  | succ left ih =>
    obtain ⟨e, split, record⟩ := l.record_at (show left < recordCount l.name by omega)
    have few := recordCount_le l.short
    obtain ⟨state', done, same⟩ := ih (continue_spec reading below record) (by omega)
    refine ⟨state', done, fun i rest => ?_⟩
    rw [split, cons_append, enumerate, record.step (by omega) (by omega), reading.startIndex,
      if_neg clear]
    show enumerate vol wantName _ (i + 1) _ = _
    rw [same, show i + 1 + left = i + (left + 1) by omega]

/-- While no sequence is in progress, records that do not begin one are passed. -/
theorem enumerate_unread (vol : FATVolume) (idle : state.startIndex = noSequence)
    (below : left < recordCount l.name) (i : Nat) (rest : List FATDirectoryEntryCombo) :
    enumerate vol wantName state i (l.records.drop (recordCount l.name - left) ++ rest) =
      enumerate vol wantName state (i + left) rest := by
  induction left generalizing i with
  | zero => rw [Nat.sub_zero, ← l.count, drop_length, nil_append, add_zero]
  | succ left ih =>
    obtain ⟨e, split, record⟩ := l.record_at (show left < recordCount l.name by omega)
    have few := recordCount_le l.short
    have number := record.sequenceNumber
    rw [if_neg (by omega), add_zero] at number
    have passed (index : Nat) : state.begin wantName index e = state := by
      have masks : ∀ n ≤ 20, n &&& 0xe0 ≠ 0x40 := by decide
      unfold LFNState.begin
      rw [number]
      exact if_pos (.inl (masks _ (by unfold longNameMaxEntryCount at few; omega)))
    rw [split, cons_append, enumerate, record.step (by omega) (by omega), if_pos idle, passed]
    show enumerate vol wantName state (i + 1) _ = _
    rw [ih (by omega), show i + 1 + left = i + (left + 1) by omega]

theorem enumerate_records (vol : FATVolume) (l : LongName) (wantName : Bool)
    (idle : state.startIndex = noSequence) (i : Nat) :
    ∃ state', (i % 2 ^ 32 ≠ noSequence → l.Reading wantName (i % 2 ^ 32) 0 state') ∧
      (i % 2 ^ 32 = noSequence → state'.startIndex = noSequence) ∧
      ∀ rest, enumerate vol wantName state i (l.records ++ rest) =
        enumerate vol wantName state' (i + l.records.length) rest := by
  have bounds := recordCount_bounds l.notEmpty
  have few := recordCount_le l.short
  obtain ⟨e, split, record⟩ := l.record_at (show recordCount l.name - 1 < recordCount l.name by omega)
  rw [show recordCount l.name - 1 + 1 = recordCount l.name by omega] at split record
  rw [Nat.sub_self, drop_zero] at split
  have begun := begin_spec wantName (i % 2 ^ 32) state record
  have first (rest : List FATDirectoryEntryCombo) :
      enumerate vol wantName state i (l.records ++ rest) =
        enumerate vol wantName (state.begin wantName (i % 2 ^ 32) e) (i + 1)
          (l.records.drop (recordCount l.name - (recordCount l.name - 1)) ++ rest) := by
    rw [split, cons_append, enumerate, record.step bounds.2.2 few, if_pos idle, ← split]
  by_cases clear : i % 2 ^ 32 = noSequence
  · refine ⟨state.begin wantName (i % 2 ^ 32) e, absurd clear, fun _ => begun.startIndex.trans clear,
      fun rest => ?_⟩
    rw [first, enumerate_unread vol (begun.startIndex.trans clear) (by omega), l.count]
    congr 1
    omega
  · obtain ⟨state', done, same⟩ := enumerate_reading vol begun (by omega) clear
    refine ⟨state', fun _ => done, fun isClear => absurd isClear clear, fun rest => ?_⟩
    rw [first, same, l.count]
    congr 1
    omega

theorem foundEntry_reading (reading : l.Reading wantName index 0 state) (clear : index ≠ noSequence)
    (endIndex : Nat) :
    foundEntry vol wantName state endIndex l.shortEntry =
      { info := entryInfo vol index endIndex l.shortEntry
        filename := if wantName then assignUtf16 l.name else []
        shortFilename := fatRawShortNameToUtf8 l.shortEntry } := by
  unfold foundEntry
  simp only [reading.lfnCount, reading.hash, reading.startIndex]
  cases wantName with
  | false => simp [clear]
  | true =>
    have units : (range state.filenameLen).map state.utf16Buffer = l.name := by
      rw [reading.filenameLen rfl]
      apply ext_getElem
      · simp
      · intro j _ inside
        rw [getElem_map, getElem_range, reading.buffer rfl j zero_le inside,
          getD_eq_getElem _ _ inside]
    simp [clear, units]

end LongName

/-! ## The enumeration of a well-formed directory -/

theorem foundEntry_idle {state : LFNState} (idle : state.startIndex = noSequence) (index : Nat)
    (e : FATDirectoryEntryCombo) :
    foundEntry vol wantName state index e =
      { info := entryInfo vol index index e
        filename := if wantName then fatRawShortNameToUtf8 e else []
        shortFilename := fatRawShortNameToUtf8 e } := by
  simp [foundEntry, idle]

variable {e : FATDirectoryEntryCombo}

theorem lfnStep_live (live : e.isLive) (state : LFNState) (index : Nat) :
    lfnStep wantName state index e = .entry :=
  lfnStep_entry.2 live

theorem lfnStep_erased (erased : e.isErased) (state : LFNState)
    (index : Nat) :
    lfnStep wantName state index e = .skip { state with startIndex := noSequence } := by
  have notEnd : ¬e.isEnd := by
    unfold FATDirectoryEntryCombo.isErased at erased
    unfold FATDirectoryEntryCombo.isEnd
    rw [beq_iff_eq] at erased ⊢
    omega
  unfold lfnStep
  rw [if_neg notEnd, if_pos erased]

namespace DirectoryItem

variable {state : LFNState} {i : Nat}

theorem enumerate_clear (vol : FATVolume) (item : DirectoryItem) (wantName : Bool)
    (idle : state.startIndex = noSequence) (clear : item.Clear i) :
    ∃ state', state'.startIndex = noSequence ∧ ∀ rest,
      enumerate vol wantName state i (item.slots ++ rest) = (item.entry vol wantName i).toList ++
          enumerate vol wantName state' (i + item.slots.length) rest := by
  cases item with
  | erased e isErased =>
    refine ⟨{ state with startIndex := noSequence }, rfl, fun rest => ?_⟩
    show enumerate vol wantName state i (e :: rest) = _
    rw [enumerate, lfnStep_erased isErased]
    rfl
  | short e live =>
    refine ⟨{}, rfl, fun rest => ?_⟩
    show enumerate vol wantName state i (e :: rest) = _
    rw [enumerate, lfnStep_live live]
    simp only [foundEntry_idle idle]
    rfl
  | long l =>
    obtain ⟨state', done, _, same⟩ := LongName.enumerate_records vol l wantName idle i
    refine ⟨{}, rfl, fun rest => ?_⟩
    have length : (long l).slots.length = l.records.length + 1 := by simp [slots]
    show enumerate vol wantName state i (l.records ++ [l.shortEntry] ++ rest) = _
    rw [append_assoc, same, singleton_append, enumerate, lfnStep_live l.live, length]
    simp only [LongName.foundEntry_reading (done clear) clear]
    rfl

theorem enumerate_not_clear (vol : FATVolume) (item : DirectoryItem)
    (idle : state.startIndex = noSequence) (taken : ¬item.Clear i) (rest : List FATDirectoryEntryCombo) :
    ∃ found entry others, enumerate vol wantName state i (item.slots ++ rest) = found :: others ∧
      item.entry vol wantName i = some entry ∧ found.info.startIndex ≠ entry.info.startIndex := by
  cases item with
  | erased e isErased => exact absurd trivial taken
  | short e live => exact absurd trivial taken
  | long l =>
    have magic : i % 2 ^ 32 = noSequence := by_contra taken
    obtain ⟨state', _, unread, same⟩ := LongName.enumerate_records vol l wantName idle i
    refine ⟨foundEntry vol wantName state' ((i + l.records.length) % 2 ^ 32) l.shortEntry, _,
      enumerate vol wantName {} (i + l.records.length + 1) rest, ?_, rfl, ?_⟩
    · show enumerate vol wantName state i (l.records ++ [l.shortEntry] ++ rest) = _
      rw [append_assoc, same, singleton_append, enumerate, lfnStep_live l.live]
    · rw [foundEntry_idle (unread magic)]
      have bounds := recordCount_bounds l.notEmpty
      have few := recordCount_le l.short
      have count := l.count
      show (i + l.records.length) % 2 ^ 32 ≠ i % 2 ^ 32
      unfold longNameMaxEntryCount at few
      unfold noSequence at magic
      omega

end DirectoryItem

variable {tail : List FATDirectoryEntryCombo}

/-- A well-formed directory is enumerated as its live entries exactly when no long
name begins at the magic index. -/
theorem enumerate_items_iff {state : LFNState} (idle : state.startIndex = noSequence)
    (items : List DirectoryItem)
    (ended : ∀ e, tail.head? = some e → e.isEnd) (i : Nat) :
    enumerate vol wantName state i (items.flatMap DirectoryItem.slots ++ tail) =
      liveEntries vol wantName i items ↔ SequencesClear i items := by
  induction items generalizing state i with
  | nil =>
    refine ⟨fun _ => trivial, fun _ => ?_⟩
    show enumerate vol wantName state i tail = []
    cases tail with
    | nil => rfl
    | cons e rest => rw [enumerate, lfnStep_endOfTable.2 (ended e rfl)]
  | cons item rest ih =>
    rw [flatMap_cons, append_assoc, liveEntries, SequencesClear]
    by_cases clear : item.Clear i
    · obtain ⟨state', idle', same⟩ := item.enumerate_clear vol wantName idle clear
      rw [same, append_cancel_left_eq, ih idle' _]
      exact ⟨fun rest => ⟨clear, rest⟩, fun both => both.2⟩
    · obtain ⟨found, entry, others, listed, expected, differs⟩ :=
        item.enumerate_not_clear vol idle clear (rest.flatMap DirectoryItem.slots ++ tail)
      refine ⟨fun same => ?_, fun both => absurd both.1 clear⟩
      rw [listed, expected] at same
      exact absurd (congrArg (·.info.startIndex) (cons.inj same).1) differs

/-! Even then the number of entries is right. -/

theorem enumerate_length (vol : FATVolume) (wantName : Bool) (state : LFNState) (i : Nat)
    (slots : List FATDirectoryEntryCombo) :
    (enumerate vol wantName state i slots).length =
      (slots.takeWhile (!·.isEnd)).countP (·.isLive) := by
  induction slots generalizing state i with
  | nil => rfl
  | cons e rest ih =>
    rw [enumerate]
    cases step : lfnStep wantName state (i % 2 ^ 32) e with
    | endOfTable =>
      have isEnd := lfnStep_endOfTable.1 step
      simp [isEnd]
    | entry =>
      have live := lfnStep_entry.1 step
      have notEnd : e.isEnd = false := by
        simp only [FATDirectoryEntryCombo.isLive, Bool.and_eq_true, Bool.not_eq_true'] at live
        exact live.1.1
      simp [notEnd, live, ih]
    | skip next =>
      have notEnd : e.isEnd = false := by
        rw [Bool.eq_false_iff]
        intro isEnd
        rw [lfnStep_endOfTable.2 isEnd] at step
        cases step
      have notLive : e.isLive = false := by
        rw [Bool.eq_false_iff]
        intro live
        rw [lfnStep_entry.2 live] at step
        cases step
      simp [notEnd, notLive, ih]

theorem not_isEnd_of_isLive (live : e.isLive) : ¬e.isEnd := by
  simp only [FATDirectoryEntryCombo.isLive, Bool.and_eq_true, Bool.not_eq_true'] at live
  simp [live.1.1]

theorem LongName.isRecord_of_mem {l : LongName} (member : e ∈ l.records) :
    ∃ sequence, 0 < sequence ∧ sequence ≤ recordCount l.name ∧
      IsRecord e l.name (hashMSDOSName l.shortEntry.filename) sequence := by
  obtain ⟨k, inside, rfl⟩ := getElem_of_mem member
  have record := l.inOrder k _ (getElem?_eq_getElem inside)
  rw [l.count] at inside
  exact ⟨recordCount l.name - k, by omega, by omega, record⟩

theorem DirectoryItem.not_isEnd {item : DirectoryItem}
    (member : e ∈ item.slots) : ¬e.isEnd := by
  cases item with
  | erased e' isErased =>
    obtain rfl := mem_singleton.1 member
    unfold FATDirectoryEntryCombo.isErased at isErased
    unfold FATDirectoryEntryCombo.isEnd
    rw [beq_iff_eq] at isErased ⊢
    omega
  | short e' live =>
    obtain rfl := mem_singleton.1 member
    exact not_isEnd_of_isLive live
  | long l =>
    rcases mem_append.1 member with record | last
    · obtain ⟨sequence, positive, _, isRecord⟩ := LongName.isRecord_of_mem record
      exact isRecord.not_isEnd positive
    · obtain rfl := mem_singleton.1 last
      exact not_isEnd_of_isLive l.live

theorem DirectoryItem.countP_isLive (vol : FATVolume) (wantName : Bool) (item : DirectoryItem) (i : Nat) :
    item.slots.countP (·.isLive) = (item.entry vol wantName i).toList.length := by
  cases item with
  | erased e isErased => simp [slots, entry, FATDirectoryEntryCombo.isLive, isErased]
  | short e live => simp [slots, entry, live]
  | long l =>
    have none : l.records.countP (·.isLive) = 0 := by
      rw [countP_eq_zero]
      intro e member
      obtain ⟨_, _, _, isRecord⟩ := LongName.isRecord_of_mem member
      simp [FATDirectoryEntryCombo.isLive, isRecord.longName]
    simp [slots, entry, countP_append, none, l.live]

theorem enumerate_items_length (vol : FATVolume) (wantName : Bool) (state : LFNState)
    (items : List DirectoryItem)
    (ended : ∀ e, tail.head? = some e → e.isEnd) (i : Nat) :
    (enumerate vol wantName state i (items.flatMap DirectoryItem.slots ++ tail)).length =
      (liveEntries vol wantName i items).length := by
  have kept : ∀ e ∈ items.flatMap DirectoryItem.slots, (!e.isEnd) = true := by
    intro e member
    obtain ⟨item, _, inItem⟩ := mem_flatMap.1 member
    simpa using DirectoryItem.not_isEnd inItem
  have cut : tail.takeWhile (!·.isEnd) = [] := by
    cases tail with
    | nil => rfl
    | cons e rest => simp [ended e rfl]
  rw [enumerate_length, takeWhile_append_of_pos kept, cut, append_nil]
  clear kept cut ended
  induction items generalizing i with
  | nil => rfl
  | cons item rest ih =>
    rw [flatMap_cons, countP_append, liveEntries, length_append,
      item.countP_isLive vol wantName i, ih]

end PadOS.Fat
