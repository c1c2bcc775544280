import PadOS.Fat.DirectoryRecords
import PadOS.Fat.TableScan

/-! # Directories that can be read to the end

A directory is read to the end, and can then be read again and again, exactly when
its enumeration ends and the index that is saved there can be resumed. A full
directory cannot: the index behind its last slot is in no sector.
-/

namespace PadOS.Fat

open Unicode List Option Nat Run FATDirectoryIterator DirectoryRecord

variable {vol : FATVolume} {disk : Disk} {area : Area} {start i rounds : Nat} {directory : FATInode}
  {wantName : Bool} {state : LFNState} {content : DirectoryContent} {records : List DirectoryRecord}

/-! ## Every name fits into a record -/

def maxFilenameSize : Nat := 1200

def maxRecordSize : Nat := 0xffff

variable (layout : DirentLayout)

theorem recordSize_le (nameLength : Nat) :
    layout.recordSize nameLength ≤ maxRecordSize := by
  unfold DirentLayout.recordSize maxRecordSize
  dsimp only
  split
  · exact zero_le _
  · split <;> omega

theorem recordSize_pos {nameLength : Nat} (short : nameLength ≤ maxFilenameSize) :
    0 < layout.recordSize nameLength := by
  have room := layout.room
  have aligned := layout.aligned
  unfold maxFilenameSize at short
  have le := div_mul_le_self (layout.headerSize + nameLength + 1 + layout.alignment - 1)
    layout.alignment
  have some' : 0 < (layout.headerSize + nameLength + 1 + layout.alignment - 1) / layout.alignment :=
    div_pos (by omega) aligned
  have positive := mul_pos some' aligned
  unfold DirentLayout.recordSize
  rw [if_neg (by omega), if_pos (by omega)]
  exact positive

theorem fatRawShortNameToUtf8_length_le (e : FATDirectoryEntryCombo) :
    (fatRawShortNameToUtf8 e).length ≤ 49 := by
  have flat (f : UInt8 → PString) (bound : ∀ b, (f b).length ≤ 4) (bytes : List UInt8) :
      (bytes.flatMap f).length ≤ 4 * bytes.length := by
    induction bytes with
    | nil => exact zero_le _
    | cons b rest ih =>
      have := bound b
      rw [flatMap_cons, length_append, length_cons]
      omega
  have convert (lowercase : Bool) (b : UInt8) : (unicodeToUtf8 (cp437ToUtf16
      (if lowercase then convertCp437CharacterCase b true else b))).length ≤ 4 :=
    unicodeToUtf8_length_le _
  have base : ((e.filename.take 8).takeWhile (· ≠ 0x20)).length ≤ 8 :=
    (takeWhile_sublist _).length_le.trans (length_take_le 8 _)
  have extension : ((e.filename.drop 8).takeWhile (· ≠ 0x20)).length ≤ 3 :=
    (takeWhile_sublist _).length_le.trans (le_of_eq rfl)
  unfold fatRawShortNameToUtf8
  generalize (e.filename.take 8).takeWhile (· ≠ 0x20) = base' at base ⊢
  generalize (e.filename.drop 8).takeWhile (· ≠ 0x20) = extension' at extension ⊢
  dsimp only
  have restored : (if base'.head? = some 5 then 0xe5 :: base'.tail else base').length ≤ 8 := by
    split
    · cases base' with
      | nil => simp
      | cons b rest => simpa using base
    · exact base
  rw [length_append]
  have first := flat _ (convert (e.shortNameCaseFlags &&& shortNameLowercaseBase != 0))
    (if base'.head? = some 5 then 0xe5 :: base'.tail else base')
  have second := flat _ (convert (e.shortNameCaseFlags &&& shortNameLowercaseExtension != 0)) extension'
  have dotted : (if extension' = [] then [] else 0x2e :: extension'.flatMap fun character =>
      unicodeToUtf8 (cp437ToUtf16 (if e.shortNameCaseFlags &&& shortNameLowercaseExtension != 0 then
        convertCp437CharacterCase character true else character))).length ≤ 13 := by
    split
    · exact zero_le _
    · rw [length_cons]
      omega
  omega

/-- The buffer holds no longer name than this. -/
def LFNState.Short (state : LFNState) : Prop :=
  state.filenameLen ≤ charactersPerLFNEntry * longNameMaxEntryCount

theorem LFNState.short_empty : Short {} := zero_le _

theorem withoutTerminator_le (buffer : Nat → Nat) (length : Nat) :
    withoutTerminator buffer length ≤ length := by
  unfold withoutTerminator
  split <;> omega

section

variable (short : state.Short)

include short

theorem LFNState.begin_short (wantName : Bool) (index : Nat)
    (e : FATDirectoryEntryCombo) : (state.begin wantName index e).Short := by
  unfold LFNState.begin
  dsimp only
  split
  · exact short
  · rename_i count
    split
    · exact short
    · have units : (e.nameParts.takeWhile (· ≠ 0xffff)).length ≤ 13 :=
        (takeWhile_sublist _).length_le.trans (le_of_eq rfl)
      refine le_trans (withoutTerminator_le _ _) ?_
      simp only [not_or] at count
      unfold charactersPerLFNEntry longNameMaxEntryCount at *
      omega

theorem LFNState.continue_short (wantName : Bool)
    (e : FATDirectoryEntryCombo) : (state.continue wantName e).Short := by
  unfold LFNState.continue
  split
  · exact short
  · split
    · exact short
    · exact short

theorem lfnStep_short {next : LFNState} {index : Nat}
    {e : FATDirectoryEntryCombo} (step : lfnStep wantName state index e = .skip next) : next.Short := by
  unfold lfnStep at step
  split at step
  · cases step
  split at step
  · obtain rfl := LFNStep.skip.inj step
    exact short
  split at step
  · split at step
    · obtain rfl := LFNStep.skip.inj step
      exact short
    · split at step
      · obtain rfl := LFNStep.skip.inj step
        exact LFNState.begin_short short wantName index e
      · obtain rfl := LFNStep.skip.inj step
        exact LFNState.continue_short short wantName e
  · cases step

theorem foundEntry_short (index : Nat)
    (e : FATDirectoryEntryCombo) :
    (foundEntry vol wantName state index e).filename.length ≤ maxFilenameSize := by
  have raw := fatRawShortNameToUtf8_length_le e
  have assigned := assignUtf16_length_le ((range state.filenameLen).map state.utf16Buffer)
  rw [length_map, length_range] at assigned
  unfold LFNState.Short charactersPerLFNEntry longNameMaxEntryCount at short
  have optional (p : Prop) [Decidable p] : (if p then
      assignUtf16 ((range state.filenameLen).map state.utf16Buffer) else []).length ≤ 1040 := by
    split
    · omega
    · exact zero_le _
  unfold foundEntry maxFilenameSize
  dsimp only
  split
  · exact (optional _).trans (by decide)
  · split
    · rw [length_append]
      have := optional ((state.startIndex ≠ noSequence ∧ state.lfnCount = 1) ∧ wantName = true)
      omega
    · exact zero_le _

end

theorem enumerate_short (vol : FATVolume) (wantName : Bool) (short : state.Short)
    (i : Nat) (slots : List FATDirectoryEntryCombo) :
    ∀ f ∈ enumerate vol wantName state i slots, f.filename.length ≤ maxFilenameSize := by
  induction slots generalizing state i with
  | nil => simp [enumerate]
  | cons e rest ih =>
    intro f member
    rw [enumerate] at member
    cases step : lfnStep wantName state (i % 2 ^ 32) e with
    | endOfTable =>
      rw [step] at member
      cases member
    | entry =>
      rw [step] at member
      rcases mem_cons.1 member with rfl | member
      · exact foundEntry_short short _ e
      · exact ih LFNState.short_empty (i + 1) f member
    | skip next =>
      rw [step] at member
      exact ih (lfnStep_short short step) (i + 1) f member

/-! ## A large buffer -/

theorem addEntry_large {w : DirEntryWriter} (entry : Dirent)
    (short : entry.name.length ≤ maxFilenameSize) (room : maxRecordSize ≤ w.remainingSize) :
    ∃ w', w.addEntry layout entry = some w' ∧ w'.entries = w.entries ++ [entry] ∧
      w.remainingSize ≤ w'.remainingSize + maxRecordSize := by
  have size := recordSize_le layout entry.name.length
  have fits : w.Fits layout entry := ⟨recordSize_pos layout short, size.trans room⟩
  refine ⟨_, addEntry_of_fits fits, rfl, ?_⟩
  show w.bufferSize - w.bytesWritten ≤
    w.bufferSize - (w.bytesWritten + layout.recordSize entry.name.length) + maxRecordSize
  omega

variable {s s' : ReadState} {w w' : DirEntryWriter}

/-- A buffer that is large enough takes all entries, and the end is saved. -/
theorem fill_large {m : Nat}
    {entries : List FoundEntry} (short : ∀ f ∈ entries, f.filename.length ≤ maxFilenameSize)
    (room : maxRecordSize * (entries.length + 1) ≤ w.remainingSize)
    (filled : fill layout vol directory m w s entries = .ok (w', s')) :
    s'.currentIndex = savedIndex vol directory m ∧ ∃ records,
      toRecords vol directory s.maps entries = .ok records ∧
      w'.entries = w.entries ++ records.map dirent := by
  have least := recordSize_le layout 0
  induction entries generalizing w s with
  | nil =>
    rw [length_nil] at room
    rw [fill, if_neg (by omega)] at filled
    obtain ⟨rfl, rfl⟩ := Prod.mk.inj (Except.ok.inj filled)
    exact ⟨rfl, [], rfl, by simp⟩
  | cons f rest ih =>
    rw [length_cons, mul_add] at room
    rw [fill, if_neg (by omega)] at filled
    cases made : toRecord vol directory s.maps f with
    | error stop => simp [made] at filled
    | ok result =>
      obtain ⟨record, maps⟩ := result
      have name : record.dirent.name.length ≤ maxFilenameSize := by
        show record.filename.length ≤ maxFilenameSize
        rw [(toRecord_filename made).1]
        exact short f mem_cons_self
      obtain ⟨w'', added, written, left⟩ := addEntry_large layout record.dirent name (w := w) (by omega)
      simp only [made, added] at filled
      obtain ⟨saved, records, listed, entries⟩ := ih
        (fun g member => short g (mem_cons_of_mem _ member)) (by omega) filled
      refine ⟨saved, record :: records, ?_, ?_⟩
      · rw [toRecords, made]
        simp only [listed]
      · rw [entries, written, map_cons, append_assoc]
        rfl

/-! ## Behind the last slot -/

theorem FATClusterSectorIterator.getBlock_endOfChain (accepted : vol.Accepted)
    (it : FATClusterSectorIterator) (ended : it.currentSector = endOfChain) :
    it.getBlock vol = .error (.throws .io) := by
  have root := accepted.rootSize
  have size := accepted.clusterSize
  unfold endOfChain at ended
  unfold getBlock isValidClusterSector
  rw [ended, if_pos]
  split
  · simp
    omega
  · rw [if_pos (by omega)]
    rfl

namespace Area

/-- An iterator cannot be made at an index that is not in the directory. -/
theorem create_outside (accepted : vol.Accepted) (held : area.Holds vol disk start)
    (outside : (area.slots vol disk).length ≤ i) :
    create vol disk start i = .error (.throws .io) := by
  have eps := entriesPerSector_pos accepted
  have positive := length_pos accepted held
  rw [slots_length] at outside
  have beyond : area.length vol ≤ i / vol.entriesPerSector := (le_div_iff_mul_le eps).2 outside
  have far : i ≥ vol.entriesPerSector := by
    have := Nat.le_mul_of_pos_left vol.entriesPerSector positive
    omega
  have later : (area.position vol 0).increment vol disk (i / vol.entriesPerSector) =
        .error (.throws .io) ∨
      ∃ it, (area.position vol 0).increment vol disk (i / vol.entriesPerSector) = .ok (false, it) ∧
        it.currentSector = endOfChain := by
    unfold FATClusterSectorIterator.increment
    rw [if_neg (position_ne_end accepted positive), if_neg (by omega)]
    cases area with
    | fixedRoot =>
      have noMore : ¬0 + i / vol.entriesPerSector < vol.rootSectorCount := by
        have : vol.rootSectorCount ≤ i / vol.entriesPerSector := beyond
        omega
      refine .inr ⟨{ position vol fixedRoot 0 with currentSector := endOfChain }, ?_, rfl⟩
      have isRoot : isFixedRoot (position vol fixedRoot 0).currentCluster := rfl
      rw [if_pos isRoot]
      exact if_neg noMore
    | chain clusters =>
      have size := accepted.clusterSize.1
      have data := position_data held.1 positive
      have total : clusters.length * vol.sectorsPerCluster ≤ i / vol.entriesPerSector := beyond
      have clusters' : clusters.length ≤ i / vol.entriesPerSector / vol.sectorsPerCluster :=
        (le_div_iff_mul_le size).2 total
      have below : 0 / vol.sectorsPerCluster < clusters.length := cluster_inside positive
      have first : ((chain clusters).position vol 0).currentCluster = clusters[0 / vol.sectorsPerCluster] :=
        position_cluster below
      have some' : 0 < clusters.length := by simpa using below
      have entry := (held.1.drop_eq below).getChainEntry_end accepted
        (n := i / vol.entriesPerSector / vol.sectorsPerCluster)
        (by
          rw [length_cons, length_drop, Nat.zero_div]
          omega)
      have sector : ((chain clusters).position vol 0).currentSector = 0 := Nat.zero_mod _
      have atLeast := Nat.le_mul_of_pos_left vol.sectorsPerCluster some'
      rw [if_neg (not_fixedRoot_of_data data), sector, zero_add, if_neg (by omega), first]
      by_cases refused : i / vol.entriesPerSector / vol.sectorsPerCluster > vol.totalClusters
      · rw [if_pos refused] at entry
        simp only [entry]
        exact .inl trivial
      · rw [if_neg refused] at entry
        simp only [entry, if_true]
        exact .inr ⟨_, rfl, rfl⟩
  unfold create
  rw [start_eq_position held]
  simp only [far, if_true]
  rcases later with failed | ⟨it, ended, sector⟩
  · rw [failed]
    rfl
  · rw [ended]
    simp only [bind, Except.bind, pure, Except.pure,
      FATClusterSectorIterator.getBlock_endOfChain accepted it sector]

end Area

/-! ## Over the end -/

variable {it it' : FATDirectoryIterator}

theorem lfnLoop_short {state' : LFNState} (short : state.Short)
    {buffer : Option FATDirectoryEntryCombo} {e : FATDirectoryEntryCombo}
    (ended : lfnLoop vol disk wantName rounds state buffer it =
      pure (some (state', e), it')) : state'.Short := by
  induction rounds generalizing state buffer it with
  | zero => cases ended
  | succ rounds ih =>
    cases buffer with
    | none => cases ended
    | some e' =>
      rw [lfnLoop] at ended
      split at ended
      · cases ended
      · obtain ⟨same, _⟩ := Prod.mk.inj (pure_inj.1 ended)
        obtain ⟨rfl, _⟩ := Prod.mk.inj (some.inj same)
        exact short
      · rename_i step
        obtain ⟨⟨buffer', it''⟩, _, rest⟩ := bind_eq_pure ended
        exact ih (lfnStep_short short step) rest

theorem getNextLFNEntry_short {f : FoundEntry}
    (call : it.getNextLFNEntry vol disk wantName rounds = pure (some f, it')) :
    f.filename.length ≤ maxFilenameSize := by
  obtain ⟨⟨found, it''⟩, loop, rest⟩ := bind_eq_pure call
  cases found with
  | none => cases rest
  | some value =>
    obtain ⟨state, e⟩ := value
    obtain ⟨_, _, built⟩ := bind_eq_pure rest
    obtain ⟨same, _⟩ := Prod.mk.inj (pure_inj.1 built)
    obtain rfl := some.inj same
    exact foundEntry_short (lfnLoop_short LFNState.short_empty loop) _ e

theorem getNextVisibleEntry_short {calls : Nat} {f : FoundEntry}
    (call : it.getNextVisibleEntry vol disk directory rounds calls = pure (some f, it')) :
    f.filename.length ≤ maxFilenameSize := by
  induction calls generalizing it with
  | zero => cases call
  | succ calls ih =>
    rw [getNextVisibleEntry] at call
    obtain ⟨⟨found, it''⟩, once, rest⟩ := bind_eq_pure call
    cases found with
    | none => cases rest
    | some g =>
      simp only at rest
      split at rest
      · exact ih rest
      · obtain ⟨same, _⟩ := Prod.mk.inj (pure_inj.1 rest)
        obtain rfl := some.inj same
        exact getNextLFNEntry_short once

theorem readLoop_grows {calls : Nat}
    {it : FATDirectoryIterator}
    (read : readLoop layout vol disk directory rounds calls w s it = pure (w', s')) :
    w.entries.length ≤ w'.entries.length := by
  induction calls generalizing w s it with
  | zero => cases read
  | succ calls ih =>
    rw [readLoop] at read
    split at read
    · obtain ⟨rfl, _⟩ := Prod.mk.inj (pure_inj.1 read)
      exact le_rfl
    · obtain ⟨⟨found, maps, it'⟩, _, rest⟩ := bind_eq_pure read
      cases found with
      | none =>
        obtain ⟨rfl, _⟩ := Prod.mk.inj (pure_inj.1 rest)
        exact le_rfl
      | some record =>
        simp only at rest
        cases added : w.addEntry layout record.dirent with
        | none =>
          rw [added] at rest
          simp only at rest
          split at rest
          · cases rest
          · obtain ⟨rfl, _⟩ := Prod.mk.inj (pure_inj.1 rest)
            exact le_rfl
        | some w'' =>
          rw [added] at rest
          have more := ih rest
          have fits := fits_of_addEntry added
          rw [addEntry_of_fits fits] at added
          obtain rfl := some.inj added
          rw [length_append] at more
          omega

/-- A visible entry is added to a large buffer. -/
theorem readLoop_adds {calls : Nat}
    {f : FoundEntry}
    (room : maxRecordSize ≤ w.remainingSize)
    (call : it.getNextVisibleEntry vol disk directory rounds rounds = pure (some f, it'))
    (read : readLoop layout vol disk directory rounds (calls + 1) w s it = pure (w', s')) :
    ∃ w'' s'', w''.entries.length = w.entries.length + 1 ∧
      w.remainingSize ≤ w''.remainingSize + maxRecordSize ∧
      readLoop layout vol disk directory rounds calls w'' s'' it' = pure (w', s') := by
  have least := recordSize_le layout 0
  rw [readLoop, if_neg (by omega), Area.getNextDirectoryEntry_some directory rounds s.maps call] at read
  cases made : toRecord vol directory s.maps f with
  | error stop =>
    rw [made] at read
    cases read
  | ok result =>
    obtain ⟨record, maps⟩ := result
    have name : record.dirent.name.length ≤ maxFilenameSize := by
      show record.filename.length ≤ maxFilenameSize
      rw [(toRecord_filename made).1]
      exact getNextVisibleEntry_short call
    obtain ⟨w'', added, written, left⟩ := addEntry_large layout record.dirent name room
    rw [made] at read
    simp only [ofExcept_ok, pure_bind, added] at read
    exact ⟨w'', _, by rw [written, length_append, length_singleton], left, read⟩

namespace Area

section

variable (accepted : vol.Accepted) (held : area.Holds vol disk start)
  (unmarked : ∀ e ∈ area.slots vol disk, ¬e.isEnd) {last : FATDirectoryEntryCombo}
  (isLast : (area.slots vol disk).getLast? = some last) (live : last.isLive)

include accepted held unmarked isLast live

variable {result : Option FoundEntry × FATDirectoryIterator}

theorem getNextLFNEntry_overrun {k : Nat} (again : k < vol.entriesPerSector)
    (call : (area.overrun vol start k).getNextLFNEntry vol disk wantName rounds = pure result) :
    ∃ f k', k' < vol.entriesPerSector ∧ result = (some f, area.overrun vol start k') := by
  obtain ⟨stopped, loop, rest⟩ := bind_eq_pure call
  obtain ⟨value, k', below, rfl⟩ := lfnLoop_overrun accepted held unmarked isLast live again {} loop
  obtain ⟨⟨_, it⟩, next, built⟩ := bind_eq_pure rest
  by_cases more : k' + 1 < vol.entriesPerSector
  · rw [getNextRawEntry_overrun accepted more] at next
    obtain ⟨_, rfl⟩ := Prod.mk.inj (pure_inj.1 next)
    exact ⟨_, k' + 1, more, (pure_inj.1 built).symm⟩
  · rw [getNextRawEntry_overrun_last accepted (by omega)] at next
    cases next

theorem getNextVisibleEntry_overrun {k : Nat} (again : k < vol.entriesPerSector) {calls : Nat}
    (call : (area.overrun vol start k).getNextVisibleEntry vol disk directory rounds calls =
      pure result) :
    ∃ f it, result = (some f, it) := by
  induction calls generalizing k with
  | zero => cases call
  | succ calls ih =>
    rw [getNextVisibleEntry] at call
    obtain ⟨once, found, rest⟩ := bind_eq_pure call
    obtain ⟨f, k', below, rfl⟩ := getNextLFNEntry_overrun accepted held unmarked isLast live again found
    simp only at rest
    split at rest
    · exact ih below rest
    · exact ⟨f, _, (pure_inj.1 rest).symm⟩

/-- A visible entry from a slot, where no end is in sight: it stands before the
last slot, or in it, or it was read over the end. -/
theorem getNextVisibleEntry_unterminated (inside : i < (area.slots vol disk).length)
    {calls : Nat} (enough : (area.slots vol disk).length < rounds)
    (call : (area.cursor vol start i).getNextVisibleEntry vol disk directory rounds calls =
      pure result) :
    ∃ f it, result = (some f, it) ∧
      ((∃ j, i ≤ j ∧ j + 1 < (area.slots vol disk).length ∧ it = area.cursor vol start (j + 1) ∧
          area.shown vol disk directory i = f :: area.shown vol disk directory (j + 1)) ∨
        it = area.overrun vol start 0 ∧ area.shown vol disk directory i = [f] ∨
        area.shown vol disk directory i = []) := by
  induction calls generalizing i with
  | zero => cases call
  | succ calls ih =>
    rw [getNextVisibleEntry] at call
    obtain ⟨once, found, rest⟩ := bind_eq_pure call
    have lastOf : ((area.slots vol disk).drop i).getLast? = some last := by
      rw [getLast?_drop, if_neg (by omega), isLast]
    rw [getNextLFNEntry_cursor accepted held inside enough] at found
    unfold shown
    cases scanned : scan true {} i ((area.slots vol disk).drop i) with
    | exhausted => exact absurd scanned (scan_ne_exhausted lastOf live)
    | marker index =>
      obtain ⟨_, e, slot, ends⟩ := scan_marker scanned
      exact absurd ends (unmarked e (mem_of_mem_drop (mem_of_getElem? slot)))
    | found state j e =>
      obtain ⟨le, slot, _, listed⟩ := scan_found_index vol scanned
      rw [List.getElem?_drop, show i + (j - i) = j by omega] at slot
      have below := (List.getElem?_eq_some_iff.1 slot).1
      rw [listed, drop_drop, show i + (j + 1 - i) = j + 1 by omega]
      rw [scanned] at found
      obtain rfl := pure_inj.1 found
      generalize foundEntry vol true state (j % 2 ^ 32) e = f at rest ⊢
      simp only at rest
      unfold after at rest
      have cons (others : List FoundEntry) : visible vol directory (f :: others) =
          if isHidden vol directory f.info then visible vol directory others
          else f :: visible vol directory others := by
        by_cases hidden : isHidden vol directory f.info <;> simp [visible, hidden]
      rw [cons]
      by_cases hidden : isHidden vol directory f.info
      · rw [if_pos hidden] at rest ⊢
        by_cases more : j + 1 < (area.slots vol disk).length
        · rw [if_pos more] at rest
          obtain ⟨g, it, same, cases'⟩ := ih more rest
          refine ⟨g, it, same, ?_⟩
          rcases cases' with ⟨k, le', more', here, listed'⟩ | overran
          · exact .inl ⟨k, by omega, more', here, listed'⟩
          · exact .inr overran
        · rw [if_neg more] at rest
          obtain ⟨g, it, same⟩ := getNextVisibleEntry_overrun accepted held unmarked isLast live
            (entriesPerSector_pos accepted) rest
          refine ⟨g, it, same, .inr (.inr ?_)⟩
          rw [drop_eq_nil_of_le (by omega)]
          rfl
      · rw [if_neg hidden] at rest ⊢
        refine ⟨f, _, (pure_inj.1 rest).symm, ?_⟩
        by_cases more : j + 1 < (area.slots vol disk).length
        · rw [if_pos more]
          exact .inl ⟨j, le, more, rfl, rfl⟩
        · rw [if_neg more, drop_eq_nil_of_le (by omega)]
          exact .inr (.inl ⟨rfl, rfl⟩)

/-- A large buffer gets more records than the directory has. -/
theorem readLoop_unterminated (layout : DirentLayout) (inside : i < (area.slots vol disk).length)
    {calls : Nat} (enough : (area.slots vol disk).length < rounds) {w w' : DirEntryWriter}
    {s s' : ReadState}
    (room : maxRecordSize * ((area.slots vol disk).length - i + 1) ≤ w.remainingSize)
    (read : readLoop layout vol disk directory rounds calls w s (area.cursor vol start i) =
      pure (w', s')) :
    w.entries.length + (area.shown vol disk directory i).length < w'.entries.length := by
  induction calls generalizing i w s with
  | zero => cases read
  | succ calls ih =>
    have least := recordSize_le layout 0
    have large : 2 * maxRecordSize ≤ maxRecordSize * ((area.slots vol disk).length - i + 1) := by
      rw [mul_comm 2]
      exact mul_le_mul_left _ (by omega)
    obtain ⟨found, call⟩ : ∃ found, (area.cursor vol start i).getNextVisibleEntry vol disk directory
        rounds rounds = pure found := by
      have read' := read
      rw [readLoop, if_neg (by omega)] at read'
      obtain ⟨_, next, _⟩ := bind_eq_pure read'
      obtain ⟨found, call, _⟩ := bind_eq_pure next
      exact ⟨found, call⟩
    obtain ⟨f, it, rfl, place⟩ := getNextVisibleEntry_unterminated accepted held unmarked isLast live
      inside enough call
    obtain ⟨w'', s'', count, left, rest⟩ := readLoop_adds layout (by omega) call read
    rcases place with ⟨j, le, more, rfl, listed⟩ | ⟨rfl, listed⟩ | listed
    · have shrinks : maxRecordSize * ((area.slots vol disk).length - (j + 1) + 1) + maxRecordSize ≤
          maxRecordSize * ((area.slots vol disk).length - i + 1) := by
        rw [← mul_succ]
        exact mul_le_mul_left _ (by omega)
      have := ih more (by omega) rest
      rw [listed, length_cons]
      omega
    · rw [listed, length_singleton]
      cases calls with
      | zero => cases rest
      | succ calls =>
        obtain ⟨again, call'⟩ : ∃ found, (area.overrun vol start 0).getNextVisibleEntry vol disk
            directory rounds rounds = pure found := by
          have read' := rest
          rw [readLoop, if_neg (by omega)] at read'
          obtain ⟨_, next, _⟩ := bind_eq_pure read'
          obtain ⟨found, call, _⟩ := bind_eq_pure next
          exact ⟨found, call⟩
        obtain ⟨g, it, rfl⟩ := getNextVisibleEntry_overrun accepted held unmarked isLast live
          (entriesPerSector_pos accepted) call'
        obtain ⟨w3, s3, count', _, rest'⟩ := readLoop_adds layout (by omega) call' rest
        have := readLoop_grows layout rest'
        omega
    · have := readLoop_grows layout rest
      rw [listed, length_nil]
      omega

end

end Area

/-! ## Reading to the end -/

/-- Calls with these buffer sizes return all that is pending, piece by piece and
at least one record at a time, and then nothing. -/
def Delivers {σ : Type} (layout : DirentLayout) (call : Nat → σ → Run (List Dirent × σ)) :
    List Nat → σ → List Dirent → Prop
  | [], _, _ => True
  | bufferSize :: sizes, s, pending => Enough layout bufferSize pending →
      ∃ read rest s', call bufferSize s = pure (read, s') ∧ pending = read ++ rest ∧
        (pending ≠ [] → read ≠ []) ∧ Delivers layout call sizes s' rest

/-- The records of a directory: the dot records of the root and the visible live
entries, once and in order. -/
def direntsOf (vol : FATVolume) (directory : FATInode) (records : List DirectoryRecord) : List Dirent :=
  (if directory.isRoot vol then rootDirents vol else []) ++ records.map dirent

/-- From the start, calls on the packed table with any buffers that are large enough
return the records of the directory. -/
def ReadsPacked (vol : FATVolume) (disk : Disk) (directory : FATInode)
    (content : DirectoryContent) : Prop :=
  ∀ maps records, toRecords vol directory maps
      (visible vol directory (liveEntries vol true 0 content.items)) = .ok records →
    ∀ sizes, ∃ bound, ∀ rounds, bound ≤ rounds →
      Delivers layout (readDirectory layout vol disk directory rounds) sizes { maps }
        (direntsOf vol directory records)

namespace DirectoryContent

variable (content : DirectoryContent)

/-- The index behind the items. -/
def endIndex : Nat := (content.items.flatMap DirectoryItem.slots).length

theorem endsAt : EndsAt content.slots 0 content.endIndex := by
  refine ⟨zero_le _, ?_, ?_, ?_⟩
  · rw [slots, length_append]
    exact le_add_right _ _
  · intro k e _ below slot
    rw [slots, getElem?_append_left below] at slot
    obtain ⟨item, _, inItem⟩ := mem_flatMap.1 (mem_of_getElem? slot)
    exact DirectoryItem.not_isEnd inItem
  · intro e slot
    rw [slots, endIndex, getElem?_append_right le_rfl, Nat.sub_self] at slot
    apply content.ended e
    rw [head?_eq_getElem?]
    exact slot

theorem shown (slots : area.slots vol disk = content.slots) :
    area.shown vol disk directory 0 = visible vol directory (readEntries vol true 0 content.items) := by
  unfold Area.shown
  rw [drop_zero, slots]
  exact congrArg _ (enumerate_readEntries rfl content.items content.ended 0)

end DirectoryContent

theorem delivers_of_pending {layout : DirentLayout}
    (accepted : vol.Accepted) (held : area.Holds vol disk directory.startCluster) {m : Nat}
    (whole : EndsAt (area.slots vol disk) 0 m) (ends : Area.Terminated (area.slots vol disk) 0)
    (resumes : EndResumes vol directory (area.slots vol disk) m)
    (enough : (area.slots vol disk).length < rounds) (sizes : List Nat) {s : ReadState}
    {pending : List Dirent} (left : area.Pending vol disk directory m s pending) :
    Delivers layout (readDirectory layout vol disk directory rounds) sizes s pending := by
  induction sizes generalizing s pending with
  | nil => trivial
  | cons bufferSize sizes ih =>
    intro large
    obtain ⟨read, rest, s', call, split, progress, left'⟩ :=
      Area.readDirectory_pending accepted held whole ends resumes layout left large enough
    exact ⟨read, rest, s', call, split, progress, ih left'⟩

theorem readsPacked_of_resumes (accepted : vol.Accepted)
    (held : area.Holds vol disk directory.startCluster)
    (slots : area.slots vol disk = content.slots) (ends : Area.Terminated content.slots 0)
    (resumes : EndResumes vol directory content.slots content.endIndex)
    (readable : SequencesReadable vol directory 0 content.items) :
    ReadsPacked layout vol disk directory content := by
  intro maps records listed sizes
  refine ⟨(area.slots vol disk).length + 1, fun rounds enough => ?_⟩
  have whole := content.endsAt
  rw [← slots] at whole ends resumes
  have listed' := toRecords_read readable listed
  rw [← content.shown slots] at listed'
  apply delivers_of_pending accepted held whole ends resumes (by omega)
  unfold direntsOf
  by_cases isRoot : directory.isRoot vol
  · rw [if_pos isRoot]
    exact .inr ⟨isRoot, zero_lt_two, records, listed', rfl⟩
  · rw [if_neg isRoot]
    refine .inl ⟨_, records, ⟨0, zero_le _, ?_, rfl⟩, listed', rfl⟩
    rw [savedIndex, FATInode.indexOffset, if_neg isRoot]
    rfl

/-! ## The converse, by two calls with a large buffer -/

theorem rootDirent_short (vol : FATVolume) {name : PString} (short : name.length ≤ maxFilenameSize) :
    (rootDirent vol name).name.length ≤ maxFilenameSize := short

theorem rootDirents_short : ∀ entry ∈ rootDirents vol, entry.name.length ≤ maxFilenameSize := by
  intro entry member
  rcases mem_cons.1 member with rfl | member
  · exact rootDirent_short vol (by decide)
  · obtain rfl := mem_singleton.1 member
    exact rootDirent_short vol (by decide)

theorem liveEntries_short (vol : FATVolume) (i : Nat) (items : List DirectoryItem) :
    ∀ f ∈ liveEntries vol wantName i items, f.filename.length ≤ maxFilenameSize := by
  induction items generalizing i with
  | nil => simp [liveEntries]
  | cons item rest ih =>
    intro f member
    rcases mem_append.1 member with first | later
    · cases item with
      | erased e isErased => cases first
      | short e live =>
        obtain rfl := mem_singleton.1 first
        have raw := fatRawShortNameToUtf8_length_le e
        unfold maxFilenameSize
        dsimp only
        split
        · omega
        · exact zero_le _
      | long l =>
        obtain rfl := mem_singleton.1 first
        have assigned := assignUtf16_length_le l.name
        have short := l.short
        unfold longNameMaxLength at short
        unfold maxFilenameSize
        dsimp only
        split
        · omega
        · exact zero_le _
    · exact ih _ f later

theorem toRecords_filename {maps : InodeMap} {entries : List FoundEntry}
    (listed : toRecords vol directory maps entries = .ok records) :
    records.map filename = entries.map FoundEntry.filename := by
  induction entries generalizing maps records with
  | nil =>
    obtain rfl := Except.ok.inj listed
    rfl
  | cons f rest ih =>
    obtain ⟨record, maps', others, made, more, rfl⟩ := toRecords_cons listed
    rw [map_cons, map_cons, ih more, (toRecord_filename made).1]

theorem direntsOf_short {maps : InodeMap} {items : List DirectoryItem}
    (listed : toRecords vol directory maps (visible vol directory (liveEntries vol true 0 items)) =
      .ok records) :
    ∀ entry ∈ direntsOf vol directory records, entry.name.length ≤ maxFilenameSize := by
  intro entry member
  rcases mem_append.1 member with dot | stored
  · split at dot
    · exact rootDirents_short entry dot
    · cases dot
  · obtain ⟨record, isRecord, rfl⟩ := mem_map.1 stored
    have name : record.filename ∈ records.map filename :=
      mem_map_of_mem isRecord
    rw [toRecords_filename listed] at name
    obtain ⟨f, isVisible, same⟩ := mem_map.1 name
    show record.filename.length ≤ _
    rw [← same]
    exact liveEntries_short vol 0 items f (mem_of_mem_filter isVisible)

theorem addRootEntries_large (vol : FATVolume) (layout : DirentLayout) {w : DirEntryWriter}
    (room : 2 * maxRecordSize ≤ w.remainingSize) (index : Nat) :
    ∃ w', addRootEntries layout vol 2 w index = .ok (true, w', max index 2) ∧
      w'.entries = w.entries ++ (rootDirents vol).drop index ∧
      w.remainingSize ≤ w'.remainingSize + 2 * maxRecordSize := by
  have index' : index = 0 ∨ index = 1 ∨ 2 ≤ index := by omega
  have second (w : DirEntryWriter) (room : maxRecordSize ≤ w.remainingSize) :=
    addEntry_large layout (rootDirent vol dotDotName) (rootDirent_short vol (by decide)) room
  rcases index' with rfl | rfl | above
  · obtain ⟨w', added, entries, left⟩ := addEntry_large layout (rootDirent vol dotName)
      (rootDirent_short vol (by decide)) (w := w) (by omega)
    obtain ⟨w'', added', entries', left'⟩ := second w' (by omega)
    refine ⟨w'', ?_, ?_, by omega⟩
    · rw [addRootEntries, if_pos (by decide), if_pos rfl, added]
      simp only
      rw [addRootEntries, if_pos (by decide), if_neg (by decide), added']
      rfl
    · rw [entries', entries, append_assoc]
      rfl
  · obtain ⟨w', added, entries, left⟩ := second w (by omega)
    refine ⟨w', ?_, entries, by omega⟩
    rw [addRootEntries, if_pos (by decide), if_neg (by decide), added]
    rfl
  · refine ⟨w, ?_, ?_, by omega⟩
    · rw [addRootEntries, if_neg (by omega), max_eq_left above]
    · rw [drop_eq_nil_of_le (by exact above), append_nil]

/-- A call with a large buffer adds all dot records and enters the loop. -/
theorem readDirectory_large {bufferSize n : Nat}
    {read : List Dirent} (large : maxRecordSize * (n + 3) ≤ bufferSize)
    (call : readDirectory layout vol disk directory rounds bufferSize s = pure (read, s')) :
    ∃ w w' it, create vol disk directory.startCluster (iteratorIndex vol directory
        (if directory.isRoot vol then max s.currentIndex 2 else s.currentIndex)) = .ok it ∧
      readLoop layout vol disk directory rounds rounds w
        { s with currentIndex := if directory.isRoot vol then max s.currentIndex 2 else s.currentIndex }
        it = pure (w', s') ∧ read = w'.entries ∧
      w.entries = (if directory.isRoot vol then (rootDirents vol).drop s.currentIndex else []) ∧
      maxRecordSize * (n + 1) ≤ w.remainingSize := by
  have least := recordSize_le layout 0
  have valid : ¬bufferSize < layout.recordSize 0 := by
    rw [mul_add] at large
    omega
  obtain ⟨w, prefix', entries, left⟩ : ∃ w, (if directory.isRoot vol then
      addRootEntries layout vol 2 { bufferSize } s.currentIndex
      else .ok (true, { bufferSize }, s.currentIndex)) =
        .ok (true, w, if directory.isRoot vol then max s.currentIndex 2 else s.currentIndex) ∧
      w.entries = (if directory.isRoot vol then (rootDirents vol).drop s.currentIndex else []) ∧
      maxRecordSize * (n + 1) ≤ w.remainingSize := by
    by_cases isRoot : directory.isRoot vol
    · have room : 2 * maxRecordSize ≤ DirEntryWriter.remainingSize { bufferSize } := by
        show 2 * maxRecordSize ≤ bufferSize - 0
        rw [mul_add] at large
        omega
      obtain ⟨w, added, entries, left⟩ := addRootEntries_large vol layout room s.currentIndex
      simp only [if_pos isRoot]
      refine ⟨w, added, entries, ?_⟩
      have left : bufferSize - 0 ≤ w.remainingSize + 2 * maxRecordSize := left
      rw [mul_add] at large ⊢
      omega
    · simp only [if_neg isRoot]
      refine ⟨{ bufferSize }, rfl, rfl, ?_⟩
      show _ ≤ bufferSize - 0
      rw [mul_add] at large ⊢
      omega
  unfold readDirectory at call
  rw [if_neg valid, prefix'] at call
  simp only [ofExcept_ok, pure_bind, Bool.not_true, Bool.false_eq_true, if_false] at call
  obtain ⟨it, created, rest⟩ := bind_eq_pure call
  obtain ⟨⟨w', s''⟩, loop, built⟩ := bind_eq_pure rest
  obtain ⟨rfl, rfl⟩ := Prod.mk.inj (pure_inj.1 built)
  exact ⟨w, w', it, ofExcept_eq_pure.1 created, loop, rfl, entries, left⟩

/-- Two calls with a large buffer return what is there, and then nothing. -/
theorem ReadsPacked.calls {layout : DirentLayout}
    (all : ReadsPacked layout vol disk directory content)
    (listed : toRecords vol directory {} (visible vol directory (liveEntries vol true 0 content.items)) =
      .ok records) {bufferSize : Nat} (large : maxRecordSize ≤ bufferSize) (least : Nat) :
    ∃ rounds read rest s', least < rounds ∧
      readDirectory layout vol disk directory rounds bufferSize { maps := {} } = pure (read, s') ∧
      direntsOf vol directory records = read ++ rest ∧
      (rest = [] → ∃ s'', readDirectory layout vol disk directory rounds bufferSize s' =
        pure ([], s'')) := by
  obtain ⟨bound, delivers⟩ := all {} records listed [bufferSize, bufferSize]
  have first := delivers (bound + least + 1) (by omega)
  have enough : Enough layout bufferSize (direntsOf vol directory records) := by
    refine ⟨(recordSize_le layout 0).trans large, fun entry isHead => ?_⟩
    have short := direntsOf_short listed entry (mem_of_mem_head? isHead)
    exact ⟨recordSize_pos layout short, (recordSize_le layout _).trans large⟩
  obtain ⟨read, rest, s', call, split, _, again⟩ := first enough
  refine ⟨bound + least + 1, read, rest, s', by omega, call, split, ?_⟩
  intro nothing
  subst nothing
  obtain ⟨read', rest', s'', call', split', _⟩ :=
    again ⟨(recordSize_le layout 0).trans large, fun _ isHead => nomatch isHead⟩
  rw [(append_eq_nil_iff.1 split'.symm).1] at call'
  exact ⟨s'', call'⟩

theorem shown_short (i : Nat) :
    ∀ f ∈ area.shown vol disk directory i, f.filename.length ≤ maxFilenameSize := fun f member =>
  enumerate_short vol true LFNState.short_empty i _ f (mem_of_mem_filter member)

/-- As many entries are shown as are live. -/
theorem shown_length (slots : area.slots vol disk = content.slots)
    {maps : InodeMap} (listed : toRecords vol directory maps
      (visible vol directory (liveEntries vol true 0 content.items)) = .ok records) :
    (area.shown vol disk directory 0).length = records.length := by
  rw [content.shown slots, visible_readEntries_length, toRecords_length listed]

theorem shown_length_le (i : Nat) :
    (area.shown vol disk directory i).length ≤ (area.slots vol disk).length := by
  have drop : (enumerate vol true {} i ((area.slots vol disk).drop i)).length ≤
      ((area.slots vol disk).drop i).length := by
    rw [enumerate_length]
    exact countP_le_length.trans (takeWhile_sublist _).length_le
  unfold Area.shown visible
  refine (length_filter_le _ _).trans (drop.trans ?_)
  rw [length_drop]
  exact sub_le _ _

theorem iteratorIndex_first :
    iteratorIndex vol directory (if directory.isRoot vol then max 0 2 else 0) = 0 := by
  unfold iteratorIndex FATInode.indexOffset
  split <;> rfl

section

variable (accepted : vol.Accepted) (held : area.Holds vol disk directory.startCluster)
  (slots : area.slots vol disk = content.slots)
  (listed : toRecords vol directory {} (visible vol directory (liveEntries vol true 0 content.items)) = .ok records)

include accepted held slots listed

/-- A directory that is read to the end has an end. -/
theorem ReadsPacked.terminated {layout : DirentLayout}
    (all : ReadsPacked layout vol disk directory content) :
    Area.Terminated content.slots 0 := by
  by_contra endless
  rw [← slots] at endless
  simp only [Area.Terminated, not_or, not_exists, not_and, not_not] at endless
  have positive := Area.slots_length_pos accepted held
  obtain ⟨last, isLast⟩ : ∃ last, (area.slots vol disk).getLast? = some last :=
    ⟨_, getLast?_eq_some_getLast (ne_nil_of_length_pos positive)⟩
  have unmarked : ∀ e ∈ area.slots vol disk, ¬e.isEnd := by
    intro e member isEnd
    obtain ⟨m, slot⟩ := getElem?_of_mem member
    exact endless.1 ⟨m, e, zero_le _, slot, isEnd⟩
  have large : maxRecordSize ≤ maxRecordSize * ((area.slots vol disk).length + 3) :=
    Nat.le_mul_of_pos_right _ (by omega)
  obtain ⟨rounds, read, rest, s', enough, call, split, _⟩ :=
    all.calls listed large (area.slots vol disk).length
  obtain ⟨w, w', it, created, loop, rfl, prefix', room⟩ :=
    readDirectory_large layout le_rfl call
  rw [iteratorIndex_first, Area.create_inside accepted held positive (by decide)] at created
  obtain rfl := Except.ok.inj created
  have longer := Area.readLoop_unterminated accepted held unmarked isLast (endless.2 last isLast) layout
    positive enough (by rw [Nat.sub_zero]; exact room) loop
  have length := congrArg List.length split
  rw [shown_length slots listed, prefix'] at longer
  rw [direntsOf, length_append, length_append, length_map] at length
  have dots : (if directory.isRoot vol then rootDirents vol else []).length =
      (if directory.isRoot vol then (rootDirents vol).drop 0 else []).length := rfl
  simp only [drop_zero] at longer dots
  omega

/-- The end can be resumed, and all items were read as what they are. -/
theorem ReadsPacked.resumes {layout : DirentLayout}
    (ends : Area.Terminated content.slots 0)
    (all : ReadsPacked layout vol disk directory content) :
    EndResumes vol directory content.slots content.endIndex ∧
      SequencesReadable vol directory 0 content.items := by
  have positive := Area.slots_length_pos accepted held
  have whole := content.endsAt
  rw [← slots] at whole ends
  have large : maxRecordSize ≤ maxRecordSize * ((area.slots vol disk).length + 3) :=
    Nat.le_mul_of_pos_right _ (by omega)
  obtain ⟨rounds, read, rest, s', enough, call, split, again⟩ :=
    all.calls listed large (area.slots vol disk).length
  obtain ⟨w, w', it, created, loop, rfl, prefix', room⟩ :=
    readDirectory_large layout le_rfl call
  rw [iteratorIndex_first, Area.create_inside accepted held positive (by decide)] at created
  obtain rfl := Except.ok.inj created
  have fits (i : Nat) : maxRecordSize * ((area.shown vol disk directory i).length + 1) ≤
      maxRecordSize * ((area.slots vol disk).length + 1) :=
    mul_le_mul_left _ (succ_le_succ (shown_length_le i))
  rw [Area.readLoop_terminated accepted held layout directory positive ends whole enough (by omega)] at loop
  obtain ⟨saved, records', listed', entries⟩ :=
    fill_large layout (shown_short 0) ((fits 0).trans room) (ofExcept_eq_pure.1 loop)
  have count : (area.shown vol disk directory 0).length = records.length := shown_length slots listed
  rw [← toRecords_length listed'] at count
  have split : direntsOf vol directory records = direntsOf vol directory records' ++ rest := by
    rw [split, entries, prefix']
    rfl
  have nothing : rest = [] := by
    have length := congrArg List.length split
    simp only [direntsOf, length_append, length_map] at length
    exact eq_nil_of_length_eq_zero (by omega)
  have readListed : toRecords vol directory {}
      (visible vol directory (readEntries vol true 0 content.items)) = .ok records' := by
    rw [← content.shown slots]
    exact listed'
  have same : records.map dirent = records'.map dirent := by
    rw [nothing, append_nil] at split
    exact append_cancel_left split
  have readable := readable_of_toRecords InodeMap.fresh_empty listed readListed same
  refine ⟨?_, readable⟩
  -- the second call, from the index that the first has saved
  obtain ⟨s'', call'⟩ := again nothing
  obtain ⟨v, v', it, created', loop', none, prefix'', room'⟩ :=
    readDirectory_large layout le_rfl call'
  have grown := readLoop_grows layout loop'
  rw [← none, length_nil] at grown
  have empty : v.entries = [] := eq_nil_of_length_eq_zero (le_zero.1 grown)
  have notDots : directory.isRoot vol → content.endIndex % 2 ^ 32 + 2 < 2 ^ 32 := by
    intro isRoot
    rw [if_pos isRoot, saved, savedIndex, FATInode.indexOffset, if_pos isRoot] at prefix''
    rw [empty] at prefix''
    have dropped := congrArg List.length prefix''
    rw [length_nil, length_drop] at dropped
    have two : (rootDirents vol).length = 2 := rfl
    omega
  have index : iteratorIndex vol directory
      (if directory.isRoot vol then max s'.currentIndex 2 else s'.currentIndex) =
        content.endIndex % 2 ^ 32 := by
    have small := mod_lt content.endIndex (show 0 < 2 ^ 32 by decide)
    have unchanged : (if directory.isRoot vol then max s'.currentIndex 2 else s'.currentIndex) =
        savedIndex vol directory (content.endIndex % 2 ^ 32) := by
      rw [saved, savedIndex_mod]
      by_cases isRoot : directory.isRoot vol
      · have := notDots isRoot
        rw [if_pos isRoot, savedIndex, FATInode.indexOffset, if_pos isRoot]
        omega
      · rw [if_neg isRoot]
    rw [unchanged, iteratorIndex_savedIndex small]
  rw [index] at created'
  have inside : content.endIndex % 2 ^ 32 < (area.slots vol disk).length := by
    by_contra outside
    rw [Area.create_outside accepted held (by omega)] at created'
    cases created'
  rw [Area.create_inside accepted held inside (mod_lt _ (by decide))] at created'
  obtain rfl := Except.ok.inj created'
  have within := mod_le content.endIndex (2 ^ 32)
  rw [Area.readLoop_terminated accepted held layout directory inside (whole.terminated within ends)
    (whole.from_le within) enough (by omega)] at loop'
  obtain ⟨_, records'', listed'', entries''⟩ :=
    fill_large layout (shown_short _) ((fits _).trans room') (ofExcept_eq_pure.1 loop')
  have empty'' : records'' = [] := by
    rw [← none, empty, nil_append] at entries''
    exact map_eq_nil_iff.1 entries''.symm
  rw [empty''] at listed''
  refine ⟨slots ▸ inside, ?_, notDots⟩
  have length := toRecords_length listed''
  rw [length_nil] at length
  rw [← slots]
  exact eq_nil_of_length_eq_zero length.symm

end

/-! ## Through the window -/

/-- A call, with the state of the table that it finds and leaves. -/
def readThrough (vol : FATVolume) (disk : Disk) (directory : FATInode)
    (rounds bufferSize : Nat) (s : ReadState × TableState) : Run (List Dirent × ReadState × TableState) := do
  let ((read, s'), t) ← (TableScan.readDirectory layout vol disk directory rounds bufferSize s.1).run
    (TableScan.throughWindow vol) s.2
  return (read, s', t)

/-- From the start, calls with any buffers that are large enough return the records
of the directory. -/
def ReadsAll (vol : FATVolume) (t : TableState) (directory : FATInode)
    (content : DirectoryContent) : Prop :=
  ∀ maps records, toRecords vol directory maps
      (visible vol directory (liveEntries vol true 0 content.items)) = .ok records →
    ∀ sizes, ∃ bound, ∀ rounds, bound ≤ rounds →
      Delivers layout (readThrough layout vol t.disk directory rounds) sizes ({ maps }, t)
        (direntsOf vol directory records)

/-- Calls with these buffer sizes meet no stale window. -/
def CallsFresh (vol : FATVolume) (disk : Disk) (directory : FATInode)
    (rounds : Nat) : List Nat → ReadState × TableState → Prop
  | [], _ => True
  | bufferSize :: sizes, s =>
    TableScan.StaysFresh vol (TableScan.readDirectory layout vol disk directory rounds bufferSize s.1) s.2 ∧
      ∀ read s', readThrough layout vol disk directory rounds bufferSize s = pure (read, s') →
        CallsFresh vol disk directory rounds sizes s'

def ReadsFresh (vol : FATVolume) (t : TableState) (directory : FATInode) : Prop :=
  ∀ maps rounds sizes, CallsFresh layout vol t.disk directory rounds sizes ({ maps }, t)

theorem readThrough_packed {layout : DirentLayout} (accepted : vol.Accepted) {bufferSize : Nat}
    {s : ReadState} {t : TableState} (window : FATTableIterator.Window vol t.it)
    (fresh : TableScan.StaysFresh vol
      (TableScan.readDirectory layout vol t.disk directory rounds bufferSize s) t) :
    ∃ t', readThrough layout vol t.disk directory rounds bufferSize (s, t) =
        (fun result => (result.1, result.2, t')) <$>
          readDirectory layout vol t.disk directory rounds bufferSize s ∧
      ∀ result, readDirectory layout vol t.disk directory rounds bufferSize s = pure result →
        FATTableIterator.Window vol t'.it ∧ t'.disk = t.disk := by
  obtain ⟨t', same, kept⟩ :=
    Asking.run_of_keeps (TableScan.follows_packed accepted t.disk) ⟨window, rfl⟩ fresh
  rw [TableScan.readDirectory_packed] at same kept
  refine ⟨t', ?_, kept⟩
  unfold readThrough
  rw [same]
  rcases readDirectory layout vol t.disk directory rounds bufferSize s with _ | _ | _ <;> rfl

theorem delivers_through {layout : DirentLayout} (accepted : vol.Accepted) {sizes : List Nat}
    {s : ReadState} {t : TableState} (window : FATTableIterator.Window vol t.it)
    (fresh : CallsFresh layout vol t.disk directory rounds sizes (s, t)) (pending : List Dirent) :
    Delivers layout (readThrough layout vol t.disk directory rounds) sizes (s, t) pending ↔
      Delivers layout (readDirectory layout vol t.disk directory rounds) sizes s pending := by
  induction sizes generalizing s t pending with
  | nil => rfl
  | cons bufferSize sizes ih =>
    obtain ⟨t', same, kept⟩ := readThrough_packed accepted window fresh.1
    apply imp_congr_right
    intro _
    constructor
    · rintro ⟨_, rest, ⟨_, _⟩, call, split, progress, later⟩
      have next := fresh.2 _ _ call
      rw [same] at call
      obtain ⟨⟨read, s'⟩, called, ⟨⟩⟩ := map_eq_pure call
      obtain ⟨window', disk⟩ := kept _ called
      rw [← disk] at later next ⊢
      refine ⟨read, rest, s', ?_, split, progress, (ih window' next rest).1 later⟩
      rw [disk]
      exact called
    · rintro ⟨read, rest, s', call, split, progress, later⟩
      obtain ⟨window', disk⟩ := kept _ call
      rw [call] at same
      have next := fresh.2 read (s', t') same
      refine ⟨read, rest, (s', t'), same, split, progress, ?_⟩
      rw [← disk] at later next ⊢
      exact (ih window' next rest).2 later

theorem readsAll_iff_packed {layout : DirentLayout} (accepted : vol.Accepted) {t : TableState}
    (window : FATTableIterator.Window vol t.it) (fresh : ReadsFresh layout vol t directory) :
    ReadsAll layout vol t directory content ↔ ReadsPacked layout vol t.disk directory content := by
  have through (maps : InodeMap) (rounds : Nat) (sizes : List Nat) (pending : List Dirent) :=
    delivers_through accepted window (fresh maps rounds sizes) pending
  simp only [ReadsAll, ReadsPacked, through]

def direntLayout : DirentLayout where
  headerSize := 24
  alignment := 8
  aligned := by decide
  room := by decide

theorem card_readsFresh (t : TableState) (directory : FATInode) :
    ReadsFresh layout card t directory := by
  intro maps rounds sizes
  generalize ({ maps } : ReadState) = s
  generalize t.disk = disk
  induction sizes generalizing s t with
  | nil => trivial
  | cons bufferSize sizes ih => exact ⟨TableScan.fresh_of_whole card_whole _ _, fun _ s' _ => ih s'.2 s'.1⟩

theorem cardWithFile_listed : toRecords card cardDirectory {}
    (visible card cardDirectory (liveEntries card true 0 cardWithFileContent.items)) =
      .ok [{ filename := [0x41, 0x41], inodeID := generateDirIndexInodeID cardDirectory.inodeID 0
             dosAttribs := 0x20 }] := by
  decide +kernel

theorem fullCard_listed : ∃ records, toRecords card cardRoot {}
    (visible card cardRoot (liveEntries card true 0 fullCardContent.items)) = .ok records := by
  have computed : (toRecords card cardRoot {}
      (visible card cardRoot (liveEntries card true 0 fullCardContent.items))).isOk := by
    decide +kernel
  generalize toRecords card cardRoot {} _ = result at computed
  cases result with
  | error stop => cases computed
  | ok records => exact ⟨records, rfl⟩

end PadOS.Fat
