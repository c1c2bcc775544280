import PadOS.Fat.ReadDirectory

/-! # Resuming a directory

Each call of `ReadDirectory` returns a piece of the records that are left and saves
an index from which the rest is found again. The entry that did not fit is
identified twice, which gives the same number.
-/

namespace PadOS.Fat

open Unicode List Option DirectoryRecord Except

variable {vol : FATVolume} {disk : Disk} {area : Area} {start i inodeID : Nat} {directory : FATInode}
  {maps maps' : InodeMap}

/-! ## Identifying an entry twice -/

theorem setInodeIDToLocationIDMapping_again {location : Nat}
    (unmapped : maps.locationToInode location = none)
    (set : maps.setInodeIDToLocationIDMapping inodeID location = .ok maps') :
    maps'.locationToInode location = some inodeID ∨
      inodeID = location ∧ maps'.locationToInode location = none ∧
        maps'.inodeToLocation location = none := by
  unfold InodeMap.setInodeIDToLocationIDMapping at set
  cases mapped : maps.inodeToLocation inodeID with
  | some oldLocation =>
    simp only [mapped, ite_error_eq_ok] at set
    obtain ⟨known, set⟩ := set
    by_cases same : location = oldLocation
    · rw [← same, unmapped] at known
      simp at known
    · rw [if_neg same, ite_error_eq_ok] at set
      obtain ⟨_, set⟩ := set
      by_cases artificial : inodeID ≠ location
      · rw [if_pos artificial] at set
        obtain rfl := ok.inj set
        exact .inl (if_pos rfl)
      · rw [if_neg artificial] at set
        obtain rfl := ok.inj set
        have equal : inodeID = location := by simpa using artificial
        refine .inr ⟨equal, ?_, if_pos equal.symm⟩
        simp [same, unmapped]
  | none =>
    simp only [mapped, ite_error_eq_ok] at set
    obtain ⟨_, set⟩ := set
    by_cases artificial : inodeID ≠ location
    · rw [if_pos artificial] at set
      obtain rfl := ok.inj set
      exact .inl (if_pos rfl)
    · rw [if_neg artificial] at set
      obtain rfl := ok.inj set
      have equal : inodeID = location := by simpa using artificial
      exact .inr ⟨equal, unmapped, equal ▸ mapped⟩

/-- The number that a location has got stays the same. -/
theorem numberOfLocation_again {location : Nat}
    (numbered : numberOfLocation maps location = .ok (inodeID, maps')) :
    ∀ directoryMap, numberOfLocation { maps' with directoryMap } location =
      .ok (inodeID, { maps' with directoryMap }) := by
  intro directoryMap
  unfold numberOfLocation at numbered
  cases known : maps.locationToInode location with
  | some mapped =>
    simp only [known] at numbered
    obtain ⟨rfl, rfl⟩ := Prod.mk.inj (ok.inj numbered)
    simp [numberOfLocation, known]
  | none =>
    simp only [known] at numbered
    by_cases taken : (maps.inodeToLocation location).isSome
    · rw [if_pos taken] at numbered
      have unmapped : maps.allocUniqueInodeID.2.locationToInode location = none := known
      split at numbered
      · cases numbered
      · rename_i set
        obtain ⟨rfl, rfl⟩ := Prod.mk.inj (ok.inj numbered)
        rcases setInodeIDToLocationIDMapping_again unmapped set with mapped | ⟨equal, unmapped, free⟩
        · simp [numberOfLocation, mapped]
        · simp [numberOfLocation, unmapped, free, equal]
    · rw [if_neg taken] at numbered
      obtain ⟨rfl, rfl⟩ := Prod.mk.inj (ok.inj numbered)
      simp [numberOfLocation, known, taken]

theorem mapDirectory_again {startCluster : Nat}
    (mapped : mapDirectory vol maps startCluster inodeID = .ok maps') :
    (∃ directoryMap, maps' = { maps with directoryMap }) ∧
      mapDirectory vol maps' startCluster inodeID = .ok maps' := by
  unfold mapDirectory at mapped
  cases known : maps.directoryMap startCluster with
  | some other =>
    simp only [known, ite_error_eq_ok] at mapped
    obtain ⟨same, mapped⟩ := mapped
    obtain rfl := ok.inj mapped
    exact ⟨⟨maps.directoryMap, rfl⟩, by simpa [mapDirectory, known] using same⟩
  | none =>
    simp only [known] at mapped
    cases added : maps.addDirectoryMapping vol startCluster inodeID with
    | none => simp [added] at mapped
    | some maps'' =>
      simp only [added] at mapped
      obtain rfl := ok.inj mapped
      unfold InodeMap.addDirectoryMapping at added
      split at added
      · cases added
      · rw [known] at added
        obtain rfl := some.inj added
        exact ⟨⟨_, rfl⟩, by simp [mapDirectory]⟩

theorem identify_again {info : FATDirectoryEntryInfo} {filename : PString}
    (identified : identify vol directory info filename maps = .ok (inodeID, maps')) :
    identify vol directory info filename maps' = .ok (inodeID, maps') := by
  unfold identify at identified ⊢
  by_cases isDot : filename = dotName
  · simp only [isDot, if_true] at identified ⊢
    obtain ⟨rfl, rfl⟩ := Prod.mk.inj (ok.inj identified)
    rfl
  by_cases isDotDot : filename = dotDotName
  · have notDot : dotDotName ≠ dotName := by decide
    simp only [isDotDot, notDot, if_false, if_true] at identified ⊢
    obtain ⟨rfl, rfl⟩ := Prod.mk.inj (ok.inj identified)
    rfl
  simp only [isDot, isDotDot, if_false] at identified ⊢
  generalize (if vol.isDataCluster info.startCluster then _ else _ : Nat) = location at identified ⊢
  cases numbered : numberOfLocation maps location with
  | error stop => simp [numbered] at identified
  | ok result =>
    obtain ⟨number, maps''⟩ := result
    have again := numberOfLocation_again numbered
    simp only [numbered] at identified
    by_cases isSubdir : info.dosAttribs &&& fatSubdirAttribute ≠ 0
    · rw [if_pos isSubdir] at identified
      cases mapped : mapDirectory vol maps'' info.startCluster number with
      | error stop => simp [mapped] at identified
      | ok maps''' =>
        simp only [mapped] at identified
        obtain ⟨rfl, rfl⟩ := Prod.mk.inj (ok.inj identified)
        obtain ⟨⟨directoryMap, rfl⟩, twice⟩ := mapDirectory_again mapped
        rw [again directoryMap]
        simp only [if_pos isSubdir, twice]
    · rw [if_neg isSubdir] at identified
      obtain ⟨rfl, rfl⟩ := Prod.mk.inj (ok.inj identified)
      rw [again maps''.directoryMap]
      simp only [if_neg isSubdir]

variable {records : List DirectoryRecord} {f : FoundEntry}

theorem toRecord_again {record : DirectoryRecord}
    (made : toRecord vol directory maps f = .ok (record, maps')) :
    toRecord vol directory maps' f = .ok (record, maps') := by
  unfold toRecord at made ⊢
  cases valid : validateFATDirectoryEntry vol directory f.info f.filename with
  | error stop => simp [valid] at made
  | ok _ =>
    simp only [valid] at made ⊢
    cases identified : identify vol directory f.info f.filename maps with
    | error stop => simp [identified] at made
    | ok result =>
      obtain ⟨inodeID, maps''⟩ := result
      simp only [identified] at made
      obtain ⟨rfl, rfl⟩ := Prod.mk.inj (ok.inj made)
      simp only [identify_again identified]

variable {slots : List FATDirectoryEntryCombo} {rest : List FoundEntry}

theorem toRecords_cons (listed : toRecords vol directory maps (f :: rest) = .ok records) :
    ∃ record maps' others, toRecord vol directory maps f = .ok (record, maps') ∧
      toRecords vol directory maps' rest = .ok others ∧ records = record :: others := by
  rw [toRecords] at listed
  cases made : toRecord vol directory maps f with
  | error stop => simp [made] at listed
  | ok result =>
    obtain ⟨record, maps'⟩ := result
    simp only [made] at listed
    cases more : toRecords vol directory maps' rest with
    | error stop => simp [more] at listed
    | ok others =>
      simp only [more] at listed
      exact ⟨record, maps', others, rfl, more, (ok.inj listed).symm⟩

/-! ## Filling -/

variable (layout : DirentLayout)

/-- The next record has room. -/
def DirEntryWriter.Fits (w : DirEntryWriter) (entry : Dirent) : Prop :=
  0 < layout.recordSize entry.name.length ∧ layout.recordSize entry.name.length ≤ w.remainingSize

variable {w : DirEntryWriter}

theorem addEntry_of_fits {layout : DirentLayout} {entry : Dirent}
    (fits : w.Fits layout entry) :
    w.addEntry layout entry = some
      { w with bytesWritten := w.bytesWritten + layout.recordSize entry.name.length
               entries := w.entries ++ [entry] } := by
  apply if_neg
  have := fits.1
  have := fits.2
  omega

theorem fits_of_addEntry {layout : DirentLayout} {w w' : DirEntryWriter} {entry : Dirent}
    (added : w.addEntry layout entry = some w') : w.Fits layout entry := by
  by_contra unfit
  unfold DirEntryWriter.addEntry at added
  rw [if_pos] at added
  · cases added
  · unfold DirEntryWriter.Fits at unfit
    omega

/-- What `fill` leaves is where the saved index says it is. `P` relates a
saved index to the entries from there on. -/
theorem fill_ok {m : Nat} {P : Nat → List FoundEntry → Prop}
    (next : ∀ {index f rest}, P index (f :: rest) →
      P (savedIndex vol directory (f.info.endIndex + 1)) rest)
    (last : P (savedIndex vol directory m) [])
    {s : ReadState} {entries : List FoundEntry}
    (here : P s.currentIndex entries)
    (listed : toRecords vol directory s.maps entries = .ok records)
    (fits : w.bytesWritten ≠ 0 ∨ ∀ record, records.head? = some record → w.Fits layout record.dirent) :
    ∃ taken left w' s' entries', fill layout vol directory m w s entries = .ok (w', s') ∧
      records = taken ++ left ∧ w'.entries = w.entries ++ taken.map dirent ∧
      P s'.currentIndex entries' ∧ toRecords vol directory s'.maps entries' = .ok left ∧
      ((∀ record, records.head? = some record → w.Fits layout record.dirent) →
        layout.recordSize 0 ≤ w.remainingSize → records ≠ [] → taken ≠ []) := by
  induction entries generalizing w s records with
  | nil =>
    obtain rfl := ok.inj listed
    rw [fill]
    by_cases full : w.remainingSize < layout.recordSize 0
    · exact ⟨[], [], w, s, [], if_pos full, rfl, by simp, here, listed, by simp⟩
    · exact ⟨[], [], w, _, [], if_neg full, rfl, by simp, last, rfl, by simp⟩
  | cons f rest ih =>
    obtain ⟨record, maps, others, made, more, rfl⟩ := toRecords_cons listed
    rw [fill]
    by_cases full : w.remainingSize < layout.recordSize 0
    · refine ⟨[], _, w, s, f :: rest, if_pos full, rfl, by simp, here, listed, ?_⟩
      intro _ room
      omega
    rw [if_neg full, made]
    simp only
    cases added : w.addEntry layout record.dirent with
    | none =>
      have unfit : ¬w.Fits layout record.dirent := by
        intro fit
        rw [addEntry_of_fits fit] at added
        cases added
      have written : w.bytesWritten ≠ 0 := by
        rcases fits with written | fit
        · exact written
        · exact absurd (fit record rfl) unfit
      refine ⟨[], record :: others, w, { s with maps }, f :: rest, if_neg written, rfl, by simp, here,
        ?_, ?_⟩
      · rw [toRecords, toRecord_again made]
        simp only [more]
      · intro fit
        exact absurd (fit record rfl) unfit
    | some w' =>
      have fit := fits_of_addEntry added
      rw [addEntry_of_fits fit] at added
      obtain rfl := some.inj added
      let w' : DirEntryWriter := { w with
        bytesWritten := w.bytesWritten + layout.recordSize record.dirent.name.length
        entries := w.entries ++ [record.dirent] }
      have written : w'.bytesWritten ≠ 0 := by
        have := fit.1
        show w.bytesWritten + layout.recordSize record.dirent.name.length ≠ 0
        omega
      obtain ⟨taken, left, w', s', entries', filled, rfl, written', position, remain, _⟩ :=
        ih (w := w') (s := { currentIndex := savedIndex vol directory (f.info.endIndex + 1), maps })
          (next here) more (.inl written)
      refine ⟨record :: taken, left, w', s', entries', filled, rfl, ?_, position, remain, by simp⟩
      rw [written', map_cons, append_assoc]
      rfl

/-! ## Positions -/

theorem enumerate_live (vol : FATVolume) (wantName : Bool) (state : LFNState) (i : Nat) {k : Nat} {e : FATDirectoryEntryCombo} (slot : slots[k]? = some e)
    (live : e.isLive) (passed : Area.Passable slots 0 k) :
    ∃ f ∈ enumerate vol wantName state i slots, f.info.dosAttribs = e.attribs := by
  induction slots generalizing state i k with
  | nil => cases slot
  | cons first rest ih =>
    rw [enumerate]
    cases k with
    | zero =>
      obtain rfl := some.inj slot
      rw [lfnStep_entry.2 live]
      exact ⟨_, mem_cons_self, rfl⟩
    | succ k =>
      have passed' : Area.Passable rest 0 k := by
        intro n s _ below slot'
        exact passed (n + 1) s zero_le (by omega) slot'
      cases step : lfnStep wantName state (i % 2 ^ 32) first with
      | endOfTable =>
        exact absurd (lfnStep_endOfTable.1 step) (passed 0 first le_rfl (by omega) rfl)
      | entry =>
        obtain ⟨f, member, same⟩ := ih {} (i + 1) slot passed'
        exact ⟨f, mem_cons_of_mem _ member, same⟩
      | skip next => exact ih next (i + 1) slot passed'

namespace Area

/-- The first entry that is shown from an index on. -/
theorem shown_cons (accepted : vol.Accepted) (held : area.Holds vol disk start)
    (inside : i < (area.slots vol disk).length) (ends : Terminated (area.slots vol disk) i)
    (listed : area.shown vol disk directory i = f :: rest) :
    ∃ j, i ≤ j ∧ j + 1 < (area.slots vol disk).length ∧ StandsAt (area.slots vol disk) f j ∧
      rest = area.shown vol disk directory (j + 1) ∧ Passable (area.slots vol disk) i (j + 1) := by
  unfold shown at listed ⊢
  rcases getNextVisibleEntry_terminated accepted held directory inside ends
      (Nat.lt_succ_self (area.slots vol disk).length)
      (show (area.slots vol disk).length - i < (area.slots vol disk).length + 1 by omega) with
    ⟨none, _⟩ | ⟨g, j, le, more, place, listed', passed, _⟩
  · rw [none] at listed
    cases listed
  · rw [listed'] at listed
    obtain ⟨rfl, rfl⟩ := cons.inj listed
    exact ⟨j, le, more, place, rfl, passed⟩

/-- An entry that stands behind an index is shown from there. -/
theorem shown_ne_nil {r j : Nat} (behind : r ≤ j)
    (place : StandsAt (area.slots vol disk) f j) (plain : ¬isHidden vol directory f.info)
    (passed : Passable (area.slots vol disk) r j) : area.shown vol disk directory r ≠ [] := by
  obtain ⟨e, slot, live, attribs⟩ := place.slot
  have slot' : ((area.slots vol disk).drop r)[j - r]? = some e := by
    rw [getElem?_drop, show r + (j - r) = j by omega]
    exact slot
  have passed' : Passable ((area.slots vol disk).drop r) 0 (j - r) := by
    intro k s _ below there
    rw [getElem?_drop] at there
    exact passed (r + k) s (by omega) (by omega) there
  obtain ⟨g, member, same⟩ := enumerate_live vol true {} r slot' live passed'
  have visible' : g ∈ area.shown vol disk directory r := by
    apply mem_filter.2
    refine ⟨member, ?_⟩
    have same' : isHidden vol directory g.info = isHidden vol directory f.info := by
      unfold isHidden
      rw [same, attribs]
    rw [same']
    simpa using plain
  exact ne_nil_of_mem visible'

end Area

/-- The index that is saved at the end can be resumed: it is in the directory, no
entry is shown from there, and in the root it is no index of a dot record. -/
structure EndResumes (vol : FATVolume) (directory : FATInode) (slots : List FATDirectoryEntryCombo)
    (m : Nat) : Prop where
  inside : m % 2 ^ 32 < slots.length
  nothing : visible vol directory
    (enumerate vol true {} (m % 2 ^ 32) (slots.drop (m % 2 ^ 32))) = []
  notDots : directory.isRoot vol → m % 2 ^ 32 + 2 < 2 ^ 32

theorem iteratorIndex_savedIndex {p : Nat} (small : p < 2 ^ 32) :
    iteratorIndex vol directory (savedIndex vol directory p) = p := by
  have offset : directory.indexOffset vol ≤ 2 := by
    unfold FATInode.indexOffset
    split <;> omega
  unfold iteratorIndex savedIndex
  omega

theorem EndsAt.from_le {m p : Nat} (whole : EndsAt slots 0 m)
    (le : p ≤ m) : EndsAt slots p m :=
  ⟨le, whole.bound, fun k s _ => whole.passed k s (Nat.zero_le k), whole.isEnd⟩

theorem EndsAt.terminated {m p : Nat} (whole : EndsAt slots 0 m)
    (le : p ≤ m) (ends : Area.Terminated slots 0) : Area.Terminated slots p := by
  apply ends.imp_left
  intro ⟨n, e, above, slot, isEnd⟩
  refine ⟨n, e, ?_, slot, isEnd⟩
  by_contra before
  exact whole.passed n e above (by omega) slot isEnd

namespace Area

/-- A saved index and the entries from there on. -/
def PositionAt (vol : FATVolume) (disk : Disk) (area : Area) (directory : FATInode) (m index : Nat)
    (entries : List FoundEntry) : Prop :=
  ∃ p, p ≤ m % 2 ^ 32 ∧ index = savedIndex vol directory p ∧
    entries = area.shown vol disk directory p

section

variable {m : Nat} (accepted : vol.Accepted) (held : area.Holds vol disk start)
  (whole : EndsAt (area.slots vol disk) 0 m) (ends : Terminated (area.slots vol disk) 0)
  (resumes : EndResumes vol directory (area.slots vol disk) m)

include accepted held whole ends resumes

theorem PositionAt.next {index : Nat}
    (here : area.PositionAt vol disk directory m index (f :: rest)) :
    area.PositionAt vol disk directory m (savedIndex vol directory (f.info.endIndex + 1)) rest := by
  obtain ⟨p, before, _, listed⟩ := here
  have inside := resumes.inside
  have within := Nat.mod_le m (2 ^ 32)
  have plain : ¬isHidden vol directory f.info := by
    have member : f ∈ area.shown vol disk directory p := listed ▸ mem_cons_self
    simpa using (mem_filter.1 member).2
  obtain ⟨j, le, more, place, rfl, passed⟩ := shown_cons accepted held (by omega)
    (whole.terminated (by omega) ends) listed.symm
  have below : j < m % 2 ^ 32 := by
    by_contra beyond
    refine shown_ne_nil (by omega) place plain ?_ resumes.nothing
    intro k s above below
    exact passed k s (by omega) (by omega)
  refine ⟨j + 1, below, ?_, rfl⟩
  rw [place.endIndex, savedIndex_succ]

theorem readLoop_position (layout : DirentLayout) {w : DirEntryWriter} {s : ReadState}
    {entries : List FoundEntry}
    (here : area.PositionAt vol disk directory m s.currentIndex entries)
    (listed : toRecords vol directory s.maps entries = .ok records)
    (fits : w.bytesWritten ≠ 0 ∨ ∀ record, records.head? = some record → w.Fits layout record.dirent)
    {rounds : Nat} (enough : (area.slots vol disk).length < rounds) :
    ∃ taken left w' s' entries' it,
      FATDirectoryIterator.create vol disk start (iteratorIndex vol directory s.currentIndex) = .ok it ∧
      readLoop layout vol disk directory rounds rounds w s it = pure (w', s') ∧
      records = taken ++ left ∧ w'.entries = w.entries ++ taken.map dirent ∧
      area.PositionAt vol disk directory m s'.currentIndex entries' ∧
      toRecords vol directory s'.maps entries' = .ok left ∧
      ((∀ record, records.head? = some record → w.Fits layout record.dirent) →
        layout.recordSize 0 ≤ w.remainingSize → records ≠ [] → taken ≠ []) := by
  obtain ⟨p, before, index, rfl⟩ := id here
  have inside := resumes.inside
  have within := Nat.mod_le m (2 ^ 32)
  have last : area.PositionAt vol disk directory m (savedIndex vol directory m) [] :=
    ⟨m % 2 ^ 32, le_rfl, (savedIndex_mod m).symm, resumes.nothing.symm⟩
  obtain ⟨taken, left, w', s', entries', filled, rest⟩ := fill_ok layout
    (P := area.PositionAt vol disk directory m)
    (fun here => here.next accepted held whole ends resumes) last here listed fits
  refine ⟨taken, left, w', s', entries', area.cursor vol start p, ?_, ?_, rest⟩
  · rw [index, iteratorIndex_savedIndex (by omega)]
    exact create_inside accepted held (by omega) (by omega)
  · rw [readLoop_terminated accepted held layout directory (by omega)
      (whole.terminated (by omega) ends) (whole.from_le (by omega)) enough (by omega) w s, filled,
      Run.ofExcept_ok]

/-- The records that are still to be returned. -/
def Pending (vol : FATVolume) (disk : Disk) (area : Area) (directory : FATInode) (m : Nat)
    (s : ReadState) (pending : List Dirent) : Prop :=
  (∃ entries records, area.PositionAt vol disk directory m s.currentIndex entries ∧
    toRecords vol directory s.maps entries = .ok records ∧
    pending = records.map dirent) ∨
  directory.isRoot vol ∧ s.currentIndex < 2 ∧ ∃ records,
    toRecords vol directory s.maps (area.shown vol disk directory 0) = .ok records ∧
    pending = (rootDirents vol).drop s.currentIndex ++ records.map dirent

end

end Area

/-- A buffer that takes the next record. -/
def Enough (bufferSize : Nat) (pending : List Dirent) : Prop :=
  layout.recordSize 0 ≤ bufferSize ∧
    ∀ entry, pending.head? = some entry → DirEntryWriter.Fits layout { bufferSize } entry

/-- The loop over the dot records adds at least one. -/
theorem addRootEntries_ok {index : Nat} (below : index < 2)
    (fits : ∀ entry, ((rootDirents vol).drop index).head? = some entry → w.Fits layout entry) :
    ∃ k w', 0 < k ∧ index + k ≤ 2 ∧ w'.bytesWritten ≠ 0 ∧
      addRootEntries layout vol 2 w index = .ok (decide (index + k = 2), w', index + k) ∧
      w'.entries = w.entries ++ ((rootDirents vol).drop index).take k := by
  have index' : index = 0 ∨ index = 1 := by omega
  rcases index' with rfl | rfl
  · have first : w.Fits layout (rootDirent vol dotName) := fits _ rfl
    have written : w.bytesWritten + layout.recordSize (rootDirent vol dotName).name.length ≠ 0 := by
      have := first.1
      omega
    rw [addRootEntries, if_pos (by decide), if_pos rfl, addEntry_of_fits first]
    simp only [addRootEntries, zero_add, Nat.lt_succ_self, if_true, Nat.one_ne_zero, if_false]
    cases added : DirEntryWriter.addEntry layout _ _ with
    | none =>
      exact ⟨1, _, by decide, by decide, written, if_neg written, rfl⟩
    | some w' =>
      have second := fits_of_addEntry added
      rw [addEntry_of_fits second] at added
      obtain rfl := some.inj added
      refine ⟨2, _, by decide, by decide, ?_, rfl, by simp [rootDirents]⟩
      intro none
      exact written (Nat.eq_zero_of_add_eq_zero_right none)
  · have second : w.Fits layout (rootDirent vol dotDotName) := fits _ rfl
    have written : w.bytesWritten + layout.recordSize (rootDirent vol dotDotName).name.length ≠ 0 := by
      have := second.1
      omega
    rw [addRootEntries, if_pos (by decide), if_neg (by decide), addEntry_of_fits second]
    exact ⟨1, _, by decide, by decide, written, rfl, rfl⟩

namespace Area

section

variable {m : Nat} (accepted : vol.Accepted) (held : area.Holds vol disk directory.startCluster)
  (whole : EndsAt (area.slots vol disk) 0 m) (ends : Terminated (area.slots vol disk) 0)
  (resumes : EndResumes vol directory (area.slots vol disk) m)

include accepted held whole ends resumes

theorem readStored_pending (layout : DirentLayout) {w : DirEntryWriter} {s : ReadState}
    {entries : List FoundEntry}
    (here : area.PositionAt vol disk directory m s.currentIndex entries)
    (listed : toRecords vol directory s.maps entries = .ok records)
    (fits : w.bytesWritten ≠ 0 ∨ ∀ record, records.head? = some record → w.Fits layout record.dirent)
    {rounds : Nat} (enough : (area.slots vol disk).length < rounds) :
    ∃ taken rest s', (do
        let it ← Run.ofExcept (FATDirectoryIterator.create vol disk directory.startCluster
          (iteratorIndex vol directory s.currentIndex))
        let (w, s) ← readLoop layout vol disk directory rounds rounds w s it
        return (w.entries, s) : Run (List Dirent × ReadState)) = pure (w.entries ++ taken, s') ∧
      records.map dirent = taken ++ rest ∧
      area.Pending vol disk directory m s' rest ∧
      ((∀ record, records.head? = some record → w.Fits layout record.dirent) →
        layout.recordSize 0 ≤ w.remainingSize → records ≠ [] → taken ≠ []) := by
  obtain ⟨taken, left, w', s', entries', it, created, read, rfl, written, here', listed', progress⟩ :=
    readLoop_position accepted held whole ends resumes layout here listed fits enough
  refine ⟨taken.map dirent, left.map dirent, s', ?_, by simp,
    .inl ⟨entries', left, here', listed', rfl⟩, ?_⟩
  · rw [created]
    simp only [Run.ofExcept_ok, pure_bind, read, written]
  · intro fit room some'
    simpa using progress fit room some'

theorem readDirectory_pending (layout : DirentLayout) {bufferSize : Nat} {s : ReadState}
    {pending : List Dirent} (left : area.Pending vol disk directory m s pending)
    (enough : Enough layout bufferSize pending) {rounds : Nat}
    (rounds' : (area.slots vol disk).length < rounds) :
    ∃ read rest s', readDirectory layout vol disk directory rounds bufferSize s = pure (read, s') ∧
      pending = read ++ rest ∧ (pending ≠ [] → read ≠ []) ∧
      area.Pending vol disk directory m s' rest := by
  have valid : ¬bufferSize < layout.recordSize 0 := not_lt.2 enough.1
  unfold readDirectory
  rw [if_neg valid]
  rcases left with ⟨entries, records, here, listed, rfl⟩ | ⟨isRoot, below, records, listed, rfl⟩
  · have fits : ∀ record, records.head? = some record →
        DirEntryWriter.Fits layout { bufferSize } record.dirent := by
      intro record first
      apply enough.2
      rw [head?_map, first]
      rfl
    have stored : (if directory.isRoot vol then
        addRootEntries layout vol 2 { bufferSize } s.currentIndex
        else .ok (true, { bufferSize }, s.currentIndex)) = .ok (true, { bufferSize }, s.currentIndex) := by
      by_cases isRoot : directory.isRoot vol
      · obtain ⟨p, before, index, _⟩ := here
        have small := resumes.notDots isRoot
        have offset : directory.indexOffset vol = 2 := if_pos isRoot
        have above : ¬s.currentIndex < 2 := by
          rw [index, savedIndex, offset]
          omega
        rw [if_pos isRoot, addRootEntries, if_neg above]
      · rw [if_neg isRoot]
    rw [stored]
    simp only [Run.ofExcept_ok, pure_bind, Bool.not_true, Bool.false_eq_true, if_false]
    obtain ⟨taken, rest, s', read, split, left, progress⟩ :=
      readStored_pending accepted held whole ends resumes layout (w := { bufferSize }) here listed
        (.inr fits) rounds'
    refine ⟨taken, rest, s', read, split, ?_, left⟩
    intro some'
    exact progress fits enough.1 (by simpa using some')
  · have fits : ∀ entry, ((rootDirents vol).drop s.currentIndex).head? = some entry →
        DirEntryWriter.Fits layout { bufferSize } entry := by
      intro entry first
      apply enough.2
      rw [head?_append, first]
      rfl
    obtain ⟨k, w, positive, upTo, written, added, entries⟩ := addRootEntries_ok layout below fits
    have whole' : (rootDirents vol).drop s.currentIndex ++ records.map dirent =
        w.entries ++ ((rootDirents vol).drop (s.currentIndex + k) ++
          records.map dirent) := by
      rw [entries, nil_append, ← append_assoc, ← drop_drop, take_append_drop]
    have some' : w.entries ≠ [] := by
      rw [entries, nil_append]
      have length : (rootDirents vol).length = 2 := rfl
      apply ne_nil_of_length_pos
      rw [length_take, length_drop, length]
      omega
    rw [if_pos isRoot, added]
    simp only [Run.ofExcept_ok, pure_bind]
    by_cases both : s.currentIndex + k = 2
    · simp only [both, decide_true, Bool.not_true, Bool.false_eq_true, if_false]
      have here : area.PositionAt vol disk directory m 2 (area.shown vol disk directory 0) := by
        refine ⟨0, zero_le, ?_, rfl⟩
        rw [savedIndex, FATInode.indexOffset, if_pos isRoot]
        rfl
      obtain ⟨taken, rest, s', read, split, left, _⟩ :=
        readStored_pending accepted held whole ends resumes layout (w := w)
          (s := { s with currentIndex := 2 }) here listed (.inl written) rounds'
      refine ⟨w.entries ++ taken, rest, s', read, ?_, ?_, left⟩
      · rw [whole', both, split, append_assoc]
        rfl
      · intro _ none
        exact some' (append_eq_nil_iff.1 none).1
    · simp only [both, decide_false, Bool.not_false, if_true]
      exact ⟨w.entries, _, _, rfl, whole', fun _ => some', .inr ⟨isRoot, by
        show s.currentIndex + k < 2
        omega, records, listed, rfl⟩⟩

end

end Area

end PadOS.Fat
