import PadOS.Fat.DirectoryIterator

/-! # Scanning a list of slots

On slots `GetNextLFNEntry` is a scan: it stops at the first live slot, at the end
marker or where the slots are exhausted. The iterator does this scan from each
slot of the directory. Repeated calls return what `enumerate` lists, but for one
case: after a live last slot the scan goes on in a sector that was left.
-/

namespace PadOS.Fat

open Unicode List Option FATDirectoryIterator

variable {vol : FATVolume} {disk : Disk} {area : Area} {start i index j rounds : Nat} {wantName : Bool}
  {state : LFNState} {slots : List FATDirectoryEntryCombo}

inductive Scan
  | exhausted
  | marker (index : Nat)
  | found (state : LFNState) (index : Nat) (e : FATDirectoryEntryCombo)

/-- One call, on the slots from `index` on. -/
def scan (wantName : Bool) : LFNState → Nat → List FATDirectoryEntryCombo → Scan
  | _, _, [] => .exhausted
  | state, index, e :: rest =>
    match lfnStep wantName state (index % 2 ^ 32) e with
    | .endOfTable => .marker index
    | .entry => .found state index e
    | .skip state => scan wantName state (index + 1) rest

/-- What repeated calls find. -/
def enumerate (vol : FATVolume) (wantName : Bool) : LFNState → Nat → List FATDirectoryEntryCombo →
    List FoundEntry
  | _, _, [] => []
  | state, index, e :: rest =>
    match lfnStep wantName state (index % 2 ^ 32) e with
    | .endOfTable => []
    | .entry => foundEntry vol wantName state (index % 2 ^ 32) e ::
        enumerate vol wantName {} (index + 1) rest
    | .skip state => enumerate vol wantName state (index + 1) rest

/-! The step looks at the state only in long-name records. -/

variable {e : FATDirectoryEntryCombo}

theorem lfnStep_entry :
    lfnStep wantName state index e = .entry ↔ e.isLive := by
  unfold lfnStep FATDirectoryEntryCombo.isLive
  cases ends : e.isEnd
  · cases erased : e.isErased
    · cases long : e.isLongName
      · simp
      · simp only [Bool.false_eq_true, if_false, if_true]
        split
        · simp
        · split <;> simp
    · simp
  · simp

theorem lfnStep_endOfTable :
    lfnStep wantName state index e = .endOfTable ↔ e.isEnd := by
  unfold lfnStep
  cases ends : e.isEnd
  · simp only [Bool.false_eq_true, if_false, iff_false]
    split
    · simp
    · split
      · split
        · simp
        · split <;> simp
      · simp
  · simp

theorem scan_found_index (vol : FATVolume) {state' : LFNState}
    (found : scan wantName state index slots = .found state' j e) :
    index ≤ j ∧ slots[j - index]? = some e ∧ e.isLive ∧ enumerate vol wantName state index slots =
        foundEntry vol wantName state' (j % 2 ^ 32) e ::
          enumerate vol wantName {} (j + 1) (slots.drop (j + 1 - index)) := by
  induction slots generalizing state index with
  | nil => cases found
  | cons s rest ih =>
    rw [scan] at found
    rw [enumerate]
    cases step : lfnStep wantName state (index % 2 ^ 32) s with
    | endOfTable =>
      rw [step] at found
      cases found
    | entry =>
      rw [step] at found
      simp only [Scan.found.injEq] at found
      obtain ⟨rfl, rfl, rfl⟩ := found
      refine ⟨le_rfl, by simp, lfnStep_entry.1 step, ?_⟩
      simp
    | skip next =>
      rw [step] at found
      obtain ⟨le, slot, live, rest'⟩ := ih found
      have shift : j - index = j - (index + 1) + 1 := by omega
      have shift' : j + 1 - index = j + 1 - (index + 1) + 1 := by omega
      refine ⟨by omega, ?_, live, ?_⟩
      · rw [shift, getElem?_cons_succ]
        exact slot
      · rw [shift', drop_succ_cons]
        exact rest'

theorem scan_found_before {state' : LFNState} {k : Nat} {e s : FATDirectoryEntryCombo}
    (found : scan wantName state index slots = .found state' j e)
    (before : index + k ≤ j) (slot : slots[k]? = some s) : ¬s.isEnd := by
  induction slots generalizing state index k with
  | nil => cases found
  | cons first rest ih =>
    rw [scan] at found
    cases step : lfnStep wantName state (index % 2 ^ 32) first with
    | endOfTable =>
      rw [step] at found
      cases found
    | entry =>
      rw [step] at found
      simp only [Scan.found.injEq] at found
      obtain ⟨_, rfl, _⟩ := found
      obtain rfl : k = 0 := by omega
      obtain rfl := some.inj slot
      intro ends
      rw [lfnStep_endOfTable.2 ends] at step
      cases step
    | skip next =>
      rw [step] at found
      cases k with
      | zero =>
        obtain rfl := some.inj slot
        intro ends
        rw [lfnStep_endOfTable.2 ends] at step
        cases step
      | succ k => exact ih found (by omega) slot

theorem scan_marker
    (marked : scan wantName state index slots = .marker j) :
    index ≤ j ∧ ∃ e, slots[j - index]? = some e ∧ e.isEnd := by
  induction slots generalizing state index with
  | nil => cases marked
  | cons first rest ih =>
    rw [scan] at marked
    cases step : lfnStep wantName state (index % 2 ^ 32) first with
    | endOfTable =>
      rw [step] at marked
      obtain rfl := Scan.marker.inj marked
      refine ⟨le_rfl, first, ?_, lfnStep_endOfTable.1 step⟩
      rw [Nat.sub_self]
      rfl
    | entry =>
      rw [step] at marked
      cases marked
    | skip next =>
      rw [step] at marked
      obtain ⟨le, e, slot, ends⟩ := ih marked
      refine ⟨by omega, e, ?_, ends⟩
      rw [show j - index = j - (index + 1) + 1 by omega]
      exact slot

theorem scan_marker_before {k : Nat} {s : FATDirectoryEntryCombo}
    (marked : scan wantName state index slots = .marker j)
    (before : index + k < j) (slot : slots[k]? = some s) : ¬s.isEnd := by
  induction slots generalizing state index k with
  | nil => cases marked
  | cons first rest ih =>
    rw [scan] at marked
    cases step : lfnStep wantName state (index % 2 ^ 32) first with
    | endOfTable =>
      rw [step] at marked
      have := Scan.marker.inj marked
      omega
    | entry =>
      rw [step] at marked
      cases marked
    | skip next =>
      rw [step] at marked
      cases k with
      | zero =>
        obtain rfl := some.inj slot
        intro ends
        rw [lfnStep_endOfTable.2 ends] at step
        cases step
      | succ k => exact ih marked (by omega) slot

theorem scan_exhausted
    (exhausted : scan wantName state index slots = .exhausted) : ∀ e ∈ slots, ¬e.isEnd := by
  induction slots generalizing state index with
  | nil => simp
  | cons first rest ih =>
    rw [scan] at exhausted
    cases step : lfnStep wantName state (index % 2 ^ 32) first with
    | endOfTable | entry =>
      rw [step] at exhausted
      cases exhausted
    | skip next =>
      rw [step] at exhausted
      intro e member
      rcases mem_cons.1 member with rfl | member
      · intro ends
        rw [lfnStep_endOfTable.2 ends] at step
        cases step
      · exact ih exhausted e member

variable {last : FATDirectoryEntryCombo}

theorem scan_ne_exhausted (isLast : slots.getLast? = some last) (live : last.isLive) :
    scan wantName state index slots ≠ .exhausted := by
  induction slots generalizing state index with
  | nil => cases isLast
  | cons first rest ih =>
    rw [scan]
    cases step : lfnStep wantName state (index % 2 ^ 32) first with
    | endOfTable => simp
    | entry => simp
    | skip next =>
      cases rest with
      | nil =>
        have same : first = last := some.inj isLast
        rw [same, lfnStep_entry.2 live] at step
        cases step
      | cons second rest => exact ih (by simpa using isLast)

theorem enumerate_of_not_found
    (none : ∀ state' j e, scan wantName state index slots ≠ .found state' j e) :
    enumerate vol wantName state index slots = [] := by
  induction slots generalizing state index with
  | nil => rfl
  | cons s rest ih =>
    rw [enumerate]
    cases step : lfnStep wantName state (index % 2 ^ 32) s with
    | endOfTable => rfl
    | entry =>
      exact absurd (by rw [scan, step]) (none state index s)
    | skip next =>
      apply ih
      intro state' j e found
      apply none state' j e
      rw [scan, step]
      exact found

namespace Area

/-- The iterator stops where the scan stops. -/
def scanned (vol : FATVolume) (area : Area) (start : Nat) : Scan →
    Option (LFNState × FATDirectoryEntryCombo) × FATDirectoryIterator
  | .exhausted => (none, area.overrun vol start 0)
  | .marker index => (none, area.cursor vol start index)
  | .found state index e => (some (state, e), area.cursor vol start index)

section

variable (accepted : vol.Accepted) (held : area.Holds vol disk start)
  (inside : i < (area.slots vol disk).length)

include accepted held inside

theorem lfnLoop_cursor
    (state : LFNState)
    (enough : (area.slots vol disk).length - i < rounds) :
    lfnLoop vol disk wantName rounds state (area.slots vol disk)[i]? (area.cursor vol start i) =
      pure (area.scanned vol start (scan wantName state i ((area.slots vol disk).drop i))) := by
  induction rounds generalizing i state with
  | zero => omega
  | succ rounds ih =>
    rw [drop_eq_getElem_cons inside, scan, getElem?_eq_getElem inside]
    have index : (area.cursor vol start i).currentIndex = i % 2 ^ 32 := rfl
    rw [lfnLoop, index]
    cases step : lfnStep wantName state (i % 2 ^ 32) (area.slots vol disk)[i] with
    | endOfTable => rfl
    | entry => rfl
    | skip next =>
      simp only [getNextRawEntry_cursor accepted held inside, Run.ofExcept_ok, pure_bind]
      unfold after
      by_cases more : i + 1 < (area.slots vol disk).length
      · rw [if_pos more]
        exact ih more next (by omega)
      · rw [if_neg more, getElem?_eq_none (by omega), drop_eq_nil_of_le (by omega)]
        cases rounds with
        | zero => omega
        | succ rounds => rfl

theorem getNextLFNEntry_cursor
    (enough : (area.slots vol disk).length < rounds) :
    (area.cursor vol start i).getNextLFNEntry vol disk wantName rounds =
      match scan wantName {} i ((area.slots vol disk).drop i) with
      | .exhausted => pure (none, area.overrun vol start 0)
      | .marker index => pure (none, area.cursor vol start index)
      | .found state index e => pure (some (foundEntry vol wantName state (index % 2 ^ 32) e),
          area.after vol disk start index) := by
  unfold getNextLFNEntry
  rw [getCurrentEntry_cursor accepted start inside, ← getElem?_eq_getElem inside,
    lfnLoop_cursor accepted held inside {} (by omega), pure_bind]
  cases result : scan wantName {} i ((area.slots vol disk).drop i) with
  | exhausted => rfl
  | marker index => rfl
  | found state index e =>
    obtain ⟨le, slot, _⟩ := scan_found_index vol result
    have below : index < (area.slots vol disk).length := by
      rw [List.getElem?_drop] at slot
      have := (List.getElem?_eq_some_iff.1 slot).1
      omega
    simp only [scanned, getNextRawEntry_cursor accepted held below, Run.ofExcept_ok, pure_bind]
    rfl

end

section

variable (slots : List FATDirectoryEntryCombo)

/-- An end marker at or after an index. -/
def Marked (i : Nat) : Prop :=
  ∃ m e, i ≤ m ∧ slots[m]? = some e ∧ e.isEnd

/-- The slots end the enumeration: there is an end marker, or the last slot is not
an entry. -/
def Terminated (i : Nat) : Prop :=
  Marked slots i ∨ ∃ e, slots.getLast? = some e ∧ ¬e.isLive

/-- No end marker stands from one index up to another. -/
def Passable (i j : Nat) : Prop :=
  ∀ k s, i ≤ k → k < j → slots[k]? = some s → ¬s.isEnd

end

theorem Passable.trans {k : Nat} (first : Passable slots i j)
    (second : Passable slots j k) : Passable slots i k := by
  intro n s above below
  by_cases before : n < j
  · exact first n s above before
  · exact second n s (by omega) below

theorem Marked.next (marked : Marked slots i)
    (passed : Passable slots i j) : Marked slots j := by
  obtain ⟨m, mark, above, isMark, isEnd⟩ := marked
  refine ⟨m, mark, ?_, isMark, isEnd⟩
  by_contra before
  exact passed m mark above (by omega) isMark isEnd

theorem Terminated.next (ends : Terminated slots i)
    (passed : Passable slots i j) : Terminated slots j :=
  ends.imp_left fun marked => marked.next passed

/-- An entry that was made of a slot. -/
structure StandsAt (slots : List FATDirectoryEntryCombo) (f : FoundEntry) (j : Nat) : Prop where
  endIndex : f.info.endIndex = j % 2 ^ 32
  slot : ∃ e, slots[j]? = some e ∧ e.isLive ∧ e.attribs = f.info.dosAttribs

/-- One call in a directory that ends: the next entry is returned with the
iterator behind it, or there is none and the iterator stands at the end. -/
theorem getNextLFNEntry_terminated (accepted : vol.Accepted) (held : area.Holds vol disk start)
    (inside : i < (area.slots vol disk).length) (ends : Terminated (area.slots vol disk) i)
    (wantName : Bool) (enough : (area.slots vol disk).length < rounds) :
    (enumerate vol wantName {} i ((area.slots vol disk).drop i) = [] ∧ ∃ it,
      (area.cursor vol start i).getNextLFNEntry vol disk wantName rounds = pure (none, it) ∧
      (it = area.overrun vol start 0 ∧ ¬Marked (area.slots vol disk) i ∨
        ∃ m e, i ≤ m ∧ (area.slots vol disk)[m]? = some e ∧ e.isEnd ∧
          Passable (area.slots vol disk) i m ∧ it = area.cursor vol start m)) ∨
    ∃ f j, i ≤ j ∧ j + 1 < (area.slots vol disk).length ∧ StandsAt (area.slots vol disk) f j ∧
      enumerate vol wantName {} i ((area.slots vol disk).drop i) =
        f :: enumerate vol wantName {} (j + 1) ((area.slots vol disk).drop (j + 1)) ∧
      Passable (area.slots vol disk) i (j + 1) ∧
      (area.cursor vol start i).getNextLFNEntry vol disk wantName rounds =
        pure (some f, area.cursor vol start (j + 1)) := by
  rw [getNextLFNEntry_cursor accepted held inside enough]
  cases result : scan wantName {} i ((area.slots vol disk).drop i) with
  | exhausted =>
    refine .inl ⟨enumerate_of_not_found (by simp [result]), _, rfl, .inl ⟨rfl, ?_⟩⟩
    intro marked
    obtain ⟨m, e, le, slot, isEnd⟩ := marked
    apply scan_exhausted result e _ isEnd
    apply mem_of_getElem? (i := m - i)
    rw [List.getElem?_drop, show i + (m - i) = m by omega]
    exact slot
  | marker index =>
    obtain ⟨le, e, slot, isEnd⟩ := scan_marker result
    refine .inl ⟨enumerate_of_not_found (by simp [result]), _, rfl,
      .inr ⟨index, e, le, ?_, isEnd, ?_, rfl⟩⟩
    · rw [List.getElem?_drop, show i + (index - i) = index by omega] at slot
      exact slot
    · intro k s above below slot'
      apply scan_marker_before (k := k - i) result (by omega)
      rw [List.getElem?_drop, show i + (k - i) = k by omega]
      exact slot'
  | found state j e =>
    obtain ⟨le, slot, live, listed⟩ := scan_found_index vol result
    rw [List.getElem?_drop, show i + (j - i) = j by omega] at slot
    have below := (List.getElem?_eq_some_iff.1 slot).1
    have passed : Passable (area.slots vol disk) i (j + 1) := by
      intro k s above below' slot'
      apply scan_found_before (k := k - i) result (by omega)
      rw [List.getElem?_drop, show i + (k - i) = k by omega]
      exact slot'
    have more : j + 1 < (area.slots vol disk).length := by
      rcases ends with marked | ⟨last, isLast, notLive⟩
      · obtain ⟨m, mark, above, isMark, _⟩ := marked.next passed
        have := (List.getElem?_eq_some_iff.1 isMark).1
        omega
      · by_contra within
        rw [getLast?_eq_getElem?, show (area.slots vol disk).length - 1 = j by omega,
          slot] at isLast
        exact notLive (some.inj isLast ▸ live)
    rw [listed, drop_drop, show i + (j + 1 - i) = j + 1 by omega]
    refine .inr ⟨_, j, le, more, ⟨rfl, e, slot, live, rfl⟩, rfl, passed, ?_⟩
    simp only [after, more, if_true]

section

variable (accepted : vol.Accepted) (held : area.Holds vol disk start)

include accepted held

theorem getAllEntries_terminated
    (inside : i < (area.slots vol disk).length) (ends : Terminated (area.slots vol disk) i)
    {calls : Nat} (enough : (area.slots vol disk).length < rounds)
    (enough' : (area.slots vol disk).length - i < calls) :
    (area.cursor vol start i).getAllEntries vol disk rounds calls =
      pure (enumerate vol true {} i ((area.slots vol disk).drop i)) := by
  induction calls generalizing i with
  | zero => omega
  | succ calls ih =>
    rw [getAllEntries]
    rcases getNextLFNEntry_terminated accepted held inside ends true enough with
      ⟨none, it, call, _⟩ | ⟨f, j, le, more, _, listed, passed, call⟩
    · rw [none, call]
      rfl
    · rw [listed, call, pure_bind]
      simp only [ih more (ends.next passed) (by omega)]
      rfl

/-- Over the end of a directory with a live last slot and no marker, nothing ends
the loop. -/
theorem lfnLoop_overrun
    (unmarked : ∀ e ∈ area.slots vol disk, ¬e.isEnd)
    (isLast : (area.slots vol disk).getLast? = some last) (live : last.isLive) {k : Nat}
    (again : k < vol.entriesPerSector) (state : LFNState)
    {result : Option (LFNState × FATDirectoryEntryCombo) × FATDirectoryIterator}
    (ended : lfnLoop vol disk wantName rounds state
      ((area.overrun vol start k).getCurrentEntry vol disk) (area.overrun vol start k) = pure result) :
    ∃ value k', k' < vol.entriesPerSector ∧ result = (some value, area.overrun vol start k') := by
  induction rounds generalizing k state with
  | zero => cases ended
  | succ rounds ih =>
    have positive := length_pos accepted held
    have total : area.length vol * vol.entriesPerSector =
        (area.length vol - 1) * vol.entriesPerSector + vol.entriesPerSector := by
      rw [← Nat.succ_mul]
      congr 1
      omega
    have inside : (area.length vol - 1) * vol.entriesPerSector + k < (area.slots vol disk).length := by
      rw [slots_length]
      omega
    rw [getCurrentEntry_overrun accepted held again, getElem?_eq_getElem inside, lfnLoop] at ended
    split at ended
    · rename_i step
      exact absurd (lfnStep_endOfTable.1 step) (unmarked _ (getElem_mem inside))
    · exact ⟨_, k, again, (Run.pure_inj.1 ended).symm⟩
    · rename_i step
      by_cases more : k + 1 < vol.entriesPerSector
      · rw [getNextRawEntry_overrun accepted more, Run.ofExcept_ok, pure_bind] at ended
        exact ih more _ ended
      · have lastSlot : (area.length vol - 1) * vol.entriesPerSector + k =
            (area.slots vol disk).length - 1 := by
          rw [slots_length]
          omega
        rw [getLast?_eq_getElem?, ← lastSlot, getElem?_eq_getElem inside] at isLast
        rw [some.inj isLast, lfnStep_entry.2 live] at step
        cases step

theorem getAllEntries_unterminated
    (inside : i < (area.slots vol disk).length) (unmarked : ∀ e ∈ area.slots vol disk, ¬e.isEnd) (isLast : (area.slots vol disk).getLast? = some last)
    (live : last.isLive) {calls : Nat} (enough : (area.slots vol disk).length < rounds)
    {entries : List FoundEntry}
    (ended : (area.cursor vol start i).getAllEntries vol disk rounds calls = pure entries) :
    (enumerate vol true {} i ((area.slots vol disk).drop i)).length < entries.length := by
  induction calls generalizing i entries with
  | zero => cases ended
  | succ calls ih =>
    have lastOf (j : Nat) (more : j < (area.slots vol disk).length) :
        ((area.slots vol disk).drop j).getLast? = some last := by
      rw [getLast?_drop, if_neg (by omega), isLast]
    rw [getAllEntries] at ended
    obtain ⟨⟨found, it⟩, call, rest⟩ := Run.bind_eq_pure ended
    rw [getNextLFNEntry_cursor accepted held inside enough] at call
    cases result : scan true {} i ((area.slots vol disk).drop i) with
    | exhausted => exact absurd result (scan_ne_exhausted (lastOf i inside) live)
    | marker index =>
      obtain ⟨_, e, slot, ends⟩ := scan_marker result
      exact absurd ends (unmarked e (mem_of_mem_drop (mem_of_getElem? slot)))
    | found state j e =>
      obtain ⟨le, slot, _, listed⟩ := scan_found_index vol result
      rw [List.getElem?_drop, show i + (j - i) = j by omega] at slot
      have below := (List.getElem?_eq_some_iff.1 slot).1
      rw [listed, drop_drop, show i + (j + 1 - i) = j + 1 by omega]
      rw [result] at call
      obtain ⟨rfl, rfl⟩ := Prod.mk.inj (Run.pure_inj.1 call)
      obtain ⟨tail, others, built⟩ := Run.bind_eq_pure rest
      obtain rfl := Run.pure_inj.1 built
      simp only [length_cons, Nat.add_lt_add_iff_right]
      unfold after at others
      by_cases more : j + 1 < (area.slots vol disk).length
      · rw [if_pos more] at others
        exact ih more others
      · rw [if_neg more] at others
        rw [drop_eq_nil_of_le (by omega)]
        show 0 < tail.length
        cases calls with
        | zero => cases others
        | succ calls =>
          rw [getAllEntries] at others
          obtain ⟨⟨again, it⟩, call', rest'⟩ := Run.bind_eq_pure others
          obtain ⟨⟨stopped, it'⟩, loop, after'⟩ := Run.bind_eq_pure call'
          obtain ⟨value, k, _, same⟩ := lfnLoop_overrun accepted held unmarked isLast live
            (entriesPerSector_pos accepted) {} loop
          obtain ⟨rfl, rfl⟩ := Prod.mk.inj same
          obtain ⟨_, _, built'⟩ := Run.bind_eq_pure after'
          obtain ⟨rfl, _⟩ := Prod.mk.inj (Run.pure_inj.1 built')
          obtain ⟨tail', _, built''⟩ := Run.bind_eq_pure rest'
          rw [← Run.pure_inj.1 built'']
          simp

end

end Area

end PadOS.Fat
