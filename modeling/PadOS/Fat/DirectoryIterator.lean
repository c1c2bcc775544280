import PadOS.Core.Run
import PadOS.Fat.ClusterSectorIterator
import PadOS.Fat.DirectoryEntry

/-! # The directory iterator

`FATDirectoryIterator` shows one slot of a directory at a time. Over an area of
sectors the slots are a list, and an iterator that has not run over the end is an
index into it. One that has keeps the pointer into the last sector.
-/

namespace PadOS.Fat

open Unicode Nat KCacheBlockDesc

variable {vol : FATVolume} {disk : Disk}

def directoryEntrySize : Nat := 32

def FATVolume.entriesPerSector (vol : FATVolume) : Nat := vol.bytesPerSector / directoryEntrySize

/-- Slot `i` of a sector. -/
def Disk.slot (disk : Disk) (sector i : Nat) : FATDirectoryEntryCombo :=
  fun j => disk sector (directoryEntrySize * i + j)

structure FATDirectoryIterator where
  sectorIterator : FATClusterSectorIterator
  startingCluster : Nat
  currentIndex : Nat
  currentBlock : KCacheBlockDesc
  deriving DecidableEq

namespace FATDirectoryIterator

/-- The constructor; it does not look at the result of `Increment`. -/
def create (vol : FATVolume) (disk : Disk) (cluster index : Nat) :
    Except Stop FATDirectoryIterator := do
  let start : FATClusterSectorIterator := { currentCluster := cluster, currentSector := 0 }
  let sectorIterator ←
    if index ≥ vol.entriesPerSector then do
      let (_, it) ← start.increment vol disk (index / vol.entriesPerSector)
      pure it
    else pure start
  let currentBlock ← sectorIterator.getBlock vol
  pure { sectorIterator, startingCluster := cluster, currentIndex := index, currentBlock }

def getCurrentEntry (vol : FATVolume) (disk : Disk) (it : FATDirectoryIterator) :
    Option FATDirectoryEntryCombo :=
  it.currentBlock.buffer.map fun sector => disk.slot sector (it.currentIndex % vol.entriesPerSector)

def releaseCurrentBlock (it : FATDirectoryIterator) : FATDirectoryIterator :=
  if it.currentBlock.buffer.isSome then { it with currentBlock := it.currentBlock.reset } else it

section

variable (vol : FATVolume)

/-- `GetNextRawEntry` when the next slot is in another sector. -/
def enterNextSector (disk : Disk) (it : FATDirectoryIterator) :
    Except Stop (Option FATDirectoryEntryCombo × FATDirectoryIterator) :=
  match it.sectorIterator.increment vol disk 1 with
  | .error stop => .error stop
  | .ok (false, sectorIterator) => .ok (none, { it with sectorIterator })
  | .ok (true, sectorIterator) =>
    match sectorIterator.getBlock vol with
    | .error stop => .error stop
    | .ok currentBlock =>
      let it := { it with sectorIterator, currentBlock }
      .ok (it.getCurrentEntry vol disk, it)

def getNextRawEntry (disk : Disk) (it : FATDirectoryIterator) :
    Except Stop (Option FATDirectoryEntryCombo × FATDirectoryIterator) :=
  if it.currentBlock.buffer.isNone then .ok (none, it)
  else
    let it := { it with currentIndex := (it.currentIndex + 1) % 2 ^ 32 }
    if it.currentIndex % vol.entriesPerSector = 0 then
      it.releaseCurrentBlock.enterNextSector vol disk
    else .ok (it.getCurrentEntry vol disk, it)

/-- The loop of `GetNextLFNEntry`: the state and the slot it stops at, or nothing
at the end of the directory. -/
def lfnLoop (disk : Disk) (wantName : Bool) : Nat → LFNState →
    Option FATDirectoryEntryCombo → FATDirectoryIterator →
    Run (Option (LFNState × FATDirectoryEntryCombo) × FATDirectoryIterator)
  | 0, _, _, _ => Run.unfinished
  | _ + 1, _, none, it => pure (none, it)
  | rounds + 1, state, some buffer, it =>
    match lfnStep wantName state it.currentIndex buffer with
    | .endOfTable => pure (none, it)
    | .entry => pure (some (state, buffer), it)
    | .skip state => do
        let (buffer, it) ← Run.ofExcept (it.getNextRawEntry vol disk)
        lfnLoop disk wantName rounds state buffer it

/-- `GetNextLFNEntry`; nothing is returned for `false`. -/
def getNextLFNEntry (disk : Disk) (wantName : Bool) (rounds : Nat)
    (it : FATDirectoryIterator) : Run (Option FoundEntry × FATDirectoryIterator) := do
  let (found, it) ← lfnLoop vol disk wantName rounds {} (it.getCurrentEntry vol disk) it
  match found with
  | none => return (none, it)
  | some (state, buffer) =>
    let entry := foundEntry vol wantName state it.currentIndex buffer
    let (_, it) ← Run.ofExcept (it.getNextRawEntry vol disk)
    return (some entry, it)

/-- `GetNextLFNEntry` until it returns false. -/
def getAllEntries (disk : Disk) (rounds : Nat) : Nat → FATDirectoryIterator →
    Run (List FoundEntry)
  | 0, _ => Run.unfinished
  | calls + 1, it => do
      let (found, it) ← it.getNextLFNEntry vol disk true rounds
      match found with
      | none => return []
      | some entry => return entry :: (← getAllEntries disk rounds calls it)

end

end FATDirectoryIterator

/-! ## Slots -/

namespace Area

/-- The slots of an area, in the order of the iterator. -/
def slots (vol : FATVolume) (disk : Disk) (area : Area) : List FATDirectoryEntryCombo :=
  (List.range (area.length vol * vol.entriesPerSector)).map fun i =>
    disk.slot (area.sector vol (i / vol.entriesPerSector)) (i % vol.entriesPerSector)

/-- The iterator at a slot. -/
def cursor (vol : FATVolume) (area : Area) (start i : Nat) : FATDirectoryIterator where
  sectorIterator := area.position vol (i / vol.entriesPerSector)
  startingCluster := start
  currentIndex := i % 2 ^ 32
  currentBlock := .of (area.sector vol (i / vol.entriesPerSector))

/-- The iterator `k` slots after it has run over the end. -/
def overrun (vol : FATVolume) (area : Area) (start k : Nat) : FATDirectoryIterator where
  sectorIterator := area.ended vol
  startingCluster := start
  currentIndex := (area.length vol * vol.entriesPerSector + k) % 2 ^ 32
  currentBlock := (of (area.sector vol (area.length vol - 1))).reset

variable {area : Area} {start i k : Nat}

theorem entriesPerSector_cases (accepted : vol.Accepted) : vol.entriesPerSector = 16 ∨
    vol.entriesPerSector = 32 ∨ vol.entriesPerSector = 64 := by
  unfold FATVolume.entriesPerSector directoryEntrySize
  rcases accepted.sectorSize with size | size | size <;> rw [size] <;> decide

theorem entriesPerSector_pos (accepted : vol.Accepted) : 0 < vol.entriesPerSector := by
  rcases entriesPerSector_cases accepted with size | size | size <;> rw [size] <;> decide

theorem mod_entriesPerSector (accepted : vol.Accepted) (i : Nat) :
    i % 2 ^ 32 % vol.entriesPerSector = i % vol.entriesPerSector := by
  apply mod_mod_of_dvd
  rcases entriesPerSector_cases accepted with size | size | size <;> rw [size] <;> decide

@[simp] theorem slots_length : (area.slots vol disk).length = area.length vol * vol.entriesPerSector := by
  simp [slots]

theorem slots_getElem (inside : i < (area.slots vol disk).length) :
    (area.slots vol disk)[i] =
      disk.slot (area.sector vol (i / vol.entriesPerSector)) (i % vol.entriesPerSector) := by
  simp [slots]

theorem sector_inside (inside : i < (area.slots vol disk).length) :
    i / vol.entriesPerSector < area.length vol := by
  rw [slots_length, mul_comm] at inside
  exact Nat.div_lt_of_lt_mul inside

theorem slots_length_pos (accepted : vol.Accepted) (held : area.Holds vol disk start) :
    0 < (area.slots vol disk).length := by
  rw [slots_length]
  exact mul_pos (length_pos accepted held) (entriesPerSector_pos accepted)

theorem start_eq_position (held : area.Holds vol disk start) :
    ({ currentCluster := start, currentSector := 0 } : FATClusterSectorIterator) =
      area.position vol 0 := by
  cases area with
  | fixedRoot =>
    have isRoot : start = 1 := by simpa [isFixedRoot] using held.1
    rw [isRoot]
    rfl
  | chain clusters =>
    have isHead := held.2
    cases clusters with
    | nil => cases isHead
    | cons cluster rest =>
      obtain rfl := Option.some.inj isHead
      simp [position]

theorem create_inside (accepted : vol.Accepted) (held : area.Holds vol disk start)
    (inside : i < (area.slots vol disk).length) (small : i < 2 ^ 32) :
    FATDirectoryIterator.create vol disk start i = .ok (area.cursor vol start i) := by
  have below := sector_inside inside
  have index : i % 2 ^ 32 = i := mod_eq_of_lt small
  unfold FATDirectoryIterator.create cursor
  rw [start_eq_position held, index]
  by_cases far : i ≥ vol.entriesPerSector
  · have moved := increment_inside (p := 0) accepted held (by rw [zero_add]; exact below)
    rw [zero_add] at moved
    simp only [far, if_true, moved]
    simp only [bind, Except.bind, pure, Except.pure, getBlock_position accepted held below]
  · have first : i / vol.entriesPerSector = 0 := div_eq_of_lt (by omega)
    rw [first] at below ⊢
    simp only [far, if_false]
    simp only [bind, Except.bind, pure, Except.pure, getBlock_position accepted held below]

theorem getCurrentEntry_cursor (accepted : vol.Accepted) (start : Nat)
    (inside : i < (area.slots vol disk).length) :
    (area.cursor vol start i).getCurrentEntry vol disk = some (area.slots vol disk)[i] := by
  rw [slots_getElem]
  show some (disk.slot _ (i % 2 ^ 32 % vol.entriesPerSector)) = _
  rw [mod_entriesPerSector accepted]

/-- One slot further, or over the end. -/
def after (vol : FATVolume) (disk : Disk) (area : Area) (start i : Nat) : FATDirectoryIterator :=
  if i + 1 < (area.slots vol disk).length then area.cursor vol start (i + 1)
  else area.overrun vol start 0

theorem succ_div (i : Nat) :
    (i + 1) % k = 0 ∧ (i + 1) / k = i / k + 1 ∨ (i + 1) % k ≠ 0 ∧ (i + 1) / k = i / k := by
  rw [Nat.succ_div]
  by_cases crosses : k ∣ i + 1
  · exact .inl ⟨mod_eq_zero_of_dvd crosses, by rw [if_pos crosses]⟩
  · refine .inr ⟨?_, by rw [if_neg crosses, add_zero]⟩
    intro zero
    exact crosses (dvd_of_mod_eq_zero zero)

theorem next_index (i : Nat) : (i % 2 ^ 32 + 1) % 2 ^ 32 = (i + 1) % 2 ^ 32 := by omega

section

variable (accepted : vol.Accepted)

include accepted

theorem enterNextSector_more (held : area.Holds vol disk start)
    {it : FATDirectoryIterator} {p : Nat} (here : it.sectorIterator = area.position vol p)
    (there : p + 1 < area.length vol) :
    let it' := { it with
      sectorIterator := area.position vol (p + 1), currentBlock := .of (area.sector vol (p + 1)) }
    it.enterNextSector vol disk = .ok (it'.getCurrentEntry vol disk, it') := by
  have moved := increment_inside accepted held there
  unfold FATDirectoryIterator.enterNextSector
  simp only [here, moved, getBlock_position accepted held there]

theorem enterNextSector_last (held : area.Holds vol disk start)
    {it : FATDirectoryIterator} {p : Nat} (here : it.sectorIterator = area.position vol p)
    (last : p + 1 = area.length vol) :
    it.enterNextSector vol disk = .ok (none, { it with sectorIterator := area.ended vol }) := by
  have moved := increment_last accepted held last
  unfold FATDirectoryIterator.enterNextSector
  simp only [here, moved]

theorem last_sector (inside : i < (area.slots vol disk).length)
    (last : ¬i + 1 < (area.slots vol disk).length) :
    i + 1 = area.length vol * vol.entriesPerSector ∧
      i / vol.entriesPerSector + 1 = area.length vol := by
  have total : i + 1 = area.length vol * vol.entriesPerSector := by
    rw [slots_length] at inside last
    omega
  refine ⟨total, ?_⟩
  have quotient : (i + 1) / vol.entriesPerSector = area.length vol := by
    rw [total, Nat.mul_div_cancel _ (entriesPerSector_pos accepted)]
  rcases succ_div (k := vol.entriesPerSector) i with ⟨_, sector⟩ | ⟨stays, _⟩
  · rw [← sector, quotient]
  · rw [total, mul_mod_left] at stays
    exact absurd rfl stays

theorem getNextRawEntry_cursor (held : area.Holds vol disk start)
    (inside : i < (area.slots vol disk).length) :
    (area.cursor vol start i).getNextRawEntry vol disk =
      .ok ((area.slots vol disk)[i + 1]?, area.after vol disk start i) := by
  have next : ((area.cursor vol start i).currentIndex + 1) % 2 ^ 32 = (i + 1) % 2 ^ 32 := next_index i
  have buffer : (area.cursor vol start i).currentBlock.buffer.isSome := rfl
  unfold FATDirectoryIterator.getNextRawEntry after
  rw [if_neg (by simp [cursor, of])]
  simp only [next, mod_entriesPerSector accepted, FATDirectoryIterator.releaseCurrentBlock, buffer,
    if_true]
  by_cases more : i + 1 < (area.slots vol disk).length
  · have entry := getCurrentEntry_cursor accepted start more
    rw [if_pos more, List.getElem?_eq_getElem more, ← entry]
    rcases succ_div (k := vol.entriesPerSector) i with ⟨crosses, sector⟩ | ⟨stays, sector⟩
    · have there := sector_inside more
      rw [sector] at there
      rw [if_pos crosses, enterNextSector_more accepted held rfl there, ← sector]
      rfl
    · rw [if_neg stays, cursor, cursor, sector]
  · obtain ⟨total, last⟩ := last_sector accepted inside more
    have crosses : (i + 1) % vol.entriesPerSector = 0 := by rw [total, mul_mod_left]
    rw [if_pos crosses, enterNextSector_last accepted held rfl last, if_neg more,
      List.getElem?_eq_none (by omega), overrun, ← total, ← last, Nat.add_sub_cancel]
    rfl

/-! Over the end the iterator shows the last sector again. -/

theorem getCurrentEntry_overrun (held : area.Holds vol disk start)
    (again : k < vol.entriesPerSector) :
    (area.overrun vol start k).getCurrentEntry vol disk =
      (area.slots vol disk)[(area.length vol - 1) * vol.entriesPerSector + k]? := by
  have positive := length_pos accepted held
  have inside : (area.length vol - 1) * vol.entriesPerSector + k < (area.slots vol disk).length := by
    have : area.length vol * vol.entriesPerSector =
        (area.length vol - 1) * vol.entriesPerSector + vol.entriesPerSector := by
      rw [← succ_mul]
      congr 1
      omega
    rw [slots_length]
    omega
  rw [List.getElem?_eq_getElem inside, slots_getElem]
  show some (disk.slot _ ((area.length vol * vol.entriesPerSector + k) % 2 ^ 32 %
    vol.entriesPerSector)) = _
  rw [mod_entriesPerSector accepted, mul_comm, mul_add_mod, mod_eq_of_lt again,
    mul_comm (area.length vol - 1), mul_add_div (entriesPerSector_pos accepted),
    div_eq_of_lt again, mul_add_mod, mod_eq_of_lt again, add_zero]

theorem getNextRawEntry_overrun (again : k + 1 < vol.entriesPerSector) :
    (area.overrun vol start k).getNextRawEntry vol disk =
      .ok ((area.overrun vol start (k + 1)).getCurrentEntry vol disk,
        area.overrun vol start (k + 1)) := by
  have next : ((area.overrun vol start k).currentIndex + 1) % 2 ^ 32 =
      (area.length vol * vol.entriesPerSector + (k + 1)) % 2 ^ 32 := next_index _
  unfold FATDirectoryIterator.getNextRawEntry
  rw [if_neg (by simp [overrun, of, reset])]
  simp only [next, mod_entriesPerSector accepted]
  rw [if_neg]
  · rfl
  · rw [mul_comm, mul_add_mod, mod_eq_of_lt again]
    omega

theorem getNextRawEntry_overrun_last (last : k + 1 = vol.entriesPerSector) :
    (area.overrun vol start k).getNextRawEntry vol disk = .error (.throws .io) := by
  have next : ((area.overrun vol start k).currentIndex + 1) % 2 ^ 32 =
      (area.length vol * vol.entriesPerSector + (k + 1)) % 2 ^ 32 := next_index _
  have buffer : (area.overrun vol start k).currentBlock.buffer.isSome := rfl
  unfold FATDirectoryIterator.getNextRawEntry
  rw [if_neg (by simp [overrun, of, reset])]
  simp only [next, mod_entriesPerSector accepted, FATDirectoryIterator.releaseCurrentBlock, buffer,
    if_true]
  rw [if_pos (by rw [last, ← succ_mul, mul_mod_left])]
  unfold FATDirectoryIterator.enterNextSector
  simp only [overrun, increment_ended]

end

end Area

end PadOS.Fat
