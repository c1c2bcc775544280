import PadOS.Fat.Lookup

/-! # Scans without a name

`LoadInode` and `EraseDirectoryEntry` call `GetNextLFNEntry` without a buffer for the
name, lookups with one. The loop without a name leaves out one check of the loop with a
name: the length that the first record of a sequence gives.
-/

namespace PadOS.Fat

open Unicode List Area

variable {vol : FATVolume} {disk : Disk} {it : FATDirectoryIterator} {rounds calls index : Nat}
  {e : FATDirectoryEntryCombo} {state : LFNState}

/-! ## What a call says without the name -/

/-- The state without the name. -/
def LFNState.nameless (state : LFNState) : LFNState :=
  { state with filenameLen := 0, utf16Buffer := fun _ => 0 }

def LFNStep.nameless : LFNStep → LFNStep
  | .skip state => .skip state.nameless
  | step => step

/-- The units of the first record of a sequence, less a terminator. -/
def FATDirectoryEntryCombo.unitCount (e : FATDirectoryEntryCombo) : Nat :=
  let units := e.nameParts.takeWhile (· ≠ 0xffff)
  if units.getLast? = some 0 then units.length - 1 else units.length

/-- The first record of a sequence, with a name that is too long. -/
structure FATDirectoryEntryCombo.OverLong (e : FATDirectoryEntryCombo) : Prop where
  longName : e.isLongName
  reserved1 : e.reserved1 = 0
  reserved2 : e.reserved2 = 0
  starts : e.sequenceNumber &&& 0xe0 = 0x40
  some' : e.sequenceNumber &&& 0x1f ≠ 0
  few : e.sequenceNumber &&& 0x1f ≤ longNameMaxEntryCount
  long : longNameMaxLength < charactersPerLFNEntry * ((e.sequenceNumber &&& 0x1f) - 1) + e.unitCount

/-! ## One step -/

theorem withoutTerminator_begin (buffer : Nat → Nat) {units : List Nat} (some' : units ≠ []) (start : Nat) :
    withoutTerminator (writeUnits buffer start units) (start + units.length) =
      start + if units.getLast? = some 0 then units.length - 1 else units.length := by
  have positive := length_pos_of_ne_nil some'
  have last : writeUnits buffer start units (start + units.length - 1) = units.getLast some' := by
    have place : start + units.length - 1 = start + (units.length - 1) := by omega
    rw [place, writeUnits_inside (by omega) (by omega), Nat.add_sub_cancel_left,
      getD_eq_getElem _ _ (by omega), getLast_eq_getElem]
  unfold withoutTerminator
  rw [last, getLast?_eq_some_getLast some']
  simp only [Option.some.injEq]
  split
  · rename_i isZero
    rw [if_pos isZero.2]
    omega
  · rename_i notZero
    rw [if_neg (fun zero => notZero ⟨by omega, zero⟩)]

theorem begin_length (buffer : Nat → Nat) (few : e.sequenceNumber &&& 0x1f ≤ longNameMaxEntryCount) :
    longNameMaxLength < withoutTerminator
        (writeUnits buffer (charactersPerLFNEntry * ((e.sequenceNumber &&& 0x1f) - 1))
          (e.nameParts.takeWhile (· ≠ 0xffff)))
        (charactersPerLFNEntry * ((e.sequenceNumber &&& 0x1f) - 1) +
          (e.nameParts.takeWhile (· ≠ 0xffff)).length) ↔
      longNameMaxLength < charactersPerLFNEntry * ((e.sequenceNumber &&& 0x1f) - 1) + e.unitCount := by
  unfold FATDirectoryEntryCombo.unitCount
  generalize e.nameParts.takeWhile (· ≠ 0xffff) = units
  generalize e.sequenceNumber &&& 0x1f = count at few ⊢
  by_cases none : units = []
  · subst none
    have start : charactersPerLFNEntry * (count - 1) ≤ longNameMaxLength := by
      unfold charactersPerLFNEntry longNameMaxLength
      unfold longNameMaxEntryCount at few
      omega
    have least : ∀ buffer length, withoutTerminator buffer length ≤ length := by
      intro buffer length
      unfold withoutTerminator
      split <;> omega
    have bounded := least (writeUnits buffer (charactersPerLFNEntry * (count - 1)) [])
      (charactersPerLFNEntry * (count - 1) + ([] : List Nat).length)
    simp only [length_nil, add_zero] at bounded ⊢
    constructor
    · omega
    · intro more
      simp at more
      omega
  · rw [withoutTerminator_begin buffer none]

theorem begin_nameless (plain : ¬e.OverLong) (longName : e.isLongName) (clear : e.reserved1 = 0 ∧ e.reserved2 = 0) :
    (state.begin true index e).nameless = state.nameless.begin false index e := by
  unfold LFNState.begin
  dsimp only
  split
  · rfl
  · rename_i starts
    simp only [not_or, not_not, not_lt] at starts
    rcases starts with ⟨starts, some', few⟩
    simp only [Bool.not_true, Bool.not_false, Bool.false_eq_true, if_false, if_true]
    have short := (begin_length state.utf16Buffer few).not.2 fun long =>
      plain ⟨longName, clear.1, clear.2, starts, some', few, long⟩
    rw [if_neg short]
    rfl

theorem continue_nameless : (state.continue true e).nameless = state.nameless.continue false e := by
  have hash : state.nameless.hash = state.hash := rfl
  have lfnCount : state.nameless.lfnCount = state.lfnCount := rfl
  unfold LFNState.continue
  rw [hash, lfnCount]
  split
  · rfl
  split
  · rfl
  · rfl

/-- The two loops make the same step, unless a first record with a name that is too long is
met while no sequence is in progress. -/
theorem lfnStep_nameless (plain : state.startIndex = noSequence → ¬e.OverLong) :
    lfnStep false state.nameless index e = (lfnStep true state index e).nameless := by
  unfold lfnStep
  split
  · rfl
  split
  · rfl
  split
  · rename_i longName
    split
    · rfl
    rename_i clear
    rw [not_or, not_not, not_not] at clear
    by_cases idle : state.startIndex = noSequence
    · rw [if_pos idle, if_pos (show state.nameless.startIndex = noSequence from idle)]
      exact congrArg LFNStep.skip (begin_nameless (plain idle) longName clear).symm
    · rw [if_neg idle, if_neg (show ¬state.nameless.startIndex = noSequence from idle)]
      exact congrArg LFNStep.skip continue_nameless.symm
  · rfl

/-! ## Repeated calls -/

namespace FATDirectoryIterator

/-- One call: what it says of the entry that it finds. -/
def nextInfo (vol : FATVolume) (disk : Disk) (wantName : Bool) (rounds : Nat) (it : FATDirectoryIterator) :
    Run (Option FATDirectoryEntryInfo × FATDirectoryIterator) := do
  let (found, it) ← it.getNextLFNEntry vol disk wantName rounds
  return (found.map (·.info), it)

/-- Calls one after another. -/
def nextInfos (vol : FATVolume) (disk : Disk) (wantName : Bool) (rounds : Nat) :
    Nat → FATDirectoryIterator → Run (List (Option FATDirectoryEntryInfo) × FATDirectoryIterator)
  | 0, it => pure ([], it)
  | calls + 1, it => do
      let (info, it) ← nextInfo vol disk wantName rounds it
      let (infos, it) ← nextInfos vol disk wantName rounds calls it
      return (info :: infos, it)

/-- What the loop without a name meets. -/
def loopMeets (vol : FATVolume) (disk : Disk) (good : LFNState → FATDirectoryEntryCombo → Prop) :
    Nat → LFNState → Option FATDirectoryEntryCombo → FATDirectoryIterator → Prop
  | 0, _, _, _ => True
  | _ + 1, _, none, _ => True
  | rounds + 1, state, some buffer, it =>
    good state buffer ∧ ∀ state' next, lfnStep false state it.currentIndex buffer = .skip state' →
      it.getNextRawEntry vol disk = .ok next → loopMeets vol disk good rounds state' next.1 next.2

/-- What calls without a name meet, one after another. -/
def callsMeet (vol : FATVolume) (disk : Disk) (good : LFNState → FATDirectoryEntryCombo → Prop) (rounds : Nat) :
    Nat → FATDirectoryIterator → Prop
  | 0, _ => True
  | calls + 1, it => loopMeets vol disk good rounds {} (it.getCurrentEntry vol disk) it ∧
      ∀ r, nextInfo vol disk false rounds it = pure r → callsMeet vol disk good rounds calls r.2

/-- No record that starts a sequence has a name that is too long. -/
def NoOverLong (state : LFNState) (e : FATDirectoryEntryCombo) : Prop :=
  state.startIndex = noSequence → ¬e.OverLong

/-- What a loop ends with, without the name. -/
def namelessEnd (r : Option (LFNState × FATDirectoryEntryCombo) × FATDirectoryIterator) :
    Option (LFNState × FATDirectoryEntryCombo) × FATDirectoryIterator :=
  (r.1.map fun found => (found.1.nameless, found.2), r.2)

theorem lfnLoop_nameless (state : LFNState) {buffer : Option FATDirectoryEntryCombo}
    (meets : loopMeets vol disk NoOverLong rounds state.nameless buffer it) :
    lfnLoop vol disk false rounds state.nameless buffer it = (do
      let r ← lfnLoop vol disk true rounds state buffer it
      return namelessEnd r) := by
  induction rounds generalizing state buffer it with
  | zero => rfl
  | succ rounds ih =>
    cases buffer with
    | none => rfl
    | some buffer =>
      rcases meets with ⟨plain, rest⟩
      have same : lfnStep false state.nameless it.currentIndex buffer =
          (lfnStep true state it.currentIndex buffer).nameless := lfnStep_nameless plain
      rw [lfnLoop, lfnLoop, same]
      rw [same] at rest
      cases step : lfnStep true state it.currentIndex buffer with
      | endOfTable => rfl
      | entry => rfl
      | skip state' =>
        rw [step] at rest
        dsimp only [LFNStep.nameless] at rest ⊢
        rcases moved : it.getNextRawEntry vol disk with stop | next
        · rfl
        · have later := ih state' (rest _ next rfl moved)
          show lfnLoop vol disk false rounds state'.nameless next.1 next.2 = _
          rw [later]
          rfl

theorem nextInfo_nameless
    (meets : loopMeets vol disk NoOverLong rounds {} (it.getCurrentEntry vol disk) it) :
    nextInfo vol disk false rounds it = nextInfo vol disk true rounds it := by
  have loops : lfnLoop vol disk false rounds {} (it.getCurrentEntry vol disk) it = (do
      let r ← lfnLoop vol disk true rounds {} (it.getCurrentEntry vol disk) it
      return namelessEnd r) := lfnLoop_nameless {} meets
  unfold nextInfo getNextLFNEntry
  rw [loops]
  simp only [bind_assoc, pure_bind]
  congr 1
  funext r
  rcases r with ⟨_ | ⟨state, e⟩, it'⟩
  · rfl
  · simp only [namelessEnd, Option.map_some, bind_assoc, pure_bind]
    rfl

theorem nextInfos_nameless (meets : callsMeet vol disk NoOverLong rounds calls it) :
    nextInfos vol disk false rounds calls it = nextInfos vol disk true rounds calls it := by
  induction calls generalizing it with
  | zero => rfl
  | succ calls ih =>
    have same := nextInfo_nameless meets.1
    rw [nextInfos, nextInfos, ← same]
    apply Run.bind_congr_of_ended
    intro r ended
    dsimp only
    rw [ih (meets.2 r ended)]

end FATDirectoryIterator

/-! ## Records that disagree -/

namespace FATDirectoryEntryCombo

/-- A later record of a sequence, without characters. -/
def bareRecord (hash : UInt8) (sequence : Nat) : FATDirectoryEntryCombo := fun j =>
  if j = 0 then UInt8.ofNat sequence else if j = 0x0b then 0x0f else if j = 0x0d then hash else 0

/-- The later records of a sequence. -/
def bareRecords (hash : UInt8) : Nat → List FATDirectoryEntryCombo
  | 0 => []
  | left + 1 => bareRecord hash (left + 1) :: bareRecords hash left

/-- An 8.3 entry with a hash. -/
def shortWithHash (hash : UInt8) : FATDirectoryEntryCombo := fun j =>
  if j < 10 then 0x41 else if j = 10 then hash - 0xdb else 0

/-- The records of a first one, and their entry. -/
def completed (e : FATDirectoryEntryCombo) : List FATDirectoryEntryCombo :=
  e :: (bareRecords (e 0x0d) ((e.sequenceNumber &&& 0x1f) - 1) ++ [shortWithHash (e 0x0d)])

theorem hash_shortWithHash (hash : UInt8) : hashMSDOSName (shortWithHash hash).filename = hash.toNat := by
  have small := hash.toNat_lt
  have name : (shortWithHash hash).filename = replicate 10 0x41 ++ [hash - 0xdb] := rfl
  have last : hashMSDOSName (shortWithHash hash).filename = (23515 + (hash - 0xdb).toNat) % 0x100 := by
    rw [name, hashMSDOSName, foldl_append]
    rfl
  rw [last, UInt8.toNat_sub]
  show (23515 + (2 ^ 8 - 0xdb + hash.toNat) % 2 ^ 8) % 0x100 = hash.toNat
  omega

theorem shortWithHash_isLive (hash : UInt8) : (shortWithHash hash).isLive := by
  simp [isLive, isEnd, isErased, isLongName, sequenceNumber, attribs, shortWithHash, longNameAttributes]

variable {hash : UInt8} {sequence left : Nat} {rest : List FATDirectoryEntryCombo}

theorem bareRecord_number (hash : UInt8) (small : sequence < 32) : (bareRecord hash sequence).sequenceNumber = sequence := by
  show (UInt8.ofNat sequence).toNat = sequence
  rw [UInt8.toNat_ofNat']
  omega

theorem lfnStep_bareRecord (wantName : Bool) (some' : 0 < sequence) (small : sequence < 32) :
    lfnStep wantName state index (bareRecord hash sequence) =
      .skip (if state.startIndex = noSequence then state.begin wantName index (bareRecord hash sequence)
        else state.continue wantName (bareRecord hash sequence)) := by
  have number := bareRecord_number hash small
  have ends : ¬(bareRecord hash sequence).isEnd := by
    unfold isEnd
    rw [number, beq_iff_eq]
    omega
  have erased : ¬(bareRecord hash sequence).isErased := by
    unfold isErased
    rw [number, beq_iff_eq]
    omega
  have longName : (bareRecord hash sequence).isLongName := by
    simp [isLongName, attribs, bareRecord, longNameAttributes, longNameAttributeMask]
  have clear : ¬((bareRecord hash sequence).reserved1 ≠ 0 ∨ (bareRecord hash sequence).reserved2 ≠ 0) := by
    rintro (impossible | impossible) <;> exact impossible rfl
  unfold lfnStep
  rw [if_neg ends, if_neg erased, if_pos longName, if_neg clear]
  split <;> rfl

theorem scan_bareRecords_idle (wantName : Bool) (idle : state.startIndex = noSequence) (few : left < 32)
    (index : Nat) : scan wantName state index (bareRecords hash left ++ rest) =
      scan wantName state (index + left) rest := by
  induction left generalizing index with
  | zero => rfl
  | succ left ih =>
    have number := bareRecord_number hash few
    have passed : ∀ i, state.begin wantName i (bareRecord hash (left + 1)) = state := by
      intro i
      unfold LFNState.begin
      rw [if_pos]
      left
      rw [number]
      have masked : ∀ sequence < 32, sequence &&& 0xe0 = 0 := by decide
      rw [masked _ few]
      decide
    rw [bareRecords, cons_append, scan, lfnStep_bareRecord wantName (Nat.succ_pos left) few, if_pos idle,
      passed]
    dsimp only
    rw [ih (by omega), Nat.add_right_comm, add_assoc]

theorem scan_bareRecords (going : state.startIndex ≠ noSequence) (same : state.hash = hash.toNat)
    (next : state.lfnCount = left + 1) (few : left < 32) (index : Nat) :
    scan false state index (bareRecords hash left ++ rest) =
      scan false { state with lfnCount := 1 } (index + left) rest := by
  induction left generalizing state index with
  | zero =>
    have done : { state with lfnCount := 1 } = state := by
      cases state
      cases next
      rfl
    rw [done]
    rfl
  | succ left ih =>
    have number := bareRecord_number hash few
    have continued : state.continue false (bareRecord hash (left + 1)) = { state with lfnCount := left + 1 } := by
      unfold LFNState.continue
      rw [if_neg (by rw [same]; exact fun impossible => impossible rfl), if_neg (by rw [number, next]; omega), next]
      rfl
    rw [bareRecords, cons_append, scan, lfnStep_bareRecord false (Nat.succ_pos left) few, if_neg going,
      continued]
    dsimp only
    have going' : ({ state with lfnCount := left + 1 } : LFNState).startIndex ≠ noSequence := going
    rw [ih going' same rfl (by omega), Nat.add_right_comm, add_assoc]

section

variable (long : e.OverLong)

include long

theorem OverLong.lfnStep (wantName : Bool) (idle : state.startIndex = noSequence) :
    Fat.lfnStep wantName state index e = .skip (state.begin wantName index e) := by
  have starts := long.starts
  have ends : ¬e.isEnd := by
    unfold isEnd
    rw [beq_iff_eq]
    intro zero
    rw [zero] at starts
    cases starts
  have erased : ¬e.isErased := by
    unfold isErased
    rw [beq_iff_eq]
    intro mark
    rw [mark] at starts
    cases starts
  have clear : ¬(e.reserved1 ≠ 0 ∨ e.reserved2 ≠ 0) := by
    rw [not_or, not_not, not_not]
    exact ⟨long.reserved1, long.reserved2⟩
  unfold Fat.lfnStep
  rw [if_neg ends, if_neg erased, if_pos long.longName, if_neg clear, if_pos idle]

theorem OverLong.not_invalid : ¬(e.sequenceNumber &&& 0xe0 ≠ 0x40 ∨
    e.sequenceNumber &&& 0x1f = 0 ∨ e.sequenceNumber &&& 0x1f > longNameMaxEntryCount) := by
  have few := long.few
  simp only [not_or, not_not, not_lt]
  exact ⟨long.starts, long.some', few⟩

theorem OverLong.begin_nameless : state.begin false index e =
    { state with hash := e.hash, lfnCount := e.sequenceNumber &&& 0x1f, startIndex := index } := by
  unfold LFNState.begin
  dsimp only
  rw [if_neg long.not_invalid]
  rfl

theorem OverLong.begin_named : (state.begin true index e).startIndex = noSequence := by
  unfold LFNState.begin
  dsimp only
  rw [if_neg long.not_invalid]
  exact if_pos ((begin_length state.utf16Buffer long.few).2 long.long)

theorem OverLong.scan_nameless (rest : List FATDirectoryEntryCombo) :
    ∃ state, scan false {} 0 (completed e ++ rest) =
        .found state (e.sequenceNumber &&& 0x1f) (shortWithHash (e 0x0d)) ∧
      state.startIndex = 0 ∧ state.lfnCount = 1 ∧ state.hash = (e 0x0d).toNat := by
  have few := long.few
  have some' := Nat.pos_of_ne_zero long.some'
  unfold longNameMaxEntryCount at few
  rw [completed, cons_append, append_assoc, scan, long.lfnStep false rfl, long.begin_nameless]
  dsimp only
  have count : e.sequenceNumber &&& 0x1f = ((e.sequenceNumber &&& 0x1f) - 1) + 1 := by omega
  have going : 0 % 2 ^ 32 ≠ noSequence := by decide
  rw [scan_bareRecords going rfl count (by omega), singleton_append, scan,
    lfnStep_entry.2 (shortWithHash_isLive _)]
  have index : 0 + 1 + ((e.sequenceNumber &&& 0x1f) - 1) = e.sequenceNumber &&& 0x1f := by omega
  rw [index]
  exact ⟨_, rfl, rfl, rfl, rfl⟩

theorem OverLong.scan_named (rest : List FATDirectoryEntryCombo) :
    ∃ state, scan true {} 0 (completed e ++ rest) =
        .found state (e.sequenceNumber &&& 0x1f) (shortWithHash (e 0x0d)) ∧
      state.startIndex = noSequence := by
  have few := long.few
  have some' := Nat.pos_of_ne_zero long.some'
  unfold longNameMaxEntryCount at few
  rw [completed, cons_append, append_assoc, scan, long.lfnStep true rfl]
  dsimp only
  rw [scan_bareRecords_idle true long.begin_named (by omega), singleton_append, scan,
    lfnStep_entry.2 (shortWithHash_isLive _)]
  have index : 0 + 1 + ((e.sequenceNumber &&& 0x1f) - 1) = e.sequenceNumber &&& 0x1f := by omega
  rw [index]
  exact ⟨_, rfl, long.begin_named⟩

end

end FATDirectoryEntryCombo

section

variable (slots : List FATDirectoryEntryCombo)

/-- A floppy with slots in its root. -/
def floppyWithSlots : Disk := fun sector byte =>
  slots.getD (16 * (sector - floppy.rootStart) + byte / directoryEntrySize) (fun _ => 0) (Fin.ofNat 32 byte)

theorem floppyWithSlots_slots (few : slots.length ≤ 224) :
    ∃ rest, fixedRoot.slots floppy (floppyWithSlots slots) = slots ++ rest := by
  have length : (fixedRoot.slots floppy (floppyWithSlots slots)).length = 224 := by
    rw [slots_length]
    rfl
  refine ⟨(fixedRoot.slots floppy (floppyWithSlots slots)).drop slots.length, ?_⟩
  have front : (fixedRoot.slots floppy (floppyWithSlots slots)).take slots.length = slots := by
    apply ext_getElem
    · rw [length_take, length]
      omega
    · intro i inside inside'
      rw [getElem_take, slots_getElem]
      funext j
      have below := j.isLt
      have slot : 16 * (19 + i / 16 - 19) + (32 * (i % 16) + j.val) / 32 = i := by omega
      have byte : Fin.ofNat 32 (32 * (i % 16) + j.val) = j := by
        apply Fin.ext
        show (32 * (i % 16) + j.val) % 32 = j.val
        omega
      show slots.getD (16 * (19 + i / 16 - 19) + (32 * (i % 16) + j.val) / 32) _
        (Fin.ofNat 32 (32 * (i % 16) + j.val)) = _
      rw [slot, byte, getD_eq_getElem _ _ inside']
  conv_lhs => rw [← take_append_drop slots.length (fixedRoot.slots floppy (floppyWithSlots slots)), front]

/-- The start of an entry that a call finds on a floppy. -/
def FirstStart (wantName : Bool) (start : Nat) : Prop :=
  ∃ info it, (fixedRoot.cursor floppy 1 0).nextInfos floppy (floppyWithSlots slots) wantName 225 1 =
    pure ([some info], it) ∧ info.startIndex = start

end

theorem firstStart_of_scan {slots : List FATDirectoryEntryCombo} (few : slots.length ≤ 224) {wantName : Bool}
    {start : Nat} (found : ∀ rest, ∃ state, scan wantName {} 0 (slots ++ rest) = .found state index e ∧
      (foundEntry floppy wantName state (index % 2 ^ 32) e).info.startIndex = start) :
    FirstStart slots wantName start := by
  have accepted := accepted_of_readSuperBlock readSuperBlock_floppy
  have held := floppyRoot_holds (floppyWithSlots slots)
  rcases floppyWithSlots_slots slots few with ⟨rest, all⟩
  rcases found rest with ⟨state, scanned, starts⟩
  have length : (fixedRoot.slots floppy (floppyWithSlots slots)).length < 225 := by
    rw [slots_length]
    decide
  have call : (fixedRoot.cursor floppy 1 0).getNextLFNEntry floppy (floppyWithSlots slots) wantName 225 =
      _ := getNextLFNEntry_cursor accepted held (slots_length_pos accepted held) length
  rw [drop_zero, all, scanned] at call
  refine ⟨_, fixedRoot.after floppy (floppyWithSlots slots) 1 index, ?_, starts⟩
  rw [FATDirectoryIterator.nextInfos, FATDirectoryIterator.nextInfo, call]
  rfl

theorem FATDirectoryEntryCombo.OverLong.completed_length (long : e.OverLong) : e.completed.length ≤ 224 := by
  have few := long.few
  unfold longNameMaxEntryCount at few
  have records : ∀ left, (bareRecords (e 0x0d) left).length = left := by
    intro left
    induction left with
    | zero => rfl
    | succ left ih => rw [bareRecords, length_cons, ih]
  rw [completed, length_cons, length_append, records]
  simp only [length_singleton]
  omega

/-- The entry behind the records of a name that is too long starts at its first record
without a name, and at itself with one. -/
theorem FATDirectoryEntryCombo.OverLong.nextInfos_ne (long : e.OverLong) :
    (fixedRoot.cursor floppy 1 0).nextInfos floppy (floppyWithSlots e.completed) false 225 1 ≠
      (fixedRoot.cursor floppy 1 0).nextInfos floppy (floppyWithSlots e.completed) true 225 1 := by
  have some' := long.some'
  have small := long.few
  unfold longNameMaxEntryCount at small
  have few := long.completed_length
  have unnamed : FirstStart e.completed false 0 := firstStart_of_scan few fun rest => by
    rcases long.scan_nameless rest with ⟨state, scanned, start, count, hash⟩
    refine ⟨state, scanned, ?_⟩
    have isLong : (state.startIndex ≠ noSequence ∧ state.lfnCount = 1) ∧
        hashMSDOSName (shortWithHash (e 0x0d)).filename = state.hash := by
      rw [start, count, hash, hash_shortWithHash]
      exact ⟨⟨by decide, rfl⟩, rfl⟩
    show (if _ then state.startIndex else _) = 0
    rw [if_pos isLong, start]
  have named : FirstStart e.completed true (e.sequenceNumber &&& 0x1f) := firstStart_of_scan few fun rest => by
    rcases long.scan_named rest with ⟨state, scanned, start⟩
    refine ⟨state, scanned, ?_⟩
    have notLong : ¬((state.startIndex ≠ noSequence ∧ state.lfnCount = 1) ∧
        hashMSDOSName (shortWithHash (e 0x0d)).filename = state.hash) := fun isLong => isLong.1.1 start
    show (if _ then state.startIndex else _) = _
    rw [if_neg notLong]
    omega
  rcases unnamed with ⟨info, it, call, start⟩
  rcases named with ⟨info', it', call', start'⟩
  rw [call, call']
  intro same
  have same := (Prod.mk.inj (Run.pure_inj.1 same)).1
  obtain rfl := Option.some.inj (cons.inj same).1
  omega

/-- Calls with and without a name say the same in every run that meets no record with a name
that is too long where a sequence may start. Each such record is the first slot of a
directory of which they do not say the same. -/
theorem nextInfos_agree (vol : FATVolume) (disk : Disk) (rounds calls : Nat) (it : FATDirectoryIterator)
    (e : FATDirectoryEntryCombo) :
    (it.callsMeet vol disk FATDirectoryIterator.NoOverLong rounds calls →
      it.nextInfos vol disk false rounds calls = it.nextInfos vol disk true rounds calls) ∧
    (e.OverLong → ∃ disk', (fixedRoot.slots floppy disk').head? = some e ∧
      (fixedRoot.cursor floppy 1 0).nextInfos floppy disk' false 225 1 ≠
        (fixedRoot.cursor floppy 1 0).nextInfos floppy disk' true 225 1) := by
  constructor
  · exact FATDirectoryIterator.nextInfos_nameless
  · intro long
    refine ⟨floppyWithSlots e.completed, ?_, long.nextInfos_ne⟩
    rcases floppyWithSlots_slots e.completed long.completed_length with ⟨rest, all⟩
    rw [all]
    rfl

/-- The first of 20 records, with 13 units. -/
def longStart : FATDirectoryEntryCombo := fun j =>
  if j = 0 then 0x54 else if j = 0x0b then 0x0f
  else if j = 0x0c ∨ j = 0x0d ∨ j = 0x1a ∨ j = 0x1b then 0 else 0x41

theorem longStart_overLong : longStart.OverLong := ⟨by decide, by decide, by decide, by decide, by decide,
  by decide, by decide +kernel⟩

/-- The entry behind the records is found with another start index. -/
theorem not_nextInfos_always : ¬∀ (bytesRead : Nat) (sb : FATSuperBlock) (vol : FATVolume) (disk : Disk)
    (cluster index rounds calls : Nat) (it : FATDirectoryIterator), readSuperBlock bytesRead sb = .ok vol →
    FATDirectoryIterator.create vol disk cluster index = .ok it →
    it.nextInfos vol disk false rounds calls = it.nextInfos vol disk true rounds calls := by
  intro always
  have accepted := accepted_of_readSuperBlock readSuperBlock_floppy
  have held := floppyRoot_holds (floppyWithSlots longStart.completed)
  have created := create_inside accepted held (slots_length_pos accepted held) (by decide)
  exact longStart_overLong.nextInfos_ne
    (always 512 floppySector floppy _ 1 0 225 1 _ readSuperBlock_floppy created)

end PadOS.Fat
