import PadOS.Core.ByteOrder
import PadOS.Core.RingBuffer

/-! # Directory records in a buffer

`PDirEntryWriter` packs names into records that `PDirEntryIterator` walks over. The lengths are
stored in fields of `dirent_t`, and the iterator checks them again at each record.
-/

namespace PadOS.Storage

open ByteOrder RingBuffer List Option

/-- What the C library says of `dirent_t`: where its two lengths are, where `d_name` starts and
how it is aligned. Both lengths have room for 16 bits. -/
structure DirentFormat where
  reclenOffset : Nat
  reclenSize : Nat
  namlenOffset : Nat
  namlenSize : Nat
  headerSize : Nat
  alignment : Nat
  reclenInside : reclenOffset + reclenSize ≤ headerSize
  namlenInside : namlenOffset + namlenSize ≤ headerSize
  apart : reclenOffset + reclenSize ≤ namlenOffset ∨ namlenOffset + namlenSize ≤ reclenOffset
  reclenWide : 2 ≤ reclenSize
  namlenWide : 2 ≤ namlenSize
  positive : 0 < alignment
  short : headerSize < 0xffff

/-- An inode number, two 16-bit lengths and a type. -/
instance : Inhabited DirentFormat where
  default :=
    { reclenOffset := 8, reclenSize := 2, namlenOffset := 10, namlenSize := 2, headerSize := 13
      alignment := 8, reclenInside := by decide, namlenInside := by decide, apart := by decide
      reclenWide := by decide, namlenWide := by decide, positive := Nat.succ_pos _, short := by decide }

abbrev Memory := Nat → UInt8

def load (memory : Memory) (address size : Nat) : List UInt8 :=
  (range size).map fun i => memory (address + i)

section Memory

variable {memory memory' : Memory} {address start size number : Nat} {bytes : List UInt8}

theorem load_congr (same : ∀ i < size, memory' (address + i) = memory (address + i)) :
    load memory' address size = load memory address size :=
  map_congr_left fun i member => same i (mem_range.mp member)

theorem load_memcpy (whole : bytes.length = size) : load (memcpy memory address bytes) address size = bytes := by
  subst whole
  apply ext_getElem
  · simp [load]
  · intro i _ inside
    simp only [load, getElem_map, getElem_range]
    exact memcpy_inside inside

theorem load_memcpy_outside (outside : address + size ≤ start ∨ start + bytes.length ≤ address) :
    load (memcpy memory start bytes) address size = load memory address size := by
  apply load_congr
  intro i inside
  apply memcpy_outside
  omega

theorem memcpy_first (some_ : 0 < size) (byte : UInt8) :
    memcpy memory address (replicate size byte) address = byte := by
  have first := @memcpy_inside _ address memory (replicate size byte) 0 (by simpa using some_)
  rw [getElem_replicate] at first
  exact first

theorem littleEndian_stored (fits : number < 2 ^ 16) (wide : 2 ≤ size) :
    littleEndian (toBytes size number) = number := by
  rw [littleEndian_toBytes]
  apply Nat.mod_eq_of_lt
  have least : 2 ^ 16 ≤ 2 ^ (8 * size) := Nat.pow_le_pow_right (by decide) (by omega)
  omega

end Memory

namespace DirentFormat

variable {format : DirentFormat} {n : Nat}

/-- `PGetDirEntryRecordSize`; to round up is to cut off the lower bits. -/
def recordSize (format : DirentFormat) (nameLength : Nat) : Nat :=
  let maxRecordSize := 0xffff
  if nameLength > maxRecordSize - format.headerSize - 1 then 0
  else
    let unalignedSize := format.headerSize + nameLength + 1
    let recordSize := (unalignedSize + format.alignment - 1) / format.alignment * format.alignment
    if recordSize ≤ maxRecordSize then recordSize else 0

theorem recordSize_spec (accepted : format.recordSize n ≠ 0) :
    format.headerSize + n + 1 ≤ format.recordSize n ∧ format.recordSize n ≤ 0xffff ∧
      format.recordSize n % format.alignment = 0 := by
  have positive := format.positive
  unfold recordSize at accepted ⊢
  dsimp only at accepted ⊢
  split at accepted
  · exact absurd rfl accepted
  · split at accepted
    · rename_i fits
      simp only [*, if_true, if_false]
      refine ⟨?_, trivial, Nat.mul_mod_left _ _⟩
      have rounded := Nat.div_add_mod (format.headerSize + n + 1 + format.alignment - 1) format.alignment
      have below := Nat.mod_lt (format.headerSize + n + 1 + format.alignment - 1) positive
      rw [mul_comm] at rounded
      omega
    · exact absurd rfl accepted

end DirentFormat

/-! ## `PDirEntryWriter` -/

structure PDirEntryWriter where
  buffer : Option Nat
  bufferSize : Nat
  bytesWritten : Nat := 0

namespace PDirEntryWriter

def getRemainingSize (w : PDirEntryWriter) : Nat := w.bufferSize - w.bytesWritten

/-- The stores of a call of `AddEntry` that is not refused. -/
def store (format : DirentFormat) (recordBuffer : Nat) (name : List UInt8) (memory : Memory) : Memory :=
  let recordSize := format.recordSize name.length
  let memory := memcpy memory recordBuffer (replicate format.headerSize 0)
  let memory := memcpy memory (recordBuffer + format.reclenOffset) (toBytes format.reclenSize recordSize)
  let memory := memcpy memory (recordBuffer + format.namlenOffset) (toBytes format.namlenSize name.length)
  let nameBuffer := recordBuffer + format.headerSize
  let memory := memcpy memory nameBuffer name
  memcpy memory (nameBuffer + name.length)
    (replicate (recordSize - format.headerSize - name.length) 0)

/-- `AddEntry`: whether the name is added, and what the call leaves. -/
def addEntry (format : DirentFormat) (name : Option (List UInt8)) (w : PDirEntryWriter)
    (memory : Memory) : Bool × PDirEntryWriter × Memory :=
  match w.buffer, name with
  | some buffer, some name =>
    let recordSize := format.recordSize name.length
    if buffer % format.alignment ≠ 0 ∨ recordSize = 0 ∨ recordSize > w.getRemainingSize then
      (false, w, memory)
    else
      (true, { w with bytesWritten := w.bytesWritten + recordSize },
        store format (buffer + w.bytesWritten) name memory)
  | _, _ => (false, w, memory)

/-- One call after the other: the names that were added, and what the calls leave. -/
def addEntries (format : DirentFormat) :
    List (Option (List UInt8)) → PDirEntryWriter → Memory → List (List UInt8) × PDirEntryWriter × Memory
  | [], w, memory => ([], w, memory)
  | name :: calls, w, memory =>
    match addEntry format name w memory with
    | (added, w, memory) =>
      match addEntries format calls w memory with
      | (names, result) => ((if added then name.toList else []) ++ names, result)

end PDirEntryWriter

/-! ## `PDirEntryIterator` -/

structure PDirEntryIterator where
  current : Option Nat
  remainingSize : Nat
  deriving DecidableEq

/-- What a client reads of an entry. -/
structure EntryRead where
  namlen : Nat
  name : List UInt8
  terminator : UInt8
  deriving DecidableEq

namespace PDirEntryIterator

section

variable (format : DirentFormat)

variable (memory : Memory)

def reclen (current : Nat) : Nat :=
  littleEndian (load memory (current + format.reclenOffset) format.reclenSize)

def namlen (current : Nat) : Nat :=
  littleEndian (load memory (current + format.namlenOffset) format.namlenSize)

/-- `operator bool`. -/
def isValid (it : PDirEntryIterator) : Bool :=
  match it.current with
  | none => false
  | some current =>
    if it.remainingSize < format.headerSize ∨ current % format.alignment ≠ 0 then false
    else
      let recordSize := reclen format memory current
      recordSize ≥ format.headerSize + 1 && recordSize ≤ it.remainingSize &&
        namlen format memory current + 1 ≤ recordSize - format.headerSize

/-- `operator++`. -/
def next (it : PDirEntryIterator) : PDirEntryIterator :=
  match it.current with
  | none => ⟨none, 0⟩
  | some current =>
    if it.remainingSize ≥ format.headerSize ∧ current % format.alignment = 0 then
      let recordSize := reclen format memory current
      if recordSize ≥ format.headerSize + 1 ∧ recordSize ≤ it.remainingSize then
        ⟨some (current + recordSize), it.remainingSize - recordSize⟩
      else ⟨none, 0⟩
    else ⟨none, 0⟩

def read (it : PDirEntryIterator) : EntryRead :=
  let current := it.current.getD 0
  { namlen := namlen format memory current
    name := load memory (current + format.headerSize) (namlen format memory current)
    terminator := memory (current + format.headerSize + namlen format memory current) }

end

section

variable {format : DirentFormat} {memory : Memory} {it : PDirEntryIterator}

theorem isValid_iff : it.isValid format memory ↔ ∃ current, it.current = some current ∧
    current % format.alignment = 0 ∧ format.headerSize + 1 ≤ reclen format memory current ∧
      reclen format memory current ≤ it.remainingSize ∧
      format.headerSize + namlen format memory current + 1 ≤ reclen format memory current := by
  unfold isValid
  cases it.current with
  | none => simp
  | some current =>
    simp only [some.injEq, exists_eq_left']
    split
    · simp only [Bool.false_eq_true, false_iff]
      omega
    · simp only [Bool.and_eq_true, decide_eq_true_eq]
      omega

theorem next_of_isValid {current : Nat} (here : it.current = some current)
    (valid : it.isValid format memory) : it.next format memory =
      ⟨some (current + reclen format memory current), it.remainingSize - reclen format memory current⟩ := by
  obtain ⟨current', here', aligned, least, most, _⟩ := isValid_iff.mp valid
  obtain rfl := some.inj (here.symm.trans here')
  unfold next
  rw [here]
  dsimp only
  rw [if_pos ⟨by omega, aligned⟩, if_pos ⟨least, most⟩]

theorem next_less (valid : it.isValid format memory) :
    (it.next format memory).remainingSize < it.remainingSize := by
  obtain ⟨current, here, _, least, most, _⟩ := isValid_iff.mp valid
  rw [next_of_isValid here valid]
  dsimp only
  omega

/-- The loop over the entries: what is read, and the iterator behind the last one. -/
def readAll (format : DirentFormat) (memory : Memory) (it : PDirEntryIterator) :
    List EntryRead × PDirEntryIterator :=
  if _valid : it.isValid format memory then
    match readAll format memory (it.next format memory) with
    | (entries, last) => (it.read format memory :: entries, last)
  else ([], it)
termination_by it.remainingSize
decreasing_by exact next_less _valid

/-- The entry, with the byte behind its name, is in the buffer. -/
structure InBuffer (format : DirentFormat) (memory : Memory) (buffer size : Nat)
    (it : PDirEntryIterator) : Prop where
  start : buffer ≤ it.current.getD 0
  header : it.current.getD 0 + format.headerSize ≤ buffer + size
  terminator : it.current.getD 0 + format.headerSize + namlen format memory (it.current.getD 0) < buffer + size

theorem iterate_inside (buffer size n : Nat) :
    let it := (next format memory)^[n] ⟨some buffer, size⟩
    (∀ current, it.current = some current → buffer ≤ current ∧ current + it.remainingSize = buffer + size) := by
  induction n with
  | zero =>
    intro it current here
    cases here
    exact ⟨le_rfl, rfl⟩
  | succ n ih =>
    rw [Function.iterate_succ_apply']
    generalize (next format memory)^[n] ⟨some buffer, size⟩ = it at ih
    intro after current here
    unfold after next at here
    split at here
    · cases here
    · rename_i old isOld
      obtain ⟨start, stop⟩ := ih old isOld
      split at here
      · dsimp only at here
        split at here
        · rename_i room whole
          cases here
          have moved : after = ⟨some (old + reclen format memory old),
              it.remainingSize - reclen format memory old⟩ := by
            unfold after next
            rw [isOld]
            dsimp only
            rw [if_pos room, if_pos whole]
          rw [moved]
          dsimp only
          omega
        · cases here
      · cases here

theorem inBuffer_of_isValid (buffer size n : Nat)
    (valid : ((next format memory)^[n] ⟨some buffer, size⟩).isValid format memory) :
    InBuffer format memory buffer size ((next format memory)^[n] ⟨some buffer, size⟩) := by
  obtain ⟨current, here, _, least, most, room⟩ := isValid_iff.mp valid
  obtain ⟨start, stop⟩ := iterate_inside buffer size n current here
  constructor <;> rw [here, getD_some] <;> omega

theorem iterate_ends (it : PDirEntryIterator) :
    ∃ n ≤ it.remainingSize, ¬((next format memory)^[n] it).isValid format memory := by
  generalize bound : it.remainingSize = size
  induction size using Nat.strong_induction_on generalizing it with
  | _ size ih =>
    by_cases valid : it.isValid format memory
    · have less := next_less valid
      obtain ⟨n, few, ends⟩ := ih _ (bound ▸ less) (it.next format memory) rfl
      exact ⟨n + 1, by omega, ends⟩
    · exact ⟨0, Nat.zero_le _, valid⟩

end

end PDirEntryIterator

/-! ## The records of the names -/

/-- The record of a name as the writer leaves it. -/
structure Record (format : DirentFormat) (memory : Memory) (address : Nat) (name : List UInt8) : Prop where
  accepted : format.recordSize name.length ≠ 0
  reclen : PDirEntryIterator.reclen format memory address = format.recordSize name.length
  namlen : PDirEntryIterator.namlen format memory address = name.length
  stored : load memory (address + format.headerSize) name.length = name
  terminator : memory (address + format.headerSize + name.length) = 0

/-- The names have their records one behind the other in `size` bytes. -/
def Records (format : DirentFormat) (memory : Memory) : Nat → Nat → List (List UInt8) → Prop
  | _, size, [] => size = 0
  | address, size, name :: names => Record format memory address name ∧
      ∃ rest, size = format.recordSize name.length + rest ∧
        Records format memory (address + format.recordSize name.length) rest names

section

variable {format : DirentFormat} {memory memory' : Memory} {address size : Nat} {name : List UInt8}
  {names : List (List UInt8)}

theorem Record.congr (record : Record format memory address name)
    (same : ∀ i < format.recordSize name.length, memory' (address + i) = memory (address + i)) :
    Record format memory' address name := by
  have ⟨room, _, _⟩ := DirentFormat.recordSize_spec record.accepted
  have part (offset n : Nat) (inside : offset + n ≤ format.recordSize name.length) :
      load memory' (address + offset) n = load memory (address + offset) n := by
    apply load_congr
    intro i below
    rw [add_assoc]
    exact same _ (by omega)
  constructor
  case accepted => exact record.accepted
  case reclen =>
    have inside := format.reclenInside
    unfold PDirEntryIterator.reclen
    rw [part _ _ (by omega)]
    exact record.reclen
  case namlen =>
    have inside := format.namlenInside
    unfold PDirEntryIterator.namlen
    rw [part _ _ (by omega)]
    exact record.namlen
  case stored =>
    rw [part _ _ (by omega)]
    exact record.stored
  case terminator =>
    rw [add_assoc, same _ (by omega), ← add_assoc]
    exact record.terminator

theorem Records.congr (records : Records format memory address size names)
    (same : ∀ i < size, memory' (address + i) = memory (address + i)) :
    Records format memory' address size names := by
  induction names generalizing address size with
  | nil => exact records
  | cons name names ih =>
    obtain ⟨record, rest, rfl, behind⟩ := records
    refine ⟨record.congr fun i inside => same i (by omega), rest, rfl, ih behind fun i inside => ?_⟩
    rw [add_assoc]
    exact same _ (by omega)

theorem Records.snoc (records : Records format memory address size names)
    (record : Record format memory (address + size) name) :
    Records format memory address (size + format.recordSize name.length) (names ++ [name]) := by
  induction names generalizing address size with
  | nil =>
    have empty : size = 0 := records
    rw [empty] at record ⊢
    exact ⟨record, 0, by omega, rfl⟩
  | cons first names ih =>
    obtain ⟨record', rest, rfl, behind⟩ := records
    rw [← add_assoc] at record
    exact ⟨record', rest + format.recordSize name.length, by omega, ih behind record⟩

theorem store_outside (accepted : format.recordSize name.length ≠ 0) {i : Nat}
    (outside : i < address ∨ address + format.recordSize name.length ≤ i) :
    PDirEntryWriter.store format address name memory i = memory i := by
  have ⟨room, _, _⟩ := DirentFormat.recordSize_spec accepted
  have reclenInside := format.reclenInside
  have namlenInside := format.namlenInside
  unfold PDirEntryWriter.store
  rw [memcpy_outside, memcpy_outside, memcpy_outside, memcpy_outside, memcpy_outside]
  all_goals
    try simp only [length_replicate, length_toBytes]
    omega

theorem record_store (accepted : format.recordSize name.length ≠ 0) :
    Record format (PDirEntryWriter.store format address name memory) address name := by
  have ⟨room, fits, _⟩ := DirentFormat.recordSize_spec accepted
  have reclenInside := format.reclenInside
  have namlenInside := format.namlenInside
  have apart := format.apart
  constructor
  case accepted => exact accepted
  case reclen =>
    unfold PDirEntryIterator.reclen PDirEntryWriter.store
    dsimp only
    rw [load_memcpy_outside (by simp only [length_replicate]; omega),
      load_memcpy_outside (by omega),
      load_memcpy_outside (by simp only [length_toBytes]; omega)]
    rw [load_memcpy (length_toBytes _ _)]
    exact littleEndian_stored (by omega) format.reclenWide
  case namlen =>
    unfold PDirEntryIterator.namlen PDirEntryWriter.store
    dsimp only
    rw [load_memcpy_outside (by simp only [length_replicate]; omega),
      load_memcpy_outside (by omega)]
    rw [load_memcpy (length_toBytes _ _)]
    exact littleEndian_stored (by omega) format.namlenWide
  case stored =>
    unfold PDirEntryWriter.store
    dsimp only
    rw [load_memcpy_outside (by omega)]
    exact load_memcpy rfl
  case terminator =>
    unfold PDirEntryWriter.store
    exact memcpy_first (by omega) 0

/-- The writer has filled the front of its buffer with the records of `names`. -/
structure PDirEntryWriter.Filled (format : DirentFormat) (buffer : Nat) (names : List (List UInt8))
    (w : PDirEntryWriter) (memory : Memory) : Prop where
  isBuffer : w.buffer = some buffer
  inside : w.bytesWritten ≤ w.bufferSize
  records : Records format memory buffer w.bytesWritten names

theorem PDirEntryWriter.Filled.addEntry {w : PDirEntryWriter} {buffer : Nat}
    (filled : w.Filled format buffer names memory) (call : Option (List UInt8)) :
    let result := w.addEntry format call memory
    result.2.1.Filled format buffer (names ++ if result.1 then call.toList else []) result.2.2 := by
  unfold PDirEntryWriter.addEntry
  rw [filled.isBuffer]
  cases call with
  | none => simpa using filled
  | some name =>
    dsimp only
    split
    · simpa using filled
    · rename_i fits
      push Not at fits
      obtain ⟨_, accepted, room⟩ := fits
      have inside := filled.inside
      unfold getRemainingSize at room
      refine ⟨rfl, ?_, ?_⟩
      · show w.bytesWritten + format.recordSize name.length ≤ w.bufferSize
        omega
      · apply Records.snoc
        · apply filled.records.congr
          intro i below
          exact store_outside accepted (.inl (by omega))
        · exact record_store accepted

theorem PDirEntryWriter.Filled.addEntries {w : PDirEntryWriter} {buffer : Nat}
    (filled : w.Filled format buffer names memory) (calls : List (Option (List UInt8))) :
    let result := w.addEntries format calls memory
    result.2.1.Filled format buffer (names ++ result.1) result.2.2 := by
  induction calls generalizing w memory names with
  | nil => simpa [PDirEntryWriter.addEntries] using filled
  | cons call calls ih =>
    have rest := ih (filled.addEntry call)
    dsimp only at rest
    rw [append_assoc] at rest
    exact rest

/-- What is read of the record of a name. -/
def EntryRead.ofName (name : List UInt8) : EntryRead := ⟨name.length, name, 0⟩

theorem Records.readAll (records : Records format memory address size names)
    (aligned : address % format.alignment = 0) :
    PDirEntryIterator.readAll format memory ⟨some address, size⟩ =
      (names.map .ofName, ⟨some (address + size), 0⟩) := by
  induction names generalizing address size with
  | nil =>
    have empty : size = 0 := records
    subst empty
    have invalid : ¬PDirEntryIterator.isValid format memory ⟨some address, 0⟩ := by
      rw [PDirEntryIterator.isValid_iff]
      intro ⟨_, _, _, least, most, _⟩
      simp only at most
      omega
    rw [PDirEntryIterator.readAll, dif_neg invalid]
    rfl
  | cons name names ih =>
    obtain ⟨record, rest, rfl, behind⟩ := records
    have ⟨room, _, whole⟩ := DirentFormat.recordSize_spec record.accepted
    have valid : PDirEntryIterator.isValid format memory
        ⟨some address, format.recordSize name.length + rest⟩ := by
      rw [PDirEntryIterator.isValid_iff]
      refine ⟨address, rfl, aligned, ?_⟩
      rw [record.reclen, record.namlen]
      dsimp only
      omega
    have here : PDirEntryIterator.read format memory
        ⟨some address, format.recordSize name.length + rest⟩ = .ofName name := by
      unfold PDirEntryIterator.read EntryRead.ofName
      dsimp only [getD_some]
      rw [record.namlen, record.stored, record.terminator]
    have aligned' : (address + format.recordSize name.length) % format.alignment = 0 := by
      rw [Nat.add_mod, aligned, whole]
      rfl
    rw [PDirEntryIterator.readAll, dif_pos valid, PDirEntryIterator.next_of_isValid rfl valid, here,
      record.reclen]
    dsimp only
    rw [Nat.add_sub_cancel_left, ih behind aligned', add_assoc]
    rfl

/-- Whatever is added to an aligned buffer is read again from what was written; a refused call
leaves all as it was; and in a buffer of any content the loop ends and reads nothing outside. -/
theorem directory_records_round_trip (format : DirentFormat) {buffer : Nat}
    (aligned : buffer % format.alignment = 0) (size : Nat) (memory : Memory)
    (calls : List (Option (List UInt8))) :
    (let (names, w, memory') := PDirEntryWriter.addEntries format calls ⟨some buffer, size, 0⟩ memory
     PDirEntryIterator.readAll format memory' ⟨some buffer, w.bytesWritten⟩ =
       (names.map .ofName, ⟨some (buffer + w.bytesWritten), 0⟩)) ∧
    (∀ (w : PDirEntryWriter) (name : Option (List UInt8)) (memory : Memory),
      (w.addEntry format name memory).1 = false → w.addEntry format name memory = (false, w, memory)) ∧
    ∀ (buffer size : Nat) (memory : Memory),
      (∃ n ≤ size, ¬((PDirEntryIterator.next format memory)^[n] ⟨some buffer, size⟩).isValid format memory) ∧
      ∀ n, ((PDirEntryIterator.next format memory)^[n] ⟨some buffer, size⟩).isValid format memory →
        PDirEntryIterator.InBuffer format memory buffer size
          ((PDirEntryIterator.next format memory)^[n] ⟨some buffer, size⟩) := by
  refine ⟨?_, ?_, fun buffer size memory => ⟨?_, PDirEntryIterator.inBuffer_of_isValid buffer size⟩⟩
  · have start : PDirEntryWriter.Filled format buffer [] ⟨some buffer, size, 0⟩ memory :=
      ⟨rfl, Nat.zero_le _, rfl⟩
    exact (start.addEntries calls).records.readAll aligned
  · intro w name memory refused
    unfold PDirEntryWriter.addEntry at refused ⊢
    split <;> simp only [*] at refused ⊢
    split <;> simp only [*, if_true, if_false, Bool.true_eq_false] at refused ⊢
  · exact PDirEntryIterator.iterate_ends ⟨some buffer, size⟩

/-- A name and a null pointer are added to a buffer of 64 bytes. -/
theorem directory_records_round_trip_two :
    let (names, w, memory') :=
      PDirEntryWriter.addEntries default [some [97], none] ⟨some 8, 64, 0⟩ fun _ => 0
    PDirEntryIterator.readAll default memory' ⟨some 8, w.bytesWritten⟩ =
      (names.map .ofName, ⟨some (8 + w.bytesWritten), 0⟩) :=
  (directory_records_round_trip default (show 8 % 8 = 0 from rfl) 64 (fun _ => 0) [some [97], none]).1

end

end PadOS.Storage
