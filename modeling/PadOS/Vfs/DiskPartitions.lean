import PadOS.Core.Run
import Mathlib.Algebra.Group.Nat.Defs

/-! # Partition table decoding

`DecodeDiskPartitions_trw` reads the master table of a disk and then one extended table
after another, as long as the table it has just read links to a next one. All entries go to
one vector, and only its size bounds the loop.
-/

namespace PadOS.Vfs.DiskPartitions

/-- `off64_t` arithmetic. -/
def off64 (value : Int) : Int := value.bmod (2 ^ 64)

structure DeviceGeometry where
  sectorCount : Nat
  bytesPerSector : Nat

def DeviceGeometry.diskSize (g : DeviceGeometry) : Int := off64 (g.sectorCount * g.bytesPerSector)

/-! ## The table in the buffer -/

abbrev Buffer := Nat → UInt8

/-- The little-endian number of `count` bytes at `offset`. -/
def littleEndian (buffer : Buffer) (offset : Nat) : Nat → Nat
  | 0 => 0
  | count + 1 => (buffer offset).toNat + 256 * littleEndian buffer (offset + 1) count

/-- The members of `PartitionRecord` that the decoder reads. -/
structure PartitionRecord where
  status : Nat
  type : Nat
  startLBA : Nat
  size : Nat
  deriving DecidableEq, Repr

def recordTable (buffer : Buffer) (i : Nat) : PartitionRecord where
  status := littleEndian buffer (0x1be + 16 * i) 1
  type := littleEndian buffer (0x1be + 16 * i + 4) 1
  startLBA := littleEndian buffer (0x1be + 16 * i + 8) 4
  size := littleEndian buffer (0x1be + 16 * i + 12) 4

def signature (buffer : Buffer) : Nat := littleEndian buffer 0x1fe 2

namespace PartitionRecord

def IsExtended (r : PartitionRecord) : Prop := r.type = 0x05 ∨ r.type = 0x0f ∨ r.type = 0x85

instance (r : PartitionRecord) : Decidable r.IsExtended :=
  inferInstanceAs (Decidable (_ ∨ _ ∨ _))

/-- A record of a partition: the slot is in use and does not link to a table. -/
def IsData (r : PartitionRecord) : Prop := r.type ≠ 0 ∧ ¬r.IsExtended

instance (r : PartitionRecord) : Decidable r.IsData := inferInstanceAs (Decidable (_ ∧ _))

end PartitionRecord

structure DiskPartitionDesc where
  start : Int := 0
  size : Int := 0
  type : Nat := 0
  status : Nat := 0
  deriving DecidableEq, Repr

/-- `m_Status & 0x80` -/
def active (status : Nat) : Bool := status &&& 0x80 != 0

/-- Both sides compute in 64 bits, the unsigned one first. -/
def describe (g : DeviceGeometry) (tablePos : Int) (r : PartitionRecord) : DiskPartitionDesc where
  start := off64 (r.startLBA * g.bytesPerSector + tablePos)
  size := off64 (r.size * g.bytesPerSector)
  type := r.type
  status := r.status

/-! ## One table -/

/-- The first loop over the table; what it counts of active records only feeds a warning. -/
def countExtended : List PartitionRecord → Nat → Except Stop Nat
  | [], numExtended => .ok numExtended
  | r :: records, numExtended =>
    let numExtended := if r.IsExtended then numExtended + 1 else numExtended
    if numExtended > 1 then .error (.throws .ftype) else countExtended records numExtended

/-- The checks of a new entry against each entry of the vector. -/
def checkAgainst (new : DiskPartitionDesc) : List DiskPartitionDesc → Except Stop Unit
  | [] => .ok ()
  | cur :: rest =>
    if new.type = 0 then checkAgainst new rest
    else if off64 (cur.start + cur.size) > new.start ∧ cur.start < off64 (new.start + new.size) then
      .error (.throws .ftype)
    else if active new.status ∧ active cur.status then .error (.throws .ftype)
    else if new.type = 0x05 ∧ cur.type = 0x05 then .error (.throws .ftype)
    else checkAgainst new rest

/-- The variables of the call. `listedFor` is no variable of the source: it names the table,
counted along the chain, and the slot that each entry of the vector was pushed for. -/
structure Decoding where
  tablePos : Int := 0
  extStart : Int := 0
  firstExtended : Int := 0
  partitions : List DiskPartitionDesc := []
  table : Nat := 0
  listedFor : List (Nat × Nat) := []
  deriving DecidableEq, Repr

def maxPartitions : Nat := 64

namespace Decoding

def push (d : Decoding) (slot : Nat) (desc : DiskPartitionDesc) : Decoding :=
  { d with partitions := d.partitions ++ [desc], listedFor := d.listedFor ++ [(d.table, slot)] }

/-- The body of the second loop over the table. -/
def takeRecord (g : DeviceGeometry) (d : Decoding) (slot : Nat) (r : PartitionRecord) :
    Except Stop Decoding :=
  if r.type = 0 then .ok d
  else if r.IsExtended then
    let d := { d with extStart := off64 (r.startLBA * g.bytesPerSector) }
    .ok (if d.firstExtended = 0 then d.push slot {} else d)
  else
    let desc := describe g d.tablePos r
    if off64 (desc.start + desc.size) > g.diskSize then .error (.throws .ftype)
    else (checkAgainst desc d.partitions).map fun _ => d.push slot desc

def takeRecords (g : DeviceGeometry) (d : Decoding) (slot : Nat) :
    List PartitionRecord → Except Stop Decoding
  | [] => .ok d
  | r :: records =>
    if d.partitions.length < maxPartitions then do
      takeRecords g (← d.takeRecord g slot r) (slot + 1) records
    else .ok d

end Decoding

/-! ## The chain of tables -/

def records (buffer : Buffer) : List PartitionRecord := (List.range 4).map (recordTable buffer)

/-- What the read callback answers at each position. -/
abbrev Image := Int → Except Stop Buffer

/-- The body of the `while` loop, which reads one table. -/
def decodeTable (g : DeviceGeometry) (readCallback : Image) (d : Decoding) : Except Stop Decoding := do
  let buffer ← readCallback d.tablePos
  if signature buffer ≠ 0xaa55 then .error (.throws .ftype)
  else do
    let _ ← countExtended (records buffer) 0
    d.takeRecords g 0 (records buffer)

/-- The end of the body: the loop goes on with the table that `extStart` links to. -/
def Decoding.follow (d : Decoding) : Option Decoding :=
  if d.extStart ≠ 0 then
    some { d with
      tablePos := off64 (d.firstExtended + d.extStart)
      firstExtended := if d.firstExtended = 0 then d.extStart else d.firstExtended
      extStart := 0
      table := d.table + 1 }
  else none

/-- The `while` loop. Each round reads one table. -/
def decodeLoop (g : DeviceGeometry) (readCallback : Image) : Nat → Decoding → Run Decoding
  | 0, _ => Run.unfinished
  | rounds + 1, d =>
    if d.partitions.length < maxPartitions then do
      let d ← Run.ofExcept (decodeTable g readCallback d)
      match d.follow with
      | some d => decodeLoop g readCallback rounds d
      | none => pure d
    else pure d

theorem decodeLoop_follow {g : DeviceGeometry} {image : Image} {rounds : Nat} {d t d' : Decoding}
    (room : d.partitions.length < maxPartitions) (taken : decodeTable g image d = .ok t)
    (followed : t.follow = some d') : decodeLoop g image (rounds + 1) d = decodeLoop g image rounds d' := by
  rw [decodeLoop, if_pos room, taken]
  show (match t.follow with | some d => _ | none => _) = _
  rw [followed]

theorem decodeLoop_end {g : DeviceGeometry} {image : Image} {rounds : Nat} {d t : Decoding}
    (room : d.partitions.length < maxPartitions) (taken : decodeTable g image d = .ok t)
    (followed : t.follow = none) : decodeLoop g image (rounds + 1) d = pure t := by
  rw [decodeLoop, if_pos room, taken]
  show (match t.follow with | some d => _ | none => _) = _
  rw [followed]

def decodeDiskPartitions (rounds : Nat) (g : DeviceGeometry) (readCallback : Image) :
    Run (List DiskPartitionDesc) := do
  let d ← decodeLoop g readCallback rounds {}
  pure d.partitions

end PadOS.Vfs.DiskPartitions
