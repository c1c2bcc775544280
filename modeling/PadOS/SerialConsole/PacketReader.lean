import Mathlib.Data.List.Basic
import Mathlib.Data.List.Infix
import Mathlib.Data.UInt

/-!
# Reading packets from the serial port

`ReadPacket` finds the magic, then fills a header and a body, across reads that bring what the port
has. An index outside `m_InMessageBuffer` is a run of the model that ends in `none`.
-/

namespace PadOS.SerialConsole

open List Option

def MAGIC1 : UInt8 := 0x42

def MAGIC2 : UInt8 := 0x13

/-- `sizeof(SerialProtocol::PacketHeader)` -/
def headerSize : Nat := 16

def MAX_MESSAGE_SIZE : Nat := 1024 * 128

/-- The entry of `g_Poly8Lookup` at a byte: eight rounds of the reflected polynomial. -/
def poly8Lookup (index : UInt8) : UInt32 :=
  Nat.iterate (fun crc : UInt32 => if crc &&& 1 = 1 then (0xEDB88320 : UInt32) ^^^ (crc >>> 1)
    else crc >>> 1) 8 index.toUInt32

def crc32 (data : List UInt8) : UInt32 :=
  ~~~ data.foldl (fun crc byte => poly8Lookup (crc.toUInt8 ^^^ byte) ^^^ (crc >>> 8)) 0xffffffff

/-- The four bytes from `offset` on, low byte first. -/
def wordAt (bytes : List UInt8) (offset : Nat) : UInt32 :=
  match bytes.drop offset with
  | b0 :: b1 :: b2 :: b3 :: _ =>
    b0.toUInt32 ||| (b1.toUInt32 <<< 8) ||| (b2.toUInt32 <<< 16) ||| (b3.toUInt32 <<< 24)
  | _ => 0

/-- `PacketHeader::Checksum` -/
def checksumOf (bytes : List UInt8) : UInt32 := wordAt bytes 4

/-- `PacketHeader::PackageLength` -/
def packageLengthOf (bytes : List UInt8) : Nat := (wordAt bytes 8).toNat

def clearChecksum (bytes : List UInt8) : List UInt8 :=
  bytes.take 4 ++ [0, 0, 0, 0] ++ bytes.drop 8

/-- What the port brings, cut where one read ends; an empty cut is a read that finds nothing. -/
abbrev Port := List (List UInt8)

namespace Port

def read (port : Port) (room : Nat) : List UInt8 × Port :=
  match port with
  | [] => ([], [])
  | chunk :: rest => (chunk.take room, if chunk.length ≤ room then rest else chunk.drop room :: rest)

end Port

structure PacketReader where
  inMessageBuffer : List UInt8
  packageBytesRead : Nat
  deriving DecidableEq, Repr

namespace PacketReader

def initial : PacketReader where
  inMessageBuffer := []
  packageBytesRead := 0

def resize (s : PacketReader) (size : Nat) : PacketReader :=
  { s with
    inMessageBuffer := s.inMessageBuffer ++ List.replicate (size - s.inMessageBuffer.length) 0 }

/-- `read_trw(m_SerialPortIn, &m_InMessageBuffer[m_PackageBytesRead], room)` -/
def read_trw (s : PacketReader) (port : Port) (room : Nat) : Option (Nat × PacketReader × Port) :=
  if s.packageBytesRead < s.inMessageBuffer.length ∧
      s.packageBytesRead + room ≤ s.inMessageBuffer.length then
    let bytes := (port.read room).1
    some (bytes.length,
      { inMessageBuffer := s.inMessageBuffer.take s.packageBytesRead ++ bytes ++
          s.inMessageBuffer.drop (s.packageBytesRead + bytes.length)
        packageBytesRead := s.packageBytesRead + bytes.length }, (port.read room).2)
  else none

/-- `memmove(&m_InMessageBuffer[0], &m_InMessageBuffer[source], m_PackageBytesRead - source)` -/
def dropFront (s : PacketReader) (source : Nat) : Option PacketReader :=
  if source < s.inMessageBuffer.length ∧ s.packageBytesRead ≤ s.inMessageBuffer.length then
    let moved := (s.inMessageBuffer.drop source).take (s.packageBytesRead - source)
    some { inMessageBuffer := moved ++ s.inMessageBuffer.drop moved.length
           packageBytesRead := s.packageBytesRead - source }
  else none

/-- What does not start with the first byte of the magic is dropped up to where it is. -/
def findMagic1 (s : PacketReader) : Option PacketReader := do
  if 1 ≤ s.packageBytesRead then
    let first ← s.inMessageBuffer[0]?
    if first ≠ MAGIC1 then
      s.dropFront ((s.inMessageBuffer.take s.packageBytesRead).findIdx (· == MAGIC1))
    else some s
  else some s

/-- What one turn of the loop in `ReadPacket` comes to. -/
inductive Turn
  | continues
  | returns (packet : Bool)
  deriving DecidableEq, Repr

section

variable (s : PacketReader)

variable (port : Port)

def checkPacket : Turn × PacketReader × Port :=
  let receivedCRC := checksumOf s.inMessageBuffer
  let s := { s with inMessageBuffer := clearChecksum s.inMessageBuffer }
  let calculatedCRC := crc32 (s.inMessageBuffer.take (packageLengthOf s.inMessageBuffer))
  if calculatedCRC ≠ receivedCRC then (.continues, initial, port) else (.returns true, s, port)

/-- From the complete header on. -/
def readBody : Option (Turn × PacketReader × Port) := do
  let packageLength := packageLengthOf s.inMessageBuffer
  if MAX_MESSAGE_SIZE < packageLength then
    some (.continues, initial, port)
  else
    let s := s.resize packageLength
    if s.packageBytesRead < packageLength then
      let (length, s, port) ← s.read_trw port (packageLength - s.packageBytesRead)
      if length = 0 then some (.returns false, s, port)
      else if s.packageBytesRead < packageLength then some (.continues, s, port)
      else some (s.checkPacket port)
    else some (s.checkPacket port)

/-- After a read of the header: the magic is looked for. -/
def resync : Option (Turn × PacketReader × Port) := do
  let s ← s.findMagic1
  if 2 ≤ s.packageBytesRead then
    let second ← s.inMessageBuffer[1]?
    if second ≠ MAGIC2 then
      let s ← s.dropFront 2
      some (.continues, s, port)
    else if s.packageBytesRead < headerSize then some (.continues, s, port)
    else s.readBody port
  else some (.continues, s, port)

/-- One turn of the loop. -/
def turn : Option (Turn × PacketReader × Port) := do
  if s.packageBytesRead < headerSize then
    let s := if s.inMessageBuffer = [] then s.resize headerSize else s
    let (length, s, port) ← s.read_trw port (headerSize - s.packageBytesRead)
    if length = 0 then some (.returns false, s, port) else s.resync port
  else s.readBody port

/-- Bytes still to come, and whether some are held: what every turn of the loop makes less. -/
def work : Nat :=
  2 * port.flatten.length + min 1 s.packageBytesRead

end

end PacketReader

theorem Port.read_flatten (port : Port) (room : Nat) :
    (port.read room).1 ++ (port.read room).2.flatten = port.flatten := by
  cases port with
  | nil => rfl
  | cons chunk rest =>
    by_cases short : chunk.length ≤ room
    · simp only [read, if_pos short, take_of_length_le short, flatten_cons]
    · simp only [read, if_neg short, flatten_cons, ← append_assoc, take_append_drop]

theorem Port.read_length_le (port : Port) (room : Nat) : (port.read room).1.length ≤ room := by
  cases port with
  | nil => exact Nat.zero_le room
  | cons chunk rest => exact length_take_le room chunk

namespace PacketReader

variable {s t : PacketReader} {port after : Port} {room length : Nat} {packet : Bool}

theorem read_trw_counts (reads : s.read_trw port room = some (length, t, after)) :
    t.packageBytesRead = s.packageBytesRead + length ∧
      after.flatten.length + length = port.flatten.length := by
  unfold read_trw at reads
  split at reads
  · cases reads
    have flatten := congrArg List.length (port.read_flatten room)
    rw [length_append] at flatten
    exact ⟨rfl, by omega⟩
  · cases reads

theorem checkPacket_continues (turns : s.checkPacket port = (.continues, t, after)) :
    t = initial ∧ after = port := by
  unfold checkPacket at turns
  simp only at turns
  split at turns
  · cases turns
    exact ⟨rfl, rfl⟩
  · cases turns

theorem readBody_work (body : s.readBody port = some (.continues, t, after))
    (filled : 0 < s.packageBytesRead) : t.work after < s.work port := by
  have cleared : initial.work port < s.work port := by
    simp only [work, initial]
    omega
  unfold readBody at body
  simp only at body
  split at body
  · cases body
    exact cleared
  · split at body
    · rcases bind_eq_some_iff.mp body with ⟨⟨length, u, rest⟩, reads, body⟩
      have counts := read_trw_counts reads
      simp only at body
      split at body
      · cases body
      · split at body
        · cases body
          simp only [work]
          omega
        · rcases checkPacket_continues (some.inj body) with ⟨rfl, rfl⟩
          simp only [work, initial]
          omega
    · rcases checkPacket_continues (some.inj body) with ⟨rfl, rfl⟩
      exact cleared

theorem resync_work (resyncs : s.resync port = some (.continues, t, after)) :
    t.work after ≤ 2 * port.flatten.length + 1 := by
  unfold resync at resyncs
  rcases bind_eq_some_iff.mp resyncs with ⟨u, finds, resyncs⟩
  split at resyncs
  · rcases bind_eq_some_iff.mp resyncs with ⟨second, _, resyncs⟩
    split at resyncs
    · rcases bind_eq_some_iff.mp resyncs with ⟨v, drops, resyncs⟩
      cases resyncs
      simp only [work]
      omega
    · split at resyncs
      · cases resyncs
        simp only [work]
        omega
      · have less := readBody_work resyncs (by omega)
        unfold work at less ⊢
        omega
  · cases resyncs
    simp only [work]
    omega

theorem turn_work (turns : s.turn port = some (.continues, t, after)) :
    t.work after < s.work port := by
  unfold turn at turns
  split at turns
  · rcases bind_eq_some_iff.mp turns with ⟨⟨length, u, rest⟩, reads, turns⟩
    have counts := read_trw_counts reads
    simp only at turns
    split at turns
    · cases turns
    · have less := resync_work turns
      rw [work.eq_1 s]
      omega
  · exact readBody_work turns (by unfold headerSize at *; omega)

/-- `ReadPacket`: turns of the loop until one returns. -/
def ReadPacket (s : PacketReader) (port : Port) : Option (Bool × PacketReader × Port) :=
  match _turns : s.turn port with
  | none => none
  | some (.returns packet, t, after) => some (packet, t, after)
  | some (.continues, t, after) => t.ReadPacket after
termination_by s.work port
decreasing_by exact turn_work _turns

/-- Successive calls of `ReadPacket`; what `HandleIO` does with a packet empties the buffer. -/
def HandleIOCalls (calls : Nat) (s : PacketReader) (port : Port) :
    Option (List (List UInt8) × PacketReader × Port) :=
  match calls with
  | 0 => some ([], s, port)
  | calls + 1 => do
    let (packet, s, port) ← s.ReadPacket port
    if packet then
      let (packets, t, after) ← HandleIOCalls calls initial port
      some (s.inMessageBuffer :: packets, t, after)
    else HandleIOCalls calls s port

end PacketReader

end PadOS.SerialConsole
