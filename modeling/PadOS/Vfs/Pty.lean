import PadOS.Core.ErrorCode
import PadOS.Core.RingBuffer
import PadOS.Core.Transition

/-! # Pseudo terminals

The two inodes of a pseudo terminal, each with a ring that its own `Read` empties. The
loops of `WriteToMaster` and `WriteToSlave` take one step for every byte, so more
orders of steps are covered than the mutex of the volume admits. Waking the waiters and signalling
the foreground group leave the rings alone. Counters are `size_t` of 32 bits.
-/

namespace PadOS.Vfs.Pty

open Transition RingBuffer
open Function (update)

inductive Side
  | master
  | slave
  deriving DecidableEq

def Side.partner : Side → Side
  | .master => .slave
  | .slave => .master

/-- `CreateFile` sizes the rings, 512 bytes and 4096 bytes. -/
def Side.bits : Side → Nat
  | .master => 9
  | .slave => 12

def newLine : UInt8 := 0x0a
def carriageReturn : UInt8 := 0x0d
def backspaceKey : UInt8 := 0x08
def ctrlC : UInt8 := 0x03
def ctrlD : UInt8 := 0x04
def ctrlZ : UInt8 := 26
def tiocpktData : UInt8 := 0

def increment (x : Nat) : Nat := if x + 1 < 2 ^ 32 then x + 1 else 0

/-- Below zero the counter comes round to the other end of `size_t`. -/
def decrease (x k : Nat) : Nat := if k ≤ x then x - k else x + 2 ^ 32 - k

structure KPTYInode where
  fileData : Nat → UInt8 := fun _ => 0
  packetMode : Bool := false
  openCount : Int := 0
  bytesAvailable : Nat := 0
  newLineCount : Nat := 0
  readPos : Nat := 0
  writePos : Nat := 0
  cursorPos : Nat := 0

/-! ## Read and Write on the ring -/

/-- What the copy loop of `Read` leaves. `endOfFile` tells that it took a `^D` off the
ring without returning it. -/
structure ReadLoop where
  node : KPTYInode
  bytes : List UInt8
  endOfFile : Bool

namespace KPTYInode

def advanceReadPos (bits : Nat) (n : KPTYInode) : KPTYInode :=
  { n with readPos := (n.readPos + 1) &&& (2 ^ bits - 1) }

def countLineOut (n : KPTYInode) : KPTYInode :=
  { n with newLineCount := decrease n.newLineCount 1 }

section fields

variable (bits : Nat) (n : KPTYInode)

@[simp] theorem advanceReadPos_fileData : (n.advanceReadPos bits).fileData = n.fileData := rfl
@[simp] theorem advanceReadPos_newLineCount : (n.advanceReadPos bits).newLineCount = n.newLineCount := rfl
@[simp] theorem advanceReadPos_bytesAvailable :
    (n.advanceReadPos bits).bytesAvailable = n.bytesAvailable := rfl
@[simp] theorem advanceReadPos_readPos :
    (n.advanceReadPos bits).readPos = (n.readPos + 1) &&& (2 ^ bits - 1) := rfl
@[simp] theorem advanceReadPos_writePos : (n.advanceReadPos bits).writePos = n.writePos := rfl
@[simp] theorem countLineOut_fileData : n.countLineOut.fileData = n.fileData := rfl
@[simp] theorem countLineOut_newLineCount :
    n.countLineOut.newLineCount = decrease n.newLineCount 1 := rfl
@[simp] theorem countLineOut_bytesAvailable : n.countLineOut.bytesAvailable = n.bytesAvailable := rfl
@[simp] theorem countLineOut_readPos : n.countLineOut.readPos = n.readPos := rfl
@[simp] theorem countLineOut_writePos : n.countLineOut.writePos = n.writePos := rfl

end fields

def readLoop (bits : Nat) (needNewLine : Bool) : Nat → Bool → KPTYInode → ReadLoop
  | 0, _, n => ⟨n, [], false⟩
  | left + 1, first, n =>
    let byte := n.fileData n.readPos
    if byte = ctrlD ∧ needNewLine then
      if first then
        ⟨{ n.countLineOut with bytesAvailable := decrease n.bytesAvailable 1 }.advanceReadPos bits, [], true⟩
      else ⟨n, [], false⟩
    else
      let counted := if byte = ctrlD ∨ byte = newLine then n.countLineOut else n
      let rest := readLoop bits needNewLine left false (counted.advanceReadPos bits)
      ⟨rest.node, byte :: rest.bytes, rest.endOfFile⟩

/-- `bytesRead` before the copy loop, where `length` is not zero. -/
def header (n : KPTYInode) : List UInt8 := if n.packetMode then [tiocpktData] else []

/-- `Read` from where it no longer waits. The bytes are those behind the header. -/
def copyOut (bits : Nat) (needNewLine : Bool) (n : KPTYInode) (length : Nat) : ReadLoop :=
  let bytesToRead := min (length - n.header.length) n.bytesAvailable
  let r := readLoop bits needNewLine bytesToRead true n
  { r with node := { r.node with
      bytesAvailable := decrease r.node.bytesAvailable (n.header.length + r.bytes.length) } }

def push (bits : Nat) (n : KPTYInode) (byte : UInt8) : KPTYInode :=
  { n with
    newLineCount := if byte = ctrlD ∨ byte = newLine then increment n.newLineCount else n.newLineCount
    fileData := memcpy n.fileData n.writePos [byte]
    writePos := (n.writePos + 1) &&& (2 ^ bits - 1)
    bytesAvailable := increment n.bytesAvailable }

/-- The copy loop of `Write`, with `bytesWritten`. -/
def writeLoop (bits : Nat) : List UInt8 → KPTYInode → KPTYInode × Nat
  | [], n => (n, 0)
  | byte :: rest, n =>
    if n.bytesAvailable < 2 ^ bits then
      let r := writeLoop bits rest (n.push bits byte)
      (r.1, r.2 + 1)
    else (n, 0)

/-- Where a canonical backspace looks for the byte before `writePos`. -/
def lastPos (bits : Nat) (n : KPTYInode) : Nat := (n.writePos + 2 ^ bits - 1) &&& (2 ^ bits - 1)

def erasable (bits : Nat) (n : KPTYInode) : Prop :=
  0 < n.bytesAvailable ∧ n.fileData (n.lastPos bits) ≠ newLine

instance (bits : Nat) (n : KPTYInode) : Decidable (n.erasable bits) :=
  inferInstanceAs (Decidable (_ ∧ _))

def erase (bits : Nat) (n : KPTYInode) : KPTYInode :=
  { n with bytesAvailable := decrease n.bytesAvailable 1, writePos := n.lastPos bits }

end KPTYInode

/-! ## Terminal modes -/

/-- The flags and control characters of `struct termios` that these calls read. -/
structure Termios where
  opost : Bool := true
  onlcr : Bool := true
  ocrnl : Bool := false
  onocr : Bool := false
  onlret : Bool := false
  inlcr : Bool := false
  igncr : Bool := false
  icrnl : Bool := true
  isig : Bool := true
  icanon : Bool := true
  echo : Bool := true
  echonl : Bool := false
  vintr : UInt8 := 3
  vsusp : UInt8 := 26

/-- The locals of `WriteToMaster` and its `echoMode`. -/
structure MasterModes where
  nlToCrNl : Bool
  crToNl : Bool
  noCrAtCol0 : Bool
  noCr : Bool
  echoMode : Bool

def Termios.masterModes (t : Termios) (echoMode : Bool) : MasterModes where
  nlToCrNl := t.opost && t.onlcr
  crToNl := t.opost && t.ocrnl
  noCrAtCol0 := t.opost && t.onocr
  noCr := t.opost && t.onlret
  echoMode := echoMode

/-- The locals of `WriteToSlave`. -/
structure SlaveModes where
  nlToCr : Bool
  ignoreCr : Bool
  crToNl : Bool
  doEcho : Bool

def Termios.slaveModes (t : Termios) : SlaveModes where
  nlToCr := t.inlcr
  ignoreCr := t.igncr
  crToNl := t.icrnl
  doEcho := t.echo

/-- What `WriteToMaster` passes to `Write` for a byte, if it calls it. -/
def MasterModes.translate (m : MasterModes) (icanon : Bool) (cursorPos : Nat) (byte : UInt8) :
    Option (List UInt8) :=
  if byte = newLine then some (if m.nlToCrNl then [carriageReturn, newLine] else [newLine])
  else if byte = carriageReturn then
    if !m.noCr && !(m.noCrAtCol0 && cursorPos == 0) then
      some [if m.crToNl then newLine else carriageReturn]
    else none
  else if byte = backspaceKey then
    if m.echoMode && icanon then some [backspaceKey, 0x20, backspaceKey] else some [byte]
  else if byte = ctrlC ∨ byte = ctrlZ then if m.echoMode then some [byte] else none
  else some [byte]

/-! ## Calls -/

/-- A call in progress. A pending part is what it passed to a `Write` that waits. -/
inductive Call
  | reading (side : Side) (length : Nat) (nonblock : Bool)
  | writing (side : Side) (bytes : List UInt8) (nonblock : Bool)
  | toMaster (modes : MasterModes) (nonblock : Bool) (pending : Option (List UInt8))
      (rest : List UInt8) (bytesWritten : Nat)
  | toSlave (modes : SlaveModes) (nonblock : Bool) (pending : Option (UInt8 × List UInt8))
      (rest : List UInt8) (bytesWritten : Nat)

inductive Progress
  | goesOn (call : Call)
  | returns (value : Nat)
  | throws (code : PErrorCode)

/-- The handler of both loops. -/
def caught (bytesWritten : Nat) (code : PErrorCode) : Progress :=
  if 0 < bytesWritten then .returns bytesWritten else .throws code

/-- `kept`, `taken` and `returned` are history: for each ring the bytes written to it less
those erased, the bytes its reads took off it, marked where taken as end of file, and the
bytes its reads returned. -/
structure State where
  inode : Side → KPTYInode
  termios : Termios := {}
  call : Nat → Option Call := fun _ => none
  kept : Side → List UInt8 := fun _ => []
  taken : Side → List (UInt8 × Bool) := fun _ => []
  returned : Side → List UInt8 := fun _ => []

namespace State

variable (s : State)

variable (side : Side)

def setInode (n : KPTYInode) : State :=
  { s with inode := update s.inode side n }

def needNewLine : Bool := side = .slave && s.termios.icanon

def canRead : Prop :=
  (s.inode side).newLineCount ≠ 0 ∨ (s.needNewLine side = false ∧ (s.inode side).bytesAvailable ≠ 0)

instance (s : State) (side : Side) : Decidable (s.canRead side) := inferInstanceAs (Decidable (_ ∨ _))

/-- The bytes that a read took off the ring. -/
def takenBy (r : ReadLoop) : List (UInt8 × Bool) :=
  r.bytes.map (fun byte => (byte, false)) ++ if r.endOfFile then [(ctrlD, true)] else []

def read (length : Nat) (nonblock interrupted : Bool) : State × Progress :=
  if length = 0 then (s, .returns 0)
  else if s.canRead side then
    let n := s.inode side
    let r := n.copyOut side.bits (s.needNewLine side) length
    ({ s.setInode side r.node with
        taken := update s.taken side (s.taken side ++ takenBy r)
        returned := update s.returned side (s.returned side ++ n.header ++ r.bytes) },
      .returns (n.header.length + r.bytes.length))
  else if interrupted then (s, .throws .intr)
  else if (s.inode side.partner).openCount = 0 then (s, .returns 0)
  else if nonblock then (s, .throws .wouldblock)
  else (s, .goesOn (.reading side length nonblock))

def write (bytes : List UInt8) (nonblock : Bool) : State × Outcome Nat :=
  if (s.inode side).bytesAvailable = 2 ^ side.bits then
    if (s.inode side.partner).openCount = 0 then (s, .throws .io)
    else if nonblock then (s, .throws .wouldblock)
    else (s, .waits)
  else
    let r := (s.inode side).writeLoop side.bits bytes
    ({ s.setInode side r.1 with
        kept := update s.kept side (s.kept side ++ bytes.take r.2) }, .returns r.2)

def writeOnce (bytes : List UInt8) (nonblock : Bool) : State × Progress :=
  let r := s.write side bytes nonblock
  (r.1, match r.2 with
    | .returns value => .returns value
    | .throws code => .throws code
    | .waits => .goesOn (.writing side bytes nonblock))

/-! ## WriteToMaster -/

def masterWrite (modes : MasterModes) (nonblock : Bool) (out rest : List UInt8)
    (bytesWritten : Nat) : State × Progress :=
  let r := s.write .master out nonblock
  (r.1, match r.2 with
    | .returns result =>
      if 0 < result then .goesOn (.toMaster modes nonblock none rest (bytesWritten + 1))
      else .returns bytesWritten
    | .throws code => caught bytesWritten code
    | .waits => .goesOn (.toMaster modes nonblock (some out) rest bytesWritten))

def writeToMaster (modes : MasterModes) (nonblock : Bool) :
    Option (List UInt8) → List UInt8 → Nat → State × Progress
  | some out, rest, bytesWritten => s.masterWrite modes nonblock out rest bytesWritten
  | none, [], bytesWritten => (s, .returns bytesWritten)
  | none, byte :: rest, bytesWritten =>
    match modes.translate s.termios.icanon (s.inode .master).cursorPos byte with
    | none => (s, .goesOn (.toMaster modes nonblock none rest (bytesWritten + 1)))
    | some out => s.masterWrite modes nonblock out rest bytesWritten

/-- `m_Partner->WriteToMaster(&byte, 1, O_NONBLOCK, true)`, with what it throws. -/
def echo (byte : UInt8) : State × Option PErrorCode :=
  match (s.termios.masterModes true).translate s.termios.icanon (s.inode .master).cursorPos byte with
  | none => (s, none)
  | some out =>
    let r := s.write .master out true
    (r.1, match r.2 with
      | .throws code => some code
      | _ => none)

/-! ## WriteToSlave -/

/-- The end of a round of the loop. -/
def slaveEcho (modes : SlaveModes) (nonblock : Bool) (byte : UInt8) (rest : List UInt8)
    (bytesWritten result : Nat) : State × Progress :=
  let r := if modes.doEcho then s.echo byte else (s, none)
  (r.1, match r.2 with
    | some code => caught bytesWritten code
    | none =>
      if 0 < result then .goesOn (.toSlave modes nonblock none rest (bytesWritten + 1))
      else .returns bytesWritten)

def slaveWrite (modes : SlaveModes) (nonblock : Bool) (byte : UInt8)
    (out rest : List UInt8) (bytesWritten : Nat) : State × Progress :=
  let r := s.write .slave out nonblock
  match r.2 with
  | .waits => (r.1, .goesOn (.toSlave modes nonblock (some (byte, out)) rest bytesWritten))
  | .throws code => (r.1, caught bytesWritten code)
  | .returns result =>
    if byte = newLine ∧ 0 < result ∧ !modes.doEcho ∧ r.1.termios.echonl then
      let e := r.1.echo newLine
      match e.2 with
      | some code => (e.1, caught bytesWritten code)
      | none => e.1.slaveEcho modes nonblock byte rest bytesWritten result
    else r.1.slaveEcho modes nonblock byte rest bytesWritten result

/-- The edit of a canonical backspace. -/
def backspace : State :=
  if (s.inode .slave).erasable Side.slave.bits then
    { s.setInode .slave ((s.inode .slave).erase Side.slave.bits) with
      kept := update s.kept .slave (s.kept .slave).dropLast }
  else s

/-- A byte that signals the foreground group and goes no further. -/
def signals (byte : UInt8) : Prop :=
  s.termios.isig ∧ (byte = s.termios.vintr ∨ byte = s.termios.vsusp)

instance (s : State) (byte : UInt8) : Decidable (s.signals byte) := inferInstanceAs (Decidable (_ ∧ _))

def writeToSlave (modes : SlaveModes) (nonblock : Bool) :
    Option (UInt8 × List UInt8) → List UInt8 → Nat → State × Progress
  | some (byte, out), rest, bytesWritten => s.slaveWrite modes nonblock byte out rest bytesWritten
  | none, [], bytesWritten => (s, .returns bytesWritten)
  | none, byte :: rest, bytesWritten =>
    if s.signals byte then (s, .goesOn (.toSlave modes nonblock none rest bytesWritten))
    else if byte = newLine then
      s.slaveWrite modes nonblock byte [if modes.nlToCr then carriageReturn else newLine] rest bytesWritten
    else if byte = carriageReturn then
      if modes.ignoreCr then s.slaveEcho modes nonblock byte rest bytesWritten 1
      else s.slaveWrite modes nonblock byte [if modes.crToNl then newLine else carriageReturn] rest bytesWritten
    else if byte = backspaceKey ∧ s.termios.icanon then
      s.backspace.slaveEcho modes nonblock byte rest bytesWritten 1
    else s.slaveWrite modes nonblock byte [byte] rest bytesWritten

/-- One step of a call. -/
def advance (interrupted : Bool) : Call → State × Progress
  | .reading side length nonblock => s.read side length nonblock interrupted
  | .writing side bytes nonblock => s.writeOnce side bytes nonblock
  | .toMaster modes nonblock pending rest bytesWritten =>
    s.writeToMaster modes nonblock pending rest bytesWritten
  | .toSlave modes nonblock pending rest bytesWritten =>
    s.writeToSlave modes nonblock pending rest bytesWritten

/-- The call of a thread goes on, or the thread is free. -/
def settle (thread : Nat) (r : State × Progress) : State :=
  { r.1 with call := update r.1.call thread <| match r.2 with
      | .goesOn call => some call
      | _ => none }

def begin (thread : Nat) (call : Call) : Option State :=
  match s.call thread with
  | none => some { s with call := update s.call thread (some call) }
  | some _ => none

end State

/-! ## The system -/

inductive Op
  | openFile (side : Side)
  | closeFile (side : Side)
  | setTermios (termios : Termios)
  | setPacketMode (on : Bool)
  | read (thread : Nat) (side : Side) (length : Nat) (nonblock : Bool)
  | write (thread : Nat) (side : Side) (bytes : List UInt8) (nonblock : Bool)
  | writeToMaster (thread : Nat) (bytes : List UInt8) (nonblock echoMode : Bool)
  | writeToSlave (thread : Nat) (bytes : List UInt8) (nonblock : Bool)
  | advance (thread : Nat) (interrupted : Bool)

def step (s : State) : Op → Option State
  | .openFile side =>
    some (s.setInode side { s.inode side with openCount := (s.inode side).openCount + 1 })
  | .closeFile side =>
    some (s.setInode side { s.inode side with openCount := (s.inode side).openCount - 1 })
  | .setTermios termios => some { s with termios := termios }
  | .setPacketMode on => some (s.setInode .master { s.inode .master with packetMode := on })
  | .read thread side length nonblock => s.begin thread (.reading side length nonblock)
  | .write thread side bytes nonblock => s.begin thread (.writing side bytes nonblock)
  | .writeToMaster thread bytes nonblock echoMode =>
    s.begin thread (.toMaster (s.termios.masterModes echoMode) nonblock none bytes 0)
  | .writeToSlave thread bytes nonblock =>
    s.begin thread (.toSlave s.termios.slaveModes nonblock none bytes 0)
  | .advance thread interrupted =>
    match s.call thread with
    | none => none
    | some call => some (State.settle thread (s.advance interrupted call))

def system : System State Op := ⟨step⟩

/-- The pair that `CreateFile` makes. Only the master is open. -/
def initialState : State where
  inode
    | .master => { openCount := 1 }
    | .slave => {}

end PadOS.Vfs.Pty
