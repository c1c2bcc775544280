import PadOS.Storage.BufferedRefinement

/-!
# A buffered file over calls that fail

The operations of a `PFile` where any `pread` or `pwrite` may fail. The kernel answers each call with
`none`, or with a bound on what it moves. An interrupted call that is made again at once counts as
one. While every call succeeds the operations are those of `PFile.step`.
-/

namespace PadOS.Storage

open FileContent

variable (answer : Nat → Option Nat)

namespace KernelFile

def failed (file : KernelFile) : KernelFile := { file with calls := file.calls + 1 }

def tryPread (file : KernelFile) (size position : Nat) : Option (List UInt8) × KernelFile :=
  match answer file.calls with
  | none => (none, file.failed)
  | some limit =>
    let read := file.pread (fun _ => limit) size position
    (some read.1, read.2)

def tryPwrite (file : KernelFile) (data : List UInt8) (position : Nat) : Option Nat × KernelFile :=
  match answer file.calls with
  | none => (none, file.failed)
  | some limit =>
    let written := file.pwrite (fun _ => limit) data position
    (some written.1, written.2)

end KernelFile

namespace PFile

/-- The loop in `Flush`, and whether it came to its end. -/
def tryFlushLoop : Nat → KernelFile → List UInt8 → Nat → Bool × KernelFile
  | 0, file, _, _ => (true, file)
  | turns + 1, file, data, position =>
    if 0 < data.length then
      match file.tryPwrite answer data position with
      | (none, file) => (false, file)
      | (some bytesWritten, file) =>
        tryFlushLoop turns file (data.drop bytesWritten) (position + bytesWritten)
    else (true, file)

def tryFlush (s : PFile) : Bool × PFile :=
  if s.dirty then
    match tryFlushLoop answer s.validBufferSize s.file s.window s.bufferPosition with
    | (false, file) => (false, { s with file := file })
    | (true, file) => (true, { s with file := file, dirty := false })
  else (true, s)

/-- The window is moved before the call that may fail. -/
def tryFillBuffer (s : PFile) (position : Nat) : Bool × PFile :=
  match s.tryFlush answer with
  | (false, s) => (false, s)
  | (true, s) =>
    let s := { s with bufferPosition := position }
    match s.file.tryPread answer s.bufferSize position with
    | (none, file) => (false, { s with file := file })
    | (some bytes, file) =>
      (true, { s with
        file := file
        buffer := some (bytes ++ s.memory.drop bytes.length)
        validBufferSize := bytes.length })

/-- The loop in `ReadPos`: what it copies, and whether no refill failed. -/
def tryReadLoop : Nat → PFile → Nat → Nat → List UInt8 × Bool × PFile
  | 0, s, _, _ => ([], true, s)
  | turns + 1, s, position, size =>
    if 0 < size then
      match if s.Outside position then s.tryFillBuffer answer position else (true, s) with
      | (false, t) => ([], false, t)
      | (true, t) =>
        if s.Outside position ∧ t.validBufferSize = 0 then ([], true, t)
        else
          let bufferOffset := position - t.bufferPosition
          let currentLength := min (t.validBufferSize - bufferOffset) size
          let rest := tryReadLoop turns t (position + currentLength) (size - currentLength)
          ((t.memory.drop bufferOffset).take currentLength ++ rest.1, rest.2)
    else ([], true, s)

/-- `return (bytesRead > 0) ? bytesRead : -1` where a refill failed. -/
def readResult (bytes : List UInt8) (completed : Bool) : Option (List UInt8) :=
  if completed ∨ bytes ≠ [] then some bytes else none

def tryReadPos (s : PFile) (position size : Nat) : Option (List UInt8) × PFile :=
  let s := s.allocate
  if s.goesDirect position size then
    match s.file.tryPread answer (size - s.bufferSize) position with
    | (none, file) => (none, { s with file := file })
    | (some bytes, file) =>
      let rest := tryReadLoop answer size { s with file := file } (position + bytes.length)
        (size - bytes.length)
      (readResult (bytes ++ rest.1) rest.2.1, rest.2.2)
  else
    let rest := tryReadLoop answer size s position size
    (readResult rest.1 rest.2.1, rest.2.2)

/-- `Flush` and an empty window at the position. -/
def tryRestart (s : PFile) (position : Nat) : Bool × PFile :=
  match s.tryFlush answer with
  | (false, s) => (false, s)
  | (true, s) => (true, { s with bufferPosition := position, validBufferSize := 0 })

/-- The loop in `WritePos`: `bytesWritten`, and whether no `Flush` failed. -/
def tryWriteLoop : Nat → PFile → Nat → List UInt8 → Nat × Bool × PFile
  | 0, s, _, _ => (0, true, s)
  | turns + 1, s, position, data =>
    if 0 < data.length then
      match
        if s.bufferPosition + s.bufferSize ≤ position then s.tryRestart answer position
        else (true, s) with
      | (false, s) => (0, false, s)
      | (true, s) =>
        let bufferOffset := position - s.bufferPosition
        let currentLength := min (s.bufferSize - bufferOffset) data.length
        let rest := tryWriteLoop turns (s.stored bufferOffset (data.take currentLength))
          (position + currentLength) (data.drop currentLength)
        (currentLength + rest.1, rest.2)
    else (0, true, s)

section

variable (s : PFile)

def tryWriteBuffered (position : Nat) (data : List UInt8) : Nat × Bool × PFile :=
  match
    if position < s.bufferPosition ∨ s.bufferPosition + s.validBufferSize < position then
      s.tryRestart answer position
    else (true, s) with
  | (false, s) => (0, false, s)
  | (true, s) => tryWriteLoop answer data.length s position data

def tryWriteAllocated (position : Nat) (data : List UInt8) : Nat × Bool × PFile :=
  if s.goesDirect position data.length then
    match s.file.tryPwrite answer (data.take (data.length - s.bufferSize)) position with
    | (none, file) => (0, false, { s with file := file })
    | (some bytesWritten, file) =>
      let rest := tryWriteBuffered answer { s with file := file } (position + bytesWritten)
        (data.drop bytesWritten)
      (bytesWritten + rest.1, rest.2)
  else tryWriteBuffered answer s position data

/-- What `WritePos` has written when it returns, and whether it returns that. -/
def tryWriteBytes (position : Nat) (data : List UInt8) : Nat × Bool × PFile :=
  if s.bufferSize = 0 then
    match s.file.tryPwrite answer data position with
    | (none, file) => (0, false, { s with file := file })
    | (some bytesWritten, file) => (bytesWritten, true, { s with file := file })
  else s.allocate.tryWriteAllocated answer position data

/-- -1 where a call failed, whatever has been written before. -/
def tryWritePos (position : Nat) (data : List UInt8) : Option Nat × PFile :=
  let written := s.tryWriteBytes answer position data
  (if written.2.1 then some written.1 else none, written.2.2)

def tryRead (size : Nat) : Option (List UInt8) × PFile :=
  let read := s.tryReadPos answer s.position size
  (read.1, { read.2 with position := read.2.position + (read.1.getD []).length })

def tryWrite (data : List UInt8) : Option Nat × PFile :=
  let written := s.tryWritePos answer s.position data
  (written.1, { written.2 with position := written.2.position + written.1.getD 0 })

/-- Only to a buffer that goes away something is written. -/
def trySetBufferSize (bufferSize : Nat) : Bool × PFile :=
  if bufferSize = 0 ∧ s.bufferSize ≠ 0 then
    match s.tryFlush answer with
    | (false, s) => (false, s)
    | (true, s) => (true, { s with validBufferSize := 0, bufferSize := 0, buffer := none })
  else (true, s.SetBufferSize (fun _ => 0) bufferSize)

/-- The state after an operation. -/
def perform : FileOp → PFile
  | .Read size => (s.tryRead answer size).2
  | .Write data => (s.tryWrite answer data).2
  | .ReadPos position size => (s.tryReadPos answer position size).2
  | .WritePos position data => (s.tryWritePos answer position data).2
  | .Seek position mode => (s.Seek position mode).2
  | .SetBufferSize bufferSize => (s.trySetBufferSize answer bufferSize).2
  | .Flush => (s.tryFlush answer).2
  | .GetSize => s

/-- The plain file in which only what is reported as written has been written. -/
def reported : FileOp → PlainFile
  | .Read size => ⟨s.contents, s.position + ((s.tryRead answer size).1.getD []).length⟩
  | .Write data =>
    let bytesWritten := (s.tryWrite answer data).1.getD 0
    ⟨writeAt 0 s.contents s.position (data.take bytesWritten), s.position + bytesWritten⟩
  | .WritePos position data =>
    let bytesWritten := (s.tryWritePos answer position data).1.getD 0
    ⟨writeAt 0 s.contents position (data.take bytesWritten), s.position⟩
  | .Seek position mode => ⟨s.contents, (s.Seek position mode).2.position⟩
  | _ => ⟨s.contents, s.position⟩

end

end PFile

end PadOS.Storage
