import PadOS.Core.FileContent
import PadOS.Core.StreamParser

/-!
# Buffered files

A `PFile` keeps one window of the file in its buffer, for reads and writes alike. The kernel's calls
succeed, but each may move less than it is asked to.
-/

namespace PadOS.Storage

open FileContent

/-- The file below, and how many calls it has answered. -/
structure KernelFile where
  content : List UInt8
  calls : Nat
  deriving DecidableEq, Repr

structure PFile where
  file : KernelFile
  position : Nat
  bufferSize : Nat
  buffer : Option (List UInt8)
  bufferPosition : Nat
  validBufferSize : Nat
  dirty : Bool
  deriving DecidableEq, Repr

inductive SeekMode
  | SEEK_SET
  | SEEK_CUR
  | SEEK_END
  deriving DecidableEq, Repr

inductive FileOp
  | Read (size : Nat)
  | Write (data : List UInt8)
  | ReadPos (position size : Nat)
  | WritePos (position : Nat) (data : List UInt8)
  | Seek (position : Int) (mode : SeekMode)
  | SetBufferSize (bufferSize : Nat)
  | Flush
  | GetSize
  deriving DecidableEq, Repr

/-- What a call gives back: its data, a count, a position or nothing but success. -/
inductive FileReply
  | data (bytes : List UInt8)
  | count (size : Nat)
  | position (result : Option Nat)
  | done
  deriving DecidableEq, Repr

section Kernel

variable (limit : Nat → Nat)

namespace KernelFile

/-- How much of `size` the next call moves: at least one byte, where there is one. -/
def moves (file : KernelFile) (size : Nat) : Nat := min size (limit file.calls + 1)

def pread (file : KernelFile) (size position : Nat) : List UInt8 × KernelFile :=
  (readAt file.content position (file.moves limit size), { file with calls := file.calls + 1 })

def pwrite (file : KernelFile) (data : List UInt8) (position : Nat) : Nat × KernelFile :=
  let size := file.moves limit data.length
  (size, { content := writeAt 0 file.content position (data.take size), calls := file.calls + 1 })

end KernelFile

namespace PFile

def opened (content : List UInt8) : PFile where
  file := ⟨content, 0⟩
  position := 0
  bufferSize := 0
  buffer := none
  bufferPosition := 0
  validBufferSize := 0
  dirty := false

/-- `m_Buffer`, as far as it has been allocated. -/
def memory (s : PFile) : List UInt8 := s.buffer.getD []

/-- The valid part of the buffer. -/
def window (s : PFile) : List UInt8 := s.memory.take s.validBufferSize

/-- The loop in `Flush`; every call writes something, so one turn for each byte is enough. -/
def flushLoop : Nat → KernelFile → List UInt8 → Nat → KernelFile
  | 0, file, _, _ => file
  | turns + 1, file, data, position =>
    if 0 < data.length then
      let bytesWritten := (file.pwrite limit data position).1
      flushLoop turns (file.pwrite limit data position).2 (data.drop bytesWritten)
        (position + bytesWritten)
    else file

def Flush (s : PFile) : PFile :=
  if s.dirty then
    { s with
      file := flushLoop limit s.validBufferSize s.file s.window s.bufferPosition
      dirty := false }
  else s

def FillBuffer (s : PFile) (position : Nat) : PFile :=
  let s := s.Flush limit
  let read := s.file.pread limit s.bufferSize position
  { s with
    file := read.2
    buffer := some (read.1 ++ s.memory.drop read.1.length)
    bufferPosition := position
    validBufferSize := read.1.length }

/-- `m_Buffer = new uint8_t[m_BufferSize]` where there is none. -/
def allocate (s : PFile) : PFile :=
  match s.buffer with
  | none => { s with buffer := some (List.replicate s.bufferSize 0) }
  | some _ => s

/-- A transfer of `size` bytes goes to the file itself as far as it stays off the window. -/
def goesDirect (s : PFile) (position size : Nat) : Bool :=
  let preSize := size - s.bufferSize
  s.bufferSize * 2 < size ∧ (s.validBufferSize = 0 ∨ position + preSize ≤ s.bufferPosition ∨
    s.bufferPosition + s.validBufferSize < position)

/-- The loop in `ReadPos`; every turn but the last copies something. -/
def readLoop : Nat → PFile → Nat → Nat → List UInt8 × PFile
  | 0, s, _, _ => ([], s)
  | turns + 1, s, position, size =>
    if 0 < size then
      let outside := position < s.bufferPosition ∨ s.bufferPosition + s.validBufferSize ≤ position
      let s := if outside then s.FillBuffer limit position else s
      if outside ∧ s.validBufferSize = 0 then ([], s)
      else
        let bufferOffset := position - s.bufferPosition
        let currentLength := min (s.validBufferSize - bufferOffset) size
        let rest := readLoop turns s (position + currentLength) (size - currentLength)
        ((s.memory.drop bufferOffset).take currentLength ++ rest.1, rest.2)
    else ([], s)

/-- `if (fileDescriptor == -1)` guards the return for an unbuffered file, which so goes on. -/
def ReadPos (s : PFile) (position size : Nat) : List UInt8 × PFile :=
  let s := s.allocate
  if s.goesDirect position size then
    let read := s.file.pread limit (size - s.bufferSize) position
    let rest := readLoop limit size { s with file := read.2 } (position + read.1.length)
      (size - read.1.length)
    (read.1 ++ rest.1, rest.2)
  else readLoop limit size s position size

/-- The loop in `WritePos`, with the bytes it has written. -/
def writeLoop : Nat → PFile → Nat → List UInt8 → Nat × PFile
  | 0, s, _, _ => (0, s)
  | turns + 1, s, position, data =>
    if 0 < data.length then
      let s :=
        if s.bufferPosition + s.bufferSize ≤ position then
          { s.Flush limit with bufferPosition := position, validBufferSize := 0 }
        else s
      let bufferOffset := position - s.bufferPosition
      let currentLength := min (s.bufferSize - bufferOffset) data.length
      let s :=
        { s with
          buffer := some (s.memory.take bufferOffset ++ data.take currentLength ++
            s.memory.drop (bufferOffset + currentLength))
          validBufferSize := max s.validBufferSize (bufferOffset + currentLength)
          dirty := true }
      let rest := writeLoop turns s (position + currentLength) (data.drop currentLength)
      (currentLength + rest.1, rest.2)
    else (0, s)

section

variable (s : PFile)

/-- What is written through the buffer, from a window that the position is in or behind. -/
def writeBuffered (position : Nat) (data : List UInt8) : Nat × PFile :=
  let s :=
    if position < s.bufferPosition ∨ s.bufferPosition + s.validBufferSize < position then
      { s.Flush limit with bufferPosition := position, validBufferSize := 0 }
    else s
  writeLoop limit data.length s position data

/-- `WritePos` once there is a buffer. -/
def writeAllocated (position : Nat) (data : List UInt8) : Nat × PFile :=
  if s.goesDirect position data.length then
    let written := s.file.pwrite limit (data.take (data.length - s.bufferSize)) position
    let rest := writeBuffered limit { s with file := written.2 } (position + written.1)
      (data.drop written.1)
    (written.1 + rest.1, rest.2)
  else writeBuffered limit s position data

def WritePos (position : Nat) (data : List UInt8) : Nat × PFile :=
  if s.bufferSize = 0 then
    let written := s.file.pwrite limit data position
    (written.1, { s with file := written.2 })
  else s.allocate.writeAllocated limit position data

def Read (size : Nat) : List UInt8 × PFile :=
  let read := s.ReadPos limit s.position size
  (read.1, { read.2 with position := read.2.position + read.1.length })

def Write (data : List UInt8) : Nat × PFile :=
  let written := s.WritePos limit s.position data
  (written.1, { written.2 with position := written.2.position + written.1 })

def SetBufferSize (bufferSize : Nat) : PFile :=
  if bufferSize = s.bufferSize then s
  else if bufferSize = 0 then
    { s.Flush limit with validBufferSize := 0, bufferSize := 0, buffer := none }
  else
    match s.buffer with
    | some memory =>
      let validBufferSize := min s.validBufferSize bufferSize
      { s with
        validBufferSize := validBufferSize
        buffer := some (memory.take validBufferSize ++
          List.replicate (bufferSize - validBufferSize) 0)
        bufferSize := bufferSize }
    | none => { s with bufferSize := bufferSize }

/-- With the cache of the node brought up to date, as is its default. -/
def GetSize : Nat :=
  if 0 < s.validBufferSize ∧ s.file.content.length < s.bufferPosition + s.validBufferSize then
    s.bufferPosition + s.validBufferSize
  else s.file.content.length

end

end PFile

end Kernel

/-- The position that `Seek` comes to, from the size and the position of the file. -/
def seekTo (size current : Nat) (position : Int) : SeekMode → Option Nat
  | .SEEK_SET => if position < 0 then none else some position.toNat
  | .SEEK_CUR => if current + position < 0 then none else some (current + position).toNat
  | .SEEK_END => if size + position < 0 then none else some (size + position).toNat

namespace PFile

def Seek (s : PFile) (position : Int) (mode : SeekMode) : Option Nat × PFile :=
  match seekTo s.GetSize s.position position mode with
  | some target => (some target, { s with position := target })
  | none => (none, s)

def step (limit : Nat → Nat) (s : PFile) : FileOp → PFile × List FileReply
  | .Read size => ((s.Read limit size).2, [.data (s.Read limit size).1])
  | .Write data => ((s.Write limit data).2, [.count (s.Write limit data).1])
  | .ReadPos position size =>
    ((s.ReadPos limit position size).2, [.data (s.ReadPos limit position size).1])
  | .WritePos position data =>
    ((s.WritePos limit position data).2, [.count (s.WritePos limit position data).1])
  | .Seek position mode => ((s.Seek position mode).2, [.position (s.Seek position mode).1])
  | .SetBufferSize bufferSize => (s.SetBufferSize limit bufferSize, [.done])
  | .Flush => (s.Flush limit, [.done])
  | .GetSize => (s, [.count s.GetSize])

end PFile

/-- A plain file: every call moves all it is asked to, up to the end of the file. -/
structure PlainFile where
  content : List UInt8
  position : Nat
  deriving DecidableEq, Repr

namespace PlainFile

def step (s : PlainFile) : FileOp → PlainFile × List FileReply
  | .Read size =>
    let bytes := readAt s.content s.position size
    ({ s with position := s.position + bytes.length }, [.data bytes])
  | .Write data =>
    ({ content := writeAt 0 s.content s.position data, position := s.position + data.length },
      [.count data.length])
  | .ReadPos position size => (s, [.data (readAt s.content position size)])
  | .WritePos position data =>
    ({ s with content := writeAt 0 s.content position data }, [.count data.length])
  | .Seek position mode =>
    match seekTo s.content.length s.position position mode with
    | some target => ({ s with position := target }, [.position (some target)])
    | none => (s, [.position none])
  | .SetBufferSize _ => (s, [.done])
  | .Flush => (s, [.done])
  | .GetSize => (s, [.count s.content.length])

end PlainFile

end PadOS.Storage
