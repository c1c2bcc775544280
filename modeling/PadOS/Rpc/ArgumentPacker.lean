import PadOS.Core.ByteOrder

/-!
# Arguments of remote calls

Each argument is written with a size of its own and padded to four bytes. A pointer into a buffer is
what the buffer holds from there on, next to the length that the code takes it to have; both
`size_t` and `ssize_t` have 32 bits.
-/

namespace PadOS.Rpc

open ByteOrder

/-- The types that are packed, with `sizeof(T)`. -/
inductive ArgType
  | plain (size : Nat)
  | string
  | vector (size : Nat)
  deriving DecidableEq, Repr

/-- A value's bytes; those of a vector are its elements' one after the other. -/
inductive Argument
  | plain (bytes : List UInt8)
  | string (bytes : List UInt8)
  | vector (count : Nat) (bytes : List UInt8)
  deriving DecidableEq, Repr

/-- How a call ends that does not return what it is to. An exception of the standard library fails
as well. -/
inductive Fault
  | fails
  | outside
  deriving DecidableEq, Repr

abbrev Checked (α : Type) := Except Fault α

def sizeT (n : Nat) : Nat := n % 2 ^ 32

def align_argument_size (length : Nat) : Nat := sizeT (length + 3) / 4 * 4

/-- `result >= 0` of an `ssize_t`. -/
def nonnegative (result : Nat) : Bool := sizeT result < 2 ^ 31

/-- `PTRDIFF_MAX`, which bounds `max_size()` of strings and vectors of bytes. -/
def maxSize : Nat := 2 ^ 31 - 1

/-! ## One argument -/

namespace Argument

/-- `PArgumentPacker<T>::GetSize` -/
def GetSize : Argument → Nat
  | plain bytes => sizeT bytes.length
  | string bytes => sizeT (4 + bytes.length)
  | vector _ bytes => sizeT (4 + bytes.length)

/-- What `Write` puts into the buffer. -/
def image : Argument → List UInt8
  | plain bytes => bytes
  | string bytes => toBytes 4 bytes.length ++ bytes
  | vector count bytes => toBytes 4 count ++ bytes

end Argument

/-- The bytes at a pointer. -/
def load (ahead : List UInt8) (count : Nat) : Checked (List UInt8) :=
  if count ≤ ahead.length then .ok (ahead.take count) else .error .outside

/-- The bytes at a pointer, after a write there. -/
def store (ahead bytes : List UInt8) : Checked (List UInt8) :=
  if bytes.length ≤ ahead.length then .ok (bytes ++ ahead.drop bytes.length) else .error .outside

/-- `PArgumentPacker<T>::Write`: the buffer and the result. -/
def Write (value : Argument) (ahead : List UInt8) (length : Nat) : Checked (List UInt8 × Nat) :=
  if length ≥ value.GetSize then do
    let written ← store ahead value.image
    return (written, value.GetSize)
  else .error .fails

/-- `PArgumentPacker<T>::Read`: the value and the result. A range of elements that ends behind the
buffer is outside, whatever its end comes to as a pointer. -/
def Read (type : ArgType) (ahead : List UInt8) (length : Nat) : Checked (Argument × Nat) :=
  match type with
  | .plain size =>
    if length ≥ size then do
      let bytes ← load ahead size
      return (.plain bytes, size)
    else .error .fails
  | .string =>
    if length < 4 then .error .fails
    else do
      let header ← load ahead 4
      let strLength := littleEndian header
      if length < sizeT (4 + strLength) then .error .fails
      else if strLength > maxSize then .error .fails
      else do
        let bytes ← load (ahead.drop 4) strLength
        return (.string bytes, sizeT (4 + strLength))
  | .vector size =>
    if length < 4 then .error .fails
    else do
      let header ← load ahead 4
      let count := littleEndian header
      let totalSize := sizeT (4 + sizeT (count * size))
      if length < totalSize then .error .fails
      else do
        let bytes ← load (ahead.drop 4) (count * size)
        return (.vector count bytes, totalSize)

/-! ## Lists of arguments -/

def AccumulateSize : List Nat → Nat
  | [] => 0
  | [first] => align_argument_size first
  | first :: rest => sizeT (align_argument_size first + AccumulateSize rest)

def GetSize (args : List Argument) : Nat := AccumulateSize (args.map Argument.GetSize)

/-- The buffer and the result. A result that is negative fails. -/
def WriteArg (ahead : List UInt8) (length : Nat) : List Argument → Checked (List UInt8 × Nat)
  | [] => .ok (ahead, 0)
  | [first] => do
    let (written, result) ← Write first ahead length
    if nonnegative result then return (written, align_argument_size result)
    else .error .fails
  | first :: rest => do
    let (written, result) ← Write first ahead length
    if nonnegative result then do
      let consumed := align_argument_size result
      let (behind, others) ← WriteArg (written.drop consumed) (sizeT (length + 2 ^ 32 - consumed)) rest
      if nonnegative others then return (written.take consumed ++ behind, sizeT (others + consumed))
      else .error .fails
    else .error .fails

/-- The arguments and the result. -/
def UnpackArgs (ahead : List UInt8) (length : Nat) : List ArgType → Checked (List Argument × Nat)
  | [] => .ok ([], 0)
  | first :: rest => do
    let (value, result) ← Read first ahead length
    if nonnegative result then do
      let consumed := align_argument_size result
      let (values, others) ← UnpackArgs (ahead.drop consumed) (sizeT (length + 2 ^ 32 - consumed)) rest
      if nonnegative others then return (value :: values, sizeT (others + consumed))
      else .error .fails
    else .error .fails

/-- What `SendSignal` calls the slots with. -/
def Dispatch (types : List ArgType) (data : List UInt8) : Checked (List Argument) := do
  let (values, result) ← UnpackArgs data data.length types
  if nonnegative result then return values else .error .fails

/-- `PRemoteSignalTX::Emit` on a buffer that holds anything. A negative result is not looked at, but
it is not the size. -/
def Emit (args : List Argument) (buffer : List UInt8) : Checked (List UInt8 × Nat) :=
  WriteArg buffer (GetSize args) args

end PadOS.Rpc
