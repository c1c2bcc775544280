import Mathlib.Data.UInt
import PadOS.Core.ErrorCode
import PadOS.Core.StreamParser

/-!
# Frames of the serial multiplexer

`SendMuxFrame` writes a header and a payload with two calls of `kwrite` whose results it does not
read; `ProcessIncomingByte` takes the other direction apart, byte by byte.
-/

namespace PadOS.Kernel

open ByteStream

structure ShellMuxHeader where
  Magic : UInt16
  ChannelID : UInt16
  Length : UInt16
  deriving DecidableEq, Repr

def ShellMuxHeader.MAGIC : UInt16 := 0xA55A

def SHELL_MUX_MAX_PAYLOAD : Nat := 4096

def MAGIC_BYTE0 : UInt8 := (ShellMuxHeader.MAGIC &&& 0xFF).toUInt8

def MAGIC_BYTE1 : UInt8 := (ShellMuxHeader.MAGIC >>> 8).toUInt8

/-- Low byte first, as the header lies in memory. -/
def bytesOf (value : UInt16) : List UInt8 := [value.toUInt8, (value >>> 8).toUInt8]

def wordOf (low high : UInt8) : UInt16 := low.toUInt16 ||| (high.toUInt16 <<< 8)

def ShellMuxHeader.bytes (header : ShellMuxHeader) : List UInt8 :=
  bytesOf header.Magic ++ bytesOf header.ChannelID ++ bytesOf header.Length

inductive ParseState
  | SyncByte0
  | SyncByte1
  | Header
  | Payload
  deriving DecidableEq, Repr

/-- `headerBytes` are the first `m_HeaderBytesReceived` of `m_HeaderBytes`. -/
structure MuxParser where
  parseState : ParseState
  headerBytes : List UInt8
  currentHeader : ShellMuxHeader
  payloadBuf : List UInt8
  deriving DecidableEq, Repr

namespace MuxParser

def initial : MuxParser where
  parseState := .SyncByte0
  headerBytes := []
  currentHeader := ⟨0, 0, 0⟩
  payloadBuf := []

end MuxParser

/-- The channel and the data of a call of `DispatchFrame`. -/
structure MuxFrame where
  channelID : UInt16
  data : List UInt8
  deriving DecidableEq, Repr

namespace MuxParser

/-- The fourth byte of the header has come. -/
def headerComplete (s : MuxParser) (header : ShellMuxHeader) : MuxParser × List MuxFrame :=
  let s := { s with currentHeader := header }
  if header.Length = 0 then
    ({ s with parseState := .SyncByte0 }, [⟨header.ChannelID, []⟩])
  else if SHELL_MUX_MAX_PAYLOAD < header.Length.toNat then
    ({ s with parseState := .SyncByte0 }, [])
  else ({ s with payloadBuf := [], parseState := .Payload }, [])

def ProcessIncomingByte (s : MuxParser) (byte : UInt8) : MuxParser × List MuxFrame :=
  match s.parseState with
  | .SyncByte0 =>
    if byte = MAGIC_BYTE0 then ({ s with parseState := .SyncByte1 }, []) else (s, [])
  | .SyncByte1 =>
    if byte = MAGIC_BYTE1 then ({ s with headerBytes := [], parseState := .Header }, [])
    else if byte = MAGIC_BYTE0 then (s, [])
    else ({ s with parseState := .SyncByte0 }, [])
  | .Header =>
    let s := { s with headerBytes := s.headerBytes ++ [byte] }
    match s.headerBytes with
    | [b0, b1, b2, b3] => s.headerComplete ⟨ShellMuxHeader.MAGIC, wordOf b0 b1, wordOf b2 b3⟩
    | _ => (s, [])
  | .Payload =>
    let s := { s with payloadBuf := s.payloadBuf ++ [byte] }
    if s.payloadBuf.length = s.currentHeader.Length.toNat then
      ({ s with parseState := .SyncByte0 }, [⟨s.currentHeader.ChannelID, s.payloadBuf⟩])
    else (s, [])

end MuxParser

/-- What one call of `kwrite` on the non-blocking port does with its data. -/
inductive WriteOutcome
  | written (count : Nat)
  | failed (error : PErrorCode)
  deriving DecidableEq, Repr

/-- The bytes that get onto the port. -/
def WriteOutcome.kwrite (outcome : WriteOutcome) (data : List UInt8) : List UInt8 :=
  match outcome with
  | .written count => data.take count
  | .failed _ => []

/-- The results of both calls are dropped: no outcome is reported. -/
def SendMuxFrame (channelID : UInt16) (data : List UInt8) (header payload : WriteOutcome) :
    List UInt8 :=
  header.kwrite
      (ShellMuxHeader.bytes ⟨ShellMuxHeader.MAGIC, channelID, UInt16.ofNat data.length⟩) ++
    if 0 < data.length then payload.kwrite data else []

/-- One call of `SendMuxFrame`, and what its writes come to. -/
structure MuxSend where
  channelID : UInt16
  data : List UInt8
  fits : data.length ≤ SHELL_MUX_MAX_PAYLOAD
  header : WriteOutcome
  payload : WriteOutcome

namespace MuxSend

def frame (send : MuxSend) : MuxFrame := ⟨send.channelID, send.data⟩

def sent (send : MuxSend) : List UInt8 :=
  SendMuxFrame send.channelID send.data send.header send.payload

def headerBytes (send : MuxSend) : List UInt8 :=
  ShellMuxHeader.bytes ⟨ShellMuxHeader.MAGIC, send.channelID, UInt16.ofNat send.data.length⟩

/-- Neither write was short and neither failed. -/
def Complete (send : MuxSend) : Prop :=
  send.header.kwrite send.headerBytes = send.headerBytes ∧
    (send.data ≠ [] → send.payload.kwrite send.data = send.data)

end MuxSend

/-- What reaches the parser: a byte, or a failed read after which the port is opened again. -/
inductive MuxInput
  | byte (value : UInt8)
  | reopened

def MuxParser.takes (s : MuxParser) : MuxInput → MuxParser × List MuxFrame
  | .byte value => s.ProcessIncomingByte value
  | .reopened => ({ s with parseState := .SyncByte0 }, [])

end PadOS.Kernel
