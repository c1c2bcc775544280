import PadOS.Fat.ShortName
import PadOS.Fat.Volume

/-! # Directory entries

A slot of a directory is 32 bytes, which are read as an 8.3 entry or as one record
of a long name. `GetNextLFNEntry` goes over slots with a small state; `lfnStep` is
the body of its loop and `foundEntry` what it makes of the slot it stops at.
-/

namespace PadOS.Fat

open Unicode

abbrev FATDirectoryEntryCombo := Fin 32 → UInt8

/-- The places of its bytes are written as literals. -/
instance neZeroSlotSize : NeZero (32 : Nat) := ⟨by decide⟩

def longNameAttributes : Nat := 0x0f
def longNameAttributeMask : Nat := 0x3f
def charactersPerLFNEntry : Nat := 13
def longNameMaxLength : Nat := 255
def longNameMaxEntryCount : Nat := 20

/-- The magic index of "no sequence in progress". -/
def noSequence : Nat := 0xffff

namespace FATDirectoryEntryCombo

variable (e : FATDirectoryEntryCombo)

def le16 (i j : Fin 32) : Nat := (e i).toNat + 0x100 * (e j).toNat

/-! The 8.3 view. -/

def filename : List UInt8 := [e 0, e 1, e 2, e 3, e 4, e 5, e 6, e 7, e 8, e 9, e 10]
def attribs : Nat := (e 0x0b).toNat
def shortNameCaseFlags : Nat := (e 0x0c).toNat
def createTimeFine : Nat := (e 0x0d).toNat
def createTime : Nat := le16 e 0x0e 0x0f
def createDate : Nat := le16 e 0x10 0x11
def accessDate : Nat := le16 e 0x12 0x13
def firstClusterHigh : Nat := le16 e 0x14 0x15
def modificationTime : Nat := le16 e 0x16 0x17
def modificationDate : Nat := le16 e 0x18 0x19
def firstClusterLow : Nat := le16 e 0x1a 0x1b
def fileSize : Nat := le16 e 0x1c 0x1d + 0x10000 * le16 e 0x1e 0x1f

/-! The long-name view. -/

def sequenceNumber : Nat := (e 0).toNat
def reserved1 : Nat := (e 0x0c).toNat
def hash : Nat := (e 0x0d).toNat
def reserved2 : Nat := le16 e 0x1a 0x1b

/-- The three name parts. -/
def nameParts : List Nat :=
  [le16 e 1 2, le16 e 3 4, le16 e 5 6, le16 e 7 8, le16 e 9 10,
    le16 e 0x0e 0x0f, le16 e 0x10 0x11, le16 e 0x12 0x13, le16 e 0x14 0x15, le16 e 0x16 0x17,
    le16 e 0x18 0x19, le16 e 0x1c 0x1d, le16 e 0x1e 0x1f]

def isEnd : Bool := sequenceNumber e == 0
def isErased : Bool := sequenceNumber e == 0xe5
def isLongName : Bool := attribs e &&& longNameAttributeMask == longNameAttributes

/-- A slot that is an entry of its own. -/
def isLive : Bool := !isEnd e && !isErased e && !isLongName e

end FATDirectoryEntryCombo

def hashMSDOSName (name : List UInt8) : Nat :=
  name.foldl (fun c byte => ((c <<< 7) + (c >>> 1) + byte.toNat) % 0x100) 0

/-- `FATRawShortNameToUTF8`, which appends to its destination. -/
def fatRawShortNameToUtf8 (e : FATDirectoryEntryCombo) : PString :=
  let lowercaseBase := e.shortNameCaseFlags &&& shortNameLowercaseBase != 0
  let lowercaseExtension := e.shortNameCaseFlags &&& shortNameLowercaseExtension != 0
  let convert (lowercase : Bool) (character : UInt8) : PString :=
    unicodeToUtf8 (cp437ToUtf16
      (if lowercase then convertCp437CharacterCase character true else character))
  let base := (e.filename.take 8).takeWhile (· ≠ 0x20)
  let base := if base.head? = some 5 then 0xe5 :: base.tail else base
  let extension := (e.filename.drop 8).takeWhile (· ≠ 0x20)
  base.flatMap (convert lowercaseBase) ++
    (if extension = [] then [] else 0x2e :: extension.flatMap (convert lowercaseExtension))

/-! ## The loop body of `GetNextLFNEntry` -/

structure LFNState where
  startIndex : Nat := noSequence
  hash : Nat := 0
  filenameLen : Nat := 0
  lfnCount : Nat := 0
  utf16Buffer : Nat → Nat := fun _ => 0

/-- `memcpy` of units into the buffer. -/
def writeUnits (buffer : Nat → Nat) (start : Nat) (units : List Nat) : Nat → Nat := fun i =>
  if start ≤ i ∧ i < start + units.length then units.getD (i - start) 0 else buffer i

/-- A terminator at the end of the buffer does not count. -/
def withoutTerminator (buffer : Nat → Nat) (length : Nat) : Nat :=
  if length > 0 ∧ buffer (length - 1) = 0 then length - 1 else length

inductive LFNStep
  | endOfTable
  | skip (state : LFNState)
  | entry

/-- The first record of a sequence, which holds the last part of the name. -/
def LFNState.begin (state : LFNState) (wantName : Bool) (index : Nat)
    (e : FATDirectoryEntryCombo) : LFNState :=
  let entryCount := e.sequenceNumber &&& 0x1f
  if e.sequenceNumber &&& 0xe0 ≠ 0x40 ∨ entryCount = 0 ∨ entryCount > longNameMaxEntryCount then state
  else
    let state := { state with hash := e.hash, lfnCount := entryCount, startIndex := index }
    if !wantName then state
    else
      let start := charactersPerLFNEntry * (entryCount - 1)
      let units := e.nameParts.takeWhile (· ≠ 0xffff)
      let buffer := writeUnits state.utf16Buffer start units
      let length := withoutTerminator buffer (start + units.length)
      { state with
        utf16Buffer := buffer, filenameLen := length
        startIndex := if length > longNameMaxLength then noSequence else index }

/-- A later record of a sequence. -/
def LFNState.continue (state : LFNState) (wantName : Bool) (e : FATDirectoryEntryCombo) : LFNState :=
  if e.hash ≠ state.hash then { state with startIndex := noSequence }
  else if state.lfnCount ≤ 1 ∨ e.sequenceNumber ≠ state.lfnCount - 1 then
    { state with startIndex := noSequence }
  else
    let lfnCount := state.lfnCount - 1
    { state with
      lfnCount
      utf16Buffer := if wantName then
        writeUnits state.utf16Buffer (charactersPerLFNEntry * (lfnCount - 1)) (e.nameParts)
        else state.utf16Buffer }

def lfnStep (wantName : Bool) (state : LFNState) (index : Nat) (e : FATDirectoryEntryCombo) : LFNStep :=
  if e.isEnd then .endOfTable
  else if e.isErased then .skip { state with startIndex := noSequence }
  else if e.isLongName then
    if e.reserved1 ≠ 0 ∨ e.reserved2 ≠ 0 then .skip state
    else if state.startIndex = noSequence then .skip (state.begin wantName index e)
    else .skip (state.continue wantName e)
  else .entry

/-! ## What is returned -/

structure FATDirectoryEntryInfo where
  startIndex : Nat
  endIndex : Nat
  startCluster : Nat
  size : Nat
  fatCreateTime : Nat
  fatAccessTime : Nat
  fatModificationTime : Nat
  fatCreateTimeFine : Nat
  dosAttribs : Nat
  deriving DecidableEq

/-- The results of a successful `GetNextLFNEntry`. -/
structure FoundEntry where
  info : FATDirectoryEntryInfo
  filename : PString
  shortFilename : PString
  deriving DecidableEq

def entryInfo (vol : FATVolume) (startIndex endIndex : Nat) (e : FATDirectoryEntryCombo) :
    FATDirectoryEntryInfo where
  startIndex := startIndex
  endIndex := endIndex
  dosAttribs := e.attribs
  startCluster := if vol.fatBits = 32 then e.firstClusterLow ||| (e.firstClusterHigh <<< 16)
    else e.firstClusterLow
  size := e.fileSize
  fatCreateTime := e.createTime ||| (e.createDate <<< 16)
  fatAccessTime := e.accessDate <<< 16
  fatModificationTime := e.modificationTime ||| (e.modificationDate <<< 16)
  fatCreateTimeFine := e.createTimeFine

/-- A sequence that lacks records or has another hash is dropped; in the second
case its name has been assigned already and the short name is appended to it. -/
def foundEntry (vol : FATVolume) (wantName : Bool) (state : LFNState) (index : Nat)
    (e : FATDirectoryEntryCombo) : FoundEntry :=
  let complete := state.startIndex ≠ noSequence ∧ state.lfnCount = 1
  let assigned := if complete ∧ wantName then
    assignUtf16 ((List.range state.filenameLen).map state.utf16Buffer) else []
  let isLong := complete ∧ hashMSDOSName (e.filename) = state.hash
  { info := entryInfo vol (if isLong then state.startIndex else index) index e
    filename := if isLong then assigned
      else if wantName then assigned ++ fatRawShortNameToUtf8 e else []
    shortFilename := fatRawShortNameToUtf8 e }

end PadOS.Fat
