import Mathlib.Data.List.Basic
import Mathlib.Data.UInt

/-!
# The line editor of a terminal

`AddInput` takes text as it comes from the terminal: control characters and escape sequences edit
the line, a carriage return or a line feed submits it, and everything else is text to insert. What
is drawn is left out, and with it the prompt.
-/

namespace PadOS.Terminal

/-- `PANSI_ControlCode`; a sequence's final byte stands for itself. -/
inductive ControlCode
  | None
  | Pending
  | Disconnect
  | Break
  | Cancel
  | Escape
  | Backspace
  | Tab
  | final (byte : UInt8)
  deriving DecidableEq, Repr

namespace ControlCode

def VT_Keycode : ControlCode := .final 0x7e
def XTerm_Up : ControlCode := .final 0x41
def XTerm_Down : ControlCode := .final 0x42
def XTerm_Right : ControlCode := .final 0x43
def XTerm_Left : ControlCode := .final 0x44
def XTerm_End : ControlCode := .final 0x46
def XTerm_Home : ControlCode := .final 0x48

end ControlCode

inductive ControlState
  | None
  | WaitingForStart
  | WaitingForEnd
  deriving DecidableEq, Repr

/-- `PANSIEscapeCodeParser` -/
structure AnsiParser where
  controlState : ControlState
  codeArgs : List Nat
  deriving DecidableEq, Repr

namespace AnsiParser

def initial : AnsiParser := ⟨.None, []⟩

/-- `m_CodeArgs.back() = m_CodeArgs.back() * 10 + character - '0'` -/
def addDigit (args : List Nat) (character : UInt8) : List Nat :=
  match args.reverse with
  | [] => []
  | last :: others => ((last * 10 + (character.toNat - 0x30)) :: others).reverse

def ProcessCharacter (s : AnsiParser) (character : UInt8) : ControlCode × AnsiParser :=
  if character = 0x03 then (.Break, s)
  else if character = 0x04 then (.Disconnect, s)
  else if character = 0x08 ∨ character = 0x7f then (.Backspace, s)
  else if character = 0x09 then (.Tab, s)
  else
    match s.controlState with
    | .None =>
      if character = 0x1b then (.Pending, ⟨.WaitingForStart, [0]⟩) else (.None, s)
    | .WaitingForStart =>
      if character = 0x5b then (.Pending, { s with controlState := .WaitingForEnd })
      else if character = 0x1b then (.Escape, { s with controlState := .None })
      else (.None, { s with controlState := .None })
    | .WaitingForEnd =>
      if 0x40 ≤ character ∧ character ≤ 0x7e then
        (.final character, { s with controlState := .None })
      else if 0x30 ≤ character ∧ character ≤ 0x3f then
        if character = 0x3b then (.Pending, { s with codeArgs := s.codeArgs ++ [0] })
        else if character ≤ 0x39 then
          (.Pending, { s with codeArgs := addDigit s.codeArgs character })
        else (.Pending, s)
      else if 0x20 ≤ character ∧ character ≤ 0x2f then (.Pending, s)
      else (.None, { s with controlState := .None })

end AnsiParser

/-- `utf8_char_length` -/
def utf8_char_length (firstByte : UInt8) : Nat :=
  (((0xe5000000 : UInt32) >>> ((firstByte >>> 3) &&& 0x1e).toUInt32) &&& 3).toNat + 1

def is_first_utf8_byte (byte : UInt8) : Bool := byte &&& 0xc0 ≠ 0x80

/-- 0 where the character is not complete, or there is none. -/
def GetUTF8CharacterLength (text : List UInt8) (offset : Nat) : Nat :=
  match text.drop offset with
  | [] => 0
  | first :: rest =>
    if utf8_char_length first ≤ rest.length + 1 then utf8_char_length first else 0

/-- What the loops over characters advance by: 1 for a character that is not complete. -/
def characterStep (text : List UInt8) (offset : Nat) : Nat :=
  if GetUTF8CharacterLength text offset = 0 then 1 else GetUTF8CharacterLength text offset

def GetPreviousUTF8CharacterOffset (text : List UInt8) : Nat → Nat
  | 0 => 0
  | 1 => 0
  | offset + 2 =>
    if is_first_utf8_byte (text.getD (offset + 1) 0) then offset + 1
    else GetPreviousUTF8CharacterOffset text (offset + 1)

structure CompletionCandidate where
  text : List UInt8
  isFinal : Bool
  deriving DecidableEq, Repr

/-- `INVALID_INDEX` is `none`. -/
structure CompletionResult where
  candidates : List CompletionCandidate
  replaceStartInToken : Option Nat
  replaceEndInToken : Option Nat
  deriving DecidableEq, Repr

structure CompletionContext where
  lineBuffer : List UInt8
  tokenText : List UInt8
  cursorPosition : Nat
  tokenIndex : Nat
  tokenOffset : Nat
  deriving DecidableEq, Repr

/-- What the editor reports to its owner. -/
inductive LineEvent
  | submitted (line : List UInt8)
  | broken
  | disconnected
  deriving DecidableEq, Repr

/-- What the editor asks of the tokenizer, which is a function of the text alone, and of its owner,
whose answer may depend on what has been reported to it. -/
structure EditorHost where
  incomplete : List UInt8 → Bool
  GetTokenByPosition : List UInt8 → Nat → Option (Nat × Nat)
  GetTokenText : List UInt8 → Nat → List UInt8
  TokenToGlobalOffset : List UInt8 → Nat → Nat → Nat
  GetExpansionList : Option (List LineEvent → CompletionContext → CompletionResult)

structure EditorSettings where
  breakCharacter : Option UInt8
  disconnectCharacter : Option UInt8
  cancelCharacter : Option UInt8
  continueIncomplete : Bool
  cancelAtStart : Bool
  disconnectOnEmpty : Bool
  autoRestart : Bool
  historyEnabled : Bool
  deriving DecidableEq, Repr

structure LineEditor where
  settings : EditorSettings
  ansiCodeParser : AnsiParser
  inputBuffer : List UInt8
  editBuffer : List UInt8
  incompleteUTF8Text : List UInt8
  historyBuffers : List (List UInt8)
  historyLocation : Nat
  cursorPosition : Nat
  pendingExpansionAlternatives : List CompletionCandidate
  inputActive : Bool
  skipNextLineFeed : Bool
  events : List LineEvent
  deriving DecidableEq, Repr

namespace LineEditor

def InsertInputText (s : LineEditor) (text : List UInt8) : LineEditor :=
  { s with
    pendingExpansionAlternatives := []
    editBuffer := s.editBuffer.take s.cursorPosition ++ text ++ s.editBuffer.drop s.cursorPosition
    cursorPosition := s.cursorPosition + text.length }

/-- The loop in `AddInputText`, from an offset on; every turn but the last passes a character. -/
def completeLength (text : List UInt8) : Nat → Nat → Nat
  | 0, offset => offset
  | turns + 1, offset =>
    if offset < text.length then
      let characterLength := GetUTF8CharacterLength text offset
      if characterLength = 0 then offset else completeLength text turns (offset + characterLength)
    else offset

section

variable (s : LineEditor)

def AddInputText (text : List UInt8) : LineEditor :=
  if text.length = 0 then s
  else
    let incomplete := s.incompleteUTF8Text ++ text
    let length := completeLength incomplete incomplete.length 0
    let s := { s with incompleteUTF8Text := incomplete }
    if length ≠ 0 then
      { s.InsertInputText (incomplete.take length) with
        incompleteUTF8Text := incomplete.drop length }
    else s

def FlushIncompleteUTF8Text : LineEditor :=
  if s.incompleteUTF8Text ≠ [] then
    { s.InsertInputText s.incompleteUTF8Text with incompleteUTF8Text := [] }
  else s

def ClearInput : LineEditor :=
  { s with
    ansiCodeParser := .initial
    pendingExpansionAlternatives := []
    inputBuffer := []
    editBuffer := []
    incompleteUTF8Text := []
    cursorPosition := 0
    historyLocation := s.historyBuffers.length }

/-- `BeginInput()` without a text to start with. -/
def BeginInput : LineEditor := { s.ClearInput with inputActive := true }

def RestartInput : LineEditor :=
  if s.settings.autoRestart then s.BeginInput else s

def CancelInput : LineEditor :=
  RestartInput { s.ClearInput with inputActive := false }

def report (event : LineEvent) : LineEditor :=
  { s with events := s.events ++ [event] }

end

variable (host : EditorHost)

def SubmitLine (s : LineEditor) : Bool × LineEditor :=
  let s := { s with pendingExpansionAlternatives := [] }
  let lineBuffer := s.inputBuffer ++ s.editBuffer
  if s.settings.continueIncomplete ∧ host.incomplete lineBuffer then
    (false, { s with
      inputBuffer := s.inputBuffer ++ s.editBuffer ++ [0x0a], editBuffer := [], cursorPosition := 0 })
  else
    let s :=
      if s.settings.historyEnabled ∧ lineBuffer ≠ [] then
        { s with historyBuffers := s.historyBuffers ++ [lineBuffer] }
      else s
    (true, RestartInput (report { s.ClearInput with inputActive := false } (.submitted lineBuffer)))

section

variable (s : LineEditor)

def MoveCursorTo (position : Nat) : LineEditor :=
  { s with cursorPosition := min position s.editBuffer.length }

/-- `MoveCursor(-1)` -/
def MoveCursorLeft : LineEditor :=
  MoveCursorTo { s with pendingExpansionAlternatives := [] }
    (GetPreviousUTF8CharacterOffset s.editBuffer s.cursorPosition)

/-- `MoveCursor(1)` -/
def MoveCursorRight : LineEditor :=
  MoveCursorTo { s with pendingExpansionAlternatives := [] }
    (if s.cursorPosition < s.editBuffer.length then
      min (s.cursorPosition + characterStep s.editBuffer s.cursorPosition) s.editBuffer.length
    else s.cursorPosition)

def historyDistance (distance : Int) : Int :=
  if distance < 0 then max distance (- (s.historyLocation : Int))
  else min distance ((s.historyBuffers.length - s.historyLocation : Nat) : Int)

/-- What was edited is kept in the history. -/
def exchange (distance : Int) : LineEditor :=
  let s :=
    if s.historyLocation < s.historyBuffers.length then
      { s with
        historyBuffers := s.historyBuffers.set s.historyLocation s.editBuffer, editBuffer := [] }
    else s
  let s := { s with historyLocation := (s.historyLocation + distance).toNat }
  let editBuffer := (s.historyBuffers[s.historyLocation]?).getD s.editBuffer
  { s with editBuffer := editBuffer, cursorPosition := editBuffer.length }

def MoveInHistory (distance : Int) : LineEditor :=
  let s := { s with pendingExpansionAlternatives := [] }
  if ¬ s.settings.historyEnabled ∨ s.inputBuffer ≠ [] then s
  else
    let distance := s.historyDistance distance
    if distance ≠ 0 then s.exchange distance else s

def DeleteChar : LineEditor :=
  let s := { s with pendingExpansionAlternatives := [] }
  if s.cursorPosition < s.editBuffer.length then
    { s with
      editBuffer := s.editBuffer.take s.cursorPosition ++
        s.editBuffer.drop (s.cursorPosition + characterStep s.editBuffer s.cursorPosition) }
  else s

def BackspaceChar : LineEditor :=
  let s := { s with pendingExpansionAlternatives := [] }
  if 0 < s.cursorPosition then
    let characterStart := GetPreviousUTF8CharacterOffset s.editBuffer s.cursorPosition
    { s with
      editBuffer := s.editBuffer.take characterStart ++ s.editBuffer.drop s.cursorPosition
      cursorPosition := min characterStart s.editBuffer.length }
  else s

end

/-- How far all the texts agree. -/
def commonStart : List UInt8 → List (List UInt8) → Nat
  | [], _ => 0
  | first :: rest, others =>
    if others.all (fun other => other.head? = some first) then
      commonStart rest (others.map List.tail) + 1
    else 0

/-- Back to where a character of the first candidate starts. -/
def characterBoundary (text : List UInt8) : Nat → Nat
  | 0 => 0
  | length + 1 =>
    if length + 1 < text.length ∧ ¬ is_first_utf8_byte (text.getD (length + 1) 0) then
      characterBoundary text length
    else length + 1

def GetCommonStartLength : List CompletionCandidate → Nat
  | [] => 0
  | [candidate] => candidate.text.length
  | candidate :: others =>
    characterBoundary candidate.text
      (commonStart candidate.text (others.map CompletionCandidate.text))

/-- What is put in place of the token's part, and whether it is final. -/
def replacement (s : LineEditor) (candidates : List CompletionCandidate)
    (replaceStart replaceEnd : Nat) : List UInt8 × Bool :=
  match candidates with
  | [] => ([], true)
  | [candidate] => (candidate.text, candidate.isFinal)
  | candidate :: _ =>
    let commonStartLength := GetCommonStartLength candidates
    let common := candidate.text.take commonStartLength
    if replaceEnd - replaceStart < commonStartLength ∨
        commonStartLength = replaceEnd - replaceStart ∧
          (s.editBuffer.drop replaceStart).take commonStartLength ≠ common then (common, false)
    else ([], false)

/-- Spaces with a backslash before them. -/
def escapeSpaces (text : List UInt8) : List UInt8 :=
  text.flatMap fun byte => if byte = 0x20 then [0x5c, byte] else [byte]

/-- The part of `ExpandArgument` behind its checks. -/
def replace (s : LineEditor) (candidates : List CompletionCandidate)
    (replaceStart replaceEnd : Nat) : LineEditor :=
  let (text, finalExpansion) := s.replacement candidates replaceStart replaceEnd
  if text ≠ [] then
    let text := escapeSpaces text ++
      if finalExpansion ∧ replaceEnd = s.editBuffer.length then [0x20] else []
    { s with
      cursorPosition := replaceStart + text.length
      editBuffer := s.editBuffer.take replaceStart ++ text ++ s.editBuffer.drop replaceEnd }
  else { s with pendingExpansionAlternatives := candidates }

/-- The token the cursor is in, with the offset in it; an empty line has none to look for. -/
def tokenAtCursor (lineBuffer : List UInt8) (cursorPosition : Nat) :
    Option (Nat × Nat) :=
  if lineBuffer = [] then some (0, 0) else host.GetTokenByPosition lineBuffer cursorPosition

/-- The checks of `ExpandArgument`: the candidates, and the part of the edit buffer they are for. -/
def expansion (s : LineEditor) :
    Option (List CompletionCandidate × Nat × Nat) :=
  let lineBuffer := s.inputBuffer ++ s.editBuffer
  let inputPrefixLength := s.inputBuffer.length
  let cursorPosition := inputPrefixLength + s.cursorPosition
  match host.GetExpansionList, tokenAtCursor host lineBuffer cursorPosition with
  | some getExpansionList, some (tokenIndex, tokenOffset) =>
    let tokenText := if lineBuffer = [] then [] else host.GetTokenText lineBuffer tokenIndex
    let result := getExpansionList s.events
      ⟨lineBuffer, tokenText, cursorPosition, tokenIndex, tokenOffset⟩
    match result.candidates, result.replaceStartInToken, result.replaceEndInToken with
    | candidate :: others, some startInToken, some endInToken =>
      if endInToken < startInToken then none
      else
        let global := fun offset =>
          if lineBuffer = [] then offset
          else host.TokenToGlobalOffset lineBuffer tokenIndex offset
        let replaceStart := global startInToken
        let replaceEnd := global endInToken
        if replaceStart < inputPrefixLength ∨ replaceEnd < replaceStart ∨
            lineBuffer.length < replaceEnd then none
        else
          some (candidate :: others, replaceStart - inputPrefixLength,
            replaceEnd - inputPrefixLength)
    | _, _, _ => none
  | _, _ => none

/-- Alternatives that are shown already are only drawn again. -/
def ExpandArgument (s : LineEditor) : LineEditor :=
  if s.pendingExpansionAlternatives ≠ [] then s
  else
    match s.expansion host with
    | some (candidates, replaceStart, replaceEnd) => s.replace candidates replaceStart replaceEnd
    | none => s

/-- The keys that send a number before their final byte. -/
def keycode (s : LineEditor) : List Nat → LineEditor
  | [] => s
  | 1 :: _ | 7 :: _ => s.MoveCursorTo 0
  | 4 :: _ | 8 :: _ => s.MoveCursorTo s.editBuffer.length
  | 3 :: _ => s.DeleteChar
  | 5 :: _ => s.MoveInHistory (- (s.historyLocation : Int))
  | 6 :: _ => s.MoveInHistory ((s.historyBuffers.length - s.historyLocation : Nat) : Int)
  | _ => s

/-- Whether the call of `AddInput` returns behind the character. -/
def ProcessControlCharacter (s : LineEditor) (code : ControlCode)
    (arguments : List Nat) : Bool × LineEditor :=
  match code with
  | .Cancel => (true, s.CancelInput)
  | .Break => (true, RestartInput (report { s.ClearInput with inputActive := false } .broken))
  | .Disconnect =>
    if s.settings.disconnectOnEmpty ∧ s.editBuffer = [] ∧ s.inputBuffer = [] then
      (true, report { s with inputActive := false } .disconnected)
    else (true, RestartInput { s.ClearInput with inputActive := false })
  | .Backspace =>
    if s.cursorPosition = 0 ∧ s.settings.cancelAtStart then (true, s.CancelInput)
    else (false, s.BackspaceChar)
  | .Tab => (false, s.ExpandArgument host)
  | code =>
    (false, if code = .XTerm_Left then s.MoveCursorLeft
      else if code = .XTerm_Right then s.MoveCursorRight
      else if code = .XTerm_Up then s.MoveInHistory (-1)
      else if code = .XTerm_Down then s.MoveInHistory 1
      else if code = .XTerm_End then s.MoveCursorTo s.editBuffer.length
      else if code = .XTerm_Home then s.MoveCursorTo 0
      else if code = .VT_Keycode then s.keycode arguments
      else s)

/-- What a character is to the editor, and the parser behind it. -/
def controlCharacter (s : LineEditor) (character : UInt8) : ControlCode × AnsiParser :=
  if s.settings.breakCharacter = some character then (.Break, s.ansiCodeParser)
  else if s.settings.disconnectCharacter = some character then (.Disconnect, s.ansiCodeParser)
  else if s.settings.cancelCharacter = some character then (.Cancel, s.ansiCodeParser)
  else if character ≠ 0x03 ∧ character ≠ 0x04 then s.ansiCodeParser.ProcessCharacter character
  else (.None, s.ansiCodeParser)

/-- The loop in `AddInput`; `run` is the text from `textStart` to the character. -/
def inputLoop (host : EditorHost) (s : LineEditor) (run : List UInt8) (characterIndex : Nat) :
    List UInt8 → Nat × LineEditor
  | [] => (characterIndex, s.AddInputText run)
  | character :: rest =>
    if s.skipNextLineFeed ∧ character = 0x0a then
      inputLoop host { s with skipNextLineFeed := false } [] (characterIndex + 1) rest
    else
      let s := { s with skipNextLineFeed := false }
      let (code, parser) := s.controlCharacter character
      let s := { s with ansiCodeParser := parser }
      if code ≠ .None then
        let s := s.AddInputText run
        if code ≠ .Pending then
          let (returns, s) := s.ProcessControlCharacter host code s.ansiCodeParser.codeArgs
          if returns then (characterIndex + 1, s)
          else inputLoop host s [] (characterIndex + 1) rest
        else inputLoop host s [] (characterIndex + 1) rest
      else if character = 0x0d ∨ character = 0x0a then
        let s := (s.AddInputText run).FlushIncompleteUTF8Text
        let (returns, s) := SubmitLine host { s with skipNextLineFeed := character = 0x0d }
        if returns then (characterIndex + 1, s)
        else inputLoop host s [] (characterIndex + 1) rest
      else inputLoop host s (run ++ [character]) (characterIndex + 1) rest

def AddInput (s : LineEditor) (text : List UInt8) : Nat × LineEditor :=
  if s.inputActive then inputLoop host s [] 0 text else (0, s)

/-- The loop in `ReadInput`: the rest of a text is added again, for as long as input is active. -/
def addAll (host : EditorHost) : Nat → LineEditor → List UInt8 → LineEditor × List UInt8
  | 0, s, text => (s, text)
  | turns + 1, s, text =>
    if text ≠ [] ∧ s.inputActive then
      let (consumed, s) := s.AddInput host text
      if consumed = 0 then (s, text) else addAll host turns s (text.drop consumed)
    else (s, text)

/-- Pieces of input one after the other; what is not consumed stays in `m_PendingReadText`. -/
def addPieces (host : EditorHost) (s : LineEditor) (pending : List UInt8) :
    List (List UInt8) → LineEditor × List UInt8
  | [] => (s, pending)
  | piece :: rest =>
    let text := pending ++ piece
    let (s, pending) := s.addAll host text.length text
    addPieces host s pending rest

end LineEditor

end PadOS.Terminal
