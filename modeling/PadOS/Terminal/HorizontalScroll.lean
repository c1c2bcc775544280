import PadOS.Terminal.LineEditor

/-!
# The line editor on its terminal

What `PTerminalLineEditor` keeps beside the line: how it is displayed, the prompts, the terminal's
width and, for a line that scrolls, the offset of the first byte that is shown. The terminal answers
`UpdateTerminalSize` with its columns, and with 0 where it does not know them. Without the display
every operation is the one of `LineEditor`.
-/

namespace PadOS.Terminal

inductive DisplayMode
  | Wrap
  | HorizontalScroll
  deriving DecidableEq, Repr

structure Prompt where
  text : List UInt8
  visibleLength : Nat
  deriving DecidableEq, Repr

structure TerminalLineEditor extends LineEditor where
  displayMode : DisplayMode
  primaryPrompt : Prompt
  continuationPrompt : Prompt
  prompt : Prompt
  terminalSizeX : Nat
  horizontalOffset : Nat
  deriving DecidableEq, Repr

theorem characterStep_pos (text : List UInt8) (offset : Nat) : 0 < characterStep text offset := by
  unfold characterStep
  split
  · exact Nat.one_pos
  · omega

def GetUTF8CharacterCount (text : List UInt8) (startOffset endOffset : Nat) : Nat :=
  if startOffset < endOffset then
    GetUTF8CharacterCount text (startOffset + characterStep text startOffset) endOffset + 1
  else 0
termination_by endOffset - startOffset
decreasing_by
  have positive := characterStep_pos text startOffset
  omega

namespace TerminalLineEditor

variable (s : TerminalLineEditor)

variable (columns : Nat)

def UpdateTerminalSize : TerminalLineEditor :=
  if 0 < columns then { s with terminalSizeX := columns } else s

def GetSingleLineEditWidth : Nat :=
  let terminalWidth := max s.terminalSizeX 1
  let promptWidth := if s.prompt.visibleLength < terminalWidth then s.prompt.visibleLength else 0
  terminalWidth - promptWidth - 1

def GetSingleLineCursorColumn : Nat :=
  GetUTF8CharacterCount s.editBuffer s.horizontalOffset s.cursorPosition

/-- The loop in `GetSingleLineVisibleEnd`, by the columns that are left. -/
def visibleEnd (text : List UInt8) : Nat → Nat → Nat
  | 0, offset => offset
  | columns + 1, offset =>
    if offset < text.length then visibleEnd text columns (offset + characterStep text offset)
    else offset

def GetSingleLineVisibleEnd : Nat :=
  visibleEnd s.editBuffer s.GetSingleLineEditWidth s.horizontalOffset

/-- The loop in `UpdateSingleLineHorizontalOffset`; every turn takes one of the cursor's columns. -/
def scroll (text : List UInt8) (editWidth cursorPosition : Nat) : Nat → Nat → Nat
  | 0, offset => offset
  | cursorColumn + 1, offset =>
    if editWidth < cursorColumn + 1 ∧ offset < cursorPosition then
      scroll text editWidth cursorPosition cursorColumn (offset + characterStep text offset)
    else offset

/-- Whether the offset has changed. -/
def UpdateSingleLineHorizontalOffset : Bool × TerminalLineEditor :=
  let previousHorizontalOffset := s.horizontalOffset
  let s :=
    if s.cursorPosition < s.horizontalOffset then { s with horizontalOffset := s.cursorPosition }
    else s
  let s := { s with
    horizontalOffset := scroll s.editBuffer s.GetSingleLineEditWidth s.cursorPosition
      s.GetSingleLineCursorColumn s.horizontalOffset }
  (s.horizontalOffset ≠ previousHorizontalOffset, s)

def RenderSingleLine : TerminalLineEditor :=
  s.UpdateSingleLineHorizontalOffset.2

def RefreshSingleLine (startPosition : Nat) : TerminalLineEditor :=
  let (moved, s) := s.UpdateSingleLineHorizontalOffset
  if moved ∨ startPosition < s.horizontalOffset then s.RenderSingleLine
  else if s.GetSingleLineVisibleEnd < startPosition then s.RenderSingleLine
  else s

/-- A line that wraps is only drawn. -/
def RefreshText (startPosition : Nat) : TerminalLineEditor :=
  match s.displayMode with
  | .HorizontalScroll => s.RefreshSingleLine startPosition
  | .Wrap => s

def InsertInputText (text : List UInt8) : TerminalLineEditor :=
  let insertionPosition := s.cursorPosition
  let s := { s with toLineEditor := s.toLineEditor.InsertInputText text }
  s.RefreshText insertionPosition

def AddInputText (text : List UInt8) : TerminalLineEditor :=
  if text.length = 0 then s
  else
    let incomplete := s.incompleteUTF8Text ++ text
    let length := LineEditor.completeLength incomplete incomplete.length 0
    let s := { s with incompleteUTF8Text := incomplete }
    if length ≠ 0 then
      { s.InsertInputText (incomplete.take length) with
        incompleteUTF8Text := incomplete.drop length }
    else s

def FlushIncompleteUTF8Text : TerminalLineEditor :=
  if s.incompleteUTF8Text ≠ [] then
    { s.InsertInputText s.incompleteUTF8Text with incompleteUTF8Text := [] }
  else s

def ClearInput : TerminalLineEditor :=
  { s with toLineEditor := s.toLineEditor.ClearInput, horizontalOffset := 0 }

def BeginInput (initialText : List UInt8) :
    TerminalLineEditor :=
  let s := (s.UpdateTerminalSize columns).ClearInput
  let s := { s with prompt := s.primaryPrompt, inputActive := true }
  match s.displayMode with
  | .HorizontalScroll =>
    RenderSingleLine
      { s with editBuffer := initialText, cursorPosition := initialText.length }
  | .Wrap => s.AddInputText initialText

def RestartInput : TerminalLineEditor :=
  if s.settings.autoRestart then s.BeginInput columns [] else s

def ResetInput : TerminalLineEditor :=
  RestartInput { s.ClearInput with inputActive := false } columns

def CancelInput : TerminalLineEditor :=
  RestartInput { s.ClearInput with inputActive := false } columns

def report (event : LineEvent) : TerminalLineEditor :=
  { s with toLineEditor := s.toLineEditor.report event }

/-- A line that goes on leaves the horizontal offset where it is. -/
def SubmitLine (host : EditorHost) (s : TerminalLineEditor) (columns : Nat) :
    Bool × TerminalLineEditor :=
  let s := { s with pendingExpansionAlternatives := [] }
  let lineBuffer := s.inputBuffer ++ s.editBuffer
  if s.settings.continueIncomplete ∧ host.incomplete lineBuffer then
    (false, { s with
      inputBuffer := s.inputBuffer ++ s.editBuffer ++ [0x0a], editBuffer := [], cursorPosition := 0
      prompt := s.continuationPrompt })
  else
    let s :=
      if s.settings.historyEnabled ∧ lineBuffer ≠ [] then
        { s with historyBuffers := s.historyBuffers ++ [lineBuffer] }
      else s
    (true, RestartInput
      (report { s.ClearInput with inputActive := false } (.submitted lineBuffer)) columns)

/-- What `AddInput` does at the end of a line. -/
def endLine (host : EditorHost) (s : TerminalLineEditor) (columns : Nat) : TerminalLineEditor :=
  (SubmitLine host s.FlushIncompleteUTF8Text columns).2

def Break : TerminalLineEditor :=
  RestartInput (report { s.ClearInput with inputActive := false } .broken) columns

def Disconnect : TerminalLineEditor :=
  if s.settings.disconnectOnEmpty ∧ s.editBuffer = [] ∧ s.inputBuffer = [] then
    report { s with inputActive := false } .disconnected
  else RestartInput { s.ClearInput with inputActive := false } columns

def MoveCursorTo (position : Nat) : TerminalLineEditor :=
  let position := min position s.editBuffer.length
  if position = s.cursorPosition then s
  else
    match s.displayMode with
    | .HorizontalScroll =>
      let (moved, s) := UpdateSingleLineHorizontalOffset { s with cursorPosition := position }
      if moved then s.RenderSingleLine else s
    | .Wrap => { s with cursorPosition := position }

/-- The loop in `MoveCursor` to the left. -/
def previousPosition (text : List UInt8) : Nat → Nat → Nat
  | 0, position => position
  | distance + 1, position =>
    if position ≠ 0 then
      previousPosition text distance (GetPreviousUTF8CharacterOffset text position)
    else position

/-- The loop in `MoveCursor` to the right. -/
def nextPosition (text : List UInt8) : Nat → Nat → Nat
  | 0, position => position
  | distance + 1, position =>
    if position < text.length then
      nextPosition text distance (min (position + characterStep text position) text.length)
    else position

def MoveCursor (distance : Int) : TerminalLineEditor :=
  let s := { s with pendingExpansionAlternatives := [] }
  s.MoveCursorTo
    (if distance < 0 then previousPosition s.editBuffer distance.natAbs s.cursorPosition
    else nextPosition s.editBuffer distance.natAbs s.cursorPosition)

def MoveToHome : TerminalLineEditor := s.MoveCursorTo 0

def MoveToEnd : TerminalLineEditor := s.MoveCursorTo s.editBuffer.length

def MoveInHistory (distance : Int) : TerminalLineEditor :=
  let s := { s with pendingExpansionAlternatives := [] }
  if ¬ s.settings.historyEnabled ∨ s.inputBuffer ≠ [] then s
  else
    let distance := s.historyDistance distance
    if distance ≠ 0 then
      let s := s.MoveCursorTo 0
      RefreshText { s with toLineEditor := s.toLineEditor.exchange distance } 0
    else s

def DeleteChar : TerminalLineEditor :=
  let s := { s with pendingExpansionAlternatives := [] }
  if s.cursorPosition < s.editBuffer.length then
    let characterLength := characterStep s.editBuffer s.cursorPosition
    RefreshText { s with
      editBuffer := s.editBuffer.take s.cursorPosition ++
        s.editBuffer.drop (s.cursorPosition + characterLength) } s.cursorPosition
  else s

def BackspaceChar : TerminalLineEditor :=
  let s := { s with pendingExpansionAlternatives := [] }
  if 0 < s.cursorPosition then
    let characterStart := GetPreviousUTF8CharacterOffset s.editBuffer s.cursorPosition
    let characterLength := s.cursorPosition - characterStart
    let s := s.MoveCursorTo characterStart
    RefreshText { s with
      editBuffer := s.editBuffer.take characterStart ++
        s.editBuffer.drop (characterStart + characterLength) } s.cursorPosition
  else s

def PrintPendingExpansionAlternatives : TerminalLineEditor :=
  let alternatives := s.pendingExpansionAlternatives
  let cursorPosition := s.cursorPosition
  let s := MoveToEnd { s with pendingExpansionAlternatives := [] }
  let s := (s.RefreshText 0).MoveCursorTo cursorPosition
  { s with pendingExpansionAlternatives := alternatives }

/-- The part of `ExpandArgument` behind its checks. -/
def replace (candidates : List CompletionCandidate)
    (replaceStart replaceEnd : Nat) : TerminalLineEditor :=
  let (text, finalExpansion) := s.toLineEditor.replacement candidates replaceStart replaceEnd
  if text ≠ [] then
    let s := s.MoveCursorTo replaceStart
    let text := LineEditor.escapeSpaces text ++
      if finalExpansion ∧ replaceEnd = s.editBuffer.length then [0x20] else []
    RefreshText { s with
      cursorPosition := replaceStart + text.length
      editBuffer := s.editBuffer.take replaceStart ++ text ++ s.editBuffer.drop replaceEnd }
      replaceStart
  else { s with pendingExpansionAlternatives := candidates }

def ExpandArgument (host : EditorHost) (s : TerminalLineEditor) : TerminalLineEditor :=
  if s.pendingExpansionAlternatives ≠ [] then s.PrintPendingExpansionAlternatives
  else
    match s.toLineEditor.expansion host with
    | some (candidates, replaceStart, replaceEnd) => s.replace candidates replaceStart replaceEnd
    | none => s

def SetPrimaryPrompt (prompt : Prompt) : TerminalLineEditor :=
  let primaryPromptActive := s.prompt.text = s.primaryPrompt.text
  let s := { s with primaryPrompt := prompt }
  if s.inputActive ∧ primaryPromptActive then
    let s := { s with prompt := s.primaryPrompt }
    match s.displayMode with
    | .HorizontalScroll => s.RenderSingleLine
    | .Wrap => s
  else s

def SetContinuationPrompt (prompt : Prompt) : TerminalLineEditor :=
  { s with continuationPrompt := prompt }

end TerminalLineEditor

/-- What is done to the editor, with the columns the terminal answers where it is asked for them.
With `readCharacter` it keeps what it has read of a control sequence and of a line end. -/
inductive EditOperation
  | readCharacter (ansiCodeParser : AnsiParser) (skipNextLineFeed : Bool)
  | addInputText (text : List UInt8)
  | endLine (columns : Nat)
  | moveCursor (distance : Int)
  | moveToHome
  | moveToEnd
  | moveInHistory (distance : Int)
  | deleteChar
  | backspaceChar
  | expandArgument
  | cancelInput (columns : Nat)
  | break_ (columns : Nat)
  | disconnect (columns : Nat)
  | beginInput (columns : Nat) (initialText : List UInt8)
  | resetInput (columns : Nat)
  | updateTerminalSize (columns : Nat)
  | setPrimaryPrompt (prompt : Prompt)
  | setContinuationPrompt (prompt : Prompt)
  deriving DecidableEq, Repr

namespace TerminalLineEditor

def perform (host : EditorHost) (s : TerminalLineEditor) : EditOperation → TerminalLineEditor
  | .readCharacter ansiCodeParser skipNextLineFeed => { s with ansiCodeParser, skipNextLineFeed }
  | .addInputText text => s.AddInputText text
  | .endLine columns => s.endLine host columns
  | .moveCursor distance => s.MoveCursor distance
  | .moveToHome => s.MoveToHome
  | .moveToEnd => s.MoveToEnd
  | .moveInHistory distance => s.MoveInHistory distance
  | .deleteChar => s.DeleteChar
  | .backspaceChar => s.BackspaceChar
  | .expandArgument => s.ExpandArgument host
  | .cancelInput columns => s.CancelInput columns
  | .break_ columns => s.Break columns
  | .disconnect columns => s.Disconnect columns
  | .beginInput columns initialText => s.BeginInput columns initialText
  | .resetInput columns => s.ResetInput columns
  | .updateTerminalSize columns => s.UpdateTerminalSize columns
  | .setPrimaryPrompt prompt => s.SetPrimaryPrompt prompt
  | .setContinuationPrompt prompt => s.SetContinuationPrompt prompt

/-! ## Input -/

section

variable (host : EditorHost) (columns : Nat) (s : TerminalLineEditor)

def keycode : List Nat → List EditOperation
  | 1 :: _ | 7 :: _ => [.moveToHome]
  | 4 :: _ | 8 :: _ => [.moveToEnd]
  | 3 :: _ => [.deleteChar]
  | 5 :: _ => [.moveInHistory (- (s.historyLocation : Int))]
  | 6 :: _ => [.moveInHistory ((s.historyBuffers.length - s.historyLocation : Nat) : Int)]
  | _ => []

/-- Whether the call of `AddInput` returns behind the character, and what is done. -/
def ProcessControlCharacter (code : ControlCode) : Bool × List EditOperation :=
  match code with
  | .Cancel => (true, [.cancelInput columns])
  | .Break => (true, [.break_ columns])
  | .Disconnect => (true, [.disconnect columns])
  | .Backspace =>
    if s.cursorPosition = 0 ∧ s.settings.cancelAtStart then (true, [.cancelInput columns])
    else (false, [.backspaceChar])
  | .Tab => (false, [.expandArgument])
  | code =>
    (false, if code = .XTerm_Left then [.moveCursor (-1)]
      else if code = .XTerm_Right then [.moveCursor 1]
      else if code = .XTerm_Up then [.moveInHistory (-1)]
      else if code = .XTerm_Down then [.moveInHistory 1]
      else if code = .XTerm_End then [.moveToEnd]
      else if code = .XTerm_Home then [.moveToHome]
      else if code = .VT_Keycode then s.keycode s.ansiCodeParser.codeArgs
      else [])

/-- `run` is the text from `textStart` on. The flush does not read the flag for the line feed. -/
def inputLoop (s : TerminalLineEditor) (run : List UInt8) (characterIndex : Nat) :
    List UInt8 → Nat × TerminalLineEditor
  | [] => (characterIndex, s.AddInputText run)
  | character :: rest =>
    if s.skipNextLineFeed ∧ character = 0x0a then
      inputLoop { s with skipNextLineFeed := false } [] (characterIndex + 1) rest
    else
      let (code, ansiCodeParser) := s.controlCharacter character
      let s := { s with ansiCodeParser, skipNextLineFeed := false }
      if code = .None ∧ character ≠ 0x0d ∧ character ≠ 0x0a then
        inputLoop s (run ++ [character]) (characterIndex + 1) rest
      else
        let s := s.AddInputText run
        let (returns, s) :=
          if code = .None then
            let s := { s with skipNextLineFeed := character = 0x0d }
            SubmitLine host s.FlushIncompleteUTF8Text columns
          else if code = .Pending then (false, s)
          else
            let (returns, operations) := s.ProcessControlCharacter columns code
            (returns, operations.foldl (perform host) s)
        if returns then (characterIndex + 1, s) else inputLoop s [] (characterIndex + 1) rest

def AddInput (text : List UInt8) : Nat × TerminalLineEditor :=
  if s.inputActive then s.inputLoop host columns [] 0 text else (0, s)

end

/-- Operations make the second editor of the first one. -/
def Performs (host : EditorHost) (s t : TerminalLineEditor) : Prop :=
  ∃ operations : List EditOperation, t = operations.foldl (perform host) s

section

variable {host : EditorHost} {s t u : TerminalLineEditor}

theorem Performs.refl : Performs host s s := ⟨[], rfl⟩

theorem Performs.one (operation : EditOperation) : Performs host s (s.perform host operation) :=
  ⟨[operation], rfl⟩

theorem Performs.trans (first : Performs host s t) (second : Performs host t u) :
    Performs host s u := by
  obtain ⟨before, rfl⟩ := first
  obtain ⟨after, rfl⟩ := second
  exact ⟨before ++ after, List.foldl_append.symm⟩

theorem inputLoop_performs {columns k : Nat} {run text : List UInt8} :
    Performs host s (s.inputLoop host columns run k text).2 := by
  induction text generalizing s run k with
  | nil => exact .one (.addInputText run)
  | cons character rest ih =>
    have read (ansiCodeParser : AnsiParser) (skipNextLineFeed : Bool) :
        Performs host s { s with ansiCodeParser, skipNextLineFeed } :=
      .one (.readCharacter ansiCodeParser skipNextLineFeed)
    rw [inputLoop]
    split
    · exact (read s.ansiCodeParser false).trans ih
    dsimp only
    split
    · exact (read _ false).trans ih
    · have ends (done : Bool × TerminalLineEditor) (handled : Performs host s done.2) : Performs host s
          (if done.1 then (k + 1, done.2) else inputLoop host columns done.2 [] (k + 1) rest).2 := by
        split
        · exact handled
        · exact handled.trans ih
      apply ends
      apply ((read _ false).trans (.one (.addInputText run))).trans
      split
      · exact (Performs.one (.readCharacter _ _)).trans (.one (.endLine columns))
      split
      · exact .refl
      · exact ⟨_, rfl⟩

/-- A text is added by operations on the line. -/
theorem AddInput_performs (columns : Nat) (text : List UInt8) :
    Performs host s (s.AddInput host columns text).2 := by
  unfold AddInput
  split
  · exact inputLoop_performs
  · exact .refl

end

end TerminalLineEditor

/-! ## Without the display -/

namespace TerminalLineEditor

variable (s : TerminalLineEditor)

@[simp] theorem UpdateSingleLineHorizontalOffset_toLineEditor :
    s.UpdateSingleLineHorizontalOffset.2.toLineEditor = s.toLineEditor := by
  unfold UpdateSingleLineHorizontalOffset
  dsimp only
  split <;> rfl

@[simp] theorem RefreshSingleLine_toLineEditor (startPosition : Nat) :
    (s.RefreshSingleLine startPosition).toLineEditor = s.toLineEditor := by
  unfold RefreshSingleLine RenderSingleLine
  dsimp only
  split
  · simp
  · split <;> simp

@[simp] theorem RefreshText_toLineEditor (startPosition : Nat) :
    (s.RefreshText startPosition).toLineEditor = s.toLineEditor := by
  unfold RefreshText
  cases s.displayMode <;> simp

@[simp] theorem InsertInputText_toLineEditor (text : List UInt8) :
    (s.InsertInputText text).toLineEditor = s.toLineEditor.InsertInputText text := by
  simp [InsertInputText]

@[simp] theorem MoveCursorTo_toLineEditor (position : Nat) :
    (s.MoveCursorTo position).toLineEditor = s.toLineEditor.MoveCursorTo position := by
  unfold MoveCursorTo LineEditor.MoveCursorTo
  dsimp only
  split
  · rename_i unmoved
    rw [unmoved]
  · cases s.displayMode
    · rfl
    · dsimp only
      split <;> simp [RenderSingleLine]

theorem GetPreviousUTF8CharacterOffset_le (text : List UInt8) (offset : Nat) :
    GetPreviousUTF8CharacterOffset text offset ≤ offset - 1 := by
  induction offset using GetPreviousUTF8CharacterOffset.induct text with
  | case1 => exact Nat.zero_le _
  | case2 => exact Nat.zero_le _
  | case3 offset isFirst =>
    rw [GetPreviousUTF8CharacterOffset, if_pos isFirst]
    omega
  | case4 offset notFirst ih =>
    rw [GetPreviousUTF8CharacterOffset, if_neg notFirst]
    omega

end TerminalLineEditor

end PadOS.Terminal
