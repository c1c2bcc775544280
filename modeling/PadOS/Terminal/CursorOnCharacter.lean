import PadOS.Terminal.Utf8Text
import PadOS.Utils.POSIXTokenizer

/-!
# The cursor stays on a character

Between two operations the text is valid UTF-8 and the cursor and the horizontal offset stand
between characters. A line that is continued keeps the offset of the line before it, and bytes of a
character that never came to its end are recorded in the history; runs without these two keep the
invariant.
-/

namespace PadOS.Terminal

open Unicode CharacterCode.IsText List

/-- Whole characters on both sides. -/
def OnCharacter (text : List UInt8) (position : Nat) : Prop :=
  position ≤ text.length ∧ PString.isValidUtf8 (text.take position) ∧
    PString.isValidUtf8 (text.drop position)
  deriving Decidable

theorem onCharacter_iff {text : List UInt8} {position : Nat} :
    OnCharacter text position ↔ utf8.Boundary text position := by
  unfold OnCharacter
  rw [← utf8_isText_iff, ← utf8_isText_iff]
  constructor
  · intro on
    exact ⟨on.1, on.2.1, on.2.2⟩
  · intro boundary
    exact ⟨boundary.inside, boundary.before, boundary.after⟩

def TerminalLineEditor.CursorOnCharacter (s : TerminalLineEditor) : Prop :=
  PString.isValidUtf8 s.editBuffer ∧ OnCharacter s.editBuffer s.cursorPosition ∧
    OnCharacter s.editBuffer s.horizontalOffset ∧
    s.horizontalOffset ≤ s.cursorPosition ∧
    s.historyLocation ≤ s.historyBuffers.length
  deriving Decidable

/-! ## The line -/

namespace LineEditor

structure Sound (s : LineEditor) : Prop where
  cursor : utf8.Boundary s.editBuffer s.cursorPosition
  location : s.historyLocation ≤ s.historyBuffers.length
  input : s.settings.historyEnabled → utf8.IsText s.inputBuffer
  history : s.settings.historyEnabled → ∀ buffer ∈ s.historyBuffers, utf8.IsText buffer
  incomplete : ∃ more, utf8.IsText (s.incompleteUTF8Text ++ more)

namespace Sound

variable {s : LineEditor}

theorem edit (sound : s.Sound) {text : List UInt8} {position : Nat}
    (cursor : utf8.Boundary text position) (alternatives : List CompletionCandidate) :
    Sound { s with
      editBuffer := text
      cursorPosition := position
      pendingExpansionAlternatives := alternatives } where
  cursor := cursor
  location := sound.location
  input := sound.input
  history := sound.history
  incomplete := sound.incomplete

theorem InsertInputText (sound : s.Sound) {text : List UInt8} (isText : utf8.IsText text) :
    (s.InsertInputText text).Sound :=
  sound.edit (sound.cursor.replace sound.cursor isText) []

theorem ClearInput (history : s.settings.historyEnabled → ∀ buffer ∈ s.historyBuffers,
    utf8.IsText buffer) : s.ClearInput.Sound where
  cursor := nil.boundary_zero
  location := le_rfl
  input := fun _ => .nil
  history := history
  incomplete := ⟨[], .nil⟩

theorem exchange (sound : s.Sound) (enabled : s.settings.historyEnabled) {distance : Int}
    (inside : s.historyLocation + distance ≤ s.historyBuffers.length) :
    (s.exchange distance).Sound := by
  have edited := sound.cursor.isText
  have recorded := sound.history enabled
  have bound : (s.historyLocation + distance).toNat ≤ s.historyBuffers.length := by omega
  have recalled {buffers : List (List UInt8)} {text : List UInt8}
      (all : ∀ buffer ∈ buffers, utf8.IsText buffer) (isText : utf8.IsText text) (i : Nat) :
      utf8.IsText ((buffers[i]?).getD text) := by
    cases stored : buffers[i]? with
    | none => exact isText
    | some buffer => exact all buffer (mem_of_getElem? stored)
  unfold LineEditor.exchange
  by_cases kept : s.historyLocation < s.historyBuffers.length
  · have all : ∀ buffer ∈ s.historyBuffers.set s.historyLocation s.editBuffer,
        utf8.IsText buffer := by
      intro buffer member
      rcases mem_or_eq_of_mem_set member with old | rfl
      · exact recorded buffer old
      · exact edited
    simp only [if_pos kept]
    refine ⟨(recalled all .nil _).boundary_length, ?_, sound.input, fun _ => all, sound.incomplete⟩
    rw [length_set]
    exact bound
  · simp only [if_neg kept]
    exact ⟨(recalled recorded edited _).boundary_length, bound, sound.input, fun _ => recorded,
      sound.incomplete⟩

end Sound

end LineEditor

/-! ## The display -/

namespace TerminalLineEditor

structure Sound (s : TerminalLineEditor) : Prop where
  line : s.toLineEditor.Sound
  offset : utf8.Boundary s.editBuffer s.horizontalOffset
  ordered : s.horizontalOffset ≤ s.cursorPosition
  wraps : s.displayMode = .Wrap → s.horizontalOffset = 0

/-- Before the line is drawn the offset may be behind the cursor, and need not be a position of the
text then. -/
structure Redrawable (s : TerminalLineEditor) : Prop where
  line : s.toLineEditor.Sound
  offset : s.cursorPosition < s.horizontalOffset ∨ utf8.Boundary s.editBuffer s.horizontalOffset
  wraps : s.displayMode = .Wrap → s.horizontalOffset = 0

variable {s : TerminalLineEditor}

theorem Sound.redrawable (sound : s.Sound) : s.Redrawable :=
  ⟨sound.line, .inr sound.offset, sound.wraps⟩

theorem UpdateSingleLineHorizontalOffset_displayMode (s : TerminalLineEditor) :
    s.UpdateSingleLineHorizontalOffset.2.displayMode = s.displayMode := by
  unfold UpdateSingleLineHorizontalOffset
  dsimp only
  split <;> rfl

namespace Redrawable

theorem update (redrawable : s.Redrawable) (scrolls : s.displayMode = .HorizontalScroll) :
    s.UpdateSingleLineHorizontalOffset.2.Sound := by
  have atCursor := redrawable.line.cursor
  have line := UpdateSingleLineHorizontalOffset_toLineEditor s
  have mode := UpdateSingleLineHorizontalOffset_displayMode s
  have drawn : utf8.Boundary s.editBuffer s.UpdateSingleLineHorizontalOffset.2.horizontalOffset ∧
      s.UpdateSingleLineHorizontalOffset.2.horizontalOffset ≤ s.cursorPosition := by
    unfold UpdateSingleLineHorizontalOffset
    dsimp only
    split
    · exact boundary_scroll _ atCursor atCursor le_rfl
    · rename_i ahead
      refine boundary_scroll _ atCursor ?_ (Nat.le_of_not_lt ahead)
      exact redrawable.offset.resolve_left ahead
  refine ⟨?_, ?_, ?_, ?_⟩
  · rw [line]
    exact redrawable.line
  · rw [line]
    exact drawn.1
  · rw [line]
    exact drawn.2
  · intro wraps
    rw [mode, scrolls] at wraps
    cases wraps

theorem RenderSingleLine (redrawable : s.Redrawable)
    (scrolls : s.displayMode = .HorizontalScroll) : s.RenderSingleLine.Sound :=
  redrawable.update scrolls

theorem RefreshText (redrawable : s.Redrawable) (startPosition : Nat) :
    (s.RefreshText startPosition).Sound := by
  unfold TerminalLineEditor.RefreshText
  cases mode : s.displayMode with
  | Wrap =>
    have start := redrawable.wraps mode
    refine ⟨redrawable.line, ?_, ?_, redrawable.wraps⟩
    · rw [start]
      exact redrawable.line.cursor.isText.boundary_zero
    · rw [start]
      exact Nat.zero_le _
  | HorizontalScroll =>
    have updated := redrawable.update mode
    have again : s.UpdateSingleLineHorizontalOffset.2.RenderSingleLine.Sound := by
      apply updated.redrawable.RenderSingleLine
      rw [UpdateSingleLineHorizontalOffset_displayMode, mode]
    unfold TerminalLineEditor.RefreshSingleLine
    dsimp only
    split
    · exact again
    · split
      · exact again
      · exact updated

end Redrawable

/-! ## The operations -/

theorem Sound.UpdateTerminalSize (sound : s.Sound) (columns : Nat) :
    (s.UpdateTerminalSize columns).Sound := by
  unfold TerminalLineEditor.UpdateTerminalSize
  split
  · exact ⟨sound.line, sound.offset, sound.ordered, sound.wraps⟩
  · exact sound

namespace Sound

section

variable (sound : s.Sound)

include sound

theorem InsertInputText {text : List UInt8} (isText : utf8.IsText text) :
    (s.InsertInputText text).Sound := by
  have atCursor := sound.line.cursor
  apply Redrawable.RefreshText
  refine ⟨sound.line.InsertInputText isText, .inr ?_, sound.wraps⟩
  exact sound.offset.keep atCursor atCursor isText sound.ordered

/-- What is taken out of the bytes that wait is text, and what is left may still become text. -/
theorem AddInputText {text more : List UInt8}
    (valid : utf8.IsText (s.incompleteUTF8Text ++ text ++ more)) : (s.AddInputText text).Sound := by
  have waits (rest : List UInt8) (isText : ∃ more, utf8.IsText (rest ++ more))
      {t : TerminalLineEditor} (sound : t.Sound) : Sound { t with incompleteUTF8Text := rest } :=
    ⟨⟨sound.line.cursor, sound.line.location, sound.line.input, sound.line.history, isText⟩,
      sound.offset, sound.ordered, sound.wraps⟩
  obtain ⟨boundary, inside⟩ := completeLength_spec (s.incompleteUTF8Text ++ text).length
    valid.boundary_zero (Nat.zero_le _)
  have taken := boundary.before
  have left := boundary.after
  rw [take_append_of_le_length inside] at taken
  rw [drop_append_of_le_length inside] at left
  unfold TerminalLineEditor.AddInputText
  split
  · exact sound
  · dsimp only
    split
    · apply waits _ ⟨more, left⟩
      exact InsertInputText (waits _ ⟨more, valid⟩ sound) taken
    · exact waits _ ⟨more, valid⟩ sound

theorem MoveCursorTo {position : Nat}
    (boundary : utf8.Boundary s.editBuffer position) : (s.MoveCursorTo position).Sound := by
  have inside : min position s.editBuffer.length = position := min_eq_left boundary.inside
  unfold TerminalLineEditor.MoveCursorTo
  rw [inside]
  dsimp only
  split
  · exact sound
  · have moved : Redrawable { s with cursorPosition := position } :=
      ⟨sound.line.edit boundary _, .inr sound.offset, sound.wraps⟩
    split
    · rename_i mode
      have updated := moved.update mode
      split
      · apply updated.redrawable.RenderSingleLine
        rw [UpdateSingleLineHorizontalOffset_displayMode, mode]
      · exact updated
    · rename_i mode
      refine ⟨moved.line, sound.offset, ?_, sound.wraps⟩
      show s.horizontalOffset ≤ position
      rw [sound.wraps mode]
      exact Nat.zero_le _

theorem MoveCursorTo_offset {position : Nat}
    (boundary : utf8.Boundary s.editBuffer position) :
    (s.MoveCursorTo position).horizontalOffset ≤ position := by
  have ordered := (sound.MoveCursorTo boundary).ordered
  rw [MoveCursorTo_toLineEditor] at ordered
  exact Nat.le_trans ordered (Nat.min_le_left _ _)

theorem forget (alternatives : List CompletionCandidate) :
    Sound { s with pendingExpansionAlternatives := alternatives } :=
  ⟨sound.line.edit sound.line.cursor alternatives, sound.offset, sound.ordered, sound.wraps⟩

theorem MoveCursor (distance : Int) : (s.MoveCursor distance).Sound := by
  unfold TerminalLineEditor.MoveCursor
  apply (sound.forget []).MoveCursorTo
  dsimp only
  split
  · exact boundary_previousPosition _ sound.line.cursor
  · exact boundary_nextPosition _ sound.line.cursor

theorem MoveInHistory (distance : Int) : (s.MoveInHistory distance).Sound := by
  have forgotten := sound.forget []
  have start := sound.offset.isText.boundary_zero
  have home := forgotten.MoveCursorTo start
  have first := forgotten.MoveCursorTo_offset start
  have line := MoveCursorTo_toLineEditor { s with pendingExpansionAlternatives := [] } 0
  have location := sound.line.location
  unfold TerminalLineEditor.MoveInHistory
  dsimp only
  split
  · exact forgotten
  · rename_i usable
    have enabled : s.settings.historyEnabled = true := by
      by_contra disabled
      exact usable (.inl disabled)
    have inside : (s.historyLocation : Int) +
        LineEditor.historyDistance { s.toLineEditor with pendingExpansionAlternatives := [] } distance ≤
          s.historyBuffers.length := by
      unfold LineEditor.historyDistance
      dsimp only
      split <;> omega
    generalize LineEditor.historyDistance _ distance = moves at *
    generalize TerminalLineEditor.MoveCursorTo { s with pendingExpansionAlternatives := [] } 0 = t
      at *
    split
    · have exchanged : (t.toLineEditor.exchange moves).Sound := by
        apply home.line.exchange
        · rw [line]
          exact enabled
        · rw [line]
          exact inside
      apply Redrawable.RefreshText
      refine ⟨exchanged, .inr ?_, home.wraps⟩
      show utf8.Boundary _ t.horizontalOffset
      rw [Nat.le_zero.1 first]
      exact exchanged.cursor.isText.boundary_zero
    · exact forgotten

theorem DeleteChar : s.DeleteChar.Sound := by
  have atCursor := sound.line.cursor
  unfold TerminalLineEditor.DeleteChar
  dsimp only
  split
  · rename_i inside
    have next := (boundary_characterStep atCursor inside).1
    apply Redrawable.RefreshText
    refine ⟨sound.line.edit (atCursor.keep_erase atCursor next le_rfl) [], .inr ?_,
      sound.wraps⟩
    exact sound.offset.keep_erase atCursor next sound.ordered
  · exact sound.forget []

theorem BackspaceChar : s.BackspaceChar.Sound := by
  have atCursor := sound.line.cursor
  have forgotten := sound.forget []
  have bound := GetPreviousUTF8CharacterOffset_le s.editBuffer s.cursorPosition
  have start := boundary_previous atCursor.isText atCursor.inside
  have moved := forgotten.MoveCursorTo start
  have first := forgotten.MoveCursorTo_offset start
  have line := MoveCursorTo_toLineEditor { s with pendingExpansionAlternatives := [] }
    (GetPreviousUTF8CharacterOffset s.editBuffer s.cursorPosition)
  unfold TerminalLineEditor.BackspaceChar
  dsimp only
  split
  · rw [Nat.add_sub_cancel' (Nat.le_trans bound (Nat.sub_le _ _))]
    generalize GetPreviousUTF8CharacterOffset s.editBuffer s.cursorPosition = characterStart at *
    generalize TerminalLineEditor.MoveCursorTo { s with pendingExpansionAlternatives := [] }
      characterStart = t at *
    have edited : t.editBuffer = s.editBuffer := by
      rw [line]
      rfl
    have cursor : t.cursorPosition = characterStart := by
      rw [line]
      exact min_eq_left start.inside
    apply Redrawable.RefreshText
    refine ⟨moved.line.edit ?_ _, .inr ?_, moved.wraps⟩
    · rw [edited, cursor]
      exact start.keep_erase start atCursor le_rfl
    · show utf8.Boundary (t.editBuffer.take _ ++ t.editBuffer.drop _) t.horizontalOffset
      have offset := moved.offset
      rw [edited] at offset ⊢
      exact offset.keep_erase start atCursor first
  · exact forgotten

theorem PrintPendingExpansionAlternatives :
    s.PrintPendingExpansionAlternatives.Sound := by
  have forgotten := sound.forget []
  have ended := forgotten.MoveCursorTo sound.offset.isText.boundary_length
  have drawn := ended.redrawable.RefreshText 0
  unfold TerminalLineEditor.PrintPendingExpansionAlternatives MoveToEnd
  refine (drawn.MoveCursorTo ?_).forget _
  rw [RefreshText_toLineEditor, MoveCursorTo_toLineEditor]
  exact sound.line.cursor

theorem replace {candidates : List CompletionCandidate}
    {replaceStart replaceEnd : Nat} (valid : ∀ candidate ∈ candidates, utf8.IsText candidate.text)
    (start : utf8.Boundary s.editBuffer replaceStart)
    (stop : utf8.Boundary s.editBuffer replaceEnd) :
    (s.replace candidates replaceStart replaceEnd).Sound := by
  have isText := isText_replacement s.toLineEditor valid replaceStart replaceEnd
  have moved := sound.MoveCursorTo start
  have first := sound.MoveCursorTo_offset start
  have edited : (s.MoveCursorTo replaceStart).editBuffer = s.editBuffer := by
    rw [MoveCursorTo_toLineEditor]
    rfl
  unfold TerminalLineEditor.replace
  dsimp only
  split
  · apply Redrawable.RefreshText
    generalize inserted : LineEditor.escapeSpaces _ ++ _ = text
    have whole : utf8.IsText text := by
      rw [← inserted]
      apply (isText_escapeSpaces isText).append
      split
      · exact isText_singleton (by decide)
      · exact .nil
    refine ⟨moved.line.edit ?_ _, .inr ?_, moved.wraps⟩
    · rw [edited]
      exact start.replace stop whole
    · have offset := moved.offset
      rw [edited] at offset ⊢
      exact offset.keep start stop whole first
  · exact sound.forget _

theorem outside (active : Bool) (prompt : Prompt) (events : List LineEvent) :
    Sound { s with inputActive := active, prompt := prompt, events := events } :=
  ⟨⟨sound.line.cursor, sound.line.location, sound.line.input, sound.line.history,
    sound.line.incomplete⟩, sound.offset, sound.ordered, sound.wraps⟩

end

theorem ClearInput (history : s.settings.historyEnabled → ∀ buffer ∈ s.historyBuffers,
    utf8.IsText buffer) : s.ClearInput.Sound :=
  ⟨.ClearInput history, nil.boundary_zero, le_rfl, fun _ => rfl⟩

section

variable (sound : s.Sound) (columns : Nat)

include sound columns

theorem BeginInput {initialText : List UInt8}
    (isText : utf8.IsText initialText) : (s.BeginInput columns initialText).Sound := by
  have sized := sound.UpdateTerminalSize columns
  have cleared := (ClearInput sized.line.history).outside true
    (s.UpdateTerminalSize columns).primaryPrompt (s.UpdateTerminalSize columns).events
  unfold TerminalLineEditor.BeginInput
  dsimp only
  split
  · rename_i mode
    refine Redrawable.RenderSingleLine ⟨?_, .inr ?_, fun _ => rfl⟩ mode
    · exact cleared.line.edit isText.boundary_length _
    · exact isText.boundary_zero
  · apply AddInputText cleared
    rwa [show (_ : List UInt8) ++ initialText ++ [] = initialText from append_nil _]

theorem RestartInput : (s.RestartInput columns).Sound := by
  unfold TerminalLineEditor.RestartInput
  split
  · exact sound.BeginInput columns .nil
  · exact sound

theorem CancelInput : (s.CancelInput columns).Sound :=
  ((ClearInput sound.line.history).outside false _ _).RestartInput columns

theorem Break : (s.Break columns).Sound :=
  ((ClearInput sound.line.history).outside false _ _).RestartInput columns

theorem Disconnect : (s.Disconnect columns).Sound := by
  unfold TerminalLineEditor.Disconnect
  split
  · exact sound.outside false _ _
  · exact sound.CancelInput columns

end

theorem SetPrimaryPrompt (sound : s.Sound) (prompt : Prompt) :
    (s.SetPrimaryPrompt prompt).Sound := by
  have changed : Sound { s with primaryPrompt := prompt } :=
    ⟨sound.line, sound.offset, sound.ordered, sound.wraps⟩
  unfold TerminalLineEditor.SetPrimaryPrompt
  dsimp only
  split
  · have shown := changed.outside s.inputActive prompt s.events
    split
    · rename_i mode
      exact shown.redrawable.RenderSingleLine mode
    · exact shown
  · exact changed

end Sound

/-! ## The end of a line -/

theorem FlushIncompleteUTF8Text_toLineEditor (s : TerminalLineEditor) :
    s.FlushIncompleteUTF8Text.toLineEditor = s.toLineEditor.FlushIncompleteUTF8Text := by
  unfold TerminalLineEditor.FlushIncompleteUTF8Text LineEditor.FlushIncompleteUTF8Text
  split
  · dsimp only
    simp
  · rfl

end TerminalLineEditor

/-- Whether the line is not to be submitted yet. -/
def LineEditor.Continues (host : EditorHost) (s : LineEditor) : Prop :=
  s.settings.continueIncomplete ∧ host.incomplete (s.inputBuffer ++ s.editBuffer)

namespace TerminalLineEditor

variable {s : TerminalLineEditor}

theorem SubmitLine_sound (host : EditorHost) (columns : Nat)
    (input : s.settings.historyEnabled → utf8.IsText (s.inputBuffer ++ s.editBuffer))
    (history : s.settings.historyEnabled → ∀ buffer ∈ s.historyBuffers, utf8.IsText buffer)
    (location : s.historyLocation ≤ s.historyBuffers.length)
    (incomplete : ∃ more, utf8.IsText (s.incompleteUTF8Text ++ more))
    (continued : s.Continues host → s.horizontalOffset = 0) :
    (SubmitLine host s columns).2.Sound := by
  unfold SubmitLine
  dsimp only
  split
  · rename_i continues
    have start := continued continues
    refine ⟨⟨nil.boundary_zero, location, fun enabled => ?_, history,
      incomplete⟩, ?_, ?_, fun _ => start⟩
    · exact (input enabled).append (isText_singleton (by decide))
    · show utf8.Boundary [] s.horizontalOffset
      rw [start]
      exact nil.boundary_zero
    · exact start.le
  · apply Sound.RestartInput
    unfold TerminalLineEditor.report LineEditor.report
    apply Sound.outside (s := TerminalLineEditor.ClearInput _)
    apply Sound.ClearInput
    split
    · rename_i recorded
      intro enabled buffer member
      rcases mem_append.1 member with old | new
      · exact history enabled buffer old
      · rw [mem_singleton.1 new]
        exact input recorded.1
    · exact history

theorem endLine_sound (host : EditorHost) (columns : Nat) (sound : s.Sound)
    (complete : s.incompleteUTF8Text = [] ∨ ¬ s.settings.historyEnabled)
    (continued : s.FlushIncompleteUTF8Text.Continues host →
      s.FlushIncompleteUTF8Text.horizontalOffset = 0) : (s.endLine host columns).Sound := by
  have line := FlushIncompleteUTF8Text_toLineEditor s
  have settings : s.FlushIncompleteUTF8Text.settings = s.settings := by
    rw [line]
    unfold LineEditor.FlushIncompleteUTF8Text
    split <;> rfl
  have buffers : s.FlushIncompleteUTF8Text.historyBuffers = s.historyBuffers ∧
      s.FlushIncompleteUTF8Text.historyLocation = s.historyLocation := by
    rw [line]
    unfold LineEditor.FlushIncompleteUTF8Text
    split <;> exact ⟨rfl, rfl⟩
  have flushed : s.FlushIncompleteUTF8Text.incompleteUTF8Text = [] := by
    rw [line]
    unfold LineEditor.FlushIncompleteUTF8Text
    split
    · rfl
    · rename_i empty
      exact not_not.1 empty
  have unchanged : s.settings.historyEnabled → s.FlushIncompleteUTF8Text = s := by
    intro enabled
    have empty := complete.resolve_right (not_not.2 enabled)
    unfold TerminalLineEditor.FlushIncompleteUTF8Text
    rw [if_neg (not_not.2 empty)]
  unfold endLine
  apply SubmitLine_sound host columns _ _ _ _ continued
  · rw [settings]
    intro enabled
    rw [unchanged enabled]
    exact (sound.line.input enabled).append sound.line.cursor.isText
  · rw [settings, buffers.1]
    exact sound.line.history
  · rw [buffers.1, buffers.2]
    exact sound.line.location
  · exact ⟨[], by rw [flushed]; exact .nil⟩

/-! ## Runs -/

/-- What an operation must be like where the editor relies on it: text comes in whole characters,
however it is cut, one that an operation has cleared away in part is not finished, and a completion
stands between characters. At the end of a line no character is left unfinished that the history
would record, and a line that is continued is shown from its start. -/
def Permits (host : EditorHost) (s : TerminalLineEditor) : EditOperation → Prop
  | .addInputText text => ∃ more, PString.isValidUtf8 (s.incompleteUTF8Text ++ text ++ more)
  | .beginInput _ initialText => PString.isValidUtf8 initialText
  | .expandArgument =>
    s.pendingExpansionAlternatives = [] → ∀ candidates replaceStart replaceEnd,
      s.toLineEditor.expansion host = some (candidates, replaceStart, replaceEnd) →
        (∀ candidate ∈ candidates, PString.isValidUtf8 candidate.text) ∧
        OnCharacter s.editBuffer replaceStart ∧ OnCharacter s.editBuffer replaceEnd
  | .endLine _ =>
    (s.incompleteUTF8Text = [] ∨ ¬ s.settings.historyEnabled) ∧
      (s.FlushIncompleteUTF8Text.Continues host → s.FlushIncompleteUTF8Text.horizontalOffset = 0)
  | _ => True

theorem Sound.ExpandArgument {host : EditorHost} (sound : s.Sound)
    (permitted : s.Permits host .expandArgument) : (s.ExpandArgument host).Sound := by
  unfold TerminalLineEditor.ExpandArgument
  split
  · exact sound.PrintPendingExpansionAlternatives
  · rename_i fresh
    split
    · rename_i candidates replaceStart replaceEnd expands
      obtain ⟨valid, start, stop⟩ := permitted (not_not.1 fresh) _ _ _ expands
      apply sound.replace _ (onCharacter_iff.1 start) (onCharacter_iff.1 stop)
      intro candidate member
      exact utf8_isText_iff.2 (valid candidate member)
    · exact sound

theorem Sound.perform {host : EditorHost} {operation : EditOperation} (sound : s.Sound)
    (permitted : s.Permits host operation) : (s.perform host operation).Sound := by
  have text := sound.line.cursor.isText
  cases operation with
  | readCharacter =>
    exact ⟨⟨sound.line.cursor, sound.line.location, sound.line.input, sound.line.history,
      sound.line.incomplete⟩, sound.offset, sound.ordered, sound.wraps⟩
  | addInputText =>
    obtain ⟨more, valid⟩ := permitted
    exact sound.AddInputText (utf8_isText_iff.2 valid)
  | endLine columns => exact s.endLine_sound host columns sound permitted.1 permitted.2
  | moveCursor distance => exact sound.MoveCursor distance
  | moveToHome => exact sound.MoveCursorTo text.boundary_zero
  | moveToEnd => exact sound.MoveCursorTo text.boundary_length
  | moveInHistory distance => exact sound.MoveInHistory distance
  | deleteChar => exact sound.DeleteChar
  | backspaceChar => exact sound.BackspaceChar
  | expandArgument => exact sound.ExpandArgument permitted
  | cancelInput columns => exact sound.CancelInput columns
  | break_ columns => exact sound.Break columns
  | disconnect columns => exact sound.Disconnect columns
  | beginInput columns => exact sound.BeginInput columns (utf8_isText_iff.2 permitted)
  | resetInput columns => exact sound.CancelInput columns
  | updateTerminalSize columns => exact sound.UpdateTerminalSize columns
  | setPrimaryPrompt prompt => exact sound.SetPrimaryPrompt prompt
  | setContinuationPrompt => exact ⟨sound.line, sound.offset, sound.ordered, sound.wraps⟩

/-- An editor before its first input. -/
def created (settings : EditorSettings) (displayMode : DisplayMode)
    (primaryPrompt continuationPrompt : Prompt) : TerminalLineEditor where
  settings := settings
  ansiCodeParser := .initial
  inputBuffer := []
  editBuffer := []
  incompleteUTF8Text := []
  historyBuffers := []
  historyLocation := 0
  cursorPosition := 0
  pendingExpansionAlternatives := []
  inputActive := false
  skipNextLineFeed := false
  events := []
  displayMode := displayMode
  primaryPrompt := primaryPrompt
  continuationPrompt := continuationPrompt
  prompt := primaryPrompt
  terminalSizeX := 80
  horizontalOffset := 0

theorem created_sound (settings : EditorSettings) (displayMode : DisplayMode)
    (primaryPrompt continuationPrompt : Prompt) :
    (created settings displayMode primaryPrompt continuationPrompt).Sound where
  line := ⟨nil.boundary_zero, le_rfl, fun _ => .nil,
    fun _ _ member => absurd member not_mem_nil, [], .nil⟩
  offset := nil.boundary_zero
  ordered := le_rfl
  wraps := fun _ => rfl

/-- The states of runs of which every step is permitted. -/
inductive Reached (host : EditorHost) (start : TerminalLineEditor) : TerminalLineEditor → Prop
  | start : Reached host start start
  | step {s : TerminalLineEditor} (operation : EditOperation) :
      Reached host start s → s.Permits host operation →
        Reached host start (s.perform host operation)

theorem Reached.sound {host : EditorHost} {start : TerminalLineEditor}
    (reached : Reached host start s) (sound : start.Sound) : s.Sound := by
  induction reached with
  | start => exact sound
  | step operation _ permitted ih => exact ih.perform permitted

theorem Sound.cursorOnCharacter (sound : s.Sound) : s.CursorOnCharacter :=
  ⟨utf8_isText_iff.1 sound.line.cursor.isText, onCharacter_iff.2 sound.line.cursor,
    onCharacter_iff.2 sound.offset, sound.ordered, sound.line.location⟩

/-- Lines go on while a quote is open, and nothing is completed. -/
def quotingHost : EditorHost where
  incomplete := fun text => (Utils.PPOSIXTokenizer.setText text).2 ≠ .normal
  GetTokenByPosition := fun _ _ => none
  GetTokenText := fun _ _ => []
  TokenToGlobalOffset := fun _ _ offset => offset
  GetExpansionList := none

/-- A line that scrolls, continues and is recorded. -/
def scrollingEditor : TerminalLineEditor :=
  created ⟨some 0x03, some 0x04, none, true, false, true, true, true⟩ .HorizontalScroll
    ⟨[0x24, 0x20], 2⟩ ⟨[0x3e, 0x20], 2⟩

/-- Two characters that are shown one at a time: the line that goes on is empty, and still shown
from behind the first one. Half a character at the end of a line is there again when the line is
recalled. -/
theorem offset_behind_continued_line :
    ¬ CursorOnCharacter ([.beginInput 4 [], .addInputText [0x27, 0x61], .endLine 0].foldl
        (perform quotingHost) scrollingEditor) ∧
      ¬ CursorOnCharacter ([.beginInput 0 [], .addInputText [0xc3], .endLine 0,
        .moveInHistory (-1)].foldl (perform quotingHost) scrollingEditor) := by
  decide +kernel

/-- In every run that continues no line shown from behind its start and records no unfinished
character. -/
theorem cursor_stays_on_character (host : EditorHost) (settings : EditorSettings)
    (displayMode : DisplayMode) (primaryPrompt continuationPrompt : Prompt)
    (reached : Reached host (created settings displayMode primaryPrompt continuationPrompt) s) :
    s.CursorOnCharacter :=
  (reached.sound
    (created_sound settings displayMode primaryPrompt continuationPrompt)).cursorOnCharacter

/-- A character in two pieces and one behind it, with room for one, and back. -/
theorem cursor_stays_on_character_scrolled :
    CursorOnCharacter ([.beginInput 4 [], .addInputText [0xc3], .addInputText [0xa9, 0x62],
        .moveCursor (-1)].foldl (perform quotingHost) scrollingEditor) ∧
      ([.beginInput 4 [], .addInputText [0xc3], .addInputText [0xa9, 0x62],
        .moveCursor (-1)].foldl (perform quotingHost) scrollingEditor).horizontalOffset = 2 := by
  constructor
  · apply cursor_stays_on_character quotingHost
    apply Reached.step (.moveCursor (-1))
    · apply Reached.step (.addInputText [0xa9, 0x62])
      · apply Reached.step (.addInputText [0xc3])
        · exact .step (.beginInput 4 []) .start rfl
        · exact ⟨[0xa9], by decide +kernel⟩
      · exact ⟨[], by decide +kernel⟩
    · trivial
  · decide +kernel

end TerminalLineEditor

end PadOS.Terminal
