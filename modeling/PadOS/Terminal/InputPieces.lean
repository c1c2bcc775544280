import PadOS.Terminal.LineEditor

/-!
# Input in pieces

However a stream is cut, the editor comes to the same state: text that waits in a run has the same
effect as text inserted byte by byte, as inserting it touches nothing that the search for control
characters reads.
-/

namespace PadOS.Terminal

open List

theorem GetUTF8CharacterLength_append {text : List UInt8} (more : List UInt8)
    (complete : GetUTF8CharacterLength text 0 ≠ 0) :
    GetUTF8CharacterLength (text ++ more) 0 = GetUTF8CharacterLength text 0 ∧
      GetUTF8CharacterLength text 0 ≤ text.length := by
  cases text with
  | nil => exact absurd rfl complete
  | cons first rest =>
    unfold GetUTF8CharacterLength at complete ⊢
    simp only [cons_append, drop_zero, length_append, length_cons] at complete ⊢
    have fits : utf8_char_length first ≤ rest.length + 1 := by
      by_contra short
      exact complete (if_neg short)
    rw [if_pos fits, if_pos (by omega)]
    exact ⟨rfl, fits⟩

/-- The bytes of the characters that are complete, from the start of the text on. -/
def completeBytes (text : List UInt8) : Nat :=
  if _complete : GetUTF8CharacterLength text 0 ≠ 0 then
    GetUTF8CharacterLength text 0 + completeBytes (text.drop (GetUTF8CharacterLength text 0))
  else 0
termination_by text.length
decreasing_by
  have fits := (GetUTF8CharacterLength_append [] _complete).2
  rw [length_drop]
  omega

theorem completeBytes_le (text : List UInt8) : completeBytes text ≤ text.length := by
  induction text using completeBytes.induct with
  | case1 text complete ih =>
    have fits := (GetUTF8CharacterLength_append [] complete).2
    rw [length_drop] at ih
    rw [completeBytes, dif_pos complete]
    omega
  | case2 text incomplete =>
    rw [completeBytes, dif_neg incomplete]
    exact Nat.zero_le _

/-- What is complete is passed first, and the rest together with what comes behind it. -/
theorem completeBytes_append (text more : List UInt8) :
    completeBytes (text ++ more) =
      completeBytes text + completeBytes (text.drop (completeBytes text) ++ more) := by
  induction text using completeBytes.induct with
  | case1 text complete ih =>
    have grown := GetUTF8CharacterLength_append more complete
    rw [completeBytes, dif_pos (by rw [grown.1]; exact complete), grown.1,
      drop_append_of_le_length grown.2, ih, completeBytes.eq_1 text, dif_pos complete,
      drop_drop]
    omega
  | case2 text incomplete =>
    rw [completeBytes.eq_1 text, dif_neg incomplete, drop_zero, zero_add]

namespace LineEditor

theorem completeLength_eq {text : List UInt8} {turns offset : Nat}
    (enough : text.length ≤ offset + turns) :
    completeLength text turns offset = offset + completeBytes (text.drop offset) := by
  have shifted : ∀ start, GetUTF8CharacterLength (text.drop start) 0 =
      GetUTF8CharacterLength text start := by
    intro start
    unfold GetUTF8CharacterLength
    rw [drop_zero]
  induction turns generalizing offset with
  | zero =>
    rw [drop_eq_nil_of_le (by omega), completeBytes, dif_neg (fun complete => complete rfl)]
    rfl
  | succ turns ih =>
    rw [completeLength, completeBytes, shifted]
    by_cases left : offset < text.length
    · rw [if_pos left]
      simp only
      by_cases stops : GetUTF8CharacterLength text offset = 0
      · rw [if_pos stops, dif_neg (fun complete => complete stops)]
        rfl
      · rw [if_neg stops, dif_pos stops, ih (by omega), drop_drop]
        omega
    · rw [if_neg left, dif_neg]
      · rfl
      · intro complete
        apply complete
        rw [GetUTF8CharacterLength, drop_eq_nil_of_le (by omega)]

/-- The complete characters of a text are inserted, and the rest waits. -/
def settle (s : LineEditor) (incomplete : List UInt8) : LineEditor :=
  if completeBytes incomplete = 0 then { s with incompleteUTF8Text := incomplete }
  else
    { s.InsertInputText (incomplete.take (completeBytes incomplete)) with
      incompleteUTF8Text := incomplete.drop (completeBytes incomplete) }

section

variable (s : LineEditor)

include s

theorem AddInputText_eq (text : List UInt8) (some : text ≠ []) :
    s.AddInputText text = s.settle (s.incompleteUTF8Text ++ text) := by
  have length : completeLength (s.incompleteUTF8Text ++ text)
      (s.incompleteUTF8Text ++ text).length 0 = completeBytes (s.incompleteUTF8Text ++ text) := by
    rw [completeLength_eq (by omega), zero_add, drop_zero]
  have filled : text.length ≠ 0 := fun empty => some (length_eq_zero_iff.mp empty)
  rw [AddInputText, if_neg filled, settle]
  simp only [length]
  by_cases none : completeBytes (s.incompleteUTF8Text ++ text) = 0
  · rw [if_neg (fun other => other none), if_pos none]
  · rw [if_pos none, if_neg none]
    rfl

theorem InsertInputText_append (first second : List UInt8) :
    (s.InsertInputText first).InsertInputText second = s.InsertInputText (first ++ second) := by
  have front : (s.editBuffer.take s.cursorPosition ++ first ++
      s.editBuffer.drop s.cursorPosition).take (s.cursorPosition + first.length) =
        s.editBuffer.take s.cursorPosition ++ first := by
    by_cases inside : s.cursorPosition ≤ s.editBuffer.length
    · apply take_left'
      rw [length_append, length_take, min_eq_left inside]
    · rw [drop_eq_nil_of_le (by omega), append_nil]
      apply take_of_length_le
      rw [length_append, length_take]
      omega
  have back : (s.editBuffer.take s.cursorPosition ++ first ++
      s.editBuffer.drop s.cursorPosition).drop (s.cursorPosition + first.length) =
        s.editBuffer.drop s.cursorPosition := by
    by_cases inside : s.cursorPosition ≤ s.editBuffer.length
    · apply drop_left'
      rw [length_append, length_take, min_eq_left inside]
    · rw [drop_eq_nil_of_le (show s.editBuffer.length ≤ s.cursorPosition by omega), append_nil]
      apply drop_eq_nil_of_le
      rw [length_append, length_take]
      omega
  have text : (s.InsertInputText first).editBuffer.take (s.InsertInputText first).cursorPosition ++
      second ++ (s.InsertInputText first).editBuffer.drop (s.InsertInputText first).cursorPosition =
        s.editBuffer.take s.cursorPosition ++ (first ++ second) ++
          s.editBuffer.drop s.cursorPosition := by
    show List.take (s.cursorPosition + first.length) (_ ++ _ ++ _) ++ second ++
      List.drop (s.cursorPosition + first.length) (_ ++ _ ++ _) = _
    rw [front, back]
    simp only [append_assoc]
  have cursor : (s.InsertInputText first).cursorPosition + second.length =
      s.cursorPosition + (first ++ second).length := by
    rw [length_append, ← add_assoc]
    rfl
  rw [InsertInputText, text, cursor]
  rfl

theorem AddInputText_nil : s.AddInputText [] = s := if_pos rfl

theorem settle_waits (incomplete : List UInt8) :
    (s.settle incomplete).incompleteUTF8Text = incomplete.drop (completeBytes incomplete) := by
  unfold settle
  by_cases waits : completeBytes incomplete = 0
  · rw [if_pos waits, waits, drop_zero]
  · rw [if_neg waits]

theorem settle_append (incomplete more : List UInt8) :
    (s.settle incomplete).settle (incomplete.drop (completeBytes incomplete) ++ more) =
      s.settle (incomplete ++ more) := by
  have grown := completeBytes_append incomplete more
  have fits := completeBytes_le incomplete
  by_cases waits : completeBytes incomplete = 0
  · rw [waits, drop_zero, settle.eq_1 s incomplete, if_pos waits]
    rfl
  · have front : (incomplete ++ more).take (completeBytes (incomplete ++ more)) =
        incomplete.take (completeBytes incomplete) ++
          (incomplete.drop (completeBytes incomplete) ++ more).take
            (completeBytes (incomplete.drop (completeBytes incomplete) ++ more)) := by
      rw [grown, take_add, take_append_of_le_length fits, drop_append_of_le_length fits]
    have back : (incomplete ++ more).drop (completeBytes (incomplete ++ more)) =
        (incomplete.drop (completeBytes incomplete) ++ more).drop
          (completeBytes (incomplete.drop (completeBytes incomplete) ++ more)) := by
      rw [grown, ← drop_drop, drop_append_of_le_length fits]
    have whole : completeBytes (incomplete ++ more) ≠ 0 := by omega
    rw [settle.eq_1 s (incomplete ++ more), if_neg whole, front, back, ← InsertInputText_append,
      settle.eq_1 s incomplete, if_neg waits, settle]
    generalize incomplete.drop (completeBytes incomplete) ++ more = rest
    by_cases later : completeBytes rest = 0
    · rw [if_pos later, later, take_zero, drop_zero, InsertInputText_append, append_nil]
    · rw [if_neg later]
      rfl

theorem AddInputText_append (first second : List UInt8) :
    (s.AddInputText first).AddInputText second = s.AddInputText (first ++ second) := by
  by_cases empty : first = []
  · rw [empty, AddInputText_nil, nil_append]
  · by_cases none : second = []
    · rw [none, AddInputText_nil, append_nil]
    · have whole : first ++ second ≠ [] := by simp [empty]
      rw [AddInputText_eq _ first empty, AddInputText_eq _ second none, AddInputText_eq _ _ whole,
        settle_waits, settle_append, append_assoc]

/-- Adding text neither reads nor changes what the search for control characters keeps. -/
theorem AddInputText_with (text : List UInt8) (parser : AnsiParser) (skip : Bool) :
    ({ s with ansiCodeParser := parser, skipNextLineFeed := skip } : LineEditor).AddInputText text =
      { s.AddInputText text with ansiCodeParser := parser, skipNextLineFeed := skip } := by
  unfold AddInputText
  by_cases empty : text.length = 0
  · rw [if_pos empty, if_pos empty]
  · rw [if_neg empty, if_neg empty]
    simp only
    by_cases none : completeLength (s.incompleteUTF8Text ++ text)
        (s.incompleteUTF8Text ++ text).length 0 = 0
    · rw [if_neg (fun other => other none), if_neg (fun other => other none)]
    · rw [if_pos none, if_pos none]
      rfl

theorem AddInputText_keeps (text : List UInt8) :
    (s.AddInputText text).settings = s.settings ∧
      (s.AddInputText text).ansiCodeParser = s.ansiCodeParser ∧
      (s.AddInputText text).skipNextLineFeed = s.skipNextLineFeed ∧
      (s.AddInputText text).inputActive = s.inputActive := by
  unfold AddInputText
  split
  · exact ⟨rfl, rfl, rfl, rfl⟩
  · simp only
    split
    · exact ⟨rfl, rfl, rfl, rfl⟩
    · exact ⟨rfl, rfl, rfl, rfl⟩

theorem FlushIncompleteUTF8Text_active :
    s.FlushIncompleteUTF8Text.inputActive = s.inputActive := by
  unfold FlushIncompleteUTF8Text
  split
  · rfl
  · rfl

/-! ### Keys that leave the line open -/

theorem MoveInHistory_active (distance : Int) :
    (s.MoveInHistory distance).inputActive = s.inputActive := by
  unfold MoveInHistory exchange
  simp only
  repeat' split
  all_goals rfl

theorem DeleteChar_active : s.DeleteChar.inputActive = s.inputActive := by
  unfold DeleteChar
  simp only
  split
  · rfl
  · rfl

theorem BackspaceChar_active : s.BackspaceChar.inputActive = s.inputActive := by
  unfold BackspaceChar
  simp only
  split
  · rfl
  · rfl

theorem replace_active (candidates : List CompletionCandidate)
    (replaceStart replaceEnd : Nat) :
    (s.replace candidates replaceStart replaceEnd).inputActive = s.inputActive := by
  unfold replace
  simp only
  split
  · rfl
  · rfl

end

theorem ExpandArgument_active (host : EditorHost) (s : LineEditor) :
    (s.ExpandArgument host).inputActive = s.inputActive := by
  unfold ExpandArgument
  split
  · rfl
  split
  · exact replace_active _ _ _ _
  · rfl

theorem keycode_active (s : LineEditor) (arguments : List Nat) :
    (s.keycode arguments).inputActive = s.inputActive := by
  unfold keycode
  split
  · rfl
  · rfl
  · rfl
  · rfl
  · rfl
  · exact DeleteChar_active s
  · exact MoveInHistory_active s _
  · exact MoveInHistory_active s _
  · rfl

theorem ProcessControlCharacter_active (host : EditorHost) {s : LineEditor} {code : ControlCode}
    {arguments : List Nat} (stays : (s.ProcessControlCharacter host code arguments).1 = false) :
    (s.ProcessControlCharacter host code arguments).2.inputActive = s.inputActive := by
  have keys : ∀ key : ControlCode, (if key = .XTerm_Left then s.MoveCursorLeft
        else if key = .XTerm_Right then s.MoveCursorRight
        else if key = .XTerm_Up then s.MoveInHistory (-1)
        else if key = .XTerm_Down then s.MoveInHistory 1
        else if key = .XTerm_End then s.MoveCursorTo s.editBuffer.length
        else if key = .XTerm_Home then s.MoveCursorTo 0
        else if key = .VT_Keycode then s.keycode arguments
        else s).inputActive = s.inputActive := by
    intro key
    repeat' split
    all_goals first
      | rfl
      | exact MoveInHistory_active s _
      | exact keycode_active s arguments
  cases code with
  | None => exact keys _
  | Pending => exact keys _
  | Disconnect =>
    simp only [ProcessControlCharacter] at stays
    split at stays
    · cases stays
    · cases stays
  | Break => cases stays
  | Cancel => cases stays
  | Escape => exact keys _
  | Backspace =>
    simp only [ProcessControlCharacter] at stays ⊢
    split
    · rename_i cancels
      rw [if_pos cancels] at stays
      cases stays
    · exact BackspaceChar_active s
  | Tab => exact ExpandArgument_active host s
  | final byte => exact keys _

theorem SubmitLine_active (host : EditorHost) {s : LineEditor}
    (stays : (s.SubmitLine host).1 = false) : (s.SubmitLine host).2.inputActive = s.inputActive := by
  unfold SubmitLine at stays ⊢
  simp only at stays ⊢
  split
  · rfl
  · rename_i complete
    rw [if_neg complete] at stays
    cases stays

/-- One byte with all the text before it inserted: whether `AddInput` returns behind it, and the
editor then. -/
def typed (host : EditorHost) (s : LineEditor) (character : UInt8) : Bool × LineEditor :=
  if s.skipNextLineFeed ∧ character = 0x0a then (false, { s with skipNextLineFeed := false })
  else
    let (code, parser) := s.controlCharacter character
    let s := { s with ansiCodeParser := parser, skipNextLineFeed := false }
    if code ≠ .None then
      if code ≠ .Pending then s.ProcessControlCharacter host code parser.codeArgs else (false, s)
    else if character = 0x0d ∨ character = 0x0a then
      SubmitLine host { s.FlushIncompleteUTF8Text with skipNextLineFeed := character = 0x0d }
    else (false, s.AddInputText [character])

/-- A byte for the editor; behind the end of a line all bytes are left. -/
def typeNext (host : EditorHost) (held : LineEditor × List UInt8) (character : UInt8) :
    LineEditor × List UInt8 :=
  if held.1.inputActive then ((held.1.typed host character).2, [])
  else (held.1, held.2 ++ [character])

section

variable (host : EditorHost)

include host

theorem inputLoop_cons (s : LineEditor) {run : List UInt8}
    (skips : s.skipNextLineFeed = true → run = []) (k : Nat) (character : UInt8)
    (rest : List UInt8) :
    ((s.AddInputText run).typed host character).1 = true ∧
        inputLoop host s run k (character :: rest) =
          (k + 1, ((s.AddInputText run).typed host character).2) ∨
      ∃ after left, (after.skipNextLineFeed = true → left = []) ∧
        (s.AddInputText run).typed host character = (false, after.AddInputText left) ∧
        inputLoop host s run k (character :: rest) = inputLoop host after left (k + 1) rest := by
  have ends : ∀ done : Bool × LineEditor, done.1 = true ∧
          (if done.1 = true then (k + 1, done.2) else inputLoop host done.2 [] (k + 1) rest) =
            (k + 1, done.2) ∨
        ∃ after left, (after.skipNextLineFeed = true → left = []) ∧
          done = (false, after.AddInputText left) ∧
          (if done.1 = true then (k + 1, done.2) else inputLoop host done.2 [] (k + 1) rest) =
            inputLoop host after left (k + 1) rest := by
    intro done
    by_cases returns : done.1 = true
    · exact Or.inl ⟨returns, if_pos returns⟩
    · right
      refine ⟨done.2, [], fun _ => rfl, ?_, if_neg returns⟩
      rw [AddInputText_nil, ← Bool.eq_false_iff.mpr returns]
  have kept := AddInputText_keeps s run
  have same : (s.AddInputText run).controlCharacter character = s.controlCharacter character := by
    unfold controlCharacter
    rw [kept.1, kept.2.1]
  by_cases skip : s.skipNextLineFeed ∧ character = 0x0a
  · right
    refine ⟨{ s with skipNextLineFeed := false }, [], fun _ => rfl, ?_, ?_⟩
    · rw [skips skip.1, AddInputText_nil, AddInputText_nil, typed, if_pos skip]
    · rw [inputLoop, if_pos skip]
  · have unlike : ¬ ((s.AddInputText run).skipNextLineFeed ∧ character = 0x0a) := by
      rw [kept.2.2.1]
      exact skip
    have alike : ({ s with skipNextLineFeed := false } : LineEditor).controlCharacter character =
        s.controlCharacter character := rfl
    rw [inputLoop, if_neg skip, typed, if_neg unlike, same]
    simp only [alike]
    generalize s.controlCharacter character = read
    cases read with
    | mk code parser =>
      simp only
      have inserted := AddInputText_with s run parser false
      rw [inserted]
      by_cases control : code ≠ .None
      · rw [if_pos control, if_pos control]
        by_cases whole : code ≠ .Pending
        · rw [if_pos whole, if_pos whole]
          exact ends _
        · right
          rw [if_neg whole, if_neg whole]
          refine ⟨_, [], fun _ => rfl, ?_, rfl⟩
          rw [AddInputText_nil]
      · rw [if_neg control, if_neg control]
        by_cases line : character = 0x0d ∨ character = 0x0a
        · rw [if_pos line, if_pos line]
          exact ends _
        · right
          rw [if_neg line, if_neg line]
          refine ⟨{ s with ansiCodeParser := parser, skipNextLineFeed := false },
            run ++ [character], fun skipped => absurd skipped Bool.false_ne_true, ?_, rfl⟩
          rw [← inserted, AddInputText_append]

variable {s : LineEditor}

theorem typed_active {character : UInt8}
    (stays : (s.typed host character).1 = false) :
    (s.typed host character).2.inputActive = s.inputActive := by
  unfold typed at stays ⊢
  by_cases skip : s.skipNextLineFeed ∧ character = 0x0a
  · rw [if_pos skip]
  · rw [if_neg skip] at stays ⊢
    generalize s.controlCharacter character = read at stays ⊢
    cases read with
    | mk code parser =>
      simp only at stays ⊢
      by_cases control : code ≠ .None
      · rw [if_pos control] at stays ⊢
        by_cases whole : code ≠ .Pending
        · rw [if_pos whole] at stays ⊢
          exact ProcessControlCharacter_active host stays
        · rw [if_neg whole]
      · rw [if_neg control] at stays ⊢
        by_cases line : character = 0x0d ∨ character = 0x0a
        · rw [if_pos line] at stays ⊢
          rw [SubmitLine_active host stays]
          exact FlushIncompleteUTF8Text_active _
        · rw [if_neg line]
          exact (AddInputText_keeps _ _).2.2.2

theorem foldl_typeNext_inactive (ended : ¬ s.inputActive)
    (left text : List UInt8) : text.foldl (typeNext host) (s, left) = (s, left ++ text) := by
  induction text generalizing left with
  | nil => rw [foldl_nil, append_nil]
  | cons character rest ih =>
    rw [foldl_cons, typeNext, if_neg ended, ih, append_assoc]
    rfl

theorem typeNext_active (active : s.inputActive = true)
    (left : List UInt8) (character : UInt8) :
    typeNext host (s, left) character = ((s.typed host character).2, []) := if_pos active

/-- The loop stops behind a byte that ends the line; to there it has typed byte for byte. -/
theorem inputLoop_typed {run : List UInt8}
    (skips : s.skipNextLineFeed = true → run = []) (active : s.inputActive = true) (k : Nat)
    (text : List UInt8) :
    ∃ consumed, (inputLoop host s run k text).1 = k + consumed ∧ (text ≠ [] → 0 < consumed) ∧
      (text.drop consumed).foldl (typeNext host) ((inputLoop host s run k text).2, []) =
        text.foldl (typeNext host) (s.AddInputText run, []) := by
  induction text generalizing s run k with
  | nil => exact ⟨0, rfl, fun some => absurd rfl some, rfl⟩
  | cons character rest ih =>
    have open' : (s.AddInputText run).inputActive = true := by
      rw [(AddInputText_keeps s run).2.2.2]
      exact active
    rw [foldl_cons, typeNext_active host open']
    rcases inputLoop_cons host s skips k character rest with ends | goes
    · refine ⟨1, ?_, fun _ => Nat.one_pos, ?_⟩
      · rw [ends.2]
      · rw [ends.2]
        rfl
    · rcases goes with ⟨after, left, skips', same, turn⟩
      have active' : after.inputActive = true := by
        have kept := typed_active host (congrArg Prod.fst same)
        rw [same] at kept
        rw [← (AddInputText_keeps after left).2.2.2, kept]
        exact open'
      rcases ih skips' active' (k + 1) with ⟨consumed, count, _, typing⟩
      refine ⟨consumed + 1, ?_, fun _ => Nat.succ_pos _, ?_⟩
      · rw [turn, count]
        omega
      · rw [turn, same, drop_succ_cons]
        exact typing

theorem addAll_typed {turns : Nat} (s : LineEditor) {text : List UInt8}
    (enough : text.length ≤ turns) :
    s.addAll host turns text = text.foldl (typeNext host) (s, []) := by
  induction turns generalizing s text with
  | zero =>
    have empty : text = [] := length_eq_zero_iff.mp (Nat.le_zero.mp enough)
    rw [empty]
    rfl
  | succ turns ih =>
    rw [addAll]
    by_cases goes : text ≠ [] ∧ s.inputActive
    · rw [if_pos goes]
      have called : s.AddInput host text = inputLoop host s [] 0 text := if_pos goes.2
      rcases inputLoop_typed host (s := s) (fun _ => rfl) goes.2 0 text with
        ⟨consumed, count, some, typing⟩
      have progress := some goes.1
      have shorter : (text.drop consumed).length ≤ turns := by
        rw [length_drop]
        omega
      rw [AddInputText_nil] at typing
      simp only
      rw [called, count, zero_add, if_neg (by omega), ih _ shorter, typing]
    · rw [if_neg goes]
      by_cases empty : text = []
      · rw [empty]
        rfl
      · rw [foldl_typeNext_inactive host (fun active => goes ⟨empty, active⟩), nil_append]

section

variable (held : LineEditor × List UInt8) (waits : held.2 ≠ [] → ¬ held.1.inputActive)

include held waits

theorem foldl_typeNext_waits
    (text : List UInt8) :
    (text.foldl (typeNext host) held).2 ≠ [] →
      ¬ (text.foldl (typeNext host) held).1.inputActive := by
  induction text generalizing held with
  | nil => exact waits
  | cons character rest ih =>
    apply ih
    rw [typeNext]
    by_cases active : held.1.inputActive
    · rw [if_pos active]
      exact fun left => absurd rfl left
    · rw [if_neg active]
      exact fun _ => active

theorem foldl_typeNext_left
    (more : List UInt8) :
    (held.2 ++ more).foldl (typeNext host) (held.1, []) = more.foldl (typeNext host) held := by
  cases held with
  | mk s left =>
    by_cases empty : left = []
    · subst empty
      rfl
    · rw [foldl_typeNext_inactive host (waits empty), foldl_typeNext_inactive host (waits empty),
        nil_append]

end

theorem addPieces_typed {pending : List UInt8}
    (waits : pending ≠ [] → ¬ s.inputActive) (pieces : List (List UInt8)) :
    s.addPieces host pending pieces =
      (pending ++ pieces.flatten).foldl (typeNext host) (s, []) := by
  induction pieces generalizing s pending with
  | nil =>
    rw [foldl_typeNext_left host (s, pending) waits]
    rfl
  | cons piece rest ih =>
    have after := foldl_typeNext_waits host (s, pending) waits piece
    rw [addPieces, addAll_typed host s le_rfl]
    simp only
    rw [foldl_typeNext_left host (s, pending) waits, ih after,
      foldl_typeNext_left host _ after, ← foldl_append,
      foldl_typeNext_left host (s, pending) waits, flatten_cons]

end

end LineEditor

/-- However one stream of input is cut into pieces, the lines submitted, the text being edited, the
cursor, the history and the rest of the editor end alike. -/
theorem input_insensitive_to_pieces (host : EditorHost) (s : LineEditor)
    (first second : List (List UInt8)) (same : first.flatten = second.flatten) :
    s.addPieces host [] first = s.addPieces host [] second := by
  rw [LineEditor.addPieces_typed host (fun left => absurd rfl left),
    LineEditor.addPieces_typed host (fun left => absurd rfl left), same]

/-- An editor that starts again after each line, with no completion and all lines complete. -/
def plainHost : EditorHost where
  incomplete := fun _ => false
  GetTokenByPosition := fun _ _ => none
  GetTokenText := fun _ _ => []
  TokenToGlobalOffset := fun _ _ offset => offset
  GetExpansionList := none

def plainEditor : LineEditor where
  settings := ⟨some 0x03, some 0x04, none, false, false, true, true, true⟩
  ansiCodeParser := .initial
  inputBuffer := []
  editBuffer := []
  incompleteUTF8Text := []
  historyBuffers := []
  historyLocation := 0
  cursorPosition := 0
  pendingExpansionAlternatives := []
  inputActive := true
  skipNextLineFeed := false
  events := []

/-- A letter of two bytes, the key for left, a letter in front of it, the end of a line and another
letter: cut inside the letter, the key and the line's end, and not at all. -/
theorem input_insensitive_to_pieces_cut :
    plainEditor.addPieces plainHost []
        [[0xc3], [0xa9, 0x1b], [0x5b], [0x44, 0x61, 0x0d], [0x0a, 0x62]] =
      plainEditor.addPieces plainHost [] [[0xc3, 0xa9, 0x1b, 0x5b, 0x44, 0x61, 0x0d, 0x0a, 0x62]] ∧
    (plainEditor.addPieces plainHost []
        [[0xc3, 0xa9, 0x1b, 0x5b, 0x44, 0x61, 0x0d, 0x0a, 0x62]]).1.events =
      [.submitted [0x61, 0xc3, 0xa9]] := by
  constructor
  · exact input_insensitive_to_pieces plainHost plainEditor _ _ rfl
  · decide

end PadOS.Terminal
