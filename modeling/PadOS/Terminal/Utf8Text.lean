import PadOS.Core.CharacterText
import PadOS.Terminal.HorizontalScroll
import PadOS.Utils.Utf8

/-!
# Positions in UTF-8

The editor steps over bytes: to the next first byte, back to the last one, and over the length that
a first byte announces. In valid UTF-8 all of these lead from character to character.
-/

namespace PadOS.Terminal

open Unicode List LineEditor TerminalLineEditor

theorem utf8_char_length_eq (byte : UInt8) : utf8_char_length byte = utf8CharLength byte := by
  revert byte
  apply forall_byte
  decide +kernel

theorem is_first_utf8_byte_iff (byte : UInt8) :
    is_first_utf8_byte byte ↔ ¬ isUtf8ContinuationByte byte := by
  revert byte
  apply forall_byte
  decide +kernel

/-- The bytes behind the first one; a character of several bytes has none from ASCII. -/
theorem unicodeToUtf8_shape {c : Nat} (scalar : isUnicodeScalarValue c) :
    ∃ a rest, unicodeToUtf8 c = a :: rest ∧ is_first_utf8_byte a ∧
      (∀ b ∈ rest, ¬ is_first_utf8_byte b) ∧ (rest ≠ [] → ∀ b ∈ a :: rest, 0x80 ≤ b.toNat) := by
  have bounds := scalar_iff.1 scalar
  have tail (x : Nat) : ¬ is_first_utf8_byte (.ofNat (0x80 ||| (x &&& 0x3f))) ∧
      0x80 ≤ (UInt8.ofNat (0x80 ||| (x &&& 0x3f))).toNat := by
    have byte := Utils.tail_byte (show x &&& 0x3f < 64 by rw [low6]; omega)
    rw [is_first_utf8_byte_iff, byte.1, not_not]
    exact ⟨byte.2, Nat.le_add_right _ _⟩
  have firsts : (∀ x < 0x80, is_first_utf8_byte (.ofNat x)) ∧
      (∀ x < 32, is_first_utf8_byte (.ofNat (0xc0 ||| x)) ∧
        0x80 ≤ (UInt8.ofNat (0xc0 ||| x)).toNat) ∧
      (∀ x < 16, is_first_utf8_byte (.ofNat (0xe0 ||| x)) ∧
        0x80 ≤ (UInt8.ofNat (0xe0 ||| x)).toNat) ∧
      ∀ x < 8, is_first_utf8_byte (.ofNat (0xf0 ||| x)) ∧
        0x80 ≤ (UInt8.ofNat (0xf0 ||| x)).toNat := by
    decide +kernel
  obtain ⟨one, two, three, four⟩ := firsts
  unfold unicodeToUtf8
  split
  · rename_i small
    exact ⟨_, [], rfl, one c small, by simp, by simp⟩
  · split
    · have lead := two (c >>> 6) (by rw [Nat.shiftRight_eq_div_pow]; omega)
      refine ⟨_, _, rfl, lead.1, forall_mem_singleton.2 (tail _).1, fun _ => ?_⟩
      exact forall_mem_cons.2 ⟨lead.2, forall_mem_singleton.2 (tail _).2⟩
    · split
      · have lead := three (c >>> 12) (by rw [Nat.shiftRight_eq_div_pow]; omega)
        refine ⟨_, _, rfl, lead.1, ?_, fun _ => forall_mem_cons.2 ⟨lead.2, ?_⟩⟩
        · exact forall_mem_cons.2 ⟨(tail _).1, forall_mem_singleton.2 (tail _).1⟩
        · exact forall_mem_cons.2 ⟨(tail _).2, forall_mem_singleton.2 (tail _).2⟩
      · have lead := four (c >>> 18) (by rw [Nat.shiftRight_eq_div_pow]; omega)
        refine ⟨_, _, rfl, lead.1, ?_, fun _ => forall_mem_cons.2 ⟨lead.2, ?_⟩⟩
        · exact forall_mem_cons.2 ⟨(tail _).1,
            forall_mem_cons.2 ⟨(tail _).1, forall_mem_singleton.2 (tail _).1⟩⟩
        · exact forall_mem_cons.2 ⟨(tail _).2,
            forall_mem_cons.2 ⟨(tail _).2, forall_mem_singleton.2 (tail _).2⟩⟩

def utf8 : CharacterCode UInt8 where
  isCharacter c := ∃ character, isUnicodeScalarValue character ∧ c = unicodeToUtf8 character
  isFirst := is_first_utf8_byte
  width := utf8_char_length
  first := by
    rintro c ⟨character, scalar, rfl⟩
    obtain ⟨a, rest, isCons, isFirst, others, _⟩ := unicodeToUtf8_shape scalar
    obtain ⟨first, tail, split, length⟩ := utf8CharLength_encoded scalar []
    rw [append_nil, isCons, cons.injEq] at split
    refine ⟨a, rest, isCons, isFirst, ?_, others⟩
    rw [utf8_char_length_eq, split.1, length]

theorem utf8_isText_iff {text : List UInt8} : utf8.IsText text ↔ PString.isValidUtf8 text := by
  rw [Utils.isValidUtf8_iff]
  constructor
  · intro isText
    induction isText with
    | nil => exact ⟨[], by simp, rfl⟩
    | cons isCharacter _ ih =>
      obtain ⟨c, scalar, rfl⟩ := isCharacter
      obtain ⟨cs, scalars, rfl⟩ := ih
      refine ⟨c :: cs, ?_, rfl⟩
      intro x member
      rcases mem_cons.1 member with rfl | member
      · exact scalar
      · exact scalars x member
  · rintro ⟨cs, scalars, rfl⟩
    induction cs with
    | nil => exact .nil
    | cons c cs ih =>
      have rest := ih fun x member => scalars x (mem_cons_of_mem c member)
      exact .cons ⟨c, scalars c mem_cons_self, rfl⟩ rest

variable {text more : List UInt8} {offset position : Nat}

theorem isText_singleton {byte : UInt8} (small : byte.toNat < 0x80) : utf8.IsText [byte] := by
  apply CharacterCode.IsText.single
  refine ⟨byte.toNat, scalar_iff.2 (by omega), ?_⟩
  rw [unicodeToUtf8, if_pos small, UInt8.ofNat_toNat]

/-! ## Forwards -/

theorem GetUTF8CharacterLength_eq (inside : offset < text.length) :
    GetUTF8CharacterLength text offset =
      if offset + utf8_char_length text[offset] ≤ text.length then utf8_char_length text[offset]
      else 0 := by
  unfold GetUTF8CharacterLength
  rw [drop_eq_getElem_cons inside]
  dsimp only
  rw [length_drop]
  congr 1
  rw [eq_iff_iff]
  omega

section

variable (boundary : utf8.Boundary text offset) (inside : offset < text.length)

include boundary inside

theorem next_boundary :
    0 < utf8_char_length text[offset] ∧
      utf8.Boundary text (offset + utf8_char_length text[offset]) ∧
      ∀ k, utf8.Boundary text k → offset < k → offset + utf8_char_length text[offset] ≤ k :=
  boundary.next inside

/-- The character at a boundary is complete. -/
theorem characterStep_eq :
    characterStep text offset = utf8_char_length text[offset] := by
  obtain ⟨positive, ends, _⟩ := next_boundary boundary inside
  have length : GetUTF8CharacterLength text offset = utf8_char_length text[offset] := by
    rw [GetUTF8CharacterLength_eq inside, if_pos ends.inside]
  unfold characterStep
  rw [length, if_neg (Nat.ne_of_gt positive)]

theorem boundary_characterStep
    : utf8.Boundary text (offset + characterStep text offset) ∧
      ∀ k, utf8.Boundary text k → offset < k → offset + characterStep text offset ≤ k := by
  rw [characterStep_eq boundary inside]
  exact (next_boundary boundary inside).2

end

theorem boundary_nextPosition (distance : Nat) (boundary : utf8.Boundary text position) :
    utf8.Boundary text (nextPosition text distance position) := by
  induction distance generalizing position with
  | zero => exact boundary
  | succ distance ih =>
    unfold nextPosition
    split
    · rename_i inside
      have next := (boundary_characterStep boundary inside).1
      rw [min_eq_left next.inside]
      exact ih next
    · exact boundary

/-- Scrolling stops at a boundary no later than the cursor. -/
theorem boundary_scroll {editWidth cursor : Nat} (column : Nat)
    (atCursor : utf8.Boundary text cursor) (boundary : utf8.Boundary text offset)
    (ordered : offset ≤ cursor) :
    utf8.Boundary text (scroll text editWidth cursor column offset) ∧
      scroll text editWidth cursor column offset ≤ cursor := by
  induction column generalizing offset with
  | zero => exact ⟨boundary, ordered⟩
  | succ column ih =>
    unfold scroll
    split
    · rename_i scrolls
      have inside := Nat.lt_of_lt_of_le scrolls.2 atCursor.inside
      obtain ⟨next, within⟩ := boundary_characterStep boundary inside
      exact ih next (within cursor atCursor scrolls.2)
    · exact ⟨boundary, ordered⟩

/-- What is taken of the bytes that have come are whole characters, whatever is still to come. -/
theorem completeLength_spec (turns : Nat) (boundary : utf8.Boundary (text ++ more) offset)
    (inside : offset ≤ text.length) :
    utf8.Boundary (text ++ more) (completeLength text turns offset) ∧
      completeLength text turns offset ≤ text.length := by
  induction turns generalizing offset with
  | zero => exact ⟨boundary, inside⟩
  | succ turns ih =>
    unfold completeLength
    split
    · rename_i within
      have whole : offset < (text ++ more).length := by
        rw [length_append]
        omega
      have next := (next_boundary boundary whole).2.1
      have first : (text ++ more)[offset] = text[offset] := getElem_append_left within
      rw [first] at next
      dsimp only
      rw [GetUTF8CharacterLength_eq within]
      by_cases complete : offset + utf8_char_length text[offset] ≤ text.length
      · rw [if_pos complete]
        split
        · exact ⟨boundary, inside⟩
        · exact ih next complete
      · rw [if_neg complete, if_pos rfl]
        exact ⟨boundary, inside⟩
    · exact ⟨boundary, inside⟩

/-! ## Backwards -/

theorem boundary_previous (valid : utf8.IsText text) (inside : position ≤ text.length) :
    utf8.Boundary text (GetPreviousUTF8CharacterOffset text position) := by
  induction position using GetPreviousUTF8CharacterOffset.induct text with
  | case1 => exact valid.boundary_zero
  | case2 => exact valid.boundary_zero
  | case3 offset isFirst =>
    rw [GetPreviousUTF8CharacterOffset, if_pos isFirst]
    apply valid.boundary_of_isFirst inside
    rwa [getD_eq_getElem _ _ inside] at isFirst
  | case4 offset notFirst ih =>
    rw [GetPreviousUTF8CharacterOffset, if_neg notFirst]
    exact ih (by omega)

theorem boundary_previousPosition (distance : Nat) (boundary : utf8.Boundary text position) :
    utf8.Boundary text (previousPosition text distance position) := by
  induction distance generalizing position with
  | zero => exact boundary
  | succ distance ih =>
    unfold previousPosition
    split
    · exact ih (boundary_previous boundary.isText boundary.inside)
    · exact boundary

theorem boundary_characterBoundary (valid : utf8.IsText text) (inside : position ≤ text.length) :
    utf8.Boundary text (characterBoundary text position) := by
  induction position with
  | zero => exact valid.boundary_zero
  | succ position ih =>
    unfold characterBoundary
    split
    · exact ih (by omega)
    · rename_i stops
      obtain ended | before := Nat.eq_or_lt_of_le inside
      · rw [ended]
        exact valid.boundary_length
      · apply valid.boundary_of_isFirst before
        have isFirst : is_first_utf8_byte (text.getD (position + 1) 0) := by
          by_contra notFirst
          exact stops ⟨before, notFirst⟩
        rwa [getD_eq_getElem _ _ before] at isFirst

/-! ## Completions -/

theorem commonStart_le (others : List (List UInt8)) :
    commonStart text others ≤ text.length := by
  induction text generalizing others with
  | nil => exact Nat.zero_le _
  | cons first rest ih =>
    unfold commonStart
    split
    · exact Nat.succ_le_succ (ih _)
    · exact Nat.zero_le _

/-- A part that several candidates have in common ends with a character of the first one. -/
theorem isText_replacement (s : LineEditor) {candidates : List CompletionCandidate}
    (valid : ∀ candidate ∈ candidates, utf8.IsText candidate.text) (replaceStart replaceEnd : Nat) :
    utf8.IsText (s.replacement candidates replaceStart replaceEnd).1 := by
  match candidates with
  | [] => exact .nil
  | [candidate] => exact valid candidate mem_cons_self
  | first :: second :: others =>
    have firstValid := valid first mem_cons_self
    unfold replacement
    dsimp only
    split
    · exact (boundary_characterBoundary firstValid (commonStart_le _)).before
    · exact .nil

theorem isText_escapeSpaces (valid : utf8.IsText text) :
    utf8.IsText (escapeSpaces text) := by
  refine valid.flatMap ?_
  rintro c ⟨character, scalar, rfl⟩
  obtain ⟨a, rest, isCons, _, _, several⟩ := unicodeToUtf8_shape scalar
  rw [isCons]
  by_cases single : rest = []
  · subst single
    by_cases space : a = 0x20
    · subst space
      exact (@isText_singleton 0x5c (by decide)).append (@isText_singleton 0x20 (by decide))
    · simp only [flatMap_cons, flatMap_nil, append_nil, if_neg space]
      exact .single ⟨character, scalar, isCons.symm⟩
  · have unchanged : ∀ b ∈ a :: rest, (if b = 0x20 then [0x5c, b] else [b]) = [b] := by
      intro b member
      have large := several single b member
      rw [if_neg]
      rintro rfl
      exact absurd large (by decide)
    rw [flatMap_congr unchanged, flatMap_singleton']
    exact .single ⟨character, scalar, isCons.symm⟩

end PadOS.Terminal
