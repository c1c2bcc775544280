import Mathlib.Data.List.Basic

/-!
# Texts of characters of several symbols

In a self-synchronising code the first symbol of a character says how many there are, and none of
the others can be taken for a first one. A text is a sequence of whole characters; its boundaries
are the positions between them, and a single symbol decides whether a position is one.
-/

namespace PadOS

open List Option

structure CharacterCode (α : Type*) where
  isCharacter : List α → Prop
  isFirst : α → Bool
  width : α → Nat
  first : ∀ {c}, isCharacter c → ∃ a rest, c = a :: rest ∧ isFirst a ∧ width a = c.length ∧
    ∀ b ∈ rest, ¬ isFirst b

namespace CharacterCode

variable {α : Type*} (code : CharacterCode α) {t u c : List α} {p q : Nat}

inductive IsText : List α → Prop
  | nil : IsText []
  | cons {c t : List α} : code.isCharacter c → IsText t → IsText (c ++ t)

/-- A position between two characters, or at an end of the text. -/
structure Boundary (t : List α) (p : Nat) : Prop where
  inside : p ≤ t.length
  before : code.IsText (t.take p)
  after : code.IsText (t.drop p)

variable {code}

namespace IsText

theorem single (isCharacter : code.isCharacter c) : code.IsText c := by
  have whole := IsText.cons isCharacter .nil
  rwa [append_nil] at whole

theorem append (first : code.IsText t) (second : code.IsText u) : code.IsText (t ++ u) := by
  induction first with
  | nil => exact second
  | cons isCharacter _ ih =>
    rw [append_assoc]
    exact .cons isCharacter ih

theorem flatMap {f : α → List α} (keeps : ∀ c, code.isCharacter c → code.IsText (c.flatMap f))
    (text : code.IsText t) : code.IsText (t.flatMap f) := by
  induction text with
  | nil => exact .nil
  | cons isCharacter _ ih =>
    rw [flatMap_append]
    exact (keeps _ isCharacter).append ih

section

variable (text : code.IsText t)

include text

theorem exists_first (some : t ≠ []) :
    ∃ a c rest, t = c ++ rest ∧ t.head? = Option.some a ∧ code.isCharacter c ∧
      code.IsText rest ∧ code.isFirst a ∧ code.width a = c.length ∧ 0 < c.length := by
  cases text with
  | nil => exact absurd rfl some
  | @cons c rest isCharacter restText =>
    obtain ⟨a, others, isCons, isFirst, width, _⟩ := code.first isCharacter
    refine ⟨a, c, rest, rfl, ?_, isCharacter, restText, isFirst, width, ?_⟩
    · rw [isCons]
      rfl
    · rw [isCons]
      exact Nat.succ_pos _

theorem boundary_zero : code.Boundary t 0 :=
  ⟨Nat.zero_le _, .nil, text⟩

theorem boundary_length : code.Boundary t t.length :=
  ⟨Nat.le_refl _, by rwa [take_length], by rw [drop_length]; exact .nil⟩

theorem boundary_of_isFirst (inside : p < t.length)
    (isFirst : code.isFirst t[p]) : code.Boundary t p := by
  induction text generalizing p with
  | nil => exact absurd inside (Nat.not_lt_zero p)
  | @cons c t isCharacter rest ih =>
    obtain ⟨a, others, rfl, _, _, notFirst⟩ := code.first isCharacter
    match p with
    | 0 => exact (IsText.cons isCharacter rest).boundary_zero
    | p + 1 =>
      by_cases within : p < others.length
      · have member : (a :: others ++ t)[p + 1] ∈ others := by
          simp [getElem_append_left within]
        exact absurd isFirst (notFirst _ member)
      · obtain ⟨k, rfl⟩ := Nat.exists_eq_add_of_le (Nat.le_of_not_lt within)
        have insideRest : k < t.length := by
          simp only [length_append, length_cons] at inside
          omega
        have atRest : code.isFirst t[k] := by
          simpa [getElem_append_right] using isFirst
        have boundary := ih insideRest atRest
        have position : others.length + k + 1 = (a :: others).length + k := by
          rw [length_cons]
          omega
        rw [position]
        refine ⟨?_, ?_, ?_⟩
        · rw [length_append]
          exact Nat.add_le_add_left boundary.inside _
        · rw [take_length_add_append]
          exact .cons isCharacter boundary.before
        · rw [drop_length_add_append]
          exact boundary.after

end

end IsText

namespace Boundary

section

variable (boundary : code.Boundary t p)

include boundary

theorem isText : code.IsText t := by
  have joined := boundary.before.append boundary.after
  rwa [take_append_drop] at joined

theorem isFirst (inside : p < t.length) : code.isFirst t[p] := by
  have some : t.drop p ≠ [] := by
    rw [Ne, drop_eq_nil_iff]
    omega
  obtain ⟨a, _, _, _, head, _, _, isFirst, _⟩ := boundary.after.exists_first some
  rw [List.head?_drop, List.getElem?_eq_getElem inside] at head
  rwa [Option.some.inj head]

/-- A position before a boundary is one in the text up to there if it is one in the whole text. -/
theorem take (cut : code.Boundary t q) (ordered : p ≤ q) :
    code.Boundary (t.take q) p := by
  have bounded := cut.inside
  have length : (t.take q).length = q := by
    rw [length_take, Nat.min_eq_left bounded]
  obtain rfl | before := Nat.eq_or_lt_of_le ordered
  · have whole := cut.before.boundary_length
    rwa [length] at whole
  · apply cut.before.boundary_of_isFirst (by omega)
    rw [getElem_take]
    exact boundary.isFirst (by omega)

theorem append_right (more : code.IsText u) :
    code.Boundary (t ++ u) p := by
  refine ⟨?_, ?_, ?_⟩
  · rw [length_append]
    exact Nat.le_add_right_of_le boundary.inside
  · rw [take_append_of_le_length boundary.inside]
    exact boundary.before
  · rw [drop_append_of_le_length boundary.inside]
    exact boundary.after.append more

theorem append_left (front : code.IsText u) :
    code.Boundary (u ++ t) (u.length + p) := by
  refine ⟨?_, ?_, ?_⟩
  · rw [length_append]
    exact Nat.add_le_add_left boundary.inside _
  · rw [take_length_add_append]
    exact front.append boundary.before
  · rw [drop_length_add_append]
    exact boundary.after

end

theorem replace (start : code.Boundary t p) (stop : code.Boundary t q) (text : code.IsText u) :
    code.Boundary (t.take p ++ u ++ t.drop q) (p + u.length) := by
  have length : (t.take p ++ u).length = p + u.length := by
    rw [length_append, length_take, Nat.min_eq_left start.inside]
  have boundary := ((start.before.append text).boundary_length).append_right stop.after
  rwa [length] at boundary

theorem keep {k : Nat} (boundary : code.Boundary t k) (start : code.Boundary t p)
    (stop : code.Boundary t q) (text : code.IsText u) (ordered : k ≤ p) :
    code.Boundary (t.take p ++ u ++ t.drop q) k := by
  rw [append_assoc]
  exact (boundary.take start ordered).append_right (text.append stop.after)

theorem keep_erase {k : Nat} (boundary : code.Boundary t k) (start : code.Boundary t p)
    (stop : code.Boundary t q) (ordered : k ≤ p) : code.Boundary (t.take p ++ t.drop q) k :=
  (boundary.take start ordered).append_right stop.after

/-- The character behind a boundary ends at one, and there is none in between. -/
theorem next (boundary : code.Boundary t p) (inside : p < t.length) :
    0 < code.width t[p] ∧ code.Boundary t (p + code.width t[p]) ∧
      ∀ k, code.Boundary t k → p < k → p + code.width t[p] ≤ k := by
  have some : t.drop p ≠ [] := by
    rw [Ne, drop_eq_nil_iff]
    omega
  obtain ⟨a, c, rest, split, head, isCharacter, restText, _, width, positive⟩ :=
    boundary.after.exists_first some
  rw [List.head?_drop, List.getElem?_eq_getElem inside] at head
  rw [Option.some.inj head, width]
  have whole : t = t.take p ++ (c ++ rest) := by
    rw [← split, take_append_drop]
  have length : (t.take p).length = p := by
    rw [length_take, Nat.min_eq_left boundary.inside]
  have ends : code.Boundary t (p + c.length) := by
    have boundary := ((IsText.single isCharacter).boundary_length.append_right restText).append_left
      boundary.before
    rwa [← whole, length] at boundary
  refine ⟨positive, ends, ?_⟩
  intro k other behind
  by_contra within
  have insideText := ends.inside
  obtain ⟨_, others, rfl, _, _, notFirst⟩ := code.first isCharacter
  obtain ⟨j, rfl⟩ : ∃ j, k = p + (j + 1) := ⟨k - p - 1, by omega⟩
  have shorter : j < others.length := by
    rw [length_cons] at within
    omega
  have isFirst := other.isFirst (by omega)
  have symbol : t[p + (j + 1)]? = Option.some others[j] := by
    rw [← getElem?_drop, split]
    simp [getElem?_append_left shorter, List.getElem?_eq_getElem shorter]
  rw [List.getElem?_eq_getElem (by omega)] at symbol
  rw [Option.some.inj symbol] at isFirst
  exact notFirst _ (getElem_mem shorter) isFirst

end Boundary

end CharacterCode

end PadOS
