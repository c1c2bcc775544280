import Mathlib.Data.List.Basic
import Mathlib.Tactic.Common

/-!
# The content of a file

Reads take what is there, writes fill the hole they leave behind the end. A second content laid
over a part of the first is a write that has not been made yet.
-/

namespace PadOS.FileContent

open List

variable {α : Type*}

/-- What a read of `size` symbols at `position` finds. -/
def readAt (content : List α) (position size : Nat) : List α := (content.drop position).take size

/-- The content after a write; a write of nothing leaves it as it is. -/
def writeAt (fill : α) (content : List α) (position : Nat) (data : List α) : List α :=
  if data.length = 0 then content
  else content.take position ++ List.replicate (position - content.length) fill ++ data ++
    content.drop (position + data.length)

variable {fill : α} {content data more : List α} {position size other i : Nat}

@[simp] theorem writeAt_nil : writeAt fill content position [] = content := if_pos rfl

theorem getElem?_readAt :
    (readAt content position size)[i]? = if i < size then content[position + i]? else none := by
  rw [readAt, getElem?_take, getElem?_drop]

theorem length_readAt : (readAt content position size).length = min size (content.length - position) := by
  rw [readAt, length_take, length_drop]

theorem length_writeAt (filled : data.length ≠ 0) :
    (writeAt fill content position data).length = max content.length (position + data.length) := by
  rw [writeAt, if_neg filled]
  simp only [length_append, length_take, length_replicate, length_drop]
  omega

theorem getElem?_writeAt :
    (writeAt fill content position data)[i]? =
      if position ≤ i ∧ i < position + data.length then data[i - position]?
      else if i < content.length then content[i]?
      else if i < position ∧ data.length ≠ 0 then some fill
      else none := by
  by_cases empty : data.length = 0
  · rw [writeAt, if_pos empty, if_neg (by omega)]
    by_cases inside : i < content.length
    · rw [if_pos inside]
    · rw [if_neg inside, if_neg (by omega), getElem?_eq_none (by omega)]
  · rw [writeAt, if_neg empty]
    simp only [getElem?_append, length_append, length_take, length_replicate,
      getElem?_take, getElem?_replicate, getElem?_drop]
    by_cases before : i < position
    · by_cases inside : i < content.length
      · rw [if_pos (by omega), if_pos (by omega), if_pos (by omega), if_pos before,
          if_neg (by omega), if_pos inside]
      · rw [if_pos (by omega), if_pos (by omega), if_neg (by omega), if_pos (by omega),
          if_neg (by omega), if_neg inside, if_pos ⟨before, empty⟩]
    · by_cases written : i < position + data.length
      · rw [if_pos (by omega), if_neg (by omega), if_pos (by omega)]
        congr 1
        omega
      · rw [if_neg (by omega), if_neg (by omega)]
        by_cases inside : i < content.length
        · rw [if_pos inside]
          congr 1
          omega
        · rw [if_neg inside, if_neg (by omega)]
          apply getElem?_eq_none
          omega

theorem writeAt_append :
    writeAt fill (writeAt fill content position data) (position + data.length) more =
      writeAt fill content position (data ++ more) := by
  by_cases empty : data.length = 0
  · rw [length_eq_zero_iff.mp empty, writeAt_nil, nil_append]
    rfl
  · apply ext_getElem?
    intro i
    simp only [getElem?_writeAt, length_writeAt empty, length_append, getElem?_append]
    grind

theorem writeAt_comm (apart : position + data.length ≤ other ∨ other + more.length ≤ position) :
    writeAt fill (writeAt fill content position data) other more =
      writeAt fill (writeAt fill content other more) position data := by
  by_cases empty : data.length = 0
  · rw [length_eq_zero_iff.mp empty, writeAt_nil, writeAt_nil]
  · by_cases none : more.length = 0
    · rw [length_eq_zero_iff.mp none, writeAt_nil, writeAt_nil]
    · apply ext_getElem?
      intro i
      simp only [getElem?_writeAt, length_writeAt empty, length_writeAt none]
      grind

theorem writeAt_over (inside : other ≤ data.length) :
    writeAt fill (writeAt fill content position data) (position + other) more =
      writeAt fill content position (writeAt fill data other more) := by
  by_cases none : more.length = 0
  · rw [length_eq_zero_iff.mp none, writeAt_nil, writeAt_nil]
  · have filled : (writeAt fill data other more).length ≠ 0 := by
      rw [length_writeAt none]
      omega
    by_cases empty : data.length = 0
    · have start : other = 0 := by omega
      rw [length_eq_zero_iff.mp empty, writeAt_nil, start]
      congr 1
      rw [writeAt, if_neg none]
      simp
    · apply ext_getElem?
      intro i
      simp only [getElem?_writeAt, length_writeAt empty, length_writeAt none]
      grind

theorem writeAt_readAt (same : readAt content position data.length = data) :
    writeAt fill content position data = content := by
  have lengths := congrArg List.length same
  rw [length_readAt] at lengths
  apply ext_getElem?
  intro i
  rw [getElem?_writeAt]
  by_cases written : position ≤ i ∧ i < position + data.length
  · rw [if_pos written, ← same, getElem?_readAt, if_pos (by omega)]
    congr 1
    omega
  · rw [if_neg written]
    by_cases inside : i < content.length
    · rw [if_pos inside]
    · rw [if_neg inside, if_neg (by omega), getElem?_eq_none (by omega)]

theorem readAt_over (start : position ≤ other) (fits : other + size ≤ position + data.length) :
    readAt (writeAt fill content position data) other size =
      (data.drop (other - position)).take size := by
  apply ext_getElem?
  intro i
  rw [getElem?_readAt, getElem?_writeAt, getElem?_take, getElem?_drop]
  by_cases inside : i < size
  · rw [if_pos inside, if_pos inside, if_pos (by omega)]
    congr 1
    omega
  · rw [if_neg inside, if_neg inside]

theorem readAt_apart (apart : other + size ≤ position ∨ position + data.length ≤ other)
    (found : (readAt content other size).length = size) :
    readAt (writeAt fill content position data) other size = readAt content other size := by
  rw [length_readAt] at found
  apply ext_getElem?
  intro i
  rw [getElem?_readAt, getElem?_readAt]
  by_cases inside : i < size
  · rw [if_pos inside, if_pos inside, getElem?_writeAt, if_neg (by omega), if_pos (by omega)]
  · rw [if_neg inside, if_neg inside]

/-- Two reads that follow each other are one, unless the first has met the end. -/
theorem readAt_append (found : (readAt content position size).length = size) :
    readAt content position size ++ readAt content (position + size) other =
      readAt content position (size + other) := by
  apply ext_getElem?
  intro i
  simp only [getElem?_append, getElem?_readAt, found]
  by_cases first : i < size
  · rw [if_pos first, if_pos first, if_pos (by omega)]
  · rw [if_neg first]
    by_cases second : i < size + other
    · rw [if_pos (by omega), if_pos second]
      congr 1
      omega
    · rw [if_neg (by omega), if_neg second]

end PadOS.FileContent
