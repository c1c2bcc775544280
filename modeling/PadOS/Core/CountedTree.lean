import Mathlib.Data.Finset.Card
import Mathlib.Data.Fintype.Basic
import Mathlib.Tactic.Common

/-!
# Trees of counted blocks

A slot is empty, holds an object, or is a block of slots that counts the ones in use. No block is
kept that has nothing in it, so that what is put in builds the blocks on its way and what is taken
out takes the empty ones with it.
-/

namespace PadOS.CountedTree

open Function (update_self update_idem update_eq_self update)

/-- The slots of a block are named by `ι`. -/
inductive Slot (ι α : Type*) where
  | empty
  | object (value : α)
  | block (used : Int) (array : ι → Slot ι α)

variable {ι α : Type*}

namespace Slot

def isEmpty : Slot ι α → Bool
  | empty => true
  | _ => false

@[simp] theorem isEmpty_empty : (empty : Slot ι α).isEmpty = true := rfl

@[simp] theorem isEmpty_object (value : α) : (object value : Slot ι α).isEmpty = false := rfl

@[simp] theorem isEmpty_block (used : Int) (array : ι → Slot ι α) :
    (block used array).isEmpty = false := rfl

@[simp] theorem isEmpty_iff {slot : Slot ι α} : slot.isEmpty = true ↔ slot = empty := by
  cases slot <;> simp

@[simp] theorem isEmpty_eq_false_iff {slot : Slot ι α} :
    slot.isEmpty = false ↔ slot ≠ empty := by
  cases slot <;> simp

/-- What is found at the end of a path. -/
def get : List ι → Slot ι α → Slot ι α
  | [], slot => slot
  | i :: path, block _ array => get path (array i)
  | _ :: _, _ => empty

@[simp] theorem get_nil (slot : Slot ι α) : slot.get [] = slot := by
  cases slot <;> rfl

@[simp] theorem get_empty (path : List ι) : (empty : Slot ι α).get path = empty := by
  cases path <;> rfl

@[simp] theorem get_block (i : ι) (path : List ι) (used : Int) (array : ι → Slot ι α) :
    (block used array).get (i :: path) = (array i).get path := rfl

end Slot

section Count

variable [Fintype ι] {array : ι → Slot ι α} {i : ι} {slot : Slot ι α}

/-- How many slots of a block are in use. -/
def inUse (array : ι → Slot ι α) : Nat := (Finset.univ.filter fun i => !(array i).isEmpty).card

theorem inUse_eq_zero : inUse array = 0 ↔ array = fun _ => .empty := by
  simp [inUse, Finset.filter_eq_empty_iff, funext_iff]

@[simp] theorem inUse_empty : inUse (fun _ => .empty : ι → Slot ι α) = 0 := inUse_eq_zero.mpr rfl

variable [DecidableEq ι]

theorem inUse_update_filled (free : array i = .empty) (filled : slot ≠ .empty) :
    inUse (update array i slot) = inUse array + 1 := by
  have others : (Finset.univ.filter fun j => !(update array i slot j).isEmpty) =
      insert i (Finset.univ.filter fun j => !(array j).isEmpty) := by
    ext j
    by_cases here : j = i
    · subst here
      simpa using filled
    · simp [here]
  rw [inUse, others, Finset.card_insert_of_notMem (by simp [free]), inUse]

theorem inUse_update_kept (filled : array i ≠ .empty) (still : slot ≠ .empty) :
    inUse (update array i slot) = inUse array := by
  refine congrArg Finset.card (Finset.filter_congr fun j _ => ?_)
  by_cases here : j = i
  · subst here
    rw [update_self, Slot.isEmpty_eq_false_iff.mpr still, Slot.isEmpty_eq_false_iff.mpr filled]
  · simp [here]

theorem inUse_update_emptied (filled : array i ≠ .empty) :
    inUse (update array i .empty) + 1 = inUse array := by
  have back : inUse (update (update array i .empty) i (array i)) =
      inUse (update array i .empty) + 1 := inUse_update_filled (by simp) filled
  rwa [update_idem, update_eq_self, eq_comm] at back

theorem update_empty_of_last (filled : array i ≠ .empty) (last : inUse array = 1) :
    update array i .empty = fun _ => .empty := by
  refine inUse_eq_zero.mp ?_
  have emptied := inUse_update_emptied filled
  omega

end Count

section Tree

variable {levels : Nat} {slot : Slot ι α} {value : α} {path other : List ι}

section Paths

variable [DecidableEq ι]

/-- Putting an object at the end of a path. -/
def insert (value : α) : List ι → Slot ι α → Slot ι α
  | [], _ => .object value
  | i :: path, .block used array =>
    .block (if (array i).isEmpty then used + 1 else used)
      (update array i (insert value path (array i)))
  | i :: path, _ => .block 1 (update (fun _ => .empty) i (insert value path .empty))

/-- Taking out what is at the end of a path, with the blocks that it was the last in. -/
def remove : List ι → Slot ι α → Slot ι α
  | [], _ => .empty
  | i :: path, .block used array =>
    if (remove path (array i)).isEmpty then
      if used = 1 then .empty else .block (used - 1) (update array i .empty)
    else .block used (update array i (remove path (array i)))
  | _ :: _, _ => .empty

theorem insert_ne_empty : insert value path slot ≠ .empty := by
  cases path with
  | nil => rw [insert]; simp
  | cons i path => cases slot <;> simp [insert]

end Paths

variable [Fintype ι]

/-- A slot with this many levels of blocks below it: each counts its slots in use, and has some. -/
def Counted : Nat → Slot ι α → Prop
  | _, .empty => True
  | 0, .object _ => True
  | levels + 1, .block used array =>
    used = inUse array ∧ 0 < used ∧ ∀ i, Counted levels (array i)
  | _, _ => False

@[simp] theorem counted_empty : Counted levels (.empty : Slot ι α) := by
  cases levels <;> trivial

variable [DecidableEq ι]

section

variable (counted : Counted levels slot) (length : path.length = levels)

include counted length

theorem counted_insert :
    Counted levels (insert value path slot) := by
  induction path generalizing levels slot with
  | nil =>
    subst length
    cases slot <;> trivial
  | cons i path ih =>
    subst length
    have below {array : ι → Slot ι α} (all : ∀ j, Counted path.length (array j)) (j : ι) :
        Counted path.length (update array i (insert value path (array i)) j) := by
      by_cases here : j = i
      · subst here
        simpa using ih (all j) rfl
      · simpa [here] using all j
    cases slot with
    | empty =>
      refine ⟨?_, Int.one_pos, below fun _ => counted_empty⟩
      rw [inUse_update_filled rfl insert_ne_empty]
      simp
    | object value => exact counted.elim
    | block used array =>
      rcases counted with ⟨count, some_, all⟩
      by_cases free : array i = .empty
      · refine ⟨?_, ?_, below all⟩
        · rw [inUse_update_filled free insert_ne_empty, free]
          simp [count]
        · rw [free]
          simp only [Slot.isEmpty_empty, if_true]
          omega
      · refine ⟨?_, ?_, below all⟩
        · rw [inUse_update_kept free insert_ne_empty]
          simp [count, free]
        · simpa [free] using some_

theorem get_insert
    (sameLength : other.length = levels) :
    (insert value path slot).get other = if other = path then .object value else slot.get other := by
  induction path generalizing levels slot other with
  | nil =>
    subst length
    rw [List.length_eq_zero_iff.mp sameLength]
    cases slot <;> simp [insert]
  | cons i path ih =>
    subst length
    cases other with
    | nil => simp at sameLength
    | cons j other =>
      have rest : other.length = path.length := by simpa using sameLength
      have below {array : ι → Slot ι α} (all : ∀ j, Counted path.length (array j)) :
          (update array i (insert value path (array i)) j).get other =
            if j :: other = i :: path then .object value else (array j).get other := by
        by_cases here : j = i
        · subst here
          simpa using ih (all j) rfl rest
        · simp [here]
      cases slot with
      | empty => simpa [insert] using below fun _ => counted_empty
      | object value => exact counted.elim
      | block used array => simpa [insert] using below counted.2.2

theorem counted_remove
    (there : slot.get path ≠ .empty) : Counted levels (remove path slot) := by
  induction path generalizing levels slot with
  | nil =>
    subst length
    exact counted_empty
  | cons i path ih =>
    subst length
    cases slot with
    | empty => exact absurd rfl there
    | object value => exact counted.elim
    | block used array =>
      rcases counted with ⟨count, some_, all⟩
      have filled : array i ≠ .empty := by
        intro free
        rw [Slot.get_block, free, Slot.get_empty] at there
        exact there rfl
      have below := ih (all i) rfl there
      rw [remove]
      by_cases emptied : remove path (array i) = .empty
      · rw [if_pos (Slot.isEmpty_iff.mpr emptied)]
        by_cases last : used = 1
        · rw [if_pos last]
          exact counted_empty
        · rw [if_neg last]
          have less := inUse_update_emptied filled
          refine ⟨by omega, by omega, fun j => ?_⟩
          by_cases here : j = i
          · simp [here]
          · simpa [here] using all j
      · rw [if_neg (by simpa using emptied)]
        refine ⟨by rw [inUse_update_kept filled emptied, count], some_, fun j => ?_⟩
        by_cases here : j = i
        · subst here
          simpa using below
        · simpa [here] using all j

theorem get_remove
    (sameLength : other.length = levels) (there : slot.get path ≠ .empty) :
    (remove path slot).get other = if other = path then .empty else slot.get other := by
  induction path generalizing levels slot other with
  | nil =>
    subst length
    rw [List.length_eq_zero_iff.mp sameLength]
    simp [remove]
  | cons i path ih =>
    subst length
    cases other with
    | nil => simp at sameLength
    | cons j other =>
      have rest : other.length = path.length := by simpa using sameLength
      cases slot with
      | empty => exact absurd rfl there
      | object value => exact counted.elim
      | block used array =>
        rcases counted with ⟨count, some_, all⟩
        have filled : array i ≠ .empty := by
          intro free
          rw [Slot.get_block, free, Slot.get_empty] at there
          exact there rfl
        have below := ih (all i) rfl rest there
        have updated : (update array i (remove path (array i)) j).get other =
            if j :: other = i :: path then .empty else (array j).get other := by
          by_cases here : j = i
          · subst here
            simpa using below
          · simp [here]
        rw [Slot.get_block, ← updated, remove]
        by_cases emptied : remove path (array i) = .empty
        · rw [if_pos (Slot.isEmpty_iff.mpr emptied), emptied]
          by_cases last : used = 1
          · rw [if_pos last, update_empty_of_last filled (by omega)]
            simp
          · rw [if_neg last, Slot.get_block]
        · rw [if_neg (by simpa using emptied), Slot.get_block]

end

end Tree

end PadOS.CountedTree
