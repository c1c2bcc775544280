import Mathlib.Data.List.Pairwise
import Mathlib.Order.Basic

/-! # Searching a sorted table

An index range is halved until the entry that is looked for stands in the middle. How the
entry that is looked for compares with the one at an index is a parameter.
-/

namespace PadOS.BinarySearch

open List

variable {α : Type} {compare : Nat → Ordering} {rounds low high i : Nat}

/-- `rounds` bounds the number of halvings. -/
def bisect (compare : Nat → Ordering) : Nat → Nat → Nat → Option Nat
  | 0, _, _ => none
  | rounds + 1, low, high =>
    if low < high then
      let middle := low + (high - low) / 2
      match compare middle with
      | .lt => bisect compare rounds low middle
      | .gt => bisect compare rounds (middle + 1) high
      | .eq => some middle
    else none

/-- What is looked for stands before the entries behind one that it stands before, and after the
entries before one that it stands at or after. -/
structure Sorted (compare : Nat → Ordering) (size : Nat) : Prop where
  before : ∀ i j, i < j → j < size → compare i ≠ .gt → compare j = .lt
  after : ∀ i j, i < j → j < size → compare j ≠ .lt → compare i = .gt

theorem bisect_eq_some (found : bisect compare rounds low high = some i) :
    compare i = .eq ∧ low ≤ i ∧ i < high := by
  induction rounds generalizing low high with
  | zero => cases found
  | succ rounds ih =>
    rw [bisect] at found
    split at found
    · dsimp only at found
      split at found
      · obtain ⟨equal, above, below⟩ := ih found
        exact ⟨equal, above, by omega⟩
      · obtain ⟨equal, above, below⟩ := ih found
        exact ⟨equal, by omega, below⟩
      · rename_i equal
        cases found
        exact ⟨equal, by omega, by omega⟩
    · cases found

theorem bisect_eq_none {size : Nat} (sorted : Sorted compare size) (within : high ≤ size)
    (enough : high - low < rounds)
    (missing : bisect compare rounds low high = none) (above : low ≤ i)
      (below : i < high) : compare i ≠ .eq := by
  induction rounds generalizing low high with
  | zero => omega
  | succ rounds ih =>
    rw [bisect, if_pos (by omega)] at missing
    dsimp only at missing
    generalize middle : low + (high - low) / 2 = m at missing
    intro equal
    split at missing
    · rename_i less
      by_cases left : i < m
      · exact ih (by omega) (by omega) missing above left equal
      · rcases Nat.eq_or_lt_of_le (Nat.not_lt.1 left) with here | right
        · rw [here, equal] at less
          cases less
        · have := sorted.before m i right (by omega) (by rw [less]; decide)
          rw [equal] at this
          cases this
    · rename_i greater
      by_cases right : m < i
      · exact ih within (by omega) missing right below equal
      · rcases Nat.eq_or_lt_of_le (Nat.not_lt.1 right) with here | left
        · rw [← here, equal] at greater
          cases greater
        · have := sorted.after i m left (by omega) (by rw [greater]; decide)
          rw [equal] at this
          cases this
    · cases missing

/-! ## Tables -/

variable {table : List α} {against : α → Ordering}

/-- The entry that is found in a table, with the whole table as the range. -/
def lookup (against : α → Ordering) (table : List α) : Option α :=
  (bisect (fun i => (table[i]?).elim .eq against) (table.length + 1) 0 table.length).bind fun i =>
    table[i]?

theorem lookup_eq_some {entry : α} (found : lookup against table = some entry) :
    entry ∈ table ∧ against entry = .eq := by
  obtain ⟨i, isFound, here⟩ := Option.bind_eq_some_iff.1 found
  have equal := (bisect_eq_some isFound).1
  rw [here] at equal
  exact ⟨mem_of_getElem? here, equal⟩

/-- The entries of a table in the order in which they compare. -/
def InOrder (against : α → Ordering) (table : List α) : Prop :=
  table.Pairwise fun x y =>
    (against x ≠ .gt → against y = .lt) ∧ (against y ≠ .lt → against x = .gt)

theorem lookup_eq_none {entry : α} (sorted : InOrder against table)
    (missing : lookup against table = none) (member : entry ∈ table) : against entry ≠ .eq := by
  have at' (i : Nat) (inside : i < table.length) :
      (table[i]?).elim Ordering.eq against = against table[i] := by
    rw [List.getElem?_eq_getElem inside]
    rfl
  have ordered : Sorted (fun i => (table[i]?).elim Ordering.eq against) table.length := by
    have pairs := pairwise_iff_getElem.1 sorted
    constructor
    · intro i j less inside some'
      have pair := pairs i j (by omega) inside less
      rw [at' i (by omega)] at some'
      rw [at' j inside]
      exact pair.1 some'
    · intro i j less inside some'
      have pair := pairs i j (by omega) inside less
      rw [at' j inside] at some'
      rw [at' i (by omega)]
      exact pair.2 some'
  obtain ⟨i, inside, rfl⟩ := mem_iff_getElem.1 member
  unfold lookup at missing
  cases found : bisect (fun i => (table[i]?).elim Ordering.eq against)
    (table.length + 1) 0 table.length with
  | some j =>
    have within := (bisect_eq_some found).2.2
    rw [found, Option.bind_some, List.getElem?_eq_getElem within] at missing
    cases missing
  | none =>
    have none' := bisect_eq_none ordered (Nat.le_refl _) (by omega) found (Nat.zero_le i) inside
    rw [at' i inside] at none'
    exact none'

theorem InOrder.unique {x y : α} (sorted : InOrder against table) (hx : x ∈ table) (hy : y ∈ table)
    (equal : against x = .eq) (equal' : against y = .eq) : x = y := by
  obtain ⟨i, inside, rfl⟩ := mem_iff_getElem.1 hx
  obtain ⟨j, inside', rfl⟩ := mem_iff_getElem.1 hy
  have pairs := pairwise_iff_getElem.1 sorted
  rcases Nat.lt_trichotomy i j with less | same | less
  · have := (pairs i j inside inside' less).1 (by rw [equal]; decide)
    rw [equal'] at this
    cases this
  · simp only [same]
  · have := (pairs j i inside' inside less).1 (by rw [equal']; decide)
    rw [equal] at this
    cases this

end PadOS.BinarySearch
