import Mathlib.Data.List.Infix
import Mathlib.Data.List.Lex
import Mathlib.Order.Lattice

/-! # Comparing and searching sequences

Three-way lexicographic comparison, and the search for a part of a sequence that returns where
the first one begins, or the end.
-/

namespace PadOS.Sequence

open List

variable {α β : Type}

section Comparison

variable [LinearOrder α]

def compareLists : List α → List α → Int
  | [], [] => 0
  | [], _ :: _ => -1
  | _ :: _, [] => 1
  | x :: xs, y :: ys => if x ≠ y then if x < y then -1 else 1 else compareLists xs ys

theorem compareLists_spec (xs ys : List α) : (compareLists xs ys < 0 ↔ xs < ys) ∧
    (compareLists xs ys = 0 ↔ xs = ys) ∧ (0 < compareLists xs ys ↔ ys < xs) := by
  induction xs generalizing ys with
  | nil =>
    cases ys with
    | nil => simp [compareLists]
    | cons y ys => simp [compareLists]
  | cons x xs ih =>
    cases ys with
    | nil => simp [compareLists]
    | cons y ys =>
      rw [compareLists, cons_lt_cons_iff, cons_lt_cons_iff]
      rcases lt_trichotomy x y with less | rfl | greater
      · simp [less, less.ne, less.not_gt, less.ne']
      · simp [ih ys]
      · simp [greater, greater.ne, greater.not_gt, greater.ne']

end Comparison

/-! ## Searching -/

def startsWith (same : α → β → Bool) : List α → List β → Bool
  | _, [] => true
  | [], _ :: _ => false
  | x :: xs, y :: ys => same x y && startsWith same xs ys

/-- `std::search`: where the token begins first, or the length of the source. -/
def search (same : α → β → Bool) : List α → List β → Nat
  | [], _ => 0
  | x :: xs, token => if startsWith same (x :: xs) token then 0 else search same xs token + 1

theorem startsWith_iff [DecidableEq α] (xs ys : List α) :
    startsWith (· == ·) xs ys ↔ ys <+: xs := by
  induction xs generalizing ys with
  | nil =>
    cases ys with
    | nil => simp [startsWith]
    | cons y ys => simp [startsWith]
  | cons x xs ih =>
    cases ys with
    | nil => simp [startsWith]
    | cons y ys =>
      rw [startsWith, Bool.and_eq_true, beq_iff_eq, ih, cons_prefix_cons, eq_comm]

theorem search_iff [DecidableEq α] {xs token : List α} (some' : xs ≠ [] ∨ token ≠ []) :
    search (· == ·) xs token ≠ xs.length ↔ token <:+: xs := by
  induction xs with
  | nil =>
    have other : token ≠ [] := by simpa using some'
    simp [search, other]
  | cons x xs ih =>
    rw [search, infix_cons_iff]
    by_cases here : startsWith (· == ·) (x :: xs) token
    · rw [if_pos here]
      simp [(startsWith_iff _ _).1 here]
    · have other : token ≠ [] := by
        rintro rfl
        exact here rfl
      have notHere : ¬token <+: x :: xs := fun isPrefix => here ((startsWith_iff _ _).2 isPrefix)
      rw [if_neg here, length_cons, ne_eq, Nat.add_right_cancel_iff, ← ne_eq, ih (.inr other)]
      simp [notHere]

theorem search_map [DecidableEq β] (f : α → β) (xs token : List α) :
    search (fun x y => f x == f y) xs token = search (· == ·) (xs.map f) (token.map f) := by
  have starts (xs token : List α) : startsWith (fun x y => f x == f y) xs token =
        startsWith (· == ·) (xs.map f) (token.map f) := by
    induction xs generalizing token with
    | nil => cases token <;> rfl
    | cons x xs ih =>
      cases token with
      | nil => rfl
      | cons y token => rw [startsWith, ih, map_cons, map_cons, startsWith]
  induction xs with
  | nil => rfl
  | cons x xs ih => rw [search, starts, ih, map_cons, search]

end PadOS.Sequence
