import Mathlib.Data.List.Basic
import Mathlib.Data.Nat.ModEq

/-! # Rings of cells

A ring is an array that is walked around. Its window is the list of cells from an
index on; what stands behind the window can be written without changing it.
-/

namespace PadOS.RingBuffer

open List Function

variable {α : Type} {size start m n : Nat} {cells : Nat → α}

/-- The `n` cells from `start` on. -/
def window (size : Nat) (cells : Nat → α) (start n : Nat) : List α :=
  (range n).map fun i => cells ((start + i) % size)

/-- Consecutive cells are overwritten. -/
def memcpy (cells : Nat → α) (start : Nat) (values : List α) : Nat → α := fun j =>
  if start ≤ j then (values[j - start]?).getD (cells j) else cells j

@[simp] theorem window_length : (window size cells start n).length = n := by simp [window]

@[simp] theorem window_zero : window size cells start 0 = [] := rfl

theorem window_getElem? {i : Nat} (inside : i < n) :
    (window size cells start n)[i]? = some (cells ((start + i) % size)) := by
  simp [window, inside]

theorem window_mod : window size cells (start % size) n = window size cells start n := by
  unfold window
  simp only [Nat.mod_add_mod]

theorem window_add : window size cells start (m + n) =
    window size cells start m ++ window size cells (start + m) n := by
  unfold window
  rw [range_add, map_append, map_map]
  simp only [comp_def, add_assoc]

theorem window_succ : window size cells start (n + 1) =
    cells (start % size) :: window size cells (start + 1) n := by
  rw [add_comm, window_add]
  rfl

theorem window_snoc : window size cells start (n + 1) =
    window size cells start n ++ [cells ((start + n) % size)] := by
  rw [window_add]
  rfl

theorem window_straight (fits : start + n ≤ size) :
    window size cells start n = (range n).map fun i => cells (start + i) := by
  apply map_congr_left
  intro i member
  have inside := mem_range.1 member
  rw [Nat.mod_eq_of_lt (by omega)]

theorem memcpy_inside {values : List α} {j : Nat} (inside : j < values.length) :
    memcpy cells start values (start + j) = values[j] := by
  simp [memcpy, inside]

theorem memcpy_outside {values : List α} {j : Nat} (outside : j < start ∨ start + values.length ≤ j) :
    memcpy cells start values j = cells j := by
  unfold memcpy
  split
  · rw [List.getElem?_eq_none (by omega)]
    rfl
  · rfl

theorem mod_ne_of_lt {i j : Nat} (before : i < j) (turn : j < i + size) : i % size ≠ j % size := by
  intro same
  have divides : size ∣ j - i := (Nat.modEq_iff_dvd' before.le).1 same
  have := Nat.le_of_dvd (by omega) divides
  omega

theorem window_memcpy {values : List α} {position : Nat} (here : position = (start + n) % size)
    (straight : position + values.length ≤ size) (room : n + values.length ≤ size) :
    window size (memcpy cells position values) start (n + values.length) =
      window size cells start n ++ values := by
  have inner : ∀ i < values.length, (start + (n + i)) % size = position + i := by
    intro i inside
    rw [← add_assoc, Nat.add_mod, ← here, Nat.add_mod_eq_add_mod_right _ rfl,
      Nat.mod_eq_of_lt (show i < size by omega), Nat.mod_eq_of_lt (by omega)]
  apply ext_getElem?
  intro i
  by_cases inside : i < n
  · rw [List.getElem?_append_left (by simpa using inside), window_getElem? (by omega),
      window_getElem? inside, memcpy_outside]
    have positive : 0 < size := by omega
    by_contra hit
    simp only [not_or, not_lt, not_le] at hit
    have same := inner ((start + i) % size - position) (by omega)
    have back : (start + (n + ((start + i) % size - position))) % size = (start + i) % size := by omega
    exact mod_ne_of_lt (by omega) (by omega) back.symm
  · by_cases within : i < n + values.length
    · rw [List.getElem?_append_right (by simpa using not_lt.1 inside), window_length,
        window_getElem? within, List.getElem?_eq_getElem (by omega),
        show start + i = start + (n + (i - n)) by omega, inner (i - n) (by omega), memcpy_inside (by omega)]
    · rw [List.getElem?_eq_none (by simpa using not_lt.1 within),
        List.getElem?_eq_none (by simpa using not_lt.1 within)]

theorem window_update_of_ne {position : Nat} (value : α)
    (outside : ∀ i < n, (start + i) % size ≠ position) :
    window size (update cells position value) start n = window size cells start n := by
  apply map_congr_left
  intro i member
  exact update_of_ne (outside i (mem_range.1 member)) _ _

theorem window_update_last (room : n < size) (value : α) :
    window size (update cells ((start + n) % size) value) start (n + 1) =
      window size cells start n ++ [value] := by
  rw [window_snoc, update_self, window_update_of_ne]
  exact fun i inside => mod_ne_of_lt (by omega) (by omega)

theorem window_update_first (inside : start < size) (room : n < size) (value : α) :
    window size (update cells start value) start (n + 1) =
      value :: window size cells (start + 1) n := by
  rw [window_succ, Nat.mod_eq_of_lt inside, update_self, window_update_of_ne]
  intro i inside' same
  apply mod_ne_of_lt (show start < start + 1 + i by omega) (show start + 1 + i < start + size by omega)
  rw [same, Nat.mod_eq_of_lt inside]

theorem and_mask (x bits : Nat) : x &&& (2 ^ bits - 1) = x % 2 ^ bits :=
  Nat.and_two_pow_sub_one_eq_mod x bits

end PadOS.RingBuffer
