import Mathlib.Algebra.Group.Nat.Defs
import Mathlib.Data.Nat.Init
import Mathlib.Tactic.Common

/-! # Tables of numbers in a sequence of bits

Entry `i` of a table takes `width` bits from bit `i * stride` on, low bit first.
Entries do not overlap when the width is at most the stride; the bits between two
entries belong to none.
-/

namespace PadOS.BitTable

variable {bits bits' : Nat → Bool} {stride width : Nat}

def entry (bits : Nat → Bool) (stride width i : Nat) : Nat :=
  Nat.ofBits fun j : Fin width => bits (i * stride + j)

/-- The bits with entry `i` replaced. -/
def put (bits : Nat → Bool) (stride width i value : Nat) : Nat → Bool := fun k =>
  if i * stride ≤ k ∧ k < i * stride + width then value.testBit (k - i * stride) else bits k

theorem entry_lt (i : Nat) : entry bits stride width i < 2 ^ width :=
  Nat.ofBits_lt_two_pow _

theorem testBit_entry {i j : Nat} (inside : j < width) :
    (entry bits stride width i).testBit j = bits (i * stride + j) :=
  Nat.testBit_ofBits_lt _ j inside

theorem entry_congr {i : Nat} (same : ∀ j < width, bits (i * stride + j) = bits' (i * stride + j)) :
    entry bits stride width i = entry bits' stride width i := by
  unfold entry
  congr 1
  funext j
  exact same j j.isLt

theorem eq_entry {i x : Nat} (small : x < 2 ^ width)
    (same : ∀ j < width, x.testBit j = bits (i * stride + j)) :
    x = entry bits stride width i := by
  apply Nat.eq_of_testBit_eq
  intro j
  by_cases inside : j < width
  · rw [same j inside, testBit_entry inside]
  · have above : 2 ^ width ≤ 2 ^ j := Nat.pow_le_pow_right (by decide) (by omega)
    rw [Nat.testBit_lt_two_pow (by omega), Nat.testBit_lt_two_pow]
    exact Nat.lt_of_lt_of_le (entry_lt i) above

theorem entry_put_self (i value : Nat) :
    entry (put bits stride width i value) stride width i = value % 2 ^ width := by
  symm
  apply eq_entry (Nat.mod_lt _ (Nat.two_pow_pos width))
  intro j inside
  have within : i * stride ≤ i * stride + j ∧ i * stride + j < i * stride + width := by omega
  rw [Nat.testBit_mod_two_pow, put, if_pos within]
  simp [inside]

theorem entry_put_of_ne (fits : width ≤ stride) {i i' : Nat} (other : i' ≠ i) (value : Nat) :
    entry (put bits stride width i value) stride width i' = entry bits stride width i' := by
  apply entry_congr
  intro j inside
  apply if_neg
  rcases Nat.lt_or_gt_of_ne other with before | after
  · have : i' * stride + stride ≤ i * stride := by
      rw [← Nat.succ_mul]
      exact Nat.mul_le_mul_right stride before
    omega
  · have : i * stride + stride ≤ i' * stride := by
      rw [← Nat.succ_mul]
      exact Nat.mul_le_mul_right stride after
    omega

end PadOS.BitTable
