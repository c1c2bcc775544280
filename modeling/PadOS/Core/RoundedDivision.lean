import Mathlib.Algebra.Order.Ring.Int
import Mathlib.Order.MinMax

/-! # Division to the nearest integer

Half of the divisor is added before a division that truncates. The result never passes an integer
that the exact quotient does not pass, so a line drawn this way through a corner of a box leaves it
through one of the two edges there.
-/

namespace PadOS.RoundedDivision

def nearest (n d : Int) : Int := (n + d.tdiv 2).tdiv d

variable {n d m : Int}

theorem nearest_neg (n d : Int) : nearest (-n) (-d) = nearest n d := by
  rw [nearest, Int.neg_tdiv, ← Int.neg_add, Int.neg_tdiv_neg, nearest]

theorem le_nearest (positive : 0 < d) (below : m * d ≤ n) : m ≤ nearest n d := by
  have half : 0 ≤ d.tdiv 2 := Int.tdiv_nonneg positive.le (by omega)
  exact Int.le_tdiv_of_mul_le positive (by omega)

theorem nearest_le (positive : 0 < d) (notNegative : 0 ≤ m) (above : n ≤ m * d) :
    nearest n d ≤ m := by
  by_contra past
  have half : d.tdiv 2 = d / 2 := Int.tdiv_eq_ediv_of_nonneg positive.le
  have reaches : (m + 1) * d ≤ n + d.tdiv 2 := by
    have numerator : 0 ≤ n + d.tdiv 2 := by
      by_contra negative
      have := Int.tdiv_nonneg (a := -(n + d.tdiv 2)) (by omega) positive.le
      rw [Int.neg_tdiv] at this
      unfold nearest at past
      omega
    rw [nearest, Int.tdiv_eq_ediv_of_nonneg numerator] at past
    exact (Int.le_ediv_iff_mul_le positive).1 (by omega)
  rw [Int.add_mul] at reaches
  omega

theorem le_nearest_of_neg (negative : d < 0) (above : n ≤ m * d) : m ≤ nearest n d := by
  rw [← nearest_neg]
  exact le_nearest (by omega) (by rw [Int.mul_neg]; omega)

theorem nearest_le_of_neg (negative : d < 0) (notNegative : 0 ≤ m) (below : m * d ≤ n) :
    nearest n d ≤ m := by
  rw [← nearest_neg]
  exact nearest_le (by omega) notNegative (by rw [Int.mul_neg]; omega)

theorem nearest_zero (nonzero : d ≠ 0) : nearest 0 d = 0 := by
  rcases lt_or_gt_of_ne nonzero with negative | positive
  · exact le_antisymm (nearest_le_of_neg negative le_rfl (by simp))
      (le_nearest_of_neg negative (by simp))
  · exact le_antisymm (nearest_le positive le_rfl (by simp)) (le_nearest positive (by simp))

theorem nearest_between {k : Int} (part : (0 < d ∧ 0 ≤ k ∧ k ≤ d) ∨ (d < 0 ∧ d ≤ k ∧ k ≤ 0)) :
    min 0 m ≤ nearest (m * k) d ∧ nearest (m * k) d ≤ max 0 m := by
  rcases part with ⟨positive, start, stop⟩ | ⟨negative, stop, start⟩
  · rcases le_total 0 m with up | down
    · rw [min_eq_left up, max_eq_right up]
      exact ⟨le_nearest positive (by simpa using mul_nonneg up start),
        nearest_le positive up (mul_le_mul_of_nonneg_left stop up)⟩
    · rw [min_eq_right down, max_eq_left down]
      exact ⟨le_nearest positive (mul_le_mul_of_nonpos_left stop down),
        nearest_le positive le_rfl (by simpa using mul_nonpos_of_nonpos_of_nonneg down start)⟩
  · rcases le_total 0 m with up | down
    · rw [min_eq_left up, max_eq_right up]
      exact ⟨le_nearest_of_neg negative (by simpa using mul_nonpos_of_nonneg_of_nonpos up start),
        nearest_le_of_neg negative up (mul_le_mul_of_nonneg_left stop up)⟩
    · rw [min_eq_right down, max_eq_left down]
      exact ⟨le_nearest_of_neg negative (mul_le_mul_of_nonpos_left stop down),
        nearest_le_of_neg negative le_rfl
          (by simpa using mul_nonneg_of_nonpos_of_nonpos down start)⟩

/-- `q` lies beyond `v`, seen in the direction of `d`. -/
def Past (d v q : Int) : Prop := (0 < d ∧ v < q) ∨ (d < 0 ∧ q < v)

/-- `v` lies in the direction of `d`. -/
def Ahead (d v : Int) : Prop := (0 < d ∧ 0 ≤ v) ∨ (d < 0 ∧ v ≤ 0)

theorem past_product {d h v w : Int} (across : Ahead d h) (along : Ahead w v)
    (past : Past w v (nearest n d)) :
    (0 < d ↔ 0 < w) ∧ v * d < n ∨ ¬ (0 < d ↔ 0 < w) ∧ n < v * d := by
  rcases across with ⟨right, _⟩ | ⟨left, _⟩
  · rcases past with ⟨down, beyond⟩ | ⟨up, beyond⟩
    · have start : 0 ≤ v := by unfold Ahead at along; omega
      have notLess := fun above => not_lt.2 (nearest_le right start above) beyond
      exact .inl ⟨by omega, not_le.1 notLess⟩
    · have notMore := fun below => not_lt.2 (le_nearest right below) beyond
      exact .inr ⟨by omega, not_le.1 notMore⟩
  · rcases past with ⟨down, beyond⟩ | ⟨up, beyond⟩
    · have start : 0 ≤ v := by unfold Ahead at along; omega
      have notMore := fun below => not_lt.2 (nearest_le_of_neg left start below) beyond
      exact .inr ⟨by omega, not_le.1 notMore⟩
    · have notLess := fun above => not_lt.2 (le_nearest_of_neg left above) beyond
      exact .inl ⟨by omega, not_le.1 notLess⟩

theorem not_past_corner {dx dy h v : Int} (across : Ahead dx h) (along : Ahead dy v)
    (row : Past dy v (nearest (dy * h) dx)) (column : Past dx h (nearest (dx * v) dy)) : False := by
  have one := past_product across along row
  have other := past_product along across column
  rw [Int.mul_comm dy h] at one
  rw [Int.mul_comm dx v] at other
  rcases one with ⟨same, less⟩ | ⟨opposite, less⟩
  · rcases other with ⟨_, less'⟩ | ⟨opposite, _⟩
    · exact lt_asymm less less'
    · exact opposite same.symm
  · rcases other with ⟨same, _⟩ | ⟨_, less'⟩
    · exact opposite same.symm
    · exact lt_asymm less less'

end PadOS.RoundedDivision
