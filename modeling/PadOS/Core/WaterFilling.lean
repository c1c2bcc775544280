import Mathlib.Algebra.BigOperators.Group.List.Lemmas
import Mathlib.Algebra.Order.BigOperators.Group.List
import Mathlib.Algebra.Order.Field.Basic
import Mathlib.Tactic.Linarith

/-!
# Filling up to a level

Vessels that start at a low mark and rise at a rate of their own, up to a high mark, while one
level rises for all of them. How much is in them together grows with the level, and grows
strictly as long as a vessel is below its high mark, so the amount tells where the level is.
-/

namespace PadOS.WaterFilling

open List

variable {K : Type*} [Field K] [LinearOrder K]
variable {ι : Type*} (low high rate : ι → K)

def filled (level : K) (vessel : ι) : K :=
  min (high vessel) (low vessel + level * rate vessel)

def poured (level : K) (vessels : List ι) : K :=
  (vessels.map (filled low high rate level)).sum

/-- The level at which a vessel holds nothing. -/
def emptyLevel (vessel : ι) : K := -(low vessel / rate vessel)

variable {low high rate} {level other : K} {vessel : ι} {vessels : List ι}

theorem filled_le_high : filled low high rate level vessel ≤ high vessel := min_le_left _ _

theorem filled_emptyLevel (rises : 0 < rate vessel) :
    filled low high rate (emptyLevel low rate vessel) vessel ≤ 0 := by
  have empty : low vessel + emptyLevel low rate vessel * rate vessel = 0 := by
    rw [emptyLevel, neg_mul, div_mul_cancel₀ _ rises.ne', add_neg_cancel]
  exact (min_le_right _ _).trans_eq empty

variable [IsStrictOrderedRing K]

theorem filled_mono (upward : 0 ≤ rate vessel) (lower : level ≤ other) :
    filled low high rate level vessel ≤ filled low high rate other vessel := by
  have risen := mul_le_mul_of_nonneg_right lower upward
  exact min_le_min le_rfl (by linarith)

theorem filled_lt (upward : 0 < rate vessel) (lower : level < other)
    (notFull : filled low high rate level vessel < high vessel) :
    filled low high rate level vessel < filled low high rate other vessel := by
  have risen := mul_lt_mul_of_pos_right lower upward
  have below : low vessel + level * rate vessel < high vessel := by
    rcases min_lt_iff.mp notFull with same | below
    · exact absurd same (lt_irrefl _)
    · exact below
  rw [filled, min_eq_right below.le]
  exact lt_min below (by linarith)

/-- A vessel that can hold something is not below empty exactly from its empty level on. -/
theorem filled_nonneg_iff (upward : 0 < rate vessel) :
    0 ≤ filled low high rate level vessel ↔
      0 ≤ high vessel ∧ emptyLevel low rate vessel ≤ level := by
  rw [filled, le_min_iff, emptyLevel, ← neg_div, div_le_iff₀ upward, neg_le_iff_add_nonneg']

theorem filled_eq_zero_iff (upward : 0 < rate vessel)
    (holds : 0 ≤ filled low high rate level vessel) :
    filled low high rate level vessel = 0 ↔
      high vessel = 0 ∨ level ≤ emptyLevel low rate vessel := by
  have risen := ((filled_nonneg_iff upward).mp holds).2
  rw [emptyLevel, ← neg_div] at risen ⊢
  rw [le_div_iff₀ upward]
  rw [div_le_iff₀ upward] at risen
  constructor
  · intro none
    rcases min_choice (high vessel) (low vessel + level * rate vessel) with full | part
    · exact .inl (full.symm.trans none)
    · have same : low vessel + level * rate vessel = 0 := part.symm.trans none
      exact .inr (by linarith)
  · rintro (none | lower)
    · exact le_antisymm (none ▸ filled_le_high) holds
    · have part := min_le_right (high vessel) (low vessel + level * rate vessel)
      exact le_antisymm (part.trans (by linarith)) holds

section

variable (upward : ∀ vessel ∈ vessels, 0 ≤ rate vessel)

include upward

theorem poured_mono (lower : level ≤ other) :
    poured low high rate level vessels ≤ poured low high rate other vessels :=
  sum_le_sum fun vessel member => filled_mono (upward vessel member) lower

theorem poured_lt (lower : level < other) (member : vessel ∈ vessels) (rises : 0 < rate vessel)
    (notFull : filled low high rate level vessel < high vessel) :
    poured low high rate level vessels < poured low high rate other vessels :=
  sum_lt_sum _ _ (fun vessel member => filled_mono (upward vessel member) lower.le)
    ⟨vessel, member, filled_lt rises lower notFull⟩

section

variable (member : vessel ∈ vessels) (rises : 0 < rate vessel)
  (notFull : filled low high rate level vessel < high vessel)

include member rises notFull

theorem le_level_iff
    :
    other ≤ level ↔ poured low high rate other vessels ≤ poured low high rate level vessels := by
  constructor
  · exact poured_mono upward
  · intro less
    by_contra above
    exact absurd (poured_lt upward (not_le.mp above) member rises notFull) (not_lt.mpr less)

theorem level_le_iff
    :
    level ≤ other ↔ poured low high rate level vessels ≤ poured low high rate other vessels := by
  constructor
  · exact poured_mono upward
  · intro less
    by_contra below
    have lower := not_le.mp below
    have stillOpen := (@filled_mono K _ _ ι low high rate _ _ _ _ rises.le lower.le).trans_lt notFull
    exact absurd (poured_lt upward lower member rises stillOpen) (not_lt.mpr less)

end

theorem exists_full :
    ∃ level, ∀ vessel ∈ vessels, 0 < rate vessel →
      filled low high rate level vessel = high vessel := by
  induction vessels with
  | nil => exact ⟨0, by simp⟩
  | cons vessel rest ih =>
    rcases ih fun other member => upward other (mem_cons_of_mem _ member) with ⟨level, full⟩
    refine ⟨max level ((high vessel - low vessel) / rate vessel), fun other member rises => ?_⟩
    rcases mem_cons.mp member with same | member
    · subst same
      have reached := (div_le_iff₀ rises).mp
        (le_max_right level ((high other - low other) / rate other))
      exact min_eq_left (by linarith)
    · have kept := @filled_mono K _ _ ι low high rate _ _ _ _
        (upward other (mem_cons_of_mem _ member))
        (le_max_left level ((high vessel - low vessel) / rate vessel))
      exact le_antisymm filled_le_high ((full other member rises).symm.le.trans kept)

end

end PadOS.WaterFilling
