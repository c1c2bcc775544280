import Mathlib.Algebra.BigOperators.Ring.List
import Mathlib.Algebra.Order.Field.Rat
import Mathlib.Tactic.Ring
import PadOS.Core.WaterFilling

/-!
# Space handed out by weight

`SpaceOut` gives each child its minimum and a part of what is left by its weight. A child that gets
to its maximum is taken out, and the rest is handed out anew. Numbers are exact, and a division by
zero has no result.
-/

namespace PadOS.Gui

open WaterFilling List

/-- A child's sizes along one axis. -/
structure Limits where
  minSize : ℚ
  maxSize : ℚ
  weight : ℚ
  deriving DecidableEq, Repr

/-- A child's entries in the arrays that `SpaceOut` works on. -/
structure Share extends Limits where
  finalSize : ℚ
  done : Bool
  deriving DecidableEq, Repr

def divide (a b : ℚ) : Option ℚ := if b = 0 then none else some (a / b)

/-- The inner loop: the shares behind it, and the extra space and the weight that are left when it
was broken off at a child that got its maximum. -/
def spacePass (extraSpace totalWeight : ℚ) : List Share → Option (List Share × Option (ℚ × ℚ))
  | [] => some ([], none)
  | share :: rest =>
    if share.done then
      (spacePass extraSpace totalWeight rest).map fun (others, broken) => (share :: others, broken)
    else if share.weight = 0 then
      (spacePass extraSpace totalWeight rest).map fun (others, broken) =>
        ({ share with finalSize := 0, done := true } :: others, broken)
    else
      match divide share.weight totalWeight with
      | none => none
      | some vWeight =>
        let finalSize := share.minSize + extraSpace * vWeight
        if finalSize ≥ share.maxSize then
          some ({ share with finalSize := share.maxSize, done := true } :: rest,
            some (extraSpace - (share.maxSize - share.minSize), totalWeight - share.weight))
        else
          (spacePass extraSpace totalWeight rest).map fun (others, broken) =>
            ({ share with finalSize := finalSize } :: others, broken)

def undone (shares : List Share) : Nat := shares.countP fun share => !share.done

theorem undone_lt {extraSpace totalWeight : ℚ} {shares others : List Share} {left : ℚ × ℚ}
    (pass : spacePass extraSpace totalWeight shares = some (others, some left)) :
    undone others < undone shares := by
  induction shares generalizing others with
  | nil => cases pass
  | cons share rest ih =>
    rw [spacePass] at pass
    split at pass
    · rename_i isDone
      rcases Option.map_eq_some_iff.mp pass with ⟨⟨behind, broken⟩, passed, same⟩
      cases same
      have less := ih passed
      simpa [undone, isDone] using less
    · rename_i notDone
      split at pass
      · rcases Option.map_eq_some_iff.mp pass with ⟨⟨behind, broken⟩, passed, same⟩
        cases same
        have less := ih passed
        simp only [undone] at less
        simp [undone, notDone]
        omega
      · split at pass
        · cases pass
        · dsimp only at pass
          split at pass
          · cases pass
            simp [undone, notDone]
          · rcases Option.map_eq_some_iff.mp pass with ⟨⟨behind, broken⟩, passed, same⟩
            cases same
            have less := ih passed
            simp only [undone] at less
            simp [undone, notDone]
            omega

/-- The outer loop. -/
def spaceLoop (extraSpace totalWeight : ℚ) (shares : List Share) : Option (List Share) :=
  match _ : spacePass extraSpace totalWeight shares with
  | none => none
  | some (others, none) => some others
  | some (others, some (extraSpace, totalWeight)) => spaceLoop extraSpace totalWeight others
  termination_by undone shares
  decreasing_by exact undone_lt ‹_›

theorem spaceLoop_eq (extraSpace totalWeight : ℚ) (shares : List Share) :
    spaceLoop extraSpace totalWeight shares = match spacePass extraSpace totalWeight shares with
      | none => none
      | some (others, none) => some others
      | some (others, some (extraSpace, totalWeight)) =>
        spaceLoop extraSpace totalWeight others := by
  rw [spaceLoop]
  split
  · simp [*]
  · simp [*]
  · simp [*]

/-- What is left of the size, and the sizes of the children. -/
def SpaceOut (totalSize totalMinSize totalWeight : ℚ) (children : List Limits) :
    Option (ℚ × List ℚ) :=
  (spaceLoop (totalSize - totalMinSize) totalWeight
      (children.map fun child => ⟨child, 0, false⟩)).map fun shares =>
    (totalSize - (shares.map Share.finalSize).sum, shares.map Share.finalSize)

/-! ## One pass -/

namespace Share

/-- A share behind the inner loop, when the loop went past it. -/
def settle (extraSpace totalWeight : ℚ) (share : Share) : Share :=
  if share.done then share
  else if share.weight = 0 then { share with finalSize := 0, done := true }
  else { share with finalSize := share.minSize + extraSpace * (share.weight / totalWeight) }

/-- The share that the inner loop is broken off at. -/
def top (share : Share) : Share := { share with finalSize := share.maxSize, done := true }

/-- The weight a child still takes part with. -/
def openWeight (share : Share) : ℚ := if share.done then 0 else share.weight

/-- The extra space a child has been given for good. -/
def given (share : Share) : ℚ :=
  if share.done ∧ share.weight ≠ 0 then share.maxSize - share.minSize else 0

variable (extraSpace totalWeight : ℚ) (share : Share)

@[simp] theorem settle_toLimits :
    (share.settle extraSpace totalWeight).toLimits = share.toLimits := by
  simp only [settle]
  split
  · rfl
  · split <;> rfl

@[simp] theorem top_toLimits : share.top.toLimits = share.toLimits := rfl

@[simp] theorem top_openWeight : share.top.openWeight = 0 := rfl

theorem openWeight_of_open {share : Share} (opened : ¬share.done) :
    share.openWeight = share.weight := if_neg opened

theorem given_of_open {share : Share} (opened : ¬share.done) : share.given = 0 :=
  if_neg fun both => opened both.1

theorem top_given {share : Share} (weighs : share.weight ≠ 0) :
    share.top.given = share.maxSize - share.minSize := if_pos ⟨rfl, weighs⟩

@[simp] theorem settle_openWeight :
    (share.settle extraSpace totalWeight).openWeight = share.openWeight := by
  simp only [settle, openWeight]
  split
  · simp [*]
  · split <;> simp [*]

@[simp] theorem settle_given : (share.settle extraSpace totalWeight).given = share.given := by
  simp only [settle, given]
  split
  · simp [*]
  · split <;> simp [*]

end Share

/-- The pass goes past every child. -/
def GoesPast (extraSpace totalWeight : ℚ) (shares : List Share) : Prop :=
  spacePass extraSpace totalWeight shares =
      some (shares.map (Share.settle extraSpace totalWeight), none) ∧
    ∀ share ∈ shares, ¬share.done → share.weight ≠ 0 →
      share.minSize + extraSpace * (share.weight / totalWeight) < share.maxSize

/-- The pass is broken off at the first child that gets to its maximum. -/
def BrokenOff (extraSpace totalWeight : ℚ) (shares : List Share) : Prop :=
  ∃ front share back, shares = front ++ share :: back ∧ ¬share.done ∧ share.weight ≠ 0 ∧
    share.maxSize ≤ share.minSize + extraSpace * (share.weight / totalWeight) ∧
    spacePass extraSpace totalWeight shares =
      some (front.map (Share.settle extraSpace totalWeight) ++ share.top :: back,
        some (extraSpace - (share.maxSize - share.minSize), totalWeight - share.weight))

section Pass

variable {extraSpace totalWeight : ℚ} {share : Share} {rest shares : List Share}

theorem goesPast_or_brokenOff_cons (goes : spacePass extraSpace totalWeight (share :: rest) =
      (spacePass extraSpace totalWeight rest).map fun (others, broken) =>
        (share.settle extraSpace totalWeight :: others, broken))
    (below : ¬share.done → share.weight ≠ 0 →
      share.minSize + extraSpace * (share.weight / totalWeight) < share.maxSize)
    (behind : GoesPast extraSpace totalWeight rest ∨ BrokenOff extraSpace totalWeight rest) :
    GoesPast extraSpace totalWeight (share :: rest) ∨
      BrokenOff extraSpace totalWeight (share :: rest) := by
  rcases behind with ⟨passed, below_rest⟩ |
    ⟨front, top, back, parts, opened, weighs, reaches, passed⟩
  · left
    constructor
    · rw [goes, passed]
      rfl
    · intro other member
      rcases mem_cons.mp member with same | member
      · exact same ▸ below
      · exact below_rest other member
  · right
    have split_ : share :: rest = (share :: front) ++ top :: back := by rw [parts]; rfl
    have passes : spacePass extraSpace totalWeight (share :: rest) =
        some ((share :: front).map (Share.settle extraSpace totalWeight) ++ top.top :: back,
          some (extraSpace - (top.maxSize - top.minSize), totalWeight - top.weight)) := by
      rw [goes, passed]
      rfl
    exact ⟨share :: front, top, back, split_, opened, weighs, reaches, passes⟩

theorem goesPast_or_brokenOff
    (weighs : ∀ share ∈ shares, ¬share.done → share.weight ≠ 0 → totalWeight ≠ 0) :
    GoesPast extraSpace totalWeight shares ∨ BrokenOff extraSpace totalWeight shares := by
  induction shares with
  | nil => exact .inl ⟨rfl, by simp⟩
  | cons share rest ih =>
    have behind := ih fun other member => weighs other (mem_cons_of_mem _ member)
    by_cases isDone : share.done
    · exact goesPast_or_brokenOff_cons (by simp [spacePass, Share.settle, isDone])
        (fun opened => absurd isDone opened) behind
    · by_cases weightless : share.weight = 0
      · exact goesPast_or_brokenOff_cons (by simp [spacePass, Share.settle, isDone, weightless])
          (fun _ weighs => absurd weightless weighs) behind
      · have divides : divide share.weight totalWeight = some (share.weight / totalWeight) :=
          if_neg (weighs share mem_cons_self isDone weightless)
        by_cases reaches : share.maxSize ≤ share.minSize + extraSpace * (share.weight / totalWeight)
        · exact .inr ⟨[], share, rest, rfl, isDone, weightless, reaches, by
            simp [spacePass, isDone, weightless, divides, reaches, Share.top]⟩
        · exact goesPast_or_brokenOff_cons
            (by simp [spacePass, isDone, weightless, divides, reaches, Share.settle])
            (fun _ _ => not_le.mp reaches) behind

end Pass

/-! ## What the outer loop keeps -/

/-- A child's size when the space has risen to a level. -/
def sizeAt (level : ℚ) (child : Limits) : ℚ :=
  if child.weight = 0 then 0
  else filled Limits.minSize Limits.maxSize Limits.weight level child

def weightedMin (child : Limits) : ℚ := if child.weight = 0 then 0 else child.minSize

/-- The sizes and the weight of a child are in order. -/
def Limits.Ordered (child : Limits) : Prop := child.minSize ≤ child.maxSize ∧ 0 ≤ child.weight

/-- The state at the head of the outer loop, when `room` was there to hand out. -/
structure Settling (room extraSpace totalWeight : ℚ) (shares : List Share) : Prop where
  weighs : totalWeight = (shares.map Share.openWeight).sum
  spends : extraSpace + (shares.map Share.given).sum = room
  ordered : ∀ share ∈ shares, share.toLimits.Ordered
  sized : ∀ share ∈ shares, share.done → share.weight = 0 ∧ share.finalSize = 0 ∨
      0 < share.weight ∧ share.finalSize = share.maxSize ∧
        (share.maxSize - share.minSize) * totalWeight ≤ extraSpace * share.weight

section Loop

variable {room extraSpace totalWeight : ℚ} {share : Share} {shares : List Share}

theorem openWeight_nonneg (ordered : share.toLimits.Ordered) : 0 ≤ share.openWeight := by
  rw [Share.openWeight]
  split
  · exact le_rfl
  · exact ordered.2

section

variable (settling : Settling room extraSpace totalWeight shares)

include settling

theorem Settling.openWeight_le (member : share ∈ shares) : share.openWeight ≤ totalWeight := by
  rw [settling.weighs]
  refine single_le_sum (fun weight listed => ?_) _ (mem_map_of_mem member)
  rcases mem_map.mp listed with ⟨other, member, rfl⟩
  exact openWeight_nonneg (settling.ordered other member)

theorem Settling.weight_le
    (member : share ∈ shares) (opened : ¬share.done) : share.weight ≤ totalWeight := by
  have most := settling.openWeight_le member
  rwa [Share.openWeight, if_neg opened] at most

theorem Settling.totalWeight_pos
    (member : share ∈ shares) (opened : ¬share.done) (weighs : share.weight ≠ 0) :
    0 < totalWeight :=
  (lt_of_le_of_ne (settling.ordered share member).2 weighs.symm).trans_le
    (settling.weight_le member opened)

theorem Settling.goesPast_or_brokenOff :
    GoesPast extraSpace totalWeight shares ∨ BrokenOff extraSpace totalWeight shares :=
  Gui.goesPast_or_brokenOff fun _ member opened weighs =>
    (settling.totalWeight_pos member opened weighs).ne'

end

theorem given_le_of_break {surplus other weight otherWeight : ℚ} (some_ : 0 < totalWeight)
    (weighs : 0 ≤ weight) (within : otherWeight ≤ totalWeight)
    (had : surplus * totalWeight ≤ extraSpace * weight)
    (takes : other * totalWeight ≤ extraSpace * otherWeight) :
    surplus * (totalWeight - otherWeight) ≤ (extraSpace - other) * weight := by
  refine le_of_mul_le_mul_right ?_ some_
  calc surplus * (totalWeight - otherWeight) * totalWeight
      = surplus * totalWeight * (totalWeight - otherWeight) := by ring
    _ ≤ extraSpace * weight * (totalWeight - otherWeight) :=
        mul_le_mul_of_nonneg_right had (sub_nonneg.mpr within)
    _ = (extraSpace * totalWeight - extraSpace * otherWeight) * weight := by ring
    _ ≤ (extraSpace * totalWeight - other * totalWeight) * weight :=
        mul_le_mul_of_nonneg_right (sub_le_sub_left takes _) weighs
    _ = (extraSpace - other) * weight * totalWeight := by ring

theorem Settling.breaks {front back : List Share}
    (settling : Settling room extraSpace totalWeight shares)
    (parts : shares = front ++ share :: back) (opened : ¬share.done) (weighs : share.weight ≠ 0)
    (reaches : share.maxSize ≤ share.minSize + extraSpace * (share.weight / totalWeight)) :
    Settling room (extraSpace - (share.maxSize - share.minSize)) (totalWeight - share.weight)
      (front.map (Share.settle extraSpace totalWeight) ++ share.top :: back) := by
  have member : share ∈ shares := by simp [parts]
  have positive := settling.totalWeight_pos member opened weighs
  have takes : (share.maxSize - share.minSize) * totalWeight ≤ extraSpace * share.weight := by
    rw [← mul_div_assoc] at reaches
    exact (le_div_iff₀ positive).mp (by linarith)
  have within := settling.weight_le member opened
  have had {other : Share} (member : other ∈ shares) (isDone : other.done) :
      other.weight = 0 ∧ other.finalSize = 0 ∨ 0 < other.weight ∧ other.finalSize = other.maxSize ∧
          (other.maxSize - other.minSize) * (totalWeight - share.weight) ≤
            (extraSpace - (share.maxSize - share.minSize)) * other.weight := by
    rcases settling.sized other member isDone with none | ⟨weight, full, had⟩
    · exact .inl none
    · exact .inr ⟨weight, full, given_le_of_break positive weight.le within had takes⟩
  constructor
  · have total := settling.weighs
    simp only [parts, map_append, map_cons, sum_append, sum_cons] at total
    simp only [map_append, map_cons, sum_append, sum_cons, map_map,
      Function.comp_def, Share.settle_openWeight, Share.top_openWeight, total,
      Share.openWeight_of_open opened]
    ring
  · have total := settling.spends
    simp only [parts, map_append, map_cons, sum_append, sum_cons] at total
    simp only [map_append, map_cons, sum_append, sum_cons, map_map,
      Function.comp_def, Share.settle_given, Share.top_given weighs, ← total,
      Share.given_of_open opened]
    ring
  · intro other listed
    rcases mem_append.mp listed with settled | listed
    · rcases mem_map.mp settled with ⟨before, within, rfl⟩
      rw [Share.settle_toLimits]
      exact settling.ordered before (by simp [parts, within])
    · rcases mem_cons.mp listed with rfl | within
      · exact settling.ordered share member
      · exact settling.ordered other (by simp [parts, within])
  · intro other listed isDone
    rcases mem_append.mp listed with settled | listed
    · rcases mem_map.mp settled with ⟨before, within, rfl⟩
      by_cases wasDone : before.done
      · rw [Share.settle, if_pos wasDone]
        exact had (by simp [parts, within]) wasDone
      · by_cases weightless : before.weight = 0
        · left
          simp [Share.settle, wasDone, weightless]
        · simp [Share.settle, wasDone, weightless] at isDone
    · rcases mem_cons.mp listed with rfl | within
      · right
        have positive_weight := lt_of_le_of_ne (settling.ordered share member).2 weighs.symm
        exact ⟨positive_weight, rfl,
          given_le_of_break positive positive_weight.le within takes takes⟩
      · exact had (by simp [parts, within]) isDone

/-! ## The sizes it ends with -/

/-- The sizes are the children's at one level: the room is all handed out and a child takes more,
or every child has its maximum. -/
structure Levelled (room : ℚ) (children : List Limits) (level : ℚ) (sizes : List ℚ) : Prop where
  sized : sizes = children.map (sizeAt level)
  amount : (∃ child ∈ children, 0 < child.weight ∧
      filled Limits.minSize Limits.maxSize Limits.weight level child < child.maxSize) ∧
        sizes.sum = room ∨
    ∀ child ∈ children, 0 < child.weight →
      filled Limits.minSize Limits.maxSize Limits.weight level child = child.maxSize ∧
        sizes.sum ≤ room

/-- What the children of any weight share: the room above the minimum sizes, and their own. -/
def openRoom (room : ℚ) (children : List Limits) : ℚ := (children.map weightedMin).sum + room

theorem settle_finalSize (sized : share.done →
      share.weight = 0 ∧ share.finalSize = 0 ∨ 0 < share.weight ∧ share.finalSize = share.maxSize) :
    (share.settle extraSpace totalWeight).finalSize =
      weightedMin share.toLimits + share.given + extraSpace / totalWeight * share.openWeight := by
  by_cases isDone : share.done
  · rcases sized isDone with ⟨weightless, none⟩ | ⟨weighs, full⟩
    · simp [Share.settle, weightedMin, Share.given, Share.openWeight, isDone, weightless, none]
    · simp [Share.settle, weightedMin, Share.given, Share.openWeight, isDone, weighs.ne', full]
  · by_cases weightless : share.weight = 0
    · simp [Share.settle, weightedMin, Share.given, Share.openWeight, isDone, weightless]
    · simp [Share.settle, weightedMin, Share.given, Share.openWeight, isDone, weightless]
      ring

theorem sum_settle (settling : Settling room extraSpace totalWeight shares) :
    ((shares.map (Share.settle extraSpace totalWeight)).map Share.finalSize).sum =
      openRoom room (shares.map Share.toLimits) - extraSpace + extraSpace / totalWeight * totalWeight := by
  have each : (shares.map (Share.settle extraSpace totalWeight)).map Share.finalSize =
      shares.map fun share => weightedMin share.toLimits + share.given +
        extraSpace / totalWeight * share.openWeight := by
    rw [map_map]
    refine map_congr_left fun share member => settle_finalSize fun isDone => ?_
    exact (settling.sized share member isDone).imp id fun ⟨weighs, full, _⟩ => ⟨weighs, full⟩
  have spends := settling.spends
  rw [each, sum_map_add, sum_map_add, sum_map_mul_left, ← settling.weighs,
    openRoom, map_map, ← spends]
  simp only [Function.comp_def]
  ring

theorem settle_sizeAt (sized : share.done → share.weight = 0 ∧ share.finalSize = 0 ∨
      0 < share.weight ∧ share.finalSize = share.maxSize ∧
        (share.maxSize - share.minSize) * totalWeight ≤ extraSpace * share.weight)
    (below : ¬share.done → share.weight ≠ 0 →
      share.minSize + extraSpace * (share.weight / totalWeight) < share.maxSize)
    (positive : 0 < totalWeight) :
    (share.settle extraSpace totalWeight).finalSize =
      sizeAt (extraSpace / totalWeight) share.toLimits := by
  by_cases isDone : share.done
  · rcases sized isDone with ⟨weightless, none⟩ | ⟨weighs, full, had⟩
    · simp [Share.settle, sizeAt, isDone, weightless, none]
    · have reached : share.maxSize ≤
          share.minSize + extraSpace / totalWeight * share.weight := by
        rw [div_mul_eq_mul_div]
        have most := (le_div_iff₀ positive).mpr had
        linarith
      simp [Share.settle, sizeAt, filled, isDone, weighs.ne', full, reached]
  · by_cases weightless : share.weight = 0
    · simp [Share.settle, sizeAt, isDone, weightless]
    · have less := (below isDone weightless).le
      rw [← mul_div_assoc, ← div_mul_eq_mul_div] at less
      simp [Share.settle, sizeAt, filled, isDone, weightless, less]
      ring

theorem Settling.exists_open (settling : Settling room extraSpace totalWeight shares)
    (positive : 0 < totalWeight) :
    ∃ share ∈ shares, ¬share.done ∧ 0 < share.weight := by
  by_contra none
  have nothing : (shares.map Share.openWeight).sum = 0 := by
    refine sum_eq_zero fun weight listed => ?_
    rcases mem_map.mp listed with ⟨share, member, rfl⟩
    by_cases isDone : share.done
    · simp [Share.openWeight, isDone]
    · rw [Share.openWeight_of_open isDone]
      by_contra weighs
      have ordered := settling.ordered share member
      exact none ⟨share, member, isDone, lt_of_le_of_ne ordered.2 (Ne.symm weighs)⟩
  rw [settling.weighs, nothing] at positive
  exact lt_irrefl _ positive

theorem Settling.full (settling : Settling room extraSpace 0 shares) (member : share ∈ shares)
    (weighs : 0 < share.weight) :
    share.done ∧ share.finalSize = share.maxSize ∧ 0 ≤ extraSpace := by
  have isDone : share.done := by
    by_contra opened
    exact absurd (settling.weight_le member opened) (not_le.mpr weighs)
  rcases settling.sized share member isDone with ⟨weightless, _⟩ | ⟨_, full, had⟩
  · exact absurd weightless weighs.ne'
  · rw [mul_zero] at had
    exact ⟨isDone, full, nonneg_of_mul_nonneg_left had weighs⟩

theorem Settling.levelled (settling : Settling room extraSpace totalWeight shares)
    (below : ∀ share ∈ shares, ¬share.done → share.weight ≠ 0 →
      share.minSize + extraSpace * (share.weight / totalWeight) < share.maxSize) :
    ∃ level, Levelled (openRoom room (shares.map Share.toLimits)) (shares.map Share.toLimits) level
      ((shares.map (Share.settle extraSpace totalWeight)).map Share.finalSize) := by
  have total := sum_settle settling
  have nonneg : 0 ≤ totalWeight := by
    rw [settling.weighs]
    refine sum_nonneg fun weight listed => ?_
    rcases mem_map.mp listed with ⟨share, member, rfl⟩
    exact openWeight_nonneg (settling.ordered share member)
  rcases nonneg.eq_or_lt with none | positive
  · subst none
    have upward : ∀ child ∈ shares.map Share.toLimits, 0 ≤ child.weight := by
      intro child listed
      rcases mem_map.mp listed with ⟨share, member, rfl⟩
      exact (settling.ordered share member).2
    rcases @exists_full ℚ _ _ Limits Limits.minSize Limits.maxSize Limits.weight _ _ upward with ⟨level, full⟩
    refine ⟨level, ?_, .inr fun child listed weighs => ⟨full child listed weighs, ?_⟩⟩
    · simp only [map_map]
      refine map_congr_left fun share member => ?_
      rcases (settling.ordered share member).2.eq_or_lt with weightless | weighs
      · have final : (share.settle extraSpace 0).finalSize = 0 := by
          by_cases isDone : share.done
          · rcases settling.sized share member isDone with ⟨_, none⟩ | ⟨weighs, _⟩
            · rw [Share.settle, if_pos isDone, none]
            · exact absurd weightless weighs.ne
          · rw [Share.settle, if_neg isDone, if_pos weightless.symm]
        simp [final, sizeAt, ← weightless]
      · have ⟨isDone, final, _⟩ := settling.full member weighs
        have filled_ := full share.toLimits (mem_map_of_mem member) weighs
        simp [Share.settle, isDone, sizeAt, weighs.ne', filled_, final]
    · rcases mem_map.mp listed with ⟨share, member, rfl⟩
      have ⟨_, _, left⟩ := settling.full member weighs
      rw [total]
      linarith
  · refine ⟨extraSpace / totalWeight, ?_, .inl ⟨?_, ?_⟩⟩
    · simp only [map_map]
      exact map_congr_left fun share member =>
        settle_sizeAt (settling.sized share member) (below share member) positive
    · rcases settling.exists_open positive with ⟨share, member, opened, weighs⟩
      refine ⟨share.toLimits, mem_map_of_mem member, weighs, min_lt_of_right_lt ?_⟩
      have less := below share member opened weighs.ne'
      rwa [← mul_div_assoc, ← div_mul_eq_mul_div] at less
    · rw [total, div_mul_cancel₀ _ positive.ne']
      ring

theorem Settling.spaceLoop (settling : Settling room extraSpace totalWeight shares) :
    ∃ settled level, Gui.spaceLoop extraSpace totalWeight shares = some settled ∧
      Levelled (openRoom room (shares.map Share.toLimits)) (shares.map Share.toLimits) level
        (settled.map Share.finalSize) := by
  induction count : undone shares using Nat.strong_induction_on
    generalizing extraSpace totalWeight shares with
  | _ count ih =>
    subst count
    rcases settling.goesPast_or_brokenOff with ⟨passed, below⟩ |
      ⟨front, share, back, parts, opened, weighs, reaches, passed⟩
    · rcases settling.levelled below with ⟨level, levelled⟩
      exact ⟨_, level, by rw [spaceLoop_eq, passed], levelled⟩
    · rcases ih _ (undone_lt passed) (settling.breaks parts opened weighs reaches) rfl with
        ⟨settled, level, loops, levelled⟩
      have same : (front.map (Share.settle extraSpace totalWeight) ++ share.top :: back).map
          Share.toLimits = shares.map Share.toLimits := by
        simp [parts, Function.comp_def]
      rw [same] at levelled
      exact ⟨settled, level, by rw [spaceLoop_eq, passed]; exact loops, levelled⟩

end Loop

theorem SpaceOut_levelled (totalSize : ℚ) {children : List Limits}
    (ordered : ∀ child ∈ children, child.Ordered) :
    ∃ sizes level,
      SpaceOut totalSize (children.map Limits.minSize).sum (children.map Limits.weight).sum children =
        some (totalSize - sizes.sum, sizes) ∧
      Levelled (openRoom (totalSize - (children.map Limits.minSize).sum) children) children level
        sizes := by
  have start : Settling (totalSize - (children.map Limits.minSize).sum)
      (totalSize - (children.map Limits.minSize).sum) (children.map Limits.weight).sum
      (children.map fun child => ⟨child, 0, false⟩) := by
    constructor
    · simp [Share.openWeight, Function.comp_def]
    · simp [Share.given, Function.comp_def]
    · intro share listed
      rcases mem_map.mp listed with ⟨child, member, rfl⟩
      exact ordered child member
    · intro share listed isDone
      rcases mem_map.mp listed with ⟨child, member, rfl⟩
      cases isDone
  rcases start.spaceLoop with ⟨settled, level, loops, levelled⟩
  have same : (children.map fun child => (⟨child, 0, false⟩ : Share)).map Share.toLimits =
      children := by
    simp [Function.comp_def]
  rw [same] at levelled
  refine ⟨_, level, ?_, levelled⟩
  rw [SpaceOut, loops]
  rfl

/-! ## The children's sizes together, and which of them are empty -/

/-- The size that the children of any weight share. -/
def openSize (totalSize : ℚ) (children : List Limits) : ℚ :=
  openRoom (totalSize - (children.map Limits.minSize).sum) children

def weightedMax (child : Limits) : ℚ := if child.weight = 0 then 0 else child.maxSize

/-- The size that the children take up together. -/
def takenUp (totalSize : ℚ) (children : List Limits) : ℚ :=
  if ∃ child ∈ children, 0 < child.weight then
    min (openSize totalSize children) (children.map weightedMax).sum
  else 0

/-- What the children would take up together at the level where one of them is empty. -/
def takenUpWhenEmpty (children : List Limits) (child : Limits) : ℚ :=
  (children.map (sizeAt (emptyLevel Limits.minSize Limits.weight child))).sum

section Levelled

variable {room level other : ℚ} {child : Limits} {children : List Limits} {sizes : List ℚ}

theorem sum_sizeAt (level : ℚ) (children : List Limits) :
    (children.map (sizeAt level)).sum = poured Limits.minSize Limits.maxSize Limits.weight level
        (children.filter fun child => child.weight ≠ 0) := by
  induction children with
  | nil => rfl
  | cons child rest ih =>
    by_cases weightless : child.weight = 0
    · simp [sizeAt, weightless, ih]
    · simp [sizeAt, weightless, ih, poured]

theorem sizeAt_le_weightedMax : sizeAt level child ≤ weightedMax child := by
  rw [sizeAt, weightedMax]
  split
  · exact le_rfl
  · exact filled_le_high

theorem sum_sizeAt_le : (children.map (sizeAt level)).sum ≤ (children.map weightedMax).sum :=
  sum_le_sum fun _ _ => sizeAt_le_weightedMax

section

variable (ordered : ∀ child ∈ children, child.Ordered) (member : child ∈ children)
  (weighs : 0 < child.weight)
  (notFull : filled Limits.minSize Limits.maxSize Limits.weight level child < child.maxSize)

include ordered member weighs notFull

theorem sizeAt_le_level_iff
    :
    other ≤ level ↔ (children.map (sizeAt other)).sum ≤ (children.map (sizeAt level)).sum := by
  rw [sum_sizeAt, sum_sizeAt]
  refine le_level_iff (fun vessel member => ?_) ?_ weighs notFull
  · exact (ordered vessel (mem_filter.mp member).1).2
  · exact mem_filter.mpr ⟨member, by simp [weighs.ne']⟩

theorem level_le_sizeAt_iff
    :
    level ≤ other ↔ (children.map (sizeAt level)).sum ≤ (children.map (sizeAt other)).sum := by
  rw [sum_sizeAt, sum_sizeAt]
  refine level_le_iff (fun vessel member => ?_) ?_ weighs notFull
  · exact (ordered vessel (mem_filter.mp member).1).2
  · exact mem_filter.mpr ⟨member, by simp [weighs.ne']⟩

end

theorem sum_sizeAt_full (ordered : ∀ child ∈ children, child.Ordered)
    (full : ∀ child ∈ children, 0 < child.weight →
      filled Limits.minSize Limits.maxSize Limits.weight level child = child.maxSize) :
    (children.map (sizeAt level)).sum = (children.map weightedMax).sum := by
  refine congrArg sum (map_congr_left fun child member => ?_)
  rw [sizeAt, weightedMax]
  split
  · rfl
  · rename_i weighs
    exact full child member (lt_of_le_of_ne (ordered child member).2 (Ne.symm weighs))

section

variable (levelled : Levelled room children level sizes)
  (ordered : ∀ child ∈ children, child.Ordered)

include levelled ordered

theorem Levelled.sum
    :
    sizes.sum = if ∃ child ∈ children, 0 < child.weight then
      min room (children.map weightedMax).sum else 0 := by
  have sized := levelled.sized
  rcases levelled.amount with ⟨⟨child, member, weighs, _⟩, all⟩ | full
  · rw [if_pos ⟨child, member, weighs⟩, all, min_eq_left]
    rw [← all, sized]
    exact sum_sizeAt_le
  · have most := sum_sizeAt_full ordered fun child member weighs => (full child member weighs).1
    rw [← sized] at most
    split
    · rename_i some_
      rcases some_ with ⟨child, member, weighs⟩
      rw [← most, min_eq_right (full child member weighs).2]
    · rename_i none
      rw [sized]
      refine sum_eq_zero fun size listed => ?_
      rcases mem_map.mp listed with ⟨child, member, rfl⟩
      rw [sizeAt, if_pos]
      by_contra weighs
      exact none ⟨child, member, lt_of_le_of_ne (ordered child member).2 (Ne.symm weighs)⟩

theorem Levelled.nonneg_iff
    (member : child ∈ children)
    (weighs : 0 < child.weight) :
    0 ≤ sizeAt level child ↔
      0 ≤ child.maxSize ∧ takenUpWhenEmpty children child ≤ room := by
  have sized := levelled.sized
  rw [sizeAt, if_neg weighs.ne']
  rcases levelled.amount with ⟨⟨open_, opened, rises, notFull⟩, all⟩ | full
  · rw [filled_nonneg_iff weighs, sizeAt_le_level_iff ordered opened rises notFull, ← sized, all]
    rfl
  · rw [(full child member weighs).1]
    refine (and_iff_left ?_).symm
    have most := sum_sizeAt_full ordered fun child member weighs => (full child member weighs).1
    rw [← sized] at most
    exact (sum_sizeAt_le.trans_eq most.symm).trans (full child member weighs).2

theorem Levelled.eq_zero_iff
    (member : child ∈ children)
    (nonneg : 0 ≤ sizeAt level child) :
    sizeAt level child = 0 ↔
      child.weight = 0 ∨ child.maxSize = 0 ∨ room ≤ takenUpWhenEmpty children child := by
  have sized := levelled.sized
  by_cases weightless : child.weight = 0
  · simp [sizeAt, weightless]
  have weighs := lt_of_le_of_ne (ordered child member).2 (Ne.symm weightless)
  rw [sizeAt, if_neg weightless] at nonneg ⊢
  rw [or_iff_right weightless]
  rcases levelled.amount with ⟨⟨open_, opened, rises, notFull⟩, all⟩ | full
  · rw [filled_eq_zero_iff weighs nonneg, level_le_sizeAt_iff ordered opened rises notFull,
      ← sized, all]
    rfl
  · rw [(full child member weighs).1] at nonneg ⊢
    refine (or_iff_left_of_imp fun all => ?_).symm
    have most := sum_sizeAt_full ordered fun child member weighs => (full child member weighs).1
    rw [← sized] at most
    by_contra some_
    have less : takenUpWhenEmpty children child < (children.map weightedMax).sum := by
      refine sum_lt_sum _ _ (fun _ _ => sizeAt_le_weightedMax) ⟨child, member, ?_⟩
      rw [sizeAt, weightedMax, if_neg weightless, if_neg weightless]
      exact (filled_emptyLevel weighs).trans_lt (lt_of_le_of_ne nonneg (Ne.symm some_))
    exact absurd (all.trans_lt less) (not_lt.mpr (most ▸ (full child member weighs).2))

end

theorem sum_sizeAt_zero_le : (children.map (sizeAt 0)).sum ≤ (children.map weightedMin).sum := by
  refine sum_le_sum fun child _ => ?_
  rw [weightedMin, sizeAt]
  split
  · exact le_rfl
  · exact (min_le_right _ _).trans_eq (by ring)

theorem Levelled.le_sizeAt (levelled : Levelled (openRoom room children) children level sizes)
    (ordered : ∀ child ∈ children, child.Ordered) (fits : 0 ≤ room) (member : child ∈ children)
    (weighs : 0 < child.weight) :
    child.minSize ≤ sizeAt level child ∧ sizeAt level child ≤ child.maxSize := by
  rw [sizeAt, if_neg weighs.ne']
  refine ⟨?_, filled_le_high⟩
  rcases levelled.amount with ⟨⟨open_, opened, rises, notFull⟩, all⟩ | full
  · have upward : 0 ≤ level := by
      rw [sizeAt_le_level_iff ordered opened rises notFull, ← levelled.sized, all, openRoom]
      exact sum_sizeAt_zero_le.trans (le_add_of_nonneg_right fits)
    exact le_min (ordered child member).1 (le_add_of_nonneg_right (mul_nonneg upward weighs.le))
  · exact (full child member weighs).1 ▸ (ordered child member).1

theorem takenUp_of_weights {totalSize : ℚ} (weighs : ∀ child ∈ children, 0 < child.weight)
    (fits : (children.map Limits.minSize).sum ≤ totalSize) :
    takenUp totalSize children = min totalSize (children.map Limits.maxSize).sum := by
  have mins : children.map weightedMin = children.map Limits.minSize :=
    map_congr_left fun child member => if_neg (weighs child member).ne'
  have maxs : children.map weightedMax = children.map Limits.maxSize :=
    map_congr_left fun child member => if_neg (weighs child member).ne'
  rw [takenUp, openSize, openRoom, mins, maxs, add_sub_cancel]
  cases children with
  | nil => simpa using fits
  | cons child rest => rw [if_pos ⟨child, mem_cons_self, weighs child mem_cons_self⟩]

end Levelled

/-- `SpaceOut` ends, without a division by zero, and when the minimum sizes fit each child of any
weight gets a size within its own, and all of them no more than there is. -/
def SpaceOutFits (totalSize : ℚ) (children : List Limits) : Prop :=
  ∃ sizes, SpaceOut totalSize (children.map Limits.minSize).sum (children.map Limits.weight).sum
      children = some (totalSize - sizes.sum, sizes) ∧
    ((children.map Limits.minSize).sum ≤ totalSize →
      List.Forall₂ (fun child size => 0 < child.weight →
        child.minSize ≤ size ∧ size ≤ child.maxSize) children sizes ∧
      ((∀ child ∈ children, 0 < child.weight) →
        sizes.sum = min totalSize (children.map Limits.maxSize).sum) ∧
      sizes.sum ≤ totalSize)

theorem spaceOutFits_iff (totalSize : ℚ) {children : List Limits}
    (ordered : ∀ child ∈ children, child.Ordered) :
    SpaceOutFits totalSize children ↔ ((children.map Limits.minSize).sum ≤ totalSize →
        takenUp totalSize children ≤ totalSize) := by
  rcases SpaceOut_levelled totalSize ordered with ⟨sizes, level, runs, levelled⟩
  have sum : sizes.sum = takenUp totalSize children := levelled.sum ordered
  constructor
  · rintro ⟨others, runs', fit⟩ minFits
    have same : others = sizes := by
      rw [runs] at runs'
      exact (Prod.mk.inj (Option.some.inj runs')).2.symm
    rw [← sum, ← same]
    exact (fit minFits).2.2
  · intro most
    refine ⟨sizes, runs, fun minFits => ⟨?_, fun weighs => ?_, sum.trans_le (most minFits)⟩⟩
    · rw [levelled.sized, forall₂_map_right_iff, forall₂_same]
      exact fun child member weighs =>
        levelled.le_sizeAt ordered (sub_nonneg.mpr minFits) member weighs
    · rw [sum, takenUp_of_weights weighs minFits]

end PadOS.Gui
