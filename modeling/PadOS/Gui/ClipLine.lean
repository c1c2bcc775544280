import PadOS.Core.RoundedDivision
import PadOS.Gui.Region

/-! # `PRegion::ClipLine`

A line that is not wholly on one side of the rectangle is clipped in two passes: the first one
moves the second end point to an edge, the second one the first end point. The passes differ in
how they round where the line crosses a vertical edge. The second one divides to the nearest row
and always finds an edge when it starts inside; the first one adds the divisor less one, which is
only right for a line to the right. Both compute in `int`: where a value leaves its range the
function has no defined result, and `Fits` says when none does.
-/

namespace PadOS.Gui.PRegion

open Rectangle RoundedDivision

def doIntersect (rect : PIRect) (point : PIPoint) : Bool :=
  !(decide (point.x < rect.left) || decide (point.x ≥ rect.right) ||
    decide (point.y < rect.top) || decide (point.y ≥ rect.bottom))

/-- What C++ leaves undefined. -/
inductive Undefined where
  | divisionByZero
  | overflow
deriving DecidableEq, Repr

/-- The range of `int`. -/
def InInt (value : Int) : Prop := -2 ^ 31 ≤ value ∧ value < 2 ^ 31

instance (value : Int) : Decidable (InInt value) := inferInstanceAs (Decidable (_ ∧ _))

/-- The value of an expression of type `int`. -/
def int (value : Int) : Except Undefined Int :=
  if InInt value then .ok value else .error .overflow

def divide (n d : Int) : Except Undefined Int :=
  if d = 0 then .error .divisionByZero else int (n.tdiv d)

/-- What is added to a product before it is divided: the divisor less one, or half of it. -/
inductive Rounding where
  | up
  | half
deriving DecidableEq, Repr

namespace Rounding

def added : Rounding → Int → Int
  | up, divisor => divisor - 1
  | half, divisor => divisor.tdiv 2

/-- `product + divisor - 1` is two sums, `product + divisor / 2` one. -/
def dividend : Rounding → Int → Int → Except Undefined Int
  | up, product, divisor => do
    let sum ← int (product + divisor)
    int (sum - 1)
  | half, product, divisor => int (product + divisor.tdiv 2)

end Rounding

/-- Where the line crosses an edge, seen from the fixed point at `base` across the edge and at
`start` along it; `-1` when the line runs along the edge. -/
def intersection (rounding : Rounding) (slope edge across base start : Int) :
    Except Undefined Int :=
  if across ≠ 0 then do
    let offset ← int (edge - base)
    let product ← int (slope * offset)
    let dividend ← rounding.dividend product across
    let quotient ← divide dividend across
    int (quotient + start)
  else .ok (-1)

/-- `yi` of a pass. -/
def crossedRow (rect : PIRect) (rounding : Rounding) (fixed moved : PIPoint) (dx dy : Int) :
    Except Undefined Int :=
  if moved.x ≥ rect.right then intersection rounding dy (rect.right - 1) dx fixed.x fixed.y
  else if moved.x < rect.left then intersection rounding dy rect.left dx fixed.x fixed.y
  else .ok 0

/-- `xi` of a pass. -/
def crossedColumn (rect : PIRect) (fixed moved : PIPoint) (dx dy : Int) : Except Undefined Int :=
  if moved.y ≥ rect.bottom then intersection .half dx (rect.bottom - 1) dy fixed.y fixed.x
  else if moved.y < rect.top then intersection .half dx rect.top dy fixed.y fixed.x
  else .ok 0

/-- Which of the two crossings is the proper one: the moved end point, when there is one. -/
def properCrossing (rect : PIRect) (moved : PIPoint) (yi xi : Int) : Option PIPoint :=
  let rightEdge := decide (moved.x ≥ rect.right)
  let leftEdge := !rightEdge && decide (moved.x < rect.left)
  let bottomEdge := decide (moved.y ≥ rect.bottom)
  let topEdge := !bottomEdge && decide (moved.y < rect.top)
  let clipped : Option PIPoint :=
    if rightEdge ∧ yi ≥ rect.top ∧ yi < rect.bottom then some ⟨rect.right - 1, yi⟩
    else if leftEdge ∧ yi ≥ rect.top ∧ yi < rect.bottom then some ⟨rect.left, yi⟩
    else none
  if bottomEdge ∧ xi ≥ rect.left ∧ xi < rect.right then some ⟨xi, rect.bottom - 1⟩
  else if topEdge ∧ xi ≥ rect.left ∧ xi < rect.right then some ⟨xi, rect.top⟩
  else clipped

/-- One of the two passes. -/
def clipEnd (rect : PIRect) (rounding : Rounding) (fixed moved : PIPoint) :
    Except Undefined (Option PIPoint) := do
  let dx ← int (moved.x - fixed.x)
  let dy ← int (moved.y - fixed.y)
  let yi ← crossedRow rect rounding fixed moved dx dy
  let xi ← crossedColumn rect fixed moved dx dy
  .ok (properCrossing rect moved yi xi)

/-- Both end points are on the same side. -/
def Beyond (rect : PIRect) (point1 point2 : PIPoint) : Prop :=
  (point1.x < rect.left ∧ point2.x < rect.left) ∨
  (point1.x ≥ rect.right ∧ point2.x ≥ rect.right) ∨
  (point1.y < rect.top ∧ point2.y < rect.top) ∨
  (point1.y ≥ rect.bottom ∧ point2.y ≥ rect.bottom)

instance (rect : PIRect) (point1 point2 : PIPoint) : Decidable (Beyond rect point1 point2) :=
  inferInstanceAs (Decidable (_ ∨ _ ∨ _ ∨ _))

/-- What `ClipLine` returns and the two end points. -/
def clipLine (rect : PIRect) (point1 point2 : PIPoint) :
    Except Undefined (Bool × PIPoint × PIPoint) :=
  let point1Inside := doIntersect rect point1
  let point2Inside := doIntersect rect point2
  if point1Inside && point2Inside then .ok (true, point1, point2)
  else if !point1Inside && !point2Inside && decide (Beyond rect point1 point2) then
    .ok (false, point1, point2)
  else do
    let clipAlways := !point1Inside && !point2Inside
    let first ← if point1Inside || clipAlways then clipEnd rect .up point1 point2 else .ok none
    let clipped2 := first.getD point2
    let second ← if point2Inside || clipAlways then clipEnd rect .half clipped2 point1
      else .ok none
    .ok (first.isSome || second.isSome, second.getD point1, clipped2)

/-! ## What clipping means -/

def Inside (rect : PIRect) (point : PIPoint) : Prop := (point.x, point.y) ∈ rect.points

/-- The points of a horizontal or vertical line, its ends included. -/
def segment (p q : PIPoint) : Set (Int × Int) :=
  {r | (min p.x q.x ≤ r.1 ∧ r.1 ≤ max p.x q.x) ∧ min p.y q.y ≤ r.2 ∧ r.2 ≤ max p.y q.y}

structure Clipped (rect : PIRect) (point1 point2 : PIPoint) (result : Bool × PIPoint × PIPoint) :
    Prop where
  inside : result.1 = true → Inside rect result.2.1 ∧ Inside rect result.2.2
  first : Inside rect point1 → result.1 = true ∧ result.2.1 = point1
  second : Inside rect point2 → result.1 = true ∧ result.2.2 = point2
  exact : point1.x = point2.x ∨ point1.y = point2.y → if result.1 = true then
      segment result.2.1 result.2.2 = segment point1 point2 ∩ rect.points
    else segment point1 point2 ∩ rect.points = ∅

def ClipsRight (rect : PIRect) (point1 point2 : PIPoint) : Prop :=
  ∃ result, clipLine rect point1 point2 = .ok result ∧ Clipped rect point1 point2 result

/-! ## Where a pass finds an edge -/

variable {rect : PIRect} {rounding : Rounding} {fixed moved p q : PIPoint}

/-- The row in which the line is at column `x`, as the pass rounds it. -/
def rowAt (rounding : Rounding) (fixed moved : PIPoint) (x : Int) : Int :=
  ((moved.y - fixed.y) * (x - fixed.x) + rounding.added (moved.x - fixed.x)).tdiv
    (moved.x - fixed.x) + fixed.y

/-- The column in which the line is in row `y`. -/
def columnAt (fixed moved : PIPoint) (y : Int) : Int :=
  nearest ((moved.x - fixed.x) * (y - fixed.y)) (moved.y - fixed.y) + fixed.x

def rowHit (rect : PIRect) (rounding : Rounding) (fixed moved : PIPoint) (x : Int) :
    Option PIPoint :=
  if rowAt rounding fixed moved x ≥ rect.top ∧ rowAt rounding fixed moved x < rect.bottom then
    some ⟨x, rowAt rounding fixed moved x⟩
  else none

def columnHit (rect : PIRect) (fixed moved : PIPoint) (y : Int) : Option PIPoint :=
  if columnAt fixed moved y ≥ rect.left ∧ columnAt fixed moved y < rect.right then
    some ⟨columnAt fixed moved y, y⟩
  else none

/-- A crossing with the left or the right edge, when the moved point lies beyond it. -/
def sideCrossing (rect : PIRect) (rounding : Rounding) (fixed moved : PIPoint) : Option PIPoint :=
  if moved.x ≥ rect.right then rowHit rect rounding fixed moved (rect.right - 1)
  else if moved.x < rect.left then rowHit rect rounding fixed moved rect.left
  else none

/-- A crossing with the top or the bottom edge, when the moved point lies beyond it. -/
def levelCrossing (rect : PIRect) (fixed moved : PIPoint) : Option PIPoint :=
  if moved.y ≥ rect.bottom then columnHit rect fixed moved (rect.bottom - 1)
  else if moved.y < rect.top then columnHit rect fixed moved rect.top
  else none

/-- What a pass finds. -/
def crossing (rect : PIRect) (rounding : Rounding) (fixed moved : PIPoint) : Option PIPoint :=
  (levelCrossing rect fixed moved).or (sideCrossing rect rounding fixed moved)

/-! ## When the values fit -/

def Rounding.Fits : Rounding → Int → Int → Prop
  | .up, product, divisor => InInt (product + divisor) ∧ InInt (product + divisor - 1)
  | .half, product, divisor => InInt (product + divisor.tdiv 2)

instance (rounding : Rounding) (product divisor : Int) :
    Decidable (rounding.Fits product divisor) := by
  cases rounding <;> unfold Rounding.Fits <;> infer_instance

/-- Every value on the way to a crossing is in the range of `int`. -/
def CrossingFits (rounding : Rounding) (slope edge across base start : Int) : Prop :=
  InInt (edge - base) ∧ InInt (slope * (edge - base)) ∧
  rounding.Fits (slope * (edge - base)) across ∧
  InInt ((slope * (edge - base) + rounding.added across).tdiv across) ∧
  InInt ((slope * (edge - base) + rounding.added across).tdiv across + start)

instance (rounding : Rounding) (slope edge across base start : Int) :
    Decidable (CrossingFits rounding slope edge across base start) :=
  inferInstanceAs (Decidable (_ ∧ _))

def RowFits (rect : PIRect) (rounding : Rounding) (fixed moved : PIPoint) : Prop :=
  (moved.x ≥ rect.right → CrossingFits rounding (moved.y - fixed.y) (rect.right - 1)
    (moved.x - fixed.x) fixed.x fixed.y) ∧
  (¬ moved.x ≥ rect.right ∧ moved.x < rect.left → CrossingFits rounding (moved.y - fixed.y)
    rect.left (moved.x - fixed.x) fixed.x fixed.y)

def ColumnFits (rect : PIRect) (fixed moved : PIPoint) : Prop :=
  (moved.y ≥ rect.bottom → CrossingFits .half (moved.x - fixed.x) (rect.bottom - 1)
    (moved.y - fixed.y) fixed.y fixed.x) ∧
  (¬ moved.y ≥ rect.bottom ∧ moved.y < rect.top → CrossingFits .half (moved.x - fixed.x)
    rect.top (moved.y - fixed.y) fixed.y fixed.x)

/-- Every value that a pass computes is in the range of `int`. -/
def PassFits (rect : PIRect) (rounding : Rounding) (fixed moved : PIPoint) : Prop :=
  InInt (moved.x - fixed.x) ∧ InInt (moved.y - fixed.y) ∧
  RowFits rect rounding fixed moved ∧ ColumnFits rect fixed moved

instance (rect : PIRect) (rounding : Rounding) (fixed moved : PIPoint) :
    Decidable (RowFits rect rounding fixed moved) := inferInstanceAs (Decidable (_ ∧ _))

instance (rect : PIRect) (fixed moved : PIPoint) : Decidable (ColumnFits rect fixed moved) :=
  inferInstanceAs (Decidable (_ ∧ _))

instance (rect : PIRect) (rounding : Rounding) (fixed moved : PIPoint) :
    Decidable (PassFits rect rounding fixed moved) :=
  inferInstanceAs (Decidable (_ ∧ _))

theorem ok_bind {α β : Type} (a : α) (next : α → Except Undefined β) :
    (Except.ok a >>= next) = next a := rfl

theorem int_bind {α : Type} (value : Int) (next : Int → Except Undefined α) :
    (int value >>= next) = if InInt value then next value else .error .overflow := by
  unfold int
  split_ifs with fits
  · rfl
  · rfl

theorem ite_bind {α β : Type} (fits : Prop) [Decidable fits] (a : α)
    (next : α → Except Undefined β) :
    ((if fits then .ok a else .error .overflow) >>= next) =
      if fits then next a else .error .overflow := by
  split_ifs with h
  · rfl
  · rfl

theorem Rounding.dividend_eq (product divisor : Int) : rounding.dividend product divisor =
    if rounding.Fits product divisor then .ok (product + rounding.added divisor)
    else .error .overflow := by
  cases rounding with
  | up =>
    rw [dividend, int_bind, int, added, ← Int.add_sub_assoc, ← ite_and]
    rfl
  | half => rfl

theorem intersection_eq {slope edge across base start : Int} (nonzero : across ≠ 0) :
    intersection rounding slope edge across base start =
      if CrossingFits rounding slope edge across base start then
        .ok ((slope * (edge - base) + rounding.added across).tdiv across + start)
      else .error .overflow := by
  simp only [intersection, if_pos nonzero, divide, if_neg nonzero, int_bind, Rounding.dividend_eq,
    ite_bind]
  rw [int, ← ite_and, ← ite_and, ← ite_and, ← ite_and]
  exact if_congr (by simp only [CrossingFits, and_assoc]) rfl rfl

theorem crossedRow_eq (apart : ¬ Beyond rect fixed moved) :
    crossedRow rect rounding fixed moved (moved.x - fixed.x) (moved.y - fixed.y) =
      if RowFits rect rounding fixed moved then
        .ok (if moved.x ≥ rect.right then rowAt rounding fixed moved (rect.right - 1)
          else if moved.x < rect.left then rowAt rounding fixed moved rect.left else 0)
      else .error .overflow := by
  unfold Beyond at apart
  by_cases right : moved.x ≥ rect.right
  · simp [crossedRow, RowFits, right, rowAt, intersection_eq (show moved.x - fixed.x ≠ 0 by omega)]
  · by_cases left : moved.x < rect.left
    · simp [crossedRow, RowFits, right, left, rowAt,
        intersection_eq (show moved.x - fixed.x ≠ 0 by omega)]
    · simp [crossedRow, RowFits, right, left]

theorem crossedColumn_eq (apart : ¬ Beyond rect fixed moved) :
    crossedColumn rect fixed moved (moved.x - fixed.x) (moved.y - fixed.y) =
      if ColumnFits rect fixed moved then
        .ok (if moved.y ≥ rect.bottom then columnAt fixed moved (rect.bottom - 1)
          else if moved.y < rect.top then columnAt fixed moved rect.top else 0)
      else .error .overflow := by
  unfold Beyond at apart
  by_cases bottom : moved.y ≥ rect.bottom
  · simp [crossedColumn, ColumnFits, bottom, columnAt, nearest, Rounding.added,
      intersection_eq (show moved.y - fixed.y ≠ 0 by omega)]
  · by_cases top : moved.y < rect.top
    · simp [crossedColumn, ColumnFits, bottom, top, columnAt, nearest, Rounding.added,
        intersection_eq (show moved.y - fixed.y ≠ 0 by omega)]
    · simp [crossedColumn, ColumnFits, bottom, top]

theorem properCrossing_eq : properCrossing rect moved
    (if moved.x ≥ rect.right then rowAt rounding fixed moved (rect.right - 1)
      else if moved.x < rect.left then rowAt rounding fixed moved rect.left else 0)
    (if moved.y ≥ rect.bottom then columnAt fixed moved (rect.bottom - 1)
      else if moved.y < rect.top then columnAt fixed moved rect.top else 0) =
      crossing rect rounding fixed moved := by
  have sides : moved.x ≥ rect.right ∨ (¬ moved.x ≥ rect.right ∧ moved.x < rect.left) ∨
      (¬ moved.x ≥ rect.right ∧ ¬ moved.x < rect.left) := by omega
  have levels : moved.y ≥ rect.bottom ∨ (¬ moved.y ≥ rect.bottom ∧ moved.y < rect.top) ∨
      (¬ moved.y ≥ rect.bottom ∧ ¬ moved.y < rect.top) := by omega
  unfold properCrossing crossing levelCrossing sideCrossing rowHit columnHit
  rcases sides with right | ⟨right, left⟩ | ⟨right, left⟩ <;>
    rcases levels with bottom | ⟨bottom, top⟩ | ⟨bottom, top⟩ <;>
    simp only [*, decide_true, decide_false, if_true, if_false, true_and, false_and, Bool.not_true,
      Bool.not_false, Bool.true_and, Bool.false_and, Bool.false_eq_true, Option.none_or,
      Option.or_none] <;>
    split_ifs <;> rfl

theorem clipEnd_eq (apart : ¬ Beyond rect fixed moved) :
    clipEnd rect rounding fixed moved =
      if PassFits rect rounding fixed moved then .ok (crossing rect rounding fixed moved)
      else .error .overflow := by
  simp only [clipEnd, crossedRow_eq apart, crossedColumn_eq apart, int_bind, ite_bind,
    properCrossing_eq]
  rw [← ite_and, ← ite_and, ← ite_and]
  exact if_congr (by simp only [PassFits, and_assoc]) rfl rfl

/-- The pass finds an edge: the line crosses one that the moved point lies beyond in one of the
edge's own rows or columns, as the pass rounds it. -/
def Crosses (rect : PIRect) (rounding : Rounding) (fixed moved : PIPoint) : Prop :=
  (moved.x ≥ rect.right ∧ rect.top ≤ rowAt rounding fixed moved (rect.right - 1) ∧
    rowAt rounding fixed moved (rect.right - 1) < rect.bottom) ∨
  (moved.x < rect.left ∧ rect.top ≤ rowAt rounding fixed moved rect.left ∧
    rowAt rounding fixed moved rect.left < rect.bottom) ∨
  (moved.y ≥ rect.bottom ∧ rect.left ≤ columnAt fixed moved (rect.bottom - 1) ∧
    columnAt fixed moved (rect.bottom - 1) < rect.right) ∨
  (moved.y < rect.top ∧ rect.left ≤ columnAt fixed moved rect.top ∧
    columnAt fixed moved rect.top < rect.right)

theorem rowHit_isSome (x : Int) : (rowHit rect rounding fixed moved x).isSome = true ↔
    rect.top ≤ rowAt rounding fixed moved x ∧ rowAt rounding fixed moved x < rect.bottom := by
  unfold rowHit
  split_ifs with hit
  · simpa using hit
  · simpa using hit

theorem columnHit_isSome (y : Int) : (columnHit rect fixed moved y).isSome = true ↔
    rect.left ≤ columnAt fixed moved y ∧ columnAt fixed moved y < rect.right := by
  unfold columnHit
  split_ifs with hit
  · simpa using hit
  · simpa using hit

theorem sideCrossing_isSome (width : rect.left < rect.right) :
    (sideCrossing rect rounding fixed moved).isSome = true ↔
      (moved.x ≥ rect.right ∧ rect.top ≤ rowAt rounding fixed moved (rect.right - 1) ∧
        rowAt rounding fixed moved (rect.right - 1) < rect.bottom) ∨
      (moved.x < rect.left ∧ rect.top ≤ rowAt rounding fixed moved rect.left ∧
        rowAt rounding fixed moved rect.left < rect.bottom) := by
  unfold sideCrossing
  split_ifs with right left
  · rw [rowHit_isSome]
    simp [right, show ¬ moved.x < rect.left by omega]
  · rw [rowHit_isSome]
    simp [right, left]
  · simp [right, left]

theorem levelCrossing_isSome (height : rect.top < rect.bottom) :
    (levelCrossing rect fixed moved).isSome = true ↔
      (moved.y ≥ rect.bottom ∧ rect.left ≤ columnAt fixed moved (rect.bottom - 1) ∧
        columnAt fixed moved (rect.bottom - 1) < rect.right) ∨
      (moved.y < rect.top ∧ rect.left ≤ columnAt fixed moved rect.top ∧
        columnAt fixed moved rect.top < rect.right) := by
  unfold levelCrossing
  split_ifs with bottom top
  · rw [columnHit_isSome]
    simp [bottom, show ¬ moved.y < rect.top by omega]
  · rw [columnHit_isSome]
    simp [bottom, top]
  · simp [bottom, top]

theorem crossing_isSome_iff (valid : rect.IsValid) :
    (crossing rect rounding fixed moved).isSome = true ↔ Crosses rect rounding fixed moved := by
  rw [crossing, Option.isSome_or, Bool.or_eq_true, sideCrossing_isSome valid.1,
    levelCrossing_isSome valid.2, Crosses, or_comm, or_assoc]

theorem inside_of_crossing (valid : rect.IsValid)
    (found : crossing rect rounding fixed moved = some q) : Inside rect q := by
  have ⟨width, height⟩ := valid
  have inRow (x : Int) (column : rect.left ≤ x ∧ x < rect.right)
      (hit : rowHit rect rounding fixed moved x = some q) : Inside rect q := by
    unfold rowHit at hit
    split_ifs at hit with rows
    rw [← Option.some.inj hit]
    exact ⟨column, rows⟩
  have inColumn (y : Int) (row : rect.top ≤ y ∧ y < rect.bottom)
      (hit : columnHit rect fixed moved y = some q) : Inside rect q := by
    unfold columnHit at hit
    split_ifs at hit with columns
    rw [← Option.some.inj hit]
    exact ⟨columns, row⟩
  rcases Option.or_eq_some_iff.1 found with level | ⟨_, side⟩
  · unfold levelCrossing at level
    split_ifs at level
    · exact inColumn _ (by omega) level
    · exact inColumn _ (by omega) level
  · unfold sideCrossing at side
    split_ifs at side
    · exact inRow _ (by omega) side
    · exact inRow _ (by omega) side

/-! ## The second pass -/

theorem rowAt_second (x : Int) : rowAt .half fixed moved x =
    nearest ((moved.y - fixed.y) * (x - fixed.x)) (moved.x - fixed.x) + fixed.y := rfl

theorem not_beyond_of_inside (inside : Inside rect fixed) : ¬ Beyond rect fixed moved := by
  have ⟨⟨left, right⟩, top, bottom⟩ := inside
  unfold Beyond
  simp only at left right top bottom
  omega

theorem crosses_of_inside (inside : Inside rect fixed) (outside : ¬ Inside rect moved) :
    Crosses rect .half fixed moved := by
  have ⟨⟨left, right⟩, top, bottom⟩ := inside
  simp only at left right top bottom
  have away : moved.x ≥ rect.right ∨ moved.x < rect.left ∨ moved.y ≥ rect.bottom ∨
      moved.y < rect.top := by
    by_contra near
    exact outside ⟨by simp only; omega, by simp only; omega⟩
  unfold Crosses
  simp only [rowAt_second, columnAt]
  generalize dx' : moved.x - fixed.x = dx
  generalize dy' : moved.y - fixed.y = dy
  -- The row is between those of the end points, the column between their columns.
  have rowBetween (h : Int) := @nearest_between dx dy h
  have columnBetween (v : Int) := @nearest_between dy dx v
  clear inside outside
  by_contra none'
  simp only [not_or, not_and, not_lt] at none'
  obtain ⟨offRight, offLeft, offBottom, offTop⟩ := none'
  by_cases isRight : moved.x ≥ rect.right
  · replace offRight := offRight isRight
    clear offLeft away
    have row := rowBetween (rect.right - 1 - fixed.x) (by omega)
    have corner (v : Int) := @not_past_corner dx dy (rect.right - 1 - fixed.x) v (.inl (by omega))
    by_cases isBottom : moved.y ≥ rect.bottom
    · have column := columnBetween (rect.bottom - 1 - fixed.y) (by omega)
      exact corner (rect.bottom - 1 - fixed.y) (.inl (by omega)) (.inl (by omega)) (.inl (by omega))
    · by_cases isTop : moved.y < rect.top
      · have column := columnBetween (rect.top - fixed.y) (by omega)
        exact corner (rect.top - fixed.y) (.inr (by omega)) (.inr (by omega)) (.inl (by omega))
      · omega
  · clear offRight
    by_cases isLeft : moved.x < rect.left
    · replace offLeft := offLeft isLeft
      clear away
      have row := rowBetween (rect.left - fixed.x) (by omega)
      have corner (v : Int) := @not_past_corner dx dy (rect.left - fixed.x) v (.inr (by omega))
      by_cases isBottom : moved.y ≥ rect.bottom
      · have column := columnBetween (rect.bottom - 1 - fixed.y) (by omega)
        exact corner (rect.bottom - 1 - fixed.y) (.inl (by omega)) (.inl (by omega))
          (.inr (by omega))
      · by_cases isTop : moved.y < rect.top
        · have column := columnBetween (rect.top - fixed.y) (by omega)
          exact corner (rect.top - fixed.y) (.inr (by omega)) (.inr (by omega)) (.inr (by omega))
        · omega
    · clear offLeft
      by_cases isBottom : moved.y ≥ rect.bottom
      · have column := columnBetween (rect.bottom - 1 - fixed.y) (by omega)
        omega
      · have column := columnBetween (rect.top - fixed.y) (by omega)
        omega

/-! ## Horizontal and vertical lines -/

section

variable (level : moved.y = fixed.y)

include level

theorem rowAt_level (x : Int) : rowAt rounding fixed moved x =
    (rounding.added (moved.x - fixed.x)).tdiv (moved.x - fixed.x) + fixed.y := by
  simp [rowAt, level]

theorem rowAt_second_level (apart : moved.x ≠ fixed.x) (x : Int) :
    rowAt .half fixed moved x = fixed.y := by
  rw [rowAt_second, level, Int.sub_self, Int.zero_mul, nearest_zero (by omega), Int.zero_add]

theorem rowAt_first_right (right : fixed.x < moved.x) (x : Int) :
    rowAt .up fixed moved x = fixed.y := by
  rw [rowAt_level level, Rounding.added, Int.tdiv_eq_zero_of_lt (by omega) (by omega), Int.zero_add]

theorem rowAt_first_left (left : moved.x < fixed.x) (x : Int) :
    fixed.y < rowAt .up fixed moved x := by
  rw [rowAt_level level, Rounding.added, ← Int.neg_tdiv_neg]
  have carried : 1 ≤ (-(moved.x - fixed.x - 1)).tdiv (-(moved.x - fixed.x)) :=
    Int.le_tdiv_of_mul_le (by omega) (by omega)
  omega

end

theorem columnAt_upright (upright : moved.x = fixed.x) (apart : moved.y ≠ fixed.y) (y : Int) :
    columnAt fixed moved y = fixed.x := by
  rw [columnAt, upright, Int.sub_self, Int.zero_mul, nearest_zero (by omega), Int.zero_add]

theorem crossing_level (level : moved.y = fixed.y)
    (row : rect.top ≤ fixed.y ∧ fixed.y < rect.bottom)
    (stays : ∀ x, rowAt rounding fixed moved x = fixed.y) :
    crossing rect rounding fixed moved = if moved.x ≥ rect.right then some ⟨rect.right - 1, fixed.y⟩
      else if moved.x < rect.left then some ⟨rect.left, fixed.y⟩
      else none := by
  have noLevel : levelCrossing rect fixed moved = none := by
    rw [levelCrossing, level, if_neg (by omega), if_neg (by omega)]
  simp [crossing, noLevel, sideCrossing, rowHit, stays, row]

theorem crossing_upright (upright : moved.x = fixed.x) (apart : ¬ Beyond rect fixed moved)
    (column : rect.left ≤ fixed.x ∧ fixed.x < rect.right) :
    crossing rect rounding fixed moved =
      if moved.y ≥ rect.bottom then some ⟨fixed.x, rect.bottom - 1⟩
      else if moved.y < rect.top then some ⟨fixed.x, rect.top⟩
      else none := by
  unfold Beyond at apart
  have noSide : sideCrossing rect rounding fixed moved = none := by
    rw [sideCrossing, upright, if_neg (by omega), if_neg (by omega)]
  rw [crossing, noSide, Option.or_none, levelCrossing]
  split_ifs with bottom top
  · simp [columnHit, columnAt_upright upright (show moved.y ≠ fixed.y by omega), column]
  · simp [columnHit, columnAt_upright upright (show moved.y ≠ fixed.y by omega), column]
  · rfl

/-! ## The cases of `ClipLine` -/

variable {point1 point2 : PIPoint}

theorem doIntersect_iff (point : PIPoint) : doIntersect rect point = true ↔ Inside rect point := by
  simp [doIntersect, Inside, mem_points]
  tauto

theorem inside_iff (point : PIPoint) : Inside rect point ↔
    (rect.left ≤ point.x ∧ point.x < rect.right) ∧ rect.top ≤ point.y ∧ point.y < rect.bottom :=
  Iff.rfl

theorem Beyond.symm (beyond : Beyond rect p q) : Beyond rect q p := by
  unfold Beyond at *
  omega

theorem Beyond.outside (beyond : Beyond rect p q) : ¬ Inside rect p ∧ ¬ Inside rect q := by
  rw [inside_iff, inside_iff]
  unfold Beyond at beyond
  omega

/-- Every value that is computed for the line is in the range of `int`: those of the first pass
when the second end point lies outside, and those of the second one, from where the first leaves
that end point, when the first lies outside. -/
def Fits (rect : PIRect) (point1 point2 : PIPoint) : Prop :=
  Beyond rect point1 point2 ∨
  (Inside rect point2 ∨ PassFits rect .up point1 point2) ∧
  (Inside rect point1 ∨
    PassFits rect .half ((crossing rect .up point1 point2).getD point2) point1)

theorem clipLine_inside (first : Inside rect point1) (second : Inside rect point2) :
    clipLine rect point1 point2 = .ok (true, point1, point2) := by
  simp [clipLine, (doIntersect_iff _).2 first, (doIntersect_iff _).2 second]

theorem clipLine_beyond (beyond : Beyond rect point1 point2) :
    clipLine rect point1 point2 = .ok (false, point1, point2) := by
  have ⟨first, second⟩ := beyond.outside
  simp [clipLine, mt (doIntersect_iff _).1 first, mt (doIntersect_iff _).1 second, beyond]

theorem crossing_inside (inside : Inside rect moved) : crossing rect rounding fixed moved = none := by
  rw [inside_iff] at inside
  rw [crossing, levelCrossing, if_neg (by omega), if_neg (by omega), Option.none_or, sideCrossing,
    if_neg (by omega), if_neg (by omega)]

/-- What comes out of the two passes when every value fits. -/
def passes (rect : PIRect) (point1 point2 : PIPoint) : Bool × PIPoint × PIPoint :=
  let clipped2 := (crossing rect .up point1 point2).getD point2
  ((crossing rect .up point1 point2).isSome || (crossing rect .half clipped2 point1).isSome,
    (crossing rect .half clipped2 point1).getD point1, clipped2)

theorem not_beyond_of_pass (valid : rect.IsValid) (apart : ¬ Beyond rect point1 point2) :
    ¬ Beyond rect ((crossing rect .up point1 point2).getD point2) point1 := by
  cases found : crossing rect .up point1 point2 with
  | none => exact fun beyond => apart beyond.symm
  | some q => exact not_beyond_of_inside (inside_of_crossing valid found)

theorem clipLine_eq (valid : rect.IsValid) (apart : ¬ Beyond rect point1 point2)
    (outside : ¬ (Inside rect point1 ∧ Inside rect point2)) :
    (Fits rect point1 point2 → clipLine rect point1 point2 = .ok (passes rect point1 point2)) ∧
    (¬ Fits rect point1 point2 → clipLine rect point1 point2 = .error .overflow) := by
  have apart' := not_beyond_of_pass valid apart
  by_cases first : Inside rect point1
  · have second : ¬ Inside rect point2 := fun there => outside ⟨first, there⟩
    have computed : clipLine rect point1 point2 = if PassFits rect .up point1 point2 then
        .ok (passes rect point1 point2) else .error .overflow := by
      simp [clipLine, (doIntersect_iff _).2 first, mt (doIntersect_iff _).1 second,
        clipEnd_eq apart, ite_bind, ok_bind, passes, crossing_inside first]
    simp [computed, Fits, apart, first, second]
  · have away := mt (doIntersect_iff _).1 first
    by_cases second : Inside rect point2
    · have computed : clipLine rect point1 point2 = if PassFits rect .half point2 point1 then
          .ok (passes rect point1 point2) else .error .overflow := by
        simp [clipLine, (doIntersect_iff _).2 second, away, clipEnd_eq (mt Beyond.symm apart),
          ite_bind, ok_bind, passes, crossing_inside second]
      simp [computed, Fits, apart, first, second, crossing_inside second]
    · have computed : clipLine rect point1 point2 = if PassFits rect .up point1 point2 ∧
          PassFits rect .half ((crossing rect .up point1 point2).getD point2) point1 then
          .ok (passes rect point1 point2) else .error .overflow := by
        simp [clipLine, away, mt (doIntersect_iff _).1 second, apart, clipEnd_eq apart,
          clipEnd_eq apart', ite_bind, ite_and, passes]
      simp [computed, Fits, apart, first, second]

theorem passes_first (first : Inside rect point1) : passes rect point1 point2 =
    ((crossing rect .up point1 point2).isSome, point1,
      (crossing rect .up point1 point2).getD point2) := by
  simp [passes, crossing_inside first]

theorem passes_second (second : Inside rect point2) : passes rect point1 point2 =
    ((crossing rect .half point2 point1).isSome,
      (crossing rect .half point2 point1).getD point1, point2) := by
  simp [passes, crossing_inside second]

/-! ## When the result is right -/

/-- The second end point needs no clipping; or the line is wholly on one side; or it is not a
horizontal one that leaves to the left, and the first pass finds an edge for its second end point,
or neither pass finds one and the line has no end point inside. -/
def Clippable (rect : PIRect) (point1 point2 : PIPoint) : Prop :=
  Inside rect point2 ∨ Beyond rect point1 point2 ∨
  (¬ (point1.y = point2.y ∧ point2.x < rect.left) ∧ (Crosses rect .up point1 point2 ∨
      ¬ Inside rect point1 ∧ ¬ Crosses rect .half point2 point1))

theorem clipsRight_iff {result : Bool × PIPoint × PIPoint}
    (computed : clipLine rect point1 point2 = .ok result) :
    ClipsRight rect point1 point2 ↔ Clipped rect point1 point2 result := by
  constructor
  · intro ⟨other, same, clipped⟩
    rw [computed] at same
    rwa [Except.ok.inj same]
  · exact fun clipped => ⟨result, computed, clipped⟩

theorem mem_segment {r : Int × Int} : r ∈ segment p q ↔
    (min p.x q.x ≤ r.1 ∧ r.1 ≤ max p.x q.x) ∧ min p.y q.y ≤ r.2 ∧ r.2 ≤ max p.y q.y := Iff.rfl

theorem clipped_inside (first : Inside rect point1) (second : Inside rect point2) :
    Clipped rect point1 point2 (true, point1, point2) := by
  refine ⟨fun _ => ⟨first, second⟩, fun _ => ⟨rfl, rfl⟩, fun _ => ⟨rfl, rfl⟩, fun _ => ?_⟩
  rw [inside_iff] at first second
  rw [if_pos rfl, eq_comm, Set.inter_eq_left]
  intro r member
  rw [mem_segment] at member
  rw [mem_points]
  omega

theorem segment_beyond (beyond : Beyond rect point1 point2) :
    segment point1 point2 ∩ rect.points = ∅ := by
  unfold Beyond at beyond
  rw [Set.eq_empty_iff_forall_notMem]
  intro r ⟨member, inside⟩
  rw [mem_segment] at member
  rw [mem_points] at inside
  omega

theorem clipped_beyond (beyond : Beyond rect point1 point2) :
    Clipped rect point1 point2 (false, point1, point2) := by
  have ⟨first, second⟩ := beyond.outside
  refine ⟨by simp, fun inside => absurd inside first, fun inside => absurd inside second, ?_⟩
  simpa using fun _ => segment_beyond beyond

section

variable (valid : rect.IsValid)

include valid

omit valid in
/-- The part of an interval that is inside of the bounds lies between the clamped ends. -/
theorem between_clamped {low high a b x : Int} (some' : low < high) (above : ¬(a < low ∧ b < low))
    (below : ¬(a ≥ high ∧ b ≥ high)) :
    (min (max low (min a (high - 1))) (max low (min b (high - 1))) ≤ x ∧
      x ≤ max (max low (min a (high - 1))) (max low (min b (high - 1)))) ↔
    (min a b ≤ x ∧ x ≤ max a b) ∧ low ≤ x ∧ x < high := by
  constructor
  · intro inside
    omega
  · intro inside
    omega

theorem segment_clipped (apart : ¬ Beyond rect point1 point2)
    {q1 q2 : PIPoint} (straight : (point1.y = point2.y ∧ q1.y = point1.y ∧ q2.y = point2.y ∧
      q1.x = max rect.left (min point1.x (rect.right - 1)) ∧
      q2.x = max rect.left (min point2.x (rect.right - 1))) ∨
      (point1.x = point2.x ∧ q1.x = point1.x ∧ q2.x = point2.x ∧
      q1.y = max rect.top (min point1.y (rect.bottom - 1)) ∧
      q2.y = max rect.top (min point2.y (rect.bottom - 1)))) :
    segment q1 q2 = segment point1 point2 ∩ rect.points := by
  have ⟨width, height⟩ := valid
  unfold Beyond at apart
  ext r
  rw [Set.mem_inter_iff, mem_segment, mem_segment, mem_points]
  rcases straight with ⟨level, row1, row2, column1, column2⟩ |
    ⟨upright, column1, column2, row1, row2⟩
  · rw [row1, row2, column1, column2, ← level, min_self, max_self]
    clear row1 row2 column1 column2
    rw [between_clamped (by omega) (by omega) (by omega)]
    omega
  · rw [row1, row2, column1, column2, ← upright, min_self, max_self]
    clear row1 row2 column1 column2
    rw [between_clamped (by omega) (by omega) (by omega)]
    omega

theorem crossing_straight (apart : ¬ Beyond rect fixed moved)
    (found : crossing rect rounding fixed moved = some q) :
    (moved.y = fixed.y → rect.top ≤ fixed.y ∧ fixed.y < rect.bottom →
      (∀ x, rowAt rounding fixed moved x = fixed.y) →
      q.y = fixed.y ∧ q.x = max rect.left (min moved.x (rect.right - 1))) ∧
    (moved.x = fixed.x → rect.left ≤ fixed.x ∧ fixed.x < rect.right →
      q.x = fixed.x ∧ q.y = max rect.top (min moved.y (rect.bottom - 1))) := by
  have ⟨width, height⟩ := valid
  constructor
  · intro level row stays
    rw [crossing_level level row stays] at found
    split_ifs at found with right left
    · rw [← Option.some.inj found]
      exact ⟨rfl, by dsimp only; omega⟩
    · rw [← Option.some.inj found]
      exact ⟨rfl, by dsimp only; omega⟩
  · intro upright column
    rw [crossing_upright upright apart column] at found
    split_ifs at found with bottom top
    · rw [← Option.some.inj found]
      exact ⟨rfl, by dsimp only; omega⟩
    · rw [← Option.some.inj found]
      exact ⟨rfl, by dsimp only; omega⟩

theorem crossing_eq_some (crosses : Crosses rect rounding fixed moved) :
    ∃ q, crossing rect rounding fixed moved = some q ∧ Inside rect q := by
  obtain ⟨q, found⟩ := Option.isSome_iff_exists.1 ((crossing_isSome_iff valid).2 crosses)
  exact ⟨q, found, inside_of_crossing valid found⟩

theorem crossing_eq_none (misses : ¬ Crosses rect rounding fixed moved) :
    crossing rect rounding fixed moved = none := by
  rw [← crossing_isSome_iff valid] at misses
  simpa using misses

theorem crossing_second_straight (inside : Inside rect fixed) (outside : ¬ Inside rect moved)
    (found : crossing rect .half fixed moved = some q) :
    (moved.y = fixed.y → q.y = fixed.y ∧ q.x = max rect.left (min moved.x (rect.right - 1))) ∧
    (moved.x = fixed.x → q.x = fixed.x ∧ q.y = max rect.top (min moved.y (rect.bottom - 1))) := by
  have ⟨level, upright⟩ := crossing_straight valid (not_beyond_of_inside inside) found
  rw [inside_iff] at inside outside
  refine ⟨fun same => level same inside.2 (rowAt_second_level same ?_),
    fun same => upright same inside.1⟩
  intro equal
  rw [same, equal] at outside
  exact outside inside

theorem clipped_second (first : ¬ Inside rect point1) (second : Inside rect point2) :
    Clipped rect point1 point2 ((crossing rect .half point2 point1).isSome,
      (crossing rect .half point2 point1).getD point1, point2) := by
  obtain ⟨q, found, inside⟩ := crossing_eq_some valid (crosses_of_inside second first)
  have ⟨level, upright⟩ := crossing_second_straight valid second first found
  rw [found]
  refine ⟨fun _ => ⟨inside, second⟩, fun there => absurd there first, fun _ => ⟨rfl, rfl⟩, ?_⟩
  intro straight
  have apart : ¬ Beyond rect point1 point2 := fun beyond => beyond.outside.2 second
  rw [inside_iff] at second
  refine segment_clipped valid apart ?_
  rcases straight with same | same
  · have ⟨column, row⟩ := upright same
    exact .inr ⟨same, column.trans same.symm, rfl, row, by dsimp only; omega⟩
  · have ⟨row, column⟩ := level same
    exact .inl ⟨same, row.trans same.symm, rfl, column, by dsimp only; omega⟩

theorem not_clipped_left {visible : Bool} {clipped1 : PIPoint} (level : point1.y = point2.y)
    (left : point2.x < rect.left) (apart : ¬ Beyond rect point1 point2) :
    ¬ Clipped rect point1 point2
      (visible, clipped1, (crossing rect .up point1 point2).getD point2) := by
  have ⟨width, height⟩ := valid
  have second : ¬ Inside rect point2 := by
    rw [inside_iff]
    omega
  intro clipped
  have exact := clipped.exact (.inr level)
  unfold Beyond at apart
  have corner : (rect.left, point1.y) ∈ segment point1 point2 ∩ rect.points := by
    rw [Set.mem_inter_iff, mem_segment, mem_points]
    dsimp only
    omega
  cases visible with
  | false =>
    rw [if_neg (by simp)] at exact
    rw [exact] at corner
    exact corner
  | true =>
    rw [if_pos rfl] at exact
    have inside := (clipped.inside rfl).2
    have noLevel : levelCrossing rect point1 point2 = none := by
      rw [levelCrossing, if_neg (by omega), if_neg (by omega)]
    have side : sideCrossing rect .up point1 point2 =
        rowHit rect .up point1 point2 rect.left := by
      rw [sideCrossing, if_neg (by omega), if_pos left]
    rw [crossing, noLevel, Option.none_or, side, rowHit] at inside exact
    split_ifs at inside exact
    · have carried := rowAt_first_left level.symm (show point2.x < point1.x by omega) rect.left
      have last : (rect.left, rowAt .up point1 point2 rect.left) ∈
          segment point1 point2 ∩ rect.points := by
        rw [← exact, mem_segment]
        dsimp only [Option.getD_some]
        omega
      have row := (mem_segment.1 last.1).2
      dsimp only at row
      omega
    · exact second inside

end

section

variable (second : ¬ Inside rect point2) (apart : ¬ Beyond rect point1 point2)
  (notLeft : ¬ (point1.y = point2.y ∧ point2.x < rect.left))

include second apart notLeft

/-- The other straight lines are clipped right by the first pass: it finds an edge for them, and
they stay straight. -/
theorem first_straight :
    (point1.y = point2.y → point2.x ≥ rect.right ∧ (rect.top ≤ point1.y ∧ point1.y < rect.bottom) ∧
      ∀ x, rowAt .up point1 point2 x = point1.y) ∧
    (point1.x = point2.x → (rect.left ≤ point1.x ∧ point1.x < rect.right) ∧
      (point2.y ≥ rect.bottom ∨ point2.y < rect.top) ∧
      ∀ y, columnAt point1 point2 y = point1.x) := by
  rw [inside_iff] at second
  unfold Beyond at apart
  constructor
  · intro level
    have right : point1.x < point2.x := by omega
    exact ⟨by omega, by omega, rowAt_first_right level.symm right⟩
  · intro upright
    have steep : point2.y ≠ point1.y := by omega
    exact ⟨by omega, by omega, columnAt_upright upright.symm steep⟩

theorem crosses_of_straight
    (straight : point1.x = point2.x ∨ point1.y = point2.y) :
    Crosses rect .up point1 point2 := by
  have ⟨level, upright⟩ := first_straight second apart notLeft
  unfold Crosses
  rcases straight with same | same
  · have ⟨column, away, stays⟩ := upright same
    rw [stays, stays]
    omega
  · have ⟨right, row, stays⟩ := level same
    rw [stays]
    exact .inl ⟨right, row⟩

end

section

variable (valid : rect.IsValid)

include valid

section

variable (second : ¬ Inside rect point2) (apart : ¬ Beyond rect point1 point2)

include second apart

theorem clipped_of_crosses
    (notLeft : ¬ (point1.y = point2.y ∧ point2.x < rect.left))
    (crosses : Crosses rect .up point1 point2) :
    Clipped rect point1 point2 (passes rect point1 point2) := by
  obtain ⟨q, found, inside⟩ := crossing_eq_some valid crosses
  have ⟨level, upright⟩ := crossing_straight valid apart found
  have ⟨levelFirst, uprightFirst⟩ := first_straight second apart notLeft
  by_cases first : Inside rect point1
  · rw [passes_first first, found]
    refine ⟨fun _ => ⟨first, inside⟩, fun _ => ⟨rfl, rfl⟩, fun there => absurd there second, ?_⟩
    intro straight
    refine segment_clipped valid apart ?_
    rw [inside_iff] at first
    rcases straight with same | same
    · have ⟨column, row⟩ := upright same.symm (uprightFirst same).1
      exact .inr ⟨same, rfl, column.trans same, by dsimp only; omega, row⟩
    · have ⟨row, column⟩ := level same.symm (levelFirst same).2.1 (levelFirst same).2.2
      exact .inl ⟨same, rfl, row.trans same, by dsimp only; omega, column⟩
  · obtain ⟨q1, found1, inside1⟩ := crossing_eq_some valid (crosses_of_inside inside first)
    have ⟨level1, upright1⟩ := crossing_second_straight valid inside first found1
    simp only [passes, found, Option.getD_some, found1, Option.isSome_some, Bool.or_self]
    refine ⟨fun _ => ⟨inside1, inside⟩, fun there => absurd there first,
      fun there => absurd there second, fun straight => segment_clipped valid apart ?_⟩
    rcases straight with same | same
    · have ⟨column, row⟩ := upright same.symm (uprightFirst same).1
      have ⟨column1, row1⟩ := upright1 column.symm
      exact .inr ⟨same, column1.trans column, column.trans same, row1, row⟩
    · have ⟨row, column⟩ := level same.symm (levelFirst same).2.1 (levelFirst same).2.2
      have ⟨row1, column1⟩ := level1 row.symm
      exact .inl ⟨same, row1.trans row, row.trans same, column1, column⟩

theorem clipped_iff_clippable_of_outside :
    Clipped rect point1 point2 (passes rect point1 point2) ↔ Clippable rect point1 point2 := by
  by_cases leftward : point1.y = point2.y ∧ point2.x < rect.left
  · have wrong : ¬ Clipped rect point1 point2 (passes rect point1 point2) :=
      not_clipped_left valid leftward.1 leftward.2 apart
    simp [wrong, Clippable, second, apart, leftward]
  simp only [Clippable, second, apart, leftward, not_false_eq_true, true_and, false_or]
  by_cases crosses : Crosses rect .up point1 point2
  · simp [crosses, clipped_of_crosses valid second apart leftward crosses]
  have missed := crossing_eq_none valid crosses
  by_cases first : Inside rect point1
  · rw [passes_first first, missed]
    simp only [crosses, first, not_true_eq_false, false_and, or_self, iff_false]
    intro clipped
    exact absurd (clipped.first first).1 (by simp)
  · simp only [passes, missed, Option.getD_none, Option.isSome_none, Bool.false_or, crosses, first,
      not_false_eq_true, true_and, false_or]
    constructor
    · intro clipped crosses'
      exact second (clipped.inside ((crossing_isSome_iff valid).2 crosses')).2
    · intro misses
      rw [crossing_eq_none valid misses]
      refine ⟨by simp, fun there => absurd there first, fun there => absurd there second, ?_⟩
      intro straight
      exact absurd (crosses_of_straight second apart leftward straight) crosses

end

theorem clipped_iff_clippable (apart : ¬ Beyond rect point1 point2)
    (outside : ¬ (Inside rect point1 ∧ Inside rect point2)) :
    Clipped rect point1 point2 (passes rect point1 point2) ↔ Clippable rect point1 point2 := by
  by_cases second : Inside rect point2
  · have first : ¬ Inside rect point1 := fun there => outside ⟨there, second⟩
    rw [passes_second second]
    simp [clipped_second valid first second, Clippable, second]
  · exact clipped_iff_clippable_of_outside valid second apart

/-- `ClipLine` divides by no zero, and clips right exactly when every value it computes fits and
the line is clippable. -/
theorem clipLine_clipsRight_iff (point1 point2 : PIPoint) :
    clipLine rect point1 point2 ≠ .error .divisionByZero ∧
      (ClipsRight rect point1 point2 ↔ Fits rect point1 point2 ∧ Clippable rect point1 point2) := by
  by_cases beyond : Beyond rect point1 point2
  · have right := (clipsRight_iff (clipLine_beyond beyond)).2 (clipped_beyond beyond)
    simp [clipLine_beyond beyond, right, Fits, Clippable, beyond]
  by_cases both : Inside rect point1 ∧ Inside rect point2
  · have ⟨first, second⟩ := both
    have right := (clipsRight_iff (clipLine_inside first second)).2 (clipped_inside first second)
    simp [clipLine_inside first second, right, Fits, Clippable, first, second]
  have ⟨computed, overflows⟩ := clipLine_eq valid beyond both
  by_cases fits : Fits rect point1 point2
  · rw [clipsRight_iff (computed fits), clipped_iff_clippable valid beyond both]
    simp [computed fits, fits]
  · simp [overflows fits, fits, ClipsRight]

end

theorem clipLine_clipsRight_iff_right :
    clipLine ⟨0, 0, 10, 10⟩ ⟨-7, 2⟩ ⟨15, 8⟩ ≠ .error .divisionByZero ∧
      (ClipsRight ⟨0, 0, 10, 10⟩ ⟨-7, 2⟩ ⟨15, 8⟩ ↔
        Fits ⟨0, 0, 10, 10⟩ ⟨-7, 2⟩ ⟨15, 8⟩ ∧ Clippable ⟨0, 0, 10, 10⟩ ⟨-7, 2⟩ ⟨15, 8⟩) :=
  clipLine_clipsRight_iff (by decide) ⟨-7, 2⟩ ⟨15, 8⟩

example : clipLine ⟨0, 0, 100000, 100000⟩ ⟨50000, 99990⟩ ⟨100010, 40000⟩ = .error .overflow := by
  decide

/-- The line from (5, 5) to (-5, 5) comes out as one from (5, 5) to (0, 6). -/
theorem not_clipsRight_always : ¬ ∀ (rect : PIRect) (point1 point2 : PIPoint), rect.IsValid →
    ClipsRight rect point1 point2 := by
  intro all
  obtain ⟨result, computed, clipped⟩ := all ⟨0, 0, 10, 10⟩ ⟨5, 5⟩ ⟨-5, 5⟩ (by decide)
  have slanted : clipLine ⟨0, 0, 10, 10⟩ ⟨5, 5⟩ ⟨-5, 5⟩ = .ok (true, ⟨5, 5⟩, ⟨0, 6⟩) := by
    decide
  rw [slanted] at computed
  obtain rfl := Except.ok.inj computed
  have exact := clipped.exact (.inr rfl)
  have last : ((0 : Int), (6 : Int)) ∈
      segment ⟨5, 5⟩ ⟨-5, 5⟩ ∩ points (⟨0, 0, 10, 10⟩ : PIRect) := by
    rw [if_pos rfl] at exact
    rw [← exact, mem_segment]
    decide
  exact absurd last.1 (by rw [mem_segment]; decide)

end PadOS.Gui.PRegion
