import Mathlib.Algebra.Order.Floor.Ring
import Mathlib.Data.Rat.Floor
import PadOS.Core.Rectangle
import PadOS.Gui.SpaceOut

/-!
# Layouts in a row and in a column

`PHLayoutNode` puts its children side by side and `PVLayoutNode` puts them below each other, with
what `SpaceOut` leaves between them. A child that stretches across the row starts the row anew.
-/

namespace PadOS

open List

namespace Rectangle

section

variable (rect : Rectangle ℚ)

def width : ℚ := rect.right - rect.left

def height : ℚ := rect.bottom - rect.top

def Bounds : Rectangle ℚ := ⟨0, 0, rect.width, rect.height⟩

def offset (x y : ℚ) : Rectangle ℚ :=
  ⟨rect.left + x, rect.top + y, rect.right + x, rect.bottom + y⟩

def Resize (left top right bottom : ℚ) : Rectangle ℚ :=
  ⟨rect.left + left, rect.top + top, rect.right + right, rect.bottom + bottom⟩

def Floor : Rectangle ℚ :=
  ⟨⌊rect.left⌋, ⌊rect.top⌋, ⌊rect.right⌋, ⌊rect.bottom⌋⟩

end

/-- The frame a child is set to, inside its slot. -/
def within (slot borders : Rectangle ℚ) : Rectangle ℚ :=
  (slot.Resize borders.left borders.top (-borders.right) (-borders.bottom)).Floor

end Rectangle

namespace Gui

/-! ## Slots along one axis -/

/-- Each slot lies within the bounds, and ends before those behind it start. -/
def SlotsFollow (low high : ℚ) (slots : List (ℚ × ℚ)) : Prop :=
  (∀ slot ∈ slots, low ≤ slot.1 ∧ slot.1 ≤ slot.2 ∧ slot.2 ≤ high) ∧
    slots.Pairwise fun slot later => slot.2 ≤ later.1

/-- The slots of sizes put behind each other with a gap; at a mark the row starts at zero again. -/
def rowSlots (gap start : ℚ) : List (Bool × ℚ) → List (ℚ × ℚ)
  | [] => []
  | (anew, size) :: rest =>
    let start := if anew then 0 else start
    (start, start + size) :: rowSlots gap (start + size + gap) rest

/-- Nothing stands before a mark. -/
def NothingBeforeMarks (gap : ℚ) (items : List (Bool × ℚ)) : Prop :=
  ∀ front size back, items = front ++ (true, size) :: back →
    ∀ item ∈ front, item.2 = 0 ∧ (item.1 ∨ gap = 0)

section Row

variable {gap start low high size : ℚ} {anew : Bool} {item : Bool × ℚ} {items rest : List (Bool × ℚ)}

theorem SlotsFollow.tail {slot : ℚ × ℚ} {slots : List (ℚ × ℚ)}
    (follow : SlotsFollow low high (slot :: slots)) : SlotsFollow slot.2 high slots := by
  have ordered := pairwise_cons.mp follow.2
  refine ⟨fun later member => ⟨ordered.1 later member, ?_⟩, ordered.2⟩
  exact (follow.1 later (mem_cons_of_mem _ member)).2

theorem SlotsFollow.nonneg (follow : SlotsFollow low high (rowSlots gap start items)) :
    ∀ item ∈ items, 0 ≤ item.2 := by
  induction items generalizing start low with
  | nil => simp
  | cons item rest ih =>
    intro other member
    rcases mem_cons.mp member with same | member
    · have inside := (follow.1 _ mem_cons_self).2.1
      rw [same]
      exact (le_add_iff_nonneg_right _).mp inside
    · exact ih follow.tail other member

theorem SlotsFollow.sum_le_of_gap_neg (backward : gap < 0) (some_ : items ≠ [])
    (follow : SlotsFollow low high (rowSlots gap start items)) (before : start < low) :
    low ≤ 0 ∧ (items.map Prod.snd).sum ≤ high := by
  induction items generalizing start low with
  | nil => exact absurd rfl some_
  | cons item rest ih =>
    rcases item with ⟨anew, size⟩
    have inside := follow.1 _ mem_cons_self
    cases anew with
    | false => exact absurd inside.1 (not_le.mpr before)
    | true =>
      refine ⟨inside.1, ?_⟩
      by_cases last : rest = []
      · subst last
        simpa using inside.2.2
      · have behind := ih last follow.tail (add_lt_of_neg_right _ backward)
        have empty : size ≤ 0 := by simpa using behind.1
        simp only [map_cons, sum_cons]
        linarith [behind.2]

theorem exists_slot_zero {front back : List (Bool × ℚ)}
    (parts : items = front ++ (true, size) :: back) :
    ∃ slot ∈ rowSlots gap start items, slot.1 = 0 := by
  induction front generalizing items start with
  | nil => exact ⟨(0, 0 + size), by simp [parts, rowSlots], rfl⟩
  | cons head front ih =>
    have behind : ∃ slot ∈ rowSlots gap ((if head.1 then 0 else start) + head.2 + gap)
        (front ++ (true, size) :: back), slot.1 = 0 := ih rfl
    rcases behind with ⟨slot, member, zero⟩
    exact ⟨slot, by rw [parts]; exact mem_cons_of_mem _ member, zero⟩

theorem SlotsFollow.nothingBeforeMarks (follow : SlotsFollow 0 high (rowSlots gap start items))
    (starts : start = 0 → gap = 0) : NothingBeforeMarks gap items := by
  induction items generalizing start with
  | nil =>
    intro front size back parts
    simp at parts
  | cons head rest ih =>
    intro front size back parts item member
    rcases head with ⟨anew, headSize⟩
    cases front with
    | nil => cases member
    | cons first front =>
      rcases cons.inj parts with ⟨same, behind⟩
      have marked : ∃ slot ∈ rowSlots gap ((if anew then 0 else start) + headSize + gap) rest,
          slot.1 = 0 := exists_slot_zero behind
      rcases marked with ⟨slot, listed, zero⟩
      have inside := follow.1 _ mem_cons_self
      have before := (pairwise_cons.mp follow.2).1 slot listed
      simp only at inside before
      have from_ : (if anew then 0 else start) = 0 := by linarith
      have empty : headSize = 0 := by linarith
      rcases mem_cons.mp member with here | member
      · rw [here, ← same]
        refine ⟨empty, ?_⟩
        cases anew with
        | true => exact .inl rfl
        | false => exact .inr (starts from_)
      · have ends : (if anew then 0 else start) + headSize = 0 := by rw [from_, empty, add_zero]
        have tail := follow.tail
        simp only [ends] at tail
        exact ih tail (fun none => by linarith) front size back behind item member

/-- Where the first slot of a row starts. -/
def rowStart (start : ℚ) : List (Bool × ℚ) → ℚ
  | [] => start
  | (anew, _) :: _ => if anew then 0 else start

theorem NothingBeforeMarks.tail (nothing : NothingBeforeMarks gap (item :: rest)) :
    NothingBeforeMarks gap rest := by
  intro front size back parts other member
  exact nothing (item :: front) size back (by rw [parts]; rfl) other (mem_cons_of_mem _ member)

theorem NothingBeforeMarks.head (nothing : NothingBeforeMarks gap (item :: rest))
    (marked : ∃ other ∈ rest, other.1) : item.2 = 0 ∧ (item.1 ∨ gap = 0) := by
  rcases marked with ⟨⟨_, size⟩, member, rfl⟩
  rcases mem_iff_append.mp member with ⟨front, back, parts⟩
  exact nothing (item :: front) size back (by rw [parts]; rfl) item mem_cons_self

theorem NothingBeforeMarks.rowStart_eq_zero (nothing : NothingBeforeMarks gap rest)
    (marked : ∃ other ∈ rest, other.1) : rowStart gap rest = 0 := by
  cases rest with
  | nil => simp at marked
  | cons next rest =>
    rcases next with ⟨anew, size⟩
    cases anew with
    | true => rfl
    | false =>
      rcases marked with ⟨other, member, isMark⟩
      rcases mem_cons.mp member with same | member
      · rw [same] at isMark
        cases isMark
      · have before := nothing.head ⟨other, member, isMark⟩
        exact before.2.resolve_left (by simp)

theorem slotsFollow_of_fits (gap_nonneg : 0 ≤ gap) (sizes : ∀ item ∈ items, 0 ≤ item.2)
    (start_nonneg : 0 ≤ start)
    (fits : items ≠ [] → start + (items.map Prod.snd).sum + gap * (items.length - 1) ≤ high)
    (nothing : NothingBeforeMarks gap items)
    (starts : (∃ item ∈ items, item.1) → rowStart start items = 0) :
    SlotsFollow 0 high (rowSlots gap start items) ∧
      ∀ slot ∈ rowSlots gap start items, rowStart start items ≤ slot.1 := by
  induction items generalizing start with
  | nil => simp [SlotsFollow, rowSlots]
  | cons head rest ih =>
    rcases head with ⟨anew, size⟩
    set from_ := if anew then 0 else start with fromEq
    have from_nonneg : 0 ≤ from_ := by
      rw [fromEq]
      split
      · exact le_rfl
      · exact start_nonneg
    have from_le : from_ ≤ start := by
      rw [fromEq]
      split
      · exact start_nonneg
      · exact le_rfl
    have size_nonneg : 0 ≤ size := sizes _ mem_cons_self
    have rest_sizes : ∀ item ∈ rest, 0 ≤ item.2 :=
      fun item member => sizes item (mem_cons_of_mem _ member)
    have rest_nonneg : 0 ≤ (rest.map Prod.snd).sum := by
      refine sum_nonneg fun size listed => ?_
      rcases mem_map.mp listed with ⟨item, member, rfl⟩
      exact rest_sizes item member
    have gaps_nonneg : 0 ≤ gap * rest.length := mul_nonneg gap_nonneg (Nat.cast_nonneg _)
    have room := fits (cons_ne_nil _ _)
    simp only [map_cons, sum_cons, length_cons, Nat.cast_succ, add_sub_cancel_right] at room
    -- with a mark behind it the head is an empty slot at zero
    have empty (marked : ∃ item ∈ rest, item.1) : from_ = 0 ∧ size = 0 := by
      rcases marked with ⟨item, member, isMark⟩
      exact ⟨starts ⟨item, mem_cons_of_mem _ member, isMark⟩,
        (nothing.head ⟨item, member, isMark⟩).1⟩
    have behind := @ih (from_ + size + gap) rest_sizes (by linarith)
      (fun _ => by linarith) nothing.tail fun marked => by
        rw [(empty marked).1, (empty marked).2, add_zero, zero_add]
        exact nothing.tail.rowStart_eq_zero marked
    have ends : ∀ later ∈ rowSlots gap (from_ + size + gap) rest, from_ + size ≤ later.1 := by
      intro later member
      refine le_trans ?_ (behind.2 later member)
      cases rest with
      | nil => cases member
      | cons next rest =>
        rcases next with ⟨mark, nextSize⟩
        cases mark with
        | true =>
          have zero := empty ⟨(true, nextSize), mem_cons_self, rfl⟩
          simp [rowStart, zero.1, zero.2]
        | false =>
          simp only [rowStart]
          simpa using gap_nonneg
    refine ⟨⟨?_, pairwise_cons.mpr ⟨ends, behind.1.2⟩⟩, ?_⟩
    · intro slot member
      rcases mem_cons.mp member with rfl | member
      · exact ⟨from_nonneg, le_add_of_nonneg_right size_nonneg, by
          show from_ + size ≤ high
          linarith⟩
      · exact behind.1.1 slot member
    · intro slot member
      rcases mem_cons.mp member with rfl | member
      · exact le_rfl
      · exact (le_add_of_nonneg_right size_nonneg).trans (ends slot member)

theorem slotsFollow_iff {gap totalSize : ℚ} {items : List (Bool × ℚ)} (some_ : items ≠ [])
    (shared : gap = (totalSize - (items.map Prod.snd).sum) / items.length) :
    SlotsFollow 0 totalSize (rowSlots gap (0 + gap * (1 / 2)) items) ↔
      (∀ item ∈ items, 0 ≤ item.2) ∧ (items.map Prod.snd).sum ≤ totalSize ∧
        NothingBeforeMarks gap items := by
  have count : (0 : ℚ) < items.length := Nat.cast_pos.mpr (length_pos_of_ne_nil some_)
  have all : gap * items.length = totalSize - (items.map Prod.snd).sum := by
    rw [shared, div_mul_cancel₀ _ count.ne']
  constructor
  · intro follow
    refine ⟨follow.nonneg, ?_, follow.nothingBeforeMarks fun zero => by linarith⟩
    by_contra less
    have backward : gap < 0 := by
      rw [shared]
      exact div_neg_of_neg_of_pos (by linarith) count
    exact less (follow.sum_le_of_gap_neg backward some_ (by linarith)).2
  · rintro ⟨sizes, fits, nothing⟩
    have gap_nonneg : 0 ≤ gap := by
      rw [shared]
      exact div_nonneg (by linarith) count.le
    refine (slotsFollow_of_fits gap_nonneg sizes (by linarith) (fun _ => by linarith) nothing
      fun marked => ?_).1
    cases items with
    | nil => exact absurd rfl some_
    | cons head rest =>
      rcases head with ⟨anew, size⟩
      cases anew with
      | true => rfl
      | false =>
        rcases marked with ⟨other, member, isMark⟩
        rcases mem_cons.mp member with same | member
        · rw [same] at isMark
          cases isMark
        · have none := (nothing.head ⟨other, member, isMark⟩).2.resolve_left (by simp)
          simp [rowStart, none]

end Row

/-! ## The layouts -/

inductive Alignment where
  | left | right | top | bottom | center | stretch
  deriving DecidableEq, Repr

/-- What a layout reads of a child, with its preferred sizes. -/
structure LayoutChild where
  ignoreWhenHidden : Bool
  isVisible : Bool
  borders : Rectangle ℚ
  smallest : ℚ × ℚ
  greatest : ℚ × ℚ
  wheight : ℚ
  hAlignment : Alignment
  vAlignment : Alignment
  deriving DecidableEq

namespace LayoutChild

variable (child : LayoutChild)

def leftOut : Bool := child.ignoreWhenHidden && !child.isVisible

def borderSize : ℚ × ℚ :=
  (child.borders.left + child.borders.right, child.borders.top + child.borders.bottom)

def widthLimits : Limits :=
  if child.leftOut then ⟨0, 0, 0⟩
  else ⟨child.smallest.1 + child.borderSize.1, child.greatest.1 + child.borderSize.1, child.wheight⟩

def heightLimits : Limits :=
  if child.leftOut then ⟨0, 0, 0⟩
  else ⟨child.smallest.2 + child.borderSize.2, child.greatest.2 + child.borderSize.2, child.wheight⟩

end LayoutChild

/-! ### `PHLayoutNode` -/

namespace PHLayoutNode

def maxHeight (child : LayoutChild) : ℚ :=
  if child.leftOut then 0 else child.greatest.2 + child.borderSize.2

/-- A child's frame before it is moved to its place. -/
def slotFrame (bounds : Rectangle ℚ) (child : LayoutChild) (finalWidth : ℚ) : Rectangle ℚ :=
  let frame : Rectangle ℚ := ⟨0, 0, finalWidth, bounds.bottom⟩
  if child.vAlignment ≠ .stretch ∧ frame.height > maxHeight child then
    { frame with bottom := maxHeight child }
  else frame

/-- Where a child's frame is moved to when the row has got to `x`. -/
def place (bounds : Rectangle ℚ) (child : LayoutChild) (frame : Rectangle ℚ) (x : ℚ) : ℚ × ℚ :=
  match child.vAlignment with
  | .top => (x, bounds.top)
  | .bottom => (x, bounds.bottom - frame.height)
  | .stretch => (0, 0)
  | _ => (x, bounds.top + (bounds.height - frame.height) * (1 / 2))

/-- The slots of the children, and the frames they are set to. -/
def frames (bounds : Rectangle ℚ) (unusedWidth x : ℚ) :
    List (LayoutChild × ℚ) → List (Rectangle ℚ × Rectangle ℚ)
  | [] => []
  | (child, finalWidth) :: rest =>
    let frame := slotFrame bounds child finalWidth
    let (x, y) := place bounds child frame x
    let slot := frame.offset x y
    (slot, slot.within child.borders) :: frames bounds unusedWidth (x + slot.width + unusedWidth) rest

/-- With no child the division is by zero, and its result is not used. -/
def Layout (frame : Rectangle ℚ) (childList : List LayoutChild) :
    Option (List (Rectangle ℚ × Rectangle ℚ)) :=
  let bounds := frame.Bounds
  let limits := childList.map LayoutChild.widthLimits
  (SpaceOut bounds.width (limits.map Limits.minSize).sum (limits.map Limits.weight).sum limits).map
    fun (unused, finalWidths) =>
      let unusedWidth := unused / childList.length
      frames bounds unusedWidth (bounds.left + unusedWidth * (1 / 2)) (childList.zip finalWidths)

def slots (laid : List (Rectangle ℚ × Rectangle ℚ)) : List (ℚ × ℚ) :=
  laid.map fun (slot, _) => (slot.left, slot.right)

variable {bounds frame : Rectangle ℚ} {child : LayoutChild} {size x unusedWidth : ℚ}

theorem slotFrame_left : (slotFrame bounds child size).left = 0 := by
  rw [slotFrame]
  dsimp only
  split <;> rfl

theorem slotFrame_right : (slotFrame bounds child size).right = size := by
  rw [slotFrame]
  dsimp only
  split <;> rfl

theorem place_fst :
    (place bounds child frame x).1 = if child.vAlignment = .stretch then 0 else x := by
  rw [place]
  cases child.vAlignment <;> rfl

theorem slots_frames (items : List (LayoutChild × ℚ)) :
    slots (frames bounds unusedWidth x items) = rowSlots unusedWidth x
        (items.map fun (child, size) => (decide (child.vAlignment = .stretch), size)) := by
  induction items generalizing x with
  | nil => rfl
  | cons item rest ih =>
    rcases item with ⟨child, size⟩
    simp only [frames, slots, rowSlots, map_cons, Rectangle.offset, Rectangle.width,
      slotFrame_left, slotFrame_right, place_fst, decide_eq_true_eq]
    congr 1
    · simp [add_comm]
    · rw [← slots, ih]
      simp [add_comm]

end PHLayoutNode

/-! ### `PVLayoutNode` -/

namespace PVLayoutNode

def maxWidth (child : LayoutChild) : ℚ :=
  if child.leftOut then 0 else child.greatest.1 + child.borderSize.1

def slotFrame (bounds : Rectangle ℚ) (child : LayoutChild) (finalHeight : ℚ) : Rectangle ℚ :=
  let frame : Rectangle ℚ := ⟨0, 0, bounds.right, finalHeight⟩
  if child.hAlignment ≠ .stretch ∧ frame.width > maxWidth child then
    { frame with right := maxWidth child }
  else frame

def place (bounds : Rectangle ℚ) (child : LayoutChild) (frame : Rectangle ℚ) : ℚ :=
  match child.hAlignment with
  | .left => bounds.left
  | .right => bounds.right - frame.width
  | .stretch => 0
  | _ => bounds.left + (bounds.width - frame.width) * (1 / 2)

def frames (bounds : Rectangle ℚ) (unusedHeight y : ℚ) :
    List (LayoutChild × ℚ) → List (Rectangle ℚ × Rectangle ℚ)
  | [] => []
  | (child, finalHeight) :: rest =>
    let frame := slotFrame bounds child finalHeight
    let x := place bounds child frame
    let slot := frame.offset x y
    (slot, slot.within child.borders) ::
      frames bounds unusedHeight (y + slot.height + unusedHeight) rest

def Layout (frame : Rectangle ℚ) (childList : List LayoutChild) :
    Option (List (Rectangle ℚ × Rectangle ℚ)) :=
  let bounds := frame.Bounds
  let limits := childList.map LayoutChild.heightLimits
  (SpaceOut bounds.height (limits.map Limits.minSize).sum (limits.map Limits.weight).sum limits).map
    fun (unused, finalHeights) =>
      let unusedHeight := unused / childList.length
      frames bounds unusedHeight (bounds.top + unusedHeight * (1 / 2)) (childList.zip finalHeights)

def slots (laid : List (Rectangle ℚ × Rectangle ℚ)) : List (ℚ × ℚ) :=
  laid.map fun (slot, _) => (slot.top, slot.bottom)

variable {bounds frame : Rectangle ℚ} {child : LayoutChild} {size y unusedHeight : ℚ}

theorem slotFrame_top : (slotFrame bounds child size).top = 0 := by
  rw [slotFrame]
  dsimp only
  split <;> rfl

theorem slotFrame_bottom : (slotFrame bounds child size).bottom = size := by
  rw [slotFrame]
  dsimp only
  split <;> rfl

theorem slots_frames (items : List (LayoutChild × ℚ)) :
    slots (frames bounds unusedHeight y items) =
      rowSlots unusedHeight y (items.map fun (_, size) => (false, size)) := by
  induction items generalizing y with
  | nil => rfl
  | cons item rest ih =>
    rcases item with ⟨child, size⟩
    simp only [frames, slots, rowSlots, map_cons, Rectangle.offset, Rectangle.height,
      slotFrame_top, slotFrame_bottom]
    congr 1
    · simp [add_comm]
    · rw [← slots, ih]
      simp [add_comm]

end PVLayoutNode

/-! ## When the slots are in order -/

/-- The children's sizes fit, and none of them is less than nothing. -/
def RoomForAll (totalSize : ℚ) (children : List Limits) : Prop :=
  takenUp totalSize children ≤ totalSize ∧
    ∀ child ∈ children, 0 < child.weight →
      0 ≤ child.maxSize ∧ takenUpWhenEmpty children child ≤ openSize totalSize children

/-- A child that no size is left for. -/
def TakesNothing (totalSize : ℚ) (children : List Limits) (child : Limits) : Prop :=
  child.weight = 0 ∨ child.maxSize = 0 ∨
    openSize totalSize children ≤ takenUpWhenEmpty children child

/-- Before a marked child the others take nothing, and only marked ones do when there is a gap. -/
def NothingBeforeMarked (isMarked : LayoutChild → Bool) (limits : LayoutChild → Limits)
    (totalSize : ℚ) (childList : List LayoutChild) : Prop :=
  ∀ front child back, childList = front ++ child :: back → isMarked child → ∀ other ∈ front,
    TakesNothing totalSize (childList.map limits) (limits other) ∧
      (isMarked other ∨ takenUp totalSize (childList.map limits) = totalSize)

section Sized

variable {isMarked : LayoutChild → Bool} {limits : LayoutChild → Limits} {totalSize level gap : ℚ}
  {childList : List LayoutChild} {sizes : List ℚ}

theorem zip_map_self {α β : Type*} (items : List α) (f : α → β) :
    items.zip (items.map f) = items.map fun item => (item, f item) := by
  induction items with
  | nil => rfl
  | cons item rest ih => simp [ih]

theorem nothingBeforeMarks_iff (sizeOf : LayoutChild → ℚ) :
    NothingBeforeMarks gap (childList.map fun child => (isMarked child, sizeOf child)) ↔
      ∀ front child back, childList = front ++ child :: back → isMarked child →
        ∀ other ∈ front, sizeOf other = 0 ∧ (isMarked other ∨ gap = 0) := by
  constructor
  · intro nothing front child back parts marked other member
    have here := nothing (front.map fun child => (isMarked child, sizeOf child)) (sizeOf child)
      (back.map fun child => (isMarked child, sizeOf child)) (by simp [parts, marked])
    exact here (isMarked other, sizeOf other) (mem_map_of_mem member)
  · intro nothing front size back parts item member
    rcases map_eq_append_iff.mp parts with ⟨before, behind, split_, frontEq, restEq⟩
    rcases map_eq_cons_iff.mp restEq with ⟨child, after, behindEq, childEq, _⟩
    rw [← frontEq] at member
    rcases mem_map.mp member with ⟨other, listed, rfl⟩
    exact nothing before child after (by rw [split_, behindEq])
      (congrArg Prod.fst childEq) other listed

theorem sizes_nonneg_iff {children : List Limits} (ordered : ∀ child ∈ children, child.Ordered)
    (levelled : Levelled (openSize totalSize children) children level sizes) :
    (∀ child ∈ children, 0 ≤ sizeAt level child) ↔
      ∀ child ∈ children, 0 < child.weight →
        0 ≤ child.maxSize ∧ takenUpWhenEmpty children child ≤ openSize totalSize children := by
  constructor
  · intro nonneg child member weighs
    exact (levelled.nonneg_iff ordered member weighs).mp (nonneg child member)
  · intro room child member
    rcases (ordered child member).2.eq_or_lt with weightless | weighs
    · rw [sizeAt, if_pos weightless.symm]
    · exact (levelled.nonneg_iff ordered member weighs).mpr (room child member weighs)

theorem slotsFollow_sizes_iff (ordered : ∀ child ∈ childList, (limits child).Ordered)
    (some_ : childList ≠ [])
    (levelled : Levelled (openSize totalSize (childList.map limits)) (childList.map limits) level
      sizes) (shared : gap = (totalSize - sizes.sum) / childList.length) :
    SlotsFollow 0 totalSize (rowSlots gap (0 + gap * (1 / 2))
        (childList.map fun child => (isMarked child, sizeAt level (limits child)))) ↔
      RoomForAll totalSize (childList.map limits) ∧
        NothingBeforeMarked isMarked limits totalSize childList := by
  have ordered_map : ∀ child ∈ childList.map limits, child.Ordered := by
    intro child listed
    rcases mem_map.mp listed with ⟨kid, member, rfl⟩
    exact ordered kid member
  have sum : sizes.sum = takenUp totalSize (childList.map limits) := levelled.sum ordered_map
  have sum_items : ((childList.map fun child =>
      (isMarked child, sizeAt level (limits child))).map Prod.snd).sum = sizes.sum := by
    rw [levelled.sized]
    simp [Function.comp_def]
  have count : (0 : ℚ) < childList.length := Nat.cast_pos.mpr (length_pos_of_ne_nil some_)
  have gap_zero : gap = 0 ↔ takenUp totalSize (childList.map limits) = totalSize := by
    rw [shared, div_eq_zero_iff, or_iff_left count.ne', sub_eq_zero, sum, eq_comm]
  have each : (∀ item ∈ childList.map fun child => (isMarked child, sizeAt level (limits child)),
        0 ≤ item.2) ↔
      ∀ child ∈ childList.map limits, 0 < child.weight →
        0 ≤ child.maxSize ∧ takenUpWhenEmpty (childList.map limits) child ≤
          openSize totalSize (childList.map limits) := by
    rw [← sizes_nonneg_iff ordered_map levelled]
    simp
  rw [slotsFollow_iff (by simpa using some_) (by rw [sum_items, length_map]; exact shared),
    each, sum_items, sum, RoomForAll, ← and_assoc, and_comm (b := takenUp _ _ ≤ _)]
  refine and_congr_right fun ⟨_, nonneg⟩ => ?_
  have empty {child : LayoutChild} (member : child ∈ childList) :
      sizeAt level (limits child) = 0 ↔
        TakesNothing totalSize (childList.map limits) (limits child) := by
    have listed : limits child ∈ childList.map limits := mem_map_of_mem member
    exact levelled.eq_zero_iff ordered_map listed
      ((sizes_nonneg_iff ordered_map levelled).mpr nonneg _ listed)
  rw [nothingBeforeMarks_iff, NothingBeforeMarked]
  constructor
  · intro nothing front child back parts marked other member
    have ⟨nought, before⟩ := nothing front child back parts marked other member
    exact ⟨(empty (by simp [parts, member])).mp nought, before.imp id gap_zero.mp⟩
  · intro nothing front child back parts marked other member
    have ⟨nought, before⟩ := nothing front child back parts marked other member
    exact ⟨(empty (by simp [parts, member])).mpr nought, before.imp id gap_zero.mpr⟩

theorem spaceOutFits_of_room {children : List Limits} (ordered : ∀ child ∈ children, child.Ordered)
    (room : children = [] ∨ RoomForAll totalSize children) : SpaceOutFits totalSize children := by
  rw [spaceOutFits_iff totalSize ordered]
  intro fits
  rcases room with none | room
  · subst none
    simpa [takenUp] using fits
  · exact room.1

end Sized

/-- A layout sizes its children as `SpaceOut` should, and puts them behind each other. -/
def LaysOut (totalSize : ℚ) (children : List Limits) (laid : Option (List (ℚ × ℚ))) : Prop :=
  SpaceOutFits totalSize children ∧ ∃ slots, laid = some slots ∧ SlotsFollow 0 totalSize slots

theorem laysOut_iff {isMarked : LayoutChild → Bool} {limits : LayoutChild → Limits}
    {totalSize : ℚ} {childList : List LayoutChild} {laid : Option (List (ℚ × ℚ))}
    (ordered : ∀ child ∈ childList, (limits child).Ordered)
    (rows : laid = (SpaceOut totalSize ((childList.map limits).map Limits.minSize).sum
        ((childList.map limits).map Limits.weight).sum (childList.map limits)).map
      fun (unused, sizes) => rowSlots (unused / childList.length)
        (0 + unused / childList.length * (1 / 2))
        ((childList.zip sizes).map fun (child, size) => (isMarked child, size))) :
    LaysOut totalSize (childList.map limits) laid ↔
      (childList = [] ∨ RoomForAll totalSize (childList.map limits)) ∧
        NothingBeforeMarked isMarked limits totalSize childList := by
  have ordered_map : ∀ child ∈ childList.map limits, child.Ordered := by
    intro child listed
    rcases mem_map.mp listed with ⟨kid, member, rfl⟩
    exact ordered kid member
  rcases SpaceOut_levelled totalSize ordered_map with ⟨sizes, level, runs, levelled⟩
  have items : (childList.zip sizes).map (fun (child, size) => (isMarked child, size)) =
      childList.map fun child => (isMarked child, sizeAt level (limits child)) := by
    rw [levelled.sized, map_map, zip_map_self, map_map]
    rfl
  rw [runs, Option.map_some] at rows
  dsimp only at rows
  rw [items] at rows
  by_cases none : childList = []
  · subst none
    refine iff_of_true ⟨spaceOutFits_of_room ordered_map (.inl rfl), _, rows, ?_⟩ ⟨.inl rfl, ?_⟩
    · simp [SlotsFollow, rowSlots]
    · intro front child back parts
      simp at parts
  · rw [or_iff_right none, ← slotsFollow_sizes_iff ordered none levelled rfl]
    constructor
    · rintro ⟨_, slots, same, follow⟩
      rw [rows] at same
      exact Option.some.inj same ▸ follow
    · intro follow
      have room := ((slotsFollow_sizes_iff ordered none levelled rfl).mp follow).1
      exact ⟨spaceOutFits_of_room ordered_map (.inr room), _, rows, follow⟩

/-- The children of a row stand side by side, and those of a column below each other, exactly when
there is room for all of them, and in a row when nothing stands before one that stretches across. -/
theorem linear_layouts_iff (frame : Rectangle ℚ) (childList : List LayoutChild)
    (ordered : ∀ child ∈ childList, child.widthLimits.Ordered ∧ child.heightLimits.Ordered) :
    (LaysOut frame.width (childList.map LayoutChild.widthLimits)
        ((PHLayoutNode.Layout frame childList).map PHLayoutNode.slots) ↔
      (childList = [] ∨ RoomForAll frame.width (childList.map LayoutChild.widthLimits)) ∧
        NothingBeforeMarked (fun child => child.vAlignment = .stretch) LayoutChild.widthLimits
          frame.width childList) ∧ (LaysOut frame.height (childList.map LayoutChild.heightLimits)
        ((PVLayoutNode.Layout frame childList).map PVLayoutNode.slots) ↔
      childList = [] ∨ RoomForAll frame.height (childList.map LayoutChild.heightLimits)) := by
  constructor
  · refine laysOut_iff (fun child member => (ordered child member).1) ?_
    simp only [PHLayoutNode.Layout, Option.map_map, Function.comp_def, PHLayoutNode.slots_frames]
    simp [Rectangle.Bounds, Rectangle.width]
  · have column := @laysOut_iff (fun _ => false) LayoutChild.heightLimits frame.height childList
      ((PVLayoutNode.Layout frame childList).map PVLayoutNode.slots)
      (fun child member => (ordered child member).2) ?_
    · rw [column]
      simp [NothingBeforeMarked]
    · simp only [PVLayoutNode.Layout, Option.map_map, Function.comp_def, PVLayoutNode.slots_frames]
      simp [Rectangle.Bounds, Rectangle.height]

/-- A button that stretches both ways, and a frame for two of them. -/
def stretchedButton : LayoutChild where
  ignoreWhenHidden := false
  isVisible := true
  borders := ⟨0, 0, 0, 0⟩
  smallest := (1, 1)
  greatest := (10, 10)
  wheight := 1
  hAlignment := .stretch
  vAlignment := .stretch

def buttonFrame : Rectangle ℚ := ⟨0, 0, 8, 8⟩

theorem linear_layouts_iff_buttons :
    ¬LaysOut 8 ([stretchedButton, stretchedButton].map LayoutChild.widthLimits)
        ((PHLayoutNode.Layout buttonFrame [stretchedButton, stretchedButton]).map
          PHLayoutNode.slots) ∧
      LaysOut 8 ([stretchedButton, stretchedButton].map LayoutChild.heightLimits)
        ((PVLayoutNode.Layout buttonFrame [stretchedButton, stretchedButton]).map
          PVLayoutNode.slots) := by
  have both := linear_layouts_iff buttonFrame [stretchedButton, stretchedButton] (by
    simp only [mem_cons, not_mem_nil, or_false, or_self, forall_eq, Limits.Ordered]
    decide +kernel)
  have frame_width : buttonFrame.width = 8 := by decide +kernel
  have frame_height : buttonFrame.height = 8 := by decide +kernel
  rw [frame_width, frame_height] at both
  constructor
  · intro laid
    have first := (both.1.mp laid).2 [stretchedButton] stretchedButton [] rfl rfl stretchedButton
      mem_cons_self
    have some_ : ¬TakesNothing 8 ([stretchedButton, stretchedButton].map LayoutChild.widthLimits)
        stretchedButton.widthLimits := by
      unfold TakesNothing
      decide +kernel
    exact some_ first.1
  · refine both.2.mpr (.inr ?_)
    unfold RoomForAll
    decide +kernel

/-- The second of two buttons that stretch across a row is put on top of the first. -/
theorem stretched_buttons_overlap :
    (PHLayoutNode.Layout buttonFrame [stretchedButton, stretchedButton]).map PHLayoutNode.slots =
        some [(0, 4), (0, 4)] ∧
      ¬SlotsFollow 0 8 [(0, 4), (0, 4)] := by
  constructor
  · decide +kernel
  · intro follow
    have overlap := (pairwise_cons.mp follow.2).1 (0, 4) mem_cons_self
    linarith

end Gui

end PadOS
