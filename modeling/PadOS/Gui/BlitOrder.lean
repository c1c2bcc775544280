import Mathlib.Data.List.Pairwise
import PadOS.Core.OrderedMoves
import PadOS.Gui.Region

/-!
# The order of overlapping blits

Rectangles that are moved by the same distance are copied one after the other, in an order that
compares rectangles side by side by their left edges and the others by their top edges.
-/

namespace PadOS.Gui

open Rectangle OrderedMoves List

/-- Whether `lhs` is to be copied before `rhs` when both are moved by `deltaMove`. -/
def BlitSortCompare (deltaMove : PIPoint) (lhs rhs : PIRect) : Bool :=
  if lhs.right ≤ rhs.left ∨ lhs.left ≥ rhs.right then
    if deltaMove.x < 0 then lhs.left < rhs.left else rhs.left < lhs.left
  else
    if deltaMove.y < 0 then lhs.top < rhs.top else rhs.top < lhs.top

/-- The copy of one rectangle to `clip`, which reads all its pixels before it writes any. -/
def copyTo (deltaMove : PIPoint) (clip : PIRect) : Move (Int × Int) where
  target p := clip.left ≤ p.1 && p.1 < clip.right && clip.top ≤ p.2 && p.2 < clip.bottom
  source p := (p.1 - deltaMove.x, p.2 - deltaMove.y)

def blit {α : Type*} (deltaMove : PIPoint) (clipList : List PIRect) (screen : Int × Int → α) :
    Int × Int → α :=
  run (clipList.map (copyTo deltaMove)) screen

/-! ## Strict weak orders on a list -/

/-- What `std::sort` requires of a comparison, on the elements of a list. -/
structure StrictWeakOn {α : Type*} (less : α → α → Bool) (items : List α) : Prop where
  irrefl : ∀ a ∈ items, ¬less a a
  trans : ∀ a ∈ items, ∀ b ∈ items, ∀ c ∈ items, less a b → less b c → less a c
  incomparable : ∀ a ∈ items, ∀ b ∈ items, ∀ c ∈ items, ¬less a b → ¬less b a →
    ¬less b c → ¬less c b → ¬less a c ∧ ¬less c a

/-- The list in the order of a comparison. -/
structure SortedBy {α : Type*} (less : α → α → Bool) (items sorted : List α) : Prop where
  perm : sorted.Perm items
  sorted : sorted.Pairwise fun a b => ¬less b a

section Order

variable {α : Type*} {less : α → α → Bool} {items : List α}

theorem StrictWeakOn.asymm (weak : StrictWeakOn less items) {a b : α} (isFirst : a ∈ items)
    (isSecond : b ∈ items) (lower : less a b) : ¬less b a := fun higher =>
  weak.irrefl a isFirst (weak.trans a isFirst b isSecond a isFirst lower higher)

theorem StrictWeakOn.exists_sorted (weak : StrictWeakOn less items) :
    ∃ sorted, SortedBy less items sorted := by
  let before : {a // a ∈ items} → {a // a ∈ items} → Bool := fun a b => !less b.1 a.1
  have trans : ∀ a b c, before a b → before b c → before a c := by
    intro a b c first second
    simp only [before, Bool.not_eq_true'] at first second ⊢
    by_contra lower
    have lower : less c.1 a.1 := by simpa using lower
    by_cases between : less a.1 b.1
    · exact absurd (weak.trans c.1 c.2 a.1 a.2 b.1 b.2 lower between) (by simp [second])
    · by_cases behind : less b.1 c.1
      · exact absurd (weak.trans b.1 b.2 c.1 c.2 a.1 a.2 behind lower) (by simp [first])
      · exact (weak.incomparable a.1 a.2 b.1 b.2 c.1 c.2 between (by simp [first]) behind
          (by simp [second])).2 lower
  have total : ∀ a b, before a b || before b a := by
    intro a b
    by_cases lower : less b.1 a.1
    · have higher := weak.asymm b.2 a.2 lower
      simp [before, higher]
    · simp [before, lower]
  refine ⟨(items.attach.mergeSort before).map Subtype.val, ?_, ?_⟩
  · have perm := (mergeSort_perm items.attach before).map Subtype.val
    rwa [attach_map_subtype_val] at perm
  · rw [pairwise_map]
    exact (pairwise_mergeSort trans total items.attach).imp fun ordered => by
      simpa [before] using ordered

end Order

/-! ## When the comparison is one -/

/-- The rectangles stand side by side. -/
def SideBySide (r s : PIRect) : Prop := r.right ≤ s.left ∨ r.left ≥ s.right

/-- `r` is ahead of `s` in the direction in which a row is copied. -/
def AheadInRow (deltaMove : PIPoint) (r s : PIRect) : Prop :=
  if deltaMove.x < 0 then r.left < s.left else s.left < r.left

def AheadInColumn (deltaMove : PIPoint) (r s : PIRect) : Prop :=
  if deltaMove.y < 0 then r.top < s.top else s.top < r.top

/-- Two rectangles side by side of which the one ahead in its row is the last in the column that
a third one makes with both. -/
def Entangled (deltaMove : PIPoint) (a b c : PIRect) : Prop :=
  SideBySide a b ∧ ¬SideBySide b c ∧ ¬SideBySide c a ∧
    AheadInRow deltaMove a b ∧ AheadInColumn deltaMove b c ∧ AheadInColumn deltaMove c a

section Compare

variable {deltaMove : PIPoint} {a b c r s : PIRect} {rects : List PIRect}

theorem blitSortCompare_iff : BlitSortCompare deltaMove r s ↔
    SideBySide r s ∧ AheadInRow deltaMove r s ∨ ¬SideBySide r s ∧ AheadInColumn deltaMove r s := by
  unfold BlitSortCompare SideBySide AheadInRow AheadInColumn
  split
  · split <;> simp [*]
  · split <;> simp [*]

theorem SideBySide.symm (beside : SideBySide r s) : SideBySide s r := by
  unfold SideBySide at beside ⊢
  omega

theorem edges_of_apart (apart : r.Apart s) (valid : r.IsValid) (valid' : s.IsValid) :
    SideBySide r s ∨ r.bottom ≤ s.top ∨ s.bottom ≤ r.top := by
  by_contra near
  unfold SideBySide at near
  push Not at near
  have inside : (max r.left s.left, max r.top s.top) ∈ r.points ∩ s.points := by
    have ⟨width, height⟩ := valid
    have ⟨width', height'⟩ := valid'
    simp only [Set.mem_inter_iff, mem_points]
    omega
  exact (Set.disjoint_iff.mp apart inside).elim

section

variable (tiles : Tiles rects) (first : r ∈ rects) (second : s ∈ rects) (different : r ≠ s)

include tiles first second different

theorem apart_of_ne : r.Apart s := by
  have symmetric : Std.Symm (Apart (α := Int)) := ⟨fun _ _ => Apart.symm⟩
  exact tiles.apart.forall first second different

theorem compare_total : BlitSortCompare deltaMove r s ∨ BlitSortCompare deltaMove s r := by
  have apart := apart_of_ne tiles first second different
  have valid := tiles.valid r first
  have valid' := tiles.valid s second
  have edges := edges_of_apart apart valid valid'
  have ⟨width, height⟩ := valid
  have ⟨width', height'⟩ := valid'
  rw [blitSortCompare_iff, blitSortCompare_iff]
  unfold SideBySide AheadInRow AheadInColumn at *
  split <;> split <;> omega

end

theorem AheadInRow.asymm (ahead : AheadInRow deltaMove r s) : ¬AheadInRow deltaMove s r := by
  unfold AheadInRow at *
  split at ahead <;> simp only [*, if_true, if_false] <;> omega

theorem AheadInColumn.asymm (ahead : AheadInColumn deltaMove r s) :
    ¬AheadInColumn deltaMove s r := by
  unfold AheadInColumn at *
  split at ahead <;> simp only [*, if_true, if_false] <;> omega

theorem compare_asymm (lower : BlitSortCompare deltaMove r s) : ¬BlitSortCompare deltaMove s r := by
  rw [blitSortCompare_iff] at lower ⊢
  rintro (⟨beside, higher⟩ | ⟨overlap, higher⟩)
  · rcases lower with ⟨_, lower⟩ | ⟨overlap, _⟩
    · exact lower.asymm higher
    · exact overlap beside.symm
  · rcases lower with ⟨beside, _⟩ | ⟨_, lower⟩
    · exact overlap beside.symm
    · exact lower.asymm higher

theorem aheadInRow_trans (valid : b.IsValid) (beside : SideBySide a b) (beside' : SideBySide b c)
    (ahead : AheadInRow deltaMove a b) (ahead' : AheadInRow deltaMove b c) :
    SideBySide a c ∧ AheadInRow deltaMove a c := by
  have width := valid.1
  unfold SideBySide AheadInRow at *
  split at ahead <;> simp only [*, if_true, if_false] at ahead' ⊢ <;> omega

theorem aheadInColumn_trans (ahead : AheadInColumn deltaMove a b)
    (ahead' : AheadInColumn deltaMove b c) : AheadInColumn deltaMove a c := by
  unfold AheadInColumn at *
  split at ahead <;> simp only [*, if_true, if_false] at ahead' ⊢ <;> omega

theorem compare_trans (tiles : Tiles rects) (first : a ∈ rects) (second : b ∈ rects)
    (third : c ∈ rects) (free : ∀ a ∈ rects, ∀ b ∈ rects, ∀ c ∈ rects, ¬Entangled deltaMove a b c)
    (lower : BlitSortCompare deltaMove a b) (lower' : BlitSortCompare deltaMove b c) :
    BlitSortCompare deltaMove a c := by
  by_contra notLower
  have different : a ≠ c := by
    intro same
    subst same
    exact compare_asymm lower lower'
  have higher := (compare_total tiles first third different).resolve_left notLower
  have validA := tiles.valid a first
  have validB := tiles.valid b second
  have validC := tiles.valid c third
  rw [blitSortCompare_iff] at lower lower' higher
  -- the three go round; with two steps in rows the third is one in a row as well
  rcases lower with ⟨rowAB, aheadAB⟩ | ⟨colAB, aheadAB⟩
  · rcases lower' with ⟨rowBC, aheadBC⟩ | ⟨colBC, aheadBC⟩
    · have ⟨rowAC, aheadAC⟩ := aheadInRow_trans validB rowAB rowBC aheadAB aheadBC
      rcases higher with ⟨_, aheadCA⟩ | ⟨colCA, _⟩
      · exact aheadAC.asymm aheadCA
      · exact colCA rowAC.symm
    · rcases higher with ⟨rowCA, aheadCA⟩ | ⟨colCA, aheadCA⟩
      · exact colBC (aheadInRow_trans validA rowCA rowAB aheadCA aheadAB).1.symm
      · exact free a first b second c third ⟨rowAB, colBC, colCA, aheadAB, aheadBC, aheadCA⟩
  · rcases lower' with ⟨rowBC, aheadBC⟩ | ⟨colBC, aheadBC⟩
    · rcases higher with ⟨rowCA, aheadCA⟩ | ⟨colCA, aheadCA⟩
      · exact colAB (aheadInRow_trans validC rowBC rowCA aheadBC aheadCA).1.symm
      · exact free b second c third a first ⟨rowBC, colCA, colAB, aheadBC, aheadCA, aheadAB⟩
    · rcases higher with ⟨rowCA, aheadCA⟩ | ⟨colCA, aheadCA⟩
      · exact free c third a first b second ⟨rowCA, colAB, colBC, aheadCA, aheadAB, aheadBC⟩
      · exact (aheadInColumn_trans aheadAB aheadBC).asymm aheadCA

theorem strictWeakOn_iff (tiles : Tiles rects) : StrictWeakOn (BlitSortCompare deltaMove) rects ↔
    ∀ a ∈ rects, ∀ b ∈ rects, ∀ c ∈ rects, ¬Entangled deltaMove a b c := by
  constructor
  · intro weak a first b second c third ⟨rowAB, colBC, colCA, aheadAB, aheadBC, aheadCA⟩
    have lower : BlitSortCompare deltaMove a b := blitSortCompare_iff.mpr (.inl ⟨rowAB, aheadAB⟩)
    have lower' : BlitSortCompare deltaMove b c := blitSortCompare_iff.mpr (.inr ⟨colBC, aheadBC⟩)
    have higher : BlitSortCompare deltaMove c a := blitSortCompare_iff.mpr (.inr ⟨colCA, aheadCA⟩)
    exact compare_asymm (weak.trans a first b second c third lower lower') higher
  · intro free
    have same {r s : PIRect} (first : r ∈ rects) (second : s ∈ rects)
        (not : ¬BlitSortCompare deltaMove r s) (not' : ¬BlitSortCompare deltaMove s r) : r = s := by
      by_contra different
      exact (compare_total tiles first second different).elim not not'
    constructor
    · exact fun a _ lower => compare_asymm lower lower
    · exact fun a first b second c third => compare_trans tiles first second third free
    · intro a first b second c third notAB notBA notBC notCB
      rw [same first second notAB notBA]
      exact ⟨notBC, notCB⟩

/-! ## The copies in that order -/

theorem copyTo_target {p : Int × Int} : (copyTo deltaMove r).target p ↔ p ∈ r.points := by
  simp [copyTo, mem_points, and_assoc]

theorem compare_of_overwrites {p : Int × Int} (apart : r.Apart s) (valid : r.IsValid)
    (valid' : s.IsValid) (target : p ∈ s.points)
    (source : (p.1 - deltaMove.x, p.2 - deltaMove.y) ∈ r.points) :
    BlitSortCompare deltaMove s r := by
  have edges := edges_of_apart apart valid valid'
  rw [mem_points] at target source
  simp only at source
  rw [blitSortCompare_iff]
  unfold SideBySide AheadInRow AheadInColumn at *
  by_cases beside : s.right ≤ r.left ∨ s.left ≥ r.right
  · left
    refine ⟨beside, ?_⟩
    split <;> omega
  · right
    refine ⟨beside, ?_⟩
    split <;> omega

theorem leavesAlone_of_sorted {sorted : List PIRect} (tiles : Tiles sorted)
    (order : sorted.Pairwise fun a b => ¬BlitSortCompare deltaMove b a) :
    (sorted.map (copyTo deltaMove)).Pairwise LeavesAlone := by
  rw [pairwise_map]
  have both := (tiles.apart.and order).imp_of_mem (S := fun r s =>
    LeavesAlone (copyTo deltaMove r) (copyTo deltaMove s)) ?_
  · exact both
  · intro r s first second ⟨apart, order⟩ p target
    rw [copyTo_target] at target
    constructor
    · rw [copyTo_target]
      exact fun here => Set.disjoint_left.mp apart here target
    · intro source
      rw [copyTo_target] at source
      exact order (compare_of_overwrites apart (tiles.valid r first) (tiles.valid s second) target
        source)

/-- The rectangles can be sorted, and copied in that order each pixel gets what its source held. -/
def BlitsSafely (deltaMove : PIPoint) (rects : List PIRect) : Prop :=
  StrictWeakOn (BlitSortCompare deltaMove) rects ∧
    (∃ sorted, SortedBy (BlitSortCompare deltaMove) rects sorted) ∧
    ∀ sorted, SortedBy (BlitSortCompare deltaMove) rects sorted →
      ∀ (α : Type) (screen : Int × Int → α), ∀ r ∈ rects, ∀ p ∈ r.points,
        blit deltaMove sorted screen p = screen (p.1 - deltaMove.x, p.2 - deltaMove.y)

theorem blitsSafely_iff (deltaMove : PIPoint) (tiles : Tiles rects) :
    BlitsSafely deltaMove rects ↔
      ∀ a ∈ rects, ∀ b ∈ rects, ∀ c ∈ rects, ¬Entangled deltaMove a b c := by
  constructor
  · exact fun safely => (strictWeakOn_iff tiles).mp safely.1
  · intro free
    have weak := (strictWeakOn_iff tiles).mpr free
    refine ⟨weak, weak.exists_sorted, fun sorted order _ screen r member p inside => ?_⟩
    have leaves := leavesAlone_of_sorted (tiles.perm order.perm.symm) order.sorted
    have listed : copyTo deltaMove r ∈ sorted.map (copyTo deltaMove) :=
      mem_map_of_mem (order.perm.mem_iff.mpr member)
    exact run_eq_source leaves listed (copyTo_target.mpr inside)

/-- Two windows in opposite corners cover a region of three rectangles. -/
def corners : List PIRect := [⟨0, 4, 2, 6⟩, ⟨2, 0, 4, 2⟩, ⟨0, 2, 4, 4⟩]

theorem tiles_corners : Tiles corners := by
  constructor
  · decide
  · simp only [corners, pairwise_cons, mem_cons, not_mem_nil, or_false,
      forall_eq_or_imp, forall_eq, List.Pairwise.nil, Apart, Set.disjoint_left, mem_points]
    grind

theorem blitsSafely_iff_corners :
    BlitsSafely ⟨-1, -1⟩ corners ↔
      ∀ a ∈ corners, ∀ b ∈ corners, ∀ c ∈ corners, ¬Entangled ⟨-1, -1⟩ a b c :=
  blitsSafely_iff ⟨-1, -1⟩ tiles_corners

/-- The three are compared in a circle. -/
theorem corners_in_circle : Tiles corners ∧ BlitSortCompare ⟨-1, -1⟩ ⟨0, 4, 2, 6⟩ ⟨2, 0, 4, 2⟩ ∧
    BlitSortCompare ⟨-1, -1⟩ ⟨2, 0, 4, 2⟩ ⟨0, 2, 4, 4⟩ ∧
    BlitSortCompare ⟨-1, -1⟩ ⟨0, 2, 4, 4⟩ ⟨0, 4, 2, 6⟩ ∧ ¬BlitsSafely ⟨-1, -1⟩ corners := by
  refine ⟨tiles_corners, by decide, by decide, by decide, fun safely => ?_⟩
  have around := safely.1.trans ⟨0, 4, 2, 6⟩ (by decide) ⟨2, 0, 4, 2⟩ (by decide) ⟨0, 2, 4, 4⟩
    (by decide) (by decide) (by decide)
  exact absurd around (by decide)

end Compare

end PadOS.Gui
