import PadOS.Gui.ServerView

/-! # The regions of a tree of views

Moved to the screen, the regions that `RebuildRegion` computes are those of a stacking of the
views. Each view that is shown then keeps points of its own, and where every view takes only
points that it has, the points of the top view's frame all have an owner.
-/

namespace PadOS.Gui

open Rectangle PRegion PIRect Stacking

variable {p : Int × Int} {points points' : Set (Int × Int)} {offset offset' : PIPoint}

/-! ## Moving sets of points -/

theorem mem_translate : p ∈ PRegion.translate points offset ↔ (p.1 - offset.x, p.2 - offset.y) ∈ points := Iff.rfl

theorem translate_translate :
    PRegion.translate (PRegion.translate points offset) offset' =
      PRegion.translate points (offset.add offset') := by
  ext p
  simp only [mem_translate, PIPoint.add, Int.sub_sub, Int.add_comm]

theorem translate_inter : PRegion.translate (points ∩ points') offset =
    PRegion.translate points offset ∩ PRegion.translate points' offset := rfl

theorem translate_sdiff : PRegion.translate (points \ points') offset =
    PRegion.translate points offset \ PRegion.translate points' offset := rfl

/-! ## Views on the screen -/

/-- A view, and where its own coordinates start on the screen, counted in whole pixels. -/
abbrev LocatedView := PServerView × PIPoint

/-- The views of a list, whose parent's children are placed relative to `base`. -/
def located (base : PIPoint) : ChildList → Forest LocatedView
  | .nil => .nil
  | .cons view children above =>
    let pos := base.add view.getITopLeft
    .cons (view, pos) (located (pos.add (.ofPPoint view.scrollOffset)) children) (located base above)

def frameAt (view : LocatedView) : PIRect := add (bounds view.1.getIFrame) view.2

def shapeAt (view : LocatedView) : Option (Set (Int × Int)) :=
  view.1.shapeConstrainReg.map fun shape => PRegion.translate (covered shape) view.2

theorem apart_of_doIntersect {rect other : PIRect} (apart : rect.doIntersect other = false) :
    Disjoint rect.points other.points := by
  rw [Set.disjoint_left]
  intro p inside inside'
  simp only [PIRect.doIntersect, Bool.not_eq_false', Bool.or_eq_true, decide_eq_true_eq] at apart
  rw [mem_points] at inside inside'
  omega

/-- Views stacked by their frames and shapes. -/
def viewStacking : Stacking LocatedView (Int × Int) where
  shown view := view.1.hideCount == 0
  transparent view := view.1.hasFlags PViewFlags.Transparent
  drawsOnChildren view := view.1.hasFlags PViewFlags.DrawOnChildren
  area view := (frameAt view).points ∩ (shapeAt view).getD Set.univ
  cover view := (shapeAt view).getD (frameAt view).points
  meets upper lower := (frameAt upper).doIntersect (frameAt lower)
  area_subset := by
    intro view _ p inside
    cases shape : shapeAt view with
    | none => exact inside.1
    | some area =>
      rw [shape] at inside
      exact inside.2
  apart := by
    intro upper lower apart
    exact Set.disjoint_of_subset Set.inter_subset_left Set.inter_subset_left (apart_of_doIntersect apart)

namespace PServerView

variable {view : PServerView} {children above forest : ChildList} {region : List PIRect} {pos base : PIPoint}

theorem getITopLeft_eq (view : PServerView) : view.getITopLeft = topLeft view.getIFrame := rfl

theorem frameAt_eq (view : PServerView) (base : PIPoint) :
    frameAt (view, base.add view.getITopLeft) = add view.getIFrame base := by
  simp only [frameAt, add, bounds, getITopLeft_eq, topLeft, PIPoint.add, Rectangle.mk.injEq]
  omega

theorem covered_excludeFromRegion (forest : ChildList) (offset : PIPoint) (region : List PIRect)
    (pos : PIPoint) : PRegion.translate (covered (excludeFromRegion forest offset region).1) pos =
      PRegion.translate (covered region) pos \ viewStacking.cut (located (offset.add pos) forest) := by
  induction forest generalizing offset region with
  | nil =>
    show _ = _ \ (∅ : Set (Int × Int))
    rw [Set.sdiff_empty]
    rfl
  | cons view children above ihChildren ihAbove =>
    rw [located, cut_cons, ← Set.sdiff_sdiff]
    show PRegion.translate (covered (excludeFromRegion above offset _).1) pos = _
    rw [ihAbove]
    congr 1
    by_cases shown : view.hideCount = 0
    · have sameFlag : viewStacking.transparent (view, (offset.add pos).add view.getITopLeft) =
          view.hasFlags PViewFlags.Transparent := rfl
      rw [if_pos shown, cut_tree (by simp [viewStacking, shown]), sameFlag]
      by_cases transparent : view.hasFlags PViewFlags.Transparent
      · rw [if_pos transparent, ihChildren, if_pos transparent]
        congr 3
        simp only [PIPoint.add, PIPoint.mk.injEq]
        omega
      · rw [if_neg transparent, if_neg transparent]
        cases shape : view.shapeConstrainReg with
        | none =>
          have cover : viewStacking.cover (view, (offset.add pos).add view.getITopLeft) =
              PRegion.translate (add view.getIFrame offset).points pos := by
            simp only [viewStacking, shapeAt, shape, Option.map_none, Option.getD_none]
            rw [frameAt_eq, points_add, points_add, translate_translate]
          rw [cover]
          show PRegion.translate (covered (exclude region _)) pos = _
          rw [covered_exclude, translate_sdiff]
        | some shape' =>
          have cover : viewStacking.cover (view, (offset.add pos).add view.getITopLeft) =
              PRegion.translate (PRegion.translate (covered shape') (view.getITopLeft.add offset)) pos := by
            simp only [viewStacking, shapeAt, shape, Option.map_some, Option.getD_some]
            rw [translate_translate]
            congr 1
            simp only [PIPoint.add, PIPoint.mk.injEq]
            omega
          rw [cover]
          show PRegion.translate (covered (excludeOffset region shape' _)) pos = _
          rw [covered_excludeOffset, translate_sdiff]
    · rw [if_neg shown, cut_tree_hidden (by simpa [viewStacking] using shown), Set.sdiff_empty]

theorem covered_excludeSiblings (view : PServerView) (above : ChildList) (region : List PIRect)
    (base : PIPoint) :
    PRegion.translate (covered (excludeSiblings view.getIFrame above region)) (base.add view.getITopLeft) =
      PRegion.translate (covered region) (base.add view.getITopLeft) \
        viewStacking.cutFrom (view, base.add view.getITopLeft) (located base above) := by
  induction above generalizing region with
  | nil =>
    show _ = _ \ (∅ : Set (Int × Int))
    rw [Set.sdiff_empty]
    rfl
  | cons sibling children above _ ih =>
    have meets : viewStacking.meets (sibling, base.add sibling.getITopLeft)
        (view, base.add view.getITopLeft) =
          sibling.getIFrame.doIntersect view.getIFrame := by
      show (frameAt _).doIntersect (frameAt _) = _
      rw [frameAt_eq, frameAt_eq]
      simp only [PIRect.doIntersect, add, ge_iff_le, Int.add_le_add_iff_right]
    rw [excludeSiblings, located, cutFrom, ← Set.sdiff_sdiff, meets]
    by_cases taken : (sibling.hideCount = 0 && sibling.getIFrame.doIntersect view.getIFrame) = true
    · rw [if_pos taken, ih, covered_excludeFromRegion, if_pos (by simpa [viewStacking] using taken)]
      congr 3
      have back : (topLeft view.getIFrame).neg.add (base.add view.getITopLeft) = base := by
        rw [getITopLeft_eq]
        simp only [PIPoint.add, PIPoint.neg, topLeft]
        cases base
        simp only [PIPoint.mk.injEq]
        omega
      rw [back]
      rfl
    · rw [if_neg taken, ih, if_neg (by simpa [viewStacking] using taken), Set.sdiff_empty]

theorem mergeable_excludeFromRegion (forest : ChildList) (offset : PIPoint) {region : List PIRect}
    (mergeable : Mergeable region) : Mergeable (excludeFromRegion forest offset region).1 := by
  induction forest generalizing offset region with
  | nil => exact mergeable
  | cons view children above ihChildren ihAbove =>
    apply ihAbove
    by_cases shown : view.hideCount = 0
    · rw [if_pos shown]
      by_cases transparent : view.hasFlags PViewFlags.Transparent
      · rw [if_pos transparent]
        exact ihChildren _ mergeable
      · rw [if_neg transparent]
        cases view.shapeConstrainReg with
        | none => exact mergeable.exclude _
        | some shape =>
          show Mergeable (excludeOffset region shape _)
          rw [excludeOffset_eq]
          exact mergeable.excludeRegion _
    · rw [if_neg shown]
      exact mergeable

theorem mergeable_excludeSiblings (intFrame : PIRect) (above : ChildList) {region : List PIRect}
    (mergeable : Mergeable region) : Mergeable (excludeSiblings intFrame above region) := by
  induction above generalizing region with
  | nil => exact mergeable
  | cons sibling children above _ ih =>
    rw [excludeSiblings]
    split
    · exact ih (mergeable_excludeFromRegion _ _ mergeable)
    · exact ih mergeable

variable {fullReg : List PIRect}

theorem rebuiltFullReg_spec (order : StdSort) (view : PServerView) {parent : PServerView} (isFull : parent.fullReg = some fullReg) (above : ChildList) (pos : PIPoint) :
    let base := pos.add (.ofPPoint parent.scrollOffset)
    Mergeable (view.rebuiltFullReg order (some parent) above) ∧
    PRegion.translate (covered (view.rebuiltFullReg order (some parent) above)) (base.add view.getITopLeft) =
      viewStacking.full (PRegion.translate (covered fullReg) pos) (view, base.add view.getITopLeft)
        (located base above) := by
  intro base
  have inFrame : PRegion.translate (covered (clipTo fullReg
      (add view.getIFrame (.ofPPoint parent.scrollOffset)) true)) (base.add view.getITopLeft) =
        PRegion.translate (covered fullReg) pos ∩ (frameAt (view, base.add view.getITopLeft)).points := by
    rw [covered_clipTo, translate_translate, translate_inter, frameAt_eq]
    have back : PIPoint.add ⟨-(add view.getIFrame (.ofPPoint parent.scrollOffset)).left,
        -(add view.getIFrame (.ofPPoint parent.scrollOffset)).top⟩ (base.add view.getITopLeft) = pos := by
      cases pos
      simp only [base, getITopLeft_eq, add, PIPoint.add, topLeft, PIPoint.mk.injEq]
      omega
    rw [back, points_add, points_add, translate_translate]
    congr 2
    simp only [base, PIPoint.add, PIPoint.mk.injEq]
    omega
  unfold rebuiltFullReg
  simp only [isFull]
  cases shape : view.shapeConstrainReg with
  | none =>
    have upright := AllUpright.clipTo fullReg (add view.getIFrame (.ofPPoint parent.scrollOffset))
    have mergeable := mergeable_excludeSiblings view.getIFrame above (.inl upright)
    refine ⟨mergeable.optimize order, ?_⟩
    rw [covered_optimize order mergeable, covered_excludeSiblings, inFrame]
    unfold full
    simp only [viewStacking, shapeAt, shape, Option.map_none, Option.getD_none, Set.inter_univ]
  | some shape' =>
    have upright := AllUpright.intersect
      (clipTo fullReg (add view.getIFrame (.ofPPoint parent.scrollOffset)) true) shape'
    have mergeable := mergeable_excludeSiblings view.getIFrame above (.inl upright)
    refine ⟨mergeable.optimize order, ?_⟩
    rw [covered_optimize order mergeable, covered_excludeSiblings, covered_intersect, translate_inter, inFrame]
    unfold full
    simp only [viewStacking, shapeAt, shape, Option.map_some, Option.getD_some, Set.inter_assoc]

theorem covered_rebuiltVisibleReg (order : StdSort) (view : PServerView)
    (mergeable : Mergeable fullReg) (children : ChildList) (pos : PIPoint) :
    PRegion.translate (covered (view.rebuiltVisibleReg order fullReg children)) pos =
      if view.hasFlags PViewFlags.DrawOnChildren then PRegion.translate (covered fullReg) pos
      else PRegion.translate (covered fullReg) pos \
        viewStacking.cut (located (pos.add (.ofPPoint view.scrollOffset)) children) := by
  unfold rebuiltVisibleReg
  split
  · rfl
  · have cut := covered_excludeFromRegion children (.ofPPoint view.scrollOffset) fullReg pos
    have mergeable' := mergeable_excludeFromRegion children (.ofPPoint view.scrollOffset) mergeable
    have swap : PIPoint.add (.ofPPoint view.scrollOffset) pos = pos.add (.ofPPoint view.scrollOffset) := by
      simp only [PIPoint.add, Int.add_comm]
    rw [swap] at cut
    generalize excludeFromRegion children (.ofPPoint view.scrollOffset) fullReg = result at cut mergeable'
    rcases result with ⟨visibleReg, regModified⟩
    cases regModified with
    | false => exact cut
    | true =>
      show PRegion.translate (covered (optimize order visibleReg)) pos = _
      rw [covered_optimize order mergeable']
      exact cut

theorem translate_eq_empty : PRegion.translate points offset = ∅ ↔ points = ∅ := by
  simp only [Set.eq_empty_iff_forall_notMem, mem_translate]
  constructor
  · intro none p
    simpa using none (p.1 + offset.x, p.2 + offset.y)
  · exact fun none p => none _

/-- The screen position of a view that is shown and keeps a pixel that it draws on alone falls
on the pixel where its regions have it: that of its parent's contents and its own offset. -/
def Aligned (round : Rat → Rat) (clip : Set (Int × Int)) (base : PPoint) (base' : PIPoint) : ChildList → Prop
  | .nil => True
  | .cons view children above =>
    let screenPos := view.screenPos round (some base)
    let pos := base'.add view.getITopLeft
    let inner := pos.add (.ofPPoint view.scrollOffset)
    let higher := located base' above
    (view.isVisible →
      (view.hasFlags PViewFlags.Transparent = false →
        (viewStacking.visible clip (view, pos) (located inner children) higher).Nonempty →
          PIPoint.ofPPoint screenPos = pos) ∧
      Aligned round (viewStacking.full clip (view, pos) higher) (screenPos.add round view.scrollOffset)
        inner children) ∧
    Aligned round clip base base' above

/-- Whether an owner is transparent, and what it has if it is not. -/
def share (owner : PServerView × Set (Int × Int)) : Bool × Set (Int × Int) :=
  (owner.1.hasFlags PViewFlags.Transparent,
    if owner.1.hasFlags PViewFlags.Transparent then ∅ else owner.2)

def shareAt (owner : LocatedView × Set (Int × Int)) : Bool × Set (Int × Int) := share (owner.1.1, owner.2)

theorem share_of_solid {owner : PServerView × Set (Int × Int)}
    (isOpaque : owner.1.hasFlags PViewFlags.Transparent = false) : (share owner).2 = owner.2 := by
  unfold share
  rw [isOpaque]
  rfl

theorem share_subset {owner : PServerView × Set (Int × Int)} : (share owner).2 ⊆ owner.2 := by
  unfold share
  split
  · exact Set.empty_subset _
  · exact Set.Subset.refl _

theorem share_disjoint {lower upper : LocatedView × Set (Int × Int)}
    (disjoint : upper.1.1.hasFlags PViewFlags.Transparent = false → Disjoint lower.2 upper.2) :
    Disjoint (shareAt lower).2 (shareAt upper).2 := by
  cases flag : upper.1.1.hasFlags PViewFlags.Transparent with
  | true =>
    show Disjoint _ (if _ then _ else _)
    rw [if_pos flag]
    exact Set.disjoint_empty _
  | false => exact (disjoint flag).mono share_subset share_subset

theorem share_eq {other : PServerView} (flags : other.flags = view.flags)
    (same : view.hasFlags PViewFlags.Transparent = false → points = points') :
    share (other, points) = share (view, points') := by
  have sameFlag : other.hasFlags PViewFlags.Transparent = view.hasFlags PViewFlags.Transparent := by
    rw [hasFlags, flags, hasFlags]
  unfold share
  rw [sameFlag]
  cases isOpaque : view.hasFlags PViewFlags.Transparent with
  | true => rfl
  | false => rw [same isOpaque]

theorem regionsOnScreen_rebuildRegion (order : StdSort) (round : Rat → Rat) {parent : PServerView} (isFull : parent.fullReg = some fullReg) (forest : ChildList)
    (dirty : forest.All fun view => view.hasInvalidRegs) (base : PPoint) (pos : PIPoint)
    (aligned : Aligned round (PRegion.translate (covered fullReg) pos) base
      (pos.add (.ofPPoint parent.scrollOffset)) forest) :
    (regionsOnScreen round (some base) (rebuildRegion order (some parent) forest)).map share =
      (viewStacking.owners (PRegion.translate (covered fullReg) pos)
        (located (pos.add (.ofPPoint parent.scrollOffset)) forest)).map shareAt := by
  induction forest generalizing parent fullReg base pos with
  | nil => rfl
  | cons view children above ihChildren ihAbove =>
    have ⟨isDirty, dirtyBelow, dirtyAbove⟩ := dirty
    have behind := ihAbove isFull dirtyAbove base pos aligned.2
    rw [rebuildRegion, located]
    by_cases hidden : view.hideCount > 0
    · have notVisible : ¬view.isVisible := by
        unfold isVisible
        simp only [beq_iff_eq]
        omega
      have notShown (at' : PIPoint) : ¬viewStacking.shown (view, at') := notVisible
      rw [if_pos hidden, owners_cons_hidden (notShown _)]
      split
      · rw [regionsOnScreen, if_neg (show ¬view.deleteRegions.isVisible from notVisible)]
        exact behind
      · rw [regionsOnScreen, if_neg notVisible]
        exact behind
    · have visible : view.isVisible := by
        unfold isVisible
        simp only [beq_iff_eq]
        omega
      rcases aligned.1 visible with ⟨onPixel, alignedBelow⟩
      have ⟨mergeable, isArea⟩ := rebuiltFullReg_spec order view isFull above pos
      have isRebuilt : (view.rebuilt order (some parent) children above).fullReg =
          some (view.rebuiltFullReg order (some parent) above) := rfl
      rw [← isArea] at alignedBelow
      have below := ihChildren isRebuilt dirtyBelow _ _ alignedBelow
      have here := covered_rebuiltVisibleReg order view mergeable children
        ((pos.add (.ofPPoint parent.scrollOffset)).add view.getITopLeft)
      rw [isArea] at below here
      rw [if_neg hidden, if_pos isDirty, owners_cons visible, regionsOnScreen,
        if_pos (show (view.rebuilt order (some parent) children above).isVisible from visible)]
      rw [List.map_cons, List.map_append, List.map_append, behind]
      show _ :: (List.map share (regionsOnScreen _ _ _) ++ _) = (shareAt _ :: List.map shareAt _) ++ _
      rw [List.cons_append]
      congr 1
      · apply share_eq (show (view.rebuilt order (some parent) children above).flags = view.flags from rfl)
        intro isOpaque
        show PRegion.translate _ (.ofPPoint (view.screenPos round (some base))) = _
        rcases Set.eq_empty_or_nonempty (viewStacking.visible (PRegion.translate (covered fullReg) pos)
          (view, (pos.add (.ofPPoint parent.scrollOffset)).add view.getITopLeft)
          (located (((pos.add (.ofPPoint parent.scrollOffset)).add view.getITopLeft).add
            (.ofPPoint view.scrollOffset)) children)
          (located (pos.add (.ofPPoint parent.scrollOffset)) above)) with none | some'
        · exact (translate_eq_empty.2 (translate_eq_empty.1 (here.trans none))).trans none.symm
        · rw [onPixel isOpaque some']
          exact here
      · congr 1

/-! ## A full rebuild -/

/-- The top view is shown at the origin of the screen; what a view draws on alone is drawn where
its regions have it; and a view takes points from others only where it has them. -/
structure KeepsPoints (round : Rat → Rat) (topView : PServerView) (children : ChildList) : Prop where
  shown : topView.getIFrame.points.Nonempty → topView.isVisible
  atOrigin : topView.getIFrame.points.Nonempty → topView.getITopLeft = ⟨0, 0⟩
  aligned : Aligned round topView.getIFrame.points
    ((PRect.topLeft topView.frame).add round topView.scrollOffset) (.ofPPoint topView.scrollOffset) children
  contained : viewStacking.Contained topView.getIFrame.points
    (located (.ofPPoint topView.scrollOffset) children)

theorem located_all (p : PServerView → Prop) (forest : ChildList) (base : PIPoint) :
    (located base forest).All (fun view => p view.1) ↔ forest.All p := by
  induction forest generalizing base with
  | nil => exact Iff.rfl
  | cons view children above ihChildren ihAbove => simp only [located, Forest.All, ihChildren, ihAbove]

theorem translate_zero (points : Set (Int × Int)) : PRegion.translate points ⟨0, 0⟩ = points := by
  ext p
  rw [mem_translate, Int.sub_zero, Int.sub_zero]

/-- The top view has what its children leave of its frame, and these share the rest. -/
theorem regionsOnScreen_top (order : StdSort) {round : Rat → Rat} {topView : PServerView} {children : ChildList}
    (visible : topView.isVisible)
    (dirty : (Forest.tree topView children).All fun view => view.hasInvalidRegs)
    (notOnChildren : topView.hasFlags PViewFlags.DrawOnChildren = false)
    (keeps : KeepsPoints round topView children) :
    let forest := located (.ofPPoint topView.scrollOffset) children
    ∃ view below, regionsOnScreen round none (rebuildRegion order none (.tree topView children)) =
        (view, PRegion.translate (topView.getIFrame.points \ viewStacking.cut forest) topView.getITopLeft) ::
          below ∧
      below.map share = (viewStacking.owners topView.getIFrame.points forest).map shareAt := by
  intro forest
  have isShown : topView.hideCount = 0 := by simpa [isVisible] using visible
  have start : PIPoint.add ⟨0, 0⟩ (.ofPPoint topView.scrollOffset) = .ofPPoint topView.scrollOffset := by
    simp only [PIPoint.add, Int.zero_add]
  have inFrame : covered [topView.getIFrame] = topView.getIFrame.points := covered_singleton
  have sharesFrame : PRegion.translate (covered (topView.rebuiltFullReg order none .nil)) ⟨0, 0⟩ =
      topView.getIFrame.points := (translate_zero _).trans inFrame
  have isRebuilt : (topView.rebuilt order none children .nil).fullReg =
      some (topView.rebuiltFullReg order none .nil) := rfl
  have scroll : PIPoint.add ⟨0, 0⟩ (.ofPPoint (topView.rebuilt order none children .nil).scrollOffset) =
      .ofPPoint topView.scrollOffset := start
  have below := regionsOnScreen_rebuildRegion order round isRebuilt children dirty.2.1
    ((PRect.topLeft topView.frame).add round topView.scrollOffset) ⟨0, 0⟩ (by
      rw [sharesFrame, scroll]
      exact keeps.aligned)
  rw [sharesFrame, scroll] at below
  have mergeable : Mergeable [topView.getIFrame] := .inr (Nat.le_refl 1)
  have here := covered_rebuiltVisibleReg order topView mergeable children ⟨0, 0⟩
  rw [notOnChildren, inFrame, start, translate_zero, translate_zero topView.getIFrame.points] at here
  refine ⟨topView.rebuilt order none children .nil, _, ?_, below⟩
  rw [Forest.tree, rebuildRegion, if_neg (by omega), if_pos dirty.1, regionsOnScreen,
    if_pos (show (topView.rebuilt order none children .nil).isVisible from visible)]
  show (_, PRegion.translate (covered (topView.rebuiltVisibleReg order [topView.getIFrame] children)) _) ::
    (_ ++ []) = _
  rw [here, List.append_nil]
  rfl

def screen : PServerView := .new 1 ⟨0, 0, 9, 9⟩ ⟨0, 0⟩ 0 0 none

def window : ChildList :=
  .tree (.new 2 ⟨5, 5, 12, 12⟩ ⟨0, 0⟩ 0 0 none)
    (.tree (.new 3 ⟨1, 1, 4, 4⟩ ⟨0, 0⟩ PViewFlags.Transparent 0 none) .nil)

theorem keepsPoints_window : KeepsPoints id screen window where
  shown _ := rfl
  atOrigin _ := by decide +kernel
  aligned := by
    refine ⟨fun _ => ⟨fun _ _ => by decide +kernel, fun _ => ⟨fun _ _ => by decide +kernel, trivial⟩,
      trivial⟩, trivial⟩
  contained := by
    refine ⟨fun _ => ⟨?_, fun _ => ⟨?_, trivial⟩, trivial⟩, trivial⟩
    · intro p _ taken _
      rw [cut_tree (by decide +kernel)] at taken
      exact ⟨taken, trivial⟩
    · intro p _ taken _
      rw [cut_tree (by decide +kernel)] at taken
      cases taken

/-- Whether some view has a point to itself, computed. -/
def isOwned (p : Int × Int) (round : Rat → Rat) (base : Option PPoint) : ChildList → Bool
  | .nil => false
  | .cons view children above =>
    let screenPos := view.screenPos round base
    let pos := PIPoint.ofPPoint screenPos
    view.isVisible && ((view.visibleReg.getD []).any (fun rect =>
      decide ((rect.left ≤ p.1 - pos.x ∧ p.1 - pos.x < rect.right) ∧
        rect.top ≤ p.2 - pos.y ∧ p.2 - pos.y < rect.bottom)) ||
        isOwned p round (some (screenPos.add round view.scrollOffset)) children) || isOwned p round base above

theorem isOwned_iff (p : Int × Int) (round : Rat → Rat) (forest : ChildList) (base : Option PPoint) :
    isOwned p round base forest ↔ ∃ view ∈ regionsOnScreen round base forest, p ∈ view.2 := by
  induction forest generalizing base with
  | nil => simp [isOwned, regionsOnScreen]
  | cons view children above ihChildren ihAbove =>
    rw [isOwned, regionsOnScreen]
    by_cases visible : view.isVisible
    · rw [if_pos visible, visible, Bool.true_and, Bool.or_eq_true, Bool.or_eq_true, ihChildren,
        ihAbove, List.any_eq_true]
      simp only [List.mem_cons, List.mem_append, or_and_right, exists_or, exists_eq_left,
        decide_eq_true_eq, or_assoc]
      exact Iff.rfl
    · rw [if_neg visible, eq_false_of_ne_true visible, Bool.false_and, Bool.false_or]
      exact ihAbove base

/-- A transparent view, and a child of it that is larger than it is. -/
def overhang : ChildList :=
  .tree (.new 2 ⟨0, 0, 2, 2⟩ ⟨0, 0⟩ PViewFlags.Transparent 0 none)
    (.tree (.new 3 ⟨0, 0, 5, 5⟩ ⟨0, 0⟩ 0 0 none) .nil)

end PServerView

end PadOS.Gui
