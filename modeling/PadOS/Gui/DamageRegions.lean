import PadOS.Core.Transition
import PadOS.Gui.ViewUpdate

/-! # What becomes of damage

Each operation on a tree of views keeps the damage a view has recorded, or hands it over: it
becomes the active damage of the view, for which a paint message is posted. Here is what each
of them does to a view, whatever the others are.
-/

namespace PadOS.Gui

open Rectangle PRegion Option

namespace PServerView

/-- The view stays what it is, and so does its active damage; the damage that is recorded
inside its bounds only grows. -/
structure Grows (view view' : PServerView) : Prop where
  handle : view'.handle = view.handle
  frame : view'.frame = view.frame
  active : view'.activeDamageReg = view.activeDamageReg
  damage : ∀ damageReg, view.damageReg = some damageReg → ∃ damageReg',
    view'.damageReg = some damageReg' ∧
      covered damageReg ∩ (PIRect.ofPRect view.getNormalizedBounds).points ⊆ covered damageReg'

/-- As `Grows`, and the view is shown or hidden as before. -/
structure Stays (view view' : PServerView) : Prop extends Grows view view' where
  hideCount : view'.hideCount = view.hideCount

variable {view view' view'' : PServerView} {forest children rest above forest' : ChildList}
  {parent : Option PServerView} {order : StdSort} {delivered : Nat → Bool} {handle : Nat}

theorem Grows.refl (view : PServerView) : Grows view view :=
  ⟨rfl, rfl, rfl, fun damageReg isDamage => ⟨damageReg, isDamage, Set.inter_subset_left⟩⟩

theorem Grows.trans (first : Grows view view') (second : Grows view' view'') : Grows view view'' where
  handle := second.handle.trans first.handle
  frame := second.frame.trans first.frame
  active := second.active.trans first.active
  damage := by
    intro damageReg isDamage
    rcases first.damage damageReg isDamage with ⟨damageReg', isDamage', grows⟩
    rcases second.damage damageReg' isDamage' with ⟨damageReg'', isDamage'', grows'⟩
    refine ⟨damageReg'', isDamage'', ?_⟩
    intro p inside
    apply grows'
    refine ⟨grows inside, ?_⟩
    unfold getNormalizedBounds
    rw [first.frame]
    exact inside.2

theorem Stays.refl (view : PServerView) : Stays view view := ⟨.refl view, rfl⟩

theorem Stays.trans (first : Stays view view') (second : Stays view' view'') : Stays view view'' :=
  ⟨first.toGrows.trans second.toGrows, second.hideCount.trans first.hideCount⟩

/-- The fields that `Stays` speaks of are those of the view itself. -/
theorem Stays.of_fields (handle : view'.handle = view.handle) (frame : view'.frame = view.frame)
    (active : view'.activeDamageReg = view.activeDamageReg) (damage : view'.damageReg = view.damageReg)
    (hideCount : view'.hideCount = view.hideCount) : Stays view view' :=
  ⟨⟨handle, frame, active, fun damageReg isDamage =>
    ⟨damageReg, damage.trans isDamage, Set.inter_subset_left⟩⟩, hideCount⟩

theorem Stays.clearPrevFullReg (stays : Stays view view') :
    Stays view { view' with prevFullReg := none } :=
  stays.trans (.of_fields rfl rfl rfl rfl rfl)

theorem Stays.clearDeltas (stays : Stays view view') (size move : PIPoint) :
    Stays view { view' with prevVisibleReg := none, deltaSize := size, deltaMove := move } :=
  stays.trans (.of_fields rfl rfl rfl rfl rfl)

/-! ## Marks -/

theorem setDirtyRegFlags_stays (view : PServerView) : Stays view view.setDirtyRegFlags :=
  .of_fields rfl rfl rfl rfl rfl

theorem clearDirtyRegFlags_stays (view : PServerView) : Stays view view.clearDirtyRegFlags :=
  .of_fields rfl rfl rfl rfl rfl

theorem markDirty_stays (forest : ChildList) : Forest.Rel Stays forest (markDirty forest) :=
  .map _ setDirtyRegFlags_stays forest

theorem markOpaqueParent_stays (handle : Nat) (forest : ChildList) :
    Forest.Rel Stays forest (markOpaqueParent handle forest) := by
  induction forest with
  | nil => exact .nil
  | cons view children rest ihChildren ihRest =>
    rw [markOpaqueParent]
    split
    · split
      · exact .cons (.refl view) ihChildren (.refl .refl rest)
      · split
        · exact .refl .refl _
        · exact .cons (setDirtyRegFlags_stays view) (markDirty_stays children) (.refl .refl rest)
    · exact .cons (.refl view) (.refl .refl children) ihRest

theorem markModified_stays (rect : PIRect) (forest : ChildList) :
    Forest.Rel Stays forest (markModified rect forest) := by
  induction forest generalizing rect with
  | nil => exact .nil
  | cons view children rest ihChildren ihRest =>
    rw [markModified]
    split
    · exact .cons (setDirtyRegFlags_stays view) (ihChildren _) (ihRest rect)
    · exact .cons (.refl view) (.refl .refl children) (ihRest rect)

theorem markSiblings_stays (intFrame : PIRect) (forest : ChildList) :
    Forest.Rel Stays forest (markSiblings intFrame forest) := by
  induction forest with
  | nil => exact .nil
  | cons sibling children rest _ ihRest =>
    rw [markSiblings]
    split
    · have marked := markModified_stays intFrame (.tree sibling children)
      generalize markModified intFrame (.tree sibling children) = result at marked
      cases marked with
      | cons here below _ => exact .cons here below ihRest
    · exact .cons (.refl sibling) (.refl .refl children) ihRest

theorem markSiblingsOf_stays (handle : Nat) (forest : ChildList) :
    Forest.Rel Stays forest (markSiblingsOf handle forest) := by
  induction forest with
  | nil => exact .nil
  | cons view children rest ihChildren ihRest =>
    rw [markSiblingsOf]
    split
    · exact .cons (.refl view) (markSiblings_stays _ children) (.refl .refl rest)
    · exact .cons (.refl view) ihChildren ihRest

theorem stays_comp {forest'' : ChildList} (first : Forest.Rel Stays forest forest')
    (second : Forest.Rel Stays forest' forest'') : Forest.Rel Stays forest forest'' :=
  first.comp second fun _ _ _ => Stays.trans

theorem markShown_stays (forest : ChildList) (changed : List Nat) :
    Forest.Rel Stays forest (changed.foldl markShown forest) := by
  induction changed generalizing forest with
  | nil => exact .refl .refl forest
  | cons handle changed ih =>
    have marked := stays_comp (markOpaqueParent_stays handle forest) (markSiblingsOf_stays handle _)
    exact stays_comp marked (ih _)

theorem beginUpdate_stays (view : PServerView) : Stays view view.beginUpdate := by
  unfold beginUpdate
  split
  · exact .of_fields rfl rfl rfl rfl rfl
  · exact .refl view

/-! ## `Invalidate` -/

theorem covered_includeRect (rects : List PIRect) (rect : PIRect) :
    covered (includeRect rects rect) = covered rects ∪ rect.points := by
  unfold includeRect
  rw [covered_append, covered_excludeRegion, covered_singleton, Set.sdiff_union_self, Set.union_comm]

theorem invalidate_stays (view : PServerView) (rect : PIRect) : Stays view (view.invalidate rect) := by
  unfold invalidate
  split
  · cases isDamage : view.damageReg with
    | none =>
      refine ⟨⟨rfl, rfl, rfl, ?_⟩, rfl⟩
      intro damageReg isDamage'
      rw [isDamage] at isDamage'
      cases isDamage'
    | some damageReg =>
      refine ⟨⟨rfl, rfl, rfl, ?_⟩, rfl⟩
      intro damageReg' isDamage'
      rw [isDamage] at isDamage'
      obtain rfl := some.inj isDamage'
      refine ⟨_, rfl, ?_⟩
      rw [covered_includeRect]
      exact Set.inter_subset_left.trans Set.subset_union_left
  · exact .refl view

theorem invalidateBounds_stays (view : PServerView) : Stays view view.invalidateBounds := by
  unfold invalidateBounds
  split
  · refine ⟨⟨rfl, rfl, rfl, ?_⟩, rfl⟩
    intro damageReg isDamage
    refine ⟨_, rfl, ?_⟩
    rw [covered_singleton]
    exact Set.inter_subset_right
  · exact .refl view

theorem invalidateAll_stays (forest : ChildList) : Forest.Rel Stays forest (invalidateAll forest) := by
  induction forest with
  | nil => exact .nil
  | cons view children rest ihChildren ihRest =>
    rw [invalidateAll]
    split
    · exact .cons (invalidateBounds_stays view) ihChildren ihRest
    · exact .cons (.refl view) (.refl .refl children) ihRest

theorem foldl_invalidate_stays (region : List PIRect) (view : PServerView) :
    Stays view (region.foldl invalidate view) := by
  induction region generalizing view with
  | nil => exact .refl view
  | cons clip region ih => exact (invalidate_stays view clip).trans (ih _)

/-! ## `UpdateRegions` -/

theorem rebuilt_stays (view : PServerView) (parent : Option PServerView) (children above : ChildList) :
    Stays view (view.rebuilt order parent children above) :=
  .of_fields rfl rfl rfl rfl rfl

theorem moveChilds_stays (parent : Option PServerView) (forest : ChildList) :
    Forest.Rel Stays forest (moveChilds parent forest) := by
  induction forest generalizing parent with
  | nil => exact .nil
  | cons view children rest ihChildren ihRest =>
    rw [moveChilds]
    split
    · exact .cons (.refl view) (.refl .refl children) (ihRest parent)
    · refine .cons ?_ (ihChildren _) (ihRest parent)
      split
      · cases parent with
        | none => exact .of_fields rfl rfl rfl rfl rfl
        | some parent =>
          have edge (view : PServerView) (condition : Prop) [Decidable condition] (rect : PIRect) :
              Stays view (if condition then view.invalidate rect else view) := by
            split
            · exact invalidate_stays view rect
            · exact .refl view
          apply Stays.clearPrevFullReg
          dsimp only
          split
          · exact .refl view
          · exact (edge view _ _).trans (edge _ _ _)
      · exact .refl view

theorem invalidateNewArea_stays (view : PServerView) : Stays view view.invalidateNewArea := by
  unfold invalidateNewArea
  split
  · apply Stays.clearDeltas
    split
    · exact invalidateBounds_stays view
    · cases view.visibleReg with
      | none => exact .refl view
      | some visibleReg =>
        cases isDamage : view.damageReg with
        | none =>
          dsimp only
          split
          · exact .refl view
          · refine ⟨⟨rfl, rfl, rfl, ?_⟩, rfl⟩
            intro damageReg isDamage'
            rw [isDamage] at isDamage'
            cases isDamage'
        | some damageReg => exact foldl_invalidate_stays _ view
  · exact .refl view

theorem invalidateNewAreas_stays (forest : ChildList) :
    Forest.Rel Stays forest (invalidateNewAreas forest) := by
  induction forest with
  | nil => exact .nil
  | cons view children rest ihChildren ihRest =>
    rw [invalidateNewAreas]
    split
    · exact .cons (.refl view) (.refl .refl children) ihRest
    · exact .cons (invalidateNewArea_stays view) ihChildren ihRest

/-! ## Views and whether they are shown -/

variable {r : PServerView × Bool → PServerView → Prop} {b : Bool}

theorem withShown_rel {γ : Type} {q : PServerView → γ → Prop} {r : PServerView × Bool → γ → Prop}
    {forest' : Forest γ} (rel : Forest.Rel q forest forest') (weaker : ∀ x b y, q x y → r (x, b) y)
    (b : Bool) : Forest.Rel r (withShown b forest) forest' := by
  induction rel generalizing b with
  | nil => exact .nil
  | cons here _ _ below behind => exact .cons (weaker _ _ _ here) (below _) (behind _)

theorem rel_of_withShown {γ : Type} {q : PServerView → γ → Prop} {r : PServerView × Bool → γ → Prop}
    {forest' : Forest γ} (rel : Forest.Rel r (withShown b forest) forest')
    (weaker : ∀ x b y, r (x, b) y → q x y) : Forest.Rel q forest forest' := by
  induction forest generalizing b forest' with
  | nil =>
    cases rel
    exact .nil
  | cons view children rest ihChildren ihRest =>
    cases rel with
    | cons here below behind => exact .cons (weaker _ _ _ here) (ihChildren below) (ihRest behind)

/-- A relation that does not look at whether the views on the right are shown. -/
theorem rel_withShown {γ : Type} {r : γ → PServerView → Prop} {forest : Forest γ} {views : ChildList}
    (rel : Forest.Rel r forest views) (b : Bool) :
    Forest.Rel (fun x y => r x y.1) forest (withShown b views) := by
  induction rel generalizing b with
  | nil => exact .nil
  | cons here _ _ below behind => exact .cons here (below _) (behind _)

theorem withShown_visible (b : Bool) (forest : ChildList) :
    (withShown b forest).All fun view => view.2 → view.1.isVisible := by
  induction forest generalizing b with
  | nil => trivial
  | cons view children rest ihChildren ihRest =>
    exact ⟨fun shown => (Bool.and_eq_true_iff.1 shown).2, ihChildren _, ihRest b⟩

/-- What holds of a view that is shown may be claimed of it as if it were not. -/
theorem withShown_mono (mono : ∀ x y, r (x, true) y → r (x, false) y)
    (rel : Forest.Rel r (withShown true forest) forest') (b : Bool) :
    Forest.Rel r (withShown b forest) forest' := by
  have lower (shown other : Bool) (x y : PServerView) (related : r (x, shown) y) :
      r (x, other && shown) y := by
    cases shown with
    | false => rwa [Bool.and_false]
    | true =>
      cases other with
      | false => exact mono x y related
      | true => exact related
  have general (a : Bool) {forest' : ChildList} (rel : Forest.Rel r (withShown a forest) forest') :
      Forest.Rel r (withShown (b && a) forest) forest' := by
    clear * - rel lower
    induction forest generalizing a forest' with
    | nil => exact rel
    | cons view children rest ihChildren ihRest =>
      cases rel with
      | cons here below behind =>
        have same : (b && a && view.isVisible) = (b && (a && view.isVisible)) := Bool.and_assoc _ _ _
        rw [withShown, same]
        exact .cons (lower _ b _ _ here) (ihChildren _ below) (ihRest a behind)
  have result := general true rel
  rwa [Bool.and_true] at result

theorem plugFirst_withShown (same : ∀ x b, r (x, b) x) (mono : ∀ x y, r (x, true) y → r (x, false) y)
    {focus : Forest.Focus PServerView}
    (found : forest.focus? PServerView.handle handle parent = some focus) {result : ChildList}
    (rel : Forest.Rel r (withShown true (.tree focus.node focus.children)) result) (b : Bool) :
    Forest.Rel r (withShown b forest) (Forest.plugFirst focus result) := by
  have refl (forest : ChildList) (b : Bool) : Forest.Rel r (withShown b forest) forest :=
    withShown_rel (.refl (r := Eq) (fun _ => rfl) forest) (fun x b _ equal => equal ▸ same x b) b
  obtain ⟨node, children, rfl⟩ : ∃ node children, result = .tree node children := by
    cases rel with
    | cons _ _ behind =>
      cases behind
      exact ⟨_, _, rfl⟩
  show Forest.Rel r _ (focus.plug node children)
  induction forest generalizing parent focus b with
  | nil => cases found
  | cons view below rest ihChildren ihRest =>
    rw [Forest.focus?] at found
    split at found
    · obtain rfl := some.inj found
      cases withShown_mono mono rel b with
      | cons here below' _ => exact .cons here below' (refl rest b)
    · split at found
      · rename_i focus' inChildren
        obtain rfl := some.inj found
        exact .cons (same _ _) (ihChildren inChildren _ rel) (refl rest b)
      · split at found
        · rename_i focus' inRest
          obtain rfl := some.inj found
          exact .cons (same _ _) (refl below _) (ihRest inRest b rel)
        · cases found

/-! ## `Show` -/

theorem showAll_grows (doShow : Bool) (forest : ChildList) :
    Forest.Rel Grows forest (showAll doShow forest).1 := by
  induction forest generalizing doShow with
  | nil => exact .nil
  | cons view children rest ihChildren ihRest =>
    have counted (count : Nat) : Grows view { view with hideCount := count } :=
      ⟨rfl, rfl, rfl, (Grows.refl view).damage⟩
    rw [showAll]
    generalize (if doShow = true then view.hideCount - 1 else view.hideCount + 1) = count
    dsimp only
    split
    · exact .cons (counted _) (.refl .refl children) (ihRest doShow)
    · have below := ihChildren ({ view with hideCount := count } : PServerView).isVisible
      generalize showAll ({ view with hideCount := count } : PServerView).isVisible children = changed at below
      have damaged := invalidateAll_stays (.tree { view with hideCount := count } changed.1)
      generalize invalidateAll (.tree { view with hideCount := count } changed.1) = result at damaged
      cases damaged with
      | cons here inside _ =>
        exact .cons ((counted count).trans here.toGrows)
          (below.comp inside fun _ _ _ first second => first.trans second.toGrows) (ihRest doShow)

theorem showView_grows {doShow : Bool}
    (shows : showView forest handle doShow = some forest') : Forest.Rel Grows forest forest' := by
  unfold showView at shows
  split at shows
  · cases shows
  · rename_i focus found
    split at shows
    · cases shows
    · have shown := showAll_grows doShow (.tree focus.node focus.children)
      generalize showAll doShow (.tree focus.node focus.children) = result at shown shows
      obtain rfl := some.inj shows
      have plugged := Forest.plugFirst_rel .refl found shown
      exact plugged.comp (markShown_stays _ result.2) fun _ _ _ first second => first.trans second.toGrows

/-! ## What `UpdateRegions` does to a view -/

/-- The view stays what it is; its damage is recorded as before where it is shown, and is gone
where it is not and its regions were deleted. -/
structure Settles (view : PServerView × Bool) (view' : PServerView) : Prop where
  handle : view'.handle = view.1.handle
  active : view'.activeDamageReg = view.1.activeDamageReg ∨ view'.activeDamageReg = none
  shown : view.2 → Stays view.1 view'

theorem Settles.of_stays (stays : Stays view view') (b : Bool) : Settles (view, b) view' :=
  ⟨stays.handle, .inl stays.active, fun _ => stays⟩

theorem Settles.trans (settles : Settles (view, b) view') (stays : Stays view' view'') :
    Settles (view, b) view'' where
  handle := stays.handle.trans settles.handle
  active := by
    rw [stays.active]
    exact settles.active
  shown := fun shown => (settles.shown shown).trans stays

theorem settles_comp {forest'' : ChildList}
    (first : Forest.Rel Settles (withShown b forest) forest') (second : Forest.Rel Stays forest' forest'') :
    Forest.Rel Settles (withShown b forest) forest'' :=
  first.comp second fun _ _ _ => Settles.trans

theorem deleteRegions_settles (forest : ChildList) :
    Forest.Rel Settles (withShown false forest) (forest.map deleteRegions) := by
  induction forest with
  | nil => exact .nil
  | cons view children rest ihChildren ihRest =>
    exact .cons ⟨rfl, .inr rfl, fun shown => by cases shown⟩ ihChildren ihRest

theorem rebuildRegion_settles (parent : Option PServerView) (forest : ChildList) (b : Bool) :
    Forest.Rel Settles (withShown b forest) (rebuildRegion order parent forest) := by
  induction forest generalizing parent b with
  | nil => exact .nil
  | cons view children rest ihChildren ihRest =>
    rw [rebuildRegion]
    split
    · rename_i hidden
      have notShown : (b && view.isVisible) = false := by
        have notVisible : view.isVisible = false := by
          unfold isVisible
          rw [beq_eq_false_iff_ne]
          omega
        rw [notVisible, Bool.and_false]
      rw [withShown, notShown]
      split
      · exact .cons ⟨rfl, .inr rfl, fun shown => by cases shown⟩
          (deleteRegions_settles children) (ihRest parent b)
      · exact .cons (.of_stays (.refl view) _)
          (withShown_rel (.refl .refl children) (fun _ b _ stays => .of_stays stays b) false) (ihRest parent b)
    · refine .cons ?_ (ihChildren _ _) (ihRest parent b)
      split
      · exact .of_stays (rebuilt_stays view parent children rest) _
      · exact .of_stays (.refl view) _

theorem settleRegions_settles (parent : Option PServerView) (view : PServerView)
    (children above : ChildList) : Forest.Rel Settles (withShown true (.tree view children))
      (settleRegions order parent view children above) := by
  have rebuilt : Forest.Rel Settles (withShown true (.cons view children above))
      (rebuildRegion order parent (.cons view children above)) := rebuildRegion_settles parent _ true
  unfold settleRegions
  generalize rebuildRegion order parent (.cons view children above) = result at rebuilt
  cases rebuilt with
  | cons here below _ =>
    have first : Forest.Rel Settles (withShown true (.tree view children)) (.tree _ _) :=
      .cons here below .nil
    exact settles_comp (settles_comp first (moveChilds_stays parent _)) (invalidateNewAreas_stays _)

/-! ## `RequestPaintIfNeeded` -/

/-- A view that is shown hands its damage over where no other damage is being painted. -/
structure Requests (order : StdSort) (delivered : Nat → Bool) (view : PServerView × Bool)
    (result : PServerView × Bool) : Prop where
  handle : result.1.handle = view.1.handle
  effect : (result.2 = false ∧ result.1.activeDamageReg = view.1.activeDamageReg ∧
      result.1.damageReg = view.1.damageReg) ∨
    ∃ damageReg, view.2 ∧ view.1.damageReg = some damageReg ∧ view.1.activeDamageReg = none ∧
      result.1.activeDamageReg = some (optimize order damageReg) ∧ result.2 = view.1.paint delivered

theorem requestPaint_requests (view : PServerView) :
    Requests order delivered (view, true) (view.requestPaint order delivered) := by
  unfold requestPaint
  cases damage : view.damageReg with
  | none => exact ⟨rfl, .inl ⟨rfl, rfl, rfl⟩⟩
  | some damageReg =>
    cases active : view.activeDamageReg with
    | some _ => exact ⟨rfl, .inl ⟨rfl, rfl, rfl⟩⟩
    | none => exact ⟨rfl, .inr ⟨damageReg, rfl, damage, active, rfl, rfl⟩⟩

theorem requestPaintIfNeeded_requests (forest : ChildList) :
    Forest.Rel (Requests order delivered) (withShown true forest)
      (requestPaintIfNeeded order delivered forest) := by
  have skip (view : PServerView) (b : Bool) : Requests order delivered (view, b) (view, false) :=
    ⟨rfl, .inl ⟨rfl, rfl, rfl⟩⟩
  induction forest with
  | nil => exact .nil
  | cons view children rest ihChildren ihRest =>
    rw [requestPaintIfNeeded, withShown, Bool.true_and]
    by_cases hidden : view.hideCount > 0
    · have notVisible : view.isVisible = false := by
        unfold isVisible
        rw [beq_eq_false_iff_ne]
        omega
      rw [if_pos hidden, notVisible]
      have same : Forest.Rel (fun x y => (x, false) = y) children
          (children.map fun child => (child, false)) := .map (fun child => (child, false)) (fun _ => rfl) children
      refine .cons (skip view _) (withShown_rel same ?_ false) ihRest
      intro x b y equal
      rw [← equal]
      exact skip x b
    · have isVisible : view.isVisible = true := by
        unfold PServerView.isVisible
        rw [beq_iff_eq]
        omega
      rw [if_neg hidden, isVisible]
      exact .cons (requestPaint_requests view) ihChildren ihRest

/-! ## From the tree to the messages -/

/-- A view as `UpdateRegions` has it when it requests the painting: the top view's damage has
been painted by the server. -/
structure Prepared (topView : Nat) (view : PServerView × Bool) (view' : PServerView) : Prop where
  handle : view'.handle = view.1.handle
  active : view'.activeDamageReg = view.1.activeDamageReg ∨ view'.activeDamageReg = none
  kept : view.2 → view'.activeDamageReg = view.1.activeDamageReg
  damage : view.2 → view.1.handle ≠ topView → ∀ damageReg, view.1.damageReg = some damageReg →
    ∃ damageReg', view'.damageReg = some damageReg' ∧
      covered damageReg ∩ (PIRect.ofPRect view.1.getNormalizedBounds).points ⊆ covered damageReg'

theorem Settles.prepared (settles : Settles (view, b) view') (topView : Nat) :
    Prepared topView (view, b) view' :=
  ⟨settles.handle, settles.active, fun shown => (settles.shown shown).active,
    fun shown _ => (settles.shown shown).damage⟩

theorem flushTopView_prepared {topView : Nat}
    (settles : Forest.Rel Settles (withShown b forest) forest') :
    Forest.Rel (Prepared topView) (withShown b forest) (flushTopView topView forest') := by
  have prepared : Forest.Rel (Prepared topView) (withShown b forest) forest' :=
    settles.imp fun x _ settles => settles.prepared topView
  generalize withShown b forest = views at prepared
  cases prepared with
  | nil => exact .nil
  | cons here below behind =>
    refine .cons ?_ below behind
    split
    · rename_i isTop
      refine ⟨here.handle, here.active, here.kept, ?_⟩
      intro _ notTop
      exact absurd (here.handle.symm.trans isTop) notTop
    · exact here

end PServerView

end PadOS.Gui
