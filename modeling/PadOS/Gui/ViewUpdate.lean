import PadOS.Gui.ServerView

/-! # Changes to the views of a tree

What the operations on views do to the tree: they change hide counts, mark the views whose
regions have to be rebuilt, and record the areas that have to be painted. `UpdateRegions`
rebuilds the marked views, records what they have gained, and requests the painting.
-/

namespace PadOS.Gui

open Rectangle PRegion

namespace PServerView

/-! ## Marks -/

def markDirty (forest : ChildList) : ChildList := forest.map setDirtyRegFlags

def hasHandle (handle : Nat) (forest : ChildList) : Bool :=
  forest.toList.any fun view => view.handle == handle

/-- A view that is not transparent lies above the named one, somewhere in the forest. -/
def hasOpaqueAbove (handle : Nat) : ChildList → Bool
  | .nil => false
  | .cons view children rest =>
    (hasHandle handle children &&
      (!view.hasFlags PViewFlags.Transparent || hasOpaqueAbove handle children)) ||
      hasOpaqueAbove handle rest

/-- `SetDirtyRegFlags` of the nearest parent of a view that is not transparent. -/
def markOpaqueParent (handle : Nat) : ChildList → ChildList
  | .nil => .nil
  | .cons view children rest =>
    if hasHandle handle children then
      if hasOpaqueAbove handle children then .cons view (markOpaqueParent handle children) rest
      else if view.hasFlags PViewFlags.Transparent then .cons view children rest
      else .cons view.setDirtyRegFlags (markDirty children) rest
    else .cons view children (markOpaqueParent handle rest)

def rectDoIntersect (rect : PRect) (other : PIRect) : Bool :=
  !(decide (((other.right : Int) : Rat) ≤ rect.left) || decide (((other.left : Int) : Rat) ≥ rect.right) ||
    decide (((other.bottom : Int) : Rat) ≤ rect.top) || decide (((other.top : Int) : Rat) ≥ rect.bottom))

/-- `MarkModified` for each view of a list, with the rectangle in the coordinates they are in. -/
def markModified (rect : PIRect) : ChildList → ChildList
  | .nil => .nil
  | .cons view children rest =>
    let inView := PIRect.add rect view.getITopLeft.neg
    if rectDoIntersect view.getNormalizedBounds inView then
      .cons view.setDirtyRegFlags
        (markModified (PIRect.add inView (PIPoint.ofPPoint view.scrollOffset).neg) children)
        (markModified rect rest)
    else .cons view children (markModified rect rest)

/-- The loop over the siblings in `Show`, which passes the view itself as well. -/
def markSiblings (intFrame : PIRect) : ChildList → ChildList
  | .nil => .nil
  | .cons sibling children rest =>
    if PIRect.doIntersect sibling.getIFrame intFrame then
      match markModified intFrame (.tree sibling children) with
      | .cons sibling children _ => .cons sibling children (markSiblings intFrame rest)
      | .nil => .nil
    else .cons sibling children (markSiblings intFrame rest)

def childNamed (handle : Nat) : ChildList → Option PServerView
  | .nil => none
  | .cons view _ rest => if view.handle = handle then some view else childNamed handle rest

/-- The loop over the siblings, in the list that the named view is in. -/
def markSiblingsOf (handle : Nat) : ChildList → ChildList
  | .nil => .nil
  | .cons view children rest =>
    match childNamed handle children with
    | some child => .cons view (markSiblings child.getIFrame children) rest
    | none => .cons view (markSiblingsOf handle children) (markSiblingsOf handle rest)

/-! ## `Invalidate` and `Show` -/

variable (view : PServerView)

def invalidate (rect : PIRect) : PServerView :=
  if view.hideCount = 0 then
    match view.damageReg with
    | none => { view with damageReg := some [rect] }
    | some damageReg => { view with damageReg := some (includeRect damageReg rect) }
  else view

/-- `Invalidate(reqursive)` without the children. -/
def invalidateBounds : PServerView :=
  if view.hideCount = 0 then { view with damageReg := some [.ofPRect view.getNormalizedBounds] } else view

/-- `Invalidate(true)` for each view of a list. -/
def invalidateAll : ChildList → ChildList
  | .nil => .nil
  | .cons view children rest =>
    if view.hideCount = 0 then .cons view.invalidateBounds (invalidateAll children) (invalidateAll rest)
    else .cons view children (invalidateAll rest)

/-- `Show` for each view of a list, without the marks, and the views that became visible or hidden. -/
def showAll (doShow : Bool) : ChildList → ChildList × List Nat
  | .nil => (.nil, [])
  | .cons view children rest =>
    let hideCount := if doShow then view.hideCount - 1 else view.hideCount + 1
    let shown := { view with hideCount := hideCount }
    let after := showAll doShow rest
    if shown.isVisible = view.isVisible then (.cons shown children after.1, after.2)
    else
      let below := showAll shown.isVisible children
      match invalidateAll (.tree shown below.1) with
      | .cons shown children _ => (.cons shown children after.1, view.handle :: (below.2 ++ after.2))
      | .nil => (.nil, [])

def markShown (forest : ChildList) (handle : Nat) : ChildList :=
  markSiblingsOf handle (markOpaqueParent handle forest)

/-- `Show` of a view. Hiding it again and again is counted; it asserts that it was hidden
when it is shown. -/
def showView (forest : ChildList) (handle : Nat) (doShow : Bool) : Option ChildList :=
  match forest.focus? PServerView.handle handle none with
  | none => none
  | some focus =>
    if doShow && focus.node.hideCount == 0 then none
    else
      match showAll doShow (.tree focus.node focus.children) with
      | (shown, changed) => some (changed.foldl markShown (Forest.plugFirst focus shown))

/-! ## `UpdateRegions` -/

/-- `MoveChilds` for each view of a list, without the pixels it moves. -/
def moveChilds (parent : Option PServerView) : ChildList → ChildList
  | .nil => .nil
  | .cons view children rest =>
    if view.hideCount > 0 then .cons view children (moveChilds parent rest)
    else
      let moved :=
        if view.hasInvalidRegs then
          let bounds := PIRect.ofPRect view.getNormalizedBounds
          let edges :=
            match parent with
            | none => view
            | some parent =>
              if view.deltaMove = PIPoint.mk 0 0 then view
              else
                let right : PIRect :=
                  { bounds with left := bounds.right + (parent.deltaSize.x +
                      parent.getIFrame.right - parent.getIFrame.left - view.getIFrame.right) }
                let bottom : PIRect :=
                  { bounds with top := bounds.bottom + (parent.deltaSize.y +
                      parent.getIFrame.bottom - parent.getIFrame.top - view.getIFrame.bottom) }
                let view := if parent.deltaSize.x < 0 ∧ right.IsValid then view.invalidate right else view
                if parent.deltaSize.y < 0 ∧ bottom.IsValid then view.invalidate bottom else view
          { edges with prevFullReg := none }
        else view
      .cons moved (moveChilds (some view) children) (moveChilds parent rest)

/-- What `InvalidateNewAreas` does to a view that is shown. -/
def invalidateNewArea : PServerView :=
  if view.hasInvalidRegs then
    let damaged :=
      if (view.hasFlags PViewFlags.FullUpdateOnResizeH && view.deltaSize.x != 0) ||
          (view.hasFlags PViewFlags.FullUpdateOnResizeV && view.deltaSize.y != 0) then
        view.invalidateBounds
      else
        match view.visibleReg with
        | none => view
        | some visibleReg =>
          let region := excludeRegion visibleReg (view.prevVisibleReg.getD [])
          match view.damageReg with
          | none => if region.isEmpty then view else { view with damageReg := some region }
          | some _ => region.foldl invalidate view
    { damaged with prevVisibleReg := none, deltaSize := ⟨0, 0⟩, deltaMove := ⟨0, 0⟩ }
  else view

def invalidateNewAreas : ChildList → ChildList
  | .nil => .nil
  | .cons view children rest =>
    if view.hideCount > 0 then .cons view children (invalidateNewAreas rest)
    else .cons view.invalidateNewArea (invalidateNewAreas children) (invalidateNewAreas rest)

/-- Whether `Paint` posts the message and the client's port takes it. -/
def paint (delivered : Nat → Bool) : Bool :=
  !(view.hideCount > 0 || view.isUpdating || view.clientHandle.isNone) && delivered view.handle

/-- What `RequestPaintIfNeeded` does to a view that is shown, and whether a message is posted. -/
def requestPaint (order : StdSort) (delivered : Nat → Bool) (view : PServerView) : PServerView × Bool :=
  match view.damageReg, view.activeDamageReg with
  | some damageReg, none =>
    let requested := { view with activeDamageReg := some (optimize order damageReg), damageReg := none }
    (requested, requested.paint delivered)
  | _, _ => (view, false)

def requestPaintIfNeeded (order : StdSort) (delivered : Nat → Bool) :
    ChildList → Forest (PServerView × Bool)
  | .nil => .nil
  | .cons view children rest =>
    if view.hideCount > 0 then
      .cons (view, false) (children.map fun child => (child, false)) (requestPaintIfNeeded order delivered rest)
    else
      .cons (view.requestPaint order delivered) (requestPaintIfNeeded order delivered children)
        (requestPaintIfNeeded order delivered rest)

def clearDirtyRegFlags : PServerView := { view with hasInvalidRegs := false }

/-- A list whose first view is replaced, with its children. -/
def replaceFirst (forest rest : ChildList) : ChildList :=
  match forest with
  | .nil => .nil
  | .cons view children _ => .cons view children rest

/-- The part of `UpdateRegions` before `FlushPendingDamage`, for the first view of a list. -/
def settleRegions (order : StdSort) (parent : Option PServerView) (view : PServerView)
    (children above : ChildList) : ChildList :=
  invalidateNewAreas (moveChilds parent
    (replaceFirst (rebuildRegion order parent (.cons view children above)) .nil))

/-- `FlushPendingDamage`: the top view is filled by the server itself. -/
def flushTopView (topView : Nat) : ChildList → ChildList
  | .nil => .nil
  | .cons view children rest =>
    .cons (if view.handle = topView then { view with damageReg := none } else view) children rest

/-! ## `BeginUpdate` and `EndUpdate` -/

def beginUpdate : PServerView :=
  if view.visibleReg.isSome then { view with isUpdating := true } else view

/-- `EndUpdate`, and whether it posts a message. -/
def endUpdate (delivered : Nat → Bool) : PServerView × Bool :=
  let ended := { view with activeDamageReg := none, isUpdating := false }
  match view.damageReg with
  | none => (ended, false)
  | some damageReg =>
    let requested := { ended with activeDamageReg := some damageReg, damageReg := none }
    (requested, requested.paint delivered)

/-! ## Views that are shown -/

/-- Each view, and whether it and all its parents are shown. -/
def withShown (parentShown : Bool) : ChildList → Forest (PServerView × Bool)
  | .nil => .nil
  | .cons view children rest =>
    let shown := parentShown && view.isVisible
    .cons (view, shown) (withShown shown children) (withShown parentShown rest)

end PServerView

end PadOS.Gui
