import PadOS.Core.Stacking
import PadOS.Gui.RegionOptimize
import Mathlib.Algebra.Order.Ring.Rat

/-! # Views and their regions

The views of the application server form a tree. `RebuildRegion` gives each view that is marked
the part of its parent's full region inside its own frame and shape, without what its higher
siblings take; what is left of that once its children have taken theirs is its visible region.
Frames and offsets are finite floats, so they are rational numbers here; what a sum of two is
rounded to is a parameter.
-/

namespace PadOS.Gui

open Rectangle PRegion

structure PPoint where
  x : Rat
  y : Rat
  deriving DecidableEq

abbrev PRect := Rectangle Rat

/-- The conversion to `int`, which cuts off the fraction. -/
def toInt (value : Rat) : Int := value.num.tdiv value.den

def PIPoint.ofPPoint (point : PPoint) : PIPoint := ⟨toInt point.x, toInt point.y⟩

def PIPoint.add (point offset : PIPoint) : PIPoint := ⟨point.x + offset.x, point.y + offset.y⟩

def PIPoint.neg (point : PIPoint) : PIPoint := ⟨-point.x, -point.y⟩

def PPoint.add (round : Rat → Rat) (point offset : PPoint) : PPoint :=
  ⟨round (point.x + offset.x), round (point.y + offset.y)⟩

def PRect.topLeft (rect : PRect) : PPoint := ⟨rect.left, rect.top⟩

def PRect.bounds (rect : PRect) : PRect := ⟨0, 0, rect.right - rect.left, rect.bottom - rect.top⟩

namespace PIRect

def ofPRect (rect : PRect) : PIRect := ⟨toInt rect.left, toInt rect.top, toInt rect.right, toInt rect.bottom⟩

def topLeft (rect : PIRect) : PIPoint := ⟨rect.left, rect.top⟩

def bounds (rect : PIRect) : PIRect := ⟨0, 0, rect.right - rect.left, rect.bottom - rect.top⟩

def doIntersect (rect other : PIRect) : Bool :=
  !(decide (other.right ≤ rect.left) || decide (other.left ≥ rect.right) ||
    decide (other.bottom ≤ rect.top) || decide (other.top ≥ rect.bottom))

end PIRect

namespace PViewFlags

def FullUpdateOnResizeH : Nat := 0x0001

def FullUpdateOnResizeV : Nat := 0x0002

def Transparent : Nat := 0x0010

def DrawOnChildren : Nat := 0x0040

end PViewFlags

/-- What a view keeps besides its children. A region that is `nullptr` is `none`. -/
structure PServerView where
  handle : Nat
  frame : PRect
  scrollOffset : PPoint
  flags : Nat
  hideCount : Nat
  clientHandle : Option Nat
  shapeConstrainReg : Option (List PIRect)
  visibleReg : Option (List PIRect)
  fullReg : Option (List PIRect)
  prevVisibleReg : Option (List PIRect)
  prevFullReg : Option (List PIRect)
  damageReg : Option (List PIRect)
  activeDamageReg : Option (List PIRect)
  deltaMove : PIPoint
  deltaSize : PIPoint
  hasInvalidRegs : Bool
  isUpdating : Bool
  deriving DecidableEq

/-- The children of a view from the lowest one to the highest one. -/
abbrev ChildList := Forest PServerView

namespace PServerView

section

variable (view : PServerView)

def hasFlags (flags : Nat) : Bool := view.flags &&& flags != 0

def isVisible : Bool := view.hideCount == 0

def getIFrame : PIRect := .ofPRect view.frame

def getITopLeft : PIPoint := .ofPPoint (PRect.topLeft view.frame)

def getNormalizedBounds : PRect := PRect.bounds view.frame

end

/-- A view as its constructor leaves it. -/
def new (handle : Nat) (frame : PRect) (scrollOffset : PPoint) (flags hideCount : Nat)
    (clientHandle : Option Nat) : PServerView where
  handle := handle
  frame := frame
  scrollOffset := scrollOffset
  flags := flags
  hideCount := hideCount
  clientHandle := clientHandle
  shapeConstrainReg := none
  visibleReg := none
  fullReg := none
  prevVisibleReg := none
  prevFullReg := none
  damageReg := none
  activeDamageReg := none
  deltaMove := ⟨0, 0⟩
  deltaSize := ⟨0, 0⟩
  hasInvalidRegs := true
  isUpdating := false

/-! ## `RebuildRegion` -/

/-- The views of a list take their places out of a region, one after the other. -/
def excludeFromRegion : ChildList → PIPoint → List PIRect → List PIRect × Bool
  | .nil, _, region => (region, false)
  | .cons view children above, offset, region =>
    let here :=
      if view.hideCount = 0 then
        if view.hasFlags PViewFlags.Transparent then
          excludeFromRegion children
            ((offset.add view.getITopLeft).add (.ofPPoint view.scrollOffset)) region
        else
          match view.shapeConstrainReg with
          | none => (exclude region (PIRect.add view.getIFrame offset), true)
          | some shape => (excludeOffset region shape (view.getITopLeft.add offset), true)
      else (region, false)
    let rest := excludeFromRegion above offset here.1
    (rest.1, here.2 || rest.2)

/-- The loop over the siblings above a view. -/
def excludeSiblings (intFrame : PIRect) : ChildList → List PIRect → List PIRect
  | .nil, region => region
  | .cons sibling children above, region =>
    if sibling.hideCount = 0 && PIRect.doIntersect sibling.getIFrame intFrame then
      excludeSiblings intFrame above
        (excludeFromRegion (.tree sibling children) (PIRect.topLeft intFrame).neg region).1
    else excludeSiblings intFrame above region

def rebuiltFullReg (order : StdSort) (view : PServerView) (parent : Option PServerView)
    (above : ChildList) : List PIRect :=
  match parent with
  | none => [view.getIFrame]
  | some parent =>
    let intFrame := view.getIFrame
    let clipped :=
      match parent.fullReg with
      | none => [PIRect.bounds intFrame]
      | some fullReg => clipTo fullReg (PIRect.add intFrame (.ofPPoint parent.scrollOffset)) true
    let shaped :=
      match view.shapeConstrainReg with
      | none => clipped
      | some shape => intersect clipped shape
    optimize order (excludeSiblings intFrame above shaped)

def rebuiltVisibleReg (order : StdSort) (view : PServerView) (fullReg : List PIRect)
    (children : ChildList) : List PIRect :=
  if view.hasFlags PViewFlags.DrawOnChildren then fullReg
  else
    match excludeFromRegion children (.ofPPoint view.scrollOffset) fullReg with
    | (visibleReg, regModified) => if regModified then optimize order visibleReg else visibleReg

def rebuilt (order : StdSort) (view : PServerView) (parent : Option PServerView)
    (children above : ChildList) : PServerView :=
  let fullReg := view.rebuiltFullReg order parent above
  { view with
    prevVisibleReg := view.visibleReg
    prevFullReg := view.fullReg
    fullReg := some fullReg
    visibleReg := some (view.rebuiltVisibleReg order fullReg children) }

def deleteRegions (view : PServerView) : PServerView :=
  { view with visibleReg := none, fullReg := none, damageReg := none, activeDamageReg := none }

/-- `RebuildRegion` for each view of a list. -/
def rebuildRegion (order : StdSort) (parent : Option PServerView) : ChildList → ChildList
  | .nil => .nil
  | .cons view children above =>
    if view.hideCount > 0 then
      if view.visibleReg.isSome then
        .cons view.deleteRegions (children.map deleteRegions) (rebuildRegion order parent above)
      else .cons view children (rebuildRegion order parent above)
    else
      let view := if view.hasInvalidRegs then view.rebuilt order parent children above else view
      .cons view (rebuildRegion order (some view) children) (rebuildRegion order parent above)

def setDirtyRegFlags (view : PServerView) : PServerView := { view with hasInvalidRegs := true }

end PServerView

/-- `m_ScreenPos`; `base` is where the contents of the parent start. -/
def PServerView.screenPos (round : Rat → Rat) (base : Option PPoint) (view : PServerView) : PPoint :=
  match base with
  | none => PRect.topLeft view.frame
  | some base => base.add round (PRect.topLeft view.frame)

/-- What each view that is shown, and whose parents are shown, has to itself on the screen. -/
def regionsOnScreen (round : Rat → Rat) (base : Option PPoint) : ChildList → List (PServerView × Set (Int × Int))
  | .nil => []
  | .cons view children above =>
    let screenPos := view.screenPos round base
    if view.isVisible then
      (view, PRegion.translate (covered (view.visibleReg.getD [])) (.ofPPoint screenPos)) ::
        (regionsOnScreen round (some (screenPos.add round view.scrollOffset)) children ++
          regionsOnScreen round base above)
    else regionsOnScreen round base above

end PadOS.Gui
