import Mathlib.Data.List.Pairwise

/-!
# Ranges laid one behind the other

An extent is a half-open range of positions. Extents tile a range when each of them begins where the
one before it ends.
-/

namespace PadOS.Tiling

structure Extent where
  offset : Nat
  size : Nat
  deriving DecidableEq, Repr

namespace Extent

def finish (e : Extent) : Nat := e.offset + e.size

/-- A position inside of the extent. -/
def Has (e : Extent) (position : Nat) : Prop := e.offset ≤ position ∧ position < e.finish

instance (e : Extent) (position : Nat) : Decidable (e.Has position) :=
  inferInstanceAs (Decidable (_ ∧ _))

def Disjoint (e other : Extent) : Prop := ∀ position, ¬(e.Has position ∧ other.Has position)

theorem disjoint_of_finish_le {e other : Extent} (behind : e.finish ≤ other.offset) :
    e.Disjoint other := by
  rintro position ⟨⟨-, below⟩, above, -⟩
  omega

end Extent

open Extent

/-- The extents fill the range from `start` to `finish`, one behind the other. -/
def Tiles : Nat → List Extent → Nat → Prop
  | start, [], finish => start = finish
  | start, e :: rest, finish => e.offset = start ∧ Tiles e.finish rest finish

variable {start middle finish size count : Nat} {e : Extent} {first second extents : List Extent}

@[simp] theorem tiles_nil : Tiles start [] finish ↔ start = finish := Iff.rfl

@[simp] theorem tiles_cons :
    Tiles start (e :: extents) finish ↔ e.offset = start ∧ Tiles e.finish extents finish := Iff.rfl

theorem Tiles.append (fills : Tiles start first middle) (continues : Tiles middle second finish) :
    Tiles start (first ++ second) finish := by
  induction first generalizing start with
  | nil =>
    rw [tiles_nil] at fills
    rw [fills]
    exact continues
  | cons e rest ih => exact ⟨fills.1, ih fills.2⟩

section

variable (fills : Tiles start extents finish)

include fills

theorem Tiles.le : start ≤ finish := by
  induction extents generalizing start with
  | nil => exact Nat.le_of_eq fills
  | cons e rest ih =>
    have behind := ih fills.2
    rw [← fills.1]
    exact Nat.le_trans (Nat.le_add_right _ _) behind

theorem Tiles.within :
    ∀ e ∈ extents, start ≤ e.offset ∧ e.finish ≤ finish := by
  induction extents generalizing start with
  | nil => simp
  | cons first rest ih =>
    rcases fills with ⟨rfl, fills⟩
    intro e isOne
    rcases List.mem_cons.mp isOne with rfl | isOne
    · exact ⟨Nat.le_refl _, fills.le⟩
    · have inside := ih fills e isOne
      exact ⟨Nat.le_trans (Nat.le_add_right _ _) inside.1, inside.2⟩

theorem Tiles.pairwise :
    extents.Pairwise fun e other => e.finish ≤ other.offset := by
  induction extents generalizing start with
  | nil => exact .nil
  | cons first rest ih =>
    exact .cons (fun e isOne => (fills.2.within e isOne).1) (ih fills.2)

theorem Tiles.disjoint : extents.Pairwise Extent.Disjoint :=
  fills.pairwise.imp disjoint_of_finish_le

end

theorem tiles_range (start size count : Nat) :
    Tiles start ((List.range count).map fun i => ⟨start + i * size, size⟩)
      (start + size * count) := by
  induction count with
  | zero => simp
  | succ count ih =>
    rw [List.range_succ, List.map_append]
    refine ih.append ⟨?_, ?_⟩
    · rw [Nat.mul_comm]
    · show start + count * size + size = start + size * (count + 1)
      rw [Nat.mul_comm, Nat.mul_succ, Nat.add_assoc]

end PadOS.Tiling
