import Mathlib.Data.Set.Lattice
import Mathlib.Order.CompletePartialOrder
import Mathlib.Order.MinMax
import Mathlib.Tactic.Tauto

/-! # Half-open rectangles

Rectangles over a linear order, the points they contain, and lists of rectangles that
tile the set of points they cover. Taking one rectangle out of another leaves up to four.
-/

namespace PadOS

open List

@[ext]
structure Rectangle (α : Type*) where
  left : α
  top : α
  right : α
  bottom : α
  deriving DecidableEq

namespace Rectangle

variable {α : Type*} [LinearOrder α] {r s hide old : Rectangle α} {p : α × α}

def IsValid (r : Rectangle α) : Prop := r.left < r.right ∧ r.top < r.bottom

instance (r : Rectangle α) : Decidable r.IsValid := inferInstanceAs (Decidable (_ ∧ _))

def inter (r s : Rectangle α) : Rectangle α where
  left := max r.left s.left
  top := max r.top s.top
  right := min r.right s.right
  bottom := min r.bottom s.bottom

/-- The points of a rectangle; its right and bottom edges do not belong to it. -/
def points (r : Rectangle α) : Set (α × α) :=
  {p | (r.left ≤ p.1 ∧ p.1 < r.right) ∧ r.top ≤ p.2 ∧ p.2 < r.bottom}

theorem mem_points : p ∈ r.points ↔ (r.left ≤ p.1 ∧ p.1 < r.right) ∧ r.top ≤ p.2 ∧ p.2 < r.bottom :=
  Iff.rfl

theorem points_inter : (r.inter s).points = r.points ∩ s.points := by
  ext p
  simp only [mem_points, inter, Set.mem_inter_iff, max_le_iff, lt_min_iff]
  tauto

theorem isValid_of_mem (inside : p ∈ r.points) : r.IsValid :=
  ⟨lt_of_le_of_lt inside.1.1 inside.1.2, lt_of_le_of_lt inside.2.1 inside.2.2⟩

theorem points_eq_empty (invalid : ¬r.IsValid) : r.points = ∅ := by
  rw [Set.eq_empty_iff_forall_notMem]
  intro p inside
  exact invalid (isValid_of_mem inside)

/-! ## What is left of a rectangle around a part of it -/

/-- `hide` lies inside `old`. -/
structure Within (hide old : Rectangle α) : Prop where
  left : old.left ≤ hide.left
  top : old.top ≤ hide.top
  right : hide.right ≤ old.right
  bottom : hide.bottom ≤ old.bottom

theorem inter_within (r s : Rectangle α) : (r.inter s).Within s where
  left := le_max_right _ _
  top := le_max_right _ _
  right := min_le_right _ _
  bottom := min_le_right _ _

/-- Left and right of the part between its top and bottom, above and below in full width. -/
def around (old hide : Rectangle α) : List (Rectangle α) :=
  (if old.left < hide.left then [⟨old.left, hide.top, hide.left, hide.bottom⟩] else []) ++
  (if hide.right < old.right then [⟨hide.right, hide.top, old.right, hide.bottom⟩] else []) ++
  (if old.top < hide.top then [⟨old.left, old.top, old.right, hide.top⟩] else []) ++
  (if hide.bottom < old.bottom then [⟨old.left, hide.bottom, old.right, old.bottom⟩] else [])

theorem mem_around : r ∈ old.around hide ↔
    (old.left < hide.left ∧ r = ⟨old.left, hide.top, hide.left, hide.bottom⟩) ∨
    (hide.right < old.right ∧ r = ⟨hide.right, hide.top, old.right, hide.bottom⟩) ∨
    (old.top < hide.top ∧ r = ⟨old.left, old.top, old.right, hide.top⟩) ∨
    (hide.bottom < old.bottom ∧ r = ⟨old.left, hide.bottom, old.right, old.bottom⟩) := by
  unfold around
  simp only [mem_append, mem_ite_nil_right, mem_singleton]
  tauto

theorem isValid_of_mem_around (within : hide.Within old) (valid : hide.IsValid)
    (member : r ∈ old.around hide) : r.IsValid := by
  have width : old.left < old.right :=
    lt_of_le_of_lt within.left (lt_of_lt_of_le valid.1 within.right)
  rcases mem_around.1 member with ⟨gap, rfl⟩ | ⟨gap, rfl⟩ | ⟨gap, rfl⟩ | ⟨gap, rfl⟩
  · exact ⟨gap, valid.2⟩
  · exact ⟨gap, valid.2⟩
  · exact ⟨width, gap⟩
  · exact ⟨width, gap⟩

theorem exists_mem_around (within : hide.Within old) (valid : hide.IsValid) :
    (∃ r ∈ old.around hide, p ∈ r.points) ↔ p ∈ old.points ∧ p ∉ hide.points := by
  have ⟨left, top, right, bottom⟩ := within
  have ⟨width, height⟩ := valid
  constructor
  · intro ⟨r, member, inside⟩
    rw [mem_points] at inside ⊢
    rw [mem_points]
    rcases mem_around.1 member with ⟨gap, rfl⟩ | ⟨gap, rfl⟩ | ⟨gap, rfl⟩ | ⟨gap, rfl⟩
    · have outside := inside.1.2
      have before : p.1 < old.right := lt_of_lt_of_le outside (le_trans width.le right)
      exact ⟨⟨⟨inside.1.1, before⟩, le_trans top inside.2.1, lt_of_lt_of_le inside.2.2 bottom⟩,
        fun hidden => not_lt_of_ge hidden.1.1 outside⟩
    · have outside := inside.1.1
      have behind : old.left ≤ p.1 := le_trans left (le_trans width.le outside)
      exact ⟨⟨⟨behind, inside.1.2⟩, le_trans top inside.2.1, lt_of_lt_of_le inside.2.2 bottom⟩,
        fun hidden => not_lt_of_ge outside hidden.1.2⟩
    · have outside := inside.2.2
      have before : p.2 < old.bottom := lt_of_lt_of_le outside (le_trans height.le bottom)
      exact ⟨⟨inside.1, inside.2.1, before⟩, fun hidden => not_lt_of_ge hidden.2.1 outside⟩
    · have outside := inside.2.1
      have behind : old.top ≤ p.2 := le_trans top (le_trans height.le outside)
      exact ⟨⟨inside.1, behind, inside.2.2⟩, fun hidden => not_lt_of_ge outside hidden.2.2⟩
  · intro ⟨inside, visible⟩
    rw [mem_points] at inside visible
    by_cases above : p.2 < hide.top
    · exact ⟨_, mem_around.2 (.inr (.inr (.inl ⟨lt_of_le_of_lt inside.2.1 above, rfl⟩))),
        inside.1, inside.2.1, above⟩
    by_cases below : hide.bottom ≤ p.2
    · exact ⟨_, mem_around.2 (.inr (.inr (.inr ⟨lt_of_le_of_lt below inside.2.2, rfl⟩))),
        inside.1, below, inside.2.2⟩
    have row : hide.top ≤ p.2 ∧ p.2 < hide.bottom := ⟨not_lt.1 above, not_le.1 below⟩
    by_cases before : p.1 < hide.left
    · exact ⟨_, mem_around.2 (.inl ⟨lt_of_le_of_lt inside.1.1 before, rfl⟩),
        ⟨inside.1.1, before⟩, row⟩
    · have behind : hide.right ≤ p.1 := by
        by_contra within'
        exact visible ⟨⟨not_lt.1 before, not_le.1 within'⟩, row⟩
      exact ⟨_, mem_around.2 (.inr (.inl ⟨lt_of_le_of_lt behind inside.1.2, rfl⟩)),
        ⟨behind, inside.1.2⟩, row⟩

/-! ## Tilings -/

/-- The points that the rectangles of a list cover. -/
def covered (rects : List (Rectangle α)) : Set (α × α) := {p | ∃ r ∈ rects, p ∈ r.points}

def Apart (r s : Rectangle α) : Prop := Disjoint r.points s.points

/-- Valid rectangles that do not overlap. -/
structure Tiles (rects : List (Rectangle α)) : Prop where
  valid : ∀ r ∈ rects, r.IsValid
  apart : rects.Pairwise Apart

variable {rects rects' : List (Rectangle α)}

theorem mem_covered : p ∈ covered rects ↔ ∃ r ∈ rects, p ∈ r.points := Iff.rfl

theorem Apart.symm (apart : r.Apart s) : s.Apart r := Disjoint.symm apart

theorem Apart.mono {r' s' : Rectangle α} (apart : r.Apart s) (inside : r'.points ⊆ r.points)
    (inside' : s'.points ⊆ s.points) : r'.Apart s' :=
  Set.disjoint_of_subset inside inside' apart

theorem covered_nil : covered ([] : List (Rectangle α)) = ∅ := by
  ext p
  simp [mem_covered]

theorem covered_singleton : covered [r] = r.points := by
  ext p
  simp [mem_covered]

theorem covered_append : covered (rects ++ rects') = covered rects ∪ covered rects' := by
  ext p
  simp only [mem_covered, mem_append, Set.mem_union, or_and_right, exists_or]

theorem covered_perm (perm : rects.Perm rects') : covered rects = covered rects' := by
  ext p
  simp only [mem_covered, perm.mem_iff]

theorem covered_flatMap {β : Type*} (xs : List β) (f : β → List (Rectangle α)) :
    covered (xs.flatMap f) = ⋃ x ∈ xs, covered (f x) := by
  ext p
  simp only [mem_covered, mem_flatMap, Set.mem_iUnion, exists_prop]
  constructor
  · intro ⟨r, ⟨x, member, piece⟩, inside⟩
    exact ⟨x, member, r, piece, inside⟩
  · intro ⟨x, member, r, piece, inside⟩
    exact ⟨r, ⟨x, member, piece⟩, inside⟩

theorem Tiles.nil : Tiles ([] : List (Rectangle α)) := ⟨by simp, .nil⟩

theorem Tiles.singleton (valid : r.IsValid) : Tiles [r] :=
  ⟨by simpa using valid, pairwise_singleton _ _⟩

theorem Tiles.perm (tiles : Tiles rects) (perm : rects.Perm rects') : Tiles rects' :=
  ⟨fun r member => tiles.valid r (perm.mem_iff.2 member),
    (perm.pairwise_iff fun apart => Apart.symm apart).1 tiles.apart⟩

theorem Tiles.append (tiles : Tiles rects) (tiles' : Tiles rects')
    (apart : Disjoint (covered rects) (covered rects')) : Tiles (rects ++ rects') := by
  constructor
  · intro r member
    rcases mem_append.1 member with member | member
    · exact tiles.valid r member
    · exact tiles'.valid r member
  · rw [pairwise_append]
    refine ⟨tiles.apart, tiles'.apart, ?_⟩
    intro r member s member'
    have inside : r.points ⊆ covered rects := fun _ here => ⟨r, member, here⟩
    have inside' : s.points ⊆ covered rects' := fun _ here => ⟨s, member', here⟩
    exact Set.disjoint_of_subset inside inside' apart

theorem Tiles.flatMap (tiles : Tiles rects) {f : Rectangle α → List (Rectangle α)}
    (parts : ∀ r ∈ rects, Tiles (f r)) (inside : ∀ r ∈ rects, covered (f r) ⊆ r.points) :
    Tiles (rects.flatMap f) := by
  constructor
  · intro s member
    rcases mem_flatMap.1 member with ⟨r, member, piece⟩
    exact (parts r member).valid s piece
  · rw [pairwise_flatMap]
    refine ⟨fun r member => (parts r member).apart, ?_⟩
    apply tiles.apart.imp_of_mem
    intro r r' member member' apart s piece s' piece'
    exact apart.mono (fun _ here => inside r member ⟨s, piece, here⟩)
      (fun _ here => inside r' member' ⟨s', piece', here⟩)

theorem covered_around (within : hide.Within old) (valid : hide.IsValid) :
    covered (old.around hide) = old.points \ hide.points := by
  ext p
  exact exists_mem_around within valid

theorem tiles_around (within : hide.Within old) (valid : hide.IsValid) : Tiles (old.around hide) := by
  have ⟨width, height⟩ := valid
  have apart_above (r : Rectangle α) {l l' t : α} (high : t ≤ r.top) :
      r.Apart ⟨l, old.top, l', t⟩ := by
    rw [Apart, Set.disjoint_left]
    intro p inside inside'
    exact not_lt_of_ge (le_trans high inside.2.1) inside'.2.2
  have apart_below (r : Rectangle α) {l l' t : α} (low : r.bottom ≤ t) :
      r.Apart ⟨l, t, l', old.bottom⟩ := by
    rw [Apart, Set.disjoint_left]
    intro p inside inside'
    exact not_lt_of_ge (le_trans low inside'.2.1) inside.2.2
  have apart_sides {t b : α} :
      (⟨old.left, t, hide.left, b⟩ : Rectangle α).Apart ⟨hide.right, t, old.right, b⟩ := by
    rw [Apart, Set.disjoint_left]
    intro p inside inside'
    exact not_lt_of_ge (le_trans width.le inside'.1.1) inside.1.2
  refine ⟨fun r => isValid_of_mem_around within valid, ?_⟩
  unfold around
  simp only [pairwise_append, mem_append, mem_ite_nil_right, mem_singleton]
  refine ⟨⟨⟨?_, ?_, ?_⟩, ?_, ?_⟩, ?_, ?_⟩
  · split <;> simp
  · split <;> simp
  · rintro r ⟨_, rfl⟩ s ⟨_, rfl⟩
    exact apart_sides
  · split <;> simp
  · rintro r (⟨_, rfl⟩ | ⟨_, rfl⟩) s ⟨_, rfl⟩
    · exact apart_above _ le_rfl
    · exact apart_above _ le_rfl
  · split <;> simp
  · rintro r ((⟨_, rfl⟩ | ⟨_, rfl⟩) | ⟨_, rfl⟩) s ⟨_, rfl⟩
    · exact apart_below _ le_rfl
    · exact apart_below _ le_rfl
    · exact apart_below _ height.le

/-- A rectangle without the points of another one. -/
def without (r old : Rectangle α) : List (Rectangle α) :=
  if (r.inter old).IsValid then old.around (r.inter old) else [old]

theorem covered_without : covered (without r old) = old.points \ r.points := by
  have cut : old.points \ (r.points ∩ old.points) = old.points \ r.points := by
    rw [Set.inter_comm, Set.sdiff_self_inter]
  unfold without
  split
  · rename_i valid
    rw [covered_around (inter_within r old) valid, points_inter, cut]
  · rename_i invalid
    rw [covered_singleton, ← cut, ← points_inter, points_eq_empty invalid, Set.sdiff_empty]

theorem tiles_without (valid : old.IsValid) : Tiles (without r old) := by
  unfold without
  split
  · rename_i overlap
    exact tiles_around (inter_within r old) overlap
  · exact Tiles.singleton valid

theorem covered_flatMap_without : covered (rects.flatMap (without r)) = covered rects \ r.points := by
  ext p
  simp only [covered_flatMap, covered_without, Set.mem_iUnion, Set.mem_sdiff, mem_covered, exists_prop]
  constructor
  · intro ⟨old, member, inside, outside⟩
    exact ⟨⟨old, member, inside⟩, outside⟩
  · intro ⟨⟨old, member, inside⟩, outside⟩
    exact ⟨old, member, inside, outside⟩

theorem Tiles.flatMap_without (tiles : Tiles rects) : Tiles (rects.flatMap (without r)) := by
  apply tiles.flatMap
  · exact fun old member => tiles_without (tiles.valid old member)
  · intro old _
    rw [covered_without]
    exact Set.sdiff_subset

/-! ## Overlaps -/

/-- The overlap of two rectangles, where they overlap. -/
def overlap (r s : Rectangle α) : List (Rectangle α) :=
  if (r.inter s).IsValid then [r.inter s] else []

theorem covered_overlap : covered (overlap r s) = r.points ∩ s.points := by
  unfold overlap
  split
  · rw [covered_singleton, points_inter]
  · rename_i invalid
    rw [covered_nil, ← points_inter, points_eq_empty invalid]

theorem tiles_overlap : Tiles (overlap r s) := by
  unfold overlap
  split
  · rename_i valid
    exact .singleton valid
  · exact .nil

theorem covered_flatMap_overlap : covered (rects.flatMap (overlap r)) = r.points ∩ covered rects := by
  ext p
  simp only [covered_flatMap, covered_overlap, Set.mem_iUnion, Set.mem_inter_iff, mem_covered, exists_prop]
  constructor
  · intro ⟨s, member, inside, inside'⟩
    exact ⟨inside, s, member, inside'⟩
  · intro ⟨inside, s, member, inside'⟩
    exact ⟨s, member, inside, inside'⟩

theorem Tiles.flatMap_overlap (tiles : Tiles rects) : Tiles (rects.flatMap (overlap r)) := by
  apply tiles.flatMap
  · exact fun _ _ => tiles_overlap
  · intro s _
    rw [covered_overlap]
    exact Set.inter_subset_right

end Rectangle

end PadOS
