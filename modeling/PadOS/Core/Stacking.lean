import PadOS.Core.Forest
import Mathlib.Data.Set.Lattice
import Mathlib.Order.CompletePartialOrder

/-! # Stacked nodes

The nodes of a forest share a set of points. A node gets what its parent has, cut to its own
area, without what the nodes stacked above it take; what it keeps for itself is what its
children do not take. A transparent node takes nothing itself, but its children do, whether
or not the points they take are their parent's.
-/

namespace PadOS

/-- `meets` may be any test that two nodes fail only where their areas are apart. -/
structure Stacking (α P : Type*) where
  shown : α → Bool
  transparent : α → Bool
  /-- The node keeps what its children take. -/
  drawsOnChildren : α → Bool
  /-- Where the node may have points. -/
  area : α → Set P
  /-- What the node takes where it is opaque. -/
  cover : α → Set P
  meets : α → α → Bool
  area_subset : ∀ node, transparent node = false → area node ⊆ cover node
  apart : ∀ upper lower, meets upper lower = false → Disjoint (area upper) (area lower)

namespace Stacking

variable {α P : Type*} (S : Stacking α P)

/-- What the nodes of a forest take from those below them. -/
def cut : Forest α → Set P
  | .nil => ∅
  | .cons node children rest =>
    (if S.shown node then if S.transparent node then cut children else S.cover node else ∅) ∪ cut rest

/-- What the nodes that meet a lower one take from it. -/
def cutFrom (lower : α) : Forest α → Set P
  | .nil => ∅
  | .cons node children rest =>
    (if S.shown node && S.meets node lower then S.cut (.tree node children) else ∅) ∪ cutFrom lower rest

def full (clip : Set P) (node : α) (above : Forest α) : Set P :=
  (clip ∩ S.area node) \ S.cutFrom node above

def visible (clip : Set P) (node : α) (children above : Forest α) : Set P :=
  if S.drawsOnChildren node then S.full clip node above else S.full clip node above \ S.cut children

/-- The nodes that are shown, with the points that each keeps for itself. -/
def owners (clip : Set P) : Forest α → List (α × Set P)
  | .nil => []
  | .cons node children above =>
    if S.shown node then
      (node, S.visible clip node children above) ::
        (owners (S.full clip node above) children ++ owners clip above)
    else owners clip above

/-- A node takes points only where it has them: what the topmost node that takes a point
takes is in its own area. -/
def Contained (clip : Set P) : Forest α → Prop
  | .nil => True
  | .cons node children above =>
    (S.shown node → (∀ p ∈ clip, p ∈ S.cut (.tree node children) → p ∉ S.cut above → p ∈ S.area node) ∧
      Contained (S.full clip node above) children) ∧
    Contained clip above

variable {S} {clip : Set P} {node : α} {children above forest : Forest α} {p : P}

theorem cut_cons : S.cut (.cons node children above) = S.cut (.tree node children) ∪ S.cut above := by
  show _ ∪ _ = (_ ∪ ∅) ∪ _
  rw [Set.union_empty]

theorem cut_tree (shown : S.shown node) : S.cut (.tree node children) =
    if S.transparent node then S.cut children else S.cover node := by
  show (if _ then _ else _) ∪ ∅ = _
  rw [if_pos shown, Set.union_empty]

theorem cut_tree_hidden (hidden : ¬S.shown node) : S.cut (.tree node children) = ∅ := by
  show (if _ then _ else _) ∪ ∅ = _
  rw [if_neg hidden, Set.union_empty]

theorem mem_cutFrom_cons {lower : α} : p ∈ S.cutFrom lower (.cons node children above) ↔
    (S.meets node lower ∧ p ∈ S.cut (.tree node children)) ∨ p ∈ S.cutFrom lower above := by
  show p ∈ (if _ then _ else _) ∪ _ ↔ _
  rw [Set.mem_union]
  apply or_congr_left
  by_cases shown : S.shown node
  · by_cases meets : S.meets node lower <;> simp [shown, meets]
  · simp [shown, cut_tree_hidden shown]

theorem cutFrom_subset (lower : α) (forest : Forest α) : S.cutFrom lower forest ⊆ S.cut forest := by
  induction forest with
  | nil => exact Set.Subset.refl _
  | cons node children above _ ih =>
    intro p inside
    rw [cut_cons]
    rcases mem_cutFrom_cons.1 inside with ⟨_, here⟩ | behind
    · exact .inl here
    · exact .inr (ih behind)

theorem full_subset_clip : S.full clip node above ⊆ clip := fun _ inside => inside.1.1

theorem full_subset_area : S.full clip node above ⊆ S.area node := fun _ inside => inside.1.2

theorem visible_subset_full : S.visible clip node children above ⊆ S.full clip node above := by
  unfold visible
  split
  · exact Set.Subset.refl _
  · exact Set.sdiff_subset

/-! ## What the owners keep -/

variable {owner : α × Set P}

/-- A node and the nodes below it, with what they keep. -/
def treeOwners (S : Stacking α P) (clip : Set P) (node : α) (children above : Forest α) :
    List (α × Set P) :=
  (node, S.visible clip node children above) :: S.owners (S.full clip node above) children

theorem owners_cons (shown : S.shown node) : S.owners clip (.cons node children above) =
    S.treeOwners clip node children above ++ S.owners clip above := by
  rw [owners, if_pos shown]
  rfl

theorem owners_cons_hidden (hidden : ¬S.shown node) :
    S.owners clip (.cons node children above) = S.owners clip above := by
  rw [owners, if_neg hidden]

theorem owners_subset (member : owner ∈ S.owners clip forest) : owner.2 ⊆ clip := by
  induction forest generalizing clip with
  | nil => cases member
  | cons node children above ihChildren ihAbove =>
    by_cases shown : S.shown node
    · rw [owners_cons shown] at member
      rcases List.mem_append.1 member with member | member
      · rcases List.mem_cons.1 member with rfl | member
        · exact visible_subset_full.trans full_subset_clip
        · exact (ihChildren member).trans full_subset_clip
      · exact ihAbove member
    · rw [owners_cons_hidden shown] at member
      exact ihAbove member

theorem treeOwners_subset (member : owner ∈ S.treeOwners clip node children above) :
    owner.2 ⊆ S.full clip node above := by
  rcases List.mem_cons.1 member with rfl | member
  · exact visible_subset_full
  · exact owners_subset member

theorem treeOwners_subset_cut (shown : S.shown node)
    (below : ∀ owner ∈ S.owners (S.full clip node above) children, S.transparent owner.1 = false →
      owner.2 ⊆ S.cut children)
    (member : owner ∈ S.treeOwners clip node children above) (isOpaque : S.transparent owner.1 = false) :
    owner.2 ⊆ S.cut (.tree node children) := by
  intro p inside
  have inArea := full_subset_area (treeOwners_subset member inside)
  rw [cut_tree shown]
  by_cases transparent : S.transparent node
  · rw [if_pos transparent]
    rcases List.mem_cons.1 member with rfl | member
    · rw [isOpaque] at transparent
      cases transparent
    · exact below owner member isOpaque inside
  · rw [if_neg transparent]
    exact S.area_subset _ (by simpa using transparent) inArea

section

variable (member : owner ∈ S.owners clip forest) (isOpaque : S.transparent owner.1 = false)

include member isOpaque

theorem owners_subset_cut : owner.2 ⊆ S.cut forest := by
  induction forest generalizing clip owner with
  | nil => cases member
  | cons node children above ihChildren ihAbove =>
    rw [cut_cons]
    by_cases shown : S.shown node
    · rw [owners_cons shown] at member
      rcases List.mem_append.1 member with member | member
      · have below : ∀ owner ∈ S.owners (S.full clip node above) children,
            S.transparent owner.1 = false → owner.2 ⊆ S.cut children :=
          fun _ member isOpaque => ihChildren member isOpaque
        exact (treeOwners_subset_cut shown below member isOpaque).trans Set.subset_union_left
      · exact (ihAbove member isOpaque).trans Set.subset_union_right
    · rw [owners_cons_hidden shown] at member
      exact (ihAbove member isOpaque).trans Set.subset_union_right

theorem owners_subset_cutFrom
    (lower : α) :
    owner.2 ∩ S.area lower ⊆ S.cutFrom lower forest := by
  induction forest generalizing clip with
  | nil => cases member
  | cons node children above _ ihAbove =>
    intro p ⟨inside, below⟩
    rw [mem_cutFrom_cons]
    by_cases shown : S.shown node
    · rw [owners_cons shown] at member
      rcases List.mem_append.1 member with member | member
      · left
        refine ⟨?_, treeOwners_subset_cut shown (fun _ => owners_subset_cut) member isOpaque inside⟩
        by_contra apart
        have inArea := full_subset_area (treeOwners_subset member inside)
        exact Set.disjoint_left.1 (S.apart _ _ (by simpa using apart)) inArea below
      · exact .inr (ihAbove member ⟨inside, below⟩)
    · rw [owners_cons_hidden shown] at member
      exact .inr (ihAbove member ⟨inside, below⟩)

end

theorem owners_pairwise (notOnChildren : forest.All fun node => S.drawsOnChildren node = false) :
    (S.owners clip forest).Pairwise fun lower upper =>
      S.transparent upper.1 = false → Disjoint lower.2 upper.2 := by
  induction forest generalizing clip with
  | nil => exact .nil
  | cons node children above ihChildren ihAbove =>
    have ⟨notHere, notBelow, notAbove⟩ := notOnChildren
    by_cases shown : S.shown node
    · rw [owners_cons shown, List.pairwise_append]
      refine ⟨List.pairwise_cons.2 ⟨?_, ihChildren notBelow⟩, ihAbove notAbove, ?_⟩
      · intro upper member isOpaque
        rw [Set.disjoint_left]
        intro p kept inside
        unfold visible at kept
        rw [if_neg (by rw [notHere]; decide)] at kept
        exact kept.2 (owners_subset_cut member isOpaque inside)
      · intro lower member upper member' isOpaque
        rw [Set.disjoint_left]
        intro p inside inside'
        have inFull := treeOwners_subset member inside
        exact inFull.2 (owners_subset_cutFrom member' isOpaque node ⟨inside', inFull.1.2⟩)
    · rw [owners_cons_hidden shown]
      exact ihAbove notAbove

theorem owners_cover (contained : S.Contained clip forest) (inside : p ∈ clip) (taken : p ∈ S.cut forest) :
    ∃ owner ∈ S.owners clip forest, S.transparent owner.1 = false ∧ p ∈ owner.2 := by
  induction forest generalizing clip with
  | nil => cases taken
  | cons node children above ihChildren ihAbove =>
    by_cases behind : p ∈ S.cut above
    · rcases ihAbove contained.2 inside behind with ⟨owner, member, kept⟩
      refine ⟨owner, ?_, kept⟩
      by_cases shown : S.shown node
      · rw [owners_cons shown]
        exact List.mem_append_right _ member
      · rw [owners_cons_hidden shown]
        exact member
    · rw [cut_cons] at taken
      have here := taken.resolve_right behind
      have shown : S.shown node := by
        by_contra hidden
        rw [cut_tree_hidden hidden] at here
        cases here
      rcases contained.1 shown with ⟨holds, containedChildren⟩
      have inFull : p ∈ S.full clip node above :=
        ⟨⟨inside, holds p inside here behind⟩, fun cut => behind (cutFrom_subset _ _ cut)⟩
      rw [owners_cons shown]
      by_cases below : p ∈ S.cut children
      · rcases ihChildren containedChildren inFull below with ⟨owner, member, kept⟩
        exact ⟨owner, List.mem_append_left _ (List.mem_cons_of_mem _ member), kept⟩
      · refine ⟨(node, S.visible clip node children above),
          List.mem_append_left _ List.mem_cons_self, ?_, ?_⟩
        · rw [cut_tree shown] at here
          by_contra transparent
          rw [if_pos (by simpa using transparent)] at here
          exact below here
        · unfold visible
          split
          · exact inFull
          · exact ⟨inFull, below⟩

end Stacking

end PadOS
