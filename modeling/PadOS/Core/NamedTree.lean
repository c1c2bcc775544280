import Mathlib.Data.Option.Basic

/-! # Trees of named entries

A partial function gives what a name stands for in a node. What can be reached from a root is
a tree when each node that is reached knows the node it is entered in, and is entered there
under one name.
-/

namespace PadOS.NamedTree

variable {α ν : Type*} {entry entry' : α → ν → Option α} {parent parent' : α → Option α}
  {root a b c dir leaf : α} {n name : ν}

/-- What is reached from a node by following names. -/
inductive Under (entry : α → ν → Option α) (a : α) : α → Prop
  | refl : Under entry a a
  | tail {b c : α} {n : ν} (above : Under entry a b) (entered : entry b n = some c) : Under entry a c

theorem Under.head (entered : entry a n = some b) (below : Under entry b c) : Under entry a c := by
  induction below with
  | refl => exact .tail .refl entered
  | tail _ entered ih => exact .tail ih entered

theorem Under.cases_head (under : Under entry a c) :
    c = a ∨ ∃ n b, entry a n = some b ∧ Under entry b c := by
  induction under with
  | refl => exact .inl rfl
  | @tail b c n above entered ih =>
    rcases ih with same | ⟨m, first, entered', below⟩
    · rw [same] at entered
      exact .inr ⟨n, c, entered, .refl⟩
    · exact .inr ⟨m, first, entered', .tail below entered⟩

theorem Under.mono (kept : ∀ a n b, entry a n = some b → entry' a n = some b)
    (under : Under entry a b) : Under entry' a b := by
  induction under with
  | refl => exact .refl
  | tail _ entered ih => exact .tail ih (kept _ _ _ entered)

theorem Under.of_insert (old : ∀ a n b, entry' a n = some b → entry a n = some b ∨ b = leaf)
    (isLeaf : ∀ n, entry' leaf n = none) (under : Under entry' a b) : b = leaf ∨ Under entry a b := by
  induction under with
  | refl => exact .inr .refl
  | @tail b c n above entered ih =>
    rcases old b n c entered with entered' | isNew
    · rcases ih with same | before
      · rw [same, isLeaf] at entered
        cases entered
      · exact .inr (.tail before entered')
    · exact .inl isNew

/-- Each node is entered in its parent, under one name. -/
structure IsTree (entry : α → ν → Option α) (parent : α → Option α) (root : α) : Prop where
  parent_eq : ∀ {a n b}, Under entry root a → entry a n = some b → parent b = some a
  unique : ∀ {a n m b}, Under entry root a → entry a n = some b → entry a m = some b → n = m

theorem IsTree.remove (tree : IsTree entry parent root)
    (old : ∀ a n b, entry' a n = some b → entry a n = some b) : IsTree entry' parent root where
  parent_eq under entered := tree.parent_eq (under.mono old) (old _ _ _ entered)
  unique under first second := tree.unique (under.mono old) (old _ _ _ first) (old _ _ _ second)

theorem IsTree.insert (tree : IsTree entry parent root)
    (old : ∀ a n b, entry' a n = some b → entry a n = some b ∨ (a = dir ∧ n = name ∧ b = leaf))
    (isLeaf : ∀ n, entry' leaf n = none) (isNew : ∀ a n, entry a n ≠ some leaf)
    (same : ∀ b, b ≠ leaf → parent' b = parent b) (child : parent' leaf = some dir) :
    IsTree entry' parent' root := by
  have before {a n b} (under : Under entry' root a) (entered : entry' a n = some b) : Under entry root a := by
    rcases under.of_insert (fun a n b entered => (old a n b entered).imp_right fun h => h.2.2) isLeaf with same | under
    · rw [same, isLeaf] at entered
      cases entered
    · exact under
  constructor
  · intro a n b under entered
    rcases old a n b entered with entered' | ⟨rfl, rfl, rfl⟩
    · have notLeaf : b ≠ leaf := fun isLeaf => isNew a n (isLeaf ▸ entered')
      rw [same b notLeaf]
      exact tree.parent_eq (before under entered) entered'
    · exact child
  · intro a n m b under first second
    rcases old a n b first with first' | ⟨rfl, rfl, rfl⟩
    · rcases old a m b second with second' | ⟨rfl, rfl, rfl⟩
      · exact tree.unique (before under first) first' second'
      · exact absurd first' (isNew a n)
    · rcases old a m b second with second' | ⟨_, rfl, _⟩
      · exact absurd second' (isNew a m)
      · rfl

end PadOS.NamedTree
