import Mathlib.Data.List.Nodup
import Mathlib.Logic.Function.Basic

/-! # Lists that share nothing

A family of lists in which every element stands once at most, such as the nodes that move
between queues, a free list and the threads that hold one. A list is replaced by naming
what the new one may contain.
-/

namespace PadOS

open List

open Function (update_self update_of_ne update)

structure Separate {ι α : Type*} (lists : ι → List α) : Prop where
  nodup : ∀ i, (lists i).Nodup
  disjoint : ∀ i j, i ≠ j → List.Disjoint (lists i) (lists j)

namespace Separate

variable {ι α : Type*} {lists : ι → List α} {i j : ι} {a : α} {l : List α}

theorem empty : Separate fun _ : ι => ([] : List α) :=
  ⟨fun _ => nodup_nil, fun _ _ _ => disjoint_nil_left _⟩

theorem eq_of_mem (apart : Separate lists) (first : a ∈ lists i) (second : a ∈ lists j) : i = j := by
  by_contra differ
  exact apart.disjoint i j differ first second

theorem not_mem_tail (apart : Separate lists) (here : lists i = a :: l) : a ∉ l :=
  (nodup_cons.1 (here ▸ apart.nodup i)).1

section
variable [DecidableEq ι]

section

variable (apart : Separate lists)

include apart

theorem replace (nodup : l.Nodup) (outside : ∀ j, j ≠ i → ∀ a ∈ l, a ∉ lists j) :
    Separate (update lists i l) := by
  constructor
  · intro j
    by_cases same : j = i
    · rw [same, update_self]
      exact nodup
    · rw [update_of_ne same]
      exact apart.nodup j
  · intro j k differ a left right
    by_cases first : j = i
    · rw [first, update_self] at left
      rw [update_of_ne (fun second => differ (first.trans second.symm))] at right
      exact outside k (fun second => differ (first.trans second.symm)) a left right
    · rw [update_of_ne first] at left
      by_cases second : k = i
      · rw [second, update_self] at right
        exact outside j first a right left
      · rw [update_of_ne second] at right
        exact apart.disjoint j k differ left right

theorem shrink (sublist : l.Sublist (lists i)) : Separate (update lists i l) := by
  apply apart.replace ((apart.nodup i).sublist sublist)
  intro j other a member there
  exact apart.disjoint j i other there (sublist.subset member)

theorem gain (free : ∀ j, a ∉ lists j) (perm : l.Perm (a :: lists i)) :
    Separate (update lists i l) := by
  apply apart.replace (perm.nodup_iff.2 (nodup_cons.2 ⟨free i, apart.nodup i⟩))
  intro j other b member there
  rcases mem_cons.1 (perm.mem_iff.1 member) with rfl | member
  · exact free j there
  · exact apart.disjoint i j other.symm member there

/-- The head that a list has lost is free to go to another one. -/
theorem free_of_take (here : lists i = a :: l) (j : ι) :
    a ∉ update lists i l j := by
  by_cases same : j = i
  · rw [same, update_self]
    exact apart.not_mem_tail here
  · rw [update_of_ne same]
    intro there
    exact same (apart.eq_of_mem there (here ▸ mem_cons_self))

theorem move (differ : i ≠ j) (here : lists i = a :: l) {l' : List α}
    (perm : l'.Perm (a :: lists j)) :
    Separate (update (update lists i l) j l') := by
  have shrunk : Separate (update lists i l) := by
    apply apart.shrink
    rw [here]
    exact sublist_cons_self a l
  apply shrunk.gain (apart.free_of_take here)
  rwa [update_of_ne differ.symm]

end

end

end Separate

end PadOS
