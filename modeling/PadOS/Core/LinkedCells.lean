import Mathlib.Data.List.Nodup
import Mathlib.Logic.Function.Basic

/-! # Lists that are linked through the cells of a table

Each cell is free, ends a list or names the next cell. A list that ends is determined
by its first cell, so it visits no cell twice, and two of them that meet share the
rest. Stores outside a list leave it alone; a store into its last cell appends a list,
and one further up cuts it.
-/

namespace PadOS

open List Option

inductive Cell (α : Type*)
  | free
  | last
  | next (a : α)
  | reserved

def Cell.isFree {α : Type*} : Cell α → Bool
  | .free => true
  | _ => false

theorem Cell.isFree_iff {α : Type*} {c : Cell α} : c.isFree ↔ c = .free := by
  cases c with
  | free => exact ⟨fun _ => rfl, fun _ => rfl⟩
  | last | next a | reserved => simp [isFree]

/-- The cells from the first one to a last one. -/
inductive Linked {α : Type*} (cells : α → Cell α) : α → List α → Prop
  | last {a : α} (ends : cells a = .last) : Linked cells a [a]
  | next {a b : α} {l : List α} (links : cells a = .next b) (rest : Linked cells b l) :
      Linked cells a (a :: l)

namespace Linked

variable {α : Type*} {cells cells' : α → Cell α} {a b x : α} {l l' : List α}

section

variable (linked : Linked cells a l)

include linked

theorem ne_nil : l ≠ [] := by
  cases linked with
  | last _ => simp
  | next _ _ => simp

theorem length_pos : 0 < l.length :=
  length_pos_iff.2 linked.ne_nil

theorem head_eq : l.head? = some a := by
  cases linked with
  | last _ => rfl
  | next _ _ => rfl

theorem mem_head : a ∈ l :=
  mem_of_mem_head? linked.head_eq

theorem not_free : ∀ x ∈ l, cells x ≠ .free := by
  induction linked with
  | last ends =>
    intro x member free
    rw [mem_singleton.1 member, ends] at free
    cases free
  | next links rest ih =>
    intro x member free
    rcases mem_cons.1 member with rfl | member
    · rw [links] at free
      cases free
    · exact ih x member free

theorem unique (linked' : Linked cells a l') : l = l' := by
  induction linked generalizing l' with
  | last ends =>
    cases linked' with
    | last _ => rfl
    | next links _ =>
      rw [ends] at links
      cases links
  | next links _ ih =>
    cases linked' with
    | last ends =>
      rw [ends] at links
      cases links
    | next links' rest' =>
      rw [links] at links'
      cases links'
      rw [ih rest']

/-- From each of its cells on, the list is linked. -/
theorem suffix (member : x ∈ l) :
    ∃ front back, l = front ++ back ∧ Linked cells x back := by
  induction linked with
  | last ends =>
    obtain rfl := mem_singleton.1 member
    exact ⟨[], [x], rfl, .last ends⟩
  | @next a b l links rest ih =>
    rcases mem_cons.1 member with rfl | member
    · exact ⟨[], x :: l, rfl, .next links rest⟩
    · rcases ih member with ⟨front, back, parts, tail⟩
      exact ⟨a :: front, back, by rw [parts]; rfl, tail⟩

theorem nodup : l.Nodup := by
  induction linked with
  | last _ => exact nodup_singleton _
  | @next a b l links rest ih =>
    apply nodup_cons.2 ⟨_, ih⟩
    intro again
    rcases rest.suffix again with ⟨front, back, parts, tail⟩
    have same := tail.unique (.next links rest)
    have longer : l.length = front.length + back.length := by
      rw [parts, length_append]
    rw [same, length_cons] at longer
    omega

theorem congr (same : ∀ x ∈ l, cells' x = cells x) :
    Linked cells' a l := by
  induction linked with
  | last ends =>
    apply Linked.last
    rw [same _ mem_cons_self, ends]
  | next links _ ih =>
    apply Linked.next
    · rw [same _ mem_cons_self, links]
    · exact ih fun x member => same x (mem_cons_of_mem _ member)

/-- The link at an index that is not the last one. -/
theorem getElem_next {i : Nat} (inside : i + 1 < l.length) :
    cells l[i] = .next l[i + 1] := by
  induction linked generalizing i with
  | last _ =>
    rw [length_singleton] at inside
    omega
  | next links rest ih =>
    rw [length_cons] at inside
    cases i with
    | zero =>
      have positive := rest.length_pos
      have first := rest.head_eq
      rw [head?_eq_getElem?, getElem?_eq_getElem positive] at first
      rw [getElem_cons_zero, links]
      exact congrArg Cell.next (some.inj first).symm
    | succ i => exact ih (by omega)

theorem getElem_zero (inside : 0 < l.length) : l[0] = a := by
  have first := linked.head_eq
  rw [head?_eq_getElem?, getElem?_eq_getElem inside] at first
  exact some.inj first

theorem drop {i : Nat} (inside : i < l.length) :
    Linked cells l[i] (l.drop i) := by
  induction linked generalizing i with
  | last ends =>
    cases i with
    | zero => exact .last ends
    | succ i =>
      rw [length_singleton] at inside
      omega
  | next links rest ih =>
    cases i with
    | zero => exact .next links rest
    | succ i => exact ih (by simpa using inside)

end

section Update

variable [DecidableEq α]

section

variable (linked : Linked cells a l)

include linked

theorem update (outside : x ∉ l) (c : Cell α) :
    Linked (Function.update cells x c) a l := by
  apply linked.congr
  intro y member
  apply Function.update_of_ne
  intro same
  exact outside (same ▸ member)

theorem append (linked' : Linked cells b l') (apart : List.Disjoint l l') :
    Linked (Function.update cells (l.getLast linked.ne_nil) (.next b)) a (l ++ l') := by
  have behind : Linked (Function.update cells (l.getLast linked.ne_nil) (.next b)) b l' :=
    linked'.update (apart (getLast_mem _)) _
  revert behind
  induction linked with
  | last ends =>
    intro behind
    apply Linked.next _ behind
    exact Function.update_self _ _ _
  | @next a c l links rest ih =>
    intro behind
    rw [getLast_cons rest.ne_nil] at behind ⊢
    have first : a ≠ l.getLast rest.ne_nil := by
      intro same
      exact (nodup_cons.1 (Linked.next links rest).nodup).1 (same ▸ getLast_mem _)
    apply Linked.next
    · rw [Function.update_of_ne first, links]
    · exact ih (fun x member => apart (mem_cons_of_mem _ member)) behind

/-- The cell at an index becomes the last one. -/
theorem take {i : Nat} (inside : i < l.length) :
    Linked (Function.update cells l[i] .last) a (l.take (i + 1)) := by
  induction linked generalizing i with
  | @last a ends =>
    have zero : i = 0 := by
      rw [length_singleton] at inside
      omega
    subst zero
    apply Linked.last
    exact Function.update_self _ _ _
  | @next a b l links rest ih =>
    cases i with
    | zero =>
      apply Linked.last
      exact Function.update_self _ _ _
    | succ i =>
      have below : i < l.length := by simpa using inside
      have first : a ≠ l[i] := by
        intro same
        exact (nodup_cons.1 (Linked.next links rest).nodup).1 (same ▸ getElem_mem _)
      apply Linked.next
      · rw [getElem_cons_succ, Function.update_of_ne first, links]
      · exact ih below

theorem drop_update {i : Nat} (here : i < l.length)
    (inside : i + 1 < l.length) (c : Cell α) :
    Linked (Function.update cells l[i] c) l[i + 1] (l.drop (i + 1)) := by
  apply (linked.drop inside).update
  intro member
  have parts := linked.nodup
  rw [← take_append_drop (i + 1) l] at parts
  apply (disjoint_of_nodup_append parts) _ member
  have below : i < (l.take (i + 1)).length := by
    rw [length_take]
    omega
  have front : (l.take (i + 1))[i] = l[i] := getElem_take
  rw [← front]
  exact getElem_mem _

end

end Update

end Linked

end PadOS
