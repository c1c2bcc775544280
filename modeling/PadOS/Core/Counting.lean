import Mathlib.Data.Finset.Card
import Mathlib.Data.Finset.Range

/-! # Counting by index -/

namespace PadOS.Counting

variable {α β : Type*}

theorem countP_eq_card (l : List α) (p : α → Bool) :
    l.countP p = ((Finset.range l.length).filter fun i => (l[i]?).any p).card := by
  induction l using List.reverseRecOn with
  | nil => rfl
  | append_singleton l a ih =>
    have before : (Finset.range l.length).filter (fun i => ((l ++ [a])[i]?).any p) =
        (Finset.range l.length).filter fun i => (l[i]?).any p := by
      apply Finset.filter_congr
      intro i inside
      rw [List.getElem?_append_left (Finset.mem_range.mp inside)]
    rw [List.countP_append, List.length_append, List.length_singleton, Finset.range_add_one,
      Finset.filter_insert, before, List.getElem?_concat_length]
    cases isCounted : p a with
    | false => simp [isCounted, ih]
    | true => simp [isCounted, ih]

theorem countP_le_of_injOn {l : List α} {l' : List β} {p : α → Bool} {q : β → Bool} (f : Nat → Nat)
    (maps : ∀ i a, l[i]? = some a → p a → ∃ b, l'[f i]? = some b ∧ q b)
    (inj : ∀ i j a b, l[i]? = some a → l[j]? = some b → p a → p b → f i = f j → i = j) :
    l.countP p ≤ l'.countP q := by
  rw [countP_eq_card, countP_eq_card]
  have found {i : Nat} (member : i ∈ (Finset.range l.length).filter fun i => (l[i]?).any p) :
      ∃ a, l[i]? = some a ∧ p a := by
    rw [Finset.mem_filter, Option.any_eq_true] at member
    exact member.2
  apply Finset.card_le_card_of_injOn f
  · intro i member
    obtain ⟨a, isElement, isCounted⟩ := found member
    obtain ⟨b, isElement', isCounted'⟩ := maps i a isElement isCounted
    rw [Finset.mem_coe, Finset.mem_filter, Finset.mem_range, Option.any_eq_true]
    exact ⟨(List.getElem?_eq_some_iff.mp isElement').1, b, isElement', isCounted'⟩
  · intro i member j member' same
    obtain ⟨a, isElement, isCounted⟩ := found member
    obtain ⟨b, isElement', isCounted'⟩ := found member'
    exact inj i j a b isElement isElement' isCounted isCounted' same

end PadOS.Counting
