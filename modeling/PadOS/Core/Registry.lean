import Mathlib.Logic.Function.Basic
import Mathlib.Data.List.Nodup

/-! # Names and members

Keys name objects, and each object knows its key. Owners list their members, and each
member knows its owner. The two sides are kept apart, so each change has to be made on
both.
-/

namespace PadOS.Registry

open Function

section Fields

variable {κ α β : Type*} [DecidableEq κ] {m : κ → Option α} {k : κ} {v : Option α}

/-- A field of the objects of a map. -/
def field (m : κ → Option α) (f : α → Option β) : κ → Option β := fun k => (m k).bind f

/-- A list in the objects of a map. -/
def roll (m : κ → Option α) (f : α → List β) : κ → List β := fun k => (m k).elim [] f

theorem field_update (f : α → Option β) : field (update m k v) f = update (field m f) k (v.bind f) :=
  Function.comp_update (fun x : Option α => x.bind f) m k v

theorem roll_update (f : α → List β) : roll (update m k v) f = update (roll m f) k (v.elim [] f) :=
  Function.comp_update (fun x : Option α => x.elim [] f) m k v

theorem field_update_same {f : α → Option β} (same : v.bind f = field m f k) :
    field (update m k v) f = field m f := by
  rw [field_update, same, update_eq_self]

theorem roll_update_same {f : α → List β} (same : v.elim [] f = roll m f k) :
    roll (update m k v) f = roll m f := by
  rw [roll_update, same, update_eq_self]

theorem update_cases {k' : κ} {a : α} (found : update m k v k' = some a) :
    (k' = k ∧ v = some a) ∨ (k' ≠ k ∧ m k' = some a) := by
  by_cases same : k' = k
  · rw [same, update_self] at found
    exact .inl ⟨same, found⟩
  · rw [update_of_ne same] at found
    exact .inr ⟨same, found⟩

theorem update_all {P : κ → α → Prop} (all : ∀ {k' a}, m k' = some a → P k' a)
    (new : ∀ a, v = some a → P k a) {k' : κ} {a : α} (found : update m k v k' = some a) : P k' a := by
  rcases update_cases found with ⟨same, isNew⟩ | ⟨_, found⟩
  · rw [same]
    exact new a isNew
  · exact all found

theorem update_absent {k' : κ} {a : α} (absent : m k' = none) (found : m k = some a) :
    update m k v k' = none := by
  have other : k' ≠ k := fun same => by rw [same, found] at absent; cases absent
  exact (update_of_ne other ..).trans absent

end Fields

section Named

variable {κ α : Type*} {slot : κ → Option α} {key : α → Option κ} {k : κ} {a : α}

/-- A key names the objects that have it, so it names one at most. -/
def Named (slot : κ → Option α) (key : α → Option κ) : Prop :=
  ∀ k a, slot k = some a ↔ key a = some k

variable [DecidableEq κ] [DecidableEq α]

theorem Named.insert (named : Named slot key) (free : slot k = none) (fresh : key a = none) :
    Named (update slot k (some a)) (update key a (some k)) := by
  intro k' a'
  by_cases sameKey : k' = k
  · rw [sameKey, update_self]
    by_cases same : a' = a
    · simp [same]
    · have unnamed : key a' ≠ some k := by simp [← named k a', free]
      simp [update_of_ne same, unnamed, Ne.symm same]
  · rw [update_of_ne sameKey]
    by_cases same : a' = a
    · have unnamed : slot k' ≠ some a := by simp [named k' a, fresh]
      simp [same, unnamed, Ne.symm sameKey]
    · rw [update_of_ne same]
      exact named k' a'

theorem Named.remove (named : Named slot key) (found : slot k = some a) :
    Named (update slot k none) (update key a none) := by
  intro k' a'
  by_cases sameKey : k' = k
  · rw [sameKey, update_self]
    by_cases same : a' = a
    · simp [same]
    · have other : key a' ≠ some k := by
        rw [Ne, ← named k a', found, Option.some.injEq]
        exact Ne.symm same
      simp [update_of_ne same, other]
  · rw [update_of_ne sameKey]
    by_cases same : a' = a
    · have other : slot k' ≠ some a := by
        rw [Ne, named k' a, (named k a).1 found, Option.some.injEq]
        exact Ne.symm sameKey
      simp [same, other]
    · rw [update_of_ne same]
      exact named k' a'

end Named

section Enrolled

variable {α β : Type*} {members : β → List α} {owner : α → Option β} {a a' : α} {b b' : β}

/-- The lists hold the members that name them, each once. -/
structure Enrolled (members : β → List α) (owner : α → Option β) : Prop where
  mem_iff : ∀ a b, a ∈ members b ↔ owner a = some b
  nodup : ∀ b, (members b).Nodup

variable [DecidableEq α] [DecidableEq β]

theorem Enrolled.join (enrolled : Enrolled members owner) (free : owner a = none) (b : β) :
    Enrolled (update members b (members b ++ [a])) (update owner a (some b)) := by
  have absent (b' : β) : a ∉ members b' := by simp [enrolled.mem_iff, free]
  constructor
  · intro a' b'
    by_cases same : a' = a
    · rw [same, update_self]
      by_cases sameOwner : b' = b
      · simp [sameOwner]
      · simp [update_of_ne sameOwner, absent, Ne.symm sameOwner]
    · rw [update_of_ne same, ← enrolled.mem_iff]
      by_cases sameOwner : b' = b
      · simp [sameOwner, same]
      · rw [update_of_ne sameOwner]
  · intro b'
    by_cases sameOwner : b' = b
    · rw [sameOwner, update_self]
      exact List.Nodup.append (enrolled.nodup b) (List.nodup_singleton a)
        (List.disjoint_singleton.2 (absent b))
    · rw [update_of_ne sameOwner]
      exact enrolled.nodup b'

theorem Enrolled.leave (enrolled : Enrolled members owner) (owned : owner a = some b) :
    Enrolled (update members b ((members b).erase a)) (update owner a none) := by
  constructor
  · intro a' b'
    by_cases same : a' = a
    · rw [same, update_self]
      by_cases sameOwner : b' = b
      · simp [sameOwner, (enrolled.nodup b).mem_erase_iff]
      · have absent : a ∉ members b' := by
          rw [enrolled.mem_iff, owned, Option.some.injEq]
          exact Ne.symm sameOwner
        simp [update_of_ne sameOwner, absent]
    · rw [update_of_ne same, ← enrolled.mem_iff]
      by_cases sameOwner : b' = b
      · simp [sameOwner, (enrolled.nodup b).mem_erase_iff, same]
      · rw [update_of_ne sameOwner]
  · intro b'
    by_cases sameOwner : b' = b
    · rw [sameOwner, update_self]
      exact (enrolled.nodup b).erase a
    · rw [update_of_ne sameOwner]
      exact enrolled.nodup b'

end Enrolled

section Same

variable {κ α γ : Type*} [DecidableEq κ] {m : κ → Option γ} {k : κ} {v : Option γ}

theorem Named.left_same {f : γ → Option α} {key : α → Option κ} (named : Named (field m f) key)
    (same : v.bind f = field m f k) : Named (field (update m k v) f) key := by
  rw [field_update_same same]
  exact named

theorem Named.right_same {f : γ → Option α} {slot : α → Option κ} (named : Named slot (field m f))
    (same : v.bind f = field m f k) : Named slot (field (update m k v) f) := by
  rw [field_update_same same]
  exact named

theorem Enrolled.left_same {f : γ → List α} {owner : α → Option κ} (enrolled : Enrolled (roll m f) owner)
    (same : v.elim [] f = roll m f k) : Enrolled (roll (update m k v) f) owner := by
  rw [roll_update_same same]
  exact enrolled

theorem Enrolled.right_same {f : γ → Option α} {members : α → List κ}
    (enrolled : Enrolled members (field m f)) (same : v.bind f = field m f k) :
    Enrolled members (field (update m k v) f) := by
  rw [field_update_same same]
  exact enrolled

end Same

end PadOS.Registry
