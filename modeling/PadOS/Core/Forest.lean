import Mathlib.Data.List.Basic
import Mathlib.Tactic.TypeStar

/-! # Ordered forests

A forest is the list of the children of some node: the first one, its own children, and the
ones that come after it. A recursion or an induction over all nodes has one case for each.
-/

namespace PadOS

open List Option

inductive Forest (α : Type*)
  | nil
  | cons (node : α) (children rest : Forest α)
  deriving DecidableEq, Repr

namespace Forest

variable {α β : Type*} {name : α → β} {wanted : β} {parent : Option α}

/-- The forest of one node. -/
def tree (node : α) (children : Forest α) : Forest α := cons node children nil

def map (f : α → β) : Forest α → Forest β
  | nil => nil
  | cons node children rest => cons (f node) (map f children) (map f rest)

/-- The nodes, each one before its children and before the ones that come after it. -/
def toList : Forest α → List α
  | nil => []
  | cons node children rest => node :: (toList children ++ toList rest)

def All (p : α → Prop) : Forest α → Prop
  | nil => True
  | cons node children rest => p node ∧ All p children ∧ All p rest

variable {p q : α → Prop} {node : α} {children rest forest : Forest α}

instance All.decidable (p : α → Prop) [DecidablePred p] : (forest : Forest α) → Decidable (All p forest)
  | nil => inferInstanceAs (Decidable True)
  | cons _ children rest =>
    have := All.decidable p children
    have := All.decidable p rest
    inferInstanceAs (Decidable (_ ∧ _ ∧ _))

theorem All.imp (weaker : ∀ x, p x → q x) (all : All p forest) : All q forest := by
  induction forest with
  | nil => trivial
  | cons node children rest ihChildren ihRest =>
    exact ⟨weaker node all.1, ihChildren all.2.1, ihRest all.2.2⟩

theorem all_iff_mem : All p forest ↔ ∀ node ∈ forest.toList, p node := by
  induction forest with
  | nil => simp [All, toList]
  | cons node children rest ihChildren ihRest =>
    simp only [All, toList, mem_cons, mem_append, ihChildren, ihRest]
    constructor
    · rintro ⟨here, below, behind⟩ other (rfl | member | member)
      · exact here
      · exact below other member
      · exact behind other member
    · intro all
      exact ⟨all node (.inl rfl), fun other member => all other (.inr (.inl member)),
        fun other member => all other (.inr (.inr member))⟩

/-! ## Nodes in the same places -/

/-- Two forests of the same shape, with related nodes. -/
inductive Rel (r : α → β → Prop) : Forest α → Forest β → Prop
  | nil : Rel r nil nil
  | cons {node : α} {node' : β} {children rest : Forest α} {children' rest' : Forest β}
      (here : r node node') (below : Rel r children children') (behind : Rel r rest rest') :
      Rel r (cons node children rest) (cons node' children' rest')

variable {γ : Type*} {r : α → β → Prop} {forest' : Forest β}

theorem Rel.refl {r : α → α → Prop} (same : ∀ x, r x x) (forest : Forest α) : Rel r forest forest := by
  induction forest with
  | nil => exact .nil
  | cons node children rest ihChildren ihRest => exact .cons (same node) ihChildren ihRest

theorem Rel.imp {r' : α → β → Prop} (rel : Rel r forest forest') (weaker : ∀ x y, r x y → r' x y) :
    Rel r' forest forest' := by
  induction rel with
  | nil => exact .nil
  | cons here _ _ below behind => exact .cons (weaker _ _ here) below behind

theorem Rel.comp {r' : β → γ → Prop} {r'' : α → γ → Prop} {forest'' : Forest γ}
    (first : Rel r forest forest') (second : Rel r' forest' forest'')
    (both : ∀ x y z, r x y → r' y z → r'' x z) : Rel r'' forest forest'' := by
  induction first generalizing forest'' with
  | nil =>
    cases second
    exact .nil
  | cons here _ _ below behind =>
    cases second with
    | cons here' below' behind' => exact .cons (both _ _ _ here here') (below below') (behind behind')

theorem Rel.map (f : α → β) (related : ∀ x, r x (f x)) (forest : Forest α) :
    Rel r forest (forest.map f) := by
  induction forest with
  | nil => exact .nil
  | cons node children rest ihChildren ihRest => exact .cons (related node) ihChildren ihRest

theorem Rel.all {q : β → Prop} (rel : Rel r forest forest') (all : All p forest)
    (keeps : ∀ x y, r x y → p x → q y) : All q forest' := by
  induction rel with
  | nil => trivial
  | cons here _ _ below behind => exact ⟨keeps _ _ here all.1, below all.2.1, behind all.2.2⟩

theorem Rel.mem_right {y : β} (rel : Rel r forest forest') (member : y ∈ forest'.toList) :
    ∃ x ∈ forest.toList, r x y := by
  induction rel with
  | nil => cases member
  | cons here _ _ below behind =>
    rcases mem_cons.1 member with rfl | member
    · exact ⟨_, mem_cons_self, here⟩
    · rcases mem_append.1 member with member | member
      · rcases below member with ⟨x, isNode, related⟩
        exact ⟨x, mem_cons_of_mem _ (mem_append_left _ isNode), related⟩
      · rcases behind member with ⟨x, isNode, related⟩
        exact ⟨x, mem_cons_of_mem _ (mem_append_right _ isNode), related⟩

theorem Rel.map_toList {δ : Type*} (f : α → δ) (g : β → δ) (rel : Rel r forest forest')
    (same : ∀ x y, r x y → f x = g y) : forest.toList.map f = forest'.toList.map g := by
  induction rel with
  | nil => rfl
  | cons here _ _ below behind =>
    simp only [toList, map_cons, map_append, below, behind, same _ _ here]

theorem Rel.with_left {p : α → Prop} (rel : Rel r forest forest') (all : All p forest) :
    Rel (fun x y => p x ∧ r x y) forest forest' := by
  induction rel with
  | nil => exact .nil
  | cons here _ _ below behind => exact .cons ⟨all.1, here⟩ (below all.2.1) (behind all.2.2)

theorem Rel.with_right {q : β → Prop} (rel : Rel r forest forest') (all : All q forest') :
    Rel (fun x y => r x y ∧ q y) forest forest' := by
  induction rel with
  | nil => exact .nil
  | cons here _ _ below behind => exact .cons ⟨here, all.1⟩ (below all.2.1) (behind all.2.2)

theorem Rel.map_right (f : β → γ) {r' : α → γ → Prop} (rel : Rel r forest forest')
    (related : ∀ x y, r x y → r' x (f y)) : Rel r' forest (forest'.map f) := by
  induction rel with
  | nil => exact .nil
  | cons here _ _ below behind => exact .cons (related _ _ here) below behind

/-! ## A node by name -/

/-- A node of a forest: its parent, its children, the nodes after it, and the forest with
another node in its place. -/
structure Focus (α : Type*) where
  parent : Option α
  node : α
  children : Forest α
  rest : Forest α
  plug : α → Forest α → Forest α

def focus? [DecidableEq β] (name : α → β) (wanted : β) : Option α → Forest α → Option (Focus α)
  | _, nil => none
  | parent, cons node children rest =>
    if name node = wanted then some ⟨parent, node, children, rest, fun node children => cons node children rest⟩
    else
      match focus? name wanted (some node) children with
      | some focus => some { focus with plug := fun node' below => cons node (focus.plug node' below) rest }
      | none =>
        match focus? name wanted parent rest with
        | some focus =>
          some { focus with plug := fun node' below => cons node children (focus.plug node' below) }
        | none => none

/-- The first of the trees of a forest. -/
def plugFirst (focus : Focus α) : Forest α → Forest α
  | nil => focus.plug focus.node focus.children
  | cons node children _ => focus.plug node children

theorem focus?_spec [DecidableEq β] {focus : Focus α}
    (found : focus? name wanted parent forest = some focus) :
    name focus.node = wanted ∧ focus.node ∈ forest.toList ∧
      focus.plug focus.node focus.children = forest := by
  induction forest generalizing parent focus with
  | nil => cases found
  | cons node children rest ihChildren ihRest =>
    rw [focus?] at found
    split at found
    · rename_i isWanted
      obtain rfl := some.inj found
      exact ⟨isWanted, mem_cons_self, rfl⟩
    · split at found
      · rename_i below inChildren
        obtain rfl := some.inj found
        rcases ihChildren inChildren with ⟨isWanted, member, same⟩
        exact ⟨isWanted, mem_cons_of_mem _ (mem_append_left _ member),
          congrArg (fun below => cons node below rest) same⟩
      · split at found
        · rename_i behind inRest
          obtain rfl := some.inj found
          rcases ihRest inRest with ⟨isWanted, member, same⟩
          exact ⟨isWanted, mem_cons_of_mem _ (mem_append_right _ member),
            congrArg (cons node children) same⟩
        · cases found

theorem focus?_none [DecidableEq β]
    (missing : focus? name wanted parent forest = none) : ∀ node ∈ forest.toList, name node ≠ wanted := by
  induction forest generalizing parent with
  | nil =>
    intro node member
    cases member
  | cons node children rest ihChildren ihRest =>
    rw [focus?] at missing
    split at missing
    · cases missing
    · rename_i notHere
      split at missing
      · cases missing
      · rename_i notBelow
        split at missing
        · cases missing
        · rename_i notBehind
          intro other member
          rcases mem_cons.1 member with rfl | member
          · exact notHere
          · rcases mem_append.1 member with member | member
            · exact ihChildren notBelow other member
            · exact ihRest notBehind other member

theorem plug_rel [DecidableEq β] {focus : Focus α}
    {r : α → α → Prop} (same : ∀ x, r x x) (found : focus? name wanted parent forest = some focus)
    {node : α} {children : Forest α} (rel : Rel r (tree focus.node focus.children) (tree node children)) :
    Rel r forest (focus.plug node children) := by
  induction forest generalizing parent focus with
  | nil => cases found
  | cons node' children' rest ihChildren ihRest =>
    rw [focus?] at found
    split at found
    · obtain rfl := some.inj found
      cases rel with
      | cons here below _ => exact .cons here below (.refl same rest)
    · split at found
      · rename_i below inChildren
        obtain rfl := some.inj found
        exact .cons (same node') (ihChildren inChildren rel) (.refl same rest)
      · split at found
        · rename_i behind inRest
          obtain rfl := some.inj found
          exact .cons (same node') (.refl same children') (ihRest inRest rel)
        · cases found

theorem plugFirst_rel [DecidableEq β] {focus : Focus α}
    {r : α → α → Prop} (same : ∀ x, r x x) (found : focus? name wanted parent forest = some focus)
    {result : Forest α} (rel : Rel r (tree focus.node focus.children) result) :
    Rel r forest (plugFirst focus result) := by
  cases rel with
  | cons here below behind =>
    cases behind
    exact plug_rel same found (.cons here below .nil)

theorem mem_plug [DecidableEq β] {focus : Focus α}
    (found : focus? name wanted parent forest = some focus) (node : α) (children : Forest α) :
    node ∈ (focus.plug node children).toList := by
  induction forest generalizing parent focus with
  | nil => cases found
  | cons node' children' rest ihChildren ihRest =>
    rw [focus?] at found
    split at found
    · obtain rfl := some.inj found
      exact mem_cons_self
    · split at found
      · rename_i below inChildren
        obtain rfl := some.inj found
        exact mem_cons_of_mem _ (mem_append_left _ (ihChildren inChildren))
      · split at found
        · rename_i behind inRest
          obtain rfl := some.inj found
          exact mem_cons_of_mem _ (mem_append_right _ (ihRest inRest))
        · cases found

end Forest

end PadOS
