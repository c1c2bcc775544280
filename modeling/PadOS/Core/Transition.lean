import Mathlib.Logic.Function.Basic

/-! # Labelled systems and conditioned runs

A system applies an operation to a state or refuses it. A conditioned run takes
only operations that meet a predicate in the state they are applied to, so an
invariant may be claimed for the runs that stay clear of a given branch. The
plain runs are those of the trivial condition.
-/

namespace PadOS.Transition

structure System (σ ω : Type*) where
  step : σ → ω → Option σ

/-- A condition on an operation, read in the state before it is applied. -/
abbrev Condition (σ ω : Type*) := σ → ω → Prop

def anyStep {σ ω : Type*} : Condition σ ω := fun _ _ => True

variable {σ ω : Type*}

/-- The states reached from `s` by operations that all meet `good`. -/
inductive System.Reaches (M : System σ ω) (good : Condition σ ω) (s : σ) : σ → Prop
  | refl : M.Reaches good s s
  | tail {t u : σ} {op : ω} (run : M.Reaches good s t) (meets : good t op)
      (applies : M.step t op = some u) : M.Reaches good s u

namespace System

variable {M : System σ ω} {good good' : Condition σ ω} {s t u : σ} {op : ω}

theorem Reaches.single (meets : good s op) (applies : M.step s op = some t) :
    M.Reaches good s t :=
  .tail .refl meets applies

theorem Reaches.next (run : M.Reaches good s t) (op : ω) (meets : good t op)
    (applies : M.step t op = some u) : M.Reaches good s u :=
  .tail run meets applies

theorem Reaches.trans (first : M.Reaches good s t) (second : M.Reaches good t u) :
    M.Reaches good s u := by
  induction second with
  | refl => exact first
  | tail _ meets applies ih => exact .tail ih meets applies

theorem Reaches.head (meets : good s op) (applies : M.step s op = some t)
    (rest : M.Reaches good t u) : M.Reaches good s u :=
  (Reaches.single meets applies).trans rest

theorem Reaches.mono (weaker : ∀ x o, good x o → good' x o) (run : M.Reaches good s t) :
    M.Reaches good' s t := by
  induction run with
  | refl => exact .refl
  | tail _ meets applies ih => exact .tail ih (weaker _ _ meets) applies

theorem Reaches.invariant (Inv : σ → Prop) (run : M.Reaches good s t) (start : Inv s)
    (keeps : ∀ {x y o}, Inv x → good x o → M.step x o = some y → Inv y) : Inv t := by
  induction run with
  | refl => exact start
  | tail _ meets applies ih => exact keeps ih meets applies

/-- The state after a list of operations, each of which applies. -/
def after (M : System σ ω) (s : σ) : List ω → Option σ
  | [] => some s
  | op :: ops => (M.step s op).bind fun t => M.after t ops

theorem reaches_after {ops : List ω} (after : M.after s ops = some t) : M.Reaches anyStep s t := by
  induction ops generalizing s with
  | nil =>
    cases after
    exact .refl
  | cons op ops ih =>
    rcases Option.bind_eq_some_iff.1 after with ⟨u, applies, after⟩
    exact .head trivial applies (ih after)

end System

end PadOS.Transition
