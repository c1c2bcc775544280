import PadOS.Core.Run

/-! # Runs that ask

A run that asks something on its way and goes on with the answer. Answered by an oracle
it is a plain run. A server with a state of its own may answer otherwise; while it
gives the answers of the oracle, the run ends as with the oracle.
-/

namespace PadOS

inductive Asking (Q A α : Type)
  | done (result : Run α)
  | ask (question : Q) (next : A → Asking Q A α)

namespace Asking

variable {Q A α β σ : Type} {x : Asking Q A α} {s s' : σ}

/-- The first error ends the run. -/
def bind : Asking Q A α → (α → Asking Q A β) → Asking Q A β
  | .done none, _ => .done Run.unfinished
  | .done (some (.error stop)), _ => .done (throw stop)
  | .done (some (.ok a)), f => f a
  | .ask question next, f => .ask question fun answer => (next answer).bind f

instance monad : Monad (Asking Q A) where
  pure a := .done (pure a)
  bind := bind

def ofExcept (result : Except Stop α) : Asking Q A α := .done (Run.ofExcept result)

def throws (code : PErrorCode) : Asking Q A α := ofExcept (.error (.throws code))

def unfinished : Asking Q A α := .done Run.unfinished

/-! ## With an oracle -/

section

variable {oracle : Q → Except Stop A}

def answered (oracle : Q → Except Stop A) : Asking Q A α → Run α
  | .done result => result
  | .ask question next =>
    match oracle question with
    | .error stop => throw stop
    | .ok answer => (next answer).answered oracle

theorem answered_pure (a : α) : (pure a : Asking Q A α).answered oracle = pure a := rfl

theorem answered_bind {f : α → Asking Q A β} {y : Run α} {g : α → Run β} (first : x.answered oracle = y)
    (rest : ∀ a, (f a).answered oracle = g a) : (x >>= f).answered oracle = y >>= g := by
  subst first
  induction x with
  | done result =>
    rcases result with _ | stop | a
    · rfl
    · rfl
    · exact rest a
  | ask question next ih =>
    show (ask question fun answer => next answer >>= f).answered oracle = _
    unfold answered
    cases oracle question with
    | error stop => rfl
    | ok answer => exact ih answer

end

/-! ## With a server -/

abbrev Server (Q A σ : Type) := Q → σ → Except Stop A × σ

def run (serve : Server Q A σ) : Asking Q A α → σ → Run (α × σ)
  | .done result, s => (fun a => (a, s)) <$> result
  | .ask question next, s =>
    match (serve question s).1 with
    | .error stop => throw stop
    | .ok answer => (next answer).run serve (serve question s).2

/-- Every question of the run meets a condition in the state it is asked in. -/
def Keeps (serve : Server Q A σ) (good : Q → σ → Prop) : Asking Q A α → σ → Prop
  | .done _, _ => True
  | .ask question next, s => good question s ∧ ∀ answer, (serve question s).1 = .ok answer →
      (next answer).Keeps serve good (serve question s).2

/-- In the states of an invariant a good question gets the answer of the oracle. -/
structure Follows (serve : Server Q A σ) (oracle : Q → Except Stop A) (good : Q → σ → Prop)
    (inv : σ → Prop) : Prop where
  answer : ∀ q s, inv s → good q s → (serve q s).1 = oracle q
  keeps : ∀ q s a, inv s → good q s → oracle q = .ok a → inv (serve q s).2

variable {serve : Server Q A σ} {oracle : Q → Except Stop A} {good : Q → σ → Prop} {inv : σ → Prop}

theorem keeps_of_good (always : ∀ q s, good q s) (x : Asking Q A α) (s : σ) : x.Keeps serve good s := by
  induction x generalizing s with
  | done _ => trivial
  | ask question next ih => exact ⟨always question s, fun answer _ => ih answer _⟩

section

variable (follows : Follows serve oracle good inv) (holds : inv s) (keeps : x.Keeps serve good s)

include follows holds keeps

theorem run_of_keeps :
    ∃ s', x.run serve s = (fun a => (a, s')) <$> x.answered oracle ∧
      ∀ a, x.answered oracle = pure a → inv s' := by
  induction x generalizing s with
  | done result => exact ⟨s, rfl, fun _ _ => holds⟩
  | ask question next ih =>
    have same := follows.answer question s holds keeps.1
    unfold run answered
    rw [same]
    cases told : oracle question with
    | error stop => exact ⟨s, rfl, fun _ _ => holds⟩
    | ok answer =>
      exact ih answer (follows.keeps question s answer holds keeps.1 told)
        (keeps.2 answer (same.trans told))

theorem run_eq_pure
    {a : α} :
    (∃ s', x.run serve s = pure (a, s')) ↔ x.answered oracle = pure a := by
  obtain ⟨s', same, -⟩ := run_of_keeps follows holds keeps
  rw [same]
  rcases x.answered oracle with _ | stop | b
  · constructor
    · rintro ⟨_, ⟨⟩⟩
    · rintro ⟨⟩
  · constructor
    · rintro ⟨_, ⟨⟩⟩
    · rintro ⟨⟩
  · constructor
    · rintro ⟨t, ended⟩
      exact Run.pure_inj.2 (congrArg Prod.fst (Run.pure_inj.1 ended))
    · intro ended
      exact ⟨s', Run.pure_inj.2 (congrArg (·, s') (Run.pure_inj.1 ended))⟩

end

end Asking

end PadOS
