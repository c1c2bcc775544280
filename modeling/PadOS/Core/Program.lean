import PadOS.Core.ErrorCode
import Mathlib.Logic.Basic

/-! # Programs of calls

A program is a tree of calls to an interface. A handler runs it; a specification of the
single calls says what holds after every run. What is proved of a program from the
specification holds of its runs by a handler that meets the specification.
-/

namespace PadOS

/-- A program over calls `e`, each of which returns a `V e` or stops. -/
inductive Program (E : Type) (V : E → Type) (α : Type)
  | done (result : Except Stop α)
  | call (e : E) (next : Except Stop (V e) → Program E V α)

namespace Program

variable {E : Type} {V : E → Type} {α β σ τ : Type} {s : σ}

def bind : Program E V α → (α → Program E V β) → Program E V β
  | .done (.ok a), f => f a
  | .done (.error stop), _ => .done (.error stop)
  | .call e next, f => .call e fun r => (next r).bind f

instance : Monad (Program E V) where
  pure a := .done (.ok a)
  bind := bind

def throws (code : PErrorCode) : Program E V α := .done (.error (.throws code))

def panics : Program E V α := .done (.error .panics)

def perform (e : E) : Program E V (V e) := .call e .done

/-- What is thrown is caught; a panic is not. -/
def handle : Program E V α → (PErrorCode → Program E V α) → Program E V α
  | .done (.error (.throws code)), f => f code
  | .done r, _ => .done r
  | .call e next, f => .call e fun r => (next r).handle f

/-- A scope with a cleanup for the case that it throws. The cleanup itself throws nothing. -/
def scopeFail (p : Program E V α) (cleanup : Program E V Unit) : Program E V α :=
  p.handle fun code => do
    cleanup.handle fun _ => pure ()
    throws code

/-- A scope with a cleanup that throws nothing and is made however the scope is left. -/
def scopeExit (p : Program E V α) (cleanup : Program E V Unit) : Program E V α := do
  let a ← p.scopeFail cleanup
  cleanup.handle fun _ => pure ()
  pure a

/-! ## Runs -/

abbrev Handler (E : Type) (V : E → Type) (σ : Type) := (e : E) → σ → Except Stop (V e) × σ

def run (h : Handler E V σ) : Program E V α → σ → Except Stop α × σ
  | .done r, s => (r, s)
  | .call e next, s => (next (h e s).1).run h (h e s).2

/-- Every call of the run meets a condition in the state it is made in. -/
def Keeps (h : Handler E V σ) (good : E → σ → Prop) : Program E V α → σ → Prop
  | .done _, _ => True
  | .call e next, s => good e s ∧ (next (h e s).1).Keeps h good (h e s).2

variable {h : Handler E V σ}

theorem keeps_any (p : Program E V α) (s : σ) : p.Keeps h (fun _ _ => True) s := by
  induction p generalizing s with
  | done _ => trivial
  | call e next ih => exact ⟨trivial, ih _ _⟩

theorem Keeps.mono {good good' : E → σ → Prop} {p : Program E V α}
    (keeps : p.Keeps h good s) (weaker : ∀ e s, good e s → good' e s) : p.Keeps h good' s := by
  induction p generalizing s with
  | done _ => trivial
  | call e next ih => exact ⟨weaker e s keeps.1, ih _ keeps.2⟩

theorem Keeps.and {good good' : E → σ → Prop} {p : Program E V α}
    (keeps : p.Keeps h good s) (keeps' : p.Keeps h good' s) :
    p.Keeps h (fun e s => good e s ∧ good' e s) s := by
  induction p generalizing s with
  | done _ => trivial
  | call e next ih => exact ⟨⟨keeps.1, keeps'.1⟩, ih _ keeps.2 keeps'.2⟩

theorem run_bind {p : Program E V α} {f : α → Program E V β} {s' : σ} {a : α}
    (ran : p.run h s = (.ok a, s')) : (p >>= f).run h s = (f a).run h s' := by
  induction p generalizing s with
  | done r =>
    cases ran
    rfl
  | call e next ih => exact ih (h e s).1 ran

theorem run_bind_error {p : Program E V α} {f : α → Program E V β} {s' : σ} {stop : Stop}
    (ran : p.run h s = (.error stop, s')) : (p >>= f).run h s = (.error stop, s') := by
  induction p generalizing s with
  | done r =>
    cases ran
    rfl
  | call e next ih => exact ih (h e s).1 ran

/-! ## What holds after every run -/

abbrev Spec (E : Type) (V : E → Type) (τ : Type) :=
  (e : E) → τ → (Except Stop (V e) → τ → Prop) → Prop

def Every (spec : Spec E V τ) : Program E V α → τ → (Except Stop α → τ → Prop) → Prop
  | .done r, t, post => post r t
  | .call e next, t, post => spec e t fun r t' => (next r).Every spec t' post

/-- More may be said after a call where more is said of the rest. -/
def Spec.Monotone (spec : Spec E V τ) : Prop :=
  ∀ e t (post post' : Except Stop (V e) → τ → Prop), (∀ r t', post r t' → post' r t') →
    spec e t post → spec e t post'

variable {spec : Spec E V τ} {t : τ} {p : Program E V α} {f : α → Program E V β}

theorem every_mono (monotone : spec.Monotone) {post post' : Except Stop α → τ → Prop}
    (every : p.Every spec t post) (weaker : ∀ r t', post r t' → post' r t') :
    p.Every spec t post' := by
  induction p generalizing t with
  | done r => exact weaker r t every
  | call e next ih =>
    apply monotone e t _ _ _ every
    intro r t' rest
    exact ih r rest

/-- What the rest of a program has to meet. -/
def Rest (spec : Spec E V τ) (f : α → Program E V β) (post : Except Stop β → τ → Prop) :
    Except Stop α → τ → Prop
  | .ok a, t => (f a).Every spec t post
  | .error stop, t => post (.error stop) t

theorem every_bind (post : Except Stop β → τ → Prop) :
    (p >>= f).Every spec t post ↔ p.Every spec t (Rest spec f post) := by
  induction p generalizing t with
  | done r =>
    cases r with
    | ok a => rfl
    | error stop => rfl
  | call e next ih =>
    have same : (fun r t' => ((next r).bind f).Every spec t' post) =
        fun r t' => (next r).Every spec t' (Rest spec f post) := by
      funext r t'
      exact propext (ih r)
    show spec e t (fun r t' => ((next r).bind f).Every spec t' post) ↔ _
    rw [same]
    rfl

/-- What a handler of exceptions has to meet. -/
def Caught (spec : Spec E V τ) (f : PErrorCode → Program E V α) (post : Except Stop α → τ → Prop) :
    Except Stop α → τ → Prop
  | .error (.throws code), t => (f code).Every spec t post
  | r, t => post r t

theorem every_handle (f : PErrorCode → Program E V α) (post : Except Stop α → τ → Prop) :
    (p.handle f).Every spec t post ↔ p.Every spec t (Caught spec f post) := by
  induction p generalizing t with
  | done r =>
    rcases r with stop | a
    · cases stop with
      | throws code => rfl
      | panics => rfl
    · rfl
  | call e next ih =>
    have same : (fun r t' => ((next r).handle f).Every spec t' post) =
        fun r t' => (next r).Every spec t' (Caught spec f post) := by
      funext r t'
      exact propext (ih r)
    show spec e t (fun r t' => ((next r).handle f).Every spec t' post) ↔ _
    rw [same]
    rfl

/-! ## Returning or throwing -/

/-- A result is returned, or something is thrown; a panic may end everything where `panics` holds. -/
def EndsOr (panics : Prop) (returns : α → τ → Prop) (fails : τ → Prop) : Except Stop α → τ → Prop
  | .ok a, t => returns a t
  | .error (.throws _), t => fails t
  | .error .panics, _ => panics

/-- Nothing panics. -/
abbrev Ends (returns : α → τ → Prop) (fails : τ → Prop) : Except Stop α → τ → Prop :=
  EndsOr False returns fails

/-- Nothing is said of a panic. -/
abbrev Settles (returns : α → τ → Prop) (fails : τ → Prop) : Except Stop α → τ → Prop :=
  EndsOr True returns fails

section EndsOr

variable {panics : Prop} {returns returns' : α → τ → Prop} {fails fails' : τ → Prop}
  {finally' : β → τ → Prop}

theorem EndsOr.mono (weaker : ∀ a t, returns a t → returns' a t) (weaker' : ∀ t, fails t → fails' t) :
    ∀ r t, EndsOr panics returns fails r t → EndsOr panics returns' fails' r t := by
  intro r t ends
  rcases r with (_ | _) | a
  · exact weaker' t ends
  · exact ends
  · exact weaker a t ends

section

variable (monotone : spec.Monotone) (every : p.Every spec t (EndsOr panics returns fails))

include monotone every

theorem ends_mono
    (weaker : ∀ a t, returns a t → returns' a t) (weaker' : ∀ t, fails t → fails' t) :
    p.Every spec t (EndsOr panics returns' fails') :=
  every_mono monotone every (EndsOr.mono weaker weaker')

theorem ends_bind
    (rest : ∀ a t', returns a t' → (f a).Every spec t' (EndsOr panics finally' fails'))
    (weaker : ∀ t', fails t' → fails' t') : (p >>= f).Every spec t (EndsOr panics finally' fails') := by
  rw [every_bind]
  apply every_mono monotone every
  intro r t' ends
  rcases r with (_ | _) | a
  · exact weaker t' ends
  · exact ends
  · exact rest a t' ends

theorem ends_handle {f : PErrorCode → Program E V α}
    (caught : ∀ code t', fails t' → (f code).Every spec t' (EndsOr panics returns fails')) :
    (p.handle f).Every spec t (EndsOr panics returns fails') := by
  rw [every_handle]
  apply every_mono monotone every
  intro r t' ends
  rcases r with (code | _) | a
  · exact caught code t' ends
  · exact ends
  · exact ends

theorem ends_scopeFail {cleanup : Program E V Unit}
    (cleans : ∀ t', fails t' → cleanup.Every spec t' (EndsOr panics (fun _ => fails') fails')) :
    (p.scopeFail cleanup).Every spec t (EndsOr panics returns fails') := by
  apply ends_handle monotone every
  intro _ t' failed
  have swallowed : (cleanup.handle fun _ => pure ()).Every spec t' (EndsOr panics (fun _ => fails') fails') := by
    apply ends_handle monotone (cleans t' failed)
    intro _ _ cleaned
    exact cleaned
  apply ends_bind monotone swallowed
  · intro _ _ cleaned
    exact cleaned
  · intro _ cleaned
    exact cleaned

theorem ends_scopeExit {cleanup : Program E V Unit}
    (cleans : ∀ a t', returns a t' → cleanup.Every spec t' (EndsOr panics (fun _ => returns' a) (returns' a)))
    (cleans' : ∀ t', fails t' → cleanup.Every spec t' (EndsOr panics (fun _ => fails') fails')) :
    (p.scopeExit cleanup).Every spec t (EndsOr panics returns' fails') := by
  apply ends_bind monotone (ends_scopeFail monotone every cleans')
  · intro a t' done
    have swallowed : (cleanup.handle fun _ => pure ()).Every spec t'
        (EndsOr panics (fun _ => returns' a) fun _ => False) := by
      apply ends_handle monotone (cleans a t' done)
      intro _ _ cleaned
      exact cleaned
    apply ends_bind monotone swallowed
    · intro _ _ cleaned
      exact cleaned
    · exact fun _ impossible => impossible.elim
  · exact fun _ failed => failed

end

end EndsOr

/-! ## Programs that are bounded -/

section Bounded

variable {mayFail : E → Prop} {allowed : E → τ → Prop}

/-- Only calls that are allowed are made, and only some of them fail. -/
def Spec.within (spec : Spec E V τ) (mayFail : E → Prop) (allowed : E → τ → Prop) : Spec E V τ :=
  fun e t post =>
    allowed e t ∧ spec e t fun r t' => (∀ stop, r = .error stop → mayFail e) → post r t'

theorem Spec.Monotone.within (monotone : spec.Monotone) : (spec.within mayFail allowed).Monotone := by
  intro e t post post' weaker ⟨isAllowed, bounded⟩
  refine ⟨isAllowed, monotone e t _ _ ?_ bounded⟩
  intro r t' holds mayFail
  exact weaker r t' (holds mayFail)

theorem every_of_within (monotone : spec.Monotone) {post : Except Stop α → τ → Prop}
    (every : p.Every (spec.within (fun _ => True) allowed) t post) : p.Every spec t post := by
  induction p generalizing t with
  | done r => exact every
  | call e next ih =>
    apply monotone e t _ _ _ every.2
    intro r t' rest
    exact ih r (rest fun _ _ => trivial)

end Bounded

/-! ## Soundness -/

/-- A handler meets a specification between related states, where its call is good. -/
def Meets (h : Handler E V σ) (good : E → σ → Prop) (spec : Spec E V τ) (rel : σ → τ → Prop) : Prop :=
  ∀ e s t post, rel s t → good e s → spec e t post → ∃ t', rel (h e s).2 t' ∧ post (h e s).1 t'

/-- A handler that fails at no other calls meets the bounded specification, and keeps
whatever the allowed calls keep. -/
theorem Meets.within {good : E → σ → Prop} {rel : σ → τ → Prop}
    (monotone : spec.Monotone) (meets : Meets h good spec rel) {mayFail : E → Prop}
    {allowed : E → τ → Prop} {kept : σ → Prop}
    (keeps : ∀ e s t, rel s t → good e s → spec e t (fun _ _ => True) → allowed e t → kept s →
      kept (h e s).2) :
    Meets h (fun e s => good e s ∧ ∀ stop, (h e s).1 = .error stop → mayFail e)
      (spec.within mayFail allowed) fun s t => rel s t ∧ kept s := by
  intro e s t post ⟨related, isKept⟩ ⟨isGood, fails⟩ ⟨isAllowed, holds⟩
  rcases meets e s t _ related isGood holds with ⟨t', related', met⟩
  have any := monotone e t _ _ (fun _ _ _ => trivial) holds
  exact ⟨t', ⟨related', keeps e s t related isGood any isAllowed isKept⟩, met fails⟩

theorem Meets.run {good : E → σ → Prop} {rel : σ → τ → Prop}
    (meets : Meets h good spec rel) {post : Except Stop α → τ → Prop} (related : rel s t)
    (keeps : p.Keeps h good s) (every : p.Every spec t post) :
    ∃ t', rel (p.run h s).2 t' ∧ post (p.run h s).1 t' := by
  induction p generalizing s t with
  | done r => exact ⟨t, related, every⟩
  | call e next ih =>
    rcases meets e s t _ related keeps.1 every with ⟨t', related', rest⟩
    exact ih _ related' keeps.2 rest

/-! ## One run -/

theorem bind_assoc {γ : Type} (p : Program E V α) (f : α → Program E V β) (g : β → Program E V γ) :
    p >>= f >>= g = p >>= fun a => f a >>= g := by
  induction p with
  | done r => cases r <;> rfl
  | call e next ih => exact congrArg (Program.call e) (funext ih)

/-- The specification that tells what a handler does. -/
def doing (h : Handler E V σ) : Spec E V σ := fun e s post => post (h e s).1 (h e s).2

theorem doing_monotone : (doing h).Monotone := fun _ _ _ _ weaker holds => weaker _ _ holds

theorem every_doing {post : Except Stop α → σ → Prop} :
    p.Every (doing h) s post ↔ post (p.run h s).1 (p.run h s).2 := by
  induction p generalizing s with
  | done r => rfl
  | call e next ih => exact ih (h e s).1

/-! ## How many calls are made -/

/-- The number of calls of a run. -/
def calls (h : Handler E V σ) : Program E V α → σ → Nat
  | .done _, _ => 0
  | .call e next, s => (next (h e s).1).calls h (h e s).2 + 1

/-- A counter of calls that may have any outcome. -/
def counting : Spec E V Nat := fun _ n post => ∀ r, post r (n + 1)

theorem counting_monotone : (counting : Spec E V Nat).Monotone :=
  fun _ _ _ _ weaker holds r => weaker r _ (holds r)

/-- No run makes more calls than are left. -/
def AtMost (p : Program E V α) (bound : Nat) : Prop :=
  ∀ n, p.Every counting n fun _ m => m ≤ n + bound

theorem every_counting {n : Nat} {post : Except Stop α → Nat → Prop}
    (every : p.Every counting n post) : post (p.run h s).1 (n + p.calls h s) := by
  induction p generalizing n s with
  | done r => exact every
  | call e next ih =>
    have rest := ih (h e s).1 (s := (h e s).2) (every (h e s).1)
    rw [Nat.add_right_comm] at rest
    exact rest

theorem every_of_forall {post : Except Stop α → Nat → Prop} (always : ∀ r m, post r m) (n : Nat) :
    p.Every counting n post := by
  induction p generalizing n with
  | done r => exact always r n
  | call e next ih => exact fun r => ih r (n + 1)

theorem AtMost.calls_le {bound : Nat} (atMost : p.AtMost bound) :
    p.calls h s ≤ bound := by
  have counted : 0 + p.calls h s ≤ 0 + bound := every_counting (atMost 0)
  omega

theorem AtMost.bind {bound bound' : Nat} (atMost : p.AtMost bound) (rest : ∀ a, (f a).AtMost bound') :
    (p >>= f).AtMost (bound + bound') := by
  intro n
  rw [every_bind]
  apply every_mono counting_monotone (atMost n)
  intro r m below
  rcases r with stop | a
  · show m ≤ _
    omega
  · apply every_mono counting_monotone (rest a m)
    intro _ k below'
    show k ≤ _
    omega

theorem AtMost.mono {bound bound' : Nat} (atMost : p.AtMost bound) (weaker : bound ≤ bound') :
    p.AtMost bound' := fun n =>
  every_mono counting_monotone (atMost n) fun _ m below => by omega

theorem atMost_done (r : Except Stop α) (bound : Nat) : (Program.done r : Program E V α).AtMost bound :=
  fun n => Nat.le_add_right n bound

theorem atMost_perform (e : E) : (perform e : Program E V (V e)).AtMost 1 := fun n _ => Nat.le_refl (n + 1)

end Program

end PadOS
