import PadOS.Core.ErrorCode

/-! # Bounded runs

A loop whose length the code does not bound is given a number of rounds. Its
result is `none` while the rounds have not sufficed, so a run that is shown to end
in a value has ended.
-/

namespace PadOS

abbrev Run (α : Type) := ExceptT Stop Option α

namespace Run

variable {α β : Type}

def unfinished : Run α := (none : Option (Except Stop α))

def ofExcept (result : Except Stop α) : Run α := some result

theorem ofExcept_ok (a : α) : ofExcept (.ok a) = (pure a : Run α) := rfl

theorem pure_inj {a b : α} : (pure a : Run α) = pure b ↔ a = b := by
  constructor
  · intro same
    exact Except.ok.inj (Option.some.inj same)
  · intro same
    rw [same]

theorem ofExcept_eq_pure {result : Except Stop α} {a : α} :
    ofExcept result = pure a ↔ result = .ok a := by
  constructor
  · intro same
    exact Option.some.inj same
  · intro same
    rw [same]
    rfl

theorem bind_eq_pure {x : Run α} {f : α → Run β} {b : β} (ended : x >>= f = pure b) :
    ∃ a, x = pure a ∧ f a = pure b := by
  match x with
  | none => cases ended
  | some (.error stop) => cases ended
  | some (.ok a) => exact ⟨a, rfl, ended⟩

theorem map_eq_pure {x : Run α} {f : α → β} {b : β} (ended : f <$> x = pure b) :
    ∃ a, x = pure a ∧ f a = b := by
  rcases x with _ | stop | a
  · cases ended
  · cases ended
  · exact ⟨a, rfl, pure_inj.1 ended⟩

theorem bind_congr_of_ended {x : Run α} {f g : α → Run β} (same : ∀ a, x = pure a → f a = g a) :
    x >>= f = x >>= g := by
  rcases x with _ | stop | a
  · rfl
  · rfl
  · exact same a rfl

/-! ## Rounds that suffice -/

/-- The rounds have sufficed; a value that is returned meets a condition. -/
def Finishes (x : Run α) (returns : α → Prop) : Prop :=
  ∃ result, x = ofExcept result ∧ ∀ a, result = .ok a → returns a

variable {x : Run α} {f : α → Run β} {returns returns' : α → Prop} {returnsNext : β → Prop}

theorem finishes_pure {a : α} (holds : returns a) : Finishes (pure a : Run α) returns := by
  refine ⟨.ok a, rfl, ?_⟩
  intro b same
  obtain rfl := Except.ok.inj same
  exact holds

theorem finishes_throw (stop : Stop) : Finishes (throw stop : Run α) returns :=
  ⟨.error stop, rfl, fun _ impossible => nomatch impossible⟩

theorem finishes_ofExcept {result : Except Stop α} (holds : ∀ a, result = .ok a → returns a) :
    Finishes (ofExcept result) returns :=
  ⟨result, rfl, holds⟩

theorem Finishes.bind (finishes : Finishes x returns) (rest : ∀ a, returns a → Finishes (f a) returnsNext) :
    Finishes (x >>= f) returnsNext := by
  rcases finishes with ⟨stop | a, rfl, holds⟩
  · exact finishes_throw stop
  · exact rest a (holds a rfl)

theorem Finishes.mono (finishes : Finishes x returns) (weaker : ∀ a, returns a → returns' a) :
    Finishes x returns' := by
  rcases finishes with ⟨result, same, holds⟩
  exact ⟨result, same, fun a ended => weaker a (holds a ended)⟩

end Run

end PadOS
