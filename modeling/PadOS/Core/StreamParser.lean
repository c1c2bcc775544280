import Mathlib.Algebra.GroupWithZero.Nat
import Mathlib.Data.List.Basic
import Mathlib.Data.List.Infix

/-!
# Parsers that take one symbol at a time

`feed` runs such a parser over a list of symbols and collects what it gives out. How the symbols
were cut into chunks does not matter, and what is given out is paid for by the symbols taken.
-/

namespace PadOS.ByteStream

open List

variable {σ β γ : Type*}

/-- The parser's state after the symbols, and all it has given out on the way. -/
def feed (step : σ → β → σ × List γ) (s : σ) : List β → σ × List γ
  | [] => (s, [])
  | symbol :: rest =>
    let taken := step s symbol
    let after := feed step taken.1 rest
    (after.1, taken.2 ++ after.2)

/-- The chunks one after the other, as the calls that bring them. -/
def feedChunks (step : σ → β → σ × List γ) (s : σ) : List (List β) → σ × List γ
  | [] => (s, [])
  | chunk :: rest =>
    let taken := feed step s chunk
    let after := feedChunks step taken.1 rest
    (after.1, taken.2 ++ after.2)

variable {step : σ → β → σ × List γ} {s : σ}

@[simp] theorem feed_nil : feed step s [] = (s, []) := rfl

theorem feed_cons (symbol : β) (rest : List β) :
    feed step s (symbol :: rest) = ((feed step (step s symbol).1 rest).1,
        (step s symbol).2 ++ (feed step (step s symbol).1 rest).2) := rfl

theorem feed_append (first second : List β) :
    feed step s (first ++ second) = ((feed step (feed step s first).1 second).1,
        (feed step s first).2 ++ (feed step (feed step s first).1 second).2) := by
  induction first generalizing s with
  | nil => rfl
  | cons symbol rest ih =>
    rw [cons_append, feed_cons, ih, feed_cons]
    simp only [append_assoc]

theorem feedChunks_eq (chunks : List (List β)) :
    feedChunks step s chunks = feed step s chunks.flatten := by
  induction chunks generalizing s with
  | nil => rfl
  | cons chunk rest ih =>
    rw [flatten_cons, feed_append]
    show ((feedChunks step _ rest).1, _ ++ (feedChunks step _ rest).2) = _
    rw [ih]

theorem feed_invariant {P : σ → Prop} (keeps : ∀ s symbol, P s → P (step s symbol).1)
    (holds : P s) (symbols : List β) : P (feed step s symbols).1 := by
  induction symbols generalizing s with
  | nil => exact holds
  | cons symbol rest ih => exact ih (keeps s symbol holds)

/-- A parser that holds at most the symbols of what it will give out next cannot give out more
than it was fed. -/
theorem feed_cost {held : σ → Nat} {cost : γ → Nat}
    (pays : ∀ s symbol, ((step s symbol).2.map cost).sum + held (step s symbol).1 ≤ held s + 1)
    (symbols : List β) :
    ((feed step s symbols).2.map cost).sum + held (feed step s symbols).1 ≤
      held s + symbols.length := by
  induction symbols generalizing s with
  | nil => simp
  | cons symbol rest ih =>
    have first := pays s symbol
    have others := ih (s := (step s symbol).1)
    rw [feed_cons, length_cons]
    simp only [map_append, sum_append]
    omega

/-- Every step of the run meets the condition. -/
def Along (step : σ → β → σ × List γ) (good : σ → β → Prop) : σ → List β → Prop
  | _, [] => True
  | s, symbol :: rest => good s symbol ∧ Along step good (step s symbol).1 rest

theorem feed_simulation {τ : Type*} {other : τ → β → τ × List γ} {good : σ → β → Prop}
    {R : σ → τ → Prop} (simulates : ∀ s t symbol, R s t → good s symbol →
      (step s symbol).2 = (other t symbol).2 ∧ R (step s symbol).1 (other t symbol).1)
    {t : τ} (related : R s t) {symbols : List β} (run : Along step good s symbols) :
    (feed step s symbols).2 = (feed other t symbols).2 ∧
      R (feed step s symbols).1 (feed other t symbols).1 := by
  induction symbols generalizing s t with
  | nil => exact ⟨rfl, related⟩
  | cons symbol rest ih =>
    have first := simulates s t symbol related run.1
    have others := ih first.2 run.2
    rw [feed_cons, feed_cons]
    constructor
    · simp only [first.1, others.1]
    · exact others.2

theorem not_pair_cons {a b symbol : β} {rest : List β} (absent : ¬ [a, b] <:+: symbol :: rest) :
    ¬ [a, b] <:+: rest ∧ (symbol = a → rest.head? ≠ some b) := by
  constructor
  · intro inside
    exact absent (inside.trans (suffix_cons symbol rest).isInfix)
  · intro same head
    cases rest with
    | nil => cases head
    | cons next rest =>
      cases head
      subst same
      exact absent ⟨[], rest, rfl⟩

end PadOS.ByteStream
