import Mathlib.Tactic.Common

/-!
# Moves one after the other

A move writes its targets with what its sources hold. Moves that are made one after the other do
what they would do all at once when none writes what a later one reads.
-/

namespace PadOS.OrderedMoves

open List

structure Move (ι : Type*) where
  target : ι → Bool
  source : ι → ι

variable {ι α : Type*}

def Move.apply (move : Move ι) (state : ι → α) : ι → α := fun p =>
  if move.target p then state (move.source p) else state p

def run (moves : List (Move ι)) (state : ι → α) : ι → α :=
  moves.foldl (fun state move => move.apply state) state

/-- The first of two moves leaves what the second writes and what it reads. -/
def LeavesAlone (earlier later : Move ι) : Prop :=
  ∀ p, later.target p → ¬earlier.target p ∧ ¬earlier.target (later.source p)

variable {moves : List (Move ι)} {move : Move ι} {state : ι → α} {p : ι}

theorem run_of_untouched (untouched : ∀ move ∈ moves, ¬move.target p) :
    run moves state p = state p := by
  induction moves generalizing state with
  | nil => rfl
  | cons first rest ih =>
    have behind : run rest (first.apply state) p = first.apply state p :=
      ih fun move member => untouched move (mem_cons_of_mem _ member)
    rw [run, foldl_cons, ← run, behind, Move.apply,
      if_neg (untouched first mem_cons_self)]

theorem run_eq_source (ordered : moves.Pairwise LeavesAlone) (member : move ∈ moves)
    (inside : move.target p) : run moves state p = state (move.source p) := by
  induction moves generalizing state with
  | nil => cases member
  | cons first rest ih =>
    have ⟨leaves, behind⟩ := pairwise_cons.mp ordered
    rw [run, foldl_cons, ← run]
    rcases mem_cons.mp member with same | member
    · subst same
      have untouched : ∀ later ∈ rest, ¬later.target p :=
        fun later listed targets => (leaves later listed p targets).1 inside
      rw [run_of_untouched untouched, Move.apply, if_pos inside]
    · rw [ih behind member, Move.apply, if_neg (leaves move member p inside).2]

end PadOS.OrderedMoves
