import Mathlib.Data.List.Basic
import Mathlib.Logic.Function.Basic

/-! # Wait queues

A thread that blocks stands in the wait queue of the object it waits for, by a node
on its own stack. Waking a queue takes nodes off its front; a thread that already
runs again loses its node all the same.
-/

namespace PadOS.Kernel

open List

/-- What the scheduler knows of a thread; the running thread counts as ready. -/
inductive ThreadState
  | Ready | Sleeping | Waiting
  deriving DecidableEq, Repr

def ThreadState.blocked (state : ThreadState) : Bool :=
  state = .Sleeping || state = .Waiting

variable {τ : Type} [DecidableEq τ]

/-- `add_thread_to_ready_list`, for a thread that sleeps or waits. -/
def wakeThread (states : τ → ThreadState) (thread : τ) : τ → ThreadState :=
  if (states thread).blocked then Function.update states thread .Ready else states

/-- The loop of `wakeup_wait_queue`, over the nodes it still may take. -/
def wakeup_loop : List τ → Nat → (τ → ThreadState) → List τ × (τ → ThreadState)
  | [], _, states => ([], states)
  | queue, 0, states => (queue, states)
  | thread :: queue, maxCount + 1, states => wakeup_loop queue maxCount (wakeThread states thread)

/-- A count of zero stands for the largest `int`, more than the nodes memory can hold. -/
def wakeup_wait_queue (queue : List τ) (maxCount : Nat) (states : τ → ThreadState) :
    List τ × (τ → ThreadState) :=
  wakeup_loop queue (if maxCount = 0 then queue.length else maxCount) states

/-- How many nodes a wakeup takes. -/
def wakeLimit (queue : List τ) (maxCount : Nat) : Nat :=
  if maxCount = 0 then queue.length else min maxCount queue.length

omit [DecidableEq τ] in
theorem wakeLimit_zero (queue : List τ) : wakeLimit queue 0 = queue.length := rfl

theorem wakeThread_self (states : τ → ThreadState) (thread : τ) :
    wakeThread states thread thread = .Ready := by
  unfold wakeThread
  cases state : states thread <;> simp [ThreadState.blocked, state]

theorem wakeThread_of_ne (states : τ → ThreadState) {thread other : τ} (ne : other ≠ thread) :
    wakeThread states thread other = states other := by
  unfold wakeThread
  split
  · exact Function.update_of_ne ne _ _
  · rfl

theorem wakeThread_ready (states : τ → ThreadState) (thread other : τ)
    (ready : states other = .Ready) : wakeThread states thread other = .Ready := by
  by_cases same : other = thread
  · rw [same]
    exact wakeThread_self states thread
  · rw [wakeThread_of_ne states same, ready]

section

variable (queue : List τ) (maxCount : Nat) (states : τ → ThreadState)

include queue maxCount states

theorem wakeup_loop_queue :
    (wakeup_loop queue maxCount states).1 = queue.drop maxCount := by
  induction queue generalizing maxCount states with
  | nil => simp [wakeup_loop]
  | cons thread queue ih =>
    cases maxCount with
    | zero => rfl
    | succ maxCount =>
      show (wakeup_loop queue maxCount (wakeThread states thread)).1 = queue.drop maxCount
      exact ih maxCount _

theorem wakeup_loop_ready (other : τ)
    (ready : states other = .Ready) : (wakeup_loop queue maxCount states).2 other = .Ready := by
  induction queue generalizing maxCount states with
  | nil => exact ready
  | cons thread queue ih =>
    cases maxCount with
    | zero => exact ready
    | succ maxCount => exact ih maxCount _ (wakeThread_ready states thread other ready)

theorem wakeup_loop_states (other : τ) :
    (wakeup_loop queue maxCount states).2 other =
      if other ∈ queue.take maxCount then .Ready else states other := by
  induction queue generalizing maxCount states with
  | nil => simp [wakeup_loop]
  | cons thread queue ih =>
    cases maxCount with
    | zero => simp [wakeup_loop]
    | succ maxCount =>
      show (wakeup_loop queue maxCount (wakeThread states thread)).2 other = _
      rw [take_succ_cons]
      by_cases same : other = thread
      · subst same
        rw [if_pos mem_cons_self]
        exact wakeup_loop_ready queue maxCount _ other (wakeThread_self states other)
      · rw [ih, wakeThread_of_ne states same]
        simp [same]

@[simp] theorem wakeup_wait_queue_queue
    :
    (wakeup_wait_queue queue maxCount states).1 = queue.drop (wakeLimit queue maxCount) := by
  unfold wakeup_wait_queue wakeLimit
  rw [wakeup_loop_queue]
  split
  · rfl
  · rcases Nat.le_total maxCount queue.length with small | large
    · rw [Nat.min_eq_left small]
    · rw [Nat.min_eq_right large, drop_of_length_le large, drop_length]

@[simp] theorem wakeup_wait_queue_states
    (other : τ) :
    (wakeup_wait_queue queue maxCount states).2 other =
      if other ∈ queue.take (wakeLimit queue maxCount) then .Ready else states other := by
  unfold wakeup_wait_queue wakeLimit
  rw [wakeup_loop_states]
  congr 1
  split
  · rfl
  · rcases Nat.le_total maxCount queue.length with small | large
    · rw [Nat.min_eq_left small]
    · rw [Nat.min_eq_right large, take_of_length_le large, take_length]

end

end PadOS.Kernel
