import PadOS.Kernel.MutexSafety

/-! # `KConditionVariable`

A wait queues its node and unlocks the mutex in one section. Once the thread runs again it
locks the mutex, which may suspend it a second time with its node still queued, and only
then looks whether the node is gone. Next to the variable a state keeps which nodes a wakeup
took off, and which waits have given up the mutex and not got it back.
-/

namespace PadOS.Kernel

open Transition List
open Function (update_self update_of_ne update)

/-- `WaitInternal` without a clock, `WaitDeadlineInternal` with one; `lock` tells that a
mutex was passed. -/
structure WaitCall where
  lock : Bool
  cancelable : Bool
  clock : Option Deadline
  deriving DecidableEq, Repr

inductive WaitPlace
  | outside (result : Option PErrorCode)
  | entering (call : WaitCall) (first : Bool)
  | suspended (call : WaitCall)
  | locking (call : WaitCall)
  | detaching (call : WaitCall)
  deriving DecidableEq, Repr

structure ConditionState (τ : Type) where
  mutex : MutexState τ
  waitQueue : List τ
  wait : τ → WaitPlace
  woken : τ → Bool
  owes : τ → Bool

variable {τ : Type} [DecidableEq τ]

/-- The thread that a step belongs to. -/
def MutexStep.thread : MutexStep τ → τ
  | .call thread _ | .unknownClock thread | .runs thread _ | .TryLock thread
  | .TryLockShared thread | .Unlock thread | .awaken thread | .blockElsewhere thread _ => thread

namespace ConditionState

def initial (recursionMode : PEMutexRecursionMode) : ConditionState τ where
  mutex := MutexState.initial recursionMode
  waitQueue := []
  wait := fun _ => .outside none
  woken := fun _ => false
  owes := fun _ => false

def goto (s : ConditionState τ) (thread : τ) (place : WaitPlace) : ConditionState τ :=
  { s with wait := update s.wait thread place }

def leave (s : ConditionState τ) (thread : τ) (result : PErrorCode) : ConditionState τ :=
  s.goto thread (.outside (some result))

/-- The thread blocks, and the mutex is unlocked where one was passed. -/
def block (m : MutexState τ) (thread : τ) (call : WaitCall) : MutexState τ :=
  let blocked := m.blockElsewhere thread
    (match call.clock with
      | some (some _) => .Sleeping
      | _ => .Waiting)
  if call.lock then blocked.Unlock thread else blocked

section

variable (s : ConditionState τ)

variable (thread : τ)

variable (call : WaitCall)

def suspend : ConditionState τ :=
  { mutex := block s.mutex thread call
    waitQueue := s.waitQueue ++ [thread]
    wait := update s.wait thread (.suspended call)
    woken := update s.woken thread false
    owes := update s.owes thread call.lock }

def firstSection (now : Int)
    (canceled : Bool) : ConditionState τ :=
  if call.cancelable && canceled then s.leave thread .intr
  else
    match call.clock with
    | none => s.suspend thread call
    | some deadline =>
      if deadline.isOpen now then s.suspend thread call else s.leave thread .timedout

/-- Behind the context switch `lock->Lock()` is called, where a mutex was passed. -/
def resume : ConditionState τ :=
  if call.lock then
    { s with mutex := s.mutex.goto thread (.entering (Lock false) true) }.goto thread
      (.locking call)
  else s.goto thread (.detaching call)

/-- `lock->Lock()` has returned; its result is not looked at. -/
def locked (result : Option PErrorCode) :
    ConditionState τ :=
  { s with
    owes := if result = some PErrorCode.success then update s.owes thread false else s.owes }.goto
      thread (.detaching call)

def secondSection : ConditionState τ :=
  if thread ∈ s.waitQueue then
    { s with waitQueue := s.waitQueue.erase thread }.goto thread (.entering call false)
  else s.leave thread .success

def Wakeup (threadCount : Nat) : ConditionState τ :=
  let (waitQueue, threadState) :=
    wakeup_wait_queue s.waitQueue threadCount s.mutex.threadState
  { s with
    mutex := { s.mutex with threadState := threadState }
    waitQueue := waitQueue
    woken := fun thread =>
      s.woken thread || thread ∈ s.waitQueue.take (wakeLimit s.waitQueue threadCount) }

def isOutside : Bool :=
  match s.wait thread with
  | .outside _ => true
  | _ => false

/-- A thread inside of a wait takes only the steps of its own `lock->Lock()`. -/
def mayStep : MutexStep τ → Bool
  | .awaken _ => true
  | .runs thread _ =>
    match s.wait thread with
    | .outside _ | .locking _ => true
    | _ => false
  | op => s.isOutside op.thread

def runs (now : Int) (canceled : Bool) :
    Option (ConditionState τ) :=
  if s.mutex.threadState thread = .Ready then
    match s.wait thread with
    | .outside _ => none
    | .entering call _ => some (s.firstSection thread call now canceled)
    | .suspended call => some (s.resume thread call)
    | .locking call =>
      match s.mutex.place thread with
      | .outside result => some (s.locked thread call result)
      | _ => none
    | .detaching call => some (s.secondSection thread call)
  else none

/-- `kconvert_clock_to_monotonic` refuses the clock before the first section. -/
def unknownClock : Option (ConditionState τ) :=
  match s.wait thread with
  | .entering ⟨_, _, some _⟩ true => some (s.leave thread .inval)
  | _ => none

/-- A wait begins in a thread that runs outside of any call. -/
def beginWait : Option (ConditionState τ) :=
  if s.isOutside thread && s.mutex.isOutside thread && s.mutex.threadState thread = .Ready then
    some { s with
      wait := update s.wait thread (.entering call true)
      woken := update s.woken thread false }
  else none

end

end ConditionState

/-- A wakeup comes from any thread that runs, or from an interrupt handler. -/
inductive ConditionStep (τ : Type)
  | mutex (op : MutexStep τ)
  | wait (thread : τ) (call : WaitCall)
  | unknownClock (thread : τ)
  | runs (thread : τ) (now : Int) (canceled : Bool)
  | Wakeup (threadCount : Nat)

def conditionSystem (τ : Type) [DecidableEq τ] : System (ConditionState τ) (ConditionStep τ) where
  step s
    | .mutex op =>
      if s.mayStep op then
        ((mutexSystem τ).step s.mutex op).map fun mutex => { s with mutex := mutex }
      else none
    | .wait thread call => s.beginWait thread call
    | .unknownClock thread => s.unknownClock thread
    | .runs thread now canceled => s.runs thread now canceled
    | .Wakeup threadCount => some (s.Wakeup threadCount)

def MutexState.Holds (s : MutexState τ) (thread : τ) : Prop :=
  thread ∈ s.exclusiveHolds ∨ thread ∈ s.sharedHolds

/-- Threads unlock what they hold, and wait with a mutex that they hold. -/
def waitsWithItsOwn : Condition (ConditionState τ) (ConditionStep τ)
  | s, .mutex op => unlocksItsOwn s.mutex op
  | s, .wait thread call => call.lock = true → s.mutex.Holds thread
  | _, _ => True

namespace MutexState

variable {s t : MutexState τ} {thread other : τ}

/-- The other threads stay where they are, and keep what they hold. -/
structure LeavesOthers (s t : MutexState τ) (thread : τ) : Prop where
  place : ∀ other, other ≠ thread → t.place other = s.place other
  holds : ∀ other, other ≠ thread → s.Holds other → t.Holds other

omit [DecidableEq τ] in
theorem LeavesOthers.trans {u : MutexState τ} (first : LeavesOthers s t thread)
    (second : LeavesOthers t u thread) : LeavesOthers s u thread :=
  ⟨fun other ne => (second.place other ne).trans (first.place other ne),
    fun other ne holds => second.holds other ne (first.holds other ne holds)⟩

omit [DecidableEq τ] in
theorem LeavesOthers.of_eq (place : t.place = s.place)
    (exclusive : t.exclusiveHolds = s.exclusiveHolds) (shared : t.sharedHolds = s.sharedHolds) :
    LeavesOthers s t thread := by
  refine ⟨fun other _ => by rw [place], fun other _ holds => ?_⟩
  unfold Holds at *
  rwa [exclusive, shared]

theorem LeavesOthers.goto (s : MutexState τ) (thread : τ) (target : LockPlace) :
    LeavesOthers s (s.goto thread target) thread :=
  ⟨fun _ ne => update_of_ne ne _ _, fun _ _ holds => holds⟩

omit [DecidableEq τ] in
theorem Holds.acquire (mode : LockMode) (holds : s.Holds other) :
    (s.acquire thread mode).Holds other := by
  cases mode with
  | exclusive => exact holds.imp_left (mem_cons_of_mem thread)
  | shared => exact holds.imp_right (mem_cons_of_mem thread)

section

variable (s : MutexState τ)

omit [DecidableEq τ] in
theorem acquire_holds (thread : τ) (mode : LockMode) :
    (s.acquire thread mode).Holds thread := by
  cases mode with
  | exclusive => exact .inl mem_cons_self
  | shared => exact .inr mem_cons_self

theorem LeavesOthers.succeed (thread : τ) (mode : LockMode) :
    LeavesOthers s ((s.acquire thread mode).leave thread .success) thread :=
  LeavesOthers.trans ⟨fun _ _ => by rw [acquire_place], fun _ _ holds => holds.acquire mode⟩
    (LeavesOthers.goto _ thread _)

theorem LeavesOthers.drop (thread : τ) : LeavesOthers s (s.drop thread) thread := by
  refine ⟨fun _ _ => by rw [(drop_rest s thread).2], fun other ne holds => ?_⟩
  unfold MutexState.drop
  split
  · exact holds.imp_left (mem_erase_of_ne ne).mpr
  · exact holds.imp_right (mem_erase_of_ne ne).mpr

theorem LeavesOthers.release (thread : τ) (count : Int) :
    LeavesOthers s (s.release count) thread := by
  unfold MutexState.release
  split
  · exact .of_eq rfl rfl rfl
  · exact .of_eq rfl rfl rfl

theorem LeavesOthers.unlock (thread : τ) :
    LeavesOthers s (s.Unlock thread) thread := by
  have released (count : Int) :
      LeavesOthers s (((s.drop thread).release count).leave thread .success) thread :=
    ((LeavesOthers.drop s thread).trans (.release _ thread count)).trans (.goto _ thread _)
  unfold MutexState.Unlock
  split
  · exact released _
  · split
    · exact released _
    · exact .goto s thread _

end

theorem LockEnds.leavesOthers {mode : LockMode} (ends : LockEnds s thread mode t) :
    LeavesOthers s t thread := by
  cases ends with
  | taken => exact .succeed s thread mode
  | suspends => exact ⟨fun _ ne => update_of_ne ne _ _, fun _ _ holds => holds⟩
  | fails => exact .goto s thread _
  | again => exact .goto s thread _

theorem LeavesOthers.secondSection (s : MutexState τ) (thread : τ) (call : LockCall) :
    LeavesOthers s (s.secondSection thread call) thread := by
  rcases secondSection_ends s thread call with ends | ends
  · exact LeavesOthers.trans (t := s.detach thread) (.of_eq rfl rfl rfl) ends.leavesOthers
  · exact LeavesOthers.trans (t := (s.detach thread).wakeAll) (.of_eq rfl rfl rfl)
      ends.leavesOthers

theorem LeavesOthers.step {op : MutexStep τ} (applies : (mutexSystem τ).step s op = some t) :
    LeavesOthers s t op.thread := by
  cases op with
  | call thread call | unknownClock thread =>
    rcases whenOutside_eq_some.mp applies with ⟨_, _, rfl⟩
    exact .goto s thread _
  | runs thread now =>
    change s.runs thread now = some t at applies
    unfold MutexState.runs at applies
    split at applies
    case isFalse => cases applies
    case isTrue =>
      split at applies
      case h_1 => cases applies
      case h_2 entering => exact (firstSection_ends entering applies).leavesOthers
      case h_3 =>
        cases applies
        exact .secondSection s thread _
  | TryLock thread | TryLockShared thread =>
    rcases whenOutside_eq_some.mp applies with ⟨_, _, rfl⟩
    exact (tryLock_ends s thread _).leavesOthers
  | Unlock thread =>
    rcases whenOutside_eq_some.mp applies with ⟨_, _, rfl⟩
    exact .unlock s thread
  | awaken thread =>
    cases applies
    exact .of_eq rfl rfl rfl
  | blockElsewhere thread state =>
    rcases whenOutside_eq_some.mp applies with ⟨_, _, rfl⟩
    exact .of_eq rfl rfl rfl

/-- Where `lock->Lock()` stands in a wait. -/
def LockingAt (place : LockPlace) : Prop :=
  (∃ first, place = .entering (Lock false) first) ∨ place = .suspended (Lock false) ∨
    place = .outside (some .success)

theorem succeed_at (s : MutexState τ) (thread : τ) (mode : LockMode) :
    LockingAt (((s.acquire thread mode).leave thread .success).place thread) ∧
      ((s.acquire thread mode).leave thread .success).Holds thread := by
  refine ⟨.inr (.inr ?_), acquire_holds s thread mode⟩
  rw [succeed_place, update_self]

theorem secondSection_lock (s : MutexState τ) (thread : τ) : s.secondSection thread (Lock false) =
    if (s.detach thread).mutex.retakeable .exclusive = true then
      ((s.detach thread).acquire thread .exclusive).leave thread .success
    else (s.detach thread).goto thread (.entering (Lock false) false) := rfl

theorem runs_locking {now : Int} (locking : LockingAt (s.place thread))
    (ran : s.runs thread now = some t) : LockingAt (t.place thread) ∧
      (t.place thread = .outside (some .success) → t.Holds thread) := by
  unfold MutexState.runs at ran
  split at ran
  case isFalse => cases ran
  case isTrue =>
    rcases locking with ⟨first, entering⟩ | suspended | outside
    · simp only [entering] at ran
      unfold MutexState.firstSection at ran
      split at ran
      case isTrue =>
        cases ran
        exact ⟨(succeed_at s thread _).1, fun _ => (succeed_at s thread _).2⟩
      case isFalse =>
        split at ran
        case isTrue => cases ran
        case isFalse =>
          change some (s.suspend thread (Lock false)) = some t at ran
          cases ran
          have moved : (s.suspend thread (Lock false)).place thread = .suspended (Lock false) :=
            update_self ..
          refine ⟨.inr (.inl moved), fun success => ?_⟩
          rw [moved] at success
          cases success
    · simp only [suspended, Option.some.injEq] at ran
      rw [← ran]
      rw [secondSection_lock]
      by_cases retakes : (s.detach thread).mutex.retakeable .exclusive = true
      · rw [if_pos retakes]
        exact ⟨(succeed_at _ thread _).1, fun _ => (succeed_at _ thread _).2⟩
      · rw [if_neg retakes]
        have moved : ((s.detach thread).goto thread (.entering (Lock false) false)).place thread =
            .entering (Lock false) false := update_self ..
        refine ⟨.inl ⟨false, moved⟩, fun success => ?_⟩
        rw [moved] at success
        cases success
    · simp [outside] at ran

end MutexState

end PadOS.Kernel
