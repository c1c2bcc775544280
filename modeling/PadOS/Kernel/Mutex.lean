import PadOS.Core.ErrorCode
import PadOS.Core.Transition
import PadOS.Kernel.WaitQueue

/-! # `KMutex`

One signed count encodes both ways of holding the lock. Each critical section is one
step: a blocking call first tries the lock and queues its node, and in a second section,
once the scheduler runs it again, takes the node off and tries once more. Next to the
mutex a state keeps the holds that are out; no section reads them.
-/

namespace PadOS.Kernel

open Transition Function

/-- The code tells only these two modes from the rest. -/
inductive PEMutexRecursionMode
  | RaiseError | Recurse | other
  deriving DecidableEq, Repr

/-- `holder` is `none` for the handle -1. -/
structure KMutex (τ : Type) where
  count : Int
  holder : Option τ
  recursionMode : PEMutexRecursionMode
  waitQueue : List τ

inductive LockMode
  | exclusive | shared
  deriving DecidableEq, Repr

/-- A point of the monotonic clock, or none for the infinite one. -/
abbrev Deadline := Option Int

def Deadline.isOpen (deadline : Deadline) (now : Int) : Bool :=
  match deadline with
  | none => true
  | some instant => now < instant

/-- A blocking call; one without a clock retakes the lock in its second section. -/
structure LockCall where
  mode : LockMode
  clock : Option Deadline
  interruptible : Bool
  deriving DecidableEq, Repr

def Lock (interruptible : Bool) : LockCall := ⟨.exclusive, none, interruptible⟩

def LockClock (deadline : Deadline) (interruptible : Bool) : LockCall :=
  ⟨.exclusive, some deadline, interruptible⟩

def LockShared (interruptible : Bool) : LockCall := ⟨.shared, none, interruptible⟩

def LockSharedClock (deadline : Deadline) (interruptible : Bool) : LockCall :=
  ⟨.shared, some deadline, interruptible⟩

/-- Where a thread stands: outside with the result of its last call, before the first
section of a call, or between its two sections. -/
inductive LockPlace
  | outside (result : Option PErrorCode)
  | entering (call : LockCall) (first : Bool)
  | suspended (call : LockCall)
  deriving DecidableEq, Repr

structure MutexState (τ : Type) where
  mutex : KMutex τ
  threadState : τ → ThreadState
  place : τ → LockPlace
  exclusiveHolds : List τ
  sharedHolds : List τ

variable {τ : Type} [DecidableEq τ]

namespace KMutex

/-- The test of the first section. -/
def takeable (m : KMutex τ) (thread : τ) : LockMode → Bool
  | .exclusive => m.count = 0 || (m.recursionMode = .Recurse && m.holder = some thread)
  | .shared => 0 ≤ m.count

/-- The test of the second section. -/
def retakeable (m : KMutex τ) : LockMode → Bool
  | .exclusive => m.count = 0
  | .shared => 0 ≤ m.count

def take (m : KMutex τ) (thread : τ) : LockMode → KMutex τ
  | .exclusive => { m with count := m.count - 1, holder := some thread }
  | .shared => { m with count := m.count + 1 }

/-- The assertion that a thread does not lock what it holds; the return of `DEADLK` behind
it is left out. -/
def raises (m : KMutex τ) (thread : τ) (mode : LockMode) : Bool :=
  mode = .exclusive && m.recursionMode = .RaiseError && m.holder = some thread

end KMutex

namespace MutexState

def initial (recursionMode : PEMutexRecursionMode) : MutexState τ where
  mutex := ⟨0, none, recursionMode, []⟩
  threadState := fun _ => .Ready
  place := fun _ => .outside none
  exclusiveHolds := []
  sharedHolds := []

section

variable (s : MutexState τ)

variable (thread : τ)

def goto (place : LockPlace) : MutexState τ :=
  { s with place := update s.place thread place }

def leave (result : PErrorCode) : MutexState τ :=
  s.goto thread (.outside (some result))

def acquire (mode : LockMode) : MutexState τ :=
  match mode with
  | .exclusive =>
    { s with mutex := s.mutex.take thread .exclusive, exclusiveHolds := thread :: s.exclusiveHolds }
  | .shared =>
    { s with mutex := s.mutex.take thread .shared, sharedHolds := thread :: s.sharedHolds }

/-- The node is appended and the scheduler is asked to switch. -/
def suspend (call : LockCall) : MutexState τ :=
  { s with
    mutex := { s.mutex with waitQueue := s.mutex.waitQueue ++ [thread] }
    threadState := update s.threadState thread (match call.clock with
        | some (some _) => .Sleeping
        | _ => .Waiting)
    place := update s.place thread (.suspended call) }

/-- `waitNode.Detatch()` -/
def detach : MutexState τ :=
  { s with mutex := { s.mutex with waitQueue := s.mutex.waitQueue.erase thread } }

/-- `wakeup_wait_queue(&m_WaitQueue, 0, 0)` -/
def wakeAll : MutexState τ :=
  let (waitQueue, threadState) := wakeup_wait_queue s.mutex.waitQueue 0 s.threadState
  { s with mutex := { s.mutex with waitQueue := waitQueue }, threadState := threadState }

/-- The first section; none where the assertion stops the kernel. -/
def firstSection (call : LockCall) (first : Bool) (now : Int) :
    Option (MutexState τ) :=
  if s.mutex.takeable thread call.mode then
    some ((s.acquire thread call.mode).leave thread .success)
  else if s.mutex.raises thread call.mode then none
  else
    match call.clock with
    | none => some (s.suspend thread call)
    | some deadline =>
      if deadline.isOpen now then
        if !first && call.interruptible then some (s.leave thread .restartsyscall)
        else some (s.suspend thread call)
      else some (s.leave thread .timedout)

def secondSection (call : LockCall) : MutexState τ :=
  let detached := s.detach thread
  match call.clock with
  | none =>
    if detached.mutex.retakeable call.mode then
      (detached.acquire thread call.mode).leave thread .success
    else if call.interruptible then detached.leave thread .restartsyscall
    else detached.goto thread (.entering call false)
  | some _ =>
    match call.mode with
    | .exclusive => detached.goto thread (.entering call false)
    | .shared => detached.wakeAll.goto thread (.entering call false)

def tryLock (mode : LockMode) : MutexState τ :=
  if s.mutex.takeable thread mode then (s.acquire thread mode).leave thread .success
  else s.leave thread .busy

def TryLock : MutexState τ := s.tryLock thread .exclusive

def TryLockShared : MutexState τ := s.tryLock thread .shared

/-- The hold that an unlocking thread gives back. -/
def drop : MutexState τ :=
  if thread ∈ s.exclusiveHolds then
    { s with exclusiveHolds := s.exclusiveHolds.erase thread }
  else { s with sharedHolds := s.sharedHolds.erase thread }

/-- The end of `Unlock`, where the count has become `count`. -/
def release (count : Int) : MutexState τ :=
  if count = 0 then
    { s with mutex := { s.mutex with count := 0, holder := none } }.wakeAll
  else { s with mutex := { s.mutex with count := count } }

def Unlock : MutexState τ :=
  if s.mutex.count < 0 then
    (((s.drop thread).release (s.mutex.count + 1)).leave thread .success)
  else if 0 < s.mutex.count then
    (((s.drop thread).release (s.mutex.count - 1)).leave thread .success)
  else s.leave thread .inval

/-- Some signal or timer makes a blocked thread ready. -/
def awaken : MutexState τ :=
  { s with threadState := wakeThread s.threadState thread }

/-- A thread outside of the mutex blocks on something else. -/
def blockElsewhere (state : ThreadState) : MutexState τ :=
  { s with threadState := update s.threadState thread state }

def isOutside : Bool :=
  match s.place thread with
  | .outside _ => true
  | _ => false

end

end MutexState

/-- What may happen next. A critical section reads the clock at some time `now`. -/
inductive MutexStep (τ : Type)
  | call (thread : τ) (call : LockCall)
  | unknownClock (thread : τ)
  | runs (thread : τ) (now : Int)
  | TryLock (thread : τ)
  | TryLockShared (thread : τ)
  | Unlock (thread : τ)
  | awaken (thread : τ)
  | blockElsewhere (thread : τ) (state : ThreadState)

/-- A call of a thread that runs outside. -/
def MutexState.whenOutside (s t : MutexState τ) (thread : τ) : Option (MutexState τ) :=
  if s.isOutside thread && s.threadState thread = .Ready then some t else none

/-- The next section of a thread that the scheduler runs. -/
def MutexState.runs (s : MutexState τ) (thread : τ) (now : Int) : Option (MutexState τ) :=
  if s.threadState thread = .Ready then
    match s.place thread with
    | .outside _ => none
    | .entering call first => s.firstSection thread call first now
    | .suspended call => some (s.secondSection thread call)
  else none

def mutexSystem (τ : Type) [DecidableEq τ] : System (MutexState τ) (MutexStep τ) where
  step s
    | .call thread call => s.whenOutside (s.goto thread (.entering call true)) thread
    | .unknownClock thread => s.whenOutside (s.leave thread .inval) thread
    | .runs thread now => s.runs thread now
    | .TryLock thread => s.whenOutside (s.TryLock thread) thread
    | .TryLockShared thread => s.whenOutside (s.TryLockShared thread) thread
    | .Unlock thread => s.whenOutside (s.Unlock thread) thread
    | .awaken thread => some (s.awaken thread)
    | .blockElsewhere thread state => s.whenOutside (s.blockElsewhere thread state) thread

/-- Each thread only unlocks what it holds. -/
def unlocksItsOwn : Condition (MutexState τ) (MutexStep τ)
  | s, .Unlock thread => thread ∈ s.exclusiveHolds ∨ thread ∈ s.sharedHolds
  | _, _ => True

end PadOS.Kernel
