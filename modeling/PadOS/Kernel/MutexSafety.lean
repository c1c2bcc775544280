import PadOS.Kernel.Mutex
import Mathlib.Data.List.Nodup

/-! # What `KMutex` keeps

The count agrees with the holds that are out, and each thread of the wait queue is
suspended on a lock it cannot take. Both are read off one section at a time.
-/

namespace PadOS.Kernel

open Transition List Option
open Function (update_self update_of_ne update)

variable {τ : Type}

/-- The count and the holder against the holds that are out. -/
structure HoldsAgree (count : Int) (holder : Option τ) (exclusive shared : List τ) : Prop where
  oneKind : exclusive = [] ∨ shared = []
  counted : count = shared.length - exclusive.length
  held : ∀ thread ∈ exclusive, holder = some thread
  free : exclusive = [] → holder = none

/-- The wait queue against the places and the states of the threads. -/
structure WaitersBlocked [DecidableEq τ] (m : KMutex τ) (threadState : τ → ThreadState) (place : τ → LockPlace) :
    Prop where
  queued : ∀ thread ∈ m.waitQueue, ∃ call, place thread = .suspended call ∧
    m.takeable thread call.mode = false
  nodup : m.waitQueue.Nodup
  blocked : ∀ thread call, place thread = .suspended call →
    (threadState thread).blocked = true → thread ∈ m.waitQueue

namespace HoldsAgree

variable {count : Int} {holder : Option τ} {exclusive shared : List τ} {thread : τ}

section

variable (agree : HoldsAgree count holder exclusive shared)

include agree

theorem exclusive_pos (held : holder = some thread) : 0 < exclusive.length := by
  apply length_pos_iff.mpr
  intro none
  rw [agree.free none] at held
  cases held

theorem negative :
    count < 0 ↔ exclusive ≠ [] := by
  have counted := agree.counted
  rw [← length_pos_iff]
  rcases agree.oneKind with none | none
  · rw [none] at counted ⊢
    simp only [length_nil] at counted ⊢
    omega
  · rw [none] at counted
    simp only [length_nil] at counted
    omega

theorem positive :
    0 < count ↔ shared ≠ [] := by
  have counted := agree.counted
  rw [← length_pos_iff]
  rcases agree.oneKind with none | none
  · rw [none] at counted
    simp only [length_nil] at counted
    omega
  · rw [none] at counted ⊢
    simp only [length_nil] at counted ⊢
    omega

theorem none_of_nonneg (nonneg : 0 ≤ count) :
    exclusive = [] := by
  by_contra some
  have := agree.negative.mpr some
  omega

theorem none_of_nonpos (nonpos : count ≤ 0) :
    shared = [] := by
  by_contra some
  have := agree.positive.mpr some
  omega

theorem takeFree (zero : count = 0) :
    HoldsAgree (count - 1) (some thread) (thread :: exclusive) shared := by
  have noExclusive := agree.none_of_nonneg (by omega)
  have noShared := agree.none_of_nonpos (by omega)
  subst noExclusive noShared zero
  constructor <;> simp

theorem takeAgain (held : holder = some thread) :
    HoldsAgree (count - 1) (some thread) (thread :: exclusive) shared := by
  have some := agree.exclusive_pos held
  have noShared : shared = [] := by
    rcases agree.oneKind with none | none
    · rw [none] at some
      cases some
    · exact none
  have counted := agree.counted
  refine ⟨.inr noShared, ?_, ?_, ?_⟩
  · rw [length_cons]
    omega
  · intro other member
    rcases mem_cons.mp member with same | earlier
    · rw [same]
    · rw [← held]
      exact agree.held other earlier
  · intro none
    cases none

theorem takeShared (nonneg : 0 ≤ count) :
    HoldsAgree (count + 1) holder exclusive (thread :: shared) := by
  have counted := agree.counted
  refine ⟨.inl (agree.none_of_nonneg nonneg), ?_, agree.held, agree.free⟩
  rw [length_cons]
  omega

end

variable [DecidableEq τ]

/-- One level of the exclusive hold is given back. -/
theorem dropExclusive (agree : HoldsAgree count holder exclusive shared)
    (holds : thread ∈ exclusive) :
    HoldsAgree (count + 1) (if count + 1 = 0 then none else holder) (exclusive.erase thread)
      shared := by
  have some : 0 < exclusive.length := length_pos_of_mem holds
  have noShared : shared = [] :=
    agree.none_of_nonpos (Int.le_of_lt (agree.negative.mpr (ne_nil_of_mem holds)))
  have counted := agree.counted
  have length := length_erase_of_mem holds
  rw [noShared, length_nil] at counted
  refine ⟨.inr noShared, ?_, ?_, ?_⟩
  · rw [length, noShared, length_nil]
    omega
  · intro other member
    have positive := length_pos_of_mem member
    rw [if_neg (by omega)]
    exact agree.held other (mem_of_mem_erase member)
  · intro none
    rw [none, length_nil] at length
    exact if_pos (by omega)

theorem dropShared (agree : HoldsAgree count holder exclusive shared) (holds : thread ∈ shared) :
    HoldsAgree (count - 1) (if count - 1 = 0 then none else holder) exclusive
      (shared.erase thread) := by
  have some : 0 < shared.length := length_pos_of_mem holds
  have noExclusive : exclusive = [] :=
    agree.none_of_nonneg (Int.le_of_lt (agree.positive.mpr (ne_nil_of_mem holds)))
  have counted := agree.counted
  have length := length_erase_of_mem holds
  refine ⟨.inl noExclusive, ?_, ?_, ?_⟩
  · rw [length]
    omega
  · rw [noExclusive]
    intro other member
    cases member
  · intro none
    split
    · rfl
    · exact agree.free none

end HoldsAgree

variable [DecidableEq τ]

namespace KMutex

variable {m : KMutex τ} {thread other : τ} {mode : LockMode}

theorem takeable_of_retakeable (retakeable : m.retakeable mode = true) :
    m.takeable thread mode = true := by
  cases mode with
  | exclusive =>
    simp only [KMutex.retakeable, decide_eq_true_eq] at retakeable
    simp [takeable, retakeable]
  | shared => exact retakeable

theorem takeable_of_zero (zero : m.count = 0) : m.takeable thread mode = true := by
  cases mode <;> simp [takeable, zero]

/-- Only the count's sign and the holder matter to a waiter. -/
theorem takeable_congr {n : KMutex τ} (sign : n.count.sign = m.count.sign)
    (holder : n.holder = m.holder) (recursionMode : n.recursionMode = m.recursionMode) :
    n.takeable thread mode = m.takeable thread mode := by
  have zero : n.count = 0 ↔ m.count = 0 := by
    rw [← Int.sign_eq_zero_iff_zero, sign, Int.sign_eq_zero_iff_zero]
  have nonneg : 0 ≤ n.count ↔ 0 ≤ m.count := by
    rw [← Int.sign_nonneg_iff, sign, Int.sign_nonneg_iff]
  cases mode <;> simp [takeable, zero, nonneg, holder, recursionMode]

end KMutex

namespace WaitersBlocked

variable {m n : KMutex τ} {threadState : τ → ThreadState} {place : τ → LockPlace} {thread : τ}

section

variable (waiters : WaitersBlocked m threadState place)

include waiters

theorem empty_of_zero (zero : m.count = 0) :
    m.waitQueue = [] := by
  apply eq_nil_iff_forall_not_mem.mpr
  intro thread member
  rcases waiters.queued thread member with ⟨call, _, refused⟩
  rw [KMutex.takeable_of_zero zero] at refused
  cases refused

theorem not_mem (elsewhere : ∀ call, place thread ≠ .suspended call) : thread ∉ m.waitQueue := by
  intro member
  rcases waiters.queued thread member with ⟨call, suspended, _⟩
  exact elsewhere call suspended

/-- A thread that has no node goes to another place outside of the queue. -/
theorem goto {target : LockPlace}
    (absent : thread ∉ m.waitQueue) (elsewhere : ∀ call, target ≠ .suspended call) :
    WaitersBlocked m threadState (update place thread target) := by
  refine ⟨?_, waiters.nodup, ?_⟩
  · intro other member
    have ne : other ≠ thread := fun same => absent (same ▸ member)
    rw [update_of_ne ne]
    exact waiters.queued other member
  · intro other call suspended
    by_cases same : other = thread
    · rw [same, update_self] at suspended
      exact absurd suspended (elsewhere call)
    · rw [update_of_ne same] at suspended
      exact waiters.blocked other call suspended

/-- The waiters of a mutex that refuses them as before. -/
theorem congr (queue : n.waitQueue = m.waitQueue)
    (refuses : ∀ other ∈ m.waitQueue, ∀ mode, m.takeable other mode = false →
      n.takeable other mode = false) : WaitersBlocked n threadState place := by
  refine ⟨?_, queue ▸ waiters.nodup, queue ▸ waiters.blocked⟩
  rw [queue]
  intro other member
  rcases waiters.queued other member with ⟨call, suspended, refused⟩
  exact ⟨call, suspended, refuses other member call.mode refused⟩

/-- Threads may become ready, and a thread outside of the queue may do as it likes. -/
theorem states {states : τ → ThreadState}
    (fewer : ∀ other call, place other = .suspended call → (states other).blocked = true →
      (threadState other).blocked = true) : WaitersBlocked m states place :=
  ⟨waiters.queued, waiters.nodup, fun other call suspended blocked =>
    waiters.blocked other call suspended (fewer other call suspended blocked)⟩

theorem suspend {call : LockCall} {state : ThreadState} (absent : thread ∉ m.waitQueue)
    (refused : m.takeable thread call.mode = false) :
    WaitersBlocked { m with waitQueue := m.waitQueue ++ [thread] }
      (update threadState thread state)
      (update place thread (.suspended call)) := by
  refine ⟨?_, ?_, ?_⟩
  · intro other member
    by_cases same : other = thread
    · subst same
      exact ⟨call, update_self .., refused⟩
    · rw [update_of_ne same]
      rcases mem_append.mp member with before | last
      · exact waiters.queued other before
      · exact absurd (mem_singleton.mp last) same
  · apply nodup_append.mpr
    refine ⟨waiters.nodup, nodup_singleton thread, ?_⟩
    intro other member last isLast same
    rw [same, mem_singleton.mp isLast] at member
    exact absent member
  · intro other otherCall suspended blocked
    by_cases same : other = thread
    · exact mem_append_right _ (mem_singleton.mpr same)
    · rw [update_of_ne same] at suspended blocked
      exact mem_append_left _ (waiters.blocked other otherCall suspended blocked)

theorem detach (ready : threadState thread = .Ready) :
    WaitersBlocked { m with waitQueue := m.waitQueue.erase thread } threadState place := by
  refine ⟨fun other member => waiters.queued other (mem_of_mem_erase member),
    waiters.nodup.erase thread, ?_⟩
  intro other call suspended blocked
  have ne : other ≠ thread := by
    intro same
    rw [same, ready] at blocked
    cases blocked
  exact (mem_erase_of_ne ne).mpr (waiters.blocked other call suspended blocked)

/-- With every node taken off, nobody is left to wait. -/
theorem wakeAll (queue : n.waitQueue = []) :
    WaitersBlocked n (wakeup_wait_queue m.waitQueue 0 threadState).2 place := by
  refine ⟨?_, by simp [queue], ?_⟩
  · intro other member
    rw [queue] at member
    cases member
  · intro other call suspended blocked
    rw [wakeup_wait_queue_states, wakeLimit_zero, take_length] at blocked
    split at blocked
    case isTrue => cases blocked
    case isFalse absent => exact absurd (waiters.blocked other call suspended blocked) absent

end

end WaitersBlocked

namespace MutexState

variable {s t : MutexState τ} {thread : τ} {call : LockCall} {mode : LockMode} {now : Int}

structure Safe (s : MutexState τ) : Prop where
  holds : HoldsAgree s.mutex.count s.mutex.holder s.exclusiveHolds s.sharedHolds
  waiters : WaitersBlocked s.mutex s.threadState s.place

theorem Safe.initial (recursionMode : PEMutexRecursionMode) :
    (initial recursionMode : MutexState τ).Safe := by
  constructor
  · constructor <;> simp [MutexState.initial]
  · constructor <;> simp [MutexState.initial]

/-- A queued thread refused before is refused by a lock that another call has taken. -/
theorem Safe.refuses_take (safe : s.Safe) (takes : s.mutex.takeable thread mode = true) :
    ∀ other ∈ s.mutex.waitQueue, ∀ wanted, s.mutex.takeable other wanted = false →
      (s.mutex.take thread mode).takeable other wanted = false := by
  intro other member wanted refused
  have taken : s.mutex.count ≠ 0 := by
    intro zero
    rw [safe.waiters.empty_of_zero zero] at member
    cases member
  cases mode with
  | exclusive =>
    have again : s.mutex.holder = some thread := by
      simp only [KMutex.takeable, taken, decide_false, Bool.false_or, Bool.and_eq_true,
        decide_eq_true_eq] at takes
      exact takes.2
    have negative : s.mutex.count < 0 :=
      safe.holds.negative.mpr (length_pos_iff.mp (safe.holds.exclusive_pos again))
    rw [← refused]
    apply KMutex.takeable_congr
    · show (s.mutex.count - 1).sign = s.mutex.count.sign
      rw [Int.sign_eq_neg_one_of_neg negative, Int.sign_eq_neg_one_of_neg (by omega)]
    · exact again.symm
    · rfl
  | shared =>
    have nonneg : 0 ≤ s.mutex.count := by simpa [KMutex.takeable] using takes
    rw [← refused]
    apply KMutex.takeable_congr
    · show (s.mutex.count + 1).sign = s.mutex.count.sign
      rw [Int.sign_eq_one_of_pos (by omega), Int.sign_eq_one_of_pos (by omega)]
    · rfl
    · rfl

theorem Safe.acquire (safe : s.Safe) (takes : s.mutex.takeable thread mode = true) :
    (s.acquire thread mode).Safe := by
  have refuses := safe.refuses_take takes
  cases mode with
  | exclusive =>
    refine ⟨?_, safe.waiters.congr rfl refuses⟩
    show HoldsAgree (s.mutex.count - 1) (some thread) (thread :: s.exclusiveHolds) s.sharedHolds
    by_cases zero : s.mutex.count = 0
    · exact safe.holds.takeFree zero
    · apply safe.holds.takeAgain
      simp only [KMutex.takeable, zero, decide_false, Bool.false_or, Bool.and_eq_true,
        decide_eq_true_eq] at takes
      exact takes.2
  | shared =>
    refine ⟨?_, safe.waiters.congr rfl refuses⟩
    exact safe.holds.takeShared (by simpa [KMutex.takeable] using takes)

theorem Safe.goto (safe : s.Safe) {target : LockPlace} (absent : thread ∉ s.mutex.waitQueue)
    (elsewhere : ∀ call, target ≠ .suspended call) : (s.goto thread target).Safe :=
  ⟨safe.holds, safe.waiters.goto absent elsewhere⟩

theorem Safe.leave (safe : s.Safe) {result : PErrorCode} (absent : thread ∉ s.mutex.waitQueue) :
    (s.leave thread result).Safe := by
  apply safe.goto absent
  intro call same
  cases same

omit [DecidableEq τ] in
theorem acquire_waitQueue (s : MutexState τ) (thread : τ) (mode : LockMode) :
    (s.acquire thread mode).mutex.waitQueue = s.mutex.waitQueue := by
  cases mode <;> rfl

theorem Safe.succeed (safe : s.Safe) (takes : s.mutex.takeable thread mode = true)
    (absent : thread ∉ s.mutex.waitQueue) : ((s.acquire thread mode).leave thread .success).Safe :=
  (safe.acquire takes).leave (by rwa [acquire_waitQueue])

theorem Safe.suspend (safe : s.Safe) (absent : thread ∉ s.mutex.waitQueue)
    (refused : s.mutex.takeable thread call.mode = false) : (s.suspend thread call).Safe :=
  ⟨safe.holds, safe.waiters.suspend absent refused⟩

theorem Safe.detach (safe : s.Safe) (ready : s.threadState thread = .Ready) :
    (s.detach thread).Safe := ⟨safe.holds, safe.waiters.detach ready⟩

theorem Safe.not_mem_detach (safe : s.Safe) : thread ∉ (s.detach thread).mutex.waitQueue :=
  safe.waiters.nodup.not_mem_erase

theorem wakeAll_waitQueue (s : MutexState τ) : s.wakeAll.mutex.waitQueue = [] := by
  show (wakeup_wait_queue s.mutex.waitQueue 0 s.threadState).1 = []
  rw [wakeup_wait_queue_queue, wakeLimit_zero, drop_length]

theorem Safe.wakeAll (safe : s.Safe) : s.wakeAll.Safe :=
  ⟨safe.holds, safe.waiters.wakeAll (wakeAll_waitQueue s)⟩

theorem Safe.awaken (safe : s.Safe) : (s.awaken thread).Safe := by
  refine ⟨safe.holds, safe.waiters.states ?_⟩
  intro other call _ blocked
  by_cases same : other = thread
  · rw [same] at blocked
    change (wakeThread s.threadState thread thread).blocked = true at blocked
    rw [wakeThread_self] at blocked
    cases blocked
  · rwa [← wakeThread_of_ne s.threadState same]

/-- The holds once a thread has given back one of its own, with the new count. -/
theorem Safe.drop_holds (safe : s.Safe)
    (owns : thread ∈ s.exclusiveHolds ∨ thread ∈ s.sharedHolds) :
    HoldsAgree (s.mutex.count - s.mutex.count.sign)
      (if s.mutex.count - s.mutex.count.sign = 0 then none else s.mutex.holder)
      (s.drop thread).exclusiveHolds (s.drop thread).sharedHolds := by
  unfold drop
  by_cases exclusive : thread ∈ s.exclusiveHolds
  · have negative := safe.holds.negative.mpr (ne_nil_of_mem exclusive)
    rw [if_pos exclusive, Int.sign_eq_neg_one_of_neg negative, Int.sub_neg]
    exact safe.holds.dropExclusive exclusive
  · have shared := owns.resolve_left exclusive
    have positive := safe.holds.positive.mpr (ne_nil_of_mem shared)
    rw [if_neg exclusive, Int.sign_eq_one_of_pos positive]
    exact safe.holds.dropShared shared

theorem drop_mutex (s : MutexState τ) (thread : τ) : (s.drop thread).mutex = s.mutex := by
  unfold drop
  split <;> rfl

theorem drop_rest (s : MutexState τ) (thread : τ) :
    (s.drop thread).threadState = s.threadState ∧ (s.drop thread).place = s.place := by
  unfold drop
  split <;> exact ⟨rfl, rfl⟩

/-- The wait queue is woken exactly where the count falls to zero. -/
theorem Safe.release (safe : s.Safe)
    (owns : thread ∈ s.exclusiveHolds ∨ thread ∈ s.sharedHolds) (nonzero : s.mutex.count ≠ 0) :
    ((s.drop thread).release (s.mutex.count - s.mutex.count.sign)).Safe := by
  have holds := safe.drop_holds owns
  have waiters : WaitersBlocked (s.drop thread).mutex (s.drop thread).threadState
      (s.drop thread).place := by
    rw [drop_mutex, (drop_rest s thread).1, (drop_rest s thread).2]
    exact safe.waiters
  unfold MutexState.release
  by_cases zero : s.mutex.count - s.mutex.count.sign = 0
  · rw [if_pos zero]
    rw [if_pos zero, zero] at holds
    exact ⟨holds, waiters.wakeAll (wakeAll_waitQueue _)⟩
  · rw [if_neg zero]
    rw [if_neg zero, ← drop_mutex s thread] at holds
    refine ⟨?_, waiters.congr rfl ?_⟩
    · rw [drop_mutex] at holds ⊢
      exact holds
    · intro other _ mode refused
      rw [← refused]
      apply KMutex.takeable_congr
      · show (s.mutex.count - s.mutex.count.sign).sign = (s.drop thread).mutex.count.sign
        rw [drop_mutex]
        rcases Int.lt_or_gt_of_ne nonzero with negative | positive
        · rw [Int.sign_eq_neg_one_of_neg negative] at zero ⊢
          exact Int.sign_eq_neg_one_of_neg (by omega)
        · rw [Int.sign_eq_one_of_pos positive] at zero ⊢
          exact Int.sign_eq_one_of_pos (by omega)
      · rfl
      · rfl

theorem release_waitQueue_subset (s : MutexState τ) (count : Int) :
    (s.release count).mutex.waitQueue ⊆ s.mutex.waitQueue := by
  unfold release
  split
  · rw [wakeAll_waitQueue]
    exact nil_subset _
  · exact List.Subset.refl _

theorem Safe.unlock (safe : s.Safe) (owns : thread ∈ s.exclusiveHolds ∨ thread ∈ s.sharedHolds)
    (absent : thread ∉ s.mutex.waitQueue) : (s.Unlock thread).Safe := by
  have stillAbsent (count : Int) : thread ∉ ((s.drop thread).release count).mutex.waitQueue := by
    intro member
    have before := release_waitQueue_subset _ _ member
    rw [drop_mutex] at before
    exact absent before
  unfold MutexState.Unlock
  split
  case isTrue negative =>
    have released := safe.release owns (by omega)
    rw [Int.sign_eq_neg_one_of_neg negative, Int.sub_neg] at released
    exact released.leave (stillAbsent _)
  case isFalse nonneg =>
    split
    case isTrue positive =>
      have released := safe.release owns (by omega)
      rw [Int.sign_eq_one_of_pos positive] at released
      exact released.leave (stillAbsent _)
    case isFalse => exact safe.leave absent

/-- A thread comes to the result of a timeout only from a first section that found the
lock taken, and leaves the lock as it was. -/
structure TimesOutRefused (s t : MutexState τ) (thread : τ) : Prop where
  enters : ∃ call first, s.place thread = .entering call first ∧
    s.mutex.takeable thread call.mode = false
  unchanged : t.mutex = s.mutex

/-- How a critical section of a locking call of `thread` ends. -/
inductive LockEnds (s : MutexState τ) (thread : τ) (mode : LockMode) : MutexState τ → Prop
  | taken (takes : s.mutex.takeable thread mode = true) :
    LockEnds s thread mode ((s.acquire thread mode).leave thread .success)
  | suspends {call : LockCall} (wanted : call.mode = mode)
    (refused : s.mutex.takeable thread mode = false) : LockEnds s thread mode (s.suspend thread call)
  | fails {result : PErrorCode} (failed : result ≠ .success)
    (timesOut : result = .timedout → TimesOutRefused s (s.leave thread result) thread) :
    LockEnds s thread mode (s.leave thread result)
  | again (call : LockCall) : LockEnds s thread mode (s.goto thread (.entering call false))

theorem firstSection_ends {first : Bool} (entering : s.place thread = .entering call first)
    (ran : s.firstSection thread call first now = some t) : LockEnds s thread call.mode t := by
  unfold MutexState.firstSection at ran
  by_cases takes : s.mutex.takeable thread call.mode = true
  · rw [if_pos takes] at ran
    cases ran
    exact .taken takes
  · rw [if_neg takes] at ran
    have refused := Bool.eq_false_iff.mpr takes
    split at ran
    case isTrue => cases ran
    case isFalse =>
      split at ran
      case h_1 =>
        cases ran
        exact .suspends rfl refused
      case h_2 =>
        split at ran
        case isTrue =>
          split at ran <;> cases ran
          · exact .fails (fun same => by cases same) fun same => by cases same
          · exact .suspends rfl refused
        case isFalse =>
          cases ran
          exact .fails (fun same => by cases same) fun _ => ⟨⟨call, first, entering, refused⟩, rfl⟩

/-- The node is taken off first, and a shared call with a clock wakes the queue. -/
theorem secondSection_ends (s : MutexState τ) (thread : τ) (call : LockCall) :
    LockEnds (s.detach thread) thread call.mode (s.secondSection thread call) ∨
      LockEnds (s.detach thread).wakeAll thread call.mode (s.secondSection thread call) := by
  unfold MutexState.secondSection
  cases call.clock with
  | none =>
    dsimp only
    split
    case isTrue retakes => exact .inl (.taken (KMutex.takeable_of_retakeable retakes))
    case isFalse =>
      split
      · exact .inl (.fails (fun same => by cases same) fun same => by cases same)
      · exact .inl (.again call)
  | some deadline =>
    cases call.mode with
    | exclusive => exact .inl (.again call)
    | shared => exact .inr (.again call)

theorem tryLock_ends (s : MutexState τ) (thread : τ) (mode : LockMode) :
    LockEnds s thread mode (s.tryLock thread mode) := by
  unfold MutexState.tryLock
  split
  case isTrue takes => exact .taken takes
  case isFalse => exact .fails (fun same => by cases same) fun same => by cases same

theorem LockEnds.safe (ends : LockEnds s thread mode t) (safe : s.Safe)
    (absent : thread ∉ s.mutex.waitQueue) : t.Safe := by
  cases ends with
  | taken takes => exact safe.succeed takes absent
  | suspends wanted refused => exact safe.suspend absent (wanted ▸ refused)
  | fails => exact safe.leave absent
  | again call =>
    apply safe.goto absent
    intro other same
    cases same

theorem Safe.secondSection (safe : s.Safe) (ready : s.threadState thread = .Ready) :
    (s.secondSection thread call).Safe := by
  have detached := safe.detach ready
  rcases secondSection_ends s thread call with ends | ends
  · exact ends.safe detached safe.not_mem_detach
  · apply ends.safe detached.wakeAll
    rw [wakeAll_waitQueue]
    exact not_mem_nil

omit [DecidableEq τ] in
theorem isOutside_eq_true (outside : s.isOutside thread = true) (call : LockCall) :
    s.place thread ≠ .suspended call := by
  intro suspended
  simp [isOutside, suspended] at outside

omit [DecidableEq τ] in
theorem whenOutside_eq_some {target : MutexState τ} :
    s.whenOutside target thread = some t ↔
      s.isOutside thread = true ∧ s.threadState thread = .Ready ∧ target = t := by
  simp [whenOutside, and_assoc]

theorem Safe.whenOutside (safe : s.Safe) {target : MutexState τ}
    (applies : s.whenOutside target thread = some t)
    (keeps : s.isOutside thread = true → thread ∉ s.mutex.waitQueue → target.Safe) : t.Safe := by
  rcases whenOutside_eq_some.mp applies with ⟨outside, _, same⟩
  rw [← same]
  exact keeps outside (safe.waiters.not_mem (isOutside_eq_true outside))

theorem Safe.runs (safe : s.Safe) (ran : s.runs thread now = some t) : t.Safe := by
  unfold MutexState.runs at ran
  split at ran
  case isFalse => cases ran
  case isTrue ready =>
    cases place : s.place thread with
    | outside result => simp [place] at ran
    | entering call first =>
      simp only [place] at ran
      apply (firstSection_ends place ran).safe safe
      apply safe.waiters.not_mem
      intro call suspended
      rw [place] at suspended
      cases suspended
    | suspended call =>
      simp only [place, some.injEq] at ran
      rw [← ran]
      exact safe.secondSection ready

theorem Safe.step (safe : s.Safe) {op : MutexStep τ} (own : unlocksItsOwn s op)
    (applies : (mutexSystem τ).step s op = some t) : t.Safe := by
  cases op with
  | call thread call =>
    apply safe.whenOutside applies
    intro _ absent
    apply safe.goto absent
    intro other same
    cases same
  | unknownClock thread => exact safe.whenOutside applies fun _ absent => safe.leave absent
  | runs thread now => exact safe.runs applies
  | TryLock thread | TryLockShared thread =>
    exact safe.whenOutside applies fun _ absent => (tryLock_ends s thread _).safe safe absent
  | Unlock thread => exact safe.whenOutside applies fun _ absent => safe.unlock own absent
  | awaken thread =>
    cases applies
    exact safe.awaken
  | blockElsewhere thread state =>
    apply safe.whenOutside applies
    intro outside _
    refine ⟨safe.holds, safe.waiters.states ?_⟩
    intro other call suspended blocked
    have ne : other ≠ thread := by
      intro same
      exact isOutside_eq_true outside call (same ▸ suspended)
    change (update s.threadState thread state other).blocked = true at blocked
    rwa [update_of_ne ne] at blocked

theorem Safe.reaches {recursionMode : PEMutexRecursionMode}
    (run : (mutexSystem τ).Reaches unlocksItsOwn (MutexState.initial recursionMode) s) : s.Safe :=
  run.invariant Safe (Safe.initial recursionMode) fun safe own applies => safe.step own applies

omit [DecidableEq τ] in
theorem acquire_place (s : MutexState τ) (thread : τ) (mode : LockMode) :
    (s.acquire thread mode).place = s.place := by
  cases mode <;> rfl

theorem leave_place (s : MutexState τ) (thread : τ) (result : PErrorCode) :
    (s.leave thread result).place = update s.place thread (.outside (some result)) := rfl

theorem succeed_place (s : MutexState τ) (thread : τ) (mode : LockMode) :
    ((s.acquire thread mode).leave thread .success).place =
      update s.place thread (.outside (some .success)) := by
  rw [leave_place, acquire_place]

theorem timedout_of_update {actor : τ} {target : LockPlace} (fresh : s.place thread ≠ .outside (some .timedout))
    (moved : t.place = update s.place actor target)
    (result : t.place thread = .outside (some .timedout)) :
    thread = actor ∧ target = .outside (some .timedout) := by
  rw [moved] at result
  by_cases same : thread = actor
  · subst same
    rw [update_self] at result
    exact ⟨rfl, result⟩
  · rw [update_of_ne same] at result
    exact absurd result fresh

theorem LockEnds.timedout {actor : τ} (ends : LockEnds s actor mode t)
    (fresh : s.place thread ≠ .outside (some .timedout))
    (result : t.place thread = .outside (some .timedout)) :
    thread = actor ∧ TimesOutRefused s t thread := by
  cases ends with
  | taken => cases (timedout_of_update fresh (succeed_place s actor mode) result).2
  | suspends => cases (timedout_of_update fresh rfl result).2
  | fails _ timesOut =>
    rcases timedout_of_update fresh rfl result with ⟨rfl, same⟩
    cases same
    exact ⟨rfl, timesOut rfl⟩
  | again => cases (timedout_of_update fresh rfl result).2

/-- The holds of one kind that are out. -/
def holdsOf (s : MutexState τ) : LockMode → List τ
  | .exclusive => s.exclusiveHolds
  | .shared => s.sharedHolds

/-- A call ends in success exactly when it adds a hold of the kind it wants. -/
def Grants (s t : MutexState τ) (thread : τ) (mode : LockMode) : Prop :=
  ∀ other, t.holdsOf other = if t.place thread = .outside (some .success) ∧ other = mode then
    thread :: s.holdsOf other else s.holdsOf other

theorem LockEnds.grants (ends : LockEnds s thread mode t) : Grants s t thread mode := by
  intro other
  cases ends with
  | taken =>
    rw [succeed_place, update_self]
    cases mode <;> cases other <;> rfl
  | suspends => exact (if_neg (by simp [suspend])).symm
  | fails failed => exact (if_neg (by simp [leave, goto, failed])).symm
  | again => exact (if_neg (by simp [goto])).symm

theorem tryLock_grants (s : MutexState τ) (thread : τ) (mode : LockMode) :
    Grants s (s.tryLock thread mode) thread mode := (tryLock_ends s thread mode).grants

theorem runs_grants (ran : s.runs thread now = some t) : ∃ mode, Grants s t thread mode := by
  unfold MutexState.runs at ran
  split at ran
  case isFalse => cases ran
  case isTrue =>
    cases place : s.place thread with
    | outside result => simp [place] at ran
    | entering call first =>
      simp only [place] at ran
      exact ⟨call.mode, (firstSection_ends place ran).grants⟩
    | suspended call =>
      simp only [place, some.injEq] at ran
      rw [← ran]
      rcases secondSection_ends s thread call with ends | ends
      · exact ⟨call.mode, ends.grants⟩
      · exact ⟨call.mode, ends.grants⟩

theorem release_place (s : MutexState τ) (count : Int) : (s.release count).place = s.place := by
  unfold MutexState.release
  split <;> rfl

theorem Unlock_place (s : MutexState τ) (thread : τ) :
    ∃ result, (s.Unlock thread).place = update s.place thread (.outside (some result)) ∧
      result ≠ .timedout := by
  have released (count : Int) : (((s.drop thread).release count).leave thread .success).place =
        update s.place thread (.outside (some .success)) := by
    rw [leave_place, release_place, (drop_rest s thread).2]
  unfold MutexState.Unlock
  split
  · exact ⟨_, released _, fun same => by cases same⟩
  · split
    · exact ⟨_, released _, fun same => by cases same⟩
    · exact ⟨_, rfl, fun same => by cases same⟩

theorem timedout_refused {op : MutexStep τ} (applies : (mutexSystem τ).step s op = some t)
    (fresh : s.place thread ≠ .outside (some .timedout))
    (result : t.place thread = .outside (some .timedout)) : TimesOutRefused s t thread := by
  have elsewhere {actor : τ} {target : LockPlace}
      (moved : t.place = update s.place actor target)
      (other : target ≠ .outside (some .timedout)) : TimesOutRefused s t thread :=
    absurd (timedout_of_update fresh moved result).2 other
  cases op with
  | call actor call | unknownClock actor =>
    rcases whenOutside_eq_some.mp applies with ⟨_, _, rfl⟩
    exact elsewhere rfl (fun same => by cases same)
  | runs actor now =>
    change s.runs actor now = some t at applies
    unfold MutexState.runs at applies
    split at applies
    case isFalse => cases applies
    case isTrue =>
      cases place : s.place actor with
      | outside result => simp [place] at applies
      | entering call first =>
        simp only [place] at applies
        exact ((firstSection_ends place applies).timedout fresh result).2
      | suspended call =>
        simp only [place, some.injEq] at applies
        -- A timeout leaves from a first section, and the thread is in its second one.
        rcases applies ▸ secondSection_ends s actor call with ends | ends
        all_goals
          rcases ends.timedout fresh result with ⟨rfl, ⟨_, _, entering, _⟩, _⟩
          cases place.symm.trans entering
  | TryLock actor =>
    rcases whenOutside_eq_some.mp applies with ⟨_, _, rfl⟩
    exact ((tryLock_ends s actor .exclusive).timedout fresh result).2
  | TryLockShared actor =>
    rcases whenOutside_eq_some.mp applies with ⟨_, _, rfl⟩
    exact ((tryLock_ends s actor .shared).timedout fresh result).2
  | Unlock actor =>
    rcases whenOutside_eq_some.mp applies with ⟨_, _, rfl⟩
    rcases Unlock_place s actor with ⟨code, moved, other⟩
    apply elsewhere moved
    intro same
    rw [LockPlace.outside.injEq, some.injEq] at same
    exact other same
  | awaken actor =>
    cases applies
    exact absurd result fresh
  | blockElsewhere actor state =>
    rcases whenOutside_eq_some.mp applies with ⟨_, _, rfl⟩
    exact absurd result fresh

/-- A reader/writer lock that loses no wakeup. -/
structure ReaderWriterLock (s : MutexState τ) : Prop where
  exclusive : s.mutex.count < 0 ↔ ∃! thread, thread ∈ s.exclusiveHolds
  depth : ∀ thread ∈ s.exclusiveHolds, s.mutex.holder = some thread ∧
    (s.exclusiveHolds.count thread : Int) = -s.mutex.count
  shared : 0 < s.mutex.count ↔ s.sharedHolds ≠ [] ∧ s.mutex.count = s.sharedHolds.length
  apart : s.exclusiveHolds = [] ∨ s.sharedHolds = []
  idle : s.mutex.count = 0 → s.mutex.holder = none ∧ s.mutex.waitQueue = []
  noSharedWaiter : 0 < s.mutex.count → ∀ thread ∈ s.mutex.waitQueue, ∃ call,
    s.place thread = .suspended call ∧ call.mode = .exclusive
  noLostWakeup : ∀ thread call, s.place thread = .suspended call →
    (s.threadState thread).blocked = true → s.mutex.takeable thread call.mode = false

theorem Safe.exclusive_eq_replicate (safe : s.Safe) (holds : thread ∈ s.exclusiveHolds) :
    s.exclusiveHolds = List.replicate s.exclusiveHolds.length thread := by
  apply eq_replicate_iff.mpr
  refine ⟨rfl, fun other member => ?_⟩
  have first := safe.holds.held thread holds
  rw [safe.holds.held other member] at first
  exact some.inj first

theorem Safe.readerWriterLock (safe : s.Safe) : s.ReaderWriterLock := by
  have counted := safe.holds.counted
  refine ⟨?_, ?_, ?_, safe.holds.oneKind, ?_, ?_, ?_⟩
  · rw [safe.holds.negative]
    constructor
    · intro some
      rcases exists_mem_of_ne_nil _ some with ⟨thread, holds⟩
      refine ⟨thread, holds, fun other member => ?_⟩
      rw [safe.exclusive_eq_replicate holds] at member
      exact eq_of_mem_replicate member
    · intro ⟨thread, holds, _⟩
      exact ne_nil_of_mem holds
  · intro thread holds
    refine ⟨safe.holds.held thread holds, ?_⟩
    have negative := safe.holds.negative.mpr (ne_nil_of_mem holds)
    rw [safe.holds.none_of_nonpos (Int.le_of_lt negative), length_nil] at counted
    rw [safe.exclusive_eq_replicate holds, count_replicate_self]
    omega
  · rw [safe.holds.positive]
    constructor
    · intro some
      have positive := safe.holds.positive.mpr some
      rw [safe.holds.none_of_nonneg (Int.le_of_lt positive), length_nil] at counted
      exact ⟨some, by omega⟩
    · exact And.left
  · intro zero
    exact ⟨safe.holds.free (safe.holds.none_of_nonneg (by omega)), safe.waiters.empty_of_zero zero⟩
  · intro positive thread member
    rcases safe.waiters.queued thread member with ⟨call, suspended, refused⟩
    refine ⟨call, suspended, ?_⟩
    cases mode : call.mode with
    | exclusive => rfl
    | shared =>
      rw [mode] at refused
      simp only [KMutex.takeable, decide_eq_false_iff_not] at refused
      omega
  · intro thread call suspended blocked
    rcases safe.waiters.queued thread (safe.waiters.blocked thread call suspended blocked) with
      ⟨other, same, refused⟩
    rw [suspended, LockPlace.suspended.injEq] at same
    rwa [same]

end MutexState

/-- In every run in which threads unlock what they hold, the mutex is a reader/writer
lock without lost wakeups, and no call times out on a lock it could take. -/
theorem mutex_readerWriterLock (recursionMode : PEMutexRecursionMode) {s : MutexState τ}
    (run : (mutexSystem τ).Reaches unlocksItsOwn (MutexState.initial recursionMode) s) :
    s.ReaderWriterLock ∧ ∀ op t, (mutexSystem τ).step s op = some t → ∀ thread,
      s.place thread ≠ .outside (some .timedout) → t.place thread = .outside (some .timedout) →
        MutexState.TimesOutRefused s t thread :=
  ⟨(MutexState.Safe.reaches run).readerWriterLock, fun _ _ applies _ fresh result =>
    MutexState.timedout_refused applies fresh result⟩

/-- One thread holds the mutex and another queues for it. -/
theorem mutex_readerWriterLock_contended : ∃ s : MutexState Nat,
    s.mutex.waitQueue = [1] ∧ s.ReaderWriterLock := by
  have start : (mutexSystem Nat).Reaches unlocksItsOwn (.initial .Recurse) _ := .refl
  have locked := start.next (.TryLock 0) trivial rfl
  have queued := (locked.next (.call 1 (Lock false)) trivial rfl).next (.runs 1 0) trivial rfl
  exact ⟨_, rfl, (mutex_readerWriterLock .Recurse queued).1⟩

end PadOS.Kernel
