import PadOS.Kernel.ConditionVariable
import PadOS.Kernel.Semaphore

/-! # What waits and wakeups keep

The node of a wait is gone exactly where a wakeup has taken it, at every place between the
two sections of the wait. So a wait ends with success just when it was woken, and by then it
has locked the mutex again.
-/

namespace PadOS.Kernel

open Transition List Option
open Function (update_self update_of_ne update)

variable {τ : Type} [DecidableEq τ] {result : Option PErrorCode}

namespace ConditionState

variable {s t : ConditionState τ} {thread other : τ} {call : WaitCall} {now : Int} {canceled : Bool}

/-- A node is gone exactly where a wakeup has taken it, and the mutex is owed from its
unlock on until `lock->Lock()` has returned. -/
def PlaceSound (queued : Prop) (woken owes : Bool) (lockPlace : LockPlace) : WaitPlace → Prop
  | .outside _ => ¬queued ∧ owes = false
  | .entering _ _ => ¬queued ∧ woken = false ∧ owes = false
  | .suspended call => (queued ↔ woken = false) ∧ owes = call.lock
  | .locking _ => (queued ↔ woken = false) ∧ MutexState.LockingAt lockPlace
  | .detaching _ => (queued ↔ woken = false) ∧ owes = false

structure Sound (s : ConditionState τ) : Prop where
  nodup : s.waitQueue.Nodup
  places : ∀ thread, PlaceSound (thread ∈ s.waitQueue) (s.woken thread) (s.owes thread)
    (s.mutex.place thread) (s.wait thread)

/-- What a step of `thread` leaves to the other threads. -/
structure LeavesOthers (s t : ConditionState τ) (thread : τ) : Prop where
  wait : ∀ other, other ≠ thread → t.wait other = s.wait other
  woken : ∀ other, other ≠ thread → t.woken other = s.woken other
  owes : ∀ other, other ≠ thread → t.owes other = s.owes other
  queued : ∀ other, other ≠ thread → (other ∈ t.waitQueue ↔ other ∈ s.waitQueue)
  mutex : MutexState.LeavesOthers s.mutex t.mutex thread

omit [DecidableEq τ] in
theorem Sound.initial (recursionMode : PEMutexRecursionMode) :
    (initial recursionMode : ConditionState τ).Sound :=
  ⟨nodup_nil, fun _ => ⟨not_mem_nil, rfl⟩⟩

theorem Sound.of_step (sound : s.Sound) (others : LeavesOthers s t thread)
    (nodup : t.waitQueue.Nodup)
    (own : PlaceSound (thread ∈ t.waitQueue) (t.woken thread) (t.owes thread)
      (t.mutex.place thread) (t.wait thread)) : t.Sound := by
  refine ⟨nodup, fun other => ?_⟩
  by_cases same : other = thread
  · rw [same]
    exact own
  · rw [others.wait other same, others.woken other same, others.owes other same,
      others.mutex.place other same, propext (others.queued other same)]
    exact sound.places other

theorem LeavesOthers.goto (s : ConditionState τ) (thread : τ) (target : WaitPlace) :
    LeavesOthers s (s.goto thread target) thread :=
  ⟨fun _ ne => update_of_ne ne _ _, fun _ _ => rfl, fun _ _ => rfl, fun _ _ => Iff.rfl,
    .of_eq rfl rfl rfl⟩

theorem goto_wait (s : ConditionState τ) (thread : τ) (target : WaitPlace) :
    (s.goto thread target).wait thread = target := update_self ..

theorem block_others (m : MutexState τ) (thread : τ) (call : WaitCall) :
    MutexState.LeavesOthers m (block m thread call) thread := by
  have blocked (state : ThreadState) :
      MutexState.LeavesOthers m (m.blockElsewhere thread state) thread := .of_eq rfl rfl rfl
  unfold block
  dsimp only
  split
  · exact (blocked _).trans (.unlock _ thread)
  · exact blocked _

omit [DecidableEq τ] in
theorem mem_append_of_ne {queue : List τ} (ne : other ≠ thread) :
    other ∈ queue ++ [thread] ↔ other ∈ queue := by
  simp [ne]

theorem LeavesOthers.suspend (s : ConditionState τ) (thread : τ) (call : WaitCall) :
    LeavesOthers s (s.suspend thread call) thread :=
  ⟨fun _ ne => update_of_ne ne _ _, fun _ ne => update_of_ne ne _ _,
    fun _ ne => update_of_ne ne _ _, fun _ ne => mem_append_of_ne ne,
    block_others s.mutex thread call⟩

theorem Sound.suspend (sound : s.Sound) (absent : thread ∉ s.waitQueue) :
    (s.suspend thread call).Sound := by
  apply sound.of_step (.suspend s thread call)
  · show (s.waitQueue ++ [thread]).Nodup
    apply nodup_append.mpr
    refine ⟨sound.nodup, nodup_singleton thread, ?_⟩
    intro other member last isLast same
    rw [same, mem_singleton.mp isLast] at member
    exact absent member
  · show PlaceSound (thread ∈ s.waitQueue ++ [thread]) (update s.woken thread false thread)
      (update s.owes thread call.lock thread) _
      (update s.wait thread (.suspended call) thread)
    rw [update_self, update_self, update_self]
    exact ⟨by simp, rfl⟩

theorem firstSection_cases (s : ConditionState τ) (thread : τ) (call : WaitCall) (now : Int)
    (canceled : Bool) :
    (∃ code, s.firstSection thread call now canceled = s.leave thread code ∧ code ≠ .success) ∨
      s.firstSection thread call now canceled = s.suspend thread call := by
  unfold ConditionState.firstSection
  split
  · exact .inl ⟨.intr, rfl, fun same => by cases same⟩
  · split
    · exact .inr rfl
    · split
      · exact .inr rfl
      · exact .inl ⟨.timedout, rfl, fun same => by cases same⟩

theorem Sound.firstSection (sound : s.Sound) {first : Bool}
    (entering : s.wait thread = .entering call first) :
    (s.firstSection thread call now canceled).Sound := by
  have own := sound.places thread
  rw [entering] at own
  rcases own with ⟨absent, _, settled⟩
  rcases firstSection_cases s thread call now canceled with ⟨code, leaves, _⟩ | suspends
  · rw [leaves]
    apply sound.of_step (.goto s thread (.outside (some code))) sound.nodup
    rw [goto_wait]
    exact ⟨absent, settled⟩
  · rw [suspends]
    exact sound.suspend absent

section

variable (s : ConditionState τ)

theorem LeavesOthers.firstSection (thread : τ) (call : WaitCall) (now : Int)
    (canceled : Bool) : LeavesOthers s (s.firstSection thread call now canceled) thread := by
  rcases firstSection_cases s thread call now canceled with ⟨code, leaves, _⟩ | suspends
  · rw [leaves]
    exact .goto s thread _
  · rw [suspends]
    exact .suspend s thread call

theorem LeavesOthers.resume (thread : τ) (call : WaitCall) :
    LeavesOthers s (s.resume thread call) thread := by
  unfold ConditionState.resume
  split
  · exact ⟨fun _ ne => update_of_ne ne _ _, fun _ _ => rfl, fun _ _ => rfl,
      fun _ _ => Iff.rfl, .goto s.mutex thread _⟩
  · exact .goto s thread _

theorem LeavesOthers.locked (thread : τ) (call : WaitCall)
    (result : Option PErrorCode) : LeavesOthers s (s.locked thread call result) thread := by
  refine ⟨fun _ ne => update_of_ne ne _ _, fun _ _ => rfl, fun other ne => ?_,
    fun _ _ => Iff.rfl, .of_eq rfl rfl rfl⟩
  show (if result = some PErrorCode.success then _ else _ : τ → Bool) other = s.owes other
  split
  · exact update_of_ne ne _ _
  · rfl

theorem LeavesOthers.secondSection (thread : τ) (call : WaitCall) :
    LeavesOthers s (s.secondSection thread call) thread := by
  unfold ConditionState.secondSection
  split
  · exact ⟨fun _ ne => update_of_ne ne _ _, fun _ _ => rfl, fun _ _ => rfl,
      fun _ ne => mem_erase_of_ne ne, .of_eq rfl rfl rfl⟩
  · exact .goto s thread _

end

theorem Sound.resume (sound : s.Sound) (suspended : s.wait thread = .suspended call) :
    (s.resume thread call).Sound := by
  have others := LeavesOthers.resume s thread call
  have own := sound.places thread
  rw [suspended] at own
  rcases own with ⟨node, owes⟩
  unfold ConditionState.resume at others ⊢
  split at others
  case isTrue lock =>
    rw [if_pos lock]
    apply sound.of_step others sound.nodup
    rw [goto_wait]
    exact ⟨node, .inl ⟨true, update_self ..⟩⟩
  case isFalse unlocked =>
    rw [if_neg unlocked]
    apply sound.of_step others sound.nodup
    rw [goto_wait]
    have settled : s.owes thread = false := by
      rw [owes]
      exact Bool.eq_false_iff.mpr unlocked
    exact ⟨node, settled⟩

omit [DecidableEq τ] in
theorem Sound.locked_success (sound : s.Sound) (locking : s.wait thread = .locking call)
    (returned : s.mutex.place thread = .outside result) :
    result = some .success := by
  have own := sound.places thread
  rw [locking] at own
  have at_ := own.2
  rw [returned] at at_
  rcases at_ with ⟨first, entering⟩ | suspended | outside
  · cases entering
  · cases suspended
  · exact LockPlace.outside.inj outside

theorem Sound.locked (sound : s.Sound) (locking : s.wait thread = .locking call)
    (returned : s.mutex.place thread = .outside result) :
    (s.locked thread call result).Sound := by
  have success := sound.locked_success locking returned
  have own := sound.places thread
  rw [locking] at own
  apply sound.of_step (.locked s thread call result) sound.nodup
  unfold ConditionState.locked
  rw [goto_wait, if_pos success]
  exact ⟨own.1, update_self ..⟩

theorem Sound.secondSection (sound : s.Sound) (detaching : s.wait thread = .detaching call) :
    (s.secondSection thread call).Sound := by
  have others := LeavesOthers.secondSection s thread call
  have own := sound.places thread
  rw [detaching] at own
  rcases own with ⟨node, settled⟩
  unfold ConditionState.secondSection at others ⊢
  split at others
  case isTrue queued =>
    rw [if_pos queued]
    apply sound.of_step others (sound.nodup.erase thread)
    rw [goto_wait]
    exact ⟨sound.nodup.not_mem_erase, node.mp queued, settled⟩
  case isFalse absent =>
    rw [if_neg absent]
    apply sound.of_step others sound.nodup
    show PlaceSound _ _ _ _ ((s.goto thread (.outside (some .success))).wait thread)
    rw [goto_wait]
    exact ⟨absent, settled⟩

/-- What the next section of a wait does, by where the wait stands. -/
inductive Runs (s : ConditionState τ) (thread : τ) (now : Int) (canceled : Bool) :
    ConditionState τ → Prop
  | entering {call : WaitCall} {first : Bool} (place : s.wait thread = .entering call first) :
    Runs s thread now canceled (s.firstSection thread call now canceled)
  | suspended {call : WaitCall} (place : s.wait thread = .suspended call) :
    Runs s thread now canceled (s.resume thread call)
  | locking {call : WaitCall} {result : Option PErrorCode} (place : s.wait thread = .locking call)
    (returned : s.mutex.place thread = .outside result) :
    Runs s thread now canceled (s.locked thread call result)
  | detaching {call : WaitCall} (place : s.wait thread = .detaching call) :
    Runs s thread now canceled (s.secondSection thread call)

theorem runs_cases (ran : s.runs thread now canceled = some t) : Runs s thread now canceled t := by
  unfold ConditionState.runs at ran
  split at ran
  case isFalse => cases ran
  case isTrue =>
    cases place : s.wait thread with
    | outside result => simp [place] at ran
    | entering call first =>
      simp only [place, some.injEq] at ran
      exact ran ▸ .entering place
    | suspended call =>
      simp only [place, some.injEq] at ran
      exact ran ▸ .suspended place
    | locking call =>
      cases returned : s.mutex.place thread with
      | outside result =>
        simp only [place, returned, some.injEq] at ran
        exact ran ▸ .locking place returned
      | entering call first | suspended call => simp [place, returned] at ran
    | detaching call =>
      simp only [place, some.injEq] at ran
      exact ran ▸ .detaching place

theorem Sound.runs (sound : s.Sound) (ran : s.runs thread now canceled = some t) : t.Sound := by
  cases runs_cases ran with
  | entering place => exact sound.firstSection place
  | suspended place => exact sound.resume place
  | locking place returned => exact sound.locked place returned
  | detaching place => exact sound.secondSection place

theorem Wakeup_waitQueue (s : ConditionState τ) (threadCount : Nat) :
    (s.Wakeup threadCount).waitQueue = s.waitQueue.drop (wakeLimit s.waitQueue threadCount) :=
  wakeup_wait_queue_queue _ _ _

theorem Wakeup_woken (s : ConditionState τ) (threadCount : Nat) (thread : τ) :
    (s.Wakeup threadCount).woken thread = true ↔
      s.woken thread = true ∨ thread ∈ s.waitQueue.take (wakeLimit s.waitQueue threadCount) := by
  simp [Wakeup]

omit [DecidableEq τ] in
/-- A queue without repetitions falls apart into what is taken and what is left. -/
theorem mem_drop_iff {queue : List τ} (nodup : queue.Nodup) (k : Nat) (other : τ) :
    other ∈ queue.drop k ↔ other ∈ queue ∧ other ∉ queue.take k := by
  constructor
  · intro left
    refine ⟨mem_of_mem_drop left, fun taken => ?_⟩
    exact disjoint_take_drop nodup (Nat.le_refl k) taken left
  · intro ⟨member, kept⟩
    rw [← take_append_drop k queue] at member
    exact (mem_append.mp member).resolve_left kept

theorem Sound.wakeup (sound : s.Sound) (threadCount : Nat) : (s.Wakeup threadCount).Sound := by
  refine ⟨?_, fun thread => ?_⟩
  · rw [Wakeup_waitQueue]
    exact sound.nodup.sublist (drop_sublist _ _)
  · have own := sound.places thread
    have queued := mem_drop_iff sound.nodup (wakeLimit s.waitQueue threadCount) thread
    have woken := Wakeup_woken s threadCount thread
    rw [← Wakeup_waitQueue] at queued
    have taken : thread ∈ s.waitQueue.take (wakeLimit s.waitQueue threadCount) →
        thread ∈ s.waitQueue := mem_of_mem_take
    have fresh : (s.Wakeup threadCount).woken thread = false ↔ s.woken thread = false ∧
        thread ∉ s.waitQueue.take (wakeLimit s.waitQueue threadCount) := by
      rw [← Bool.not_eq_true, woken, not_or, Bool.not_eq_true]
    show PlaceSound _ _ (s.owes thread) (s.mutex.place thread) (s.wait thread)
    cases place : s.wait thread with
    | outside result =>
      rw [place] at own
      exact ⟨fun member => own.1 (queued.mp member).1, own.2⟩
    | entering call first =>
      rw [place] at own
      exact ⟨fun member => own.1 (queued.mp member).1,
        fresh.mpr ⟨own.2.1, fun member => own.1 (taken member)⟩, own.2.2⟩
    | suspended call | locking call | detaching call =>
      rw [place] at own
      refine ⟨?_, own.2⟩
      rw [queued, fresh, own.1]

omit [DecidableEq τ] in
theorem isOutside_eq_true (outside : s.isOutside thread = true) :
    ∃ result, s.wait thread = .outside result := by
  unfold isOutside at outside
  split at outside
  case h_1 result place => exact ⟨result, place⟩
  case h_2 => cases outside

variable {op : MutexStep τ}

omit [DecidableEq τ] in
/-- In a wait, a thread steps in the mutex only inside of `lock->Lock()`. -/
theorem mayStep_cases (allowed : s.mayStep op = true) :
    (∃ result, s.wait op.thread = .outside result) ∨ op = .awaken op.thread ∨
      ∃ call now, s.wait op.thread = .locking call ∧ op = .runs op.thread now := by
  have outside (isOutside : s.isOutside op.thread = true) :
      ∃ result, s.wait op.thread = .outside result := isOutside_eq_true isOutside
  cases op with
  | awaken thread => exact .inr (.inl rfl)
  | runs thread now =>
    cases place : s.wait thread with
    | outside result => exact .inl ⟨result, place⟩
    | locking call => exact .inr (.inr ⟨call, now, place, rfl⟩)
    | _ => simp [mayStep, place] at allowed
  | _ => exact .inl (outside allowed)

variable {mutex : MutexState τ}

theorem LeavesOthers.mutexStep (applies : (mutexSystem τ).step s.mutex op = some mutex) :
    LeavesOthers s { s with mutex := mutex } op.thread :=
  ⟨fun _ _ => rfl, fun _ _ => rfl, fun _ _ => rfl, fun _ _ => Iff.rfl,
    MutexState.LeavesOthers.step applies⟩

theorem Sound.mutexStep (sound : s.Sound)
    (allowed : s.mayStep op = true) (applies : (mutexSystem τ).step s.mutex op = some mutex) :
    ({ s with mutex := mutex } : ConditionState τ).Sound := by
  apply sound.of_step (.mutexStep applies) sound.nodup
  have own := sound.places op.thread
  show PlaceSound _ _ _ (mutex.place op.thread) (s.wait op.thread)
  rcases mayStep_cases allowed with ⟨result, outside⟩ | awaken | ⟨call, now, locking, runs⟩
  · rw [outside] at own ⊢
    exact own
  · rw [awaken] at applies
    cases applies
    exact own
  · rw [locking] at own ⊢
    rw [runs] at applies
    exact ⟨own.1, (MutexState.runs_locking own.2 applies).1⟩

theorem beginWait_eq_some : s.beginWait thread call = some t ↔ s.isOutside thread = true ∧
    s.mutex.isOutside thread = true ∧ s.mutex.threadState thread = .Ready ∧ { s with
      wait := update s.wait thread (.entering call true)
      woken := update s.woken thread false } = t := by
  simp [beginWait, and_assoc]

theorem LeavesOthers.beginWait (began : s.beginWait thread call = some t) :
    LeavesOthers s t thread := by
  rcases beginWait_eq_some.mp began with ⟨_, _, _, rfl⟩
  exact ⟨fun _ ne => update_of_ne ne _ _, fun _ ne => update_of_ne ne _ _,
    fun _ _ => rfl, fun _ _ => Iff.rfl, .of_eq rfl rfl rfl⟩

theorem Sound.beginWait (sound : s.Sound) (began : s.beginWait thread call = some t) : t.Sound := by
  have others := LeavesOthers.beginWait began
  rcases beginWait_eq_some.mp began with ⟨outside, _, _, rfl⟩
  rcases isOutside_eq_true outside with ⟨result, place⟩
  have own := sound.places thread
  rw [place] at own
  apply sound.of_step others sound.nodup
  show PlaceSound _ (update s.woken thread false thread) _ _
    (update s.wait thread (.entering call true) thread)
  rw [update_self, update_self]
  exact ⟨own.1, rfl, own.2⟩

theorem unknownClock_eq_some (applies : s.unknownClock thread = some t) :
    ∃ call, s.wait thread = .entering call true ∧ t = s.leave thread .inval := by
  unfold unknownClock at applies
  split at applies
  case h_1 entering => exact ⟨_, entering, (some.inj applies).symm⟩
  case h_2 => cases applies

theorem Sound.unknownClock (sound : s.Sound) (applies : s.unknownClock thread = some t) :
    t.Sound := by
  rcases unknownClock_eq_some applies with ⟨call, entering, rfl⟩
  have own := sound.places thread
  rw [entering] at own
  apply sound.of_step (.goto s thread _) sound.nodup
  rw [goto_wait]
  exact ⟨own.1, own.2.2⟩

theorem mutex_step_eq_some
    (applies : (conditionSystem τ).step s (.mutex op) = some t) : s.mayStep op = true ∧
      ∃ mutex, (mutexSystem τ).step s.mutex op = some mutex ∧ t = { s with mutex := mutex } := by
  change (if s.mayStep op = true then _ else none) = some t at applies
  split at applies
  case isFalse => cases applies
  case isTrue allowed =>
    rcases map_eq_some_iff.mp applies with ⟨mutex, stepped, same⟩
    exact ⟨allowed, mutex, stepped, same.symm⟩

variable {op : ConditionStep τ}

theorem Sound.step (sound : s.Sound)
    (applies : (conditionSystem τ).step s op = some t) : t.Sound := by
  cases op with
  | mutex op =>
    rcases mutex_step_eq_some applies with ⟨allowed, mutex, stepped, rfl⟩
    exact sound.mutexStep allowed stepped
  | wait thread call => exact sound.beginWait applies
  | unknownClock thread => exact sound.unknownClock applies
  | runs thread now canceled => exact sound.runs applies
  | Wakeup threadCount =>
    cases applies
    exact sound.wakeup threadCount

theorem Sound.reaches {recursionMode : PEMutexRecursionMode} {good : Condition _ _}
    (run : (conditionSystem τ).Reaches good (ConditionState.initial recursionMode) s) : s.Sound :=
  run.invariant Sound (Sound.initial recursionMode) fun sound _ applies => sound.step applies

/-- Inside of a wait the mutex is held before the unlock and after the lock. -/
def PlaceHeld (holds : Prop) (lockPlace : LockPlace) : WaitPlace → Prop
  | .outside _ => True
  | .entering call _ => (call.lock = true → holds) ∧ ∃ result, lockPlace = .outside result
  | .suspended _ => ∃ result, lockPlace = .outside result
  | .locking _ => lockPlace = .outside (some .success) → holds
  | .detaching call => (call.lock = true → holds) ∧ ∃ result, lockPlace = .outside result

structure Disciplined (s : ConditionState τ) : Prop where
  sound : s.Sound
  safe : s.mutex.Safe
  held : ∀ thread, PlaceHeld (s.mutex.Holds thread) (s.mutex.place thread) (s.wait thread)

theorem Disciplined.initial (recursionMode : PEMutexRecursionMode) :
    (initial recursionMode : ConditionState τ).Disciplined :=
  ⟨.initial recursionMode, .initial recursionMode, fun _ => trivial⟩

omit [DecidableEq τ] in
theorem PlaceHeld.mono {holds holds' : Prop} {lockPlace : LockPlace} {place : WaitPlace}
    (held : PlaceHeld holds lockPlace place) (still : holds → holds') :
    PlaceHeld holds' lockPlace place := by
  cases place with
  | outside result => trivial
  | entering call | detaching call => exact ⟨fun lock => still (held.1 lock), held.2⟩
  | suspended call => exact held
  | locking call => exact fun success => still (held success)

theorem Disciplined.of_step (disciplined : s.Disciplined) (sound : t.Sound) (safe : t.mutex.Safe)
    (others : LeavesOthers s t thread)
    (own : PlaceHeld (t.mutex.Holds thread) (t.mutex.place thread) (t.wait thread)) :
    t.Disciplined := by
  refine ⟨sound, safe, fun other => ?_⟩
  by_cases same : other = thread
  · rw [same]
    exact own
  · rw [others.wait other same, others.mutex.place other same]
    exact (disciplined.held other).mono (others.mutex.holds other same)

/-- A thread whose last call of the mutex has returned is not in its queue. -/
theorem Disciplined.not_mem (disciplined : s.Disciplined)
    (outside : s.mutex.place thread = .outside result) : thread ∉ s.mutex.mutex.waitQueue := by
  apply disciplined.safe.waiters.not_mem
  intro call suspended
  rw [outside] at suspended
  cases suspended

theorem safe_blockElsewhere {m : MutexState τ} (safe : m.Safe)
    (outside : m.place thread = .outside result) (state : ThreadState) :
    (m.blockElsewhere thread state).Safe := by
  refine ⟨safe.holds, safe.waiters.states ?_⟩
  intro other call suspended blocked
  have ne : other ≠ thread := by
    intro same
    rw [same, outside] at suspended
    cases suspended
  change (update m.threadState thread state other).blocked = true at blocked
  rwa [update_of_ne ne] at blocked

theorem block_place {m : MutexState τ}
    (outside : m.place thread = .outside result) (call : WaitCall) :
    ∃ result, (block m thread call).place thread = .outside result := by
  have unlocked (blocked : MutexState τ) :
      ∃ result, (blocked.Unlock thread).place thread = .outside result := by
    rcases MutexState.Unlock_place blocked thread with ⟨code, moved, _⟩
    rw [moved, update_self]
    exact ⟨_, rfl⟩
  unfold block
  dsimp only
  split
  · exact unlocked _
  · exact ⟨result, outside⟩

section

variable (disciplined : s.Disciplined)

include disciplined

theorem Disciplined.block_safe
    (outside : s.mutex.place thread = .outside result)
    (holds : call.lock = true → s.mutex.Holds thread) : (block s.mutex thread call).Safe := by
  have blocked := safe_blockElsewhere disciplined.safe outside
  unfold block
  dsimp only
  split
  case isTrue lock => exact (blocked _).unlock (holds lock) (disciplined.not_mem outside)
  case isFalse => exact blocked _

theorem Disciplined.goto {target : WaitPlace} (sound : (s.goto thread target).Sound)
    (held : PlaceHeld (s.mutex.Holds thread) (s.mutex.place thread) target) :
    (s.goto thread target).Disciplined := by
  apply disciplined.of_step sound disciplined.safe (.goto s thread target)
  rw [goto_wait]
  exact held

theorem Disciplined.suspend
    (sound : (s.suspend thread call).Sound) (outside : s.mutex.place thread = .outside result)
    (holds : call.lock = true → s.mutex.Holds thread) : (s.suspend thread call).Disciplined := by
  apply disciplined.of_step sound (disciplined.block_safe outside holds) (.suspend s thread call)
  show PlaceHeld _ _ (update s.wait thread (.suspended call) thread)
  rw [update_self]
  exact block_place outside call

theorem Disciplined.firstSection {first : Bool} (entering : s.wait thread = .entering call first)
    (sound : (s.firstSection thread call now canceled).Sound) :
    (s.firstSection thread call now canceled).Disciplined := by
  have own := disciplined.held thread
  rw [entering] at own
  rcases own with ⟨holds, result, outside⟩
  rcases firstSection_cases s thread call now canceled with ⟨code, leaves, _⟩ | suspends
  · rw [leaves] at sound ⊢
    exact disciplined.goto sound trivial
  · rw [suspends] at sound ⊢
    exact disciplined.suspend sound outside holds

theorem Disciplined.resume
    (suspended : s.wait thread = .suspended call) (sound : (s.resume thread call).Sound) :
    (s.resume thread call).Disciplined := by
  have own := disciplined.held thread
  rw [suspended] at own
  rcases own with ⟨result, outside⟩
  have others := LeavesOthers.resume s thread call
  unfold ConditionState.resume at sound others ⊢
  split at sound
  case isTrue lock =>
    rw [if_pos lock]
    have safe : (s.mutex.goto thread (.entering (Lock false) true)).Safe := by
      apply disciplined.safe.goto (disciplined.not_mem outside)
      intro call same
      cases same
    rw [if_pos lock] at others
    apply disciplined.of_step sound safe others
    rw [goto_wait]
    intro success
    change update s.mutex.place thread (.entering (Lock false) true) thread = _ at success
    rw [update_self] at success
    cases success
  case isFalse unlocked =>
    rw [if_neg unlocked]
    exact disciplined.goto sound ⟨fun lock => absurd lock unlocked, result, outside⟩

theorem Disciplined.locked (locking : s.wait thread = .locking call)
    (returned : s.mutex.place thread = .outside result)
    (sound : (s.locked thread call result).Sound) : (s.locked thread call result).Disciplined := by
  have success := disciplined.sound.locked_success locking returned
  have own := disciplined.held thread
  rw [locking] at own
  apply disciplined.of_step sound disciplined.safe (.locked s thread call result)
  unfold ConditionState.locked
  rw [goto_wait]
  exact ⟨fun _ => own (success ▸ returned), result, returned⟩

theorem Disciplined.secondSection
    (detaching : s.wait thread = .detaching call) (sound : (s.secondSection thread call).Sound) :
    (s.secondSection thread call).Disciplined := by
  have own := disciplined.held thread
  rw [detaching] at own
  have others := LeavesOthers.secondSection s thread call
  unfold ConditionState.secondSection at sound others ⊢
  split at sound
  case isTrue queued =>
    rw [if_pos queued] at others ⊢
    apply disciplined.of_step sound disciplined.safe others
    rw [goto_wait]
    exact own
  case isFalse absent =>
    rw [if_neg absent]
    exact disciplined.goto sound trivial

theorem Disciplined.runs (ran : s.runs thread now canceled = some t) : t.Disciplined := by
  have sound := disciplined.sound.runs ran
  cases runs_cases ran with
  | entering place => exact disciplined.firstSection place sound
  | suspended place => exact disciplined.resume place sound
  | locking place returned => exact disciplined.locked place returned sound
  | detaching place => exact disciplined.secondSection place sound

theorem Disciplined.mutexStep {op : MutexStep τ} (own : unlocksItsOwn s.mutex op) (allowed : s.mayStep op = true)
    (applies : (mutexSystem τ).step s.mutex op = some mutex) :
    ({ s with mutex := mutex } : ConditionState τ).Disciplined := by
  apply disciplined.of_step (disciplined.sound.mutexStep allowed applies)
    (disciplined.safe.step own applies) (.mutexStep applies)
  have held := disciplined.held op.thread
  show PlaceHeld (mutex.Holds op.thread) (mutex.place op.thread) (s.wait op.thread)
  rcases mayStep_cases allowed with ⟨result, outside⟩ | awaken | ⟨call, now, locking, runs⟩
  · rw [outside]
    trivial
  · rw [awaken] at applies
    cases applies
    exact held
  · have at_ := disciplined.sound.places op.thread
    rw [locking] at at_ ⊢
    rw [runs] at applies
    exact (MutexState.runs_locking at_.2 applies).2

theorem Disciplined.beginWait (own : call.lock = true → s.mutex.Holds thread)
    (began : s.beginWait thread call = some t) : t.Disciplined := by
  have sound := disciplined.sound.beginWait began
  have others := LeavesOthers.beginWait began
  rcases beginWait_eq_some.mp began with ⟨_, outside, _, rfl⟩
  apply disciplined.of_step sound disciplined.safe others
  show PlaceHeld _ _ (update s.wait thread (.entering call true) thread)
  rw [update_self]
  refine ⟨own, ?_⟩
  unfold MutexState.isOutside at outside
  split at outside
  case h_1 result place => exact ⟨result, place⟩
  case h_2 => cases outside

theorem Disciplined.wakeup (threadCount : Nat) :
    (s.Wakeup threadCount).Disciplined := by
  refine ⟨disciplined.sound.wakeup threadCount, ?_, disciplined.held⟩
  refine ⟨disciplined.safe.holds, disciplined.safe.waiters.states ?_⟩
  intro other call _ blocked
  change ((wakeup_wait_queue s.waitQueue threadCount s.mutex.threadState).2 other).blocked = true
    at blocked
  rw [wakeup_wait_queue_states] at blocked
  split at blocked
  case isTrue => cases blocked
  case isFalse => exact blocked

theorem Disciplined.step {op : ConditionStep τ}
    (own : waitsWithItsOwn s op) (applies : (conditionSystem τ).step s op = some t) :
    t.Disciplined := by
  cases op with
  | mutex op =>
    rcases mutex_step_eq_some applies with ⟨allowed, mutex, stepped, rfl⟩
    exact disciplined.mutexStep own allowed stepped
  | wait thread call => exact disciplined.beginWait own applies
  | unknownClock thread =>
    have sound := disciplined.sound.unknownClock applies
    rcases unknownClock_eq_some applies with ⟨call, _, rfl⟩
    exact disciplined.goto sound trivial
  | runs thread now canceled => exact disciplined.runs applies
  | Wakeup threadCount =>
    cases applies
    exact disciplined.wakeup threadCount

end

theorem Disciplined.reaches {recursionMode : PEMutexRecursionMode}
    (run : (conditionSystem τ).Reaches waitsWithItsOwn (ConditionState.initial recursionMode) s) :
    s.Disciplined :=
  run.invariant Disciplined (Disciplined.initial recursionMode)
    fun disciplined own applies => disciplined.step own applies

/-- A wait of `thread` ends with `code` in the step from `s` to `t`. -/
def Returns (s t : ConditionState τ) (thread : τ) (code : PErrorCode) : Prop :=
  s.isOutside thread = false ∧ t.wait thread = .outside (some code)

/-- A wait has queued its node and has not looked for it since. -/
def Waits (s : ConditionState τ) (thread : τ) : Prop :=
  match s.wait thread with
  | .outside _ | .entering _ _ => False
  | .suspended _ | .locking _ | .detaching _ => True

/-- What a step does to a wait that has been woken, or ends. -/
structure WaitStep (s t : ConditionState τ) (thread : τ) : Prop where
  success : ∀ code, Returns s t thread code → (code = .success ↔ s.woken thread = true)
  queued : thread ∈ s.waitQueue → ∀ code, ¬Returns s t thread code
  kept : s.Waits thread → s.woken thread = true →
    t.Waits thread ∧ t.woken thread = true ∨ Returns s t thread .success
  settled : ∀ code, Returns s t thread code → t.owes thread = false

omit [DecidableEq τ] in
theorem Sound.queued_waits (sound : s.Sound) (member : thread ∈ s.waitQueue) :
    s.Waits thread ∧ s.woken thread = false := by
  have own := sound.places thread
  unfold Waits
  cases place : s.wait thread with
  | outside result | entering call first =>
    rw [place] at own
    exact absurd member own.1
  | suspended call | locking call | detaching call =>
    rw [place] at own
    exact ⟨trivial, own.1.mp member⟩

omit [DecidableEq τ] in
theorem WaitStep.of_same (wait : t.wait thread = s.wait thread)
    (woken : s.woken thread = true → t.woken thread = true) : WaitStep s t thread := by
  have stays (code : PErrorCode) : ¬Returns s t thread code := by
    intro ⟨inside, outside⟩
    rw [wait] at outside
    simp [isOutside, outside] at inside
  refine ⟨fun code ends => absurd ends (stays code), fun _ code => stays code, ?_,
    fun code ends => absurd ends (stays code)⟩
  intro waits wakes
  refine .inl ⟨?_, woken wakes⟩
  unfold Waits at *
  rwa [wait]

omit [DecidableEq τ] in
theorem WaitStep.of_waits (waits : t.Waits thread)
    (woken : s.Waits thread → s.woken thread = true → t.woken thread = true) :
    WaitStep s t thread := by
  have stays (code : PErrorCode) : ¬Returns s t thread code := by
    intro ⟨_, outside⟩
    simp [Waits, outside] at waits
  exact ⟨fun code ends => absurd ends (stays code), fun _ code => stays code,
    fun before wakes => .inl ⟨waits, woken before wakes⟩, fun code ends => absurd ends (stays code)⟩

omit [DecidableEq τ] in
theorem WaitStep.of_entering (sound : s.Sound) {first : Bool} {code : PErrorCode}
    (entering : s.wait thread = .entering call first) (failed : code ≠ .success)
    (wait : t.wait thread = .outside (some code)) (owes : t.owes thread = s.owes thread) :
    WaitStep s t thread := by
  have own := sound.places thread
  rw [entering] at own
  rcases own with ⟨absent, fresh, settled⟩
  refine ⟨?_, fun member => absurd member absent, ?_, fun _ _ => owes.trans settled⟩
  · intro other ⟨_, outside⟩
    rw [wait, WaitPlace.outside.injEq, some.injEq] at outside
    rw [← outside, fresh]
    exact ⟨fun same => absurd same failed, fun wakes => by cases wakes⟩
  · intro waits
    simp [Waits, entering] at waits

theorem LeavesOthers.runs (ran : Runs s thread now canceled t) : LeavesOthers s t thread := by
  cases ran with
  | entering place => exact .firstSection s thread _ now canceled
  | suspended place => exact .resume s thread _
  | locking place returned => exact .locked s thread _ _
  | detaching place => exact .secondSection s thread _

theorem WaitStep.runs (sound : s.Sound) (ran : Runs s thread now canceled t) :
    WaitStep s t thread := by
  cases ran with
  | @entering call first place =>
    rcases firstSection_cases s thread call now canceled with ⟨code, leaves, failed⟩ | suspends
    · rw [leaves]
      exact .of_entering sound place failed (goto_wait s thread _) rfl
    · rw [suspends]
      apply WaitStep.of_waits
      · show match update s.wait thread (.suspended call) thread with
          | .outside _ | .entering _ _ => False
          | .suspended _ | .locking _ | .detaching _ => True
        rw [update_self]
        trivial
      · intro waits
        simp [Waits, place] at waits
  | @suspended call place =>
    unfold ConditionState.resume
    split
    all_goals
      apply WaitStep.of_waits
      · unfold Waits
        rw [goto_wait]
        trivial
      · exact fun _ wakes => wakes
  | @locking call result place returned =>
    apply WaitStep.of_waits
    · unfold Waits ConditionState.locked
      rw [goto_wait]
      trivial
    · exact fun _ wakes => wakes
  | @detaching call place =>
    have own := sound.places thread
    rw [place] at own
    rcases own with ⟨node, settled⟩
    unfold ConditionState.secondSection
    split
    case isTrue member =>
      have fresh := node.mp member
      have goesOn (u : ConditionState τ) (code : PErrorCode) :
          ¬Returns s (u.goto thread (.entering call false)) thread code := by
        intro ⟨_, outside⟩
        rw [goto_wait] at outside
        cases outside
      refine ⟨fun code ends => absurd ends (goesOn _ code), fun _ => goesOn _, ?_,
        fun code ends => absurd ends (goesOn _ code)⟩
      intro _ wakes
      rw [fresh] at wakes
      cases wakes
    case isFalse absent =>
      have wakes : s.woken thread = true := by
        rw [← Bool.not_eq_false]
        exact fun fresh => absent (node.mpr fresh)
      have inside : s.isOutside thread = false := by simp [isOutside, place]
      have outside : (s.leave thread .success).wait thread = .outside (some .success) :=
        goto_wait s thread _
      refine ⟨?_, fun member => absurd member absent, fun _ _ => .inr ⟨inside, outside⟩,
        fun _ _ => settled⟩
      intro code ⟨_, same⟩
      rw [outside, WaitPlace.outside.injEq, some.injEq] at same
      rw [← same]
      exact ⟨fun _ => wakes, fun _ => rfl⟩

theorem Sound.waitStep (sound : s.Sound)
    (applies : (conditionSystem τ).step s op = some t) (thread : τ) : WaitStep s t thread := by
  cases op with
  | mutex op =>
    rcases mutex_step_eq_some applies with ⟨_, mutex, _, rfl⟩
    exact .of_same rfl id
  | wait actor call =>
    by_cases same : thread = actor
    · subst same
      rcases beginWait_eq_some.mp applies with ⟨outside, _, _, rfl⟩
      have inside (u : ConditionState τ) (code : PErrorCode) : ¬Returns s u thread code := by
        intro ⟨isInside, _⟩
        rw [outside] at isInside
        cases isInside
      rcases isOutside_eq_true outside with ⟨result, place⟩
      refine ⟨fun code ends => absurd ends (inside _ code), fun _ => inside _, ?_,
        fun code ends => absurd ends (inside _ code)⟩
      intro waits
      simp [Waits, place] at waits
    · have others := LeavesOthers.beginWait applies
      exact .of_same (others.wait thread same) (others.woken thread same ▸ id)
  | unknownClock actor =>
    rcases unknownClock_eq_some applies with ⟨call, entering, rfl⟩
    by_cases same : thread = actor
    · subst same
      exact .of_entering sound entering (fun same => by cases same) (goto_wait s thread _) rfl
    · exact .of_same ((LeavesOthers.goto s actor _).wait thread same) id
  | runs actor now canceled =>
    by_cases same : thread = actor
    · subst same
      exact .runs sound (runs_cases applies)
    · have others := LeavesOthers.runs (runs_cases applies)
      exact .of_same (others.wait thread same) (others.woken thread same ▸ id)
  | Wakeup threadCount =>
    cases applies
    exact .of_same rfl fun wakes => (Wakeup_woken s threadCount thread).mpr (.inl wakes)

/-- A wakeup takes as many nodes as it was asked for, from the front, and marks their waits. -/
structure WakesExactly (s : ConditionState τ) (threadCount : Nat) : Prop where
  number : (s.waitQueue.take (wakeLimit s.waitQueue threadCount)).length =
    if threadCount = 0 then s.waitQueue.length else min threadCount s.waitQueue.length
  distinct : s.waitQueue.Nodup
  taken : (s.Wakeup threadCount).waitQueue = s.waitQueue.drop (wakeLimit s.waitQueue threadCount)
  woken : ∀ thread, (s.Wakeup threadCount).woken thread = true ↔ s.woken thread = true ∨
    thread ∈ s.waitQueue.take (wakeLimit s.waitQueue threadCount)

theorem Sound.wakesExactly (sound : s.Sound) (threadCount : Nat) : WakesExactly s threadCount := by
  refine ⟨?_, sound.nodup, Wakeup_waitQueue s threadCount, Wakeup_woken s threadCount⟩
  rw [length_take]
  unfold wakeLimit
  split
  · exact Nat.min_self _
  · omega

/-- No wakeup is lost or made up. -/
structure Wakes (s : ConditionState τ) : Prop where
  wakeup : ∀ threadCount, WakesExactly s threadCount
  queued : ∀ thread ∈ s.waitQueue, s.Waits thread ∧ s.woken thread = false
  steps : ∀ op t, (conditionSystem τ).step s op = some t → ∀ thread, WaitStep s t thread

theorem Sound.wakes (sound : s.Sound) : s.Wakes :=
  ⟨sound.wakesExactly, fun _ member => sound.queued_waits member,
    fun _ _ applies thread => sound.waitStep applies thread⟩

/-- The call of a wait in progress. -/
def callOf (s : ConditionState τ) (thread : τ) : Option WaitCall :=
  match s.wait thread with
  | .outside _ => none
  | .entering call _ | .suspended call | .locking call | .detaching call => some call

/-- A wait that ends has its thread hold the mutex that was passed to it. -/
theorem Disciplined.returns_holding (disciplined : s.Disciplined)
    (applies : (conditionSystem τ).step s op = some t) {code : PErrorCode}
    (ends : Returns s t thread code) (passed : s.callOf thread = some call)
    (lock : call.lock = true) : t.mutex.Holds thread := by
  have moved {other : τ} (others : LeavesOthers s t other) : thread = other := by
    by_contra ne
    rcases ends with ⟨inside, outside⟩
    rw [others.wait thread ne] at outside
    simp [isOutside, outside] at inside
  have held := disciplined.held thread
  unfold callOf at passed
  cases op with
  | mutex op =>
    rcases mutex_step_eq_some applies with ⟨_, mutex, _, rfl⟩
    rcases ends with ⟨inside, outside⟩
    have same : s.wait thread = .outside (some code) := outside
    simp [isOutside, same] at inside
  | wait actor call =>
    have same := moved (.beginWait applies)
    subst same
    rcases ends with ⟨inside, _⟩
    rcases beginWait_eq_some.mp applies with ⟨outside, _⟩
    rw [outside] at inside
    cases inside
  | unknownClock actor =>
    rcases unknownClock_eq_some applies with ⟨other, entering, rfl⟩
    have same := moved (.goto s actor _)
    subst same
    rw [entering] at held passed
    cases passed
    exact held.1 lock
  | runs actor now canceled =>
    have ran := runs_cases applies
    have same := moved (.runs ran)
    subst same
    cases ran with
    | @entering other first place =>
      rw [place] at held passed
      cases passed
      rcases firstSection_cases s thread call now canceled with ⟨code, leaves, _⟩ | suspends
      · rw [leaves]
        exact held.1 lock
      · have outside := ends.2
        rw [suspends] at outside
        change update s.wait thread (.suspended call) thread = _ at outside
        rw [update_self] at outside
        cases outside
    | @suspended other place =>
      have outside := ends.2
      unfold ConditionState.resume at outside
      split at outside <;> rw [goto_wait] at outside <;> cases outside
    | @locking other result place returned =>
      have outside := ends.2
      unfold ConditionState.locked at outside
      rw [goto_wait] at outside
      cases outside
    | @detaching other place =>
      rw [place] at held passed
      cases passed
      unfold ConditionState.secondSection
      split
      · exact held.1 lock
      · exact held.1 lock
  | Wakeup threadCount =>
    cases applies
    rcases ends with ⟨inside, outside⟩
    have same : s.wait thread = .outside (some code) := outside
    simp [isOutside, same] at inside

end ConditionState

/-- What is said of a semaphore that was created with the count `initially`. -/
structure SemaphoreState.LosesNoUnit (initially : Int) (s : SemaphoreState τ) : Prop where
  bounded : min 0 initially ≤ s.semaphore.count
  counted : s.semaphore.count = initially + s.released - s.acquired
  claimed : s.UnitsClaimed

/-- Over all runs of a semaphore and of a condition variable with its mutex, no unit and
no wakeup is lost, and a wait ends with the mutex it was given. -/
theorem semaphore_and_condition_lose_no_wakeup (semValueMax : Int)
    (recursionMode : PEMutexRecursionMode) :
    (∀ initially s, (semaphoreSystem τ semValueMax).Reaches anyStep
      (SemaphoreState.initial initially) s → s.LosesNoUnit initially) ∧
    (∀ s, (conditionSystem τ).Reaches anyStep (ConditionState.initial recursionMode) s → s.Wakes) ∧
    ∀ s, (conditionSystem τ).Reaches waitsWithItsOwn (ConditionState.initial recursionMode) s →
      s.mutex.ReaderWriterLock ∧ ∀ op t, (conditionSystem τ).step s op = some t →
        ∀ thread code call, ConditionState.Returns s t thread code →
          s.callOf thread = some call → call.lock = true → t.mutex.Holds thread := by
  refine ⟨fun initially s run => ?_, fun s run => ?_, fun s run => ⟨?_, ?_⟩⟩
  · have sound := SemaphoreState.Sound.reaches run
    exact ⟨sound.accounted.bounded, sound.accounted.counted, sound.claimed⟩
  · exact (ConditionState.Sound.reaches run).wakes
  · exact (ConditionState.Disciplined.reaches run).safe.readerWriterLock
  · intro op t applies thread code call ends passed lock
    exact (ConditionState.Disciplined.reaches run).returns_holding applies ends passed lock

/-- Two threads wait, and a unit is released to one of them; a thread that waits with its mutex
is woken, and has the mutex again. -/
theorem semaphore_and_condition_released :
    (∃ s : SemaphoreState Nat, s.semaphore.count = 1 ∧ s.semaphore.waitQueue = [1] ∧
      s.LosesNoUnit 0) ∧
    ∃ s : ConditionState Nat, s.woken 0 = true ∧ s.mutex.exclusiveHolds = [0] ∧ s.Wakes ∧
      s.mutex.ReaderWriterLock := by
  have all := @semaphore_and_condition_lose_no_wakeup Nat _ 32767 .Recurse
  have start : (semaphoreSystem Nat 32767).Reaches anyStep (.initial 0) _ := .refl
  have first := (start.next (.call 0 none) trivial rfl).next (.runs 0 0) trivial rfl
  have second := (first.next (.call 1 none) trivial rfl).next (.runs 1 0) trivial rfl
  have released := second.next .Release trivial rfl
  refine ⟨⟨_, rfl, rfl, all.1 0 _ released⟩, ?_⟩
  have free : (conditionSystem Nat).Reaches waitsWithItsOwn (.initial .Recurse) _ := .refl
  have locked := (free.next (.mutex (.call 0 (Lock false))) trivial rfl).next (.mutex (.runs 0 0)) trivial rfl
  have waits := (locked.next (.wait 0 ⟨true, false, none⟩)
    (fun _ => .inl (mem_singleton_self 0)) rfl).next (.runs 0 0 false)
    trivial rfl
  have woken := (waits.next (.Wakeup 1) trivial rfl).next (.runs 0 0 false) trivial rfl
  have returned := (woken.next (.mutex (.runs 0 0)) trivial rfl).next (.runs 0 0 false) trivial rfl
  exact ⟨_, rfl, rfl, all.2.1 _ (returned.mono fun _ _ _ => trivial), (all.2.2 _ returned).1⟩

/-- The constructor takes a negative count as it is. -/
theorem semaphore_count_negative : ∃ s : SemaphoreState Nat,
    (semaphoreSystem Nat 32767).Reaches anyStep (SemaphoreState.initial (-1)) s ∧
      s.semaphore.count < 0 :=
  ⟨_, .refl, by decide⟩

end PadOS.Kernel
