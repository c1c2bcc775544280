import PadOS.Kernel.Mutex
import Mathlib.Data.List.Nodup

/-! # `KSemaphore`

A release adds a unit and wakes as many waiters as there are units, so that units are
never left over while every waiter sleeps. A woken thread has to find the unit by itself,
and may come too late. The state counts the releases and acquisitions that succeeded.
-/

namespace PadOS.Kernel

open Transition List Option List.Subset
open Function (update_self update_of_ne update)

structure KSemaphore (τ : Type) where
  count : Int
  holder : Option τ
  waitQueue : List τ

/-- A call in progress; one without a clock is `Acquire`, which tries again in its
second section. `again` tells that the thread has been suspended in the call. -/
inductive AcquirePlace
  | outside (result : Option PErrorCode)
  | entering (clock : Option Deadline) (again : Bool)
  | suspended (clock : Option Deadline)
  deriving DecidableEq, Repr

structure SemaphoreState (τ : Type) where
  semaphore : KSemaphore τ
  threadState : τ → ThreadState
  place : τ → AcquirePlace
  released : Nat
  acquired : Nat

variable {τ : Type} [DecidableEq τ]

namespace SemaphoreState

/-- `KSemaphore::KSemaphore`, with the count as it was passed. -/
def initial (count : Int) : SemaphoreState τ where
  semaphore := ⟨count, none, []⟩
  threadState := fun _ => .Ready
  place := fun _ => .outside none
  released := 0
  acquired := 0

section

variable (s : SemaphoreState τ)

variable (thread : τ)

def goto (place : AcquirePlace) : SemaphoreState τ :=
  { s with place := update s.place thread place }

def leave (result : PErrorCode) : SemaphoreState τ :=
  s.goto thread (.outside (some result))

def take : SemaphoreState τ :=
  { s with
    semaphore := { s.semaphore with count := s.semaphore.count - 1, holder := some thread }
    acquired := s.acquired + 1 }.leave thread .success

def suspend (clock : Option Deadline) : SemaphoreState τ :=
  { s with
    semaphore := { s.semaphore with waitQueue := s.semaphore.waitQueue ++ [thread] }
    threadState := update s.threadState thread (match clock with
        | some (some _) => .Sleeping
        | _ => .Waiting)
    place := update s.place thread (.suspended clock) }

def detach : SemaphoreState τ :=
  { s with semaphore := { s.semaphore with waitQueue := s.semaphore.waitQueue.erase thread } }

def firstSection (clock : Option Deadline) (now : Int) :
    SemaphoreState τ :=
  if 0 < s.semaphore.count then s.take thread
  else
    match clock with
    | none => s.suspend thread none
    | some deadline =>
      if deadline.isOpen now then s.suspend thread (some deadline) else s.leave thread .timedout

def secondSection (clock : Option Deadline) :
    SemaphoreState τ :=
  let detached := s.detach thread
  match clock with
  | none =>
    if 0 < detached.semaphore.count then detached.take thread
    else detached.goto thread (.entering none true)
  | some deadline => detached.goto thread (.entering (some deadline) true)

def TryAcquire : SemaphoreState τ :=
  if 0 < s.semaphore.count then s.take thread else s.leave thread .again

end

/-- The unit is added, and the queue woken where the count has become positive. -/
def Release (semValueMax : Int) (s : SemaphoreState τ) : PErrorCode × SemaphoreState τ :=
  if s.semaphore.count = semValueMax then (.overflow, s)
  else if 0 < s.semaphore.count + 1 then
    let (waitQueue, threadState) :=
      wakeup_wait_queue s.semaphore.waitQueue (s.semaphore.count + 1).toNat s.threadState
    (.success, { s with
        semaphore := ⟨s.semaphore.count + 1, none, waitQueue⟩
        threadState := threadState
        released := s.released + 1 })
  else
    (.success, { s with
        semaphore := { s.semaphore with count := s.semaphore.count + 1 }
        released := s.released + 1 })

def isOutside (s : SemaphoreState τ) (thread : τ) : Bool :=
  match s.place thread with
  | .outside _ => true
  | _ => false

def whenOutside (s t : SemaphoreState τ) (thread : τ) : Option (SemaphoreState τ) :=
  if s.isOutside thread && s.threadState thread = .Ready then some t else none

def runs (s : SemaphoreState τ) (thread : τ) (now : Int) : Option (SemaphoreState τ) :=
  if s.threadState thread = .Ready then
    match s.place thread with
    | .outside _ => none
    | .entering clock _ => some (s.firstSection thread clock now)
    | .suspended clock => some (s.secondSection thread clock)
  else none

end SemaphoreState

/-- A release comes from any thread that runs, or from an interrupt handler. -/
inductive SemaphoreStep (τ : Type)
  | call (thread : τ) (clock : Option Deadline)
  | unknownClock (thread : τ)
  | runs (thread : τ) (now : Int)
  | TryAcquire (thread : τ)
  | Release
  | awaken (thread : τ)
  | blockElsewhere (thread : τ) (state : ThreadState)

def semaphoreSystem (τ : Type) [DecidableEq τ] (semValueMax : Int) :
    System (SemaphoreState τ) (SemaphoreStep τ) where
  step s
    | .call thread clock => s.whenOutside (s.goto thread (.entering clock false)) thread
    | .unknownClock thread => s.whenOutside (s.leave thread .inval) thread
    | .runs thread now => s.runs thread now
    | .TryAcquire thread => s.whenOutside (s.TryAcquire thread) thread
    | .Release => some (s.Release semValueMax).2
    | .awaken thread => some { s with threadState := wakeThread s.threadState thread }
    | .blockElsewhere thread state =>
      s.whenOutside { s with threadState := update s.threadState thread state } thread

namespace SemaphoreState

variable {s t : SemaphoreState τ} {thread other : τ} {clock : Option Deadline} {initially now : Int}

/-- A thread that has been woken and has not looked at the count since. -/
def yetToRecheck (s : SemaphoreState τ) (thread : τ) : Prop :=
  s.threadState thread = .Ready ∧ match s.place thread with
    | .outside _ => False
    | .entering _ again => again = true
    | .suspended _ => thread ∉ s.semaphore.waitQueue

/-- As many threads as there are units have yet to look. -/
def UnitsClaimed (s : SemaphoreState τ) : Prop :=
  0 < s.semaphore.count → s.semaphore.waitQueue ≠ [] →
    ∃ woken : List τ, woken.Nodup ∧ (∀ thread ∈ woken, s.yetToRecheck thread) ∧
      s.semaphore.count ≤ woken.length

/-- The queue against the places and the states of the threads. -/
structure Waiters (s : SemaphoreState τ) : Prop where
  queued : ∀ thread ∈ s.semaphore.waitQueue, ∃ clock, s.place thread = .suspended clock
  nodup : s.semaphore.waitQueue.Nodup
  blocked : ∀ thread clock, s.place thread = .suspended clock →
    (s.threadState thread).blocked = true → thread ∈ s.semaphore.waitQueue
  running : ∀ thread clock again, s.place thread = .entering clock again →
    s.threadState thread = .Ready

/-- The count against the calls that succeeded. -/
structure Accounted (initially count : Int) (released acquired : Nat) : Prop where
  counted : count = initially + released - acquired
  bounded : min 0 initially ≤ count

omit [DecidableEq τ] in
theorem outside_not_suspended (outside : s.isOutside thread = true) (clock : Option Deadline) :
    s.place thread ≠ .suspended clock := by
  intro suspended
  simp [isOutside, suspended] at outside

omit [DecidableEq τ] in
theorem outside_not_entering (outside : s.isOutside thread = true) (clock : Option Deadline)
    (again : Bool) : s.place thread ≠ .entering clock again := by
  intro entering
  simp [isOutside, entering] at outside

omit [DecidableEq τ] in
theorem outside_not_yetToRecheck (outside : s.isOutside thread = true) :
    ¬s.yetToRecheck thread := by
  intro ⟨_, waits⟩
  cases place : s.place thread with
  | outside result => simp only [place] at waits
  | entering clock again => exact outside_not_entering outside clock again place
  | suspended clock => exact outside_not_suspended outside clock place

omit [DecidableEq τ] in
/-- A thread still has to look if it stays ready and where it is, and gets no node. -/
theorem yetToRecheck_of (waits : s.yetToRecheck other)
    (ready : s.threadState other = .Ready → t.threadState other = .Ready)
    (place : t.place other = s.place other)
    (queue : t.semaphore.waitQueue ⊆ s.semaphore.waitQueue) : t.yetToRecheck other := by
  refine ⟨ready waits.1, ?_⟩
  have waits := waits.2
  rw [place]
  cases at_ : s.place other with
  | outside result => simp only [at_] at waits
  | entering clock again => simpa only [at_] using waits
  | suspended clock =>
    simp only [at_] at waits ⊢
    exact fun member => waits (queue member)

omit [DecidableEq τ] in
theorem UnitsClaimed.keep (claimed : s.UnitsClaimed) (count : t.semaphore.count = s.semaphore.count)
    (queue : t.semaphore.waitQueue ⊆ s.semaphore.waitQueue)
    (still : ∀ other, s.yetToRecheck other → t.yetToRecheck other) : t.UnitsClaimed := by
  intro positive some
  have before : s.semaphore.waitQueue ≠ [] := fun none => some (subset_nil.mp (none ▸ queue))
  rcases claimed (count ▸ positive) before with ⟨woken, nodup, waits, enough⟩
  exact ⟨woken, nodup, fun thread member => still thread (waits thread member), count ▸ enough⟩

theorem UnitsClaimed.spend (claimed : s.UnitsClaimed)
    (count : t.semaphore.count = s.semaphore.count - 1)
    (queue : t.semaphore.waitQueue ⊆ s.semaphore.waitQueue)
    (still : ∀ other, other ≠ thread → s.yetToRecheck other → t.yetToRecheck other) :
    t.UnitsClaimed := by
  intro positive some
  have before : s.semaphore.waitQueue ≠ [] := fun none => some (subset_nil.mp (none ▸ queue))
  rcases claimed (by omega) before with ⟨woken, nodup, waits, enough⟩
  refine ⟨woken.erase thread, nodup.erase thread, ?_, ?_⟩
  · intro other member
    rcases nodup.mem_erase_iff.mp member with ⟨ne, earlier⟩
    exact still other ne (waits other earlier)
  · have length : woken.length - 1 ≤ (woken.erase thread).length := by
      rw [length_erase]
      split <;> omega
    omega

omit [DecidableEq τ] in
theorem UnitsClaimed.of_nonpos (nonpos : s.semaphore.count ≤ 0) : s.UnitsClaimed :=
  fun positive => absurd positive (by omega)

section

variable (waiters : s.Waiters)

include waiters

omit [DecidableEq τ] in
theorem Waiters.not_mem
    (elsewhere : ∀ clock, s.place thread ≠ .suspended clock) :
    thread ∉ s.semaphore.waitQueue := by
  intro member
  rcases waiters.queued thread member with ⟨clock, suspended⟩
  exact elsewhere clock suspended

theorem Waiters.goto {target : AcquirePlace}
    (absent : thread ∉ s.semaphore.waitQueue) (ready : s.threadState thread = .Ready)
    (elsewhere : ∀ clock, target ≠ .suspended clock) : (s.goto thread target).Waiters := by
  refine ⟨?_, waiters.nodup, ?_, ?_⟩
  · intro other member
    have ne : other ≠ thread := fun same => absent (same ▸ member)
    show ∃ clock, update s.place thread target other = _
    rw [update_of_ne ne]
    exact waiters.queued other member
  · intro other clock suspended blocked
    change update s.place thread target other = _ at suspended
    by_cases same : other = thread
    · rw [same, update_self] at suspended
      exact absurd suspended (elsewhere clock)
    · rw [update_of_ne same] at suspended
      exact waiters.blocked other clock suspended blocked
  · intro other clock again entering
    change update s.place thread target other = _ at entering
    by_cases same : other = thread
    · rw [same]
      exact ready
    · rw [update_of_ne same] at entering
      exact waiters.running other clock again entering

theorem Waiters.suspend (absent : thread ∉ s.semaphore.waitQueue) :
    (s.suspend thread clock).Waiters := by
  refine ⟨?_, ?_, ?_, ?_⟩
  · intro other member
    show ∃ _, update s.place thread (.suspended clock) other = _
    by_cases same : other = thread
    · rw [same, update_self]
      exact ⟨clock, rfl⟩
    · rw [update_of_ne same]
      rcases mem_append.mp member with before | last
      · exact waiters.queued other before
      · exact absurd (mem_singleton.mp last) same
  · apply nodup_append.mpr
    refine ⟨waiters.nodup, nodup_singleton thread, ?_⟩
    intro other member last isLast same
    rw [same, mem_singleton.mp isLast] at member
    exact absent member
  · intro other otherClock suspended blocked
    by_cases same : other = thread
    · exact mem_append_right _ (mem_singleton.mpr same)
    · change update s.place thread _ other = _ at suspended
      change (update s.threadState thread _ other).blocked = true at blocked
      rw [update_of_ne same] at suspended blocked
      exact mem_append_left _ (waiters.blocked other otherClock suspended blocked)
  · intro other otherClock again entering
    change update s.place thread _ other = _ at entering
    by_cases same : other = thread
    · rw [same, update_self] at entering
      cases entering
    · rw [update_of_ne same] at entering
      show update s.threadState thread _ other = _
      rw [update_of_ne same]
      exact waiters.running other otherClock again entering

theorem Waiters.detach (ready : s.threadState thread = .Ready) :
    (s.detach thread).Waiters := by
  refine ⟨fun other member => waiters.queued other (mem_of_mem_erase member),
    waiters.nodup.erase thread, ?_, waiters.running⟩
  intro other clock suspended blocked
  have ne : other ≠ thread := by
    intro same
    change (s.threadState other).blocked = true at blocked
    rw [same, ready] at blocked
    cases blocked
  exact (mem_erase_of_ne ne).mpr (waiters.blocked other clock suspended blocked)

theorem Waiters.not_mem_detach :
    thread ∉ (s.detach thread).semaphore.waitQueue := waiters.nodup.not_mem_erase

end

/-- The state of the semaphore, as it is kept by every step. -/
structure Sound (initially : Int) (s : SemaphoreState τ) : Prop where
  waiters : s.Waiters
  accounted : Accounted initially s.semaphore.count s.released s.acquired
  claimed : s.UnitsClaimed

omit [DecidableEq τ] in
theorem Sound.initial : (initial initially : SemaphoreState τ).Sound initially := by
  refine ⟨?_, ?_, ?_⟩
  · constructor <;> simp [SemaphoreState.initial]
  · exact ⟨by simp [SemaphoreState.initial], Int.min_le_right 0 initially⟩
  · intro _ some
    exact absurd rfl some

theorem goto_of_ne {target : AcquirePlace} (ne : other ≠ thread) :
    (s.goto thread target).place other = s.place other := update_of_ne ne _ _

section

variable (sound : s.Sound initially)

include sound

section

variable (absent : thread ∉ s.semaphore.waitQueue)

include absent

theorem Sound.goto {target : AcquirePlace}
    (ready : s.threadState thread = .Ready)
    (elsewhere : ∀ clock, target ≠ .suspended clock)
    (still : s.yetToRecheck thread → ∃ clock, target = .entering clock true) :
    (s.goto thread target).Sound initially := by
  refine ⟨sound.waiters.goto absent ready elsewhere, sound.accounted,
    sound.claimed.keep rfl (refl _) ?_⟩
  intro other waits
  by_cases same : other = thread
  · subst same
    rcases still waits with ⟨clock, entering⟩
    refine ⟨ready, ?_⟩
    show match update s.place other target other with
      | .outside _ => False
      | .entering _ again => again = true
      | .suspended _ => other ∉ s.semaphore.waitQueue
    rw [update_self, entering]
  · exact yetToRecheck_of waits id (goto_of_ne same) (refl _)

theorem Sound.take
    (ready : s.threadState thread = .Ready) (positive : 0 < s.semaphore.count) :
    (s.take thread).Sound initially := by
  have counted := sound.accounted.counted
  refine ⟨?_, ⟨?_, ?_⟩, ?_⟩
  · have moved : (s.goto thread (.outside (some .success))).Waiters :=
      sound.waiters.goto absent ready (fun clock same => by cases same)
    exact ⟨moved.queued, moved.nodup, moved.blocked, moved.running⟩
  · show s.semaphore.count - 1 = initially + s.released - ((s.acquired + 1 : Nat) : Int)
    omega
  · show min 0 initially ≤ s.semaphore.count - 1
    omega
  · have claimed := sound.claimed
    apply UnitsClaimed.spend claimed (t := s.take thread) rfl (refl _)
    intro other ne waits
    exact yetToRecheck_of waits id (update_of_ne ne _ _) (refl _)

theorem Sound.suspend
    (nonpos : s.semaphore.count ≤ 0) : (s.suspend thread clock).Sound initially :=
  ⟨sound.waiters.suspend absent, sound.accounted, UnitsClaimed.of_nonpos nonpos⟩

end

theorem Sound.detach (ready : s.threadState thread = .Ready) :
    (s.detach thread).Sound initially :=
  ⟨sound.waiters.detach ready, sound.accounted, sound.claimed.keep rfl erase_subset
    fun _ waits => yetToRecheck_of waits id rfl erase_subset⟩

section

variable (absent : thread ∉ s.semaphore.waitQueue) (ready : s.threadState thread = .Ready)

include absent ready

theorem Sound.leave {result : PErrorCode} (nonpos : s.semaphore.count ≤ 0) : (s.leave thread result).Sound initially :=
  ⟨sound.waiters.goto absent ready (fun clock same => by cases same), sound.accounted,
    UnitsClaimed.of_nonpos nonpos⟩

theorem Sound.firstSection : (s.firstSection thread clock now).Sound initially := by
  unfold SemaphoreState.firstSection
  split
  case isTrue positive => exact sound.take absent ready positive
  case isFalse nonpos =>
    cases clock with
    | none => exact sound.suspend absent (by omega)
    | some deadline =>
      dsimp only
      split
      · exact sound.suspend absent (by omega)
      · exact sound.leave absent ready (by omega)

end

theorem Sound.secondSection (ready : s.threadState thread = .Ready) :
    (s.secondSection thread clock).Sound initially := by
  have detached := sound.detach ready
  have absent : thread ∉ (s.detach thread).semaphore.waitQueue := sound.waiters.not_mem_detach
  have enters (clock : Option Deadline) :
      ((s.detach thread).goto thread (.entering clock true)).Sound initially :=
    detached.goto absent ready (fun clock same => by cases same) fun _ => ⟨clock, rfl⟩
  unfold SemaphoreState.secondSection
  cases clock with
  | none =>
    dsimp only
    split
    case isTrue positive => exact detached.take absent ready positive
    case isFalse => exact enters none
  | some deadline => exact enters (some deadline)

theorem Sound.tryAcquire (absent : thread ∉ s.semaphore.waitQueue)
    (ready : s.threadState thread = .Ready) : (s.TryAcquire thread).Sound initially := by
  unfold TryAcquire
  split
  case isTrue positive => exact sound.take absent ready positive
  case isFalse => exact sound.leave absent ready (by omega)

end

/-- The state behind a release that wakes waiters. -/
def wokenUp (s : SemaphoreState τ) : SemaphoreState τ :=
  let woken := wakeup_wait_queue s.semaphore.waitQueue (s.semaphore.count + 1).toNat s.threadState
  { s with
    semaphore := ⟨s.semaphore.count + 1, none, woken.1⟩
    threadState := woken.2
    released := s.released + 1 }

theorem wokenUp_queue (s : SemaphoreState τ) : s.wokenUp.semaphore.waitQueue =
    s.semaphore.waitQueue.drop (wakeLimit s.semaphore.waitQueue (s.semaphore.count + 1).toNat) :=
  wakeup_wait_queue_queue _ _ _

theorem wokenUp_state (s : SemaphoreState τ) (thread : τ) : s.wokenUp.threadState thread =
    if thread ∈ s.semaphore.waitQueue.take
      (wakeLimit s.semaphore.waitQueue (s.semaphore.count + 1).toNat) then .Ready
    else s.threadState thread :=
  wakeup_wait_queue_states _ _ _ _

theorem Waiters.wokenUp (waiters : s.Waiters) : s.wokenUp.Waiters := by
  refine ⟨?_, ?_, ?_, ?_⟩
  · intro other member
    rw [wokenUp_queue] at member
    exact waiters.queued other (mem_of_mem_drop member)
  · rw [wokenUp_queue]
    exact waiters.nodup.sublist (drop_sublist _ _)
  · intro other clock suspended blocked
    rw [wokenUp_state] at blocked
    split at blocked
    case isTrue => cases blocked
    case isFalse kept =>
      have member := waiters.blocked other clock suspended blocked
      rw [wokenUp_queue]
      rw [← take_append_drop (wakeLimit s.semaphore.waitQueue (s.semaphore.count + 1).toNat)
        s.semaphore.waitQueue] at member
      exact (mem_append.mp member).resolve_left kept
  · intro other clock again entering
    rw [wokenUp_state]
    split
    · rfl
    · exact waiters.running other clock again entering

theorem Waiters.claimed_wokenUp (waiters : s.Waiters) (positive : 0 < s.semaphore.count + 1) :
    s.wokenUp.UnitsClaimed := by
  intro _ some
  have limit : wakeLimit s.semaphore.waitQueue (s.semaphore.count + 1).toNat =
      min (s.semaphore.count + 1).toNat s.semaphore.waitQueue.length := if_neg (by omega)
  rw [wokenUp_queue] at some
  have shorter : wakeLimit s.semaphore.waitQueue (s.semaphore.count + 1).toNat <
      s.semaphore.waitQueue.length := by
    by_contra large
    exact some (drop_eq_nil_of_le (Nat.le_of_not_lt large))
  refine ⟨s.semaphore.waitQueue.take
    (wakeLimit s.semaphore.waitQueue (s.semaphore.count + 1).toNat), ?_, ?_, ?_⟩
  · exact waiters.nodup.sublist (take_sublist _ _)
  · intro thread member
    refine ⟨by rw [wokenUp_state, if_pos member], ?_⟩
    rcases waiters.queued thread (mem_of_mem_take member) with ⟨clock, suspended⟩
    have place : s.wokenUp.place thread = .suspended clock := suspended
    rw [place]
    show thread ∉ s.wokenUp.semaphore.waitQueue
    rw [wokenUp_queue]
    exact disjoint_take_drop waiters.nodup (Nat.le_refl _) member
  · show s.semaphore.count + 1 ≤ _
    rw [length_take]
    omega

theorem Sound.wakes (sound : s.Sound initially) (positive : 0 < s.semaphore.count + 1) :
    s.wokenUp.Sound initially := by
  have counted := sound.accounted.counted
  refine ⟨sound.waiters.wokenUp, ⟨?_, ?_⟩, sound.waiters.claimed_wokenUp positive⟩
  · show s.semaphore.count + 1 = initially + ((s.released + 1 : Nat) : Int) - s.acquired
    omega
  · show min 0 initially ≤ s.semaphore.count + 1
    omega

theorem Sound.release {semValueMax : Int} (sound : s.Sound initially) :
    (s.Release semValueMax).2.Sound initially := by
  have counted := sound.accounted.counted
  have bounded := sound.accounted.bounded
  unfold Release
  split
  case isTrue => exact sound
  case isFalse =>
    split
    case isFalse nonpos =>
      refine ⟨⟨sound.waiters.queued, sound.waiters.nodup, sound.waiters.blocked,
        sound.waiters.running⟩, ⟨?_, ?_⟩, UnitsClaimed.of_nonpos ?_⟩
      · show s.semaphore.count + 1 = initially + ((s.released + 1 : Nat) : Int) - s.acquired
        omega
      · show min 0 initially ≤ s.semaphore.count + 1
        omega
      · show s.semaphore.count + 1 ≤ 0
        omega
    case isTrue positive =>
      exact sound.wakes positive

omit [DecidableEq τ] in
theorem whenOutside_eq_some {target : SemaphoreState τ} :
    s.whenOutside target thread = some t ↔
      s.isOutside thread = true ∧ s.threadState thread = .Ready ∧ target = t := by
  simp [whenOutside, and_assoc]

section

variable (sound : s.Sound initially)

include sound

omit [DecidableEq τ] in
theorem Sound.whenOutside {target : SemaphoreState τ}
    (applies : s.whenOutside target thread = some t)
    (keeps : s.isOutside thread = true → s.threadState thread = .Ready →
      thread ∉ s.semaphore.waitQueue → target.Sound initially) : t.Sound initially := by
  rcases whenOutside_eq_some.mp applies with ⟨outside, ready, same⟩
  rw [← same]
  exact keeps outside ready (sound.waiters.not_mem (outside_not_suspended outside))

theorem Sound.runs (ran : s.runs thread now = some t) :
    t.Sound initially := by
  unfold SemaphoreState.runs at ran
  split at ran
  case isFalse => cases ran
  case isTrue ready =>
    cases place : s.place thread with
    | outside result => simp [place] at ran
    | entering clock again =>
      simp only [place, some.injEq] at ran
      rw [← ran]
      apply sound.firstSection _ ready
      apply sound.waiters.not_mem
      intro clock suspended
      rw [place] at suspended
      cases suspended
    | suspended clock =>
      simp only [place, some.injEq] at ran
      rw [← ran]
      exact sound.secondSection ready

theorem Sound.awaken :
    ({ s with threadState := wakeThread s.threadState thread } : SemaphoreState τ).Sound
      initially := by
  refine ⟨⟨sound.waiters.queued, sound.waiters.nodup, ?_, ?_⟩, sound.accounted,
    sound.claimed.keep rfl (refl _) fun other waits =>
      yetToRecheck_of waits (wakeThread_ready s.threadState thread other) rfl (refl _)⟩
  · intro other clock suspended blocked
    by_cases same : other = thread
    · change (wakeThread s.threadState thread other).blocked = true at blocked
      rw [same, wakeThread_self] at blocked
      cases blocked
    · apply sound.waiters.blocked other clock suspended
      rwa [← wakeThread_of_ne s.threadState same]
  · intro other clock again entering
    exact wakeThread_ready _ _ _ (sound.waiters.running other clock again entering)

theorem Sound.blockElsewhere {state : ThreadState}
    (outside : s.isOutside thread = true) :
    ({ s with threadState := update s.threadState thread state } : SemaphoreState τ).Sound
      initially := by
  refine ⟨⟨sound.waiters.queued, sound.waiters.nodup, ?_, ?_⟩, sound.accounted,
    sound.claimed.keep rfl (refl _) ?_⟩
  · intro other clock suspended blocked
    have ne : other ≠ thread := fun same => outside_not_suspended outside clock (same ▸ suspended)
    change (update s.threadState thread state other).blocked = true at blocked
    rw [update_of_ne ne] at blocked
    exact sound.waiters.blocked other clock suspended blocked
  · intro other clock again entering
    have ne : other ≠ thread :=
      fun same => outside_not_entering outside clock again (same ▸ entering)
    show update s.threadState thread state other = .Ready
    rw [update_of_ne ne]
    exact sound.waiters.running other clock again entering
  · intro other waits
    have ne : other ≠ thread := fun same => outside_not_yetToRecheck outside (same ▸ waits)
    refine yetToRecheck_of waits ?_ rfl (refl _)
    intro ready
    show update s.threadState thread state other = .Ready
    rwa [update_of_ne ne]

theorem Sound.step {semValueMax : Int} {op : SemaphoreStep τ}
    (applies : (semaphoreSystem τ semValueMax).step s op = some t) : t.Sound initially := by
  cases op with
  | call thread clock | unknownClock thread =>
    apply sound.whenOutside applies
    intro outside ready absent
    apply sound.goto absent ready (fun clock same => by cases same)
    exact fun waits => absurd waits (outside_not_yetToRecheck outside)
  | runs thread now => exact sound.runs applies
  | TryAcquire thread =>
    exact sound.whenOutside applies fun _ ready absent => sound.tryAcquire absent ready
  | Release =>
    cases applies
    exact sound.release
  | awaken thread =>
    cases applies
    exact sound.awaken
  | blockElsewhere thread state =>
    exact sound.whenOutside applies fun outside _ _ => sound.blockElsewhere outside

end

theorem Sound.reaches {semValueMax : Int}
    (run : (semaphoreSystem τ semValueMax).Reaches anyStep (SemaphoreState.initial initially) s) :
    s.Sound initially :=
  run.invariant (Sound initially) Sound.initial fun sound _ applies => sound.step applies

/-- A call takes a unit exactly when it ends in success. -/
def TakesUnit (s t : SemaphoreState τ) (thread : τ) : Prop :=
  let taken : Nat := if t.place thread = .outside (some .success) then 1 else 0
  t.acquired = s.acquired + taken ∧ t.semaphore.count = s.semaphore.count - taken

theorem take_takesUnit (s : SemaphoreState τ) (thread : τ) : TakesUnit s (s.take thread) thread := by
  simp [TakesUnit, take, leave, goto]

theorem TryAcquire_takesUnit (s : SemaphoreState τ) (thread : τ) :
    TakesUnit s (s.TryAcquire thread) thread := by
  unfold TryAcquire
  split
  · exact take_takesUnit s thread
  · simp [TakesUnit, leave, goto]

theorem runs_takesUnit (ran : s.runs thread now = some t) : TakesUnit s t thread := by
  unfold SemaphoreState.runs at ran
  split at ran
  case isFalse => cases ran
  case isTrue =>
    split at ran <;> cases ran
    · unfold firstSection
      split
      · exact take_takesUnit s thread
      · split
        · simp [TakesUnit, suspend]
        · split <;> simp [TakesUnit, suspend, leave, goto]
    · unfold secondSection
      dsimp only
      split
      · split
        · exact take_takesUnit (s.detach thread) thread
        · simp [TakesUnit, detach, goto]
      · simp [TakesUnit, detach, goto]

/-- A release adds a unit exactly when it reports success. -/
theorem Release_adds (s : SemaphoreState τ) (semValueMax : Int) :
    let added : Nat := if (s.Release semValueMax).1 = .success then 1 else 0
    (s.Release semValueMax).2.released = s.released + added ∧
      (s.Release semValueMax).2.semaphore.count = s.semaphore.count + added := by
  unfold Release
  split
  · simp
  · split <;> simp

end SemaphoreState

end PadOS.Kernel
