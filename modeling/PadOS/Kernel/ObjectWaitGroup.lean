import PadOS.Core.ErrorCode
import PadOS.Core.Transition
import Mathlib.Data.List.Count
import Mathlib.Logic.Function.Basic

/-! # `KObjectWaitGroup`

A thread waits for any of a list of objects, and other threads change the list. A call
holds the mutex of the group from its start to its end, but for the time it spends in the
condition for blocked threads. The mutex and the condition are taken at their contract: a
call enters when the mutex is free, and a wait for the condition gives it up and may end at
any time. What the objects do, and when a timer expires, is left to the step that asks.
Memory does not run out.
-/

namespace PadOS.Kernel

open Transition List Option
open Function (update_self update_of_ne update)

/-- What is left to do of a call; `clearLoop` is the loop of `ClearInternal_trw`. -/
inductive GroupAction (ο μ : Type)
  | addObject (object : ο) (waitMode : μ)
  | waitForBlockedThread
  | eraseObject (object : ο) (waitMode : μ)
  | clearLoop
  | beginWait (readyFlagsSize : Option Nat)

/-- Where a thread stands. `registering` is the loop over the objects, `checking` is the
section that suspends, and `leaving` the end of the scope of the mutex. -/
inductive GroupPlace (ο μ : Type)
  | outside (result : Option PErrorCode)
  | locking (todo : List (GroupAction ο μ))
  | working (todo : List (GroupAction ο μ))
  | inCondition (todo : List (GroupAction ο μ))
  | registering (i : Nat) (isReady : Bool) (maxFlagIndex : Nat)
  | checking
  | suspended
  | resumed (isReady : Bool)
  | collecting (isReady : Bool)
  | lastWait (result : PErrorCode)
  | leaving (result : PErrorCode)

/-- `nodes` tells of each wait node whether it is in the queue of its object, and
`waitGroups` has the entries of this group in the lists of the objects. -/
structure GroupState (τ ο μ : Type) where
  mutex : Option τ
  objects : List (ο × μ)
  waitGroups : ο → List μ
  nodes : List Bool
  blockedThread : Option τ
  modsPending : Nat
  place : τ → GroupPlace ο μ

/-- What a step may hear from outside of the group. -/
structure GroupOutcome where
  objectReady : Bool
  timedOut : Bool
  conditionResult : PErrorCode

variable {τ ο μ : Type} [DecidableEq τ] [DecidableEq ο] [DecidableEq μ]

/-- The calls, each under the mutex of the group. -/
inductive GroupCall (ο μ : Type)
  | AddObject_trw (object : ο) (waitMode : μ)
  | RemoveObject_trw (object : ο) (waitMode : μ)
  | SetObjects_trw (objects : List ο) (waitMode : μ)
  | AppendObjects_trw (objects : List ο) (waitMode : μ)
  | Clear_trw
  | Wait (readyFlagsSize : Option Nat)

def GroupCall.actions : GroupCall ο μ → List (GroupAction ο μ)
  | .AddObject_trw object waitMode => [.addObject object waitMode]
  | .RemoveObject_trw object waitMode => [.waitForBlockedThread, .eraseObject object waitMode]
  | .SetObjects_trw objects waitMode =>
    .waitForBlockedThread :: .clearLoop :: objects.map fun object => .addObject object waitMode
  | .AppendObjects_trw objects waitMode => objects.map fun object => .addObject object waitMode
  | .Clear_trw => [.waitForBlockedThread, .clearLoop]
  | .Wait readyFlagsSize => [.waitForBlockedThread, .beginWait readyFlagsSize]

namespace GroupState

def initial : GroupState τ ο μ where
  mutex := none
  objects := []
  waitGroups := fun _ => []
  nodes := []
  blockedThread := none
  modsPending := 0
  place := fun _ => .outside none

section

variable (s : GroupState τ ο μ)

variable (thread : τ)

def goto (place : GroupPlace ο μ) : GroupState τ ο μ :=
  { s with place := update s.place thread place }

/-- All wait nodes are taken out of the queues they are in. -/
def detachNodes : GroupState τ ο μ :=
  { s with nodes := replicate s.nodes.length false }

def addObject (object : ο) (waitMode : μ) : GroupState τ ο μ :=
  { s with
    objects := s.objects ++ [(object, waitMode)]
    waitGroups := update s.waitGroups object (s.waitGroups object ++ [waitMode]) }

/-- The first entry of the pair is erased on both sides. -/
def eraseObject (object : ο) (waitMode : μ) : GroupState τ ο μ :=
  { s with
    objects := s.objects.erase (object, waitMode)
    waitGroups := update s.waitGroups object ((s.waitGroups object).erase waitMode) }

/-- One action of a call that has the mutex. -/
def act (action : GroupAction ο μ)
    (todo : List (GroupAction ο μ)) : GroupState τ ο μ :=
  match action with
  | .addObject object waitMode => (s.addObject object waitMode).goto thread (.working todo)
  | .waitForBlockedThread =>
    match s.blockedThread with
    | none => s.goto thread (.working todo)
    | some _ =>
      { s with mutex := none, modsPending := s.modsPending + 1 }.goto thread (.inCondition todo)
  | .eraseObject object waitMode =>
    if (object, waitMode) ∈ s.objects then
      (s.eraseObject object waitMode).goto thread (.working todo)
    else s.goto thread (.leaving .inval)
  | .clearLoop =>
    match s.objects.getLast? with
    | none => s.goto thread (.working todo)
    | some (object, waitMode) =>
      s.goto thread (.working (.waitForBlockedThread :: .eraseObject object waitMode ::
        .clearLoop :: todo))
  | .beginWait readyFlagsSize =>
    { s with nodes := replicate s.objects.length false }.goto thread
      (.registering 0 false (match readyFlagsSize with
          | none => 0
          | some size => min s.objects.length (size * 8)))

/-- The loop over the objects: one of them takes the node, or says that it is ready. -/
def register (i : Nat) (isReady : Bool) (maxFlagIndex : Nat)
    (objectReady : Bool) : GroupState τ ο μ :=
  if i < s.objects.length then
    if objectReady then
      if i < maxFlagIndex then s.goto thread (.registering (i + 1) true maxFlagIndex)
      else s.detachNodes.goto thread (.leaving .success)
    else { s with nodes := s.nodes.set i true }.goto thread (.registering (i + 1) isReady maxFlagIndex)
  else if isReady then s.detachNodes.goto thread (.leaving .success)
  else s.goto thread .checking

/-- The section that suspends the thread, unless a node has been taken meanwhile. -/
def check : GroupState τ ο μ :=
  if s.nodes.any (! ·) then s.goto thread (.resumed true)
  else { s with blockedThread := some thread }.goto thread .suspended

/-- The section behind the suspension. -/
def collect (isReady timedOut : Bool) : GroupState τ ο μ :=
  let result : PErrorCode :=
    if isReady || s.nodes.any (! ·) then .success else if timedOut then .timedout else .intr
  if !timedOut && s.modsPending != 0 then
    { s.detachNodes with mutex := none }.goto thread (.lastWait result)
  else s.detachNodes.goto thread (.leaving result)

/-- The mutex is taken again behind a wait for the condition. -/
def relock (place : GroupPlace ο μ) :
    Option (GroupState τ ο μ) :=
  match s.mutex with
  | none => some ({ s with mutex := some thread }.goto thread place)
  | some _ => none

/-- `WaitForBlockedThread_trw` behind its wait: it throws, or looks again. -/
def retry (todo : List (GroupAction ο μ))
    (result : PErrorCode) : Option (GroupState τ ο μ) :=
  { s with modsPending := s.modsPending - 1 }.relock thread
    (if result ≠ PErrorCode.success ∧ result ≠ PErrorCode.intr then .leaving result
      else .working (.waitForBlockedThread :: todo))

def runs (outcome : GroupOutcome) :
    Option (GroupState τ ο μ) :=
  match s.place thread with
  | .outside _ => none
  | .locking todo => s.relock thread (.working todo)
  | .working [] => some (s.goto thread (.leaving .success))
  | .working (action :: todo) => some (s.act thread action todo)
  | .inCondition todo => s.retry thread todo outcome.conditionResult
  | .registering i isReady maxFlagIndex =>
    some (s.register thread i isReady maxFlagIndex outcome.objectReady)
  | .checking => some (s.check thread)
  | .suspended => some (s.goto thread (.resumed false))
  | .resumed isReady => some ({ s with blockedThread := none }.goto thread (.collecting isReady))
  | .collecting isReady => some (s.collect thread isReady outcome.timedOut)
  | .lastWait result =>
    s.relock thread (.leaving
      (if outcome.conditionResult ≠ .success then outcome.conditionResult else result))
  | .leaving result =>
    some ({ s with mutex := none }.goto thread (.outside (some result)))

end

end GroupState

/-- A thread calls or goes on, or an object takes a wait node off its queue. -/
inductive GroupStep (τ ο μ : Type)
  | call (thread : τ) (call : GroupCall ο μ)
  | runs (thread : τ) (outcome : GroupOutcome)
  | notify (i : Nat)

def groupSystem (τ ο μ : Type) [DecidableEq τ] [DecidableEq ο] [DecidableEq μ] :
    System (GroupState τ ο μ) (GroupStep τ ο μ) where
  step s
    | .call thread call =>
      match s.place thread with
      | .outside _ => some (s.goto thread (.locking call.actions))
      | _ => none
    | .runs thread outcome => s.runs thread outcome
    | .notify i => some { s with nodes := s.nodes.set i false }

/-- No thread is suspended by the section that would suspend it. -/
def noWaitSuspends : Condition (GroupState τ ο μ) (GroupStep τ ο μ)
  | s, .runs thread _ =>
    match s.place thread with
    | .checking => s.nodes.any (! ·) = true
    | _ => True
  | _, _ => True

namespace GroupPlace

/-- The places of a call that has the mutex. -/
def inside : GroupPlace ο μ → Bool
  | .outside _ | .locking _ | .inCondition _ | .lastWait _ => false
  | _ => true

/-- The places of a wait that may have nodes in the queues of the objects. -/
def registers : GroupPlace ο μ → Bool
  | .registering _ _ _ | .checking | .suspended | .resumed _ | .collecting _ => true
  | _ => false

/-- The places of the thread that the group takes for blocked. -/
def isBlocked : GroupPlace ο μ → Bool
  | .suspended | .resumed _ => true
  | _ => false

variable {p : GroupPlace ο μ}

omit [DecidableEq ο] [DecidableEq μ] in
theorem inside_of_registers (registers : p.registers = true) : p.inside = true := by
  cases p <;> simp_all [inside, GroupPlace.registers]

omit [DecidableEq ο] [DecidableEq μ] in
theorem inside_of_isBlocked (blocked : p.isBlocked = true) : p.inside = true := by
  cases p <;> simp_all [inside, GroupPlace.isBlocked]

end GroupPlace

namespace GroupState

variable {s t : GroupState τ ο μ} {thread other : τ} {p : GroupPlace ο μ} {outcome : GroupOutcome}

/-- The objects of the group, and the entries of the group in the lists of the objects. -/
def Inverse (objects : List (ο × μ)) (waitGroups : ο → List μ) : Prop :=
  ∀ object waitMode, objects.count (object, waitMode) = (waitGroups object).count waitMode

/-- The mutex has the one thread that is inside, and nodes stand only in its wait. -/
structure Sound (s : GroupState τ ο μ) : Prop where
  owner : ∀ thread, (s.place thread).inside = true ↔ s.mutex = some thread
  unregistered : (∀ thread, (s.place thread).registers = false) → ∀ node ∈ s.nodes, node = false
  blocked : ∀ thread, s.blockedThread = some thread → (s.place thread).isBlocked = true
  inverse : Inverse s.objects s.waitGroups

omit [DecidableEq τ] in
theorem Sound.initial : (initial : GroupState τ ο μ).Sound := by
  constructor <;> simp [GroupState.initial, GroupPlace.inside, Inverse]

theorem Inverse.add {objects : List (ο × μ)} {waitGroups : ο → List μ}
    (inverse : Inverse objects waitGroups) (object : ο) (waitMode : μ) :
    Inverse (objects ++ [(object, waitMode)])
      (update waitGroups object (waitGroups object ++ [waitMode])) := by
  intro other mode
  rw [count_append, inverse other mode]
  by_cases same : other = object
  · subst same
    rw [update_self, count_append]
    simp [count_singleton]
  · rw [update_of_ne same]
    simp [Ne.symm same]

theorem Inverse.erase {objects : List (ο × μ)} {waitGroups : ο → List μ}
    (inverse : Inverse objects waitGroups) (object : ο) (waitMode : μ) :
    Inverse (objects.erase (object, waitMode))
      (update waitGroups object ((waitGroups object).erase waitMode)) := by
  intro other mode
  rw [count_erase, inverse other mode]
  by_cases same : other = object
  · subst same
    rw [update_self, count_erase]
    simp
  · rw [update_of_ne same]
    simp [Ne.symm same]

omit [DecidableEq τ] in
theorem Sound.outside_of_ne (sound : s.Sound) (mine : s.mutex = none ∨ s.mutex = some thread)
    (ne : other ≠ thread) : (s.place other).inside = false := by
  rw [← Bool.not_eq_true, sound.owner other]
  intro held
  rcases mine with free | own
  · rw [free] at held
    cases held
  · rw [own, some.injEq] at held
    exact ne held.symm

section

variable (sound : s.Sound) (mine : s.mutex = none ∨ s.mutex = some thread)

include sound mine

theorem Sound.nodes_false
    (own : (s.place thread).registers = false) : ∀ node ∈ s.nodes, node = false := by
  apply sound.unregistered
  intro other
  by_cases same : other = thread
  · rw [same, own]
  · have outside := sound.outside_of_ne mine same
    rw [← Bool.not_eq_true] at outside ⊢
    exact fun registers => outside (GroupPlace.inside_of_registers registers)

theorem Sound.move
    (moved : t.place = update s.place thread p)
    (mutex : t.mutex = if p.inside = true then some thread else none)
    (nodes : p.registers = true ∨ ∀ node ∈ t.nodes, node = false)
    (blocked : ∀ other, t.blockedThread = some other → other = thread ∧ p.isBlocked = true)
    (inverse : Inverse t.objects t.waitGroups) : t.Sound := by
  refine ⟨fun other => ?_, fun none => ?_, fun other same => ?_, inverse⟩
  · rw [moved, mutex]
    by_cases same : other = thread
    · subst same
      rw [update_self]
      split
      case isTrue inside => simp [inside]
      case isFalse outside => simp [outside]
    · rw [update_of_ne same, sound.outside_of_ne mine same]
      split
      · simp [Ne.symm same]
      · simp
  · rcases nodes with registers | nodes
    · have own := none thread
      rw [moved, update_self, registers] at own
      cases own
    · exact nodes
  · rcases blocked other same with ⟨rfl, isBlocked⟩
    rw [moved, update_self]
    exact isBlocked

theorem Sound.blocked_own
    (same : s.blockedThread = some other) : other = thread := by
  by_contra ne
  have outside := sound.outside_of_ne mine ne
  rw [GroupPlace.inside_of_isBlocked (sound.blocked other same)] at outside
  cases outside

theorem Sound.not_blocked
    (own : (s.place thread).isBlocked = false) : s.blockedThread = none := by
  cases blockedThread : s.blockedThread with
  | none => rfl
  | some other =>
    have same := sound.blocked_own mine blockedThread
    have isBlocked := sound.blocked other blockedThread
    rw [same, own] at isBlocked
    cases isBlocked

end

theorem Sound.stay (sound : s.Sound) (held : s.mutex = some thread)
    (moved : t.place = update s.place thread p) (mutex : t.mutex = s.mutex)
    (inside : p.inside = true) (nodes : p.registers = true ∨ ∀ node ∈ t.nodes, node = false)
    (blocked : ∀ other, t.blockedThread = some other → other = thread ∧ p.isBlocked = true)
    (inverse : Inverse t.objects t.waitGroups) : t.Sound :=
  sound.move (.inr held) moved (by rw [if_pos inside, mutex, held]) nodes blocked inverse

theorem Sound.work (sound : s.Sound) (mine : s.mutex = none ∨ s.mutex = some thread)
    (unregistered : (s.place thread).registers = false)
    (unblocked : (s.place thread).isBlocked = false) (moved : t.place = update s.place thread p)
    (mutex : t.mutex = if p.inside = true then some thread else none)
    (nodes : t.nodes = s.nodes) (blocked : t.blockedThread = s.blockedThread)
    (inverse : Inverse t.objects t.waitGroups) : t.Sound := by
  apply sound.move mine moved mutex _ _ inverse
  · rw [nodes]
    exact .inr (sound.nodes_false mine unregistered)
  · intro other same
    rw [blocked, sound.not_blocked mine unblocked] at same
    cases same

theorem Sound.relock (sound : s.Sound) (unregistered : (s.place thread).registers = false)
    (unblocked : (s.place thread).isBlocked = false) (inside : p.inside = true)
    (ran : s.relock thread p = some t) : t.Sound := by
  unfold GroupState.relock at ran
  split at ran
  case h_1 free =>
    cases ran
    exact sound.work (.inl free) unregistered unblocked rfl (if_pos inside).symm rfl rfl
      sound.inverse
  case h_2 => cases ran

theorem Sound.act (sound : s.Sound) {action : GroupAction ο μ} {todo : List (GroupAction ο μ)}
    (place : s.place thread = .working (action :: todo)) : (s.act thread action todo).Sound := by
  have held : s.mutex = some thread := (sound.owner thread).mp (by rw [place]; rfl)
  have unregistered : (s.place thread).registers = false := by rw [place]; rfl
  have unblocked : (s.place thread).isBlocked = false := by rw [place]; rfl
  cases action with
  | addObject object waitMode =>
    exact sound.work (.inr held) unregistered unblocked rfl held rfl rfl (sound.inverse.add _ _)
  | waitForBlockedThread =>
    unfold GroupState.act
    dsimp only
    split
    · exact sound.work (.inr held) unregistered unblocked rfl held rfl rfl sound.inverse
    · exact sound.work (.inr held) unregistered unblocked rfl rfl rfl rfl sound.inverse
  | eraseObject object waitMode =>
    unfold GroupState.act
    dsimp only
    split
    · exact sound.work (.inr held) unregistered unblocked rfl held rfl rfl (sound.inverse.erase _ _)
    · exact sound.work (.inr held) unregistered unblocked rfl held rfl rfl sound.inverse
  | clearLoop =>
    unfold GroupState.act
    dsimp only
    split
    · exact sound.work (.inr held) unregistered unblocked rfl held rfl rfl sound.inverse
    · exact sound.work (.inr held) unregistered unblocked rfl held rfl rfl sound.inverse
  | beginWait readyFlagsSize =>
    have free := sound.not_blocked (.inr held) unblocked
    exact sound.stay held rfl rfl rfl (.inl rfl)
      (fun other same => by cases free.symm.trans same) sound.inverse

omit [DecidableEq τ] [DecidableEq ο] [DecidableEq μ] in
theorem detachNodes_nodes (s : GroupState τ ο μ) : ∀ node ∈ s.detachNodes.nodes, node = false :=
  fun _ member => eq_of_mem_replicate member

section

variable (sound : s.Sound)

include sound

theorem Sound.alone (inside : (s.place thread).inside = true)
    (awake : (s.place thread).isBlocked = false) : s.mutex = some thread ∧
      ∀ {p : GroupPlace ο μ} (other : τ), s.blockedThread = some other →
        other = thread ∧ p.isBlocked = true := by
  have held := (sound.owner thread).mp inside
  refine ⟨held, fun other same => ?_⟩
  rw [sound.not_blocked (.inr held) awake] at same
  cases same

theorem Sound.register {i maxFlagIndex : Nat} {isReady objectReady : Bool}
    (place : s.place thread = .registering i isReady maxFlagIndex) :
    (s.register thread i isReady maxFlagIndex objectReady).Sound := by
  obtain ⟨held, blocked⟩ := sound.alone (by rw [place]; rfl) (by rw [place]; rfl)
  unfold GroupState.register
  split
  · split
    · split
      · exact sound.stay held rfl rfl rfl (.inl rfl) blocked sound.inverse
      · exact sound.stay held rfl rfl rfl (.inr s.detachNodes_nodes) blocked sound.inverse
    · exact sound.stay held rfl rfl rfl (.inl rfl) blocked sound.inverse
  · split
    · exact sound.stay held rfl rfl rfl (.inr s.detachNodes_nodes) blocked sound.inverse
    · exact sound.stay held rfl rfl rfl (.inl rfl) blocked sound.inverse

theorem Sound.check (place : s.place thread = .checking) :
    (s.check thread).Sound := by
  have held : s.mutex = some thread := (sound.owner thread).mp (by rw [place]; rfl)
  unfold GroupState.check
  split
  · exact sound.stay held rfl rfl rfl (.inl rfl)
      (fun other same => ⟨sound.blocked_own (.inr held) same, rfl⟩) sound.inverse
  · exact sound.stay held rfl rfl rfl (.inl rfl)
      (fun other same => ⟨(some.inj same).symm, rfl⟩) sound.inverse

theorem Sound.collect {isReady timedOut : Bool}
    (place : s.place thread = .collecting isReady) :
    (s.collect thread isReady timedOut).Sound := by
  obtain ⟨held, blocked⟩ := sound.alone (by rw [place]; rfl) (by rw [place]; rfl)
  unfold GroupState.collect
  dsimp only
  split
  · exact sound.move (.inr held) rfl rfl (.inr s.detachNodes_nodes) blocked sound.inverse
  · exact sound.stay held rfl rfl rfl (.inr s.detachNodes_nodes) blocked sound.inverse

theorem Sound.runs (ran : s.runs thread outcome = some t) : t.Sound := by
  unfold GroupState.runs at ran
  have held (inside : (s.place thread).inside = true) : s.mutex = some thread :=
    (sound.owner thread).mp inside
  revert ran
  cases place : s.place thread with
  | outside result => rintro ⟨⟩
  | locking todo =>
    intro ran
    exact sound.relock (by rw [place]; rfl) (by rw [place]; rfl) rfl ran
  | working todo =>
    cases todo with
    | nil =>
      rintro ⟨⟩
      have own := held (by rw [place]; rfl)
      exact sound.work (.inr own) (by rw [place]; rfl) (by rw [place]; rfl) rfl own rfl rfl
        sound.inverse
    | cons action todo =>
      rintro ⟨⟩
      exact sound.act place
  | inCondition todo =>
    intro ran
    have counted : ({ s with modsPending := s.modsPending - 1 } : GroupState τ ο μ).Sound :=
      ⟨sound.owner, sound.unregistered, sound.blocked, sound.inverse⟩
    refine counted.relock ?_ ?_ ?_ ran
    · show (s.place thread).registers = false
      rw [place]
      rfl
    · show (s.place thread).isBlocked = false
      rw [place]
      rfl
    · split <;> rfl
  | registering i isReady maxFlagIndex =>
    rintro ⟨⟩
    exact sound.register place
  | checking =>
    rintro ⟨⟩
    exact sound.check place
  | suspended =>
    rintro ⟨⟩
    have own := held (by rw [place]; rfl)
    exact sound.stay own rfl rfl rfl (.inl rfl)
      (fun other same => ⟨sound.blocked_own (.inr own) same, rfl⟩) sound.inverse
  | resumed isReady =>
    rintro ⟨⟩
    exact sound.stay (held (by rw [place]; rfl)) rfl rfl rfl (.inl rfl)
      (fun other same => by cases same) sound.inverse
  | collecting isReady =>
    rintro ⟨⟩
    exact sound.collect place
  | lastWait result =>
    intro ran
    exact sound.relock (by rw [place]; rfl) (by rw [place]; rfl) rfl ran
  | leaving result =>
    rintro ⟨⟩
    exact sound.work (.inr (held (by rw [place]; rfl))) (by rw [place]; rfl) (by rw [place]; rfl)
      rfl rfl rfl rfl sound.inverse

theorem Sound.call {result : Option PErrorCode}
    {todo : List (GroupAction ο μ)} (place : s.place thread = .outside result) :
    (s.goto thread (.locking todo)).Sound := by
  have old (q : GroupPlace ο μ → Bool) (same : q (.locking todo) = q (.outside result))
      (other : τ) : q ((s.goto thread (.locking todo)).place other) = q (s.place other) := by
    show q (update s.place thread (.locking todo) other) = _
    by_cases isThread : other = thread
    · rw [isThread, update_self, place, same]
    · rw [update_of_ne isThread]
  refine ⟨fun other => ?_, fun none => ?_, fun other same => ?_, sound.inverse⟩
  · rw [old GroupPlace.inside rfl other]
    exact sound.owner other
  · apply sound.unregistered
    intro other
    rw [← old GroupPlace.registers rfl other]
    exact none other
  · rw [old GroupPlace.isBlocked rfl other]
    exact sound.blocked other same

end

theorem call_spec {call : GroupCall ο μ}
    (applies : (groupSystem τ ο μ).step s (.call thread call) = some t) :
    ∃ result, s.place thread = .outside result ∧ t = s.goto thread (.locking call.actions) := by
  unfold groupSystem at applies
  dsimp only at applies
  split at applies
  · rename_i result place
    exact ⟨result, place, (some.inj applies).symm⟩
  · cases applies

variable {op : GroupStep τ ο μ}

theorem Sound.step (sound : s.Sound)
    (applies : (groupSystem τ ο μ).step s op = some t) : t.Sound := by
  cases op with
  | call thread call =>
    rcases call_spec applies with ⟨_, place, rfl⟩
    exact sound.call place
  | runs thread outcome => exact sound.runs applies
  | notify i =>
    cases applies
    refine ⟨sound.owner, fun none node member => ?_, sound.blocked, sound.inverse⟩
    rcases mem_or_eq_of_mem_set member with before | now
    · exact sound.unregistered none node before
    · exact now

theorem Sound.reaches {good : Condition (GroupState τ ο μ) (GroupStep τ ο μ)}
    (run : (groupSystem τ ο μ).Reaches good GroupState.initial s) : s.Sound :=
  run.invariant Sound Sound.initial fun sound _ applies => sound.step applies

theorem objects_of_runs (ran : s.runs thread outcome = some t) :
    t.objects = s.objects ∨ ∃ todo, s.place thread = .working todo := by
  unfold GroupState.runs at ran
  revert ran
  cases place : s.place thread with
  | outside result => rintro ⟨⟩
  | working todo => exact fun _ => .inr ⟨todo, rfl⟩
  | locking todo | inCondition todo | lastWait result =>
    intro ran
    simp only [retry, GroupState.relock] at ran
    split at ran <;> cases ran
    exact .inl rfl
  | registering i isReady maxFlagIndex =>
    rintro ⟨⟩
    left
    unfold GroupState.register
    split
    · split
      · split <;> rfl
      · rfl
    · split <;> rfl
  | checking =>
    rintro ⟨⟩
    left
    unfold GroupState.check
    split <;> rfl
  | collecting isReady =>
    rintro ⟨⟩
    left
    unfold GroupState.collect
    dsimp only
    split <;> rfl
  | suspended | resumed isReady | leaving result =>
    rintro ⟨⟩
    exact .inl rfl

theorem Sound.objects_change (sound : s.Sound)
    (applies : (groupSystem τ ο μ).step s op = some t) (changed : t.objects ≠ s.objects) :
    (∀ node ∈ s.nodes, node = false) ∧ ∀ thread, s.place thread ≠ .suspended := by
  cases op with
  | call thread call =>
    change (match s.place thread with
      | .outside _ => some (s.goto thread (.locking call.actions))
      | _ => none) = some t at applies
    split at applies
    case h_1 =>
      cases applies
      exact absurd rfl changed
    case h_2 => cases applies
  | runs thread outcome =>
    rcases objects_of_runs applies with same | ⟨todo, place⟩
    · exact absurd same changed
    · have held : s.mutex = some thread := (sound.owner thread).mp (by rw [place]; rfl)
      refine ⟨sound.nodes_false (.inr held) (by rw [place]; rfl), fun other suspended => ?_⟩
      have inside : (s.place other).inside = true := by
        rw [suspended]
        rfl
      rw [(sound.owner other).mp inside, some.injEq] at held
      rw [held, place] at suspended
      cases suspended
  | notify i =>
    cases applies
    exact absurd rfl changed

omit [DecidableEq ο] [DecidableEq μ] in
theorem relock_place (ran : s.relock thread p = some t) :
    t.place = update s.place thread p := by
  unfold GroupState.relock at ran
  split at ran <;> cases ran
  rfl

theorem act_place (s : GroupState τ ο μ) (thread : τ) (action : GroupAction ο μ)
    (todo : List (GroupAction ο μ)) : ∃ p, (s.act thread action todo).place =
      update s.place thread p ∧ p ≠ .suspended := by
  cases action with
  | addObject object waitMode => exact ⟨_, rfl, fun same => by cases same⟩
  | waitForBlockedThread | eraseObject object waitMode | clearLoop =>
    unfold GroupState.act
    dsimp only
    split <;> exact ⟨_, rfl, fun same => by cases same⟩
  | beginWait readyFlagsSize => exact ⟨_, rfl, fun same => by cases same⟩

theorem place_of_runs (ran : s.runs thread outcome = some t) :
    ∃ p, t.place = update s.place thread p ∧
      (p = .suspended → s.place thread = .checking ∧ s.nodes.any (! ·) ≠ true) := by
  unfold GroupState.runs at ran
  revert ran
  cases place : s.place thread with
  | outside result => rintro ⟨⟩
  | locking todo | lastWait result =>
    intro ran
    exact ⟨_, relock_place ran, fun same => by cases same⟩
  | inCondition todo =>
    intro ran
    unfold GroupState.retry at ran
    have moved := relock_place ran
    refine ⟨_, moved, ?_⟩
    split <;> exact fun same => by cases same
  | working todo =>
    cases todo with
    | nil =>
      rintro ⟨⟩
      exact ⟨_, rfl, fun same => by cases same⟩
    | cons action todo =>
      rintro ⟨⟩
      rcases act_place s thread action todo with ⟨p, moved, other⟩
      exact ⟨p, moved, fun same => absurd same other⟩
  | registering i isReady maxFlagIndex =>
    rintro ⟨⟩
    unfold GroupState.register
    split
    · split
      · split <;> exact ⟨_, rfl, fun same => by cases same⟩
      · exact ⟨_, rfl, fun same => by cases same⟩
    · split <;> exact ⟨_, rfl, fun same => by cases same⟩
  | checking =>
    rintro ⟨⟩
    unfold GroupState.check
    split
    case isTrue => exact ⟨_, rfl, fun same => by cases same⟩
    case isFalse all => exact ⟨_, rfl, fun _ => ⟨rfl, all⟩⟩
  | collecting isReady =>
    rintro ⟨⟩
    unfold GroupState.collect
    dsimp only
    split <;> exact ⟨_, rfl, fun same => by cases same⟩
  | suspended | resumed isReady | leaving result =>
    rintro ⟨⟩
    exact ⟨_, rfl, fun same => by cases same⟩

theorem not_suspended_step (meets : noWaitSuspends s op)
    (applies : (groupSystem τ ο μ).step s op = some t)
    (nobody : ∀ other, s.place other ≠ .suspended) : ∀ other, t.place other ≠ .suspended := by
  intro other
  cases op with
  | call thread call =>
    change (match s.place thread with
      | .outside _ => some (s.goto thread (.locking call.actions))
      | _ => none) = some t at applies
    split at applies
    case h_1 =>
      cases applies
      show update s.place thread (.locking call.actions) other ≠ _
      by_cases same : other = thread
      · rw [same, update_self]
        exact fun suspended => by cases suspended
      · rw [update_of_ne same]
        exact nobody other
    case h_2 => cases applies
  | runs thread outcome =>
    rcases place_of_runs applies with ⟨p, moved, suspends⟩
    rw [moved]
    by_cases same : other = thread
    · rw [same, update_self]
      intro suspended
      rcases suspends suspended with ⟨checking, all⟩
      simp only [noWaitSuspends, checking] at meets
      exact all meets
    · rw [update_of_ne same]
      exact nobody other
  | notify i =>
    cases applies
    exact nobody other

/-- A suspended wait whose thread still has the mutex of the group. -/
def SuspendedWithMutex (s : GroupState τ ο μ) (thread : τ) : Prop :=
  s.place thread = .suspended ∧ s.mutex = some thread

/-- The list changes only while no wait is suspended or has a node in a queue, and it is
inverse to the lists of the objects. -/
structure ChangesBetweenWaits (s : GroupState τ ο μ) : Prop where
  inverse : Inverse s.objects s.waitGroups
  change : ∀ op t, (groupSystem τ ο μ).step s op = some t → t.objects ≠ s.objects →
    (∀ node ∈ s.nodes, node = false) ∧ ∀ thread, s.place thread ≠ .suspended

end GroupState

/-- In every run the objects change between the waits only; a suspended wait has the mutex,
so that none has it only in the runs in which no wait suspends. -/
theorem group_objects_change_between_waits :
    (∀ s : GroupState τ ο μ, (groupSystem τ ο μ).Reaches anyStep GroupState.initial s →
      s.ChangesBetweenWaits ∧
        ∀ thread, s.place thread = .suspended → s.SuspendedWithMutex thread) ∧
    ∀ s : GroupState τ ο μ, (groupSystem τ ο μ).Reaches noWaitSuspends GroupState.initial s →
      ∀ thread, ¬s.SuspendedWithMutex thread := by
  constructor
  · intro s run
    have sound := GroupState.Sound.reaches run
    refine ⟨⟨sound.inverse, fun op t applies changed => sound.objects_change applies changed⟩, ?_⟩
    intro thread suspended
    refine ⟨suspended, (sound.owner thread).mp ?_⟩
    rw [suspended]
    rfl
  · intro s run thread suspended
    have none := run.invariant (fun s => ∀ other, s.place other ≠ .suspended)
      (fun _ same => by cases same)
      fun before meets applies => GroupState.not_suspended_step meets applies before
    exact none thread suspended.1

/-- A wait whose only object takes its node off in time. -/
theorem group_objects_change_between_waits_notified : ∃ s : GroupState Nat Nat Nat, s.place 1 = .resumed true ∧ s.objects = [(7, 0)] ∧
      s.ChangesBetweenWaits ∧ ∀ thread, ¬s.SuspendedWithMutex thread := by
  let outcome : GroupOutcome := ⟨false, false, .success⟩
  have start : (groupSystem Nat Nat Nat).Reaches noWaitSuspends .initial _ := .refl
  have added := ((((start.next (.call 0 (.AddObject_trw 7 0)) trivial rfl).next
    (.runs 0 outcome) trivial rfl).next (.runs 0 outcome) trivial rfl).next
    (.runs 0 outcome) trivial rfl).next (.runs 0 outcome) trivial rfl
  have waits := (((added.next (.call 1 (.Wait none)) trivial rfl).next
    (.runs 1 outcome) trivial rfl).next (.runs 1 outcome) trivial rfl).next
    (.runs 1 outcome) trivial rfl
  have registered := (waits.next (.runs 1 outcome) trivial rfl).next (.runs 1 outcome) trivial rfl
  have checks := (registered.next (.notify 0) trivial rfl).next (.runs 1 outcome) rfl rfl
  have all := @group_objects_change_between_waits Nat Nat Nat _ _ _
  exact ⟨_, rfl, rfl, (all.1 _ (checks.mono fun _ _ _ => trivial)).1, all.2 _ checks⟩

/-- An object that takes the node leaves a thread that sleeps with the mutex. -/
theorem group_wait_suspends_with_mutex : ∃ s : GroupState Nat Nat Nat,
    (groupSystem Nat Nat Nat).Reaches anyStep GroupState.initial s ∧ s.SuspendedWithMutex 0 := by
  let outcome : GroupOutcome := ⟨false, false, .success⟩
  have start : (groupSystem Nat Nat Nat).Reaches anyStep .initial _ := .refl
  have added := ((((start.next (.call 0 (.AddObject_trw 7 0)) trivial rfl).next
    (.runs 0 outcome) trivial rfl).next (.runs 0 outcome) trivial rfl).next
    (.runs 0 outcome) trivial rfl).next (.runs 0 outcome) trivial rfl
  have waits := (((added.next (.call 0 (.Wait none)) trivial rfl).next
    (.runs 0 outcome) trivial rfl).next (.runs 0 outcome) trivial rfl).next
    (.runs 0 outcome) trivial rfl
  have suspends := ((waits.next (.runs 0 outcome) trivial rfl).next
    (.runs 0 outcome) trivial rfl).next (.runs 0 outcome) trivial rfl
  exact ⟨_, suspends, rfl, rfl⟩

end PadOS.Kernel
