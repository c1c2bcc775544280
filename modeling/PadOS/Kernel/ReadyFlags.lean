import PadOS.Kernel.ObjectWaitGroup

/-! # The ready flags of a wait

`Wait` clears the flags of its caller and sets one for each object that is ready. The memory
from `readyFlagsBuffer` on is kept bit by bit beside the run of the group, so that stores
behind the end of the buffer can be seen.
-/

namespace PadOS.Kernel

open Transition List Option
open Function (update_self update_of_ne update)

/-- `(maxFlagIndex + 7) & ~7`, which `memset` takes for a number of bytes. -/
def clearedBytes (maxFlagIndex : Nat) : Nat := (maxFlagIndex + 7) / 8 * 8

/-- A `Wait` from its `memset` on. `contents` is the memory at the call, `memory` what it is
now, and `written` has the bytes that were stored to. Which objects were ready when they were
asked, and which took their node off the queue since, is remembered in `ready` and `notified`. -/
structure WaitRecord where
  readyFlagsSize : Nat
  count : Nat
  maxFlagIndex : Nat
  contents : Nat → Bool
  memory : Nat → Bool
  written : Nat → Bool
  ready : Nat → Bool
  notified : Nat → Bool

namespace WaitRecord

/-- The record of a wait on `count` objects, behind `memset(readyFlagsBuffer, 0, ..)`. The
bits of a buffer are taken to fit in a `size_t`: it is shorter than 2^29 bytes. -/
def begin (contents : Nat → Bool) (readyFlagsSize : Option Nat) (count : Nat) : WaitRecord :=
  let maxFlagIndex :=
    match readyFlagsSize with
    | none => 0
    | some size => min count (size * 8)
  { readyFlagsSize := readyFlagsSize.getD 0
    count
    maxFlagIndex
    contents
    memory := fun bit => if bit / 8 < clearedBytes maxFlagIndex then false else contents bit
    written := fun byte => byte < clearedBytes maxFlagIndex
    ready := fun _ => false
    notified := fun _ => false }

/-- `readyFlags[i / 32] |= 1 << (i % 32)`, which stores all four bytes of the word. -/
def setFlag (w : WaitRecord) (i : Nat) : WaitRecord :=
  if i < w.maxFlagIndex then
    { w with
      memory := update w.memory (32 * (i / 32) + i % 32) true
      written := fun byte => byte / 4 = i / 32 || w.written byte }
  else w

/-- `AddListener` says that object `i` is ready. -/
def found (w : WaitRecord) (i : Nat) : WaitRecord :=
  { w.setFlag i with ready := update w.ready i true }

def notify (w : WaitRecord) (i : Nat) : WaitRecord :=
  { w with notified := update w.notified i true }

/-- The loop that detaches the nodes, from node `i` on. -/
def collect (w : WaitRecord) (i : Nat) : List Bool → WaitRecord
  | [] => w
  | node :: nodes => (if node then w else w.setFlag i).collect (i + 1) nodes

def signalled (w : WaitRecord) (i : Nat) : Prop := w.ready i = true ∨ w.notified i = true

end WaitRecord

/-- The group, and for each thread the memory its buffer is in and the wait it is in. -/
structure FlagState (τ ο μ : Type) where
  group : GroupState τ ο μ
  contents : τ → Nat → Bool
  waits : τ → Option WaitRecord

variable {τ ο μ : Type} [DecidableEq τ] [DecidableEq ο] [DecidableEq μ]

/-- The steps of a group; a call comes with the memory its buffer is in. -/
inductive FlagStep (τ ο μ : Type)
  | call (thread : τ) (call : GroupCall ο μ) (contents : Nat → Bool)
  | runs (thread : τ) (outcome : GroupOutcome)
  | notify (i : Nat)

def FlagStep.groupStep : FlagStep τ ο μ → GroupStep τ ο μ
  | .call thread action _ => .call thread action
  | .runs thread outcome => .runs thread outcome
  | .notify i => .notify i

namespace FlagState

def initial : FlagState τ ο μ where
  group := .initial
  contents := fun _ _ => false
  waits := fun _ => none

/-- What a thread that goes on does to its flags. -/
def flagsOf (s : FlagState τ ο μ) (thread : τ) (outcome : GroupOutcome) : Option WaitRecord :=
  match s.group.place thread with
  | .working (.beginWait readyFlagsSize :: _) =>
    some (.begin (s.contents thread) readyFlagsSize s.group.objects.length)
  | .registering i _ _ =>
    if i < s.group.objects.length ∧ outcome.objectReady then (s.waits thread).map (·.found i)
    else s.waits thread
  | .collecting _ => (s.waits thread).map (·.collect 0 s.group.nodes)
  | _ => s.waits thread

def waitsAfter (s : FlagState τ ο μ) : FlagStep τ ο μ → τ → Option WaitRecord
  | .call thread _ _ => update s.waits thread none
  | .runs thread outcome => update s.waits thread (s.flagsOf thread outcome)
  | .notify i => fun thread =>
    if (s.group.place thread).registers ∧ s.group.nodes[i]? = some true then
      (s.waits thread).map (·.notify i)
    else s.waits thread

def contentsAfter (s : FlagState τ ο μ) : FlagStep τ ο μ → τ → Nat → Bool
  | .call thread _ contents => update s.contents thread contents
  | _ => s.contents

end FlagState

def flagSystem (τ ο μ : Type) [DecidableEq τ] [DecidableEq ο] [DecidableEq μ] :
    System (FlagState τ ο μ) (FlagStep τ ο μ) where
  step s op :=
    ((groupSystem τ ο μ).step s.group op.groupStep).map fun group =>
      { group, contents := s.contentsAfter op, waits := s.waitsAfter op }

namespace WaitRecord

/-- What a wait owes its caller when it returns `result`. -/
structure Exact (w : WaitRecord) (result : PErrorCode) (nodes : List Bool) : Prop where
  inside : ∀ byte, w.written byte = true → byte < w.readyFlagsSize
  flags : result = .success → ∀ i < min w.count (8 * w.readyFlagsSize),
    (w.memory i = true ↔ w.signalled i)
  cleared : result = .success → ∀ i < 8 * w.readyFlagsSize,
    min w.count (8 * w.readyFlagsSize) ≤ i → w.memory i = false
  success : result = .success ↔ ∃ i < w.count, w.signalled i
  timedout : result = .timedout → ∀ i < w.count, ¬w.signalled i
  detached : ∀ node ∈ nodes, node = false

/-- The buffer has room for what is cleared, holds no bits behind that, and no object is
notified while another one is found ready. -/
structure Regular (w : WaitRecord) : Prop where
  fits : clearedBytes w.maxFlagIndex ≤ w.readyFlagsSize
  zero : (∃ i < w.count, w.signalled i) → ∀ i < 8 * w.readyFlagsSize,
    8 * clearedBytes w.maxFlagIndex ≤ i → w.contents i = false
  quiet : (∃ i, w.ready i = true) → ∀ i < w.maxFlagIndex, w.notified i = false

/-- What is fixed in a record, and what is never mixed up. -/
structure Shape (w : WaitRecord) : Prop where
  maxFlagIndex : w.maxFlagIndex = min w.count (8 * w.readyFlagsSize)
  written : ∀ byte, w.written byte = true ↔ byte < clearedBytes w.maxFlagIndex
  ready_lt : ∀ i, w.ready i = true → i < w.count
  notified_lt : ∀ i, w.notified i = true → i < w.count
  not_both : ∀ i, w.ready i = true → w.notified i = false

/-- The flags in the cleared memory are those of `flags`, and behind it nothing has changed. -/
def Flagged (w : WaitRecord) (flags : Nat → Bool) : Prop :=
  ∀ bit, w.memory bit = if bit < 8 * clearedBytes w.maxFlagIndex then
    decide (bit < w.maxFlagIndex) && flags bit else w.contents bit

structure Registering (w : WaitRecord) (nodes : List Bool) (objects i : Nat) (isReady : Bool)
    (maxFlagIndex : Nat) : Prop where
  shape : w.Shape
  flagged : w.Flagged w.ready
  same : maxFlagIndex = w.maxFlagIndex
  objects_eq : objects = w.count
  length_eq : nodes.length = w.count
  le : i ≤ w.count
  node : ∀ j < w.count, nodes[j]? = some (decide (j < i) && !w.ready j && !w.notified j)
  behind : ∀ j, i ≤ j → w.ready j = false ∧ w.notified j = false
  isReady_iff : isReady = true ↔ ∃ j, w.ready j = true

structure Waiting (w : WaitRecord) (nodes : List Bool) : Prop where
  shape : w.Shape
  flagged : w.Flagged fun _ => false
  none_ready : ∀ i, w.ready i = false
  length_eq : nodes.length = w.count
  node : ∀ i < w.count, nodes[i]? = some (!w.notified i)

/-- A wait that found an object ready, or that waited for one. -/
structure Left (w : WaitRecord) (result : PErrorCode) : Prop where
  shape : w.Shape
  outcome : (∃ i, w.ready i = true) ∧ w.Flagged w.ready ∧ result = .success ∨
    (∀ i, w.ready i = false) ∧ w.Flagged w.notified ∧ (result = .success ↔ ∃ i, w.notified i = true)

variable {w : WaitRecord} {nodes : List Bool} {i : Nat} {flags : Nat → Bool}
  {result : PErrorCode}

theorem le_clearedBytes (maxFlagIndex : Nat) : maxFlagIndex ≤ clearedBytes maxFlagIndex := by
  unfold clearedBytes
  omega

theorem word_lt_clearedBytes {byte maxFlagIndex : Nat} (flag : i < maxFlagIndex)
    (word : byte / 4 = i / 32) : byte < clearedBytes maxFlagIndex := by
  unfold clearedBytes
  omega

theorem Shape.begin (contents : Nat → Bool) (readyFlagsSize : Option Nat) (count : Nat) :
    (begin contents readyFlagsSize count).Shape := by
  constructor
  · cases readyFlagsSize with
    | none => simp [WaitRecord.begin]
    | some size => simp [WaitRecord.begin, Nat.mul_comm]
  · intro byte
    simp [WaitRecord.begin]
  · exact nofun
  · exact nofun
  · exact nofun

theorem Flagged.begin (contents : Nat → Bool) (readyFlagsSize : Option Nat) (count : Nat) :
    (begin contents readyFlagsSize count).Flagged fun _ => false := by
  intro bit
  simp only [WaitRecord.begin, Bool.and_false]
  congr 1
  rw [eq_iff_iff]
  omega

theorem setFlag_eq (w : WaitRecord) (i : Nat) :
    w.setFlag i = { w with memory := (w.setFlag i).memory, written := (w.setFlag i).written } := by
  unfold setFlag
  split <;> rfl

@[simp] theorem setFlag_maxFlagIndex : (w.setFlag i).maxFlagIndex = w.maxFlagIndex := by
  rw [setFlag_eq]

@[simp] theorem setFlag_contents : (w.setFlag i).contents = w.contents := by
  rw [setFlag_eq]

theorem Shape.setFlag (shape : w.Shape) (i : Nat) : (w.setFlag i).Shape := by
  rw [setFlag_eq]
  refine { shape with written := fun byte => ?_ }
  unfold WaitRecord.setFlag
  split
  · next flag =>
    rw [Bool.or_eq_true, decide_eq_true_eq, shape.written]
    constructor
    · rintro (word | inside)
      · exact word_lt_clearedBytes flag word
      · exact inside
    · exact .inr
  · exact shape.written byte

theorem Flagged.setFlag (flagged : w.Flagged flags) (i : Nat) :
    (w.setFlag i).Flagged (update flags i true) := by
  intro bit
  rw [setFlag_maxFlagIndex, setFlag_contents]
  have inside := le_clearedBytes w.maxFlagIndex
  unfold WaitRecord.setFlag
  split
  · next flag =>
    dsimp only
    rw [Nat.div_add_mod]
    by_cases same : bit = i
    · subst same
      rw [update_self, update_self, if_pos (by omega)]
      simp [flag]
    · rw [update_of_ne same, update_of_ne same]
      exact flagged bit
  · next flag =>
    rw [flagged bit]
    by_cases same : bit = i
    · subst same
      simp [flag]
    · rw [update_of_ne same]

theorem Flagged.congr {other : Nat → Bool} (flagged : w.Flagged flags)
    (same : ∀ i < w.maxFlagIndex, flags i = other i) : w.Flagged other := by
  intro bit
  rw [flagged bit]
  by_cases flag : bit < w.maxFlagIndex
  · rw [same bit flag]
  · simp [flag]

theorem collect_spec (shape : w.Shape) (flagged : w.Flagged flags) (i : Nat) (nodes : List Bool) :
    (w.collect i nodes).Shape ∧ (w.collect i nodes).maxFlagIndex = w.maxFlagIndex ∧
      (w.collect i nodes).contents = w.contents ∧
      (w.collect i nodes).ready = w.ready ∧ (w.collect i nodes).notified = w.notified ∧
      (w.collect i nodes).Flagged fun bit =>
        flags bit || (decide (i ≤ bit) && nodes[bit - i]? = some false) := by
  induction nodes generalizing w i flags with
  | nil =>
    refine ⟨shape, rfl, rfl, rfl, rfl, flagged.congr fun bit _ => ?_⟩
    simp
  | cons node nodes ih =>
    have later (bit : Nat) : (decide (i ≤ bit) && decide ((node :: nodes)[bit - i]? = some false)) =
          (decide (bit = i) && !node ||
            (decide (i + 1 ≤ bit) && decide (nodes[bit - (i + 1)]? = some false))) := by
      by_cases before : bit < i
      · simp [Nat.not_le.mpr before, Nat.ne_of_lt before, show ¬i + 1 ≤ bit by omega]
      · by_cases same : bit = i
        · subst same
          simp [show ¬bit + 1 ≤ bit by omega]
        · rw [show bit - i = bit - (i + 1) + 1 by omega, getElem?_cons_succ]
          simp [same, show i ≤ bit by omega, show i + 1 ≤ bit by omega]
    rw [collect]
    cases node with
    | true =>
      obtain ⟨shape, maxFlagIndex, contents, ready, notified, flagged⟩ :=
        ih shape flagged (i + 1)
      refine ⟨shape, maxFlagIndex, contents, ready, notified, flagged.congr fun bit _ => ?_⟩
      rw [later]
      simp
    | false =>
      obtain ⟨shape, maxFlagIndex, contents, ready, notified, flagged⟩ :=
        ih (shape.setFlag i) (flagged.setFlag i) (i + 1)
      refine ⟨shape, maxFlagIndex.trans setFlag_maxFlagIndex, contents.trans setFlag_contents,
        ready.trans (by rw [setFlag_eq]), notified.trans (by rw [setFlag_eq]),
        flagged.congr fun bit _ => ?_⟩
      rw [later]
      by_cases same : bit = i
      · subst same
        simp
      · simp [same]

theorem Registering.begin (contents : Nat → Bool) (readyFlagsSize : Option Nat) (count : Nat) :
    (begin contents readyFlagsSize count).Registering (List.replicate count false) count 0 false
      (begin contents readyFlagsSize count).maxFlagIndex where
  shape := .begin contents readyFlagsSize count
  flagged := .begin contents readyFlagsSize count
  same := rfl
  objects_eq := rfl
  length_eq := length_replicate
  le := Nat.zero_le _
  node := by
    intro j inside
    change j < count at inside
    simp [inside]
  behind := fun j _ => ⟨rfl, rfl⟩
  isReady_iff := by simp [WaitRecord.begin]

variable {objects maxFlagIndex : Nat} {isReady : Bool}

theorem found_eq (w : WaitRecord) (i : Nat) :
    w.found i = { w with
      memory := (w.setFlag i).memory
      written := (w.setFlag i).written
      ready := update w.ready i true } := by
  rw [found, setFlag_eq]

theorem found_ready (w : WaitRecord) (i : Nat) :
    (w.found i).ready = update w.ready i true := rfl

theorem found_notified (w : WaitRecord) (i : Nat) : (w.found i).notified = w.notified := by
  rw [found_eq]

theorem found_count (w : WaitRecord) (i : Nat) : (w.found i).count = w.count := by
  rw [found_eq]

theorem found_maxFlagIndex (w : WaitRecord) (i : Nat) :
    (w.found i).maxFlagIndex = w.maxFlagIndex := by
  rw [found_eq]

theorem Shape.found (shape : w.Shape) (inside : i < w.count) (unnotified : w.notified i = false) :
    (w.found i).Shape := by
  refine { shape.setFlag i with ready_lt := ?_, not_both := ?_ }
  · intro j ready
    rw [found_ready] at ready
    rw [found_count]
    by_cases same : j = i
    · rw [same]
      exact inside
    · rw [update_of_ne same] at ready
      exact shape.ready_lt j ready
  · intro j ready
    rw [found_ready] at ready
    rw [found_notified]
    by_cases same : j = i
    · rw [same, unnotified]
    · rw [update_of_ne same] at ready
      exact shape.not_both j ready

theorem Registering.found (reg : w.Registering nodes objects i isReady maxFlagIndex)
    (inside : i < objects) :
    (w.found i).Registering nodes objects (i + 1) true maxFlagIndex := by
  have count := reg.objects_eq
  refine {
    shape := reg.shape.found (by omega) (reg.behind i (Nat.le_refl i)).2
    flagged := reg.flagged.setFlag i
    same := reg.same.trans (found_maxFlagIndex w i).symm
    objects_eq := count.trans (found_count w i).symm
    length_eq := reg.length_eq.trans (found_count w i).symm
    le := ?_
    node := ?_
    behind := ?_
    isReady_iff := ?_ }
  · rw [found_count, ← count]
    exact inside
  · intro j bound
    rw [found_count] at bound
    rw [reg.node j bound, found_ready, found_notified]
    by_cases same : j = i
    · simp [same]
    · have before : decide (j < i) = decide (j < i + 1) := decide_eq_decide.mpr (by omega)
      rw [update_of_ne same, before]
  · intro j after
    rw [found_ready, found_notified, update_of_ne (by omega)]
    exact reg.behind j (by omega)
  · rw [found_ready]
    exact ⟨fun _ => ⟨i, update_self ..⟩, fun _ => rfl⟩

theorem Registering.register (reg : w.Registering nodes objects i isReady maxFlagIndex)
    (inside : i < objects) :
    w.Registering (nodes.set i true) objects (i + 1) isReady maxFlagIndex := by
  have count := reg.objects_eq
  refine { reg with length_eq := ?_, le := ?_, node := ?_, behind := ?_ }
  · rw [length_set, reg.length_eq]
  · rw [← count]
    exact inside
  · intro j bound
    have length := reg.length_eq
    obtain ⟨unready, unnotified⟩ := reg.behind i (Nat.le_refl i)
    by_cases same : j = i
    · subst same
      simp [unready, unnotified, length, bound]
    · rw [getElem?_set_ne (Ne.symm same), reg.node j bound]
      have before : decide (j < i) = decide (j < i + 1) := decide_eq_decide.mpr (by omega)
      rw [before]
  · intro j after
    exact reg.behind j (by omega)

theorem notify_notified (w : WaitRecord) (i : Nat) :
    (w.notify i).notified = update w.notified i true := rfl

theorem Shape.notify (shape : w.Shape) (inside : i < w.count) (unready : w.ready i = false) :
    (w.notify i).Shape := by
  refine { shape with notified_lt := ?_, not_both := ?_ }
  · intro j notified
    rw [notify_notified] at notified
    by_cases same : j = i
    · rw [same]
      exact inside
    · rw [update_of_ne same] at notified
      exact shape.notified_lt j notified
  · intro j ready
    have other : j ≠ i := by
      intro same
      rw [same] at ready
      exact absurd (unready.symm.trans ready) nofun
    rw [notify_notified, update_of_ne other]
    exact shape.not_both j ready

theorem Registering.notify (reg : w.Registering nodes objects i isReady maxFlagIndex) {j : Nat}
    (registered : nodes[j]? = some true) :
    (w.notify j).Registering (nodes.set j false) objects i isReady maxFlagIndex := by
  have length := reg.length_eq
  have bound : j < w.count := by
    rw [← length]
    exact (List.getElem?_eq_some_iff.mp registered).1
  have before := reg.node j bound
  rw [registered] at before
  simp only [some.injEq, Bool.true_eq, Bool.and_eq_true, decide_eq_true_eq,
    Bool.not_eq_true'] at before
  obtain ⟨⟨before, unready⟩, unnotified⟩ := before
  refine { reg with
    shape := reg.shape.notify bound unready
    length_eq := ?_
    node := ?_
    behind := ?_ }
  · rw [length_set, length]
    rfl
  · intro k inside
    rw [notify_notified]
    by_cases same : k = j
    · subst same
      rw [update_self, getElem?_set_self (by omega)]
      simp
    · rw [getElem?_set_ne (Ne.symm same), reg.node k inside, update_of_ne same]
      rfl
  · intro k after
    rw [notify_notified, update_of_ne (by omega)]
    exact reg.behind k after

theorem Registering.left (reg : w.Registering nodes objects i true maxFlagIndex) :
    w.Left .success :=
  ⟨reg.shape, Or.inl ⟨reg.isReady_iff.mp rfl, reg.flagged, rfl⟩⟩

theorem Registering.waiting (reg : w.Registering nodes objects i false maxFlagIndex)
    (done : ¬i < objects) : w.Waiting nodes := by
  have none_ready : ∀ j, w.ready j = false := by
    intro j
    rw [← Bool.not_eq_true]
    intro ready
    exact absurd (reg.isReady_iff.mpr ⟨j, ready⟩) nofun
  refine ⟨reg.shape, reg.flagged.congr fun j _ => none_ready j, none_ready, reg.length_eq, ?_⟩
  intro j inside
  have count := reg.objects_eq
  rw [reg.node j inside, none_ready j]
  simp [show j < i by omega]

theorem Waiting.notify (waiting : w.Waiting nodes) {j : Nat} (registered : nodes[j]? = some true) :
    (w.notify j).Waiting (nodes.set j false) := by
  have length := waiting.length_eq
  have bound : j < w.count := by
    rw [← length]
    exact (List.getElem?_eq_some_iff.mp registered).1
  refine { waiting with
    shape := waiting.shape.notify bound (waiting.none_ready j)
    length_eq := ?_
    node := ?_ }
  · rw [length_set, length]
    rfl
  · intro k inside
    rw [notify_notified]
    by_cases same : k = j
    · subst same
      rw [update_self, getElem?_set_self (by omega)]
      simp
    · rw [getElem?_set_ne (Ne.symm same), waiting.node k inside, update_of_ne same]

theorem Waiting.notified_iff (waiting : w.Waiting nodes) :
    nodes.any (! ·) = true ↔ ∃ i, w.notified i = true := by
  rw [List.any_eq_true]
  constructor
  · intro ⟨node, member, off⟩
    obtain ⟨i, bound, found⟩ := mem_iff_getElem.mp member
    have length := waiting.length_eq
    have here := waiting.node i (by omega)
    rw [getElem?_eq_getElem bound, found, some.injEq] at here
    rw [here] at off
    exact ⟨i, by simpa using off⟩
  · intro ⟨i, notified⟩
    have here := waiting.node i (waiting.shape.notified_lt i notified)
    rw [notified] at here
    exact ⟨false, mem_of_getElem? here, rfl⟩

theorem Waiting.collect (waiting : w.Waiting nodes) (timedOut : Bool) {isReady : Bool}
    (found : isReady = true → ∃ i, w.notified i = true) :
    (w.collect 0 nodes).Left
      (if isReady || nodes.any (! ·) then .success else if timedOut then .timedout else .intr) := by
  obtain ⟨shape, maxFlagIndex, contents, ready, notified, flagged⟩ :=
    collect_spec waiting.shape waiting.flagged 0 nodes
  refine ⟨shape, Or.inr ⟨?_, ?_, ?_⟩⟩
  · rw [ready]
    exact waiting.none_ready
  · rw [notified]
    refine flagged.congr fun i flag => ?_
    rw [maxFlagIndex] at flag
    have bound := waiting.shape.maxFlagIndex
    rw [Bool.false_or, Nat.sub_zero, waiting.node i (by omega)]
    simp
  · rw [notified, ← waiting.notified_iff]
    have any : isReady = true → nodes.any (! ·) = true :=
      fun isReady => waiting.notified_iff.mpr (found isReady)
    split
    · next some =>
      rw [Bool.or_eq_true] at some
      exact ⟨fun _ => some.elim any id, fun _ => rfl⟩
    · next none =>
      rw [Bool.or_eq_true, not_or] at none
      split
      · exact ⟨nofun, fun any => absurd any none.2⟩
      · exact ⟨nofun, fun any => absurd any none.2⟩

theorem Left.success_iff (left : w.Left result) :
    result = .success ↔ ∃ i < w.count, w.signalled i := by
  have shape := left.shape
  rcases left.outcome with ⟨⟨i, ready⟩, _, success⟩ | ⟨none_ready, _, success⟩
  · exact ⟨fun _ => ⟨i, shape.ready_lt i ready, Or.inl ready⟩, fun _ => success⟩
  · rw [success]
    constructor
    · intro ⟨i, notified⟩
      exact ⟨i, shape.notified_lt i notified, Or.inr notified⟩
    · intro ⟨i, _, signalled⟩
      rcases signalled with ready | notified
      · exact absurd ((none_ready i).symm.trans ready) nofun
      · exact ⟨i, notified⟩

theorem Left.flags_iff (left : w.Left result) :
    (∀ i < w.maxFlagIndex, (w.memory i = true ↔ w.signalled i)) ↔
      ((∃ i, w.ready i = true) → ∀ i < w.maxFlagIndex, w.notified i = false) := by
  have shape := left.shape
  have inside := le_clearedBytes w.maxFlagIndex
  rcases left.outcome with ⟨some, flagged, _⟩ | ⟨none_ready, flagged, _⟩
  · have memory : ∀ i < w.maxFlagIndex, w.memory i = w.ready i := by
      intro i flag
      rw [flagged i, if_pos (by omega)]
      simp [flag]
    constructor
    · intro flags _ i flag
      rw [← Bool.not_eq_true]
      intro notified
      have ready := (flags i flag).mpr (Or.inr notified)
      rw [memory i flag] at ready
      exact absurd ((shape.not_both i ready).symm.trans notified) nofun
    · intro quiet i flag
      rw [memory i flag, signalled, quiet some i flag]
      simp
  · have memory : ∀ i < w.maxFlagIndex, w.memory i = w.notified i := by
      intro i flag
      rw [flagged i, if_pos (by omega)]
      simp [flag]
    constructor
    · intro _ ⟨i, ready⟩
      exact absurd ((none_ready i).symm.trans ready) nofun
    · intro _ i flag
      rw [memory i flag, signalled, none_ready i]
      simp

theorem Left.memory_behind (left : w.Left result) (behind : w.maxFlagIndex ≤ i) :
    w.memory i = if i < 8 * clearedBytes w.maxFlagIndex then false else w.contents i := by
  rcases left.outcome with ⟨_, flagged, _⟩ | ⟨_, flagged, _⟩
  · rw [flagged i]
    simp [Nat.not_lt.mpr behind]
  · rw [flagged i]
    simp [Nat.not_lt.mpr behind]

theorem Left.exact_iff (left : w.Left result) (detached : ∀ node ∈ nodes, node = false) :
    w.Exact result nodes ↔ w.Regular := by
  have shape := left.shape
  have bound := shape.maxFlagIndex
  have inside := le_clearedBytes w.maxFlagIndex
  constructor
  · intro exact
    refine ⟨?_, ?_, ?_⟩
    · by_contra beyond
      exact absurd (exact.inside _ ((shape.written _).mpr (Nat.lt_of_not_le beyond)))
        (Nat.lt_irrefl _)
    · intro some i room behind
      have clear := exact.cleared (exact.success.mpr some) i room (by omega)
      rw [left.memory_behind (by omega), if_neg (by omega)] at clear
      exact clear
    · intro some
      have success := left.success_iff.mpr (by
        obtain ⟨i, ready⟩ := some
        exact ⟨i, shape.ready_lt i ready, Or.inl ready⟩)
      have flags := exact.flags success
      rw [← bound] at flags
      exact left.flags_iff.mp flags some
  · intro regular
    refine ⟨?_, ?_, ?_, left.success_iff, ?_, detached⟩
    · intro byte written
      exact Nat.lt_of_lt_of_le ((shape.written byte).mp written) regular.fits
    · intro _
      rw [← bound]
      exact left.flags_iff.mpr regular.quiet
    · intro success i room behind
      rw [left.memory_behind (by omega)]
      split
      · rfl
      · exact regular.zero (left.success_iff.mp success) i room (by omega)
    · intro timedout i count signalled
      have success := left.success_iff.mpr ⟨i, count, signalled⟩
      rw [timedout] at success
      cases success

end WaitRecord

namespace FlagState

/-- What the record of a thread says about the place where the thread stands. -/
def Holds (record : Option WaitRecord) (nodes : List Bool) (objects : Nat) :
    GroupPlace ο μ → Prop
  | .outside _ => True
  | .locking _ | .working _ => record = none
  | .inCondition _ | .lastWait _ => False
  | .registering i isReady maxFlagIndex =>
    ∃ w, record = some w ∧ w.Registering nodes objects i isReady maxFlagIndex
  | .checking | .suspended => ∃ w, record = some w ∧ w.Waiting nodes
  | .resumed isReady | .collecting isReady =>
    ∃ w, record = some w ∧ w.Waiting nodes ∧ (isReady = true → ∃ i, w.notified i = true)
  | .leaving result => ∀ w, record = some w → w.Left result

/-- No thread is kept waiting by a wait that is blocked, since that one has the mutex. -/
structure Sound (s : FlagState τ ο μ) : Prop where
  group : s.group.Sound
  modsPending : s.group.modsPending = 0
  holds : ∀ thread, Holds (s.waits thread) s.group.nodes s.group.objects.length
    (s.group.place thread)

variable {s t : FlagState τ ο μ} {u : GroupState τ ο μ} {thread other : τ}
  {outcome : GroupOutcome} {record : Option WaitRecord} {nodes : List Bool} {objects : Nat}
  {p : GroupPlace ο μ}

omit [DecidableEq τ] in
theorem Sound.initial : (initial : FlagState τ ο μ).Sound :=
  ⟨GroupState.Sound.initial, rfl, fun _ => trivial⟩

omit [DecidableEq ο] [DecidableEq μ] in
theorem Holds.of_not_inside (holds : Holds record nodes objects p) (out : p.inside = false)
    (nodes' : List Bool) (objects' : Nat) : Holds record nodes' objects' p := by
  cases p <;> simp_all [Holds, GroupPlace.inside]

section

variable (sound : s.Sound)

include sound

theorem Sound.not_inside (ran : s.group.runs thread outcome = some u)
    (ne : other ≠ thread) : (s.group.place other).inside = false := by
  rw [← Bool.not_eq_true]
  intro inside
  have held := (sound.group.owner other).mp inside
  have mine : (s.group.place thread).inside = false := by
    rw [← Bool.not_eq_true]
    intro own
    have both := held.symm.trans ((sound.group.owner thread).mp own)
    exact ne (some.inj both)
  have holds := sound.holds thread
  unfold GroupState.runs at ran
  cases place : s.group.place thread with
  | outside result => simp [place] at ran
  | locking todo => simp [place, GroupState.relock, held] at ran
  | inCondition todo | lastWait result =>
    rw [place] at holds
    exact holds
  | _ =>
    rw [place] at mine
    cases mine

variable {todo : List (GroupAction ο μ)}

theorem Sound.act {action : GroupAction ο μ}
    (place : s.group.place thread = .working (action :: todo)) :
    (s.group.act thread action todo).modsPending = 0 ∧
      Holds (s.flagsOf thread outcome) (s.group.act thread action todo).nodes
        (s.group.act thread action todo).objects.length
        ((s.group.act thread action todo).place thread) := by
  have unset : s.waits thread = none := by
    have holds := sound.holds thread
    rw [place] at holds
    exact holds
  have held : s.group.mutex = some thread := (sound.group.owner thread).mp (by rw [place]; rfl)
  cases action with
  | addObject object waitMode =>
    refine ⟨sound.modsPending, ?_⟩
    simp only [flagsOf, place, GroupState.act, GroupState.goto, update_self, Holds]
    exact unset
  | waitForBlockedThread =>
    have free := sound.group.not_blocked (.inr held) (by rw [place]; rfl)
    simp only [flagsOf, place, GroupState.act, free, GroupState.goto, update_self, Holds]
    exact ⟨sound.modsPending, unset⟩
  | eraseObject object waitMode =>
    simp only [flagsOf, place, GroupState.act]
    split
    · refine ⟨sound.modsPending, ?_⟩
      simp only [GroupState.goto, update_self, Holds]
      exact unset
    · refine ⟨sound.modsPending, ?_⟩
      simp only [GroupState.goto, update_self, Holds, unset]
      exact nofun
  | clearLoop =>
    simp only [flagsOf, place, GroupState.act]
    split
    · refine ⟨sound.modsPending, ?_⟩
      simp only [GroupState.goto, update_self, Holds]
      exact unset
    · refine ⟨sound.modsPending, ?_⟩
      simp only [GroupState.goto, update_self, Holds]
      exact unset
  | beginWait readyFlagsSize =>
    refine ⟨sound.modsPending, ?_⟩
    simp only [flagsOf, place, GroupState.act, GroupState.goto, update_self, Holds]
    refine ⟨_, rfl, ?_⟩
    cases readyFlagsSize with
    | none => exact .begin _ none _
    | some size => exact .begin _ (some size) _

theorem Sound.register {i maxFlagIndex : Nat} {isReady : Bool}
    (place : s.group.place thread = .registering i isReady maxFlagIndex) :
    let u := s.group.register thread i isReady maxFlagIndex outcome.objectReady
    u.modsPending = 0 ∧
      Holds (s.flagsOf thread outcome) u.nodes u.objects.length (u.place thread) := by
  have holds := sound.holds thread
  rw [place] at holds
  obtain ⟨w, some, reg⟩ := holds
  simp only [flagsOf, place, GroupState.register, some]
  by_cases inside : i < s.group.objects.length
  · cases ready : outcome.objectReady with
    | true =>
      simp only [inside, and_self, ↓reduceIte]
      have next := reg.found inside
      split
      · refine ⟨sound.modsPending, ?_⟩
        simp only [GroupState.goto, update_self, Holds]
        exact ⟨_, rfl, next⟩
      · refine ⟨sound.modsPending, ?_⟩
        simp only [GroupState.goto, update_self, Holds]
        intro v same
        cases same
        exact next.left
    | false =>
      simp only [inside, Bool.false_eq_true, and_false, ↓reduceIte]
      refine ⟨sound.modsPending, ?_⟩
      simp only [GroupState.goto, update_self, Holds]
      exact ⟨w, rfl, reg.register inside⟩
  · simp only [inside, false_and, ↓reduceIte]
    split
    · next ready =>
      refine ⟨sound.modsPending, ?_⟩
      simp only [GroupState.goto, update_self, Holds]
      intro v same
      cases same
      subst ready
      exact reg.left
    · next unready =>
      refine ⟨sound.modsPending, ?_⟩
      simp only [GroupState.goto, update_self, Holds]
      rw [Bool.not_eq_true] at unready
      subst unready
      exact ⟨w, rfl, reg.waiting inside⟩

theorem Sound.check (place : s.group.place thread = .checking) :
    (s.group.check thread).modsPending = 0 ∧
      Holds (s.flagsOf thread outcome) (s.group.check thread).nodes
        (s.group.check thread).objects.length ((s.group.check thread).place thread) := by
  have holds := sound.holds thread
  rw [place] at holds
  obtain ⟨w, some, waiting⟩ := holds
  simp only [flagsOf, place, GroupState.check, some]
  split
  · next off =>
    refine ⟨sound.modsPending, ?_⟩
    simp only [GroupState.goto, update_self, Holds]
    exact ⟨w, rfl, waiting, fun _ => waiting.notified_iff.mp off⟩
  · refine ⟨sound.modsPending, ?_⟩
    simp only [GroupState.goto, update_self, Holds]
    exact ⟨w, rfl, waiting⟩

theorem Sound.collect {isReady : Bool}
    (place : s.group.place thread = .collecting isReady) :
    let u := s.group.collect thread isReady outcome.timedOut
    u.modsPending = 0 ∧
      Holds (s.flagsOf thread outcome) u.nodes u.objects.length (u.place thread) := by
  have holds := sound.holds thread
  rw [place] at holds
  obtain ⟨w, some, waiting, found⟩ := holds
  have leaves := waiting.collect outcome.timedOut found
  simp only [flagsOf, place, GroupState.collect, some, sound.modsPending]
  rw [if_neg (by simp)]
  refine ⟨sound.modsPending, ?_⟩
  simp only [GroupState.goto, update_self, Holds]
  intro v same
  cases same
  exact leaves

theorem Sound.relock
    (place : s.group.place thread = .locking todo)
    (ran : s.group.relock thread (.working todo) = some u) :
    u.modsPending = 0 ∧
      Holds (s.flagsOf thread outcome) u.nodes u.objects.length (u.place thread) := by
  have holds := sound.holds thread
  rw [place] at holds
  have moved := GroupState.relock_place ran
  unfold GroupState.relock at ran
  split at ran
  · cases ran
    refine ⟨sound.modsPending, ?_⟩
    rw [moved, update_self]
    simp only [flagsOf, place, Holds]
    exact holds
  · cases ran

theorem Sound.runs_own (ran : s.group.runs thread outcome = some u) :
    u.modsPending = 0 ∧
      Holds (s.flagsOf thread outcome) u.nodes u.objects.length (u.place thread) := by
  have holds := sound.holds thread
  unfold GroupState.runs at ran
  revert ran
  cases place : s.group.place thread with
  | outside result => rintro ⟨⟩
  | locking todo =>
    intro ran
    exact sound.relock place ran
  | working todo =>
    cases todo with
    | nil =>
      rintro ⟨⟩
      refine ⟨sound.modsPending, ?_⟩
      rw [place] at holds
      simp only [flagsOf, place, GroupState.goto, update_self, Holds]
      intro w same
      exact absurd (holds.symm.trans same) nofun
    | cons action todo =>
      rintro ⟨⟩
      exact sound.act place
  | inCondition todo | lastWait result =>
    rw [place] at holds
    exact holds.elim
  | registering i isReady maxFlagIndex =>
    rintro ⟨⟩
    exact sound.register place
  | checking =>
    rintro ⟨⟩
    exact sound.check place
  | suspended =>
    rintro ⟨⟩
    refine ⟨sound.modsPending, ?_⟩
    rw [place] at holds
    obtain ⟨w, some, waiting⟩ := holds
    simp only [flagsOf, place, GroupState.goto, update_self, Holds]
    exact ⟨w, some, waiting, nofun⟩
  | resumed isReady =>
    rintro ⟨⟩
    refine ⟨sound.modsPending, ?_⟩
    rw [place] at holds
    simp only [flagsOf, place, GroupState.goto, update_self, Holds]
    exact holds
  | collecting isReady =>
    rintro ⟨⟩
    exact sound.collect place
  | leaving result =>
    rintro ⟨⟩
    refine ⟨sound.modsPending, ?_⟩
    simp only [GroupState.goto, update_self, Holds]

end

omit [DecidableEq ο] [DecidableEq μ] in
theorem Holds.notify {i : Nat} (holds : Holds record nodes objects p) :
    Holds (if p.registers ∧ nodes[i]? = some true then record.map (·.notify i) else record)
      (nodes.set i false) objects p := by
  by_cases registered : nodes[i]? = some true
  · cases p with
    | registering k isReady maxFlagIndex =>
      obtain ⟨w, some, reg⟩ := holds
      rw [if_pos ⟨rfl, registered⟩, some]
      exact ⟨_, rfl, reg.notify registered⟩
    | checking | suspended =>
      obtain ⟨w, some, waiting⟩ := holds
      rw [if_pos ⟨rfl, registered⟩, some]
      exact ⟨_, rfl, waiting.notify registered⟩
    | resumed isReady | collecting isReady =>
      obtain ⟨w, some, waiting, found⟩ := holds
      rw [if_pos ⟨rfl, registered⟩, some]
      exact ⟨_, rfl, waiting.notify registered, fun _ => ⟨i, update_self ..⟩⟩
    | _ =>
      rw [if_neg fun both => absurd both.1 nofun]
      exact holds
  · have same : nodes.set i false = nodes := by
      apply ext_getElem?
      intro k
      by_cases here : k = i
      · subst here
        rw [getElem?_set_self']
        cases found : nodes[k]? with
        | none => rfl
        | some node =>
          cases node
          · rfl
          · exact absurd found registered
      · rw [getElem?_set_ne (Ne.symm here)]
    rw [if_neg fun both => registered both.2, same]
    exact holds

theorem Sound.step (sound : s.Sound) {op : FlagStep τ ο μ}
    (applies : (flagSystem τ ο μ).step s op = some t) : t.Sound := by
  obtain ⟨u, steps, same⟩ := map_eq_some_iff.mp applies
  have group := sound.group.step steps
  subst same
  cases op with
  | call thread action contents =>
    obtain ⟨_, _, rfl⟩ := GroupState.call_spec steps
    refine ⟨group, sound.modsPending, fun other => ?_⟩
    simp only [waitsAfter, GroupState.goto]
    by_cases same : other = thread
    · rw [same, update_self, update_self]
      rfl
    · rw [update_of_ne same, update_of_ne same]
      exact sound.holds other
  | runs thread outcome =>
    have own := sound.runs_own steps
    obtain ⟨p, moved, _⟩ := GroupState.place_of_runs steps
    refine ⟨group, own.1, fun other => ?_⟩
    simp only [waitsAfter]
    by_cases same : other = thread
    · rw [same, update_self]
      exact own.2
    · rw [update_of_ne same, moved, update_of_ne same]
      exact (sound.holds other).of_not_inside (sound.not_inside steps same) _ _
  | notify i =>
    cases steps
    exact ⟨group, sound.modsPending, fun other => (sound.holds other).notify⟩

theorem Sound.reaches (run : (flagSystem τ ο μ).Reaches anyStep FlagState.initial s) : s.Sound :=
  run.invariant Sound Sound.initial fun sound _ applies => sound.step applies

end FlagState

/-- A wait that returns has told its caller exactly what was ready and kept to the buffer if and
only if it was regular. -/
theorem wait_exact {s : FlagState τ ο μ} {thread : τ} {result : PErrorCode} {w : WaitRecord}
    (run : (flagSystem τ ο μ).Reaches anyStep FlagState.initial s)
    (leaves : s.group.place thread = .leaving result) (wait : s.waits thread = some w) :
    w.Exact result s.group.nodes ↔ w.Regular := by
  have sound := FlagState.Sound.reaches run
  have holds := sound.holds thread
  rw [leaves] at holds
  have held : s.group.mutex = some thread := (sound.group.owner thread).mp (by rw [leaves]; rfl)
  exact (holds w wait).exact_iff (sound.group.nodes_false (.inr held) (by rw [leaves]; rfl))

/-- A wait for one object, which is ready, with a buffer of `size` bytes. -/
def readyWait (size : Nat) : List (FlagStep Nat Nat Nat) :=
  let goes : FlagStep Nat Nat Nat := .runs 0 ⟨true, false, .success⟩
  [.call 0 (.AddObject_trw 7 0) fun _ => false, goes, goes, goes, goes,
    .call 0 (.Wait (some size)) fun _ => false, goes, goes, goes, goes, goes]

theorem wait_exact_eight : ∃ (s : FlagState Nat Nat Nat) (w : WaitRecord),
    s.group.place 0 = .leaving .success ∧ s.waits 0 = some w ∧
      (w.Exact .success s.group.nodes ↔ w.Regular) := by
  obtain ⟨s, after, leaves, w, wait⟩ : ∃ s, (flagSystem Nat Nat Nat).after .initial (readyWait 8) =
      some s ∧ s.group.place 0 = .leaving .success ∧ ∃ w, s.waits 0 = some w :=
    ⟨_, rfl, rfl, _, rfl⟩
  exact ⟨s, w, leaves, wait, wait_exact (System.reaches_after after) leaves wait⟩

/-- With a flag for one object in one byte, the seven bytes behind it are cleared too. -/
theorem wait_clears_behind_buffer : ¬∀ (s : FlagState Nat Nat Nat) (thread : Nat)
    (result : PErrorCode) (w : WaitRecord),
    (flagSystem Nat Nat Nat).Reaches anyStep FlagState.initial s →
      s.group.place thread = .leaving result → s.waits thread = some w →
        w.Exact result s.group.nodes := by
  intro claim
  obtain ⟨s, after, leaves, w, wait, size, written⟩ :
      ∃ s, (flagSystem Nat Nat Nat).after .initial (readyWait 1) = some s ∧
        s.group.place 0 = .leaving .success ∧
        ∃ w, s.waits 0 = some w ∧ w.readyFlagsSize = 1 ∧ w.written 7 = true :=
    ⟨_, rfl, rfl, _, rfl, rfl, rfl⟩
  have inside := (claim s 0 .success w (System.reaches_after after) leaves wait).inside 7 written
  rw [size] at inside
  exact absurd inside (by decide)

end PadOS.Kernel
