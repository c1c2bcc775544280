import Mathlib.Algebra.Order.Floor.Semiring
import Mathlib.Data.Rat.Floor
import Mathlib.Tactic.Linarith
import PadOS.Core.RingBuffer
import PadOS.Core.Transition

/-! # Motion queue of a stepper motor

A queued motion is split into steps of acceleration, cruise and deceleration, and each timer
interrupt counts one of them down. The planner is a parameter: what it finds for a distance are two
distances that do not exceed it together.
-/

namespace PadOS.Kernel

open RingBuffer Transition Function List Option Nat

def INT32_MAX : Nat := 2147483647

def INFINIT_DISTANCE_I : Nat := INT32_MAX - 1000

def MOTION_BUFFER_COUNT : Nat := 16

variable {K : Type} [Field K] [LinearOrder K] [IsStrictOrderedRing K] [FloorSemiring K]

/-- What `CalculateMaxCruiseSpeed` finds for a distance. -/
structure CruisePlan (K : Type) [Field K] [LinearOrder K] (distance : Nat) where
  accDist : K
  decDist : K
  cruiseSpeed : K
  acc_nonneg : 0 ≤ accDist
  dec_nonneg : 0 ≤ decDist
  sum_le : accDist + decDist ≤ distance

/-- `int32_t(distance + 0.5f)` -/
def toSteps (distance : K) : Nat := ⌊distance + 1 / 2⌋₊

structure StepperMotionNode where
  accelStepsLeft : Nat
  cruiceStepsLeft : Nat
  decelStepsLeft : Nat
  direction : Bool
  deriving DecidableEq

namespace StepperMotionNode

/-- `StepperMotionNode::Update` -/
def Update (direction : Bool) (distance : Nat) (plan : CruisePlan K distance) : StepperMotionNode :=
  let accelStepsLeft := toSteps plan.accDist
  let decelStepsLeft := toSteps plan.decDist
  let cruiceStepsLeft :=
    if distance ≠ INFINIT_DISTANCE_I then
      let totalAccSteps := accelStepsLeft + decelStepsLeft
      if totalAccSteps < distance then distance - totalAccSteps else 0
    else if 1 / 1000 < plan.cruiseSpeed then INT32_MAX else 0
  ⟨accelStepsLeft, cruiceStepsLeft, decelStepsLeft, direction⟩

def remainingDistance (node : StepperMotionNode) : Nat :=
  node.accelStepsLeft + node.cruiceStepsLeft + node.decelStepsLeft

/-- The counter that an interrupt counts down. A cruise without end is not counted. -/
def takeStep (node : StepperMotionNode) : StepperMotionNode :=
  if node.accelStepsLeft ≠ 0 then { node with accelStepsLeft := node.accelStepsLeft - 1 }
  else if node.cruiceStepsLeft ≠ 0 then
    if node.cruiceStepsLeft ≠ INT32_MAX then
      { node with cruiceStepsLeft := node.cruiceStepsLeft - 1 }
    else node
  else if node.decelStepsLeft ≠ 0 then { node with decelStepsLeft := node.decelStepsLeft - 1 }
  else node

end StepperMotionNode

open StepperMotionNode

structure StepperDriver where
  reverse : Bool
  motionQueue : Nat → StepperMotionNode
  motionQueueCurrentNode : Nat
  motionQueueInPos : Nat
  motionQueueCurrentCount : Nat
  position : Int
  pinDirection : Bool
  isRunning : Bool

namespace StepperDriver

def GetNextBlockIndex (index : Nat) : Nat := (index + 1) &&& (MOTION_BUFFER_COUNT - 1)

def GetPrevBlockIndex (index : Nat) : Nat := (index + (2 ^ 32 - 1)) &&& (MOTION_BUFFER_COUNT - 1)

section

variable (d : StepperDriver)

/-- The level of the direction pin for a motion. -/
def pin (direction : Bool) : Bool := if d.reverse then !direction else direction

def ActivateCurrentNode : StepperDriver :=
  { d with pinDirection := d.pin (d.motionQueue d.motionQueueCurrentNode).direction }

def StartStopTimer (doRun : Bool) : StepperDriver :=
  if doRun ∧ d.motionQueueCurrentCount = 0 then d else { d with isRunning := doRun }

def prevNode : StepperMotionNode :=
  d.motionQueue (GetPrevBlockIndex d.motionQueueInPos)

/-- The last motion is planned again if the next one goes on in its direction. -/
def replanPrev (direction : Bool) (replan : ∀ distance, CruisePlan K distance) :
    StepperDriver :=
  if 0 < d.motionQueueCurrentCount ∧ direction = d.prevNode.direction then
    { d with
      motionQueue := update d.motionQueue (GetPrevBlockIndex d.motionQueueInPos)
        (Update direction d.prevNode.remainingDistance (replan _)) }
  else d

def queueNode (node : StepperMotionNode) : StepperDriver :=
  let d := { d with motionQueue := update d.motionQueue d.motionQueueInPos node }
  let d := if d.motionQueueCurrentCount = 0 then d.ActivateCurrentNode else d
  let d := { d with
    motionQueueInPos := GetNextBlockIndex d.motionQueueInPos
    motionQueueCurrentCount := d.motionQueueCurrentCount + 1 }
  if d.motionQueueCurrentCount > MOTION_BUFFER_COUNT / 2 then d.StartStopTimer true else d

end

def CalcDirection (speed : K) : Bool := decide (0 ≤ speed)

variable (d : StepperDriver)

/-- `QueueMotionInternal` behind the loop that waits for a free node. -/
def QueueMotionInternal (distance : Int) (speed : K)
    (replan plan : ∀ distance, CruisePlan K distance) : StepperDriver :=
  if distance = 0 then d
  else
    let direction := CalcDirection (distance * speed)
    if d.motionQueueCurrentCount < MOTION_BUFFER_COUNT then
      (d.replanPrev direction replan).queueNode (Update direction distance.natAbs (plan _))
    else d

def finishNode : StepperDriver :=
  let d := { d with
    motionQueueCurrentNode := GetNextBlockIndex d.motionQueueCurrentNode
    motionQueueCurrentCount := d.motionQueueCurrentCount - 1 }
  if d.motionQueueCurrentCount ≠ 0 then d.ActivateCurrentNode else d.StartStopTimer false

/-- `HandleIRQ`, with the interrupt flag set. -/
def HandleIRQ : StepperDriver :=
  let d := { d with position := if d.pinDirection then d.position + 1 else d.position - 1 }
  if d.motionQueueCurrentCount ≠ 0 then
    let node := (d.motionQueue d.motionQueueCurrentNode).takeStep
    let d := { d with motionQueue := update d.motionQueue d.motionQueueCurrentNode node }
    if node.accelStepsLeft = 0 ∧ node.cruiceStepsLeft = 0 ∧ node.decelStepsLeft = 0 then
      d.finishNode
    else d
  else d

/-- The queued motions, the current one first. -/
def nodes : List StepperMotionNode :=
  window MOTION_BUFFER_COUNT d.motionQueue d.motionQueueCurrentNode d.motionQueueCurrentCount

end StepperDriver

inductive MotionOp (K : Type) [Field K] [LinearOrder K] where
  | queueMotion (distance : Int) (speed : K) (replan plan : ∀ distance, CruisePlan K distance)
  | startStopTimer (doRun : Bool)
  | handleIRQ

/-- A driver with the steps that were queued and counted at each level of the direction pin. -/
structure Motor where
  driver : StepperDriver
  queued : Bool → Nat
  counted : Bool → Nat

namespace Motor

open StepperDriver

/-- The pin while a motion is executed. -/
def pinOf (m : Motor) (distance : Int) (speed : K) : Bool :=
  m.driver.pin (CalcDirection (distance * speed))

/-- A call waits while the queue is full, and the timer interrupts only while it runs. -/
def step (m : Motor) : MotionOp K → Option Motor
  | .queueMotion distance speed replan plan =>
    if distance ≠ 0 ∧ m.driver.motionQueueCurrentCount = MOTION_BUFFER_COUNT then none
    else some {
      driver := m.driver.QueueMotionInternal distance speed replan plan
      queued := fun level =>
        m.queued level + if m.pinOf distance speed = level then distance.natAbs else 0
      counted := m.counted }
  | .startStopTimer doRun => some { m with driver := m.driver.StartStopTimer doRun }
  | .handleIRQ =>
    if m.driver.isRunning then
      some {
        driver := m.driver.HandleIRQ
        queued := m.queued
        counted := fun level => m.counted level + if m.driver.pinDirection = level then 1 else 0 }
    else none

def system (K : Type) [Field K] [LinearOrder K] [IsStrictOrderedRing K] [FloorSemiring K] :
    System Motor (MotionOp K) := ⟨step⟩

/-- A motor that has nothing to do. -/
def idle (reverse : Bool) (motionQueue : Nat → StepperMotionNode) (position : Int)
    (pinDirection : Bool) : Motor :=
  ⟨⟨reverse, motionQueue, 0, 0, 0, position, pinDirection, false⟩, fun _ => 0, fun _ => 0⟩

/-- The position after the queued motions. -/
def commanded (start : Int) (m : Motor) : Int := start + m.queued true - m.queued false

def InRange (position : Int) : Prop := -(2 ^ 31) ≤ position ∧ position < 2 ^ 31

instance (position : Int) : Decidable (InRange position) := inferInstanceAs (Decidable (_ ∧ _))

/-- The two distances of a plan fill its distance and both end in the middle of a step. -/
def HalfSteps {distance : Nat} (plan : CruisePlan K distance) : Prop :=
  plan.accDist + plan.decDist = distance ∧ ∃ steps : Nat, plan.accDist + 1 / 2 = steps

/-- A plan that is neither taken for one without end nor rounded to one step too many. -/
def Exact (distance : Nat) (plan : CruisePlan K distance) : Prop :=
  distance ≠ INFINIT_DISTANCE_I ∧
    (distance = INT32_MAX → 1 / 2 ≤ plan.accDist ∨ 1 / 2 ≤ plan.decDist) ∧ ¬HalfSteps plan

/-- All plans that a call makes are exact, and the new end of the motion is a position. -/
def Planned (start : Int) : Condition Motor (MotionOp K)
  | m, .queueMotion distance speed replan plan => distance ≠ 0 →
    distance.natAbs ≤ INT32_MAX ∧ Exact _ (plan distance.natAbs) ∧
      (0 < m.driver.motionQueueCurrentCount →
        CalcDirection (distance * speed) = m.driver.prevNode.direction →
        Exact _ (replan m.driver.prevNode.remainingDistance)) ∧
      InRange (m.commanded start +
        if m.pinOf distance speed then (distance.natAbs : Int) else -distance.natAbs)
  | _, _ => True

/-- What is claimed of each state. -/
structure MovesExactly (start : Int) (m : Motor) : Prop where
  drained : m.driver.motionQueueCurrentCount = 0 → m.counted = m.queued
  position : m.driver.position = start + m.counted true - m.counted false
  commanded : m.driver.motionQueueCurrentCount = 0 → m.driver.position = m.commanded start
  counters : ∀ node ∈ m.driver.nodes, node.remainingDistance ≤ INT32_MAX
  inRange : InRange m.driver.position

end Motor

/-! ## Rounding -/

theorem one_le_toSteps {a : K} (half : 1 / 2 ≤ a) : 1 ≤ toSteps a := by
  apply le_floor
  rw [cast_one]
  linarith

theorem toSteps_add_le {distance : Nat} (plan : CruisePlan K distance)
    (exact_ : ¬Motor.HalfSteps plan) :
    toSteps plan.accDist + toSteps plan.decDist ≤ distance := by
  by_contra more
  have cast : (distance : K) + 1 ≤ (toSteps plan.accDist : K) + toSteps plan.decDist := by
    exact_mod_cast Nat.lt_of_not_le more
  have acc : (toSteps plan.accDist : K) ≤ plan.accDist + 1 / 2 :=
    floor_le (by linarith [plan.acc_nonneg])
  have dec : (toSteps plan.decDist : K) ≤ plan.decDist + 1 / 2 :=
    floor_le (by linarith [plan.dec_nonneg])
  have sum := plan.sum_le
  refine exact_ ⟨?_, toSteps plan.accDist, ?_⟩ <;> linarith

namespace StepperMotionNode

variable {node : StepperMotionNode} {distance : Nat}

/-- A node whose counters take steps and are counted down to zero. -/
structure Counts (node : StepperMotionNode) : Prop where
  positive : 0 < node.remainingDistance
  fits : node.remainingDistance ≤ INT32_MAX
  ends : node.cruiceStepsLeft ≠ INT32_MAX

theorem Update_exact (direction : Bool) {plan : CruisePlan K distance}
    (exact_ : Motor.Exact distance plan) (positive : 0 < distance) (fits : distance ≤ INT32_MAX) :
    (Update direction distance plan).remainingDistance = distance ∧
      (Update direction distance plan).Counts := by
  obtain ⟨finite, large, rounded⟩ := exact_
  have sum := toSteps_add_le plan rounded
  have cruice : (Update direction distance plan).cruiceStepsLeft =
      distance - (toSteps plan.accDist + toSteps plan.decDist) := by
    simp only [Update]
    rw [if_pos finite]
    split
    · rfl
    · omega
  have whole : (Update direction distance plan).remainingDistance = distance := by
    rw [remainingDistance, cruice]
    simp only [Update]
    omega
  refine ⟨whole, by rwa [whole], by rwa [whole], fun endless => ?_⟩
  rw [cruice] at endless
  have steps : 1 ≤ toSteps plan.accDist ∨ 1 ≤ toSteps plan.decDist :=
    (large (by omega)).imp one_le_toSteps one_le_toSteps
  have positive : 0 < INT32_MAX := by decide
  omega

theorem takeStep_direction (node : StepperMotionNode) :
    node.takeStep.direction = node.direction := by
  unfold takeStep
  repeat' split
  all_goals rfl

theorem Counts.takeStep (counts : node.Counts) :
    node.takeStep.remainingDistance + 1 = node.remainingDistance ∧
      node.takeStep.cruiceStepsLeft ≠ INT32_MAX := by
  obtain ⟨positive, fits, ends⟩ := counts
  unfold StepperMotionNode.takeStep remainingDistance at *
  split
  · exact ⟨by dsimp only; omega, ends⟩
  split
  · dsimp only
    omega
  split
  · exact ⟨by dsimp only; omega, ends⟩
  · omega

end StepperMotionNode

/-! ## The motions that are left -/

/-- The level of the pin for a motion, and its number of steps. -/
abbrev Leg := Bool × Nat

namespace Leg

def signed (leg : Leg) : Int := if leg.1 then leg.2 else -leg.2

def left (legs : List Leg) (level : Bool) : Nat :=
  (legs.map fun leg => if leg.1 = level then leg.2 else 0).sum

/-- The motions lead from a position to positions. -/
def Passes : Int → List Leg → Prop
  | position, [] => Motor.InRange position
  | position, leg :: rest => Motor.InRange position ∧ Passes (position + leg.signed) rest

variable {position : Int} {legs rest : List Leg} {leg : Leg} {level : Bool} {n : Nat}

theorem left_cons :
    left (leg :: rest) level = (if leg.1 = level then leg.2 else 0) + left rest level := rfl

theorem left_concat :
    left (legs ++ [leg]) level = left legs level + if leg.1 = level then leg.2 else 0 := by
  simp [left]

theorem signed_add_left : leg.signed + left rest true - left rest false =
    left (leg :: rest) true - left (leg :: rest) false := by
  obtain ⟨level, steps⟩ := leg
  rw [left_cons, left_cons]
  cases level <;> simp [signed]
  omega

theorem Passes.inRange (passes : Passes position legs) : Motor.InRange position := by
  cases legs with
  | nil => exact passes
  | cons => exact passes.1

theorem Passes.concat (passes : Passes position legs)
    (ends : Motor.InRange (position + left legs true - left legs false + leg.signed)) :
    Passes position (legs ++ [leg]) := by
  induction legs generalizing position with
  | nil =>
    simp only [left, map_nil, sum_nil] at ends
    exact ⟨passes, by simpa [Passes] using ends⟩
  | cons first rest ih =>
    refine ⟨passes.1, ih passes.2 ?_⟩
    rwa [add_sub_assoc, add_assoc position, ← add_sub_assoc, signed_add_left, ← add_sub_assoc]

theorem Passes.step (passes : Passes position ((level, n + 1) :: rest)) :
    Passes (position + signed (level, 1)) ((level, n) :: rest) := by
  obtain ⟨here, behind⟩ := passes
  have there := behind.inRange
  have same : position + signed (level, n + 1) =
      position + signed (level, 1) + signed (level, n) := by
    cases level <;> simp only [signed] <;> push_cast <;> ring_nf
  rw [same] at behind
  refine ⟨?_, behind⟩
  unfold Motor.InRange signed at *
  cases level <;> simp at * <;> omega

end Leg

open Leg

namespace StepperDriver

def legs (d : StepperDriver) : List Leg :=
  d.nodes.map fun node => (d.pin node.direction, node.remainingDistance)

/-- What holds of a driver between two operations. -/
structure Ring (d : StepperDriver) : Prop where
  current : d.motionQueueCurrentNode < MOTION_BUFFER_COUNT
  room : d.motionQueueCurrentCount ≤ MOTION_BUFFER_COUNT
  inPos : d.motionQueueInPos =
    (d.motionQueueCurrentNode + d.motionQueueCurrentCount) % MOTION_BUFFER_COUNT
  running : d.isRunning → d.motionQueueCurrentCount ≠ 0
  counts : ∀ node ∈ d.nodes, node.Counts
  pinned : ∀ leg ∈ d.legs.head?, d.pinDirection = leg.1

variable {d : StepperDriver} {direction : Bool} {node : StepperMotionNode}

theorem GetNextBlockIndex_eq (index : Nat) :
    GetNextBlockIndex index = (index + 1) % MOTION_BUFFER_COUNT := and_mask (index + 1) 4

theorem GetPrevBlockIndex_eq (index : Nat) :
    GetPrevBlockIndex index = (index + (2 ^ 32 - 1)) % MOTION_BUFFER_COUNT := and_mask _ 4

theorem Ring.replanPrev (ring : d.Ring) {replan : ∀ distance, CruisePlan K distance}
    (planned : 0 < d.motionQueueCurrentCount → direction = d.prevNode.direction →
      Motor.Exact _ (replan d.prevNode.remainingDistance)) :
    (d.replanPrev direction replan).Ring ∧ (d.replanPrev direction replan).legs = d.legs := by
  unfold StepperDriver.replanPrev
  split
  case isFalse => exact ⟨ring, rfl⟩
  case isTrue again =>
    obtain ⟨queued, goesOn⟩ := again
    obtain ⟨n, count⟩ := exists_eq_add_one.mpr queued
    have room := ring.room
    have last : GetPrevBlockIndex d.motionQueueInPos =
        (d.motionQueueCurrentNode + n) % MOTION_BUFFER_COUNT := by
      rw [GetPrevBlockIndex_eq, ring.inPos, count]
      unfold MOTION_BUFFER_COUNT
      omega
    have before : d.nodes = window MOTION_BUFFER_COUNT d.motionQueue d.motionQueueCurrentNode n ++
        [d.prevNode] := by
      rw [nodes, count, window_snoc, prevNode, last]
    have counts : d.prevNode.Counts := ring.counts _ (by rw [before]; simp)
    obtain ⟨whole, counts'⟩ :=
      Update_exact direction (planned queued goesOn) counts.positive counts.fits
    have kept : (Update direction d.prevNode.remainingDistance (replan _)).direction =
        d.prevNode.direction := goesOn
    generalize Update direction _ (replan _) = node at whole counts' kept
    have after : nodes { d with
        motionQueue := update d.motionQueue (GetPrevBlockIndex d.motionQueueInPos) node } =
        window MOTION_BUFFER_COUNT d.motionQueue d.motionQueueCurrentNode n ++ [node] := by
      rw [nodes, last]
      show window _ _ _ d.motionQueueCurrentCount = _
      rw [count, window_update_last (by omega)]
    have same : legs { d with
        motionQueue := update d.motionQueue (GetPrevBlockIndex d.motionQueueInPos) node } =
        d.legs := by
      rw [legs, legs, after, before, map_append, map_append, map_singleton,
        map_singleton, whole, kept]
      rfl
    refine ⟨⟨ring.current, ring.room, ring.inPos, ring.running, ?_, ?_⟩, same⟩
    · intro other member
      rw [after] at member
      rcases mem_append.mp member with old | new
      · exact ring.counts other (by rw [before]; exact mem_append_left _ old)
      · rw [mem_singleton.mp new]
        exact counts'
    · intro leg isHead
      rw [same] at isHead
      exact ring.pinned leg isHead

section

variable (room : d.motionQueueCurrentCount < MOTION_BUFFER_COUNT) (ring : d.Ring)

include room ring

theorem queueNode_nodes :
    (d.queueNode node).nodes = d.nodes ++ [node] := by
  have pushed : window MOTION_BUFFER_COUNT (update d.motionQueue d.motionQueueInPos node)
      d.motionQueueCurrentNode (d.motionQueueCurrentCount + 1) = d.nodes ++ [node] := by
    rw [ring.inPos]
    exact window_update_last room node
  unfold queueNode StartStopTimer ActivateCurrentNode
  dsimp only
  split_ifs <;> exact pushed

theorem queueNode_legs :
    (d.queueNode node).legs = d.legs ++ [(d.pin node.direction, node.remainingDistance)] := by
  have same : (d.queueNode node).pin = d.pin := by
    unfold queueNode StartStopTimer ActivateCurrentNode
    dsimp only
    split_ifs <;> rfl
  rw [legs, queueNode_nodes room ring, same, map_append]
  rfl

end

theorem queueNode_pinDirection : (d.queueNode node).pinDirection =
    if d.motionQueueCurrentCount = 0 then
      d.pin (update d.motionQueue d.motionQueueInPos node d.motionQueueCurrentNode).direction
    else d.pinDirection := by
  unfold queueNode StartStopTimer ActivateCurrentNode
  dsimp only
  split_ifs <;> rfl

theorem Ring.queueNode (ring : d.Ring) (counts : node.Counts)
    (room : d.motionQueueCurrentCount < MOTION_BUFFER_COUNT) : (d.queueNode node).Ring := by
  have inPos : GetNextBlockIndex d.motionQueueInPos =
      (d.motionQueueCurrentNode + (d.motionQueueCurrentCount + 1)) % MOTION_BUFFER_COUNT := by
    rw [GetNextBlockIndex_eq, ring.inPos, mod_add_mod, add_assoc]
  have all : ∀ other ∈ (d.queueNode node).nodes, other.Counts := by
    intro other member
    rw [queueNode_nodes room ring] at member
    rcases mem_append.mp member with old | new
    · exact ring.counts other old
    · rw [mem_singleton.mp new]
      exact counts
  have pinned : ∀ leg ∈ (d.queueNode node).legs.head?, (d.queueNode node).pinDirection = leg.1 := by
    intro leg isHead
    rw [queueNode_legs room ring] at isHead
    rw [queueNode_pinDirection]
    split
    · rename_i empty
      have here : d.motionQueueInPos = d.motionQueueCurrentNode := by
        rw [ring.inPos, empty, add_zero, mod_eq_of_lt ring.current]
      rw [legs, nodes, empty, window_zero] at isHead
      rw [here, update_self, ← some.inj isHead]
    · rename_i queued
      have first : d.legs ≠ [] := by
        intro empty
        apply queued
        have length : d.nodes.length = d.motionQueueCurrentCount := window_length
        rw [← length, map_eq_nil_iff.mp empty]
        rfl
      rw [head?_append_of_ne_nil _ first] at isHead
      exact ring.pinned leg isHead
  unfold StepperDriver.queueNode StartStopTimer ActivateCurrentNode at *
  dsimp only at *
  split_ifs at * <;> exact ⟨ring.current, room, inPos, fun _ => succ_ne_zero _, all, pinned⟩

theorem finishNode_ring {n : Nat} (count : d.motionQueueCurrentCount = n + 1)
    (room : n < MOTION_BUFFER_COUNT)
    (inPos : d.motionQueueInPos = (d.motionQueueCurrentNode + (n + 1)) % MOTION_BUFFER_COUNT)
    (behind : ∀ other ∈ window MOTION_BUFFER_COUNT d.motionQueue (d.motionQueueCurrentNode + 1) n,
      other.Counts) :
    d.finishNode.Ring ∧ d.finishNode.legs =
      (window MOTION_BUFFER_COUNT d.motionQueue (d.motionQueueCurrentNode + 1) n).map
        fun node => (d.pin node.direction, node.remainingDistance) := by
  have less : d.motionQueueCurrentCount - 1 = n := by rw [count, Nat.add_sub_cancel]
  have next := GetNextBlockIndex_eq d.motionQueueCurrentNode
  have inPos' : d.motionQueueInPos = (GetNextBlockIndex d.motionQueueCurrentNode + n) %
      MOTION_BUFFER_COUNT := by
    rw [inPos, next, mod_add_mod, add_assoc, add_comm 1]
  have rest : window MOTION_BUFFER_COUNT d.motionQueue
      (GetNextBlockIndex d.motionQueueCurrentNode) n =
      window MOTION_BUFFER_COUNT d.motionQueue (d.motionQueueCurrentNode + 1) n := by
    rw [next, window_mod]
  have inside : GetNextBlockIndex d.motionQueueCurrentNode < MOTION_BUFFER_COUNT := by
    rw [next]
    exact mod_lt _ (by decide)
  rw [← rest] at behind ⊢
  unfold finishNode
  dsimp only
  rw [less]
  split
  · rename_i more
    refine ⟨⟨inside, room.le, inPos', fun _ => more, behind, ?_⟩, rfl⟩
    intro leg isHead
    obtain ⟨k, rfl⟩ := exists_eq_succ_of_ne_zero more
    simp only [legs, nodes, ActivateCurrentNode] at isHead
    rw [window_succ, mod_eq_of_lt inside] at isHead
    rw [← some.inj isHead]
    rfl
  · rename_i empty
    obtain rfl : n = 0 := of_not_not empty
    have stopped (d : StepperDriver) : d.StartStopTimer false = { d with isRunning := false } :=
      if_neg fun starts => by cases starts.1
    rw [stopped]
    refine ⟨⟨inside, room.le, inPos', nofun, behind, ?_⟩, rfl⟩
    intro leg isHead
    cases isHead

theorem finishNode_position (d : StepperDriver) : d.finishNode.position = d.position := by
  unfold finishNode StartStopTimer ActivateCurrentNode
  dsimp only
  split_ifs <;> rfl

theorem Ring.HandleIRQ (ring : d.Ring) (queued : d.motionQueueCurrentCount ≠ 0) :
    ∃ n rest, d.legs = (d.pinDirection, n + 1) :: rest ∧ d.HandleIRQ.Ring ∧
      d.HandleIRQ.position = d.position + signed (d.pinDirection, 1) ∧
      (d.HandleIRQ.legs = (d.pinDirection, n) :: rest ∨ n = 0 ∧ d.HandleIRQ.legs = rest) := by
  obtain ⟨n, count⟩ := exists_eq_succ_of_ne_zero queued
  have room := ring.room
  have head : (d.motionQueue d.motionQueueCurrentNode).takeStep.direction =
      (d.motionQueue d.motionQueueCurrentNode).direction := takeStep_direction _
  have before : d.nodes = d.motionQueue d.motionQueueCurrentNode ::
      window MOTION_BUFFER_COUNT d.motionQueue (d.motionQueueCurrentNode + 1) n := by
    rw [nodes, count, window_succ, mod_eq_of_lt ring.current]
  obtain ⟨steps, ends⟩ := (ring.counts _ (by rw [before]; exact mem_cons_self)).takeStep
  have fits := (ring.counts _ (by rw [before]; exact mem_cons_self)).fits
  have behind : ∀ other ∈ window MOTION_BUFFER_COUNT d.motionQueue (d.motionQueueCurrentNode + 1) n,
      other.Counts := fun other member => ring.counts other (by rw [before]; exact .tail _ member)
  have level : d.pinDirection = d.pin (d.motionQueue d.motionQueueCurrentNode).direction :=
    ring.pinned _ (by rw [legs, before]; rfl)
  have first : ∀ node, window MOTION_BUFFER_COUNT
      (update d.motionQueue d.motionQueueCurrentNode node) d.motionQueueCurrentNode (n + 1) =
      node :: window MOTION_BUFFER_COUNT d.motionQueue (d.motionQueueCurrentNode + 1) n := by
    exact window_update_first ring.current (by omega)
  have moved : (if d.pinDirection then d.position + 1 else d.position - 1) =
      d.position + signed (d.pinDirection, 1) := by
    cases d.pinDirection <;> rfl
  refine ⟨_, _, by rw [legs, before, map_cons, ← level, ← steps], ?_⟩
  unfold StepperDriver.HandleIRQ
  dsimp only
  rw [if_pos queued, moved]
  generalize (d.motionQueue d.motionQueueCurrentNode).takeStep = node at *
  split
  · rename_i done
    have zero : node.remainingDistance = 0 := by
      rw [remainingDistance, done.1, done.2.1, done.2.2]
    have rest : window MOTION_BUFFER_COUNT (update d.motionQueue d.motionQueueCurrentNode node)
        (d.motionQueueCurrentNode + 1) n =
        window MOTION_BUFFER_COUNT d.motionQueue (d.motionQueueCurrentNode + 1) n :=
      (cons.inj (window_succ.symm.trans (first node))).2
    generalize isDriver : ({ d with
      position := d.position + signed (d.pinDirection, 1)
      motionQueue := update d.motionQueue d.motionQueueCurrentNode node } : StepperDriver) = d' at *
    obtain ⟨ring', legs'⟩ := finishNode_ring (d := d') (n := n) (by rw [← isDriver, count])
      (by omega) (by rw [← isDriver, ← succ_eq_add_one, ← count]; exact ring.inPos)
      (by rw [← isDriver]; exact rest ▸ behind)
    refine ⟨ring', by rw [finishNode_position, ← isDriver], .inr ⟨zero, ?_⟩⟩
    rw [legs', ← isDriver]
    exact congrArg _ rest
  · rename_i more
    have after : nodes { d with
        position := d.position + signed (d.pinDirection, 1)
        motionQueue := update d.motionQueue d.motionQueueCurrentNode node } =
        node :: window MOTION_BUFFER_COUNT d.motionQueue (d.motionQueueCurrentNode + 1) n := by
      rw [nodes, ← first node, ← succ_eq_add_one, ← count]
    have counts : node.Counts := by
      refine ⟨?_, by omega, ends⟩
      unfold remainingDistance
      omega
    refine ⟨⟨ring.current, ring.room, ring.inPos, ring.running, ?_, ?_⟩, rfl, .inl ?_⟩
    · rw [after]
      exact forall_mem_cons.mpr ⟨counts, behind⟩
    · intro leg isHead
      rw [legs, after] at isHead
      rw [← some.inj isHead]
      show d.pinDirection = d.pin node.direction
      rw [head]
      exact level
    · rw [legs, after, level, map_cons, head]
      rfl

end StepperDriver

namespace Motor

open StepperDriver

variable {start : Int} {m t : Motor} {op : MotionOp K}

/-- What has been counted and what is left make up what was queued. -/
structure Sound (start : Int) (m : Motor) : Prop where
  ring : m.driver.Ring
  balance : ∀ level, m.counted level + left m.driver.legs level = m.queued level
  position : m.driver.position = start + m.counted true - m.counted false
  passes : Passes m.driver.position m.driver.legs

theorem Sound.QueueMotionInternal (sound : Sound start m) {distance : Int} {speed : K}
    {replan plan : ∀ distance, CruisePlan K distance} (nonzero : distance ≠ 0)
    (room : m.driver.motionQueueCurrentCount < MOTION_BUFFER_COUNT)
    (planned : Planned start m (.queueMotion distance speed replan plan)) :
    (m.driver.QueueMotionInternal distance speed replan plan).Ring ∧
      (m.driver.QueueMotionInternal distance speed replan plan).legs =
        m.driver.legs ++ [(m.pinOf distance speed, distance.natAbs)] ∧
      (m.driver.QueueMotionInternal distance speed replan plan).position = m.driver.position := by
  obtain ⟨fits, exact_, again, _⟩ := planned nonzero
  obtain ⟨ring, legs⟩ := sound.ring.replanPrev again
  obtain ⟨whole, counts⟩ := Update_exact (CalcDirection (distance * speed)) exact_
    (Int.natAbs_pos.mpr nonzero) fits
  have frame :
      (m.driver.replanPrev (CalcDirection (distance * speed)) replan).motionQueueCurrentCount =
        m.driver.motionQueueCurrentCount ∧
      (m.driver.replanPrev (CalcDirection (distance * speed)) replan).position = m.driver.position ∧
      (m.driver.replanPrev (CalcDirection (distance * speed)) replan).pin = m.driver.pin := by
    unfold replanPrev
    split_ifs <;> exact ⟨rfl, rfl, rfl⟩
  unfold StepperDriver.QueueMotionInternal
  rw [if_neg nonzero]
  dsimp only
  rw [if_pos room]
  refine ⟨ring.queueNode counts (frame.1 ▸ room), ?_, ?_⟩
  · rw [queueNode_legs (frame.1 ▸ room) ring, legs, frame.2.2, whole]
    rfl
  · rw [← frame.2.1]
    unfold queueNode StartStopTimer ActivateCurrentNode
    dsimp only
    split_ifs <;> rfl

theorem Sound.step (sound : Sound start m) (planned : Planned start m op)
    (applies : m.step op = some t) : Sound start t := by
  obtain ⟨ring, balance, position, passes⟩ := sound
  cases op with
  | queueMotion distance speed replan plan =>
    simp only [Motor.step] at applies
    split at applies
    case isTrue => cases applies
    case isFalse free =>
      cases applies
      by_cases zero : distance = 0
      · subst zero
        simp only [StepperDriver.QueueMotionInternal, if_true, Int.natAbs_zero, ite_self,
          add_zero]
        exact ⟨ring, balance, position, passes⟩
      · have room : m.driver.motionQueueCurrentCount < MOTION_BUFFER_COUNT :=
          lt_of_le_of_ne ring.room fun full => free ⟨zero, full⟩
        obtain ⟨ring', legs', position'⟩ := Sound.QueueMotionInternal
          ⟨ring, balance, position, passes⟩ zero room planned
        have ends := (planned zero).2.2.2
        refine ⟨ring', ?_, ?_, ?_⟩
        · intro level
          dsimp only
          rw [legs', left_concat, ← balance level, add_assoc]
        · exact position'.trans position
        · dsimp only
          rw [position', legs']
          apply passes.concat
          have up := balance true
          have down := balance false
          have behind : m.driver.position + left m.driver.legs true - left m.driver.legs false =
              m.commanded start := by
            unfold commanded
            omega
          rw [behind]
          exact ends
  | startStopTimer doRun =>
    cases applies
    unfold StartStopTimer
    split
    · exact ⟨ring, balance, position, passes⟩
    · rename_i allowed
      exact ⟨{ ring with running := fun running empty => allowed ⟨running, empty⟩ }, balance,
        position, passes⟩
  | handleIRQ =>
    simp only [Motor.step] at applies
    split at applies
    case isFalse => cases applies
    case isTrue running =>
      cases applies
      obtain ⟨n, rest, legs, ring', position', after⟩ := ring.HandleIRQ (ring.running running)
      rw [legs] at passes
      have moved := passes.step
      refine ⟨ring', ?_, ?_, ?_⟩
      · intro level
        have before := balance level
        rw [legs, left_cons] at before
        rcases after with after | ⟨rfl, after⟩
        · rw [after, left_cons]
          dsimp only at before ⊢
          split_ifs at before ⊢ <;> omega
        · rw [after]
          dsimp only at before ⊢
          split_ifs at before ⊢ <;> omega
      · show m.driver.HandleIRQ.position = _
        rw [position', position]
        cases m.driver.pinDirection <;> simp [signed] <;> omega
      · show Passes m.driver.HandleIRQ.position m.driver.HandleIRQ.legs
        rw [position']
        rcases after with after | ⟨rfl, after⟩
        · rw [after]
          exact moved
        · have behind := moved.2
          rw [show signed (m.driver.pinDirection, 0) = 0 by cases m.driver.pinDirection <;> rfl,
            add_zero] at behind
          rw [after]
          exact behind

theorem Sound.movesExactly (sound : Sound start m) : MovesExactly start m := by
  obtain ⟨ring, balance, position, passes⟩ := sound
  have drained : m.driver.motionQueueCurrentCount = 0 → m.counted = m.queued := by
    intro empty
    funext level
    rw [← balance level, legs, nodes, empty]
    rfl
  refine ⟨drained, position, fun empty => ?_, fun node member => (ring.counts node member).fits,
    passes.inRange⟩
  rw [position, drained empty]
  rfl

/-- In each run all of whose plans are exact, the position follows the queued motions. -/
theorem movesExactly_of_planned (reverse : Bool) (motionQueue : Nat → StepperMotionNode)
    (start : Int) (pinDirection : Bool) (inRange : InRange start) (m : Motor)
    (run : (system K).Reaches (Planned start) (idle reverse motionQueue start pinDirection) m) :
    MovesExactly start m := by
  have still : Sound start (idle reverse motionQueue start pinDirection) := by
    refine ⟨⟨zero_lt_succ _, zero_le _, rfl, nofun, nofun, nofun⟩, fun _ => rfl, ?_,
      inRange⟩
    show start = start + 0 - 0
    omega
  exact (run.invariant (Sound start) still fun sound planned applies =>
    sound.step planned applies).movesExactly

/-- One half of the distance to accelerate and one to stop. -/
def halves (distance : Nat) : CruisePlan ℚ distance where
  accDist := distance / 2
  decDist := distance / 2
  cruiseSpeed := 1
  acc_nonneg := by positivity
  dec_nonneg := by positivity
  sum_le := by rw [add_halves]

/-- Two steps, counted until the queue is empty. -/
theorem movesExactly_of_planned_two : ∃ m : Motor,
    (system ℚ).Reaches (Planned 0) (idle false (fun _ => ⟨0, 0, 0, true⟩) 0 true) m ∧
      m.driver.motionQueueCurrentCount = 0 ∧ m.queued true = 2 ∧ MovesExactly 0 m := by
  have planned : Planned 0 (idle false (fun _ => ⟨0, 0, 0, true⟩) 0 true)
      (.queueMotion 2 (1 : ℚ) halves halves) := by
    intro _
    refine ⟨by decide, ⟨by decide, by decide, ?_⟩, nofun, by decide +kernel⟩
    · rintro ⟨_, steps, middle⟩
      have twice : (3 : ℚ) = 2 * steps := by
        rw [← middle]
        norm_num [halves]
      have twice' : 3 = 2 * steps := by exact_mod_cast twice
      omega
  have run := System.Reaches.single (M := system ℚ) planned rfl
  have next {m : Motor} (op : MotionOp ℚ) (meets : Planned 0 m op) (can : ((system ℚ).step m op).isSome)
      (run : (system ℚ).Reaches (Planned 0) (idle false (fun _ => ⟨0, 0, 0, true⟩) 0 true) m) :=
    run.next op meets (some_get can).symm
  have started := next (.startStopTimer true) trivial (by decide +kernel) run
  have first := next .handleIRQ trivial (by decide +kernel) started
  have counted := next .handleIRQ trivial (by decide +kernel) first
  exact ⟨_, counted, by decide +kernel, by decide +kernel, movesExactly_of_planned _ _ _ _ (by decide) _ counted⟩

/-- Three steps, half of them to accelerate and half to stop, are rounded to four. -/
theorem half_steps_overshoot : ∃ m : Motor,
    (system ℚ).Reaches anyStep (idle false (fun _ => ⟨0, 0, 0, true⟩) 0 true) m ∧
      m.queued true = 3 ∧ m.driver.position = 4 ∧ ¬MovesExactly 0 m := by
  have ends : ((system ℚ).after (idle false (fun _ => ⟨0, 0, 0, true⟩) 0 true)
      [.queueMotion 3 1 halves halves, .startStopTimer true, .handleIRQ, .handleIRQ, .handleIRQ,
        .handleIRQ]).map (fun m => (m.driver.motionQueueCurrentCount, m.queued true,
        m.queued false, m.driver.position)) = some (0, 3, 0, 4) := by
    decide +kernel
  obtain ⟨m, after, fields⟩ := map_eq_some_iff.mp ends
  simp only [Prod.mk.injEq] at fields
  obtain ⟨empty, queued, back, position⟩ := fields
  refine ⟨m, System.reaches_after after, queued, position, fun exact_ => ?_⟩
  have same := exact_.commanded empty
  rw [position, commanded, queued, back] at same
  cases same

end Motor

end PadOS.Kernel
