import PadOS.Core.ErrorCode
import PadOS.Core.Transition
import Mathlib.Data.List.Basic
import Mathlib.Logic.Function.Basic

/-! # Queued signals

A thread keeps the signals sent to it twice: as bits of its pending mask, which decide what
is delivered, and as a queue of nodes in the order of their numbers, which hold the values.
Next to the thread a state keeps what was put into the queue and what was delivered.
-/

namespace PadOS.Kernel

open Transition

/-- The numbers of the platform, and the width of `sigset_t`. -/
structure SignalNumbers where
  SIGRTMIN : Int
  SIGKILL : Int
  SIGSTOP : Int
  SIGCONT : Int
  KTOTAL_SIG_COUNT : Int
  sigsetBits : Nat

structure KSignalQueueNode (υ : Type) where
  SigNum : Int
  value : υ
  deriving DecidableEq, Repr

/-- `SI_QUEUE` with its value, `SI_USER`, or what a fault has passed. -/
inductive SigInfo (υ : Type)
  | queue (value : υ)
  | user
  | external
  deriving DecidableEq, Repr

structure SignalThread (υ : Type) where
  firstQueuedSignal : List (KSignalQueueNode υ)
  queuedSignalCount : Nat
  pendingSignals : Int → Bool
  blockedSignals : Int → Bool
  queuedLog : List (Int × υ)
  delivered : List (Int × SigInfo υ)

/-- What a call finds outside of the thread: `memory` for a node, and whether the process
passes a stop, continue or kill on to this thread. -/
structure SignalTarget where
  zombie : Bool
  kernelThread : Bool
  permitted : Bool
  init : Bool
  memory : Bool
  forwarded : Bool

variable {υ : Type}

/-- The numbers that have a bit; the shift of `sig_mkmask` is defined for no other. -/
def SignalNumbers.hasBit (numbers : SignalNumbers) (sigNum : Int) : Bool :=
  1 ≤ sigNum && sigNum ≤ numbers.sigsetBits

namespace SignalThread

def initial (υ : Type) : SignalThread υ where
  firstQueuedSignal := []
  queuedSignalCount := 0
  pendingSignals := fun _ => false
  blockedSignals := fun _ => false
  queuedLog := []
  delivered := []

variable (numbers : SignalNumbers)

variable (t : SignalThread υ)

def SetPendingSignal (sigNum : Int) :
    SignalThread υ :=
  if numbers.hasBit sigNum then
    { t with pendingSignals := Function.update t.pendingSignals sigNum true }
  else t

def ClearPendingSignal (sigNum : Int) : SignalThread υ :=
  { t with pendingSignals := Function.update t.pendingSignals sigNum false }

/-- The loop for the numbers below `SIGRTMIN`, with what it adds to the count. -/
def insertStandard (node : KSignalQueueNode υ) :
    List (KSignalQueueNode υ) → List (KSignalQueueNode υ) × Nat
  | [] => ([node], 1)
  | first :: rest =>
    if node.SigNum ≤ first.SigNum then
      if first.SigNum = node.SigNum then (node :: rest, 0)
      else (node :: first :: rest, 1)
    else ((first :: (insertStandard node rest).1), (insertStandard node rest).2)

/-- The loop for the realtime numbers. -/
def insertRealtime (node : KSignalQueueNode υ) :
    List (KSignalQueueNode υ) → List (KSignalQueueNode υ)
  | [] => [node]
  | first :: rest =>
    if node.SigNum < first.SigNum then node :: first :: rest
    else first :: insertRealtime node rest

/-- The loop that takes a node out, with whether it was the last one of its number. -/
def takeSignal (sigNum : Int) : List (KSignalQueueNode υ) →
    Option (KSignalQueueNode υ × List (KSignalQueueNode υ) × Bool)
  | [] => none
  | first :: rest =>
    if first.SigNum ≤ sigNum then
      if first.SigNum = sigNum then
        some (first, rest, match rest with
          | [] => true
          | next :: _ => next.SigNum ≠ sigNum)
      else (takeSignal sigNum rest).map fun (node, queue, last) => (node, first :: queue, last)
    else none

/-- The node is linked in, and its bit set. -/
def enqueue (node : KSignalQueueNode υ) :
    SignalThread υ :=
  let logged := { t with queuedLog := t.queuedLog ++ [(node.SigNum, node.value)] }
  if node.SigNum < numbers.SIGRTMIN then
    let (queue, added) := insertStandard node t.firstQueuedSignal
    { logged with
      firstQueuedSignal := queue
      queuedSignalCount := t.queuedSignalCount + added }.SetPendingSignal numbers node.SigNum
  else
    { logged with
      firstQueuedSignal := insertRealtime node t.firstQueuedSignal
      queuedSignalCount := t.queuedSignalCount + 1 }.SetPendingSignal numbers node.SigNum

def ksend_signal_to_thread (sigNum : Int)
    (target : SignalTarget) : PErrorCode × SignalThread υ :=
  if sigNum < 0 ∨ numbers.KTOTAL_SIG_COUNT ≤ sigNum then (.inval, t)
  else if target.kernelThread then (.acces, t)
  else if target.zombie then (.srch, t)
  else if sigNum = 0 then (.success, t)
  else if target.init then (.success, t)
  else (.success, t.SetPendingSignal numbers sigNum)

/-- Stop, continue and kill go to the process, which sends them to its threads. -/
def kqueue_signal_to_thread_pl (sigNum : Int)
    (value : υ) (target : SignalTarget) : PErrorCode × SignalThread υ :=
  if target.zombie then (.srch, t)
  else if !target.permitted then (.acces, t)
  else if sigNum = 0 then (.success, t)
  else if sigNum = numbers.SIGSTOP ∨ sigNum = numbers.SIGCONT ∨ sigNum = numbers.SIGKILL then
    if target.forwarded then (.success, (t.ksend_signal_to_thread numbers sigNum target).2)
    else (.success, t)
  else if target.init then (.success, t)
  else if target.memory then (.success, t.enqueue numbers ⟨sigNum, value⟩)
  else if sigNum < numbers.SIGRTMIN then (.success, t.SetPendingSignal numbers sigNum)
  else (.nomem, t)

/-- The part of `kprocess_signal` that takes the signal; what the handler does to the mask
is a step of its own. -/
def kprocess_signal (sigNum : Int) (extSigInfo : Bool) : SignalThread υ :=
  if extSigInfo then
    { t with delivered := t.delivered ++ [(sigNum, SigInfo.external)] }.ClearPendingSignal sigNum
  else
    match takeSignal sigNum t.firstQueuedSignal with
    | some (node, queue, last) =>
      let taken := { t with
        firstQueuedSignal := queue
        queuedSignalCount := t.queuedSignalCount - 1
        delivered := t.delivered ++ [(sigNum, .queue node.value)] }
      if last then taken.ClearPendingSignal sigNum else taken
    | none => { t with delivered := t.delivered ++ [(sigNum, SigInfo.user)] }.ClearPendingSignal sigNum

/-- The loop of `kprocess_pending_signals`; it ends where a handler frame is pushed. -/
def processEach (pending : Int → Bool) (pushes : Int → Bool) :
    List Int → SignalThread υ → SignalThread υ
  | [], t => t
  | sigNum :: rest, t =>
    if pending sigNum then
      let processed := t.kprocess_signal sigNum false
      if pushes sigNum then processed else processEach pending pushes rest processed
    else processEach pending pushes rest t

/-- Kill, stop and continue come first, then the others by their numbers. -/
def kprocess_pending_signals (pushes : Int → Bool) : SignalThread υ :=
  let first := [numbers.SIGKILL, numbers.SIGSTOP, numbers.SIGCONT]
  let others := ((List.range numbers.sigsetBits).map fun (bit : Nat) => (bit : Int) + 1).filter
    fun sigNum => sigNum ∉ first
  processEach (fun sigNum => t.pendingSignals sigNum && !t.blockedSignals sigNum) pushes
    (first ++ others) t

end SignalThread

inductive SignalStep (υ : Type)
  | kqueue_signal_to_thread_pl (sigNum : Int) (value : υ) (target : SignalTarget)
  | ksend_signal_to_thread (sigNum : Int) (target : SignalTarget)
  | kprocess_signal (sigNum : Int) (extSigInfo : Bool)
  | kprocess_pending_signals (pushes : Int → Bool)
  | setMask (blockedSignals : Int → Bool)

def signalSystem (υ : Type) (numbers : SignalNumbers) :
    System (SignalThread υ) (SignalStep υ) where
  step t
    | .kqueue_signal_to_thread_pl sigNum value target =>
      some (t.kqueue_signal_to_thread_pl numbers sigNum value target).2
    | .ksend_signal_to_thread sigNum target =>
      some (t.ksend_signal_to_thread numbers sigNum target).2
    | .kprocess_signal sigNum extSigInfo => some (t.kprocess_signal sigNum extSigInfo)
    | .kprocess_pending_signals pushes => some (t.kprocess_pending_signals numbers pushes)
    | .setMask blockedSignals => some { t with blockedSignals := blockedSignals }

/-- No fault passes its own information for a number that has a node in the queue, and no
number is queued that has no bit. -/
def keepsBits (numbers : SignalNumbers) : Condition (SignalThread υ) (SignalStep υ)
  | t, .kprocess_signal sigNum true => ∀ node ∈ t.firstQueuedSignal, node.SigNum ≠ sigNum
  | _, .kqueue_signal_to_thread_pl sigNum _ _ => numbers.hasBit sigNum = true
  | _, _ => True

end PadOS.Kernel
