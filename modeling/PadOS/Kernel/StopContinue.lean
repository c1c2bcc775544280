import PadOS.Kernel.ProcessTables
import Mathlib.Data.List.Basic
import Mathlib.Logic.Function.Basic

/-! # Stopping and continuing a process

`StopProcess` and `ContinueProcess` send a signal to each thread of the process, and each
thread handles its signal when it returns to user mode. The thread that is last to stop, or
last to be continued, moves the process on to its next state and tells the parent.

A call holds `g_PIDMapMutex` for all of its loop, but threads run between two of its sends.
-/

namespace PadOS.Kernel.StopContinue

open Function Transition

inductive ThreadState
  | Running | Ready | Sleeping | Waiting | Zombie | Deleted | Stopped
  deriving DecidableEq, Repr

/-- The signals that the two calls send. -/
inductive JobSignal
  | SIGSTOP | SIGCONT
  deriving DecidableEq, Repr

def JobSignal.number : JobSignal → Int
  | .SIGSTOP => 17
  | .SIGCONT => 19

/-- `si_code`; it is zero where nothing is to be reported. -/
inductive ChildCode
  | zero | CLD_EXITED | CLD_KILLED | CLD_DUMPED | CLD_STOPPED | CLD_CONTINUED
  deriving DecidableEq, Repr

/-- `SIGSTOP` is not in `KBLOCKABLE_SIGNALS_MASK`. -/
structure KThreadCB where
  threadState : ThreadState := .Ready
  kernelThread : Bool := false
  isInit : Bool := false
  pendingStop : Bool := false
  pendingCont : Bool := false
  contBlocked : Bool := false
  deriving DecidableEq, Repr

def KThreadCB.IsZombie (t : KThreadCB) : Bool :=
  t.threadState = .Zombie || t.threadState = .Deleted

def KThreadCB.SetPendingSignal (t : KThreadCB) : JobSignal → KThreadCB
  | .SIGSTOP => { t with pendingStop := true }
  | .SIGCONT => { t with pendingCont := true }

/-- A thread that `ksend_signal_to_thread` gives a signal to. -/
def KThreadCB.accepts (t : KThreadCB) : Bool := !t.kernelThread && !t.isInit

/-- What the calls use of a process; `parentWakeups` counts the calls of `Wakeup(1)` on the
condition of its parent. -/
structure KProcess where
  pid : Nat
  state : KProcessState := .running
  threads : List Nat
  thread : Nat → KThreadCB
  stoppedThreadCount : Int := 0
  threadsToStop : Int := 0
  exitCode : ChildCode := .zero
  exitStatus : Int := 0
  parentWakeups : Nat := 0

namespace KProcess

section

variable (p : KProcess)

variable (t : Nat)

def isStopped : Bool := (p.thread t).threadState = .Stopped

def setThread (thread : KThreadCB) : KProcess :=
  { p with thread := update p.thread t thread }

def wakeParent : KProcess := { p with parentWakeups := p.parentWakeups + 1 }

def IsExitStatusSet : Bool :=
  p.exitCode = .CLD_EXITED || p.exitCode = .CLD_KILLED || p.exitCode = .CLD_DUMPED

def SetExitStatus (exitCode : ChildCode) (exitStatus : Int) : KProcess :=
  if p.IsExitStatusSet then p else { p with exitCode := exitCode, exitStatus := exitStatus }

def ThreadStopped : KProcess :=
  let q := { p with stoppedThreadCount := p.stoppedThreadCount + 1 }
  if q.stoppedThreadCount = q.threadsToStop ∧ q.state = .stopping then
    { q with state := .stopped }.wakeParent
  else q

def ThreadContinued : KProcess :=
  let q := { p with stoppedThreadCount := p.stoppedThreadCount - 1 }
  if q.stoppedThreadCount = q.threadsToStop ∧ q.state = .continuing then
    { q with state := .continued }.wakeParent
  else q

/-- `KThreadCB::SetState`, on a thread of the process. -/
def SetState (state : ThreadState) : KProcess :=
  if state = (p.thread t).threadState then p
  else
    let q := p.setThread t { p.thread t with threadState := state }
    if (p.thread t).threadState = .Stopped then q.ThreadContinued
    else if state = .Stopped then q.ThreadStopped
    else q

def wakeup_thread (wakeupSuspended : Bool) : KProcess :=
  let state := (p.thread t).threadState
  if (p.thread t).IsZombie then p
  else if state = .Sleeping ∨ state = .Waiting ∨ wakeupSuspended = true ∧ state = .Stopped then
    p.SetState t .Ready
  else p

/-- The two callers do not look at the error that a thread is refused with. -/
def ksend_signal_to_thread (sigNum : JobSignal) : KProcess :=
  if (p.thread t).kernelThread then p
  else if (p.thread t).IsZombie then p
  else if (p.thread t).isInit then p.wakeup_thread t false
  else (p.setThread t ((p.thread t).SetPendingSignal sigNum)).wakeup_thread t (sigNum = .SIGCONT)

/-- `StopProcess` up to its loop, past its guard; all of its callers pass `SIGSTOP`. -/
def beginStop : KProcess :=
  { p.SetExitStatus .CLD_STOPPED JobSignal.SIGSTOP.number with
    state := .stopping, threadsToStop := p.threads.length }

/-- `ContinueProcess` up to its loop, past its guard. -/
def beginContinue : KProcess :=
  { p.SetExitStatus .CLD_CONTINUED JobSignal.SIGCONT.number with
    state := .continuing, threadsToStop := 0 }

/-- `kprocess_signal` for `SIGSTOP`: its default action cannot be replaced. -/
def processStop : KProcess :=
  if (p.thread t).pendingStop then
    (p.setThread t { p.thread t with pendingStop := false }).SetState t .Stopped
  else p

/-- `kprocess_signal` for `SIGCONT`. A handler gets a frame, and the mask that goes with it. -/
def processContinue (frameMask : Option Bool) : KProcess :=
  if (p.thread t).pendingCont && !(p.thread t).contBlocked then
    p.setThread t { p.thread t with
      pendingCont := false, contBlocked := frameMask.getD (p.thread t).contBlocked }
  else p

/-- The two signals come before all others but `SIGKILL`, and `SIGSTOP` comes first. -/
def kprocess_pending_signals (frameMask : Option Bool) : KProcess :=
  (p.processStop t).processContinue t frameMask

/-- What `HandleExit` does to the process itself. -/
def HandleExit : KProcess :=
  let exitCode := if p.exitCode = .zero then .CLD_KILLED else p.exitCode
  { p with exitCode := exitCode, state := .zombie }.wakeParent

def RemoveThread : KProcess :=
  let q := { p with threads := p.threads.erase t }
  if q.threads = [] then q.HandleExit else q

def kthread_exit (returnValue : Int) : KProcess :=
  let q := if t = p.pid ∧ !p.IsExitStatusSet then p.SetExitStatus .CLD_EXITED returnValue else p
  let r := q.RemoveThread t
  r.setThread t { r.thread t with threadState := .Zombie }

def AddThread (kernelThread isInit contBlocked : Bool) : KProcess :=
  { p with
    threads := p.threads ++ [t]
    thread := update p.thread t
      { kernelThread := kernelThread, isInit := isInit, contBlocked := contBlocked } }

/-- `GetChildInfo` without `WNOWAIT`, for a process that is not a zombie. -/
def reported : KProcess :=
  { p with
    exitCode := .zero
    state := if p.state = .continued then .running else p.state }

end

end KProcess

/-- A process with the call that holds `g_PIDMapMutex`: the threads to which it has not yet
sent its signal. `lastCall` is the signal of the latest of the two calls. -/
structure JobState where
  process : KProcess
  unsent : List Nat := []
  signal : JobSignal := .SIGSTOP
  lastCall : Option JobSignal := none

inductive JobOp
  | StopProcess
  | ContinueProcess
  | send
  | deliver (t : Nat) (frameMask : Option Bool)
  | dispatch (t : Nat)
  | preempt (t : Nat)
  | block (t : Nat) (sleeping : Bool)
  | wakeup (t : Nat)
  | sigmask (t : Nat) (contBlocked : Bool)
  | spawn (creator t : Nat) (kernelThread isInit contBlocked : Bool)
  | exit (t : Nat) (returnValue : Int)
  | report
  deriving DecidableEq, Repr

namespace JobState

section

variable (s : JobState)

def runs (t : Nat) : Bool :=
  t ∈ s.process.threads && (s.process.thread t).threadState = .Running

/-- `g_PIDMapMutex` is free. -/
def unlocked : Bool := s.unsent = []

def onProcess (p : KProcess) : JobState := { s with process := p }

def beginStop : JobState :=
  if s.process.state = .stopping ∨ s.process.state = .stopped then
    { s with lastCall := some .SIGSTOP }
  else
    { process := s.process.beginStop
      unsent := s.process.threads, signal := .SIGSTOP, lastCall := some .SIGSTOP }

def beginContinue : JobState :=
  if s.process.state ≠ .stopping ∧ s.process.state ≠ .stopped then
    { s with lastCall := some .SIGCONT }
  else
    { process := s.process.beginContinue
      unsent := s.process.threads, signal := .SIGCONT, lastCall := some .SIGCONT }

def send : Option JobState :=
  match s.unsent with
  | [] => none
  | t :: rest =>
    some { s with process := s.process.ksend_signal_to_thread t s.signal, unsent := rest }

def step : JobOp → Option JobState
  | .StopProcess => if s.unlocked then some s.beginStop else none
  | .ContinueProcess => if s.unlocked then some s.beginContinue else none
  | .send => s.send
  | .deliver t frameMask =>
    if s.runs t then some (s.onProcess (s.process.kprocess_pending_signals t frameMask)) else none
  | .dispatch t =>
    if t ∈ s.process.threads ∧ (s.process.thread t).threadState = .Ready then
      some (s.onProcess (s.process.SetState t .Running))
    else none
  | .preempt t => if s.runs t then some (s.onProcess (s.process.SetState t .Ready)) else none
  | .block t sleeping =>
    if s.runs t then
      some (s.onProcess (s.process.SetState t (if sleeping then .Sleeping else .Waiting)))
    else none
  | .wakeup t =>
    if t ∈ s.process.threads then some (s.onProcess (s.process.wakeup_thread t false)) else none
  | .sigmask t contBlocked =>
    if s.runs t then
      some (s.onProcess
        (s.process.setThread t { s.process.thread t with contBlocked := contBlocked }))
    else none
  | .spawn creator t kernelThread isInit contBlocked =>
    if s.runs creator ∧ s.unlocked ∧ t ∉ s.process.threads then
      some (s.onProcess (s.process.AddThread t kernelThread isInit contBlocked))
    else none
  | .exit t returnValue =>
    if s.runs t ∧ s.unlocked then some (s.onProcess (s.process.kthread_exit t returnValue)) else none
  | .report =>
    if s.unlocked ∧ s.process.state ≠ .zombie then some (s.onProcess s.process.reported) else none

end

/-- A process that has just got its first thread. -/
def initial (pid : Nat) (kernelThread isInit contBlocked : Bool) : JobState where
  process :=
    { pid := pid
      threads := [pid]
      thread := fun _ =>
        { kernelThread := kernelThread, isInit := isInit, contBlocked := contBlocked } }

end JobState

def jobSystem : System JobState JobOp where
  step := JobState.step

end PadOS.Kernel.StopContinue
