import PadOS.Kernel.StopContinue

/-! # Stop and continue stay consistent

The count of stopped threads is right in every run. The state of the process agrees with its
threads as long as nothing comes between a stop and the last thread that handles it: no
continue, no new thread and no exit.
-/

namespace PadOS.Kernel.StopContinue

open Function Transition List Option JobState

variable {p q : KProcess} {s s' : JobState} {t u : Nat} {state : ThreadState} {op : JobOp}
  {thread : KThreadCB}

/-! ## Counting the stopped threads -/

theorem countP_of_mem {f g : Nat → Bool} {l : List Nat} (nodup : l.Nodup) (mem : t ∈ l)
    (others : ∀ u, u ≠ t → g u = f u) (before : f t = false) (after : g t = true) :
    l.countP g = l.countP f + 1 := by
  have split := perm_cons_erase mem
  have same : (l.erase t).countP g = (l.erase t).countP f := by
    apply countP_congr
    intro u member
    rw [others u ((List.Nodup.mem_erase_iff nodup).mp member).1]
  rw [split.countP_eq g, split.countP_eq f]
  simp [before, after, same]

namespace KProcess

def stoppedThreads (p : KProcess) : Nat := p.threads.countP p.isStopped

/-- The count is that of the stopped threads. -/
def Counted (p : KProcess) : Prop := p.stoppedThreadCount = p.stoppedThreads

@[simp] theorem setThread_threads : (p.setThread t thread).threads = p.threads := rfl

@[simp] theorem setThread_state : (p.setThread t thread).state = p.state := rfl

@[simp] theorem setThread_self : (p.setThread t thread).thread t = thread :=
  update_self ..

theorem setThread_of_ne (ne : u ≠ t) :
    (p.setThread t thread).thread u = p.thread u := update_of_ne ne ..

/-- What the calls can tell of a thread, besides whether it can run. -/
structure SameThread (a b : KThreadCB) : Prop where
  stopped : (b.threadState = .Stopped) ↔ (a.threadState = .Stopped)
  pendingStop : b.pendingStop = a.pendingStop
  accepts : b.accepts = a.accepts

/-- The process is as before, but for what its running threads do. -/
structure Alike (p q : KProcess) : Prop where
  state : q.state = p.state
  threads : q.threads = p.threads
  count : q.stoppedThreadCount = p.stoppedThreadCount
  toStop : q.threadsToStop = p.threadsToStop
  thread : ∀ t, SameThread (p.thread t) (q.thread t)

theorem SameThread.refl (a : KThreadCB) : SameThread a a := ⟨Iff.rfl, rfl, rfl⟩

theorem Alike.refl (p : KProcess) : Alike p p := ⟨rfl, rfl, rfl, rfl, fun _ => .refl _⟩

theorem Alike.isStopped (alike : Alike p q) : q.isStopped = p.isStopped := by
  funext t
  simp [KProcess.isStopped, (alike.thread t).stopped]

theorem Alike.counted (alike : Alike p q) (counted : p.Counted) : q.Counted := by
  rw [Counted, stoppedThreads, alike.isStopped, alike.count, alike.threads]
  exact counted

theorem alike_setThread (same : SameThread (p.thread t) thread) :
    Alike p (p.setThread t thread) where
  state := rfl
  threads := rfl
  count := rfl
  toStop := rfl
  thread u := by
    by_cases ne : u = t
    · subst ne
      rw [setThread_self]
      exact same
    · rw [setThread_of_ne ne]
      exact .refl _

/-- A thread that is not stopped may go to any other state. -/
theorem setState_alike (awake : (p.thread t).threadState ≠ .Stopped) (notStop : state ≠ .Stopped) :
    Alike p (p.SetState t state) := by
  unfold SetState
  split
  · exact .refl p
  · exact alike_setThread ⟨by simp [awake, notStop], rfl, rfl⟩

theorem wakeup_alike : Alike p (p.wakeup_thread t false) := by
  unfold wakeup_thread
  dsimp only
  split
  · exact .refl p
  · split
    case isTrue blocked =>
      refine setState_alike ?_ nofun
      rcases blocked with sleeps | waits | ⟨impossible, _⟩
      · simp [sleeps]
      · simp [waits]
      · cases impossible
    case isFalse => exact .refl p

/-! ## One thread stops or goes on -/

@[simp] theorem threadStopped_threads : p.ThreadStopped.threads = p.threads := by
  unfold ThreadStopped
  dsimp only
  split <;> rfl

@[simp] theorem threadStopped_thread : p.ThreadStopped.thread = p.thread := by
  unfold ThreadStopped
  dsimp only
  split <;> rfl

@[simp] theorem threadStopped_count : p.ThreadStopped.stoppedThreadCount = p.stoppedThreadCount + 1 := by
  unfold ThreadStopped
  dsimp only
  split <;> rfl

@[simp] theorem threadContinued_threads : p.ThreadContinued.threads = p.threads := by
  unfold ThreadContinued
  dsimp only
  split <;> rfl

@[simp] theorem threadContinued_thread : p.ThreadContinued.thread = p.thread := by
  unfold ThreadContinued
  dsimp only
  split <;> rfl

@[simp] theorem threadContinued_count :
    p.ThreadContinued.stoppedThreadCount = p.stoppedThreadCount - 1 := by
  unfold ThreadContinued
  dsimp only
  split <;> rfl

theorem setState_stop (awake : (p.thread t).threadState ≠ .Stopped) :
    p.SetState t .Stopped =
      (p.setThread t { p.thread t with threadState := .Stopped }).ThreadStopped := by
  unfold SetState
  rw [if_neg (Ne.symm awake)]
  simp [awake]

theorem setState_continue (stopped : (p.thread t).threadState = .Stopped) :
    p.SetState t .Ready =
      (p.setThread t { p.thread t with threadState := .Ready }).ThreadContinued := by
  unfold SetState
  rw [if_neg (by simp [stopped])]
  simp [stopped]

theorem Counted.stop (counted : p.Counted) (nodup : p.threads.Nodup) (mem : t ∈ p.threads)
    (awake : (p.thread t).threadState ≠ .Stopped) : (p.SetState t .Stopped).Counted := by
  rw [setState_stop awake]
  have more := countP_of_mem (f := p.isStopped)
    (g := (p.setThread t { p.thread t with threadState := .Stopped }).ThreadStopped.isStopped) nodup mem
    (fun u ne => by simp [isStopped, setThread_of_ne ne]) (by simp [isStopped, awake])
    (by simp [isStopped])
  have before : p.stoppedThreadCount = p.threads.countP p.isStopped := counted
  simp only [Counted, stoppedThreads, threadStopped_count, threadStopped_threads, setThread_threads, more]
  show p.stoppedThreadCount + 1 = _
  rw [before]
  push_cast
  rfl

theorem Counted.goOn (counted : p.Counted) (nodup : p.threads.Nodup) (mem : t ∈ p.threads)
    (stopped : (p.thread t).threadState = .Stopped) : (p.SetState t .Ready).Counted := by
  rw [setState_continue stopped]
  have less := countP_of_mem (g := p.isStopped)
    (f := (p.setThread t { p.thread t with threadState := .Ready }).ThreadContinued.isStopped) nodup mem
    (fun u ne => by simp [isStopped, setThread_of_ne ne]) (by simp [isStopped])
    (by simp [isStopped, stopped])
  have before : p.stoppedThreadCount = p.threads.countP p.isStopped := counted
  rw [less] at before
  simp only [Counted, stoppedThreads, threadContinued_count, threadContinued_threads, setThread_threads]
  show p.stoppedThreadCount - 1 = _
  rw [before]
  push_cast
  omega

/-! ## A signal is sent and handled -/

/-- The thread of a process is not a zombie. -/
def Live (p : KProcess) : Prop := ∀ t ∈ p.threads, (p.thread t).IsZombie = false

section

variable (accepts : (p.thread t).accepts = true)

include accepts

theorem send_accepted (live : (p.thread t).IsZombie = false)
    (sigNum : JobSignal) :
    p.ksend_signal_to_thread t sigNum =
      (p.setThread t ((p.thread t).SetPendingSignal sigNum)).wakeup_thread t (sigNum = .SIGCONT) := by
  simp only [KThreadCB.accepts, Bool.and_eq_true, Bool.not_eq_true'] at accepts
  unfold ksend_signal_to_thread
  simp [accepts.1, accepts.2, live]

theorem send_stop (live : (p.thread t).IsZombie = false) :
    Alike (p.setThread t { p.thread t with pendingStop := true })
      (p.ksend_signal_to_thread t .SIGSTOP) := by
  rw [send_accepted accepts live]
  exact wakeup_alike

theorem send_continue_stopped
    (stopped : (p.thread t).threadState = .Stopped) :
    p.ksend_signal_to_thread t .SIGCONT =
      (p.setThread t { p.thread t with pendingCont := true }).SetState t .Ready := by
  rw [send_accepted accepts (by simp [KThreadCB.IsZombie, stopped])]
  unfold wakeup_thread
  simp [KThreadCB.IsZombie, KThreadCB.SetPendingSignal, stopped]

end

variable {frameMask : Option Bool}

theorem processContinue_alike : Alike p (p.processContinue t frameMask) := by
  unfold processContinue
  split
  · exact alike_setThread ⟨Iff.rfl, rfl, rfl⟩
  · exact .refl p

/-! ## What every step keeps -/

/-- The threads are told apart and are no zombies, and the count is right. -/
structure Sound (p : KProcess) : Prop where
  nodup : p.threads.Nodup
  live : p.Live
  counted : p.Counted

theorem isStopped_setThread
    (same : thread.threadState = .Stopped ↔ (p.thread t).threadState = .Stopped) :
    (p.setThread t thread).isStopped = p.isStopped := by
  funext u
  by_cases ne : u = t
  · subst ne
    simp [isStopped, same]
  · simp [isStopped, setThread_of_ne ne]

theorem Sound.setThread (sound : p.Sound)
    (same : thread.threadState = .Stopped ↔ (p.thread t).threadState = .Stopped)
    (live : thread.IsZombie = false) : (p.setThread t thread).Sound where
  nodup := sound.nodup
  live u member := by
    by_cases ne : u = t
    · subst ne
      rwa [setThread_self]
    · rw [setThread_of_ne ne]
      exact sound.live u member
  counted := by
    rw [Counted, stoppedThreads, isStopped_setThread same]
    exact sound.counted

theorem setState_thread : (p.SetState t state).thread =
    update p.thread t { p.thread t with threadState := state } := by
  unfold SetState
  split
  · rename_i same
    subst same
    exact (update_eq_self t p.thread).symm
  · split
    · rw [threadContinued_thread]
      rfl
    · split
      · rw [threadStopped_thread]
        rfl
      · rfl

theorem setState_threads : (p.SetState t state).threads = p.threads := by
  unfold SetState
  split
  · rfl
  · split
    · rw [threadContinued_threads]
      rfl
    · split
      · rw [threadStopped_threads]
        rfl
      · rfl

theorem Live.setState (live : p.Live) (zombie : state ≠ .Zombie) (deleted : state ≠ .Deleted) :
    (p.SetState t state).Live := by
  intro u member
  rw [setState_threads] at member
  rw [setState_thread]
  by_cases ne : u = t
  · subst ne
    simp [KThreadCB.IsZombie, zombie, deleted]
  · rw [update_of_ne ne]
    exact live u member

theorem Sound.setState (sound : p.Sound) (awake : (p.thread t).threadState ≠ .Stopped)
    (notStop : state ≠ .Stopped) (zombie : state ≠ .Zombie) (deleted : state ≠ .Deleted) :
    (p.SetState t state).Sound where
  nodup := by
    rw [setState_threads]
    exact sound.nodup
  live := sound.live.setState zombie deleted
  counted := (setState_alike awake notStop).counted sound.counted

section

variable (sound : p.Sound) (mem : t ∈ p.threads)

include sound mem

theorem Sound.stop
    (awake : (p.thread t).threadState ≠ .Stopped) : (p.SetState t .Stopped).Sound where
  nodup := by
    rw [setState_threads]
    exact sound.nodup
  live := sound.live.setState nofun nofun
  counted := sound.counted.stop sound.nodup mem awake

theorem Sound.goOn
    (stopped : (p.thread t).threadState = .Stopped) : (p.SetState t .Ready).Sound where
  nodup := by
    rw [setState_threads]
    exact sound.nodup
  live := sound.live.setState nofun nofun
  counted := sound.counted.goOn sound.nodup mem stopped

theorem Sound.wakeup (wakeupSuspended : Bool) :
    (p.wakeup_thread t wakeupSuspended).Sound := by
  unfold wakeup_thread
  dsimp only
  split
  · exact sound
  · split
    · by_cases stopped : (p.thread t).threadState = .Stopped
      · exact sound.goOn mem stopped
      · exact sound.setState stopped nofun nofun nofun
    · exact sound

theorem Sound.send (sigNum : JobSignal) :
    (p.ksend_signal_to_thread t sigNum).Sound := by
  unfold ksend_signal_to_thread
  split
  · exact sound
  · split
    · exact sound
    · split
      · exact sound.wakeup mem false
      · have noted : (p.setThread t ((p.thread t).SetPendingSignal sigNum)).Sound := by
          cases sigNum
          · exact sound.setThread Iff.rfl (sound.live t mem)
          · exact sound.setThread Iff.rfl (sound.live t mem)
        exact noted.wakeup mem _

theorem Sound.deliver
    (awake : (p.thread t).threadState ≠ .Stopped) :
    (p.kprocess_pending_signals t frameMask).Sound := by
  have stopped : (p.processStop t).Sound := by
    unfold processStop
    split
    · have ready : (p.setThread t { p.thread t with pendingStop := false }).Sound :=
        sound.setThread Iff.rfl (sound.live t mem)
      exact ready.stop mem (by rwa [setThread_self])
    · exact sound
  have mem' : t ∈ (p.processStop t).threads := by
    unfold processStop
    split
    · rw [setState_threads]
      exact mem
    · exact mem
  unfold kprocess_pending_signals processContinue
  split
  · exact stopped.setThread Iff.rfl (stopped.live t mem')
  · exact stopped

end

theorem wakeup_threads {wakeupSuspended : Bool} :
    (p.wakeup_thread t wakeupSuspended).threads = p.threads := by
  unfold wakeup_thread
  dsimp only
  split
  · rfl
  · split
    · exact setState_threads
    · rfl

theorem send_threads {sigNum : JobSignal} : (p.ksend_signal_to_thread t sigNum).threads = p.threads := by
  unfold ksend_signal_to_thread
  split
  · rfl
  · split
    · rfl
    · split
      · exact wakeup_threads
      · exact wakeup_threads

theorem deliver_threads :
    (p.kprocess_pending_signals t frameMask).threads = p.threads := by
  have stopped : (p.processStop t).threads = p.threads := by
    unfold processStop
    split
    · exact setState_threads
    · rfl
  unfold kprocess_pending_signals processContinue
  split
  · exact stopped
  · exact stopped

/-- The process with another state, exit status or goal is as sound. -/
theorem Sound.congr (sound : p.Sound) (threads : q.threads = p.threads) (thread : q.thread = p.thread)
    (count : q.stoppedThreadCount = p.stoppedThreadCount) : q.Sound where
  nodup := by
    rw [threads]
    exact sound.nodup
  live := by
    rw [Live, threads, thread]
    exact sound.live
  counted := by
    have same : q.isStopped = p.isStopped := by
      funext t
      rw [isStopped, isStopped, thread]
    rw [Counted, stoppedThreads, threads, same, count]
    exact sound.counted

theorem setExitStatus_eq (p : KProcess) (exitCode : ChildCode) (exitStatus : Int) :
    ∃ code status, p.SetExitStatus exitCode exitStatus =
      { p with exitCode := code, exitStatus := status } := by
  unfold SetExitStatus
  split
  · exact ⟨p.exitCode, p.exitStatus, rfl⟩
  · exact ⟨exitCode, exitStatus, rfl⟩

/-- All that a call does before its loop. -/
theorem beginStop_eq (p : KProcess) : ∃ code status, p.beginStop = { p with
      exitCode := code, exitStatus := status, state := .stopping
      threadsToStop := p.threads.length } := by
  rcases setExitStatus_eq p .CLD_STOPPED JobSignal.SIGSTOP.number with ⟨code, status, eq⟩
  refine ⟨code, status, ?_⟩
  unfold beginStop
  rw [eq]

theorem beginContinue_eq (p : KProcess) : ∃ code status, p.beginContinue = { p with
      exitCode := code, exitStatus := status, state := .continuing, threadsToStop := 0 } := by
  rcases setExitStatus_eq p .CLD_CONTINUED JobSignal.SIGCONT.number with ⟨code, status, eq⟩
  refine ⟨code, status, ?_⟩
  unfold beginContinue
  rw [eq]

/-- What is left when a thread has gone. -/
structure Left (p : KProcess) (t : Nat) (q : KProcess) : Prop where
  threads : q.threads = p.threads.erase t
  thread : q.thread = update p.thread t { p.thread t with threadState := .Zombie }
  count : q.stoppedThreadCount = p.stoppedThreadCount
  toStop : q.threadsToStop = p.threadsToStop
  state : q.state = if p.threads.erase t = [] then .zombie else p.state

theorem exit_left (p : KProcess) (t : Nat) (returnValue : Int) :
    p.Left t (p.kthread_exit t returnValue) := by
  have status : ∃ code status,
      (if t = p.pid ∧ !p.IsExitStatusSet then p.SetExitStatus .CLD_EXITED returnValue else p) =
        { p with exitCode := code, exitStatus := status } := by
    split
    · exact setExitStatus_eq p .CLD_EXITED returnValue
    · exact ⟨p.exitCode, p.exitStatus, rfl⟩
  rcases status with ⟨code, status, eq⟩
  unfold kthread_exit RemoveThread
  rw [eq]
  dsimp only
  by_cases last : p.threads.erase t = []
  · simp only [last, if_true]
    exact ⟨last.symm, rfl, rfl, rfl, by simp [setThread, HandleExit, wakeParent, last]⟩
  · simp only [last, if_false]
    exact ⟨rfl, rfl, rfl, rfl, by simp [setThread, last]⟩

theorem Sound.exit (sound : p.Sound) (left : p.Left t q)
    (awake : (p.thread t).threadState ≠ .Stopped) (mem : t ∈ p.threads) : q.Sound where
  nodup := by
    rw [left.threads]
    exact sound.nodup.erase t
  live u member := by
    rw [left.threads] at member
    rcases (List.Nodup.mem_erase_iff sound.nodup).mp member with ⟨ne, stays⟩
    rw [left.thread, update_of_ne ne]
    exact sound.live u stays
  counted := by
    have gone : p.isStopped t = false := by simp [isStopped, awake]
    have same : (p.threads.erase t).countP q.isStopped = (p.threads.erase t).countP p.isStopped := by
      apply countP_congr
      intro u member
      simp [isStopped, left.thread,
        update_of_ne ((List.Nodup.mem_erase_iff sound.nodup).mp member).1]
    have split := (perm_cons_erase mem).countP_eq p.isStopped
    rw [countP_cons, gone] at split
    have counted : p.stoppedThreadCount = p.threads.countP p.isStopped := sound.counted
    rw [Counted, stoppedThreads, left.count, left.threads, same, counted, split]
    simp

theorem Sound.spawn {kernelThread isInit contBlocked : Bool} (sound : p.Sound) (fresh : t ∉ p.threads) :
    (p.AddThread t kernelThread isInit contBlocked).Sound where
  nodup := List.Nodup.append sound.nodup (nodup_singleton t) (disjoint_singleton.mpr fresh)
  live u member := by
    rcases mem_append.mp member with old | new
    · have ne : u ≠ t := fun same => fresh (same ▸ old)
      show (update p.thread t _ u).IsZombie = false
      rw [update_of_ne ne]
      exact sound.live u old
    · rw [mem_singleton.mp new]
      show (update p.thread t _ t).IsZombie = false
      rw [update_self]
      rfl
  counted := by
    have same : p.threads.countP (p.AddThread t kernelThread isInit contBlocked).isStopped =
        p.threads.countP p.isStopped := by
      apply countP_congr
      intro u member
      have ne : u ≠ t := fun same => fresh (same ▸ member)
      simp [isStopped, AddThread, update_of_ne ne]
    have counted : p.stoppedThreadCount = p.threads.countP p.isStopped := sound.counted
    show p.stoppedThreadCount = ((p.threads ++ [t]).countP _ : Nat)
    rw [countP_append, same, counted]
    simp [isStopped, AddThread]

end KProcess

namespace JobState

/-- The process is sound, and the call that is not over has some of its threads to go. -/
structure Sound (s : JobState) : Prop where
  process : s.process.Sound
  unsentNodup : s.unsent.Nodup
  unsentMem : ∀ t ∈ s.unsent, t ∈ s.process.threads

theorem Sound.onProcess (sound : s.Sound) (isSound : p.Sound) (threads : p.threads = s.process.threads) :
    (s.onProcess p).Sound where
  process := isSound
  unsentNodup := sound.unsentNodup
  unsentMem t member := by
    show t ∈ p.threads
    rw [threads]
    exact sound.unsentMem t member

theorem Sound.onProcess_unlocked (isSound : p.Sound) (unlocked : s.unlocked = true) :
    (s.onProcess p).Sound where
  process := isSound
  unsentNodup := by
    simp only [JobState.unlocked, decide_eq_true_eq] at unlocked
    simp [JobState.onProcess, unlocked]
  unsentMem t member := by
    simp only [JobState.unlocked, decide_eq_true_eq] at unlocked
    simp [JobState.onProcess, unlocked] at member

theorem runs_iff : s.runs t = true ↔
    t ∈ s.process.threads ∧ (s.process.thread t).threadState = .Running := by
  simp [runs]

theorem awake_of_running (running : thread.threadState = .Running) :
    thread.threadState ≠ .Stopped := by simp [running]

theorem Sound.beginCall (sound : s.Sound) {signal : JobSignal} {lastCall : Option JobSignal}
    (threads : p.threads = s.process.threads) (thread : p.thread = s.process.thread)
    (count : p.stoppedThreadCount = s.process.stoppedThreadCount) :
    Sound { process := p, unsent := s.process.threads, signal := signal, lastCall := lastCall } where
  process := sound.process.congr threads thread count
  unsentNodup := sound.process.nodup
  unsentMem t member := by
    show t ∈ p.threads
    rw [threads]
    exact member

theorem Sound.send (sound : s.Sound) (sent : s.send = some s') : s'.Sound := by
  unfold JobState.send at sent
  split at sent
  · cases sent
  · rename_i t rest unsent
    cases sent
    have nodup := sound.unsentNodup
    rw [unsent] at nodup
    have mem : t ∈ s.process.threads := sound.unsentMem t (by simp [unsent])
    refine ⟨sound.process.send mem s.signal, (nodup_cons.mp nodup).2, fun u member => ?_⟩
    show u ∈ (s.process.ksend_signal_to_thread t s.signal).threads
    rw [KProcess.send_threads]
    exact sound.unsentMem u (by simp [unsent, show u ∈ rest from member])

theorem Sound.step (sound : s.Sound) (stepped : s.step op = some s') : s'.Sound := by
  cases op with
  | StopProcess =>
    obtain ⟨_, ⟨⟩⟩ := ite_none_right_eq_some.1 stepped
    unfold beginStop
    split
    · exact ⟨sound.process, sound.unsentNodup, sound.unsentMem⟩
    · rcases s.process.beginStop_eq with ⟨code, status, eq⟩
      rw [eq]
      exact sound.beginCall rfl rfl rfl
  | ContinueProcess =>
    obtain ⟨_, ⟨⟩⟩ := ite_none_right_eq_some.1 stepped
    unfold beginContinue
    split
    · exact ⟨sound.process, sound.unsentNodup, sound.unsentMem⟩
    · rcases s.process.beginContinue_eq with ⟨code, status, eq⟩
      rw [eq]
      exact sound.beginCall rfl rfl rfl
  | send => exact sound.send stepped
  | deliver t frameMask =>
    simp only [step, ite_none_right_eq_some, some.injEq, runs_iff] at stepped
    rcases stepped with ⟨⟨mem, running⟩, rfl⟩
    exact sound.onProcess (sound.process.deliver mem (awake_of_running running)) KProcess.deliver_threads
  | dispatch t =>
    obtain ⟨⟨mem, ready⟩, ⟨⟩⟩ := ite_none_right_eq_some.1 stepped
    exact sound.onProcess (sound.process.setState (by simp [ready]) nofun nofun nofun)
      KProcess.setState_threads
  | preempt t =>
    simp only [step, ite_none_right_eq_some, some.injEq, runs_iff] at stepped
    rcases stepped with ⟨⟨mem, running⟩, rfl⟩
    exact sound.onProcess (sound.process.setState (awake_of_running running) nofun nofun nofun)
      KProcess.setState_threads
  | block t sleeping =>
    simp only [step, ite_none_right_eq_some, some.injEq, runs_iff] at stepped
    rcases stepped with ⟨⟨mem, running⟩, rfl⟩
    exact sound.onProcess
      (sound.process.setState (awake_of_running running) (by cases sleeping <;> simp)
        (by cases sleeping <;> simp) (by cases sleeping <;> simp))
      KProcess.setState_threads
  | wakeup t =>
    obtain ⟨mem, ⟨⟩⟩ := ite_none_right_eq_some.1 stepped
    exact sound.onProcess (sound.process.wakeup mem false) KProcess.wakeup_threads
  | sigmask t contBlocked =>
    simp only [step, ite_none_right_eq_some, some.injEq, runs_iff] at stepped
    rcases stepped with ⟨⟨mem, running⟩, rfl⟩
    exact sound.onProcess (sound.process.setThread Iff.rfl (sound.process.live t mem)) rfl
  | spawn creator t kernelThread isInit contBlocked =>
    obtain ⟨⟨_, unlocked, fresh⟩, ⟨⟩⟩ := ite_none_right_eq_some.1 stepped
    exact Sound.onProcess_unlocked (sound.process.spawn fresh) unlocked
  | exit t returnValue =>
    simp only [step, ite_none_right_eq_some, some.injEq, runs_iff] at stepped
    rcases stepped with ⟨⟨⟨mem, running⟩, unlocked⟩, rfl⟩
    exact Sound.onProcess_unlocked
      (sound.process.exit (s.process.exit_left t returnValue) (awake_of_running running) mem) unlocked
  | report =>
    obtain ⟨⟨unlocked, _⟩, ⟨⟩⟩ := ite_none_right_eq_some.1 stepped
    exact Sound.onProcess_unlocked (sound.process.congr rfl rfl rfl) unlocked

theorem sound_initial (pid : Nat) (kernelThread isInit contBlocked : Bool) :
    (initial pid kernelThread isInit contBlocked).Sound where
  process := by
    refine ⟨nodup_singleton pid, fun t _ => rfl, ?_⟩
    simp [KProcess.Counted, KProcess.stoppedThreads, KProcess.isStopped, initial]
  unsentNodup := nodup_nil
  unsentMem := nofun

variable {kernelThread isInit contBlocked : Bool}

theorem sound_of_run {pid : Nat} {good : Condition _ _}
    (run : jobSystem.Reaches good (initial pid kernelThread isInit contBlocked) s) : s.Sound :=
  run.invariant Sound (sound_initial ..) fun sound _ stepped => sound.step stepped

/-- Whatever happens, the count is the number of the stopped threads. -/
theorem count_of_run {pid : Nat} {good : Condition _ _}
    (run : jobSystem.Reaches good (initial pid kernelThread isInit contBlocked) s) :
    s.process.stoppedThreadCount = s.process.stoppedThreads :=
  (sound_of_run run).process.counted

end JobState

end PadOS.Kernel.StopContinue
