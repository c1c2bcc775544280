import PadOS.Kernel.StopConsistency

/-! # The phases of a stop

As long as no continue, new thread or exit comes between a stop and the last thread that
handles it, the state of the process says where each of its threads stands. In such runs the
process is settled whenever no signal is on its way.
-/

namespace PadOS.Kernel.StopContinue

open Function Transition List Option JobState

variable {p q : KProcess} {s s' : JobState} {t : Nat} {op : JobOp} {a b : KThreadCB} {unsent : Prop}

namespace KThreadCB

def Idle (a : KThreadCB) : Prop := a.threadState ≠ .Stopped ∧ a.pendingStop = false

/-- Under a stop a thread still waits for its signal, has it pending, or is stopped. -/
structure Stopping (a : KThreadCB) (unsent : Prop) : Prop where
  accepts : a.accepts = true
  stopped : a.threadState = .Stopped ↔ a.pendingStop = false ∧ ¬unsent
  once : unsent → a.pendingStop = false

structure Halted (a : KThreadCB) : Prop where
  accepts : a.accepts = true
  stopped : a.threadState = .Stopped
  handled : a.pendingStop = false

/-- Under a continue the threads are stopped that it has not got to yet. -/
structure Continuing (a : KThreadCB) (unsent : Prop) : Prop where
  accepts : a.accepts = true
  stopped : a.threadState = .Stopped ↔ unsent
  handled : a.pendingStop = false

end KThreadCB

namespace KProcess.SameThread

section

variable (same : SameThread a b)

include same

theorem idle (idle : a.Idle) : b.Idle :=
  ⟨fun stopped => idle.1 (same.stopped.mp stopped), same.pendingStop.trans idle.2⟩

theorem stopping (stopping : a.Stopping unsent) : b.Stopping unsent where
  accepts := same.accepts.trans stopping.accepts
  stopped := by
    rw [same.stopped, same.pendingStop]
    exact stopping.stopped
  once isUnsent := same.pendingStop.trans (stopping.once isUnsent)

theorem halted (halted : a.Halted) : b.Halted where
  accepts := same.accepts.trans halted.accepts
  stopped := same.stopped.mpr halted.stopped
  handled := same.pendingStop.trans halted.handled

theorem continuing (continuing : a.Continuing unsent) : b.Continuing unsent where
  accepts := same.accepts.trans continuing.accepts
  stopped := same.stopped.trans continuing.stopped
  handled := same.pendingStop.trans continuing.handled

end

end KProcess.SameThread

namespace JobState

/-- Where the process and its threads stand. -/
inductive Phase (s : JobState) : Prop
  | idle (state : s.process.state = .running ∨ s.process.state = .continued) (unlocked : s.unsent = [])
      (each : ∀ t ∈ s.process.threads, (s.process.thread t).Idle)
  | stopping (state : s.process.state = .stopping) (signal : s.signal = .SIGSTOP)
      (goal : s.process.threadsToStop = s.process.threads.length) (last : s.lastCall ≠ some .SIGCONT)
      (each : ∀ t ∈ s.process.threads, (s.process.thread t).Stopping (t ∈ s.unsent))
      (some : ∃ t ∈ s.process.threads, (s.process.thread t).threadState ≠ .Stopped)
  | stopped (state : s.process.state = .stopped) (unlocked : s.unsent = [])
      (last : s.lastCall ≠ some .SIGCONT) (some : s.process.threads ≠ [])
      (each : ∀ t ∈ s.process.threads, (s.process.thread t).Halted)
  | continuing (state : s.process.state = .continuing) (signal : s.signal = .SIGCONT)
      (goal : s.process.threadsToStop = 0) (locked : s.unsent ≠ [])
      (each : ∀ t ∈ s.process.threads, (s.process.thread t).Continuing (t ∈ s.unsent))
  | zombie (state : s.process.state = .zombie) (unlocked : s.unsent = [])
      (gone : s.process.threads = [])

theorem Phase.alike (phase : s.Phase) (alike : KProcess.Alike s.process p) : (s.onProcess p).Phase := by
  cases phase with
  | idle state unlocked each =>
    refine .idle ?_ unlocked fun t member => ?_
    · show p.state = _ ∨ p.state = _
      rw [alike.state]
      exact state
    · exact (alike.thread t).idle (each t (alike.threads ▸ member))
  | stopping state signal goal last each notAll =>
    refine .stopping (alike.state.trans state) signal ?_ last (fun t member => ?_) ?_
    · show p.threadsToStop = p.threads.length
      rw [alike.toStop, alike.threads]
      exact goal
    · exact (alike.thread t).stopping (each t (alike.threads ▸ member))
    · rcases notAll with ⟨t, member, awake⟩
      refine ⟨t, ?_, fun stopped => awake ((alike.thread t).stopped.mp stopped)⟩
      show t ∈ p.threads
      rw [alike.threads]
      exact member
  | stopped state unlocked last nonempty each =>
    refine .stopped (alike.state.trans state) unlocked last ?_ fun t member => ?_
    · show p.threads ≠ []
      rw [alike.threads]
      exact nonempty
    · exact (alike.thread t).halted (each t (alike.threads ▸ member))
  | continuing state signal goal locked each =>
    refine .continuing (alike.state.trans state) signal (alike.toStop.trans goal) locked fun t member => ?_
    exact (alike.thread t).continuing (each t (alike.threads ▸ member))
  | zombie state unlocked gone =>
    exact .zombie (alike.state.trans state) unlocked (alike.threads.trans gone)

/-! ## One step -/

/-- Between a stop and the last thread that handles it there is no continue, no new thread and
no exit but that of the only thread, and a stop finds only threads that take signals. -/
def Orderly : Condition JobState JobOp
  | s, .StopProcess =>
    s.process.threads ≠ [] ∧ ∀ t ∈ s.process.threads, (s.process.thread t).accepts = true
  | s, .ContinueProcess => s.process.state ≠ .stopping
  | s, .spawn .. => s.process.state ≠ .stopping
  | s, .exit t _ => s.process.state = .stopping → s.process.threads = [t]
  | _, _ => True

theorem Phase.beginStop (phase : s.Phase) (unlocked : s.unsent = []) (nonempty : s.process.threads ≠ [])
    (accept : ∀ t ∈ s.process.threads, (s.process.thread t).accepts = true) : s.beginStop.Phase := by
  unfold JobState.beginStop
  cases phase with
  | idle state _ each =>
    have other : ¬(s.process.state = .stopping ∨ s.process.state = .stopped) := by
      rcases state with running | continued
      · simp [running]
      · simp [continued]
    rw [if_neg other]
    rcases s.process.beginStop_eq with ⟨code, status, eq⟩
    rw [eq]
    refine .stopping rfl rfl rfl nofun (fun t member => ?_) ?_
    · exact ⟨accept t member, ⟨fun stopped => absurd stopped (each t member).1,
        fun done => absurd member done.2⟩, fun _ => (each t member).2⟩
    · rcases exists_mem_of_ne_nil _ nonempty with ⟨t, member⟩
      exact ⟨t, member, (each t member).1⟩
  | stopping state signal goal _ each notAll =>
    rw [if_pos (.inl state)]
    exact .stopping state signal goal nofun each notAll
  | stopped state _ _ _ each =>
    rw [if_pos (.inr state)]
    exact .stopped state unlocked nofun nonempty each
  | continuing _ _ _ locked _ => exact absurd unlocked locked
  | zombie _ _ gone => exact absurd gone nonempty

theorem Phase.beginContinue (phase : s.Phase) (unlocked : s.unsent = [])
    (settled : s.process.state ≠ .stopping) : s.beginContinue.Phase := by
  unfold JobState.beginContinue
  cases phase with
  | idle state _ each =>
    rw [if_pos]
    · exact .idle state unlocked each
    · rcases state with running | continued
      · simp [running]
      · simp [continued]
  | stopping state => exact absurd state settled
  | stopped state _ _ nonempty each =>
    rw [if_neg (by simp [state])]
    rcases s.process.beginContinue_eq with ⟨code, status, eq⟩
    rw [eq]
    refine .continuing rfl rfl rfl nonempty fun t member => ?_
    have halted := each t member
    exact ⟨halted.accepts, ⟨fun _ => member, fun _ => halted.stopped⟩, halted.handled⟩
  | continuing _ _ _ locked _ => exact absurd unlocked locked
  | zombie state _ gone =>
    rw [if_pos (by simp [state])]
    exact .zombie state unlocked gone

theorem not_stopped_of_count (counted : p.Counted) (ne : p.stoppedThreadCount ≠ p.threads.length) :
    ∃ t ∈ p.threads, (p.thread t).threadState ≠ .Stopped := by
  by_contra none
  push Not at none
  apply ne
  rw [counted, KProcess.stoppedThreads, countP_eq_length.mpr fun t member => by
    simp [KProcess.isStopped, none t member]]

theorem stopped_of_count (counted : p.Counted) (eq : p.stoppedThreadCount = p.threads.length) :
    ∀ t ∈ p.threads, (p.thread t).threadState = .Stopped := by
  intro t member
  rw [counted, KProcess.stoppedThreads] at eq
  have all := countP_eq_length.mp (Int.ofNat.inj eq) t member
  simpa [KProcess.isStopped] using all

theorem awake_iff_count (counted : p.Counted) :
    p.stoppedThreadCount = 0 ↔ ∀ t ∈ p.threads, (p.thread t).threadState ≠ .Stopped := by
  rw [counted, KProcess.stoppedThreads]
  simp [KProcess.isStopped]

theorem Sound.fresh {rest : List Nat} (sound : s.Sound) (unsent : s.unsent = t :: rest) :
    t ∉ rest := by
  have nodup := sound.unsentNodup
  rw [unsent] at nodup
  exact (nodup_cons.mp nodup).1

theorem Phase.sendStop {rest : List Nat} (sound : s.Sound) (unsent : s.unsent = t :: rest)
    (state : s.process.state = .stopping) (signal : s.signal = .SIGSTOP)
    (goal : s.process.threadsToStop = s.process.threads.length) (last : s.lastCall ≠ some .SIGCONT)
    (each : ∀ t ∈ s.process.threads, (s.process.thread t).Stopping (t ∈ s.unsent))
    (notAll : ∃ t ∈ s.process.threads, (s.process.thread t).threadState ≠ .Stopped) :
    Phase { s with process := s.process.ksend_signal_to_thread t s.signal, unsent := rest } := by
  have isUnsent : t ∈ s.unsent := by simp [unsent]
  have mem := sound.unsentMem t isUnsent
  have fresh := sound.fresh unsent
  have noted : Phase { s with
      process := s.process.setThread t { s.process.thread t with pendingStop := true }
      unsent := rest } := by
    refine .stopping state signal goal last (fun u member => ?_) ?_
    · have before := each u member
      by_cases ne : u = t
      · subst ne
        refine ⟨?_, ?_, fun again => absurd again fresh⟩
        · show (KThreadCB.accepts ((s.process.setThread u _).thread u)) = true
          rw [KProcess.setThread_self]
          exact before.accepts
        · show KThreadCB.threadState ((s.process.setThread u _).thread u) = .Stopped ↔
            KThreadCB.pendingStop ((s.process.setThread u _).thread u) = false ∧ u ∉ rest
          rw [KProcess.setThread_self]
          exact ⟨fun stopped => absurd isUnsent (before.stopped.mp stopped).2, nofun⟩
      · show KThreadCB.Stopping ((s.process.setThread t _).thread u) (u ∈ rest)
        rw [KProcess.setThread_of_ne ne]
        rw [unsent] at before
        simpa [ne] using before
    · rcases notAll with ⟨u, member, awake⟩
      refine ⟨u, member, ?_⟩
      show KThreadCB.threadState ((s.process.setThread t _).thread u) ≠ .Stopped
      by_cases ne : u = t
      · subst ne
        rw [KProcess.setThread_self]
        exact awake
      · rw [KProcess.setThread_of_ne ne]
        exact awake
  refine noted.alike ?_
  rw [signal]
  exact KProcess.send_stop (each t mem).accepts (sound.process.live t mem)

theorem Phase.sendContinue {rest : List Nat} (sound : s.Sound) (unsent : s.unsent = t :: rest)
    (state : s.process.state = .continuing) (signal : s.signal = .SIGCONT)
    (goal : s.process.threadsToStop = 0)
    (each : ∀ t ∈ s.process.threads, (s.process.thread t).Continuing (t ∈ s.unsent)) :
    Phase { s with process := s.process.ksend_signal_to_thread t s.signal, unsent := rest } := by
  have isUnsent : t ∈ s.unsent := by simp [unsent]
  have mem := sound.unsentMem t isUnsent
  have fresh := sound.fresh unsent
  have stopped : (s.process.thread t).threadState = .Stopped := (each t mem).stopped.mpr isUnsent
  have counted := (sound.process.send mem .SIGCONT).counted
  rw [signal]
  rw [KProcess.send_continue_stopped (each t mem).accepts stopped] at counted ⊢
  have noted : ((s.process.setThread t { s.process.thread t with pendingCont := true }).thread t).threadState =
      .Stopped := by
    rw [KProcess.setThread_self]
    exact stopped
  rw [KProcess.setState_continue noted, KProcess.setThread_self] at counted ⊢
  generalize woken : (s.process.setThread t { s.process.thread t with pendingCont := true }).setThread t
    { { s.process.thread t with pendingCont := true } with threadState := .Ready } = r at counted ⊢
  have threads : r.threads = s.process.threads := by simp [← woken]
  have each' : ∀ u ∈ r.threads, (r.thread u).Continuing (u ∈ rest) := by
    intro u member
    rw [threads] at member
    have before := each u member
    by_cases ne : u = t
    · subst ne
      rw [← woken, KProcess.setThread_self]
      exact ⟨before.accepts, ⟨nofun, fun again => absurd again fresh⟩, before.handled⟩
    · rw [← woken, KProcess.setThread_of_ne ne, KProcess.setThread_of_ne ne]
      rw [unsent] at before
      simpa [ne] using before
  have isState : r.state = .continuing := by simp [← woken, state]
  have isGoal : r.threadsToStop = 0 := by
    rw [← woken]
    exact goal
  have awake := awake_iff_count counted
  rw [KProcess.threadContinued_threads, KProcess.threadContinued_thread,
    KProcess.threadContinued_count] at awake
  unfold KProcess.ThreadContinued
  dsimp only
  rw [isGoal, isState]
  by_cases done : r.stoppedThreadCount - 1 = 0
  · rw [if_pos ⟨done, rfl⟩]
    have noneLeft := awake.mp done
    refine .idle (.inr rfl) ?_ fun u member => ⟨noneLeft u member, (each' u member).handled⟩
    rcases rest with _ | ⟨u, others⟩
    · rfl
    · have member : u ∈ r.threads := by
        rw [threads]
        exact sound.unsentMem u (by simp [unsent])
      exact absurd ((each' u member).stopped.mpr mem_cons_self) (noneLeft u member)
  · rw [if_neg fun both => done both.1]
    refine .continuing rfl rfl rfl ?_ each'
    show rest ≠ []
    rintro rfl
    exact done (awake.mpr fun u member stopped => absurd ((each' u member).stopped.mp stopped) not_mem_nil)

section

variable (phase : s.Phase)

include phase

theorem Phase.send (sound : s.Sound) (sent : s.send = some s') : s'.Phase := by
  unfold JobState.send at sent
  split at sent
  · cases sent
  · rename_i t rest unsent
    cases sent
    have locked : s.unsent ≠ [] := by simp [unsent]
    cases phase with
    | idle _ unlocked => exact absurd unlocked locked
    | stopping state signal goal last each notAll =>
      exact Phase.sendStop sound unsent state signal goal last each notAll
    | stopped _ unlocked => exact absurd unlocked locked
    | continuing state signal goal _ each => exact Phase.sendContinue sound unsent state signal goal each
    | zombie _ unlocked => exact absurd unlocked locked

theorem Phase.processStop (sound : s.Sound) (mem : t ∈ s.process.threads)
    (awake : (s.process.thread t).threadState ≠ .Stopped) :
    (s.onProcess (s.process.processStop t)).Phase := by
  unfold KProcess.processStop
  split
  case isFalse => exact phase
  case isTrue pending =>
    cases phase with
    | idle _ _ each => exact absurd pending (by simp [(each t mem).2])
    | stopped _ _ _ _ each => exact absurd (each t mem).stopped awake
    | continuing _ _ _ _ each => exact absurd pending (by simp [(each t mem).handled])
    | zombie _ _ gone => exact absurd mem (by simp [gone])
    | stopping state signal goal last each notAll =>
      have ready : (s.process.setThread t { s.process.thread t with pendingStop := false }).Sound :=
        sound.process.setThread Iff.rfl (sound.process.live t mem)
      have notedAwake :
          ((s.process.setThread t { s.process.thread t with pendingStop := false }).thread t).threadState ≠
            .Stopped := by
        rw [KProcess.setThread_self]
        exact awake
      have counted := (ready.stop mem notedAwake).counted
      rw [KProcess.setState_stop notedAwake, KProcess.setThread_self] at counted ⊢
      generalize stops : (s.process.setThread t { s.process.thread t with pendingStop := false }).setThread t
        { { s.process.thread t with pendingStop := false } with threadState := .Stopped } = r at counted ⊢
      have sent : t ∉ s.unsent := fun isUnsent =>
        absurd pending (by simp [(each t mem).once isUnsent])
      have threads : r.threads = s.process.threads := by simp [← stops]
      have isState : r.state = .stopping := by simp [← stops, state]
      have isGoal : r.threadsToStop = r.threads.length := by
        rw [threads, ← stops]
        exact goal
      have each' : ∀ u ∈ r.threads, (r.thread u).Stopping (u ∈ s.unsent) := by
        intro u member
        rw [threads] at member
        have before := each u member
        by_cases ne : u = t
        · subst ne
          rw [← stops, KProcess.setThread_self]
          exact ⟨before.accepts, ⟨fun _ => ⟨rfl, sent⟩, fun _ => rfl⟩, fun _ => rfl⟩
        · rw [← stops, KProcess.setThread_of_ne ne, KProcess.setThread_of_ne ne]
          exact before
      have all := stopped_of_count counted
      have some := not_stopped_of_count counted
      rw [KProcess.threadStopped_threads, KProcess.threadStopped_thread,
        KProcess.threadStopped_count] at all some
      unfold KProcess.ThreadStopped
      dsimp only
      rw [isGoal, isState]
      by_cases done : r.stoppedThreadCount + 1 = r.threads.length
      · rw [if_pos ⟨done, rfl⟩]
        have handled := fun u member => (each' u member).stopped.mp (all done u member)
        refine .stopped rfl ?_ last ?_ fun u member =>
          ⟨(each' u member).accepts, all done u member, (handled u member).1⟩
        · apply eq_nil_iff_forall_not_mem.mpr
          intro u isUnsent
          exact (handled u (by
            rw [threads]
            exact sound.unsentMem u isUnsent)).2 isUnsent
        · show r.threads ≠ []
          rw [threads]
          exact ne_nil_of_mem mem
      · rw [if_neg fun both => done both.1]
        exact .stopping rfl signal rfl last each' (some done)

theorem Phase.deliver {frameMask : Option Bool} (sound : s.Sound) (running : s.runs t = true) :
    (s.onProcess (s.process.kprocess_pending_signals t frameMask)).Phase := by
  rcases runs_iff.mp running with ⟨mem, isRunning⟩
  exact (phase.processStop sound mem (awake_of_running isRunning)).alike KProcess.processContinue_alike

theorem Phase.spawn {creator : Nat} {kernelThread isInit contBlocked : Bool}
    (running : s.runs creator = true) (unlocked : s.unsent = []) (fresh : t ∉ s.process.threads)
    (settled : s.process.state ≠ .stopping) :
    (s.onProcess (s.process.AddThread t kernelThread isInit contBlocked)).Phase := by
  rcases runs_iff.mp running with ⟨mem, isRunning⟩
  cases phase with
  | stopping state => exact absurd state settled
  | stopped _ _ _ _ each => exact absurd (each creator mem).stopped (awake_of_running isRunning)
  | continuing _ _ _ locked => exact absurd unlocked locked
  | zombie _ _ gone => exact absurd mem (by simp [gone])
  | idle state _ each =>
    refine .idle state unlocked fun u member => ?_
    show KThreadCB.Idle (update s.process.thread t _ u)
    rcases mem_append.mp member with old | new
    · have ne : u ≠ t := fun same => fresh (same ▸ old)
      rw [update_of_ne ne]
      exact each u old
    · rw [mem_singleton.mp new, update_self]
      exact ⟨nofun, rfl⟩

theorem Phase.exit (sound : s.Sound) (running : s.runs t = true)
    (unlocked : s.unsent = []) (left : s.process.Left t p)
    (only : s.process.state = .stopping → s.process.threads = [t]) : (s.onProcess p).Phase := by
  rcases runs_iff.mp running with ⟨mem, isRunning⟩
  by_cases last : s.process.threads.erase t = []
  · refine .zombie ?_ unlocked (left.threads.trans last)
    exact left.state.trans (if_pos last)
  · have state : p.state = s.process.state := left.state.trans (if_neg last)
    cases phase with
    | stopping isStopping => exact absurd (by simp [only isStopping]) last
    | stopped _ _ _ _ each => exact absurd (each t mem).stopped (awake_of_running isRunning)
    | continuing _ _ _ locked => exact absurd unlocked locked
    | zombie _ _ gone => exact absurd mem (by simp [gone])
    | idle isState _ each =>
      refine .idle ?_ unlocked fun u member => ?_
      · show p.state = _ ∨ p.state = _
        rw [state]
        exact isState
      · have stays : u ∈ s.process.threads.erase t := left.threads ▸ member
        rcases (List.Nodup.mem_erase_iff sound.process.nodup).mp stays with ⟨ne, isThread⟩
        show (p.thread u).Idle
        rw [left.thread, update_of_ne ne]
        exact each u isThread

theorem Phase.report (unlocked : s.unsent = []) (notZombie : s.process.state ≠ .zombie) :
    (s.onProcess s.process.reported).Phase := by
  cases phase with
  | idle state _ each =>
    refine .idle (.inl ?_) unlocked each
    show (if s.process.state = .continued then KProcessState.running else s.process.state) = .running
    rcases state with running | continued
    · simp [running]
    · simp [continued]
  | stopping state signal goal last each notAll =>
    refine .stopping ?_ signal goal last each notAll
    show (if s.process.state = .continued then KProcessState.running else s.process.state) = .stopping
    simp [state]
  | stopped state _ last nonempty each =>
    refine .stopped ?_ unlocked last nonempty each
    show (if s.process.state = .continued then KProcessState.running else s.process.state) = .stopped
    simp [state]
  | continuing _ _ _ locked => exact absurd unlocked locked
  | zombie state => exact absurd state notZombie

end

theorem unlocked_iff : s.unlocked = true ↔ s.unsent = [] := by simp [unlocked]

theorem Phase.step (phase : s.Phase) (sound : s.Sound) (meets : Orderly s op)
    (stepped : s.step op = some s') : s'.Phase := by
  cases op with
  | StopProcess =>
    simp only [step, ite_none_right_eq_some, some.injEq, unlocked_iff] at stepped
    rcases stepped with ⟨unlocked, rfl⟩
    exact phase.beginStop unlocked meets.1 meets.2
  | ContinueProcess =>
    simp only [step, ite_none_right_eq_some, some.injEq, unlocked_iff] at stepped
    rcases stepped with ⟨unlocked, rfl⟩
    exact phase.beginContinue unlocked meets
  | send => exact phase.send sound stepped
  | deliver t frameMask =>
    obtain ⟨running, ⟨⟩⟩ := ite_none_right_eq_some.1 stepped
    exact phase.deliver sound running
  | dispatch t =>
    obtain ⟨⟨_, ready⟩, ⟨⟩⟩ := ite_none_right_eq_some.1 stepped
    exact phase.alike (KProcess.setState_alike (by simp [ready]) (by simp))
  | preempt t =>
    simp only [step, ite_none_right_eq_some, some.injEq, runs_iff] at stepped
    rcases stepped with ⟨⟨_, running⟩, rfl⟩
    exact phase.alike (KProcess.setState_alike (awake_of_running running) (by simp))
  | block t sleeping =>
    simp only [step, ite_none_right_eq_some, some.injEq, runs_iff] at stepped
    rcases stepped with ⟨⟨_, running⟩, rfl⟩
    exact phase.alike (KProcess.setState_alike (awake_of_running running) (by cases sleeping <;> simp))
  | wakeup t =>
    obtain ⟨_, ⟨⟩⟩ := ite_none_right_eq_some.1 stepped
    exact phase.alike KProcess.wakeup_alike
  | sigmask t contBlocked =>
    obtain ⟨_, ⟨⟩⟩ := ite_none_right_eq_some.1 stepped
    exact phase.alike (KProcess.alike_setThread ⟨Iff.rfl, rfl, rfl⟩)
  | spawn creator t kernelThread isInit contBlocked =>
    simp only [step, ite_none_right_eq_some, some.injEq, unlocked_iff] at stepped
    rcases stepped with ⟨⟨running, unlocked, fresh⟩, rfl⟩
    exact phase.spawn running unlocked fresh meets
  | exit t returnValue =>
    simp only [step, ite_none_right_eq_some, some.injEq, unlocked_iff] at stepped
    rcases stepped with ⟨⟨running, unlocked⟩, rfl⟩
    exact phase.exit sound running unlocked (s.process.exit_left t returnValue) meets
  | report =>
    simp only [step, ite_none_right_eq_some, some.injEq, unlocked_iff] at stepped
    rcases stepped with ⟨⟨unlocked, notZombie⟩, rfl⟩
    exact phase.report unlocked notZombie

/-! ## Whole runs -/

/-- No call is under way, and no thread has one of the two signals pending. -/
def Quiet (s : JobState) : Prop :=
  s.unsent = [] ∧ ∀ t ∈ s.process.threads,
    (s.process.thread t).pendingStop = false ∧ (s.process.thread t).pendingCont = false

/-- The process and its threads agree. A process without threads is not a stopped one. -/
structure Settled (s : JobState) : Prop where
  state : s.process.state = .stopped ↔
    s.process.threads ≠ [] ∧ ∀ t ∈ s.process.threads, (s.process.thread t).threadState = .Stopped
  count : s.process.stoppedThreadCount = s.process.stoppedThreads
  notStopping : s.process.state ≠ .stopping
  notContinuing : s.process.state ≠ .continuing
  continued : s.lastCall = some .SIGCONT →
    ∀ t ∈ s.process.threads, (s.process.thread t).threadState ≠ .Stopped

def Consistent (s : JobState) : Prop := s.Quiet → s.Settled

theorem Phase.consistent (phase : s.Phase) (sound : s.Sound) : s.Consistent := by
  intro quiet
  cases phase with
  | idle state _ each =>
    refine ⟨⟨fun stopped => ?_, fun all => ?_⟩, sound.process.counted, ?_, ?_, fun _ t member => (each t member).1⟩
    · rcases state with running | continued
      · exact absurd (running.symm.trans stopped) nofun
      · exact absurd (continued.symm.trans stopped) nofun
    · rcases exists_mem_of_ne_nil _ all.1 with ⟨t, member⟩
      exact absurd (all.2 t member) (each t member).1
    · rcases state with running | continued
      · simp [running]
      · simp [continued]
    · rcases state with running | continued
      · simp [running]
      · simp [continued]
  | stopping _ _ _ _ each notAll =>
    rcases notAll with ⟨t, member, awake⟩
    exact absurd ((each t member).stopped.mpr ⟨(quiet.2 t member).1, by simp [quiet.1]⟩) awake
  | stopped state _ last nonempty each =>
    exact ⟨⟨fun _ => ⟨nonempty, fun t member => (each t member).stopped⟩, fun _ => state⟩,
      sound.process.counted, by simp [state], by simp [state], fun again => absurd again last⟩
  | continuing _ _ _ locked => exact absurd quiet.1 locked
  | zombie state _ gone =>
    refine ⟨⟨fun stopped => ?_, fun all => absurd gone all.1⟩, sound.process.counted, by simp [state],
      by simp [state], fun _ t member => ?_⟩
    · exact absurd (state.symm.trans stopped) nofun
    · simp [gone] at member

theorem phase_initial (pid : Nat) (kernelThread isInit contBlocked : Bool) :
    (initial pid kernelThread isInit contBlocked).Phase :=
  .idle (.inl rfl) rfl fun _ _ => ⟨nofun, rfl⟩

/-- In an orderly run the process is settled whenever no signal is on its way. -/
theorem jobs_consistent (pid : Nat) (kernelThread isInit contBlocked : Bool) (s : JobState)
    (run : jobSystem.Reaches Orderly (initial pid kernelThread isInit contBlocked) s) : s.Consistent := by
  have both : s.Sound ∧ s.Phase :=
    run.invariant (fun s => s.Sound ∧ s.Phase)
      ⟨sound_initial pid kernelThread isInit contBlocked, phase_initial pid kernelThread isInit contBlocked⟩
      fun kept meets stepped => ⟨kept.1.step stepped, kept.2.step kept.1 meets stepped⟩
  exact both.2.consistent both.1

/-- A process with two threads is stopped, and both handle the signal. -/
theorem stop_consistent : ∃ s : JobState, s.process.threads.length = 2 ∧ s.process.state = .stopped ∧
    s.Consistent := by
  have start : jobSystem.Reaches Orderly (initial 2 false false false) _ :=
    (System.Reaches.refl.next (.dispatch 2) trivial rfl).next (.spawn 2 3 false false false)
      (fun same => by cases same) rfl
  have sent := ((start.next .StopProcess ⟨by decide, by decide⟩ rfl).next .send trivial rfl).next .send
    trivial rfl
  have first := sent.next (.deliver 2 none) trivial rfl
  have second := (first.next (.dispatch 3) trivial rfl).next (.deliver 3 none) trivial rfl
  exact ⟨_, rfl, rfl, jobs_consistent 2 false false false _ second⟩

/-! ## A continue that overtakes a stop -/

/-- The process is stopped and continued before its thread runs again. -/
def overtakenOps : List JobOp :=
  [.StopProcess, .send, .ContinueProcess, .send, .dispatch 2, .deliver 2 none]

/-- The thread handles the stop signal after it has been continued, and stays stopped. -/
theorem jobs_inconsistent : ¬∀ pid kernelThread isInit contBlocked s,
    jobSystem.Reaches anyStep (initial pid kernelThread isInit contBlocked) s → s.Consistent := by
  intro always
  have after : (jobSystem.after (initial 2 false false false) overtakenOps).map (fun s =>
      (s.process.state, s.unsent, s.process.threads, s.process.thread 2, s.lastCall)) =
      some (.continuing, [], [2], { threadState := .Stopped }, some .SIGCONT) := by decide +kernel
  rcases map_eq_some_iff.1 after with ⟨s, after, fields⟩
  simp only [Prod.mk.injEq] at fields
  rcases fields with ⟨state, unlocked, threads, thread, _⟩
  have quiet : s.Quiet := by
    refine ⟨unlocked, fun t member => ?_⟩
    rw [threads, mem_singleton] at member
    rw [member, thread]
    exact ⟨rfl, rfl⟩
  exact (always 2 false false false s (System.reaches_after after) quiet).notContinuing state

end JobState

end PadOS.Kernel.StopContinue
