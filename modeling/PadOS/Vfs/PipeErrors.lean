import PadOS.Vfs.PipeStream

/-! # How writes to a pipe end

The runs of readers and writers again, with the result of every write kept beside them. A
write that goes round its outer loop a second time may find an error there although it has
put bytes into the ring.
-/

namespace PadOS.Vfs.Pipe

open Transition List Option

variable {bits : Nat}

/-- A call's result, once it has one. -/
def Outcome.result? {α : Type} : Outcome α → Option (Except PErrorCode α)
  | .returns value => some (.ok value)
  | .throws code => some (.error code)
  | .waits => none

/-- `ended` is history: the number of each write that is finished, and its result. -/
structure Watched where
  state : State
  ended : List (Nat × Except PErrorCode Nat) := []

/-- The write that a step carries on, with what the step makes of it. -/
def writeOf (bits : Nat) (s : State) : Op → Option (Nat × WriteStep)
  | .write _ data nonblock => some (s.writes.length, s.pipe.write bits data nonblock)
  | .resume thread nonblock interrupted =>
    match s.waiting thread with
    | some (.writing id data written) =>
      some (id, s.pipe.writeResumed bits data written nonblock interrupted)
    | _ => none
  | _ => none

def endsOf (bits : Nat) (s : State) (op : Op) : List (Nat × Except PErrorCode Nat) :=
  ((writeOf bits s op).bind fun write => (Outcome.result? write.2.outcome).map (write.1, ·)).toList

def watchedStep (bits : Nat) (w : Watched) (op : Op) : Option Watched :=
  (step bits w.state op).map fun t => ⟨t, w.ended ++ endsOf bits w.state op⟩

def watchedSystem (bits : Nat) : System Watched Op := ⟨watchedStep bits⟩

def watchedStart (buffer : Nat → UInt8) : Watched := { state := initialState buffer }

/-! ## The property and the condition -/

/-- The bytes that a write has put into the pipe. -/
def bytesOf (copied : List (Nat × UInt8)) (id : Nat) : List UInt8 :=
  (copied.filter (·.1 = id)).map Prod.snd

/-- A write that threw has put nothing into the pipe, and one that returned a count has put
so many bytes of its data. -/
def Reports (w : Watched) : Prop :=
  ∀ id data, w.state.writes[id]? = some data →
    (∀ code, (id, .error code) ∈ w.ended → bytesOf w.state.copied id = []) ∧
    ∀ count, (id, .ok count) ∈ w.ended →
      count ≤ data.length ∧ bytesOf w.state.copied id = data.take count

/-- A pass that cannot wait, for want of a reader or as `O_NONBLOCK` says, has nothing to its
account if the ring is full now, and does not fill it up with a part of the data. -/
def Unspoiled (bits : Nat) (p : KPipeInode) (data : List UInt8) (written : Nat) (nonblock : Bool) : Prop :=
  p.readerCount = 0 ∨ nonblock = true →
    if pipeBufSize bits - p.bytesAvailable < needed bits data written then written = 0
    else data.length - written ≤ pipeBufSize bits - p.bytesAvailable

/-- The steps in which no error comes after a byte. -/
def ErrorsComeFirst (bits : Nat) : Condition Watched Op := fun w op =>
  match op with
  | .write _ data nonblock => w.state.pipe.readerCount ≠ 0 → Unspoiled bits w.state.pipe data 0 nonblock
  | .resume thread nonblock interrupted =>
    ∀ id data written, w.state.waiting thread = some (.writing id data written) →
      if interrupted then written = 0 else Unspoiled bits w.state.pipe data written nonblock
  | _ => True

/-! ## One step of a write -/

/-- A step of a write that does not end in an error with bytes to its account. -/
structure Honest (w : WriteStep) : Prop where
  counts : ∀ count, w.outcome = .returns count → count = w.written
  fails : ∀ code, w.outcome = .throws code → w.written = 0

variable {p : KPipeInode} {data : List UInt8} {written rounds : Nat} {nonblock interrupted : Bool}

theorem writeLoop_counts (count : Nat)
    (returns : (p.writeLoop bits data nonblock rounds written).outcome = .returns count) :
    count = (p.writeLoop bits data nonblock rounds written).written := by
  induction rounds generalizing p written with
  | zero =>
    cases returns
    rfl
  | succ rounds ih =>
    unfold KPipeInode.writeLoop at returns ⊢
    split at returns
    · rename_i more
      rw [if_pos more]
      dsimp only at returns ⊢
      split at returns
      · split at returns
        · cases returns
        · split at returns <;> cases returns
      · rename_i room
        rw [if_neg room]
        split at returns
        · rename_i atomic
          rw [if_pos atomic]
          cases returns
          rfl
        · rename_i large
          rw [if_neg large]
          exact ih returns
    · rename_i done
      rw [if_neg done]
      cases returns
      rfl

theorem writeLoop_throws {code : PErrorCode}
    (throws : (p.writeLoop bits data nonblock rounds written).outcome = .throws code) :
    (p.readerCount = 0 ∨ nonblock = true) ∧
      if pipeBufSize bits - p.bytesAvailable < needed bits data written then
        (p.writeLoop bits data nonblock rounds written).written = written
      else pipeBufSize bits - p.bytesAvailable < data.length - written := by
  induction rounds generalizing p written with
  | zero => cases throws
  | succ rounds ih =>
    unfold KPipeInode.writeLoop at throws ⊢
    split at throws
    · rename_i more
      rw [if_pos more]
      dsimp only at throws ⊢
      split at throws
      · rename_i full
        rw [if_pos full, if_pos full]
        split at throws
        · rename_i noReader
          rw [if_pos noReader]
          exact ⟨.inl noReader, rfl⟩
        · rename_i reader
          rw [if_neg reader]
          split at throws
          · rename_i now
            rw [if_pos now]
            exact ⟨.inr now, rfl⟩
          · cases throws
      · rename_i room
        rw [if_neg room]
        split at throws
        · cases throws
        · have later := ih throws
          refine ⟨later.1, ?_⟩
          -- a pass that copied all the rest would have ended the loop
          by_contra fits
          have all : min (data.length - written) (pipeBufSize bits - p.bytesAvailable) =
              data.length - written := by omega
          rw [all] at throws
          cases rounds with
          | zero => cases throws
          | succ rounds =>
            rw [KPipeInode.writeLoop, if_neg (by omega)] at throws
            cases throws
    · cases throws

theorem writeLoop_honest (unspoiled : Unspoiled bits p data written nonblock) :
    Honest (p.writeLoop bits data nonblock rounds written) := by
  refine ⟨fun count returns => writeLoop_counts count returns, ?_⟩
  intro code throws
  have how := writeLoop_throws throws
  have clean := unspoiled how.1
  split at clean
  · rename_i full
    rw [if_pos full] at how
    rw [how.2, clean]
  · rename_i room
    rw [if_neg room] at how
    omega

theorem write_honest (clean : p.readerCount ≠ 0 → Unspoiled bits p data 0 nonblock) :
    Honest (p.write bits data nonblock) := by
  unfold KPipeInode.write
  split
  · exact ⟨fun _ returns => by cases returns; rfl, fun _ throws => by cases throws⟩
  · split
    · exact ⟨fun _ returns => (by cases returns), fun _ _ => rfl⟩
    · rename_i reader
      exact writeLoop_honest (clean reader)

theorem writeResumed_honest
    (clean : if interrupted then written = 0 else Unspoiled bits p data written nonblock) :
    Honest (p.writeResumed bits data written nonblock interrupted) := by
  unfold KPipeInode.writeResumed
  cases interrupted with
  | true => exact ⟨fun _ returns => (by cases returns), fun _ _ => clean⟩
  | false => exact writeLoop_honest clean

/-! ## A run -/

theorem bytesOf_append {copied later : List (Nat × UInt8)} {id : Nat} :
    bytesOf (copied ++ later) id = bytesOf copied id ++ bytesOf later id := by
  simp [bytesOf]

theorem bytesOf_own {bytes : List UInt8} {id : Nat} :
    bytesOf (bytes.map fun byte => (id, byte)) id = bytes := by
  unfold bytesOf
  rw [List.filter_eq_self.2 (by simp), List.map_map]
  exact List.map_id _

theorem bytesOf_absent {copied : List (Nat × UInt8)} {id : Nat} (absent : Absent copied id) :
    bytesOf copied id = [] := by
  unfold bytesOf
  rw [map_eq_nil_iff, filter_eq_nil_iff]
  intro entry member
  simpa using absent entry member

/-- A waiting write has put into the pipe what it counts, and the writes that are finished have
put into it what they reported. -/
structure Accounted (bits : Nat) (w : Watched) : Prop where
  tracked : Tracked bits w.state
  pending : ∀ thread id data written, w.state.waiting thread = some (.writing id data written) →
    bytesOf w.state.copied id = data.take written
  finished : ∀ entry ∈ w.ended, entry.1 < w.state.writes.length ∧
    ∀ thread data written, w.state.waiting thread ≠ some (.writing entry.1 data written)
  reports : Reports w

variable {w : Watched} {t : State} {thread id before : Nat} {ws : WriteStep}

theorem Accounted.aside (accounted : Accounted bits w) (tracked : Tracked bits t)
    (writes : t.writes = w.state.writes) (copied : t.copied = w.state.copied)
    (waiting : ∀ thread id data written, t.waiting thread = some (.writing id data written) →
      w.state.waiting thread = some (.writing id data written)) :
    Accounted bits ⟨t, w.ended⟩ := by
  refine ⟨tracked, ?_, ?_, ?_⟩
  · intro thread id data written waits
    show bytesOf t.copied id = _
    rw [copied]
    exact accounted.pending thread id data written (waiting _ _ _ _ waits)
  · intro entry member
    have finished := accounted.finished entry member
    refine ⟨?_, fun thread data written waits => finished.2 thread data written (waiting _ _ _ _ waits)⟩
    show entry.1 < t.writes.length
    rw [writes]
    exact finished.1
  · intro id data found
    have found' : w.state.writes[id]? = some data := writes ▸ found
    show (∀ _, _ → bytesOf t.copied id = _) ∧ ∀ _, _ → _ ∧ bytesOf t.copied id = _
    rw [copied]
    exact accounted.reports id data found'

theorem Accounted.begin (accounted : Accounted bits w) (data : List UInt8) :
    Accounted bits ⟨{ w.state with writes := w.state.writes ++ [data] }, w.ended⟩ := by
  refine ⟨accounted.tracked.begin data, accounted.pending, ?_, ?_⟩
  · intro entry member
    have finished := accounted.finished entry member
    refine ⟨?_, finished.2⟩
    show entry.1 < (w.state.writes ++ [data]).length
    rw [length_append]
    omega
  · intro id data' found
    have finished : ∀ result, (id, result) ∈ w.ended → w.state.writes[id]? = some data' := by
      intro result member
      have old := (accounted.finished _ member).1
      have found' : (w.state.writes ++ [data])[id]? = some data' := found
      rwa [getElem?_append_left old] at found'
    exact ⟨fun code member => (accounted.reports id data' (finished _ member)).1 code member,
      fun count member => (accounted.reports id data' (finished _ member)).2 count member⟩

theorem bytesOf_afterWrite (keeps : ws.Keeps bits w.state.pipe data before)
    (counted : bytesOf w.state.copied id = data.take before) :
    bytesOf (w.state.afterWrite thread id data before ws).copied id = data.take ws.written := by
  have onwards := keeps.onwards
  show bytesOf (w.state.copied ++ _) id = _
  rw [bytesOf_append, bytesOf_own, counted, ← take_add, Nat.add_sub_cancel' onwards]

theorem bytesOf_other {other : Nat} (differs : other ≠ id) :
    bytesOf (w.state.afterWrite thread id data before ws).copied other = bytesOf w.state.copied other := by
  show bytesOf (w.state.copied ++ _) other = _
  rw [bytesOf_append, bytesOf_absent (absent_map differs.symm), append_nil]

theorem Accounted.afterWrite (accounted : Accounted bits w)
    (tracked : Tracked bits (w.state.afterWrite thread id data before ws))
    (found : w.state.writes[id]? = some data) (keeps : ws.Keeps bits w.state.pipe data before)
    (counted : bytesOf w.state.copied id = data.take before)
    (notOver : ∀ entry ∈ w.ended, entry.1 ≠ id) (only : ∀ other data' written, other ≠ thread →
      w.state.waiting other ≠ some (.writing id data' written)) (honest : Honest ws) :
    Accounted bits ⟨w.state.afterWrite thread id data before ws,
      w.ended ++ ((Outcome.result? ws.outcome).map (id, ·)).toList⟩ := by
  have inside := (List.getElem?_eq_some_iff.1 found).1
  have own : bytesOf (w.state.afterWrite thread id data before ws).copied id = data.take ws.written :=
    bytesOf_afterWrite keeps counted
  refine ⟨tracked, ?_, ?_, ?_⟩
  · intro other id' data' written waits
    by_cases same : other = thread
    · rw [same] at waits
      cases (Tracked.leave_self waits).1
      exact own
    · have waits' := (Tracked.leave_of_ne same).symm.trans waits
      have differs : id' ≠ id := by
        rintro rfl
        exact only other data' written same waits'
      exact (bytesOf_other differs).trans (accounted.pending other id' data' written waits')
  · intro entry member
    rcases mem_append.1 member with old | new
    · have finished := accounted.finished entry old
      refine ⟨finished.1, fun other data' written waits => ?_⟩
      by_cases same : other = thread
      · rw [same] at waits
        cases (Tracked.leave_self waits).1
        exact notOver entry old rfl
      · exact finished.2 other data' written ((Tracked.leave_of_ne same).symm.trans waits)
    · rcases map_eq_some_iff.1 (mem_toList.1 new) with ⟨result, ended, rfl⟩
      refine ⟨inside, fun other data' written waits => ?_⟩
      by_cases same : other = thread
      · rw [same] at waits
        rw [(Tracked.leave_self waits).2] at ended
        cases ended
      · exact only other data' written same ((Tracked.leave_of_ne same).symm.trans waits)
  · intro id' data' found'
    by_cases same : id' = id
    · cases same
      obtain rfl := some.inj (found.symm.trans found')
      have result : ∀ r, (id, r) ∈ w.ended ++ ((Outcome.result? ws.outcome).map (id, ·)).toList →
          Outcome.result? ws.outcome = some r := by
        intro r member
        rcases mem_append.1 member with old | new
        · exact absurd rfl (notOver _ old)
        · rcases map_eq_some_iff.1 (mem_toList.1 new) with ⟨r', ended, pair⟩
          cases pair
          exact ended
      constructor
      · intro code member
        have ended := result _ member
        show bytesOf (w.state.afterWrite thread id data before ws).copied id = []
        rw [own]
        cases how : ws.outcome with
        | returns count => simp [how, Outcome.result?] at ended
        | throws code => rw [honest.fails code how, take_zero]
        | waits => simp [how, Outcome.result?] at ended
      · intro count member
        have ended := result _ member
        cases how : ws.outcome with
        | returns count' =>
          obtain rfl : count' = count := by simpa [how, Outcome.result?] using ended
          rw [honest.counts count' how]
          exact ⟨keeps.within, own⟩
        | throws code | waits => simp [how, Outcome.result?] at ended
    · have old : ∀ r, (id', r) ∈ w.ended ++ ((Outcome.result? ws.outcome).map (id, ·)).toList →
          (id', r) ∈ w.ended := by
        intro r member
        rcases mem_append.1 member with old | new
        · exact old
        · rcases map_eq_some_iff.1 (mem_toList.1 new) with ⟨r', -, pair⟩
          exact absurd (congrArg Prod.fst pair).symm same
      have before := accounted.reports id' data' found'
      show (∀ _, _ → bytesOf _ id' = _) ∧ ∀ _, _ → _ ∧ bytesOf _ id' = _
      rw [bytesOf_other same]
      exact ⟨fun code member => before.1 code (old _ member), fun count member => before.2 count (old _ member)⟩

theorem Accounted.initial (buffer : Nat → UInt8) : Accounted bits (watchedStart buffer) where
  tracked := Tracked.initial buffer
  pending := fun _ _ _ _ found => by simp [watchedStart, initialState] at found
  finished := fun _ member => by simp [watchedStart] at member
  reports := fun _ _ found => by simp [watchedStart, initialState] at found

theorem Accounted.step {op : Op} {w' : Watched} (accounted : Accounted bits w)
    (clean : ErrorsComeFirst bits w op) (moves : watchedStep bits w op = some w') :
    Accounted bits w' := by
  rcases map_eq_some_iff.1 moves with ⟨t, applies, rfl⟩
  have tracked := accounted.tracked.step applies
  cases op with
  | openFile hasWriteAccess =>
    cases applies
    rw [show w.ended ++ endsOf bits w.state (.openFile hasWriteAccess) = w.ended from append_nil _]
    cases hasWriteAccess <;> exact accounted.aside tracked rfl rfl fun _ _ _ _ waits => waits
  | closeFile hasWriteAccess =>
    cases applies
    rw [show w.ended ++ endsOf bits w.state (.closeFile hasWriteAccess) = w.ended from append_nil _]
    cases hasWriteAccess <;> exact accounted.aside tracked rfl rfl fun _ _ _ _ waits => waits
  | read thread length nonblock =>
    rw [show w.ended ++ endsOf bits w.state (.read thread length nonblock) = w.ended from
      append_nil _]
    simp only [Pipe.step] at applies
    split at applies
    · cases applies
      exact accounted.aside tracked rfl rfl fun _ _ _ _ waits => Tracked.leave_writing waits
    · cases applies
  | write thread data nonblock =>
    simp only [Pipe.step] at applies
    split at applies
    · cases applies
      have begun := accounted.begin data
      apply begun.afterWrite tracked
      · show (w.state.writes ++ [data])[w.state.writes.length]? = some data
        simp
      · exact KPipeInode.write_keeps accounted.tracked.intact
      · rw [take_zero]
        apply bytesOf_absent
        intro entry member same
        have := accounted.tracked.numbered entry member
        omega
      · intro entry member same
        have := (accounted.finished entry member).1
        omega
      · intro other data' written _ waits
        have := (List.getElem?_eq_some_iff.1 (accounted.tracked.known other _ data' written waits).1).1
        omega
      · exact write_honest clean
    · cases applies
  | resume thread nonblock interrupted =>
    simp only [Pipe.step] at applies
    split at applies
    · cases applies
    · rename_i length waits
      cases applies
      have nothing : endsOf bits w.state (.resume thread nonblock interrupted) = [] := by
        simp [endsOf, writeOf, waits]
      rw [nothing, append_nil]
      exact accounted.aside tracked rfl rfl fun _ _ _ _ waits => Tracked.leave_writing waits
    · rename_i id data written waits
      cases applies
      have known := accounted.tracked.known thread id data written waits
      have pending := accounted.tracked.pending thread id data written waits
      have ends : endsOf bits w.state (.resume thread nonblock interrupted) =
          ((Outcome.result? (w.state.pipe.writeResumed bits data written nonblock interrupted).outcome).map
            (id, ·)).toList := by
        simp [endsOf, writeOf, waits]
      rw [ends]
      apply accounted.afterWrite tracked known.1
      · exact KPipeInode.writeResumed_keeps accounted.tracked.intact known.2 fun small => (pending small).1
      · exact accounted.pending thread id data written waits
      · intro entry member same
        exact (accounted.finished entry member).2 thread data written (same ▸ waits)
      · intro other data' written' differs waits'
        exact differs (accounted.tracked.apart other thread id data' data written' written waits' waits)
      · exact writeResumed_honest (clean id data written waits)

/-- Where every step of a run finds its errors first, what a write reports is what it did. -/
theorem reports_of_reaches (bits : Nat) (buffer : Nat → UInt8) (w : Watched)
    (run : (watchedSystem bits).Reaches (ErrorsComeFirst bits) (watchedStart buffer) w) : Reports w :=
  (run.invariant (Accounted bits) (Accounted.initial buffer) fun accounted clean applies =>
    accounted.step clean applies).reports

/-- In a ring of four bytes the second write finds one free and throws without a trace. -/
theorem reports_of_reaches_full : ∃ w, (watchedSystem 2).Reaches (ErrorsComeFirst 2) (watchedStart fun _ => 0) w ∧
    w.ended = [(0, .ok 3), (1, .error .wouldblock)] ∧ Reports w := by
  have opened : (watchedSystem 2).Reaches (ErrorsComeFirst 2) (watchedStart fun _ => 0) _ :=
    System.Reaches.refl.next (.openFile false) trivial rfl
  have first := opened.next (.write 0 [1, 2, 3] true) (fun _ _ => by decide) rfl
  have run := first.next (.write 1 [4, 5] true) (fun _ _ => by decide) rfl
  exact ⟨_, run, rfl, reports_of_reaches 2 _ _ run⟩

/-- A non-blocking write of five bytes fills a ring of four with a part of them and throws. -/
theorem write_throws_with_trace : ¬∀ (bits : Nat) (buffer : Nat → UInt8) (w : Watched),
    (watchedSystem bits).Reaches anyStep (watchedStart buffer) w → Reports w := by
  intro reports
  have opened : (watchedSystem 2).Reaches anyStep (watchedStart fun _ => 0) _ :=
    System.Reaches.refl.next (.openFile false) trivial rfl
  have run := opened.next (.write 0 [1, 2, 3, 4, 5] true) trivial rfl
  have nothing := (reports 2 _ _ run 0 _ rfl).1 .wouldblock (by decide)
  exact absurd nothing (by decide)

end PadOS.Vfs.Pipe
