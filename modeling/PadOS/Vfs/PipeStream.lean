import PadOS.Core.Transition
import PadOS.Vfs.Pipe

/-! # The byte stream of a pipe

Any number of threads read and write one pipe. Every step of a call may be followed by
steps of other calls, and a call that waits may be woken at any time.
-/

namespace PadOS.Vfs.Pipe

open Transition List

variable {bits : Nat}

/-- A call that waits. `id` numbers the writes. -/
inductive Call
  | reading (length : Nat)
  | writing (id : Nat) (data : List UInt8) (written : Nat)

/-- `writes`, `returned` and `copied` are history: the data of every write, the bytes
that reads returned, and the bytes that writes copied with the number of the write. -/
structure State where
  pipe : KPipeInode
  waiting : Nat → Option Call := fun _ => none
  writes : List (List UInt8) := []
  returned : List UInt8 := []
  copied : List (Nat × UInt8) := []

/-- `nonblock` is the flag of the file as the step finds it. -/
inductive Op
  | openFile (hasWriteAccess : Bool)
  | closeFile (hasWriteAccess : Bool)
  | read (thread length : Nat) (nonblock : Bool)
  | write (thread : Nat) (data : List UInt8) (nonblock : Bool)
  | resume (thread : Nat) (nonblock interrupted : Bool)

namespace State

variable {α : Type}

/-- The call of a thread waits, or is over. -/
def leave (s : State) (thread : Nat) (call : Call) (outcome : Outcome α) :
    Nat → Option Call :=
  Function.update s.waiting thread <| match outcome with
    | .waits => some call
    | _ => none

def afterRead (s : State) (thread length : Nat) (r : KPipeInode × Outcome (List UInt8)) : State :=
  { s with
    pipe := r.1
    waiting := s.leave thread (.reading length) r.2
    returned := s.returned ++ returnedBytes r.2 }

def afterWrite (s : State) (thread id : Nat) (data : List UInt8) (before : Nat) (w : WriteStep) :
    State :=
  { s with
    pipe := w.pipe
    waiting := s.leave thread (.writing id data w.written) w.outcome
    copied := s.copied ++ ((data.drop before).take (w.written - before)).map fun byte => (id, byte) }

def openFile (s : State) (hasWriteAccess : Bool) : State :=
  if hasWriteAccess then { s with pipe := { s.pipe with writerCount := s.pipe.writerCount + 1 } }
  else { s with pipe := { s.pipe with readerCount := s.pipe.readerCount + 1 } }

def closeFile (s : State) (hasWriteAccess : Bool) : State :=
  if hasWriteAccess then { s with pipe := { s.pipe with writerCount := s.pipe.writerCount - 1 } }
  else { s with pipe := { s.pipe with readerCount := s.pipe.readerCount - 1 } }

end State

def step (bits : Nat) (s : State) : Op → Option State
  | .openFile hasWriteAccess => some (s.openFile hasWriteAccess)
  | .closeFile hasWriteAccess => some (s.closeFile hasWriteAccess)
  | .read thread length nonblock =>
    match s.waiting thread with
    | none => some (s.afterRead thread length (s.pipe.read bits length nonblock))
    | some _ => none
  | .write thread data nonblock =>
    match s.waiting thread with
    | none =>
      some ({ s with writes := s.writes ++ [data] }.afterWrite thread s.writes.length data 0
        (s.pipe.write bits data nonblock))
    | some _ => none
  | .resume thread nonblock interrupted =>
    match s.waiting thread with
    | none => none
    | some (.reading length) =>
      some (s.afterRead thread length (s.pipe.readResumed bits length nonblock interrupted))
    | some (.writing id data written) =>
      some (s.afterWrite thread id data written
        (s.pipe.writeResumed bits data written nonblock interrupted))

def system (bits : Nat) : System State Op := ⟨step bits⟩

/-- A pipe as `kpipe_trw` makes it, before its files are opened. -/
def initialState (buffer : Nat → UInt8) : State := { pipe := { buffer := buffer } }

/-! ## The stream -/

def Absent (copied : List (Nat × UInt8)) (id : Nat) : Prop := ∀ entry ∈ copied, entry.1 ≠ id

/-- All bytes of a write, side by side. -/
def Together (copied : List (Nat × UInt8)) (id : Nat) (data : List UInt8) : Prop :=
  ∃ earlier later, copied = earlier ++ data.map (fun byte => (id, byte)) ++ later ∧
    Absent earlier id ∧ Absent later id

structure IsFifo (bits : Nat) (s : State) : Prop where
  fits : s.pipe.bytesAvailable ≤ pipeBufSize bits
  closes : s.pipe.writePos = (s.pipe.readPos + s.pipe.bytesAvailable) % pipeBufSize bits
  stream : s.returned ++ s.pipe.content bits = s.copied.map Prod.snd
  atomic : ∀ id data, s.writes[id]? = some data → data.length ≤ pipeBufSize bits →
    Together s.copied id data ∨ Absent s.copied id

/-- A waiting write is the only one of its number, and an atomic one has copied nothing. -/
structure Tracked (bits : Nat) (s : State) : Prop where
  intact : s.pipe.RingIntact bits
  fifo : IsFifo bits s
  numbered : ∀ entry ∈ s.copied, entry.1 < s.writes.length
  known : ∀ thread id data written, s.waiting thread = some (.writing id data written) →
    s.writes[id]? = some data ∧ written ≤ data.length
  pending : ∀ thread id data written, s.waiting thread = some (.writing id data written) →
    data.length ≤ pipeBufSize bits → written = 0 ∧ Absent s.copied id
  apart : ∀ thread other id data data' written written',
    s.waiting thread = some (.writing id data written) →
    s.waiting other = some (.writing id data' written') → thread = other

theorem absent_append {copied later : List (Nat × UInt8)} {id : Nat} :
    Absent (copied ++ later) id ↔ Absent copied id ∧ Absent later id := forall_mem_append

theorem absent_map {bytes : List UInt8} {id other : Nat} (differs : other ≠ id) :
    Absent (bytes.map fun byte => (other, byte)) id := by
  intro entry member
  rcases mem_map.1 member with ⟨byte, _, rfl⟩
  exact differs

theorem Together.append {copied later : List (Nat × UInt8)} {id : Nat} {data : List UInt8}
    (together : Together copied id data) (absent : Absent later id) :
    Together (copied ++ later) id data := by
  rcases together with ⟨earlier, between, rfl, before, after⟩
  exact ⟨earlier, between ++ later, by rw [append_assoc], before,
    absent_append.2 ⟨after, absent⟩⟩

namespace Tracked

variable {s : State} {thread : Nat}

theorem initial (buffer : Nat → UInt8) : Tracked bits (initialState buffer) where
  intact :=
    { fits := Nat.zero_le _
      inside := pipeBufSize_pos
      closes := (Nat.zero_mod _).symm }
  fifo :=
    { fits := Nat.zero_le _
      closes := (Nat.zero_mod _).symm
      stream := rfl
      atomic := fun _ _ found => by simp [initialState] at found }
  numbered := fun _ member => by simp [initialState] at member
  known := fun _ _ _ _ found => by simp [initialState] at found
  pending := fun _ _ _ _ found => by simp [initialState] at found
  apart := fun _ _ _ _ _ _ _ found => by simp [initialState] at found

theorem counts (tracked : Tracked bits s) (readers writers : Int) :
    Tracked bits { s with pipe := { s.pipe with readerCount := readers, writerCount := writers } } where
  intact := ⟨tracked.intact.fits, tracked.intact.inside, tracked.intact.closes⟩
  fifo := ⟨tracked.fifo.fits, tracked.fifo.closes, tracked.fifo.stream, tracked.fifo.atomic⟩
  numbered := tracked.numbered
  known := tracked.known
  pending := tracked.pending
  apart := tracked.apart

theorem leave_of_ne {call : Call} {outcome : Outcome α} {other : Nat}
    (differs : other ≠ thread) : s.leave thread call outcome other = s.waiting other := by
  simp [State.leave, differs]

theorem leave_self {call found : Call} {outcome : Outcome α}
    (waits : s.leave thread call outcome thread = some found) : found = call ∧ outcome = .waits := by
  cases outcome <;> simp_all [State.leave]

theorem leave_writing {outcome : Outcome α} {length id written other : Nat}
    {data : List UInt8}
    (waits : s.leave thread (.reading length) outcome other = some (.writing id data written)) :
    s.waiting other = some (.writing id data written) := by
  by_cases same : other = thread
  · rw [same] at waits
    cases (leave_self waits).1
  · rwa [leave_of_ne same] at waits

section

variable (tracked : Tracked bits s)

include tracked

theorem afterRead {length : Nat} {r : KPipeInode × Outcome (List UInt8)}
    (keeps : r.1.RingIntact bits ∧ returnedBytes r.2 ++ r.1.content bits = s.pipe.content bits) :
    Tracked bits (s.afterRead thread length r) where
  intact := keeps.1
  fifo :=
    { fits := keeps.1.fits
      closes := keeps.1.closes
      stream := by
        show s.returned ++ returnedBytes r.2 ++ r.1.content bits = _
        rw [append_assoc, keeps.2]
        exact tracked.fifo.stream
      atomic := tracked.fifo.atomic }
  numbered := tracked.numbered
  known := fun _ _ _ _ waits => tracked.known _ _ _ _ (leave_writing waits)
  pending := fun _ _ _ _ waits => tracked.pending _ _ _ _ (leave_writing waits)
  apart := fun _ _ _ _ _ _ _ waits waits' =>
    tracked.apart _ _ _ _ _ _ _ (leave_writing waits) (leave_writing waits')

theorem begin (data : List UInt8) :
    Tracked bits { s with writes := s.writes ++ [data] } where
  intact := tracked.intact
  fifo :=
    { fits := tracked.fifo.fits
      closes := tracked.fifo.closes
      stream := tracked.fifo.stream
      atomic := by
        intro id data' found small
        by_cases old : id < s.writes.length
        · rw [List.getElem?_append_left old] at found
          exact tracked.fifo.atomic id data' found small
        · right
          intro entry member same
          have := tracked.numbered entry member
          omega }
  numbered := by
    intro entry member
    have := tracked.numbered entry member
    rw [length_append]
    omega
  known := by
    intro thread id data' written waits
    have found := tracked.known thread id data' written waits
    have old := (List.getElem?_eq_some_iff.1 found.1).1
    rw [List.getElem?_append_left old]
    exact found
  pending := tracked.pending
  apart := tracked.apart

theorem afterWrite {id before : Nat} {data : List UInt8} {w : WriteStep}
    (found : s.writes[id]? = some data) (keeps : w.Keeps bits s.pipe data before)
    (fresh : data.length ≤ pipeBufSize bits → before = 0 ∧ Absent s.copied id)
    (only : ∀ other data' written, other ≠ thread → s.waiting other ≠ some (.writing id data' written)) :
    Tracked bits (s.afterWrite thread id data before w) := by
  have inside := (List.getElem?_eq_some_iff.1 found).1
  -- a number other than `id` is not among the bytes copied now
  have others : ∀ other, other ≠ id →
      Absent (((data.drop before).take (w.written - before)).map fun byte => (id, byte)) other :=
    fun other differs => absent_map differs.symm
  have waiting : ∀ {other id' data' written},
      (s.afterWrite thread id data before w).waiting other = some (.writing id' data' written) →
      (other = thread ∧ id' = id ∧ data' = data ∧ written = w.written ∧ w.outcome = .waits) ∨
        (other ≠ thread ∧ id' ≠ id ∧ s.waiting other = some (.writing id' data' written)) := by
    intro other id' data' written waits
    by_cases same : other = thread
    · rw [same] at waits
      have left := leave_self waits
      cases left.1
      exact .inl ⟨same, rfl, rfl, rfl, left.2⟩
    · have waits' := (leave_of_ne same).symm.trans waits
      refine .inr ⟨same, ?_, waits'⟩
      rintro rfl
      exact only other data' written same waits'
  constructor
  case intact => exact keeps.intact
  case fifo =>
    constructor
    case fits => exact keeps.intact.fits
    case closes => exact keeps.intact.closes
    case stream =>
      show s.returned ++ w.pipe.content bits = (s.copied ++ _).map Prod.snd
      rw [keeps.content, ← append_assoc, tracked.fifo.stream, map_append, map_map]
      congr 1
      exact (map_id _).symm
    case atomic =>
      intro id' data' found' small
      show Together (s.copied ++ _) id' data' ∨ Absent (s.copied ++ _) id'
      by_cases same : id' = id
      · cases same
        cases Option.some.inj (found.symm.trans found')
        have absent := fresh small
        rcases keeps.atomic small with nothing | all
        · right
          rw [nothing, Nat.sub_self]
          exact absent_append.2 ⟨absent.2, fun entry member => by simp at member⟩
        · left
          rw [all.1, absent.1, drop_zero, Nat.sub_zero, take_length]
          refine ⟨s.copied, [], (append_nil _).symm, absent.2, fun entry member => by simp at member⟩
      · rcases tracked.fifo.atomic id' data' found' small with together | absent
        · exact .inl (together.append (others id' same))
        · exact .inr (absent_append.2 ⟨absent, others id' same⟩)
  case numbered =>
    intro entry member
    rcases mem_append.1 member with old | new
    · exact tracked.numbered entry old
    · rcases mem_map.1 new with ⟨byte, _, rfl⟩
      exact inside
  case known =>
    intro other id' data' written waits
    rcases waiting waits with ⟨_, rfl, rfl, rfl, _⟩ | ⟨_, _, waits'⟩
    · exact ⟨found, keeps.within⟩
    · exact tracked.known other id' data' written waits'
  case pending =>
    intro other id' data' written waits small
    rcases waiting waits with ⟨_, rfl, rfl, rfl, stops⟩ | ⟨_, differs, waits'⟩
    · have absent := fresh small
      rcases keeps.atomic small with nothing | all
      · refine ⟨nothing.trans absent.1, ?_⟩
        show Absent (s.copied ++ _) id'
        rw [nothing, Nat.sub_self]
        exact absent_append.2 ⟨absent.2, fun entry member => by simp at member⟩
      · rw [all.2] at stops
        cases stops
    · have old := tracked.pending other id' data' written waits' small
      exact ⟨old.1, absent_append.2 ⟨old.2, others id' differs⟩⟩
  case apart =>
    intro one two id' data' data'' written written' waits waits'
    rcases waiting waits with ⟨rfl, rfl, _⟩ | ⟨_, differs, old⟩
    · rcases waiting waits' with ⟨rfl, _⟩ | ⟨_, differs, _⟩
      · rfl
      · exact absurd rfl differs
    · rcases waiting waits' with ⟨_, rfl, _⟩ | ⟨_, _, old'⟩
      · exact absurd rfl differs
      · exact tracked.apart _ _ _ _ _ _ _ old old'

theorem step {op : Op} {t : State} (applies : step bits s op = some t) :
    Tracked bits t := by
  cases op with
  | openFile hasWriteAccess | closeFile hasWriteAccess =>
    cases applies
    cases hasWriteAccess with
    | true => exact tracked.counts _ _
    | false => exact tracked.counts _ _
  | read thread length nonblock =>
    simp only [Pipe.step] at applies
    split at applies
    · cases applies
      exact tracked.afterRead (KPipeInode.read_keeps tracked.intact)
    · cases applies
  | write thread data nonblock =>
    simp only [Pipe.step] at applies
    split at applies
    · cases applies
      apply (tracked.begin data).afterWrite
      · show (s.writes ++ [data])[s.writes.length]? = some data
        simp
      · exact KPipeInode.write_keeps tracked.intact
      · intro _
        refine ⟨rfl, fun entry member same => ?_⟩
        have := tracked.numbered entry member
        omega
      · intro other data' written _ waits
        have := (List.getElem?_eq_some_iff.1 (tracked.known other _ data' written waits).1).1
        omega
    · cases applies
  | resume thread nonblock interrupted =>
    simp only [Pipe.step] at applies
    split at applies
    · cases applies
    · cases applies
      exact tracked.afterRead (KPipeInode.readResumed_keeps tracked.intact)
    · rename_i id data written waits
      cases applies
      have known := tracked.known thread id data written waits
      have pending := tracked.pending thread id data written waits
      apply tracked.afterWrite known.1
      · exact KPipeInode.writeResumed_keeps tracked.intact known.2 fun small => (pending small).1
      · exact pending
      · intro other data' written' differs waits'
        exact differs (tracked.apart other thread id data' data written' written waits' waits)

end

theorem reached {buffer : Nat → UInt8}
    (run : (system bits).Reaches anyStep (initialState buffer) s) : Tracked bits s :=
  run.invariant (Tracked bits) (initial buffer) fun tracked _ applies => tracked.step applies

end Tracked

/-- Every state that readers and writers reach in any order of steps. -/
theorem isFifo_of_reaches {s : State} {buffer : Nat → UInt8}
    (run : (system bits).Reaches anyStep (initialState buffer) s) : IsFifo bits s :=
  (Tracked.reached run).fifo

/-- The second write goes round the end of a ring of four bytes. -/
theorem isFifo_of_reaches_wrapped : ∃ s, (system 2).Reaches anyStep (initialState fun _ => 0) s ∧
    s.returned = [1, 2, 3] ∧ s.pipe.content 2 = [4, 5] ∧ IsFifo 2 s := by
  have opened : (system 2).Reaches anyStep (initialState fun _ => 0) _ :=
    System.Reaches.refl.next (.openFile false) trivial rfl
  have written := opened.next (.write 0 [1, 2, 3] false) trivial rfl
  have read := written.next (.read 1 5 false) trivial rfl
  have run := read.next (.write 0 [4, 5] false) trivial rfl
  exact ⟨_, run, rfl, rfl, isFifo_of_reaches run⟩

end PadOS.Vfs.Pipe
