import PadOS.Vfs.PtyLoops

/-! # What terminal writes report

A log is kept for the last `WriteToMaster` or `WriteToSlave` of each thread, with an entry for
every byte that the loop dealt with and the rings as they were before and afterwards. What the call
returns is compared with what became of the rings.
-/

namespace PadOS.Vfs.Pty

open Transition RingBuffer List Option State
open Function (update_self update_of_ne update)

/-- A byte that the loop has dealt with: where it looked at it, and the step that dealt with it. -/
structure Entry where
  byte : UInt8
  looked : State
  before : State
  after : State
  call : Call

namespace Entry

def due (e : Entry) : Effect := e.looked.due e.call e.byte

/-- The byte does not signal, and its echo finds room. -/
def counted (e : Entry) : Bool :=
  match e.call with
  | .toSlave modes _ _ _ _ =>
    !decide (e.looked.signals e.byte) && decide (e.before.EchoRoom modes e.byte)
  | _ => true

/-- All that `WriteToMaster` makes of the byte finds room. -/
def Fits (e : Entry) : Prop :=
  match e.call, e.due with
  | .toMaster _ _ _ _ _, .stored out => out.length ≤ e.before.room .master
  | _, _ => True

/-- What the echo is to come to. It is a `WriteToMaster` of its own, for the one byte. -/
def echoDue (e : Entry) : List UInt8 :=
  match e.call with
  | .toSlave modes _ _ _ _ =>
    if e.looked.signals e.byte then [] else e.before.echoDue modes e.byte
  | _ => []

/-- The echo finds room whole, or the ring of the master has no room at all. -/
def EchoFits (e : Entry) : Prop :=
  e.echoDue.length ≤ e.before.room .master ∨ e.before.room .master = 0

/-- The byte is counted, and there is room for all that is made of it, the echo included. -/
structure Regular (e : Entry) : Prop where
  counted : e.counted = true
  fits : e.Fits
  echo : e.EchoFits

/-- The step has made of the rings what the byte comes to. An echo comes whole or not at all. -/
def Made (e : Entry) : Prop :=
  match e.call with
  | .toMaster _ _ _ _ _ =>
    e.due.Happened Side.master.bits (e.before.inode .master) (e.after.inode .master) ∧
      e.after.inode .slave = e.before.inode .slave
  | .toSlave _ _ _ _ _ =>
    e.due.Happened Side.slave.bits (e.before.inode .slave) (e.after.inode .slave) ∧
      (KPTYInode.Gains Side.master.bits (e.before.inode .master) (e.after.inode .master) e.echoDue ∨
        e.after.inode .master = e.before.inode .master)
  | _ => False

end Entry

/-- The last write of a thread. `idle` are its steps that dealt with no byte, before and afterwards,
`looked` is the state where the loop looked at the byte that it is at, and `outcome` what the call
came to, once it has. -/
structure CallLog where
  input : List UInt8
  entries : List Entry
  idle : List (State × State)
  looked : State
  outcome : Option Progress

namespace Call

/-- The call stands in a `Write` that waits. -/
def pends : Call → Bool
  | .toMaster _ _ (some _) _ _ | .toSlave _ _ (some _) _ _ => true
  | _ => false

def isLoop : Call → Bool
  | .toMaster _ _ _ _ _ | .toSlave _ _ _ _ _ => true
  | _ => false

end Call

namespace CallLog

def lookedAt (l : CallLog) (s : State) (call : Call) : State := if call.pends then l.looked else s

/-- The entry that a step adds. -/
def added (l : CallLog) (s : State) (interrupted : Bool) (call : Call) : List Entry :=
  match l.input[l.entries.length]? with
  | none => []
  | some byte =>
    if s.deals call ((l.lookedAt s call).due call byte) then
      [⟨byte, l.lookedAt s call, s, (s.advance interrupted call).1, call⟩]
    else []

def record (l : CallLog) (s : State) (interrupted : Bool) (call : Call) : CallLog :=
  if call.isLoop then
    { l with
      entries := l.entries ++ l.added s interrupted call
      idle := l.idle ++
        if l.added s interrupted call = [] then [(s, (s.advance interrupted call).1)] else []
      looked := l.lookedAt s call
      outcome := (s.advance interrupted call).2.ended }
  else l

/-- The call has reported what it did: as many bytes as it returns have come to what they were to
come to, in the rings, and its other steps have left the rings alone. -/
structure Exact (l : CallLog) : Prop where
  returns : ∀ n, l.outcome = some (.returns n) → l.entries.map Entry.byte = l.input.take n ∧
    l.entries.length = n ∧ ∀ e ∈ l.entries, e.Made
  throws : ∀ code, l.outcome = some (.throws code) → l.entries = []
  idle : ∀ step ∈ l.idle, step.2.inode = step.1.inode

end CallLog

/-- A run beside its logs. -/
structure Observed where
  state : State
  log : Nat → CallLog

namespace Observed

def logAfter (o : Observed) : Op → Nat → CallLog
  | .writeToMaster thread bytes _ _ | .writeToSlave thread bytes _ =>
    update o.log thread ⟨bytes, [], [], o.state, none⟩
  | .advance thread interrupted =>
    match o.state.call thread with
    | some call =>
      update o.log thread ((o.log thread).record o.state interrupted call)
    | none => o.log
  | _ => o.log

def initial : Observed where
  state := initialState
  log := fun _ => ⟨[], [], [], initialState, none⟩

end Observed

def observedSystem : System Observed Op where
  step o op := (system.step o.state op).map fun state => { state, log := o.logAfter op }

variable {s t : State} {side : Side} {out rest : List UInt8} {nonblock interrupted : Bool} {written count : Nat}
  {byte : UInt8} {progress : Progress} {modes : SlaveModes}

namespace Call

def bytesWritten : Call → Nat
  | .toMaster _ _ _ _ count | .toSlave _ _ _ _ count => count
  | _ => 0

end Call

/-- The write positions are inside their rings, and the ring of the slave, which knows no packet mode,
counts no more bytes than it has cells. -/
structure State.Inside (s : State) : Prop where
  position : ∀ side, (s.inode side).writePos < 2 ^ side.bits
  plain : (s.inode .slave).packetMode = false
  available : (s.inode .slave).bytesAvailable ≤ 2 ^ Side.slave.bits

theorem SameFrame.keepsInside (frame : SameFrame s t) (inside : s.Inside) : t.Inside where
  position side := frame.inside side (inside.position side)
  plain := (frame.packetMode .slave).trans inside.plain
  available := frame.available .slave inside.plain inside.available

namespace CallLog

/-- The entries are for the first bytes, and those that are counted make up the count. -/
structure Tallies (l : CallLog) (written : Nat) : Prop where
  bytes : l.entries.map Entry.byte = l.input.take l.entries.length
  count : written = l.entries.countP Entry.counted
  made : ∀ e ∈ l.entries, (e.Made ↔ e.Fits ∧ e.EchoFits)
  idle : ∀ step ∈ l.idle, step.2.inode = step.1.inode

/-- Where the loop stands in its input. -/
def Ahead (l : CallLog) : Call → Prop
  | .toMaster _ _ none rest _ | .toSlave _ _ none rest _ =>
    l.input.drop l.entries.length = rest
  | .toMaster modes nonblock (some out) rest written =>
    ∃ byte, l.input.drop l.entries.length = byte :: rest ∧ out ≠ [] ∧
      l.looked.due (.toMaster modes nonblock (some out) rest written) byte = .stored out
  | .toSlave modes nonblock (some (byte, out)) rest written =>
    l.input.drop l.entries.length = byte :: rest ∧ out ≠ [] ∧
      l.looked.due (.toSlave modes nonblock (some (byte, out)) rest written) byte = .stored out
  | _ => False

structure Running (l : CallLog) (call : Call) : Prop where
  outcome : l.outcome = none
  ahead : l.Ahead call
  tallies : l.Tallies call.bytesWritten

/-- The call came to `progress`, and that reports the count. -/
structure Ended (l : CallLog) (progress : Progress) : Prop where
  outcome : l.outcome = some progress
  reports : ∃ written, l.Tallies written ∧ Stops written progress

/-- What a step of a loop has to keep. -/
def Keeps (l : CallLog) : Progress → Prop
  | .goesOn call => l.Running call
  | progress => l.Ended progress

variable {l : CallLog} {call : Call} {e : Entry} {r : State × Progress}

theorem getElem_of_drop (ahead : l.input.drop l.entries.length = byte :: rest) :
    l.input[l.entries.length]? = some byte := by
  rw [← head?_drop, ahead]
  rfl

theorem drop_after (ahead : l.input.drop l.entries.length = byte :: rest) :
    l.input.drop (l.entries.length + 1) = rest := by
  rw [← drop_drop, ahead]
  rfl

theorem Tallies.snoc (tallies : l.Tallies written)
    (ahead : l.input.drop l.entries.length = e.byte :: rest)
    (made : e.Made ↔ e.Fits ∧ e.EchoFits) {m : CallLog} (input : m.input = l.input)
    (entries : m.entries = l.entries ++ [e]) (idle : m.idle = l.idle) :
    m.Tallies (written + if e.counted then 1 else 0) := by
  constructor
  · rw [entries, input, length_append, length_singleton, map_append, tallies.bytes,
      take_add_one, getElem_of_drop ahead]
    rfl
  · rw [entries, countP_append, ← tallies.count, countP_singleton]
  · rw [entries]
    intro f member
    rcases mem_append.mp member with before | last
    · exact tallies.made f before
    · rw [mem_singleton.mp last]
      exact made
  · rw [idle]
    exact tallies.idle

theorem record_entry (added : l.added s interrupted call = [e]) (loop : call.isLoop = true) :
    l.record s interrupted call = { l with
        entries := l.entries ++ [e]
        looked := l.lookedAt s call
        outcome := (s.advance interrupted call).2.ended } := by
  unfold record
  rw [if_pos loop, added, if_neg (cons_ne_nil _ _), append_nil]

theorem record_idle (added : l.added s interrupted call = []) (loop : call.isLoop = true) :
    l.record s interrupted call = { l with
        idle := l.idle ++ [(s, (s.advance interrupted call).1)]
        looked := l.lookedAt s call
        outcome := (s.advance interrupted call).2.ended } := by
  unfold record
  rw [if_pos loop, added, if_pos rfl, append_nil]

theorem added_of_ahead (s : State) (interrupted : Bool) (call : Call)
    (ahead : l.input.drop l.entries.length = byte :: rest) :
    l.added s interrupted call = if s.deals call ((l.lookedAt s call).due call byte) then
      [⟨byte, l.lookedAt s call, s, (s.advance interrupted call).1, call⟩] else [] := by
  rw [added, getElem_of_drop ahead]

theorem Tallies.record_idle (tallies : l.Tallies written) (loop : call.isLoop = true)
    (none : l.added s interrupted call = []) (still : (s.advance interrupted call).1.inode = s.inode) :
    (l.record s interrupted call).Tallies written := by
  rw [CallLog.record_idle none loop]
  refine ⟨tallies.bytes, tallies.count, tallies.made, fun step member => ?_⟩
  rcases mem_append.mp member with before | last
  · exact tallies.idle step before
  · rw [mem_singleton.mp last]
    exact still

theorem Tallies.ended {m : CallLog} (tallies : m.Tallies written)
    (outcome : m.outcome = progress.ended) (stops : Stops written progress) :
    m.Keeps progress := by
  have ended : m.Ended progress := ⟨outcome.trans stops.ended, written, tallies, stops⟩
  cases progress with
  | goesOn next =>
    have none := ended.outcome
    rw [outcome] at none
    cases none
  | returns n | throws code => exact ended

/-! ## The steps of the loops -/

theorem gains_whole_iff {bits : Nat} {n m : KPTYInode} {k : Nat}
    (gains : KPTYInode.Gains bits n m (out.take k)) : KPTYInode.Gains bits n m out ↔ out.length ≤ k := by
  constructor
  · intro whole
    have taken := gains.available
    rw [whole.available, length_take] at taken
    omega
  · intro fits
    rwa [take_of_length_le fits] at gains

section

variable (tallies : l.Tallies written) (loop : call.isLoop = true)

include tallies loop

section

variable (ahead : l.input.drop l.entries.length = e.byte :: rest)
  (added : l.added s interrupted call = [e]) (made : e.Made ↔ e.Fits ∧ e.EchoFits)

include ahead added made

theorem keeps_taken {next : Call}
    (steps : (s.advance interrupted call).2 = .goesOn next)
    (count : next.bytesWritten = written + if e.counted then 1 else 0)
    (onward : ∀ m : CallLog, m.input.drop m.entries.length = rest → m.Ahead next) :
    (l.record s interrupted call).Keeps (s.advance interrupted call).2 := by
  have record := record_entry added loop
  rw [steps] at record ⊢
  have input : (l.record s interrupted call).input = l.input := by rw [record]
  have entries : (l.record s interrupted call).entries = l.entries ++ [e] := by rw [record]
  refine ⟨by rw [record]; rfl, onward _ ?_, ?_⟩
  · rw [input, entries, length_append, length_singleton]
    exact drop_after ahead
  · rw [count]
    exact tallies.snoc ahead made input entries (by rw [record])

theorem keeps_uncounted
    (counted : e.counted = false)
    (stops : Stops written (s.advance interrupted call).2) :
    (l.record s interrupted call).Keeps (s.advance interrupted call).2 := by
  have record := record_entry added loop
  have next := tallies.snoc ahead made (m := l.record s interrupted call) (by rw [record])
    (by rw [record]) (by rw [record])
  rw [counted] at next
  exact next.ended (by rw [record]) stops

end

section

variable (added : l.added s interrupted call = []) (still : (s.advance interrupted call).1.inode = s.inode)

include added still

theorem keeps_waiting {next : Call}
    (steps : (s.advance interrupted call).2 = .goesOn next) (count : next.bytesWritten = written)
    (onward : ∀ m : CallLog, m.input = l.input → m.entries = l.entries →
      m.looked = l.lookedAt s call → m.Ahead next) :
    (l.record s interrupted call).Keeps (s.advance interrupted call).2 := by
  have record := record_idle added loop
  have same := tallies.record_idle loop added still
  rw [steps] at record ⊢
  refine ⟨by rw [record]; rfl, ?_, ?_⟩
  · exact onward _ (by rw [record]) (by rw [record]) (by rw [record])
  · rw [count]
    exact same

theorem keeps_stopped
    (stops : Stops written (s.advance interrupted call).2) :
    (l.record s interrupted call).Keeps (s.advance interrupted call).2 :=
  (tallies.record_idle loop added still).ended (by rw [record_idle added loop]) stops

end

end

/-- What a step of `WriteToMaster` does. -/
inductive MasterStep (l : CallLog) (s : State) (interrupted : Bool) (modes : MasterModes)
    (nonblock : Bool) (written : Nat) (call : Call) : State × Progress → Prop
  | ends (none : l.added s interrupted call = []) :
      MasterStep l s interrupted modes nonblock written call (s, .returns written)
  | drops {byte : UInt8} {rest : List UInt8}
      (ahead : l.input.drop l.entries.length = byte :: rest)
      (due : (l.lookedAt s call).due call byte = .stored []) :
      MasterStep l s interrupted modes nonblock written call
        (s, .goesOn (.toMaster modes nonblock none rest (written + 1)))
  | writes {byte : UInt8} {out rest : List UInt8}
      (ahead : l.input.drop l.entries.length = byte :: rest) (some' : out ≠ [])
      (due : (l.lookedAt s call).due call byte = .stored out) :
      MasterStep l s interrupted modes nonblock written call (s.masterWrite modes nonblock out rest written)

/-- What a step of `WriteToSlave` does. -/
inductive SlaveStep (l : CallLog) (s : State) (interrupted : Bool) (modes : SlaveModes)
    (nonblock : Bool) (written : Nat) (call : Call) : State × Progress → Prop
  | ends (none : l.added s interrupted call = []) :
      SlaveStep l s interrupted modes nonblock written call (s, .returns written)
  | signals {byte : UInt8} {rest : List UInt8}
      (ahead : l.input.drop l.entries.length = byte :: rest)
      (raises : (l.lookedAt s call).signals byte)
      (due : (l.lookedAt s call).due call byte = .signalled) :
      SlaveStep l s interrupted modes nonblock written call
        (s, .goesOn (.toSlave modes nonblock none rest written))
  | writes {byte : UInt8} {out rest : List UInt8}
      (ahead : l.input.drop l.entries.length = byte :: rest) (some' : out ≠ [])
      (due : (l.lookedAt s call).due call byte = .stored out) :
      SlaveStep l s interrupted modes nonblock written call (s.slaveWrite modes nonblock byte out rest written)
  | ignores {byte : UInt8} {rest : List UInt8}
      (ahead : l.input.drop l.entries.length = byte :: rest) (plain : byte ≠ newLine)
      (silent : ¬(l.lookedAt s call).signals byte)
      (due : (l.lookedAt s call).due call byte = .stored []) :
      SlaveStep l s interrupted modes nonblock written call (s.slaveEcho modes nonblock byte rest written 1)
  | erases {byte : UInt8} {rest : List UInt8}
      (ahead : l.input.drop l.entries.length = byte :: rest) (plain : byte ≠ newLine)
      (silent : ¬(l.lookedAt s call).signals byte)
      (due : (l.lookedAt s call).due call byte = .erased) :
      SlaveStep l s interrupted modes nonblock written call
        (s.backspace.slaveEcho modes nonblock byte rest written 1)

theorem added_nil (s : State) (interrupted : Bool) (call : Call)
    (nothing : l.input.drop l.entries.length = []) : l.added s interrupted call = [] := by
  rw [added, ← head?_drop, nothing]
  rfl

theorem Running.masterStep {modes : MasterModes} {pending : Option (List UInt8)}
    (running : l.Running (.toMaster modes nonblock pending rest written)) (s : State)
    (interrupted : Bool) :
    MasterStep l s interrupted modes nonblock written (.toMaster modes nonblock pending rest written)
      (s.advance interrupted (.toMaster modes nonblock pending rest written)) := by
  cases pending with
  | some out =>
    obtain ⟨byte, ahead, some', due⟩ := running.ahead
    exact .writes ahead some' due
  | none =>
    have ahead : l.input.drop l.entries.length = rest := running.ahead
    cases rest with
    | nil => exact .ends (added_nil s _ _ ahead)
    | cons byte rest =>
      cases out : modes.translate s.termios.icanon (s.inode .master).cursorPos byte with
      | none =>
        simp only [State.advance, writeToMaster, out]
        exact .drops ahead (congrArg (Effect.stored <| Option.getD · []) out)
      | some bytes =>
        simp only [State.advance, writeToMaster, out]
        exact .writes ahead (translate_ne_nil out)
          (congrArg (Effect.stored <| Option.getD · []) out)

theorem Running.slaveStep
    {pending : Option (UInt8 × List UInt8)}
    (running : l.Running (.toSlave modes nonblock pending rest written)) (s : State)
    (interrupted : Bool) :
    SlaveStep l s interrupted modes nonblock written (.toSlave modes nonblock pending rest written)
      (s.advance interrupted (.toSlave modes nonblock pending rest written)) := by
  cases pending with
  | some held =>
    obtain ⟨ahead, some', due⟩ := running.ahead
    exact .writes ahead some' due
  | none =>
    have ahead : l.input.drop l.entries.length = rest := running.ahead
    cases rest with
    | nil => exact .ends (added_nil s _ _ ahead)
    | cons byte rest =>
      by_cases signals : s.signals byte
      · simp only [State.advance, writeToSlave, if_pos signals]
        exact .signals ahead signals (if_pos signals)
      by_cases line : byte = newLine
      · simp only [State.advance, writeToSlave, if_neg signals, if_pos line]
        exact .writes ahead (cons_ne_nil _ _) ((if_neg signals).trans (if_pos line))
      by_cases carriage : byte = carriageReturn
      · by_cases ignores : modes.ignoreCr = true
        · simp only [State.advance, writeToSlave, if_neg signals, if_neg line, if_pos carriage,
            if_pos ignores]
          exact .ignores ahead line signals
            ((if_neg signals).trans <| (if_neg line).trans <| (if_pos carriage).trans <|
              congrArg Effect.stored (if_pos ignores))
        · simp only [State.advance, writeToSlave, if_neg signals, if_neg line, if_pos carriage,
            if_neg ignores]
          exact .writes ahead (cons_ne_nil _ _)
            ((if_neg signals).trans <| (if_neg line).trans <| (if_pos carriage).trans <|
              congrArg Effect.stored (if_neg ignores))
      · by_cases edits : byte = backspaceKey ∧ s.termios.icanon = true
        · simp only [State.advance, writeToSlave, if_neg signals, if_neg line, if_neg carriage,
            if_pos edits]
          exact .erases ahead line signals
            ((if_neg signals).trans <| (if_neg line).trans <| (if_neg carriage).trans (if_pos edits))
        · simp only [State.advance, writeToSlave, if_neg signals, if_neg line, if_neg carriage,
            if_neg edits]
          exact .writes ahead (cons_ne_nil _ _)
            ((if_neg signals).trans <| (if_neg line).trans <| (if_neg carriage).trans (if_neg edits))

variable {more : List UInt8}

theorem deals_toMaster {modes : MasterModes} {pending : Option (List UInt8)}
    (s : State) (nonblock : Bool) (some' : out ≠ []) :
    s.deals (.toMaster modes nonblock pending more count) (.stored out) =
      s.stores .master out nonblock := by
  cases out with
  | nil => exact absurd rfl some'
  | cons => rfl

theorem deals_toSlave {pending : Option (UInt8 × List UInt8)} (s : State) (nonblock : Bool) (some' : out ≠ []) :
    s.deals (.toSlave modes nonblock pending more count) (.stored out) =
      s.stores .slave out nonblock := by
  cases out with
  | nil => exact absurd rfl some'
  | cons => rfl

/-- What a step of `WriteToMaster` makes of a byte, from what it leaves in the ring. -/
theorem made_toMaster {modes : MasterModes} {pending : Option (List UInt8)}
    {looked : State} (due : looked.due (.toMaster modes nonblock pending more count) byte = .stored out)
    (slave : t.inode .slave = s.inode .slave)
    (gains : KPTYInode.Gains Side.master.bits (s.inode .master) (t.inode .master)
      (out.take (s.room .master))) :
    let e : Entry := ⟨byte, looked, s, t, .toMaster modes nonblock pending more count⟩
    e.Made ↔ e.Fits ∧ e.EchoFits := by
  have whole := gains_whole_iff gains
  simp only [Entry.Made, Entry.Fits, Entry.EchoFits, Entry.due, Entry.echoDue, due, slave, and_true,
    Effect.Happened, whole, length_nil, Nat.zero_le, true_or]

theorem Running.keeps_toMaster {modes : MasterModes}
    {pending : Option (List UInt8)}
    (running : l.Running (.toMaster modes nonblock pending rest written)) (inside : s.Inside)
    (interrupted : Bool) :
    (l.record s interrupted (.toMaster modes nonblock pending rest written)).Keeps
      (s.advance interrupted (.toMaster modes nonblock pending rest written)).2 := by
  have tallies := running.tallies
  generalize same : s.advance interrupted (.toMaster modes nonblock pending rest written) = r
  have step := running.masterStep s interrupted
  rw [same] at step
  have steps := congrArg Prod.snd same
  have state := congrArg Prod.fst same
  rw [← steps]
  cases step with
  | ends none => exact keeps_stopped tallies rfl none (by rw [state]) (.inl steps)
  | drops ahead due =>
    have added := added_of_ahead s interrupted (.toMaster modes nonblock pending rest written) ahead
    rw [due, show s.deals (.toMaster modes nonblock pending rest written) (.stored []) = true from rfl,
      if_pos rfl, state] at added
    exact keeps_taken tallies rfl ahead added
      (made_toMaster due rfl (by rw [take_nil]; exact .refl (inside.position .master))) steps rfl
      fun m onward => onward
  | @writes byte out more ahead some' due =>
    have progress := s.masterWrite_progress modes nonblock out more written
    have added := added_of_ahead s interrupted (.toMaster modes nonblock pending rest written) ahead
    rw [due, deals_toMaster s nonblock some', state] at added
    cases stores : s.stores .master out nonblock with
    | true =>
      rw [if_pos stores] at added
      have frame := s.write_frame .master out nonblock
      exact keeps_taken tallies rfl ahead added
        (made_toMaster due (frame.2 .slave (by decide)) (s.write_gains out nonblock (inside.position .master)).1)
        (steps.trans (progress.1 stores)) rfl fun m onward => onward
    | false =>
      rw [if_neg (by rw [stores]; decide)] at added
      have still : (s.advance interrupted (.toMaster modes nonblock pending rest written)).1.inode =
          s.inode := by
        rw [state]
        exact (stores_eq_false stores).1
      rcases progress.2 stores with waits | stops
      · exact keeps_waiting tallies rfl added still (steps.trans waits) rfl
          fun m input entries looked => ⟨byte, by rw [input, entries, ahead], some',
            by rw [looked]; exact due⟩
      · exact keeps_stopped tallies rfl added still (by rw [steps]; exact stops)

theorem stored_toSlave {pending : Option (UInt8 × List UInt8)}
    (due : s.due (.toSlave modes nonblock pending more count) byte = .stored out) :
    out.length ≤ 1 ∧ ¬s.signals byte := by
  unfold State.due at due
  dsimp only at due
  split at due
  · cases due
  · rename_i silent
    refine ⟨?_, silent⟩
    split at due
    · cases due
      exact Nat.le_refl 1
    · split at due
      · cases due
        split
        · exact Nat.zero_le 1
        · exact Nat.le_refl 1
      · split at due
        · cases due
        · cases due
          exact Nat.le_refl 1

/-- What a round of `WriteToSlave` makes of a byte, from what it leaves in the ring of the slave
before the echo. -/
theorem made_toSlave {pending : Option (UInt8 × List UInt8)} {looked u : State}
    (silent : ¬looked.signals byte) (inside : u.Inside) (termios : u.termios = s.termios)
    (master : u.inode .master = s.inode .master)
    (happened : (looked.due (.toSlave modes nonblock pending more count) byte).Happened Side.slave.bits
      (s.inode .slave) (u.inode .slave)) :
    let e : Entry := ⟨byte, looked, s, u.afterEcho modes byte, .toSlave modes nonblock pending more count⟩
    e.Made ↔ e.Fits ∧ e.EchoFits := by
  obtain ⟨slave, gains, full⟩ := u.afterEcho_gains modes byte (inside.position .master)
  have echo : u.echoDue modes byte = s.echoDue modes byte := by
    unfold State.echoDue
    rw [termios, master]
  have room : u.room .master = s.room .master := by
    unfold State.room
    rw [master]
  rw [master, echo, room] at gains
  rw [master, room] at full
  have whole := gains_whole_iff gains
  simp only [Entry.Made, Entry.Fits, Entry.EchoFits, Entry.due, Entry.echoDue, if_neg silent, slave,
    happened, true_and, whole]
  constructor
  · rintro (fits | still)
    · exact .inl fits
    · rw [still] at gains
      have nothing := congrArg length gains.eq_nil
      rw [length_take, length_nil] at nothing
      omega
  · rintro (fits | none)
    · exact .inl fits
    · exact .inr (full none)

theorem keeps_round
    {pending : Option (UInt8 × List UInt8)} {u : State}
    (tallies : l.Tallies written) (ahead : l.input.drop l.entries.length = byte :: rest)
    (silent : ¬(l.lookedAt s (.toSlave modes nonblock pending more written)).signals byte)
    (deals : s.deals (.toSlave modes nonblock pending more written)
      ((l.lookedAt s (.toSlave modes nonblock pending more written)).due
        (.toSlave modes nonblock pending more written) byte) = true)
    (state : (s.advance interrupted (.toSlave modes nonblock pending more written)).1 =
      u.afterEcho modes byte)
    (inside : u.Inside) (termios : u.termios = s.termios) (master : u.inode .master = s.inode .master)
    (happened : ((l.lookedAt s (.toSlave modes nonblock pending more written)).due
      (.toSlave modes nonblock pending more written) byte).Happened Side.slave.bits
        (s.inode .slave) (u.inode .slave))
    (rounds : Rounds s modes nonblock byte rest written
      (s.advance interrupted (.toSlave modes nonblock pending more written)).2) :
    (l.record s interrupted (.toSlave modes nonblock pending more written)).Keeps
      (s.advance interrupted (.toSlave modes nonblock pending more written)).2 := by
  have added := added_of_ahead s interrupted (.toSlave modes nonblock pending more written) ahead
  rw [if_pos deals, state] at added
  have made := made_toSlave (s := s) silent inside termios master happened
  by_cases room : s.EchoRoom modes byte
  · refine keeps_taken tallies rfl ahead added made (rounds.1 room) ?_ fun m onward => onward
    simp [Entry.counted, silent, room, Call.bytesWritten]
  · refine keeps_uncounted tallies rfl ahead added made ?_ (.inr (rounds.2 room))
    simp [Entry.counted, room]

theorem Running.keeps_toSlave
    {pending : Option (UInt8 × List UInt8)}
    (running : l.Running (.toSlave modes nonblock pending rest written)) (inside : s.Inside)
    (interrupted : Bool) :
    (l.record s interrupted (.toSlave modes nonblock pending rest written)).Keeps
      (s.advance interrupted (.toSlave modes nonblock pending rest written)).2 := by
  have tallies := running.tallies
  generalize same : s.advance interrupted (.toSlave modes nonblock pending rest written) = r
  have step := running.slaveStep s interrupted
  rw [same] at step
  have steps := congrArg Prod.snd same
  have state := congrArg Prod.fst same
  rw [← steps]
  cases step with
  | ends none => exact keeps_stopped tallies rfl none (by rw [state]) (.inl steps)
  | signals ahead raises due =>
    have added := added_of_ahead s interrupted (.toSlave modes nonblock pending rest written) ahead
    rw [due, show s.deals (.toSlave modes nonblock pending rest written) .signalled = true from rfl,
      if_pos rfl, state] at added
    refine keeps_taken tallies rfl ahead added ?_ steps ?_ fun m onward => onward
    · simp [Entry.Made, Entry.Fits, Entry.EchoFits, Entry.due, Entry.echoDue, due, raises,
        Effect.Happened]
    · simp [Entry.counted, raises, Call.bytesWritten]
  | ignores ahead plain silent due =>
    refine keeps_round tallies ahead silent (by rw [due]; rfl) (u := s) ?_ inside rfl rfl ?_ ?_
    · rw [state]
      exact s.slaveEcho_state _ _ _ _ _ _ (.inr fun line => plain line.2)
    · rw [due]
      exact .refl (inside.position .slave)
    · rw [steps]
      exact slaveEcho_rounds rfl rfl modes nonblock plain _ written
  | erases ahead plain silent due =>
    obtain ⟨termios, master⟩ := s.backspace_frame
    refine keeps_round tallies ahead silent (by rw [due]; rfl) (u := s.backspace) ?_ ?_ termios master ?_ ?_
    · rw [state]
      exact s.backspace.slaveEcho_state _ _ _ _ _ _ (.inr fun line => plain line.2)
    · exact (SameFrame.backspace s).keepsInside inside
    · rw [due]
      exact s.backspace_loses (inside.position .slave)
    · rw [steps]
      exact slaveEcho_rounds termios master modes nonblock plain _ written
  | @writes byte out more ahead some' due =>
    have progress := s.slaveWrite_progress modes nonblock byte out more written
    obtain ⟨one, silent⟩ := stored_toSlave due
    cases stores : s.stores .slave out nonblock with
    | true =>
      obtain ⟨_, _, _, _, positive⟩ := stores_eq_true stores
      obtain ⟨termios, inodes⟩ := s.write_frame .slave out nonblock
      have gains := (s.write_gains out nonblock (inside.position .slave)).1
      rw [take_of_length_le (by omega)] at gains
      refine keeps_round tallies ahead silent ?_ (u := (s.write .slave out nonblock).1) ?_ ?_ termios
        (inodes .master (by decide)) ?_ ?_
      · rw [due, deals_toSlave s nonblock some', stores]
      · rw [state]
        exact s.slaveWrite_state modes byte more written stores
      · exact (SameFrame.write s .slave out nonblock).keepsInside inside
      · rw [due]
        exact gains
      · rw [steps]
        exact progress.1 stores
    | false =>
      have added := added_of_ahead s interrupted (.toSlave modes nonblock pending rest written) ahead
      rw [due, deals_toSlave s nonblock some', if_neg (by rw [stores]; decide)] at added
      have still : (s.advance interrupted (.toSlave modes nonblock pending rest written)).1.inode =
          s.inode := by
        rw [state]
        exact s.slaveWrite_idle modes byte more written some' inside.available stores
      rcases progress.2 stores with waits | stops
      · exact keeps_waiting tallies rfl added still (steps.trans waits) rfl
          fun m input entries looked => ⟨by rw [input, entries, ahead], some',
            by rw [looked]; exact due⟩
      · exact keeps_stopped tallies rfl added still (by rw [steps]; exact stops)

/-! ## What a call reports -/

theorem Ended.exact_iff (ended : l.Ended progress) :
    l.Exact ↔ ∀ e ∈ l.entries, e.Regular := by
  obtain ⟨written, tallies, stops⟩ := ended.reports
  have outcome := ended.outcome
  have regular (counted : ∀ e ∈ l.entries, e.counted = true) (made : ∀ e ∈ l.entries, e.Made) :
      ∀ e ∈ l.entries, e.Regular := by
    intro e member
    obtain ⟨fits, echo⟩ := (tallies.made e member).mp (made e member)
    exact ⟨counted e member, fits, echo⟩
  have made (regular : ∀ e ∈ l.entries, e.Regular) : ∀ e ∈ l.entries, e.Made := fun e member =>
    (tallies.made e member).mpr ⟨(regular e member).fits, (regular e member).echo⟩
  have all (regular : ∀ e ∈ l.entries, e.Regular) : l.entries.length = written := by
    rw [tallies.count]
    exact (countP_eq_length.mpr fun e member => (regular e member).counted).symm
  cases progress with
  | goesOn next => exact absurd stops.ended nofun
  | returns n =>
    have count : n = written := stops.returns
    subst count
    constructor
    · intro exact
      obtain ⟨_, length, whole⟩ := exact.returns n outcome
      rw [tallies.count] at length
      exact regular (countP_eq_length.mp length.symm) whole
    · intro regular
      have length := all regular
      constructor
      · intro m returned
        rw [outcome] at returned
        cases returned
        exact ⟨by rw [tallies.bytes, length], length, made regular⟩
      · intro code threw
        rw [outcome] at threw
        cases threw
      · exact tallies.idle
  | throws code =>
    have count : written = 0 := stops.throws
    constructor
    · intro exact
      simp [exact.throws code outcome]
    · intro regular
      constructor
      · intro m returned
        rw [outcome] at returned
        cases returned
      · intro _ _
        exact length_eq_zero_iff.mp ((all regular).trans count)
      · exact tallies.idle

/-! ## Runs -/

/-- A log tells how its call ended, if it did. -/
def Settled (l : CallLog) : Prop := ∀ progress, l.outcome = some progress → l.Ended progress

/-- What the log of a thread says beside the call the thread is in. -/
def Holds (l : CallLog) : Option Call → Prop
  | some call => if call.isLoop then l.Running call else l.Settled
  | none => l.Settled

theorem Keeps.holds (keeps : l.Keeps progress) :
    l.Holds progress.onward := by
  cases progress with
  | goesOn call =>
    have running : l.Running call := keeps
    have loop : call.isLoop = true := by
      have ahead := running.ahead
      cases call with
      | reading | writing => exact absurd ahead id
      | toMaster | toSlave => rfl
    show if _ then _ else _
    rw [if_pos loop]
    exact running
  | returns | throws =>
    intro other same
    have outcome := keeps.outcome
    rw [same, some.injEq] at outcome
    rw [outcome]
    exact keeps

theorem advance_not_loop {next : Call} (plain : call.isLoop = false)
    (steps : (s.advance interrupted call).2 = .goesOn next) : next.isLoop = false := by
  cases call with
  | reading side length nonblock =>
    simp only [State.advance, State.read] at steps
    split at steps
    · cases steps
    · split at steps
      · cases steps
      · split at steps
        · cases steps
        · split at steps
          · cases steps
          · split at steps
            · cases steps
            · cases steps
              rfl
  | writing side bytes nonblock =>
    simp only [State.advance, writeOnce] at steps
    split at steps
    · cases steps
    · cases steps
    · cases steps
      rfl
  | toMaster | toSlave => cases plain

theorem Holds.advance (holds : l.Holds (some call)) (inside : s.Inside) (interrupted : Bool) :
    (l.record s interrupted call).Holds (s.advance interrupted call).2.onward := by
  cases loop : call.isLoop with
  | true =>
    have running : l.Running call := by
      simpa only [Holds, loop, if_true] using holds
    apply Keeps.holds
    cases call with
    | reading | writing => cases loop
    | toMaster modes nonblock pending rest written => exact running.keeps_toMaster inside interrupted
    | toSlave modes nonblock pending rest written => exact running.keeps_toSlave inside interrupted
  | false =>
    have settled : l.Settled := by
      simpa only [Holds, loop, Bool.false_eq_true, if_false] using holds
    have same : l.record s interrupted call = l := by
      rw [record, if_neg (by rw [loop]; decide)]
    rw [same]
    cases steps : (s.advance interrupted call).2 with
    | goesOn next =>
      show if _ then _ else _
      rw [if_neg (by rw [advance_not_loop loop steps]; decide)]
      exact settled
    | returns | throws => exact settled

end CallLog

namespace Observed

variable {o p : Observed}

structure Sound (o : Observed) : Prop where
  inside : o.state.Inside
  log : ∀ thread, (o.log thread).Holds (o.state.call thread)

theorem call_settle (s : State) (interrupted : Bool) (thread : Nat) (call : Call) :
    (settle thread (s.advance interrupted call)).call =
      update s.call thread (s.advance interrupted call).2.onward := by
  rw [← (SameFrame.advance s interrupted call).call]
  unfold settle Progress.onward
  rfl

theorem Sound.begun (sound : o.Sound) {thread : Nat} {call : Call} {t : State}
    {log : Nat → CallLog} (begins : o.state.begin thread call = some t)
    (here : o.state.call thread = none → (log thread).Holds (some call))
    (elsewhere : ∀ other, other ≠ thread → log other = o.log other) : Sound ⟨t, log⟩ := by
  unfold begin at begins
  split at begins
  · rename_i free
    cases begins
    refine ⟨⟨sound.inside.position, sound.inside.plain, sound.inside.available⟩, fun other => ?_⟩
    dsimp only
    by_cases isThread : other = thread
    · rw [isThread, update_self]
      exact here free
    · rw [update_of_ne isThread, elsewhere other isThread]
      exact sound.log other
  · cases begins

theorem running_initial (bytes : List UInt8) (s : State) {call : Call} (loop : call.isLoop = true)
    (ahead : CallLog.Ahead ⟨bytes, [], [], s, none⟩ call) (count : call.bytesWritten = 0) :
    CallLog.Holds ⟨bytes, [], [], s, none⟩ (some call) := by
  show if _ then _ else _
  rw [if_pos loop]
  refine ⟨rfl, ahead, ?_⟩
  rw [count]
  exact ⟨by simp, by simp, by simp, by simp⟩

theorem Sound.step (sound : o.Sound) {op : Op} (applies : observedSystem.step o op = some p) :
    p.Sound := by
  obtain ⟨t, steps, same⟩ := map_eq_some_iff.mp applies
  subst same
  cases op with
  | openFile side | closeFile side =>
    cases steps
    refine ⟨(SameFrame.put ?_ ?_ ?_).keepsInside sound.inside, sound.log⟩ <;> rfl
  | setTermios termios =>
    cases steps
    exact ⟨⟨sound.inside.position, sound.inside.plain, sound.inside.available⟩, sound.log⟩
  | setPacketMode on =>
    cases steps
    refine ⟨⟨fun side => ?_, sound.inside.plain, sound.inside.available⟩, sound.log⟩
    cases side with
    | master => exact sound.inside.position .master
    | slave => exact sound.inside.position .slave
  | read thread side length nonblock | write thread side bytes nonblock =>
    refine sound.begun steps (fun free => ?_) fun _ _ => rfl
    have settled := sound.log thread
    rw [free] at settled
    exact settled
  | writeToMaster thread bytes nonblock echoMode | writeToSlave thread bytes nonblock =>
    refine sound.begun steps (fun _ => ?_) fun other isOther => update_of_ne isOther ..
    rw [logAfter, update_self]
    exact running_initial bytes o.state rfl rfl rfl
  | advance thread interrupted =>
    cases inCall : o.state.call thread with
    | none => simp [system, Pty.step, inCall] at steps
    | some call =>
      have taken : settle thread (o.state.advance interrupted call) = t := by
        simpa [system, Pty.step, inCall] using steps
      subst taken
      have inside := (SameFrame.advance o.state interrupted call).keepsInside sound.inside
      refine ⟨⟨inside.position, inside.plain, inside.available⟩, fun other => ?_⟩
      have holds := sound.log other
      simp only [logAfter, inCall, call_settle]
      by_cases isThread : other = thread
      · subst isThread
        rw [inCall] at holds
        rw [update_self, update_self]
        exact holds.advance sound.inside interrupted
      · rw [update_of_ne isThread, update_of_ne isThread]
        exact holds

theorem Sound.initial : Sound initial where
  inside := ⟨fun side => by cases side <;> decide, rfl, by decide⟩
  log _ := nofun

theorem Sound.reaches (run : observedSystem.Reaches anyStep Observed.initial o) : o.Sound :=
  run.invariant Sound .initial fun sound _ applies => sound.step applies

/-- In a run from the opening of the pair, a write of a thread that is over reports just what
it did if and only if none of its bytes signalled, no echo met a full ring of the master, and
whatever went to the master found room whole. -/
theorem writes_exact_iff {thread : Nat} {progress : Progress}
    (run : observedSystem.Reaches anyStep Observed.initial o)
    (finished : (o.log thread).outcome = some progress) :
    (o.log thread).Exact ↔ ∀ e ∈ (o.log thread).entries, e.Regular := by
  have holds := (Sound.reaches run).log thread
  cases inCall : o.state.call thread with
  | none =>
    rw [inCall] at holds
    exact (holds progress finished).exact_iff
  | some call =>
    rw [inCall] at holds
    cases loop : call.isLoop with
    | true =>
      have running : (o.log thread).Running call := by
        simpa only [CallLog.Holds, loop, if_true] using holds
      rw [running.outcome] at finished
      cases finished
    | false =>
      have settled : (o.log thread).Settled := by
        simpa only [CallLog.Holds, loop, Bool.false_eq_true, if_false] using holds
      exact (settled progress finished).exact_iff

/-- A letter and the end of its line go to the slave and are echoed. -/
theorem line_reached : ∃ o, observedSystem.Reaches anyStep Observed.initial o ∧
    (o.log 0).outcome = some (.returns 2) ∧ (o.log 0).input = [0x61, newLine] ∧
      ∀ e ∈ (o.log 0).entries, e.Regular := by
  have begun : observedSystem.Reaches anyStep Observed.initial _ :=
    System.Reaches.refl.next (.writeToSlave 0 [0x61, newLine] false) trivial rfl
  have letter := begun.next (.advance 0 false) trivial rfl
  have line := letter.next (.advance 0 false) trivial rfl
  refine ⟨_, line.next (.advance 0 false) trivial rfl, rfl, rfl, fun e member => ?_⟩
  rcases mem_cons.mp member with isLetter | member
  · subst isLetter
    exact ⟨rfl, trivial, .inl (by decide +kernel)⟩
  · have isLine := mem_singleton.mp member
    subst isLine
    exact ⟨rfl, trivial, .inl (by decide +kernel)⟩

theorem writes_exact_iff_line :
    ∃ o : Observed, (o.log 0).outcome = some (.returns 2) ∧ (o.log 0).input = [0x61, newLine] ∧
      (o.log 0).Exact := by
  obtain ⟨o, run, finished, input, regular⟩ := line_reached
  exact ⟨o, finished, input, (writes_exact_iff run finished).mpr regular⟩

/-- `^C` has signalled, and `WriteToSlave` returns 0. -/
theorem not_writes_exact_always : ¬∀ o, observedSystem.Reaches anyStep Observed.initial o →
    ∀ thread progress, (o.log thread).outcome = some progress → (o.log thread).Exact := by
  intro always
  have begun : observedSystem.Reaches anyStep Observed.initial _ :=
    System.Reaches.refl.next (.writeToSlave 0 [ctrlC] false) trivial rfl
  have signalled := begun.next (.advance 0 false) trivial rfl
  have exact := always _ (signalled.next (.advance 0 false) trivial rfl) 0 (.returns 0) rfl
  have none := (exact.returns 0 rfl).2.1
  revert none
  decide +kernel

end Observed

end PadOS.Vfs.Pty
