import PadOS.Vfs.PtyAccounting
import PadOS.Vfs.PtyFrames
import Mathlib.Data.List.TakeDrop

/-! # The loops of terminal writes

What `WriteToMaster` and `WriteToSlave` mean a byte to come to, how they go on, and what their steps
leave in the rings.
-/

namespace PadOS.Vfs.Pty

open Transition RingBuffer State List Function

/-- What a byte comes to: bytes in the ring, none for one that is dropped, an edit of the
ring, or a signal. -/
inductive Effect
  | stored (bytes : List UInt8)
  | erased
  | signalled

namespace KPTYInode

/-- The bytes have come to stand in the ring behind those it held. -/
structure Gains (bits : Nat) (n m : KPTYInode) (bytes : List UInt8) : Prop where
  cells : window (2 ^ bits) m.fileData n.writePos bytes.length = bytes
  others : ∀ i, (∀ k < bytes.length, i ≠ (n.writePos + k) % 2 ^ bits) → m.fileData i = n.fileData i
  writes : m.writePos = (n.writePos + bytes.length) % 2 ^ bits
  reads : m.readPos = n.readPos
  available : m.bytesAvailable = n.bytesAvailable + bytes.length

/-- The ring has lost its last byte, unless that ends a line. -/
structure Loses (bits : Nat) (n m : KPTYInode) : Prop where
  cells : m.fileData = n.fileData
  reads : m.readPos = n.readPos
  some' : n.erasable bits → m.bytesAvailable + 1 = n.bytesAvailable ∧ (m.writePos + 1) % 2 ^ bits = n.writePos
  none : ¬n.erasable bits → m = n

end KPTYInode

/-- What a byte comes to, of a ring before and afterwards. -/
def Effect.Happened (bits : Nat) (n m : KPTYInode) : Effect → Prop
  | .stored bytes => KPTYInode.Gains bits n m bytes
  | .erased => KPTYInode.Loses bits n m
  | .signalled => m = n

namespace State

/-- What the loop means a byte to come to. -/
def due (s : State) (call : Call) (byte : UInt8) : Effect :=
  match call with
  | .toMaster modes _ _ _ _ =>
    .stored ((modes.translate s.termios.icanon (s.inode .master).cursorPos byte).getD [])
  | .toSlave modes _ _ _ _ =>
    if s.signals byte then .signalled
    else if byte = newLine then .stored [if modes.nlToCr then carriageReturn else newLine]
    else if byte = carriageReturn then
      .stored (if modes.ignoreCr then []
        else [if modes.crToNl then newLine else carriageReturn])
    else if byte = backspaceKey ∧ s.termios.icanon then .erased
    else .stored [byte]
  | _ => .stored []

/-- `Write` returns a positive number: it neither waits nor throws nor finds no room. -/
def stores (s : State) (side : Side) (out : List UInt8) (nonblock : Bool) : Bool :=
  match (s.write side out nonblock).2 with
  | .returns result => 0 < result
  | _ => false

/-- A step of the loop deals with a byte that is to come to `due`. -/
def deals (s : State) (call : Call) (due : Effect) : Bool :=
  match due, call with
  | .stored [], _ => true
  | .stored out, .toMaster _ nonblock _ _ _ => s.stores .master out nonblock
  | .stored out, .toSlave _ nonblock _ _ _ => s.stores .slave out nonblock
  | _, _ => true

/-- `WriteToSlave` passes a byte on to the master, as it is or for `ECHONL`. -/
def echoes (s : State) (modes : SlaveModes) (byte : UInt8) : Prop :=
  modes.doEcho = true ∧ (s.termios.masterModes true).translate s.termios.icanon
      (s.inode .master).cursorPos byte ≠ none ∨
    modes.doEcho = false ∧ s.termios.echonl = true ∧ byte = newLine

/-- What the echo of a byte puts into the ring of the master, if there is room. -/
def echoDue (s : State) (modes : SlaveModes) (byte : UInt8) : List UInt8 :=
  if modes.doEcho = true ∨ s.termios.echonl = true ∧ byte = newLine then
    ((s.termios.masterModes true).translate s.termios.icanon (s.inode .master).cursorPos byte).getD []
  else []

def room (s : State) (side : Side) : Nat := 2 ^ side.bits - (s.inode side).bytesAvailable

/-- What a round of `WriteToSlave` leaves once it has passed the byte on. -/
def afterEcho (s : State) (modes : SlaveModes) (byte : UInt8) : State :=
  if modes.doEcho = true ∨ s.termios.echonl = true ∧ byte = newLine then (s.echo byte).1 else s

/-- An echo does not find the ring of the master full. -/
def EchoRoom (s : State) (modes : SlaveModes) (byte : UInt8) : Prop :=
  s.echoes modes byte → (s.inode .master).bytesAvailable ≠ 2 ^ Side.master.bits

instance (s : State) (modes : SlaveModes) (byte : UInt8) : Decidable (s.EchoRoom modes byte) :=
  inferInstanceAs (Decidable (_ ∧ _ ∨ _ → _))

end State

namespace Progress

/-- What a call came to, if it came to an end. -/
def ended : Progress → Option Progress
  | .goesOn _ => none
  | progress => some progress

/-- The call that a thread is in afterwards. -/
def onward : Progress → Option Call
  | .goesOn call => some call
  | _ => none

end Progress

variable {s t : State} {side : Side} {out rest : List UInt8} {nonblock : Bool} {written : Nat}
  {byte : UInt8} {effect : Effect}

theorem KPTYInode.writeLoop_count {bits : Nat} (small : bits < 32) (bytes : List UInt8)
    (n : KPTYInode) :
    (writeLoop bits bytes n).2 = min bytes.length (2 ^ bits - n.bytesAvailable) := by
  have size : 2 ^ bits < 2 ^ 32 := Nat.pow_lt_pow_right (by decide) small
  induction bytes generalizing n with
  | nil => simp [writeLoop]
  | cons byte bytes ih =>
    unfold writeLoop
    split
    · rename_i room
      have available : (n.push bits byte).bytesAvailable = n.bytesAvailable + 1 :=
        increment_eq (by omega)
      simp only [ih, available, length_cons]
      omega
    · simp only [length_cons]
      omega

namespace KPTYInode.Gains

variable {bits : Nat} {n m : KPTYInode} {bytes : List UInt8}

theorem refl (inside : n.writePos < 2 ^ bits) : Gains bits n n [] where
  cells := rfl
  others _ _ := rfl
  writes := (Nat.mod_eq_of_lt inside).symm
  reads := rfl
  available := rfl

theorem eq_nil (gains : Gains bits n n bytes) : bytes = [] := by
  have same := gains.available
  exact length_eq_zero_iff.mp (by omega)

/-- One byte in front of those that follow it. -/
theorem cons (gains : Gains bits (n.push bits byte) m bytes) (inside : n.writePos < 2 ^ bits)
    (few : bytes.length < 2 ^ bits) (small : n.bytesAvailable + 1 < 2 ^ 32) :
    Gains bits n m (byte :: bytes) := by
  have next : (n.push bits byte).writePos = (n.writePos + 1) % 2 ^ bits := and_mask _ _
  have place (k : Nat) : ((n.push bits byte).writePos + k) % 2 ^ bits = (n.writePos + (k + 1)) % 2 ^ bits := by
    rw [next, Nat.mod_add_mod, add_assoc, add_comm 1]
  have stored : (n.push bits byte).fileData n.writePos = byte := by
    show memcpy n.fileData n.writePos [byte] (n.writePos + 0) = byte
    exact memcpy_inside Nat.one_pos
  have kept : m.fileData n.writePos = byte := by
    refine (gains.others _ fun k below => ?_).trans stored
    have apart : n.writePos % 2 ^ bits ≠ (n.writePos + (k + 1)) % 2 ^ bits :=
      mod_ne_of_lt (by omega) (by omega)
    rw [place k]
    rwa [Nat.mod_eq_of_lt inside] at apart
  constructor
  · rw [length_cons, window_succ, Nat.mod_eq_of_lt inside, kept, ← window_mod, ← next, gains.cells]
  · intro i apart
    have here : i ≠ n.writePos := by
      rw [← Nat.mod_eq_of_lt inside]
      exact apart 0 (Nat.succ_pos _)
    rw [gains.others i fun k below => by rw [place k]; exact apart (k + 1) (Nat.succ_lt_succ below)]
    exact memcpy_outside (by rw [length_singleton]; omega)
  · rw [gains.writes, place, length_cons]
  · exact gains.reads
  · have available : (n.push bits byte).bytesAvailable = n.bytesAvailable + 1 := increment_eq small
    rw [gains.available, available, length_cons]
    omega

end KPTYInode.Gains

theorem KPTYInode.writeLoop_none {bits : Nat} {bytes : List UInt8} {n : KPTYInode}
    (none : (writeLoop bits bytes n).2 = 0) : (writeLoop bits bytes n).1 = n := by
  cases bytes with
  | nil => rfl
  | cons byte bytes =>
    unfold writeLoop at none ⊢
    split
    · rename_i room
      rw [if_pos room] at none
      cases none
    · rfl

/-- `Write` stores what there is room for. -/
theorem KPTYInode.writeLoop_gains {bits : Nat} (small : bits < 32) (bytes : List UInt8) {n : KPTYInode}
    (inside : n.writePos < 2 ^ bits) :
    Gains bits n (writeLoop bits bytes n).1 (bytes.take (2 ^ bits - n.bytesAvailable)) := by
  have size : 2 ^ bits < 2 ^ 32 := Nat.pow_lt_pow_right (by decide) small
  induction bytes generalizing n with
  | nil =>
    rw [take_nil]
    exact .refl inside
  | cons byte bytes ih =>
    unfold writeLoop
    split
    · rename_i room
      have available : (n.push bits byte).bytesAvailable = n.bytesAvailable + 1 := increment_eq (by omega)
      have later := ih (n := n.push bits byte) (SameFrame.masked_lt bits _)
      rw [available] at later
      obtain ⟨left, count⟩ : ∃ left, 2 ^ bits - n.bytesAvailable = left + 1 := ⟨2 ^ bits - n.bytesAvailable - 1, by omega⟩
      rw [count, take_succ_cons]
      rw [show 2 ^ bits - (n.bytesAvailable + 1) = left by omega] at later
      refine later.cons inside ?_ (by omega)
      have taken := length_take_le left bytes
      omega
    · rename_i full
      rw [show 2 ^ bits - n.bytesAvailable = 0 by omega]
      exact .refl inside

theorem State.write_frame (s : State) (side : Side) (out : List UInt8) (nonblock : Bool) :
    (s.write side out nonblock).1.termios = s.termios ∧
      ∀ other, other ≠ side → (s.write side out nonblock).1.inode other = s.inode other := by
  unfold write
  split
  · split
    · exact ⟨rfl, fun _ _ => rfl⟩
    · split
      · exact ⟨rfl, fun _ _ => rfl⟩
      · exact ⟨rfl, fun _ _ => rfl⟩
  · exact ⟨rfl, fun other differs => update_of_ne differs ..⟩

theorem State.write_gains (s : State) {side : Side} (out : List UInt8) (nonblock : Bool)
    (inside : (s.inode side).writePos < 2 ^ side.bits) :
    KPTYInode.Gains side.bits (s.inode side) ((s.write side out nonblock).1.inode side)
        (out.take (s.room side)) ∧
      (s.room side = 0 → (s.write side out nonblock).1.inode = s.inode) := by
  unfold write room
  split
  · rename_i full
    rw [full, Nat.sub_self, take_zero]
    split
    · exact ⟨.refl inside, fun _ => rfl⟩
    · split
      · exact ⟨.refl inside, fun _ => rfl⟩
      · exact ⟨.refl inside, fun _ => rfl⟩
  · have gains := KPTYInode.writeLoop_gains side.bits_lt out inside
    dsimp only [setInode]
    rw [update_self]
    refine ⟨gains, fun none => ?_⟩
    have count := KPTYInode.writeLoop_count side.bits_lt out (s.inode side)
    rw [none, Nat.min_zero] at count
    rw [KPTYInode.writeLoop_none count, update_eq_self]

theorem State.stores_eq_true (stores : s.stores side out nonblock = true) :
    ∃ result, (s.write side out nonblock).2 = .returns result ∧ 0 < result ∧
      out ≠ [] ∧ 0 < s.room side := by
  unfold State.stores at stores
  split at stores
  · rename_i result returns
    have positive := of_decide_eq_true stores
    refine ⟨result, returns, positive, ?_⟩
    unfold write at returns
    split at returns
    · split at returns
      · cases returns
      · split at returns
        · cases returns
        · cases returns
    · cases returns
      rw [KPTYInode.writeLoop_count side.bits_lt] at positive
      unfold room
      exact ⟨ne_nil_of_length_pos (by omega), by omega⟩
  · cases stores

/-- A `Write` that stores nothing leaves the rings, and the loop waits or ends. -/
theorem State.stores_eq_false (stores : s.stores side out nonblock = false) :
    (s.write side out nonblock).1.inode = s.inode ∧
      ((s.write side out nonblock).2 = .waits ∨ (∃ code, (s.write side out nonblock).2 = .throws code) ∨
        (s.write side out nonblock).2 = .returns 0) := by
  unfold State.stores write at stores
  unfold write
  split
  · split
    · exact ⟨rfl, .inr (.inl ⟨_, rfl⟩)⟩
    · split
      · exact ⟨rfl, .inr (.inl ⟨_, rfl⟩)⟩
      · exact ⟨rfl, .inl rfl⟩
  · rename_i notFull
    rw [if_neg notFull] at stores
    have none : ((s.inode side).writeLoop side.bits out).2 = 0 := by simpa using stores
    refine ⟨?_, .inr (.inr (congrArg Outcome.returns none))⟩
    dsimp only [setInode]
    rw [KPTYInode.writeLoop_none none, update_eq_self]

/-- A loop ends without doing anything for the byte it is at. -/
def Stops (written : Nat) (progress : Progress) : Prop :=
  progress = .returns written ∨ ∃ code, progress = caught written code

theorem Stops.ended {progress : Progress} (stops : Stops written progress) :
    progress.ended = some progress := by
  rcases stops with rfl | ⟨code, rfl⟩
  · rfl
  · unfold caught
    split
    · rfl
    · rfl

theorem Stops.returns {n : Nat} (stops : Stops written (.returns n)) : n = written := by
  rcases stops with same | ⟨code, same⟩
  · cases same
    rfl
  · unfold caught at same
    split at same
    · cases same
      rfl
    · cases same

theorem Stops.throws {code : PErrorCode} (stops : Stops written (.throws code)) : written = 0 := by
  rcases stops with same | ⟨other, same⟩
  · cases same
  · unfold caught at same
    split at same
    · cases same
    · omega

theorem State.masterWrite_progress (s : State) (modes : MasterModes) (nonblock : Bool)
    (out rest : List UInt8) (written : Nat) :
    (s.stores .master out nonblock = true → (s.masterWrite modes nonblock out rest written).2 =
        .goesOn (.toMaster modes nonblock none rest (written + 1))) ∧
      (s.stores .master out nonblock = false → (s.masterWrite modes nonblock out rest written).2 =
          .goesOn (.toMaster modes nonblock (some out) rest written) ∨
        Stops written (s.masterWrite modes nonblock out rest written).2) := by
  unfold masterWrite
  constructor
  · intro stores
    obtain ⟨result, returns, positive, _⟩ := stores_eq_true stores
    simp only [returns, if_pos positive]
  · intro stores
    rcases (stores_eq_false stores).2 with waits | ⟨code, throws⟩ | returns
    · simp only [waits]
      exact .inl trivial
    · simp only [throws]
      exact .inr (.inr ⟨code, rfl⟩)
    · simp only [returns]
      exact .inr (.inl rfl)

theorem State.echo_none_iff (s : State) (byte : UInt8) : (s.echo byte).2 = none ↔
    ((s.termios.masterModes true).translate s.termios.icanon (s.inode .master).cursorPos byte ≠ none →
      (s.inode .master).bytesAvailable ≠ 2 ^ Side.master.bits) := by
  unfold echo
  split
  · rename_i dropped
    simp [dropped]
  · rename_i out found
    rw [found]
    unfold write
    by_cases full : (s.inode .master).bytesAvailable = 2 ^ Side.master.bits
    · rw [if_pos full]
      split
      · simp [full]
      · simp [full]
    · rw [if_neg full]
      simp [full]

theorem State.translate_newLine (s : State) :
    (s.termios.masterModes true).translate s.termios.icanon (s.inode .master).cursorPos newLine ≠
      none := by
  unfold MasterModes.translate
  rw [if_pos rfl]
  nofun

theorem translate_ne_nil {m : MasterModes} {icanon : Bool} {cursorPos : Nat}
    (found : m.translate icanon cursorPos byte = some out) : out ≠ [] := by
  unfold MasterModes.translate at found
  rintro rfl
  split at found
  · split at found
    · cases found
    · cases found
  · split at found
    · split at found
      · cases found
      · cases found
    · split at found
      · split at found
        · cases found
        · cases found
      · split at found
        · split at found
          · cases found
          · cases found
        · cases found

theorem State.slaveEcho_progress (s : State) (modes : SlaveModes) (nonblock : Bool) (byte : UInt8)
    (rest : List UInt8) (written : Nat) {result : Nat} (positive : 0 < result) :
    (modes.doEcho = false ∨ (s.echo byte).2 = none → (s.slaveEcho modes nonblock byte rest written
        result).2 = .goesOn (.toSlave modes nonblock none rest (written + 1))) ∧
      (¬(modes.doEcho = false ∨ (s.echo byte).2 = none) → ∃ code,
        (s.slaveEcho modes nonblock byte rest written result).2 = caught written code) := by
  unfold slaveEcho
  cases modes.doEcho with
  | false => simp [positive]
  | true =>
    cases echoed : (s.echo byte).2 with
    | none => simp [echoed, positive]
    | some code => simp [echoed]

theorem State.slaveEcho_zero (s : State) (modes : SlaveModes) (nonblock : Bool) (byte : UInt8)
    (rest : List UInt8) (written : Nat) :
    Stops written (s.slaveEcho modes nonblock byte rest written 0).2 := by
  unfold slaveEcho
  dsimp only
  split
  · rename_i code _
    exact .inr ⟨code, rfl⟩
  · exact .inl (if_neg (Nat.lt_irrefl 0))

theorem State.echoRoom_iff (s : State) (modes : SlaveModes) (byte : UInt8) :
    s.EchoRoom modes byte ↔ (modes.doEcho = false ∨ (s.echo byte).2 = none) ∧
      (modes.doEcho = false → s.termios.echonl = true → byte = newLine →
        (s.echo newLine).2 = none) := by
  rw [echo_none_iff, echo_none_iff]
  have newLine_some := s.translate_newLine
  unfold State.EchoRoom echoes
  cases modes.doEcho with
  | false =>
    simp only [Bool.false_eq_true, false_and, true_and, false_or, true_or, true_implies]
    constructor
    · exact fun room echonl line _ => room ⟨echonl, line⟩
    · exact fun room both => room both.1 both.2 newLine_some
  | true => simp

theorem State.echo_none_congr (termios : t.termios = s.termios)
    (inode : t.inode .master = s.inode .master) (byte : UInt8) :
    (t.echo byte).2 = none ↔ (s.echo byte).2 = none := by
  rw [echo_none_iff, echo_none_iff, termios, inode]

/-- The round of a byte that is stored, or that nothing is stored for. -/
def Rounds (s : State) (modes : SlaveModes) (nonblock : Bool) (byte : UInt8) (rest : List UInt8)
    (written : Nat) (progress : Progress) : Prop :=
  (s.EchoRoom modes byte → progress = .goesOn (.toSlave modes nonblock none rest (written + 1))) ∧
    (¬s.EchoRoom modes byte → ∃ code, progress = caught written code)

theorem State.slaveWrite_progress (s : State) (modes : SlaveModes) (nonblock : Bool) (byte : UInt8)
    (out rest : List UInt8) (written : Nat) :
    (s.stores .slave out nonblock = true → Rounds s modes nonblock byte rest written
        (s.slaveWrite modes nonblock byte out rest written).2) ∧
      (s.stores .slave out nonblock = false → (s.slaveWrite modes nonblock byte out rest written).2 =
          .goesOn (.toSlave modes nonblock (some (byte, out)) rest written) ∨
        Stops written (s.slaveWrite modes nonblock byte out rest written).2) := by
  obtain ⟨termios, inodes⟩ := s.write_frame .slave out nonblock
  have after := echo_none_congr termios (inodes .master (by decide))
  unfold slaveWrite
  constructor
  · intro stores
    obtain ⟨result, returns, positive, _⟩ := stores_eq_true stores
    simp only [returns, termios, Rounds, s.echoRoom_iff modes byte]
    split
    · rename_i line
      obtain ⟨rfl, _, noEcho, echonl⟩ := line
      rw [Bool.not_eq_true'] at noEcho
      have room := after newLine
      cases echoed : ((s.write .slave out nonblock).1.echo newLine).2 with
      | none =>
        rw [echoed] at room
        have quiet := ((s.write .slave out nonblock).1.echo newLine).1.slaveEcho_progress modes
          nonblock newLine rest written positive
        exact ⟨fun _ => quiet.1 (.inl noEcho),
          fun full => absurd ⟨.inl noEcho, fun _ _ _ => room.mp rfl⟩ full⟩
      | some code =>
        rw [echoed] at room
        exact ⟨fun fits => absurd (room.mpr (fits.2 noEcho echonl rfl)) nofun, fun _ => ⟨code, rfl⟩⟩
    · rename_i quiet
      have round := (s.write .slave out nonblock).1.slaveEcho_progress modes nonblock byte rest
        written positive
      rw [after byte] at round
      refine ⟨fun fits => round.1 fits.1, fun full => round.2 fun room => full ⟨room, ?_⟩⟩
      intro noEcho echonl line
      exact absurd ⟨line, positive, by rw [noEcho]; rfl, echonl⟩ quiet
  · intro stores
    rcases (stores_eq_false stores).2 with waits | ⟨code, throws⟩ | returns
    · simp only [waits]
      exact .inl trivial
    · simp only [throws]
      exact .inr (.inr ⟨code, rfl⟩)
    · simp only [returns]
      rw [if_neg fun line => Nat.lt_irrefl 0 line.2.1]
      exact .inr (slaveEcho_zero ..)

theorem State.slaveEcho_rounds (termios : t.termios = s.termios)
    (inode : t.inode .master = s.inode .master) (modes : SlaveModes) (nonblock : Bool)
    (plain : byte ≠ newLine) (rest : List UInt8) (written : Nat) :
    Rounds s modes nonblock byte rest written
      (t.slaveEcho modes nonblock byte rest written 1).2 := by
  have round := t.slaveEcho_progress modes nonblock byte rest written Nat.one_pos
  rw [echo_none_congr termios inode byte] at round
  rw [Rounds, s.echoRoom_iff modes byte]
  exact ⟨fun fits => round.1 fits.1,
    fun full => round.2 fun room => full ⟨room, fun _ _ line => absurd line plain⟩⟩

/-! ## What the steps leave in the rings -/

theorem State.backspace_frame (s : State) : s.backspace.termios = s.termios ∧
    s.backspace.inode .master = s.inode .master := by
  unfold backspace
  split
  · refine ⟨rfl, ?_⟩
    dsimp only [setInode]
    exact update_of_ne (by decide) ..
  · exact ⟨rfl, rfl⟩

theorem State.backspace_loses (s : State) (inside : (s.inode .slave).writePos < 2 ^ Side.slave.bits) :
    KPTYInode.Loses Side.slave.bits (s.inode .slave) (s.backspace.inode .slave) := by
  unfold backspace
  split
  · rename_i erasable
    dsimp only [setInode]
    rw [update_self]
    refine ⟨rfl, rfl, fun _ => ⟨?_, ?_⟩, fun plain => absurd erasable plain⟩
    · have some' := erasable.1
      show decrease _ 1 + 1 = _
      rw [decrease_eq some']
      omega
    · show ((s.inode .slave).lastPos Side.slave.bits + 1) % _ = _
      unfold KPTYInode.lastPos
      rw [and_mask, Nat.mod_add_mod, Nat.sub_add_cancel (by omega), Nat.add_mod_right,
        Nat.mod_eq_of_lt inside]
  · rename_i plain
    exact ⟨rfl, rfl, fun erasable => absurd erasable plain, fun _ => rfl⟩

/-- The echo leaves the ring of the slave and puts into that of the master what it has room for. -/
theorem State.afterEcho_gains (s : State) (modes : SlaveModes) (byte : UInt8)
    (inside : (s.inode .master).writePos < 2 ^ Side.master.bits) :
    (s.afterEcho modes byte).inode .slave = s.inode .slave ∧
      KPTYInode.Gains Side.master.bits (s.inode .master) ((s.afterEcho modes byte).inode .master)
        ((s.echoDue modes byte).take (s.room .master)) ∧
      (s.room .master = 0 → (s.afterEcho modes byte).inode .master = s.inode .master) := by
  unfold afterEcho echoDue
  split
  · unfold echo
    split
    · rename_i dropped
      rw [dropped, Option.getD_none, take_nil]
      exact ⟨rfl, .refl inside, fun _ => rfl⟩
    · rename_i out found
      rw [found, Option.getD_some]
      have gains := s.write_gains out true inside
      exact ⟨(s.write_frame .master out true).2 .slave (by decide), gains.1,
        fun full => congrFun (gains.2 full) _⟩
  · rw [take_nil]
    exact ⟨rfl, .refl inside, fun _ => rfl⟩

theorem State.slaveEcho_state (s : State) (modes : SlaveModes) (nonblock : Bool) (byte : UInt8)
    (rest : List UInt8) (written result : Nat)
    (quiet : modes.doEcho = true ∨ ¬(s.termios.echonl = true ∧ byte = newLine)) :
    (s.slaveEcho modes nonblock byte rest written result).1 = s.afterEcho modes byte := by
  unfold slaveEcho afterEcho
  by_cases echoes : modes.doEcho = true
  · simp only [echoes, if_true, true_or]
  · rw [if_neg (not_or.mpr ⟨echoes, quiet.resolve_left echoes⟩)]
    simp only [echoes, if_false, Bool.false_eq_true]

/-- Where a ring counts no more bytes than it has cells, a `Write` that stores nothing waits or throws. -/
theorem State.slaveWrite_idle (s : State) (modes : SlaveModes) (byte : UInt8) (rest : List UInt8)
    (written : Nat) (some' : out ≠ []) (fits : (s.inode .slave).bytesAvailable ≤ 2 ^ Side.slave.bits)
    (stores : s.stores .slave out nonblock = false) :
    (s.slaveWrite modes nonblock byte out rest written).1.inode = s.inode := by
  obtain ⟨still, ends⟩ := stores_eq_false stores
  unfold slaveWrite
  rcases ends with waits | ⟨code, throws⟩ | returns
  · simp only [waits]
    exact still
  · simp only [throws]
    exact still
  · unfold write at returns
    split at returns
    · split at returns
      · cases returns
      · split at returns
        · cases returns
        · cases returns
    · have none := Outcome.returns.inj returns
      have positive := length_pos_of_ne_nil some'
      rw [KPTYInode.writeLoop_count (by decide)] at none
      omega

theorem State.slaveWrite_state (s : State) (modes : SlaveModes) (byte : UInt8) (rest : List UInt8)
    (written : Nat) (stores : s.stores .slave out nonblock = true) :
    (s.slaveWrite modes nonblock byte out rest written).1 =
      (s.write .slave out nonblock).1.afterEcho modes byte := by
  obtain ⟨result, returns, positive, _⟩ := stores_eq_true stores
  unfold slaveWrite
  simp only [returns]
  split
  · rename_i line
    obtain ⟨rfl, _, noEcho, echonl⟩ := line
    rw [Bool.not_eq_true'] at noEcho
    have both : (s.write .slave out nonblock).1.afterEcho modes newLine =
        ((s.write .slave out nonblock).1.echo newLine).1 := if_pos (.inr ⟨echonl, rfl⟩)
    rw [both]
    split
    · rfl
    · unfold slaveEcho
      rw [noEcho]
      rfl
  · rename_i quiet
    apply slaveEcho_state
    by_contra both
    rw [not_or, not_not] at both
    exact quiet ⟨both.2.2, positive, by simpa using both.1, both.2.1⟩

end PadOS.Vfs.Pty
