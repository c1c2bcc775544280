import PadOS.Vfs.Pty

/-! # The accounting of a pseudo terminal

A ring is described by the number of bytes it really holds. Where the counters agree with
that number, every step but two keeps them in agreement: a read in packet mode counts its
header off the ring, and a backspace may erase a `^D` that stays counted.
-/

namespace PadOS.Vfs.Pty

open Transition RingBuffer List State
open Function (update_self update_of_ne update)

variable {bits occupied : Nat} {n : KPTYInode} {s t : State} {side : Side}

/-- The bytes that `newLineCount` counts. -/
def marks (bytes : List UInt8) : Nat := bytes.countP fun byte => byte = ctrlD ∨ byte = newLine

theorem decrease_eq {x k : Nat} (enough : k ≤ x) : decrease x k = x - k := if_pos enough

theorem increment_eq {x : Nat} (small : x + 1 < 2 ^ 32) : increment x = x + 1 := if_pos small

theorem marks_cons (byte : UInt8) (bytes : List UInt8) :
    marks (byte :: bytes) = marks bytes + if byte = ctrlD ∨ byte = newLine then 1 else 0 := by
  simp [marks, countP_cons]

theorem marks_append (bytes more : List UInt8) : marks (bytes ++ more) = marks bytes + marks more :=
  countP_append

theorem marks_le (bytes : List UInt8) : marks bytes ≤ bytes.length := countP_le_length

namespace KPTYInode

def content (bits : Nat) (n : KPTYInode) (occupied : Nat) : List UInt8 :=
  window (2 ^ bits) n.fileData n.readPos occupied

/-- The ring holds `occupied` bytes. -/
structure Holds (bits : Nat) (n : KPTYInode) (occupied : Nat) : Prop where
  fits : occupied ≤ 2 ^ bits
  inside : n.readPos < 2 ^ bits
  closes : n.writePos = (n.readPos + occupied) % 2 ^ bits
  lines : n.newLineCount = marks (n.content bits occupied)

theorem Holds.lines_le (holds : n.Holds bits occupied) : n.newLineCount ≤ occupied := by
  have counted := marks_le (n.content bits occupied)
  rw [← holds.lines, content, window_length] at counted
  exact counted

/-- The cells behind the first byte, from where the read position comes to stand. -/
theorem window_advanced : window (2 ^ bits) n.fileData ((n.readPos + 1) &&& (2 ^ bits - 1)) occupied =
    window (2 ^ bits) n.fileData (n.readPos + 1) occupied := by
  rw [and_mask, window_mod]

theorem Holds.pop (holds : n.Holds bits (occupied + 1)) :
    let byte := n.fileData n.readPos
    let counted := if byte = ctrlD ∨ byte = newLine then n.countLineOut else n
    (counted.advanceReadPos bits).Holds bits occupied ∧
      n.content bits (occupied + 1) = byte :: (counted.advanceReadPos bits).content bits occupied := by
  have first : n.content bits (occupied + 1) =
      n.fileData n.readPos :: window (2 ^ bits) n.fileData (n.readPos + 1) occupied := by
    rw [content, window_succ, Nat.mod_eq_of_lt holds.inside]
  have lines := holds.lines
  rw [first, marks_cons] at lines
  have fits := holds.fits
  have closes : n.writePos = (((n.readPos + 1) &&& (2 ^ bits - 1)) + occupied) % 2 ^ bits := by
    rw [and_mask, Nat.mod_add_mod, add_assoc, add_comm 1]
    exact holds.closes
  have inside : (n.readPos + 1) &&& (2 ^ bits - 1) < 2 ^ bits := by
    rw [and_mask]
    exact Nat.mod_lt _ (Nat.two_pow_pos bits)
  dsimp only
  split
  · rename_i mark
    rw [if_pos mark] at lines
    constructor
    · constructor
      · omega
      · simpa using inside
      · simpa using closes
      · rw [content]
        simp only [advanceReadPos_newLineCount, countLineOut_newLineCount, advanceReadPos_fileData,
          countLineOut_fileData, advanceReadPos_readPos, countLineOut_readPos]
        rw [decrease_eq (by omega), window_advanced]
        omega
    · rw [first, content]
      simp only [advanceReadPos_fileData, countLineOut_fileData, advanceReadPos_readPos,
        countLineOut_readPos, window_advanced]
  · rename_i plain
    rw [if_neg plain] at lines
    constructor
    · constructor
      · omega
      · simpa using inside
      · simpa using closes
      · rw [content]
        simp only [advanceReadPos_newLineCount, advanceReadPos_fileData, advanceReadPos_readPos,
          window_advanced]
        exact lines
    · rw [first, content]
      simp only [advanceReadPos_fileData, advanceReadPos_readPos, window_advanced]

/-- A ring is told by its cells, positions and line count alone. -/
theorem Holds.congr {m : KPTYInode} (holds : n.Holds bits occupied) (cells : m.fileData = n.fileData)
    (lines : m.newLineCount = n.newLineCount) (reads : m.readPos = n.readPos)
    (writes : m.writePos = n.writePos) :
    m.Holds bits occupied ∧ m.content bits occupied = n.content bits occupied := by
  have same : m.content bits occupied = n.content bits occupied := by
    unfold content
    rw [cells, reads]
  constructor
  · constructor
    · exact holds.fits
    · rw [reads]
      exact holds.inside
    · rw [writes, reads]
      exact holds.closes
    · rw [lines, same]
      exact holds.lines
  · exact same

/-- A `^D` is taken as the end of the file only as the first byte. -/
theorem readLoop_later {needNewLine : Bool} (left : Nat) (n : KPTYInode) :
    (readLoop bits needNewLine left false n).endOfFile = false ∧
      (readLoop bits needNewLine left false n).node.bytesAvailable = n.bytesAvailable := by
  induction left generalizing n with
  | zero => exact ⟨rfl, rfl⟩
  | succ left ih =>
    unfold readLoop
    dsimp only
    split
    · exact ⟨rfl, rfl⟩
    · have later := ih ((if n.fileData n.readPos = ctrlD ∨ n.fileData n.readPos = newLine then
        n.countLineOut else n).advanceReadPos bits)
      refine ⟨later.1, later.2.trans ?_⟩
      split
      · rfl
      · rfl

theorem readLoop_keeps {needNewLine first : Bool} {left : Nat} (holds : n.Holds bits occupied)
    (enough : left ≤ occupied) :
    let r := readLoop bits needNewLine left first n
    (takenBy r).length ≤ left ∧ r.node.Holds bits (occupied - (takenBy r).length) ∧
      n.content bits occupied =
        (takenBy r).map Prod.fst ++ r.node.content bits (occupied - (takenBy r).length) ∧
      (r.endOfFile = false ∧ r.node.bytesAvailable = n.bytesAvailable ∨
        r.endOfFile = true ∧ r.bytes = [] ∧ r.node.bytesAvailable = decrease n.bytesAvailable 1) := by
  induction left generalizing n occupied first with
  | zero => exact ⟨le_rfl, holds, rfl, .inl ⟨rfl, rfl⟩⟩
  | succ left ih =>
    cases occupied with
    | zero => omega
    | succ occupied =>
      have popped := holds.pop
      dsimp only at popped ⊢
      unfold readLoop
      dsimp only
      split
      · rename_i mark
        split
        · -- the mark is taken as the end of the file
          rw [if_pos (Or.inl mark.1)] at popped
          have same := popped.1.congr
            (m := { n.countLineOut with bytesAvailable := decrease n.bytesAvailable 1 }.advanceReadPos bits)
            rfl rfl rfl rfl
          have one : (takenBy ⟨{ n.countLineOut with
              bytesAvailable := decrease n.bytesAvailable 1 }.advanceReadPos bits, [], true⟩) =
              [(ctrlD, true)] := rfl
          rw [one]
          refine ⟨by simp, same.1, ?_, .inr ⟨rfl, rfl, rfl⟩⟩
          rw [popped.2, mark.1]
          exact congrArg (ctrlD :: ·) same.2.symm
        · exact ⟨Nat.zero_le _, holds, rfl, .inl ⟨rfl, rfl⟩⟩
      · have later := @ih _ _ false popped.1 (by omega)
        have plain := @readLoop_later bits needNewLine left
          ((if n.fileData n.readPos = ctrlD ∨ n.fileData n.readPos = newLine then
            n.countLineOut else n).advanceReadPos bits)
        dsimp only at later
        generalize readLoop bits needNewLine left false _ = rest at later plain ⊢
        have taken : takenBy ⟨rest.node, n.fileData n.readPos :: rest.bytes, rest.endOfFile⟩ =
            (n.fileData n.readPos, false) :: takenBy rest := rfl
        have count : occupied + 1 - ((takenBy rest).length + 1) =
            occupied - (takenBy rest).length := by omega
        rw [taken, length_cons, count]
        refine ⟨by omega, later.2.1, ?_, ?_⟩
        · rw [popped.2, later.2.2.1]
          rfl
        · refine .inl ⟨plain.1, plain.2.trans ?_⟩
          split
          · rfl
          · rfl

theorem takenBy_length (r : ReadLoop) :
    (takenBy r).length = r.bytes.length + if r.endOfFile then 1 else 0 := by
  unfold takenBy
  rw [length_append, length_map]
  split
  · rfl
  · rfl

theorem copyOut_keeps {needNewLine : Bool} {length : Nat} (plain : n.packetMode = false)
    (holds : n.Holds bits n.bytesAvailable) :
    let r := n.copyOut bits needNewLine length
    r.node.Holds bits r.node.bytesAvailable ∧ n.content bits n.bytesAvailable =
        (takenBy r).map Prod.fst ++ r.node.content bits r.node.bytesAvailable := by
  have header : n.header = [] := by simp [header, plain]
  unfold copyOut
  rw [header]
  dsimp only [length_nil]
  have kept := @readLoop_keeps _ _ _ needNewLine true _ holds
    (Nat.min_le_right (length - 0) n.bytesAvailable)
  dsimp only at kept
  generalize readLoop bits needNewLine (min (length - 0) n.bytesAvailable) true n = r at kept ⊢
  have count := takenBy_length r
  have left : decrease r.node.bytesAvailable (0 + r.bytes.length) =
      n.bytesAvailable - (takenBy r).length := by
    rcases kept.2.2.2 with ⟨more, available⟩ | ⟨ended, none, available⟩
    · rw [more, if_neg Bool.false_ne_true] at count
      rw [available, decrease_eq (by omega)]
      omega
    · rw [ended, none, if_pos rfl, length_nil] at count
      rw [available, none, length_nil, decrease_eq (Nat.zero_le _), decrease_eq (by omega)]
      omega
  have same := kept.2.1.congr (m := { r.node with
    bytesAvailable := decrease r.node.bytesAvailable (0 + r.bytes.length) }) rfl rfl rfl rfl
  constructor
  · show KPTYInode.Holds bits _ (decrease _ _)
    rw [left] at same ⊢
    exact same.1
  · show _ = (takenBy r).map Prod.fst ++ KPTYInode.content bits _ (decrease _ _)
    rw [left] at same ⊢
    rw [same.2]
    exact kept.2.2.1

theorem push_keeps (small : bits < 32) (holds : n.Holds bits n.bytesAvailable)
    (room : n.bytesAvailable < 2 ^ bits) (byte : UInt8) :
    (n.push bits byte).Holds bits (n.push bits byte).bytesAvailable ∧
      (n.push bits byte).content bits (n.push bits byte).bytesAvailable =
        n.content bits n.bytesAvailable ++ [byte] := by
  have size : 2 ^ bits < 2 ^ 32 := Nat.pow_lt_pow_right (by decide) small
  have counts := holds.lines_le
  have inside : n.writePos < 2 ^ bits := by
    rw [holds.closes]
    exact Nat.mod_lt _ (Nat.two_pow_pos bits)
  have available : (n.push bits byte).bytesAvailable = n.bytesAvailable + 1 :=
    increment_eq (by omega)
  have grown : (n.push bits byte).content bits (n.bytesAvailable + 1) =
      n.content bits n.bytesAvailable ++ [byte] :=
    window_memcpy holds.closes (show n.writePos + [byte].length ≤ 2 ^ bits from inside)
      (show n.bytesAvailable + [byte].length ≤ 2 ^ bits from room)
  rw [available]
  constructor
  · constructor
    · omega
    · exact holds.inside
    · show (n.writePos + 1) &&& (2 ^ bits - 1) = (n.readPos + (n.bytesAvailable + 1)) % 2 ^ bits
      rw [and_mask, holds.closes, Nat.mod_add_mod, add_assoc]
    · rw [grown, marks_append, ← holds.lines, marks_cons]
      show (if _ then _ else _) = n.newLineCount + (0 + if _ then _ else _)
      split
      · rw [increment_eq (by omega)]
      · rfl
  · exact grown

theorem writeLoop_keeps (small : bits < 32) (bytes : List UInt8)
    (holds : n.Holds bits n.bytesAvailable) :
    let r := writeLoop bits bytes n
    r.1.Holds bits r.1.bytesAvailable ∧
      r.1.content bits r.1.bytesAvailable = n.content bits n.bytesAvailable ++ bytes.take r.2 := by
  induction bytes generalizing n with
  | nil => exact ⟨holds, (append_nil _).symm⟩
  | cons byte rest ih =>
    unfold writeLoop
    dsimp only
    split
    · rename_i room
      have pushed := push_keeps small holds room byte
      have later := ih pushed.1
      refine ⟨later.1, later.2.trans ?_⟩
      rw [pushed.2, take_succ_cons, append_assoc]
      rfl
    · exact ⟨holds, (append_nil _).symm⟩

theorem lastPos_eq (holds : n.Holds bits (occupied + 1)) :
    n.lastPos bits = (n.readPos + occupied) % 2 ^ bits := by
  have positive := Nat.two_pow_pos bits
  unfold lastPos
  rw [and_mask, holds.closes]
  rw [Nat.add_sub_assoc positive, Nat.mod_add_mod,
    show n.readPos + (occupied + 1) + (2 ^ bits - 1) = n.readPos + occupied + 2 ^ bits by omega,
    Nat.add_mod_right]

theorem content_snoc (holds : n.Holds bits (occupied + 1)) :
    n.content bits (occupied + 1) = n.content bits occupied ++ [n.fileData (n.lastPos bits)] := by
  rw [lastPos_eq holds, content, window_snoc]
  rfl

theorem erase_keeps (holds : n.Holds bits n.bytesAvailable) (erasable : n.erasable bits)
    (plain : n.fileData (n.lastPos bits) ≠ ctrlD) :
    (n.erase bits).Holds bits (n.erase bits).bytesAvailable ∧
      (n.erase bits).content bits (n.erase bits).bytesAvailable =
        (n.content bits n.bytesAvailable).dropLast := by
  have some' := erasable.1
  have available : (n.erase bits).bytesAvailable = n.bytesAvailable - 1 := decrease_eq some'
  have again : n.bytesAvailable = n.bytesAvailable - 1 + 1 := by omega
  have last := holds
  rw [again] at last
  have split := content_snoc last
  rw [← again] at split
  have left : (n.erase bits).content bits (n.bytesAvailable - 1) =
      (n.content bits n.bytesAvailable).dropLast := by
    rw [split, dropLast_concat]
    rfl
  rw [available]
  constructor
  · constructor
    · have := holds.fits
      omega
    · exact holds.inside
    · exact lastPos_eq last
    · have lines := holds.lines
      rw [split, marks_append, marks_cons, if_neg (not_or.2 ⟨plain, erasable.2⟩)] at lines
      rw [left, split, dropLast_concat]
      exact lines
  · exact left

end KPTYInode

/-! ## Both rings and their history -/

/-- A ring of size `2 ^ bits` agrees with its counters and with its history. -/
structure Balance (bits : Nat) (n : KPTYInode) (kept : List UInt8) (taken : List (UInt8 × Bool))
    (returned : List UInt8) : Prop where
  ring : n.Holds bits n.bytesAvailable
  stream : taken.map Prod.fst ++ n.content bits n.bytesAvailable = kept
  delivered : returned = (taken.filter fun entry => !entry.2).map Prod.fst
  ends : ∀ entry ∈ taken, entry.2 = true → entry.1 = ctrlD

def Balanced (s : State) : Prop :=
  ∀ side, Balance side.bits (s.inode side) (s.kept side) (s.taken side) (s.returned side)

theorem Side.bits_lt (side : Side) : side.bits < 32 := by
  cases side with
  | master => decide
  | slave => decide

theorem takenBy_delivered (r : ReadLoop) :
    ((takenBy r).filter fun entry => !entry.2).map Prod.fst = r.bytes := by
  unfold takenBy
  rw [filter_append, map_append]
  have ends : ((if r.endOfFile then [(ctrlD, true)] else []).filter fun entry => !entry.2) = [] := by
    split
    · rfl
    · rfl
  rw [ends, filter_eq_self.2]
  · rw [map_map, map_nil, append_nil]
    exact map_id _
  · intro entry member
    rcases mem_map.1 member with ⟨byte, _, rfl⟩
    rfl

theorem takenBy_ends {r : ReadLoop} {entry : UInt8 × Bool} (member : entry ∈ takenBy r)
    (ended : entry.2 = true) : entry.1 = ctrlD := by
  unfold takenBy at member
  rcases mem_append.1 member with plain | last
  · rcases mem_map.1 plain with ⟨byte, _, rfl⟩
    cases ended
  · split at last
    · rw [mem_singleton.1 last]
    · cases last

namespace Balanced

variable {bytes rest out : List UInt8} {nonblock interrupted : Bool} {written result : Nat}

section

variable (balanced : Balanced s)

include balanced

theorem change {n : KPTYInode} (same : ∀ other, other ≠ side →
      t.inode other = s.inode other ∧ t.kept other = s.kept other ∧
        t.taken other = s.taken other ∧ t.returned other = s.returned other)
    (here : t.inode side = n)
    (balance : Balance side.bits n (t.kept side) (t.taken side) (t.returned side)) : Balanced t := by
  intro other
  by_cases differs : other = side
  · rw [differs, here]
    exact balance
  · rcases same other differs with ⟨inode, kept, taken, returned⟩
    rw [inode, kept, taken, returned]
    exact balanced other

theorem setInode {n : KPTYInode} (cells : n.fileData = (s.inode side).fileData)
    (lines : n.newLineCount = (s.inode side).newLineCount) (reads : n.readPos = (s.inode side).readPos)
    (writes : n.writePos = (s.inode side).writePos)
    (available : n.bytesAvailable = (s.inode side).bytesAvailable) : Balanced (s.setInode side n) := by
  have old := balanced side
  have ring := old.ring.congr cells lines reads writes
  apply balanced.change
  · intro other differs
    exact ⟨update_of_ne differs _ _, rfl, rfl, rfl⟩
  · exact update_self side n s.inode
  · constructor
    · rw [available]
      exact ring.1
    · rw [available, ring.2]
      exact old.stream
    · exact old.delivered
    · exact old.ends

theorem read {length : Nat}
    (plain : length ≠ 0 → s.canRead side → (s.inode side).packetMode = false) :
    Balanced (s.read side length nonblock interrupted).1 := by
  unfold State.read
  split
  · exact balanced
  · rename_i some'
    split
    · rename_i readable
      have modes := plain some' readable
      have old := balanced side
      have copied := @KPTYInode.copyOut_keeps side.bits (s.inode side) (s.needNewLine side) length modes
        old.ring
      apply balanced.change
      · intro other differs
        exact ⟨update_of_ne differs _ _, rfl, update_of_ne differs _ _, update_of_ne differs _ _⟩
      · exact update_self side _ s.inode
      · constructor
        · exact copied.1
        · show (update s.taken side _ side).map Prod.fst ++ _ = s.kept side
          rw [update_self, map_append, append_assoc, ← copied.2]
          exact old.stream
        · show update s.returned side _ side = _
          have none : (s.inode side).header = [] := by simp [KPTYInode.header, modes]
          show _ = ((update s.taken side _ side).filter _).map _
          rw [update_self, update_self, filter_append, map_append,
            takenBy_delivered, ← old.delivered, none, append_nil]
        · intro entry member
          change entry ∈ update s.taken side _ side at member
          rw [update_self] at member
          rcases mem_append.1 member with before | now
          · exact old.ends entry before
          · exact takenBy_ends now
    · split
      · exact balanced
      · split
        · exact balanced
        · split
          · exact balanced
          · exact balanced

theorem write : Balanced (s.write side bytes nonblock).1 := by
  unfold State.write
  split
  · split
    · exact balanced
    · split
      · exact balanced
      · exact balanced
  · have old := balanced side
    have stored := KPTYInode.writeLoop_keeps side.bits_lt bytes old.ring
    apply balanced.change
    · intro other differs
      exact ⟨update_of_ne differs _ _, update_of_ne differs _ _, rfl, rfl⟩
    · exact update_self side _ s.inode
    · constructor
      · exact stored.1
      · show (s.taken side).map Prod.fst ++ _ = update s.kept side _ side
        rw [update_self, ← old.stream, append_assoc]
        exact congrArg _ stored.2
      · exact old.delivered
      · exact old.ends

theorem echo (byte : UInt8) : Balanced (s.echo byte).1 := by
  unfold State.echo
  split
  · exact balanced
  · exact balanced.write

theorem masterWrite {modes : MasterModes} :
    Balanced (s.masterWrite modes nonblock out rest written).1 :=
  balanced.write

theorem writeToMaster {modes : MasterModes} (pending : Option (List UInt8)) :
    Balanced (s.writeToMaster modes nonblock pending rest written).1 := by
  unfold State.writeToMaster
  split
  · exact balanced.masterWrite
  · exact balanced
  · split
    · exact balanced
    · exact balanced.masterWrite

theorem slaveEcho {modes : SlaveModes} (byte : UInt8) :
    Balanced (s.slaveEcho modes nonblock byte rest written result).1 := by
  unfold State.slaveEcho
  dsimp only
  split
  · exact balanced.echo byte
  · exact balanced

theorem slaveWrite {modes : SlaveModes} (byte : UInt8) :
    Balanced (s.slaveWrite modes nonblock byte out rest written).1 := by
  unfold State.slaveWrite
  dsimp only
  split
  · exact balanced.write
  · exact balanced.write
  · split
    · split
      · exact balanced.write.echo newLine
      · exact (balanced.write.echo newLine).slaveEcho byte
    · exact balanced.write.slaveEcho byte

theorem backspace (plain : (s.inode .slave).erasable Side.slave.bits →
      (s.inode .slave).fileData ((s.inode .slave).lastPos Side.slave.bits) ≠ ctrlD) :
    Balanced s.backspace := by
  unfold State.backspace
  split
  · rename_i erasable
    have old := balanced .slave
    have erased := KPTYInode.erase_keeps old.ring erasable (plain erasable)
    apply balanced.change
    · intro other differs
      exact ⟨update_of_ne differs _ _, update_of_ne differs _ _, rfl, rfl⟩
    · exact update_self Side.slave _ s.inode
    · constructor
      · exact erased.1
      · show (s.taken .slave).map Prod.fst ++ _ = update s.kept .slave _ .slave
        have some' : (s.inode .slave).content Side.slave.bits (s.inode .slave).bytesAvailable ≠ [] := by
          have := erasable.1
          intro none
          have count := congrArg List.length none
          rw [KPTYInode.content, window_length] at count
          simp at count
          omega
        rw [update_self, ← old.stream, dropLast_append_of_ne_nil some']
        exact congrArg _ erased.2
      · exact old.delivered
      · exact old.ends
  · exact balanced

end

end Balanced

/-! ## Runs -/

/-- A backspace that takes back a `^D`, which stays counted. -/
def State.ErasesMark (s : State) (byte : UInt8) : Prop :=
  byte = backspaceKey ∧ s.termios.icanon = true ∧ ¬s.signals byte ∧
    (s.inode .slave).erasable Side.slave.bits ∧
    (s.inode .slave).fileData ((s.inode .slave).lastPos Side.slave.bits) = ctrlD

/-- A read that takes bytes off a ring whose inode is in packet mode. -/
def State.ReadsPacket (s : State) (side : Side) (length : Nat) : Prop :=
  (s.inode side).packetMode = true ∧ length ≠ 0 ∧ s.canRead side

/-- The step neither erases a `^D` nor reads in packet mode. -/
def KeepsCounts : Condition State Op
  | s, .advance thread _ =>
    match s.call thread with
    | some (.reading side length _) => ¬s.ReadsPacket side length
    | some (.toSlave _ _ none (byte :: _) _) => ¬s.ErasesMark byte
    | _ => True
  | _, _ => True

namespace Balanced

section

variable (balanced : Balanced s)

include balanced

theorem writeToSlave {modes : SlaveModes} {nonblock : Bool} {rest : List UInt8} {written : Nat}
    {pending : Option (UInt8 × List UInt8)}
    (plain : ∀ byte more, pending = none → rest = byte :: more → ¬s.ErasesMark byte) :
    Balanced (s.writeToSlave modes nonblock pending rest written).1 := by
  cases pending with
  | some held => exact balanced.slaveWrite held.1
  | none =>
    cases rest with
    | nil => exact balanced
    | cons byte more =>
      rw [State.writeToSlave]
      split
      · exact balanced
      · rename_i silent
        split
        · exact balanced.slaveWrite byte
        · split
          · split
            · exact balanced.slaveEcho byte
            · exact balanced.slaveWrite byte
          · split
            · rename_i edits
              apply slaveEcho
              apply balanced.backspace
              intro erasable mark
              exact plain byte more rfl rfl ⟨edits.1, edits.2, silent, erasable, mark⟩
            · exact balanced.slaveWrite byte

theorem withCall (call : Nat → Option Call) : Balanced { s with call := call } :=
  balanced

theorem begin {thread : Nat} {call : Call}
    (applies : s.begin thread call = some t) : Balanced t := by
  unfold State.begin at applies
  split at applies
  · cases applies
    exact balanced.withCall _
  · cases applies

theorem step {op : Op} (meets : KeepsCounts s op)
    (applies : step s op = some t) : Balanced t := by
  cases op with
  | openFile side | closeFile side =>
    cases applies
    exact balanced.setInode rfl rfl rfl rfl rfl
  | setTermios termios =>
    cases applies
    exact balanced
  | setPacketMode on =>
    cases applies
    exact balanced.setInode rfl rfl rfl rfl rfl
  | read thread side length nonblock | write thread side bytes nonblock
  | writeToMaster thread bytes nonblock echoMode | writeToSlave thread bytes nonblock => exact balanced.begin applies
  | advance thread interrupted =>
    simp only [Pty.step] at applies
    split at applies
    · cases applies
    · rename_i call found
      cases applies
      apply withCall
      simp only [KeepsCounts, found] at meets
      cases call with
      | reading side length nonblock =>
        apply balanced.read
        intro some' readable
        by_contra packet
        exact meets ⟨by simpa using packet, some', readable⟩
      | writing side bytes nonblock => exact balanced.write
      | toMaster modes nonblock pending rest written => exact balanced.writeToMaster pending
      | toSlave modes nonblock pending rest written =>
        apply balanced.writeToSlave
        rintro byte more rfl rfl
        exact meets

end

theorem initial : Balanced initialState := by
  intro side
  have empty : (initialState.inode side).Holds side.bits 0 := by
    cases side with
    | master | slave => exact ⟨Nat.zero_le _, by decide, rfl, rfl⟩
  have none : (initialState.inode side).bytesAvailable = 0 := by
    cases side with
    | master => rfl
    | slave => rfl
  constructor
  · rw [none]
    exact empty
  · rw [none]
    rfl
  · rfl
  · intro entry member
    cases member

theorem reached (run : system.Reaches KeepsCounts initialState s) : Balanced s :=
  run.invariant Balanced initial fun balanced meets applies => balanced.step meets applies

end Balanced

/-- The counters of one inode tell what its ring holds, and reads and ring share the bytes
written and not erased. A canonical read takes a `^D` it meets first without returning it. -/
structure Accounts (s : State) (side : Side) : Prop where
  fits : (s.inode side).bytesAvailable ≤ 2 ^ side.bits
  occupancy : if (s.inode side).writePos = (s.inode side).readPos then
      (s.inode side).bytesAvailable = 0 ∨ (s.inode side).bytesAvailable = 2 ^ side.bits
    else (s.inode side).bytesAvailable =
      ((s.inode side).writePos + 2 ^ side.bits - (s.inode side).readPos) % 2 ^ side.bits
  lines : (s.inode side).newLineCount =
    marks ((s.inode side).content side.bits (s.inode side).bytesAvailable)
  stream : (s.taken side).map Prod.fst ++
    (s.inode side).content side.bits (s.inode side).bytesAvailable = s.kept side
  delivered : s.returned side = ((s.taken side).filter fun entry => !entry.2).map Prod.fst
  ends : ∀ entry ∈ s.taken side, entry.2 = true → entry.1 = ctrlD
  unmarked : (∀ entry ∈ s.taken side, entry.2 = false) → s.returned side ++
    (s.inode side).content side.bits (s.inode side).bytesAvailable = s.kept side

theorem KPTYInode.Holds.occupancy (holds : n.Holds bits occupied) :
    if n.writePos = n.readPos then occupied = 0 ∨ occupied = 2 ^ bits
    else occupied = (n.writePos + 2 ^ bits - n.readPos) % 2 ^ bits := by
  have fits := holds.fits
  have inside := holds.inside
  rw [holds.closes]
  rcases Nat.lt_or_ge (n.readPos + occupied) (2 ^ bits) with straight | wraps
  · rw [Nat.mod_eq_of_lt straight]
    split
    · omega
    · rw [show n.readPos + occupied + 2 ^ bits - n.readPos = occupied + 2 ^ bits by omega,
        Nat.add_mod_right, Nat.mod_eq_of_lt (by omega)]
  · rw [Nat.mod_eq_sub_mod wraps, Nat.mod_eq_of_lt (by omega)]
    split
    · omega
    · rw [Nat.mod_eq_of_lt (by omega)]
      omega

theorem Balanced.accounts (balanced : Balanced s) (side : Side) : Accounts s side where
  fits := (balanced side).ring.fits
  occupancy := (balanced side).ring.occupancy
  lines := (balanced side).ring.lines
  stream := (balanced side).stream
  delivered := (balanced side).delivered
  ends := (balanced side).ends
  unmarked := by
    intro plain
    rw [← (balanced side).stream, (balanced side).delivered, filter_eq_self.2]
    intro entry member
    rw [plain entry member]
    rfl

/-- Every state of a run that neither erases a `^D` nor reads in packet mode. -/
theorem accounts_of_keepsCounts (run : system.Reaches KeepsCounts initialState s) (side : Side) :
    Accounts s side :=
  (Balanced.reached run).accounts side

/-- The slave is sent a line, and a canonical read returns it. -/
theorem accounts_of_keepsCounts_line : ∃ s, system.Reaches KeepsCounts initialState s ∧
    s.returned .slave = [0x61, newLine] ∧ Accounts s .slave := by
  have begun : system.Reaches KeepsCounts initialState _ :=
    System.Reaches.refl.next (.write 0 .slave [0x61, newLine] false) trivial rfl
  have written := begun.next (.advance 0 false) trivial rfl
  have reads := written.next (.read 1 .slave 80 false) trivial rfl
  have run := reads.next (.advance 1 false) (fun packet => Bool.false_ne_true packet.1) rfl
  exact ⟨_, run, by decide, accounts_of_keepsCounts run .slave⟩

/-- A packet mode read of a single byte counts two bytes off the ring. -/
theorem not_accounts_always :
    ¬∀ s, system.Reaches anyStep initialState s → ∀ side, Accounts s side := by
  intro always
  have packet : system.Reaches anyStep initialState _ :=
    System.Reaches.refl.next (.setPacketMode true) trivial rfl
  have begun := packet.next (.write 0 .master [0x61] false) trivial rfl
  have written := begun.next (.advance 0 false) trivial rfl
  have reads := written.next (.read 1 .master 80 false) trivial rfl
  have run := reads.next (.advance 1 false) trivial rfl
  have fits := (always _ run .master).fits
  revert fits
  decide

end PadOS.Vfs.Pty
