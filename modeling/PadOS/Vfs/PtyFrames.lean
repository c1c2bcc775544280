import PadOS.Vfs.PtyAccounting

/-! # What the calls on a pseudo terminal leave alone

No call changes the terminal modes, packet mode or the calls of other threads. A write position stays
inside its ring and, but for packet mode, a ring counts no more bytes than it has cells.
-/

namespace PadOS.Vfs.Pty

open Function

/-- What `t` has in common with `s` when a call went on in between. -/
structure SameFrame (s t : State) : Prop where
  termios : t.termios = s.termios
  call : t.call = s.call
  packetMode : ∀ side, (t.inode side).packetMode = (s.inode side).packetMode
  inside : ∀ side, (s.inode side).writePos < 2 ^ side.bits → (t.inode side).writePos < 2 ^ side.bits
  available : ∀ side, (s.inode side).packetMode = false →
    (s.inode side).bytesAvailable ≤ 2 ^ side.bits → (t.inode side).bytesAvailable ≤ 2 ^ side.bits

namespace SameFrame

variable {s t u : State} {side : Side} {nonblock interrupted : Bool} {out : List UInt8}
  {written result : Nat}

theorem refl (s : State) : SameFrame s s := ⟨rfl, rfl, fun _ => rfl, fun _ => id, fun _ _ => id⟩

theorem trans (first : SameFrame s t) (second : SameFrame t u) : SameFrame s u :=
  ⟨second.termios.trans first.termios, second.call.trans first.call,
    fun side => (second.packetMode side).trans (first.packetMode side),
    fun side within => second.inside side (first.inside side within),
    fun side plain fits =>
      second.available side ((first.packetMode side).trans plain) (first.available side plain fits)⟩

theorem setInode {n : KPTYInode} (termios : t.termios = s.termios) (call : t.call = s.call)
    (inode : t.inode = update s.inode side n)
    (same : n.packetMode = (s.inode side).packetMode)
    (inside : (s.inode side).writePos < 2 ^ side.bits → n.writePos < 2 ^ side.bits)
    (available : (s.inode side).packetMode = false → (s.inode side).bytesAvailable ≤ 2 ^ side.bits →
      n.bytesAvailable ≤ 2 ^ side.bits) : SameFrame s t := by
  constructor
  · exact termios
  · exact call
  · intro other
    rw [inode]
    by_cases here : other = side
    · subst here
      rw [update_self, same]
    · rw [update_of_ne here]
  · intro other
    rw [inode]
    by_cases here : other = side
    · subst here
      rw [update_self]
      exact inside
    · rw [update_of_ne here]
      exact id
  · intro other
    rw [inode]
    by_cases here : other = side
    · subst here
      rw [update_self]
      exact available
    · rw [update_of_ne here]
      exact fun _ => id

theorem put {n : KPTYInode} (same : n.packetMode = (s.inode side).packetMode)
    (inside : n.writePos = (s.inode side).writePos)
    (available : n.bytesAvailable = (s.inode side).bytesAvailable) : SameFrame s (s.setInode side n) :=
  setInode rfl rfl rfl same (fun within => inside.trans_lt within) fun _ fits => available.trans_le fits

theorem masked_lt (bits position : Nat) : position &&& (2 ^ bits - 1) < 2 ^ bits := by
  rw [RingBuffer.and_mask]
  exact Nat.mod_lt _ (Nat.two_pow_pos bits)

theorem readLoop (bits : Nat) (needNewLine first : Bool) (left : Nat) (n : KPTYInode) :
    (KPTYInode.readLoop bits needNewLine left first n).node.packetMode = n.packetMode ∧
      (KPTYInode.readLoop bits needNewLine left first n).node.writePos = n.writePos := by
  induction left generalizing n first with
  | zero => exact ⟨rfl, rfl⟩
  | succ left ih =>
    unfold KPTYInode.readLoop
    dsimp only
    split
    · split
      · exact ⟨rfl, rfl⟩
      · exact ⟨rfl, rfl⟩
    · rw [(ih ..).1, (ih ..).2]
      split
      · exact ⟨rfl, rfl⟩
      · exact ⟨rfl, rfl⟩

theorem readLoop_length (bits : Nat) (needNewLine first : Bool) (left : Nat) (n : KPTYInode) :
    (KPTYInode.readLoop bits needNewLine left first n).bytes.length ≤ left := by
  induction left generalizing n first with
  | zero => exact Nat.le_refl 0
  | succ left ih =>
    unfold KPTYInode.readLoop
    dsimp only
    split
    · split
      · exact Nat.zero_le _
      · exact Nat.zero_le _
    · exact Nat.succ_le_succ (ih ..)

theorem copyOut_available {bits length : Nat} {n : KPTYInode} (needNewLine : Bool)
    (plain : n.packetMode = false) :
    (n.copyOut bits needNewLine length).node.bytesAvailable ≤ n.bytesAvailable := by
  have header : n.header = [] := by simp [KPTYInode.header, plain]
  unfold KPTYInode.copyOut
  rw [header]
  dsimp only [List.length_nil]
  rw [zero_add]
  have enough := Nat.min_le_right (length - 0) n.bytesAvailable
  generalize min (length - 0) n.bytesAvailable = left at enough ⊢
  have few := readLoop_length bits needNewLine true left n
  cases left with
  | zero => exact le_rfl
  | succ left =>
    unfold KPTYInode.readLoop at few ⊢
    dsimp only at few ⊢
    split at few
    · rename_i mark
      rw [if_pos mark, if_pos rfl]
      show decrease (decrease n.bytesAvailable 1) 0 ≤ _
      rw [decrease_eq (Nat.zero_le _), decrease_eq (by omega)]
      omega
    · rename_i plain
      rw [if_neg plain]
      have later := (@KPTYInode.readLoop_later bits needNewLine left
        ((if n.fileData n.readPos = ctrlD ∨ n.fileData n.readPos = newLine then
          n.countLineOut else n).advanceReadPos bits)).2
      have counted : ((if n.fileData n.readPos = ctrlD ∨ n.fileData n.readPos = newLine then
          n.countLineOut else n).advanceReadPos bits).bytesAvailable = n.bytesAvailable := by
        split
        · rfl
        · rfl
      dsimp only
      rw [later, counted, decrease_eq (few.trans enough)]
      exact Nat.sub_le _ _

theorem writeLoop (bits : Nat) (bytes : List UInt8) (n : KPTYInode) :
    (KPTYInode.writeLoop bits bytes n).1.packetMode = n.packetMode ∧
      (n.writePos < 2 ^ bits → (KPTYInode.writeLoop bits bytes n).1.writePos < 2 ^ bits) ∧
      (n.bytesAvailable ≤ 2 ^ bits → (KPTYInode.writeLoop bits bytes n).1.bytesAvailable ≤ 2 ^ bits) := by
  induction bytes generalizing n with
  | nil => exact ⟨rfl, id, id⟩
  | cons byte bytes ih =>
    unfold KPTYInode.writeLoop
    split
    · rename_i room
      have pushed : (n.push bits byte).bytesAvailable ≤ 2 ^ bits := by
        show increment _ ≤ _
        unfold increment
        split
        · exact room
        · exact Nat.zero_le _
      obtain ⟨mode, inside, available⟩ := ih (n.push bits byte)
      exact ⟨mode, fun _ => inside (masked_lt bits _), fun _ => available pushed⟩
    · exact ⟨rfl, id, id⟩

section

variable (s : State)

theorem read (side : Side) (length : Nat) (nonblock interrupted : Bool) :
    SameFrame s (s.read side length nonblock interrupted).1 := by
  unfold State.read
  split
  · exact refl s
  · split
    · have kept := readLoop side.bits (s.needNewLine side) true
        (min (length - (s.inode side).header.length) (s.inode side).bytesAvailable) (s.inode side)
      exact setInode rfl rfl rfl kept.1 (fun within => kept.2.trans_lt within) fun plain fits =>
        (copyOut_available _ plain).trans fits
    · split
      · exact refl s
      · split
        · exact refl s
        · split
          · exact refl s
          · exact refl s

theorem write (side : Side) (bytes : List UInt8) (nonblock : Bool) :
    SameFrame s (s.write side bytes nonblock).1 := by
  unfold State.write
  split
  · split
    · exact refl s
    · split
      · exact refl s
      · exact refl s
  · have kept := writeLoop side.bits bytes (s.inode side)
    exact setInode rfl rfl rfl kept.1 kept.2.1 fun _ => kept.2.2

theorem echo (byte : UInt8) : SameFrame s (s.echo byte).1 := by
  unfold State.echo
  split
  · exact refl s
  · exact write ..

theorem writeToMaster (modes : MasterModes) (nonblock : Bool)
    (pending : Option (List UInt8)) (rest : List UInt8) (written : Nat) :
    SameFrame s (s.writeToMaster modes nonblock pending rest written).1 := by
  unfold State.writeToMaster
  split
  · exact write ..
  · exact refl s
  · split
    · exact refl s
    · exact write ..

theorem slaveEcho (modes : SlaveModes) (nonblock : Bool) (byte : UInt8)
    (rest : List UInt8) (written result : Nat) :
    SameFrame s (s.slaveEcho modes nonblock byte rest written result).1 := by
  unfold State.slaveEcho
  dsimp only
  split
  · exact echo s byte
  · exact refl s

theorem slaveWrite (modes : SlaveModes) (nonblock : Bool) (byte : UInt8)
    (out rest : List UInt8) (written : Nat) :
    SameFrame s (s.slaveWrite modes nonblock byte out rest written).1 := by
  have stored := write s .slave out nonblock
  unfold State.slaveWrite
  dsimp only
  split
  · exact stored
  · exact stored
  · split
    · split
      · exact stored.trans (echo ..)
      · exact (stored.trans (echo ..)).trans (slaveEcho ..)
    · exact stored.trans (slaveEcho ..)

theorem backspace : SameFrame s s.backspace := by
  unfold State.backspace
  split
  · rename_i erasable
    refine setInode rfl rfl rfl rfl (fun _ => masked_lt Side.slave.bits _) fun _ fits => ?_
    exact (decrease_eq erasable.1).trans_le ((Nat.sub_le _ _).trans fits)
  · exact refl s

theorem writeToSlave (modes : SlaveModes) (nonblock : Bool)
    (pending : Option (UInt8 × List UInt8)) (rest : List UInt8) (written : Nat) :
    SameFrame s (s.writeToSlave modes nonblock pending rest written).1 := by
  unfold State.writeToSlave
  split
  · exact slaveWrite ..
  · exact refl s
  · split
    · exact refl s
    · split
      · exact slaveWrite ..
      · split
        · split
          · exact slaveEcho ..
          · exact slaveWrite ..
        · split
          · exact (backspace s).trans (slaveEcho ..)
          · exact slaveWrite ..

theorem advance (interrupted : Bool) (call : Call) :
    SameFrame s (s.advance interrupted call).1 := by
  cases call with
  | reading side length nonblock => exact read ..
  | writing side bytes nonblock => exact write ..
  | toMaster modes nonblock pending rest written => exact writeToMaster ..
  | toSlave modes nonblock pending rest written => exact writeToSlave ..

end

end SameFrame

end PadOS.Vfs.Pty
