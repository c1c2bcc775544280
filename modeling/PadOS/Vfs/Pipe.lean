import PadOS.Core.ErrorCode
import PadOS.Core.RingBuffer

/-! # Pipes

The ring of a pipe and its two calls. A call holds the pipe's mutex except while it
waits, so what it does between two waits is one step. No sum of lengths here exceeds a
`length` that was passed or the size of the ring, and no difference is taken below zero, so lengths are
natural numbers.
-/

namespace PadOS.Vfs.Pipe

open RingBuffer List

/-- `PIPE_BUF_SIZE` is asserted to be a power of two. -/
def pipeBufSize (bits : Nat) : Nat := 2 ^ bits

structure KPipeInode where
  buffer : Nat → UInt8
  readPos : Nat := 0
  writePos : Nat := 0
  bytesAvailable : Nat := 0
  readerCount : Int := 0
  writerCount : Int := 0

/-! ## The copy loops -/

/-- The bytes that the loop of `Read` still has to copy, and where `readPos` ends. -/
def copyOut (bits : Nat) (buffer : Nat → UInt8) : Nat → Nat → Nat → List UInt8 × Nat
  | 0, readPos, _ => ([], readPos)
  | rounds + 1, readPos, left =>
    if left = 0 then ([], readPos)
    else
      let contiguous := min left (pipeBufSize bits - readPos)
      let rest := copyOut bits buffer rounds ((readPos + contiguous) &&& (pipeBufSize bits - 1))
        (left - contiguous)
      ((List.range contiguous).map (fun i => buffer (readPos + i)) ++ rest.1, rest.2)

/-- The ring when the loop of `Write` has copied `bytes`, and where `writePos` ends. -/
def copyIn (bits : Nat) : Nat → (Nat → UInt8) → Nat → List UInt8 → (Nat → UInt8) × Nat
  | 0, buffer, writePos, _ => (buffer, writePos)
  | rounds + 1, buffer, writePos, bytes =>
    if bytes.length = 0 then (buffer, writePos)
    else
      let contiguous := min bytes.length (pipeBufSize bits - writePos)
      copyIn bits rounds (memcpy buffer writePos (bytes.take contiguous))
        ((writePos + contiguous) &&& (pipeBufSize bits - 1)) (bytes.drop contiguous)

variable {bits rounds : Nat} {buffer : Nat → UInt8}

theorem pipeBufSize_pos : 0 < pipeBufSize bits := Nat.two_pow_pos bits

theorem masked (x : Nat) : x &&& (pipeBufSize bits - 1) = x % pipeBufSize bits := and_mask x bits

theorem copyOut_eq {readPos left : Nat} (inside : readPos < pipeBufSize bits)
    (enough : left ≤ rounds) :
    copyOut bits buffer rounds readPos left =
      (window (pipeBufSize bits) buffer readPos left, (readPos + left) % pipeBufSize bits) := by
  induction rounds generalizing readPos left with
  | zero =>
    have done : left = 0 := by omega
    simp [copyOut, done, Nat.mod_eq_of_lt inside]
  | succ rounds ih =>
    unfold copyOut
    split
    · rename_i done
      simp [done, Nat.mod_eq_of_lt inside]
    · have positive := @pipeBufSize_pos bits
      let contiguous := min left (pipeBufSize bits - readPos)
      have straight : readPos + contiguous ≤ pipeBufSize bits := by omega
      have split : left = contiguous + (left - contiguous) := by omega
      have later := ih (Nat.mod_lt (readPos + contiguous) positive)
        (show left - contiguous ≤ rounds by omega)
      rw [window_mod, Nat.mod_add_mod, add_assoc, ← split] at later
      show (_ ++ (copyOut _ _ _ _ _).1, (copyOut _ _ _ _ _).2) = _
      rw [masked, later, ← window_straight straight, ← window_add, ← split]

theorem copyIn_window {start n writePos : Nat} {bytes : List UInt8}
    (here : writePos = (start + n) % pipeBufSize bits) (room : n + bytes.length ≤ pipeBufSize bits)
    (enough : bytes.length ≤ rounds) :
    window (pipeBufSize bits) (copyIn bits rounds buffer writePos bytes).1 start (n + bytes.length) =
        window (pipeBufSize bits) buffer start n ++ bytes ∧
      (copyIn bits rounds buffer writePos bytes).2 = (start + (n + bytes.length)) % pipeBufSize bits := by
  induction rounds generalizing buffer n writePos bytes with
  | zero =>
    have done : bytes = [] := length_eq_zero_iff.1 (by omega)
    simp [copyIn, done, here]
  | succ rounds ih =>
    unfold copyIn
    split
    · rename_i done
      simp [length_eq_zero_iff.1 done, here]
    · have inside : writePos < pipeBufSize bits := here ▸ Nat.mod_lt _ pipeBufSize_pos
      let contiguous := min bytes.length (pipeBufSize bits - writePos)
      have taken : (bytes.take contiguous).length = contiguous := by
        rw [length_take]
        omega
      have left : (bytes.drop contiguous).length = bytes.length - contiguous := length_drop
      have next : (writePos + contiguous) &&& (pipeBufSize bits - 1) =
          (start + (n + contiguous)) % pipeBufSize bits := by
        rw [masked, here, Nat.mod_add_mod, add_assoc]
      have copied : window (pipeBufSize bits) (memcpy buffer writePos (bytes.take contiguous)) start
          (n + contiguous) = window (pipeBufSize bits) buffer start n ++ bytes.take contiguous := by
        rw [← window_memcpy here (by omega) (by omega), taken]
      have later := @ih (memcpy buffer writePos (bytes.take contiguous)) (n + contiguous) _
        (bytes.drop contiguous) next (by omega) (by omega)
      have total : n + contiguous + (bytes.drop contiguous).length = n + bytes.length := by omega
      rw [total, copied, append_assoc, take_append_drop] at later
      exact later

/-! ## The calls -/

namespace KPipeInode

/-- From the head of the waiting loop on. Every round of the copy loop copies a byte. -/
def readLoop (bits : Nat) (p : KPipeInode) (length : Nat) (nonblock : Bool) :
    KPipeInode × Outcome (List UInt8) :=
  if p.bytesAvailable = 0 then
    if p.writerCount = 0 then (p, .returns [])
    else if nonblock then (p, .throws .wouldblock)
    else (p, .waits)
  else
    let toRead := min length p.bytesAvailable
    let copied := copyOut bits p.buffer toRead p.readPos toRead
    ({ p with readPos := copied.2, bytesAvailable := p.bytesAvailable - toRead }, .returns copied.1)

def read (bits : Nat) (p : KPipeInode) (length : Nat) (nonblock : Bool) :
    KPipeInode × Outcome (List UInt8) :=
  if length = 0 then (p, .returns []) else p.readLoop bits length nonblock

def readResumed (bits : Nat) (p : KPipeInode) (length : Nat) (nonblock interrupted : Bool) :
    KPipeInode × Outcome (List UInt8) :=
  if interrupted then (p, .throws .intr) else p.readLoop bits length nonblock

/-- The ring after one pass of `Write` copied `bytes`. -/
def store (bits : Nat) (p : KPipeInode) (bytes : List UInt8) : KPipeInode :=
  let copied := copyIn bits bytes.length p.buffer p.writePos bytes
  { p with buffer := copied.1, writePos := copied.2, bytesAvailable := p.bytesAvailable + bytes.length }

end KPipeInode

/-- The free space that `Write` waits for: all of the data where the write is atomic. -/
def needed (bits : Nat) (data : List UInt8) (written : Nat) : Nat :=
  if data.length ≤ pipeBufSize bits ∧ written = 0 then data.length else 1

/-- What a step of a write leaves: the pipe, and the `written` of the call. -/
structure WriteStep where
  pipe : KPipeInode
  written : Nat
  outcome : Outcome Nat

namespace KPipeInode

/-- From the head of the outer loop on. Every pass that goes round copied a byte. -/
def writeLoop (bits : Nat) (data : List UInt8) (nonblock : Bool) :
    Nat → KPipeInode → Nat → WriteStep
  | 0, p, written => ⟨p, written, .returns written⟩
  | rounds + 1, p, written =>
    if written < data.length then
      let freeSpace := pipeBufSize bits - p.bytesAvailable
      if freeSpace < needed bits data written then
        if p.readerCount = 0 then ⟨p, written, .throws .pipe⟩
        else if nonblock then ⟨p, written, .throws .wouldblock⟩
        else ⟨p, written, .waits⟩
      else
        let toCopy := min (data.length - written) freeSpace
        let p' := p.store bits ((data.drop written).take toCopy)
        if data.length ≤ pipeBufSize bits then ⟨p', written + toCopy, .returns (written + toCopy)⟩
        else writeLoop bits data nonblock rounds p' (written + toCopy)
    else ⟨p, written, .returns written⟩

def write (bits : Nat) (p : KPipeInode) (data : List UInt8) (nonblock : Bool) : WriteStep :=
  if data.length = 0 then ⟨p, 0, .returns 0⟩
  else if p.readerCount = 0 then ⟨p, 0, .throws .pipe⟩
  else p.writeLoop bits data nonblock (data.length + 1) 0

def writeResumed (bits : Nat) (p : KPipeInode) (data : List UInt8) (written : Nat)
    (nonblock interrupted : Bool) : WriteStep :=
  if interrupted then ⟨p, written, .throws .intr⟩
  else p.writeLoop bits data nonblock (data.length - written + 1) written

/-! ## What a step does to the ring -/

/-- The bytes in the ring, oldest first. -/
def content (bits : Nat) (p : KPipeInode) : List UInt8 :=
  window (pipeBufSize bits) p.buffer p.readPos p.bytesAvailable

structure RingIntact (bits : Nat) (p : KPipeInode) : Prop where
  fits : p.bytesAvailable ≤ pipeBufSize bits
  inside : p.readPos < pipeBufSize bits
  closes : p.writePos = (p.readPos + p.bytesAvailable) % pipeBufSize bits

end KPipeInode

/-- The bytes a step of `Read` hands to the caller. -/
def returnedBytes : Outcome (List UInt8) → List UInt8
  | .returns bytes => bytes
  | _ => []

namespace KPipeInode

variable {p : KPipeInode} {length written : Nat} {nonblock interrupted : Bool} {data bytes : List UInt8}

section

variable (intact : p.RingIntact bits)

include intact

theorem readLoop_keeps :
    (p.readLoop bits length nonblock).1.RingIntact bits ∧
      returnedBytes (p.readLoop bits length nonblock).2 ++ (p.readLoop bits length nonblock).1.content bits =
        p.content bits := by
  unfold readLoop
  split
  · split
    · exact ⟨intact, rfl⟩
    · split
      · exact ⟨intact, rfl⟩
      · exact ⟨intact, rfl⟩
  · let toRead := min length p.bytesAvailable
    have split : p.bytesAvailable = toRead + (p.bytesAvailable - toRead) := by omega
    have fits := intact.fits
    dsimp only
    rw [copyOut_eq intact.inside le_rfl]
    constructor
    · constructor
      · show p.bytesAvailable - toRead ≤ _
        omega
      · exact Nat.mod_lt _ pipeBufSize_pos
      · show p.writePos = ((p.readPos + toRead) % _ + (p.bytesAvailable - toRead)) % _
        rw [Nat.mod_add_mod, add_assoc, ← split]
        exact intact.closes
    · show window _ _ _ toRead ++ window _ _ ((p.readPos + toRead) % _) (p.bytesAvailable - toRead) =
        window _ _ _ _
      rw [window_mod, ← window_add, ← split]

theorem read_keeps :
    (p.read bits length nonblock).1.RingIntact bits ∧
      returnedBytes (p.read bits length nonblock).2 ++ (p.read bits length nonblock).1.content bits =
        p.content bits := by
  unfold read
  split
  · exact ⟨intact, rfl⟩
  · exact readLoop_keeps intact

theorem readResumed_keeps :
    (p.readResumed bits length nonblock interrupted).1.RingIntact bits ∧
      returnedBytes (p.readResumed bits length nonblock interrupted).2 ++
        (p.readResumed bits length nonblock interrupted).1.content bits = p.content bits := by
  unfold readResumed
  split
  · exact ⟨intact, rfl⟩
  · exact readLoop_keeps intact

theorem store_keeps
    (room : bytes.length ≤ pipeBufSize bits - p.bytesAvailable) :
    (p.store bits bytes).RingIntact bits ∧
      (p.store bits bytes).content bits = p.content bits ++ bytes := by
  have fits := intact.fits
  have copied := @copyIn_window bits _ p.buffer _ _ _ _ intact.closes
    (show p.bytesAvailable + bytes.length ≤ pipeBufSize bits by omega) le_rfl
  constructor
  · constructor
    · show p.bytesAvailable + bytes.length ≤ _
      omega
    · exact intact.inside
    · exact copied.2
  · exact copied.1

end

end KPipeInode

/-- What a step of a write that had copied `before` bytes makes of the ring `p`. -/
structure WriteStep.Keeps (bits : Nat) (p : KPipeInode) (data : List UInt8) (before : Nat)
    (w : WriteStep) : Prop where
  intact : w.pipe.RingIntact bits
  onwards : before ≤ w.written
  within : w.written ≤ data.length
  content : w.pipe.content bits = p.content bits ++ (data.drop before).take (w.written - before)
  atomic : data.length ≤ pipeBufSize bits → w.written = before ∨
    w.written = data.length ∧ w.outcome = .returns data.length

namespace KPipeInode

variable {p : KPipeInode} {length written : Nat} {nonblock interrupted : Bool} {data bytes : List UInt8}

section

variable (intact : p.RingIntact bits)

include intact

theorem still_keeps {outcome : Outcome Nat} (within : written ≤ data.length) :
    WriteStep.Keeps bits p data written ⟨p, written, outcome⟩ where
  intact := intact
  onwards := le_rfl
  within := within
  content := by simp
  atomic := fun _ => .inl rfl

theorem writeLoop_keeps (within : written ≤ data.length)
    (whole : data.length ≤ pipeBufSize bits → written = 0) :
    (p.writeLoop bits data nonblock rounds written).Keeps bits p data written := by
  induction rounds generalizing p written with
  | zero => exact still_keeps intact within
  | succ rounds ih =>
    unfold writeLoop
    split
    · rename_i more
      dsimp only
      split
      · split
        · exact still_keeps intact within
        · split
          · exact still_keeps intact within
          · exact still_keeps intact within
      · rename_i enough
        generalize chosen : min (data.length - written) (pipeBufSize bits - p.bytesAvailable) = toCopy
        have taken : ((data.drop written).take toCopy).length = toCopy := by
          rw [length_take, length_drop]
          omega
        have stored := store_keeps intact (show ((data.drop written).take toCopy).length ≤ _ by omega)
        have fits : written + toCopy ≤ data.length := by omega
        split
        · rename_i atomic
          have start := whole atomic
          have all : toCopy = data.length := by
            rw [needed, if_pos ⟨atomic, start⟩] at enough
            omega
          constructor
          · exact stored.1
          · exact Nat.le_add_right _ _
          · exact fits
          · rw [Nat.add_sub_cancel_left]
            exact stored.2
          · intro _
            right
            constructor
            · show written + toCopy = data.length
              omega
            · show Outcome.returns (written + toCopy) = .returns data.length
              rw [show written + toCopy = data.length by omega]
        · rename_i large
          have later := ih stored.1 fits (fun atomic => absurd atomic large)
          have onwards := later.onwards
          constructor
          · exact later.intact
          · omega
          · exact later.within
          · rw [later.content, stored.2, append_assoc, ← drop_drop]
            congr 1
            rw [← take_add]
            congr 1
            omega
          · exact fun atomic => absurd atomic large
    · exact still_keeps intact within

theorem write_keeps :
    (p.write bits data nonblock).Keeps bits p data 0 := by
  unfold write
  split
  · exact still_keeps intact (Nat.zero_le _)
  · split
    · exact still_keeps intact (Nat.zero_le _)
    · exact writeLoop_keeps intact (Nat.zero_le _) (fun _ => rfl)

theorem writeResumed_keeps (within : written ≤ data.length)
    (whole : data.length ≤ pipeBufSize bits → written = 0) :
    (p.writeResumed bits data written nonblock interrupted).Keeps bits p data written := by
  unfold writeResumed
  split
  · exact still_keeps intact within
  · exact writeLoop_keeps intact within whole

end

end KPipeInode

end PadOS.Vfs.Pipe
