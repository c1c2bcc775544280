import PadOS.Storage.BufferedFile

/-!
# The window over the file

What the file would hold with its window written out is what every step is told by.
-/

namespace PadOS.Storage

open FileContent List Option

variable {limit : Nat → Nat}

namespace KernelFile

variable {file : KernelFile} {data : List UInt8} {position size : Nat}

theorem moves_le : file.moves limit size ≤ size := Nat.min_le_left _ _

section

variable (limit : Nat → Nat)

variable (file : KernelFile)

theorem moves_pos (some : 0 < size) :
    0 < file.moves limit size := by
  unfold moves
  omega

theorem pwrite_content (data : List UInt8)
    (position : Nat) :
    (file.pwrite limit data position).2.content =
      writeAt 0 file.content position (data.take (file.pwrite limit data position).1) := rfl

theorem pwrite_le (data : List UInt8) (position : Nat) :
    (file.pwrite limit data position).1 ≤ data.length := moves_le

theorem pwrite_pos (position : Nat)
    (some : 0 < data.length) : 0 < (file.pwrite limit data position).1 :=
  moves_pos limit file some

theorem pread_eq (size position : Nat) :
    (file.pread limit size position).1 =
      readAt file.content position (file.pread limit size position).1.length := by
  show readAt _ _ _ = readAt _ _ (readAt _ _ _).length
  apply ext_getElem?
  intro i
  rw [getElem?_readAt, getElem?_readAt, length_readAt]
  by_cases moved : i < file.moves limit size
  · rw [if_pos moved]
    by_cases inside : i < min (file.moves limit size) (file.content.length - position)
    · rw [if_pos inside]
    · rw [if_neg inside, getElem?_eq_none (by omega)]
  · rw [if_neg moved, if_neg (by omega)]

theorem pread_le (size position : Nat) :
    (file.pread limit size position).1.length ≤ size := by
  show (readAt _ _ _).length ≤ _
  rw [length_readAt]
  exact Nat.le_trans (Nat.min_le_left _ _) moves_le

end

theorem pread_empty (none : (file.pread limit size position).1.length = 0) (some : 0 < size) :
    file.content.length ≤ position := by
  change (readAt _ _ _).length = 0 at none
  rw [length_readAt] at none
  have moves := moves_pos limit file some
  omega

end KernelFile

namespace PFile

variable {s t : PFile} {data : List UInt8} {position size : Nat}

/-- What every call keeps of the window. -/
structure Sound (s : PFile) : Prop where
  room : ∀ memory, s.buffer = some memory → memory.length = s.bufferSize
  valid : s.validBufferSize ≤ s.bufferSize
  allocated : s.buffer = none → s.validBufferSize = 0
  clean : s.dirty = false → readAt s.file.content s.bufferPosition s.validBufferSize = s.window

/-- The file with its window written out. -/
def contents (s : PFile) : List UInt8 := writeAt 0 s.file.content s.bufferPosition s.window

theorem Sound.opened (content : List UInt8) : (opened content).Sound where
  room memory same := by cases same
  valid := Nat.le_refl 0
  allocated _ := rfl
  clean _ := rfl

theorem Sound.window_length (sound : s.Sound) : s.window.length = s.validBufferSize := by
  have valid := sound.valid
  match buffer : s.buffer with
  | none =>
    rw [sound.allocated buffer, window, sound.allocated buffer, take_zero]
    rfl
  | some memory =>
    have room := sound.room memory buffer
    rw [window, PFile.memory, buffer, getD_some, length_take, room]
    omega

theorem flushLoop_content (turns : Nat) (file : KernelFile) (data : List UInt8) (position : Nat)
    (enough : data.length ≤ turns) :
    (flushLoop limit turns file data position).content = writeAt 0 file.content position data := by
  induction turns generalizing file data position with
  | zero =>
    rw [length_eq_zero_iff.mp (Nat.le_zero.mp enough), writeAt_nil]
    rfl
  | succ turns ih =>
    rw [flushLoop]
    by_cases left : 0 < data.length
    · have written := file.pwrite_pos limit position left
      have fits := file.pwrite_le limit data position
      have taken : (data.take (file.pwrite limit data position).1).length =
          (file.pwrite limit data position).1 := by
        rw [length_take]
        omega
      rw [if_pos left]
      simp only
      rw [ih _ _ _ (by rw [length_drop]; omega), KernelFile.pwrite_content]
      have joined : writeAt 0 (writeAt 0 file.content position
          (data.take (file.pwrite limit data position).1))
            (position + (data.take (file.pwrite limit data position).1).length)
            (data.drop (file.pwrite limit data position).1) = _ := writeAt_append
      rw [taken, take_append_drop] at joined
      exact joined
    · rw [if_neg left, length_eq_zero_iff.mp (show data.length = 0 by omega), writeAt_nil]

/-- After `Flush` the file holds what it stands for, and the window is as it was. -/
theorem Flush_spec (limit : Nat → Nat) (sound : s.Sound) :
    (s.Flush limit).file.content = s.contents ∧ (s.Flush limit).dirty = false ∧
      ∃ file, s.Flush limit = { s with file := file, dirty := false } := by
  have length := sound.window_length
  unfold Flush
  by_cases dirty : s.dirty = true
  · rw [if_pos dirty]
    exact ⟨flushLoop_content _ _ _ _ length.le, rfl, _, rfl⟩
  · have clean : s.dirty = false := Bool.not_eq_true _ |>.mp dirty
    rw [if_neg dirty]
    refine ⟨?_, clean, s.file, ?_⟩
    · apply (writeAt_readAt _).symm
      rw [length]
      exact sound.clean clean
    · rw [← clean]

theorem Sound.Flush (sound : s.Sound) : (s.Flush limit).Sound := by
  have length := sound.window_length
  rcases Flush_spec limit sound with ⟨content, _, file, flushed⟩
  rw [flushed] at content ⊢
  refine ⟨sound.room, sound.valid, sound.allocated, fun _ => ?_⟩
  show readAt file.content s.bufferPosition s.validBufferSize = s.window
  change file.content = _ at content
  rw [content, contents, readAt_over le_rfl (by omega), Nat.sub_self, drop_zero]
  exact take_of_length_le length.le

theorem contents_of_clean (sound : s.Sound) (clean : s.dirty = false) :
    s.contents = s.file.content := by
  apply writeAt_readAt
  rw [sound.window_length]
  exact sound.clean clean

theorem restart_spec (limit : Nat → Nat) (sound : s.Sound) (position : Nat) :
    ∃ file, { s.Flush limit with bufferPosition := position, validBufferSize := 0 } =
        { s with
          file := file, dirty := false, bufferPosition := position, validBufferSize := 0 } ∧
      file.content = s.contents := by
  rcases Flush_spec limit sound with ⟨content, _, file, flushed⟩
  rw [flushed] at content ⊢
  exact ⟨file, rfl, content⟩

theorem Sound.emptied (sound : s.Sound) (file : KernelFile) (position : Nat) :
    Sound { s with file := file, dirty := false, bufferPosition := position, validBufferSize := 0 } where
  room := sound.room
  valid := Nat.zero_le _
  allocated _ := rfl
  clean _ := by
    show readAt _ _ 0 = List.take 0 _
    simp [readAt]

theorem emptied_contents (file : KernelFile) (position : Nat) :
    contents { s with file := file, dirty := false, bufferPosition := position, validBufferSize := 0 } =
      file.content := writeAt_nil

/-- What a fill leaves: a clean window at the position, empty only behind the end. -/
structure Filled (limit : Nat → Nat) (s t : PFile) (position : Nat) : Prop where
  sound : t.Sound
  contents : t.contents = s.contents
  content : t.file.content = s.contents
  start : t.bufferPosition = position
  size : t.bufferSize = s.bufferSize
  same : t.position = s.position
  allocated : t.buffer ≠ none
  empty : t.validBufferSize = 0 → 0 < s.bufferSize → s.contents.length ≤ position

theorem FillBuffer_spec (limit : Nat → Nat) (sound : s.Sound) (allocated : s.buffer ≠ none)
    (position : Nat) :
    Filled limit s (s.FillBuffer limit position) position := by
  rcases Flush_spec limit sound with ⟨content, _, file, flushed⟩
  have read := file.pread_eq limit s.bufferSize position
  have fits := file.pread_le limit s.bufferSize position
  rw [flushed] at content
  change file.content = _ at content
  have filled : s.FillBuffer limit position = { s with
        file := (file.pread limit s.bufferSize position).2
        dirty := false
        buffer := some ((file.pread limit s.bufferSize position).1 ++
          s.memory.drop (file.pread limit s.bufferSize position).1.length)
        bufferPosition := position
        validBufferSize := (file.pread limit s.bufferSize position).1.length } := by
    rw [FillBuffer, flushed]
    rfl
  have window : (s.FillBuffer limit position).window =
      (file.pread limit s.bufferSize position).1 := by
    rw [filled]
    exact take_left
  have fresh : (s.FillBuffer limit position).Sound := by
    constructor
    · rw [filled]
      intro memory same
      cases same
      rw [length_append, length_drop]
      match buffer : s.buffer with
      | none => exact absurd buffer allocated
      | some old =>
        have room := sound.room old buffer
        rw [PFile.memory, buffer, getD_some]
        show _ = s.bufferSize
        omega
    · rw [filled]
      exact fits
    · rw [filled]
      intro none
      cases none
    · intro _
      rw [window, filled]
      exact read.symm
  have clean : (s.FillBuffer limit position).dirty = false := by rw [filled]
  have kept : (s.FillBuffer limit position).file.content = s.contents := by
    rw [filled]
    exact content
  refine ⟨fresh, (contents_of_clean fresh clean).trans kept, kept, ?_, ?_, ?_, ?_, ?_⟩
  · rw [filled]
  · rw [filled]
  · rw [filled]
  · rw [filled]
    exact some_ne_none _
  · rw [filled, ← content]
    exact KernelFile.pread_empty

end PFile

end PadOS.Storage
