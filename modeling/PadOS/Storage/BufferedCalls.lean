import PadOS.Storage.BufferedWindow

/-!
# Reads and writes through the window

Each call moves what a plain file would move: `contents` is read by the ones and written by the
others, wherever the window stands and however the kernel cuts the transfers.
-/

namespace PadOS.Storage

open FileContent List Option

variable {limit : Nat → Nat}

namespace PFile

variable {s t : PFile} {data : List UInt8} {position size turns : Nat}

/-- What a read changes is the window only. -/
structure Kept (s t : PFile) : Prop where
  sound : t.Sound
  contents : t.contents = s.contents
  size : t.bufferSize = s.bufferSize
  same : t.position = s.position
  allocated : t.buffer ≠ none

theorem Kept.trans {u : PFile} (first : Kept s t) (second : Kept t u) : Kept s u where
  sound := second.sound
  contents := second.contents.trans first.contents
  size := second.size.trans first.size
  same := second.same.trans first.same
  allocated := second.allocated

theorem Kept.of_filled (filled : Filled limit s t position) : Kept s t :=
  ⟨filled.sound, filled.contents, filled.size, filled.same, filled.allocated⟩

theorem Kept.called (sound : s.Sound) (allocated : s.buffer ≠ none) (file : KernelFile)
    (content : file.content = s.file.content) : Kept s { s with file := file } where
  sound := ⟨sound.room, sound.valid, sound.allocated, fun clean => by
    show readAt file.content _ _ = _
    rw [content]
    exact sound.clean clean⟩
  contents := by
    show writeAt 0 file.content _ _ = _
    rw [content]
    rfl
  size := rfl
  same := rfl
  allocated := allocated

theorem allocate_spec (sound : s.Sound) : Kept s s.allocate := by
  unfold allocate
  match buffer : s.buffer with
  | some memory =>
    refine ⟨sound, rfl, rfl, rfl, ?_⟩
    rw [buffer]
    exact some_ne_none memory
  | none =>
    have empty := sound.allocated buffer
    have window : window { s with buffer := some (List.replicate s.bufferSize 0) } = s.window := by
      show List.take s.validBufferSize _ = List.take s.validBufferSize _
      rw [empty, take_zero, take_zero]
    refine ⟨⟨?_, sound.valid, ?_, ?_⟩, ?_, rfl, rfl, some_ne_none _⟩
    · intro memory same
      cases same
      exact length_replicate
    · intro _
      exact empty
    · intro clean
      rw [window]
      exact sound.clean clean
    · rw [contents, window]
      rfl

theorem copied_eq (sound : s.Sound) (start : s.bufferPosition ≤ position)
    (fits : position + size ≤ s.bufferPosition + s.validBufferSize) :
    (s.memory.drop (position - s.bufferPosition)).take size = readAt s.contents position size := by
  rw [contents, readAt_over start (by rw [sound.window_length]; exact fits), window, drop_take,
    take_take, min_eq_left (by omega)]

/-- A position behind or before the window. -/
def Outside (s : PFile) (position : Nat) : Prop :=
  position < s.bufferPosition ∨ s.bufferPosition + s.validBufferSize ≤ position

instance (s : PFile) (position : Nat) : Decidable (s.Outside position) :=
  inferInstanceAs (Decidable (_ ∨ _))

/-- Before a turn copies, the window is brought to the position; only at the end it stays empty. -/
theorem fetch_spec (limit : Nat → Nat) (sound : s.Sound) (allocated : s.buffer ≠ none)
    (buffered : 0 < s.bufferSize) (position : Nat) :
    ∃ t, (if s.Outside position then s.FillBuffer limit position else s) = t ∧ Kept s t ∧
      t.bufferPosition ≤ position ∧
      (s.Outside position ∧ t.validBufferSize = 0 ∧ s.contents.length ≤ position ∨
        ¬ (s.Outside position ∧ t.validBufferSize = 0) ∧
          position < t.bufferPosition + t.validBufferSize) := by
  by_cases outside : s.Outside position
  · have filled := FillBuffer_spec limit sound allocated position
    refine ⟨_, if_pos outside, .of_filled filled, Nat.le_of_eq filled.start, ?_⟩
    by_cases empty : (s.FillBuffer limit position).validBufferSize = 0
    · exact Or.inl ⟨outside, empty, filled.empty empty buffered⟩
    · apply Or.inr
      rw [filled.start]
      exact ⟨fun both => empty both.2, by omega⟩
  · refine ⟨s, if_neg outside, ⟨sound, rfl, rfl, rfl, allocated⟩, ?_, Or.inr ⟨?_, ?_⟩⟩
    · unfold Outside at outside
      omega
    · exact fun both => outside both.1
    · unfold Outside at outside
      omega

theorem readLoop_turn (left : 0 < size)
    (fetched : (if s.Outside position then s.FillBuffer limit position else s) = t) :
    readLoop limit (turns + 1) s position size =
      if s.Outside position ∧ t.validBufferSize = 0 then ([], t)
      else
        let currentLength := min (t.validBufferSize - (position - t.bufferPosition)) size
        let rest := readLoop limit turns t (position + currentLength) (size - currentLength)
        ((t.memory.drop (position - t.bufferPosition)).take currentLength ++ rest.1, rest.2) := by
  subst fetched
  rw [readLoop, if_pos left]
  rfl

theorem readLoop_spec (limit : Nat → Nat) (sound : s.Sound) (allocated : s.buffer ≠ none)
    (buffered : 0 < s.bufferSize) (position : Nat) (enough : size ≤ turns) :
    (readLoop limit turns s position size).1 = readAt s.contents position size ∧
      Kept s (readLoop limit turns s position size).2 := by
  induction turns generalizing s position size with
  | zero =>
    have none : size = 0 := Nat.le_zero.mp enough
    subst none
    exact ⟨(take_zero).symm, sound, rfl, rfl, rfl, allocated⟩
  | succ turns ih =>
    by_cases left : 0 < size
    · rcases fetch_spec limit sound allocated buffered position with
        ⟨t, fetched, kept, start, ⟨outside, empty, behind⟩ | ⟨filled, inside⟩⟩
      · rw [readLoop_turn left fetched, if_pos ⟨outside, empty⟩]
        refine ⟨?_, kept⟩
        rw [readAt, drop_eq_nil_of_le behind, take_nil]
      · rw [readLoop_turn left fetched, if_neg filled]
        simp only
        have fits : position + min (t.validBufferSize - (position - t.bufferPosition)) size ≤
            t.bufferPosition + t.validBufferSize := by omega
        have copied := copied_eq kept.sound start fits
        have less : size - min (t.validBufferSize - (position - t.bufferPosition)) size ≤ turns := by
          omega
        have rest := ih kept.sound kept.allocated (by rw [kept.size]; exact buffered)
          (position + min (t.validBufferSize - (position - t.bufferPosition)) size) less
        refine ⟨?_, kept.trans rest.2⟩
        rw [copied, rest.1, kept.contents, readAt_append]
        · congr 1
          omega
        · rw [← kept.contents, ← copied, length_take, length_drop]
          have whole := kept.sound.window_length
          rw [window, length_take] at whole
          omega
    · have none : size = 0 := by omega
      subst none
      rw [readLoop, if_neg left]
      exact ⟨(take_zero).symm, sound, rfl, rfl, rfl, allocated⟩

theorem goesDirect_apart (sound : s.Sound) (direct : s.goesDirect position size = true) {moved : Nat}
    (fits : moved ≤ size - s.bufferSize) :
    s.window.length = 0 ∨ position + moved ≤ s.bufferPosition ∨
      s.bufferPosition + s.window.length ≤ position := by
  unfold goesDirect at direct
  simp only [decide_eq_true_eq] at direct
  rw [sound.window_length]
  omega

theorem direct_read (limit : Nat → Nat) (sound : s.Sound) (direct : s.goesDirect position size = true) :
    (s.file.pread limit (size - s.bufferSize) position).1 =
      readAt s.contents position (s.file.pread limit (size - s.bufferSize) position).1.length := by
  have read := s.file.pread_eq limit (size - s.bufferSize) position
  have fits := s.file.pread_le limit (size - s.bufferSize) position
  have apart := goesDirect_apart sound direct fits
  generalize s.file.pread limit (size - s.bufferSize) position = result at read apart
  by_cases empty : s.window.length = 0
  · rw [contents, length_eq_zero_iff.mp empty, writeAt_nil]
    exact read
  · rw [contents, readAt_apart (by omega) (by rw [← read])]
    exact read

/-- Whether a read that goes to the file itself is not cut short by the kernel. -/
def ReadsWhole (limit : Nat → Nat) (s : PFile) (position size : Nat) : Prop :=
  s.bufferSize = 0 →
    (s.file.pread limit size position).1.length = min size (s.file.content.length - position)

theorem readLoop_unbuffered (limit : Nat → Nat) (sound : s.Sound) (allocated : s.buffer ≠ none)
    (unbuffered : s.bufferSize = 0) (turns position size : Nat) :
    (readLoop limit turns s position size).1 = [] ∧
      Kept s (readLoop limit turns s position size).2 := by
  have same : Kept s s := ⟨sound, rfl, rfl, rfl, allocated⟩
  cases turns with
  | zero => exact ⟨rfl, same⟩
  | succ turns =>
    by_cases left : 0 < size
    · have none := sound.valid
      have outside : s.Outside position := by
        unfold Outside
        omega
      have filled := FillBuffer_spec limit sound allocated position
      have valid := filled.sound.valid
      rw [filled.size] at valid
      rw [readLoop_turn left (if_pos outside), if_pos ⟨outside, by omega⟩]
      exact ⟨rfl, .of_filled filled⟩
    · rw [readLoop, if_neg left]
      exact ⟨rfl, same⟩

/-- Without a buffer a read is one call, and what is left of it meets the end of the file. -/
theorem ReadPos_unbuffered (sound : s.Sound)
    (unbuffered : s.bufferSize = 0) (whole : s.ReadsWhole limit position size)
    (direct : s.goesDirect position size = true) :
    (s.file.pread limit (size - s.bufferSize) position).1 = readAt s.contents position size := by
  have read := direct_read limit sound direct
  have all := whole unbuffered
  have empty : s.contents = s.file.content := by
    have valid := sound.valid
    have none : s.window = [] := by
      apply length_eq_zero_iff.mp
      rw [sound.window_length]
      omega
    rw [contents, none, writeAt_nil]
  rw [unbuffered, Nat.sub_zero] at read ⊢
  rw [read, all, empty]
  apply ext_getElem?
  intro i
  rw [getElem?_readAt, getElem?_readAt]
  by_cases inside : i < size
  · rw [if_pos inside]
    by_cases there : i < s.file.content.length - position
    · rw [if_pos (by omega)]
    · rw [if_neg (by omega), getElem?_eq_none (by omega)]
  · rw [if_neg (by omega), if_neg inside]

theorem ReadPos_spec (sound : s.Sound) (whole : s.ReadsWhole limit position size) :
    (s.ReadPos limit position size).1 = readAt s.contents position size ∧
      Kept s (s.ReadPos limit position size).2 := by
  have ready := allocate_spec sound
  have file : s.allocate.file = s.file := by
    unfold allocate
    split <;> rfl
  have wholeReady : s.allocate.ReadsWhole limit position size := by
    intro unbuffered
    rw [file]
    exact whole (ready.size.symm.trans unbuffered)
  unfold ReadPos
  rw [← ready.contents]
  generalize s.allocate = u at ready wholeReady
  by_cases direct : u.goesDirect position size = true
  · rw [if_pos direct]
    have called := Kept.called ready.sound ready.allocated
      (u.file.pread limit (size - u.bufferSize) position).2 rfl
    by_cases unbuffered : u.bufferSize = 0
    · have rest := readLoop_unbuffered limit called.sound called.allocated unbuffered size
        (position + (u.file.pread limit (size - u.bufferSize) position).1.length)
        (size - (u.file.pread limit (size - u.bufferSize) position).1.length)
      refine ⟨?_, (ready.trans called).trans rest.2⟩
      simp only
      rw [rest.1, append_nil]
      exact ReadPos_unbuffered ready.sound unbuffered wholeReady direct
    · have fits := u.file.pread_le limit (size - u.bufferSize) position
      have less : size - (u.file.pread limit (size - u.bufferSize) position).1.length ≤ size :=
        Nat.sub_le _ _
      have rest := readLoop_spec limit called.sound called.allocated (Nat.pos_of_ne_zero unbuffered)
        (position + (u.file.pread limit (size - u.bufferSize) position).1.length) less
      have read := direct_read limit ready.sound direct
      refine ⟨?_, (ready.trans called).trans rest.2⟩
      simp only
      rw [rest.1, called.contents]
      generalize u.file.pread limit (size - u.bufferSize) position = result at read fits
      have joined : readAt u.contents position result.1.length ++ readAt u.contents
          (position + result.1.length) (size - result.1.length) = _ :=
        readAt_append (by rw [← read])
      rw [← read, Nat.add_sub_cancel' (by omega)] at joined
      exact joined
  · rw [if_neg direct]
    by_cases unbuffered : u.bufferSize = 0
    · have none : size = 0 := by
        have valid := ready.sound.valid
        unfold goesDirect at direct
        simp only [decide_eq_true_eq] at direct
        omega
      have rest := readLoop_unbuffered limit ready.sound ready.allocated unbuffered size position
        size
      refine ⟨?_, ready.trans rest.2⟩
      rw [rest.1, none]
      exact take_zero.symm
    · have rest := readLoop_spec limit ready.sound ready.allocated
        (Nat.pos_of_ne_zero unbuffered) position (Nat.le_refl size)
      exact ⟨rest.1, ready.trans rest.2⟩

end PFile

end PadOS.Storage
