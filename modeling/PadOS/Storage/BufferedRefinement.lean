import PadOS.Storage.BufferedCalls

/-!
# Buffered files refine plain files

A run on a `PFile` answers as the same run on a plain file, as long as the buffer is never made
smaller than the unwritten data in it and an unbuffered transfer is not cut short.
-/

namespace PadOS.Storage

open FileContent List Option

namespace PFile

variable {limit : Nat → Nat} {s t : PFile} {data : List UInt8} {position : Nat}

/-- What a write of `data` leaves. -/
structure Written (s : PFile) (position : Nat) (data : List UInt8) (t : PFile) : Prop where
  sound : t.Sound
  contents : t.contents = writeAt 0 s.contents position data
  size : t.bufferSize = s.bufferSize
  same : t.position = s.position

/-- The buffer with some bytes put into its window, or right behind it. -/
def stored (s : PFile) (offset : Nat) (bytes : List UInt8) : PFile :=
  { s with
    buffer := some (s.memory.take offset ++ bytes ++ s.memory.drop (offset + bytes.length))
    validBufferSize := max s.validBufferSize (offset + bytes.length)
    dirty := true }

section

variable (sound : s.Sound) (allocated : s.buffer ≠ none)

include sound allocated

theorem memory_length :
    s.memory.length = s.bufferSize := by
  match buffer : s.buffer with
  | none => exact absurd buffer allocated
  | some memory =>
    rw [PFile.memory, buffer]
    exact sound.room memory buffer

theorem stored_window {offset : Nat}
    {bytes : List UInt8} (inside : offset ≤ s.validBufferSize) (some : 0 < bytes.length)
    (fits : offset + bytes.length ≤ s.bufferSize) :
    (s.stored offset bytes).window = writeAt 0 s.window offset bytes := by
  have length := memory_length sound allocated
  have whole := sound.window_length
  have valid := sound.valid
  apply ext_getElem?
  intro i
  rw [getElem?_writeAt, whole]
  show ((s.memory.take offset ++ bytes ++ s.memory.drop (offset + bytes.length)).take
    (max s.validBufferSize (offset + bytes.length)))[i]? = _
  simp only [window, getElem?_take, getElem?_append, length_append, length_take, getElem?_drop]
  grind

theorem stored_spec {bytes : List UInt8}
    (start : s.bufferPosition ≤ position)
    (inside : position ≤ s.bufferPosition + s.validBufferSize) (some : 0 < bytes.length)
    (fits : position - s.bufferPosition + bytes.length ≤ s.bufferSize) :
    Written s position bytes (s.stored (position - s.bufferPosition) bytes) := by
  have length := memory_length sound allocated
  have valid := sound.valid
  have window := stored_window sound allocated (by omega) some fits
  refine ⟨⟨?_, ?_, ?_, ?_⟩, ?_, rfl, rfl⟩
  · intro memory same
    cases same
    simp only [length_append, length_take, length_drop]
    show _ = s.bufferSize
    omega
  · show max _ _ ≤ s.bufferSize
    omega
  · intro none
    cases none
  · intro clean
    cases clean
  · show writeAt 0 s.file.content s.bufferPosition _ = _
    rw [window, contents, ← writeAt_over (by rw [sound.window_length]; omega)]
    congr 1
    omega

end

theorem room_spec (limit : Nat → Nat) (sound : s.Sound) (allocated : s.buffer ≠ none)
    (buffered : 0 < s.bufferSize) (start : s.bufferPosition ≤ position)
    (inside : position ≤ s.bufferPosition + s.validBufferSize) :
    ∃ t, (if s.bufferPosition + s.bufferSize ≤ position then
          { s.Flush limit with bufferPosition := position, validBufferSize := 0 }
        else s) = t ∧ Kept s t ∧ t.bufferPosition ≤ position ∧
      position ≤ t.bufferPosition + t.validBufferSize ∧
      position < t.bufferPosition + t.bufferSize := by
  by_cases full : s.bufferPosition + s.bufferSize ≤ position
  · rcases restart_spec limit sound position with ⟨file, restarted, content⟩
    refine ⟨_, if_pos full, ?_, ?_⟩
    · rw [restarted]
      exact ⟨sound.emptied file position, (emptied_contents file position).trans content, rfl, rfl,
        allocated⟩
    · rw [restarted]
      show position ≤ position ∧ position ≤ position + 0 ∧ position < position + s.bufferSize
      omega
  · refine ⟨s, if_neg full, ⟨sound, rfl, rfl, rfl, allocated⟩, start, inside, by omega⟩

theorem writeLoop_turn {turns : Nat} (left : 0 < data.length)
    (room : (if s.bufferPosition + s.bufferSize ≤ position then
        { s.Flush limit with bufferPosition := position, validBufferSize := 0 } else s) = t)
    {bytes : List UInt8}
    (taken : data.take (min (t.bufferSize - (position - t.bufferPosition)) data.length) = bytes) :
    writeLoop limit (turns + 1) s position data =
      let rest := writeLoop limit turns (t.stored (position - t.bufferPosition) bytes)
        (position + bytes.length) (data.drop bytes.length)
      (bytes.length + rest.1, rest.2) := by
  have length : bytes.length = min (t.bufferSize - (position - t.bufferPosition)) data.length := by
    rw [← taken, length_take]
    omega
  subst room
  rw [writeLoop, if_pos left, length]
  simp only [taken, stored, length]

theorem writeLoop_spec (limit : Nat → Nat) (turns : Nat) (sound : s.Sound)
    (allocated : s.buffer ≠ none) (buffered : 0 < s.bufferSize)
    (start : s.bufferPosition ≤ position)
    (inside : position ≤ s.bufferPosition + s.validBufferSize) (enough : data.length ≤ turns) :
    (writeLoop limit turns s position data).1 = data.length ∧
      Written s position data (writeLoop limit turns s position data).2 := by
  induction turns generalizing s position data with
  | zero =>
    rw [length_eq_zero_iff.mp (Nat.le_zero.mp enough)]
    exact ⟨rfl, sound, writeAt_nil.symm, rfl, rfl⟩
  | succ turns ih =>
    by_cases left : 0 < data.length
    · rcases room_spec limit sound allocated buffered start inside with
        ⟨t, room, kept, startAfter, insideAfter, fits⟩
      have size : (data.take (min (t.bufferSize - (position - t.bufferPosition))
          data.length)).length =
          min (t.bufferSize - (position - t.bufferPosition)) data.length := by
        rw [length_take]
        omega
      rw [writeLoop_turn left room rfl]
      have bytes : ∃ bytes, data.take
          (min (t.bufferSize - (position - t.bufferPosition)) data.length) = bytes := ⟨_, rfl⟩
      rcases bytes with ⟨bytes, taken⟩
      have split : bytes ++ data.drop bytes.length = data := by
        rw [← taken, size]
        exact take_append_drop _ _
      rw [taken] at size ⊢
      have written : Written t position bytes (t.stored (position - t.bufferPosition) bytes) :=
        stored_spec kept.sound kept.allocated startAfter insideAfter (by omega) (by omega)
      have onward : (t.stored (position - t.bufferPosition) bytes).bufferPosition ≤
          position + bytes.length := Nat.le_trans startAfter (Nat.le_add_right _ _)
      have behind : position + bytes.length ≤
          t.bufferPosition + max t.validBufferSize (position - t.bufferPosition + bytes.length) := by
        omega
      have fewer : (data.drop bytes.length).length ≤ turns := by
        rw [length_drop]
        omega
      have rest := ih written.sound (some_ne_none _)
        (by rw [written.size, kept.size]; exact buffered) onward behind fewer
      have lengths := congrArg List.length split
      rw [length_append] at lengths
      refine ⟨?_, rest.2.sound, ?_, ?_, ?_⟩
      · simp only
        rw [rest.1, lengths]
      · simp only
        rw [rest.2.contents, written.contents, kept.contents, writeAt_append, split]
      · exact rest.2.size.trans (written.size.trans kept.size)
      · exact rest.2.same.trans (written.same.trans kept.same)
    · have none : data = [] := length_eq_zero_iff.mp (by omega)
      rw [writeLoop, if_neg left, none]
      exact ⟨rfl, sound, writeAt_nil.symm, rfl, rfl⟩

theorem writeBuffered_spec (limit : Nat → Nat) (sound : s.Sound) (allocated : s.buffer ≠ none)
    (buffered : 0 < s.bufferSize) (position : Nat) (data : List UInt8) :
    (s.writeBuffered limit position data).1 = data.length ∧
      Written s position data (s.writeBuffered limit position data).2 := by
  unfold writeBuffered
  by_cases outside : position < s.bufferPosition ∨ s.bufferPosition + s.validBufferSize < position
  · rcases restart_spec limit sound position with ⟨file, restarted, content⟩
    rw [if_pos outside, restarted]
    have rest := writeLoop_spec limit data.length (sound.emptied file position) allocated buffered
      (Nat.le_refl position) (Nat.le_refl position) (Nat.le_refl data.length)
    refine ⟨rest.1, rest.2.sound, ?_, rest.2.size, rest.2.same⟩
    rw [rest.2.contents, emptied_contents, content]
  · rw [if_neg outside]
    exact writeLoop_spec limit data.length sound allocated buffered (by omega) (by omega)
      (Nat.le_refl data.length)

theorem direct_write (sound : s.Sound) {bytes : List UInt8} (file : KernelFile)
    (apart : s.window.length = 0 ∨ position + bytes.length ≤ s.bufferPosition ∨
      s.bufferPosition + s.window.length ≤ position)
    (content : file.content = writeAt 0 s.file.content position bytes) :
    Written s position bytes { s with file := file } := by
  have whole := sound.window_length
  refine ⟨⟨sound.room, sound.valid, sound.allocated, ?_⟩, ?_, rfl, rfl⟩
  · intro clean
    have found := sound.clean clean
    show readAt file.content s.bufferPosition s.validBufferSize = s.window
    rw [content]
    by_cases empty : s.window.length = 0
    · rw [length_eq_zero_iff.mp empty, ← whole, empty]
      exact take_zero
    · rw [readAt_apart (by omega) (by rw [found, whole])]
      exact found
  · show writeAt 0 file.content s.bufferPosition s.window = _
    rw [content, contents]
    by_cases empty : s.window.length = 0
    · rw [length_eq_zero_iff.mp empty, writeAt_nil, writeAt_nil]
    · apply writeAt_comm
      omega

theorem writeAllocated_spec (limit : Nat → Nat) (sound : s.Sound) (allocated : s.buffer ≠ none)
    (buffered : 0 < s.bufferSize) (position : Nat) (data : List UInt8) :
    (s.writeAllocated limit position data).1 = data.length ∧
      Written s position data (s.writeAllocated limit position data).2 := by
  unfold writeAllocated
  by_cases direct : s.goesDirect position data.length = true
  · rw [if_pos direct]
    have fits := s.file.pwrite_le limit (data.take (data.length - s.bufferSize)) position
    have content := s.file.pwrite_content limit (data.take (data.length - s.bufferSize)) position
    generalize s.file.pwrite limit (data.take (data.length - s.bufferSize)) position = written
      at fits content
    rw [length_take] at fits
    rw [take_take, min_eq_left (by omega)] at content
    have moved : (data.take written.1).length = written.1 := by
      rw [length_take]
      omega
    have short : (data.take written.1).length ≤ data.length - s.bufferSize := by omega
    have apart := goesDirect_apart sound direct short
    have first := direct_write sound written.2 apart content
    have rest := writeBuffered_spec limit first.sound allocated buffered (position + written.1)
      (data.drop written.1)
    simp only
    refine ⟨?_, rest.2.sound, ?_, rest.2.size, rest.2.same⟩
    · rw [rest.1, length_drop]
      omega
    · have joined : writeAt 0 (writeAt 0 s.contents position (data.take written.1))
          (position + (data.take written.1).length) (data.drop written.1) = _ := writeAt_append
      rw [take_append_drop, moved] at joined
      rw [rest.2.contents, first.contents, joined]
  · rw [if_neg direct]
    exact writeBuffered_spec limit sound allocated buffered position data

/-- Whether a write that goes to the file itself is not cut short by the kernel. -/
def WritesWhole (limit : Nat → Nat) (s : PFile) (size : Nat) : Prop :=
  s.bufferSize = 0 → s.file.moves limit size = size

theorem WritePos_spec (sound : s.Sound) (position : Nat) (whole : s.WritesWhole limit data.length) :
    (s.WritePos limit position data).1 = data.length ∧
      Written s position data (s.WritePos limit position data).2 := by
  unfold WritePos
  by_cases unbuffered : s.bufferSize = 0
  · rw [if_pos unbuffered]
    have all : (s.file.pwrite limit data position).1 = data.length := whole unbuffered
    have none : s.window.length = 0 := by
      have valid := sound.valid
      rw [sound.window_length]
      omega
    refine ⟨all, direct_write sound _ (Or.inl none) ?_⟩
    rw [KernelFile.pwrite_content, all, take_length]
  · rw [if_neg unbuffered]
    have ready := allocate_spec sound
    have written := writeAllocated_spec limit ready.sound ready.allocated
      (by rw [ready.size]; omega) position data
    refine ⟨written.1, written.2.sound, ?_, written.2.size.trans ready.size,
      written.2.same.trans ready.same⟩
    rw [written.2.contents, ready.contents]

/-- The buffer is not made smaller than the unwritten data in it. -/
def KeepsUnwritten (s : PFile) (bufferSize : Nat) : Prop :=
  s.dirty = true → bufferSize ≠ 0 → s.validBufferSize ≤ bufferSize

theorem resized_spec (sound : s.Sound) {memory : List UInt8} (buffer : s.buffer = some memory)
    {bufferSize : Nat} (keeps : s.KeepsUnwritten bufferSize) (some : 0 < bufferSize) :
    let t := { s with
      validBufferSize := min s.validBufferSize bufferSize
      buffer := Option.some (memory.take (min s.validBufferSize bufferSize) ++
        List.replicate (bufferSize - min s.validBufferSize bufferSize) 0)
      bufferSize := bufferSize }
    t.Sound ∧ t.contents = s.contents ∧ t.position = s.position := by
  intro t
  have room := sound.room memory buffer
  have valid := sound.valid
  have whole := sound.window_length
  have taken : (memory.take (min s.validBufferSize bufferSize)).length =
      min s.validBufferSize bufferSize := by
    rw [length_take]
    omega
  have old : s.window = memory.take s.validBufferSize := by
    rw [window, PFile.memory, buffer]
    rfl
  have window : t.window = s.window.take (min s.validBufferSize bufferSize) := by
    rw [old, take_take, min_eq_left (Nat.min_le_left _ _)]
    show List.take (min s.validBufferSize bufferSize) (_ ++ _) = _
    rw [take_append_of_le_length (Nat.le_of_eq taken.symm), take_of_length_le taken.le]
  have fresh : t.Sound := by
    refine ⟨?_, Nat.min_le_right _ _, ?_, ?_⟩
    · intro again same
      cases same
      rw [length_append, taken, length_replicate]
      show _ = bufferSize
      omega
    · intro missing
      cases missing
    · intro clean
      have found := sound.clean clean
      rw [window, ← found]
      show readAt _ _ (min _ _) = _
      rw [readAt, readAt, take_take, min_eq_left (Nat.min_le_left _ _)]
  refine ⟨fresh, ?_, rfl⟩
  by_cases dirty : s.dirty = true
  · have kept := keeps dirty (by omega)
    rw [contents, window, min_eq_left kept, take_of_length_le whole.le]
    rfl
  · have clean : s.dirty = false := Bool.not_eq_true _ |>.mp dirty
    rw [contents_of_clean fresh clean, contents_of_clean sound clean]

theorem SetBufferSize_spec (limit : Nat → Nat) (sound : s.Sound) {bufferSize : Nat}
    (keeps : s.KeepsUnwritten bufferSize) :
    (s.SetBufferSize limit bufferSize).Sound ∧
      (s.SetBufferSize limit bufferSize).contents = s.contents ∧
      (s.SetBufferSize limit bufferSize).position = s.position := by
  unfold SetBufferSize
  by_cases same : bufferSize = s.bufferSize
  · rw [if_pos same]
    exact ⟨sound, rfl, rfl⟩
  · rw [if_neg same]
    by_cases zero : bufferSize = 0
    · rcases Flush_spec limit sound with ⟨content, _, file, flushed⟩
      rw [if_pos zero, flushed]
      rw [flushed] at content
      refine ⟨⟨?_, Nat.le_refl 0, fun _ => rfl, ?_⟩, ?_, rfl⟩
      · intro memory buffer
        cases buffer
      · intro _
        exact take_zero
      · exact writeAt_nil.trans content
    · rw [if_neg zero]
      match buffer : s.buffer with
      | none =>
        have kept : { s with bufferSize := bufferSize, buffer := Option.none }.window = s.window := by
          rw [window, window, PFile.memory, PFile.memory, buffer]
        refine ⟨⟨?_, ?_, fun _ => sound.allocated buffer, ?_⟩, ?_, rfl⟩
        · intro memory allocated
          cases allocated
        · show s.validBufferSize ≤ bufferSize
          rw [sound.allocated buffer]
          exact Nat.zero_le _
        · intro clean
          exact (sound.clean clean).trans kept.symm
        · show writeAt 0 s.file.content s.bufferPosition _ = _
          rw [show window _ = s.window from kept]
          rfl
      | some memory =>
        exact resized_spec sound buffer keeps (Nat.pos_of_ne_zero zero)

theorem GetSize_spec (sound : s.Sound) : s.GetSize = s.contents.length := by
  have whole := sound.window_length
  unfold GetSize contents
  by_cases empty : s.window.length = 0
  · rw [length_eq_zero_iff.mp empty, writeAt_nil, if_neg (by omega)]
  · rw [length_writeAt empty]
    split <;> omega

theorem Sound.moved (sound : s.Sound) (position : Nat) : Sound { s with position := position } :=
  ⟨sound.room, sound.valid, sound.allocated, sound.clean⟩

/-- The file stands for the plain one. -/
structure Refines (s : PFile) (plain : PlainFile) : Prop where
  sound : s.Sound
  contents : s.contents = plain.content
  position : s.position = plain.position

/-- No shrinking below unwritten data, and no unbuffered transfer that is cut short. -/
def Meets (limit : Nat → Nat) (s : PFile) : FileOp → Prop
  | .Read size => s.ReadsWhole limit s.position size
  | .ReadPos position size => s.ReadsWhole limit position size
  | .Write data => s.WritesWhole limit data.length
  | .WritePos _ data => s.WritesWhole limit data.length
  | .SetBufferSize bufferSize => s.KeepsUnwritten bufferSize
  | _ => True

theorem Refines.step {plain : PlainFile} {op : FileOp} (refines : s.Refines plain)
    (meets : s.Meets limit op) :
    (s.step limit op).2 = (plain.step op).2 ∧ (s.step limit op).1.Refines (plain.step op).1 := by
  have sound := refines.sound
  have same := refines.contents
  have there := refines.position
  cases op with
  | Read size =>
    have read := ReadPos_spec sound meets
    refine ⟨?_, ⟨read.2.sound.moved _, read.2.contents.trans same, ?_⟩⟩
    · show [FileReply.data (s.ReadPos limit s.position size).1] = [FileReply.data _]
      rw [read.1, same, there]
    · show (s.ReadPos limit s.position size).2.position +
        (s.ReadPos limit s.position size).1.length = plain.position + _
      rw [read.1, read.2.same, same, there]
  | Write data =>
    have written := WritePos_spec sound s.position meets
    refine ⟨?_, ⟨written.2.sound.moved _, ?_, ?_⟩⟩
    · show [FileReply.count (s.WritePos limit s.position data).1] = [FileReply.count _]
      rw [written.1]
    · show PFile.contents (s.WritePos limit s.position data).2 = writeAt 0 _ _ _
      rw [written.2.contents, same, there]
    · show (s.WritePos limit s.position data).2.position +
        (s.WritePos limit s.position data).1 = plain.position + _
      rw [written.1, written.2.same, there]
  | ReadPos position size =>
    have read := ReadPos_spec sound meets
    refine ⟨?_, ⟨read.2.sound, read.2.contents.trans same, read.2.same.trans there⟩⟩
    show [FileReply.data (s.ReadPos limit position size).1] = [FileReply.data _]
    rw [read.1, same]
  | WritePos position data =>
    have written := WritePos_spec sound position meets
    refine ⟨?_, ⟨written.2.sound, ?_, written.2.same.trans there⟩⟩
    · show [FileReply.count (s.WritePos limit position data).1] = [FileReply.count _]
      rw [written.1]
    · show PFile.contents (s.WritePos limit position data).2 = writeAt 0 _ _ _
      rw [written.2.contents, same]
  | Seek distance mode =>
    have size := GetSize_spec sound
    rw [same] at size
    simp only [PFile.step, PFile.Seek, PlainFile.step, size, there]
    split
    · exact ⟨rfl, ⟨sound.moved _, same, rfl⟩⟩
    · exact ⟨rfl, refines⟩
  | SetBufferSize bufferSize =>
    have resized := SetBufferSize_spec limit sound meets
    exact ⟨rfl, ⟨resized.1, resized.2.1.trans same, resized.2.2.trans there⟩⟩
  | Flush =>
    have flushed := Flush_spec limit sound
    refine ⟨rfl, ⟨sound.Flush, ?_, ?_⟩⟩
    · exact (contents_of_clean sound.Flush flushed.2.1).trans (flushed.1.trans same)
    · rcases flushed.2.2 with ⟨file, kept⟩
      show (s.Flush limit).position = _
      rw [kept]
      exact there
  | GetSize =>
    have size := GetSize_spec sound
    refine ⟨?_, refines⟩
    show [FileReply.count s.GetSize] = [FileReply.count _]
    rw [size, same]

end PFile

open PFile ByteStream

/-- Over every run that meets the conditions a buffered file answers as a plain one, and `Flush`
brings the file below to its content. -/
theorem buffered_file_refines (limit : Nat → Nat) (content : List UInt8) (ops : List FileOp)
    (meets : Along (PFile.step limit) (Meets limit) (opened content) ops) :
    (feed (PFile.step limit) (opened content) ops).2 = (feed PlainFile.step ⟨content, 0⟩ ops).2 ∧
      ((feed (PFile.step limit) (opened content) ops).1.Flush limit).file.content =
        (feed PlainFile.step ⟨content, 0⟩ ops).1.content := by
  have start : (opened content).Refines ⟨content, 0⟩ :=
    ⟨.opened content, contents_of_clean (.opened content) rfl, rfl⟩
  have simulates : ∀ (s : PFile) (plain : PlainFile) (op : FileOp), s.Refines plain →
      s.Meets limit op → (s.step limit op).2 = (plain.step op).2 ∧
        (s.step limit op).1.Refines (plain.step op).1 :=
    fun _ _ _ refines good => refines.step good
  have run := feed_simulation simulates start meets
  refine ⟨run.1, ?_⟩
  rw [(Flush_spec limit run.2.sound).1, run.2.contents]

theorem buffered_file_refines_bytewise :
    (feed (PFile.step fun _ => 0) (opened [9])
      [.SetBufferSize 2, .WritePos 3 [1, 2, 3, 4, 5, 6], .ReadPos 0 5]).2 =
        (feed PlainFile.step ⟨[9], 0⟩
          [.SetBufferSize 2, .WritePos 3 [1, 2, 3, 4, 5, 6], .ReadPos 0 5]).2 := by
  have meets : Along (PFile.step fun _ => 0) (Meets fun _ => 0) (opened [9])
      [.SetBufferSize 2, .WritePos 3 [1, 2, 3, 4, 5, 6], .ReadPos 0 5] := by
    refine ⟨?_, ?_, ?_, trivial⟩
    · intro dirty
      cases dirty
    · intro unbuffered
      cases unbuffered
    · intro unbuffered
      exact absurd unbuffered (by decide)
  exact (buffered_file_refines (fun _ => 0) [9] _ meets).1

/-- Four bytes in the buffer, of which two are lost when it is made smaller. -/
theorem buffered_file_loses_unwritten : ∃ limit : Nat → Nat, ∃ content ops,
    (feed (PFile.step limit) (opened content) ops).2 ≠
      (feed PlainFile.step ⟨content, 0⟩ ops).2 := by
  refine ⟨fun _ => 100, [],
    [.SetBufferSize 4, .Write [1, 2, 3, 4], .SetBufferSize 2, .ReadPos 0 4], ?_⟩
  decide

end PadOS.Storage
