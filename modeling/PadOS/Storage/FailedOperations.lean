import PadOS.Storage.FailingCalls

/-!
# What a failed operation leaves

A `Flush` that fails leaves the file with its window as it was, wherever it stops. A refill whose
`pread` fails has moved the window already, over bytes that are not the ones there; and a write whose
`Flush` fails reports nothing of the bytes it has accepted before.
-/

namespace PadOS.Storage

open FileContent ByteStream List Option

variable {answer : Nat → Option Nat}

namespace KernelFile

variable {file : KernelFile} {data : List UInt8} {position size : Nat}

theorem tryPread_cases (answer : Nat → Option Nat) (file : KernelFile) (size position : Nat) :
    answer file.calls = none ∧ file.tryPread answer size position = (none, file.failed) ∨
      ∃ limit, answer file.calls = some limit ∧ file.tryPread answer size position =
        (some (file.pread (fun _ => limit) size position).1,
          (file.pread (fun _ => limit) size position).2) := by
  unfold tryPread
  cases answers : answer file.calls with
  | none => exact .inl ⟨rfl, rfl⟩
  | some limit => exact .inr ⟨limit, rfl, rfl⟩

theorem tryPwrite_cases (answer : Nat → Option Nat) (file : KernelFile) (data : List UInt8)
    (position : Nat) :
    file.tryPwrite answer data position = (none, file.failed) ∨
      ∃ bytesWritten after, file.tryPwrite answer data position = (some bytesWritten, after) ∧
        bytesWritten ≤ data.length ∧ (0 < data.length → 0 < bytesWritten) ∧
        after.content = writeAt 0 file.content position (data.take bytesWritten) := by
  unfold tryPwrite
  cases answers : answer file.calls with
  | none => exact .inl rfl
  | some limit =>
    exact .inr ⟨_, _, rfl, file.pwrite_le _ data position, file.pwrite_pos _ position,
      file.pwrite_content _ data position⟩

end KernelFile

namespace PFile

variable {s t : PFile} {data : List UInt8} {position size turns : Nat} {content : List UInt8}

theorem writeAt_again {n : Nat} :
    writeAt 0 (writeAt 0 content position data) position (data.take n) =
      writeAt 0 content position data := by
  apply writeAt_readAt
  have short : (data.take n).length ≤ data.length := by
    rw [length_take]
    exact Nat.min_le_right _ _
  rw [readAt_over le_rfl (by omega), Nat.sub_self, drop_zero, length_take]
  exact take_eq_take_min.symm

theorem tryFlushLoop_spec (answer : Nat → Option Nat) (turns : Nat) (file : KernelFile)
    (data : List UInt8) (position : Nat) (enough : data.length ≤ turns) :
    writeAt 0 (tryFlushLoop answer turns file data position).2.content position data =
        writeAt 0 file.content position data ∧
      ((tryFlushLoop answer turns file data position).1 = true →
        (tryFlushLoop answer turns file data position).2.content =
          writeAt 0 file.content position data) := by
  induction turns generalizing file data position with
  | zero =>
    rw [length_eq_zero_iff.mp (Nat.le_zero.mp enough)]
    simp [tryFlushLoop]
  | succ turns ih =>
    rw [tryFlushLoop]
    by_cases left : 0 < data.length
    · rw [if_pos left]
      rcases file.tryPwrite_cases answer data position with
        fails | ⟨bytesWritten, after, wrote, fits, some, content⟩
      · rw [fails]
        exact ⟨rfl, fun completed => by cases completed⟩
      · have moved := some left
        have rest := ih after (data.drop bytesWritten) (position + bytesWritten)
          (by rw [length_drop]; omega)
        rw [wrote]
        dsimp only
        generalize tryFlushLoop answer turns after _ _ = flushed at rest
        have taken : (data.take bytesWritten).length = bytesWritten := by
          rw [length_take, min_eq_left fits]
        have whole (content : List UInt8) :
            writeAt 0 (writeAt 0 content position (data.take bytesWritten))
              (position + bytesWritten) (data.drop bytesWritten) =
              writeAt 0 content position data := by
          have joined : writeAt 0 (writeAt 0 content position (data.take bytesWritten))
              (position + (data.take bytesWritten).length) (data.drop bytesWritten) = _ :=
            writeAt_append
          rwa [taken, take_append_drop] at joined
        rw [content, whole] at rest
        refine ⟨?_, rest.2⟩
        rw [← whole flushed.2.content, writeAt_comm (.inl (by rw [taken])), rest.1]
        exact writeAt_again
    · rw [if_neg left, length_eq_zero_iff.mp (show data.length = 0 by omega)]
      simp

/-- What a `Flush` leaves, and what it leaves when it succeeds. -/
structure Flushed (s t : PFile) (completed : Bool) : Prop where
  form : ∃ file dirty, t = { s with file := file, dirty := dirty }
  sound : t.Sound
  contents : t.contents = s.contents
  done : completed = true → t.dirty = false ∧ t.file.content = s.contents

theorem tryFlush_spec (answer : Nat → Option Nat) (sound : s.Sound) :
    Flushed s (s.tryFlush answer).2 (s.tryFlush answer).1 := by
  have length := sound.window_length
  unfold tryFlush
  by_cases dirty : s.dirty = true
  · rw [if_pos dirty]
    have flushed := tryFlushLoop_spec answer s.validBufferSize s.file s.window
      s.bufferPosition length.le
    generalize tryFlushLoop answer s.validBufferSize s.file s.window s.bufferPosition = result
      at flushed ⊢
    obtain ⟨completed, file⟩ := result
    cases completed with
    | false =>
      refine ⟨⟨file, s.dirty, rfl⟩, ⟨sound.room, sound.valid, sound.allocated, ?_⟩, flushed.1, ?_⟩
      · intro clean
        exact absurd (dirty.symm.trans clean) (by decide)
      · intro completed
        cases completed
    | true =>
      have content : file.content = s.contents := flushed.2 rfl
      have clean : readAt file.content s.bufferPosition s.validBufferSize = s.window := by
        rw [content, contents, readAt_over le_rfl (by omega), Nat.sub_self, drop_zero]
        exact take_of_length_le length.le
      exact ⟨⟨file, false, rfl⟩, ⟨sound.room, sound.valid, sound.allocated, fun _ => clean⟩,
        flushed.1, fun _ => ⟨rfl, content⟩⟩
  · have clean : s.dirty = false := Bool.not_eq_true _ |>.mp dirty
    rw [if_neg dirty]
    exact ⟨⟨s.file, s.dirty, rfl⟩, sound, rfl,
      fun _ => ⟨clean, (contents_of_clean sound clean).symm⟩⟩

theorem Flushed.kept {completed : Bool} (flushed : Flushed s t completed)
    (allocated : s.buffer ≠ none) : Kept s t := by
  have sound := flushed.sound
  have contents := flushed.contents
  rcases flushed.form with ⟨file, dirty, rfl⟩
  exact ⟨sound, contents, rfl, rfl, allocated⟩

/-! ## Refills -/

/-- The window is somewhere else than its bytes were read. -/
def moved (s : PFile) (file : KernelFile) (position : Nat) : PFile :=
  { s with file := file, dirty := false, bufferPosition := position }

/-- A refill that fails with its `pread` does no harm where the file holds the window's bytes at the
new position, too, as it does where there are none. -/
def RefillKept (answer : Nat → Option Nat) (s : PFile) (position : Nat) : Prop :=
  (s.tryFlush answer).1 = true → answer (s.tryFlush answer).2.file.calls = none →
    readAt s.contents position s.validBufferSize = s.window

theorem tryFillBuffer_cases (answer : Nat → Option Nat) (sound : s.Sound)
    (allocated : s.buffer ≠ none) (position : Nat) :
    (∃ t, s.tryFillBuffer answer position = (true, t) ∧ Kept s t ∧ s.RefillKept answer position) ∨
    (∃ t, s.tryFillBuffer answer position = (false, t) ∧ Kept s t ∧ s.RefillKept answer position) ∨
    ∃ file, s.tryFillBuffer answer position = (false, s.moved file position) ∧
      file.content = s.contents ∧
      (s.RefillKept answer position ↔
        readAt s.contents position s.validBufferSize = s.window) := by
  have flushed := tryFlush_spec answer sound
  have kept := flushed.kept allocated
  unfold RefillKept tryFillBuffer
  generalize s.tryFlush answer = result at flushed kept ⊢
  rcases result with ⟨_ | _, u⟩
  · exact .inr (.inl ⟨u, rfl, kept, fun completed => by cases completed⟩)
  · obtain ⟨clean, content⟩ := flushed.done rfl
    dsimp only at clean content kept ⊢
    rcases u.file.tryPread_cases answer u.bufferSize position with
      ⟨fails, read⟩ | ⟨limit, answers, read⟩
    · rw [read]
      refine .inr (.inr ⟨u.file.failed, ?_, content, ?_⟩)
      · rcases flushed.form with ⟨file, dirty, rfl⟩
        change dirty = false at clean
        subst clean
        rfl
      · exact ⟨fun kept => kept rfl fails, fun same _ _ => same⟩
    · rw [read]
      have filled := FillBuffer_spec (fun _ => limit) kept.sound kept.allocated position
      have unflushed : u.Flush (fun _ => limit) = u := by
        unfold Flush
        rw [clean]
        exact if_neg (by decide)
      have form : u.FillBuffer (fun _ => limit) position = { u with
          file := (u.file.pread (fun _ => limit) u.bufferSize position).2
          buffer := some ((u.file.pread (fun _ => limit) u.bufferSize position).1 ++
            u.memory.drop (u.file.pread (fun _ => limit) u.bufferSize position).1.length)
          bufferPosition := position
          validBufferSize := (u.file.pread (fun _ => limit) u.bufferSize position).1.length } := by
        unfold FillBuffer
        rw [unflushed]
      rw [form] at filled
      refine .inl ⟨_, rfl, kept.trans (.of_filled filled), fun _ fails => ?_⟩
      rw [answers] at fails
      cases fails

/-- A window of the right size over the wrong bytes. -/
structure Stale (content : List UInt8) (s : PFile) : Prop where
  length : s.window.length = s.validBufferSize
  valid : s.validBufferSize ≤ s.bufferSize
  allocated : s.buffer ≠ none
  differs : readAt content s.bufferPosition s.validBufferSize ≠ s.window

theorem Stale.placed (stale : Stale content s) (position : Nat) :
    Stale content { s with position := position } :=
  ⟨stale.length, stale.valid, stale.allocated, stale.differs⟩

theorem Sound.moved_kept (sound : s.Sound) (allocated : s.buffer ≠ none) {file : KernelFile}
    (content : file.content = s.contents)
    (same : readAt s.contents position s.validBufferSize = s.window) :
    Kept s (s.moved file position) := by
  have length := sound.window_length
  refine ⟨⟨sound.room, sound.valid, sound.allocated, fun _ => ?_⟩, ?_, rfl, rfl, allocated⟩
  · show readAt file.content position s.validBufferSize = s.window
    rw [content, same]
  · show writeAt 0 file.content position s.window = s.contents
    rw [content]
    apply writeAt_readAt
    rw [length, same]

theorem Sound.moved_stale (sound : s.Sound) (allocated : s.buffer ≠ none) {file : KernelFile}
    (differs : readAt s.contents position s.validBufferSize ≠ s.window) :
    Stale s.contents (s.moved file position) :=
  ⟨sound.window_length, sound.valid, allocated, differs⟩

/-- The refills of the loop in `ReadPos`, with the state and the position each is made at. -/
def refills (answer : Nat → Option Nat) : Nat → PFile → Nat → Nat → List (PFile × Nat)
  | 0, _, _, _ => []
  | turns + 1, s, position, size =>
    if 0 < size then
      (if s.Outside position then [(s, position)] else []) ++
      match if s.Outside position then s.tryFillBuffer answer position else (true, s) with
      | (false, _) => []
      | (true, t) =>
        if s.Outside position ∧ t.validBufferSize = 0 then []
        else
          let currentLength := min (t.validBufferSize - (position - t.bufferPosition)) size
          refills answer turns t (position + currentLength) (size - currentLength)
    else []

theorem tryReadLoop_turn (turns : Nat) (left : 0 < size)
    (fetched : (if s.Outside position then s.tryFillBuffer answer position else (true, s)) =
      (true, t)) :
    (tryReadLoop answer (turns + 1) s position size).2.2 =
        (if s.Outside position ∧ t.validBufferSize = 0 then t
        else
          let currentLength := min (t.validBufferSize - (position - t.bufferPosition)) size
          (tryReadLoop answer turns t (position + currentLength) (size - currentLength)).2.2) ∧
      refills answer (turns + 1) s position size =
        (if s.Outside position then [(s, position)] else []) ++
          if s.Outside position ∧ t.validBufferSize = 0 then []
          else
            let currentLength := min (t.validBufferSize - (position - t.bufferPosition)) size
            refills answer turns t (position + currentLength) (size - currentLength) := by
  rw [tryReadLoop, refills, if_pos left, if_pos left, fetched]
  refine ⟨?_, rfl⟩
  dsimp only
  split <;> rfl

theorem tryReadLoop_failed (turns : Nat) (left : 0 < size) (outside : s.Outside position)
    (fails : s.tryFillBuffer answer position = (false, t)) :
    (tryReadLoop answer (turns + 1) s position size).2.2 = t ∧
      refills answer (turns + 1) s position size = [(s, position)] := by
  rw [tryReadLoop, refills, if_pos left, if_pos left, if_pos outside, if_pos outside, fails]
  exact ⟨rfl, rfl⟩

theorem tryReadLoop_spec (answer : Nat → Option Nat) (turns : Nat) (sound : s.Sound)
    (allocated : s.buffer ≠ none) (position size : Nat) :
    ((∀ refill ∈ refills answer turns s position size, refill.1.RefillKept answer refill.2) →
        Kept s (tryReadLoop answer turns s position size).2.2) ∧
      ((∃ refill ∈ refills answer turns s position size, ¬ refill.1.RefillKept answer refill.2) →
        Stale s.contents (tryReadLoop answer turns s position size).2.2) := by
  have same : Kept s s := ⟨sound, rfl, rfl, rfl, allocated⟩
  induction turns generalizing s position size with
  | zero => exact ⟨fun _ => same, fun ⟨_, member, _⟩ => absurd member not_mem_nil⟩
  | succ turns ih =>
    by_cases left : 0 < size
    · -- a turn that has its window, filled or found
      have onward {t : PFile} (kept : Kept s t)
          (harmless : s.Outside position → s.RefillKept answer position)
          (fetched : (if s.Outside position then s.tryFillBuffer answer position else (true, s)) =
            (true, t)) :
          ((∀ refill ∈ refills answer (turns + 1) s position size,
              refill.1.RefillKept answer refill.2) →
            Kept s (tryReadLoop answer (turns + 1) s position size).2.2) ∧
          ((∃ refill ∈ refills answer (turns + 1) s position size,
              ¬ refill.1.RefillKept answer refill.2) →
            Stale s.contents (tryReadLoop answer (turns + 1) s position size).2.2) := by
        have rest := ih kept.sound kept.allocated
          (position + min (t.validBufferSize - (position - t.bufferPosition)) size)
          (size - min (t.validBufferSize - (position - t.bufferPosition)) size)
          ⟨kept.sound, rfl, rfl, rfl, kept.allocated⟩
        rw [kept.contents] at rest
        obtain ⟨final, list⟩ := tryReadLoop_turn turns left fetched
        rw [final, list]
        have first : ∀ refill ∈ (if s.Outside position then [(s, position)] else []),
            refill.1.RefillKept answer refill.2 := by
          intro refill member
          split at member
          · rename_i outside
            rw [mem_singleton.mp member]
            exact harmless outside
          · exact absurd member not_mem_nil
        by_cases empty : s.Outside position ∧ t.validBufferSize = 0
        · simp only [if_pos empty, append_nil]
          refine ⟨fun _ => kept, fun ⟨refill, member, bad⟩ => ?_⟩
          exact absurd (first refill member) bad
        · simp only [if_neg empty]
          refine ⟨fun good => kept.trans (rest.1 fun refill member => ?_), ?_⟩
          · exact good refill (mem_append_right _ member)
          · rintro ⟨refill, member, bad⟩
            rcases mem_append.mp member with front | back
            · exact absurd (first refill front) bad
            · exact rest.2 ⟨refill, back, bad⟩
      by_cases outside : s.Outside position
      · rcases tryFillBuffer_cases answer sound allocated position with
          ⟨t, filled, kept, harmless⟩ | ⟨t, fails, kept, harmless⟩ | ⟨file, fails, content, exactly⟩
        · exact onward kept (fun _ => harmless) (by rw [if_pos outside, filled])
        · obtain ⟨final, list⟩ := tryReadLoop_failed turns left outside fails
          rw [final, list]
          refine ⟨fun _ => kept, fun ⟨refill, member, bad⟩ => ?_⟩
          rw [mem_singleton.mp member] at bad
          exact absurd harmless bad
        · obtain ⟨final, list⟩ := tryReadLoop_failed turns left outside fails
          rw [final, list]
          constructor
          · intro good
            exact sound.moved_kept allocated content (exactly.mp (good _ (mem_singleton_self _)))
          · rintro ⟨refill, member, bad⟩
            rw [mem_singleton.mp member] at bad
            exact sound.moved_stale allocated fun matches_ => bad (exactly.mpr matches_)
      · exact onward same (fun there => absurd there outside) (if_neg outside)
    · rw [tryReadLoop, refills, if_neg left, if_neg left]
      exact ⟨fun _ => same, fun ⟨_, member, _⟩ => absurd member not_mem_nil⟩

/-- The refills of a read. -/
def readRefills (answer : Nat → Option Nat) (s : PFile) (position size : Nat) :
    List (PFile × Nat) :=
  let s := s.allocate
  if s.goesDirect position size then
    match s.file.tryPread answer (size - s.bufferSize) position with
    | (none, _) => []
    | (some bytes, file) =>
      refills answer size { s with file := file } (position + bytes.length) (size - bytes.length)
  else refills answer size s position size

theorem tryReadPos_spec (sound : s.Sound) (position size : Nat) :
    ((∀ refill ∈ readRefills answer s position size, refill.1.RefillKept answer refill.2) →
        Kept s (s.tryReadPos answer position size).2) ∧
      ((∃ refill ∈ readRefills answer s position size, ¬ refill.1.RefillKept answer refill.2) →
        Stale s.contents (s.tryReadPos answer position size).2) := by
  have ready := allocate_spec sound
  unfold tryReadPos readRefills
  rw [← ready.contents]
  generalize s.allocate = u at ready
  dsimp only
  split
  · rcases u.file.tryPread_cases answer (size - u.bufferSize) position with
      ⟨_, read⟩ | ⟨limit, _, read⟩
    · rw [read]
      refine ⟨fun _ => ready.trans ?_, fun ⟨_, member, _⟩ => absurd member not_mem_nil⟩
      exact Kept.called ready.sound ready.allocated _ rfl
    · rw [read]
      have called := Kept.called ready.sound ready.allocated
        (u.file.pread (fun _ => limit) (size - u.bufferSize) position).2 rfl
      have rest := tryReadLoop_spec answer size called.sound called.allocated
        (position + (u.file.pread (fun _ => limit) (size - u.bufferSize) position).1.length)
        (size - (u.file.pread (fun _ => limit) (size - u.bufferSize) position).1.length)
      rw [called.contents] at rest
      exact ⟨fun good => (ready.trans called).trans (rest.1 good), rest.2⟩
  · have rest := tryReadLoop_spec answer size ready.sound ready.allocated position size
    exact ⟨fun good => ready.trans (rest.1 good), rest.2⟩

/-! ## Writes -/

theorem Written.nothing (kept : Kept s t) : Written s position [] t :=
  ⟨kept.sound, kept.contents.trans writeAt_nil.symm, kept.size, kept.same⟩

theorem Written.after {u : PFile} {rest : List UInt8} (first : Written s position data t)
    (second : Written t (position + data.length) rest u) : Written s position (data ++ rest) u where
  sound := second.sound
  contents := by rw [second.contents, first.contents, writeAt_append]
  size := second.size.trans first.size
  same := second.same.trans first.same

theorem tryRestart_cases (answer : Nat → Option Nat) (sound : s.Sound)
    (allocated : s.buffer ≠ none) (position : Nat) :
    (∃ t, s.tryRestart answer position = (false, t) ∧ Kept s t) ∨
      ∃ t, s.tryRestart answer position = (true, t) ∧ Kept s t ∧ t.bufferPosition = position ∧
        t.validBufferSize = 0 := by
  have flushed := tryFlush_spec answer sound
  have kept := flushed.kept allocated
  unfold tryRestart
  generalize s.tryFlush answer = result at flushed kept ⊢
  rcases result with ⟨_ | _, u⟩
  · exact .inl ⟨u, rfl, kept⟩
  · obtain ⟨clean, content⟩ := flushed.done rfl
    refine .inr ⟨_, rfl, ?_, rfl, rfl⟩
    rcases flushed.form with ⟨file, dirty, rfl⟩
    change dirty = false at clean
    subst clean
    exact ⟨sound.emptied file position, (emptied_contents file position).trans content, rfl, rfl,
      allocated⟩

section

variable (answer : Nat → Option Nat)

theorem tryWriteLoop_spec (turns : Nat) (sound : s.Sound)
    (allocated : s.buffer ≠ none)
    (buffered : 0 < s.bufferSize) (start : s.bufferPosition ≤ position)
    (inside : position ≤ s.bufferPosition + s.validBufferSize) :
    (tryWriteLoop answer turns s position data).1 ≤ data.length ∧
      Written s position (data.take (tryWriteLoop answer turns s position data).1)
        (tryWriteLoop answer turns s position data).2.2 := by
  have nothing : Written s position (data.take 0) s :=
    Written.nothing ⟨sound, rfl, rfl, rfl, allocated⟩
  induction turns generalizing s position data with
  | zero => exact ⟨Nat.zero_le _, nothing⟩
  | succ turns ih =>
    rw [tryWriteLoop]
    by_cases left : 0 < data.length
    · -- a turn that has room at the position
      have onward {t : PFile} (kept : Kept s t) (start : t.bufferPosition ≤ position)
          (inside : position ≤ t.bufferPosition + t.validBufferSize)
          (room : position < t.bufferPosition + t.bufferSize) {length : Nat}
          (taken : length = min (t.bufferSize - (position - t.bufferPosition)) data.length) :
          length + (tryWriteLoop answer turns
              (t.stored (position - t.bufferPosition) (data.take length)) (position + length)
              (data.drop length)).1 ≤ data.length ∧
            Written s position (data.take (length + (tryWriteLoop answer turns
                (t.stored (position - t.bufferPosition) (data.take length)) (position + length)
                (data.drop length)).1))
              (tryWriteLoop answer turns
                (t.stored (position - t.bufferPosition) (data.take length)) (position + length)
                (data.drop length)).2.2 := by
        have size : (data.take length).length = length := by
          rw [length_take]
          omega
        have written : Written t position (data.take length)
            (t.stored (position - t.bufferPosition) (data.take length)) :=
          stored_spec kept.sound kept.allocated start inside (by omega) (by omega)
        have first : Written s position (data.take length)
            (t.stored (position - t.bufferPosition) (data.take length)) :=
          ⟨written.sound, written.contents.trans (by rw [kept.contents]),
            written.size.trans kept.size, written.same.trans kept.same⟩
        have behind : position + length ≤ t.bufferPosition +
            max t.validBufferSize (position - t.bufferPosition + (data.take length).length) := by
          omega
        have rest := @ih _ (data.drop length) (position + length) written.sound (some_ne_none _)
          (by rw [first.size]; exact buffered)
          (Nat.le_trans start (Nat.le_add_right position length)) behind
          (Written.nothing ⟨written.sound, rfl, rfl, rfl, some_ne_none _⟩)
        generalize tryWriteLoop answer turns _ (position + length) (data.drop length) = result
          at rest ⊢
        constructor
        · have bound := rest.1
          rw [length_drop] at bound
          omega
        · rw [take_add]
          apply first.after
          rw [size]
          exact rest.2
      rw [if_pos left]
      by_cases full : s.bufferPosition + s.bufferSize ≤ position
      · rw [if_pos full]
        rcases tryRestart_cases answer sound allocated position with
          ⟨t, fails, kept⟩ | ⟨t, restarted, kept, there, empty⟩
        · rw [fails]
          exact ⟨Nat.zero_le _, Written.nothing kept⟩
        · rw [restarted]
          have room := kept.size
          exact onward kept (by omega) (by omega) (by omega) rfl
      · rw [if_neg full]
        exact onward ⟨sound, rfl, rfl, rfl, allocated⟩ start inside (by omega) rfl
    · rw [if_neg left]
      exact ⟨Nat.zero_le _, nothing⟩

theorem tryWriteBuffered_spec (sound : s.Sound)
    (allocated : s.buffer ≠ none)
    (buffered : 0 < s.bufferSize) (position : Nat) (data : List UInt8) :
    (s.tryWriteBuffered answer position data).1 ≤ data.length ∧
      Written s position (data.take (s.tryWriteBuffered answer position data).1)
        (s.tryWriteBuffered answer position data).2.2 := by
  unfold tryWriteBuffered
  by_cases outside : position < s.bufferPosition ∨ s.bufferPosition + s.validBufferSize < position
  · rw [if_pos outside]
    rcases tryRestart_cases answer sound allocated position with
      ⟨t, fails, kept⟩ | ⟨t, restarted, kept, there, empty⟩
    · rw [fails]
      exact ⟨Nat.zero_le _, Written.nothing kept⟩
    · rw [restarted]
      have room := kept.size
      have rest := @tryWriteLoop_spec t data position answer data.length kept.sound
        kept.allocated (by omega) there.le (by omega)
      exact ⟨rest.1, (Written.nothing kept).after rest.2⟩
  · rw [if_neg outside]
    exact tryWriteLoop_spec answer data.length sound allocated buffered (by omega) (by omega)

theorem tryWriteBytes_spec (sound : s.Sound) (position : Nat)
    (data : List UInt8) :
    (s.tryWriteBytes answer position data).1 ≤ data.length ∧
      Written s position (data.take (s.tryWriteBytes answer position data).1)
        (s.tryWriteBytes answer position data).2.2 := by
  unfold tryWriteBytes
  by_cases unbuffered : s.bufferSize = 0
  · rw [if_pos unbuffered]
    have none_ : s.window.length = 0 := by
      have valid := sound.valid
      rw [sound.window_length]
      omega
    rcases s.file.tryPwrite_cases answer data position with
      fails | ⟨bytesWritten, after, wrote, fits, _, content⟩
    · rw [fails]
      exact ⟨Nat.zero_le _, direct_write sound _ (.inl none_) (writeAt_nil.symm)⟩
    · rw [wrote]
      exact ⟨fits, direct_write sound after (.inl none_) content⟩
  · rw [if_neg unbuffered]
    have ready := allocate_spec sound
    have prepared : Written s position [] s.allocate := Written.nothing ready
    have sized := ready.size
    generalize s.allocate = u at ready prepared sized
    unfold tryWriteAllocated
    by_cases direct : u.goesDirect position data.length = true
    · rw [if_pos direct]
      rcases u.file.tryPwrite_cases answer (data.take (data.length - u.bufferSize)) position with
        fails | ⟨bytesWritten, after, wrote, fits, _, content⟩
      · rw [fails]
        exact ⟨Nat.zero_le _,
          prepared.after (Written.nothing (Kept.called ready.sound ready.allocated _ rfl))⟩
      · rw [wrote]
        rw [length_take] at fits
        rw [take_take, min_eq_left (by omega)] at content
        have moved : (data.take bytesWritten).length = bytesWritten := by
          rw [length_take]
          omega
        have apart : u.window.length = 0 ∨ position + bytesWritten ≤ u.bufferPosition ∨
            u.bufferPosition + u.window.length ≤ position :=
          goesDirect_apart ready.sound direct (by omega)
        rw [← moved] at apart
        have first := prepared.after (direct_write ready.sound after apart content)
        rw [nil_append] at first
        have rest := tryWriteBuffered_spec answer first.sound ready.allocated
          (show 0 < u.bufferSize by omega) (position + bytesWritten) (data.drop bytesWritten)
        dsimp only
        generalize tryWriteBuffered answer _ (position + bytesWritten) _ = result at rest ⊢
        constructor
        · have bound := rest.1
          rw [length_drop] at bound
          omega
        · rw [take_add]
          apply first.after
          rw [moved]
          exact rest.2
    · rw [if_neg direct]
      have rest := tryWriteBuffered_spec answer ready.sound ready.allocated (by omega) position data
      exact ⟨rest.1, prepared.after rest.2⟩

/-- The flush where the window has to move, with the state it is made in and what has been accepted
by then, and those of what is done next. -/
def restarts (s : PFile) (position accepted : Nat) (due : Prop) [Decidable due]
    (next : PFile → List (PFile × Nat)) : List (PFile × Nat) :=
  if due then (s, accepted) ::
    match s.tryRestart answer position with
    | (false, _) => []
    | (true, t) => next t
  else next s

/-- The flushes of the loop in `WritePos`. -/
def flushes : Nat → PFile → Nat → List UInt8 → Nat → List (PFile × Nat)
  | 0, _, _, _, _ => []
  | turns + 1, s, position, data, accepted =>
    if 0 < data.length then
      restarts answer s position accepted (s.bufferPosition + s.bufferSize ≤ position) fun s =>
        let bufferOffset := position - s.bufferPosition
        let currentLength := min (s.bufferSize - bufferOffset) data.length
        flushes turns (s.stored bufferOffset (data.take currentLength)) (position + currentLength)
          (data.drop currentLength) (accepted + currentLength)
    else []

def bufferedFlushes (s : PFile) (position : Nat) (data : List UInt8) (accepted : Nat) :
    List (PFile × Nat) :=
  restarts answer s position accepted
    (position < s.bufferPosition ∨ s.bufferPosition + s.validBufferSize < position) fun s =>
    flushes answer data.length s position data accepted

/-- The flushes of a write. -/
def writeFlushes (s : PFile) (position : Nat) (data : List UInt8) : List (PFile × Nat) :=
  if s.bufferSize = 0 then []
  else
    let s := s.allocate
    if s.goesDirect position data.length then
      match s.file.tryPwrite answer (data.take (data.length - s.bufferSize)) position with
      | (none, _) => []
      | (some bytesWritten, file) =>
        bufferedFlushes answer { s with file := file } (position + bytesWritten)
          (data.drop bytesWritten) bytesWritten
    else bufferedFlushes answer s position data 0

section

variable {P : Nat → Prop} {accepted : Nat}

theorem restarts_iff {due : Prop} [Decidable due] {next : PFile → List (PFile × Nat)} :
    (∀ flush ∈ restarts answer s position accepted due next,
        (flush.1.tryFlush answer).1 = true ∨ P flush.2) ↔
      match if due then s.tryRestart answer position else (true, s) with
      | (false, _) => P accepted
      | (true, t) => ∀ flush ∈ next t, (flush.1.tryFlush answer).1 = true ∨ P flush.2 := by
  unfold restarts tryRestart
  by_cases needed : due
  · rcases flushed : s.tryFlush answer with ⟨_ | _, u⟩ <;> simp [needed, flushed]
  · simp [needed]

/-- All flushes but the last one have succeeded, and the write ends where that one fails. -/
theorem flushes_iff (turns : Nat) :
    (∀ flush ∈ flushes answer turns s position data accepted,
        (flush.1.tryFlush answer).1 = true ∨ P flush.2) ↔
      (tryWriteLoop answer turns s position data).2.1 = true ∨
        P (accepted + (tryWriteLoop answer turns s position data).1) := by
  induction turns generalizing s position data accepted with
  | zero => simp [flushes, tryWriteLoop]
  | succ turns ih =>
    rw [flushes, tryWriteLoop]
    split
    · rw [restarts_iff]
      rcases (if s.bufferPosition + s.bufferSize ≤ position then s.tryRestart answer position
        else (true, s)) with ⟨_ | _, t⟩
      · simp
      · simp only [ih, add_assoc]
    · simp

theorem bufferedFlushes_iff :
    (∀ flush ∈ bufferedFlushes answer s position data accepted,
        (flush.1.tryFlush answer).1 = true ∨ P flush.2) ↔
      (s.tryWriteBuffered answer position data).2.1 = true ∨
        P (accepted + (s.tryWriteBuffered answer position data).1) := by
  unfold bufferedFlushes tryWriteBuffered
  rw [restarts_iff]
  rcases (if position < s.bufferPosition ∨ s.bufferPosition + s.validBufferSize < position then
    s.tryRestart answer position else (true, s)) with ⟨_ | _, t⟩
  · simp
  · exact flushes_iff answer data.length

theorem writeFlushes_iff (nothing : P 0) :
    (∀ flush ∈ writeFlushes answer s position data,
        (flush.1.tryFlush answer).1 = true ∨ P flush.2) ↔
      (s.tryWriteBytes answer position data).2.1 = true ∨
        P (s.tryWriteBytes answer position data).1 := by
  unfold writeFlushes tryWriteBytes tryWriteAllocated
  split
  · split <;> simp [nothing]
  · generalize s.allocate = u
    dsimp only
    split
    · rcases u.file.tryPwrite answer (data.take (data.length - u.bufferSize)) position with
        ⟨_ | bytesWritten, file⟩
      · simp [nothing]
      · exact bufferedFlushes_iff answer
    · rw [bufferedFlushes_iff, Nat.zero_add]

end

/-! ## Operations -/

/-- No `Flush` fails behind bytes that are accepted, unless these are in the file already. -/
def WriteKept (s : PFile) (position : Nat) (data : List UInt8) : Prop :=
  ∀ flush ∈ writeFlushes answer s position data, (flush.1.tryFlush answer).1 = true ∨
    writeAt 0 s.contents position (data.take flush.2) = s.contents

theorem writeKept_iff : s.WriteKept answer position data ↔
    (s.tryWriteBytes answer position data).2.1 = true ∨ writeAt 0 s.contents position
      (data.take (s.tryWriteBytes answer position data).1) = s.contents :=
  writeFlushes_iff answer (P := fun n => writeAt 0 s.contents position (data.take n) = s.contents)
    writeAt_nil

/-- No refill fails over a window that is not what the file holds there, and no `Flush` of a write
fails behind bytes that are accepted already and change the file. -/
def Keeps (s : PFile) : FileOp → Prop
  | .Read size =>
    ∀ refill ∈ readRefills answer s s.position size, refill.1.RefillKept answer refill.2
  | .ReadPos position size =>
    ∀ refill ∈ readRefills answer s position size, refill.1.RefillKept answer refill.2
  | .Write data => s.WriteKept answer s.position data
  | .WritePos position data => s.WriteKept answer position data
  | .SetBufferSize bufferSize => s.KeepsUnwritten bufferSize
  | _ => True

/-- Some call that the operation makes fails. -/
def Fails (s : PFile) (op : FileOp) : Prop :=
  ∃ call, s.file.calls ≤ call ∧ call < (s.perform answer op).file.calls ∧ answer call = none

end

/-- Whatever is done once the calls succeed, the file answers as the plain one, and `Flush` brings
the file below to its content. -/
def Delivers (s : PFile) (plain : PlainFile) : Prop :=
  ∀ limit ops, Along (PFile.step limit) (Meets limit) s ops →
    (feed (PFile.step limit) s ops).2 = (feed PlainFile.step plain ops).2 ∧
      ((feed (PFile.step limit) s ops).1.Flush limit).file.content =
        (feed PlainFile.step plain ops).1.content

theorem Refines.delivers {plain : PlainFile} (refines : s.Refines plain) : s.Delivers plain := by
  intro limit ops meets
  have simulates : ∀ (s : PFile) (plain : PlainFile) (op : FileOp), s.Refines plain →
      s.Meets limit op → (s.step limit op).2 = (plain.step op).2 ∧
        (s.step limit op).1.Refines (plain.step op).1 :=
    fun _ _ _ refines good => refines.step good
  have run := feed_simulation simulates refines meets
  refine ⟨run.1, ?_⟩
  rw [(Flush_spec limit run.2.sound).1, run.2.contents]

theorem Stale.not_delivers (stale : Stale content s) (position : Nat) :
    ¬ Delivers s ⟨content, position⟩ := by
  intro delivers
  have length := stale.length
  have valid := stale.valid
  have some_ : s.validBufferSize ≠ 0 := by
    intro empty
    apply stale.differs
    rw [empty, length_eq_zero_iff.mp (length.trans empty)]
    exact take_zero
  have meets : Along (PFile.step fun _ => 0) (Meets fun _ => 0) s
      [.ReadPos s.bufferPosition s.validBufferSize] :=
    ⟨fun unbuffered => absurd unbuffered (by omega), trivial⟩
  have replies := (delivers (fun _ => 0) _ meets).1
  have allocated : s.allocate = s := by
    unfold allocate
    cases buffer : s.buffer with
    | none => exact absurd buffer stale.allocated
    | some memory => rfl
  have buffered : s.goesDirect s.bufferPosition s.validBufferSize = false := by
    unfold goesDirect
    simp only [decide_eq_false_iff_not]
    omega
  have inside : ¬ s.Outside s.bufferPosition := by
    unfold Outside
    omega
  obtain ⟨turns, size⟩ : ∃ turns, s.validBufferSize = turns + 1 := ⟨_, (Nat.succ_pred some_).symm⟩
  have read : (s.ReadPos (fun _ => 0) s.bufferPosition s.validBufferSize).1 = s.window := by
    unfold ReadPos
    rw [allocated]
    dsimp only
    rw [buffered, if_neg (by decide)]
    rw [show readLoop (fun _ => 0) s.validBufferSize s s.bufferPosition s.validBufferSize =
      readLoop (fun _ => 0) (turns + 1) s s.bufferPosition s.validBufferSize by rw [← size],
      readLoop_turn (by omega) (if_neg inside), if_neg fun both => inside both.1]
    dsimp only
    rw [Nat.sub_self, Nat.sub_zero, Nat.min_self, Nat.sub_self, drop_zero]
    cases turns <;> simp [readLoop, window]
  change [FileReply.data (s.ReadPos (fun _ => 0) s.bufferPosition s.validBufferSize).1] =
    [FileReply.data (readAt content s.bufferPosition s.validBufferSize)] at replies
  rw [read] at replies
  simp only [cons.injEq, FileReply.data.injEq, and_true] at replies
  exact stale.differs replies.symm

theorem Kept.refines (kept : Kept s t) (position : Nat) :
    Refines { t with position := position } ⟨s.contents, position⟩ :=
  ⟨kept.sound.moved position, kept.contents, rfl⟩

theorem place_eq (s : PFile) (there : s.position = position) :
    { s with position := position } = s := by
  subst there
  rfl

/-- What is reported of the bytes that a write has accepted. -/
def count (completed : Bool) (n : Nat) : Nat := (if completed then some n else none).getD 0

theorem Written.refines {completed : Bool} {n : Nat} (written : Written s position (data.take n) t)
    (kept : completed = true ∨ writeAt 0 s.contents position (data.take n) = s.contents)
    (there : Nat) :
    Refines { t with position := there }
      ⟨writeAt 0 s.contents position (data.take (count completed n)), there⟩ := by
  refine ⟨written.sound.moved there, ?_, rfl⟩
  show t.contents = _
  rw [written.contents]
  cases completed with
  | true => rfl
  | false =>
    rw [kept.resolve_left (by decide)]
    show s.contents = writeAt 0 s.contents position []
    rw [writeAt_nil]

theorem Written.kept {completed : Bool} {n : Nat} (written : Written s position (data.take n) t)
    {there : Nat} (delivers : Delivers { t with position := there }
      ⟨writeAt 0 s.contents position (data.take (count completed n)), there⟩) :
    completed = true ∨ writeAt 0 s.contents position (data.take n) = s.contents := by
  cases completed with
  | true => exact .inl rfl
  | false =>
    have flushed := (delivers (fun _ => 0) [] trivial).2
    change (PFile.Flush _ { t with position := there }).file.content =
      writeAt 0 s.contents position [] at flushed
    rw [(Flush_spec _ (written.sound.moved there)).1, writeAt_nil] at flushed
    exact .inr (written.contents.symm.trans flushed)

theorem trySetBufferSize_spec (sound : s.Sound) {bufferSize : Nat}
    (keeps : s.KeepsUnwritten bufferSize) :
    (s.trySetBufferSize answer bufferSize).2.Refines ⟨s.contents, s.position⟩ := by
  have flushed := tryFlush_spec answer sound
  unfold trySetBufferSize
  split
  · generalize s.tryFlush answer = result at flushed ⊢
    rcases result with ⟨_ | _, u⟩
    · refine ⟨flushed.sound, flushed.contents, ?_⟩
      rcases flushed.form with ⟨file, dirty, rfl⟩
      rfl
    · obtain ⟨_, content⟩ := flushed.done rfl
      refine ⟨⟨?_, Nat.le_refl 0, fun _ => rfl, fun _ => rfl⟩, ?_, ?_⟩
      · intro memory same
        cases same
      · show writeAt 0 u.file.content u.bufferPosition [] = s.contents
        rw [writeAt_nil]
        exact content
      · rcases flushed.form with ⟨file, dirty, rfl⟩
        rfl
  · have resized := SetBufferSize_spec (fun _ => 0) sound keeps
    exact ⟨resized.1, resized.2.1, resized.2.2⟩

theorem Sound.perform_refines {op : FileOp} (sound : s.Sound) (keeps : s.Keeps answer op) :
    (s.perform answer op).Refines (s.reported answer op) := by
  cases op with
  | Read size =>
    have kept := (tryReadPos_spec sound s.position size).1 keeps
    have read := kept.refines ((s.tryReadPos answer s.position size).2.position +
      ((s.tryReadPos answer s.position size).1.getD []).length)
    rw [kept.same] at read
    show Refines { (s.tryReadPos answer s.position size).2 with
      position := (s.tryReadPos answer s.position size).2.position + _ } _
    rw [kept.same]
    exact read
  | ReadPos position size =>
    have kept := (tryReadPos_spec sound position size).1 keeps
    have read := kept.refines s.position
    rwa [place_eq _ kept.same] at read
  | Write data =>
    have written := (tryWriteBytes_spec answer sound s.position data).2
    show Refines { (s.tryWriteBytes answer s.position data).2.2 with
      position := (s.tryWriteBytes answer s.position data).2.2.position + _ } _
    rw [written.same]
    exact written.refines ((writeKept_iff answer).1 keeps) _
  | WritePos position data =>
    have written := (tryWriteBytes_spec answer sound position data).2
    have refines := written.refines ((writeKept_iff answer).1 keeps) s.position
    rwa [place_eq _ written.same] at refines
  | Seek position mode =>
    refine ⟨?_, ?_, rfl⟩
    · show (s.Seek position mode).2.Sound
      unfold PFile.Seek
      split
      · exact sound.moved _
      · exact sound
    · show (s.Seek position mode).2.contents = s.contents
      unfold PFile.Seek
      split <;> rfl
  | SetBufferSize bufferSize => exact trySetBufferSize_spec sound keeps
  | Flush =>
    have flushed := tryFlush_spec answer sound
    refine ⟨flushed.sound, flushed.contents, ?_⟩
    rcases flushed.form with ⟨file, dirty, same⟩
    show (s.tryFlush answer).2.position = s.position
    rw [same]
  | GetSize => exact ⟨sound, rfl, rfl⟩

/-- The states of runs in which every operation, failed or not, keeps what the file stands for. -/
inductive Reached (content : List UInt8) : PFile → Prop
  | opened : Reached content (opened content)
  | step {s : PFile} (answer : Nat → Option Nat) (op : FileOp) :
      Reached content s → s.Keeps answer op → Reached content (s.perform answer op)

theorem Reached.sound (reached : Reached content s) : s.Sound := by
  induction reached with
  | opened => exact .opened content
  | step answer op _ keeps sound => exact (sound.perform_refines keeps).sound

theorem trySetBufferSize_calls (s : PFile) (answer : Nat → Option Nat) {bufferSize : Nat}
    (some_ : bufferSize ≠ 0) :
    (s.trySetBufferSize answer bufferSize).2.file = s.file := by
  unfold trySetBufferSize PFile.SetBufferSize
  rw [if_neg fun both => some_ both.1, if_neg some_]
  split
  · rfl
  · split <;> rfl

/-- Six bytes of which the first two are in the buffer. -/
def windowed : PFile := ⟨⟨[1, 2, 3, 4, 5, 6], 1⟩, 0, 2, some [1, 2], 0, 2, false⟩

/-- An empty file with an empty buffer of two bytes. -/
def buffering : PFile := ⟨⟨[], 0⟩, 0, 2, none, 0, 0, false⟩

theorem windowed_reached : Reached [1, 2, 3, 4, 5, 6] windowed := by
  have same : windowed = ((opened [1, 2, 3, 4, 5, 6]).perform (fun _ => some 9)
      (.SetBufferSize 2)).perform (fun _ => some 9) (.ReadPos 0 2) := by
    decide
  rw [same]
  refine .step _ _ (.step _ _ .opened ?_) ?_
  · intro dirty
    cases dirty
  · intro refill _ _ fails
    cases fails

theorem buffering_reached : Reached [] buffering := by
  have same : buffering = (opened []).perform (fun _ => some 9) (.SetBufferSize 2) := by decide
  rw [same]
  refine .step _ _ .opened ?_
  intro dirty
  cases dirty

/-- Behind a read at 4 that fails the bytes 1 and 2 are read there, and behind a write of three bytes
that reports nothing two of them are in the file. -/
theorem failed_operations_change_more :
    (Reached [1, 2, 3, 4, 5, 6] windowed ∧ windowed.Fails (fun _ => none) (.ReadPos 4 2) ∧
      ¬ Delivers (windowed.perform (fun _ => none) (.ReadPos 4 2))
        (windowed.reported (fun _ => none) (.ReadPos 4 2))) ∧
    (Reached [] buffering ∧ buffering.Fails (fun _ => none) (.WritePos 0 [7, 8, 9]) ∧
      ¬ Delivers (buffering.perform (fun _ => none) (.WritePos 0 [7, 8, 9]))
        (buffering.reported (fun _ => none) (.WritePos 0 [7, 8, 9]))) := by
  refine ⟨⟨windowed_reached, ⟨1, by decide, by decide, rfl⟩, ?_⟩,
    buffering_reached, ⟨0, by decide, by decide, rfl⟩, ?_⟩
  · intro delivers
    have meets : Along (PFile.step fun _ => 9) (Meets fun _ => 9)
        (windowed.perform (fun _ => none) (.ReadPos 4 2)) [.ReadPos 4 2] :=
      ⟨fun unbuffered => absurd unbuffered (by decide), trivial⟩
    exact absurd (delivers _ _ meets).1 (by decide)
  · intro delivers
    exact absurd (delivers (fun _ => 9) [] trivial).2 (by decide)

/-- After an operation that failed the file answers as one in which what is reported has been
written, exactly where no refill has left a stale window and no write has been accepted in part. -/
theorem failed_operation_delivers_iff (sound : s.Sound) (op : FileOp) (fails : s.Fails answer op) :
    Delivers (s.perform answer op) (s.reported answer op) ↔ s.Keeps answer op := by
  constructor
  · intro delivers
    cases op with
    | Read size =>
      by_contra bad
      have stale := (tryReadPos_spec sound s.position size).2 (by
        unfold Keeps at bad
        push Not at bad
        exact bad)
      exact (stale.placed _).not_delivers _ delivers
    | ReadPos position size =>
      by_contra bad
      have stale := (tryReadPos_spec sound position size).2 (by
        unfold Keeps at bad
        push Not at bad
        exact bad)
      exact stale.not_delivers _ delivers
    | Write data =>
      have written := (tryWriteBytes_spec answer sound s.position data).2
      change Delivers { (s.tryWriteBytes answer s.position data).2.2 with
        position := (s.tryWriteBytes answer s.position data).2.2.position + _ } _ at delivers
      rw [written.same] at delivers
      exact (writeKept_iff answer).2 (written.kept delivers)
    | WritePos position data =>
      have written := (tryWriteBytes_spec answer sound position data).2
      have there := place_eq _ written.same
      change Delivers (s.tryWriteBytes answer position data).2.2 _ at delivers
      rw [← there] at delivers
      exact (writeKept_iff answer).2 (written.kept delivers)
    | SetBufferSize bufferSize =>
      intro _ some_
      obtain ⟨call, from_, below, _⟩ := fails
      have file := trySetBufferSize_calls s answer some_
      change call < (s.trySetBufferSize answer bufferSize).2.file.calls at below
      rw [file] at below
      omega
    | Seek => trivial
    | Flush => trivial
    | GetSize => trivial
  · intro keeps
    exact (sound.perform_refines keeps).delivers

/-- Two bytes in the buffer that are not written yet. -/
def unwritten : PFile := ⟨⟨[1, 2, 3], 0⟩, 0, 2, some [8, 9], 1, 2, true⟩

/-- The read cannot write them out, and they are there behind it. -/
theorem failed_operation_delivers_unwritten :
    Delivers (unwritten.perform (fun _ => none) (.ReadPos 0 1)) ⟨[1, 8, 9], 0⟩ := by
  have sound : unwritten.Sound := by
    refine ⟨fun memory same => ?_, Nat.le_refl 2, fun none_ => ?_, fun clean => ?_⟩
    · cases same
      rfl
    · cases none_
    · cases clean
  have fails : unwritten.Fails (fun _ => none) (.ReadPos 0 1) := ⟨0, by decide, by decide, rfl⟩
  refine (failed_operation_delivers_iff sound (.ReadPos 0 1) fails).mpr ?_
  intro refill member flushed
  have list : readRefills (fun _ => none) unwritten 0 1 = [(unwritten, 0)] := by decide
  rw [list] at member
  rw [mem_singleton.mp member] at flushed
  exact absurd flushed (by decide)

end PFile

end PadOS.Storage
