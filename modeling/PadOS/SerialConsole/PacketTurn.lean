import PadOS.SerialConsole.PacketReader

/-!
# What one turn of `ReadPacket` does

Each step is told by the bytes the reader holds: a read adds to them, the search drops from them.
-/

namespace PadOS.SerialConsole

open List Option

theorem wordAt_take (bytes : List UInt8) {offset size : Nat} (inside : offset + 4 ≤ size) :
    wordAt (bytes.take size) offset = wordAt bytes offset := by
  unfold wordAt
  rw [drop_take]
  rcases bytes.drop offset with _ | ⟨b0, _ | ⟨b1, _ | ⟨b2, _ | ⟨b3, rest⟩⟩⟩⟩
  · rw [take_nil]
  all_goals
    rcases Nat.exists_eq_add_of_le inside with ⟨more, rfl⟩
    rw [show offset + 4 + more - offset = more + 4 by omega]
    rfl

theorem packageLengthOf_take (bytes : List UInt8) {size : Nat} (inside : headerSize ≤ size) :
    packageLengthOf (bytes.take size) = packageLengthOf bytes := by
  unfold packageLengthOf
  rw [wordAt_take bytes (by unfold headerSize at inside; omega)]

theorem clearChecksum_length {bytes : List UInt8} (header : headerSize ≤ bytes.length) :
    (clearChecksum bytes).length = bytes.length := by
  unfold headerSize at header
  simp only [clearChecksum, length_append, length_take, length_drop, length_cons, length_nil]
  omega

theorem packageLengthOf_clearChecksum {bytes : List UInt8} (header : headerSize ≤ bytes.length) :
    packageLengthOf (clearChecksum bytes) = packageLengthOf bytes := by
  unfold headerSize at header
  have four : (bytes.take 4).length = 4 := by
    rw [length_take]
    omega
  have same : (clearChecksum bytes).drop 8 = bytes.drop 8 := by
    unfold clearChecksum
    rw [drop_append, drop_eq_nil_of_le (by simp [four]), nil_append]
    simp [four]
  unfold packageLengthOf wordAt
  rw [same]

namespace Port

theorem read_cuts (port : Port) (room : Nat) : (port.read room).2.length ≤ port.length := by
  cases port with
  | nil => exact Nat.le_refl 0
  | cons chunk rest =>
    simp only [read]
    split
    · exact Nat.le_succ _
    · exact le_rfl

theorem read_nothing (port : Port) {room : Nat} (nothing : (port.read room).1.length = 0)
    (space : 0 < room) : (port.read room).2.length < port.length ∨ port = [] := by
  cases port with
  | nil => exact Or.inr rfl
  | cons chunk rest =>
    apply Or.inl
    simp only [read, length_take] at nothing ⊢
    rw [if_pos (by omega)]
    exact Nat.lt_succ_self _

end Port

namespace PacketReader

variable {s t : PacketReader} {port after : Port} {room length : Nat}

/-- The bytes read and not dropped. -/
def held (s : PacketReader) : List UInt8 := s.inMessageBuffer.take s.packageBytesRead

theorem held_length (fits : s.packageBytesRead ≤ s.inMessageBuffer.length) :
    s.held.length = s.packageBytesRead := by
  rw [held, length_take, min_eq_left fits]

theorem getElem_held {i : Nat} (inside : i < s.packageBytesRead) :
    s.held[i]? = s.inMessageBuffer[i]? := by
  rw [held, getElem?_take, if_pos inside]

theorem read_trw_held (s : PacketReader) (port : Port) (space : 0 < room)
    (fits : s.packageBytesRead + room ≤ s.inMessageBuffer.length) :
    ∃ t, s.read_trw port room = some ((port.read room).1.length, t, (port.read room).2) ∧
      t.held = s.held ++ (port.read room).1 ∧
      t.packageBytesRead = s.packageBytesRead + (port.read room).1.length ∧
      t.inMessageBuffer.length = s.inMessageBuffer.length := by
  have bound := port.read_length_le room
  have heldLength := held_length (s := s) (by omega)
  refine ⟨_, if_pos ⟨by omega, fits⟩, ?_, rfl, ?_⟩
  · simp only [held] at heldLength ⊢
    rw [take_append_of_le_length (by
      rw [length_append, heldLength]), take_of_length_le (by
      rw [length_append, heldLength])]
  · simp only [length_append, length_take, length_drop]
    omega

theorem dropFront_held (source : Nat) (inside : source < s.inMessageBuffer.length)
    (drops : source ≤ s.packageBytesRead) (fits : s.packageBytesRead ≤ s.inMessageBuffer.length) :
    ∃ t, s.dropFront source = some t ∧ t.held = s.held.drop source ∧
      t.packageBytesRead = s.packageBytesRead - source ∧
      t.inMessageBuffer.length = s.inMessageBuffer.length := by
  refine ⟨_, if_pos ⟨inside, fits⟩, ?_, rfl, ?_⟩
  · have moved : ((s.inMessageBuffer.drop source).take (s.packageBytesRead - source)).length =
        s.packageBytesRead - source := by
      rw [length_take, length_drop]
      omega
    simp only [held, drop_take]
    rw [take_append_of_le_length (Nat.le_of_eq moved.symm), take_of_length_le moved.le]
  · simp only [length_append, length_take, length_drop]
    omega

/-- What the search for the first magic byte leaves of the held bytes. -/
def searched (bytes : List UInt8) : List UInt8 := bytes.dropWhile (· != MAGIC1)

theorem searched_eq_drop (bytes : List UInt8) :
    searched bytes = bytes.drop (bytes.findIdx (· == MAGIC1)) := by
  rw [searched, dropWhile_eq_drop_findIdx_not]
  congr 2
  funext byte
  simp only [bne, Bool.not_not]

theorem findMagic1_nil (empty : s.packageBytesRead = 0) : s.findMagic1 = some s :=
  if_neg (by omega)

theorem findMagic1_cons {first : UInt8} {more : List UInt8} (held : s.held = first :: more) :
    s.findMagic1 =
      if first ≠ MAGIC1 then s.dropFront (s.held.findIdx (· == MAGIC1)) else some s := by
  have filled : 1 ≤ s.packageBytesRead := by
    apply Nat.pos_of_ne_zero
    intro zero
    rw [PacketReader.held, zero] at held
    cases held
  have head : s.inMessageBuffer[0]? = some first := by
    rw [← getElem_held filled, held]
    rfl
  rw [findMagic1, if_pos filled, head]
  rfl

/-- The search indexes outside the buffer where it is full and holds no magic byte. -/
theorem findMagic1_outside (full : s.packageBytesRead = s.inMessageBuffer.length)
    (filled : 1 ≤ s.packageBytesRead) (absent : MAGIC1 ∉ s.held) : s.findMagic1 = none := by
  have heldLength := held_length full.le
  match held : s.held with
  | [] =>
    rw [held] at heldLength
    simp at heldLength
    omega
  | first :: more =>
    have other : first ≠ MAGIC1 := by
      intro magic
      exact absent (by rw [held, magic]; exact mem_cons_self)
    have beyond : s.held.findIdx (· == MAGIC1) = s.held.length := by
      apply findIdx_eq_length_of_false
      intro byte member
      rw [beq_eq_false_iff_ne]
      intro magic
      exact absent (magic ▸ member)
    rw [findMagic1_cons held, if_pos other, beyond, dropFront, if_neg (by omega)]

theorem findMagic1_held (fits : s.packageBytesRead ≤ s.inMessageBuffer.length)
    (inside : s.packageBytesRead < s.inMessageBuffer.length ∨ MAGIC1 ∈ s.held) :
    ∃ t, s.findMagic1 = some t ∧ t.held = searched s.held ∧
      t.packageBytesRead = (searched s.held).length ∧
      t.inMessageBuffer.length = s.inMessageBuffer.length := by
  have heldLength := held_length fits
  match held : s.held with
  | [] =>
    rw [held] at heldLength
    exact ⟨s, findMagic1_nil heldLength.symm, held, heldLength.symm, rfl⟩
  | first :: more =>
    rw [findMagic1_cons held]
    by_cases magic : first = MAGIC1
    · have same : searched (first :: more) = first :: more := by
        rw [searched, dropWhile_cons, if_neg (by simp [magic])]
      rw [if_neg (by simp [magic]), same, ← held]
      exact ⟨s, rfl, rfl, heldLength.symm, rfl⟩
    · rw [if_pos magic, ← held]
      have stops : s.held.findIdx (· == MAGIC1) ≤ s.held.length := findIdx_le_length
      have inBuffer : s.held.findIdx (· == MAGIC1) < s.inMessageBuffer.length := by
        rcases inside with room | present
        · omega
        · have found : s.held.findIdx (· == MAGIC1) < s.held.length :=
            findIdx_lt_length_of_exists ⟨MAGIC1, present, BEq.rfl⟩
          omega
      rcases dropFront_held _ inBuffer (by omega) fits with ⟨t, drops, heldAfter, read, size⟩
      refine ⟨t, drops, ?_, ?_, size⟩
      · rw [heldAfter, searched_eq_drop]
      · rw [read, searched_eq_drop, length_drop, heldLength]

/-- After the search: a pair that is not the magic is dropped, a complete header goes on. -/
theorem resync_held (port : Port) (size : s.inMessageBuffer.length = headerSize)
    (fits : s.packageBytesRead ≤ headerSize)
    (inside : s.packageBytesRead < headerSize ∨ MAGIC1 ∈ s.held) :
    ∃ t, t.inMessageBuffer.length = headerSize ∧ t.packageBytesRead = t.held.length ∧
      ((∃ byte behind, searched s.held = MAGIC1 :: byte :: behind ∧ byte ≠ MAGIC2 ∧
          t.held = behind ∧ s.resync port = some (.continues, t, port)) ∨
        (searched s.held = t.held ∧ t.held.length < headerSize ∧
          (t.held.length < 2 ∨ t.held.take 2 = [MAGIC1, MAGIC2]) ∧
          s.resync port = some (.continues, t, port)) ∨
        (searched s.held = t.held ∧ t.held.take 2 = [MAGIC1, MAGIC2] ∧
          t.held.length = headerSize ∧ s.resync port = t.readBody port)) := by
  rcases findMagic1_held (s := s) (by omega) (by rw [size]; exact inside) with
    ⟨t, finds, heldAfter, read, sizeAfter⟩
  rw [size] at sizeAfter
  have shorter : (searched s.held).length ≤ headerSize := by
    have drops := length_drop (i := s.held.findIdx (· == MAGIC1)) (l := s.held)
    rw [← searched_eq_drop, held_length (by omega)] at drops
    omega
  have resync : s.resync port = if 2 ≤ t.packageBytesRead then
        t.inMessageBuffer[1]?.bind fun second =>
          if second ≠ MAGIC2 then (t.dropFront 2).bind fun s => some (.continues, s, port)
          else if t.packageBytesRead < headerSize then some (.continues, t, port)
          else t.readBody port
      else some (.continues, t, port) := by
    rw [PacketReader.resync, finds]
    rfl
  rw [resync]
  match found : searched s.held with
  | [] | [_] =>
    rw [found] at heldAfter read
    refine ⟨t, sizeAfter, by rw [read, heldAfter],
      Or.inr (Or.inl ⟨heldAfter.symm, ?_, Or.inl ?_, ?_⟩)⟩
    · rw [heldAfter]
      simp [headerSize]
    · rw [heldAfter]
      simp
    · rw [if_neg (by rw [read]; simp)]
  | first :: byte :: behind =>
    have magic : first = MAGIC1 := by
      have head := head?_dropWhile_not (· != MAGIC1) s.held
      rw [← searched, found] at head
      simpa using head
    subst magic
    rw [found] at heldAfter read shorter
    have two : 2 ≤ t.packageBytesRead := by
      rw [read]
      simp
    have second : t.inMessageBuffer[1]? = some byte := by
      rw [← getElem_held two, heldAfter]
      rfl
    rw [if_pos two, second, bind_some]
    by_cases magic : byte = MAGIC2
    · rw [if_neg (by simp [magic])]
      by_cases partly : t.packageBytesRead < headerSize
      · rw [if_pos partly]
        refine ⟨t, sizeAfter, by rw [read, heldAfter],
          Or.inr (Or.inl ⟨heldAfter.symm, ?_, Or.inr ?_, rfl⟩)⟩
        · rw [heldAfter, ← read]
          exact partly
        · rw [heldAfter, magic]
          rfl
      · rw [if_neg partly]
        refine ⟨t, sizeAfter, by rw [read, heldAfter], Or.inr (Or.inr ⟨heldAfter.symm, ?_, ?_, rfl⟩)⟩
        · rw [heldAfter, magic]
          rfl
        · rw [heldAfter, ← read]
          omega
    · rw [if_pos magic]
      rcases dropFront_held (s := t) 2 (by rw [sizeAfter]; decide) two (by omega) with
        ⟨u, drops, heldDropped, readDropped, sizeDropped⟩
      rw [drops]
      refine ⟨u, by rw [sizeDropped, sizeAfter], ?_, Or.inl ⟨byte, behind, rfl, magic, ?_, rfl⟩⟩
      · rw [readDropped, heldDropped, length_drop, heldAfter, read]
      · rw [heldDropped, heldAfter]
        rfl

/-- The length in the header of what is held. -/
def packageLength (s : PacketReader) : Nat := packageLengthOf s.held

theorem packageLength_eq (header : headerSize ≤ s.packageBytesRead) :
    packageLengthOf s.inMessageBuffer = s.packageLength :=
  (packageLengthOf_take s.inMessageBuffer header).symm

theorem resize_held (size : Nat) (fits : s.packageBytesRead ≤ s.inMessageBuffer.length) :
    (s.resize size).held = s.held :=
  take_append_of_le_length fits

theorem readBody_held (port : Port) (header : headerSize ≤ s.packageBytesRead)
    (fits : s.packageBytesRead ≤ s.inMessageBuffer.length) :
    (MAX_MESSAGE_SIZE < s.packageLength ∧ s.readBody port = some (.continues, initial, port)) ∨
      (s.packageLength ≤ s.packageBytesRead ∧ s.readBody port = some (s.checkPacket port)) ∨
      (s.packageLength ≤ MAX_MESSAGE_SIZE ∧ s.packageBytesRead < s.packageLength ∧
        ∃ t, t.held = s.held ++ (port.read (s.packageLength - s.packageBytesRead)).1 ∧
          t.packageBytesRead = t.held.length ∧
          t.inMessageBuffer.length = max s.inMessageBuffer.length s.packageLength ∧
          s.readBody port =
            let after := (port.read (s.packageLength - s.packageBytesRead)).2
            if t.packageBytesRead = s.packageBytesRead then some (.returns false, t, after)
            else if t.packageBytesRead < s.packageLength then some (.continues, t, after)
            else some (t.checkPacket after)) := by
  have heldLength := held_length fits
  unfold readBody
  rw [packageLength_eq header]
  by_cases long : MAX_MESSAGE_SIZE < s.packageLength
  · exact Or.inl ⟨long, if_pos long⟩
  · apply Or.inr
    rw [if_neg long]
    have sizeAfter : (s.resize s.packageLength).inMessageBuffer.length =
        max s.inMessageBuffer.length s.packageLength := by
      simp only [resize, length_append, length_replicate]
      omega
    by_cases partly : s.packageBytesRead < s.packageLength
    · apply Or.inr
      refine ⟨Nat.le_of_not_lt long, partly, ?_⟩
      rcases read_trw_held (s.resize s.packageLength) port (Nat.sub_pos_of_lt partly) (by
          rw [sizeAfter]
          show s.packageBytesRead + _ ≤ _
          omega) with ⟨t, reads, held, read, size⟩
      rw [resize_held _ fits] at held
      change t.packageBytesRead = s.packageBytesRead + _ at read
      refine ⟨t, held, ?_, by rw [size, sizeAfter], ?_⟩
      · rw [held, length_append, heldLength, read]
      · simp only
        rw [if_pos (show (s.resize s.packageLength).packageBytesRead < _ from partly)]
        change Option.bind (read_trw (s.resize s.packageLength) port
          (s.packageLength - s.packageBytesRead)) _ = _
        rw [reads]
        simp only [bind_some]
        by_cases nothing : (port.read (s.packageLength - s.packageBytesRead)).1.length = 0
        · rw [if_pos nothing, if_pos (show t.packageBytesRead = s.packageBytesRead by omega)]
        · rw [if_neg nothing, if_neg (show ¬ t.packageBytesRead = s.packageBytesRead by omega)]
    · apply Or.inl
      refine ⟨Nat.le_of_not_lt partly, ?_⟩
      have same : s.resize s.packageLength = s := by
        have none : s.packageLength - s.inMessageBuffer.length = 0 := by omega
        simp only [resize, none, replicate_zero, append_nil]
      simp only [same]
      rw [if_neg partly]

/-- The reader looks for the magic, or reads a header. -/
def Scanning (s : PacketReader) : Prop :=
  s.inMessageBuffer = [] ∧ s.packageBytesRead = 0 ∨
    s.inMessageBuffer.length = headerSize ∧ s.packageBytesRead < headerSize

/-- The reader has a header, and reads the body it announces. -/
structure Filling (s : PacketReader) : Prop where
  header : headerSize ≤ s.packageBytesRead
  partly : s.packageBytesRead < s.packageLength
  size : s.inMessageBuffer.length = s.packageLength

theorem packageLength_append {more : List UInt8} (held : t.held = s.held ++ more)
    (header : headerSize ≤ s.held.length) : t.packageLength = s.packageLength := by
  unfold packageLength
  rw [← packageLengthOf_take t.held le_rfl, held, take_append_of_le_length header,
    packageLengthOf_take _ le_rfl]

/-- How a turn with a complete header ends: with a packet too long, a body not yet complete, or
a whole packet to check. -/
theorem readBody_cases (port : Port)
    (header : s.packageBytesRead = headerSize ∧ s.inMessageBuffer.length = headerSize ∨ s.Filling) :
    (MAX_MESSAGE_SIZE < s.packageLength ∧ s.readBody port = some (.continues, initial, port)) ∨
      ∃ t after, t.held ++ after.flatten = s.held ++ port.flatten ∧
        t.packageLength = s.packageLength ∧ t.packageBytesRead = t.held.length ∧
        after.length ≤ port.length ∧
        (t.Filling ∧ (s.readBody port = some (.continues, t, after) ∨
            s.readBody port = some (.returns false, t, after) ∧
              (after.length < port.length ∨ port = [])) ∨
          t.inMessageBuffer = t.held ∧ t.held.length = max headerSize t.packageLength ∧
            s.readBody port = some (t.checkPacket after)) := by
  have long : headerSize ≤ s.packageBytesRead := by
    rcases header with ⟨read, _⟩ | filling
    · omega
    · exact filling.header
  have fits : s.packageBytesRead ≤ s.inMessageBuffer.length := by
    rcases header with ⟨read, size⟩ | filling
    · omega
    · have partly := filling.partly
      have size := filling.size
      omega
  have heldLength := held_length fits
  rcases readBody_held port long fits with
    tooLong | ⟨complete, body⟩ | ⟨_, partly, t, held, read, size, body⟩
  · exact Or.inl tooLong
  · apply Or.inr
    rcases header with ⟨read, size⟩ | filling
    · refine ⟨s, port, rfl, rfl, heldLength.symm, le_rfl, Or.inr ⟨?_, ?_, body⟩⟩
      · exact (take_of_length_le (by omega)).symm
      · omega
    · have partly := filling.partly
      omega
  · apply Or.inr
    have room := port.read_length_le (s.packageLength - s.packageBytesRead)
    have flatten := port.read_flatten (s.packageLength - s.packageBytesRead)
    have sameLength := packageLength_append held (by omega)
    have grown := congrArg List.length held
    rw [length_append] at grown
    have sizeAfter : t.inMessageBuffer.length = t.packageLength := by
      rcases header with ⟨_, start⟩ | filling
      · omega
      · have same := filling.size
        omega
    refine ⟨t, (port.read (s.packageLength - s.packageBytesRead)).2, ?_, sameLength, read,
      port.read_cuts _, ?_⟩
    · rw [held, append_assoc, flatten]
    · by_cases nothing : t.packageBytesRead = s.packageBytesRead
      · apply Or.inl
        refine ⟨⟨by omega, by omega, sizeAfter⟩, Or.inr ⟨?_, ?_⟩⟩
        · rw [body]
          exact if_pos nothing
        · exact port.read_nothing (by omega) (by omega)
      · by_cases more : t.packageBytesRead < s.packageLength
        · apply Or.inl
          refine ⟨⟨by omega, by omega, sizeAfter⟩, Or.inl ?_⟩
          rw [body]
          exact (if_neg nothing).trans (if_pos more)
        · apply Or.inr
          refine ⟨?_, by omega, ?_⟩
          · exact (take_of_length_le (by omega)).symm
          · rw [body]
            exact (if_neg nothing).trans (if_neg more)

theorem turn_scanning (port : Port) (scanning : s.Scanning) :
    ∃ t, t.held = s.held ++ (port.read (headerSize - s.packageBytesRead)).1 ∧
      t.inMessageBuffer.length = headerSize ∧ t.packageBytesRead = t.held.length ∧
      s.turn port =
        let after := (port.read (headerSize - s.packageBytesRead)).2
        if t.packageBytesRead = s.packageBytesRead then some (.returns false, t, after)
        else t.resync after := by
  have short : s.packageBytesRead < headerSize := by
    rcases scanning with ⟨_, zero⟩ | ⟨_, short⟩
    · rw [zero]
      decide
    · exact short
  have room : ∃ u, (if s.inMessageBuffer = [] then s.resize headerSize else s) = u ∧
      u.held = s.held ∧ u.packageBytesRead = s.packageBytesRead ∧
      u.inMessageBuffer.length = headerSize := by
    rcases scanning with ⟨empty, zero⟩ | ⟨size, _⟩
    · refine ⟨_, if_pos empty, resize_held _ (by omega), rfl, ?_⟩
      rw [resize, empty]
      exact length_replicate
    · refine ⟨_, if_neg ?_, rfl, rfl, size⟩
      intro empty
      rw [empty] at size
      cases size
  rcases room with ⟨u, start, heldStart, readStart, size⟩
  rcases read_trw_held u port (Nat.sub_pos_of_lt short) (by omega) with
    ⟨t, reads, held, read, sizeAfter⟩
  have heldLength := held_length (s := u) (by omega)
  refine ⟨t, by rw [held, heldStart], by rw [sizeAfter, size], ?_, ?_⟩
  · rw [held, length_append, heldLength, read]
  · rw [turn, if_pos short, start]
    change Option.bind (u.read_trw port (headerSize - u.packageBytesRead)) _ = _
    rw [readStart, reads]
    simp only [bind_some]
    by_cases nothing : (port.read (headerSize - s.packageBytesRead)).1.length = 0
    · rw [if_pos nothing, if_pos (show t.packageBytesRead = s.packageBytesRead by omega)]
    · rw [if_neg nothing, if_neg (show ¬ t.packageBytesRead = s.packageBytesRead by omega)]

end PacketReader

end PadOS.SerialConsole
