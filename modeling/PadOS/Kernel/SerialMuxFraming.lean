import PadOS.Kernel.SerialMux

/-!
# Round trip and recovery of the multiplexer's frames

What was written in full is dispatched as it was sent. A write that was short or failed always
shows, as every dispatched frame is paid for by the bytes that were fed.
-/

namespace PadOS.Kernel

open ByteStream List Option Or MuxSend

theorem wordOf_bytesOf (value : UInt16) : wordOf value.toUInt8 (value >>> 8).toUInt8 = value := by
  apply UInt16.toBitVec_inj.mp
  apply BitVec.eq_of_getLsbD_eq
  intro i bound
  simp only [wordOf, UInt16.toBitVec_or, UInt16.toBitVec_shiftLeft, UInt8.toBitVec_toUInt16,
    UInt16.toBitVec_toUInt8, UInt16.toBitVec_shiftRight]
  by_cases low : i < 8
  · simp [low, bound]
  · have inside : i - 8 < 8 := by omega
    have back : 8 + (i - 8) = i := by omega
    simp [low, bound, inside, back]

namespace MuxSend

theorem headerBytes_eq (send : MuxSend) :
    send.headerBytes = [MAGIC_BYTE0, MAGIC_BYTE1] ++
      [send.channelID.toUInt8, (send.channelID >>> 8).toUInt8,
        (UInt16.ofNat send.data.length).toUInt8, (UInt16.ofNat send.data.length >>> 8).toUInt8] := by
  have low : ShellMuxHeader.MAGIC.toUInt8 = MAGIC_BYTE0 := by decide
  have high : (ShellMuxHeader.MAGIC >>> 8).toUInt8 = MAGIC_BYTE1 := by decide
  simp only [headerBytes, ShellMuxHeader.bytes, bytesOf, low, high, cons_append, nil_append]

theorem sent_eq (send : MuxSend) :
    send.sent = send.header.kwrite send.headerBytes ++
      if 0 < send.data.length then send.payload.kwrite send.data else [] := rfl

theorem Complete.sent {send : MuxSend} (complete : send.Complete) :
    send.sent = send.headerBytes ++ send.data := by
  rw [sent_eq, complete.1]
  by_cases empty : send.data = []
  · rw [empty]
    rfl
  · rw [if_pos (length_pos_of_ne_nil empty), complete.2 empty]

theorem length_toNat (send : MuxSend) :
    (UInt16.ofNat send.data.length).toNat = send.data.length := by
  have fits := send.fits
  rw [UInt16.toNat_ofNat']
  apply Nat.mod_eq_of_lt
  unfold SHELL_MUX_MAX_PAYLOAD at fits
  omega

end MuxSend

namespace MuxParser

variable {s : MuxParser}

/-- The parser looks for the magic, and holds no part of a frame's header or payload. -/
def Outside (s : MuxParser) : Prop := s.parseState = .SyncByte0 ∨ s.parseState = .SyncByte1

/-- What every state of the parser keeps of the counts it compares. -/
structure Sound (s : MuxParser) : Prop where
  header : s.parseState = .Header → s.headerBytes.length < 4
  payload : s.parseState = .Payload → s.payloadBuf.length < s.currentHeader.Length.toNat ∧
      s.currentHeader.Length.toNat ≤ SHELL_MUX_MAX_PAYLOAD

theorem Sound.of_outside (outside : s.Outside) : s.Sound := by
  constructor
  · intro header
    rcases outside with sync | sync <;> rw [sync] at header <;> cases header
  · intro payload
    rcases outside with sync | sync <;> rw [sync] at payload <;> cases payload

theorem step_SyncByte0 (sync : s.parseState = .SyncByte0) (byte : UInt8) :
    s.ProcessIncomingByte byte =
      if byte = MAGIC_BYTE0 then ({ s with parseState := .SyncByte1 }, []) else (s, []) := by
  rw [ProcessIncomingByte, sync]

theorem step_SyncByte1 (sync : s.parseState = .SyncByte1) (byte : UInt8) :
    s.ProcessIncomingByte byte =
      if byte = MAGIC_BYTE1 then ({ s with headerBytes := [], parseState := .Header }, [])
      else if byte = MAGIC_BYTE0 then (s, [])
      else ({ s with parseState := .SyncByte0 }, []) := by
  rw [ProcessIncomingByte, sync]

theorem step_Header_cases (header : s.parseState = .Header) (sound : s.Sound) (byte : UInt8) :
    (s.headerBytes.length < 3 ∧
      s.ProcessIncomingByte byte = ({ s with headerBytes := s.headerBytes ++ [byte] }, [])) ∨
    ∃ b0 b1 b2, s.headerBytes = [b0, b1, b2] ∧ s.ProcessIncomingByte byte =
        { s with headerBytes := [b0, b1, b2, byte] }.headerComplete
          ⟨ShellMuxHeader.MAGIC, wordOf b0 b1, wordOf b2 byte⟩ := by
  have short := sound.header header
  rw [ProcessIncomingByte, header]
  match bytes : s.headerBytes with
  | [] => exact inl ⟨by simp, by simp⟩
  | [b0] => exact inl ⟨by simp, by simp⟩
  | [b0, b1] => exact inl ⟨by simp, by simp⟩
  | [b0, b1, b2] => exact inr ⟨b0, b1, b2, rfl, by simp⟩
  | _ :: _ :: _ :: _ :: _ =>
    rw [bytes] at short
    simp at short
    omega

theorem step_Payload (payload : s.parseState = .Payload) (byte : UInt8) :
    s.ProcessIncomingByte byte = if s.payloadBuf.length + 1 = s.currentHeader.Length.toNat then
        ({ s with payloadBuf := s.payloadBuf ++ [byte], parseState := .SyncByte0 },
          [⟨s.currentHeader.ChannelID, s.payloadBuf ++ [byte]⟩])
      else ({ s with payloadBuf := s.payloadBuf ++ [byte] }, []) := by
  rw [ProcessIncomingByte, payload]
  simp only [length_append, length_cons, length_nil, zero_add]

/-- The bytes that complete a frame's payload, all but the last of which only fill the buffer. -/
theorem feed_payload (payload : s.parseState = .Payload) (data : List UInt8) (some : data ≠ [])
    (full : s.payloadBuf.length + data.length = s.currentHeader.Length.toNat) :
    feed ProcessIncomingByte s data =
      ({ s with payloadBuf := s.payloadBuf ++ data, parseState := .SyncByte0 },
        [⟨s.currentHeader.ChannelID, s.payloadBuf ++ data⟩]) := by
  induction data generalizing s with
  | nil => exact absurd rfl some
  | cons byte rest ih =>
    rw [length_cons] at full
    rw [feed_cons, step_Payload payload]
    cases rest with
    | nil =>
      rw [if_pos (by simpa using full)]
      rfl
    | cons next rest =>
      rw [length_cons] at full
      rw [if_neg (by omega)]
      have more := ih (s := { s with payloadBuf := s.payloadBuf ++ [byte] }) payload
        (by simp) (by simp only [length_append, length_cons, length_nil]; omega)
      simp only [more, append_assoc, singleton_append, nil_append]

theorem feed_magic (outside : s.Outside) :
    feed ProcessIncomingByte s [MAGIC_BYTE0, MAGIC_BYTE1] =
      ({ s with headerBytes := [], parseState := .Header }, []) := by
  rcases outside with sync | sync
  · rw [feed_cons, step_SyncByte0 sync, if_pos rfl, feed_cons,
      step_SyncByte1 (s := { s with parseState := .SyncByte1 }) rfl, if_pos rfl]
    rfl
  · rw [feed_cons, step_SyncByte1 sync, if_neg (by decide), if_pos rfl, feed_cons,
      step_SyncByte1 sync, if_pos rfl]
    rfl

theorem feed_header (header : s.parseState = .Header) (start : s.headerBytes = [])
    (b0 b1 b2 b3 : UInt8) :
    feed ProcessIncomingByte s [b0, b1, b2, b3] =
      { s with headerBytes := [b0, b1, b2, b3] }.headerComplete
        ⟨ShellMuxHeader.MAGIC, wordOf b0 b1, wordOf b2 b3⟩ := by
  simp only [feed_cons, feed_nil, ProcessIncomingByte, header, start, nil_append,
    cons_append, append_nil, Prod.mk.eta]

/-- The payload that the header announced, dispatched with its last byte or with the header. -/
theorem feed_announced {header : ShellMuxHeader} {data : List UInt8}
    (length : header.Length.toNat = data.length) (fits : data.length ≤ SHELL_MUX_MAX_PAYLOAD) :
    (feed ProcessIncomingByte (s.headerComplete header).1 data).1.parseState = .SyncByte0 ∧
      (s.headerComplete header).2 ++ (feed ProcessIncomingByte (s.headerComplete header).1 data).2 =
          [⟨header.ChannelID, data⟩] := by
  by_cases empty : data = []
  · subst empty
    have zero : header.Length = 0 := UInt16.toNat_inj.mp length
    rw [headerComplete, if_pos zero]
    exact ⟨rfl, rfl⟩
  · have positive := length_pos_of_ne_nil empty
    have nonzero : header.Length ≠ 0 := by
      intro zero
      rw [zero] at length
      change 0 = _ at length
      omega
    rw [headerComplete, if_neg nonzero, if_neg (by rw [length]; omega)]
    have taken := feed_payload
      (s := { s with currentHeader := header, payloadBuf := [], parseState := .Payload })
      rfl data empty (by simpa using length.symm)
    simp only [taken, nil_append, and_self]

/-- One frame, written in full, is dispatched and leaves the parser at the first magic byte. -/
theorem feed_send (outside : s.Outside) {send : MuxSend} (complete : send.Complete) :
    (feed ProcessIncomingByte s send.sent).1.parseState = .SyncByte0 ∧
      (feed ProcessIncomingByte s send.sent).2 = [send.frame] := by
  rw [complete.sent, send.headerBytes_eq, append_assoc, feed_append, feed_magic outside,
    feed_append, feed_header rfl rfl, wordOf_bytesOf, wordOf_bytesOf]
  exact feed_announced send.length_toNat send.fits

theorem feed_sends (outside : s.Outside) {sends : List MuxSend}
    (complete : ∀ send ∈ sends, send.Complete) :
    (feed ProcessIncomingByte s (sends.flatMap sent)).2 = sends.map frame ∧
      (sends ≠ [] ∨ s.parseState = .SyncByte0 →
        (feed ProcessIncomingByte s (sends.flatMap sent)).1.parseState = .SyncByte0) := by
  induction sends generalizing s with
  | nil => simp
  | cons send rest ih =>
    rcases feed_send outside (complete send mem_cons_self) with ⟨sync, taken⟩
    have others := ih (inl sync) fun other member => complete other (mem_cons_of_mem _ member)
    rw [flatMap_cons, feed_append]
    constructor
    · rw [taken, others.1]
      rfl
    · intro _
      exact others.2 (inr sync)

/-- The bytes of the frame in the making, its magic included. -/
def held (s : MuxParser) : Nat :=
  match s.parseState with
  | .SyncByte0 => 0
  | .SyncByte1 => 1
  | .Header => 2 + s.headerBytes.length
  | .Payload => 6 + s.payloadBuf.length

/-- A dispatched frame stands for its header and its payload. -/
def cost (frame : MuxFrame) : Nat := 6 + frame.data.length

theorem headerComplete_pays (header : ShellMuxHeader) :
    ((s.headerComplete header).2.map cost).sum + (s.headerComplete header).1.held ≤ 6 := by
  unfold headerComplete
  by_cases empty : header.Length = 0
  · rw [if_pos empty]
    exact Nat.le_refl 6
  · rw [if_neg empty]
    split
    · exact Nat.zero_le 6
    · exact Nat.le_refl 6

theorem step_pays (s : MuxParser) (byte : UInt8) :
    ((s.ProcessIncomingByte byte).2.map cost).sum + (s.ProcessIncomingByte byte).1.held ≤
      s.held + 1 := by
  match state : s.parseState with
  | .SyncByte0 =>
    rw [step_SyncByte0 state]
    split <;> simp [held, state]
  | .SyncByte1 =>
    rw [step_SyncByte1 state]
    split
    · simp [held, state]
    · split <;> simp [held, state]
  | .Header =>
    simp only [ProcessIncomingByte, state]
    split
    · rename_i bytes
      have full : s.headerBytes.length = 3 := by
        have length := congrArg List.length bytes
        simp at length
        omega
      have now : s.held = 5 := by simp only [held, state, full]
      rw [now]
      exact headerComplete_pays _
    · simp [held, state]
      omega
  | .Payload =>
    rw [step_Payload state]
    split
    · simp [held, cost, state]
      omega
    · simp [held, state]
      omega

theorem headerComplete_sound (header : ShellMuxHeader) : (s.headerComplete header).1.Sound := by
  unfold headerComplete
  by_cases empty : header.Length = 0
  · rw [if_pos empty]
    exact .of_outside (inl rfl)
  · rw [if_neg empty]
    split
    · exact .of_outside (inl rfl)
    · have positive : 0 < header.Length.toNat := by
        apply Nat.pos_of_ne_zero
        intro zero
        exact empty (UInt16.toNat_inj.mp zero)
      constructor
      · intro header
        cases header
      · intro _
        exact ⟨positive, Nat.le_of_not_lt ‹_›⟩

theorem Sound.step (sound : s.Sound) (byte : UInt8) : (s.ProcessIncomingByte byte).1.Sound := by
  match state : s.parseState with
  | .SyncByte0 =>
    rw [step_SyncByte0 state]
    split
    · exact .of_outside (inr rfl)
    · exact .of_outside (inl state)
  | .SyncByte1 =>
    rw [step_SyncByte1 state]
    split
    · constructor
      · intro _
        exact Nat.zero_lt_succ 3
      · intro payload
        cases payload
    · split
      · exact .of_outside (inr state)
      · exact .of_outside (inl rfl)
  | .Header =>
    rcases step_Header_cases state sound byte with ⟨short, step⟩ | ⟨b0, b1, b2, _, step⟩
    · rw [step]
      constructor
      · intro _
        simp only [length_append, length_cons, length_nil]
        omega
      · intro payload
        rw [state] at payload
        cases payload
    · rw [step]
      exact headerComplete_sound _
  | .Payload =>
    have short := sound.payload state
    rw [step_Payload state]
    split
    · exact .of_outside (inl rfl)
    · constructor
      · intro header
        rw [state] at header
        cases header
      · intro _
        simp only [length_append, length_cons, length_nil]
        omega

theorem Sound.takes (sound : s.Sound) (input : MuxInput) : (s.takes input).1.Sound := by
  cases input with
  | byte value => exact sound.step value
  | reopened => exact .of_outside (inl rfl)

/-- How many bytes can pass before the frame in the making is over. -/
def remaining (s : MuxParser) : Nat :=
  match s.parseState with
  | .SyncByte0 => 0
  | .SyncByte1 => SHELL_MUX_MAX_PAYLOAD + 5
  | .Header => SHELL_MUX_MAX_PAYLOAD + 4 - s.headerBytes.length
  | .Payload => s.currentHeader.Length.toNat - s.payloadBuf.length

theorem feed_noise (noise : List UInt8) (clean : ¬ [MAGIC_BYTE0, MAGIC_BYTE1] <:+: noise)
    (outside : s.parseState = .SyncByte0 ∨
      s.parseState = .SyncByte1 ∧ noise.head? ≠ some MAGIC_BYTE1) :
    (feed ProcessIncomingByte s noise).2 = [] ∧ (feed ProcessIncomingByte s noise).1.Outside := by
  induction noise generalizing s with
  | nil => exact ⟨rfl, outside.imp id And.left⟩
  | cons byte rest ih =>
    rcases not_pair_cons clean with ⟨restClean, head⟩
    rw [feed_cons]
    rcases outside with sync | ⟨sync, other⟩
    · rw [step_SyncByte0 sync]
      by_cases magic : byte = MAGIC_BYTE0
      · rw [if_pos magic]
        exact ih restClean (inr ⟨rfl, head magic⟩)
      · rw [if_neg magic]
        exact ih restClean (inl sync)
    · have ordinary : byte ≠ MAGIC_BYTE1 := by
        intro same
        exact other (by rw [same]; rfl)
      rw [step_SyncByte1 sync, if_neg ordinary]
      by_cases magic : byte = MAGIC_BYTE0
      · rw [if_pos magic]
        exact ih restClean (inr ⟨sync, head magic⟩)
      · rw [if_neg magic]
        exact ih restClean (inl rfl)

theorem Sound.outside_of_remaining (sound : s.Sound) (past : s.remaining ≤ 0) : s.Outside := by
  match state : s.parseState with
  | .SyncByte0 => exact inl state
  | .SyncByte1 => exact inr state
  | .Header =>
    have short := sound.header state
    simp only [remaining, state] at past
    omega
  | .Payload =>
    have short := sound.payload state
    simp only [remaining, state] at past
    omega

theorem Sound.remaining_le (sound : s.Sound) : s.remaining ≤ SHELL_MUX_MAX_PAYLOAD + 5 := by
  match state : s.parseState with
  | .SyncByte0 | .SyncByte1 | .Header =>
    simp only [remaining, state]
    omega
  | .Payload =>
    have short := sound.payload state
    simp only [remaining, state]
    omega

theorem headerComplete_remaining (header : ShellMuxHeader) :
    (s.headerComplete header).2 = [] ∧
        (s.headerComplete header).1.remaining ≤ SHELL_MUX_MAX_PAYLOAD ∨
      (s.headerComplete header).1.parseState = .SyncByte0 ∧
        (s.headerComplete header).2.length ≤ 1 := by
  unfold headerComplete
  by_cases empty : header.Length = 0
  · rw [if_pos empty]
    exact inr ⟨rfl, Nat.le_refl 1⟩
  · rw [if_neg empty]
    split
    · exact inr ⟨rfl, Nat.zero_le 1⟩
    · exact inl ⟨rfl, Nat.le_of_not_lt ‹_›⟩

theorem Sound.step_inside (sound : s.Sound) (byte : UInt8) (inside : ¬ (s.parseState = .SyncByte0 ∨
      s.parseState = .SyncByte1 ∧ some byte ≠ some MAGIC_BYTE1)) :
    (s.ProcessIncomingByte byte).2 = [] ∧
        (s.ProcessIncomingByte byte).1.remaining + 1 ≤ s.remaining ∨
      (s.ProcessIncomingByte byte).1.parseState = .SyncByte0 ∧
        (s.ProcessIncomingByte byte).2.length ≤ 1 := by
  match state : s.parseState with
  | .SyncByte0 => exact absurd (inl state) inside
  | .SyncByte1 =>
    have magic : byte = MAGIC_BYTE1 := by
      by_contra other
      exact inside (inr ⟨state, fun same => other (some.inj same)⟩)
    rw [step_SyncByte1 state, if_pos magic]
    apply inl
    constructor
    · rfl
    · simp only [remaining, state, length_nil]
      omega
  | .Header =>
    rcases step_Header_cases state sound byte with ⟨short, step⟩ | ⟨b0, b1, b2, bytes, step⟩
    · rw [step]
      apply inl
      constructor
      · rfl
      · simp only [remaining, state, length_append, length_cons, length_nil]
        omega
    · rw [step]
      have now : s.remaining = SHELL_MUX_MAX_PAYLOAD + 1 := by
        simp only [remaining, state, bytes, length_cons, length_nil]
        omega
      rw [now]
      rcases headerComplete_remaining (s := { s with headerBytes := [b0, b1, b2, byte] })
        ⟨ShellMuxHeader.MAGIC, wordOf b0 b1, wordOf b2 byte⟩ with ⟨silent, left⟩ | ended
      · exact inl ⟨silent, Nat.add_le_add_right left 1⟩
      · exact inr ended
  | .Payload =>
    have short := (sound.payload state).1
    rw [step_Payload state]
    split
    · exact inr ⟨rfl, Nat.le_refl 1⟩
    · apply inl
      constructor
      · rfl
      · simp only [remaining, state, length_append, length_cons, length_nil]
        omega

theorem Sound.feed_noise (sound : s.Sound) (noise : List UInt8)
    (clean : ¬ [MAGIC_BYTE0, MAGIC_BYTE1] <:+: noise) :
    (feed ProcessIncomingByte s noise).2.length ≤ 1 ∧
      (s.remaining ≤ noise.length → (feed ProcessIncomingByte s noise).1.Outside) := by
  induction noise generalizing s with
  | nil =>
    constructor
    · exact Nat.zero_le 1
    · exact sound.outside_of_remaining
  | cons byte rest ih =>
    by_cases passed : s.parseState = .SyncByte0 ∨
        s.parseState = .SyncByte1 ∧ some byte ≠ some MAGIC_BYTE1
    · have quiet := MuxParser.feed_noise (byte :: rest) clean passed
      rw [quiet.1]
      exact ⟨Nat.zero_le 1, fun _ => quiet.2⟩
    · have restClean := (not_pair_cons clean).1
      rw [feed_cons]
      rcases sound.step_inside byte passed with ⟨silent, nearer⟩ | ⟨sync, one⟩
      · have others := ih (sound.step byte) restClean
        rw [silent]
        constructor
        · exact others.1
        · intro enough
          rw [length_cons] at enough
          exact others.2 (by omega)
      · have quiet := MuxParser.feed_noise rest restClean (inl sync)
        constructor
        · rw [length_append, quiet.1]
          exact one
        · exact fun _ => quiet.2

end MuxParser

namespace WriteOutcome

theorem kwrite_length (outcome : WriteOutcome) (data : List UInt8) :
    (outcome.kwrite data).length ≤ data.length := by
  cases outcome with
  | written count => exact length_take_le' count data
  | failed error => exact Nat.zero_le _

theorem kwrite_full {outcome : WriteOutcome} {data : List UInt8}
    (full : data.length ≤ (outcome.kwrite data).length) : outcome.kwrite data = data := by
  cases outcome with
  | written count => exact take_eq_self_iff data |>.mpr (by
      simp only [kwrite, length_take] at full
      omega)
  | failed error => exact (length_eq_zero_iff.mp (Nat.le_zero.mp full)).symm

end WriteOutcome

namespace MuxSend

theorem sent_length (send : MuxSend) : send.sent.length ≤ MuxParser.cost send.frame := by
  have header := send.header.kwrite_length send.headerBytes
  have payload := send.payload.kwrite_length send.data
  have six : send.headerBytes.length = 6 := rfl
  rw [sent_eq, length_append]
  unfold MuxParser.cost frame
  split <;> simp only [length_nil] <;> omega

theorem complete_of_length {send : MuxSend}
    (full : MuxParser.cost send.frame ≤ send.sent.length) : send.Complete := by
  have header := send.header.kwrite_length send.headerBytes
  have payload := send.payload.kwrite_length send.data
  have six : send.headerBytes.length = 6 := rfl
  rw [sent_eq, length_append] at full
  unfold MuxParser.cost frame at full
  constructor
  · apply WriteOutcome.kwrite_full
    split at full <;> simp only [length_nil] at full <;> omega
  · intro empty
    rw [if_pos (length_pos_of_ne_nil empty)] at full
    apply WriteOutcome.kwrite_full
    simp only at full
    omega

/-- As many bytes as the frames are worth can only come from writes that were all complete. -/
theorem complete_of_sum {sends : List MuxSend}
    (full : ((sends.map frame).map MuxParser.cost).sum ≤ (sends.flatMap sent).length) :
    ∀ send ∈ sends, send.Complete := by
  induction sends with
  | nil =>
    intro send member
    cases member
  | cons send rest ih =>
    have one := send.sent_length
    have others : (rest.flatMap sent).length ≤ ((rest.map frame).map MuxParser.cost).sum := by
      clear ih full
      induction rest with
      | nil => exact Nat.le_refl 0
      | cons other rest ih =>
        have more := other.sent_length
        simp only [flatMap_cons, length_append, map_cons, sum_cons]
        omega
    simp only [flatMap_cons, length_append, map_cons, sum_cons] at full
    intro other member
    cases member with
    | head => exact complete_of_length (by omega)
    | tail _ member => exact ih (by omega) other member

end MuxSend

open MuxParser in
/-- The frames come out as they went in exactly when every write was complete; and noise without
the magic, from whatever state, brings at most one frame of its own and hides none that follow. -/
theorem mux_frames_round_trip (sends : List MuxSend) :
    ((∀ chunks, chunks.flatten = sends.flatMap sent →
        (feedChunks ProcessIncomingByte initial chunks).2 = sends.map frame ∧
          (feedChunks ProcessIncomingByte initial chunks).1.parseState = .SyncByte0) ↔
      ∀ send ∈ sends, send.Complete) ∧
    ∀ (inputs : List MuxInput) (noise : List UInt8),
      ¬ [MAGIC_BYTE0, MAGIC_BYTE1] <:+: noise → (∀ send ∈ sends, send.Complete) →
      let s := feed ProcessIncomingByte (feed takes initial inputs).1 noise
      let t := feed ProcessIncomingByte s.1 (sends.flatMap sent)
      s.2.length ≤ 1 ∧ (SHELL_MUX_MAX_PAYLOAD + 5 ≤ noise.length → s.1.Outside) ∧
        (s.1.Outside → t.2 = sends.map frame ∧ (sends ≠ [] → t.1.parseState = .SyncByte0)) := by
  constructor
  · constructor
    · intro dispatched
      have whole := dispatched [sends.flatMap sent] flatten_singleton
      rw [feedChunks_eq, flatten_singleton] at whole
      have pays := feed_cost step_pays (s := initial) (sends.flatMap sent)
      rw [whole.1] at pays
      apply complete_of_sum
      change _ ≤ 0 + _ at pays
      omega
    · intro complete chunks same
      have sent := feed_sends (s := initial) (inl rfl) complete
      rw [feedChunks_eq, same]
      exact ⟨sent.1, sent.2 (inr rfl)⟩
  · intro inputs noise clean complete s t
    have sound : ((feed takes initial inputs).1).Sound :=
      feed_invariant (P := Sound) (fun _ input sound => sound.takes input)
        (Sound.of_outside (inl rfl)) inputs
    have quiet := sound.feed_noise noise clean
    refine ⟨quiet.1, ?_, ?_⟩
    · intro enough
      exact quiet.2 (Nat.le_trans sound.remaining_le enough)
    · intro outside
      have sent := feed_sends outside complete
      exact ⟨sent.1, fun some => sent.2 (inl some)⟩

theorem mux_frames_round_trip_after_noise :
    (feed MuxParser.ProcessIncomingByte (feed MuxParser.ProcessIncomingByte .initial [1, 0x5A]).1
      (SendMuxFrame 1 [7] (.written 6) (.written 1))).2 = [⟨1, [7]⟩] := by
  have clean : ¬ [MAGIC_BYTE0, MAGIC_BYTE1] <:+: [1, 0x5A] := by decide
  let send : MuxSend := ⟨1, [7], by decide, .written 6, .written 1⟩
  have complete : ∀ other ∈ [send], other.Complete := by
    intro other member
    cases mem_singleton.mp member
    exact ⟨rfl, fun _ => rfl⟩
  exact (((mux_frames_round_trip [send]).2 [] [1, 0x5A] clean complete).2.2 (inr rfl)).1

/-- A header of which five bytes were written takes a byte of the next frame for its own. -/
theorem mux_frame_lost_to_short_write :
    ∃ sends : List MuxSend, ∃ chunks, chunks.flatten = sends.flatMap sent ∧
      (feedChunks MuxParser.ProcessIncomingByte .initial chunks).2 ≠ sends.map frame := by
  refine ⟨[⟨1, [], by decide, .written 5, .written 0⟩, ⟨2, [7], by decide, .written 6, .written 1⟩],
    [_], flatten_singleton, ?_⟩
  decide

end PadOS.Kernel
