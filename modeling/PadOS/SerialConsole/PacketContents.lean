import PadOS.SerialConsole.PacketFraming

/-!
# What a returned packet consists of

The search only drops bytes and a read only adds behind them, so a packet is made of bytes that
came, in their order.
-/

namespace PadOS.SerialConsole

open List

namespace PacketReader

variable {s t : PacketReader} {port after : Port} {bytes : List UInt8} {turn : Turn}

/-- The buffer that is returned for the bytes of a packet. -/
structure Verified (received packet : List UInt8) : Prop where
  cleared : packet = clearChecksum received
  size : received.length = max headerSize (packageLengthOf received)
  checksum : crc32 (packet.take (packageLengthOf packet)) = checksumOf received

theorem Verified.packageLength {received packet : List UInt8} (verified : Verified received packet) :
    packageLengthOf packet = packageLengthOf received := by
  have size := verified.size
  rw [verified.cleared, packageLengthOf_clearChecksum (by omega)]

theorem Verified.packet_length {received packet : List UInt8}
    (verified : Verified received packet) : packet.length = received.length := by
  have size := verified.size
  rw [verified.cleared, clearChecksum_length (by omega)]

/-- Of the bytes held and still in the port: a packet, or what goes on being held. -/
inductive Outcome (turn : Turn) (t : PacketReader) (after : Port) (bytes : List UInt8) : Prop
  | packet (returned : turn = .returns true) (received : List UInt8)
      (verified : Verified received t.inMessageBuffer)
      (read : t.packageBytesRead = received.length)
      (from_port : (received ++ after.flatten).Sublist bytes)
  | goes (other : turn ≠ .returns true) (sized : t.Scanning ∨ t.Filling)
      (from_port : (t.held ++ after.flatten).Sublist bytes)

theorem Outcome.mono {more : List UInt8} (outcome : Outcome turn t after bytes)
    (part : bytes.Sublist more) : Outcome turn t after more := by
  cases outcome with
  | packet returned received verified read from_port =>
    exact .packet returned received verified read (from_port.trans part)
  | goes other sized from_port => exact .goes other sized (from_port.trans part)

theorem held_of_sized (sized : s.Scanning ∨ s.Filling) : s.held.length = s.packageBytesRead := by
  apply held_length
  rcases sized with (⟨_, zero⟩ | ⟨full, short⟩) | filling
  · omega
  · omega
  · have partly := filling.partly
    have size := filling.size
    omega

theorem checkPacket_outcome (s : PacketReader) (port : Port) (buffer : s.inMessageBuffer = s.held)
    (size : s.held.length = max headerSize s.packageLength)
    (read : s.packageBytesRead = s.held.length) :
    Outcome (s.checkPacket port).1 (s.checkPacket port).2.1 (s.checkPacket port).2.2
      (s.held ++ port.flatten) := by
  unfold checkPacket
  simp only
  split
  · exact .goes nofun (Or.inl (Or.inl ⟨rfl, rfl⟩)) (sublist_append_right _ _)
  · next same =>
    refine .packet rfl s.held ⟨by rw [buffer], size, ?_⟩ read (Sublist.refl _)
    rw [not_not] at same
    rw [same, buffer]

theorem readBody_outcome
    (header : s.packageBytesRead = headerSize ∧ s.inMessageBuffer.length = headerSize ∨ s.Filling)
    (body : s.readBody port = some (turn, t, after)) :
    Outcome turn t after (s.held ++ port.flatten) := by
  rcases readBody_cases port header with
    ⟨_, result⟩ | ⟨u, rest, same, _, read, _, ⟨filling, result⟩ | ⟨buffer, size, result⟩⟩
  · rw [result] at body
    cases body
    exact .goes (by decide) (Or.inl (Or.inl ⟨rfl, rfl⟩)) (sublist_append_right _ _)
  · rw [← same]
    rcases result with result | ⟨result, _⟩
    · rw [result] at body
      cases body
      exact .goes (by decide) (Or.inr filling) (Sublist.refl _)
    · rw [result] at body
      cases body
      exact .goes (by decide) (Or.inr filling) (Sublist.refl _)
  · have checked := checkPacket_outcome u rest buffer size read
    rw [result] at body
    rw [Option.some.inj body, same] at checked
    exact checked

theorem turn_outcome (sized : s.Scanning ∨ s.Filling)
    (turned : s.turn port = some (turn, t, after)) :
    Outcome turn t after (s.held ++ port.flatten) := by
  rcases sized with scanning | filling
  · rcases turn_scanning port scanning with ⟨u, held, size, read, result⟩
    have room := port.read_length_le (headerSize - s.packageBytesRead)
    have flatten := port.read_flatten (headerSize - s.packageBytesRead)
    have heldLength := held_of_sized (s := s) (Or.inl scanning)
    have grown := congrArg List.length held
    have short : s.packageBytesRead < headerSize := by
      rcases scanning with ⟨_, zero⟩ | ⟨_, short⟩
      · rw [zero]
        decide
      · exact short
    rw [length_append] at grown
    rw [result] at turned
    rw [← flatten, ← append_assoc, ← held]
    by_cases nothing : u.packageBytesRead = s.packageBytesRead
    · rw [if_pos nothing] at turned
      cases turned
      exact .goes (by decide) (Or.inl (Or.inr ⟨size, by omega⟩)) (Sublist.refl _)
    · simp only [if_neg nothing] at turned
      have inside : u.packageBytesRead < headerSize ∨ MAGIC1 ∈ u.held := by
        by_contra outside
        rw [not_or] at outside
        have none := findMagic1_outside (s := u) (by omega) (by omega) outside.2
        rw [resync, none] at turned
        cases turned
      have found : (searched u.held).Sublist u.held := (dropWhile_suffix _).sublist
      have shorter := found.length_le
      rcases resync_held ((port.read (headerSize - s.packageBytesRead)).2) size (by omega)
        inside with ⟨v, sizeAfter, readAfter, ⟨byte, behind, pair, _, rest, resync⟩ |
          ⟨same, partly, _, resync⟩ | ⟨same, _, whole, resync⟩⟩
      · rw [resync] at turned
        cases turned
        rw [pair] at found shorter
        rw [← rest] at found shorter
        simp only [length_cons] at shorter
        have kept : t.held.Sublist u.held :=
          ((sublist_cons_self _ _).trans (sublist_cons_self _ _)).trans found
        exact .goes (by decide) (Or.inl (Or.inr ⟨sizeAfter, by omega⟩))
          (kept.append (Sublist.refl _))
      · rw [resync] at turned
        cases turned
        rw [same] at found
        exact .goes (by decide) (Or.inl (Or.inr ⟨sizeAfter, by omega⟩))
          (found.append (Sublist.refl _))
      · rw [resync] at turned
        rw [same] at found
        exact (readBody_outcome (Or.inl ⟨readAfter.trans whole, sizeAfter⟩) turned).mono
          (found.append (Sublist.refl _))
  · have body : s.turn port = s.readBody port := if_neg (by
      have header := filling.header
      omega)
    rw [body] at turned
    exact readBody_outcome (Or.inr filling) turned

/-- A call of `ReadPacket` comes to what its last turn comes to. -/
theorem ReadPacket_outcome {packet : Bool} (sized : s.Scanning ∨ s.Filling)
    (reads : s.ReadPacket port = some (packet, t, after)) :
    Outcome (.returns packet) t after (s.held ++ port.flatten) := by
  induction work : s.work port using Nat.strong_induction_on generalizing s port with
  | _ n ih =>
    rw [ReadPacket_eq] at reads
    match turned : s.turn port with
    | none =>
      rw [turned] at reads
      cases reads
    | some (.returns result, u, rest) =>
      rw [turned] at reads
      cases reads
      exact turn_outcome sized turned
    | some (.continues, u, rest) =>
      rw [turned] at reads
      cases turn_outcome sized turned with
      | packet returned => cases returned
      | goes other kept from_port =>
        exact (ih _ (work ▸ turn_work turned) kept reads rfl).mono from_port

end PacketReader

end PadOS.SerialConsole
