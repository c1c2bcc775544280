import PadOS.SerialConsole.PacketNoise
import PadOS.SerialConsole.PacketTurn

/-!
# Framing of packets behind noise

The bytes held and the bytes still to be read are noise that the search passes over, and then whole
packets, after every turn of the loop; so `ReadPacket` returns these packets, however the reads cut
the stream.
-/

namespace PadOS.SerialConsole

open List Option

/-- A packet that the peer may send. -/
structure Packet where
  bytes : List UInt8
  magic : bytes.take 2 = [MAGIC1, MAGIC2]
  header : headerSize ≤ bytes.length
  length : packageLengthOf bytes = bytes.length
  fits : bytes.length ≤ MAX_MESSAGE_SIZE
  checksum : crc32 (clearChecksum bytes) = checksumOf bytes

namespace Packet

/-- What `ReadPacket` leaves in the buffer, which is the packet with its `Checksum` cleared. -/
def received (packet : Packet) : List UInt8 := clearChecksum packet.bytes

def stream (packets : List Packet) : List UInt8 := packets.flatMap bytes

theorem stream_cons (packet : Packet) (rest : List Packet) :
    stream (packet :: rest) = packet.bytes ++ stream rest := rfl

theorem bytes_eq (packet : Packet) : ∃ behind, packet.bytes = MAGIC1 :: MAGIC2 :: behind := by
  have magic := packet.magic
  rcases bytes : packet.bytes with _ | ⟨first, _ | ⟨second, behind⟩⟩
  · rw [bytes] at magic
    cases magic
  · rw [bytes] at magic
    simp at magic
  · rw [bytes] at magic
    simp only [take_succ_cons, take_zero, cons.injEq, and_true] at magic
    exact ⟨behind, by rw [magic.1, magic.2]⟩

theorem stream_eq {packets : List Packet} {first : UInt8} {behind : List UInt8}
    (starts : first :: behind = stream packets) :
    first = MAGIC1 ∧ (∃ rest, behind = MAGIC2 :: rest) ∧
      ∃ packet others, packets = packet :: others := by
  cases packets with
  | nil => cases starts
  | cons packet others =>
    rcases packet.bytes_eq with ⟨rest, bytes⟩
    rw [stream_cons, bytes] at starts
    simp only [cons_append, cons.injEq] at starts
    exact ⟨starts.1, ⟨_, starts.2⟩, packet, others, rfl⟩

end Packet

open Packet

variable {held ahead noise : List UInt8} {packets rest : List Packet} {packet : Packet}

section

variable (passable : Passable (packets ≠ []) noise)

include passable

/-- Among 16 bytes held, some packet's or the noise's first magic byte is found. -/
theorem mem_of_ahead (parts : held ++ ahead = noise ++ stream packets)
    (long : held.length = headerSize) : MAGIC1 ∈ held := by
  rcases append_eq_append_iff.mp parts with ⟨more, noiseParts, _⟩ | ⟨begun, heldParts, streamParts⟩
  · rw [noiseParts] at passable
    exact passable.mem_of_long long
  · cases begun with
    | nil =>
      rw [append_nil] at heldParts
      subst heldParts
      rw [← append_nil held] at passable
      exact passable.mem_of_long long
    | cons first begun =>
      have magic := (stream_eq streamParts.symm).1
      rw [heldParts, magic]
      simp

theorem searched_ahead (parts : held ++ ahead = noise ++ stream packets) :
    ∃ left, Passable (packets ≠ []) left ∧ PacketReader.searched held ++ ahead = left ++ stream packets := by
  induction held generalizing noise with
  | nil => exact ⟨noise, passable, parts⟩
  | cons byte held ih =>
    rw [PacketReader.searched, dropWhile_cons]
    by_cases magic : byte = MAGIC1
    · rw [if_neg (by simp [magic])]
      exact ⟨noise, passable, parts⟩
    · rw [if_pos (by simp [magic])]
      cases noise with
      | nil => exact absurd (stream_eq parts).1 magic
      | cons first noise =>
        simp only [cons_append, cons.injEq] at parts
        rw [← parts.1] at passable
        exact ih (passable.tail magic) parts.2

theorem pair_ahead {byte : UInt8}
    (parts : MAGIC1 :: byte :: held ++ ahead = noise ++ stream packets) (other : byte ≠ MAGIC2) :
    ∃ left, Passable (packets ≠ []) left ∧ held ++ ahead = left ++ stream packets := by
  cases noise with
  | nil =>
    rcases (stream_eq parts).2.1 with ⟨rest, same⟩
    exact absurd (cons.inj same).1 other
  | cons first noise =>
    simp only [cons_append, cons.injEq] at parts
    rw [← parts.1] at passable
    rcases passable.pair with ⟨last, rfl⟩ | ⟨second, behind, rfl, _, passable⟩
    · rw [not_not.mp last] at parts
      cases parts.2
    · simp only [cons_append, cons.injEq] at parts
      exact ⟨behind, passable, parts.2.2⟩

theorem magic_ahead
    (parts : held ++ ahead = noise ++ stream packets) (magic : held.take 2 = [MAGIC1, MAGIC2]) :
    ∃ packet rest, packets = packet :: rest ∧ held ++ ahead = packet.bytes ++ stream rest := by
  rcases held with _ | ⟨first, _ | ⟨second, held⟩⟩
  · cases magic
  · simp at magic
  · simp only [take_succ_cons, take_zero, cons.injEq, and_true] at magic
    cases noise with
    | nil =>
      rcases (stream_eq parts).2.2 with ⟨packet, rest, rfl⟩
      exact ⟨packet, rest, rfl, parts⟩
    | cons noisy noise =>
      simp only [cons_append, cons.injEq] at parts
      rw [← parts.1, magic.1] at passable
      rcases passable.pair with ⟨last, rfl⟩ | ⟨byte, behind, rfl, other, _⟩
      · rw [not_not.mp last] at parts
        cases parts.2
      · simp only [cons_append, cons.injEq] at parts
        exact absurd (parts.2.1.symm.trans magic.2) other

end

namespace PacketReader

variable {s t : PacketReader} {port after : Port}

theorem packageLength_packet (parts : s.held ++ ahead = packet.bytes ++ stream rest)
    (long : headerSize ≤ s.held.length) : s.packageLength = packet.bytes.length := by
  have front := congrArg (List.take headerSize) parts
  rw [take_append_of_le_length long, take_append_of_le_length packet.header] at front
  rw [packageLength, ← packageLengthOf_take s.held le_rfl, front,
    packageLengthOf_take _ le_rfl, packet.length]

theorem checkPacket_packet (buffer : s.inMessageBuffer = packet.bytes) :
    s.checkPacket port = (.returns true, { s with inMessageBuffer := packet.received }, port) := by
  have same : (clearChecksum packet.bytes).take (packageLengthOf (clearChecksum packet.bytes)) =
      clearChecksum packet.bytes := by
    rw [packageLengthOf_clearChecksum packet.header, packet.length]
    exact take_of_length_le (Nat.le_of_eq (clearChecksum_length packet.header))
  simp only [checkPacket, buffer, same, packet.checksum, ne_eq, not_true_eq_false, if_false]
  rfl

/-- What the reader and the port hold together, at every turn of the loop. -/
inductive Ready (s : PacketReader) (packets : List Packet) (ahead : List UInt8) : Prop
  | searching (noise : List UInt8) (scanning : s.Scanning) (passable : Passable (packets ≠ []) noise)
      (parts : s.held ++ ahead = noise ++ stream packets)
  | filling (packet : Packet) (rest : List Packet) (filling : s.Filling)
      (next : packets = packet :: rest) (parts : s.held ++ ahead = packet.bytes ++ stream rest)

theorem Ready.initial (packets : List Packet) :
    Ready PacketReader.initial packets (stream packets) :=
  .searching [] (Or.inl ⟨rfl, rfl⟩) .nil rfl

/-- What a turn may do: go on, find nothing to read, or return the packet that comes next. -/
inductive Turned (s : PacketReader) (packets : List Packet) (port : Port)
    (result : Option (Turn × PacketReader × Port)) : Prop
  | continues (t : PacketReader) (after : Port) (turned : result = some (.continues, t, after))
      (ready : t.Ready packets after.flatten) (fewer : after.length ≤ port.length)
  | nothing (t : PacketReader) (after : Port) (turned : result = some (.returns false, t, after))
      (ready : t.Ready packets after.flatten) (fewer : after.length ≤ port.length)
      (less : after.length < port.length ∨ port = [])
  | packet (packet : Packet) (rest : List Packet) (t : PacketReader) (after : Port)
      (turned : result = some (.returns true, t, after)) (next : packets = packet :: rest)
      (received : t.inMessageBuffer = packet.received) (ahead : after.flatten = stream rest)
      (fewer : after.length ≤ port.length)

theorem Turned.after_read {result : Option (Turn × PacketReader × Port)}
    (turned : Turned s packets after result) (fewer : after.length ≤ port.length)
    (read : port ≠ []) : Turned t packets port result := by
  cases turned with
  | continues u rest turned ready less =>
    exact .continues u rest turned ready (Nat.le_trans less fewer)
  | nothing u rest turned ready less _ =>
    have some := length_pos_of_ne_nil read
    refine .nothing u rest turned ready (Nat.le_trans less fewer) (Or.inl ?_)
    rename_i cut
    rcases cut with cut | none
    · omega
    · rw [none] at less
      exact Nat.lt_of_le_of_lt less some
  | packet packet others u rest turned next received ahead less =>
    exact .packet packet others u rest turned next received ahead (Nat.le_trans less fewer)

theorem Turned.readBody
    (header : s.packageBytesRead = headerSize ∧ s.inMessageBuffer.length = headerSize ∨ s.Filling)
    (long : headerSize ≤ s.held.length)
    (parts : s.held ++ port.flatten = packet.bytes ++ stream rest) :
    Turned s (packet :: rest) port (s.readBody port) := by
  have fits := packet.fits
  have length := packageLength_packet parts long
  rcases readBody_cases port header with
    ⟨tooLong, _⟩ | ⟨t, after, same, sameLength, read, fewer, ⟨filling, body⟩ | ⟨buffer, size, body⟩⟩
  · omega
  · rw [← same] at parts
    have ready : t.Ready (packet :: rest) after.flatten := .filling packet rest filling rfl parts
    rcases body with body | ⟨body, nothing⟩
    · exact .continues t after body ready fewer
    · exact .nothing t after body ready fewer nothing
  · rw [← same] at parts
    have whole : t.held = packet.bytes ∧ after.flatten = stream rest := by
      apply append_inj parts
      have big := packet.header
      omega
    rw [body, checkPacket_packet (buffer.trans whole.1)]
    exact .packet packet rest _ after rfl rfl rfl whole.2 fewer

theorem Ready.turn (ready : s.Ready packets port.flatten) :
    Turned s packets port (s.turn port) := by
  cases ready with
  | filling packet rest filling next parts =>
    subst next
    have body : s.turn port = s.readBody port := if_neg (by
      have header := filling.header
      omega)
    have fits : s.packageBytesRead ≤ s.inMessageBuffer.length := by
      have partly := filling.partly
      have size := filling.size
      omega
    rw [body]
    exact .readBody (Or.inr filling) (by rw [held_length fits]; exact filling.header) parts
  | searching noise scanning passable parts =>
    rcases turn_scanning port scanning with ⟨u, held, size, read, turned⟩
    have room := port.read_length_le (headerSize - s.packageBytesRead)
    have flatten := port.read_flatten (headerSize - s.packageBytesRead)
    have fewer := port.read_cuts (headerSize - s.packageBytesRead)
    have heldLength : s.held.length = s.packageBytesRead := by
      apply held_length
      rcases scanning with ⟨_, zero⟩ | ⟨full, short⟩ <;> omega
    have short : s.packageBytesRead < headerSize := by
      rcases scanning with ⟨_, zero⟩ | ⟨_, short⟩
      · rw [zero]
        decide
      · exact short
    have grown := congrArg List.length held
    rw [length_append] at grown
    rw [← flatten, ← append_assoc, ← held] at parts
    rw [turned]
    by_cases nothing : u.packageBytesRead = s.packageBytesRead
    · have empty : (port.read (headerSize - s.packageBytesRead)).1.length = 0 := by omega
      have none := port.read_nothing empty (by omega)
      exact .nothing u _ (if_pos nothing)
        (.searching noise (Or.inr ⟨size, by omega⟩) passable parts) fewer none
    · simp only [if_neg nothing]
      have inside : u.packageBytesRead < headerSize ∨ MAGIC1 ∈ u.held := by
        by_cases full : u.held.length = headerSize
        · exact Or.inr (mem_of_ahead passable parts full)
        · apply Or.inl
          omega
      rcases searched_ahead passable parts with ⟨left, passable, parts⟩
      rcases resync_held ((port.read (headerSize - s.packageBytesRead)).2) size (by omega)
        inside with ⟨t, sizeAfter, readAfter, ⟨byte, behind, found, other, rest, resync⟩ |
          ⟨found, partly, _, resync⟩ | ⟨found, magic, whole, resync⟩⟩
      · rw [found] at parts
        rcases pair_ahead passable parts other with ⟨left, passable, parts⟩
        rw [← rest] at parts
        have fewerHeld : t.packageBytesRead < headerSize := by
          have drops := congrArg List.length found
          have shorter : (searched u.held).length ≤ u.held.length :=
            (dropWhile_suffix _).length_le
          simp only [length_cons] at drops
          rw [readAfter, rest]
          omega
        exact .continues t _ resync (.searching left (Or.inr ⟨sizeAfter, fewerHeld⟩) passable parts)
          fewer
      · rw [found] at parts
        exact .continues t _ resync
          (.searching left (Or.inr ⟨sizeAfter, by omega⟩) passable parts) fewer
      · rw [found] at parts
        rcases magic_ahead passable parts magic with ⟨packet, rest, rfl, next⟩
        have read : port ≠ [] := by
          intro empty
          apply nothing
          rw [empty] at grown
          change _ = _ + 0 at grown
          omega
        have body := Turned.readBody (Or.inl ⟨readAfter.trans whole, sizeAfter⟩)
          (Nat.le_of_eq whole.symm) next
        rw [resync]
        exact body.after_read fewer read

theorem ReadPacket_eq (s : PacketReader) (port : Port) :
    s.ReadPacket port = match s.turn port with
      | none => none
      | some (.returns packet, t, after) => some (packet, t, after)
      | some (.continues, t, after) => t.ReadPacket after := by
  rw [ReadPacket]
  split <;> simp_all

theorem Ready.nil (ready : s.Ready packets []) : packets = [] := by
  cases ready with
  | searching noise scanning passable parts =>
    cases packets with
    | nil => rfl
    | cons packet rest =>
      have lengths := congrArg List.length parts
      have header := packet.header
      have short : s.held.length < headerSize := by
        have bound := length_take_le s.packageBytesRead s.inMessageBuffer
        rcases scanning with ⟨_, zero⟩ | ⟨_, short⟩
        · exact Nat.lt_of_le_of_lt (bound.trans zero.le) (by decide)
        · exact Nat.lt_of_le_of_lt bound short
      rw [stream_cons] at lengths
      simp only [length_append, length_nil] at lengths
      omega
  | filling packet rest filling next parts =>
    have lengths := congrArg List.length parts
    have bound := length_take_le s.packageBytesRead s.inMessageBuffer
    have long : headerSize ≤ s.held.length := by
      have header := filling.header
      have partly := filling.partly
      have size := filling.size
      rw [held_length (by omega)]
      exact header
    have whole := packageLength_packet parts long
    have partly := filling.partly
    simp only [length_append, length_nil] at lengths
    rw [← held] at bound
    omega

/-- A call of `ReadPacket` finds nothing to read, or returns the packet that comes next. -/
theorem Ready.ReadPacket (ready : s.Ready packets port.flatten) :
    ∃ t after, after.length ≤ port.length ∧
      (s.ReadPacket port = some (false, t, after) ∧ t.Ready packets after.flatten ∧
          (after.length < port.length ∨ after = []) ∨
        ∃ packet rest, s.ReadPacket port = some (true, t, after) ∧ packets = packet :: rest ∧
          t.inMessageBuffer = packet.received ∧ after.flatten = stream rest) := by
  induction work : s.work port using Nat.strong_induction_on generalizing s port with
  | _ n ih =>
    rw [ReadPacket_eq]
    cases ready.turn with
    | continues t after turned ready fewer =>
      rcases ih _ (work ▸ turn_work turned) ready rfl with ⟨u, rest, less, outcome⟩
      refine ⟨u, rest, Nat.le_trans less fewer, ?_⟩
      rw [turned]
      rcases outcome with ⟨nothing, ready, cut⟩ | outcome
      · apply Or.inl
        refine ⟨nothing, ready, ?_⟩
        rcases cut with cut | empty
        · exact Or.inl (Nat.lt_of_lt_of_le cut fewer)
        · exact Or.inr empty
      · exact Or.inr outcome
    | nothing t after turned ready fewer less =>
      refine ⟨t, after, fewer, Or.inl ?_⟩
      rw [turned]
      refine ⟨rfl, ready, ?_⟩
      rcases less with less | empty
      · exact Or.inl less
      · rw [empty] at fewer
        exact Or.inr (length_eq_zero_iff.mp (Nat.le_zero.mp fewer))
    | packet packet rest t after turned next received ahead fewer =>
      refine ⟨t, after, fewer, Or.inr ⟨packet, rest, ?_, next, received, ahead⟩⟩
      rw [turned]

/-- Enough calls return every packet, in order, and never an index outside the buffer. -/
theorem Ready.HandleIOCalls {calls : Nat} (ready : s.Ready packets port.flatten)
    (enough : packets.length + port.length ≤ calls) :
    ((HandleIOCalls calls s port).map Prod.fst) = some (packets.map Packet.received) := by
  induction calls generalizing s packets port with
  | zero =>
    have none : packets = [] := length_eq_zero_iff.mp (by omega)
    rw [none]
    rfl
  | succ calls ih =>
    rcases ready.ReadPacket with ⟨t, after, fewer, ⟨read, ready, less⟩ | ⟨packet, rest, read, rfl, received, ahead⟩⟩
    · have fits : packets.length + after.length ≤ calls := by
        rcases less with less | empty
        · omega
        · subst empty
          rw [ready.nil]
          exact Nat.zero_le calls
      rw [PacketReader.HandleIOCalls, read]
      exact ih ready fits
    · rw [length_cons] at enough
      have others := ih (by rw [ahead]; exact Ready.initial rest) (by omega : _ ≤ calls)
      rcases map_eq_some_iff.mp others with ⟨⟨list, u, last⟩, handles, same⟩
      rw [PacketReader.HandleIOCalls, read]
      simp only at same
      simp [handles, same, received]

end PacketReader

end PadOS.SerialConsole
