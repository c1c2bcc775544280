import PadOS.SerialConsole.PacketContents

/-!
# When packets behind noise are recovered

Byte by byte the search drops what `searches` says, so a packet behind an odd run of first magic
bytes loses its own first byte, and 16 bytes without one are dropped past the end of the buffer.
-/

namespace PadOS.SerialConsole

open Packet List Option

namespace PacketReader

variable {s t : PacketReader} {port after : Port}

/-- What a turn keeps of the bytes it was given: those in a returned buffer, or those held. -/
def kept (turn : Turn) (t : PacketReader) : Nat :=
  if turn = .returns true then t.inMessageBuffer.length else t.packageBytesRead

theorem ReadPacket_kept {packet : Bool} (sized : s.Scanning ∨ s.Filling)
    (reads : s.ReadPacket port = some (packet, t, after)) :
    (packet = false → t.Scanning ∨ t.Filling) ∧ kept (.returns packet) t + after.flatten.length ≤
        s.packageBytesRead + port.flatten.length := by
  rw [← held_of_sized sized, ← length_append]
  cases ReadPacket_outcome sized reads with
  | packet returned received verified read from_port =>
    cases returned
    have bound := from_port.length_le
    rw [length_append, ← verified.packet_length] at bound
    exact ⟨nofun, bound⟩
  | goes other sizedAfter from_port =>
    have bound := from_port.length_le
    rw [length_append, held_of_sized sizedAfter] at bound
    rw [kept, if_neg other]
    exact ⟨fun _ => sizedAfter, bound⟩

theorem HandleIOCalls_kept {calls : Nat} {packets : List (List UInt8)}
    (sized : s.Scanning ∨ s.Filling)
    (handles : (HandleIOCalls calls s port).map Prod.fst = some packets) :
    (packets.map List.length).sum ≤ s.packageBytesRead + port.flatten.length := by
  induction calls generalizing s port packets with
  | zero =>
    cases handles
    exact Nat.zero_le _
  | succ calls ih =>
    match reads : s.ReadPacket port with
    | none =>
      rw [HandleIOCalls, reads] at handles
      cases handles
    | some (false, t, after) =>
      have kept := ReadPacket_kept sized reads
      have bound := kept.2
      rw [PacketReader.kept, if_neg (by decide)] at bound
      rw [HandleIOCalls, reads] at handles
      exact Nat.le_trans (ih (kept.1 rfl) handles) bound
    | some (true, t, after) =>
      have bound := (ReadPacket_kept sized reads).2
      rw [PacketReader.kept, if_pos rfl] at bound
      rw [HandleIOCalls, reads] at handles
      rcases map_eq_some_iff.mp handles with ⟨⟨list, u, last⟩, handles, same⟩
      simp only [bind_eq_bind, bind_some, if_true] at handles
      rcases bind_eq_some_iff.mp handles with ⟨⟨others, v, left⟩, more, handles⟩
      cases handles
      have others' : (HandleIOCalls calls initial after).map Prod.fst = some others := by
        rw [more]
        rfl
      have rest := ih (Or.inl (Or.inl ⟨rfl, rfl⟩)) others'
      rw [← same]
      simp only [map_cons, sum_cons]
      change _ ≤ 0 + _ at rest
      omega

/-- The search at rest between two bytes: nothing held, or a first magic byte. -/
structure AtByte (s : PacketReader) (first : Bool) : Prop where
  scanning : s.Scanning
  held : s.held = if first then [] else [MAGIC1]

theorem AtByte.turn {first : Bool} (rest : s.AtByte first) (port : Port) (byte : UInt8)
    (other : first = false → byte ≠ MAGIC2) :
    ∃ t : PacketReader, t.AtByte (searches first byte) ∧
      s.turn ([byte] :: port) = some (.continues, t, port) := by
  rcases turn_scanning ([byte] :: port) rest.scanning with ⟨u, held, size, read, turned⟩
  have heldLength : s.held.length = s.packageBytesRead ∧ s.held.length ≤ 1 := by
    constructor
    · apply held_length
      rcases rest.scanning with ⟨_, zero⟩ | ⟨full, short⟩ <;> omega
    · rw [rest.held]
      cases first <;> decide
  have one : Port.read ([byte] :: port) (headerSize - s.packageBytesRead) = ([byte], port) := by
    have room : 1 ≤ headerSize - s.packageBytesRead := by
      unfold headerSize
      omega
    simp only [Port.read, length_singleton, if_pos room]
    rw [take_of_length_le room]
  have grown := congrArg List.length held
  rw [one, length_append, length_singleton] at grown
  rw [one] at held turned
  have small : u.packageBytesRead < headerSize := by
    unfold headerSize
    omega
  simp only [if_neg (show ¬ u.packageBytesRead = s.packageBytesRead by omega)] at turned
  rcases resync_held port size (by omega) (Or.inl small) with
    ⟨t, sizeAfter, readAfter, outcome⟩
  have parked : ∀ {bytes : List UInt8}, t.held = bytes → bytes.length < headerSize →
      t.Scanning := by
    intro bytes same short
    rw [← same] at short
    exact Or.inr ⟨sizeAfter, by omega⟩
  have kept : (searched u.held).length ≤ u.held.length := (dropWhile_suffix _).length_le
  rw [rest.held] at held
  rcases outcome with ⟨second, behind, found, _, left, resync⟩ | ⟨found, short, kind, resync⟩ |
    ⟨found, _, whole, _⟩
  · refine ⟨t, ?_, turned.trans resync⟩
    cases first with
    | true =>
      have lengths := congrArg List.length found
      simp only [held, if_true, nil_append, length_cons, length_nil] at lengths kept
      omega
    | false =>
      rw [held] at found
      cases found
      exact ⟨parked left (by decide), left⟩
  · refine ⟨t, ⟨parked rfl short, ?_⟩, turned.trans resync⟩
    cases first with
    | true =>
      rw [← found, held]
      by_cases magic : byte = MAGIC1
      · subst magic
        rfl
      · simp [searched, searches, magic]
    | false =>
      rw [held] at found
      change [MAGIC1, byte] = t.held at found
      rw [← found] at kind
      rcases kind with short | magic
      · exact absurd short (by simp)
      · simp only [take_succ_cons, take_zero, cons.injEq, and_true, true_and] at magic
        exact absurd magic (other rfl)
  · rw [found, whole] at kept
    omega

theorem AtByte.ReadPacket {first : Bool} (rest : s.AtByte first) (port : Port) (bytes : List UInt8)
    (clean : ¬ [MAGIC1, MAGIC2] <:+: bytes) (other : first = false → bytes.head? ≠ some MAGIC2) :
    ∃ t : PacketReader, t.AtByte (bytes.foldl searches first) ∧
      s.ReadPacket (bytes.map (fun byte => [byte]) ++ port) = t.ReadPacket port := by
  induction bytes generalizing s first with
  | nil => exact ⟨s, rest, rfl⟩
  | cons byte bytes ih =>
    have apart := ByteStream.not_pair_cons clean
    rcases rest.turn (bytes.map (fun byte => [byte]) ++ port) byte
      (fun held magic => other held (by rw [magic]; rfl)) with ⟨t, next, turned⟩
    have onward : searches first byte = false → bytes.head? ≠ some MAGIC2 := by
      intro held
      apply apart.2
      simp only [searches, Bool.or_eq_false_iff, bne_eq_false_iff_eq] at held
      exact held.2
    rcases ih next apart.1 onward with ⟨u, last, same⟩
    refine ⟨u, last, ?_⟩
    rw [map_cons, cons_append, ReadPacket_eq, turned]
    exact same

theorem AtByte.read {first : Bool} (rest : s.AtByte first) :
    s.packageBytesRead = s.held.length := by
  apply (held_length _).symm
  rcases rest.scanning with ⟨_, zero⟩ | ⟨full, short⟩ <;> omega

theorem AtByte.turn_outside (rest : s.AtByte true) {run : List UInt8}
    (long : run.length = headerSize) (absent : MAGIC1 ∉ run) : s.turn (run :: port) = none := by
  have empty : s.held = [] := rest.held
  have zero : s.packageBytesRead = 0 := by
    rw [rest.read, empty]
    rfl
  rcases turn_scanning (run :: port) rest.scanning with ⟨u, held, size, read, turned⟩
  have all : Port.read (run :: port) (headerSize - s.packageBytesRead) = (run, port) := by
    rw [zero, Nat.sub_zero]
    simp only [Port.read, if_pos long.le]
    rw [take_of_length_le long.le]
  rw [all] at held turned
  rw [empty, nil_append] at held
  have full : u.packageBytesRead = headerSize := by rw [read, held, long]
  have outside := findMagic1_outside (s := u) (full.trans size.symm) (by rw [full]; decide)
    (by rw [held]; exact absent)
  have filled : ¬ u.packageBytesRead = s.packageBytesRead := by
    rw [full, zero]
    decide
  rw [turned]
  simp only [if_neg filled, resync, outside]
  rfl

theorem HandleIOCalls_congr {calls : Nat} {first second : Port}
    (same : s.ReadPacket first = t.ReadPacket second) :
    HandleIOCalls (calls + 1) s first = HandleIOCalls (calls + 1) t second := by
  rw [HandleIOCalls, HandleIOCalls, same]

theorem AtByte.initial : PacketReader.initial.AtByte true := ⟨Or.inl ⟨rfl, rfl⟩, rfl⟩

end PacketReader

open PacketReader

theorem received_lengths (packets : List Packet) :
    ((packets.map received).map List.length).sum = (stream packets).length := by
  induction packets with
  | nil => rfl
  | cons packet rest ih =>
    rw [stream_cons, length_append, ← ih, map_cons, map_cons, sum_cons,
      received, clearChecksum_length packet.header]

/-- Whatever reads bring the stream, the calls return the packets, and no index is outside. -/
def Recovers (noise : List UInt8) (packets : List Packet) : Prop :=
  ∀ chunks : Port, chunks.flatten = noise ++ stream packets →
    ∃ enough, ∀ calls, enough ≤ calls →
      (HandleIOCalls calls PacketReader.initial chunks).map Prod.fst = some (packets.map received)

theorem recovers_of_passable {noise : List UInt8} {packets : List Packet}
    (passable : Passable (packets ≠ []) noise) : Recovers noise packets := by
  intro chunks parts
  refine ⟨packets.length + chunks.length, fun calls enough => ?_⟩
  exact Ready.HandleIOCalls (.searching noise (Or.inl ⟨rfl, rfl⟩) passable parts) enough

/-- The first byte of a packet behind an odd run of first magic bytes is dropped with the last of
the run. -/
theorem not_recovers_of_odd {noise : List UInt8} {packets : List Packet}
    (clean : ¬ [MAGIC1, MAGIC2] <:+: noise) (some : packets ≠ []) (odd : ¬ Aligned noise) :
    ¬ Recovers noise packets := by
  intro recovers
  cases packets with
  | nil => exact some rfl
  | cons packet others =>
    rcases packet.bytes_eq with ⟨behind, bytes⟩
    have held : noise.foldl searches true = false := by
      rw [aligned_iff] at odd
      exact Bool.eq_false_iff.mpr odd
    rcases AtByte.initial.ReadPacket [[MAGIC1], MAGIC2 :: behind ++ stream others] noise clean
      (fun same => by cases same) with ⟨t, atNoise, first⟩
    rw [held] at atNoise
    rcases atNoise.ReadPacket [MAGIC2 :: behind ++ stream others] [MAGIC1] (by decide)
      (fun _ => by decide) with ⟨u, atPacket, second⟩
    rcases recovers (noise.map (fun byte => [byte]) ++ [[MAGIC1], MAGIC2 :: behind ++ stream others])
      (by rw [stream_cons, bytes, flatten_append, ← flatMap_def, flatMap_singleton']; simp) with
      ⟨enough, returns⟩
    have all := returns (enough + 1) (Nat.le_succ _)
    rw [HandleIOCalls_congr (first.trans second)] at all
    have bound := HandleIOCalls_kept (Or.inl atPacket.scanning) all
    have zero : u.packageBytesRead = 0 := by
      rw [atPacket.read, atPacket.held]
      rfl
    rw [received_lengths, stream_cons, bytes, zero, flatten_singleton] at bound
    simp only [cons_append, length_cons] at bound
    omega

theorem not_recovers_of_long {noise : List UInt8} {packets : List Packet}
    (clean : ¬ [MAGIC1, MAGIC2] <:+: noise) (long : ¬ ShortRuns noise) :
    ¬ Recovers noise packets := by
  intro recovers
  apply long
  intro before run behind parts aligned full
  by_contra absent
  have start : before.foldl searches true = true := (aligned_iff before).mp aligned
  have quiet : ¬ [MAGIC1, MAGIC2] <:+: before := by
    intro inside
    apply clean
    rw [parts, append_assoc]
    exact inside.trans (prefix_append before _).isInfix
  rcases AtByte.initial.ReadPacket [run, behind ++ stream packets] before quiet
    (fun same => by cases same) with ⟨t, atRun, same⟩
  rw [start] at atRun
  have none : t.ReadPacket [run, behind ++ stream packets] = none := by
    rw [ReadPacket_eq, atRun.turn_outside full absent]
  rcases recovers (before.map (fun byte => [byte]) ++ [run, behind ++ stream packets])
    (by rw [parts, flatten_append, ← flatMap_def, flatMap_singleton']; simp) with ⟨enough, returns⟩
  have all := returns (enough + 1) (Nat.le_succ _)
  rw [HandleIOCalls, same, none] at all
  cases all

/-- Behind noise without the magic, packets are recovered exactly when the noise ends in an even
number of first magic bytes and nowhere runs on without one for 16 bytes. -/
theorem packets_recovered (noise : List UInt8) (packets : List Packet)
    (clean : ¬ [MAGIC1, MAGIC2] <:+: noise) :
    Recovers noise packets ↔ (packets ≠ [] → Aligned noise) ∧ ShortRuns noise := by
  constructor
  · intro recovers
    constructor
    · intro some
      by_contra odd
      exact not_recovers_of_odd clean some odd recovers
    · by_contra long
      exact not_recovers_of_long clean long recovers
  · intro ⟨aligned, short⟩
    exact recovers_of_passable ⟨clean, aligned, short⟩

/-- A packet without a body. -/
def probe : Packet where
  bytes := [0x42, 0x13, 0, 0, 0xB4, 0x3B, 0x7D, 0xD4, 16, 0, 0, 0, 1, 0, 0, 0]
  magic := rfl
  header := by decide
  length := by decide
  fits := by decide
  checksum := by decide +kernel

theorem packets_recovered_after_pair : Recovers [0x42, 0x42] [probe] := by
  have short : ShortRuns [0x42, 0x42] := by
    intro before run behind parts _ long
    have lengths := congrArg List.length parts
    simp [headerSize] at lengths long
    omega
  exact (packets_recovered [0x42, 0x42] [probe] (by decide)).mpr ⟨fun _ => by decide, short⟩

/-- A stray first byte of the magic in front of a packet takes the packet with it. -/
theorem packet_lost_to_stray_byte : ¬ Recovers [0x42] [probe] :=
  not_recovers_of_odd (by decide) (cons_ne_nil _ _) (by decide)

end PadOS.SerialConsole
