import PadOS.Core.Transition
import PadOS.SerialConsole.PacketContents

/-!
# Passing packets to their handlers

`HandleIO` queues what `ReadPacket` returns, and `Run` passes it to the handler registered for the
command, which casts it to the type of its packets. What bounds the packet is its `PackageLength`;
nothing compares that with the `sizeof` of the type.
-/

namespace PadOS.SerialConsole

open Transition List Option Function

/-- `PacketHeader::Command` -/
def commandOf (bytes : List UInt8) : UInt32 := wordAt bytes 12

namespace Commands

def MessageReply : UInt32 := 10

def ProbeDevice : UInt32 := 20

end Commands

/-- What a `PacketHandler` casts to; each such type derives from `PacketHeader`. -/
structure PacketType where
  sizeof : Nat
  derived : headerSize ≤ sizeof

def ProbeDevice : PacketType where
  sizeof := 20
  derived := by decide

structure HandledMessage where
  packet : List UInt8
  packetType : PacketType

/-- Both threads; `packetData` is the local variable of `Run`. What the port has brought so far and
what the handlers were given is kept beside. -/
structure SerialCommandHandler where
  reader : PacketReader
  port : Port
  messageQueue : List (List UInt8)
  packetData : List UInt8
  commandHandlerMap : UInt32 → Option PacketType
  largestCommandPacket : Nat
  brought : List UInt8
  handled : List HandledMessage

namespace SerialCommandHandler

def initial : SerialCommandHandler where
  reader := .initial
  port := []
  messageQueue := []
  packetData := []
  commandHandlerMap := fun _ => none
  largestCommandPacket := 0
  brought := []
  handled := []

variable (s : SerialCommandHandler)

def RegisterPacketHandler (commandID : UInt32)
    (packetType : PacketType) : SerialCommandHandler :=
  { s with
    commandHandlerMap := update s.commandHandlerMap commandID (some packetType)
    largestCommandPacket := max s.largestCommandPacket packetType.sizeof }

def queueMessage (queue : List (List UInt8)) (packet : List UInt8) : List (List UInt8) :=
  (if 1000 ≤ queue.length then queue.drop 1 else queue) ++ [packet]

/-- A turn of the loop in `HandleIO` in which nothing is thrown. -/
def HandleIO : Option SerialCommandHandler := do
  let (packet, reader, port) ← s.reader.ReadPacket s.port
  let s := { s with reader, port }
  if ¬ packet then some s
  else if reader.packageBytesRead = 0 then some s
  else if commandOf reader.inMessageBuffer = Commands.MessageReply then
    some { s with reader := .initial }
  else
    some { s with
      reader := .initial
      messageQueue := queueMessage s.messageQueue reader.inMessageBuffer }

def DispatchPacket (packetBuffer : List UInt8) : SerialCommandHandler :=
  match s.commandHandlerMap (commandOf packetBuffer) with
  | none => s
  | some packetType => { s with handled := s.handled ++ [⟨packetBuffer, packetType⟩] }

inductive Event
  | RegisterPacketHandler (commandID : UInt32) (packetType : PacketType)
  /-- More comes to be read. -/
  | arrives (chunks : Port)
  | handles
  /-- `read_trw` throws, which closes the port. -/
  | readFails
  /-- The port is closed after a failed write; what it held is gone. -/
  | closeSerialPort
  /-- `Run` takes the front of the queue. -/
  | takeMessage
  /-- `Run` goes on with what it took. -/
  | handleMessage

def step : Event → Option SerialCommandHandler
  | .RegisterPacketHandler commandID packetType =>
    some (s.RegisterPacketHandler commandID packetType)
  | .arrives chunks =>
    some { s with port := s.port ++ chunks, brought := s.brought ++ chunks.flatten }
  | .handles => HandleIO s
  | .readFails => some { s with reader := .initial, port := [] }
  | .closeSerialPort => some { s with port := [] }
  | .takeMessage =>
    match s.packetData, s.messageQueue with
    | [], packet :: rest => some { s with packetData := packet, messageQueue := rest }
    | _, _ => none
  | .handleMessage =>
    if s.packetData = [] then none
    else some { s.DispatchPacket s.packetData with packetData := [] }

def system : System SerialCommandHandler Event where
  step := step

end SerialCommandHandler

namespace HandledMessage

/-- The handler may read its whole type, and the bytes of the package passed the checksum. -/
structure Complete (brought : List UInt8) (message : HandledMessage) : Prop where
  whole : message.packetType.sizeof ≤ message.packet.length
  package : packageLengthOf message.packet ≤ message.packet.length
  verified : ∃ received : List UInt8, received.Sublist brought ∧
    message.packet = clearChecksum received ∧
    crc32 (message.packet.take (packageLengthOf message.packet)) = checksumOf received

/-- The packet announces what its handler reads beyond the header. -/
def Announced (message : HandledMessage) : Prop :=
  message.packetType.sizeof ≤ max headerSize (packageLengthOf message.packet)

end HandledMessage

namespace SerialCommandHandler

variable {s t : SerialCommandHandler} {op : Event} {brought more packet : List UInt8}

/-- The packet was read from the port and verified. -/
def FromPort (brought packet : List UInt8) : Prop :=
  ∃ received : List UInt8, PacketReader.Verified received packet ∧ received.Sublist brought

theorem FromPort.mono (read : FromPort brought packet) (part : brought.Sublist more) :
    FromPort more packet := by
  obtain ⟨received, verified, from_port⟩ := read
  exact ⟨received, verified, from_port.trans part⟩

theorem FromPort.packet_length (read : FromPort brought packet) :
    packet.length = max headerSize (packageLengthOf packet) := by
  obtain ⟨received, verified, _⟩ := read
  rw [verified.packet_length, verified.packageLength, verified.size]

theorem FromPort.complete_iff (packetType : PacketType) (read : FromPort brought packet) :
    HandledMessage.Complete brought ⟨packet, packetType⟩ ↔
      HandledMessage.Announced ⟨packet, packetType⟩ := by
  have size := read.packet_length
  constructor
  · intro complete
    exact Nat.le_trans complete.whole size.le
  · intro announced
    obtain ⟨received, verified, from_port⟩ := read
    exact ⟨Nat.le_trans announced (Nat.le_of_eq size.symm), by simp only; omega,
      received, from_port, verified.cleared, verified.checksum⟩

/-- Wherever a packet is, it came from the port. -/
structure Sound (s : SerialCommandHandler) : Prop where
  reading : s.reader.Scanning ∨ s.reader.Filling
  held : (s.reader.held ++ s.port.flatten).Sublist s.brought
  queued : ∀ packet ∈ s.messageQueue, FromPort s.brought packet
  taken : s.packetData ≠ [] → FromPort s.brought s.packetData
  handled : ∀ message ∈ s.handled, FromPort s.brought message.packet
  registered : ∀ commandID packetType, s.commandHandlerMap commandID = some packetType →
    packetType.sizeof ≤ s.largestCommandPacket

theorem initial_sound : initial.Sound where
  reading := Or.inl (Or.inl ⟨rfl, rfl⟩)
  held := Sublist.refl _
  queued := nofun
  taken := fun some => absurd rfl some
  handled := nofun
  registered := nofun

theorem mem_queueMessage {queue : List (List UInt8)} {other : List UInt8}
    (member : packet ∈ queueMessage queue other) : packet ∈ queue ∨ packet = other := by
  rw [queueMessage, mem_append, mem_singleton] at member
  refine member.imp_left fun before => ?_
  split at before
  · exact mem_of_mem_drop before
  · exact before

theorem HandleIO_sound (sound : s.Sound) (handles : HandleIO s = some t) : t.Sound := by
  obtain ⟨⟨packet, reader, port⟩, reads, handles⟩ := bind_eq_some_iff.mp handles
  cases PacketReader.ReadPacket_outcome sound.reading reads with
  | goes other sized from_port =>
    have nothing : packet = false := by
      cases packet
      · rfl
      · exact absurd rfl other
    subst nothing
    cases handles
    exact { sound with reading := sized, held := from_port.trans sound.held }
  | packet returned received verified read from_port =>
    cases returned
    have filled : ¬ reader.packageBytesRead = 0 := by
      have size := verified.size
      unfold headerSize at size
      omega
    have rest : port.flatten.Sublist s.brought :=
      (sublist_append_right _ _).trans (from_port.trans sound.held)
    have arrived : FromPort s.brought reader.inMessageBuffer :=
      ⟨received, verified, (sublist_append_left _ _).trans (from_port.trans sound.held)⟩
    simp only [not_true_eq_false, if_false, if_neg filled] at handles
    split at handles
    · cases handles
      exact { sound with reading := Or.inl (Or.inl ⟨rfl, rfl⟩), held := rest }
    · cases handles
      refine { sound with
        reading := Or.inl (Or.inl ⟨rfl, rfl⟩), held := rest, queued := ?_ }
      intro other member
      rcases mem_queueMessage member with before | same
      · exact sound.queued other before
      · rw [same]
        exact arrived

theorem step_sound (sound : s.Sound) (applies : s.step op = some t) : t.Sound := by
  cases op with
  | RegisterPacketHandler commandID packetType =>
    cases applies
    refine { sound with registered := ?_ }
    intro other found registered
    by_cases same : other = commandID
    · subst same
      simp only [RegisterPacketHandler, update_self, some.injEq] at registered
      rw [← registered]
      exact Nat.le_max_right _ _
    · simp only [RegisterPacketHandler, update_of_ne same] at registered
      exact Nat.le_trans (sound.registered other found registered) (Nat.le_max_left _ _)
  | arrives chunks =>
    cases applies
    have part : s.brought.Sublist (s.brought ++ chunks.flatten) := sublist_append_left _ _
    exact {
      reading := sound.reading
      held := by
        simp only [flatten_append, ← append_assoc]
        exact sound.held.append (Sublist.refl _)
      queued := fun packet member => (sound.queued packet member).mono part
      taken := fun some => (sound.taken some).mono part
      handled := fun message member => (sound.handled message member).mono part
      registered := sound.registered }
  | handles => exact HandleIO_sound sound applies
  | readFails =>
    cases applies
    exact { sound with reading := Or.inl (Or.inl ⟨rfl, rfl⟩), held := nil_sublist _ }
  | closeSerialPort =>
    cases applies
    refine { sound with held := ?_ }
    have kept := (sublist_append_left _ _).trans sound.held
    simpa using kept
  | takeMessage =>
    simp only [step] at applies
    split at applies
    · next packet rest none queue =>
      cases applies
      have queued := sound.queued
      rw [queue] at queued
      exact { sound with
        queued := fun other member => queued other (mem_cons_of_mem _ member)
        taken := fun _ => queued packet mem_cons_self }
    · cases applies
  | handleMessage =>
    simp only [step] at applies
    split at applies
    · cases applies
    · next some =>
      cases applies
      unfold DispatchPacket
      split
      · exact { sound with taken := fun some => absurd rfl some }
      · next packetType found =>
        refine { sound with taken := fun some => absurd rfl some, handled := ?_ }
        intro message member
        rcases mem_append.mp member with before | last
        · exact sound.handled message before
        · rw [mem_singleton.mp last]
          exact sound.taken some

theorem reaches_sound (run : system.Reaches anyStep initial s) : s.Sound :=
  run.invariant Sound initial_sound fun sound _ applies => step_sound sound applies

/-- The messages handled in a run are complete exactly when all of them announce what their
handlers read. -/
theorem handled_complete (run : system.Reaches anyStep initial s) :
    (∀ message ∈ s.handled, message.Complete s.brought) ↔
      ∀ message ∈ s.handled, message.Announced := by
  have sound := reaches_sound run
  constructor
  · intro complete message member
    exact ((sound.handled message member).complete_iff message.packetType).mp
      (complete message member)
  · intro announced message member
    exact ((sound.handled message member).complete_iff message.packetType).mpr
      (announced message member)

/-- The header of a `ProbeDevice` packet and nothing behind it. -/
def bareProbe : List UInt8 :=
  [0x42, 0x13, 1, 0, 0x6F, 0x7D, 0xB5, 0x2E, 16, 0, 0, 0, 20, 0, 0, 0]

theorem ReadPacket_bareProbe :
    PacketReader.initial.ReadPacket [bareProbe] =
      some (true, ⟨clearChecksum bareProbe, headerSize⟩, []) := by
  have turned : PacketReader.initial.turn [bareProbe] =
      some (.returns true, ⟨clearChecksum bareProbe, headerSize⟩, []) := by decide +kernel
  rw [PacketReader.ReadPacket_eq, turned]

/-- The handler of `ProbeDevice` is registered, and a packet for it comes. -/
def probed : SerialCommandHandler :=
  let s := initial.RegisterPacketHandler Commands.ProbeDevice ProbeDevice
  { s with port := [bareProbe], brought := bareProbe }

def probeHandled : SerialCommandHandler :=
  { probed with port := [], handled := [⟨clearChecksum bareProbe, ProbeDevice⟩] }

theorem probe_handled : system.Reaches anyStep initial probeHandled := by
  have queued : HandleIO probed =
      some { probed with port := [], messageQueue := [clearChecksum bareProbe] } := by
    unfold HandleIO
    rw [show probed.reader.ReadPacket probed.port = _ from ReadPacket_bareProbe]
    rfl
  have registered : probed.commandHandlerMap (commandOf (clearChecksum bareProbe)) =
      some ProbeDevice := by
    simp [probed, RegisterPacketHandler, commandOf, clearChecksum, bareProbe, wordAt,
      Commands.ProbeDevice]
  have ready : system.Reaches anyStep initial probed :=
    (System.Reaches.refl.next (.RegisterPacketHandler Commands.ProbeDevice ProbeDevice)
      trivial rfl).next (.arrives [bareProbe]) trivial rfl
  refine ((ready.next .handles trivial queued).next .takeMessage trivial rfl).next
    .handleMessage trivial ?_
  change (if clearChecksum bareProbe = [] then none else some _) = _
  rw [if_neg (by decide), DispatchPacket, registered]
  rfl

theorem handled_complete_probe :
    (∀ message ∈ probeHandled.handled, message.Complete probeHandled.brought) ↔
      ∀ message ∈ probeHandled.handled, message.Announced :=
  handled_complete probe_handled

/-- The handler of `ProbeDevice` reads a `DeviceType` behind the last byte of the packet. -/
theorem header_handled_as_probe :
    ¬ ∀ s, system.Reaches anyStep initial s →
      ∀ message ∈ s.handled, message.Complete s.brought := by
  intro complete
  have whole := (complete _ probe_handled _ mem_cons_self).whole
  exact absurd whole (by decide)

end SerialCommandHandler

end PadOS.SerialConsole
