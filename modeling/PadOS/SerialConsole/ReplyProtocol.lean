import PadOS.Core.Transition
import Mathlib.Logic.Function.Basic

/-! # Acknowledged sends

`SendSerialData` transmits a packet up to three times and waits half a second for a reply
each time. A reply carries nothing that tells which transmission it answers, and any reply
sets the one flag that a waiting sender looks at. Here each transmission has an identity
that only the state keeps, so that it can be said which of them a reply was meant for.
-/

namespace PadOS.SerialConsole

open Transition List Option
open Function (update_self update_of_ne update)

def FLAG_NO_REPLY : Nat := 1

def FLAG_REPLY_MESSAGE : Nat := 2

/-- A packet with the flags of its header, as they are once it is marked as a reply. -/
structure OutgoingPacket (π : Type) where
  flags : Nat
  content : π
  deriving DecidableEq, Repr

def OutgoingPacket.needsReply {π : Type} (packet : OutgoingPacket π) : Bool :=
  packet.flags &&& (FLAG_NO_REPLY ||| FLAG_REPLY_MESSAGE) = 0

structure Transmission (π : Type) where
  id : Nat
  packet : OutgoingPacket π
  deriving DecidableEq, Repr

/-- What a send has returned, for its last transmission, and which one the reply answered. -/
structure SendResult (π : Type) where
  packet : OutgoingPacket π
  success : Bool
  transmission : Option Nat
  answered : Option Nat
  deriving DecidableEq, Repr

/-- Where a thread stands in `SendSerialData`; the mutex is given up while it waits. -/
inductive SendPlace (π : Type)
  | outside (result : Option (SendResult π))
  | sending (packet : OutgoingPacket π) (i : Nat)
  | writing (packet : OutgoingPacket π) (i : Nat)
  | waiting (packet : OutgoingPacket π) (i : Nat) (id : Nat)
  deriving DecidableEq, Repr

/-- The sender, the two directions of the link, and what the peer has received. -/
structure LinkState (τ π : Type) where
  replyReceived : Bool
  transmitMutex : Option τ
  place : τ → SendPlace π
  packets : List (Transmission π)
  replies : List (Transmission π)
  received : List (Transmission π)
  nextId : Nat
  answered : Option Nat

variable {τ π : Type} [DecidableEq τ]

namespace LinkState

def initial : LinkState τ π where
  replyReceived := false
  transmitMutex := none
  place := fun _ => .outside none
  packets := []
  replies := []
  received := []
  nextId := 0
  answered := none

section

variable (s : LinkState τ π)

def goto (thread : τ) (place : SendPlace π) : LinkState τ π :=
  { s with place := update s.place thread place }

/-- The return of a send, which ends the scope of the mutex. -/
def leave (thread : τ) (result : SendResult π) : LinkState τ π :=
  { s with transmitMutex := none }.goto thread (.outside (some result))

def SendSerialData (thread : τ) (packet : OutgoingPacket π) (isActive : Bool) :
    Option (LinkState τ π) :=
  match s.place thread with
  | .outside _ =>
    if isActive then
      match s.transmitMutex with
      | none => some ({ s with transmitMutex := some thread }.goto thread (.sending packet 0))
      | some _ => none
    else some (s.goto thread (.outside (some ⟨packet, false, none, none⟩)))
  | _ => none

/-- `m_ReplyReceived = false` -/
def clears (thread : τ) : Option (LinkState τ π) :=
  match s.place thread with
  | .sending packet i => some ({ s with replyReceived := false }.goto thread (.writing packet i))
  | _ => none

/-- The header and the data are written; what is written in part reaches nobody. -/
def writes (thread : τ) (complete : Bool) : Option (LinkState τ π) :=
  match s.place thread with
  | .writing packet i =>
    if complete then
      let sent : LinkState τ π :=
        { s with packets := s.packets ++ [⟨s.nextId, packet⟩], nextId := s.nextId + 1 }
      if packet.needsReply then
        some ({ sent with transmitMutex := none }.goto thread (.waiting packet i s.nextId))
      else some (sent.leave thread ⟨packet, true, some s.nextId, none⟩)
    else some (s.leave thread ⟨packet, false, none, none⟩)
  | _ => none

/-- The wait has ended, by a wakeup or by its timeout. -/
def checks (thread : τ) : Option (LinkState τ π) :=
  match s.place thread, s.transmitMutex with
  | .waiting packet i id, none =>
    if s.replyReceived then some (s.leave thread ⟨packet, true, some id, s.answered⟩)
    else if i + 1 < 3 then
      some ({ s with transmitMutex := some thread }.goto thread (.sending packet (i + 1)))
    else some (s.leave thread ⟨packet, false, some id, none⟩)
  | _, _ => none

/-- The peer receives a packet, and answers it where it has to. -/
def delivers (k : Nat) : Option (LinkState τ π) :=
  match s.packets[k]? with
  | none => none
  | some transmission =>
    some { s with
      packets := s.packets.eraseIdx k
      received := transmission :: s.received
      replies := if transmission.packet.needsReply then s.replies ++ [transmission] else s.replies }

/-- `AcknowledgeReceivedMessage`, for the reply that comes first. -/
def AcknowledgeReceivedMessage : Option (LinkState τ π) :=
  match s.replies with
  | [] => none
  | reply :: replies =>
    some { s with replies := replies, replyReceived := true, answered := some reply.id }

end

end LinkState

inductive LinkStep (τ π : Type)
  | SendSerialData (thread : τ) (packet : OutgoingPacket π) (isActive : Bool)
  | clears (thread : τ)
  | writes (thread : τ) (complete : Bool)
  | checks (thread : τ)
  | delivers (k : Nat)
  | AcknowledgeReceivedMessage
  | losesPacket (k : Nat)
  | losesReply (k : Nat)

def linkSystem (τ π : Type) [DecidableEq τ] : System (LinkState τ π) (LinkStep τ π) where
  step s
    | .SendSerialData thread packet isActive => s.SendSerialData thread packet isActive
    | .clears thread => s.clears thread
    | .writes thread complete => s.writes thread complete
    | .checks thread => s.checks thread
    | .delivers k => s.delivers k
    | .AcknowledgeReceivedMessage => s.AcknowledgeReceivedMessage
    | .losesPacket k => some { s with packets := s.packets.eraseIdx k }
    | .losesReply k => some { s with replies := s.replies.eraseIdx k }

/-- Nothing on the link can still bring a reply, and nobody waits for one. -/
structure LinkState.Quiet (s : LinkState τ π) : Prop where
  packets : ∀ transmission ∈ s.packets, transmission.packet.needsReply = false
  replies : s.replies = []
  nobody : ∀ thread packet i id, s.place thread ≠ .waiting packet i id

/-- A packet that needs a reply is transmitted only over a quiet link. -/
def transmitsWhenQuiet : Condition (LinkState τ π) (LinkStep τ π)
  | s, .clears thread => ∀ packet i, s.place thread = .sending packet i →
      packet.needsReply = true → s.Quiet
  | _, _ => True

namespace LinkState

variable {s t : LinkState τ π} {thread other : τ} {packet : OutgoingPacket π} {p : SendPlace π}
  {i id : Nat}

/-- What waits for a reply is answered by replies to its own last transmission only. -/
structure Awaits (s : LinkState τ π) (packet : OutgoingPacket π) (id : Nat) : Prop where
  packets : ∀ transmission ∈ s.packets, transmission.packet.needsReply = true →
    transmission = ⟨id, packet⟩
  replies : ∀ reply ∈ s.replies, reply = ⟨id, packet⟩
  answer : s.replyReceived = true → s.answered = some id ∧ ⟨id, packet⟩ ∈ s.received

def SendResult.Honest (result : SendResult π) (received : List (Transmission π)) : Prop :=
  result.success = true → result.packet.needsReply = true →
    ∃ id, result.transmission = some id ∧ result.answered = some id ∧ ⟨id, result.packet⟩ ∈ received

/-- What holds of a thread at its place. -/
def PlaceSound (s : LinkState τ π) (thread : τ) : SendPlace π → Prop
  | .outside result => ∀ r, result = some r → SendResult.Honest r s.received
  | .sending _ _ => s.transmitMutex = some thread
  | .writing packet _ => s.transmitMutex = some thread ∧
      (packet.needsReply = true → s.Quiet ∧ s.replyReceived = false)
  | .waiting packet _ id => packet.needsReply = true ∧ s.Awaits packet id

structure Sound (s : LinkState τ π) : Prop where
  known : ∀ reply ∈ s.replies, reply ∈ s.received
  places : ∀ thread, s.PlaceSound thread (s.place thread)

omit [DecidableEq τ] in
theorem Sound.initial : (initial : LinkState τ π).Sound := by
  constructor
  · intro reply member
    cases member
  · intro thread r same
    cases same

omit [DecidableEq τ] in
theorem SendResult.Honest.mono {result : SendResult π} {received more : List (Transmission π)}
    (honest : SendResult.Honest result received) (subset : received ⊆ more) :
    SendResult.Honest result more := by
  intro success needs
  rcases honest success needs with ⟨id, transmission, answered, member⟩
  exact ⟨id, transmission, answered, subset member⟩

omit [DecidableEq τ] in
theorem PlaceSound.lose (sound : s.PlaceSound thread p) {packets replies : List (Transmission π)}
    (packetsSub : packets ⊆ s.packets) (repliesSub : replies ⊆ s.replies) :
    PlaceSound { s with packets := packets, replies := replies } thread p := by
  cases p with
  | outside result => exact sound
  | sending packet i => exact sound
  | writing packet i =>
    refine ⟨sound.1, fun needs => ?_⟩
    rcases sound.2 needs with ⟨quiet, cleared⟩
    refine ⟨⟨fun transmission member => quiet.packets _ (packetsSub member), ?_, quiet.nobody⟩,
      cleared⟩
    rw [quiet.replies] at repliesSub
    exact subset_nil.mp repliesSub
  | waiting packet i id =>
    exact ⟨sound.1, fun transmission member => sound.2.packets _ (packetsSub member),
      fun reply member => sound.2.replies _ (repliesSub member), sound.2.answer⟩

section

variable (sound : s.Sound) (mine : s.transmitMutex = none ∨ s.transmitMutex = some thread)

include sound mine

omit [DecidableEq τ] in
theorem Sound.others
    (ne : other ≠ thread) :
    (∃ result, s.place other = .outside result) ∨
      ∃ packet i id, s.place other = .waiting packet i id := by
  have notHeld : s.transmitMutex ≠ some other := by
    rcases mine with free | own
    · rw [free]
      exact fun same => by cases same
    · rw [own]
      exact fun same => ne (some.inj same).symm
  have own := sound.places other
  cases place : s.place other with
  | outside result => exact .inl ⟨result, rfl⟩
  | waiting packet i id => exact .inr ⟨packet, i, id, rfl⟩
  | sending packet i =>
    rw [place] at own
    exact absurd own notHeld
  | writing packet i =>
    rw [place] at own
    exact absurd own.1 notHeld

theorem Sound.move
    (moved : t.place = update s.place thread p) (received : t.received = s.received)
    (replies : t.replies = s.replies)
    (waits : ∀ other packet i id, s.place other = .waiting packet i id → other ≠ thread →
      s.Awaits packet id → t.Awaits packet id) (own : t.PlaceSound thread p) : t.Sound := by
  constructor
  · rw [replies, received]
    exact sound.known
  · intro other
    rw [moved]
    by_cases same : other = thread
    · rw [same, update_self]
      exact own
    · rw [update_of_ne same]
      have before := sound.places other
      rcases sound.others mine same with ⟨result, place⟩ | ⟨packet, i, id, place⟩
      · rw [place] at before ⊢
        intro r is
        rw [received]
        exact before r is
      · rw [place] at before ⊢
        exact ⟨before.1, waits other packet i id place same before.2⟩

end

omit [DecidableEq τ] in
theorem Awaits.congr (awaits : s.Awaits packet id) (packets : t.packets = s.packets)
    (replies : t.replies = s.replies) (flag : t.replyReceived = s.replyReceived)
    (answered : t.answered = s.answered) (received : t.received = s.received) :
    t.Awaits packet id := by
  refine ⟨?_, ?_, ?_⟩
  · rw [packets]
    exact awaits.packets
  · rw [replies]
    exact awaits.replies
  · rw [flag, answered, received]
    exact awaits.answer

theorem Sound.send (sound : s.Sound) {isActive : Bool}
    (applies : s.SendSerialData thread packet isActive = some t) : t.Sound := by
  unfold LinkState.SendSerialData at applies
  cases place : s.place thread with
  | outside result =>
    simp only [place] at applies
    cases isActive with
    | false =>
      cases applies
      constructor
      · exact sound.known
      · intro other
        show PlaceSound _ other (update s.place thread _ other)
        by_cases same : other = thread
        · rw [same, update_self]
          intro r is success
          cases is
          cases success
        · rw [update_of_ne same]
          have before := sound.places other
          cases otherPlace : s.place other with
          | outside result | sending packet i =>
            rw [otherPlace] at before
            exact before
          | writing packet i =>
            rw [otherPlace] at before
            refine ⟨before.1, fun needs => ⟨⟨(before.2 needs).1.packets, (before.2 needs).1.replies,
              ?_⟩, (before.2 needs).2⟩⟩
            intro third packet i id waiting
            change update s.place thread _ third = _ at waiting
            by_cases isThread : third = thread
            · rw [isThread, update_self] at waiting
              cases waiting
            · rw [update_of_ne isThread] at waiting
              exact (before.2 needs).1.nobody third packet i id waiting
          | waiting packet i id =>
            rw [otherPlace] at before
            exact ⟨before.1, before.2.congr rfl rfl rfl rfl rfl⟩
    | true =>
      cases mutex : s.transmitMutex with
      | none =>
        simp only [mutex, if_true] at applies
        cases applies
        exact sound.move (.inl mutex) rfl rfl rfl
          (fun _ _ _ _ _ _ awaits => awaits.congr rfl rfl rfl rfl rfl) rfl
      | some holder => simp [mutex] at applies
  | sending packet i | writing packet i | waiting packet i id => simp [place] at applies

theorem Sound.clears (sound : s.Sound) (quiet : ∀ packet i, s.place thread = .sending packet i →
      packet.needsReply = true → s.Quiet) (applies : s.clears thread = some t) : t.Sound := by
  unfold LinkState.clears at applies
  cases place : s.place thread with
  | sending packet i =>
    simp only [place, some.injEq] at applies
    have mine : s.transmitMutex = some thread := by
      have own := sound.places thread
      rw [place] at own
      exact own
    rw [← applies]
    refine sound.move (.inr mine) rfl rfl rfl (fun _ _ _ _ _ _ awaits => ?_)
      ⟨mine, fun needs => ⟨⟨(quiet packet i place needs).packets,
        (quiet packet i place needs).replies, ?_⟩, rfl⟩⟩
    · exact ⟨awaits.packets, awaits.replies, fun flag => by cases flag⟩
    · intro other packet' i' id waiting
      change update s.place thread _ other = _ at waiting
      by_cases same : other = thread
      · rw [same, update_self] at waiting
        cases waiting
      · rw [update_of_ne same] at waiting
        exact (quiet packet i place needs).nobody other packet' i' id waiting
  | outside result | writing packet i | waiting packet i id => simp [place] at applies

theorem Sound.writes (sound : s.Sound) {complete : Bool}
    (applies : s.writes thread complete = some t) : t.Sound := by
  unfold LinkState.writes at applies
  cases place : s.place thread with
  | writing packet i =>
    simp only [place] at applies
    have own := sound.places thread
    rw [place] at own
    rcases own with ⟨mine, cleared⟩
    split at applies
    case isFalse =>
      cases applies
      exact sound.move (.inr mine) rfl rfl rfl
        (fun _ _ _ _ _ _ awaits => awaits.congr rfl rfl rfl rfl rfl)
        (fun r is success => by cases is; cases success)
    case isTrue =>
      split at applies
      case isTrue needs =>
        cases applies
        rcases cleared needs with ⟨quiet, flag⟩
        refine sound.move (.inr mine) rfl rfl rfl
          (fun other packet i id waiting => absurd waiting (quiet.nobody other packet i id))
          ⟨needs, ?_, ?_, ?_⟩
        · intro transmission member answers
          rcases mem_append.mp member with before | last
          · rw [quiet.packets transmission before] at answers
            cases answers
          · exact mem_singleton.mp last
        · intro reply member
          change reply ∈ s.replies at member
          rw [quiet.replies] at member
          cases member
        · intro set
          change s.replyReceived = true at set
          rw [flag] at set
          cases set
      case isFalse silent =>
        cases applies
        refine sound.move (.inr mine) rfl rfl rfl (fun _ _ _ _ _ _ awaits => ?_)
          (fun r is _ needs => by cases is; exact absurd needs silent)
        refine ⟨?_, awaits.replies, awaits.answer⟩
        intro transmission member answers
        rcases mem_append.mp member with before | last
        · exact awaits.packets transmission before answers
        · rw [mem_singleton.mp last] at answers
          exact absurd answers silent
  | outside result | sending packet i | waiting packet i id => simp [place] at applies

theorem Sound.checks (sound : s.Sound) (applies : s.checks thread = some t) : t.Sound := by
  unfold LinkState.checks at applies
  have others (u : LinkState τ π) (same : u.packets = s.packets ∧ u.replies = s.replies ∧
      u.replyReceived = s.replyReceived ∧ u.answered = s.answered ∧ u.received = s.received)
      (other : τ) (packet : OutgoingPacket π) (i id : Nat) (_ : s.place other = .waiting packet i id)
      (_ : other ≠ thread) (awaits : s.Awaits packet id) : u.Awaits packet id :=
    awaits.congr same.1 same.2.1 same.2.2.1 same.2.2.2.1 same.2.2.2.2
  cases place : s.place thread with
  | waiting packet i id =>
    have own := sound.places thread
    rw [place] at own
    cases mutex : s.transmitMutex with
    | some holder => simp [place, mutex] at applies
    | none =>
      simp only [place, mutex] at applies
      split at applies
      case isTrue flag =>
        cases applies
        refine sound.move (.inl mutex) rfl rfl rfl (others _ ⟨rfl, rfl, rfl, rfl, rfl⟩) ?_
        intro r is _ _
        cases is
        have answer := own.2.answer flag
        exact ⟨id, rfl, answer.1, answer.2⟩
      case isFalse =>
        split at applies
        · cases applies
          exact sound.move (.inl mutex) rfl rfl rfl (others _ ⟨rfl, rfl, rfl, rfl, rfl⟩) rfl
        · cases applies
          exact sound.move (.inl mutex) rfl rfl rfl (others _ ⟨rfl, rfl, rfl, rfl, rfl⟩)
            (fun r is success => by cases is; cases success)
  | outside result | sending packet i | writing packet i => simp [place] at applies

omit [DecidableEq τ] in
theorem Sound.delivers (sound : s.Sound) {k : Nat} (applies : s.delivers k = some t) : t.Sound := by
  unfold LinkState.delivers at applies
  cases found : s.packets[k]? with
  | none => simp [found] at applies
  | some transmission =>
    simp only [found, some.injEq] at applies
    have member : transmission ∈ s.packets := mem_of_getElem? found
    have fewer : s.packets.eraseIdx k ⊆ s.packets := eraseIdx_subset
    rw [← applies]
    constructor
    · intro reply answers
      change reply ∈ (if transmission.packet.needsReply = true then s.replies ++ [transmission]
        else s.replies) at answers
      split at answers
      case isTrue =>
        rcases mem_append.mp answers with before | last
        · exact mem_cons_of_mem _ (sound.known reply before)
        · exact mem_singleton.mp last ▸ mem_cons_self
      case isFalse => exact mem_cons_of_mem _ (sound.known reply answers)
    · intro thread
      have before := sound.places thread
      show PlaceSound _ thread (s.place thread)
      cases place : s.place thread with
      | outside result =>
        rw [place] at before
        exact fun r is => (before r is).mono (subset_cons_self _ _)
      | sending packet i =>
        rw [place] at before
        exact before
      | writing packet i =>
        rw [place] at before
        refine ⟨before.1, fun needs => ?_⟩
        rcases before.2 needs with ⟨quiet, flag⟩
        refine ⟨⟨fun x sent => quiet.packets x (fewer sent), ?_, quiet.nobody⟩, flag⟩
        show (if transmission.packet.needsReply = true then s.replies ++ [transmission]
          else s.replies) = []
        rw [quiet.packets transmission member]
        exact quiet.replies
      | waiting packet i id =>
        rw [place] at before
        refine ⟨before.1, fun x sent => before.2.packets x (fewer sent), ?_, ?_⟩
        · intro reply answers
          change reply ∈ (if transmission.packet.needsReply = true then s.replies ++ [transmission]
            else s.replies) at answers
          split at answers
          case isTrue needs =>
            rcases mem_append.mp answers with earlier | last
            · exact before.2.replies reply earlier
            · rw [mem_singleton.mp last]
              exact before.2.packets transmission member needs
          case isFalse => exact before.2.replies reply answers
        · intro flag
          have answer := before.2.answer flag
          exact ⟨answer.1, mem_cons_of_mem _ answer.2⟩

omit [DecidableEq τ] in
theorem Sound.acknowledge (sound : s.Sound) (applies : s.AcknowledgeReceivedMessage = some t) :
    t.Sound := by
  unfold LinkState.AcknowledgeReceivedMessage at applies
  cases replies : s.replies with
  | nil => simp [replies] at applies
  | cons reply rest =>
    simp only [replies, some.injEq] at applies
    have inside : rest ⊆ s.replies := replies ▸ subset_cons_self reply rest
    have member : reply ∈ s.replies := replies ▸ mem_cons_self
    rw [← applies]
    constructor
    · exact fun later answers => sound.known later (inside answers)
    · intro thread
      have before := sound.places thread
      show PlaceSound _ thread (s.place thread)
      cases place : s.place thread with
      | outside result | sending packet i =>
        rw [place] at before
        exact before
      | writing packet i =>
        rw [place] at before
        refine ⟨before.1, fun needs => ?_⟩
        have quiet := (before.2 needs).1.replies
        rw [quiet] at replies
        cases replies
      | waiting packet i id =>
        rw [place] at before
        refine ⟨before.1, before.2.packets, fun x answers => before.2.replies x (inside answers), ?_⟩
        intro _
        have own := before.2.replies reply member
        refine ⟨congrArg (fun x => some x.id) own, ?_⟩
        rw [← own]
        exact sound.known reply member

theorem Sound.step (sound : s.Sound) {op : LinkStep τ π} (meets : transmitsWhenQuiet s op)
    (applies : (linkSystem τ π).step s op = some t) : t.Sound := by
  cases op with
  | SendSerialData thread packet isActive => exact sound.send applies
  | clears thread => exact sound.clears meets applies
  | writes thread complete => exact sound.writes applies
  | checks thread => exact sound.checks applies
  | delivers k => exact sound.delivers applies
  | AcknowledgeReceivedMessage => exact sound.acknowledge applies
  | losesPacket k =>
    cases applies
    exact ⟨sound.known, fun thread =>
      (sound.places thread).lose eraseIdx_subset (List.Subset.refl _)⟩
  | losesReply k =>
    cases applies
    exact ⟨fun reply member => sound.known reply (eraseIdx_subset member), fun thread =>
      (sound.places thread).lose (List.Subset.refl _) eraseIdx_subset⟩

end LinkState

/-- Where packets that need a reply are transmitted over a quiet link only, a send that
reports success had its last transmission received, and was answered by the reply to it. -/
theorem acknowledged_send_was_received {s : LinkState τ π}
    (run : (linkSystem τ π).Reaches transmitsWhenQuiet LinkState.initial s) (thread : τ)
    (result : SendResult π) (returned : s.place thread = .outside (some result))
    (success : result.success = true) (needs : result.packet.needsReply = true) :
    ∃ id, result.transmission = some id ∧ result.answered = some id ∧
      ⟨id, result.packet⟩ ∈ s.received := by
  have sound := run.invariant LinkState.Sound LinkState.Sound.initial
    fun sound meets applies => sound.step meets applies
  have own := sound.places thread
  rw [returned] at own
  exact own result rfl success needs

/-- A packet that the peer has received is acknowledged. -/
theorem acknowledged_send_of_one : ∃ s : LinkState Nat Nat,
    (⟨0, ⟨0, 7⟩⟩ : Transmission Nat) ∈ s.received := by
  have start : (linkSystem Nat Nat).Reaches transmitsWhenQuiet .initial _ := .refl
  have sending := start.next (.SendSerialData 0 ⟨0, 7⟩ true) trivial rfl
  have quiet : (({ LinkState.initial with transmitMutex := some 0 } : LinkState Nat Nat).goto 0
      (.sending ⟨0, 7⟩ 0)).Quiet := by
    constructor
    · intro transmission member
      cases member
    · rfl
    · intro thread packet i id waiting
      by_cases same : thread = 0
      · subst same
        cases waiting
      · change update _ 0 _ thread = _ at waiting
        rw [update_of_ne same] at waiting
        cases waiting
  have writing := sending.next (.clears 0) (fun _ _ _ _ => quiet) rfl
  have waiting := writing.next (.writes 0 true) trivial rfl
  have answered := (waiting.next (.delivers 0) trivial rfl).next .AcknowledgeReceivedMessage
    trivial rfl
  have returned := answered.next (.checks 0) trivial rfl
  rcases acknowledged_send_was_received returned 0 ⟨⟨0, 7⟩, true, some 0, some 0⟩ rfl rfl rfl with
    ⟨id, transmission, _, received⟩
  cases transmission
  exact ⟨_, received⟩

/-- A reply to a second transmission of one packet acknowledges the next packet, which is lost. -/
theorem acknowledged_send_was_lost : ∃ s : LinkState Nat Nat,
    (linkSystem Nat Nat).Reaches anyStep LinkState.initial s ∧
      s.place 0 = .outside (some ⟨⟨0, 8⟩, true, some 2, some 1⟩) ∧
      ∀ transmission ∈ s.received, transmission.packet ≠ ⟨0, 8⟩ := by
  have start : (linkSystem Nat Nat).Reaches anyStep .initial _ := .refl
  have first := ((start.next (.SendSerialData 0 ⟨0, 7⟩ true) trivial rfl).next
    (.clears 0) trivial rfl).next (.writes 0 true) trivial rfl
  have again := ((first.next (.checks 0) trivial rfl).next (.clears 0) trivial rfl).next
    (.writes 0 true) trivial rfl
  have received := ((again.next (.delivers 0) trivial rfl).next (.delivers 0) trivial rfl).next
    .AcknowledgeReceivedMessage trivial rfl
  have second := (((received.next (.checks 0) trivial rfl).next
    (.SendSerialData 0 ⟨0, 8⟩ true) trivial rfl).next (.clears 0) trivial rfl).next
    (.writes 0 true) trivial rfl
  have lost := ((second.next (.losesPacket 0) trivial rfl).next
    .AcknowledgeReceivedMessage trivial rfl).next (.checks 0) trivial rfl
  exact ⟨_, lost, rfl, by decide⟩

end PadOS.SerialConsole
