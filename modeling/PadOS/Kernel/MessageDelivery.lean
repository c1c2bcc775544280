import PadOS.Core.Ownership
import PadOS.Kernel.MessagePort

/-! # Delivery of messages

Every node is with one owner: the cache, the queue of a port, or the thread that fills or
frees it. Each step of a call moves one node from one owner to another, so the queues stay
queues, and what a receiver finds in a node is what the sender of that place put there.
-/

namespace PadOS.Kernel.MessagePort

open Transition List Option State
open Function (update update_self update_of_ne)

/-! ## Lists of nodes -/

def cellOf : Option KMessagePortMessage → Cell Nat
  | none => .free
  | some msg => match msg.next with
    | none => .last
    | some b => .next b

/-- The nodes from a pointer on. -/
def Chained (heap : Heap) : Option Nat → List Nat → Prop
  | none, l => l = []
  | some a, l => Linked (fun x => cellOf (heap x)) a l

section
variable {heap heap' : Heap} {first : Option Nat} {l : List Nat} {a b : Nat} {msg : KMessagePortMessage}

theorem Chained.congr (chained : Chained heap first l) (same : ∀ x ∈ l, heap' x = heap x) :
    Chained heap' first l := by
  cases first with
  | none => exact chained
  | some a => exact Linked.congr chained fun x member => congrArg cellOf (same x member)

theorem Chained.allocated (chained : Chained heap first l) (member : a ∈ l) : ∃ msg, heap a = some msg := by
  cases first with
  | none =>
    rw [show l = [] from chained] at member
    cases member
  | some b =>
    cases held : heap a with
    | none => exact absurd (by rw [held]; rfl) (Linked.not_free chained a member)
    | some msg => exact ⟨msg, rfl⟩

theorem Chained.head (chained : Chained heap (some a) l) :
    ∃ msg rest, heap a = some msg ∧ l = a :: rest ∧ Chained heap msg.next rest := by
  rcases Chained.allocated chained (Linked.mem_head chained) with ⟨msg, held⟩
  refine ⟨msg, ?_⟩
  cases chained with
  | last ends =>
    refine ⟨[], held, rfl, ?_⟩
    cases next : msg.next with
    | none => rfl
    | some b => simp [cellOf, held, next] at ends
  | @next _ b rest links tail =>
    refine ⟨rest, held, rfl, ?_⟩
    cases next : msg.next with
    | none => simp [cellOf, held, next] at links
    | some c =>
      have same : c = b := by simpa [cellOf, held, next] using links
      rw [same]
      exact tail

theorem Chained.cons (held : heap a = some msg) (chained : Chained heap msg.next l) :
    Chained heap (some a) (a :: l) := by
  cases next : msg.next with
  | none =>
    rw [next] at chained
    rw [show l = [] from chained]
    apply Linked.last
    rw [held]
    simp [cellOf, next]
  | some b =>
    rw [next] at chained
    apply Linked.next _ chained
    rw [held]
    simp [cellOf, next]

theorem Chained.nil_iff (chained : Chained heap first l) : l = [] ↔ first = none := by
  cases first with
  | none => exact ⟨fun _ => rfl, fun _ => chained⟩
  | some a =>
    constructor
    · intro empty
      exact absurd empty (Linked.ne_nil chained)
    · intro none
      cases none

theorem Chained.enqueue {last : Nat} {lastMsg : KMessagePortMessage} (chained : Chained heap first l)
    (isLast : l.getLast? = some last) (fresh : a ∉ l)
    (heldNew : heap a = some msg) (ends : msg.next = none) :
    Chained (update heap last (some { lastMsg with next := some a })) first (l ++ [a]) := by
  cases first with
  | none =>
    rw [show l = [] from chained] at isLast
    cases isLast
  | some first =>
    have single : Linked (fun x => cellOf (heap x)) a [a] := by
      apply Linked.last
      rw [heldNew]
      simp [cellOf, ends]
    have apart : List.Disjoint l [a] := by simpa using fresh
    have joined := Linked.append chained single apart
    have isLast' : l.getLast (Linked.ne_nil chained) = last := by
      rw [getLast?_eq_some_getLast (Linked.ne_nil chained)] at isLast
      exact some.inj isLast
    rw [isLast'] at joined
    have same : (fun x => cellOf (update heap last (some { lastMsg with next := some a }) x)) =
        update (fun x => cellOf (heap x)) last (.next a) := by
      funext x
      by_cases here : x = last
      · rw [here, update_self, update_self]
        rfl
      · rw [update_of_ne here, update_of_ne here]
    show Linked _ first (l ++ [a])
    rw [same]
    exact joined

end

/-! ## The invariant -/

inductive Owner
  | cache
  | port (p : Nat)
  | thread (t : Nat)
  deriving DecidableEq

/-- The node holds the message. -/
def Carries (heap : Heap) (a : Nat) (message : Message) : Prop :=
  ∃ msg, heap a = some msg ∧ msg.targetHandler = message.targetHandler ∧ msg.code = message.code ∧
    msg.length = message.data.bytes.length ∧
    (List.range msg.length).map msg.payload = message.data.bytes

/-- The queue of a port is `nodes`, and they hold the messages that are still to be received. -/
structure PortHolds (heap : Heap) (p : KMessagePort) (pending : List Message) (nodes : List Nat) : Prop where
  chained : Chained heap p.firstMsg nodes
  last : p.lastMsg = nodes.getLast?
  count : p.messageCount = nodes.length
  bounded : nodes.length ≤ p.maxCount
  carries : List.Forall₂ (Carries heap) nodes pending

/-- A call between its two parts has one node and the mutex of its port. -/
def CallHolds (s : State) (t : Nat) (nodes : List Nat) : Prop :=
  match s.calls t with
  | some (.filling p message a) => nodes = [a] ∧ (s.ports p).owner = some t ∧
      (s.ports p).messageCount < (s.ports p).maxCount ∧
      ∃ msg, s.memory.heap a = some msg ∧ message.data.bytes.length ≤ msg.capacity
  | some (.freeing p a) => nodes = [a] ∧ (s.ports p).owner = some t ∧
      ∃ msg, s.memory.heap a = some msg
  | _ => nodes = []

structure CacheHolds (m : Memory) (nodes : List Nat) : Prop where
  chained : Chained m.heap m.firstCached nodes
  count : m.cachedCount = nodes.length
  bounded : nodes.length ≤ maxCachedMessageCount

/-- A receive took what the send of the same place sent. -/
def Matches (message : Message) (r : Received) : Prop :=
  r.targetHandler = message.targetHandler ∧ r.code = message.code ∧
    r.bytes = message.data.bytes.take (r.bufferSize.getD 0)

/-- The receives of a port answer its first sends, one by one. -/
structure Answered (sent : List Message) (received : List Received) : Prop where
  within : received.length ≤ sent.length
  answers : ∀ (k : Nat) (r : Received), received[k]? = some r →
    ∃ message, sent[k]? = some message ∧ Matches message r

/-- Blocks have the room that the length of a message in them asks for, and never less than
what makes a node fit for the cache. -/
def Roomy (heap : Heap) : Prop :=
  ∀ a msg, heap a = some msg → maxCachedMessageSize ≤ msg.capacity ∧ msg.length ≤ msg.capacity

structure Holding (s : State) (lists : Owner → List Nat) : Prop where
  safe : s.faulted = false
  apart : Separate lists
  roomy : Roomy s.memory.heap
  cache : CacheHolds s.memory (lists .cache)
  ports : ∀ p, PortHolds s.memory.heap (s.ports p) ((s.sent p).drop (s.received p).length) (lists (.port p))
  calls : ∀ t, CallHolds s t (lists (.thread t))
  answered : ∀ p, Answered (s.sent p) (s.received p)

section
variable {heap heap' : Heap} {p p' : KMessagePort} {pending : List Message} {nodes : List Nat}
  {s s' : State} {t a : Nat} {m m' : Memory} {msg : KMessagePortMessage} {lists : Owner → List Nat}

theorem Carries.congr {message : Message} (carries : Carries heap a message) (same : heap' a = heap a) :
    Carries heap' a message := by
  unfold Carries
  rw [same]
  exact carries

theorem Carries.relinked {message : Message} {b : Nat} {next : Option Nat} (carries : Carries heap a message)
    (held : heap b = some msg) : Carries (update heap b (some { msg with next := next })) a message := by
  by_cases here : a = b
  · rcases carries with ⟨msg', held', handler, code, length, payload⟩
    rw [here] at held' ⊢
    obtain rfl := some.inj (held.symm.trans held')
    exact ⟨_, update_self _ _ _, handler, code, length, payload⟩
  · exact carries.congr (update_of_ne here _ _)

theorem carries_congr (carries : List.Forall₂ (Carries heap) nodes pending)
    (same : ∀ x ∈ nodes, heap' x = heap x) : List.Forall₂ (Carries heap') nodes pending := by
  induction carries with
  | nil => exact .nil
  | cons first _ ih =>
    exact .cons (first.congr (same _ mem_cons_self)) (ih fun x h => same x (mem_cons_of_mem _ h))

theorem PortHolds.congr (holds : PortHolds heap p pending nodes) (same : ∀ x ∈ nodes, heap' x = heap x)
    (first : p'.firstMsg = p.firstMsg) (last : p'.lastMsg = p.lastMsg)
    (count : p'.messageCount = p.messageCount) (bound : p'.maxCount = p.maxCount) :
    PortHolds heap' p' pending nodes where
  chained := by
    rw [first]
    exact holds.chained.congr same
  last := last.trans holds.last
  count := count.trans holds.count
  bounded := bound ▸ holds.bounded
  carries := carries_congr holds.carries same

theorem CacheHolds.congr (holds : CacheHolds m nodes) (same : ∀ x ∈ nodes, m'.heap x = m.heap x)
    (first : m'.firstCached = m.firstCached) (count : m'.cachedCount = m.cachedCount) :
    CacheHolds m' nodes where
  chained := by
    rw [first]
    exact holds.chained.congr same
  count := count.trans holds.count
  bounded := holds.bounded

section

variable (holds : CallHolds s t nodes) (call : s'.calls t = s.calls t)
  (same : ∀ x ∈ nodes, s'.memory.heap x = s.memory.heap x)

include holds call same

/-- A call keeps what it holds while its nodes and the port it has locked stay as they are. -/
theorem CallHolds.congr
    (locked : ∀ q, (s.ports q).owner = some t → s'.ports q = s.ports q) : CallHolds s' t nodes := by
  unfold CallHolds at holds ⊢
  rw [call]
  split at holds
  · rcases holds with ⟨rfl, owner, room, held⟩
    rw [locked _ owner, same _ mem_cons_self]
    exact ⟨rfl, owner, room, held⟩
  · rcases holds with ⟨rfl, owner, held⟩
    rw [locked _ owner, same _ mem_cons_self]
    exact ⟨rfl, owner, held⟩
  · exact holds

/-- A call keeps what it holds while only a port changes that it has not locked. -/
theorem CallHolds.elsewhere
    {q : Nat}
    (unlocked : (s.ports q).owner ≠ some t) (ports : ∀ r, r ≠ q → s'.ports r = s.ports r) :
    CallHolds s' t nodes := by
  apply holds.congr call same
  intro r owner
  apply ports
  rintro rfl
  exact unlocked owner

end

theorem CallHolds.nil (holds : CallHolds s t nodes)
    (waits : ∀ q message b, s.calls t ≠ some (.filling q message b) ∧ s.calls t ≠ some (.freeing q b)) :
    nodes = [] := by
  unfold CallHolds at holds
  split at holds
  · rename_i q message b call
    exact absurd call (waits q message b).1
  · rename_i q b call
    exact absurd call (waits q ⟨0, 0, ⟨[], by decide⟩⟩ b).2
  · exact holds

theorem Roomy.update (roomy : Roomy heap)
    (room : maxCachedMessageSize ≤ msg.capacity ∧ msg.length ≤ msg.capacity) :
    Roomy (update heap a (some msg)) := by
  intro x msg' held
  by_cases here : x = a
  · rw [here, update_self] at held
    cases held
    exact room
  · rw [update_of_ne here] at held
    exact roomy x msg' held

theorem Roomy.free (roomy : Roomy heap) : Roomy (Function.update heap a none) := by
  intro x msg' held
  by_cases here : x = a
  · rw [here, update_self] at held
    cases held
  · rw [update_of_ne here] at held
    exact roomy x msg' held

theorem Holding.allocated (holding : Holding s lists) {o : Owner} (member : a ∈ lists o) :
    ∃ msg, s.memory.heap a = some msg := by
  cases o with
  | cache => exact holding.cache.chained.allocated member
  | port p => exact (holding.ports p).chained.allocated member
  | thread t =>
    have holds := holding.calls t
    unfold CallHolds at holds
    split at holds
    · rcases holds with ⟨only, -, -, msg, held, -⟩
      rw [only, mem_singleton] at member
      exact ⟨msg, member ▸ held⟩
    · rcases holds with ⟨only, -, held⟩
      rw [only, mem_singleton] at member
      exact member ▸ held
    · rw [holds] at member
      cases member

end

/-! ## One step -/

section
variable {s s' : State} {t p a : Nat} {m : Memory} {msg : KMessagePortMessage} {lists : Owner → List Nat}
  {message : Message} {malloc : Malloc} {bufferSize : Option Nat}

theorem Holding.setCall (holding : Holding s lists) (idle : lists (.thread t) = []) {call : Option Call}
    (waits : ∀ q message b, call ≠ some (.filling q message b) ∧ call ≠ some (.freeing q b)) :
    Holding (s.setCall t call) lists where
  safe := holding.safe
  apart := holding.apart
  roomy := holding.roomy
  cache := holding.cache
  ports := holding.ports
  calls := by
    intro u
    by_cases same : u = t
    · unfold CallHolds
      rw [same, show (s.setCall t call).calls t = call from update_self _ _ _]
      split
      · exact absurd rfl (waits _ _ _).1
      · rename_i q b
        exact absurd rfl (waits q ⟨0, 0, ⟨[], by decide⟩⟩ b).2
      · exact idle
    · exact (holding.calls u).congr (update_of_ne same _ _) (fun _ _ => rfl) fun _ _ => rfl
  answered := holding.answered

/-- What `alloc_message` gives: the head of the cache, or a block that nobody has. -/
theorem allocMessage_spec (holding : Holding s lists) (free : malloc.isFree s.memory.heap)
    {size : Nat} (small : sizeofMessage + size < 2 ^ 32) :
    s.memory.allocMessage size malloc = .outOfMemory ∨
      ∃ a m msg lists', s.memory.allocMessage size malloc = .node a m ∧
        m.heap = update s.memory.heap a (some msg) ∧ size ≤ msg.capacity ∧
        maxCachedMessageSize ≤ msg.capacity ∧ msg.length = size ∧ CacheHolds m (lists' .cache) ∧
        Separate lists' ∧ (∀ o, a ∉ lists' o) ∧ ∀ o, o ≠ .cache → lists' o = lists o := by
  unfold Memory.allocMessage
  split
  · rename_i cached
    have chained := holding.cache.chained
    have count := holding.cache.count
    cases first : s.memory.firstCached with
    | none =>
      rw [first] at chained
      rw [chained.nil_iff.2 rfl] at count
      simp [count] at cached
    | some a =>
      rw [first] at chained
      rcases chained.head with ⟨msg, rest, held, here, tail⟩
      have roomy := holding.roomy a msg held
      refine .inr ⟨a, { s.memory.set a { msg with length := size } with
        firstCached := msg.next, cachedCount := s.memory.cachedCount - 1 },
        { msg with length := size }, update lists .cache rest, ?_, rfl, ?_,
        roomy.1, rfl, ?_, ?_, holding.apart.free_of_take here, ?_⟩
      · dsimp only
        rw [held]
      · exact Nat.le_trans cached.1 roomy.1
      · rw [update_self]
        refine ⟨?_, ?_, ?_⟩
        · apply tail.congr
          intro x member
          apply update_of_ne
          intro same
          exact holding.apart.not_mem_tail here (same ▸ member)
        · show s.memory.cachedCount - 1 = _
          rw [count, here, length_cons, Nat.add_sub_cancel]
        · have bounded := holding.cache.bounded
          rw [here, length_cons] at bounded
          omega
      · apply holding.apart.shrink
        rw [here]
        exact sublist_cons_self a rest
      · intro o other
        exact update_of_ne other _ _
  · unfold Memory.mallocMessage
    cases malloc with
    | none => exact .inl rfl
    | some block =>
      obtain ⟨a, garbage⟩ := block
      have unused : s.memory.heap a = none := by simpa [Malloc.isFree] using free
      have outside : ∀ o, a ∉ lists o := by
        intro o member
        rcases holding.allocated member with ⟨msg, held⟩
        rw [unused] at held
        cases held
      have capacity : sizeT (sizeofMessage + max maxCachedMessageSize size) - sizeofMessage =
          max maxCachedMessageSize size := by
        unfold sizeT
        unfold sizeofMessage maxCachedMessageSize at *
        rw [Nat.mod_eq_of_lt (by omega)]
        omega
      refine .inr ⟨a, _, _, lists, rfl, rfl, ?_, ?_, rfl, ?_, holding.apart, outside, fun _ _ => rfl⟩
      · rw [capacity]
        exact Nat.le_max_right _ _
      · rw [capacity]
        exact Nat.le_max_left _ _
      · refine holding.cache.congr ?_ ?_ ?_
        · intro x member
          apply update_of_ne
          intro same
          exact outside .cache (same ▸ member)
        · rfl
        · rfl

theorem Holding.sendLoop (holding : Holding s lists) (idle : lists (.thread t) = [])
    (open_ : (s.ports p).owner = none) (free : malloc.isFree s.memory.heap) :
    ∃ lists, Holding (s.sendLoop t p message malloc) lists := by
  unfold State.sendLoop
  split
  · exact ⟨lists, holding.setCall idle fun _ _ _ => ⟨by simp, by simp⟩⟩
  · rename_i room
    rcases allocMessage_spec holding free message.data.addressable with none | given
    · rw [none]
      exact ⟨lists, holding.setCall idle fun _ _ _ => ⟨by simp, by simp⟩⟩
    · rcases given with ⟨a, m, msg, lists', result, heap, fits, cacheable, length, cache, apart, free, others⟩
      rw [result]
      have untouched : ∀ o, ∀ x ∈ lists' o, m.heap x = s.memory.heap x := by
        intro o x member
        rw [heap]
        apply update_of_ne
        intro same
        exact free o (same ▸ member)
      have nothing : lists' (.thread t) = [] := by rw [others _ (by simp), idle]
      refine ⟨update lists' (.thread t) [a], ?_⟩
      constructor
      case safe => exact holding.safe
      case apart =>
        apply apart.gain free
        rw [nothing]
      case roomy =>
        show Roomy m.heap
        rw [heap]
        exact holding.roomy.update ⟨cacheable, length ▸ fits⟩
      case cache =>
        rw [update_of_ne (by simp)]
        exact cache
      case ports =>
        intro q
        rw [update_of_ne (by simp)]
        have same := untouched (.port q)
        rw [others _ (by simp)] at same ⊢
        by_cases here : q = p
        · rw [here] at same ⊢
          exact (holding.ports p).congr same (by simp [State.setCall, lock, State.setPort])
            (by simp [State.setCall, lock, State.setPort])
            (by simp [State.setCall, lock, State.setPort])
            (by simp [State.setCall, lock, State.setPort])
        · have port : ((lock { s with memory := m } p t).setCall t
              (some (.filling p message a))).ports q = s.ports q := update_of_ne here _ _
          rw [port]
          exact (holding.ports q).congr same rfl rfl rfl rfl
      case calls =>
        intro u
        by_cases same : u = t
        · rw [same, update_self]
          unfold CallHolds
          rw [show ((lock { s with memory := m } p t).setCall t (some (.filling p message a))).calls t =
            some (.filling p message a) from update_self _ _ _]
          refine ⟨rfl, ?_, ?_, msg, ?_, fits⟩
          · simp [State.setCall, lock, State.setPort]
          · simpa [State.setCall, lock, State.setPort] using room
          · show m.heap a = some msg
            rw [heap, update_self]
        · rw [update_of_ne (by simpa using same)]
          have kept := untouched (.thread u)
          rw [others _ (by simp)] at kept ⊢
          exact (holding.calls u).elsewhere (update_of_ne same _ _) kept
            (by rw [open_]; nofun) fun q other => update_of_ne other _ _
      case answered => exact holding.answered

theorem filled_payload (msg : KMessagePortMessage) (message : Message) :
    (List.range (filled msg message).length).map (filled msg message).payload =
      message.data.bytes := by
  apply ext_getElem
  · simp [filled]
  · intro i _ inside
    simp [filled, inside]

theorem pending_append (answered : Answered (s.sent p) (s.received p)) :
    (s.sent p ++ [message]).drop (s.received p).length =
      (s.sent p).drop (s.received p).length ++ [message] :=
  drop_append_of_le_length answered.within

theorem Holding.queued (holding : Holding s lists) (held : lists (.thread t) = [a])
    (owner : (s.ports p).owner = some t) (room : (s.ports p).messageCount < (s.ports p).maxCount)
    {first : Option Nat} (chained : Chained m.heap first (lists (.port p) ++ [a]))
    (outside : ∀ x, x ∉ lists (.port p) ++ [a] → m.heap x = s.memory.heap x) (roomy : Roomy m.heap)
    (carries : List.Forall₂ (Carries m.heap) (lists (.port p) ++ [a])
      ((s.sent p).drop (s.received p).length ++ [message]))
    (cached : m.firstCached = s.memory.firstCached ∧ m.cachedCount = s.memory.cachedCount) :
    Holding (s.queued t p message a m first)
      (update (update lists (.thread t) []) (.port p) (lists (.port p) ++ [a])) := by
  have apart : Separate (update (update lists (.thread t) []) (.port p)
      (lists (.port p) ++ [a])) :=
    holding.apart.move (by simp) held (perm_append_singleton a _)
  have untouched : ∀ o, o ≠ .port p → o ≠ .thread t → ∀ x ∈ lists o, m.heap x = s.memory.heap x := by
    intro o notPort notThread x member
    apply outside
    intro inside
    rcases mem_append.1 inside with queue | new
    · exact notPort (holding.apart.eq_of_mem member queue)
    · rw [mem_singleton.1 new] at member
      exact notThread (holding.apart.eq_of_mem member (held ▸ mem_singleton_self a))
  constructor
  case safe => exact holding.safe
  case apart => exact apart
  case roomy => exact roomy
  case cache =>
    rw [update_of_ne (by simp), update_of_ne (by simp)]
    exact holding.cache.congr (untouched _ (by simp) (by simp)) cached.1 cached.2
  case ports =>
    intro q
    by_cases here : q = p
    · rw [here, update_self]
      have before := holding.ports p
      have port : (s.queued t p message a m first).ports p = { s.ports p with
            firstMsg := first
            lastMsg := some a
            messageCount := (s.ports p).messageCount + 1
            owner := none } := update_self _ _ _
      have sent : (s.queued t p message a m first).sent p = s.sent p ++ [message] :=
        update_self _ _ _
      rw [port, sent]
      show PortHolds m.heap _ ((s.sent p ++ [message]).drop (s.received p).length) _
      rw [pending_append (holding.answered p)]
      refine ⟨chained, ?_, ?_, ?_, carries⟩
      · simp
      · show (s.ports p).messageCount + 1 = _
        rw [before.count, length_append, length_singleton]
      · have count := before.count
        show (lists (.port p) ++ [a]).length ≤ (s.ports p).maxCount
        rw [length_append, length_singleton]
        omega
    · rw [update_of_ne (by simpa using here), update_of_ne (by simp)]
      have port : (s.queued t p message a m first).ports q = s.ports q := update_of_ne here _ _
      have sent : (s.queued t p message a m first).sent q = s.sent q := update_of_ne here _ _
      rw [port, sent]
      exact (holding.ports q).congr (untouched _ (by simpa using here) (by simp)) rfl rfl rfl rfl
  case calls =>
    intro u
    rw [update_of_ne (by simp)]
    by_cases same : u = t
    · rw [same, update_self]
      unfold CallHolds
      rw [show (s.queued t p message a m first).calls t = none from update_self _ _ _]
    · rw [update_of_ne (by simpa using same)]
      exact (holding.calls u).elsewhere (update_of_ne same _ _)
        (untouched _ (by simp) (by simpa using same)) (by simpa [owner] using Ne.symm same)
        fun q other => update_of_ne other _ _
  case answered =>
    intro q
    by_cases here : q = p
    · have sent : (s.queued t p message a m first).sent p = s.sent p ++ [message] :=
        update_self _ _ _
      have before := holding.answered p
      have within := before.within
      rw [here, sent]
      refine ⟨?_, ?_⟩
      · show (s.received p).length ≤ _
        rw [length_append]
        omega
      · intro k r got
        rcases before.answers k r got with ⟨message, sentBefore, matches_⟩
        have below := (List.getElem?_eq_some_iff.1 sentBefore).1
        exact ⟨message, by rwa [List.getElem?_append_left below], matches_⟩
    · have sent : (s.queued t p message a m first).sent q = s.sent q := update_of_ne here _ _
      rw [sent]
      exact holding.answered q

theorem Holding.enqueue (holding : Holding s lists) (call : s.calls t = some (.filling p message a)) :
    ∃ lists, Holding (s.enqueue t p message a) lists := by
  have holds := holding.calls t
  unfold CallHolds at holds
  rw [call] at holds
  rcases holds with ⟨held, owner, room, msg, heldNode, fits⟩
  have queue := holding.ports p
  have fresh : a ∉ lists (.port p) := by
    intro member
    have same := holding.apart.eq_of_mem member (held ▸ mem_singleton_self a)
    cases same
  let memory := s.memory.set a (filled msg message)
  have filledHere : memory.heap a = some (filled msg message) := update_self _ _ _
  have elsewhere : ∀ x, x ≠ a → memory.heap x = s.memory.heap x := fun x other =>
    update_of_ne other _ _
  have kept : ∀ x ∈ lists (.port p), memory.heap x = s.memory.heap x := by
    intro x member
    apply elsewhere
    rintro rfl
    exact fresh member
  have roomy : Roomy memory.heap :=
    holding.roomy.update ⟨(holding.roomy a msg heldNode).1, fits⟩
  have new : Carries memory.heap a message :=
    ⟨_, filledHere, rfl, rfl, rfl, filled_payload msg message⟩
  unfold State.enqueue
  rw [heldNode]
  dsimp only
  rw [if_neg (by omega)]
  cases last : (s.ports p).lastMsg with
  | none =>
    have empty : lists (.port p) = [] := by
      rw [queue.last] at last
      exact getLast?_eq_none_iff.1 last
    refine ⟨_, holding.queued held owner room ?_ ?_ roomy ?_ ⟨rfl, rfl⟩⟩
    · rw [empty]
      exact Chained.cons filledHere rfl
    · intro x other
      exact elsewhere x fun same => other (by simp [same])
    · exact rel_append (carries_congr queue.carries kept) (.cons new .nil)
  | some last' =>
    have isLast := queue.last.symm.trans last
    have member : last' ∈ lists (.port p) := mem_of_getLast? isLast
    rcases queue.chained.allocated member with ⟨lastMsg, heldLast⟩
    have lastKept : memory.heap last' = some lastMsg := (kept last' member).trans heldLast
    dsimp only
    rw [show (s.memory.set a (filled msg message)).heap last' = some lastMsg from lastKept]
    refine ⟨_, holding.queued held owner room ?_ ?_ ?_ ?_ ⟨rfl, rfl⟩⟩
    · exact (queue.chained.congr kept).enqueue isLast fresh filledHere rfl
    · intro x other
      show update memory.heap last' _ x = _
      rw [update_of_ne]
      · exact elsewhere x fun same => other (by simp [same])
      · exact fun same => other (mem_append_left _ (same ▸ member))
    · have before := holding.roomy last' lastMsg heldLast
      exact roomy.update before
    · apply (rel_append (carries_congr queue.carries kept) (.cons new .nil)).imp
      intro x message carries
      exact carries.relinked lastKept

theorem take_payload {bytes : List UInt8} {size : Nat}
    (payload : (List.range msg.length).map msg.payload = bytes) :
    (List.range (min size msg.length)).map msg.payload = bytes.take size := by
  rw [← payload, ← map_take, take_range]

section

variable (holding : Holding s lists)

include holding

theorem Holding.detachMessage (idle : lists (.thread t) = [])
    (open_ : (s.ports p).owner = none) (some_ : (s.ports p).messageCount ≠ 0) :
    ∃ lists, Holding (s.detachMessage t p bufferSize) lists := by
  have queue := holding.ports p
  have answered := holding.answered p
  have chained := queue.chained
  unfold State.detachMessage
  cases first : (s.ports p).firstMsg with
  | none =>
    rw [first] at chained
    have count := queue.count
    rw [chained.nil_iff.2 rfl] at count
    exact absurd count some_
  | some a =>
    rw [first] at chained
    rcases chained.head with ⟨msg, rest, held, here, tail⟩
    have carries := queue.carries
    rw [here] at carries
    have roomy := holding.roomy a msg held
    dsimp only
    rw [held]
    dsimp only
    rw [if_neg (by omega)]
    cases pending : (s.sent p).drop (s.received p).length with
    | nil =>
      rw [pending] at carries
      cases carries
    | cons message more =>
      rw [pending] at carries
      rcases carries with _ | ⟨carries, later⟩
      rcases carries with ⟨msg', held', handler, code, length, payload⟩
      obtain rfl := some.inj (held.symm.trans held')
      have place : (s.sent p)[(s.received p).length]? = some message := by
        have head := congrArg List.head? pending
        rwa [List.head?_drop] at head
      have below := (List.getElem?_eq_some_iff.1 place).1
      refine ⟨update (update lists (.port p) rest) (.thread t) [a], ?_⟩
      have apart : Separate (update (update lists (.port p) rest) (.thread t) [a]) :=
        holding.apart.move (by simp) here (by rw [idle])
      constructor
      case safe => exact holding.safe
      case apart => exact apart
      case roomy => exact holding.roomy
      case cache =>
        rw [update_of_ne (by simp), update_of_ne (by simp)]
        exact holding.cache
      case ports =>
        intro q
        rw [update_of_ne (by simp)]
        by_cases same : q = p
        · rw [same, update_self]
          simp only [State.setCall, State.setPort, update_self, length_append, length_singleton]
          have count := queue.count
          have bounded := queue.bounded
          rw [here, length_cons] at count bounded
          refine ⟨tail, ?_, ?_, ?_, ?_⟩
          · show (if msg.next = none then none else (s.ports p).lastMsg) = _
            by_cases last : msg.next = none
            · rw [if_pos last, tail.nil_iff.2 last]
              rfl
            · rw [if_neg last, queue.last, here]
              cases rest with
              | nil => exact absurd (tail.nil_iff.1 rfl) last
              | cons b rest => rfl
          · show (s.ports p).messageCount - 1 = _
            omega
          · show rest.length ≤ (s.ports p).maxCount
            omega
          · rw [drop_add_one_eq_tail_drop, pending]
            exact later
        · rw [update_of_ne (by simpa using same)]
          simp only [State.setCall, State.setPort, update_of_ne same]
          exact holding.ports q
      case calls =>
        intro u
        by_cases same : u = t
        · rw [same, update_self]
          unfold CallHolds
          simp only [State.setCall, State.setPort, update_self]
          exact ⟨trivial, trivial, msg, held⟩
        · rw [update_of_ne (by simpa using same), update_of_ne (by simp)]
          exact (holding.calls u).elsewhere (update_of_ne same _ _) (fun _ _ => rfl)
            (by rw [open_]; nofun) fun q other => update_of_ne other _ _
      case answered =>
        intro q
        by_cases same : q = p
        · rw [same]
          simp only [State.setCall, State.setPort, update_self]
          refine ⟨?_, ?_⟩
          · rw [length_append, length_singleton]
            exact below
          · intro k r got
            by_cases old : k < (s.received p).length
            · rw [List.getElem?_append_left old] at got
              exact answered.answers k r got
            · have bound := (List.getElem?_eq_some_iff.1 got).1
              rw [length_append, length_singleton] at bound
              obtain rfl : k = (s.received p).length := by omega
              rw [getElem?_concat_length] at got
              obtain rfl := some.inj got
              exact ⟨message, place, handler, code, take_payload payload⟩
        · simp only [State.setCall, State.setPort, update_of_ne same]
          exact holding.answered q

theorem Holding.receiveLoop (idle : lists (.thread t) = [])
    (open_ : (s.ports p).owner = none) : ∃ lists, Holding (s.receiveLoop t p bufferSize) lists := by
  unfold State.receiveLoop
  split
  · exact ⟨lists, holding.setCall idle fun _ _ _ => ⟨by simp, by simp⟩⟩
  · rename_i some_
    exact holding.detachMessage idle open_ some_

/-- The thread that has the mutex of a port lets it go with its node, at the end of its call. -/
theorem Holding.unlock (owner : (s.ports p).owner = some t) :
    Holding ((s.unlock p).setCall t none) (update lists (.thread t) []) := by
  constructor
  case safe => exact holding.safe
  case apart => exact holding.apart.shrink (nil_sublist _)
  case roomy => exact holding.roomy
  case cache =>
    rw [update_of_ne (by simp)]
    exact holding.cache
  case ports =>
    intro q
    rw [update_of_ne (by simp)]
    by_cases here : q = p
    · rw [here]
      simp only [State.unlock, State.setCall, State.setPort, update_self]
      exact (holding.ports p).congr (fun _ _ => rfl) rfl rfl rfl rfl
    · simp only [State.unlock, State.setCall, State.setPort, update_of_ne here]
      exact holding.ports q
  case calls =>
    intro u
    by_cases same : u = t
    · unfold CallHolds
      rw [same]
      simp only [State.unlock, State.setCall, State.setPort, update_self]
    · rw [update_of_ne (by simpa using same)]
      exact (holding.calls u).elsewhere (update_of_ne same _ _) (fun _ _ => rfl)
        (by simpa [owner] using Ne.symm same) fun q other => update_of_ne other _ _
  case answered => exact holding.answered

/-- A store to a node that nobody has, and the cache that comes with it. -/
theorem Holding.setMemory {block : Option KMessagePortMessage}
    {cached : List Nat} (free : ∀ o, a ∉ lists o) (heap : m.heap = update s.memory.heap a block)
    (roomy : Roomy m.heap) (cache : CacheHolds m cached) (apart : Separate (update lists .cache cached)) :
    Holding { s with memory := m } (update lists .cache cached) := by
  have untouched : ∀ o, ∀ x ∈ lists o, m.heap x = s.memory.heap x := by
    intro o x member
    rw [heap]
    apply update_of_ne
    rintro rfl
    exact free o member
  constructor
  case safe => exact holding.safe
  case apart => exact apart
  case roomy => exact roomy
  case cache =>
    rw [update_self]
    exact cache
  case ports =>
    intro q
    rw [update_of_ne (by simp)]
    exact (holding.ports q).congr (untouched _) rfl rfl rfl rfl
  case calls =>
    intro u
    rw [update_of_ne (by simp)]
    exact (holding.calls u).congr rfl (untouched _) fun _ _ => rfl
  case answered => exact holding.answered

theorem Holding.dispose (call : s.calls t = some (.freeing p a)) :
    ∃ lists, Holding (s.dispose t p a) lists := by
  have holds := holding.calls t
  unfold CallHolds at holds
  rw [call] at holds
  rcases holds with ⟨held, owner, msg, heldNode⟩
  have after := holding.unlock owner
  have free : ∀ o, a ∉ update lists (.thread t) [] o := holding.apart.free_of_take held
  have cache := after.cache
  have roomy := holding.roomy a msg heldNode
  unfold State.dispose Memory.freeMessage
  rw [heldNode]
  dsimp only
  by_cases kept : msg.length ≤ maxCachedMessageSize ∧ s.memory.cachedCount < maxCachedMessageCount
  · rw [if_pos kept]
    refine ⟨_, after.setMemory free rfl (holding.roomy.update roomy) ?_
      (after.apart.gain free (List.Perm.refl _))⟩
    refine ⟨?_, ?_, ?_⟩
    · apply Chained.cons (update_self _ _ _)
      apply cache.chained.congr
      intro x member
      apply update_of_ne
      rintro rfl
      exact free .cache member
    · show s.memory.cachedCount + 1 = _
      rw [length_cons, ← cache.count]
      rfl
    · have count : s.memory.cachedCount = _ := cache.count
      rw [length_cons]
      omega
  · rw [if_neg kept]
    refine ⟨_, after.setMemory free rfl holding.roomy.free ?_ (after.apart.shrink (List.Sublist.refl _))⟩
    refine cache.congr ?_ ?_ ?_
    · intro x member
      apply update_of_ne
      rintro rfl
      exact free .cache member
    · rfl
    · rfl

end

end

/-! ## A run -/

theorem holding_initial (maxCount : Nat → Nat) : Holding (initialState maxCount) fun _ => [] where
  safe := rfl
  apart := Separate.empty
  roomy := fun _ _ held => nomatch held
  cache := ⟨rfl, rfl, Nat.zero_le _⟩
  ports := fun _ => ⟨rfl, rfl, rfl, Nat.zero_le _, .nil⟩
  calls := fun _ => rfl
  answered := fun _ => ⟨Nat.le_refl _, fun _ _ got => nomatch got⟩

theorem Holding.step {s s' : State} {lists : Owner → List Nat} {op : Op} (holding : Holding s lists)
    (applies : MessagePort.step s op = some s') : ∃ lists, Holding s' lists := by
  cases op with
  | send thread port message malloc =>
    simp only [MessagePort.step] at applies
    split at applies
    · rename_i enters
      cases applies
      have idle : s.calls thread = none := by simpa using enters.1
      exact holding.sendLoop ((holding.calls thread).nil (by simp [idle])) (by simpa using enters.2.1)
        enters.2.2
    · cases applies
  | receive thread port bufferSize =>
    simp only [MessagePort.step] at applies
    split at applies
    · rename_i enters
      cases applies
      have idle : s.calls thread = none := by simpa using enters.1
      exact holding.receiveLoop ((holding.calls thread).nil (by simp [idle])) (by simpa using enters.2)
    · cases applies
  | wake thread result malloc =>
    simp only [MessagePort.step] at applies
    split at applies
    · rename_i port message call
      have idle := (holding.calls thread).nil (by simp [call])
      split at applies
      · rename_i enters
        cases applies
        split
        · exact holding.sendLoop idle (by simpa using enters.1) enters.2
        · exact ⟨lists, holding.setCall idle fun _ _ _ => ⟨by simp, by simp⟩⟩
      · cases applies
    · rename_i port bufferSize call
      have idle := (holding.calls thread).nil (by simp [call])
      split at applies
      · rename_i enters
        cases applies
        split
        · exact holding.receiveLoop idle (by simpa using enters)
        · exact ⟨lists, holding.setCall idle fun _ _ _ => ⟨by simp, by simp⟩⟩
      · cases applies
    · cases applies
  | finish thread =>
    simp only [MessagePort.step] at applies
    split at applies
    · rename_i port message a call
      cases applies
      exact holding.enqueue call
    · rename_i port a call
      cases applies
      exact holding.dispose call
    · cases applies

theorem holding_of_reaches {maxCount : Nat → Nat} {s : State}
    (run : system.Reaches anyStep (initialState maxCount) s) : ∃ lists, Holding s lists :=
  run.invariant (fun s => ∃ lists, Holding s lists) ⟨_, holding_initial maxCount⟩
    fun holds _ applies => holds.elim fun _ holding => holding.step applies

/-! ## Delivery -/

/-- The nodes of an owner, as the state has them. -/
def NodesOf (s : State) : Owner → List Nat → Prop
  | .cache, nodes => Chained s.memory.heap s.memory.firstCached nodes
  | .port p, nodes => Chained s.memory.heap (s.ports p).firstMsg nodes
  | .thread t, nodes => match s.calls t with
    | some (.filling _ _ a) => nodes = [a]
    | some (.freeing _ a) => nodes = [a]
    | _ => nodes = []

/-- `m_FirstMsg` to `m_LastMsg` are the nodes of a queue. -/
structure IsQueue (heap : Heap) (p : KMessagePort) (nodes : List Nat) : Prop where
  chained : Chained heap p.firstMsg nodes
  last : p.lastMsg = nodes.getLast?
  count : p.messageCount = nodes.length
  bounded : p.messageCount ≤ p.maxCount

structure Delivers (s : State) : Prop where
  safe : s.faulted = false
  queues : ∀ p, ∃ nodes, IsQueue s.memory.heap (s.ports p) nodes
  /-- The `k`th receive of a port answers its `k`th send. -/
  inOrder : ∀ p, Answered (s.sent p) (s.received p)
  /-- What is sent and not received is queued. -/
  queued : ∀ p, (s.sent p).length = (s.received p).length + (s.ports p).messageCount
  room : ∀ t p message a, s.calls t = some (.filling p message a) →
    ∃ msg, s.memory.heap a = some msg ∧ message.data.bytes.length ≤ msg.capacity
  once : ∀ o nodes, NodesOf s o nodes → nodes.Nodup
  apart : ∀ o o' nodes nodes', o ≠ o' → NodesOf s o nodes → NodesOf s o' nodes' →
    List.Disjoint nodes nodes'

theorem Chained.unique {heap : Heap} {first : Option Nat} {l l' : List Nat} (chained : Chained heap first l)
    (chained' : Chained heap first l') : l = l' := by
  cases first with
  | none => exact (show l = [] from chained).trans (show l' = [] from chained').symm
  | some a => exact Linked.unique chained chained'

variable {s : State} {lists : Owner → List Nat}

theorem Holding.nodesOf (holding : Holding s lists) {o : Owner} {nodes : List Nat}
    (nodesOf : NodesOf s o nodes) : nodes = lists o := by
  cases o with
  | cache => exact Chained.unique nodesOf holding.cache.chained
  | port p => exact Chained.unique nodesOf (holding.ports p).chained
  | thread t =>
    have holds := holding.calls t
    unfold CallHolds at holds
    unfold NodesOf at nodesOf
    dsimp only at nodesOf
    split at holds
    · rename_i call
      rw [call] at nodesOf
      rw [holds.1]
      exact nodesOf
    · rename_i call
      rw [call] at nodesOf
      rw [holds.1]
      exact nodesOf
    · rename_i notFilling notFreeing
      rw [holds]
      split at nodesOf
      · rename_i call
        exact absurd call (notFilling _ _ _)
      · rename_i call
        exact absurd call (notFreeing _ _)
      · exact nodesOf

theorem Holding.delivers (holding : Holding s lists) : Delivers s where
  safe := holding.safe
  queues := by
    intro p
    have holds := holding.ports p
    exact ⟨lists (.port p), holds.chained, holds.last, holds.count, holds.count ▸ holds.bounded⟩
  inOrder := holding.answered
  queued := by
    intro p
    have holds := holding.ports p
    have same := holds.carries.length_eq
    have within := (holding.answered p).within
    rw [length_drop] at same
    rw [holds.count]
    omega
  room := by
    intro t p message a call
    have holds := holding.calls t
    unfold CallHolds at holds
    rw [call] at holds
    exact holds.2.2.2
  once := by
    intro o nodes nodesOf
    rw [holding.nodesOf nodesOf]
    exact holding.apart.nodup o
  apart := by
    intro o o' nodes nodes' differ nodesOf nodesOf'
    rw [holding.nodesOf nodesOf, holding.nodesOf nodesOf']
    exact holding.apart.disjoint o o' differ

/-- In every state that any number of senders and receivers reach on any number of ports. -/
theorem delivers_of_reaches (maxCount : Nat → Nat) (s : State)
    (run : system.Reaches anyStep (initialState maxCount) s) : Delivers s := by
  rcases holding_of_reaches run with ⟨lists, holding⟩
  exact holding.delivers

def greeting : Message := ⟨3, 7, ⟨[1, 2, 3], by decide⟩⟩

def reply : Message := ⟨4, 8, ⟨[9], by decide⟩⟩

/-- The second sender waits for the only place of the port, and then gets the node that the
receiver of the first message has put into the cache. -/
theorem delivers_of_reaches_one_place : ∃ s, system.Reaches anyStep (initialState fun _ => 1) s ∧
    s.received 0 = [⟨3, 7, some 2, [1, 2]⟩] ∧ (s.ports 0).firstMsg = some 5 ∧ Delivers s := by
  let block : KMessagePortMessage := ⟨0, 0, 0, none, fun _ => 0, 0⟩
  have start : system.Reaches anyStep (initialState fun _ => 1) _ :=
    System.Reaches.refl.next (.send 0 0 greeting (some (5, block))) trivial rfl
  have sent := start.next (.finish 0) trivial rfl
  have waits := sent.next (.send 1 0 reply none) trivial rfl
  have got := waits.next (.receive 2 0 (some 2)) trivial rfl
  have freed := got.next (.finish 2) trivial rfl
  have again := freed.next (.wake 1 .success none) trivial rfl
  have run := again.next (.finish 1) trivial rfl
  exact ⟨_, run, rfl, rfl, delivers_of_reaches _ _ run⟩

end PadOS.Kernel.MessagePort
