import PadOS.Core.ErrorCode
import PadOS.Core.LinkedCells
import PadOS.Core.Transition
import Mathlib.Algebra.Group.Nat.Defs

/-! # Message ports

All ports with the message nodes on the heap and the list of cached nodes that the ports
share. A call holds its port's mutex from the point where the port lets it through to its end,
and while it waits it does not. Calls on different ports overlap: they meet in `alloc_message`
and `free_message`, which close interrupts.
-/

namespace PadOS.Kernel.MessagePort

open Transition Function

/-! ## Message nodes -/

/-- `payload` is the memory behind the header, of which `capacity` bytes are allocated. -/
structure KMessagePortMessage where
  targetHandler : Int
  code : Int
  length : Nat
  next : Option Nat
  payload : Nat → UInt8
  capacity : Nat

def maxCachedMessageSize : Nat := 64

def maxCachedMessageCount : Nat := 100

def sizeofMessage : Nat := 16

/-- `size_t` arithmetic. -/
def sizeT (n : Nat) : Nat := n % 2 ^ 32

/-- The bytes of a send. They lie in memory, next to other things, so their number and a
header make no number beyond the address space. -/
structure Payload where
  bytes : List UInt8
  addressable : sizeofMessage + bytes.length < 2 ^ 32

abbrev Heap := Nat → Option KMessagePortMessage

/-- The heap and `gk_FirstCachedMessage`, `gk_CachedMessageCount`. -/
structure Memory where
  heap : Heap
  firstCached : Option Nat := none
  cachedCount : Nat := 0

/-- What `malloc` answers: no block, or a free one with what happens to be in it. -/
abbrev Malloc := Option (Nat × KMessagePortMessage)

inductive Allocation
  | node (a : Nat) (m : Memory)
  | outOfMemory
  /-- A pointer that is null, or of a block that is not allocated, is followed. -/
  | faults

namespace Memory

def set (m : Memory) (a : Nat) (msg : KMessagePortMessage) : Memory :=
  { m with heap := update m.heap a (some msg) }

def free (m : Memory) (a : Nat) : Memory := { m with heap := update m.heap a none }

/-- `malloc(sizeof(KMessagePortMessage) + std::max(MAX_CACHED_MESSAGE_SIZE, size))` -/
def mallocMessage (m : Memory) (size : Nat) : Malloc → Allocation
  | none => .outOfMemory
  | some (a, garbage) => .node a (m.set a { garbage with
      capacity := sizeT (sizeofMessage + max maxCachedMessageSize size) - sizeofMessage
      length := size })

def allocMessage (m : Memory) (size : Nat) (malloc : Malloc) : Allocation :=
  if size ≤ maxCachedMessageSize ∧ m.cachedCount > 0 then
    match m.firstCached with
    | none => .faults
    | some a =>
      match m.heap a with
      | none => .faults
      | some msg =>
        .node a { m.set a { msg with length := size } with
          firstCached := msg.next, cachedCount := m.cachedCount - 1 }
  else m.mallocMessage size malloc

/-- `none` where the node is not allocated. -/
def freeMessage (m : Memory) (a : Nat) : Option Memory :=
  match m.heap a with
  | none => none
  | some msg =>
    if msg.length ≤ maxCachedMessageSize ∧ m.cachedCount < maxCachedMessageCount then
      some { m.set a { msg with next := m.firstCached } with
        firstCached := some a, cachedCount := m.cachedCount + 1 }
    else some (m.free a)

end Memory

/-! ## Ports and calls -/

structure KMessagePort where
  maxCount : Nat
  messageCount : Nat := 0
  firstMsg : Option Nat := none
  lastMsg : Option Nat := none
  /-- The thread that holds `m_Mutex`. -/
  owner : Option Nat := none

structure Message where
  targetHandler : Int
  code : Int
  data : Payload

/-- What a receiver gets; without a buffer, no bytes. -/
structure Received where
  targetHandler : Int
  code : Int
  bufferSize : Option Nat
  bytes : List UInt8

inductive Call
  /-- Waits for a free place in the port. -/
  | sending (port : Nat) (message : Message)
  /-- Has let go of the interrupts with a node and will fill it and queue it. -/
  | filling (port : Nat) (message : Message) (node : Nat)
  /-- Waits for a message. -/
  | receiving (port : Nat) (bufferSize : Option Nat)
  /-- Has taken a node from the queue, copied what is in it, and will free it. -/
  | freeing (port : Nat) (node : Nat)

/-- `faulted` says that a call has followed a pointer to no block, or has copied beyond the end
of one. `sent` and `received` are history: for each port the sends that succeed, in the order in
which they queue their messages, and the receives. -/
structure State where
  memory : Memory
  ports : Nat → KMessagePort
  calls : Nat → Option Call := fun _ => none
  faulted : Bool := false
  sent : Nat → List Message := fun _ => []
  received : Nat → List Received := fun _ => []

namespace State

variable (s : State)

def setPort (port : Nat) (p : KMessagePort) : State :=
  { s with ports := update s.ports port p }

def setCall (thread : Nat) (call : Option Call) : State :=
  { s with calls := update s.calls thread call }

def lock (port thread : Nat) : State :=
  s.setPort port { s.ports port with owner := some thread }

def unlock (port : Nat) : State := s.setPort port { s.ports port with owner := none }

/-- `SendMessageDeadline` from the head of the loop to the node. -/
def sendLoop (thread port : Nat) (message : Message) (malloc : Malloc) : State :=
  if (s.ports port).messageCount ≥ (s.ports port).maxCount then
    s.setCall thread (some (.sending port message))
  else
    match s.memory.allocMessage message.data.bytes.length malloc with
    | .faults => { s with faulted := true }
    | .outOfMemory => s.setCall thread none
    | .node a memory =>
      ({ s with memory := memory }.lock port thread).setCall thread (some (.filling port message a))

/-- The node as a send fills it. -/
def filled (msg : KMessagePortMessage) (message : Message) : KMessagePortMessage :=
  { msg with
    targetHandler := message.targetHandler
    code := message.code
    length := message.data.bytes.length
    payload := fun i => message.data.bytes.getD i (msg.payload i)
    next := none }

/-- The end of `SendMessageDeadline`, once the node is linked. -/
def queued (thread port : Nat) (message : Message) (a : Nat) (memory : Memory)
    (firstMsg : Option Nat) : State :=
  let p := { s.ports port with
    firstMsg := firstMsg
    lastMsg := some a
    messageCount := (s.ports port).messageCount + 1
    owner := none }
  let s := { s with
    memory := memory
    sent := update s.sent port (s.sent port ++ [message]) }
  (s.setPort port p).setCall thread none

/-- The rest of `SendMessageDeadline`: the node is filled and becomes the last one. -/
def enqueue (thread port : Nat) (message : Message) (a : Nat) : State :=
  match s.memory.heap a with
  | none => { s with faulted := true }
  | some msg =>
    if message.data.bytes.length > msg.capacity then { s with faulted := true }
    else
      let memory := s.memory.set a (filled msg message)
      match (s.ports port).lastMsg with
      | none => s.queued thread port message a memory (some a)
      | some last =>
        match memory.heap last with
        | none => { s with faulted := true }
        | some lastMsg =>
          s.queued thread port message a (memory.set last { lastMsg with next := some a })
            (s.ports port).firstMsg

/-- `DetachMessage_trw` up to the call of `free_message`. -/
def detachMessage (thread port : Nat) (bufferSize : Option Nat) : State :=
  match (s.ports port).firstMsg with
  | none => { s with faulted := true }
  | some a =>
    match s.memory.heap a with
    | none => { s with faulted := true }
    | some msg =>
      if min (bufferSize.getD 0) msg.length > msg.capacity then { s with faulted := true }
      else
        let bytes := (List.range (min (bufferSize.getD 0) msg.length)).map msg.payload
        let got : Received := ⟨msg.targetHandler, msg.code, bufferSize, bytes⟩
        let p := { s.ports port with
          firstMsg := msg.next
          lastMsg := if msg.next = none then none else (s.ports port).lastMsg
          messageCount := (s.ports port).messageCount - 1
          owner := some thread }
        let s := { s with received := update s.received port (s.received port ++ [got]) }
        (s.setPort port p).setCall thread (some (.freeing port a))

/-- `ReceiveMessage_trw` and `ReceiveMessageDeadline_trw` from the head of the loop. -/
def receiveLoop (thread port : Nat) (bufferSize : Option Nat) : State :=
  if (s.ports port).messageCount = 0 then s.setCall thread (some (.receiving port bufferSize))
  else s.detachMessage thread port bufferSize

def dispose (thread port a : Nat) : State :=
  match s.memory.freeMessage a with
  | none => { s with faulted := true }
  | some memory => ({ s with memory := memory }.unlock port).setCall thread none

end State

/-- A block that `malloc` hands out is not in use. -/
def Malloc.isFree (malloc : Malloc) (heap : Heap) : Bool :=
  match malloc with
  | none => true
  | some (a, _) => (heap a).isNone

inductive Op
  | send (thread port : Nat) (message : Message) (malloc : Malloc)
  | receive (thread port : Nat) (bufferSize : Option Nat)
  /-- A wait is over with a result, and the mutex is locked again. -/
  | wake (thread : Nat) (result : PErrorCode) (malloc : Malloc)
  /-- The second part of a call that holds a node. -/
  | finish (thread : Nat)

/-- A waiting call goes round its loop after a wakeup or a signal; else it returns the result. -/
def goesOn (result : PErrorCode) : Bool := result = .success ∨ result = .intr

def step (s : State) : Op → Option State
  | .send thread port message malloc =>
    if (s.calls thread).isNone ∧ (s.ports port).owner.isNone ∧ malloc.isFree s.memory.heap then
      some (s.sendLoop thread port message malloc)
    else none
  | .receive thread port bufferSize =>
    if (s.calls thread).isNone ∧ (s.ports port).owner.isNone then
      some (s.receiveLoop thread port bufferSize)
    else none
  | .wake thread result malloc =>
    match s.calls thread with
    | some (.sending port message) =>
      if (s.ports port).owner.isNone ∧ malloc.isFree s.memory.heap then
        some (if goesOn result then s.sendLoop thread port message malloc else s.setCall thread none)
      else none
    | some (.receiving port bufferSize) =>
      if (s.ports port).owner.isNone then
        some (if goesOn result then s.receiveLoop thread port bufferSize else s.setCall thread none)
      else none
    | _ => none
  | .finish thread =>
    match s.calls thread with
    | some (.filling port message a) => some (s.enqueue thread port message a)
    | some (.freeing port a) => some (s.dispose thread port a)
    | _ => none

def system : System State Op := ⟨step⟩

/-- Ports of any capacities, before the first call. -/
def initialState (maxCount : Nat → Nat) : State where
  memory := { heap := fun _ => none }
  ports := fun port => { maxCount := maxCount port }

end PadOS.Kernel.MessagePort
