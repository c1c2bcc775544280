import PadOS.Core.ErrorCode
import PadOS.Core.MergingQueue
import PadOS.Core.Transition

/-!
# The event queue of a motion device

Events are read in the order in which they were added. When the queue is full the oldest one is
dropped, but a move is first tried on the moves that are queued. What is behind a header is the
position, the touch ID and the other bytes. The addition of positions is a parameter: in the source
it is one of single-precision numbers, which rounds.
-/

namespace PadOS.UserInput

inductive PInputEventType
  | InputEvent
  | MouseEvent
  | TouchEvent
  | KeyEvent
  | DeviceEvent
  deriving DecidableEq, Repr

inductive PInputClass
  | Keyboard
  | Mouse
  | TouchScreen
  deriving DecidableEq, Repr

inductive PInputEventID
  | DeviceAdded
  | DeviceRemoved
  | KeyDown
  | KeyUp
  | MouseDown
  | MouseUp
  | MouseMove
  | MouseWheel
  | TouchDown
  | TouchUp
  | TouchMove
  deriving DecidableEq, Repr

/-- `sizeof(PInputEvent)` -/
def sizeofInputEvent : Nat := 24

/-- `sizeof(PMouseEvent)` -/
def sizeofMouseEvent : Nat := 40

/-- `sizeof(PTouchEvent)` -/
def sizeofTouchEvent : Nat := 48

def MAX_EVENT_SIZE : Nat := 4096

/-- The bytes of one event. The position is only there in a mouse or a touch event's size, the
touch ID only in that of a touch event. -/
structure EventBuffer (P : Type) where
  eventSize : Nat
  eventType : PInputEventType
  classID : PInputClass
  timestamp : Int
  eventID : PInputEventID
  sourceID : Int
  touchID : Nat
  position : P
  others : List UInt8
  deriving DecidableEq, Repr

/-- The queue, with a record of what was added to it and of what was read. -/
structure KInputMotionDeviceInode (P : Type) where
  classID : PInputClass
  maxQueuedEvents : Nat
  eventQueue : List (EventBuffer P)
  sourceIDs : List Int
  sent : List (EventBuffer P)
  delivered : List (EventBuffer P)
  deriving DecidableEq, Repr

variable {P : Type}

/-- The constructor. -/
def KInputMotionDeviceInode.create (classID : PInputClass) (maxQueuedEvents : Nat) :
    KInputMotionDeviceInode P :=
  ⟨classID, max 1 maxQueuedEvents, [], [], [], []⟩

def IsMoveEvent (eventID : PInputEventID) : Bool := eventID = .MouseMove ∨ eventID = .TouchMove

def IsMatchingMoveEvent (lhs rhs : EventBuffer P) : Bool :=
  if lhs.classID ≠ rhs.classID ∨ lhs.eventID ≠ rhs.eventID ∨ lhs.sourceID ≠ rhs.sourceID then false
  else if lhs.classID = .TouchScreen ∧ lhs.eventSize ≥ sizeofTouchEvent ∧
      rhs.eventSize ≥ sizeofTouchEvent then
    lhs.touchID = rhs.touchID
  else true

/-- `none` is an access beyond the end of a buffer. -/
def CoalesceMouseMoveEvent [Add P] (queuedEvent event : EventBuffer P) : Option (EventBuffer P) :=
  if queuedEvent.eventSize < sizeofMouseEvent ∨ event.eventSize < sizeofMouseEvent then none
  else some { queuedEvent with position := queuedEvent.position + event.position }

/-- `KInputDeviceInode::ValidateEvent` -/
def validateHeader (classID : PInputClass) (event : EventBuffer P) (availableSize : Nat) : Bool :=
  ¬(event.eventSize < sizeofInputEvent ∨ event.eventSize > MAX_EVENT_SIZE ∨
    event.eventSize > availableSize) ∧ event.classID = classID

def validateMotion (classID : PInputClass) (event : EventBuffer P) : Bool :=
  match classID with
  | .Mouse =>
    ¬(event.eventType ≠ .MouseEvent ∨ event.eventSize < sizeofMouseEvent) ∧
      (event.eventID = .MouseDown ∨ event.eventID = .MouseUp ∨ event.eventID = .MouseMove ∨
        event.eventID = .MouseWheel)
  | .TouchScreen =>
    ¬(event.eventType ≠ .TouchEvent ∨ event.eventSize < sizeofTouchEvent) ∧
      (event.eventID = .TouchDown ∨ event.eventID = .TouchUp ∨ event.eventID = .TouchMove)
  | .Keyboard => false

/-- Whether `ValidateEvent` lets an event pass. -/
def ValidateEvent (classID : PInputClass) (event : EventBuffer P) (availableSize : Nat) : Bool :=
  validateHeader classID event availableSize ∧
    (event.eventType = .DeviceEvent ∨ validateMotion classID event)

/-- What the first queued event that matches becomes, in its place; `none` when there is none. -/
def coalesce [Add P] (event : EventBuffer P) :
    List (EventBuffer P) → Option (Option (List (EventBuffer P)))
  | [] => none
  | queued :: rest =>
    if IsMatchingMoveEvent queued event then
      if event.classID = .Mouse ∧ event.eventID = .MouseMove then
        some ((CoalesceMouseMoveEvent queued event).map (· :: rest))
      else some (some (event :: rest))
    else (coalesce event rest).map fun others => others.map (queued :: ·)

namespace KInputMotionDeviceInode

variable (inode : KInputMotionDeviceInode P)

variable (event : EventBuffer P)

/-- `KInputDeviceInode::QueueEvent_pl` -/
def queueDropping :
    List (EventBuffer P) :=
  (if inode.eventQueue.length ≥ inode.maxQueuedEvents then inode.eventQueue.tail
    else inode.eventQueue) ++ [event]

/-- `none` is an access beyond the end of a buffer. -/
def QueueEvent_pl [Add P] :
    Option (List (EventBuffer P)) :=
  if inode.eventQueue.length ≥ inode.maxQueuedEvents ∧ IsMoveEvent event.eventID then
    match coalesce event inode.eventQueue with
    | some coalesced => coalesced
    | none => some (inode.queueDropping event)
  else some (inode.queueDropping event)

def takeEvent [Add P] :
    Option (KInputMotionDeviceInode P) :=
  (inode.QueueEvent_pl event).map fun queue =>
    { inode with eventQueue := queue, sent := inode.sent ++ [event] }

/-- An event that is not valid is refused and changes nothing. -/
def AddEvent [Add P] :
    Option (KInputMotionDeviceInode P) :=
  if ValidateEvent inode.classID event event.eventSize then inode.takeEvent event else some inode

/-- The event that tells of a source. -/
def deviceEvent [Zero P] (eventID : PInputEventID)
    (sourceID timestamp : Int) : EventBuffer P :=
  ⟨sizeofInputEvent, .DeviceEvent, inode.classID, timestamp, eventID, sourceID, 0, 0, []⟩

/-- A source that is there already is refused. -/
def AddSource [Add P] [Zero P] (sourceID timestamp : Int) :
    Option (KInputMotionDeviceInode P) :=
  if sourceID ∈ inode.sourceIDs then some inode
  else { inode with sourceIDs := inode.sourceIDs ++ [sourceID] }.takeEvent
    (inode.deviceEvent .DeviceAdded sourceID timestamp)

def RemoveSource [Add P] [Zero P] (sourceID timestamp : Int) :
    Option (KInputMotionDeviceInode P) :=
  if sourceID ∈ inode.sourceIDs then
    { inode with sourceIDs := inode.sourceIDs.erase sourceID }.takeEvent
      (inode.deviceEvent .DeviceRemoved sourceID timestamp)
  else some inode

/-- A reader of an empty queue waits or is sent away; a buffer that is too short is refused. -/
def Read (length : Nat) : KInputMotionDeviceInode P :=
  if length = 0 then inode
  else
    match inode.eventQueue with
    | [] => inode
    | event :: rest =>
      if length < event.eventSize then inode
      else { inode with eventQueue := rest, delivered := inode.delivered ++ [event] }

end KInputMotionDeviceInode

inductive Op (P : Type)
  | AddEvent (event : EventBuffer P)
  | AddSource (sourceID timestamp : Int)
  | RemoveSource (sourceID timestamp : Int)
  | Read (length : Nat)
  deriving DecidableEq, Repr

open Transition KInputMotionDeviceInode

def motionSystem (P : Type) [Add P] [Zero P] :
    System (KInputMotionDeviceInode P) (Op P) where
  step inode
    | .AddEvent event => inode.AddEvent event
    | .AddSource sourceID timestamp => inode.AddSource sourceID timestamp
    | .RemoveSource sourceID timestamp => inode.RemoveSource sourceID timestamp
    | .Read length => some (inode.Read length)

end PadOS.UserInput
