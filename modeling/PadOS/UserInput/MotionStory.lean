import PadOS.UserInput.InputDeviceInode
import Mathlib.Algebra.Ring.Int.Defs

/-!
# The story of each pointer

As long as no other event of a pointer stands behind the move that a new move is merged into, every
event that was sent has gone into an entry of which the reader gets the outcome, in order. What a
position is worth is its value, in which movement is counted; the addition of positions may round,
and a run is only followed as long as it does not.
-/

namespace PadOS.UserInput

open Transition MergingQueue KInputMotionDeviceInode List Option

variable {P V : Type}

/-- A move of a mouse or of a touch. -/
def isPointerMove (event : EventBuffer P) : Bool :=
  event.eventType ≠ .DeviceEvent ∧ IsMoveEvent event.eventID

/-- Both are moves of the same pointer. -/
def Joins (first event : EventBuffer P) : Prop :=
  (isPointerMove first ∧ isPointerMove event) ∧ first.classID = event.classID ∧
    first.eventID = event.eventID ∧ first.sourceID = event.sourceID ∧
    (first.classID = .TouchScreen → first.touchID = event.touchID)

/-- An event of the same source that is not a move; not one of another touch. -/
def Interrupts (first event : EventBuffer P) : Prop :=
  event.sourceID = first.sourceID ∧ isPointerMove event = false ∧
    ¬(first.classID = .TouchScreen ∧ event.eventType = .TouchEvent ∧ event.touchID ≠ first.touchID)

instance (first event : EventBuffer P) : Decidable (Joins first event) :=
  inferInstanceAs (Decidable (_ ∧ _))

instance (first event : EventBuffer P) : Decidable (Interrupts first event) :=
  inferInstanceAs (Decidable (_ ∧ _))

/-- A mouse move is added to the one that is queued, other moves take its place. -/
def mergeMove [Add P] (queued event : EventBuffer P) : EventBuffer P :=
  if event.classID = .Mouse ∧ event.eventID = .MouseMove then
    { queued with position := queued.position + event.position }
  else event

def moveRules (P : Type) [Add P] : Rules (EventBuffer P) where
  merge := mergeMove
  joins := Joins
  interrupts := Interrupts
  not_interrupts joins interrupts := by
    have still := interrupts.2.1
    rw [joins.1.2] at still
    cases still

/-- The queued event that a new one is merged into, and what stands behind it. -/
def fromMatching (event : EventBuffer P) (queue : List (EventBuffer P)) : List (EventBuffer P) :=
  queue.dropWhile fun queued => ¬IsMatchingMoveEvent queued event

/-- The sum of the two positions is not rounded. -/
def AddsExactly [Add P] [Add V] (value : P → V) (queued event : EventBuffer P) : Prop :=
  event.classID = .Mouse → event.eventID = .MouseMove →
    value (queued.position + event.position) = value queued.position + value event.position

instance [Add P] [Add V] [DecidableEq V] (value : P → V) (queued event : EventBuffer P) :
    Decidable (AddsExactly value queued event) := inferInstanceAs (Decidable (_ → _ → _))

/-- A move that is added to a full queue may be merged: it and what it is merged into are moves of a
pointer, nothing behind that interrupts, and the positions of a mouse are added without rounding. -/
def MayMerge [Add P] [Add V] (value : P → V) (event : EventBuffer P) :
    List (EventBuffer P) → Prop
  | [] => True
  | queued :: behind =>
    (isPointerMove queued ∧ isPointerMove event) ∧ (∀ other ∈ behind, ¬Interrupts queued other) ∧
      AddsExactly value queued event

instance [Add P] [Add V] [DecidableEq V] (value : P → V) (event : EventBuffer P)
    (matching : List (EventBuffer P)) : Decidable (MayMerge value event matching) := by
  cases matching
  · exact isTrue trivial
  · exact inferInstanceAs (Decidable (_ ∧ _))

def Undisturbed [Add P] [Add V] (value : P → V) : Condition (KInputMotionDeviceInode P) (Op P)
  | inode, .AddEvent event =>
    inode.eventQueue.length ≥ inode.maxQueuedEvents → IsMoveEvent event.eventID →
      ValidateEvent inode.classID event event.eventSize →
      MayMerge value event (fromMatching event inode.eventQueue)
  | _, _ => True

/-- What has been done with the entries behind which nothing is queued any more. -/
inductive Fate
  | delivered
  | dropped
  deriving DecidableEq, Repr

/-- The entries that left the queue, and those that are in it, account for everything sent. An entry
is dropped only when as many as the queue holds have been added after it. -/
structure Tells [Add P] (inode : KInputMotionDeviceInode P)
    (done : List (Fate × Entry (EventBuffer P))) (queued : List (Entry (EventBuffer P))) :
    Prop where
  account : (moveRules P).Account inode.sent (done.map Prod.snd ++ queued)
  delivered : (done.filter fun entry => entry.1 = .delivered).map
    (fun entry => entry.2.event mergeMove) = inode.delivered
  queue : queued.map (Entry.event mergeMove) = inode.eventQueue
  dropped : ∀ before g behind, done = before ++ (.dropped, g) :: behind →
    inode.maxQueuedEvents ≤ behind.length + queued.length

/-! ## Valid events -/

/-- What `ValidateEvent` makes sure of. -/
structure Sized (classID : PInputClass) (event : EventBuffer P) : Prop where
  ofClass : event.classID = classID
  mouse : isPointerMove event → classID = .Mouse →
    event.eventID = .MouseMove ∧ sizeofMouseEvent ≤ event.eventSize
  touch : isPointerMove event → classID = .TouchScreen →
    event.eventID = .TouchMove ∧ sizeofTouchEvent ≤ event.eventSize
  motion : isPointerMove event → classID ≠ .Keyboard

variable {classID : PInputClass} {event queued first : EventBuffer P}

theorem sized_of_validate {size : Nat} (valid : ValidateEvent classID event size) :
    Sized classID event := by
  simp only [ValidateEvent, validateHeader, decide_eq_true_eq] at valid
  rcases valid with ⟨⟨-, ofClass⟩, passed⟩
  refine ⟨ofClass, ?_, ?_, ?_⟩
  all_goals
    rintro moves rfl
    simp only [isPointerMove, IsMoveEvent, decide_eq_true_eq, validateMotion] at moves passed
    grind

theorem joins_of_matching (queuedSized : Sized classID queued) (sized : Sized classID event)
    (moves : isPointerMove queued ∧ isPointerMove event)
    (matching : IsMatchingMoveEvent queued event) : Joins queued event := by
  unfold IsMatchingMoveEvent at matching
  split at matching
  · cases matching
  · rename_i same
    rw [not_or, not_or, not_not, not_not, not_not] at same
    refine ⟨moves, same.1, same.2.1, same.2.2, ?_⟩
    intro isTouch
    have ofClass := queuedSized.ofClass.symm.trans isTouch
    have long := (queuedSized.touch moves.1 ofClass).2
    have long' := (sized.touch moves.2 ofClass).2
    rw [if_pos ⟨isTouch, long, long'⟩] at matching
    simpa using matching

theorem Joins.trans {last : EventBuffer P} (one : Joins first queued) (other : Joins queued last) :
    Joins first last := by
  refine ⟨⟨one.1.1, other.1.2⟩, one.2.1.trans other.2.1, one.2.2.1.trans other.2.2.1,
    one.2.2.2.1.trans other.2.2.2.1, ?_⟩
  intro isTouch
  exact (one.2.2.2.2 isTouch).trans (other.2.2.2.2 (one.2.1.symm.trans isTouch))

theorem Joins.interrupts_iff {other : EventBuffer P} (joins : Joins first queued) :
    Interrupts first other ↔ Interrupts queued other := by
  unfold Interrupts
  rw [joins.2.2.2.1, joins.2.1]
  by_cases isTouch : queued.classID = .TouchScreen
  · rw [joins.2.2.2.2 (joins.2.1.trans isTouch)]
  · simp [isTouch]

theorem joins_mergeMove [Add P] (same : first = queued ∨ Joins first queued)
    (joins : Joins first event) : Joins first (mergeMove queued event) := by
  unfold mergeMove
  split
  · rcases same with rfl | same
    · exact ⟨⟨joins.1.1, joins.1.1⟩, rfl, rfl, rfl, fun _ => rfl⟩
    · exact same
  · exact joins

theorem Sized.mergeMove [Add P] (queuedSized : Sized classID queued) (sized : Sized classID event) :
    Sized classID (mergeMove queued event) := by
  unfold UserInput.mergeMove
  split
  · exact ⟨queuedSized.ofClass, queuedSized.mouse, queuedSized.touch, queuedSized.motion⟩
  · exact sized

/-! ## Entries -/

variable [Add P] {inode inode' : KInputMotionDeviceInode P} {g : Entry (EventBuffer P)}
  {done : List (Fate × Entry (EventBuffer P))} {entries : List (Entry (EventBuffer P))}
  {queue : List (EventBuffer P)}

theorem event_same (joined : ∀ x ∈ g.others, Joins g.first.1 x.1) :
    g.first.1 = g.event mergeMove ∨ Joins g.first.1 (g.event mergeMove) := by
  have fold : ∀ (others : List (EventBuffer P × Nat)) (acc : EventBuffer P),
      (∀ x ∈ others, Joins g.first.1 x.1) → (g.first.1 = acc ∨ Joins g.first.1 acc) →
      g.first.1 = others.foldl (fun e x => mergeMove e x.1) acc ∨
        Joins g.first.1 (others.foldl (fun e x => mergeMove e x.1) acc) := by
    intro others
    induction others with
    | nil => exact fun _ _ same => same
    | cons x rest ih =>
      intro acc joined same
      have joins := joined x (mem_cons_self ..)
      exact ih _ (fun y isOne => joined y (mem_cons_of_mem _ isOne))
        (.inr (joins_mergeMove same joins))
  exact fold g.others g.first.1 joined (.inl rfl)

theorem event_sized (sized : ∀ x ∈ g.members, Sized classID x.1) :
    Sized classID (g.event mergeMove) := by
  have fold : ∀ (others : List (EventBuffer P × Nat)) (acc : EventBuffer P),
      (∀ x ∈ others, Sized classID x.1) → Sized classID acc →
      Sized classID (others.foldl (fun e x => mergeMove e x.1) acc) := by
    intro others
    induction others with
    | nil => exact fun _ _ sized => sized
    | cons x rest ih =>
      intro acc all sized
      exact ih _ (fun y isOne => all y (mem_cons_of_mem _ isOne))
        (sized.mergeMove (all x (mem_cons_self ..)))
  exact fold g.others g.first.1 (fun x isOne => sized x (mem_cons_of_mem _ isOne))
    (sized _ (mem_cons_self ..))

theorem first_not_interrupts {h : Entry (EventBuffer P)}
    (joined : ∀ x ∈ h.others, Joins h.first.1 x.1)
    (clear : ¬Interrupts first (h.event mergeMove)) : ¬Interrupts first h.first.1 := by
  intro interrupts
  cases others : h.others with
  | nil =>
    have same : h.event mergeMove = h.first.1 := by rw [Entry.event, others, foldl_nil]
    rw [same] at clear
    exact clear interrupts
  | cons x rest =>
    have joins := joined x (by simp [others])
    have still := interrupts.2.1
    rw [joins.1.1] at still
    cases still

/-! ## Values -/

variable [AddCommMonoid V] {value : P → V}

/-- A mouse entry has become the sum of its moves. -/
def Exact (value : P → V) (g : Entry (EventBuffer P)) : Prop :=
  g.first.1.classID = .Mouse → g.first.1.eventID = .MouseMove →
    value (g.event mergeMove).position = (g.members.map fun x => value x.1.position).sum

theorem exact_single (e : EventBuffer P × Nat) : Exact value ⟨e, []⟩ := by
  intro _ _
  simp [Entry.event, Entry.members]

theorem Exact.join {place : Nat} (exact' : Exact value g) (joins : Joins g.first.1 event)
    (adds : AddsExactly value (g.event mergeMove) event) : Exact value (g.join (event, place)) := by
  intro isMouse isMove
  have isMouse' : event.classID = .Mouse := joins.2.1.symm.trans isMouse
  have isMove' : event.eventID = .MouseMove := joins.2.2.1.symm.trans isMove
  rw [Entry.event_join, mergeMove, if_pos ⟨isMouse', isMove'⟩, Entry.members_join, map_append,
    sum_append, ← exact' isMouse isMove]
  simpa using adds isMouse' isMove'

/-! ## Coalescing -/

omit [AddCommMonoid V] in
theorem coalesce_cases [Add V] {value : P → V} (sized : Sized classID event) (allSized : ∀ e ∈ queue, Sized classID e)
    (may : MayMerge value event (fromMatching event queue)) :
    coalesce event queue = none ∨
    ∃ front queued behind, queue = front ++ queued :: behind ∧ Joins queued event ∧
      (∀ other ∈ behind, ¬Interrupts queued other) ∧ AddsExactly value queued event ∧
      coalesce event queue = some (some (front ++ mergeMove queued event :: behind)) := by
  induction queue with
  | nil => exact .inl rfl
  | cons queued rest ih =>
    by_cases matching : IsMatchingMoveEvent queued event = true
    · have queuedSized := allSized queued (mem_cons_self ..)
      have here : fromMatching event (queued :: rest) = queued :: rest := by
        simp [fromMatching, matching]
      rw [here] at may
      rcases may with ⟨moves, clear, adds⟩
      have joins := joins_of_matching queuedSized sized moves matching
      refine .inr ⟨[], queued, rest, rfl, joins, clear, adds, ?_⟩
      rw [coalesce, if_pos matching, mergeMove]
      split
      · rename_i isMouse
        have ofMouse := sized.ofClass.symm.trans isMouse.1
        have long := (queuedSized.mouse moves.1 ofMouse).2
        have long' := (sized.mouse moves.2 ofMouse).2
        have inside : ¬(queued.eventSize < sizeofMouseEvent ∨
            event.eventSize < sizeofMouseEvent) := by omega
        rw [CoalesceMouseMoveEvent, if_neg inside]
        rfl
      · rfl
    · have skips : fromMatching event (queued :: rest) = fromMatching event rest := by
        simp [fromMatching, matching]
      rw [skips] at may
      have later := ih (fun e isOne => allSized e (mem_cons_of_mem _ isOne)) may
      rcases later with none | ⟨front, found, behind, parts, joins, clear, adds, result⟩
      · left
        rw [coalesce, if_neg matching, none]
        rfl
      · refine .inr ⟨queued :: front, found, behind, by rw [parts]; rfl, joins, clear, adds, ?_⟩
        rw [coalesce, if_neg matching, result]
        rfl

/-! ## Runs -/

structure Inv (value : P → V) (inode : KInputMotionDeviceInode P) : Prop where
  positive : 1 ≤ inode.maxQueuedEvents
  bounded : inode.eventQueue.length ≤ inode.maxQueuedEvents
  sized : ∀ e ∈ inode.sent, Sized inode.classID e
  tells : ∃ done queued, Tells inode done queued ∧
    ∀ g ∈ done.map Prod.snd ++ queued, Exact value g

section

variable (tells : Tells inode done entries)

include tells

theorem Tells.members_sized
    (sized : ∀ e ∈ inode.sent, Sized inode.classID e) (isEntry : g ∈ entries) :
    ∀ x ∈ g.members, Sized inode.classID x.1 := by
  intro x isMember
  have isSent := tells.account.placed (mem_append_right _ isEntry) isMember
  exact sized _ (mem_of_getElem? isSent)

theorem Tells.joined (isEntry : g ∈ entries) :
    ∀ x ∈ g.others, Joins g.first.1 x.1 := fun x isOther =>
  (tells.account.joined g (mem_append_right _ isEntry) x isOther).1

theorem Tells.queue_sized
    (sized : ∀ e ∈ inode.sent, Sized inode.classID e) :
    ∀ e ∈ inode.eventQueue, Sized inode.classID e := by
  intro e isQueued
  rw [← tells.queue] at isQueued
  rcases mem_map.mp isQueued with ⟨g, isEntry, rfl⟩
  exact event_sized (tells.members_sized sized isEntry)

end

/-- What `takeEvent` leaves as it is. -/
def taken (inode : KInputMotionDeviceInode P) (event : EventBuffer P)
    (queue : List (EventBuffer P)) : KInputMotionDeviceInode P :=
  { inode with eventQueue := queue, sent := inode.sent ++ [event] }

theorem Tells.push (tells : Tells inode done entries) (event : EventBuffer P) :
    Tells (taken inode event (inode.eventQueue ++ [event])) done
      (entries ++ [⟨(event, inode.sent.length), []⟩]) := by
  refine ⟨?_, tells.delivered, ?_, ?_⟩
  · rw [← append_assoc]
    exact tells.account.append event
  · rw [map_append, tells.queue]
    rfl
  · intro before g behind parts
    have enough := tells.dropped before g behind parts
    rw [length_append, length_singleton]
    show inode.maxQueuedEvents ≤ _
    omega

theorem Tells.drop (tells : Tells inode done (g :: entries))
    (full : inode.maxQueuedEvents ≤ inode.eventQueue.length) (event : EventBuffer P) :
    Tells (taken inode event (inode.eventQueue.tail ++ [event])) (done ++ [(.dropped, g)])
      (entries ++ [⟨(event, inode.sent.length), []⟩]) := by
  have queue := tells.queue
  rw [map_cons] at queue
  refine ⟨?_, ?_, ?_, ?_⟩
  · have account := tells.account.append event
    show (moveRules P).Account (inode.sent ++ [event]) _
    simpa using account
  · rw [filter_append, map_append, tells.delivered]
    simp [taken]
  · rw [map_append, ← queue]
    rfl
  · have long := congrArg List.length queue
    rw [length_cons, length_map] at long
    intro before h behind parts
    rw [length_append, length_singleton]
    show inode.maxQueuedEvents ≤ _
    rcases append_eq_append_iff.mp parts with ⟨more, _, tailParts⟩ | ⟨more, doneParts, tailParts⟩
    · cases more with
      | nil =>
        simp only [nil_append, cons.injEq] at tailParts
        omega
      | cons first more => simp at tailParts
    · cases more with
      | nil =>
        simp only [nil_append, cons.injEq] at tailParts
        omega
      | cons first more =>
        simp only [cons_append, cons.injEq] at tailParts
        rcases tailParts with ⟨rfl, rfl⟩
        have enough := tells.dropped before h more doneParts
        rw [length_cons] at enough
        rw [length_append, length_singleton]
        omega

theorem Tells.merge {front behind : List (EventBuffer P)} (tells : Tells inode done entries)
    (parts : inode.eventQueue = front ++ queued :: behind) (joins : Joins queued event)
    (clear : ∀ other ∈ behind, ¬Interrupts queued other) :
    ∃ before g after, entries = before ++ g :: after ∧ g.event mergeMove = queued ∧
      Joins g.first.1 event ∧
      Tells (taken inode event (front ++ mergeMove queued event :: behind)) done
        (before ++ g.join (event, inode.sent.length) :: after) := by
  have queue := tells.queue
  rw [parts] at queue
  rcases map_eq_append_iff.mp queue with ⟨before, rest, rfl, isFront, isRest⟩
  rcases map_eq_cons_iff.mp isRest with ⟨g, after, rfl, rfl, rfl⟩
  have same := event_same (tells.joined (g := g) (by simp))
  have firstJoins : Joins g.first.1 event := by
    rcases same with same | same
    · rw [same]
      exact joins
    · exact same.trans joins
  refine ⟨before, g, after, rfl, rfl, firstJoins, ?_, tells.delivered, ?_, ?_⟩
  · have account := tells.account
    rw [← append_assoc] at account ⊢
    refine account.merge firstJoins fun h isBehind => ?_
    have apart := clear _ (mem_map_of_mem isBehind)
    refine first_not_interrupts (tells.joined (g := h) (by simp [isBehind])) ?_
    rcases same with same | same
    · rw [same]
      exact apart
    · exact mt same.interrupts_iff.mp apart
  · rw [map_append, map_cons, Entry.event_join, isFront]
    rfl
  · intro others h later isDone
    have enough := tells.dropped others h later isDone
    show inode.maxQueuedEvents ≤ _
    simpa using enough

theorem Inv.takeEvent (inv : Inv value inode) (sized : Sized inode.classID event)
    (may : inode.eventQueue.length ≥ inode.maxQueuedEvents → IsMoveEvent event.eventID →
      MayMerge value event (fromMatching event inode.eventQueue)) :
    ∃ next, inode.takeEvent event = some next ∧ Inv value next := by
  rcases inv.tells with ⟨done, entries, tells, exacts⟩
  have allSized : ∀ e ∈ inode.sent ++ [event], Sized inode.classID e := by
    intro e isSent
    rcases mem_append.mp isSent with isSent | isNew
    · exact inv.sized e isSent
    · rw [mem_singleton.mp isNew]
      exact sized
  have dropping : ∃ next, some (taken inode event (inode.queueDropping event)) = some next ∧
      Inv value next := by
    refine ⟨_, rfl, inv.positive, ?_, allSized, ?_⟩
    · have positive := inv.positive
      show (inode.queueDropping event).length ≤ inode.maxQueuedEvents
      unfold queueDropping
      split
      · rw [length_append, length_tail, length_singleton]
        have bounded := inv.bounded
        omega
      · rw [length_append, length_singleton]
        omega
    · unfold queueDropping
      split
      · rename_i full
        cases isEntries : entries with
        | nil =>
          have empty := tells.queue
          rw [isEntries, map_nil] at empty
          have positive := inv.positive
          rw [← empty, length_nil] at full
          omega
        | cons g rest =>
          rw [isEntries] at tells
          refine ⟨_, _, tells.drop full event, fun h isOne => ?_⟩
          rw [map_append, append_assoc, map_singleton, singleton_append] at isOne
          rcases mem_append.mp (append_assoc _ (g :: rest) _ ▸ isOne) with isOld | isNew
          · exact exacts h (isEntries ▸ isOld)
          · rw [mem_singleton.mp isNew]
            exact exact_single _
      · refine ⟨_, _, tells.push event, fun h isOne => ?_⟩
        rcases mem_append.mp (append_assoc _ _ _ ▸ isOne) with isOld | isNew
        · exact exacts h isOld
        · rw [mem_singleton.mp isNew]
          exact exact_single _
  unfold KInputMotionDeviceInode.takeEvent QueueEvent_pl
  by_cases tries : inode.eventQueue.length ≥ inode.maxQueuedEvents ∧ IsMoveEvent event.eventID = true
  · rw [if_pos tries]
    rcases coalesce_cases sized (tells.queue_sized inv.sized) (may tries.1 tries.2) with
      none | ⟨front, queued, behind, parts, joins, clear, adds, result⟩
    · rw [none]
      exact dropping
    · rw [result]
      refine ⟨_, rfl, inv.positive, ?_, allSized, ?_⟩
      · have bounded := inv.bounded
        rw [parts] at bounded
        simpa using bounded
      · rcases tells.merge parts joins clear with
          ⟨before, g, after, rfl, became, firstJoins, tells'⟩
        refine ⟨done, _, tells', fun h isOne => ?_⟩
        rw [← became] at adds
        have isEntry : g ∈ done.map Prod.snd ++ (before ++ g :: after) := by simp
        have merged : Exact value (g.join (event, inode.sent.length)) :=
          (exacts g isEntry).join firstJoins adds
        simp only [mem_append, mem_cons] at isOne exacts
        rcases isOne with isDone | inFront | rfl | isBehind
        · exact exacts h (.inl isDone)
        · exact exacts h (.inr (.inl inFront))
        · exact merged
        · exact exacts h (.inr (.inr (.inr isBehind)))
  · rw [if_neg tries]
    exact dropping

theorem Tells.deliver (tells : Tells inode done (g :: entries)) :
    Tells { inode with
        eventQueue := inode.eventQueue.tail
        delivered := inode.delivered ++ [g.event mergeMove] }
      (done ++ [(.delivered, g)]) entries := by
  have queue := tells.queue
  rw [map_cons] at queue
  refine ⟨?_, ?_, ?_, ?_⟩
  · have account := tells.account
    show (moveRules P).Account inode.sent _
    simpa using account
  · rw [filter_append, map_append, tells.delivered]
    simp
  · rw [← queue]
    rfl
  · intro before h behind parts
    show inode.maxQueuedEvents ≤ _
    rcases append_eq_append_iff.mp parts with ⟨more, _, tailParts⟩ | ⟨more, doneParts, tailParts⟩
    · cases more with
      | nil => simp at tailParts
      | cons first more => simp at tailParts
    · cases more with
      | nil => simp at tailParts
      | cons first more =>
        simp only [cons_append, cons.injEq] at tailParts
        rcases tailParts with ⟨rfl, rfl⟩
        have enough := tells.dropped before h more doneParts
        rw [length_cons] at enough
        rw [length_append, length_singleton]
        omega

theorem Inv.read (inv : Inv value inode) (length : Nat) : Inv value (inode.Read length) := by
  unfold Read
  split
  · exact inv
  · split
    · exact inv
    · rename_i event rest queue
      split
      · exact inv
      · rcases inv.tells with ⟨done, entries, tells, exacts⟩
        have bounded := inv.bounded
        have parts := tells.queue
        rw [queue] at bounded parts
        rcases map_eq_cons_iff.mp parts with ⟨g, others, rfl, rfl, isRest⟩
        have delivered := tells.deliver
        rw [queue, tail_cons] at delivered
        refine ⟨inv.positive, Nat.le_of_succ_le bounded, inv.sized, done ++ [(.delivered, g)], others,
          delivered, ?_⟩
        simpa using exacts

theorem Inv.sources (inv : Inv value inode) (sourceIDs : List Int) :
    Inv value { inode with sourceIDs := sourceIDs } := by
  rcases inv.tells with ⟨done, entries, tells, exacts⟩
  exact ⟨inv.positive, inv.bounded, inv.sized, done, entries,
    ⟨tells.account, tells.delivered, tells.queue, tells.dropped⟩, exacts⟩

theorem inv_create (classID : PInputClass) (maxQueuedEvents : Nat) :
    Inv value (.create classID maxQueuedEvents) :=
  ⟨Nat.le_max_left _ _, Nat.zero_le _, by simp [KInputMotionDeviceInode.create], [], [],
    ⟨.nil, rfl, rfl, by simp⟩, by simp⟩

section Steps

variable [Zero P]

omit [Add P] in
theorem deviceEvent_sized (inode : KInputMotionDeviceInode P) (eventID : PInputEventID)
    (sourceID timestamp : Int) :
    Sized inode.classID (inode.deviceEvent eventID sourceID timestamp) :=
  ⟨rfl, nofun, nofun, nofun⟩

theorem Inv.step {op : Op P} (inv : Inv value inode) (undisturbed : Undisturbed value inode op) :
    ∃ next, (motionSystem P).step inode op = some next ∧ Inv value next := by
  cases op with
  | AddEvent event =>
    show ∃ next, inode.AddEvent event = some next ∧ _
    unfold KInputMotionDeviceInode.AddEvent
    split
    · rename_i valid
      exact inv.takeEvent (sized_of_validate valid) fun full moves => undisturbed full moves valid
    · exact ⟨inode, rfl, inv⟩
  | AddSource sourceID timestamp =>
    show ∃ next, inode.AddSource sourceID timestamp = some next ∧ _
    unfold AddSource
    split
    · exact ⟨inode, rfl, inv⟩
    · exact (inv.sources _).takeEvent (deviceEvent_sized inode _ _ _) fun _ moves => nomatch moves
  | RemoveSource sourceID timestamp =>
    show ∃ next, inode.RemoveSource sourceID timestamp = some next ∧ _
    unfold RemoveSource
    split
    · exact (inv.sources _).takeEvent (deviceEvent_sized inode _ _ _) fun _ moves => nomatch moves
    · exact ⟨inode, rfl, inv⟩
  | Read length => exact ⟨_, rfl, inv.read length⟩

theorem inv_of_reaches {maxQueuedEvents : Nat}
    (run : (motionSystem P).Reaches (Undisturbed value) (.create classID maxQueuedEvents) inode) :
    Inv value inode := by
  refine run.invariant (Inv value) (inv_create _ _) ?_
  intro inode next op inv undisturbed steps
  rcases inv.step undisturbed with ⟨result, applies, after⟩
  rw [steps] at applies
  rw [some.inj applies]
  exact after

end Steps

/-! ## Relative movement -/

section Movement

variable {before between after : List (Fate × Entry (EventBuffer P))}
  {opening closing : Entry (EventBuffer P)} {source : Int}

def isMouseMove (source : Int) (event : EventBuffer P) : Bool :=
  isPointerMove event ∧ event.classID = .Mouse ∧ event.eventID = .MouseMove ∧
    event.sourceID = source

def isButton (source : Int) (event : EventBuffer P) : Bool :=
  event.eventType = .MouseEvent ∧ (event.eventID = .MouseDown ∨ event.eventID = .MouseUp) ∧
    event.sourceID = source

/-- The sum of the moves of one mouse. -/
def movement (value : P → V) (source : Int) (events : List (EventBuffer P)) : V :=
  ((events.filter (isMouseMove source)).map fun event => value event.position).sum

omit [Add P] [AddCommMonoid V] in
theorem isMouseMove_iff {first event : EventBuffer P} (joins : Joins first event) :
    isMouseMove source first ↔ isMouseMove source event := by
  unfold isMouseMove
  rw [joins.1.1, joins.1.2, joins.2.1, joins.2.2.1, joins.2.2.2.1]

omit [Add P] [AddCommMonoid V] in
theorem not_move_of_button {event : EventBuffer P} (button : isButton source event) :
    isPointerMove event = false := by
  simp only [isButton, decide_eq_true_eq] at button
  rcases button with ⟨_, isDown | isUp, _⟩
  · simp [isPointerMove, IsMoveEvent, isDown]
  · simp [isPointerMove, IsMoveEvent, isUp]

omit [Add P] [AddCommMonoid V] in
theorem interrupts_of_button {first event : EventBuffer P} (moves : isMouseMove source first)
    (button : isButton source event) : Interrupts first event := by
  have still := not_move_of_button button
  simp only [isMouseMove, isButton, decide_eq_true_eq] at moves button
  refine ⟨button.2.2.trans moves.2.2.2.symm, still, ?_⟩
  rintro ⟨isTouch, _⟩
  rw [moves.2.1] at isTouch
  cases isTouch

theorem first_button (joined : ∀ x ∈ g.others, Joins g.first.1 x.1)
    (button : isButton source (g.event mergeMove)) : isButton source g.first.1 := by
  rcases event_same joined with same | joins
  · rw [same]
    exact button
  · have still := not_move_of_button button
    rw [joins.1.2] at still
    cases still

omit [Add P] in
theorem movement_singleton (event : EventBuffer P) : movement value source [event] =
    if isMouseMove source event then value event.position else 0 := by
  unfold movement
  rw [filter_cons]
  split
  · simp
  · simp

theorem movement_entry (joined : ∀ x ∈ g.others, Joins g.first.1 x.1) (exact' : Exact value g) :
    movement value source [g.event mergeMove] =
      ((g.members.filter fun x => isMouseMove source x.1).map fun x => value x.1.position).sum := by
  have became : isMouseMove source g.first.1 ↔ isMouseMove source (g.event mergeMove) := by
    rcases event_same joined with same | joins
    · rw [← same]
    · exact isMouseMove_iff joins
  have members : ∀ x ∈ g.members, isMouseMove source g.first.1 ↔ isMouseMove source x.1 := by
    intro x isMember
    rcases mem_cons.mp isMember with rfl | isOther
    · exact Iff.rfl
    · exact isMouseMove_iff (joined x isOther)
  rw [movement_singleton]
  by_cases moves : isMouseMove source g.first.1 = true
  · have all : g.members.filter (fun x => isMouseMove source x.1) = g.members :=
      filter_eq_self.mpr fun x isMember => (members x isMember).mp moves
    rw [if_pos (became.mp moves), all]
    simp only [isMouseMove, decide_eq_true_eq] at moves
    exact exact' moves.2.1 moves.2.2.1
  · have none : g.members.filter (fun x => isMouseMove source x.1) = [] :=
      filter_eq_nil_iff.mpr fun x isMember => mt (members x isMember).mpr moves
    rw [if_neg (mt became.mpr moves), none, map_nil, sum_nil]

omit [Add P] in
theorem movement_append (first second : List (EventBuffer P)) :
    movement value source (first ++ second) =
      movement value source first + movement value source second := by
  simp [movement]

theorem movement_between (joined : ∀ entry ∈ between, ∀ x ∈ entry.2.others,
      Joins entry.2.first.1 x.1)
    (kept : ∀ entry ∈ between, isMouseMove source (entry.2.event mergeMove) →
      entry.1 = .delivered)
    (exacts : ∀ entry ∈ between, Exact value entry.2) :
    movement value source ((between.filter fun entry => entry.1 = .delivered).map
        fun entry => entry.2.event mergeMove) =
      ((((between.map Prod.snd).flatMap Entry.members).filter fun x => isMouseMove source x.1).map
        fun x => value x.1.position).sum := by
  induction between with
  | nil => rfl
  | cons entry rest ih =>
    have others := ih (fun e isOne => joined e (mem_cons_of_mem _ isOne))
      (fun e isOne => kept e (mem_cons_of_mem _ isOne))
      (fun e isOne => exacts e (mem_cons_of_mem _ isOne))
    have here : movement value source [entry.2.event mergeMove] = _ :=
      movement_entry (joined entry (mem_cons_self ..)) (exacts entry (mem_cons_self ..))
    rw [map_cons, flatMap_cons, filter_append, map_append, sum_append,
      ← others, ← here, filter_cons]
    by_cases delivered : entry.1 = .delivered
    · rw [if_pos (by simpa using delivered), map_cons, ← movement_append]
      rfl
    · have still := mt (kept entry (mem_cons_self ..)) delivered
      rw [if_neg (by simpa using delivered)]
      simp [movement, still]

/-- Between two buttons that were read, with no move of that mouse dropped, the reader gets the
movement that was sent between them. -/
theorem Tells.movement_eq (tells : Tells inode done entries)
    (parts : done = before ++ (.delivered, opening) :: (between ++ (.delivered, closing) :: after))
    (opens : isButton source (opening.event mergeMove))
    (closes : isButton source (closing.event mergeMove))
    (kept : ∀ entry ∈ between, isMouseMove source (entry.2.event mergeMove) →
      entry.1 = .delivered)
    (exacts : ∀ g ∈ done.map Prod.snd ++ entries, Exact value g) :
    movement value source ((between.filter fun entry => entry.1 = .delivered).map
        fun entry => entry.2.event mergeMove) =
      movement value source ((inode.sent.take closing.first.2).drop (opening.first.2 + 1)) := by
  have account := tells.account
  subst parts
  have joined : ∀ entry ∈ before ++ (.delivered, opening) ::
      (between ++ (.delivered, closing) :: after), ∀ x ∈ entry.2.others,
      Joins entry.2.first.1 x.1 := by
    intro entry isOne x isOther
    have isEntry := mem_append_left entries (mem_map_of_mem (f := Prod.snd) isOne)
    exact (account.joined entry.2 isEntry x isOther).1
  have opensFirst := first_button (joined (.delivered, opening) (by simp)) opens
  have closesFirst := first_button (joined (.delivered, closing) (by simp)) closes
  have fenced : Fenced (moveRules P) (fun e => isMouseMove source e = true) opening.first.1
      closing.first.1 := by
    have notMove : ∀ {e : EventBuffer P}, isButton source e → ¬isMouseMove source e = true := by
      intro e button moves
      simp only [isMouseMove, decide_eq_true_eq] at moves
      rw [not_move_of_button button] at moves
      cases moves.1
    exact ⟨isMouseMove_iff, notMove opensFirst, notMove closesFirst,
      fun moves => interrupts_of_button moves opensFirst,
      fun moves => interrupts_of_button moves closesFirst⟩
  have order : (before ++ (Fate.delivered, opening) ::
      (between ++ (.delivered, closing) :: after)).map Prod.snd ++ entries =
      before.map Prod.snd ++ opening :: (between.map Prod.snd ++
        closing :: (after.map Prod.snd ++ entries)) := by simp
  rw [order] at account
  have exactBetween : ∀ entry ∈ between, Exact value entry.2 := by
    intro entry isOne
    exact exacts entry.2 (mem_append_left _ (mem_map_of_mem (by simp [isOne])))
  rw [movement_between (fun entry isOne => joined entry (by simp [isOne])) kept exactBetween]
  have sum := account.sum_between (fun e => value e.position) fenced
  have list := map_fst_filter_zipIdx inode.sent 0 (opening.first.2 + 1) closing.first.2
    (isMouseMove source)
  rw [Nat.sub_zero, Nat.sub_zero] at list
  rw [movement, ← list, List.map_map]
  simpa [Nat.succ_le_iff, Function.comp_def] using sum

end Movement

/-! ## A press that is overtaken -/

def mouseEvent (eventID : PInputEventID) (position : Int) : EventBuffer Int :=
  ⟨40, .MouseEvent, .Mouse, 0, eventID, 1, 0, position, []⟩

/-- A move, a press and another move. -/
def aroundPress : List (EventBuffer Int) :=
  [mouseEvent .MouseMove 1, mouseEvent .MouseDown 0, mouseEvent .MouseMove 2]

end PadOS.UserInput
