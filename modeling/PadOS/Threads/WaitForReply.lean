import Mathlib.Data.List.Infix
import PadOS.Core.Counting

/-! # Waiting for replies

`WaitForReply` of a looper reads messages until its own entry is gone from the list of waiting
codes. The handler of a message may wait for a reply itself, so waits are nested: the innermost
one reads all messages.
-/

namespace PadOS.Threads

open Counting List Option

/-- A message: its code, and the codes its handler waits for, one wait after the other. -/
structure Message where
  code : Int
  waits : List Int
  deriving DecidableEq

/-- A call of `WaitForReply`, with the codes its caller will wait for after it. -/
structure Frame where
  replyCode : Int
  replyToken : BitVec 32
  later : List Int
  deriving DecidableEq

def Frame.entry (frame : Frame) : Int × BitVec 32 := (frame.replyCode, frame.replyToken)

/-- The calls that have not returned are in `stack`, the innermost one first. What has been
processed is recorded, and for each wait how many messages had been received before it began. -/
structure PLooper where
  waitingCodes : List (Int × BitVec 32)
  nextReplyToken : BitVec 32
  stack : List Frame
  processed : List Message
  begun : List (Int × Nat)

namespace PLooper

/-- `WaitForReply` up to its first `ReceiveMessage`. -/
def waitForReply (s : PLooper) (replyCode : Int) (later : List Int) : PLooper :=
  { s with
    waitingCodes := s.waitingCodes ++ [(replyCode, s.nextReplyToken)]
    nextReplyToken := s.nextReplyToken + 1
    stack := ⟨replyCode, s.nextReplyToken, later⟩ :: s.stack
    begun := s.begun ++ [(replyCode, s.processed.length)] }

/-- `ProcessMessage` has returned to the innermost call: it goes on waiting while its entry is
there. Otherwise it returns, and its caller waits again or is done as well. -/
def messageProcessed : List Frame → PLooper → PLooper
  | [], s => { s with stack := [] }
  | frame :: outer, s =>
    if s.waitingCodes.any (fun i => i.1 == frame.replyCode && i.2 == frame.replyToken) then
      { s with stack := frame :: outer }
    else
      match frame.later with
      | [] => messageProcessed outer s
      | replyCode :: later => { s with stack := outer }.waitForReply replyCode later

/-- The waiting codes after a message: the first one is erased if the message carries it. -/
def accept (s : PLooper) (message : Message) : List (Int × BitVec 32) :=
  match s.waitingCodes with
  | [] => []
  | first :: rest => if message.code = first.1 then rest else first :: rest

/-- The innermost call takes a message and processes it. -/
def receive (s : PLooper) (message : Message) : PLooper :=
  let s := { s with waitingCodes := s.accept message, processed := s.processed ++ [message] }
  match message.waits with
  | [] => messageProcessed s.stack s
  | replyCode :: later => s.waitForReply replyCode later

/-- Messages are taken until the outermost call returns; the others stay in the port. -/
def run : PLooper → List Message → PLooper × List Message
  | s, [] => (s, [])
  | s, message :: rest =>
    if s.stack = [] then (s, message :: rest) else run (s.receive message) rest

/-- The outermost call begins: nothing waits. -/
def outermost (token : BitVec 32) (replyCode : Int) : PLooper :=
  (⟨[], token, [], [], []⟩ : PLooper).waitForReply replyCode []

/-! ## What is claimed of a run -/

/-- Some call still waits for the code of the message. -/
def Awaited (s : PLooper) (message : Message) : Prop := ∃ i ∈ s.waitingCodes, i.1 = message.code

/-- The message takes one entry with its code from the list. -/
def EndsOne (s : PLooper) (message : Message) : Prop :=
  ∃ before entry after, s.waitingCodes = before ++ entry :: after ∧ entry.1 = message.code ∧
    s.accept message = before ++ after

/-- Each message that a run takes meets a condition in the state it is taken in. -/
def Along (condition : PLooper → Message → Prop) : PLooper → List Message → Prop
  | _, [] => True
  | s, message :: rest =>
    s.stack ≠ [] → condition s message ∧ Along condition (s.receive message) rest

/-- For each wait one message of its own arrives after it began, and carries its code. -/
def Answered (begun : List (Int × Nat)) (messages : List Message) : Prop :=
  ∃ reply : Nat → Nat, (∀ i j, i < begun.length → j < begun.length → reply i = reply j → i = j) ∧
    ∀ (i : Nat) (code : Int) (before : Nat), begun[i]? = some (code, before) →
      before ≤ reply i ∧ (messages[reply i]?).map Message.code = some code

/-- All calls return, each reply ends one of them, each message is processed once and in order. -/
structure WaitsEnd (s : PLooper) (messages : List Message) : Prop where
  inOrder : (s.run messages).1.processed ++ (s.run messages).2 = s.processed ++ messages
  endsOne : Along (fun s message => s.Awaited message → s.EndsOne message) s messages
  returns : (s.run messages).1.stack = []
  restored : (s.run messages).1.waitingCodes = []

/-- A message with a code that is waited for carries the one that has been waited for longest. -/
def RepliesInOrder (s : PLooper) (messages : List Message) : Prop :=
  Along (fun s message => s.Awaited message →
    ∃ first ∈ s.waitingCodes.head?, first.1 = message.code) s messages

/-! ## The list of codes and the calls -/

/-- The entries that are left are those of the innermost calls, in the order in which they began,
and as long as there are calls there are entries. -/
structure Nested (s : PLooper) : Prop where
  suffix : s.waitingCodes <:+ (s.stack.map Frame.entry).reverse
  waits : s.stack ≠ [] → s.waitingCodes ≠ []
  begun : ∀ wait ∈ s.begun, wait.2 ≤ s.processed.length

variable {s : PLooper} {message : Message} {messages : List Message} {replyCode : Int}
  {later : List Int} {frame : Frame} {stack outer : List Frame} {token : BitVec 32}

theorem Nested.waitForReply (suffix : s.waitingCodes <:+ (s.stack.map Frame.entry).reverse)
    (begun : ∀ wait ∈ s.begun, wait.2 ≤ s.processed.length) (replyCode : Int) (later : List Int) :
    (s.waitForReply replyCode later).Nested := by
  constructor
  · show s.waitingCodes ++ [(replyCode, s.nextReplyToken)] <:+ _
    obtain ⟨gone, whole⟩ := suffix
    refine ⟨gone, ?_⟩
    rw [← append_assoc, whole, PLooper.waitForReply, map_cons, reverse_cons]
    rfl
  · exact fun _ => append_ne_nil_of_right_ne_nil _ (cons_ne_nil _ _)
  · intro wait member
    rcases mem_append.mp member with old | new
    · exact begun wait old
    · rw [mem_singleton.mp new]
      exact le_rfl

theorem waitingCodes_eq_nil (suffix : s.waitingCodes <:+ ((frame :: outer).map Frame.entry).reverse)
    (gone : ¬s.waitingCodes.any fun i => i.1 == frame.replyCode && i.2 == frame.replyToken) :
    s.waitingCodes = [] := by
  rw [map_cons, reverse_cons] at suffix
  rcases suffix_concat_iff.mp suffix with empty | ⟨before, whole, _⟩
  · exact empty
  · exfalso
    apply gone
    rw [whole, any_append]
    simp [Frame.entry]

theorem messageProcessed_spec (suffix : s.waitingCodes <:+ (stack.map Frame.entry).reverse)
    (begun : ∀ wait ∈ s.begun, wait.2 ≤ s.processed.length) :
    (messageProcessed stack s).Nested ∧ (messageProcessed stack s).processed = s.processed := by
  induction stack with
  | nil =>
    have empty : s.waitingCodes = [] := suffix_nil.mp suffix
    exact ⟨⟨by rw [messageProcessed, empty]; exact nil_suffix, fun calls => absurd rfl calls,
      begun⟩, rfl⟩
  | cons frame outer ih =>
    rw [messageProcessed]
    split
    · rename_i there
      refine ⟨⟨suffix, fun _ empty => ?_, begun⟩, rfl⟩
      have empty' : s.waitingCodes = [] := empty
      rw [empty'] at there
      cases there
    · rename_i gone
      have empty := waitingCodes_eq_nil suffix gone
      have outside : s.waitingCodes <:+ (outer.map Frame.entry).reverse := empty ▸ nil_suffix
      split
      · exact ih outside
      · exact ⟨Nested.waitForReply (s := { s with stack := outer }) outside begun _ _, rfl⟩

theorem accept_suffix (s : PLooper) (message : Message) : s.accept message <:+ s.waitingCodes := by
  unfold accept
  split
  · exact nil_suffix
  · rename_i whole
    rw [whole]
    split
    · exact suffix_cons _ _
    · exact suffix_rfl

theorem Nested.receive (nested : s.Nested) (message : Message) :
    (s.receive message).Nested ∧ (s.receive message).processed = s.processed ++ [message] := by
  have suffix := (accept_suffix s message).trans nested.suffix
  have begun : ∀ wait ∈ s.begun, wait.2 ≤ (s.processed ++ [message]).length := by
    intro wait member
    rw [length_append]
    exact Nat.le_add_right_of_le (nested.begun wait member)
  unfold PLooper.receive
  dsimp only
  split
  · exact messageProcessed_spec suffix begun
  · exact ⟨Nested.waitForReply suffix begun _ _, rfl⟩

theorem nested_outermost (token : BitVec 32) (replyCode : Int) :
    (outermost token replyCode).Nested :=
  Nested.waitForReply nil_suffix (fun _ none_ => by cases none_) replyCode []

theorem Nested.run (nested : s.Nested) (messages : List Message) :
    (s.run messages).1.Nested ∧
      (s.run messages).1.processed ++ (s.run messages).2 = s.processed ++ messages ∧
      ((s.run messages).1.stack ≠ [] → (s.run messages).2 = []) := by
  induction messages generalizing s with
  | nil => exact ⟨nested, rfl, fun _ => rfl⟩
  | cons message rest ih =>
    rw [PLooper.run]
    split
    · rename_i returned
      exact ⟨nested, rfl, fun calls => absurd returned calls⟩
    · obtain ⟨after, taken⟩ := nested.receive message
      obtain ⟨nested', order, all⟩ := ih after
      rw [taken, append_assoc] at order
      exact ⟨nested', order, all⟩

/-! ## Waits and replies are counted -/

def codesOf (code : Int) (entries : List (Int × BitVec 32)) : Nat := entries.countP (·.1 == code)

/-- From some message on the waits for a code that began are those answered since and those left. -/
def Balanced (code : Int) (s : PLooper) : Prop :=
  ∃ since ≤ s.processed.length, s.begun.countP (fun wait => wait.1 == code && since ≤ wait.2) =
    codesOf code s.waitingCodes + (s.processed.drop since).countP (·.code == code)

theorem Balanced.waitForReply {code : Int} (balanced : Balanced code s) (replyCode : Int)
    (later : List Int) : Balanced code (s.waitForReply replyCode later) := by
  obtain ⟨since, before, count⟩ := balanced
  refine ⟨since, before, ?_⟩
  simp only [PLooper.waitForReply, codesOf, countP_append, countP_singleton] at count ⊢
  by_cases same : replyCode = code
  · simp only [same, before, beq_self_eq_true, decide_true, Bool.and_self, if_true]
    omega
  · simp only [beq_eq_false_iff_ne.mpr same, Bool.false_and, Bool.false_eq_true, if_false]
    omega

theorem Balanced.messageProcessed {code : Int} (balanced : Balanced code s) (stack : List Frame) :
    Balanced code (messageProcessed stack s) := by
  induction stack with
  | nil => exact balanced
  | cons frame outer ih =>
    rw [PLooper.messageProcessed]
    split
    · exact balanced
    · split
      · exact ih
      · exact Balanced.waitForReply (s := { s with stack := outer }) balanced _ _

theorem Balanced.receive {code : Int} (balanced : Balanced code s) (nested : s.Nested)
    (inOrder : s.Awaited message → ∃ first ∈ s.waitingCodes.head?, first.1 = message.code) :
    Balanced code (s.receive message) := by
  have accepted : Balanced code
      { s with waitingCodes := s.accept message, processed := s.processed ++ [message] } := by
    obtain ⟨since, before, count⟩ := balanced
    by_cases awaited : s.Awaited message
    · obtain ⟨first, isHead, same⟩ := inOrder awaited
      obtain ⟨rest, whole⟩ := head?_eq_some_iff.mp isHead
      refine ⟨since, ?_, ?_⟩
      · rw [length_append]
        exact Nat.le_add_right_of_le before
      · rw [whole] at count
        simp only [accept, whole, same, if_true, codesOf, countP_cons,
          drop_append_of_le_length before, countP_append, countP_nil] at count ⊢
        omega
    · have kept : s.accept message = s.waitingCodes := by
        unfold accept
        split
        · rename_i empty
          exact empty.symm
        · rename_i first rest whole
          rw [if_neg, whole]
          exact fun same => awaited ⟨first, whole ▸ mem_cons_self, same.symm⟩
      by_cases same : message.code = code
      · refine ⟨s.processed.length + 1, by simp, ?_⟩
        have noWait : codesOf code s.waitingCodes = 0 := by
          apply countP_eq_zero.mpr
          intro entry member
          rw [beq_iff_eq]
          exact fun isCode => awaited ⟨entry, member, isCode.trans same.symm⟩
        have noneSince : s.begun.countP
            (fun wait => wait.1 == code && s.processed.length + 1 ≤ wait.2) = 0 := by
          apply countP_eq_zero.mpr
          intro wait member
          have early := nested.begun wait member
          simp only [Bool.and_eq_true, decide_eq_true_eq]
          omega
        simp only [kept, noWait, noneSince]
        simp
      · refine ⟨since, ?_, ?_⟩
        · rw [length_append]
          exact Nat.le_add_right_of_le before
        · simp only [kept, drop_append_of_le_length before, countP_append,
            countP_singleton, beq_eq_false_iff_ne.mpr same, Bool.false_eq_true,
            if_false] at count ⊢
          omega
  unfold PLooper.receive
  dsimp only
  split
  · exact accepted.messageProcessed _
  · exact accepted.waitForReply _ _

theorem Balanced.run {code : Int} (balanced : Balanced code s) (nested : s.Nested)
    (inOrder : s.RepliesInOrder messages) : Balanced code (s.run messages).1 := by
  induction messages generalizing s with
  | nil => exact balanced
  | cons message rest ih =>
    rw [PLooper.run]
    split
    · exact balanced
    · rename_i calls
      obtain ⟨here, behind⟩ := inOrder calls
      exact ih (balanced.receive nested here) (nested.receive message).1 behind

theorem returns_of_answered (nested : s.Nested) (balanced : ∀ code, Balanced code s)
    (answered : Answered s.begun s.processed) : s.stack = [] := by
  by_contra calls
  obtain ⟨entry, member⟩ := exists_mem_of_ne_nil _ (nested.waits calls)
  obtain ⟨since, _, count⟩ := balanced entry.1
  obtain ⟨reply, inj, replies⟩ := answered
  have left : 0 < codesOf entry.1 s.waitingCodes :=
    countP_pos_iff.mpr ⟨entry, member, beq_self_eq_true _⟩
  have enough : s.begun.countP (fun wait => wait.1 == entry.1 && since ≤ wait.2) ≤
      (s.processed.drop since).countP (·.code == entry.1) := by
    apply countP_le_of_injOn fun i => reply i - since
    · intro i wait isWait isCounted
      simp only [Bool.and_eq_true, beq_iff_eq, decide_eq_true_eq] at isCounted
      obtain ⟨behind, isReply⟩ := replies i wait.1 wait.2 isWait
      obtain ⟨message, found, isCode⟩ := map_eq_some_iff.mp isReply
      refine ⟨message, ?_, by rw [isCode, isCounted.1]; exact beq_self_eq_true _⟩
      rw [getElem?_drop, Nat.add_sub_cancel' (Nat.le_trans isCounted.2 behind)]
      exact found
    · intro i j wait wait' isWait isWait' isCounted isCounted' same
      simp only [Bool.and_eq_true, decide_eq_true_eq] at isCounted isCounted'
      have behind := (replies i wait.1 wait.2 isWait).1
      have behind' := (replies j wait'.1 wait'.2 isWait').1
      apply inj i j (List.getElem?_eq_some_iff.mp isWait).1 (List.getElem?_eq_some_iff.mp isWait').1
      omega
  omega

/-! ## When all waits end -/

theorem endsOne_iff :
    s.EndsOne message ↔ ∃ first ∈ s.waitingCodes.head?, first.1 = message.code := by
  constructor
  · intro ⟨before, entry, after, whole, _, less⟩
    have shorter : (s.accept message).length < s.waitingCodes.length := by
      rw [less, whole, length_append, length_append, length_cons]
      omega
    unfold accept at shorter
    split at shorter
    · rename_i empty
      rw [empty] at shorter
      cases shorter
    · rename_i first rest isWhole
      split at shorter
      · rename_i same
        exact ⟨first, by rw [isWhole]; rfl, same.symm⟩
      · rw [isWhole] at shorter
        exact absurd shorter (Nat.lt_irrefl _)
  · intro ⟨first, isHead, same⟩
    obtain ⟨rest, whole⟩ := head?_eq_some_iff.mp isHead
    refine ⟨[], first, rest, whole, same, ?_⟩
    simp only [accept, whole, same, if_true, nil_append]

theorem along_congr {condition condition' : PLooper → Message → Prop}
    (same : ∀ s message, condition s message ↔ condition' s message) (s : PLooper)
    (messages : List Message) : Along condition s messages ↔ Along condition' s messages := by
  induction messages generalizing s with
  | nil => exact Iff.rfl
  | cons message rest ih => simp only [Along, same, ih]

/-- With a reply for each wait, all waits end as they should if and only if the replies come in the
order in which the waits began. -/
theorem waitsEnd_iff_repliesInOrder (token : BitVec 32) (replyCode : Int) (messages : List Message)
    (answered : Answered ((outermost token replyCode).run messages).1.begun messages) :
    WaitsEnd (outermost token replyCode) messages ↔
      RepliesInOrder (outermost token replyCode) messages := by
  have each : Along (fun s message => s.Awaited message → s.EndsOne message)
      (outermost token replyCode) messages ↔
        RepliesInOrder (outermost token replyCode) messages := by
    apply along_congr
    exact fun s message => forall_congr' fun _ => endsOne_iff
  have nested := nested_outermost token replyCode
  obtain ⟨nested', order, all⟩ := nested.run messages
  constructor
  · exact fun ends => each.mp ends.endsOne
  · intro inOrder
    have balanced (code : Int) : Balanced code ((outermost token replyCode).run messages).1 := by
      apply Balanced.run _ nested inOrder
      apply Balanced.waitForReply
      exact ⟨0, le_rfl, rfl⟩
    have returned : ((outermost token replyCode).run messages).1.stack = [] := by
      by_contra calls
      have whole := order
      rw [all calls, append_nil] at whole
      have processed : ((outermost token replyCode).run messages).1.processed = messages := whole
      exact calls (returns_of_answered nested' balanced (processed.symm ▸ answered))
    refine ⟨order, each.mpr inOrder, returned, ?_⟩
    have suffix := nested'.suffix
    rw [returned] at suffix
    exact suffix_nil.mp suffix

/-- The handler of the first message waits as well, and the replies come in order. -/
theorem waitsEnd_iff_repliesInOrder_two :
    WaitsEnd (outermost 0 1) [⟨9, [2]⟩, ⟨1, []⟩, ⟨2, []⟩] ↔
      RepliesInOrder (outermost 0 1) [⟨9, [2]⟩, ⟨1, []⟩, ⟨2, []⟩] := by
  apply waitsEnd_iff_repliesInOrder
  refine ⟨fun i => i + 1, fun i j _ _ same => Nat.succ.inj same, fun i code before isWait => ?_⟩
  match i, isWait with
  | 0, rfl => exact ⟨by decide, rfl⟩
  | 1, rfl => exact ⟨by decide, rfl⟩

/-- The inner reply comes first: it ends no wait, and both calls wait forever. -/
theorem inner_reply_lost :
    Answered ((outermost 0 1).run [⟨9, [2]⟩, ⟨2, []⟩, ⟨1, []⟩]).1.begun
      [⟨9, [2]⟩, ⟨2, []⟩, ⟨1, []⟩] ∧
      ((outermost 0 1).run [⟨9, [2]⟩, ⟨2, []⟩, ⟨1, []⟩]).1.stack.length = 2 ∧
      ¬WaitsEnd (outermost 0 1) [⟨9, [2]⟩, ⟨2, []⟩, ⟨1, []⟩] := by
  refine ⟨⟨fun i => 2 - i, fun i j _ _ same => ?_, fun i code before isWait => ?_⟩, by decide, ?_⟩
  · simp [run, receive, outermost, waitForReply, messageProcessed, accept] at *
    omega
  · match i, isWait with
    | 0, rfl => exact ⟨by decide, rfl⟩
    | 1, rfl => exact ⟨by decide, rfl⟩
  · intro ends
    exact absurd ends.returns (by decide)

end PLooper

end PadOS.Threads
