import PadOS.Kernel.SignalQueue

/-! # What is queued is delivered

The queue is sorted, so that the nodes of one number stand together and a node behind the
taken one tells whether more of them are left. For each number the values put into the queue
are those delivered from it followed by those that it still holds.
-/

namespace PadOS.Kernel

open Transition List Option Function

variable {υ : Type} {numbers : SignalNumbers} {count : Nat}

namespace SignalThread

variable {queue rest : List (KSignalQueueNode υ)} {node first : KSignalQueueNode υ}
  {sigNum other : Int} {last : Bool} {s t : SignalThread υ}

def Sorted (queue : List (KSignalQueueNode υ)) : Prop :=
  queue.Pairwise fun before after => before.SigNum ≤ after.SigNum

/-- The values a queue holds for one number, in its order. -/
def valuesOf (sigNum : Int) : List (KSignalQueueNode υ) → List υ
  | [] => []
  | node :: rest => if node.SigNum = sigNum then node.value :: valuesOf sigNum rest
      else valuesOf sigNum rest

@[simp] theorem valuesOf_nil : valuesOf sigNum ([] : List (KSignalQueueNode υ)) = [] := rfl

theorem valuesOf_cons_self (same : node.SigNum = sigNum) :
    valuesOf sigNum (node :: rest) = node.value :: valuesOf sigNum rest := if_pos same

theorem valuesOf_cons_of_ne (ne : node.SigNum ≠ sigNum) :
    valuesOf sigNum (node :: rest) = valuesOf sigNum rest := if_neg ne

theorem valuesOf_eq_nil (absent : ∀ node ∈ queue, node.SigNum ≠ sigNum) :
    valuesOf sigNum queue = [] := by
  induction queue with
  | nil => rfl
  | cons node rest ih =>
    rw [valuesOf_cons_of_ne (absent node mem_cons_self)]
    exact ih fun other member => absent other (mem_cons_of_mem node member)

theorem Sorted.absent_of_lt (sorted : Sorted (first :: rest)) (less : sigNum < first.SigNum) :
    ∀ node ∈ first :: rest, node.SigNum ≠ sigNum := by
  intro node member same
  rcases mem_cons.mp member with isFirst | behind
  · rw [isFirst] at same
    omega
  · have order := rel_of_pairwise_cons sorted behind
    omega

theorem Sorted.tail (sorted : Sorted (first :: rest)) : Sorted rest := Pairwise.of_cons sorted

theorem sorted_cons (below : ∀ node ∈ rest, first.SigNum ≤ node.SigNum) (sorted : Sorted rest) :
    Sorted (first :: rest) := pairwise_cons.mpr ⟨below, sorted⟩

theorem mem_insertRealtime {x : KSignalQueueNode υ} :
    x ∈ insertRealtime node queue ↔ x = node ∨ x ∈ queue := by
  induction queue with
  | nil => simp [insertRealtime]
  | cons first rest ih =>
    unfold insertRealtime
    split
    · simp
    · rw [mem_cons, ih, mem_cons]
      exact or_left_comm

theorem insertRealtime_length : (insertRealtime node queue).length = queue.length + 1 := by
  induction queue with
  | nil => rfl
  | cons first rest ih =>
    unfold insertRealtime
    split
    · rfl
    · rw [length_cons, ih, length_cons]

theorem Sorted.insertRealtime (sorted : Sorted queue) : Sorted (insertRealtime node queue) := by
  induction queue with
  | nil => exact pairwise_singleton _ _
  | cons first rest ih =>
    unfold SignalThread.insertRealtime
    split
    case isTrue less =>
      refine sorted_cons (fun other member => ?_) sorted
      rcases mem_cons.mp member with isFirst | behind
      · rw [isFirst]
        omega
      · have order := rel_of_pairwise_cons sorted behind
        omega
    case isFalse notLess =>
      refine sorted_cons (fun other member => ?_) (ih sorted.tail)
      rcases mem_insertRealtime.mp member with isNode | behind
      · rw [isNode]
        omega
      · exact rel_of_pairwise_cons sorted behind

theorem Sorted.valuesOf_insertRealtime (sorted : Sorted queue) :
    valuesOf node.SigNum (SignalThread.insertRealtime node queue) =
      valuesOf node.SigNum queue ++ [node.value] := by
  induction queue with
  | nil => exact valuesOf_cons_self rfl
  | cons first rest ih =>
    unfold SignalThread.insertRealtime
    split
    case isTrue less =>
      rw [valuesOf_cons_self rfl, valuesOf_eq_nil (sorted.absent_of_lt less)]
      rfl
    case isFalse =>
      by_cases same : first.SigNum = node.SigNum
      · rw [valuesOf_cons_self same, ih sorted.tail, valuesOf_cons_self same, cons_append]
      · rw [valuesOf_cons_of_ne same, ih sorted.tail, valuesOf_cons_of_ne same]

theorem valuesOf_insertRealtime_of_ne (ne : node.SigNum ≠ other) :
    valuesOf other (insertRealtime node queue) = valuesOf other queue := by
  induction queue with
  | nil => exact valuesOf_cons_of_ne ne
  | cons first rest ih =>
    unfold insertRealtime
    split
    · exact valuesOf_cons_of_ne ne
    · by_cases same : first.SigNum = other
      · rw [valuesOf_cons_self same, ih, valuesOf_cons_self same]
      · rw [valuesOf_cons_of_ne same, ih, valuesOf_cons_of_ne same]

theorem mem_insertStandard {x : KSignalQueueNode υ} (member : x ∈ (insertStandard node queue).1) :
    x = node ∨ x ∈ queue := by
  induction queue with
  | nil => exact .inl (mem_singleton.mp member)
  | cons first rest ih =>
    unfold insertStandard at member
    split at member
    case isTrue =>
      split at member
      case isTrue =>
        rcases mem_cons.mp member with isNode | behind
        · exact .inl isNode
        · exact .inr (mem_cons_of_mem first behind)
      case isFalse =>
        rcases mem_cons.mp member with isNode | behind
        · exact .inl isNode
        · exact .inr behind
    case isFalse =>
      rcases mem_cons.mp member with isFirst | behind
      · exact .inr (isFirst ▸ mem_cons_self)
      · exact (ih behind).imp_right (mem_cons_of_mem first)

theorem insertStandard_length :
    (insertStandard node queue).1.length = queue.length + (insertStandard node queue).2 := by
  induction queue with
  | nil => rfl
  | cons first rest ih =>
    unfold insertStandard
    split
    · split <;> rfl
    · rw [length_cons, ih, length_cons]
      omega

theorem Sorted.insertStandard (sorted : Sorted queue) : Sorted (insertStandard node queue).1 := by
  induction queue with
  | nil => exact pairwise_singleton _ _
  | cons first rest ih =>
    unfold SignalThread.insertStandard
    split
    case isTrue notLess =>
      split
      case isTrue same =>
        refine sorted_cons (fun other member => ?_) sorted.tail
        rw [← same]
        exact rel_of_pairwise_cons sorted member
      case isFalse =>
        refine sorted_cons (fun other member => ?_) sorted
        rcases mem_cons.mp member with isFirst | behind
        · rw [isFirst]
          exact notLess
        · have order := rel_of_pairwise_cons sorted behind
          omega
    case isFalse less =>
      refine sorted_cons (fun other member => ?_) (ih sorted.tail)
      rcases mem_insertStandard member with isNode | behind
      · rw [isNode]
        omega
      · exact rel_of_pairwise_cons sorted behind

theorem Sorted.valuesOf_insertStandard (sorted : Sorted queue)
    (single : (valuesOf node.SigNum queue).length ≤ 1) :
    valuesOf node.SigNum (SignalThread.insertStandard node queue).1 = [node.value] := by
  induction queue with
  | nil => exact valuesOf_cons_self rfl
  | cons first rest ih =>
    unfold SignalThread.insertStandard
    split
    case isTrue notLess =>
      split
      case isTrue same =>
        rw [valuesOf_cons_self same, length_cons] at single
        have none : valuesOf node.SigNum rest = [] := length_eq_zero_iff.mp (by omega)
        rw [valuesOf_cons_self rfl, none]
      case isFalse ne =>
        have none : valuesOf node.SigNum (first :: rest) = [] :=
          valuesOf_eq_nil (sorted.absent_of_lt (by omega))
        rw [valuesOf_cons_self rfl, none]
    case isFalse less =>
      have ne : first.SigNum ≠ node.SigNum := by omega
      rw [valuesOf_cons_of_ne ne] at single ⊢
      exact ih sorted.tail single

theorem valuesOf_insertStandard_of_ne (ne : node.SigNum ≠ other) :
    valuesOf other (insertStandard node queue).1 = valuesOf other queue := by
  induction queue with
  | nil => exact valuesOf_cons_of_ne ne
  | cons first rest ih =>
    unfold insertStandard
    split
    · split
      case isTrue same =>
        rw [valuesOf_cons_of_ne ne, valuesOf_cons_of_ne (same ▸ ne)]
      case isFalse => exact valuesOf_cons_of_ne ne
    · by_cases same : first.SigNum = other
      · rw [valuesOf_cons_self same, ih, valuesOf_cons_self same]
      · rw [valuesOf_cons_of_ne same, ih, valuesOf_cons_of_ne same]

/-- What the dequeue loop has done where it found a node. -/
structure Takes (queue : List (KSignalQueueNode υ)) (sigNum : Int) (node : KSignalQueueNode υ)
    (left : List (KSignalQueueNode υ)) (last : Bool) : Prop where
  number : node.SigNum = sigNum
  sublist : left.Sublist queue
  length : queue.length = left.length + 1
  values : valuesOf sigNum queue = node.value :: valuesOf sigNum left
  others : ∀ other, other ≠ sigNum → valuesOf other queue = valuesOf other left
  last : last = true → ∀ x ∈ left, x.SigNum ≠ sigNum

variable {left : List (KSignalQueueNode υ)}

theorem Sorted.takes (sorted : Sorted queue)
    (found : takeSignal sigNum queue = some (node, left, last)) :
    Takes queue sigNum node left last := by
  induction queue generalizing left with
  | nil => cases found
  | cons first rest ih =>
    unfold takeSignal at found
    split at found
    case isFalse => cases found
    case isTrue notGreater =>
      split at found
      case isTrue same =>
        cases found
        refine ⟨same, sublist_cons_self _ _, rfl, valuesOf_cons_self same,
          fun other ne => valuesOf_cons_of_ne (fun is => ne (is.symm.trans same)), ?_⟩
        intro isLast
        cases rest with
        | nil =>
          intro x member
          cases member
        | cons next rest =>
          have ne : next.SigNum ≠ sigNum := by simpa using isLast
          have order := rel_of_pairwise_cons sorted (mem_cons_self (a := next))
          exact sorted.tail.absent_of_lt (by omega)
      case isFalse ne =>
        rcases map_eq_some_iff.mp found with ⟨⟨inner, kept, isLast⟩, innerFound, pair⟩
        cases pair
        have takes := ih sorted.tail innerFound
        refine ⟨takes.number, takes.sublist.cons_cons first, ?_, ?_, ?_, ?_⟩
        · rw [length_cons, takes.length, length_cons]
        · rw [valuesOf_cons_of_ne ne, valuesOf_cons_of_ne ne, takes.values]
        · intro other otherNe
          by_cases same : first.SigNum = other
          · rw [valuesOf_cons_self same, valuesOf_cons_self same, takes.others other otherNe]
          · rw [valuesOf_cons_of_ne same, valuesOf_cons_of_ne same, takes.others other otherNe]
        · intro isLast x member
          rcases mem_cons.mp member with isFirst | behind
          · rw [isFirst]
            exact ne
          · exact takes.last isLast x behind

theorem Sorted.takes_none (sorted : Sorted queue) (missed : takeSignal sigNum queue = none) :
    ∀ node ∈ queue, node.SigNum ≠ sigNum := by
  induction queue with
  | nil =>
    intro node member
    cases member
  | cons first rest ih =>
    unfold takeSignal at missed
    split at missed
    case isFalse greater => exact sorted.absent_of_lt (by omega)
    case isTrue =>
      split at missed
      case isTrue => cases missed
      case isFalse ne =>
        have inner := ih sorted.tail (map_eq_none_iff.mp missed)
        intro node member
        rcases mem_cons.mp member with isFirst | behind
        · rw [isFirst]
          exact ne
        · exact inner node behind

/-- The values that were put into the queue for one number. -/
def logged (sigNum : Int) (log : List (Int × υ)) : List υ :=
  log.filterMap fun entry => if entry.1 = sigNum then some entry.2 else none

/-- The values that were delivered from the queue for one number. -/
def deliveredValues (sigNum : Int) (delivered : List (Int × SigInfo υ)) : List υ :=
  delivered.filterMap fun entry =>
    match entry.2 with
    | .queue value => if entry.1 = sigNum then some value else none
    | _ => none

theorem logged_append (log : List (Int × υ)) (number : Int) (value : υ) :
    logged sigNum (log ++ [(number, value)]) =
      logged sigNum log ++ if number = sigNum then [value] else [] := by
  unfold logged
  rw [filterMap_append]
  congr 1
  by_cases same : number = sigNum <;> simp [same]

theorem deliveredValues_queue (delivered : List (Int × SigInfo υ)) (number : Int) (value : υ) :
    deliveredValues sigNum (delivered ++ [(number, .queue value)]) =
      deliveredValues sigNum delivered ++ if number = sigNum then [value] else [] := by
  unfold deliveredValues
  rw [filterMap_append]
  congr 1
  by_cases same : number = sigNum <;> simp [same]

theorem deliveredValues_other (delivered : List (Int × SigInfo υ)) (number : Int)
    {info : SigInfo υ} (other : ∀ value, info ≠ .queue value) :
    deliveredValues sigNum (delivered ++ [(number, info)]) = deliveredValues sigNum delivered := by
  unfold deliveredValues
  rw [filterMap_append]
  cases info with
  | queue value => exact absurd rfl (other value)
  | user => simp
  | external => simp

/-- The queue against what was put into it and taken from it. -/
structure Kept (numbers : SignalNumbers) (queue : List (KSignalQueueNode υ)) (count : Nat)
    (log : List (Int × υ)) (delivered : List (Int × SigInfo υ)) : Prop where
  sorted : Sorted queue
  counted : count = queue.length
  single : ∀ sigNum, sigNum < numbers.SIGRTMIN → (valuesOf sigNum queue).length ≤ 1
  fifo : ∀ sigNum, numbers.SIGRTMIN ≤ sigNum →
    logged sigNum log = deliveredValues sigNum delivered ++ valuesOf sigNum queue
  lastQueued : ∀ sigNum, sigNum < numbers.SIGRTMIN → ∀ value ∈ valuesOf sigNum queue,
    (logged sigNum log).getLast? = some value

/-- The queue of a thread is kept. -/
def QueueKept (numbers : SignalNumbers) (t : SignalThread υ) : Prop :=
  Kept numbers t.firstQueuedSignal t.queuedSignalCount t.queuedLog t.delivered

theorem QueueKept.initial : QueueKept numbers (initial υ) := by
  refine ⟨Pairwise.nil, rfl, fun _ _ => Nat.zero_le 1, fun _ _ => rfl, ?_⟩
  intro sigNum _ value member
  cases member

theorem Kept.insertStandard {log : List (Int × υ)}
    {delivered : List (Int × SigInfo υ)} (kept : Kept numbers queue count log delivered)
    (standard : node.SigNum < numbers.SIGRTMIN) :
    Kept numbers (insertStandard node queue).1 (count + (SignalThread.insertStandard node queue).2)
      (log ++ [(node.SigNum, node.value)]) delivered := by
  have values := kept.sorted.valuesOf_insertStandard (kept.single _ standard)
  refine ⟨kept.sorted.insertStandard, ?_, ?_, ?_, ?_⟩
  · rw [insertStandard_length, kept.counted]
  · intro sigNum small
    by_cases same : node.SigNum = sigNum
    · rw [← same, values]
      exact Nat.le_refl 1
    · rw [valuesOf_insertStandard_of_ne same]
      exact kept.single sigNum small
  · intro sigNum large
    have ne : node.SigNum ≠ sigNum := by omega
    rw [logged_append, if_neg ne, append_nil, valuesOf_insertStandard_of_ne ne]
    exact kept.fifo sigNum large
  · intro sigNum small value member
    rw [logged_append]
    by_cases same : node.SigNum = sigNum
    · rw [← same, values, mem_singleton] at member
      rw [if_pos same, getLast?_append, member]
      rfl
    · rw [valuesOf_insertStandard_of_ne same] at member
      rw [if_neg same, append_nil]
      exact kept.lastQueued sigNum small value member

theorem Kept.insertRealtime {log : List (Int × υ)}
    {delivered : List (Int × SigInfo υ)} (kept : Kept numbers queue count log delivered)
    (realtime : numbers.SIGRTMIN ≤ node.SigNum) :
    Kept numbers (insertRealtime node queue) (count + 1) (log ++ [(node.SigNum, node.value)])
      delivered := by
  refine ⟨kept.sorted.insertRealtime, ?_, ?_, ?_, ?_⟩
  · rw [insertRealtime_length, kept.counted]
  · intro sigNum small
    rw [valuesOf_insertRealtime_of_ne (by omega)]
    exact kept.single sigNum small
  · intro sigNum large
    rw [logged_append, kept.fifo sigNum large]
    by_cases same : node.SigNum = sigNum
    · rw [if_pos same, ← same, kept.sorted.valuesOf_insertRealtime, append_assoc]
    · rw [if_neg same, append_nil, valuesOf_insertRealtime_of_ne same]
  · intro sigNum small value member
    have ne : node.SigNum ≠ sigNum := by omega
    rw [valuesOf_insertRealtime_of_ne ne] at member
    rw [logged_append, if_neg ne, append_nil]
    exact kept.lastQueued sigNum small value member

theorem Kept.takes {log : List (Int × υ)} {delivered : List (Int × SigInfo υ)} (kept : Kept numbers queue count log delivered)
    (takes : Takes queue sigNum node left last) :
    Kept numbers left (count - 1) log (delivered ++ [(sigNum, .queue node.value)]) := by
  have fewer (number : Int) : (valuesOf number left).length ≤ (valuesOf number queue).length := by
    by_cases same : number = sigNum
    · rw [same, takes.values, length_cons]
      omega
    · exact Nat.le_of_eq (congrArg List.length (takes.others number same).symm)
  refine ⟨Pairwise.sublist takes.sublist kept.sorted, ?_, ?_, ?_, ?_⟩
  · rw [kept.counted, takes.length]
    omega
  · exact fun number small => Nat.le_trans (fewer number) (kept.single number small)
  · intro number large
    rw [kept.fifo number large, deliveredValues_queue]
    by_cases same : sigNum = number
    · rw [if_pos same, ← same, takes.values, append_assoc]
      rfl
    · rw [if_neg same, append_nil, takes.others number (Ne.symm same)]
  · intro number small value member
    apply kept.lastQueued number small value
    by_cases same : number = sigNum
    · rw [same] at member ⊢
      rw [takes.values]
      exact mem_cons_of_mem _ member
    · rwa [takes.others number same]

theorem Kept.deliverOther {log : List (Int × υ)}
    {delivered : List (Int × SigInfo υ)} {info : SigInfo υ}
    (kept : Kept numbers queue count log delivered) (other : ∀ value, info ≠ .queue value) :
    Kept numbers queue count log (delivered ++ [(sigNum, info)]) := by
  refine ⟨kept.sorted, kept.counted, kept.single, ?_, kept.lastQueued⟩
  intro number large
  rw [deliveredValues_other delivered sigNum other]
  exact kept.fifo number large

theorem QueueKept.setPending (kept : QueueKept numbers t) :
    QueueKept numbers (t.SetPendingSignal numbers sigNum) := by
  unfold SetPendingSignal
  split
  · exact kept
  · exact kept

theorem QueueKept.enqueue (kept : QueueKept numbers t) :
    QueueKept numbers (t.enqueue numbers node) := by
  unfold SignalThread.enqueue
  dsimp only
  split
  case isTrue standard => exact QueueKept.setPending (Kept.insertStandard kept standard)
  case isFalse realtime =>
    exact QueueKept.setPending (Kept.insertRealtime kept (Int.not_lt.mp realtime))

variable {target : SignalTarget}

theorem QueueKept.send (kept : QueueKept numbers t) :
    QueueKept numbers (t.ksend_signal_to_thread numbers sigNum target).2 := by
  unfold ksend_signal_to_thread
  repeat' split
  all_goals first | exact kept | exact kept.setPending

theorem QueueKept.queueSignal {value : υ} (kept : QueueKept numbers t) :
    QueueKept numbers (t.kqueue_signal_to_thread_pl numbers sigNum value target).2 := by
  unfold kqueue_signal_to_thread_pl
  repeat' split
  all_goals first | exact kept | exact kept.send | exact kept.enqueue | exact kept.setPending

/-- What the taking of a signal without other information does, by what it finds. -/
inductive Processes (t : SignalThread υ) (sigNum : Int) : SignalThread υ → Prop
  | user (missed : takeSignal sigNum t.firstQueuedSignal = none) : Processes t sigNum
    ({ t with delivered := t.delivered ++ [(sigNum, SigInfo.user)] }.ClearPendingSignal sigNum)
  | more {node : KSignalQueueNode υ} {left : List (KSignalQueueNode υ)}
    (found : takeSignal sigNum t.firstQueuedSignal = some (node, left, false)) :
    Processes t sigNum { t with
      firstQueuedSignal := left
      queuedSignalCount := t.queuedSignalCount - 1
      delivered := t.delivered ++ [(sigNum, SigInfo.queue node.value)] }
  | last {node : KSignalQueueNode υ} {left : List (KSignalQueueNode υ)}
    (found : takeSignal sigNum t.firstQueuedSignal = some (node, left, true)) :
    Processes t sigNum ({ t with
      firstQueuedSignal := left
      queuedSignalCount := t.queuedSignalCount - 1
      delivered := t.delivered ++ [(sigNum, SigInfo.queue node.value)] }.ClearPendingSignal sigNum)

theorem kprocess_signal_cases (t : SignalThread υ) (sigNum : Int) :
    Processes t sigNum (t.kprocess_signal sigNum false) := by
  unfold kprocess_signal
  rw [if_neg Bool.false_ne_true]
  cases found : takeSignal sigNum t.firstQueuedSignal with
  | none => exact .user found
  | some result =>
    rcases result with ⟨node, left, last⟩
    cases last with
    | false => exact .more found
    | true => exact .last found

theorem QueueKept.processes (kept : QueueKept numbers t) (processes : Processes t sigNum s) :
    QueueKept numbers s := by
  cases processes with
  | user => exact Kept.deliverOther kept fun value same => by cases same
  | more found | last found => exact Kept.takes kept (kept.sorted.takes found)

theorem QueueKept.process {extSigInfo : Bool} (kept : QueueKept numbers t) :
    QueueKept numbers (t.kprocess_signal sigNum extSigInfo) := by
  cases extSigInfo with
  | true => exact Kept.deliverOther kept fun value same => by cases same
  | false => exact kept.processes (kprocess_signal_cases t sigNum)

variable {pending pushes : Int → Bool}

theorem processEach_keeps {P : SignalThread υ → Prop}
    (keeps : ∀ t sigNum, P t → P (t.kprocess_signal sigNum false)) (numbers : List Int) :
    ∀ t, P t → P (processEach pending pushes numbers t) := by
  induction numbers with
  | nil => exact fun t holds => holds
  | cons sigNum rest ih =>
    intro t holds
    unfold processEach
    split
    · dsimp only
      split
      · exact keeps t sigNum holds
      · exact ih _ (keeps t sigNum holds)
    · exact ih t holds

theorem QueueKept.step {op : SignalStep υ} (kept : QueueKept numbers s)
    (applies : (signalSystem υ numbers).step s op = some t) : QueueKept numbers t := by
  cases op with
  | kqueue_signal_to_thread_pl sigNum value target =>
    cases applies
    exact kept.queueSignal
  | ksend_signal_to_thread sigNum target =>
    cases applies
    exact kept.send
  | kprocess_signal sigNum extSigInfo =>
    cases applies
    exact kept.process
  | kprocess_pending_signals pushes =>
    cases applies
    exact processEach_keeps (fun _ _ kept => QueueKept.process kept) _ s kept
  | setMask blockedSignals =>
    cases applies
    exact kept

theorem QueueKept.reaches {good : Condition (SignalThread υ) (SignalStep υ)}
    (run : (signalSystem υ numbers).Reaches good (SignalThread.initial υ) t) :
    QueueKept numbers t :=
  run.invariant (QueueKept numbers) .initial fun kept _ applies => kept.step applies

/-- The bit of every number that has a node is set, and no other than a real bit is. -/
structure BitsSet (numbers : SignalNumbers) (t : SignalThread υ) : Prop where
  nodes : ∀ node ∈ t.firstQueuedSignal, t.pendingSignals node.SigNum = true
  bits : ∀ sigNum, t.pendingSignals sigNum = true → numbers.hasBit sigNum = true

theorem BitsSet.initial : BitsSet numbers (initial υ) := by
  constructor
  · intro node member
    cases member
  · intro sigNum set
    cases set

theorem setPending_queue (t : SignalThread υ) (sigNum : Int) :
    (t.SetPendingSignal numbers sigNum).firstQueuedSignal = t.firstQueuedSignal := by
  unfold SetPendingSignal
  split <;> rfl

theorem setPending_of_set (set : t.pendingSignals other = true) :
    (t.SetPendingSignal numbers sigNum).pendingSignals other = true := by
  unfold SetPendingSignal
  split
  · show update t.pendingSignals sigNum true other = true
    by_cases same : other = sigNum
    · rw [same, update_self]
    · rwa [update_of_ne same]
  · exact set

theorem setPending_self (hasBit : numbers.hasBit sigNum = true) :
    (t.SetPendingSignal numbers sigNum).pendingSignals sigNum = true := by
  unfold SetPendingSignal
  rw [if_pos hasBit]
  exact update_self ..

theorem setPending_bits (bits : ∀ number, t.pendingSignals number = true →
    numbers.hasBit number = true) (number : Int)
    (set : (t.SetPendingSignal numbers sigNum).pendingSignals number = true) :
    numbers.hasBit number = true := by
  unfold SetPendingSignal at set
  split at set
  case isTrue hasBit =>
    change update t.pendingSignals sigNum true number = true at set
    by_cases same : number = sigNum
    · rw [same]
      exact hasBit
    · rw [update_of_ne same] at set
      exact bits number set
  case isFalse => exact bits number set

section

variable (set : BitsSet numbers t)

include set

theorem BitsSet.setPending :
    BitsSet numbers (t.SetPendingSignal numbers sigNum) := by
  refine ⟨fun node member => ?_, setPending_bits set.bits⟩
  rw [setPending_queue] at member
  exact setPending_of_set (set.nodes node member)

/-- A queue that has got only the node of a number whose bit is set afterwards. -/
theorem BitsSet.of_insert (hasBit : numbers.hasBit node.SigNum = true)
    (pending : s.pendingSignals = t.pendingSignals)
    (members : ∀ x ∈ s.firstQueuedSignal, x = node ∨ x ∈ t.firstQueuedSignal) :
    BitsSet numbers (s.SetPendingSignal numbers node.SigNum) := by
  refine ⟨fun x member => ?_, setPending_bits fun number isSet => set.bits number (pending ▸ isSet)⟩
  rw [setPending_queue] at member
  rcases members x member with isNode | before
  · rw [isNode]
    exact setPending_self hasBit
  · exact setPending_of_set (pending ▸ set.nodes x before)

theorem BitsSet.enqueue (hasBit : numbers.hasBit node.SigNum = true) :
    BitsSet numbers (t.enqueue numbers node) := by
  unfold SignalThread.enqueue
  dsimp only
  split
  · exact set.of_insert hasBit rfl fun x member => mem_insertStandard member
  · exact set.of_insert hasBit rfl fun x member => mem_insertRealtime.mp member

theorem BitsSet.send :
    BitsSet numbers (t.ksend_signal_to_thread numbers sigNum target).2 := by
  unfold ksend_signal_to_thread
  repeat' split
  all_goals first | exact set | exact set.setPending

theorem BitsSet.queueSignal {value : υ}
    (hasBit : numbers.hasBit sigNum = true) :
    BitsSet numbers (t.kqueue_signal_to_thread_pl numbers sigNum value target).2 := by
  unfold kqueue_signal_to_thread_pl
  repeat' split
  all_goals first | exact set | exact set.send | exact set.enqueue hasBit | exact set.setPending

theorem BitsSet.clear (absent : ∀ node ∈ t.firstQueuedSignal, node.SigNum ≠ sigNum) :
    BitsSet numbers (t.ClearPendingSignal sigNum) := by
  constructor
  · intro node member
    show update t.pendingSignals sigNum false node.SigNum = true
    rw [update_of_ne (absent node member)]
    exact set.nodes node member
  · intro number isSet
    change update t.pendingSignals sigNum false number = true at isSet
    by_cases same : number = sigNum
    · rw [same, update_self] at isSet
      cases isSet
    · rw [update_of_ne same] at isSet
      exact set.bits number isSet

theorem BitsSet.process (kept : QueueKept numbers t) :
    BitsSet numbers (t.kprocess_signal sigNum false) := by
  have fewer {left : List (KSignalQueueNode υ)} (sublist : left.Sublist t.firstQueuedSignal) :
      ∀ node ∈ left, t.pendingSignals node.SigNum = true :=
    fun node member => set.nodes node (sublist.subset member)
  have processes := kprocess_signal_cases t sigNum
  generalize t.kprocess_signal sigNum false = s at processes
  cases processes with
  | user missed =>
    apply BitsSet.clear (t := { t with delivered := _ })
    · exact ⟨set.nodes, set.bits⟩
    · exact kept.sorted.takes_none missed
  | more found => exact ⟨fewer (kept.sorted.takes found).sublist, set.bits⟩
  | last found =>
    have takes := kept.sorted.takes found
    apply BitsSet.clear
    · exact ⟨fewer takes.sublist, set.bits⟩
    · exact takes.last rfl

theorem BitsSet.processFault (absent : ∀ node ∈ t.firstQueuedSignal, node.SigNum ≠ sigNum) :
    BitsSet numbers (t.kprocess_signal sigNum true) :=
  BitsSet.clear (t := { t with delivered := _ }) ⟨set.nodes, set.bits⟩ absent

end

theorem BitsSet.step {op : SignalStep υ} (set : BitsSet numbers s) (kept : QueueKept numbers s)
    (meets : keepsBits numbers s op) (applies : (signalSystem υ numbers).step s op = some t) :
    BitsSet numbers t := by
  cases op with
  | kqueue_signal_to_thread_pl sigNum value target =>
    cases applies
    exact set.queueSignal meets
  | ksend_signal_to_thread sigNum target =>
    cases applies
    exact set.send
  | kprocess_signal sigNum extSigInfo =>
    cases applies
    cases extSigInfo with
    | false => exact set.process kept
    | true => exact set.processFault meets
  | kprocess_pending_signals pushes =>
    cases applies
    exact (processEach_keeps (P := fun t => BitsSet numbers t ∧ QueueKept numbers t)
      (fun _ _ both => ⟨both.1.process both.2, both.2.process⟩) _ s ⟨set, kept⟩).1
  | setMask blockedSignals =>
    cases applies
    exact ⟨set.nodes, set.bits⟩

theorem BitsSet.reaches
    (run : (signalSystem υ numbers).Reaches (keepsBits numbers) (SignalThread.initial υ) t) :
    BitsSet numbers t :=
  (run.invariant (fun t => BitsSet numbers t ∧ QueueKept numbers t) ⟨.initial, .initial⟩
    fun both meets applies => ⟨both.1.step both.2 meets applies, both.2.step applies⟩).1

theorem kprocess_signal_delivers (t : SignalThread υ) (sigNum : Int) :
    (t.kprocess_signal sigNum false).delivered.length = t.delivered.length + 1 := by
  have processes := kprocess_signal_cases t sigNum
  generalize t.kprocess_signal sigNum false = s at processes
  cases processes <;> simp [ClearPendingSignal]

theorem processEach_le (list : List Int) (t : SignalThread υ) :
    t.delivered.length ≤ (processEach pending pushes list t).delivered.length :=
  processEach_keeps (P := fun s => t.delivered.length ≤ s.delivered.length)
    (fun s sigNum longer => by rw [kprocess_signal_delivers]; omega) list t (Nat.le_refl _)

theorem processEach_lt {list : List Int} (t : SignalThread υ)
    (member : sigNum ∈ list) (isPending : pending sigNum = true) :
    t.delivered.length < (processEach pending pushes list t).delivered.length := by
  induction list with
  | nil => cases member
  | cons first rest ih =>
    have delivers := kprocess_signal_delivers t first
    unfold processEach
    split
    case isTrue =>
      dsimp only
      split
      · omega
      · have later := @processEach_le υ pending pushes rest (t.kprocess_signal first false)
        omega
    case isFalse notPending =>
      rcases mem_cons.mp member with isFirst | behind
      · rw [isFirst] at isPending
        exact absurd isPending notPending
      · exact ih behind

theorem BitsSet.delivers (set : BitsSet numbers t) (member : node ∈ t.firstQueuedSignal)
    (unblocked : t.blockedSignals node.SigNum = false) (pushes : Int → Bool) :
    t.delivered.length < (t.kprocess_pending_signals numbers pushes).delivered.length := by
  have isSet := set.nodes node member
  have hasBit := set.bits node.SigNum isSet
  unfold kprocess_pending_signals
  refine processEach_lt t (?_ : node.SigNum ∈ _) ?_
  · rw [mem_append]
    by_cases isFirst : node.SigNum ∈ [numbers.SIGKILL, numbers.SIGSTOP, numbers.SIGCONT]
    · exact .inl isFirst
    · right
      simp only [SignalNumbers.hasBit, Bool.and_eq_true, decide_eq_true_eq] at hasBit
      have number : ((node.SigNum - 1).toNat : Int) + 1 = node.SigNum := by omega
      have inside : (node.SigNum - 1).toNat < numbers.sigsetBits := by omega
      rw [mem_filter, List.mem_map]
      exact ⟨⟨_, mem_range.mpr inside, number⟩, decide_eq_true isFirst⟩
  · rw [isSet, unblocked]
    rfl

/-- The taking of a number that has nodes delivers the value of the first of them. -/
theorem QueueKept.delivers_first (kept : QueueKept numbers t) {value : υ} {more : List υ}
    (values : valuesOf sigNum t.firstQueuedSignal = value :: more) :
    (t.kprocess_signal sigNum false).delivered = t.delivered ++ [(sigNum, .queue value)] := by
  have processes := kprocess_signal_cases t sigNum
  generalize t.kprocess_signal sigNum false = s at processes
  cases processes with
  | user missed =>
    rw [valuesOf_eq_nil (kept.sorted.takes_none missed)] at values
    cases values
  | more found =>
    have taken := (kept.sorted.takes found).values
    rw [values, cons.injEq] at taken
    rw [taken.1]
  | last found =>
    have taken := (kept.sorted.takes found).values
    rw [values, cons.injEq] at taken
    show t.delivered ++ _ = _
    rw [taken.1]

/-- The queue is sorted and counted, realtime values are delivered once and in order, and
the others with the value queued last. -/
structure DeliversInOrder (numbers : SignalNumbers) (t : SignalThread υ) : Prop where
  sorted : t.firstQueuedSignal.Pairwise fun before after => before.SigNum ≤ after.SigNum
  counted : t.queuedSignalCount = t.firstQueuedSignal.length
  single : ∀ sigNum, sigNum < numbers.SIGRTMIN → (valuesOf sigNum t.firstQueuedSignal).length ≤ 1
  once : ∀ sigNum, numbers.SIGRTMIN ≤ sigNum → logged sigNum t.queuedLog =
    deliveredValues sigNum t.delivered ++ valuesOf sigNum t.firstQueuedSignal
  lastQueued : ∀ sigNum, sigNum < numbers.SIGRTMIN →
    ∀ value ∈ valuesOf sigNum t.firstQueuedSignal, (logged sigNum t.queuedLog).getLast? = some value
  first : ∀ sigNum value more, valuesOf sigNum t.firstQueuedSignal = value :: more →
    (t.kprocess_signal sigNum false).delivered = t.delivered ++ [(sigNum, .queue value)]

/-- Each number in the queue has its bit, so that what is not blocked comes to be delivered. -/
structure LosesNoSignal (numbers : SignalNumbers) (t : SignalThread υ) : Prop where
  pending : ∀ node ∈ t.firstQueuedSignal, t.pendingSignals node.SigNum = true
  delivers : ∀ node ∈ t.firstQueuedSignal, t.blockedSignals node.SigNum = false → ∀ pushes,
    t.delivered.length < (t.kprocess_pending_signals numbers pushes).delivered.length

end SignalThread

/-- In every run the queue delivers in order; and in the runs in which no fault comes with
information of its own while its number is queued, and no number without a bit is queued, no
queued signal is lost. -/
theorem queued_signals_delivered (numbers : SignalNumbers) :
    (∀ t : SignalThread υ, (signalSystem υ numbers).Reaches anyStep (SignalThread.initial υ) t →
      t.DeliversInOrder numbers) ∧
    ∀ t : SignalThread υ,
      (signalSystem υ numbers).Reaches (keepsBits numbers) (SignalThread.initial υ) t →
      t.LosesNoSignal numbers := by
  constructor
  · intro t run
    have kept := SignalThread.QueueKept.reaches run
    exact ⟨kept.sorted, kept.counted, kept.single, kept.fifo, kept.lastQueued,
      fun sigNum value more values => kept.delivers_first values⟩
  · intro t run
    have set := SignalThread.BitsSet.reaches run
    exact ⟨set.nodes, fun node member unblocked pushes => set.delivers member unblocked pushes⟩

/-- One of two values of a realtime signal is delivered. -/
theorem queued_signals_delivered_twice : ∃ t : SignalThread Nat, t.delivered = [(34, .queue 5)] ∧
    t.firstQueuedSignal = [⟨34, 6⟩] ∧ t.DeliversInOrder ⟨32, 9, 17, 19, 64, 64⟩ ∧
      t.LosesNoSignal ⟨32, 9, 17, 19, 64, 64⟩ := by
  let numbers : SignalNumbers := ⟨32, 9, 17, 19, 64, 64⟩
  let target : SignalTarget := ⟨false, false, true, false, true, false⟩
  have start : (signalSystem Nat numbers).Reaches (keepsBits numbers) (.initial Nat) _ := .refl
  have queued := start.next (.kqueue_signal_to_thread_pl 34 5 target) rfl rfl
  have both := queued.next (.kqueue_signal_to_thread_pl 34 6 target) rfl rfl
  have delivered := both.next (.kprocess_signal 34 false) trivial rfl
  have all := @queued_signals_delivered Nat numbers
  exact ⟨_, rfl, rfl, all.1 _ (delivered.mono fun _ _ _ => trivial), all.2 _ delivered⟩
/-- A fault clears the bit of a number that is still queued. -/
theorem queued_signal_lost_to_fault : ∃ t : SignalThread Nat,
    (signalSystem Nat ⟨32, 9, 17, 19, 64, 64⟩).Reaches anyStep (SignalThread.initial Nat) t ∧
      t.firstQueuedSignal = [⟨11, 5⟩] ∧ t.pendingSignals 11 = false := by
  let target : SignalTarget := ⟨false, false, true, false, true, false⟩
  have start : (signalSystem Nat ⟨32, 9, 17, 19, 64, 64⟩).Reaches anyStep (.initial Nat) _ := .refl
  have queued := start.next (.kqueue_signal_to_thread_pl 11 5 target) trivial rfl
  have faulted := queued.next (.kprocess_signal 11 true) trivial rfl
  exact ⟨_, faulted, rfl, rfl⟩

end PadOS.Kernel
