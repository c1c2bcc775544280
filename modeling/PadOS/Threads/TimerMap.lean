import Mathlib.Algebra.Group.Int.Defs
import Mathlib.Data.List.Pairwise
import Mathlib.Data.List.Sort
import PadOS.Core.Transition

/-! # The timers of a looper

The entries of `m_TimerMap` stand in the order of their keys, equal ones in the order they came.
An entry has a number, which is what an iterator denotes. The log is history: what was added,
removed and fired. `due` reads from it when a timer may fire next.
-/

namespace PadOS.Threads.TimerMap

open Transition List Option
open Function (update update_self update_of_ne)

/-- `TimeValNanos::infinit` -/
def infinit : Int := 2 ^ 63 - 1

/-- The sum of two times; a signed overflow is undefined. -/
def addTime (a b : Int) : Option Int :=
  if -2 ^ 63 ≤ a + b ∧ a + b ≤ infinit then some (a + b) else none

inductive Owner
  | none
  | this
  | other
  deriving DecidableEq

structure PEventTimer where
  looper : Owner := .none
  timeout : Int := 0
  isSingleshot : Bool := false
  timerMapIterator : Option Nat := none

structure Entry where
  number : Nat
  key : Int
  timer : Nat

inductive Event
  | added (timer : Nat) (expireTime : Int) (singleshot : Bool)
  | removed (timer : Nat)
  | fired (timer : Nat) (curTime timeout : Int)

def Event.timer : Event → Nat
  | .added timer _ _ | .removed timer | .fired timer _ _ => timer

/-- `terminated`: an exception has left `RunTimers`, and the thread with it. -/
inductive Phase
  | waiting
  | running (curTime : Int)
  | terminated
  | undefined
  deriving DecidableEq

structure PLooper where
  timerMap : List Entry := []
  nextEventTime : Int := infinit
  timers : Nat → PEventTimer := fun _ => {}
  entries : Nat := 0
  clock : Int := 0
  phase : Phase := .waiting
  log : List Event := []

/-! ## What the log says -/

def singleshotOf : List Event → Nat → Bool
  | [], _ => false
  | .added timer _ singleshot :: log, t => if timer = t then singleshot else singleshotOf log t
  | _ :: log, t => singleshotOf log t

/-- The expiry time of a timer that is to fire. -/
def due : List Event → Nat → Option Int
  | [], _ => none
  | .added timer expireTime _ :: log, t => if timer = t then some expireTime else due log t
  | .removed timer :: log, t => if timer = t then none else due log t
  | .fired timer curTime timeout :: log, t =>
    if timer = t then
      if singleshotOf log t then none
      else (due log t).map fun expireTime => max (curTime + 1) (expireTime + timeout)
    else due log t

/-- Every timer that has fired was due. -/
def Lawful : List Event → Prop
  | [] => True
  | .fired timer curTime _ :: log =>
    (∃ expireTime, due log timer = some expireTime ∧ expireTime ≤ curTime) ∧ Lawful log
  | _ :: log => Lawful log

namespace PLooper

/-! ## The functions of the looper -/

section

variable (s : PLooper)

def modify (timer : Nat) (f : PEventTimer → PEventTimer) : PLooper :=
  { s with timers := update s.timers timer (f (s.timers timer)) }

theorem modify_self (timer : Nat) (f : PEventTimer → PEventTimer) :
    (s.modify timer f).timers timer = f (s.timers timer) := update_self ..

/-- `erase` is undefined where the iterator denotes no entry. -/
def erase (iterator : Option Nat) : Option PLooper :=
  if ∃ e ∈ s.timerMap, some e.number = iterator then
    some { s with timerMap := s.timerMap.filter fun e => some e.number ≠ iterator }
  else none

def insert (key : Int) (timer : Nat) : PLooper :=
  { s.modify timer fun t => { t with timerMapIterator := some s.entries } with
    timerMap := s.timerMap.orderedInsert (fun e f => e.key < f.key) ⟨s.entries, key, timer⟩
    entries := s.entries + 1 }

def record (event : Event) : PLooper := { s with log := event :: s.log }

def undefine : PLooper := { s with phase := .undefined }

/-- The insertion of `AddTimer` with what follows it. -/
def arm (timer : Nat) (expireTime : Int) (singleshot : Bool) : PLooper :=
  let s := (s.insert expireTime timer).record (.added timer expireTime singleshot)
  if s.nextEventTime = infinit ∨ expireTime < s.nextEventTime then
    { s with nextEventTime := expireTime }
  else s

/-- `fails`: the insertion throws `bad_alloc`, which is caught. -/
def AddTimer (timer : Nat) (singleshot : Bool) (now : Int) (fails : Bool) : PLooper :=
  if (s.timers timer).looper = .other then s
  else
    let erased :=
      if (s.timers timer).looper = .this then s.erase (s.timers timer).timerMapIterator else some s
    match erased, addTime now (s.timers timer).timeout with
    | some s, some expireTime =>
      let s := s.modify timer fun t => { t with looper := .this, isSingleshot := singleshot }
      if fails then s else s.arm timer expireTime singleshot
    | _, _ => s.undefine

def firstKey : Int :=
  match s.timerMap with
  | [] => infinit
  | e :: _ => e.key

def RemoveTimer (timer : Nat) : PLooper :=
  if (s.timers timer).looper = .this then
    match s.erase (s.timers timer).timerMapIterator with
    | some s =>
      { (s.modify timer fun t => { t with looper := .none }).record (.removed timer) with
        nextEventTime := s.firstKey }
    | none => s.undefine
  else s

/-- An entry that has expired is taken out, and its timer is triggered. -/
def fire (curTime : Int) (e : Entry) (rest : List Entry) (fails : Bool) : PLooper :=
  let timer := s.timers e.timer
  let fired := Event.fired e.timer curTime timer.timeout
  let s := { s with timerMap := rest }
  if timer.isSingleshot then (s.modify e.timer fun t => { t with looper := .none }).record fired
  else
    match addTime curTime 1, addTime e.key timer.timeout with
    | some soon, some later =>
      if fails then { s with phase := .terminated }
      else (s.insert (max soon later) e.timer).record fired
    | _, _ => s.undefine

/-- One round of the loop of `RunTimers`, up to the callback. -/
def round (curTime : Int) (fails : Bool) : PLooper :=
  match s.timerMap with
  | [] => { s with nextEventTime := infinit, phase := .waiting }
  | e :: rest =>
    if e.key > curTime then { s with nextEventTime := e.key, phase := .waiting }
    else s.fire curTime e rest fails

/-- The looper waits, or is in the callback of a timer. -/
def isCallable : Bool :=
  match s.phase with
  | .waiting | .running _ => true
  | _ => false

end

end PLooper

/-- `setTimeout` is what `PEventTimer::Set` does before it adds the timer; `elsewhere` is what
another looper does with a timer that this one does not have. -/
inductive Op
  | AddTimer (timer : Nat) (singleshot : Bool) (now : Int) (fails : Bool)
  | RemoveTimer (timer : Nat)
  | RunTimers (now : Int)
  | round (fails : Bool)
  | setTimeout (timer : Nat) (timeout : Int)
  | elsewhere (timer : Nat) (looper : Owner) (isSingleshot : Bool)

def looperSystem : System PLooper Op where
  step s
    | .AddTimer timer singleshot now fails =>
      if s.isCallable ∧ s.clock ≤ now then
        some ({ s with clock := now }.AddTimer timer singleshot now fails)
      else none
    | .RemoveTimer timer => if s.isCallable then some (s.RemoveTimer timer) else none
    | .RunTimers now =>
      if s.phase = .waiting ∧ s.clock ≤ now then
        some { s with clock := now, phase := .running now }
      else none
    | .round fails =>
      match s.phase with
      | .running curTime => some (s.round curTime fails)
      | _ => none
    | .setTimeout timer timeout =>
      if s.isCallable then some (s.modify timer fun t => { t with timeout := timeout }) else none
    | .elsewhere timer looper isSingleshot =>
      if s.isCallable ∧ (s.timers timer).looper ≠ .this ∧ looper ≠ .this then
        some (s.modify timer fun t => { t with looper := looper, isSingleshot := isSingleshot })
      else none

/-- The sum of two times is a time and not the infinite one. -/
def IsFinite (a b : Int) : Prop := -2 ^ 63 ≤ a + b ∧ a + b < infinit

/-- No insertion of `AddTimer` fails, and no time that is computed overflows or is infinite. -/
def armsInTime : Condition PLooper Op
  | s, .AddTimer timer _ now fails =>
    (s.timers timer).looper ≠ .other → fails = false ∧ IsFinite now (s.timers timer).timeout
  | s, .round _ => ∀ curTime e rest, s.phase = .running curTime → s.timerMap = e :: rest →
      e.key ≤ curTime → (s.timers e.timer).isSingleshot = false →
        IsFinite curTime 1 ∧ IsFinite e.key (s.timers e.timer).timeout
  | _, _ => True

/-- The map has one entry for each timer of the looper, which the iterator of the timer denotes,
and no entry is earlier than the next event. -/
structure Consistent (s : PLooper) : Prop where
  numbers : s.timerMap.Pairwise fun e f => e.number ≠ f.number
  owned : ∀ t, (s.timers t).looper = .this → ∃ e ∈ s.timerMap, e.timer = t ∧
    (s.timers t).timerMapIterator = some e.number ∧ ∀ f ∈ s.timerMap, f.timer = t → f = e
  others : ∀ e ∈ s.timerMap, (s.timers e.timer).looper = .this
  early : ∀ e ∈ s.timerMap, s.nextEventTime ≤ e.key
  infinite : s.nextEventTime = infinit → s.timerMap = []

/-! ## The invariant -/

variable {s u : PLooper} {t : Nat} {out : Option Nat} {e : Entry} {rest : List Entry}
  {key : Int} {event : Event}

/-- What an entry, its timer and the log say of each other. -/
structure Holds (s : PLooper) (e : Entry) : Prop where
  looper : (s.timers e.timer).looper = .this
  iterator : (s.timers e.timer).timerMapIterator = some e.number
  old : e.number < s.entries
  finite : e.key < infinit
  due : due s.log e.timer = some e.key
  singleshot : singleshotOf s.log e.timer = (s.timers e.timer).isSingleshot

/-- What is said of one timer is the same in two states. -/
structure Agrees (s u : PLooper) (t : Nat) : Prop where
  looper : (u.timers t).looper = (s.timers t).looper
  iterator : (u.timers t).timerMapIterator = (s.timers t).timerMapIterator
  isSingleshot : (u.timers t).isSingleshot = (s.timers t).isSingleshot
  due : due u.log t = due s.log t
  singleshot : singleshotOf u.log t = singleshotOf s.log t

theorem Agrees.of_eq (timer : u.timers t = s.timers t) (log : u.log = s.log) : Agrees s u t := by
  constructor <;> simp only [timer, log]

theorem Holds.change (held : Holds s e) (agrees : Agrees s u e.timer)
    (entries : s.entries ≤ u.entries) : Holds u e where
  looper := agrees.looper.trans held.looper
  iterator := agrees.iterator.trans held.iterator
  old := Nat.lt_of_lt_of_le held.old entries
  finite := held.finite
  due := agrees.due.trans held.due
  singleshot := agrees.singleshot.trans (held.singleshot.trans agrees.isSingleshot.symm)

def Entry.Apart (e f : Entry) : Prop := e.number ≠ f.number ∧ e.timer ≠ f.timer

instance : Std.Symm Entry.Apart := ⟨fun _ _ apart => ⟨apart.1.symm, apart.2.symm⟩⟩

/-- The entry of the timer `out` is taken out. -/
structure Kept (out : Option Nat) (s : PLooper) : Prop where
  sorted : s.timerMap.Pairwise fun e f => e.key ≤ f.key
  apart : s.timerMap.Pairwise Entry.Apart
  entry : ∀ e ∈ s.timerMap, Holds s e
  mapped : ∀ t, some t ≠ out → (s.timers t).looper = .this → ∃ e ∈ s.timerMap, e.timer = t
  taken : ∀ e ∈ s.timerMap, some e.timer ≠ out
  lawful : Lawful s.log

theorem due_cons (other : event.timer ≠ t) (log : List Event) : due (event :: log) t = due log t := by
  cases event <;> exact if_neg other

theorem singleshotOf_cons (other : event.timer ≠ t) (log : List Event) :
    singleshotOf (event :: log) t = singleshotOf log t := by
  cases event with
  | added => exact if_neg other
  | removed | fired => rfl

theorem Agrees.record (other : event.timer ≠ t) (timer : u.timers t = s.timers t)
    (log : u.log = event :: s.log) : Agrees s u t where
  looper := congrArg PEventTimer.looper timer
  iterator := congrArg PEventTimer.timerMapIterator timer
  isSingleshot := congrArg PEventTimer.isSingleshot timer
  due := log ▸ due_cons other _
  singleshot := log ▸ singleshotOf_cons other _

theorem sorted_insert {entries : List Entry} (sorted : entries.Pairwise fun e f => e.key ≤ f.key)
    (e : Entry) : (entries.orderedInsert (fun e f => e.key < f.key) e).Pairwise
      fun e f => e.key ≤ f.key := by
  induction entries with
  | nil => exact pairwise_singleton _ _
  | cons f entries ih =>
    rw [pairwise_cons] at sorted
    rw [orderedInsert_cons]
    split
    · rename_i less
      refine pairwise_cons.2 ⟨fun g member => ?_, pairwise_cons.2 sorted⟩
      rcases mem_cons.1 member with rfl | behind
      · exact Int.le_of_lt less
      · exact Int.le_trans (Int.le_of_lt less) (sorted.1 g behind)
    · rename_i notLess
      refine pairwise_cons.2 ⟨fun g member => ?_, ih sorted.2⟩
      rcases mem_cons.1 ((perm_orderedInsert _ e entries).mem_iff.1 member) with rfl | behind
      · exact Int.not_lt.1 notLess
      · exact sorted.1 g behind

theorem Entry.eq_of_timer {entries : List Entry} {f : Entry}
    (apart : entries.Pairwise Entry.Apart)
    (member : e ∈ entries) (member' : f ∈ entries) (same : e.timer = f.timer) : e = f := by
  by_contra differ
  exact (apart.forall member member' differ).2 same

namespace Kept

theorem initial : Kept none {} := by
  constructor <;> simp [Lawful]

theorem change (kept : Kept out s) (map : u.timerMap = s.timerMap) (entries : s.entries = u.entries)
    (agrees : ∀ t, some t ≠ out → Agrees s u t) (lawful : Lawful u.log) : Kept out u where
  sorted := map ▸ kept.sorted
  apart := map ▸ kept.apart
  entry := by
    intro e member
    rw [map] at member
    exact (kept.entry e member).change (agrees _ (kept.taken e member)) entries.le
  mapped := by
    intro t other isOurs
    rw [map]
    exact kept.mapped t other ((agrees t other).looper.symm.trans isOurs)
  taken := map ▸ kept.taken
  lawful := lawful

/-- Neither the map nor the timers nor the log change. -/
theorem same (kept : Kept out s) (map : u.timerMap = s.timerMap) (timers : u.timers = s.timers)
    (entries : s.entries = u.entries) (log : u.log = s.log) : Kept out u :=
  kept.change map entries (fun t _ => .of_eq (congrFun timers t) log) (log ▸ kept.lawful)

section

variable (kept : Kept none s)

include kept

theorem consistent (early : ∀ e ∈ s.timerMap, s.nextEventTime ≤ e.key)
    (infinite : s.nextEventTime = infinit → s.timerMap = []) : Consistent s where
  numbers := kept.apart.imp And.left
  owned := by
    intro t isOurs
    rcases kept.mapped t nofun isOurs with ⟨e, member, rfl⟩
    exact ⟨e, member, rfl, (kept.entry e member).iterator,
      fun f member' same => Entry.eq_of_timer kept.apart member' member same⟩
  others := fun e member => (kept.entry e member).looper
  early := early
  infinite := infinite

/-- A timer that is not in the map. -/
theorem unowned (notOurs : (s.timers t).looper ≠ .this) : Kept (some t) s where
  sorted := kept.sorted
  apart := kept.apart
  entry := kept.entry
  mapped := fun t' _ isOurs => kept.mapped t' nofun isOurs
  taken := by
    rintro e member ⟨⟩
    exact notOurs (kept.entry e member).looper
  lawful := kept.lawful

theorem tail (first : s.timerMap = e :: rest) :
    Kept (some e.timer) { s with timerMap := rest } := by
  have sorted := kept.sorted
  have apart := kept.apart
  rw [first, pairwise_cons] at sorted apart
  have behind : ∀ f ∈ rest, f ∈ s.timerMap := fun f member => first ▸ mem_cons_of_mem e member
  refine ⟨sorted.2, apart.2, fun f member => ?_, ?_, ?_, kept.lawful⟩
  · exact (kept.entry f (behind f member)).change (.of_eq rfl rfl) le_rfl
  · intro t other isOurs
    rcases kept.mapped t nofun isOurs with ⟨f, member, rfl⟩
    rw [first] at member
    rcases mem_cons.1 member with rfl | member
    · exact absurd rfl other
    · exact ⟨f, member, rfl⟩
  · rintro f member same
    exact (apart.1 f member).2 (some.inj same).symm

theorem erase (isOurs : (s.timers t).looper = .this) :
    ∃ entries, s.erase (s.timers t).timerMapIterator = some { s with timerMap := entries } ∧
      Kept (some t) { s with timerMap := entries } ∧ ∀ e ∈ entries, e ∈ s.timerMap := by
  rcases kept.mapped t nofun isOurs with ⟨e, member, rfl⟩
  have held := kept.entry e member
  have fewer {f : Entry} : f ∈ s.timerMap.filter (fun f =>
      some f.number ≠ (s.timers e.timer).timerMapIterator) ↔ f ∈ s.timerMap ∧ f.timer ≠ e.timer := by
    rw [mem_filter, held.iterator, decide_eq_true_eq, ne_eq, some.injEq]
    refine and_congr_right fun member' => not_congr ⟨fun same => ?_, fun same => ?_⟩
    · by_contra differ
      have ne : f ≠ e := fun same => differ (by rw [same])
      exact (kept.apart.forall member' member ne).1 same
    · rw [Entry.eq_of_timer kept.apart member' member same]
  refine ⟨_, if_pos ⟨e, member, held.iterator.symm⟩, ⟨?_, ?_, ?_, ?_, ?_, kept.lawful⟩,
    fun f member => (fewer.1 member).1⟩
  · exact kept.sorted.filter _
  · exact kept.apart.filter _
  · intro f member
    exact (kept.entry f (fewer.1 member).1).change (.of_eq rfl rfl) le_rfl
  · intro t other isOurs
    rcases kept.mapped t nofun isOurs with ⟨f, member, rfl⟩
    exact ⟨f, fewer.2 ⟨member, fun same => other (by rw [same])⟩, rfl⟩
  · intro f member same
    exact (fewer.1 member).2 (some.inj same)

end

section

variable (kept : Kept (some t) s)

include kept

theorem free (notOurs : (s.timers t).looper ≠ .this) : Kept none s where
  sorted := kept.sorted
  apart := kept.apart
  entry := kept.entry
  mapped := by
    intro t' _ isOurs
    apply kept.mapped t' _ isOurs
    rintro ⟨⟩
    exact notOurs isOurs
  taken := fun _ _ => nofun
  lawful := kept.lawful

theorem insert (isOurs : (s.timers t).looper = .this)
    (finite : key < infinit) (dueNow : due s.log t = some key)
    (singleshot : singleshotOf s.log t = (s.timers t).isSingleshot) : Kept none (s.insert key t) := by
  have here : (s.insert key t).timers t = { s.timers t with timerMapIterator := some s.entries } :=
    update_self ..
  have other : ∀ t', t' ≠ t → (s.insert key t).timers t' = s.timers t' :=
    fun t' ne => update_of_ne ne ..
  have perm := perm_orderedInsert (fun e f : Entry => e.key < f.key) ⟨s.entries, key, t⟩ s.timerMap
  have differs : ∀ e ∈ s.timerMap, e.timer ≠ t := fun e member same =>
    kept.taken e member (congrArg some same)
  refine ⟨sorted_insert kept.sorted _, ?_, fun e member => ?_, fun t' _ isOurs' => ?_,
    fun _ _ => nofun, kept.lawful⟩
  · apply (perm.pairwise_iff fun apart => symm_of Entry.Apart apart).2
    refine pairwise_cons.2 ⟨fun e member => ⟨?_, (differs e member).symm⟩, kept.apart⟩
    exact Nat.ne_of_gt (kept.entry e member).old
  · rcases mem_cons.1 (perm.mem_iff.1 member) with rfl | member
    · refine ⟨?_, ?_, Nat.lt_succ_self _, finite, dueNow, ?_⟩
      · rw [here]
        exact isOurs
      · rw [here]
      · rw [here]
        exact singleshot
    · apply (kept.entry e member).change _ (Nat.le_succ _)
      exact .of_eq (other _ (differs e member)) rfl
  · by_cases same : t' = t
    · exact ⟨_, perm.mem_iff.2 mem_cons_self, same.symm⟩
    · rw [other t' same] at isOurs'
      rcases kept.mapped t' (fun is => same (some.inj is)) isOurs' with ⟨e, member, isTimer⟩
      exact ⟨e, perm.mem_iff.2 (mem_cons_of_mem _ member), isTimer⟩

/-- The log tells of an event of the timer that is taken out. -/
theorem record (isTimer : event.timer = t)
    (map : u.timerMap = s.timerMap) (entries : s.entries = u.entries)
    (others : ∀ t', t' ≠ t → u.timers t' = s.timers t') (log : u.log = event :: s.log)
    (lawful : Lawful (event :: s.log)) : Kept (some t) u := by
  apply kept.change map entries _ (log ▸ lawful)
  intro t' other
  have ne : t' ≠ t := fun same => other (congrArg some same)
  exact .record (isTimer ▸ ne.symm) (others t' ne) log

theorem arm (finite : key < infinit) (singleshot : Bool) :
    Kept none ((s.modify t fun timer =>
      { timer with looper := .this, isSingleshot := singleshot }).arm t key singleshot) := by
  have added : Kept (some t) ((s.modify t fun timer =>
      { timer with looper := .this, isSingleshot := singleshot }).record
        (.added t key singleshot)) :=
    kept.record rfl rfl rfl (fun _ other => update_of_ne other ..) rfl kept.lawful
  have here : (update s.timers t { s.timers t with looper := .this, isSingleshot := singleshot }) t =
      { s.timers t with looper := .this, isSingleshot := singleshot } := update_self ..
  have inserted := added.insert (congrArg PEventTimer.looper here) finite (if_pos rfl)
    ((if_pos rfl).trans (congrArg PEventTimer.isSingleshot here).symm)
  unfold PLooper.arm
  dsimp only
  split <;> exact inserted.same rfl rfl rfl rfl

end

end Kept

/-- The looper wakes up in time for every entry. -/
structure Early (s : PLooper) : Prop where
  first : ∀ e ∈ s.timerMap, s.nextEventTime ≤ e.key
  infinite : s.nextEventTime = infinit → s.timerMap = []

theorem Early.fewer (early : Early s) (next : u.nextEventTime = s.nextEventTime)
    (fewer : ∀ e ∈ u.timerMap, e ∈ s.timerMap) : Early u where
  first := fun e member => next ▸ early.first e (fewer e member)
  infinite := by
    intro isInfinite
    have empty := early.infinite (next.symm.trans isInfinite)
    rw [empty] at fewer
    exact eq_nil_iff_forall_not_mem.2 fun e member => not_mem_nil (fewer e member)

theorem Early.arm (early : Early s) (finite : key < infinit) (singleshot : Bool) :
    Early (s.arm t key singleshot) := by
  have entries : ∀ e ∈ (s.insert key t).timerMap, e.key = key ∨ e ∈ s.timerMap := by
    intro e member
    rcases mem_cons.1 ((perm_orderedInsert ..).mem_iff.1 member) with rfl | member
    · exact .inl rfl
    · exact .inr member
  unfold PLooper.arm
  dsimp only
  split
  · rename_i wakes
    refine ⟨fun e member => ?_, fun isInfinite => absurd isInfinite (Int.ne_of_lt finite)⟩
    rcases entries e member with same | old
    · exact Int.le_of_eq same.symm
    · rcases wakes with asleep | sooner
      · rw [early.infinite asleep] at old
        exact absurd old not_mem_nil
      · exact (Int.le_of_lt sooner).trans (early.first e old)
  · rename_i wakes
    rw [not_or, Int.not_lt] at wakes
    refine ⟨fun e member => ?_, fun isInfinite => absurd isInfinite wakes.1⟩
    rcases entries e member with same | old
    · exact same ▸ wakes.2
    · exact early.first e old

theorem Kept.early (kept : Kept out s) (next : s.nextEventTime = s.firstKey) : Early s where
  first := by
    intro e member
    have sorted := kept.sorted
    rw [next, PLooper.firstKey]
    split
    · rename_i empty
      rw [empty] at member
      exact absurd member not_mem_nil
    · rename_i first rest here
      rw [here] at member sorted
      rcases mem_cons.1 member with rfl | behind
      · exact Int.le_refl _
      · exact (pairwise_cons.1 sorted).1 e behind
  infinite := by
    intro isInfinite
    rw [next, PLooper.firstKey] at isInfinite
    split at isInfinite
    · assumption
    · rename_i e rest here
      exact absurd isInfinite (Int.ne_of_lt (kept.entry e (here ▸ mem_cons_self)).finite)

/-- What a call from a callback, or from outside of the loop, keeps. -/
structure Keeps (s u : PLooper) : Prop where
  phase : u.phase = s.phase
  kept : Kept none u
  early : Early s → Early u

theorem addTime_finite {a b : Int} (finite : IsFinite a b) : addTime a b = some (a + b) :=
  if_pos ⟨finite.1, Int.le_of_lt finite.2⟩

theorem arm_phase (s : PLooper) (t : Nat) (key : Int) (singleshot : Bool) :
    (s.arm t key singleshot).phase = s.phase := by
  unfold PLooper.arm
  dsimp only
  split <;> rfl

section

variable (kept : Kept none s)

include kept

theorem Kept.addTimer (singleshot : Bool) {fails : Bool} {now : Int}
    (meets : armsInTime s (.AddTimer t singleshot now fails)) :
    Keeps s (s.AddTimer t singleshot now fails) := by
  unfold PLooper.AddTimer
  split
  · exact ⟨rfl, kept, id⟩
  · rename_i notOther
    rcases meets notOther with ⟨rfl, finite⟩
    have armed {u : PLooper} (phase : u.phase = s.phase) (out : Kept (some t) u)
        (next : u.nextEventTime = s.nextEventTime) (fewer : ∀ e ∈ u.timerMap, e ∈ s.timerMap) :
        Keeps s ((u.modify t fun timer =>
          { timer with looper := .this, isSingleshot := singleshot }).arm t
            (now + (s.timers t).timeout) singleshot) := by
      refine ⟨?_, out.arm finite.2 singleshot, fun early => ?_⟩
      · rw [arm_phase]
        exact phase
      · exact (early.fewer (u := u.modify t _) next fewer).arm finite.2 singleshot
    rw [addTime_finite finite]
    split
    · rename_i isOurs
      rcases kept.erase isOurs with ⟨entries, erased, out, fewer⟩
      rw [erased]
      exact armed rfl out rfl fewer
    · rename_i notOurs
      exact armed rfl (kept.unowned notOurs) rfl fun _ => id

theorem Kept.removeTimer (t : Nat) : Keeps s (s.RemoveTimer t) := by
  unfold PLooper.RemoveTimer
  split
  · rename_i isOurs
    rcases kept.erase isOurs with ⟨entries, erased, out, -⟩
    rw [erased]
    have removed : Kept (some t) { ({ s with timerMap := entries }.modify t fun timer =>
        { timer with looper := .none }).record (.removed t) with
          nextEventTime := ({ s with timerMap := entries } : PLooper).firstKey } :=
      out.record rfl rfl rfl (fun _ other => update_of_ne other ..) rfl kept.lawful
    refine ⟨rfl, removed.free ?_, fun _ => removed.early rfl⟩
    exact fun isOurs => nomatch (congrArg PEventTimer.looper (update_self ..)).symm.trans isOurs
  · exact ⟨rfl, kept, id⟩

theorem Kept.setTimeout (t : Nat) (timeout : Int) :
    Keeps s (s.modify t fun timer => { timer with timeout := timeout }) := by
  refine ⟨rfl, kept.change rfl rfl (fun t' _ => ?_) kept.lawful, fun early => ⟨early.1, early.2⟩⟩
  by_cases same : t' = t
  · subst same
    refine ⟨?_, ?_, ?_, rfl, rfl⟩ <;> rw [PLooper.modify_self]
  · exact .of_eq (update_of_ne same ..) rfl

theorem Kept.elsewhere (notOurs : (s.timers t).looper ≠ .this) {owner : Owner}
    (other : owner ≠ .this) (singleshot : Bool) :
    Keeps s (s.modify t fun timer =>
      { timer with looper := owner, isSingleshot := singleshot }) := by
  refine ⟨rfl, ?_, fun early => ⟨early.1, early.2⟩⟩
  have out := (kept.unowned notOurs).change (u := s.modify t fun timer =>
      { timer with looper := owner, isSingleshot := singleshot }) rfl rfl (fun t' differs =>
    .of_eq (update_of_ne (fun same => differs (congrArg some same)) ..) rfl) kept.lawful
  refine out.free fun isOurs => other ?_
  exact (congrArg PEventTimer.looper (update_self ..)).symm.trans isOurs

end

/-- What a run keeps. -/
structure Sound (s : PLooper) : Prop where
  defined : s.phase ≠ .undefined
  lawful : Lawful s.log
  kept : s.phase ≠ .terminated → Kept none s
  early : s.phase = .waiting → Early s

namespace Sound

theorem initial : Sound {} where
  defined := nofun
  lawful := trivial
  kept := fun _ => .initial
  early := fun _ => ⟨nofun, fun _ => rfl⟩

theorem of_keeps (sound : Sound s) (keeps : Keeps s u) : Sound u where
  defined := keeps.phase ▸ sound.defined
  lawful := keeps.kept.lawful
  kept := fun _ => keeps.kept
  early := fun waits => keeps.early (sound.early (keeps.phase.symm.trans waits))

theorem of_running {curTime : Int} (kept : Kept none s) (runs : s.phase = .running curTime) :
    Sound s where
  defined := runs ▸ nofun
  lawful := kept.lawful
  kept := fun _ => kept
  early := runs ▸ nofun

theorem callable (sound : Sound s) (calls : s.isCallable = true) : Kept none s := by
  apply sound.kept
  intro terminated
  rw [PLooper.isCallable, terminated] at calls
  exact nomatch calls

theorem fire (kept : Kept none s) {curTime : Int} (runs : s.phase = .running curTime)
    (first : s.timerMap = e :: rest) (expired : e.key ≤ curTime) (fails : Bool)
    (finite : (s.timers e.timer).isSingleshot = false →
      IsFinite curTime 1 ∧ IsFinite e.key (s.timers e.timer).timeout) :
    Sound (s.fire curTime e rest fails) := by
  have held := kept.entry e (first ▸ mem_cons_self)
  have lawful : Lawful (.fired e.timer curTime (s.timers e.timer).timeout :: s.log) :=
    ⟨⟨e.key, held.due, expired⟩, kept.lawful⟩
  unfold PLooper.fire
  dsimp only
  split
  · have fired := (kept.tail first).record (u := ({ s with timerMap := rest }.modify e.timer
        fun timer => { timer with looper := .none }).record
          (.fired e.timer curTime (s.timers e.timer).timeout))
      rfl rfl rfl (fun _ other => update_of_ne other ..) rfl lawful
    refine of_running (fired.free fun isOurs => ?_) runs
    exact nomatch (congrArg PEventTimer.looper (update_self ..)).symm.trans isOurs
  · rename_i periodic
    have periodic := Bool.eq_false_iff.2 periodic
    rcases finite periodic with ⟨soon, later⟩
    rw [addTime_finite soon, addTime_finite later]
    cases fails with
    | true => exact ⟨nofun, kept.lawful, fun runs => absurd rfl runs, nofun⟩
    | false =>
      have fired := (kept.tail first).record (u := { s with timerMap := rest }.record
          (.fired e.timer curTime (s.timers e.timer).timeout)) rfl rfl rfl (fun _ _ => rfl) rfl lawful
      have singleshot := held.singleshot
      apply of_running (fired.insert held.looper (max_lt soon.2 later.2) _ singleshot) runs
      have rearmed : due (.fired e.timer curTime (s.timers e.timer).timeout :: s.log) e.timer =
          some (max (curTime + 1) (e.key + (s.timers e.timer).timeout)) := by
        simp [due, singleshot, periodic, held.due]
      exact rearmed

theorem round (kept : Kept none s) {curTime : Int} {fails : Bool}
    (runs : s.phase = .running curTime) (meets : armsInTime s (.round fails)) :
    Sound (s.round curTime fails) := by
  unfold PLooper.round
  split
  · rename_i empty
    have waits : Kept none { s with nextEventTime := infinit, phase := .waiting } :=
      kept.same rfl rfl rfl rfl
    exact ⟨nofun, kept.lawful, fun _ => waits, fun _ => waits.early (by simp [PLooper.firstKey, empty])⟩
  · rename_i e rest first
    split
    · have waits : Kept none { s with nextEventTime := e.key, phase := .waiting } :=
        kept.same rfl rfl rfl rfl
      exact ⟨nofun, kept.lawful, fun _ => waits, fun _ => waits.early (by simp [PLooper.firstKey, first])⟩
    · rename_i expired
      have expired := Int.not_lt.1 expired
      exact fire kept runs first expired fails (meets curTime e rest runs first expired)

theorem step {op : Op} (sound : Sound s) (meets : armsInTime s op)
    (applies : looperSystem.step s op = some u) : Sound u := by
  cases op with
  | AddTimer timer singleshot now fails =>
    rcases ite_none_right_eq_some.1 applies with ⟨⟨calls, -⟩, ⟨⟩⟩
    have kept : Kept none { s with clock := now } := (sound.callable calls).same rfl rfl rfl rfl
    have added := kept.addTimer singleshot meets
    exact sound.of_keeps ⟨added.phase, added.kept, fun early => added.early ⟨early.1, early.2⟩⟩
  | RemoveTimer timer =>
    rcases ite_none_right_eq_some.1 applies with ⟨calls, ⟨⟩⟩
    exact sound.of_keeps ((sound.callable calls).removeTimer timer)
  | RunTimers now =>
    rcases ite_none_right_eq_some.1 applies with ⟨⟨waits, -⟩, ⟨⟩⟩
    have kept : Kept none { s with clock := now, phase := .running now } :=
      (sound.kept (waits ▸ nofun)).same rfl rfl rfl rfl
    exact of_running kept rfl
  | round fails =>
    simp only [looperSystem] at applies
    split at applies
    · rename_i curTime runs
      cases applies
      exact round (sound.kept (runs ▸ nofun)) runs meets
    · cases applies
  | setTimeout timer timeout =>
    rcases ite_none_right_eq_some.1 applies with ⟨calls, ⟨⟩⟩
    exact sound.of_keeps ((sound.callable calls).setTimeout timer timeout)
  | elsewhere timer looper singleshot =>
    rcases ite_none_right_eq_some.1 applies with ⟨⟨calls, notOurs, other⟩, ⟨⟩⟩
    exact sound.of_keeps ((sound.callable calls).elsewhere notOurs other singleshot)

end Sound

/-! ## Every run -/

theorem timers_consistent (run : looperSystem.Reaches armsInTime {} s) :
    s.phase ≠ .undefined ∧ Lawful s.log ∧ (s.phase = .waiting → Consistent s) := by
  have sound := run.invariant Sound .initial Sound.step
  refine ⟨sound.defined, sound.lawful, fun waits => ?_⟩
  have early := sound.early waits
  exact (sound.kept (waits ▸ nofun)).consistent early.first early.infinite

/-- A timer of 5 ns is added at 10 ns and fires at 20 ns, with which it is added anew. -/
theorem timers_consistent_fired : ∃ s, looperSystem.Reaches armsInTime {} s ∧ s.phase = .waiting ∧
    s.log.length = 2 ∧ Consistent s := by
  have finite (a b : Int) (low : 0 ≤ a + b) (high : a + b < 1000) : IsFinite a b := by
    unfold IsFinite infinit
    omega
  have set : looperSystem.Reaches armsInTime {} _ :=
    System.Reaches.refl.next (.setTimeout 0 5) trivial rfl
  have added := set.next (.AddTimer 0 false 10 false)
    (fun _ => ⟨rfl, finite _ _ (by decide) (by decide)⟩) rfl
  have fired := (added.next (.RunTimers 20) trivial rfl).next (.round false) (by
      rintro _ _ _ ⟨⟩ ⟨⟩ _ _
      exact ⟨finite _ _ (by decide) (by decide), finite _ _ (by decide) (by decide)⟩) rfl
  have waits := fired.next (.round false) (by
      rintro _ _ _ ⟨⟩ ⟨⟩ expired
      exact absurd expired (by decide)) rfl
  exact ⟨_, waits, rfl, rfl, (timers_consistent waits).2.2 rfl⟩

/-- The timer is the looper's, but its insertion has failed. -/
theorem not_timers_consistent : ¬∀ s, looperSystem.Reaches anyStep {} s →
    s.phase ≠ .undefined ∧ Lawful s.log ∧ (s.phase = .waiting → Consistent s) := by
  intro always
  have fails : looperSystem.step {} (.AddTimer 0 false 0 true) = some _ := rfl
  rcases ((always _ (.single trivial fails)).2.2 rfl).owned 0 rfl with ⟨e, member, -⟩
  exact absurd member not_mem_nil

end PadOS.Threads.TimerMap
