import PadOS.BlockCache.Coherence
import PadOS.BlockCache.Flush

/-! # Sync

`Sync` asks for a flush and waits on `s_FlushingDoneConditionVar` once, whoever
wakes it. The flusher wakes it after each requested segment and at the end of a
round, and every client that lets go of the last reference to a block does too.
-/

namespace PadOS.BlockCache

open Transition State List Function

variable {n : Nat} {s t u : State n} {h : Fin n}

/-- No block is marked meanwhile and no write fails. -/
def Quiet : Condition (State n) (Op n)
  | _, .markBlockDirty .. => False
  | _, .markDirty .. => False
  | _, .writeDone outcome => outcome = .completed
  | _, _ => True

/-- `Sync`, called in `s`, may return true in `t`: at once, or at any time after
the first wakeup that came after its wait began. -/
inductive SyncReturns (s t : State n) : Prop
  | atOnce (clean : s.flushInternal.dirtyBlockCount = 0) (now : t = s.flushInternal)
  | woken (dirty : s.flushInternal.dirtyBlockCount ≠ 0)
      (run : (system n).Reaches Quiet s.flushInternal t)
      (wakeup : s.flushInternal.doneWakeups < t.doneWakeups)

/-- Whatever comes between, no block that is dirty at the call is dirty when
`Sync` returns. -/
def SyncDurable (s : State n) : Prop :=
  ∀ t, SyncReturns s t → ∀ h, (s.header h).dirty → (t.header h).dirty = false

theorem removeRef_wakes (last : (s.header h).useCount = 1) :
    (s.removeRef h).doneWakeups = s.doneWakeups + 1 := by
  simp [removeRef, modifyHeader, wakeDone, last]

theorem removeRef_useCount {k : Nat} (more : (s.header h).useCount = k + 2) :
    ((s.removeRef h).header h).useCount = k + 1 ∧ (s.removeRef h).doneWakeups = s.doneWakeups := by
  simp [removeRef, modifyHeader, more]

theorem removeRef_dirty : ((s.removeRef h).header h).dirty = (s.header h).dirty := by
  unfold removeRef
  dsimp only
  split <;> simp [wakeDone]

theorem exists_wakeup (k : Nat) (used : (s.header h).useCount = k + 1)
    (dirty : (s.header h).dirty = true) :
    ∃ t, (system n).Reaches Quiet s t ∧ s.doneWakeups < t.doneWakeups ∧
      (t.header h).dirty = true := by
  induction k generalizing s with
  | zero =>
    have releases : (system n).step s (.release h) = some (s.removeRef h) := by
      simp [system, step, used]
    refine ⟨_, .single (by trivial) releases, ?_, ?_⟩
    · rw [removeRef_wakes used]
      omega
    · rw [removeRef_dirty, dirty]
  | succ k ih =>
    have releases : (system n).step s (.release h) = some (s.removeRef h) := by
      simp [system, step, used]
    obtain ⟨fewer, same⟩ := removeRef_useCount used
    obtain ⟨t, run, wakeup, still⟩ := ih fewer (removeRef_dirty.trans dirty)
    refine ⟨t, .head (by trivial) releases run, ?_, still⟩
    omega

theorem exists_wakeup_of_known (w : Wellformed s) (dirty : (s.header h).dirty = true) :
    ∃ t, (system n).Reaches Quiet s t ∧ s.doneWakeups < t.doneWakeups ∧
      (t.header h).dirty = true := by
  obtain ⟨c, b, found⟩ := w.held h (.inr dirty)
  obtain ⟨cached, _⟩ := w.mapped c b h found
  let blockNum := b <<< (s.cache c).blockToBufferShift
  have number : (s.cache c).bufferNum blockNum = b := by
    simp [KBlockCache.bufferNum, blockNum, Nat.shiftLeft_shiftRight]
  let read : State n := { s.addRef h with mruList := s.mruList.erase h ++ [h] }
  have reads : (system n).step s (.getBlock c blockNum .complete) = some read := by
    simp [system, step, getBlock, number, found, cached, read]
  have used : (read.header h).useCount = (s.header h).useCount + 1 := by
    simp [read, addRef]
  obtain ⟨t, run, wakeup, still⟩ := exists_wakeup (s := read) _ used
    (by simpa [read, addRef] using dirty)
  exact ⟨t, .head (by trivial) reads run, wakeup, still⟩

theorem counted_of_keepsMaps (run : (system n).Reaches KeepsMaps (initialState n) s) :
    s.Counted := by
  have both : Wellformed s ∧ s.Counted := by
    refine run.invariant (fun s => Wellformed s ∧ s.Counted) ⟨.initial, .initial⟩ fun inv meets applies => ?_
    exact ⟨inv.1.step meets applies, inv.2.step inv.1.toPooled applies⟩
  exact both.2

theorem flushInternal_dirty (s : State n) (h : Fin n) :
    (s.flushInternal.header h).dirty = (s.header h).dirty := by
  unfold flushInternal
  split
  · dsimp only
    split <;> rfl
  · rfl

theorem dirtyBlockCount_ne_zero (counted : s.Counted) (dirty : (s.header h).dirty = true) :
    s.dirtyBlockCount ≠ 0 := by
  have some' : 0 < s.dirtyCount := by
    unfold dirtyCount
    exact Finset.card_pos.2 ⟨h, by simpa using dirty⟩
  have := counted.count
  omega

theorem not_syncDurable (run : (system n).Reaches KeepsMaps (initialState n) s)
    (dirty : (s.header h).dirty = true) : ¬SyncDurable s := by
  intro durable
  have flushed : Wellformed s.flushInternal := (Wellformed.reached run).of_calms .flushInternal
  have counted : s.flushInternal.Counted :=
    Client.flushInternal.counted (counted_of_keepsMaps run)
  have dirty' : (s.flushInternal.header h).dirty = true := (flushInternal_dirty s h).trans dirty
  obtain ⟨t, quiet, wakeup, still⟩ := exists_wakeup_of_known flushed dirty'
  have waits := dirtyBlockCount_ne_zero counted dirty'
  have clean := durable t (.woken waits quiet wakeup) h dirty
  rw [still] at clean
  cases clean

/-- `Sync` keeps its promise exactly when there is nothing to write. The second
half is about the runs in which the maps are right; the dirty blocks of others
may be out of every client's reach. -/
theorem syncDurable_iff :
    (∀ s : State n, (system n).Reaches anyStep (initialState n) s →
      (∀ h, (s.header h).dirty = false) → SyncDurable s) ∧
    (∀ s : State n, (system n).Reaches KeepsMaps (initialState n) s →
      SyncDurable s → ∀ h, (s.header h).dirty = false) := by
  refine ⟨fun s _ clean t _ h dirty => ?_, fun s run durable h => ?_⟩
  · simp [clean h] at dirty
  · by_contra dirty
    exact not_syncDurable run (by simpa using dirty) durable

/-! ## Two segments

With blocks 7 and 9 dirty the flusher alone wakes `Sync` too early.
-/

theorem beginRound_pair {a b : Fin n} (ne : a ≠ b) (mru : s.mruList = [a, b])
    (count : 0 < s.dirtyBlockCount)
    (first : s.header a = { device := 3, bufferNumber := 7, dirty := true
                            flushRequested := true, edits := 1, markedEdits := 1 })
    (second : s.header b = { device := 3, bufferNumber := 9, dirty := true
                             flushRequested := true, edits := 1, markedEdits := 1 }) :
    s.SortsTo [a, b] ∧ ∃ f, (s.beginRound 0 [a, b]).flusher = .writing f ∧ f.segment = [a] ∧
      f.rest = [b] ∧ f.requiredSegment = true ∧
      (s.beginRound 0 [a, b]).doneWakeups = s.doneWakeups ∧
      ((s.beginRound 0 [a, b]).header b).dirty = true := by
  have selected : s.selectBlocks = [a, b] := by
    simp [selectBlocks, mru, maxFlushBlockCount, selectFrom, first, second]
  refine ⟨by simp [SortsTo, selected, first, second, KCacheBlockHeader.OrderedBefore],
    ⟨[a, b], [a], [b], 0, true, false, fun _ => none⟩, ?_, rfl, rfl, rfl, ?_, ?_⟩ <;>
    simp [beginRound, count, selected, scan, isBoundary, setIsFlushing,
      modifyHeader, first, second, resume, clearDirtyPending, ne, ne.symm]

theorem resume_doneWakeups (s : State n) (f : FlushState n) (found : Scan n) :
    s.doneWakeups ≤ (s.resume f found).doneWakeups := by
  cases found with
  | write segment rest required =>
    have same : (segment.foldl clearDirtyPending s).doneWakeups = s.doneWakeups :=
      foldl_field doneWakeups clearDirtyPending (fun _ _ => rfl) segment s
    exact same.ge
  | finished =>
    have same : (f.blockList.foldl (fun s h => s.setIsFlushing h false) s).doneWakeups =
        s.doneWakeups :=
      foldl_field doneWakeups (fun s h => s.setIsFlushing h false) (fun _ _ => rfl) f.blockList s
    simp only [resume]
    split
    · exact same.ge.trans (Nat.le_succ _)
    · exact same.ge

theorem finishBlock_doneWakeups (s : State n) (h : Fin n) :
    (s.finishBlock h).doneWakeups = s.doneWakeups := by
  unfold finishBlock
  split
  · rfl
  · unfold clearDirty
    split <;> rfl

theorem finishWrite_wakes {f : FlushState n} (required : f.requiredSegment = true)
    (outcome : WriteOutcome) : s.doneWakeups < (s.finishWrite f outcome).doneWakeups := by
  have same : (f.segment.foldl finishBlock s).doneWakeups = s.doneWakeups :=
    foldl_field doneWakeups finishBlock finishBlock_doneWakeups f.segment s
  have woken : s.doneWakeups < ((f.segment.foldl finishBlock s).wakeDone).doneWakeups := by
    simp [wakeDone, same]
  unfold finishWrite
  simp only [required, if_true]
  split
  · exact woken.trans_le (resume_doneWakeups _ _ _)
  · exact woken.trans_le (resume_doneWakeups _ _ _)

/-- Blocks 7 and 9 of device 3 are the dirty blocks. -/
structure PairStored (s : State n) (a b : Fin n) : Prop where
  ne : a ≠ b
  run : (system n).Reaches anyStep (initialState n) s
  mruList : s.mruList = [a, b]
  first : s.header a = { device := 3, bufferNumber := 7, dirty := true, edits := 1
                         markedEdits := 1 }
  second : s.header b = { device := 3, bufferNumber := 9, dirty := true, edits := 1
                          markedEdits := 1 }
  count : s.dirtyBlockCount = 2
  idle : s.flusher = .idle

theorem exists_pairStored (two : 1 < n) : ∃ (s : State n) (a b : Fin n), PairStored s a b := by
  let mounted := ((initialState n).setDevice 0 3 8192 512).2
  have mounts : (system n).step (initialState n) (.setDevice 0 3 8192 512) = some mounted := rfl
  obtain ⟨front, b, a, free⟩ : ∃ front b a, finRange n = front ++ [b] ++ [a] := by
    have notEmpty : finRange n ≠ [] := by
      rw [← length_pos_iff, length_finRange]
      omega
    have notOne : (finRange n).dropLast ≠ [] := by
      rw [← length_pos_iff, length_dropLast, length_finRange]
      omega
    refine ⟨(finRange n).dropLast.dropLast, (finRange n).dropLast.getLast notOne,
      (finRange n).getLast notEmpty, ?_⟩
    rw [dropLast_append_getLast notOne, dropLast_append_getLast notEmpty]
  have ne : a ≠ b := by
    have nodup := nodup_finRange n
    rw [free] at nodup
    simp only [append_assoc, nodup_append] at nodup
    rintro rfl
    simp at nodup
  have device : (mounted.cache 0).device = 3 := rfl
  obtain ⟨u, run, stored⟩ := exists_stored anyStep (c := 0) 7 (s := mounted) free rfl
    (by rw [device]; decide) fun _ => ⟨trivial, trivial, trivial, trivial⟩
  have cache : u.cache 0 = { mounted.cache 0 with
      blockMap := update (mounted.cache 0).blockMap 7 (some a) } := by
    rw [stored.cache]
    simp [setBlockMap, KBlockCache.bufferNum, mounted, setDevice, detachDevice,
      initialState, attachDevice, blockSizeGeometry]
  have number : (u.cache 0).bufferNum 9 = 9 := by
    rw [cache]
    rfl
  have missing : (u.cache 0).blockMap ((u.cache 0).bufferNum 9) = none := by
    rw [number, cache]
    rfl
  obtain ⟨s, run', stored'⟩ := exists_stored anyStep 9 stored.freeList missing
    (by rw [cache, device]; decide) fun _ => ⟨trivial, trivial, trivial, trivial⟩
  refine ⟨s, a, b, ne, (System.Reaches.head trivial mounts run).trans run', ?_, ?_, ?_, ?_, ?_⟩
  · rw [stored'.mruList, stored.mruList]
    rfl
  · rw [stored'.header, update_of_ne ne, stored.header, update_self]
    rfl
  · rw [stored'.header, update_self, number, cache]
    rfl
  · rw [stored'.count, stored.count]
    rfl
  · rw [stored'.flusher, stored.flusher]
    rfl

theorem exists_early_return (two : 1 < n) : ∃ (s t : State n) (h : Fin n),
    (system n).Reaches anyStep (initialState n) s ∧
      (system n).Reaches (fun _ op => op.ofFlusher = true) s.flushInternal t ∧
      SyncReturns s t ∧ (s.header h).dirty = true ∧ (t.header h).dirty = true := by
  obtain ⟨s, a, b, pair⟩ := exists_pairStored two
  have asked : ∀ h ∈ [a, b], s.flushInternal.header h = { s.header h with flushRequested := true } := by
    intro h member
    have dirty : (s.header h).dirty = true := by
      rcases mem_pair.1 member with rfl | rfl
      · rw [pair.first]
      · rw [pair.second]
    rw [← pair.mruList] at member
    simp [flushInternal, pair.count, member, dirty]
  have mru : s.flushInternal.mruList = [a, b] := by
    simp [flushInternal, pair.count, pair.mruList]
  have count : s.flushInternal.dirtyBlockCount = 2 := by
    simp [flushInternal, pair.count]
  have idle : s.flushInternal.flusher = .idle := Client.flushInternal.flusher.trans pair.idle
  obtain ⟨sorts, f, writing, segment, rest, required, wakeups, dirty⟩ :=
    beginRound_pair (s := s.flushInternal) pair.ne mru (by omega)
      (by rw [asked a (by simp), pair.first]) (by rw [asked b (by simp), pair.second])
  have begins : (system n).step s.flushInternal (.beginRound 0 [a, b]) =
      some (s.flushInternal.beginRound 0 [a, b]) := by
    simp [system, step, idle, sorts]
  let u := s.flushInternal.beginRound 0 [a, b]
  let g := { f with carried := update f.carried a (some (u.header a).edits) }
  let sent : State n := { u with flusher := .writing g }
  have takes : (system n).step u (.transfer a) = some sent := by
    simp [system, step, u, sent, g, writing, segment]
  have ends : (system n).step sent (.writeDone .completed) =
      some (sent.finishWrite g .completed) := by
    simp [system, step, sent, g, segment]
  refine ⟨s, sent.finishWrite g .completed, b, pair.run,
    .tail (.tail (.single rfl begins) rfl takes) rfl ends, ?_, ?_, ?_⟩
  · refine .woken (by omega) (.tail (.tail (.single ?_ begins) ?_ takes) ?_ ends) ?_
    · trivial
    · trivial
    · rfl
    · have later := finishWrite_wakes (s := sent) (f := g) required .completed
      have same : sent.doneWakeups = s.flushInternal.doneWakeups := wakeups
      omega
  · rw [pair.second]
  · rw [finishWrite_dirty, if_neg]
    · exact dirty
    · simpa [g, segment] using pair.ne.symm

theorem not_syncDurable_always : ¬∀ s : State blockCount,
    (system blockCount).Reaches anyStep (initialState blockCount) s → SyncDurable s := by
  intro always
  obtain ⟨s, t, h, run, _, returned, dirty, still⟩ := exists_early_return (n := blockCount) (by decide)
  have clean := always s run t returned h dirty
  rw [still] at clean
  cases clean

end PadOS.BlockCache
