import PadOS.BlockCache.Model

/-! # What the operations leave alone

Most operations change only flags and counts of headers. `SamePool` says that
the lists, the maps and the identity of every header stay, `Calms` that besides
no header becomes used or dirty. The operations of the flusher are of the second
kind.
-/

namespace PadOS.BlockCache

open Option

variable {n : Nat} {s t u : State n} {h : Fin n}

def KCacheBlockHeader.Held (b : KCacheBlockHeader) : Prop := 0 < b.useCount ∨ b.dirty

structure SamePool (s t : State n) : Prop where
  cache : t.cache = s.cache
  deviceMap : t.deviceMap = s.deviceMap
  freeList : t.freeList = s.freeList
  mruList : t.mruList.Perm s.mruList
  device : ∀ h, (t.header h).device = (s.header h).device
  bufferNumber : ∀ h, (t.header h).bufferNumber = (s.header h).bufferNumber

structure Calms (s t : State n) : Prop extends SamePool s t where
  useCount : ∀ h, (t.header h).useCount = (s.header h).useCount
  dirty : ∀ h, (t.header h).dirty → (s.header h).dirty

namespace SamePool

theorem refl (s : State n) : SamePool s s :=
  ⟨rfl, rfl, rfl, .refl _, fun _ => rfl, fun _ => rfl⟩

theorem trans (first : SamePool s t) (second : SamePool t u) : SamePool s u where
  cache := second.cache.trans first.cache
  deviceMap := second.deviceMap.trans first.deviceMap
  freeList := second.freeList.trans first.freeList
  mruList := second.mruList.trans first.mruList
  device h := (second.device h).trans (first.device h)
  bufferNumber h := (second.bufferNumber h).trans (first.bufferNumber h)

theorem modifyHeader {f : KCacheBlockHeader → KCacheBlockHeader}
    (device : ∀ b, (f b).device = b.device)
    (bufferNumber : ∀ b, (f b).bufferNumber = b.bufferNumber) :
    SamePool s (s.modifyHeader h f) where
  cache := rfl
  deviceMap := rfl
  freeList := rfl
  mruList := .refl _
  device h' := by
    rw [State.modifyHeader_header]
    split
    · rename_i same
      rw [device, same]
    · rfl
  bufferNumber h' := by
    rw [State.modifyHeader_header]
    split
    · rename_i same
      rw [bufferNumber, same]
    · rfl

theorem setDirty (now : Int) : SamePool s (s.setDirty h now) := by
  unfold State.setDirty
  split
  · exact modifyHeader (fun _ => rfl) fun _ => rfl
  · have marked : SamePool s (s.modifyHeader h fun b =>
        { b with dirty := true, dirtyTime := now, markedEdits := b.edits }) :=
      modifyHeader (fun _ => rfl) fun _ => rfl
    exact ⟨marked.cache, marked.deviceMap, marked.freeList, marked.mruList, marked.device,
      marked.bufferNumber⟩

theorem removeRef : SamePool s (s.removeRef h) := by
  have dropped : SamePool s (s.modifyHeader h fun b => { b with useCount := b.useCount - 1 }) :=
    modifyHeader (fun _ => rfl) fun _ => rfl
  unfold State.removeRef
  dsimp only
  split
  · exact ⟨dropped.cache, dropped.deviceMap, dropped.freeList, dropped.mruList, dropped.device,
      dropped.bufferNumber⟩
  · exact dropped

end SamePool

namespace Calms

theorem refl (s : State n) : Calms s s := ⟨.refl s, fun _ => rfl, fun _ => id⟩

theorem trans (first : Calms s t) (second : Calms t u) : Calms s u where
  toSamePool := first.toSamePool.trans second.toSamePool
  useCount h := (second.useCount h).trans (first.useCount h)
  dirty h isDirty := first.dirty h (second.dirty h isDirty)

theorem modifyHeader {f : KCacheBlockHeader → KCacheBlockHeader}
    (device : ∀ b, (f b).device = b.device)
    (bufferNumber : ∀ b, (f b).bufferNumber = b.bufferNumber)
    (useCount : ∀ b, (f b).useCount = b.useCount) (dirty : ∀ b, (f b).dirty → b.dirty) :
    Calms s (s.modifyHeader h f) where
  toSamePool := .modifyHeader device bufferNumber
  useCount h' := by
    rw [State.modifyHeader_header]
    split
    · rename_i same
      rw [useCount, same]
    · rfl
  dirty h' isDirty := by
    rw [State.modifyHeader_header] at isDirty
    split at isDirty
    · rename_i same
      exact same ▸ dirty _ isDirty
    · exact isDirty

/-- Only the header part, the pool and the maps of a state matter. -/
theorem of_eq (calm : Calms s t) (header : u.header = t.header) (cache : u.cache = t.cache)
    (deviceMap : u.deviceMap = t.deviceMap) (freeList : u.freeList = t.freeList)
    (mruList : u.mruList = t.mruList) : Calms s u where
  cache := cache.trans calm.cache
  deviceMap := deviceMap.trans calm.deviceMap
  freeList := freeList.trans calm.freeList
  mruList := mruList ▸ calm.mruList
  device h := header ▸ calm.device h
  bufferNumber h := header ▸ calm.bufferNumber h
  useCount h := header ▸ calm.useCount h
  dirty h := header ▸ calm.dirty h

theorem wakeDone : Calms s s.wakeDone := (refl s).of_eq rfl rfl rfl rfl rfl

theorem setFlushRequested (value : Bool) : Calms s (s.setFlushRequested h value) :=
  modifyHeader (fun _ => rfl) (fun _ => rfl) (fun _ => rfl) fun _ => id

theorem setIsFlushing (value : Bool) : Calms s (s.setIsFlushing h value) :=
  modifyHeader (fun _ => rfl) (fun _ => rfl) (fun _ => rfl) fun _ => id

theorem clearDirtyPending : Calms s (s.clearDirtyPending h) :=
  modifyHeader (fun _ => rfl) (fun _ => rfl) (fun _ => rfl) fun _ => id

theorem clearDirty : Calms s (s.clearDirty h) := by
  unfold State.clearDirty
  split
  · have cleared : Calms s (s.modifyHeader h fun b => { b with dirty := false }) :=
      modifyHeader (fun _ => rfl) (fun _ => rfl) (fun _ => rfl) (by simp)
    exact cleared.of_eq rfl rfl rfl rfl rfl
  · exact refl s

theorem finishBlock : Calms s (s.finishBlock h) := by
  unfold State.finishBlock
  split
  · exact refl s
  · exact (clearDirty.trans (setFlushRequested false)).trans (setIsFlushing false)

theorem foldl {op : State n → Fin n → State n} (each : ∀ s h, Calms s (op s h)) (s : State n)
    (blocks : List (Fin n)) : Calms s (blocks.foldl op s) := by
  induction blocks generalizing s with
  | nil => exact refl s
  | cons h rest ih => exact (each s h).trans (ih (op s h))

theorem flushInternal : Calms s s.flushInternal := by
  unfold State.flushInternal
  split
  · refine ⟨⟨rfl, rfl, rfl, .refl _, fun h => ?_, fun h => ?_⟩, fun h => ?_, fun h => ?_⟩ <;>
      dsimp only <;> split <;> simp
  · exact refl s

theorem resume (f : FlushState n) (found : Scan n) : Calms s (s.resume f found) := by
  cases found with
  | write segment rest requiredSegment =>
    exact (foldl (fun _ _ => clearDirtyPending) s segment).of_eq rfl rfl rfl rfl rfl
  | finished =>
    have released := foldl (fun s h => setIsFlushing (s := s) (h := h) false) s f.blockList
    unfold State.resume
    dsimp only
    split <;> exact released.of_eq rfl rfl rfl rfl rfl

theorem beginRound (now : Int) (blockList : List (Fin n)) :
    Calms s (s.beginRound now blockList) := by
  unfold State.beginRound
  split
  · exact (foldl (fun s h => setIsFlushing (s := s) (h := h) true) s _).trans (resume _ _)
  · exact refl s

theorem finishWrite (f : FlushState n) (outcome : WriteOutcome) :
    Calms s (s.finishWrite f outcome) := by
  have finished := foldl (fun s h => finishBlock (s := s) (h := h)) s f.segment
  unfold State.finishWrite
  dsimp only
  have woken : Calms s (if f.requiredSegment then (f.segment.foldl State.finishBlock s).wakeDone
      else f.segment.foldl State.finishBlock s) := by
    split
    · exact finished.trans wakeDone
    · exact finished
  split
  · exact woken.trans (resume _ _)
  · exact woken.trans (resume _ _)

end Calms

/-! ## The passes of `GetBlock_trw` -/

theorem readError_eq_none {device : Int} {read : ReadOutcome} (fine : readError device read = none) :
    device ≠ -1 := by
  rintro rfl
  cases read <;> simp [readError] at fine

theorem State.victim_spec {v : Fin n} (found : s.victim? = some v) :
    v ∈ s.mruList ∧ (s.header v).useCount = 0 := by
  refine ⟨List.mem_of_find?_eq_some found, ?_⟩
  simpa using List.find?_some found

/-- The pass of `GetBlock_trw` for this block gives `v` a new content. -/
structure State.Evicts (s : State n) (c : CacheId) (blockNum : Nat) (v : Fin n) : Prop where
  missing : (s.cache c).blockMap ((s.cache c).bufferNum blockNum) = none
  noneFree : s.freeList = []
  victim : s.victim? = some v
  settled : (s.header v).isFlushing = false
  clean : (s.header v).dirty = false

inductive GetBlockCase (s : State n) (c : CacheId) (blockNum : Nat) (read : ReadOutcome) : Prop
  | hit (h : Fin n) (found : (s.cache c).blockMap ((s.cache c).bufferNum blockNum) = some h)
      (cached : h ∈ s.mruList)
      (result : s.getBlock c blockNum read = (.returns h ((s.cache c).blockOffset blockNum),
        { s.addRef h with mruList := s.mruList.erase h ++ [h] }))
  | stale (h : Fin n) (found : (s.cache c).blockMap ((s.cache c).bufferNum blockNum) = some h)
      (gone : h ∉ s.mruList) (result : s.getBlock c blockNum read = (.asserts, s))
  | fromFree (h : Fin n) (missing : (s.cache c).blockMap ((s.cache c).bufferNum blockNum) = none)
      (last : s.freeList.getLast? = some h)
      (result : s.getBlock c blockNum read =
        { s with freeList := s.freeList.dropLast }.loadBlock c h blockNum read)
  | evicted (v : Fin n) (evicts : s.Evicts c blockNum v)
      (result : s.getBlock c blockNum read = (s.evict c v).loadBlock c v blockNum read)
  | refused (p : Pass n) (missing : (s.cache c).blockMap ((s.cache c).bufferNum blockNum) = none)
      (noBlock : p = .waits ∨ p = .throws .again)
      (result : s.getBlock c blockNum read = (p, s))
  | requested (v : Fin n) (missing : (s.cache c).blockMap ((s.cache c).bufferNum blockNum) = none)
      (result : s.getBlock c blockNum read = (.waits, s.setFlushRequested v true))

theorem State.getBlock_cases (s : State n) (c : CacheId) (blockNum : Nat) (read : ReadOutcome) :
    GetBlockCase s c blockNum read := by
  cases found : (s.cache c).blockMap ((s.cache c).bufferNum blockNum) with
  | some h =>
    by_cases cached : h ∈ s.mruList
    · exact .hit h found cached (by simp [getBlock, found, cached])
    · exact .stale h found cached (by simp [getBlock, found, cached])
  | none =>
    cases last : s.freeList.getLast? with
    | some h => exact .fromFree h found last (by simp [getBlock, found, last])
    | none =>
      by_cases empty : s.mruList = []
      · exact .refused (.throws .again) found (.inr rfl) (by simp [getBlock, found, last, empty])
      cases victim : s.victim? with
      | none =>
        exact .refused .waits found (.inl rfl) (by simp [getBlock, found, last, empty, victim])
      | some v =>
        cases flushing : (s.header v).isFlushing with
        | true =>
          exact .refused .waits found (.inl rfl)
            (by simp [getBlock, found, last, empty, victim, flushing])
        | false =>
          cases dirty : (s.header v).dirty with
          | true =>
            exact .requested v found
              (by simp [getBlock, found, last, empty, victim, flushing, dirty])
          | false =>
            exact .evicted v ⟨found, List.getLast?_eq_none_iff.1 last, victim, flushing, dirty⟩
              (by simp [getBlock, found, last, empty, victim, flushing, dirty])

/-! ## Steps -/

/-- What a step does, with what it needs. -/
inductive Steps (s : State n) : Op n → State n → Prop
  | getBlock {c : CacheId} {blockNum : Nat} {read : ReadOutcome} :
      Steps s (.getBlock c blockNum read) (s.getBlock c blockNum read).2
  | marks {h : Fin n} {c : CacheId} {blockNum : Nat} {now : Int}
      (found : (s.cache c).blockMap ((s.cache c).bufferNum blockNum) = some h) :
      Steps s (.markBlockDirty c blockNum now) (s.setDirty h now)
  | passes {c : CacheId} {blockNum : Nat} {now : Int} : Steps s (.markBlockDirty c blockNum now) s
  | modify {h : Fin n} (used : 0 < (s.header h).useCount) :
      Steps s (.modify h) (s.modifyHeader h fun b => { b with edits := b.edits + 1 })
  | markDirty {h : Fin n} {now : Int} (used : 0 < (s.header h).useCount) :
      Steps s (.markDirty h now) (s.setDirty h now)
  | release {h : Fin n} (used : 0 < (s.header h).useCount) :
      Steps s (.release h) (s.removeRef h)
  | setDevice {c : CacheId} {device : Int} {count size : Nat} :
      Steps s (.setDevice c device count size) (s.setDevice c device count size).2
  | destroy {c : CacheId} : Steps s (.destroy c) (s.destroy c)
  | flush : Steps s .flush s.flushInternal
  | beginRound {now : Int} {blockList : List (Fin n)} (sorts : s.SortsTo blockList) :
      Steps s (.beginRound now blockList) (s.beginRound now blockList)
  | transfer {h : Fin n} {f : FlushState n} (writing : s.flusher = .writing f) :
      Steps s (.transfer h) { s with flusher := .writing { f with
        carried := Function.update f.carried h (some (s.header h).edits) } }
  | writeDone {f : FlushState n} {outcome : WriteOutcome} (writing : s.flusher = .writing f)
      (whole : outcome = .completed → ∀ h ∈ f.segment, f.carried h ≠ none) :
      Steps s (.writeDone outcome) (s.finishWrite f outcome)

theorem steps_of_step {op : Op n} (applies : step s op = some t) : Steps s op t := by
  cases op with
  | getBlock c blockNum read =>
    have passed : t = (s.getBlock c blockNum read).2 := by
      revert applies
      simp only [step]
      split
      · rintro ⟨⟩
      · rename_i found
        rintro ⟨⟩
        rw [found]
    exact passed ▸ .getBlock
  | markBlockDirty c blockNum now =>
    obtain rfl := some.inj applies
    cases found : (s.cache c).blockMap ((s.cache c).bufferNum blockNum) with
    | some h =>
      simp only [State.markBlockDirty, found]
      exact .marks found
    | none =>
      simp only [State.markBlockDirty, found]
      exact .passes
  | modify h | markDirty h now | release h =>
    obtain ⟨used, ⟨⟩⟩ := ite_none_right_eq_some.1 applies
    constructor
    exact used
  | setDevice c device count size | destroy c | flush =>
    obtain rfl := some.inj applies
    constructor
  | beginRound now blockList =>
    simp only [step] at applies
    split at applies
    · obtain ⟨sorts, ⟨⟩⟩ := ite_none_right_eq_some.1 applies
      exact .beginRound sorts
    · cases applies
  | transfer h =>
    simp only [step] at applies
    split at applies
    · cases applies
    · rename_i writing
      obtain ⟨_, ⟨⟩⟩ := ite_none_right_eq_some.1 applies
      exact .transfer writing
  | writeDone outcome =>
    simp only [step] at applies
    split at applies
    · cases applies
    · rename_i writing
      obtain ⟨whole, ⟨⟩⟩ := ite_none_left_eq_some.1 applies
      exact .writeDone writing fun completed h inSegment untaken => whole ⟨completed, h, inSegment, untaken⟩

end PadOS.BlockCache
