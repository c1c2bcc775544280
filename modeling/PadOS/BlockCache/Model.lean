import PadOS.Core.Transition
import PadOS.Core.ErrorCode
import Mathlib.Data.Fintype.Card
import Mathlib.Data.List.FinRange
import Mathlib.Data.List.Sort

/-! # The block cache

`KBlockCache` keeps one pool of headers, one free list and one MRU list for all
devices, and one buffer map for each cache object. Every section that holds
`s_Mutex` is one operation here; `GetBlock_trw` gives up the mutex in its waits
and `FlushBlockList_trw` around the device write, so a call of either is several
operations and any others may come between. `CachedRead_trw` is `getBlock` and
`release`; `CachedWrite_trw` is `getBlock`, `modify`, `markDirty` and `release`.

The pool is `Fin n`; `Initialize` fills the free list with `n = blockCount` of them.
-/

namespace PadOS.BlockCache

open Transition Function

/-- `KBLOCK_CACHE_BLOCK_COUNT` of the standard build. -/
def blockCount : Nat := 4096

def bufferBlockSize : Nat := 512
def maxFlushBlockCount : Nat := 128
def minFlushBlockCount : Nat := 96

/-- `FLUSH_PERIOD` in nanoseconds. -/
def flushPeriod : Int := 1000000000

/-- `m_Flags` is kept as its four bits. `edits` and `markedEdits` are history:
how often clients changed the buffer since it was loaded, and that number at
the last `SetDirty(true)`. They stand for the buffer's bytes. -/
structure KCacheBlockHeader where
  device : Int := 0
  bufferNumber : Nat := 0
  useCount : Nat := 0
  dirtyTime : Int := 0
  dirty : Bool := false
  dirtyPending : Bool := false
  flushRequested : Bool := false
  isFlushing : Bool := false
  edits : Nat := 0
  markedEdits : Nat := 0
  deriving DecidableEq

abbrev CacheId := Nat

structure KBlockCache (n : Nat) where
  device : Int := -1
  blockSize : Nat := 0
  deviceBlockCount : Nat := 0
  blocksPerBuffer : Nat := 1
  blockToBufferShift : Nat := 0
  bufferOffsetMask : Nat := 0
  blockMap : Nat → Option (Fin n) := fun _ => none

/-- The locals of `DiskCacheFlusher` and `FlushBlockList_trw` that live across
the device write. `carried` is history: the edits in the bytes the device has
taken from each buffer of the segment. -/
structure FlushState (n : Nat) where
  blockList : List (Fin n)
  segment : List (Fin n)
  rest : List (Fin n)
  curTime : Int
  requiredSegment : Bool
  anythingFlushed : Bool
  carried : Fin n → Option Nat

inductive Flusher (n : Nat)
  | idle
  | writing (f : FlushState n)

/-- `doneWakeups` counts the `WakeupAll` calls on `s_FlushingDoneConditionVar`. -/
structure State (n : Nat) where
  header : Fin n → KCacheBlockHeader
  freeList : List (Fin n)
  mruList : List (Fin n)
  cache : CacheId → KBlockCache n
  deviceMap : Int → Option CacheId
  dirtyBlockCount : Int
  flusher : Flusher n
  doneWakeups : Nat

/-- The state `KBlockCache::Initialize` leaves, with no cache attached yet. -/
def initialState (n : Nat) : State n where
  header := fun _ => {}
  freeList := List.finRange n
  mruList := []
  cache := fun _ => {}
  deviceMap := fun _ => none
  dirtyBlockCount := 0
  flusher := .idle
  doneWakeups := 0

variable {n : Nat}

/-! ## Headers -/

variable (s : State n)

variable (h : Fin n)

def State.modifyHeader (f : KCacheBlockHeader → KCacheBlockHeader) : State n :=
  { s with header := update s.header h (f (s.header h)) }

@[simp] theorem State.modifyHeader_self
    (f : KCacheBlockHeader → KCacheBlockHeader) : (s.modifyHeader h f).header h = f (s.header h) := by
  simp [modifyHeader]

theorem State.modifyHeader_of_ne {h h' : Fin n}
    (f : KCacheBlockHeader → KCacheBlockHeader) (ne : h' ≠ h) :
    (s.modifyHeader h f).header h' = s.header h' := by
  simp [modifyHeader, ne]

theorem State.modifyHeader_header (h h' : Fin n)
    (f : KCacheBlockHeader → KCacheBlockHeader) :
    (s.modifyHeader h f).header h' = if h' = h then f (s.header h) else s.header h' := by
  simp only [modifyHeader, update_apply]

def State.wakeDone : State n := { s with doneWakeups := s.doneWakeups + 1 }

def State.addRef : State n :=
  s.modifyHeader h fun b => { b with useCount := b.useCount + 1 }

def State.removeRef : State n :=
  let s := s.modifyHeader h fun b => { b with useCount := b.useCount - 1 }
  if (s.header h).useCount = 0 then s.wakeDone else s

theorem State.removeRef_of_ne {h h' : Fin n} (ne : h' ≠ h) :
    (s.removeRef h).header h' = s.header h' := by
  unfold removeRef
  dsimp only
  split <;> simp [modifyHeader, wakeDone, ne]

def State.setFlushRequested (value : Bool) : State n :=
  s.modifyHeader h fun b => { b with flushRequested := value }

def State.setIsFlushing (value : Bool) : State n :=
  s.modifyHeader h fun b => { b with isFlushing := value }

def State.clearDirtyPending : State n :=
  s.modifyHeader h fun b => { b with dirtyPending := false }

/-- `SetDirty(true)` at time `now`. -/
def State.setDirty (now : Int) : State n :=
  if (s.header h).dirty then
    s.modifyHeader h fun b => { b with dirtyPending := true, markedEdits := b.edits }
  else
    { s.modifyHeader h fun b =>
        { b with dirty := true, dirtyTime := now, markedEdits := b.edits } with
      dirtyBlockCount := s.dirtyBlockCount + 1 }

theorem State.setDirty_of_ne {h h' : Fin n} (now : Int) (ne : h' ≠ h) :
    (s.setDirty h now).header h' = s.header h' := by
  unfold setDirty
  split <;> simp [modifyHeader, ne]

/-- `SetDirty(false)`. -/
def State.clearDirty : State n :=
  if (s.header h).dirty then
    { s.modifyHeader h fun b => { b with dirty := false } with
      dirtyBlockCount := s.dirtyBlockCount - 1 }
  else s

/-! ## Lookup and eviction -/

/-- How one pass of the loop of `GetBlock_trw` ends. -/
inductive Pass (n : Nat)
  | returns (h : Fin n) (blockOffset : Nat)
  | waits
  | throws (code : PErrorCode)
  | asserts
  deriving DecidableEq

def KBlockCache.bufferNum (c : KBlockCache n) (blockNum : Nat) : Nat :=
  blockNum >>> c.blockToBufferShift

def KBlockCache.blockOffset (c : KBlockCache n) (blockNum : Nat) : Nat :=
  (blockNum &&& c.bufferOffsetMask) * c.blockSize

variable (c : CacheId)

def State.setBlockMap (bufferNum : Nat) (entry : Option (Fin n)) :
    State n :=
  { s with
    cache := update s.cache c
      { s.cache c with blockMap := update (s.cache c).blockMap bufferNum entry } }

@[simp] theorem State.setBlockMap_blockMap (c c' : CacheId) (b b' : Nat)
    (entry : Option (Fin n)) :
    ((s.setBlockMap c b entry).cache c').blockMap b' =
      if c' = c ∧ b' = b then entry else (s.cache c').blockMap b' := by
  unfold setBlockMap
  by_cases same : c' = c
  · subst same
    simp [update_apply]
  · simp [same]

@[simp] theorem State.setBlockMap_device (c c' : CacheId) (b : Nat)
    (entry : Option (Fin n)) :
    ((s.setBlockMap c b entry).cache c').device = (s.cache c').device := by
  unfold setBlockMap
  by_cases same : c' = c
  · subst same
    simp
  · simp [same]

@[simp] theorem State.setBlockMap_header (b : Nat)
    (entry : Option (Fin n)) : (s.setBlockMap c b entry).header = s.header := rfl

/-- What `kpread_trw` does with the device's handle. -/
inductive ReadOutcome
  | complete
  | short
  | throws (code : PErrorCode)
  deriving DecidableEq

/-- The code a read of handle `device` ends with, if it does not fill the buffer.
There is no file behind handle -1. -/
def readError (device : Int) : ReadOutcome → Option PErrorCode
  | .complete => if device = -1 then some .badf else none
  | .short => if device = -1 then some .badf else some .io
  | .throws code => if device = -1 then some .badf else some code

/-- The part of a pass that reads the buffer into a header taken off its list. -/
def State.loadBlock (h : Fin n) (blockNum : Nat)
    (read : ReadOutcome) : Pass n × State n :=
  let cache := s.cache c
  match readError cache.device read with
  | some code => (.throws code, { s with freeList := s.freeList ++ [h] })
  | none =>
    let loaded := s.modifyHeader h fun _ =>
      { device := cache.device, bufferNumber := cache.bufferNum blockNum, useCount := 1 }
    (.returns h (cache.blockOffset blockNum),
      { loaded with mruList := s.mruList ++ [h] }.setBlockMap c (cache.bufferNum blockNum)
        (some h))

theorem State.loadBlock_returns {s t : State n} {c : CacheId} {h h' : Fin n} {blockNum offset : Nat}
    {read : ReadOutcome} (result : s.loadBlock c h blockNum read = (.returns h' offset, t)) :
    (t.header h').device = (s.cache c).device ∧
      (t.header h').bufferNumber = (s.cache c).bufferNum blockNum := by
  unfold loadBlock at result
  dsimp only at result
  split at result
  · cases result
  · simp only [Prod.mk.injEq, Pass.returns.injEq] at result
    obtain ⟨⟨rfl, _⟩, rfl⟩ := result
    simp [modifyHeader]

/-- The first header of the MRU list that nobody uses. -/
def State.victim? : Option (Fin n) :=
  s.mruList.find? fun h => (s.header h).useCount = 0

/-- Takes `h` off the MRU list and its buffer number out of the map of `c`, the
cache that wants the header. -/
def State.evict (h : Fin n) : State n :=
  { s with mruList := s.mruList.erase h }.setBlockMap c (s.header h).bufferNumber none

@[simp] theorem State.setBlockMap_bufferNum (c c' : CacheId) (b blockNum : Nat)
    (entry : Option (Fin n)) :
    ((s.setBlockMap c b entry).cache c').bufferNum blockNum = (s.cache c').bufferNum blockNum := by
  unfold setBlockMap
  by_cases same : c' = c
  · subst same
    simp [KBlockCache.bufferNum]
  · simp [same]

theorem State.evict_bufferNum (c c' : CacheId) (h : Fin n) (blockNum : Nat) :
    ((s.evict c h).cache c').bufferNum blockNum = (s.cache c').bufferNum blockNum := by
  simp [evict]

/-- One pass of `GetBlock_trw`, from taking the mutex to returning it. -/
def State.getBlock (blockNum : Nat) (read : ReadOutcome) :
    Pass n × State n :=
  match (s.cache c).blockMap ((s.cache c).bufferNum blockNum) with
  | some h =>
    if h ∈ s.mruList then
      (.returns h ((s.cache c).blockOffset blockNum),
        { s.addRef h with mruList := s.mruList.erase h ++ [h] })
    else (.asserts, s)
  | none =>
    match s.freeList.getLast? with
    | some h => { s with freeList := s.freeList.dropLast }.loadBlock c h blockNum read
    | none =>
      if s.mruList = [] then (.throws .again, s)
      else
        match s.victim? with
        | none => (.waits, s)
        | some h =>
          if (s.header h).isFlushing then (.waits, s)
          else if (s.header h).dirty then (.waits, s.setFlushRequested h true)
          else (s.evict c h).loadBlock c h blockNum read

def State.markBlockDirty (blockNum : Nat) (now : Int) :
    Bool × State n :=
  match (s.cache c).blockMap ((s.cache c).bufferNum blockNum) with
  | some h => (true, s.setDirty h now)
  | none => (false, s)

/-! ## Devices -/

/-- The switch on `m_BlockSize`: blocks per buffer, shift, mask, and whether the
size is supported. -/
def blockSizeGeometry : Nat → Nat × Nat × Nat × Bool
  | 512 => (1, 0, 0x00, true)
  | 1024 => (4, 2, 0x03, true)
  | 2048 => (2, 1, 0x01, true)
  | 4096 => (1, 0, 0x00, true)
  | _ => (1, 0, 0x00, false)

/-- The first part of `SetDevice`: forget the previous device. The map stays. -/
def State.detachDevice : State n :=
  if (s.cache c).device = -1 then s
  else
    { s with
      deviceMap := update s.deviceMap (s.cache c).device none
      cache := update s.cache c { s.cache c with device := -1 } }

@[simp] theorem State.detachDevice_header :
    (s.detachDevice c).header = s.header := by
  unfold detachDevice
  split <;> rfl

@[simp] theorem State.detachDevice_freeList :
    (s.detachDevice c).freeList = s.freeList := by
  unfold detachDevice
  split <;> rfl

@[simp] theorem State.detachDevice_mruList :
    (s.detachDevice c).mruList = s.mruList := by
  unfold detachDevice
  split <;> rfl

theorem State.detachDevice_cache_of_ne {c c' : CacheId} (other : c' ≠ c) :
    (s.detachDevice c).cache c' = s.cache c' := by
  unfold detachDevice
  split
  · rfl
  · exact update_of_ne other _ _

@[simp] theorem State.detachDevice_device :
    ((s.detachDevice c).cache c).device = -1 := by
  unfold detachDevice
  split
  · assumption
  · simp

@[simp] theorem State.detachDevice_blockMap :
    ((s.detachDevice c).cache c).blockMap = (s.cache c).blockMap := by
  unfold detachDevice
  split
  · rfl
  · simp

def State.attachDevice (device : Int) (count size : Nat) :
    Bool × State n :=
  let (perBuffer, shift, mask, supported) := blockSizeGeometry size
  (supported, { s with
      deviceMap := update s.deviceMap device (some c)
      cache := update s.cache c { s.cache c with
          device, blockSize := size, deviceBlockCount := count, blocksPerBuffer := perBuffer
          blockToBufferShift := shift, bufferOffsetMask := mask } })

def State.setDevice (device : Int) (count size : Nat) :
    Bool × State n :=
  let s := s.detachDevice c
  if (s.deviceMap device).isSome then (false, s)
  else if device = -1 then (true, s)
  else s.attachDevice c device count size

/-- The end of the destructor: `SetDevice(-1, 0, 0)`, then the object is gone
and the number may name a new one. Its `Flush` is an operation of its own. -/
def State.destroy : State n :=
  let s := (s.setDevice c (-1) 0 0).2
  { s with cache := update s.cache c {} }

/-! ## Flushing -/

/-- `FlushInternal`; `Flush` is the same under the mutex. -/
def State.flushInternal : State n :=
  if s.dirtyBlockCount ≠ 0 then
    { s with header := fun h =>
        if h ∈ s.mruList ∧ (s.header h).dirty then { s.header h with flushRequested := true }
        else s.header h }
  else s

/-- The selecting loop of `DiskCacheFlusher` over the rest of the MRU list, with
`room` places left in its array. `deviceID` is -1 until the first dirty block. -/
def State.selectFrom (s : State n) : (deviceID : Int) → (room : Nat) → List (Fin n) →
    List (Fin n)
  | _, _, [] => []
  | _, 0, _ => []
  | deviceID, room + 1, h :: rest =>
    if (s.header h).dirty && !(s.header h).isFlushing then
      let deviceID := if deviceID = -1 then (s.header h).device else deviceID
      if (s.header h).device = deviceID then h :: s.selectFrom deviceID room rest
      else s.selectFrom deviceID (room + 1) rest
    else s.selectFrom deviceID (room + 1) rest

def State.selectBlocks : List (Fin n) :=
  s.selectFrom (-1) maxFlushBlockCount s.mruList

/-- Not after, in the order `std::sort` is given. -/
def KCacheBlockHeader.OrderedBefore (a b : KCacheBlockHeader) : Prop :=
  a.device < b.device ∨ (a.device = b.device ∧ a.bufferNumber ≤ b.bufferNumber)

instance (a b : KCacheBlockHeader) : Decidable (a.OrderedBefore b) :=
  inferInstanceAs (Decidable (_ ∨ _))

/-- What the loop over the sorted list comes to next: the end, or a segment to
write with the blocks after it. -/
inductive Scan (n : Nat)
  | finished
  | write (segment rest : List (Fin n)) (requiredSegment : Bool)

def State.isBoundary (segment : List (Fin n)) (h : Fin n) : Bool :=
  match segment.getLast? with
  | none => false
  | some p =>
    (s.header p).device ≠ (s.header h).device ∨
      (s.header p).bufferNumber + 1 ≠ (s.header h).bufferNumber

/-- The loop of `FlushBlockList_trw` from the block after `segment` on. The flags
of a block are looked at before the boundary in front of it is. -/
def State.scan (s : State n) (curTime : Int) :
    (segment : List (Fin n)) → (requiredSegment hasTimedOutBlocks : Bool) →
      (rest : List (Fin n)) → Scan n
  | segment, requiredSegment, hasTimedOutBlocks, [] =>
    if requiredSegment || hasTimedOutBlocks || minFlushBlockCount ≤ segment.length then
      .write segment [] requiredSegment
    else .finished
  | segment, requiredSegment, hasTimedOutBlocks, h :: rest =>
    let requiredSegment := requiredSegment || (s.header h).flushRequested
    let hasTimedOutBlocks := hasTimedOutBlocks ||
      (!requiredSegment && flushPeriod ≤ curTime - (s.header h).dirtyTime)
    if s.isBoundary segment h then
      if requiredSegment || hasTimedOutBlocks || minFlushBlockCount ≤ segment.length then
        .write segment (h :: rest) requiredSegment
      else s.scan curTime [h] false false rest
    else s.scan curTime (segment ++ [h]) requiredSegment hasTimedOutBlocks rest

/-- Carries on with what the scan found: gives up the mutex for a write, or
ends the round. -/
def State.resume (f : FlushState n) : Scan n → State n
  | .write segment rest requiredSegment =>
    { segment.foldl State.clearDirtyPending s with
      flusher := .writing { f with segment, rest, requiredSegment, carried := fun _ => none } }
  | .finished =>
    let s := f.blockList.foldl (fun s h => s.setIsFlushing h false) s
    let s := if f.anythingFlushed then s.wakeDone else s
    { s with flusher := .idle }

/-- What `std::sort` may make of the selected blocks; those with equal keys are in any order. -/
def State.SortsTo (blockList : List (Fin n)) : Prop :=
  blockList.Perm s.selectBlocks ∧
    blockList.Pairwise fun a b => (s.header a).OrderedBefore (s.header b)

instance (s : State n) (blockList : List (Fin n)) : Decidable (s.SortsTo blockList) :=
  inferInstanceAs (Decidable (_ ∧ _))

/-- A round of `DiskCacheFlusher` from taking the mutex to its first write or
its end. -/
def State.beginRound (now : Int) (blockList : List (Fin n)) : State n :=
  if 0 < s.dirtyBlockCount then
    let s := s.selectBlocks.foldl (fun s h => s.setIsFlushing h true) s
    s.resume
      { blockList, segment := [], rest := [], curTime := now, requiredSegment := false
        anythingFlushed := false, carried := fun _ => none }
      (s.scan now [] false false blockList)
  else s

/-- `kpwritev_trw` wrote everything, threw, or returned a shorter count, which
its caller does not look at. -/
inductive WriteOutcome
  | completed
  | failed
  | short
  deriving DecidableEq

def State.finishBlock : State n :=
  if (s.header h).dirtyPending then s
  else ((s.clearDirty h).setFlushRequested h false).setIsFlushing h false

/-- From taking the mutex again after a write to the next write or the end of
the round. -/
def State.finishWrite (f : FlushState n) (outcome : WriteOutcome) : State n :=
  let s := f.segment.foldl State.finishBlock s
  let s := if f.requiredSegment then s.wakeDone else s
  let f := { f with anythingFlushed := f.anythingFlushed || outcome != WriteOutcome.failed }
  match f.rest with
  | [] => s.resume f .finished
  | h :: rest => s.resume f (s.scan f.curTime [h] false false rest)

/-! ## The system -/

inductive Op (n : Nat)
  | getBlock (c : CacheId) (blockNum : Nat) (read : ReadOutcome)
  | markBlockDirty (c : CacheId) (blockNum : Nat) (now : Int)
  | modify (h : Fin n)
  | markDirty (h : Fin n) (now : Int)
  | release (h : Fin n)
  | setDevice (c : CacheId) (device : Int) (count size : Nat)
  | destroy (c : CacheId)
  | flush
  | beginRound (now : Int) (blockList : List (Fin n))
  | transfer (h : Fin n)
  | writeDone (outcome : WriteOutcome)

/-- Clients touch a header only while they hold a reference to it; the device
takes the bytes of a buffer at any moment of the write. -/
def step : Op n → Option (State n)
  | .getBlock c blockNum read =>
    match s.getBlock c blockNum read with
    | (.asserts, _) => none
    | (_, s') => some s'
  | .markBlockDirty c blockNum now => some (s.markBlockDirty c blockNum now).2
  | .modify h =>
    if 0 < (s.header h).useCount then
      some (s.modifyHeader h fun b => { b with edits := b.edits + 1 })
    else none
  | .markDirty h now => if 0 < (s.header h).useCount then some (s.setDirty h now) else none
  | .release h => if 0 < (s.header h).useCount then some (s.removeRef h) else none
  | .setDevice c device count size => some (s.setDevice c device count size).2
  | .destroy c => some (s.destroy c)
  | .flush => some s.flushInternal
  | .beginRound now blockList =>
    match s.flusher with
    | .idle => if s.SortsTo blockList then some (s.beginRound now blockList) else none
    | .writing _ => none
  | .transfer h =>
    match s.flusher with
    | .idle => none
    | .writing f =>
      if h ∈ f.segment then
        let carried := update f.carried h (some (s.header h).edits)
        some { s with flusher := .writing { f with carried } }
      else none
  | .writeDone outcome =>
    match s.flusher with
    | .idle => none
    | .writing f =>
      if outcome = .completed ∧ ∃ h ∈ f.segment, f.carried h = none then none
      else some (s.finishWrite f outcome)

def system (n : Nat) : System (State n) (Op n) := ⟨step⟩

end PadOS.BlockCache
