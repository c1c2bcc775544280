import PadOS.BlockCache.Pool
import Mathlib.Data.Finset.Card
import Mathlib.Data.Fintype.Basic

/-! # What a flush writes

A block loses its dirty flag in `FlushBlockList_trw` alone, after the write of
its segment. `Tracked` is what holds while the mutex is given up: the blocks in
flight are dirty and distinct, and what the device has taken from a block that
nobody marked again is not older than its last marking.

The source clears the flags after a write that failed as well. `KeepsDirty`
excludes that: a write that did not complete had only blocks that were marked
again meanwhile. It also excludes `MarkBlockDirty` through a map that still
names a header of the free list.
-/

namespace PadOS.BlockCache

open Transition List Option State Function

variable {n : Nat} {s t u : State n} {h : Fin n}

def KeepsDirty : Condition (State n) (Op n)
  | s, .markBlockDirty c blockNum _ =>
    ∀ h, (s.cache c).blockMap ((s.cache c).bufferNum blockNum) = some h → h ∉ s.freeList
  | s, .writeDone outcome =>
    outcome ≠ .completed → ∀ f, s.flusher = .writing f →
      ∀ h ∈ f.segment, (s.header h).dirtyPending
  | _, _ => True

/-! ## Counting the dirty headers -/

def State.dirtyCount (s : State n) : Nat :=
  (Finset.univ.filter fun h => (s.header h).dirty = true).card

structure State.Counted (s : State n) : Prop where
  count : s.dirtyBlockCount = s.dirtyCount

theorem dirtyCount_congr (same : ∀ h, (t.header h).dirty = (s.header h).dirty) :
    t.dirtyCount = s.dirtyCount := by
  unfold dirtyCount
  simp only [same]

theorem dirtyCount_mark (clean : (s.header h).dirty = false) (marked : (t.header h).dirty = true)
    (others : ∀ h', h' ≠ h → (t.header h').dirty = (s.header h').dirty) :
    t.dirtyCount = s.dirtyCount + 1 := by
  unfold dirtyCount
  have grown : (Finset.univ.filter fun h => (t.header h).dirty = true) =
      insert h (Finset.univ.filter fun h => (s.header h).dirty = true) := by
    ext h'
    by_cases eq : h' = h
    · simp [eq, marked]
    · simp [eq, others h' eq]
  rw [grown, Finset.card_insert_of_notMem (by simp [clean])]

theorem dirtyCount_clean (dirty : (s.header h).dirty = true) (cleaned : (t.header h).dirty = false)
    (others : ∀ h', h' ≠ h → (t.header h').dirty = (s.header h').dirty) :
    t.dirtyCount + 1 = s.dirtyCount :=
  (dirtyCount_mark cleaned dirty fun h' ne => (others h' ne).symm).symm

namespace State.Counted

section

variable (counted : s.Counted)

include counted

theorem of_congr (count : t.dirtyBlockCount = s.dirtyBlockCount)
    (same : ∀ h, (t.header h).dirty = (s.header h).dirty) : t.Counted := by
  constructor
  rw [count, dirtyCount_congr same]
  exact counted.count

theorem modifyHeader {f : KCacheBlockHeader → KCacheBlockHeader}
    (same : (f (s.header h)).dirty = (s.header h).dirty) : (s.modifyHeader h f).Counted := by
  refine counted.of_congr rfl fun h' => ?_
  rw [modifyHeader_header]
  split
  · rename_i eq
    rw [same, eq]
  · rfl

theorem setDirty (now : Int) : (s.setDirty h now).Counted := by
  unfold State.setDirty
  split
  · exact counted.modifyHeader rfl
  · rename_i clean
    constructor
    rw [dirtyCount_mark (s := s) (h := h) (by simpa using clean)]
    · have := counted.count
      push_cast
      rw [← this]
    · simp [State.modifyHeader]
    · intro h' ne
      simp [State.modifyHeader, ne]

theorem clearDirty : (s.clearDirty h).Counted := by
  have before := counted.count
  unfold State.clearDirty
  split
  · rename_i dirty
    generalize clearedEq : ({ s.modifyHeader h (fun b => { b with dirty := false }) with
      dirtyBlockCount := s.dirtyBlockCount - 1 } : State n) = cleared
    have count : cleared.dirtyBlockCount = s.dirtyBlockCount - 1 := by rw [← clearedEq]
    have one : cleared.dirtyCount + 1 = s.dirtyCount := by
      refine dirtyCount_clean (h := h) dirty ?_ fun h' ne => ?_
      · simp [← clearedEq, State.modifyHeader]
      · simp [← clearedEq, State.modifyHeader, ne]
    constructor
    omega
  · exact counted

theorem finishBlock : (s.finishBlock h).Counted := by
  unfold State.finishBlock
  split
  · exact counted
  · have cleared : (s.clearDirty h).Counted := counted.clearDirty
    have answered : ((s.clearDirty h).setFlushRequested h false).Counted :=
      cleared.modifyHeader rfl
    exact answered.modifyHeader rfl

end

theorem foldl {op : State n → Fin n → State n}
    (each : ∀ s h, s.Counted → (op s h).Counted) (counted : s.Counted) (blocks : List (Fin n)) :
    (blocks.foldl op s).Counted := by
  induction blocks generalizing s with
  | nil => exact counted
  | cons h rest ih => exact ih (each s h counted)

end State.Counted

/-! ## Steps of the clients -/

/-- A change of a header that leaves what a flush in flight relies on: a dirty
block stays dirty, and its last marking is the same unless it is pending. -/
def KCacheBlockHeader.Kept (b b' : KCacheBlockHeader) : Prop :=
  b.dirty → b'.dirty ∧
    (b'.dirtyPending = false → b.dirtyPending = false ∧ b'.markedEdits = b.markedEdits)

def KCacheBlockHeader.Marked (b : KCacheBlockHeader) : Prop := b.markedEdits ≤ b.edits

/-- What every step outside the flusher keeps. -/
structure Client (s t : State n) : Prop where
  flusher : t.flusher = s.flusher
  kept : ∀ h, (s.header h).Kept (t.header h)
  marked : (∀ h, (s.header h).Marked) → ∀ h, (t.header h).Marked
  counted : s.Counted → t.Counted

namespace Client

theorem refl (s : State n) : Client s s := ⟨rfl, fun _ dirty => ⟨dirty, fun p => ⟨p, rfl⟩⟩, id, id⟩

theorem of_header (flusher : t.flusher = s.flusher) (header : t.header = s.header)
    (count : t.dirtyBlockCount = s.dirtyBlockCount) : Client s t where
  flusher := flusher
  kept h := header ▸ (refl s).kept h
  marked := header ▸ id
  counted counted := counted.of_congr count fun h => by rw [header]

theorem modifyHeader {f : KCacheBlockHeader → KCacheBlockHeader}
    (dirty : (f (s.header h)).dirty = (s.header h).dirty)
    (kept : (s.header h).Kept (f (s.header h)))
    (marked : (s.header h).Marked → (f (s.header h)).Marked) :
    Client s (s.modifyHeader h f) where
  flusher := rfl
  kept h' := by
    rw [modifyHeader_header]
    split
    · rename_i eq
      exact eq ▸ kept
    · exact (refl s).kept h'
  marked all h' := by
    rw [modifyHeader_header]
    split
    · exact marked (all h)
    · exact all h'
  counted counted := counted.modifyHeader dirty

theorem addRef : Client s (s.addRef h) := by
  unfold State.addRef
  exact modifyHeader rfl ((refl s).kept h) fun m => m

theorem setFlushRequested (value : Bool) : Client s (s.setFlushRequested h value) := by
  unfold State.setFlushRequested
  exact modifyHeader rfl ((refl s).kept h) fun m => m

theorem removeRef : Client s (s.removeRef h) := by
  have dropped : Client s (s.modifyHeader h fun b => { b with useCount := b.useCount - 1 }) :=
    modifyHeader rfl ((refl s).kept h) id
  unfold State.removeRef
  dsimp only
  split
  · exact ⟨dropped.flusher, dropped.kept, dropped.marked,
      fun counted => (dropped.counted counted).of_congr rfl fun _ => rfl⟩
  · exact dropped

theorem setDirty (now : Int) : Client s (s.setDirty h now) where
  flusher := by
    unfold State.setDirty
    split <;> rfl
  kept h' dirty := by
    by_cases eq : h' = h
    · subst eq
      simp [State.setDirty, dirty]
    · rw [s.setDirty_of_ne now eq]
      exact (refl s).kept h' dirty
  marked all h' := by
    by_cases eq : h' = h
    · subst eq
      unfold State.setDirty
      split <;> simp [State.modifyHeader, KCacheBlockHeader.Marked]
    · rw [s.setDirty_of_ne now eq]
      exact all h'
  counted counted := counted.setDirty now

theorem loadBlock (clean : (s.header h).dirty = false) (c : CacheId) (blockNum : Nat)
    (read : ReadOutcome) : Client s (s.loadBlock c h blockNum read).2 := by
  unfold State.loadBlock
  dsimp only
  split
  · exact of_header rfl rfl rfl
  · generalize (s.cache c).device = device
    generalize (s.cache c).bufferNum blockNum = number
    have loaded : Client s (s.modifyHeader h fun _ =>
        { device := device, bufferNumber := number, useCount := 1 }) := by
      refine modifyHeader clean.symm ?_ fun _ => le_rfl
      intro dirty
      simp [clean] at dirty
    exact ⟨loaded.flusher, loaded.kept, loaded.marked,
      fun counted => (loaded.counted counted).of_congr rfl fun _ => rfl⟩

theorem flushInternal : Client s s.flushInternal := by
  unfold State.flushInternal
  split
  · refine ⟨rfl, fun h dirty => ?_, fun all h => ?_, fun counted => counted.of_congr rfl fun h => ?_⟩
    · dsimp only
      split <;> exact ⟨dirty, fun p => ⟨p, rfl⟩⟩
    · dsimp only
      split <;> exact all h
    · dsimp only
      split <;> rfl
  · exact refl s

theorem setDevice (c : CacheId) (device : Int) (count size : Nat) :
    Client s (s.setDevice c device count size).2 := by
  have detached : Client s (s.detachDevice c) := by
    refine of_header ?_ (by simp) ?_ <;> (unfold State.detachDevice; split <;> rfl)
  unfold State.setDevice
  dsimp only
  split
  · exact detached
  · split
    · exact detached
    · exact ⟨detached.flusher, detached.kept, detached.marked,
        fun counted => (detached.counted counted).of_congr rfl fun _ => rfl⟩

theorem destroy (c : CacheId) : Client s (s.destroy c) := by
  have detached : Client s (s.setDevice c (-1) 0 0).2 := setDevice c (-1) 0 0
  exact ⟨detached.flusher, detached.kept, detached.marked,
    fun counted => (detached.counted counted).of_congr rfl fun _ => rfl⟩

end Client

theorem Client.getBlock (p : Pooled s) (c : CacheId) (blockNum : Nat) (read : ReadOutcome) :
    Client s (s.getBlock c blockNum read).2 := by
  cases s.getBlock_cases c blockNum read with
  | hit h found cached result =>
    have referenced : Client s (s.addRef h) := addRef
    rw [result]
    exact ⟨referenced.flusher, referenced.kept, referenced.marked,
      fun counted => (referenced.counted counted).of_congr rfl fun _ => rfl⟩
  | stale h found gone result => exact result ▸ refl s
  | fromFree h missing last result =>
    have isFree : h ∈ s.freeList := mem_of_getLast? last
    have clean : (s.header h).dirty = false := by
      simpa using fun dirty => (p.free h isFree).2 (.inr dirty)
    rw [result]
    have loaded := loadBlock (s := { s with freeList := s.freeList.dropLast }) clean c blockNum read
    exact ⟨loaded.flusher, loaded.kept, loaded.marked,
      fun counted => loaded.counted (counted.of_congr rfl fun _ => rfl)⟩
  | evicted v evicts result =>
    rw [result]
    have loaded := loadBlock (s := s.evict c v) (h := v) evicts.clean c blockNum read
    exact ⟨loaded.flusher, loaded.kept, loaded.marked,
      fun counted => loaded.counted (counted.of_congr rfl fun _ => rfl)⟩
  | refused pass missing noBlock result => exact result ▸ refl s
  | requested v missing result =>
    exact result ▸ setFlushRequested true

def Op.ofFlusher : Op n → Bool
  | .beginRound _ _ | .transfer _ | .writeDone _ => true
  | _ => false

theorem Client.of_step {op : Op n} (p : Pooled s) (client : op.ofFlusher = false)
    (applies : step s op = some t) : Client s t := by
  cases steps_of_step applies with
  | getBlock => exact Client.getBlock p _ _ _
  | marks | markDirty => exact setDirty _
  | passes => exact refl s
  | @modify h => exact modifyHeader rfl ((refl s).kept h) fun marked => Nat.le_succ_of_le marked
  | release => exact removeRef
  | setDevice => exact setDevice _ _ _ _
  | destroy => exact destroy _
  | flush => exact flushInternal
  | beginRound | transfer | writeDone => simp [Op.ofFlusher] at client

theorem writeDone_spec {outcome : WriteOutcome} (applies : step s (.writeDone outcome) = some t) :
    ∃ f, s.flusher = .writing f ∧ (outcome = .completed → ∀ h ∈ f.segment, f.carried h ≠ none) ∧
      s.finishWrite f outcome = t := by
  cases steps_of_step applies with
  | writeDone writing whole => exact ⟨_, writing, whole, rfl⟩

theorem Pooled.step {op : Op n} (p : Pooled s) (meets : KeepsDirty s op)
    (applies : step s op = some t) : Pooled t := by
  cases steps_of_step applies with
  | getBlock => exact p.getBlock _ _ _
  | @marks h _ _ now found =>
    exact p.of_notFree (.setDirty now) (fun h' ne => s.setDirty_of_ne now ne) (meets h found)
  | passes => exact p
  | modify used =>
    exact p.of_notFree (.modifyHeader (fun _ => rfl) fun _ => rfl)
      (fun h' ne => s.modifyHeader_of_ne _ ne) (p.notFree_of_used used)
  | @markDirty h now used =>
    exact p.of_notFree (.setDirty now) (fun h' ne => s.setDirty_of_ne now ne) (p.notFree_of_used used)
  | release used =>
    exact p.of_notFree .removeRef (fun h' ne => s.removeRef_of_ne ne) (p.notFree_of_used used)
  | setDevice => exact p.setDevice _ _ _ _
  | destroy => exact p.destroy _
  | flush => exact p.of_calms .flushInternal
  | beginRound => exact p.of_calms (.beginRound _ _)
  | transfer => exact ⟨p.freeNodup, p.mruNodup, p.free⟩
  | writeDone => exact p.of_calms (.finishWrite _ _)

/-! ## Rounds of the flusher -/

def KCacheBlockHeader.finished (b : KCacheBlockHeader) : KCacheBlockHeader :=
  if b.dirtyPending then b
  else { b with dirty := false, flushRequested := false, isFlushing := false }

theorem finishBlock_header (s : State n) (h : Fin n) :
    (s.finishBlock h).header = update s.header h (s.header h).finished := by
  funext h'
  unfold State.finishBlock KCacheBlockHeader.finished
  by_cases pending : (s.header h).dirtyPending = true
  · by_cases eq : h' = h
    · simp [pending, eq]
    · simp [pending, eq]
  · by_cases eq : h' = h
    · subst eq
      by_cases dirty : (s.header h').dirty = true
      · simp [pending, State.clearDirty, dirty, State.setFlushRequested, setIsFlushing,
          State.modifyHeader]
      · have clean : (s.header h').dirty = false := by simpa using dirty
        simp [pending, State.clearDirty, clean, State.setFlushRequested, setIsFlushing,
          State.modifyHeader]
    · have cleared : (s.clearDirty h).header h' = s.header h' := by
        unfold State.clearDirty
        split <;> simp [State.modifyHeader, eq]
      simp [pending, State.setFlushRequested, setIsFlushing, State.modifyHeader, eq, cleared]

/-- An update made for each block of a list, when making it twice is no more. -/
theorem foldl_header {op : State n → Fin n → State n} {g : KCacheBlockHeader → KCacheBlockHeader}
    (each : ∀ s h, (op s h).header = update s.header h (g (s.header h)))
    (twice : ∀ b, g (g b) = g b) (blocks : List (Fin n)) (s : State n) (h : Fin n) :
    (blocks.foldl op s).header h = if h ∈ blocks then g (s.header h) else s.header h := by
  induction blocks generalizing s with
  | nil => simp
  | cons first rest ih =>
    rw [foldl_cons, ih, each]
    by_cases eq : h = first
    · subst eq
      by_cases again : h ∈ rest <;> simp [again, twice]
    · by_cases again : h ∈ rest <;> simp [again, eq]

theorem finished_finished (b : KCacheBlockHeader) : b.finished.finished = b.finished := by
  unfold KCacheBlockHeader.finished
  by_cases pending : b.dirtyPending = true <;> simp [pending]

theorem foldl_finishBlock (blocks : List (Fin n)) (s : State n) (h : Fin n) :
    (blocks.foldl State.finishBlock s).header h =
      if h ∈ blocks then (s.header h).finished else s.header h :=
  foldl_header finishBlock_header finished_finished blocks s h

theorem foldl_clearDirtyPending (blocks : List (Fin n)) (s : State n) (h : Fin n) :
    (blocks.foldl clearDirtyPending s).header h =
      if h ∈ blocks then { s.header h with dirtyPending := false } else s.header h :=
  foldl_header (g := fun b => { b with dirtyPending := false }) (fun _ _ => rfl) (fun _ => rfl)
    blocks s h

theorem foldl_setIsFlushing (value : Bool) (blocks : List (Fin n)) (s : State n) (h : Fin n) :
    (blocks.foldl (fun s h => s.setIsFlushing h value) s).header h =
      if h ∈ blocks then { s.header h with isFlushing := value } else s.header h :=
  foldl_header (g := fun b => { b with isFlushing := value }) (fun _ _ => rfl) (fun _ => rfl)
    blocks s h

/-- The scan drops blocks from the front and splits what is left. -/
theorem scan_suffix (s : State n) (curTime : Int) (rest : List (Fin n)) :
    ∀ (segment : List (Fin n)) (required timedOut : Bool) {segment' rest' required'},
      s.scan curTime segment required timedOut rest = .write segment' rest' required' →
        (segment' ++ rest') <:+ (segment ++ rest) := by
  induction rest with
  | nil =>
    intro segment required timedOut segment' rest' required' found
    simp only [scan] at found
    split at found
    · cases found
      exact suffix_refl _
    · cases found
  | cons h rest ih =>
    intro segment required timedOut segment' rest' required' found
    simp only [scan] at found
    split at found
    · split at found
      · cases found
        exact suffix_refl _
      · exact (ih _ _ _ found).trans (suffix_append segment (h :: rest))
    · have := ih _ _ _ found
      rwa [append_assoc] at this

theorem selectFrom_sublist (s : State n) (blocks : List (Fin n)) (deviceID : Int) (room : Nat) :
    (s.selectFrom deviceID room blocks).Sublist blocks := by
  induction blocks generalizing deviceID room with
  | nil => simp [selectFrom]
  | cons h rest ih =>
    cases room with
    | zero => simp [selectFrom]
    | succ room =>
      simp only [selectFrom]
      generalize (if deviceID = -1 then (s.header h).device else deviceID) = device
      split
      · split
        · exact (ih _ _).cons_cons h
        · exact (ih _ _).cons h
      · exact (ih _ _).cons h

theorem selectFrom_dirty (s : State n) (blocks : List (Fin n)) (deviceID : Int) (room : Nat) :
    ∀ h ∈ s.selectFrom deviceID room blocks, (s.header h).dirty = true := by
  induction blocks generalizing deviceID room with
  | nil => simp [selectFrom]
  | cons first rest ih =>
    intro h selected
    cases room with
    | zero => simp [selectFrom] at selected
    | succ room =>
      simp only [selectFrom] at selected
      generalize (if deviceID = -1 then (s.header first).device else deviceID) = device
        at selected
      split at selected
      · rename_i isDirty
        simp only [Bool.and_eq_true] at isDirty
        split at selected
        · rcases mem_cons.1 selected with rfl | later
          · exact isDirty.1
          · exact ih _ _ h later
        · exact ih _ _ h selected
      · exact ih _ _ h selected

/-! ## The invariant -/

structure InFlight (s : State n) (f : FlushState n) : Prop where
  nodup : (f.segment ++ f.rest).Nodup
  dirty : ∀ h ∈ f.segment ++ f.rest, (s.header h).dirty
  carried : ∀ h ∈ f.segment, (s.header h).dirtyPending = false →
    ∀ e, f.carried h = some e → (s.header h).markedEdits ≤ e

structure Tracked (s : State n) : Prop extends Pooled s, State.Counted s where
  marked : ∀ h, (s.header h).Marked
  flight : ∀ f, s.flusher = .writing f → InFlight s f

namespace InFlight

theorem of_kept {f : FlushState n} (flight : InFlight s f)
    (kept : ∀ h, (s.header h).Kept (t.header h)) : InFlight t f where
  nodup := flight.nodup
  dirty h waiting := (kept h (flight.dirty h waiting)).1
  carried h inSegment settled e taken := by
    have isDirty := flight.dirty h (mem_append_left _ inSegment)
    obtain ⟨before, same⟩ := (kept h isDirty).2 settled
    rw [same]
    exact flight.carried h inSegment before e taken

/-- A segment that is just being handed to the device, after its pending flags
were cleared. -/
theorem start {f : FlushState n} (fresh : f.carried = fun _ => none)
    (nodup : (f.segment ++ f.rest).Nodup)
    (dirty : ∀ h ∈ f.segment ++ f.rest, (s.header h).dirty) : InFlight s f where
  nodup := nodup
  dirty := dirty
  carried h _ _ e taken := by simp [fresh] at taken

theorem resume {f : FlushState n} {found : Scan n} (blocks : List (Fin n)) (nodup : blocks.Nodup)
    (dirty : ∀ h ∈ blocks, (s.header h).dirty)
    (within : ∀ {segment rest required}, found = .write segment rest required →
      (segment ++ rest) <:+ blocks)
    (g : FlushState n) (writing : (s.resume f found).flusher = .writing g) :
    InFlight (s.resume f found) g := by
  cases found with
  | finished =>
    simp only [State.resume] at writing
    cases writing
  | write segment rest required =>
    simp only [State.resume] at writing
    obtain rfl := Flusher.writing.inj writing
    refine start rfl ((within rfl).sublist.nodup nodup) fun h waiting => ?_
    have before := dirty h ((within rfl).subset waiting)
    simp only [State.resume, foldl_clearDirtyPending]
    split
    · exact before
    · exact before

end InFlight

theorem resume_header (s : State n) (f : FlushState n) (found : Scan n) (h : Fin n) :
    ∃ dirtyPending isFlushing, (s.resume f found).header h =
      { s.header h with dirtyPending, isFlushing } := by
  cases found with
  | write segment rest required =>
    simp only [State.resume, foldl_clearDirtyPending]
    split
    · exact ⟨false, (s.header h).isFlushing, rfl⟩
    · exact ⟨(s.header h).dirtyPending, (s.header h).isFlushing, rfl⟩
  | finished =>
    have released : (s.resume f .finished).header =
        (f.blockList.foldl (fun s h => s.setIsFlushing h false) s).header := by
      simp only [State.resume]
      split <;> rfl
    rw [released, foldl_setIsFlushing]
    split
    · exact ⟨(s.header h).dirtyPending, false, rfl⟩
    · exact ⟨(s.header h).dirtyPending, (s.header h).isFlushing, rfl⟩

theorem resume_dirty (s : State n) (f : FlushState n) (found : Scan n) (h : Fin n) :
    ((s.resume f found).header h).dirty = (s.header h).dirty := by
  obtain ⟨_, _, same⟩ := resume_header s f found h
  rw [same]

theorem resume_marked (f : FlushState n) (found : Scan n) (marked : (s.header h).Marked) :
    ((s.resume f found).header h).Marked := by
  obtain ⟨_, _, same⟩ := resume_header s f found h
  rw [same]
  exact marked

/-- What one update leaves alone, an update of each block of a list leaves alone. -/
theorem foldl_field {α : Type} (field : State n → α) (op : State n → Fin n → State n)
    (each : ∀ s h, field (op s h) = field s) (blocks : List (Fin n)) (s : State n) :
    field (blocks.foldl op s) = field s := by
  induction blocks generalizing s with
  | nil => rfl
  | cons h rest ih => exact (ih (op s h)).trans (each s h)

theorem State.Counted.resume (counted : s.Counted) (f : FlushState n) (found : Scan n) :
    (s.resume f found).Counted := by
  refine counted.of_congr ?_ (resume_dirty s f found)
  cases found with
  | write segment rest required =>
    have same : (segment.foldl clearDirtyPending s).dirtyBlockCount = s.dirtyBlockCount :=
      foldl_field State.dirtyBlockCount clearDirtyPending (fun _ _ => rfl) segment s
    exact same
  | finished =>
    have same : (f.blockList.foldl (fun s h => s.setIsFlushing h false) s).dirtyBlockCount =
        s.dirtyBlockCount :=
      foldl_field State.dirtyBlockCount (fun s h => s.setIsFlushing h false) (fun _ _ => rfl) f.blockList s
    simp only [State.resume]
    split <;> exact same

/-- The end of a write is the end of its segment and what the scan of the blocks
after it finds. -/
theorem finishWrite_spec (s : State n) (f : FlushState n) (outcome : WriteOutcome) :
    ∃ (u : State n) (g : FlushState n) (found : Scan n),
      s.finishWrite f outcome = u.resume g found ∧
      u.header = (f.segment.foldl State.finishBlock s).header ∧
      u.dirtyBlockCount = (f.segment.foldl State.finishBlock s).dirtyBlockCount ∧
      ∀ {segment rest required}, found = .write segment rest required →
        (segment ++ rest) <:+ f.rest := by
  let u := if f.requiredSegment then (f.segment.foldl State.finishBlock s).wakeDone
    else f.segment.foldl State.finishBlock s
  let g := { f with anythingFlushed := f.anythingFlushed || outcome != WriteOutcome.failed }
  have header : u.header = (f.segment.foldl State.finishBlock s).header := by
    simp only [u]
    split <;> rfl
  have count : u.dirtyBlockCount = (f.segment.foldl State.finishBlock s).dirtyBlockCount := by
    simp only [u]
    split <;> rfl
  rcases f with ⟨blockList, segment, rest, curTime, requiredSegment, anythingFlushed, carried⟩
  cases rest with
  | nil => exact ⟨u, g, .finished, rfl, header, count, fun found => by cases found⟩
  | cons h rest =>
    exact ⟨u, g, u.scan curTime [h] false false rest, rfl, header, count,
      fun found => scan_suffix u curTime rest [h] false false found⟩

namespace State.Counted

theorem beginRound (counted : s.Counted) (now : Int) (blockList : List (Fin n)) :
    (s.beginRound now blockList).Counted := by
  unfold State.beginRound
  split
  · have count : (s.selectBlocks.foldl (fun s h => s.setIsFlushing h true) s).dirtyBlockCount =
        s.dirtyBlockCount :=
      foldl_field State.dirtyBlockCount (fun s h => s.setIsFlushing h true) (fun _ _ => rfl) _ s
    refine (counted.of_congr count fun h => ?_).resume _ _
    rw [foldl_setIsFlushing]
    split <;> rfl
  · exact counted

theorem finishWrite (counted : s.Counted) (f : FlushState n) (outcome : WriteOutcome) :
    (s.finishWrite f outcome).Counted := by
  obtain ⟨u, g, found, result, header, count, _⟩ := finishWrite_spec s f outcome
  have finished : (f.segment.foldl State.finishBlock s).Counted :=
    counted.foldl (fun _ _ counted => counted.finishBlock) f.segment
  rw [result]
  exact (finished.of_congr count fun h => by rw [header]).resume g found

theorem step {op : Op n} (counted : s.Counted) (p : Pooled s)
    (applies : BlockCache.step s op = some t) : t.Counted := by
  cases kind : op.ofFlusher with
  | false => exact (Client.of_step p kind applies).counted counted
  | true =>
    cases steps_of_step applies with
    | beginRound => exact counted.beginRound _ _
    | transfer => exact ⟨counted.count⟩
    | writeDone => exact counted.finishWrite _ _
    | _ => simp [Op.ofFlusher] at kind

theorem initial : (initialState n).Counted := ⟨by simp [initialState, dirtyCount]⟩

end State.Counted

namespace Tracked

theorem initial : Tracked (initialState n) where
  toPooled := .initial
  toCounted := .initial
  marked _ := le_rfl
  flight f writing := by simp [initialState] at writing

section

variable (tracked : Tracked s)

include tracked

theorem of_client (pooled : Pooled t) (client : Client s t) : Tracked t where
  toPooled := pooled
  toCounted := client.counted tracked.toCounted
  marked := client.marked tracked.marked
  flight f writing := (tracked.flight f (client.flusher ▸ writing)).of_kept client.kept

theorem beginRound (now : Int) {blockList : List (Fin n)} (sorts : s.SortsTo blockList) :
    Tracked (s.beginRound now blockList) := by
  have pooled := tracked.toPooled.of_calms (.beginRound now blockList)
  have counted := tracked.toCounted.beginRound now blockList
  have order := sorts.1
  unfold State.beginRound at pooled counted ⊢
  split
  · rename_i some'
    simp only [some', if_true] at pooled counted
    generalize blocksEq : s.selectBlocks = blocks at pooled counted order ⊢
    have nodup : blocks.Nodup :=
      blocksEq ▸ (selectFrom_sublist s _ _ _).nodup tracked.mruNodup
    have dirty : ∀ h ∈ blocks, (s.header h).dirty = true :=
      blocksEq ▸ selectFrom_dirty s s.mruList (-1) maxFlushBlockCount
    let u := blocks.foldl (fun s h => s.setIsFlushing h true) s
    have header : ∀ h, (u.header h).dirty = (s.header h).dirty ∧
        ((s.header h).Marked → (u.header h).Marked) := by
      intro h
      rw [foldl_setIsFlushing]
      split
      · exact ⟨rfl, id⟩
      · exact ⟨rfl, id⟩
    refine ⟨pooled, counted, fun h => ?_, fun g writing => ?_⟩
    · exact resume_marked _ _ ((header h).2 (tracked.marked h))
    · refine InFlight.resume blockList (order.nodup_iff.2 nodup) ?_ ?_ g writing
      · intro h member
        rw [(header h).1]
        exact dirty h (order.mem_iff.1 member)
      · intro segment rest required found
        exact scan_suffix _ _ _ [] false false found
  · exact tracked

theorem finishWrite {f : FlushState n} (writing : s.flusher = .writing f)
    (outcome : WriteOutcome) : Tracked (s.finishWrite f outcome) := by
  have pooled := tracked.toPooled.of_calms (.finishWrite f outcome)
  have counted := tracked.toCounted.finishWrite f outcome
  obtain ⟨u, g, found, result, header, _, within⟩ := finishWrite_spec s f outcome
  rw [result] at pooled counted ⊢
  have flight := tracked.flight f writing
  refine ⟨pooled, counted, fun h => resume_marked _ _ ?_, fun g' writing' => ?_⟩
  · rw [header, foldl_finishBlock]
    split
    · unfold KCacheBlockHeader.finished
      split
      · exact tracked.marked h
      · exact tracked.marked h
    · exact tracked.marked h
  · obtain ⟨_, restNodup, apart⟩ := nodup_append.1 flight.nodup
    refine InFlight.resume f.rest restNodup (fun h waiting => ?_) within g' writing'
    have notInSegment : h ∉ f.segment := fun inSegment => apart h inSegment h waiting rfl
    rw [header, foldl_finishBlock, if_neg notInSegment]
    exact flight.dirty h (mem_append_right _ waiting)

/-- The device takes the bytes of a block: whatever was marked is among them. -/
theorem transfer {f : FlushState n} (writing : s.flusher = .writing f) :
    let carried := update f.carried h (some (s.header h).edits)
    Tracked { s with flusher := .writing { f with carried } } := by
  intro carried
  have pooled : Pooled { s with flusher := .writing { f with carried } } :=
    ⟨tracked.freeNodup, tracked.mruNodup, tracked.free⟩
  refine ⟨pooled, ⟨tracked.count⟩, tracked.marked, fun g writing' => ?_⟩
  have flight := tracked.flight f writing
  obtain rfl := Flusher.writing.inj writing'
  refine ⟨flight.nodup, flight.dirty, fun h' inSegment settled e taken => ?_⟩
  by_cases eq : h' = h
  · subst eq
    obtain rfl : (s.header h').edits = e := by simpa [carried] using taken
    exact tracked.marked h'
  · exact flight.carried h' inSegment settled e (by simpa [carried, eq] using taken)

theorem step {op : Op n} (meets : KeepsDirty s op)
    (applies : step s op = some t) : Tracked t := by
  have pooled := tracked.toPooled.step meets applies
  cases kind : op.ofFlusher with
  | false => exact tracked.of_client pooled (.of_step tracked.toPooled kind applies)
  | true =>
    cases steps_of_step applies with
    | beginRound sorts => exact tracked.beginRound _ sorts
    | transfer writing => exact tracked.transfer writing
    | writeDone writing => exact tracked.finishWrite writing _
    | _ => simp [Op.ofFlusher] at kind

end

theorem reached (run : (system n).Reaches KeepsDirty (initialState n) s) : Tracked s :=
  run.invariant Tracked .initial fun tracked meets applies => tracked.step meets applies

end Tracked

/-! ## Where a dirty flag is cleared -/

theorem finishWrite_dirty (s : State n) (f : FlushState n) (outcome : WriteOutcome) (h : Fin n) :
    ((s.finishWrite f outcome).header h).dirty =
      if h ∈ f.segment then (s.header h).finished.dirty else (s.header h).dirty := by
  obtain ⟨u, g, found, result, header, _⟩ := finishWrite_spec s f outcome
  rw [result, resume_dirty, header, foldl_finishBlock]
  split <;> rfl

theorem finished_dirty {b : KCacheBlockHeader} (pending : b.dirtyPending = true) :
    b.finished.dirty = b.dirty := by
  simp [KCacheBlockHeader.finished, pending]

theorem beginRound_dirty (s : State n) (now : Int) (blockList : List (Fin n)) (h : Fin n) :
    ((s.beginRound now blockList).header h).dirty = (s.header h).dirty := by
  unfold State.beginRound
  split
  · rw [resume_dirty, foldl_setIsFlushing]
    split <;> rfl
  · rfl

/-- Only the end of a write makes a dirty block clean. -/
theorem dirty_of_step {op : Op n} (p : Pooled s) (applies : step s op = some t)
    (noWrite : ∀ outcome, op ≠ .writeDone outcome) (dirty : (s.header h).dirty) :
    (t.header h).dirty := by
  cases kind : op.ofFlusher with
  | false => exact ((Client.of_step p kind applies).kept h dirty).1
  | true =>
    cases steps_of_step applies with
    | beginRound =>
      rw [beginRound_dirty]
      exact dirty
    | transfer => exact dirty
    | writeDone => exact absurd rfl (noWrite _)
    | _ => simp [Op.ofFlusher] at kind

/-- A step clears a dirty flag only with a completed write that has taken what was
last marked, and a block of a failed write or a block marked again stays dirty. -/
structure LosesNoWrite (s : State n) (op : Op n) (t : State n) : Prop where
  cleared : ∀ h, (s.header h).dirty → (t.header h).dirty = false →
    ∃ f e, s.flusher = .writing f ∧ op = .writeDone .completed ∧ h ∈ f.segment ∧
      f.carried h = some e ∧ (s.header h).markedEdits ≤ e
  stays : ∀ f outcome, s.flusher = .writing f → op = .writeDone outcome → ∀ h ∈ f.segment,
    outcome ≠ .completed ∨ (s.header h).dirtyPending → (t.header h).dirty

theorem Tracked.losesNoWrite {op : Op n} (tracked : Tracked s) (meets : KeepsDirty s op)
    (applies : BlockCache.step s op = some t) : LosesNoWrite s op t where
  cleared h dirty clean := by
    by_cases noWrite : ∀ outcome, op ≠ .writeDone outcome
    · have still := dirty_of_step tracked.toPooled applies noWrite dirty
      rw [still] at clean
      cases clean
    obtain ⟨outcome, rfl⟩ : ∃ outcome, op = .writeDone outcome := by simpa using noWrite
    obtain ⟨f, writing, taken, rfl⟩ := writeDone_spec applies
    rw [finishWrite_dirty] at clean
    have inSegment : h ∈ f.segment := by
      by_contra outside
      rw [if_neg outside, dirty] at clean
      cases clean
    rw [if_pos inSegment] at clean
    have settled : (s.header h).dirtyPending = false := by
      cases pending : (s.header h).dirtyPending with
      | false => rfl
      | true =>
        rw [finished_dirty pending, dirty] at clean
        cases clean
    have completed : outcome = .completed := by
      by_contra other
      have pending := meets other f writing h inSegment
      rw [settled] at pending
      cases pending
    obtain ⟨e, carried⟩ := ne_none_iff_exists'.1 (taken completed h inSegment)
    exact ⟨f, e, writing, completed ▸ rfl, inSegment, carried,
      (tracked.flight f writing).carried h inSegment settled e carried⟩
  stays f outcome writing done h inSegment reason := by
    subst done
    obtain ⟨f', writing', _, rfl⟩ := writeDone_spec applies
    obtain rfl := Flusher.writing.inj (writing.symm.trans writing')
    have pending : (s.header h).dirtyPending = true := by
      rcases reason with other | pending
      · exact meets other f writing h inSegment
      · exact pending
    rw [finishWrite_dirty, if_pos inSegment, finished_dirty pending]
    exact (tracked.flight f writing).dirty h (mem_append_left _ inSegment)

theorem losesNoWrite_of_keepsDirty (run : (system n).Reaches KeepsDirty (initialState n) s) :
    s.dirtyBlockCount = s.dirtyCount ∧
      ∀ op t, KeepsDirty s op → (system n).step s op = some t → LosesNoWrite s op t :=
  ⟨(Tracked.reached run).count,
    fun _ _ meets applies => (Tracked.reached run).losesNoWrite meets applies⟩

/-- The write of the only block fails, which has been marked again since it began. -/
theorem losesNoWrite_of_keepsDirty_failing : ∃ s t : State 1, (s.header 0).dirty = true ∧
    (system 1).step s (.writeDone .failed) = some t ∧ s.dirtyBlockCount = s.dirtyCount ∧
    LosesNoWrite s (.writeDone .failed) t := by
  have start : (system 1).Reaches KeepsDirty (initialState 1) _ := .refl
  have loaded := (start.next (.setDevice 0 3 64 512) trivial rfl).next (.getBlock 0 7 .complete)
    trivial rfl
  have marked := (loaded.next (.modify 0) trivial rfl).next (.markDirty 0 0) trivial rfl
  have writing := (marked.next .flush trivial rfl).next (.beginRound 0 [0]) trivial rfl
  have again := (writing.next (.modify 0) trivial rfl).next (.markDirty 0 1) trivial rfl
  have kept := losesNoWrite_of_keepsDirty again
  refine ⟨_, _, rfl, rfl, kept.1, kept.2 _ _ ?_ rfl⟩
  rintro - f ⟨⟩ h inSegment
  rw [mem_singleton.1 inSegment]
  rfl

/-! ## A block that is written and marked

What `CachedWrite_trw` leaves of a block that was not cached, while there are
free headers.
-/

structure Stored (s : State n) (c : CacheId) (bufferNum : Nat) (front : List (Fin n)) (h : Fin n)
    (t : State n) : Prop where
  freeList : t.freeList = front
  mruList : t.mruList = s.mruList ++ [h]
  header : t.header = update s.header h
    { device := (s.cache c).device, bufferNumber := bufferNum, dirty := true
      edits := 1, markedEdits := 1 }
  cache : t.cache = (s.setBlockMap c bufferNum (some h)).cache
  count : t.dirtyBlockCount = s.dirtyBlockCount + 1
  flusher : t.flusher = s.flusher

theorem exists_stored (good : Condition (State n) (Op n)) {c : CacheId} (blockNum : Nat)
    {front : List (Fin n)} (free : s.freeList = front ++ [h])
    (missing : (s.cache c).blockMap ((s.cache c).bufferNum blockNum) = none)
    (attached : (s.cache c).device ≠ -1)
    (meets : ∀ u, good s (.getBlock c blockNum .complete) ∧ good u (.modify h) ∧
      good u (.markDirty h 0) ∧ good u (.release h)) :
    ∃ t, (system n).Reaches good s t ∧ Stored s c ((s.cache c).bufferNum blockNum) front h t := by
  generalize numberEq : (s.cache c).bufferNum blockNum = number at missing ⊢
  let loaded : State n := { s.modifyHeader h (fun _ =>
      { device := (s.cache c).device, bufferNumber := number, useCount := 1 }) with
    freeList := front, mruList := s.mruList ++ [h] }.setBlockMap c number (some h)
  have result : s.getBlock c blockNum .complete =
      (.returns h ((s.cache c).blockOffset blockNum), loaded) := by
    simp [getBlock, numberEq, missing, free, State.loadBlock, readError, attached, loaded,
      State.modifyHeader]
  let edited := loaded.modifyHeader h fun b => { b with edits := b.edits + 1 }
  let marked := edited.setDirty h 0
  have loads : (system n).step s (.getBlock c blockNum .complete) = some loaded := by
    simp [system, step, result]
  have edits : (system n).step loaded (.modify h) = some edited := by
    simp [system, step, loaded, edited, State.modifyHeader]
  have marks : (system n).step edited (.markDirty h 0) = some marked := by
    simp [system, step, loaded, edited, marked, State.modifyHeader]
  have releases : (system n).step marked (.release h) = some (marked.removeRef h) := by
    simp [system, step, loaded, edited, marked, State.modifyHeader, State.setDirty]
  refine ⟨marked.removeRef h, .tail (.tail (.tail (.single (meets s).1 loads) (meets _).2.1 edits)
    (meets _).2.2.1 marks) (meets _).2.2.2 releases, ?_⟩
  refine ⟨?_, ?_, ?_, ?_, ?_, ?_⟩
  all_goals simp [State.removeRef, marked, edited, loaded, State.modifyHeader, State.setDirty,
      wakeDone, setBlockMap]

/-- A round for one block that a flush was requested for. -/
theorem beginRound_single (mru : s.mruList = [h]) (count : 0 < s.dirtyBlockCount)
    (dirty : (s.header h).dirty = true) (settled : (s.header h).isFlushing = false)
    (requested : (s.header h).flushRequested = true) (now : Int) :
    s.SortsTo [h] ∧ ∃ f, (s.beginRound now [h]).flusher = .writing f ∧ f.segment = [h] ∧
      ((s.beginRound now [h]).header h).dirty = true ∧
      ((s.beginRound now [h]).header h).dirtyPending = false := by
  have selected : s.selectBlocks = [h] := by
    simp [selectBlocks, mru, maxFlushBlockCount, selectFrom, dirty, settled]
  refine ⟨by simp [SortsTo, selected], ⟨[h], [h], [], now, true, false, fun _ => none⟩, ?_, rfl, ?_,
    ?_⟩ <;>
    simp [State.beginRound, count, selected, scan, isBoundary, setIsFlushing,
      State.modifyHeader, requested, State.resume, clearDirtyPending, dirty]

/-- The only block of device 3 is marked and flushed, and the write fails. -/
theorem exists_lost_write (some' : 0 < n) : ∃ s t : State n,
    (system n).Reaches anyStep (initialState n) s ∧
      (system n).step s (.writeDone .failed) = some t ∧ ¬LosesNoWrite s (.writeDone .failed) t := by
  let mounted := ((initialState n).setDevice 0 3 8192 512).2
  have mounts : (system n).step (initialState n) (.setDevice 0 3 8192 512) = some mounted := rfl
  obtain ⟨front, h, free⟩ : ∃ front h, mounted.freeList = front ++ [h] := by
    have notEmpty : List.finRange n ≠ [] := by
      rw [← length_pos_iff, length_finRange]
      exact some'
    exact ⟨_, _, (dropLast_append_getLast notEmpty).symm⟩
  have attached : (mounted.cache 0).device ≠ -1 := by
    have : (mounted.cache 0).device = 3 := rfl
    rw [this]
    decide
  obtain ⟨s, run, stored⟩ := exists_stored anyStep 7 free rfl attached
    fun _ => ⟨trivial, trivial, trivial, trivial⟩
  have header : s.header h = { device := 3, bufferNumber := 7, dirty := true
                               edits := 1, markedEdits := 1 } := by
    rw [stored.header, update_self]
    rfl
  have mru : s.mruList = [h] := stored.mruList
  have count : s.dirtyBlockCount = 1 := stored.count
  have flushes : (system n).step s .flush = some s.flushInternal := rfl
  have asked : s.flushInternal.header h = { s.header h with flushRequested := true } := by
    simp [State.flushInternal, count, mru, header]
  have idle : s.flushInternal.flusher = .idle := by
    rw [Client.flushInternal.flusher, stored.flusher]
    rfl
  obtain ⟨sorts, f, writing, segment, dirty, settled⟩ := beginRound_single (s := s.flushInternal) (h := h)
    (by simp [State.flushInternal, count, mru]) (by simp [State.flushInternal, count])
    (by simp [asked, header]) (by simp [asked, header]) (by simp [asked]) 0
  have begins : (system n).step s.flushInternal (.beginRound 0 [h]) =
      some (s.flushInternal.beginRound 0 [h]) := by
    simp [system, step, idle, sorts]
  have fails : (system n).step (s.flushInternal.beginRound 0 [h]) (.writeDone .failed) =
      some ((s.flushInternal.beginRound 0 [h]).finishWrite f .failed) := by
    simp [system, step, writing]
  refine ⟨_, _, .tail (.tail (.head trivial mounts run) trivial flushes) trivial begins, fails,
    fun safe => ?_⟩
  have inSegment : h ∈ f.segment := by simp [segment]
  have still := safe.stays f .failed writing rfl h inSegment (.inl (by decide))
  rw [finishWrite_dirty, if_pos inSegment] at still
  simp [KCacheBlockHeader.finished, settled] at still

theorem not_losesNoWrite_always : ¬∀ s : State blockCount,
    (system blockCount).Reaches anyStep (initialState blockCount) s →
      ∀ op t, (system blockCount).step s op = some t → LosesNoWrite s op t := by
  intro always
  obtain ⟨s, t, run, applies, lost⟩ := exists_lost_write (n := blockCount) (by decide)
  exact lost (always s run _ t applies)

end PadOS.BlockCache
