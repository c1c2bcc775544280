import PadOS.Core.Transition
import Mathlib.Data.List.Nodup

/-! # The inode cache

`KVFSManager` keeps the inodes that have no references on one list, oldest first, and
finds all inodes it holds in one map. Each part of a call that holds `s_InodeMapMutex`
is a step, and so is each change of a reference count; `DiscardInode` gives up the mutex
while the filesystem releases the inode.

Looking up an inode across a mount point is a lookup, a copy of the mounted root and a
drop. A load ends as the filesystem's `LoadInode` does, which returns a reference to an
inode with the key it was asked for.
-/

namespace PadOS.Vfs.InodeCache

open Transition Function

/-- The volume and the number of an inode. -/
abbrev Key := Nat × Nat

def maxInodeCacheCount : Nat := 5

inductive Life
  | unborn
  | alive
  | deleted
  deriving DecidableEq

/-- `refs` is history: the number of `Ptr` that refer to the inode. -/
structure KInode where
  life : Life := .unborn
  key : Key := (0, 0)
  dontCache : Bool := false
  active : Bool := true
  ptrCount : Nat := 0
  monitors : Nat := 0
  lastUseTime : Int := 0
  refs : Nat := 0
  deriving DecidableEq

/-- `pending` is `PENDING_INODE`. -/
inductive Entry
  | absent
  | pending
  | inode (i : Nat)
  deriving DecidableEq

/-- Where a thread stands between two steps. `flush` is the time of the `FlushInodes` that
a `DiscardInode` returns to. -/
inductive Pc
  | idle
  | dropped (i : Nat)
  | notifying (i : Nat)
  | lastGone (i : Nat)
  | discarding (i : Nat) (key : Key) (flush : Option Int)
  | discarded (key : Key) (flush : Option Int)
  | loading (key : Key)
  deriving DecidableEq

/-- How the reference count is kept: as the number of references, or as `PtrTarget`
keeps it. -/
inductive Counting
  | references
  | ptrTarget

/-- `asserted` is history: no assertion has failed. After one the kernel stands still. -/
structure State where
  inode : Nat → KInode := fun _ => {}
  map : Key → Entry := fun _ => .absent
  mru : List Nat := []
  unusedCount : Int := 0
  pc : Nat → Pc := fun _ => .idle
  asserted : Bool := true

namespace State

section

variable (s : State)

def fail : State := { s with asserted := false }

def setPc (t : Nat) (pc : Pc) : State := { s with pc := update s.pc t pc }

def modify (i : Nat) (f : KInode → KInode) : State :=
  { s with inode := update s.inode i (f (s.inode i)) }

def setMap (key : Key) (entry : Entry) : State :=
  { s with map := update s.map key entry }

/-- `Append`, which asserts that the inode is on no list, and the count. -/
def appendUnused (i : Nat) : State :=
  { s with mru := s.mru ++ [i], unusedCount := s.unusedCount + 1 }

/-- `Remove`, which asserts that the inode is on the list, and the count. -/
def removeUnused (i : Nat) : State :=
  { s with mru := s.mru.erase i, unusedCount := s.unusedCount - 1 }

/-! ## The manager -/

/-- `DiscardInode` up to where it gives up the mutex. -/
def discardInode (t i : Nat) (flush : Option Int) : State :=
  let key := (s.inode i).key
  if (s.inode i).ptrCount ≠ 0 then s.fail
  else if i ∉ s.mru then s.fail
  else match s.map key with
    | .inode _ => ((s.removeUnused i).setMap key .pending).setPc t (.discarding i key flush)
    | _ => (s.removeUnused i).fail

/-- `InodeReleased`, without the rest of a `DiscardInode` it begins. -/
def inodeReleased (t i : Nat) : State :=
  if (s.inode i).ptrCount = 0 then
    if (s.inode i).dontCache then s.discardInode t i none
    else if i ∈ s.mru then s.fail
    else
      let s' := s.appendUnused i
      if s'.unusedCount > maxInodeCacheCount then
        match s'.mru.head? with
        | some first => s'.discardInode t first none
        | none => s'.fail
      else s'.setPc t .idle
  else s.setPc t .idle

/-- The loop of `FlushInodes`, up to its first discard. -/
def flushInodes (t : Nat) (curTime : Int) : State :=
  match s.mru.head? with
  | some first =>
    if curTime > (s.inode first).lastUseTime + 1 then s.discardInode t first (some curTime)
    else s.setPc t .idle
  | none => s.setPc t .idle

/-- The rest of `DiscardInode`, with the mutex taken again. -/
def endDiscard (t : Nat) (key : Key) (flush : Option Int) : State :=
  match s.map key with
  | .pending =>
    let s' := s.setMap key .absent
    match flush with
    | some curTime => s'.flushInodes t curTime
    | none => s'.setPc t .idle
  | _ => s.fail

/-- One reference more. -/
def addRef (i : Nat) : State :=
  s.modify i fun n => { n with ptrCount := n.ptrCount + 1, refs := n.refs + 1 }

/-- `GetInode_trw` under the mutex. A thread that finds `PENDING_INODE` waits, and looks
again when it is woken. -/
def getInode (t : Nat) (key : Key) (registered : Bool) : State :=
  match s.map key with
  | .pending => s
  | .inode i =>
    if (s.inode i).ptrCount = 0 then
      if i ∈ s.mru then (s.removeUnused i).addRef i else s.fail
    else s.addRef i
  | .absent => if registered then (s.setMap key .pending).setPc t (.loading key) else s

/-- `completeInodeLoad`. -/
def endLoad (t : Nat) (key : Key) (loaded : Option Nat) : State :=
  match s.map key with
  | .pending =>
    (match loaded with
      | some i => s.setMap key (.inode i)
      | none => s.setMap key .absent).setPc t .idle
  | _ => s.fail

/-! ## References -/

/-- `ReleasePtrRef` up to where the count has reached zero. -/
def releasePtrRef (c : Counting) (t i : Nat) : State :=
  let s' := s.modify i fun n => { n with ptrCount := n.ptrCount - 1, refs := n.refs - 1 }
  if 0 < (s'.inode i).ptrCount then s'
  else match c with
    | .references => s'.setPc t (.lastGone i)
    | .ptrTarget => s'.setPc t (.dropped i)

/-- `HandleLastRefGone`, without what it calls. A monitor may take `revived` references. -/
def handleLastRefGone (t i revived : Nat) : State :=
  if (s.inode i).monitors = 0 then
    (s.modify i fun n => { n with ptrCount := n.ptrCount + 1 }).setPc t (.lastGone i)
  else
    (s.modify i fun n =>
      { n with ptrCount := n.ptrCount + 1 + revived, refs := n.refs + revived, monitors := 0 }).setPc t
        (.notifying i)

/-- The count is taken down again when the monitors know. -/
def retryRelease (t i : Nat) : State :=
  let s' := s.modify i fun n => { n with ptrCount := n.ptrCount - 1 }
  if 0 < (s'.inode i).ptrCount then s'.setPc t .idle else s'.setPc t (.dropped i)

def lastReferenceGone (t i : Nat) (now : Int) : State :=
  if (s.inode i).active then
    (s.modify i fun n => { n with lastUseTime := now }).inodeReleased t i
  else (s.modify i fun n => { n with life := .deleted }).setPc t .idle

end

end State

/-! ## The system -/

inductive Op
  | newInode (i : Nat) (key : Key) (dontCache : Bool)
  | copy (i : Nat)
  | promote (i : Nat)
  | watch (i : Nat)
  | detach (i : Nat)
  | drop (t i : Nat)
  | handle (t revived : Nat)
  | retry (t : Nat)
  | lastReferenceGone (t : Nat) (now : Int)
  | getInode (t : Nat) (key : Key) (registered : Bool)
  | endLoad (t : Nat) (loaded : Option Nat)
  | flushInodes (t : Nat) (curTime : Int)
  | releaseInode (t : Nat)
  | endDiscard (t : Nat)

/-- A `Ptr` to the inode exists. -/
def State.Held (s : State) (i : Nat) : Prop := (s.inode i).life = .alive ∧ 0 < (s.inode i).refs

instance (s : State) (i : Nat) : Decidable (s.Held i) := inferInstanceAs (Decidable (_ ∧ _))

/-- What `LoadInode` may return for a key. -/
def State.Loads (s : State) (key : Key) (i : Nat) : Prop :=
  s.Held i ∧ (s.inode i).key = key ∧ (s.inode i).active = true

instance (s : State) (key : Key) (i : Nat) : Decidable (s.Loads key i) :=
  inferInstanceAs (Decidable (_ ∧ _ ∧ _))

/-- An inode is detached when `DetachVolume_trw` has taken it out of the map. -/
def step (c : Counting) (s : State) (op : Op) : Option State :=
  if s.asserted = false then none
  else match op with
    | .newInode i key dontCache =>
      if (s.inode i).life = .unborn then
        some (s.modify i fun _ =>
          { life := .alive, key := key, dontCache := dontCache, ptrCount := 1, refs := 1 })
      else none
    | .copy i => if s.Held i then some (s.addRef i) else none
    | .promote i =>
      if (s.inode i).life = .alive ∧ 0 < (s.inode i).ptrCount then some (s.addRef i) else none
    | .watch i =>
      if s.Held i then some (s.modify i fun n => { n with monitors := n.monitors + 1 }) else none
    | .detach i =>
      if s.Held i ∧ s.map (s.inode i).key ≠ .inode i then
        some (s.modify i fun n => { n with active := false })
      else none
    | .drop t i => if s.pc t = .idle ∧ s.Held i then some (s.releasePtrRef c t i) else none
    | .handle t revived =>
      match s.pc t with
      | .dropped i => some (s.handleLastRefGone t i revived)
      | _ => none
    | .retry t =>
      match s.pc t with
      | .notifying i => some (s.retryRelease t i)
      | _ => none
    | .lastReferenceGone t now =>
      match s.pc t with
      | .lastGone i => some (s.lastReferenceGone t i now)
      | _ => none
    | .getInode t key registered => if s.pc t = .idle then some (s.getInode t key registered) else none
    | .endLoad t loaded =>
      match s.pc t with
      | .loading key =>
        if ∀ i ∈ loaded, s.Loads key i then some (s.endLoad t key loaded) else none
      | _ => none
    | .flushInodes t curTime => if s.pc t = .idle then some (s.flushInodes t curTime) else none
    | .releaseInode t =>
      match s.pc t with
      | .discarding i key flush =>
        some ((s.modify i fun n => { n with life := .deleted }).setPc t (.discarded key flush))
      | _ => none
    | .endDiscard t =>
      match s.pc t with
      | .discarded key flush => some (s.endDiscard t key flush)
      | _ => none

/-- What each operation finds and does. -/
inductive Steps (c : Counting) (s : State) : Op → State → Prop
  | newInode {i key dontCache} (unborn : (s.inode i).life = .unborn) :
      Steps c s (.newInode i key dontCache) (s.modify i fun _ =>
        { life := .alive, key := key, dontCache := dontCache, ptrCount := 1, refs := 1 })
  | copy {i} (held : s.Held i) : Steps c s (.copy i) (s.addRef i)
  | promote {i} (alive : (s.inode i).life = .alive) (counted : 0 < (s.inode i).ptrCount) :
      Steps c s (.promote i) (s.addRef i)
  | watch {i} (held : s.Held i) :
      Steps c s (.watch i) (s.modify i fun n => { n with monitors := n.monitors + 1 })
  | detach {i} (held : s.Held i) (unmapped : s.map (s.inode i).key ≠ .inode i) :
      Steps c s (.detach i) (s.modify i fun n => { n with active := false })
  | drop {t i} (idle : s.pc t = .idle) (held : s.Held i) : Steps c s (.drop t i) (s.releasePtrRef c t i)
  | handle {t i revived} (here : s.pc t = .dropped i) :
      Steps c s (.handle t revived) (s.handleLastRefGone t i revived)
  | retry {t i} (here : s.pc t = .notifying i) : Steps c s (.retry t) (s.retryRelease t i)
  | lastReferenceGone {t i now} (here : s.pc t = .lastGone i) :
      Steps c s (.lastReferenceGone t now) (s.lastReferenceGone t i now)
  | getInode {t key registered} (idle : s.pc t = .idle) :
      Steps c s (.getInode t key registered) (s.getInode t key registered)
  | endLoad {t key loaded} (here : s.pc t = .loading key) (loads : ∀ i ∈ loaded, s.Loads key i) :
      Steps c s (.endLoad t loaded) (s.endLoad t key loaded)
  | flushInodes {t curTime} (idle : s.pc t = .idle) :
      Steps c s (.flushInodes t curTime) (s.flushInodes t curTime)
  | releaseInode {t i key flush} (here : s.pc t = .discarding i key flush) :
      Steps c s (.releaseInode t)
        ((s.modify i fun n => { n with life := .deleted }).setPc t (.discarded key flush))
  | endDiscard {t key flush} (here : s.pc t = .discarded key flush) :
      Steps c s (.endDiscard t) (s.endDiscard t key flush)

theorem steps_of_step {c : Counting} {s u : State} {op : Op} (applies : step c s op = some u) :
    Steps c s op u := by
  unfold step at applies
  grind [Steps]

def system (c : Counting) : System State Op := ⟨step c⟩

def initialState : State := {}

end PadOS.Vfs.InodeCache
