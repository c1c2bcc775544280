import PadOS.Core.Transition
import PadOS.Fat.InodeWrite
import Mathlib.Data.List.Nodup

/-! # The inodes with unsaved metadata

The volume keeps its dirty inodes on a list, each inode a flag. All of it is done
under the mutex of the volume, so an operation here is a call. A call whose
`kassert` fails has no next state.
-/

namespace PadOS.Fat

open Transition List Option Function

variable {ι : Type}

/-- `dirtyInodes` is `m_DirtyInodes`; the others are members of the inodes. -/
structure DirtyInodes (ι : Type) where
  dirtyInodes : List ι
  metadataDirty : ι → Bool
  deleted : ι → Bool
  alive : ι → Bool

/-- A freshly mounted volume, with no inode in memory. -/
def DirtyInodes.initial : DirtyInodes ι where
  dirtyInodes := []
  metadataDirty := fun _ => false
  deleted := fun _ => false
  alive := fun _ => false

/-- What a failing write throws. -/
abbrev FailureCode := { code : PErrorCode // code ≠ .success }

namespace DirtyInodes

variable {v w : DirtyInodes ι} {i : ι}

/-! ## The flag and the list -/

structure Consistent (v : DirtyInodes ι) : Prop where
  nodup : v.dirtyInodes.Nodup
  flagged : ∀ i, i ∈ v.dirtyInodes ↔ v.metadataDirty i = true

theorem Consistent.initial : (initial : DirtyInodes ι).Consistent :=
  ⟨nodup_nil, fun i => by simp [DirtyInodes.initial]⟩

theorem Consistent.of_eq (c : v.Consistent) (list : w.dirtyInodes = v.dirtyInodes)
    (flags : w.metadataDirty = v.metadataDirty) : w.Consistent :=
  ⟨list ▸ c.nodup, by rw [list, flags]; exact c.flagged⟩

variable [DecidableEq ι]

/-! ## The calls -/

section

variable (v : DirtyInodes ι)

def addDirtyInode (i : ι) : Option (DirtyInodes ι) :=
  if i ∈ v.dirtyInodes then none else some { v with dirtyInodes := v.dirtyInodes ++ [i] }

def removeDirtyInode (i : ι) : DirtyInodes ι :=
  if i ∈ v.dirtyInodes then { v with dirtyInodes := v.dirtyInodes.erase i } else v

def markMetadataDirty (i : ι) : Option (DirtyInodes ι) :=
  if v.metadataDirty i then some v
  else
    match v.addDirtyInode i with
    | none => none
    | some w => some { w with metadataDirty := update w.metadataDirty i true }

def discardPendingMetadata (i : ι) : DirtyInodes ι :=
  if v.metadataDirty i then
    let w := v.removeDirtyInode i
    { w with metadataDirty := update w.metadataDirty i false }
  else v

/-- `MarkContentsModified`, as far as the list is concerned. -/
def markContentsModified (i : ι) : Option (DirtyInodes ι) :=
  if v.deleted i then some v else v.markMetadataDirty i

/-- `FATInode::Write` and what it throws. `failure` is what it throws when the inode
is not deleted; every throw is in front of `DiscardPendingMetadata`. -/
def write (i : ι) (failure : Option FailureCode) :
    Option PErrorCode × DirtyInodes ι :=
  if v.deleted i then (none, v.discardPendingMetadata i)
  else
    match failure with
    | some code => (some code, v)
    | none => (none, v.discardPendingMetadata i)

end

/-- `FlushDirtyInodes` after some turns of its loop; `attempted` is history. -/
structure Flushed (ι : Type) where
  volume : DirtyInodes ι
  attempted : List ι
  firstError : PErrorCode

/-- The loop with `remaining` turns to go. `fails index` are the failures of the
writes made in turn `index`. -/
def flushLoop (fails : Nat → ι → Option FailureCode) :
    (remaining index : Nat) → Flushed ι → Option (Flushed ι)
  | 0, _, f => some f
  | remaining + 1, index, f =>
    match f.volume.dirtyInodes.head? with
    | none => none
    | some dirtyInode =>
      let (thrown, volume) := f.volume.write dirtyInode (fails index dirtyInode)
      let error := thrown.or (if volume.metadataDirty dirtyInode then some .io else none)
      let firstError := if f.firstError = .success then error.getD .success else f.firstError
      let attempted := f.attempted ++ [dirtyInode]
      if volume.metadataDirty dirtyInode then
        if dirtyInode ∈ volume.dirtyInodes then
          let dirtyInodes := volume.dirtyInodes.erase dirtyInode ++ [dirtyInode]
          flushLoop fails remaining (index + 1) ⟨{ volume with dirtyInodes }, attempted, firstError⟩
        else none
      else flushLoop fails remaining (index + 1) ⟨volume, attempted, firstError⟩

def flushDirtyInodes (v : DirtyInodes ι) (fails : Nat → ι → Option FailureCode) :
    Option (Flushed ι) :=
  flushLoop fails v.dirtyInodes.length 0 ⟨v, [], .success⟩

/-- What `FlushDirtyInodes` throws in the end. -/
def Flushed.thrown (f : Flushed ι) : Option PErrorCode :=
  if f.firstError = .success then none else some f.firstError

/-! ## What the calls do to flag and list -/

theorem markMetadataDirty_spec (c : v.Consistent) (i : ι) :
    ∃ w, v.markMetadataDirty i = some w ∧ w.Consistent := by
  unfold markMetadataDirty
  split
  · exact ⟨v, rfl, c⟩
  rename_i clean
  have absent : i ∉ v.dirtyInodes := fun listed => clean ((c.flagged i).1 listed)
  unfold addDirtyInode
  rw [if_neg absent]
  refine ⟨_, rfl, ?_, fun j => ?_⟩
  · exact c.nodup.append (nodup_singleton i) (by simpa using absent)
  · rcases eq_or_ne j i with rfl | other
    · simp
    · simp [other, c.flagged]

theorem discardPendingMetadata_eq (c : v.Consistent) (i : ι) :
    v.discardPendingMetadata i = { v with
        dirtyInodes := v.dirtyInodes.erase i
        metadataDirty := update v.metadataDirty i false } := by
  unfold discardPendingMetadata removeDirtyInode
  by_cases dirty : v.metadataDirty i = true
  · simp only [dirty, if_true, if_pos ((c.flagged i).2 dirty)]
  · have absent : i ∉ v.dirtyInodes := fun listed => dirty ((c.flagged i).1 listed)
    have clean : v.metadataDirty i = false := by simpa using dirty
    rw [if_neg dirty, erase_of_not_mem absent, ← clean, update_eq_self]

theorem Consistent.discard (c : v.Consistent) (i : ι) : (v.discardPendingMetadata i).Consistent := by
  rw [discardPendingMetadata_eq c]
  refine ⟨c.nodup.erase i, fun j => ?_⟩
  rcases eq_or_ne j i with rfl | other
  · simp [c.nodup.mem_erase_iff]
  · simp [c.nodup.mem_erase_iff, other, c.flagged]

/-! ## A flush -/

/-- How the write of an inode of the list fails, with its place in the list. -/
def failure (v : DirtyInodes ι) (fails : Nat → ι → Option FailureCode) (entry : ι × Nat) :
    Option PErrorCode :=
  if v.deleted entry.1 then none else (fails entry.2 entry.1).map Subtype.val

/-- Each inode of the list has been attempted once, in order; those whose write failed
are still listed, in order, and the first failure is thrown. -/
structure FlushedOnce (fails : Nat → ι → Option FailureCode) (v : DirtyInodes ι) (f : Flushed ι) :
    Prop where
  attempted : f.attempted = v.dirtyInodes
  left : f.volume.dirtyInodes =
    (v.dirtyInodes.zipIdx.filter fun entry => (v.failure fails entry).isSome).map Prod.fst
  thrown : f.thrown = v.dirtyInodes.zipIdx.findSome? (v.failure fails)

theorem flushLoop_succ (fails : Nat → ι → Option FailureCode) (remaining index : Nat)
    (attempted : List ι) (firstError : PErrorCode) {rest : List ι} (c : v.Consistent) (list : v.dirtyInodes = i :: rest) :
    ∃ u, u.Consistent ∧ u.deleted = v.deleted ∧ u.alive = v.alive ∧
      u.dirtyInodes = rest ++ (if (v.failure fails (i, index)).isSome then [i] else []) ∧
      flushLoop fails (remaining + 1) index ⟨v, attempted, firstError⟩ =
        flushLoop fails remaining (index + 1) ⟨u, attempted ++ [i],
          if firstError = .success then (v.failure fails (i, index)).getD .success
          else firstError⟩ := by
  have head : v.dirtyInodes.head? = some i := by rw [list]; rfl
  have dirty : v.metadataDirty i = true := (c.flagged i).1 (list ▸ mem_cons_self)
  have erased : v.dirtyInodes.erase i = rest := by rw [list, erase_cons_head]
  have discarded : (v.discardPendingMetadata i).dirtyInodes = rest := by
    rw [discardPendingMetadata_eq c]
    exact erased
  have clean : (v.discardPendingMetadata i).metadataDirty i = false := by
    rw [discardPendingMetadata_eq c]
    exact update_self ..
  have kept : (v.discardPendingMetadata i).deleted = v.deleted ∧
      (v.discardPendingMetadata i).alive = v.alive := by
    rw [discardPendingMetadata_eq c]
    exact ⟨rfl, rfl⟩
  by_cases deleted : v.deleted i = true
  · refine ⟨v.discardPendingMetadata i, c.discard i, kept.1, kept.2, ?_, ?_⟩
    · simp [failure, deleted, discarded]
    · simp [flushLoop, head, write, failure, deleted, clean]
  cases outcome : fails index i with
  | none =>
    refine ⟨v.discardPendingMetadata i, c.discard i, kept.1, kept.2, ?_, ?_⟩
    · simp [failure, deleted, outcome, discarded]
    · simp [flushLoop, head, write, failure, deleted, outcome, clean]
  | some code =>
    have listed : i ∈ v.dirtyInodes := list ▸ mem_cons_self
    refine ⟨{ v with dirtyInodes := v.dirtyInodes.erase i ++ [i] }, ⟨?_, fun j => ?_⟩, rfl,
      rfl, ?_, ?_⟩
    · exact (perm_append_comm.trans (perm_cons_erase listed).symm).nodup_iff.2 c.nodup
    · rw [← c.flagged]
      exact (perm_append_comm.trans (perm_cons_erase listed).symm).mem_iff
    · simp [failure, deleted, outcome, erased]
    · simp [flushLoop, head, write, failure, deleted, outcome, dirty, listed]

omit [DecidableEq ι] in
theorem failure_ne_success {fails : Nat → ι → Option FailureCode} {entry : ι × Nat}
    {code : PErrorCode} (outcome : v.failure fails entry = some code) : code ≠ .success := by
  unfold failure at outcome
  split at outcome
  · cases outcome
  · obtain ⟨thrown, _, rfl⟩ := map_eq_some_iff.1 outcome
    exact thrown.2

theorem flushLoop_spec (fails : Nat → ι → Option FailureCode) (todo : List ι) :
    ∀ (v : DirtyInodes ι) (index : Nat) (failed attempted : List ι) (firstError : PErrorCode),
      v.Consistent → v.dirtyInodes = todo ++ failed →
      ∃ f, flushLoop fails todo.length index ⟨v, attempted, firstError⟩ = some f ∧
        f.volume.Consistent ∧ f.volume.alive = v.alive ∧ f.attempted = attempted ++ todo ∧
        f.volume.dirtyInodes = failed ++
          ((todo.zipIdx index).filter fun entry => (v.failure fails entry).isSome).map Prod.fst ∧
        f.firstError = if firstError = .success then
          ((todo.zipIdx index).findSome? (v.failure fails)).getD .success else firstError := by
  induction todo with
  | nil =>
    intro v index failed attempted firstError c list
    refine ⟨⟨v, attempted, firstError⟩, rfl, c, rfl, by simp, by simpa using list, ?_⟩
    by_cases none' : firstError = .success <;> simp [none']
  | cons i todo ih =>
    intro v index failed attempted firstError c list
    rw [cons_append] at list
    obtain ⟨u, consistent, deleted, alive, after, turn⟩ :=
      flushLoop_succ fails todo.length index attempted firstError c list
    rw [append_assoc] at after
    obtain ⟨f, flushed, consistent', alive', attempted', left, error⟩ :=
      ih u (index + 1) _ (attempted ++ [i]) _ consistent after
    have same : u.failure fails = v.failure fails := by
      funext entry
      simp only [failure, deleted]
    rw [same] at left error
    refine ⟨f, ?_, consistent', alive'.trans alive, ?_, ?_, ?_⟩
    · rw [length_cons, turn]
      exact flushed
    · rw [attempted', append_assoc, singleton_append]
    · rw [left, zipIdx_cons, filter_cons, append_assoc]
      split <;> simp
    · rw [error, zipIdx_cons, findSome?_cons]
      by_cases none' : firstError = .success
      · simp only [none', if_true]
        cases outcome : v.failure fails (i, index) with
        | none => simp
        | some code =>
          simp [failure_ne_success outcome]
      · simp [none']

theorem flushDirtyInodes_spec (c : v.Consistent) (fails : Nat → ι → Option FailureCode) :
    ∃ f, v.flushDirtyInodes fails = some f ∧ f.volume.Consistent ∧ f.volume.alive = v.alive ∧
      FlushedOnce fails v f := by
  obtain ⟨f, flushed, consistent, alive, attempted, left, error⟩ :=
    flushLoop_spec fails v.dirtyInodes v 0 [] [] .success c (append_nil _).symm
  refine ⟨f, flushed, consistent, alive, attempted, left, ?_⟩
  unfold Flushed.thrown
  rw [if_pos rfl] at error
  cases first : v.dirtyInodes.zipIdx.findSome? (v.failure fails) with
  | none =>
    rw [error, first]
    rfl
  | some code =>
    obtain ⟨entry, _, outcome⟩ := exists_of_findSome?_eq_some first
    have failed : code ≠ .success := failure_ne_success outcome
    rw [error, first]
    exact if_neg failed

/-! ## The system -/

inductive InodeOp (ι : Type)
  | create (i : ι)
  | destroy (i : ι)
  | setDeletedFlag (i : ι) (isDeleted : Bool)
  | markContentsModified (i : ι)
  | discardPendingMetadata (i : ι)
  | write (i : ι) (failure : Option FailureCode)
  | flushDirtyInodes (fails : Nat → ι → Option FailureCode)

/-- Inodes are used from their constructor to their destructor, which asserts that
nothing is pending. -/
def step (v : DirtyInodes ι) : InodeOp ι → Option (DirtyInodes ι)
  | .create i =>
    if v.alive i then none
    else some { v with
        metadataDirty := update v.metadataDirty i false
        deleted := update v.deleted i false
        alive := update v.alive i true }
  | .destroy i =>
    if !v.alive i || v.metadataDirty i || i ∈ v.dirtyInodes then none
    else some { v with alive := update v.alive i false }
  | .setDeletedFlag i isDeleted =>
    if v.alive i then some { v with deleted := update v.deleted i isDeleted } else none
  | .markContentsModified i => if v.alive i then v.markContentsModified i else none
  | .discardPendingMetadata i => if v.alive i then some (v.discardPendingMetadata i) else none
  | .write i failure => if v.alive i then some (v.write i failure).2 else none
  | .flushDirtyInodes fails => (v.flushDirtyInodes fails).map Flushed.volume

def system (ι : Type) [DecidableEq ι] : System (DirtyInodes ι) (InodeOp ι) := ⟨step⟩

/-- The inodes on the list are in memory. -/
structure Sound (v : DirtyInodes ι) : Prop extends Consistent v where
  used : ∀ i ∈ v.dirtyInodes, v.alive i = true

omit [DecidableEq ι] in
theorem Sound.initial : (initial : DirtyInodes ι).Sound :=
  ⟨.initial, fun _ listed => by cases listed⟩

theorem Sound.discard (sound : v.Sound) (i : ι) : (v.discardPendingMetadata i).Sound := by
  refine ⟨sound.toConsistent.discard i, ?_⟩
  rw [discardPendingMetadata_eq sound.toConsistent]
  exact fun j listed => sound.used j (mem_of_mem_erase listed)

theorem Sound.mark (sound : v.Sound) (used : v.alive i = true)
    (marks : v.markMetadataDirty i = some w) : w.Sound := by
  obtain ⟨w', marked, consistent⟩ := markMetadataDirty_spec sound.toConsistent i
  obtain rfl : w' = w := some.inj (marked.symm.trans marks)
  refine ⟨consistent, fun j listed => ?_⟩
  unfold markMetadataDirty addDirtyInode at marks
  split at marks
  · cases marks
    exact sound.used j listed
  split at marks
  · cases marks
  · rename_i added
    split at added
    · cases added
    · cases added
      cases marks
      rcases mem_append.1 listed with before | new
      · exact sound.used j before
      · rw [mem_singleton.1 new]
        exact used

theorem Sound.flush (sound : v.Sound) {fails : Nat → ι → Option FailureCode} {f : Flushed ι}
    (flushes : v.flushDirtyInodes fails = some f) : f.volume.Sound := by
  obtain ⟨f', flushed, consistent, alive, once⟩ := flushDirtyInodes_spec sound.toConsistent fails
  obtain rfl : f' = f := some.inj (flushed.symm.trans flushes)
  refine ⟨consistent, fun j listed => ?_⟩
  rw [once.left] at listed
  obtain ⟨entry, inList, rfl⟩ := mem_map.1 listed
  rw [alive]
  exact sound.used _ (fst_mem_of_mem_zipIdx (mem_filter.1 inList).1)

theorem Sound.step {op : InodeOp ι} (sound : v.Sound) (applies : step v op = some w) : w.Sound := by
  cases op with
  | create i =>
    simp only [DirtyInodes.step, ite_none_left_eq_some, some.injEq] at applies
    obtain ⟨unused, rfl⟩ := applies
    have absent : i ∉ v.dirtyInodes := fun listed => unused (sound.used i listed)
    refine ⟨⟨sound.nodup, fun j => ?_⟩, fun j listed => ?_⟩
    · rcases eq_or_ne j i with rfl | other
      · simp [absent]
      · simp [other, sound.flagged]
    · have other : j ≠ i := fun same => absent (same ▸ listed)
      simpa [other] using sound.used j listed
  | destroy i =>
    simp only [DirtyInodes.step, ite_none_left_eq_some, some.injEq] at applies
    obtain ⟨idle, rfl⟩ := applies
    simp only [Bool.or_eq_true, decide_eq_true_eq, not_or] at idle
    refine ⟨sound.toConsistent.of_eq rfl rfl, fun j listed => ?_⟩
    have other : j ≠ i := fun same => idle.2 (same ▸ listed)
    simpa [other] using sound.used j listed
  | setDeletedFlag i isDeleted =>
    obtain ⟨_, ⟨⟩⟩ := ite_none_right_eq_some.1 applies
    exact ⟨sound.toConsistent.of_eq rfl rfl, sound.used⟩
  | markContentsModified i =>
    simp only [DirtyInodes.step, ite_none_right_eq_some] at applies
    obtain ⟨used, marks⟩ := applies
    unfold markContentsModified at marks
    split at marks
    · cases marks
      exact sound
    · exact sound.mark used marks
  | discardPendingMetadata i =>
    obtain ⟨_, ⟨⟩⟩ := ite_none_right_eq_some.1 applies
    exact sound.discard i
  | write i failure =>
    obtain ⟨_, ⟨⟩⟩ := ite_none_right_eq_some.1 applies
    unfold DirtyInodes.write
    split
    · exact sound.discard i
    · split
      · exact sound
      · exact sound.discard i
  | flushDirtyInodes fails =>
    obtain ⟨f, flushes, rfl⟩ := map_eq_some_iff.1 applies
    exact sound.flush flushes

theorem Sound.of_reaches (run : (system ι).Reaches anyStep DirtyInodes.initial v) : v.Sound :=
  run.invariant Sound .initial fun sound _ applies => sound.step applies

/-- In every reachable state the list has exactly the inodes whose flag is set, and a
flush ends with no failed assertion, whatever writes fail: it attempts each of them
once, keeps those that failed, in order, and throws the first failure. -/
theorem flushDirtyInodes_once (run : (system ι).Reaches anyStep DirtyInodes.initial v)
    (fails : Nat → ι → Option FailureCode) :
    v.Consistent ∧
      ∃ f, v.flushDirtyInodes fails = some f ∧ FlushedOnce fails v f ∧ f.volume.Consistent := by
  have sound := Sound.of_reaches run
  obtain ⟨f, flushes, consistent, _, once⟩ := flushDirtyInodes_spec sound.toConsistent fails
  exact ⟨sound.toConsistent, f, flushes, once, consistent⟩

/-- Two inodes made dirty in turn; the write of the first fails. -/
theorem flushDirtyInodes_once_two : let fails := fun _ i => if i = 0 then some ⟨.io, by decide⟩ else none
    ∃ v : DirtyInodes Nat, v.dirtyInodes = [0, 1] ∧ v.Consistent ∧
      ∃ f, v.flushDirtyInodes fails = some f ∧ FlushedOnce fails v f ∧ f.volume.Consistent := by
  have after : (system Nat).after DirtyInodes.initial
      [.create 0, .create 1, .markContentsModified 0, .markContentsModified 1] = some _ := rfl
  exact ⟨_, rfl, flushDirtyInodes_once (System.reaches_after after) _⟩

end DirtyInodes

end PadOS.Fat
