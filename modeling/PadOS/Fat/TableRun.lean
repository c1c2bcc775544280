import PadOS.Fat.TableMirror

/-! # Runs of one table iterator

The calls on one iterator, between which others may change the table. In runs
that never read or write through a stale window, each call acts on the packed
entry of the current cluster, whatever was visited before.
-/

namespace PadOS.Fat

open Transition Option

variable {vol : FATVolume}

structure TableState where
  it : FATTableIterator
  disk : Disk

inductive TableCall
  | setCluster (cluster : Nat)
  | increment
  | getEntry (faults : Faults)
  | setEntry (faults : Faults) (value : Nat)
  | elsewhere (disk : Disk)

/-- A panic ends the run. -/
def tableCalls (vol : FATVolume) : System TableState TableCall where
  step s
    | .setCluster cluster =>
      match s.it.setCluster vol cluster with
      | (none, it) => some { s with it }
      | (some _, _) => none
    | .increment =>
      match s.it.increment vol with
      | (none, it) => some { s with it }
      | (some _, _) => none
    | .getEntry faults =>
      match s.it.getEntry vol faults s.disk with
      | (.error .panics, _) => none
      | (_, it) => some { s with it }
    | .setEntry faults value =>
      match s.it.setEntry vol faults value s.disk with
      | (some .panics, _) => none
      | (_, it, disk) => some { it, disk }
    | .elsewhere disk => some { s with disk }

/-- Calls on data clusters, with values that a FAT32 entry can hold. -/
def OnDataClusters (vol : FATVolume) : Condition TableState TableCall
  | _, .setCluster cluster => vol.isDataCluster cluster
  | _, .setEntry _ value => vol.fatBits = 32 → value < 2 ^ 28
  | _, _ => True

/-- The table is not accessed while the first sector of a straddling entry is
loaded without the second. -/
def KeepsWindow (vol : FATVolume) : Condition TableState TableCall
  | s, .getEntry _ => ¬s.it.Stale vol
  | s, .setEntry _ _ => ¬s.it.Stale vol
  | _, _ => True

/-- A call does to the packed table what its name says. Only a sector that cannot
be had makes it fail. -/
def ActsOnEntry (vol : FATVolume) (s : TableState) : TableCall → Prop
  | .setCluster cluster => s.it.setCluster vol cluster = (none, s.it.moveTo vol cluster)
  | .increment => s.it.increment vol = (none, s.it.moveTo vol
      (if s.it.currentCluster + 1 = vol.totalClusters + firstDataCluster then firstDataCluster
        else s.it.currentCluster + 1))
  | .getEntry faults =>
    match s.it.getEntry vol faults s.disk with
    | (.ok value, it) => it.currentCluster = s.it.currentCluster ∧
        value = FATTableIterator.widen vol.fatBits (vol.entry s.disk s.it.currentCluster) ∧
        value % 2 ^ vol.entryWidth = vol.entry s.disk s.it.currentCluster
    | (.error stop, it) => it.currentCluster = s.it.currentCluster ∧
        ∃ sector code, faults sector = some code ∧ stop = .throws code
  | .setEntry faults value =>
    match s.it.setEntry vol faults value s.disk with
    | (none, it, disk) => it.currentCluster = s.it.currentCluster ∧
        FATTableIterator.SetsEntry vol s.it.currentCluster value s.disk disk
    | (some stop, it, disk) => it.currentCluster = s.it.currentCluster ∧ disk = s.disk ∧
        ∃ sector code, faults sector = some code ∧ stop = .throws code
  | .elsewhere _ => True

namespace FATTableIterator

theorem setCluster_spec {it : FATTableIterator} (accepted : vol.Accepted) {cluster : Nat}
    (data : vol.isDataCluster cluster) :
    it.setCluster vol cluster = (none, it.moveTo vol cluster) := by
  show (if vol.entrySector cluster < vol.fatEndSector then none else some Stop.panics,
    it.moveTo vol cluster) = _
  rw [if_pos (accepted.entrySector_lt data)]

theorem increment_spec {it : FATTableIterator} (accepted : vol.Accepted) (w : Window vol it) :
    ∃ cluster, vol.isDataCluster cluster ∧
      cluster = (if it.currentCluster + 1 = vol.totalClusters + firstDataCluster then
        firstDataCluster else it.currentCluster + 1) ∧
      it.increment vol = (none, it.moveTo vol cluster) := by
  have data := w.data
  have some' := accepted.someClusters
  simp only [FATVolume.isDataCluster, Bool.and_eq_true, decide_eq_true_eq] at data
  refine ⟨_, ?_, rfl, ?_⟩
  · simp only [FATVolume.isDataCluster, Bool.and_eq_true, decide_eq_true_eq]
    split <;> omega
  · unfold increment
    split
    · apply setCluster_spec accepted
      simp only [FATVolume.isDataCluster, Bool.and_eq_true, decide_eq_true_eq]
      omega
    · apply setCluster_spec accepted
      simp only [FATVolume.isDataCluster, Bool.and_eq_true, decide_eq_true_eq]
      omega

theorem widen_mod (accepted : vol.Accepted) (disk : Disk) (cluster : Nat) :
    widen vol.fatBits (vol.entry disk cluster) % 2 ^ vol.entryWidth = vol.entry disk cluster := by
  have small : vol.entry disk cluster < 2 ^ vol.entryWidth := BitTable.entry_lt cluster
  generalize vol.entry disk cluster = val at small ⊢
  have masked (width mask : Nat) (high : mask % 2 ^ width = 0) (below : val < 2 ^ width) :
      (val ||| mask) % 2 ^ width = val := by
    rw [Nat.or_mod_two_pow, high, Nat.or_zero, Nat.mod_eq_of_lt below]
  unfold FATVolume.entryWidth at small ⊢
  rcases accepted.fatBits_cases with width | width | width
  · simp only [width, widen, if_true, Nat.reduceEqDiff, if_false] at small ⊢
    split
    · exact masked 12 _ rfl small
    · exact Nat.mod_eq_of_lt small
  · simp only [width, widen, if_true, Nat.reduceEqDiff, if_false] at small ⊢
    split
    · exact masked 16 _ rfl small
    · exact Nat.mod_eq_of_lt small
  · simp only [width, widen, if_true, Nat.reduceEqDiff, if_false] at small ⊢
    exact Nat.mod_eq_of_lt small

end FATTableIterator

open FATTableIterator

theorem window_step (accepted : vol.Accepted) {s t : TableState} {call : TableCall}
    (w : Window vol s.it) (good : OnDataClusters vol s call)
    (applies : (tableCalls vol).step s call = some t) : Window vol t.it := by
  cases call with
  | setCluster cluster =>
    simp only [tableCalls, setCluster_spec accepted good, some.injEq] at applies
    subst applies
    exact w.moveTo good
  | increment =>
    obtain ⟨cluster, data, _, moved⟩ := increment_spec accepted w
    simp only [tableCalls, moved, some.injEq] at applies
    subst applies
    exact w.moveTo data
  | getEntry faults =>
    have after := (update_spec accepted w faults).window
    rw [← getEntry_iterator faults s.disk] at after
    simp only [tableCalls] at applies
    split at applies
    · cases applies
    · rename_i result
      obtain rfl := some.inj applies
      rw [result] at after
      exact after
  | setEntry faults value =>
    have after := (update_spec accepted w faults).window
    rw [← setEntry_iterator faults value s.disk] at after
    simp only [tableCalls] at applies
    split at applies
    · cases applies
    · rename_i result
      obtain rfl := some.inj applies
      rw [result] at after
      exact after
  | elsewhere disk =>
    obtain rfl := some.inj applies
    exact w

theorem window_run (accepted : vol.Accepted) {cluster : Nat} (data : vol.isDataCluster cluster)
    {disk : Disk} {s : TableState}
    (run : (tableCalls vol).Reaches (OnDataClusters vol) ⟨start vol cluster, disk⟩ s) :
    Window vol s.it :=
  run.invariant (fun s => Window vol s.it) (.start data) fun w good applies =>
    window_step accepted w good applies

theorem actsOnEntry_of_window (accepted : vol.Accepted) {s : TableState} {call : TableCall}
    (w : Window vol s.it) (good : OnDataClusters vol s call) (fresh : KeepsWindow vol s call) :
    ActsOnEntry vol s call := by
  cases call with
  | setCluster cluster => exact setCluster_spec accepted good
  | increment =>
    obtain ⟨cluster, _, rfl, moved⟩ := increment_spec accepted w
    exact moved
  | getEntry faults =>
    have kept := (update_spec accepted w faults).cluster
    rw [← getEntry_iterator faults s.disk] at kept
    have spec := getEntry_spec accepted w fresh faults s.disk
    simp only [ActsOnEntry]
    split
    · rename_i result
      rw [result] at spec kept
      rcases spec with ⟨_, _, _, failed⟩ | read
      · cases failed
      · obtain rfl := Except.ok.inj read
        exact ⟨kept, rfl, widen_mod accepted s.disk _⟩
    · rename_i result
      rw [result] at spec kept
      rcases spec with ⟨sector, code, fault, failed⟩ | read
      · exact ⟨kept, sector, code, fault, Except.error.inj failed⟩
      · cases read
  | setEntry faults value =>
    have kept := (update_spec accepted w faults).cluster
    rw [← setEntry_iterator faults value s.disk] at kept
    have spec := setEntry_spec accepted w fresh faults good s.disk
    simp only [ActsOnEntry]
    split
    · rename_i result
      rw [result] at spec kept
      rcases spec with ⟨_, _, _, failed, _⟩ | ⟨_, sets⟩
      · cases failed
      · exact ⟨kept, sets⟩
    · rename_i result
      rw [result] at spec kept
      rcases spec with ⟨sector, code, fault, failed, same⟩ | ⟨done, _⟩
      · exact ⟨kept, same, sector, code, fault, some.inj failed⟩
      · cases done
  | elsewhere disk => trivial

/-- A call through a window that is not stale acts on the packed entry, after any
calls before it. -/
theorem actsOnEntry_of_keepsWindow {bytesRead : Nat} {sb : FATSuperBlock}
    (read : readSuperBlock bytesRead sb = .ok vol) {cluster : Nat} (data : vol.isDataCluster cluster)
    {disk : Disk} {s : TableState} {call : TableCall}
    (run : (tableCalls vol).Reaches (OnDataClusters vol) ⟨start vol cluster, disk⟩ s)
    (good : OnDataClusters vol s call) (fresh : KeepsWindow vol s call) :
    ActsOnEntry vol s call := by
  have accepted := accepted_of_readSuperBlock read
  exact actsOnEntry_of_window accepted (window_run accepted data run) good fresh

/-! Entry 341 of a floppy begins in the last byte of the sector of entry 340; entry
342 lies in the next sector. -/

def afterEntry (cluster next : Nat) : FATTableIterator :=
  ((start floppy cluster).getEntry floppy noFaults fun _ _ => 0).2.moveTo floppy next

theorem reaches_afterEntry (cluster : Nat) {next : Nat} (data : floppy.isDataCluster next)
    (reads : ∃ value, ((start floppy cluster).getEntry floppy noFaults fun _ _ => 0).1 = .ok value) :
    (tableCalls floppy).Reaches (OnDataClusters floppy) ⟨start floppy cluster, fun _ _ => 0⟩
      ⟨afterEntry cluster next, fun _ _ => 0⟩ := by
  obtain ⟨value, result⟩ := reads
  have accepted := accepted_of_readSuperBlock readSuperBlock_floppy
  let read : TableState := ⟨((start floppy cluster).getEntry floppy noFaults fun _ _ => 0).2, fun _ _ => 0⟩
  have first : OnDataClusters floppy ⟨start floppy cluster, fun _ _ => 0⟩ (.getEntry noFaults) :=
    trivial
  have second : OnDataClusters floppy read (.setCluster next) := data
  apply System.Reaches.head first _ (.single second _)
  · simp only [tableCalls]
    split
    · rename_i panicked
      rw [panicked] at result
      cases result
    · rename_i got
      show _ = some (TableState.mk _ _)
      rw [got]
  · simp only [tableCalls, setCluster_spec accepted data]
    rfl

theorem actsOnEntry_of_keepsWindow_floppy :
    ActsOnEntry floppy ⟨afterEntry 342 341, fun _ _ => 0⟩ (.getEntry noFaults) :=
  actsOnEntry_of_keepsWindow readSuperBlock_floppy (by decide)
    (reaches_afterEntry 342 (by decide) ⟨0, rfl⟩) trivial fun stale => by
      have loaded := stale.first
      revert loaded
      decide

theorem not_actsOnEntry_always : ¬∀ (bytesRead : Nat) (sb : FATSuperBlock) (vol : FATVolume)
    (cluster : Nat) (disk : Disk) (s : TableState) (call : TableCall),
    readSuperBlock bytesRead sb = .ok vol → vol.isDataCluster cluster →
    (tableCalls vol).Reaches (OnDataClusters vol) ⟨start vol cluster, disk⟩ s →
    OnDataClusters vol s call → ActsOnEntry vol s call := by
  intro always
  have acts := always 512 floppySector floppy 340 _ _ (.getEntry noFaults) readSuperBlock_floppy
    (by decide) (show (tableCalls floppy).Reaches _ _ ⟨afterEntry 340 341, _⟩ from
      reaches_afterEntry 340 (by decide) ⟨0, rfl⟩) trivial
  obtain ⟨_, _, _, fault, _⟩ := acts
  cases fault

end PadOS.Fat
