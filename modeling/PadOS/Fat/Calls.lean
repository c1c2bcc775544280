import PadOS.Core.LinkedCells
import PadOS.Core.Program
import PadOS.Fat.Inode
import PadOS.Fat.Table

/-! # The calls of the driver

What the driver does to a volume, as calls of a program: accesses to the table through
the iterator it keeps and through one of its own, accesses to the slots of
directories, transfers of file data, and its memory. Any access to a sector may fail.
`FATView` is what the calls are about when no window is stale: linked cells.
-/

namespace PadOS.Fat

open FATTableIterator FATTable Function

/-! ## The state -/

/-- The times of an inode, as `Write` packs them. -/
structure FATTimes where
  createTimeFine : Nat := 0
  createTime : Nat := 0
  createDate : Nat := 0
  accessDate : Nat := 0
  modificationTime : Nat := 0
  modificationDate : Nat := 0

/-- The members of the volume and the inodes in memory; `deleted` and `dirty` are the
flags of an inode. -/
structure Memory where
  freeClusters : Nat
  lastAllocatedCluster : Nat
  maps : InodeMap := {}
  nodes : Nat → Option FATInode := fun _ => none
  deleted : Nat → Bool := fun _ => false
  dirty : Nat → Bool := fun _ => false
  times : Nat → FATTimes := fun _ => {}

structure FATFSInfo where
  freeClusters : Nat
  lastAllocatedCluster : Nat

/-- `table` holds `m_TableIterator`, `cursor` is the iterator of `AllocateClusters`. The
slots of a directory are kept by cluster, those of the fixed root under its number. -/
structure DriverState where
  table : TableState
  cursor : FATTableIterator
  slots : Nat → Nat → FATDirectoryEntryCombo
  memory : Memory
  fsInfo : FATFSInfo
  clock : Nat := 0

/-- What cannot be had at a moment. -/
structure Moment where
  sectors : Faults := noFaults
  device : Option PErrorCode := none

/-! ## The calls -/

inductive FATCall
  | getEntry (cluster : Nat)
  | setEntry (cluster value : Nat)
  | openIterator (cluster : Nat)
  | iteratorGetEntry
  | iteratorSetEntry (value : Nat)
  | iteratorCluster
  | iteratorIncrement
  | readSlot (cluster slot : Nat)
  | writeSlot (cluster slot : Nat) (entry : FATDirectoryEntryCombo)
  | transfer
  | updateFSInfo
  | recollect
  | update (change : Memory → Memory)

abbrev FATCall.Result : FATCall → Type
  | .getEntry _ => Nat
  | .setEntry _ _ => Unit
  | .openIterator _ => Unit
  | .iteratorGetEntry => Nat
  | .iteratorSetEntry _ => Unit
  | .iteratorCluster => Nat
  | .iteratorIncrement => Unit
  | .readSlot _ _ => FATDirectoryEntryCombo
  | .writeSlot _ _ _ => Unit
  | .transfer => Unit
  | .updateFSInfo => Unit
  | .recollect => Memory
  | .update _ => Unit

abbrev Driver := Program FATCall FATCall.Result

def resultOf : Option Stop → Except Stop Unit
  | none => .ok ()
  | some stop => .error stop

def setSlot (slots : Nat → Nat → FATDirectoryEntryCombo) (cluster slot : Nat)
    (entry : FATDirectoryEntryCombo) : Nat → Nat → FATDirectoryEntryCombo := fun c i =>
  if c = cluster ∧ i = slot then entry else slots c i

/-- An access that may fail as a whole. -/
def attempt {α : Type} (moment : Moment) (value : α) (s s' : DriverState) :
    Except Stop α × DriverState :=
  match moment.device with
  | some code => (.error (.throws code), s)
  | none => (.ok value, s')

section

variable (vol : FATVolume)

def serveCall (moment : Moment) : Program.Handler FATCall FATCall.Result DriverState
  | .getEntry cluster, s =>
    match FATTable.getEntry vol moment.sectors cluster s.table with
    | (result, table) => (result, { s with table })
  | .setEntry cluster value, s =>
    match FATTable.setEntry vol moment.sectors cluster value s.table with
    | (stop, table) => (resultOf stop, { s with table })
  | .openIterator cluster, s => (.ok (), { s with cursor := FATTableIterator.start vol cluster })
  | .iteratorGetEntry, s =>
    match s.cursor.getEntry vol moment.sectors s.table.disk with
    | (result, cursor) => (result, { s with cursor })
  | .iteratorSetEntry value, s =>
    match s.cursor.setEntry vol moment.sectors value s.table.disk with
    | (stop, cursor, disk) => (resultOf stop, { s with cursor, table := { s.table with disk } })
  | .iteratorCluster, s => (.ok s.cursor.currentCluster, s)
  | .iteratorIncrement, s =>
    match s.cursor.increment vol with
    | (stop, cursor) => (resultOf stop, { s with cursor })
  | .readSlot cluster slot, s => attempt moment (s.slots cluster slot) s s
  | .writeSlot cluster slot entry, s => (.ok (), { s with slots := setSlot s.slots cluster slot entry })
  | .transfer, s => attempt moment () s s
  | .updateFSInfo, s => attempt moment () s
      { s with fsInfo := ⟨s.memory.freeClusters, s.memory.lastAllocatedCluster⟩ }
  | .recollect, s => (.ok s.memory, s)
  | .update change, s => (.ok (), { s with memory := change s.memory })

/-- The calls one after another; what fails at which moment is open. -/
def serve (moments : Nat → Moment) :
    Program.Handler FATCall FATCall.Result DriverState := fun e s =>
  match serveCall vol (moments s.clock) e s with
  | (result, s') => (result, { s' with clock := s.clock + 1 })

/-- A call accesses the table through a window that is not stale. -/
def Fresh : FATCall → DriverState → Prop
  | .getEntry cluster, s => ¬(s.table.it.moveTo vol cluster).Stale vol
  | .setEntry cluster _, s => ¬(s.table.it.moveTo vol cluster).Stale vol
  | .iteratorGetEntry, s => ¬s.cursor.Stale vol
  | .iteratorSetEntry _, s => ¬s.cursor.Stale vol
  | _, _ => True

/-! ## Cells -/

/-- What an entry says. The number of a data cluster is a link even where the driver
takes it for a reserved value. -/
def FATVolume.cell (raw : Nat) : Cell Nat :=
  if raw = 0 then .free
  else if vol.isDataCluster raw then .next raw
  else if endFatEntry ≤ widen vol.fatBits raw then .last
  else .reserved

def FATVolume.cells (disk : Disk) (cluster : Nat) : Cell Nat :=
  if vol.isDataCluster cluster then vol.cell (vol.entry disk cluster) else .reserved

end

/-- The value that stands for a cell. -/
def valueOf : Cell Nat → Nat
  | .free => 0
  | .last => endFatEntry
  | .next cluster => cluster
  | .reserved => badFatEntry

structure FATView where
  cells : Nat → Cell Nat
  position : Nat
  slots : Nat → Nat → FATDirectoryEntryCombo
  memory : Memory

def DriverState.view (vol : FATVolume) (s : DriverState) : FATView where
  cells := vol.cells s.table.disk
  position := s.cursor.currentCluster
  slots := s.slots
  memory := s.memory

def FATView.setCell (t : FATView) (cluster : Nat) (cell : Cell Nat) : FATView :=
  { t with cells := update t.cells cluster cell }

/-- The call may fail without an effect. -/
def Fails {α : Type} (t : FATView) (post : Except Stop α → FATView → Prop) : Prop :=
  ∀ code, post (.error (.throws code)) t

def nextPosition (vol : FATVolume) (position : Nat) : Nat :=
  if position + 1 = vol.totalClusters + firstDataCluster then firstDataCluster else position + 1

/-- What the calls do to the view. The table is accessed at data clusters only, and the
driver stores nothing but ends, zeros and data clusters. -/
def viewSpec (vol : FATVolume) : Program.Spec FATCall FATCall.Result FATView
  | .getEntry cluster, t, post =>
    vol.isDataCluster cluster ∧ post (.ok (valueOf (t.cells cluster))) t ∧ Fails t post
  | .setEntry cluster value, t, post =>
    vol.isDataCluster cluster ∧ vol.Storable value ∧
      post (.ok ()) (t.setCell cluster (vol.cell (value % 2 ^ vol.entryWidth))) ∧ Fails t post
  | .openIterator cluster, t, post =>
    vol.isDataCluster cluster ∧ post (.ok ()) { t with position := cluster }
  | .iteratorGetEntry, t, post =>
    (∀ value, (value = 0 ↔ t.cells t.position = .free) → post (.ok value) t) ∧ Fails t post
  | .iteratorSetEntry value, t, post =>
    vol.Storable value ∧
      post (.ok ()) (t.setCell t.position (vol.cell (value % 2 ^ vol.entryWidth))) ∧ Fails t post
  | .iteratorCluster, t, post => vol.isDataCluster t.position → post (.ok t.position) t
  | .iteratorIncrement, t, post => post (.ok ()) { t with position := nextPosition vol t.position }
  | .readSlot cluster slot, t, post => post (.ok (t.slots cluster slot)) t ∧ Fails t post
  | .writeSlot cluster slot entry, t, post =>
    post (.ok ()) { t with slots := setSlot t.slots cluster slot entry }
  | .transfer, t, post => post (.ok ()) t ∧ Fails t post
  | .updateFSInfo, t, post => post (.ok ()) t ∧ Fails t post
  | .recollect, t, post => post (.ok t.memory) t
  | .update change, t, post => post (.ok ()) { t with memory := change t.memory }

/-- A state and its view; the iterators are windows on the table. -/
structure Related (vol : FATVolume) (s : DriverState) (t : FATView) : Prop where
  view : s.view vol = t
  table : Window vol s.table.it
  cursor : Window vol s.cursor

variable {vol : FATVolume}

theorem viewSpec_monotone : (viewSpec vol).Monotone := by
  intro e t post post' weaker
  cases e with
  | getEntry cluster => exact fun h => ⟨h.1, weaker _ _ h.2.1, fun code => weaker _ _ (h.2.2 code)⟩
  | setEntry cluster value =>
    exact fun h => ⟨h.1, h.2.1, weaker _ _ h.2.2.1, fun code => weaker _ _ (h.2.2.2 code)⟩
  | openIterator cluster => exact fun h => ⟨h.1, weaker _ _ h.2⟩
  | iteratorGetEntry =>
    exact fun h => ⟨fun value zero => weaker _ _ (h.1 value zero), fun code => weaker _ _ (h.2 code)⟩
  | iteratorSetEntry value =>
    exact fun h => ⟨h.1, weaker _ _ h.2.1, fun code => weaker _ _ (h.2.2 code)⟩
  | iteratorCluster => exact fun h data => weaker _ _ (h data)
  | iteratorIncrement => exact weaker _ _
  | readSlot cluster slot => exact fun h => ⟨weaker _ _ h.1, fun code => weaker _ _ (h.2 code)⟩
  | writeSlot cluster slot entry => exact weaker _ _
  | transfer | updateFSInfo => exact fun h => ⟨weaker _ _ h.1, fun code => weaker _ _ (h.2 code)⟩
  | recollect => exact weaker _ _
  | update change => exact weaker _ _

/-! ## What the table delivers -/

theorem widen_cases (accepted : vol.Accepted) {raw : Nat} (small : raw < 2 ^ vol.entryWidth) :
    widen vol.fatBits raw = raw ∨
      raw ≠ 0 ∧ 0x0ffffff0 ≤ widen vol.fatBits raw ∧ vol.totalClusters + 2 ≤ 0x0ffffff0 ∧
        (endFatEntry ≤ widen vol.fatBits raw → ¬vol.isDataCluster raw) ∧
        (widen vol.fatBits raw = badFatEntry → ¬vol.isDataCluster raw) := by
  have width := accepted.width
  have atMost := accepted.atMost
  unfold FATVolume.entryWidth at small
  unfold widen endFatEntry badFatEntry
  simp only [isDataCluster_iff]
  rcases accepted.fatBits_cases with bits | bits | bits <;> rw [bits] at width small ⊢
  · have few : vol.totalClusters < 4085 := by
      split at width
      · assumption
      · split at width <;> omega
    simp only [Nat.reduceEqDiff, if_false] at small
    simp only [if_true]
    split
    · have masked : raw ||| 0x0ffff000 = 0x0ffff000 + raw := or_mask (m := 0x0ffff) small
      rw [masked]
      omega
    · exact .inl rfl
  · have few : vol.totalClusters < 65525 := by
      split at width
      · omega
      · split at width <;> omega
    simp only [Nat.reduceEqDiff, if_false] at small
    simp only [Nat.reduceEqDiff, if_false, if_true]
    split
    · have masked : raw ||| 0x0fff0000 = 0x0fff0000 + raw := or_mask (m := 0x0fff) small
      rw [masked]
      omega
    · exact .inl rfl
  · exact .inl rfl

theorem widen_eq_zero (accepted : vol.Accepted) {raw : Nat} (small : raw < 2 ^ vol.entryWidth) :
    widen vol.fatBits raw = 0 ↔ raw = 0 := by
  rcases widen_cases accepted small with same | ⟨some', large, _, _⟩
  · rw [same]
  · constructor
    · intro zero
      omega
    · intro zero
      exact absurd zero some'

theorem classify_cell (accepted : vol.Accepted) {raw : Nat} (small : raw < 2 ^ vol.entryWidth) :
    classify vol (widen vol.fatBits raw) = .ok (valueOf (vol.cell raw)) ∨
      classify vol (widen vol.fatBits raw) = .error (.throws .io) := by
  have atMost := accepted.atMost
  unfold classify FATVolume.cell
  rcases widen_cases accepted small with same | ⟨some', large, few, notEnd, notBad⟩
  · rw [same]
    by_cases free : raw = 0
    · rw [if_pos (.inl free), if_pos free, free]
      exact .inl rfl
    by_cases data : vol.isDataCluster raw
    · rw [if_pos (.inr data), if_neg free, if_pos data]
      exact .inl rfl
    have other : ¬(raw = 0 ∨ vol.isDataCluster raw = true) := by simp [free, data]
    rw [if_neg other, if_neg free, if_neg data]
    by_cases ends : endFatEntry ≤ raw
    · rw [if_pos ends, if_pos ends]
      exact .inl rfl
    rw [if_neg ends, if_neg ends]
    by_cases bad : badFatEntry ≤ raw
    · rw [if_pos bad]
      exact .inl rfl
    · rw [if_neg bad]
      exact .inr rfl
  · have wide : ¬(widen vol.fatBits raw = 0 ∨ vol.isDataCluster (widen vol.fatBits raw) = true) := by
      rw [isDataCluster_iff]
      omega
    rw [if_neg wide, if_neg some']
    by_cases ends : endFatEntry ≤ widen vol.fatBits raw
    · rw [if_pos ends, if_neg (notEnd ends), if_pos ends]
      exact .inl rfl
    rw [if_neg ends, if_neg ends]
    by_cases bad : badFatEntry ≤ widen vol.fatBits raw
    · have isBad : widen vol.fatBits raw = badFatEntry := by
        unfold endFatEntry at ends
        unfold badFatEntry at bad ⊢
        omega
      rw [if_pos bad, if_neg (notBad isBad)]
      exact .inl rfl
    · rw [if_neg bad]
      exact .inr rfl

theorem cell_eq_free {raw : Nat} : vol.cell raw = .free ↔ raw = 0 := by
  unfold FATVolume.cell
  split
  · simpa
  · rename_i some'
    split
    · simpa
    · split <;> simpa

section

variable (accepted : vol.Accepted)

include accepted

theorem cells_set {disk disk' : Disk} {cluster value : Nat}
    (data : vol.isDataCluster cluster) (sets : SetsEntry vol cluster value disk disk') :
    vol.cells disk' =
      update (vol.cells disk) cluster (vol.cell (value % 2 ^ vol.entryWidth)) := by
  funext c
  unfold FATVolume.cells
  by_cases same : c = cluster
  · subst same
    rw [update_self, if_pos data, sets.entry_self accepted data]
  · rw [update_of_ne same]
    by_cases data' : vol.isDataCluster c
    · rw [if_pos data', if_pos data', sets.entry_of_ne accepted data' same]
    · rw [if_neg data', if_neg data']

theorem iterator_getEntry {it : FATTableIterator} (w : Window vol it)
    (fresh : ¬it.Stale vol) (faults : Faults) (disk : Disk) :
    ((∃ code, (it.getEntry vol faults disk).1 = .error (.throws code)) ∨
      (it.getEntry vol faults disk).1 = .ok (widen vol.fatBits (vol.entry disk it.currentCluster))) ∧
    Window vol (it.getEntry vol faults disk).2 ∧
      (it.getEntry vol faults disk).2.currentCluster = it.currentCluster := by
  have updated := update_spec accepted w faults
  rw [getEntry_iterator faults disk]
  refine ⟨?_, updated.window, updated.cluster⟩
  rcases getEntry_spec accepted w fresh faults disk with ⟨_, code, _, failed⟩ | read
  · exact .inl ⟨code, failed⟩
  · exact .inr read

theorem iterator_setEntry {it : FATTableIterator} (w : Window vol it)
    (fresh : ¬it.Stale vol) (faults : Faults) {value : Nat} (storable : vol.Storable value)
    (disk : Disk) :
    ((∃ code, (it.setEntry vol faults value disk).1 = some (.throws code) ∧
        (it.setEntry vol faults value disk).2.2 = disk) ∨
      (it.setEntry vol faults value disk).1 = none ∧
        vol.cells (it.setEntry vol faults value disk).2.2 = update (vol.cells disk)
          it.currentCluster (vol.cell (value % 2 ^ vol.entryWidth))) ∧
    Window vol (it.setEntry vol faults value disk).2.1 ∧
      (it.setEntry vol faults value disk).2.1.currentCluster = it.currentCluster := by
  have updated := update_spec accepted w faults
  rw [setEntry_iterator faults value disk]
  refine ⟨?_, updated.window, updated.cluster⟩
  have fits : vol.fatBits = 32 → value < 2 ^ 28 := fun _ => storable_fits accepted storable
  rcases setEntry_spec accepted w fresh faults fits disk with ⟨_, code, _, failed, same⟩ | ⟨done, sets⟩
  · exact .inl ⟨code, failed, same⟩
  · exact .inr ⟨done, cells_set accepted w.data sets⟩

theorem table_getEntry {s : TableState} {cluster : Nat} (w : Window vol s.it)
    (data : vol.isDataCluster cluster) (fresh : ¬(s.it.moveTo vol cluster).Stale vol) (faults : Faults) :
    ((∃ code, (FATTable.getEntry vol faults cluster s).1 = .error (.throws code)) ∨
      (FATTable.getEntry vol faults cluster s).1 = .ok (valueOf (vol.cells s.disk cluster))) ∧
    Window vol (FATTable.getEntry vol faults cluster s).2.it ∧
      (FATTable.getEntry vol faults cluster s).2.disk = s.disk := by
  have served := iterator_getEntry accepted (w.moveTo data) fresh faults s.disk
  rw [getEntry_eq accepted data]
  show _ ∧ _ ∧ _
  change (_ ∨ ((seek vol s cluster).it.getEntry vol faults s.disk).1 = _) ∧ _ ∧ _ at served
  rcases result : (seek vol s cluster).it.getEntry vol faults s.disk with ⟨outcome, it⟩
  have moved : (s.it.moveTo vol cluster).getEntry vol faults s.disk = (outcome, it) := result
  rw [result, moved] at served
  rcases served with ⟨⟨code, failed⟩ | read, window, _⟩
  · cases failed
    exact ⟨.inl ⟨code, rfl⟩, window, rfl⟩
  · cases read
    refine ⟨?_, window, rfl⟩
    have cell : vol.cells s.disk cluster = vol.cell (vol.entry s.disk cluster) := if_pos data
    rcases classify_cell accepted (BitTable.entry_lt cluster) with known | unknown
    · rw [cell]
      exact .inr known
    · exact .inl ⟨.io, unknown⟩

theorem table_setEntry {s : TableState} {cluster value : Nat}
    (w : Window vol s.it) (data : vol.isDataCluster cluster) (storable : vol.Storable value)
    (fresh : ¬(s.it.moveTo vol cluster).Stale vol) (faults : Faults) :
    ((∃ code, (FATTable.setEntry vol faults cluster value s).1 = some (.throws code) ∧
        (FATTable.setEntry vol faults cluster value s).2.disk = s.disk) ∨
      (FATTable.setEntry vol faults cluster value s).1 = none ∧
        vol.cells (FATTable.setEntry vol faults cluster value s).2.disk = update
          (vol.cells s.disk) cluster (vol.cell (value % 2 ^ vol.entryWidth))) ∧
    Window vol (FATTable.setEntry vol faults cluster value s).2.it := by
  have served := iterator_setEntry accepted (w.moveTo data) fresh faults storable s.disk
  rw [setEntry_eq accepted data]
  exact ⟨served.1, served.2.1⟩

end

theorem Related.of_windows {s : DriverState} (table : Window vol s.table.it)
    (cursor : Window vol s.cursor) : Related vol s (s.view vol) :=
  ⟨rfl, table, cursor⟩

theorem attempt_meets {α : Type} (moment : Moment) {value : α} {s s' : DriverState}
    {post : Except Stop α → FATView → Prop} (done : post (.ok value) (s.view vol))
    (fails : Fails (s.view vol) post) (same : s'.view vol = s.view vol) (table : s'.table = s.table)
    (cursor : s'.cursor = s.cursor) (related : Related vol s (s.view vol)) :
    Related vol (attempt moment value s s').2 (s.view vol) ∧
      post (attempt moment value s s').1 (s.view vol) := by
  unfold attempt
  split
  · exact ⟨related, fails _⟩
  · exact ⟨⟨same, table ▸ related.table, cursor ▸ related.cursor⟩, done⟩

theorem serve_meets (accepted : vol.Accepted) (moments : Nat → Moment) :
    Program.Meets (serve vol moments) (Fresh vol) (viewSpec vol) (Related vol) := by
  intro e s t post related fresh spec
  obtain ⟨rfl, table, cursor⟩ := related
  have here : Related vol s (s.view vol) := .of_windows table cursor
  have clocked {s' : DriverState} {t : FATView} (related : Related vol s' t) (clock : Nat) :
      Related vol { s' with clock } t := ⟨related.view, related.table, related.cursor⟩
  cases e with
  | getEntry cluster =>
    rcases spec with ⟨data, delivers, fails⟩
    rcases table_getEntry accepted table data fresh (moments s.clock).sectors with
      ⟨outcome, window, disk⟩
    apply Exists.intro (s.view vol)
    constructor
    · refine ⟨?_, window, cursor⟩
      show FATView.mk (vol.cells (FATTable.getEntry _ _ _ _).2.disk) _ _ _ = _
      rw [disk]
      rfl
    · show post (FATTable.getEntry _ _ _ _).1 _
      rcases outcome with ⟨code, failed⟩ | read
      · rw [failed]
        exact fails code
      · rw [read]
        exact delivers
  | setEntry cluster value =>
    rcases spec with ⟨data, storable, done, fails⟩
    rcases table_setEntry accepted table data storable fresh (moments s.clock).sectors with
      ⟨⟨code, failed, disk⟩ | ⟨stored, cells⟩, window⟩
    · apply Exists.intro (s.view vol)
      constructor
      · refine ⟨?_, window, cursor⟩
        show FATView.mk (vol.cells (FATTable.setEntry _ _ _ _ _).2.disk) _ _ _ = _
        rw [disk]
        rfl
      · show post (resultOf (FATTable.setEntry _ _ _ _ _).1) _
        rw [failed]
        exact fails code
    · refine ⟨(s.view vol).setCell cluster (vol.cell (value % 2 ^ vol.entryWidth)),
        ⟨?_, window, cursor⟩, ?_⟩
      · show FATView.mk (vol.cells (FATTable.setEntry _ _ _ _ _).2.disk) _ _ _ = _
        rw [cells]
        rfl
      · show post (resultOf (FATTable.setEntry _ _ _ _ _).1) _
        rw [stored]
        exact done
  | openIterator cluster => exact ⟨_, ⟨rfl, table, Window.start spec.1⟩, spec.2⟩
  | iteratorGetEntry =>
    rcases spec with ⟨delivers, fails⟩
    rcases iterator_getEntry accepted cursor fresh (moments s.clock).sectors s.table.disk with
      ⟨outcome, window, place⟩
    apply Exists.intro (s.view vol)
    constructor
    · refine ⟨?_, table, window⟩
      show FATView.mk _ (s.cursor.getEntry _ _ _).2.currentCluster _ _ = _
      rw [place]
      rfl
    · show post (s.cursor.getEntry _ _ _).1 _
      rcases outcome with ⟨code, failed⟩ | read
      · rw [failed]
        exact fails code
      · rw [read]
        apply delivers
        have small : vol.entry s.table.disk s.cursor.currentCluster < 2 ^ vol.entryWidth :=
          BitTable.entry_lt _
        have cell : (s.view vol).cells (s.view vol).position =
          vol.cell (vol.entry s.table.disk s.cursor.currentCluster) := if_pos cursor.data
        rw [cell, cell_eq_free, widen_eq_zero accepted small]
  | iteratorSetEntry value =>
    rcases spec with ⟨storable, done, fails⟩
    rcases iterator_setEntry accepted cursor fresh (moments s.clock).sectors storable s.table.disk with
      ⟨⟨code, failed, disk⟩ | ⟨stored, cells⟩, window, place⟩
    · apply Exists.intro (s.view vol)
      constructor
      · refine ⟨?_, table, window⟩
        show FATView.mk (vol.cells (s.cursor.setEntry _ _ _ _).2.2)
          (s.cursor.setEntry _ _ _ _).2.1.currentCluster _ _ = _
        rw [disk, place]
        rfl
      · show post (resultOf (s.cursor.setEntry _ _ _ _).1) _
        rw [failed]
        exact fails code
    · refine ⟨(s.view vol).setCell (s.view vol).position (vol.cell (value % 2 ^ vol.entryWidth)),
        ⟨?_, table, window⟩, ?_⟩
      · show FATView.mk (vol.cells (s.cursor.setEntry _ _ _ _).2.2)
          (s.cursor.setEntry _ _ _ _).2.1.currentCluster _ _ = _
        rw [cells, place]
        rfl
      · show post (resultOf (s.cursor.setEntry _ _ _ _).1) _
        rw [stored]
        exact done
  | iteratorCluster => exact ⟨_, clocked here _, spec cursor.data⟩
  | iteratorIncrement =>
    rcases increment_spec accepted cursor with ⟨next, data, place, moved⟩
    refine ⟨{ s.view vol with position := next }, ⟨?_, table, ?_⟩, ?_⟩
    · show FATView.mk _ (s.cursor.increment vol).2.currentCluster _ _ = _
      rw [moved]
      rfl
    · show Window vol (s.cursor.increment vol).2
      rw [moved]
      exact cursor.moveTo data
    · show post (resultOf (s.cursor.increment vol).1) _
      rw [moved, place]
      exact spec
  | readSlot cluster slot =>
    have met := attempt_meets (moments s.clock) spec.1 spec.2 rfl rfl rfl here
    exact ⟨_, clocked met.1 _, met.2⟩
  | writeSlot cluster slot entry => exact ⟨_, ⟨rfl, table, cursor⟩, spec⟩
  | transfer =>
    have met := attempt_meets (moments s.clock) spec.1 spec.2 rfl rfl rfl here
    exact ⟨_, clocked met.1 _, met.2⟩
  | updateFSInfo =>
    have met (s' : DriverState) (same : s'.view vol = s.view vol) (table : s'.table = s.table)
        (cursor : s'.cursor = s.cursor) :=
      attempt_meets (moments s.clock) spec.1 spec.2 same table cursor here
    rcases met { s with fsInfo := ⟨s.memory.freeClusters, s.memory.lastAllocatedCluster⟩ }
      rfl rfl rfl with ⟨related, done⟩
    exact ⟨_, clocked related _, done⟩
  | recollect => exact ⟨_, clocked here _, spec⟩
  | update change => exact ⟨_, ⟨rfl, table, cursor⟩, spec⟩

end PadOS.Fat
