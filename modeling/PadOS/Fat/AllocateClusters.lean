import PadOS.Fat.AllocationRun

/-! # All the clusters or none

`AllocateClusters` makes a chain of clusters that were free, and does so whenever there
are enough of them and nothing fails. Where it throws, its cleanup gives the clusters
back; the cleanup itself is a best effort.
-/

namespace PadOS.Fat

open Program FATTableIterator Driver

variable {vol : FATVolume} {moments : Nat → Moment} {s before : DriverState} {t : FATView}
  {b : Bounds} {n : Nat}

/-! ## Entries that are not stored to -/

def SparesEntries (vol : FATVolume) (b : Bounds) (before s : DriverState) : Prop :=
  ∀ x, vol.isDataCluster x → ¬b.mayStore x →
    vol.entry s.table.disk x = vol.entry before.table.disk x

theorem entry_setEntry (accepted : vol.Accepted) {it : FATTableIterator} (w : Window vol it)
    (fresh : ¬it.Stale vol) (faults : Faults) {value x : Nat} (storable : vol.Storable value)
    (disk : Disk) (data : vol.isDataCluster x) (other : x ≠ it.currentCluster) :
    vol.entry (it.setEntry vol faults value disk).2.2 x = vol.entry disk x := by
  have fits : vol.fatBits = 32 → value < 2 ^ 28 := fun _ => FATTable.storable_fits accepted storable
  rcases setEntry_spec accepted w fresh faults fits disk with ⟨_, _, _, _, same⟩ | ⟨_, sets⟩
  · rw [same]
  · exact sets.entry_of_ne accepted data other

theorem serve_sparesEntries (accepted : vol.Accepted) (moments : Nat → Moment) (e : FATCall)
    (related : Related vol s t) (fresh : Fresh vol e s) (spec : viewSpec vol e t fun _ _ => True)
    (allowed : b.allows e t) (kept : SparesEntries vol b before s) :
    SparesEntries vol b before (serve vol moments e s).2 := by
  obtain ⟨rfl, table, cursor⟩ := related
  intro x data notStored
  rw [← kept x data notStored]
  cases e with
  | getEntry cluster =>
    have disk := (table_getEntry accepted table spec.1 fresh (moments s.clock).sectors).2.2
    show vol.entry (FATTable.getEntry vol _ cluster s.table).2.disk x = _
    rw [disk]
  | setEntry cluster value =>
    have other : x ≠ cluster := fun same => notStored (same ▸ allowed)
    show vol.entry (FATTable.setEntry vol _ cluster value s.table).2.disk x = _
    rw [FATTable.setEntry_eq accepted spec.1]
    exact entry_setEntry accepted (table.moveTo spec.1) fresh _ spec.2.1 _ data other
  | iteratorSetEntry value =>
    have other : x ≠ s.cursor.currentCluster := fun same => notStored (same ▸ allowed)
    exact entry_setEntry accepted cursor fresh _ spec.1 _ data other
  | readSlot cluster slot | transfer =>
    show vol.entry (attempt _ _ s s).2.table.disk x = _
    unfold attempt
    split <;> rfl
  | updateFSInfo =>
    show vol.entry (attempt _ _ s { s with fsInfo := _ }).2.table.disk x = _
    unfold attempt
    split <;> rfl
  | _ => rfl

/-! ## The allocation -/

/-- A chain of clusters that were free; no other entry has changed. -/
structure NewChain (vol : FATVolume) (before after : Disk) (firstCluster endCluster : Nat)
    (l : List Nat) : Prop where
  linked : Linked (vol.cells after) firstCluster l
  nodup : l.Nodup
  isLast : l.getLast? = some endCluster
  free : ∀ x ∈ l, vol.isDataCluster x ∧ vol.entry before x = 0
  others : ∀ x, vol.isDataCluster x → x ∉ l → vol.entry after x = vol.entry before x

/-- How many entries are zero. -/
def zeroEntries (vol : FATVolume) (disk : Disk) : Nat := (freeCells vol (vol.cells disk)).card

/-- The calls of the cleanup that are about entries. -/
def CleansUp : FATCall → Prop
  | .getEntry _ => True
  | .setEntry _ value => value = 0
  | _ => False

/-- The calls that are made of some kind do not fail. -/
def NoneFails (vol : FATVolume) (moments : Nat → Moment) (kind : FATCall → Prop) {α : Type}
    (p : Driver α) (s : DriverState) : Prop :=
  p.Keeps (serve vol moments) (fun e s => kind e → ∀ stop, (serve vol moments e s).1 ≠ .error stop) s

theorem cells_eq_free {disk : Disk} {x : Nat} (data : vol.isDataCluster x) :
    vol.cells disk x = .free ↔ vol.entry disk x = 0 := by
  unfold FATVolume.cells
  rw [if_pos data, cell_eq_free]

theorem allocateClusters_run (accepted : vol.Accepted) (table : Window vol s.table.it)
    (cursor : Window vol s.cursor) (counts : s.memory.freeClusters = zeroEntries vol s.table.disk)
    (hint : vol.isDataCluster s.memory.lastAllocatedCluster)
    (fresh : (allocateClusters vol n).Keeps (serve vol moments) (Fresh vol) s)
    (kind : FATCall → Prop) (noneFails : NoneFails vol moments kind (allocateClusters vol n) s) :
    let b : Bounds := ⟨fun e => ¬kind e, fun x => vol.cells s.table.disk x = .free⟩
    let result := (allocateClusters vol n).run (serve vol moments) s
    SparesEntries vol b s result.2 ∧
      Ends (fun ends t' => ∃ l, Allocated vol l ends.1 ends.2 (s.view vol) t' ∧ l.length = n ∧ 0 < n)
        (fun t' => Undone vol b (s.view vol) t' ∧ Driver.Refused vol b (s.view vol) n)
        result.1 (result.2.view vol) := by
  intro b result
  have mayStore : Driver.Bounds.Frees b vol (s.view vol) := fun _ _ free => free
  have every := allocateClusters_bounded accepted (t := s.view vol) counts hint mayStore n
  have meets : Meets (serve vol moments)
      (fun e s => Fresh vol e s ∧ ∀ stop, (serve vol moments e s).1 = .error stop → b.mayFail e)
      (boundedSpec vol b) fun s' t => Related vol s' t ∧ SparesEntries vol b s s' :=
    (serve_meets accepted moments).within viewSpec_monotone
      fun e _ _ related fresh spec allowed kept =>
        serve_sparesEntries accepted moments e related fresh spec allowed kept
  have keeps : (allocateClusters vol n).Keeps (serve vol moments)
      (fun e s => Fresh vol e s ∧ ∀ stop, (serve vol moments e s).1 = .error stop → b.mayFail e) s :=
    (fresh.and noneFails).mono fun e s both => ⟨both.1, fun stop failed isKind =>
      both.2 isKind stop failed⟩
  rcases meets.run ⟨.of_windows table cursor, fun _ _ _ => rfl⟩ keeps every with
    ⟨_, ⟨⟨rfl, _, _⟩, kept⟩, ends⟩
  exact ⟨kept, ends⟩

/-- The allocation succeeds if enough entries are zero and nothing fails, and only if
they are. Where it throws, every entry and the counter are as before, unless the cleanup
fails at an entry. No entry is to be accessed through a stale window. -/
theorem allocates_or_restores {bytesRead : Nat} {sb : FATSuperBlock}
    (read : readSuperBlock bytesRead sb = .ok vol) (table : Window vol s.table.it)
    (cursor : Window vol s.cursor) (counts : s.memory.freeClusters = zeroEntries vol s.table.disk)
    (hint : vol.isDataCluster s.memory.lastAllocatedCluster)
    (fresh : (allocateClusters vol n).Keeps (serve vol moments) (Fresh vol) s) :
    let result := (allocateClusters vol n).run (serve vol moments) s
    (∀ ends, result.1 = .ok ends → n ≤ zeroEntries vol s.table.disk ∧ ∃ l, l.length = n ∧
      NewChain vol s.table.disk result.2.table.disk ends.1 ends.2 l) ∧
    (NoneFails vol moments (fun _ => True) (allocateClusters vol n) s → 0 < n →
      n ≤ zeroEntries vol s.table.disk → ∃ ends, result.1 = .ok ends) ∧
    (NoneFails vol moments CleansUp (allocateClusters vol n) s →
      ∀ stop, result.1 = .error stop → (∀ x, vol.isDataCluster x →
          vol.entry result.2.table.disk x = vol.entry s.table.disk x) ∧
        result.2.memory.freeClusters = s.memory.freeClusters) := by
  intro result
  have accepted := accepted_of_readSuperBlock read
  have outcome := allocateClusters_run accepted table cursor counts hint fresh
  -- an entry that was not zero is not stored to, one that is still free is zero
  have same (kind : FATCall → Prop) (kept : SparesEntries vol
      ⟨fun e => ¬kind e, fun x => vol.cells s.table.disk x = .free⟩ s result.2) (x : Nat)
      (data : vol.isDataCluster x)
      (cell : vol.cells result.2.table.disk x = vol.cells s.table.disk x) :
      vol.entry result.2.table.disk x = vol.entry s.table.disk x := by
    by_cases free : vol.cells s.table.disk x = .free
    · rw [(cells_eq_free data).1 free, (cells_eq_free data).1 (cell.trans free)]
    · exact kept x data free
  refine ⟨fun ends returned => ?_, fun served some' enough => ?_, fun cleans stop thrown => ?_⟩
  · have served : NoneFails vol moments (fun _ => False) (allocateClusters vol n) s :=
      (keeps_any _ s).mono fun _ _ _ => False.elim
    rcases outcome _ served with ⟨kept, settled⟩
    change Ends _ _ result.1 _ at settled
    rw [returned] at settled
    rcases settled with ⟨l, made, length, positive⟩
    refine ⟨?_, l, length, ?_⟩
    · have card := made.card_free
      show n ≤ (freeCells vol (s.view vol).cells).card
      omega
    · rcases made.chain with ⟨rfl, _⟩ | ⟨linked, isLast⟩
      · rw [← length] at positive
        cases positive
      · refine ⟨linked, linked.nodup, isLast, fun x member => ?_, fun x data outside =>
          same _ kept x data (made.outside x outside)⟩
        have fresh := made.fresh x member
        exact ⟨fresh.1, (cells_eq_free fresh.1).1 fresh.2⟩
  · rcases outcome _ served with ⟨_, settled⟩
    change Ends _ _ result.1 _ at settled
    rcases ended : result.1 with (_ | _) | ends
    all_goals rw [ended] at settled
    · rcases settled.2 with ⟨e, fails⟩ | none | few
      · exact absurd trivial fails
      · omega
      · exact absurd few (not_lt.2 enough)
    · exact settled.elim
    · exact ⟨ends, rfl⟩
  · rcases outcome _ cleans with ⟨kept, settled⟩
    change Ends _ _ result.1 _ at settled
    rw [thrown] at settled
    cases stop with
    | panics => exact settled.elim
    | throws code =>
      rcases settled.1.restored with ⟨cluster, fails⟩ | restored
      · rcases fails with fails | fails
        · exact absurd trivial fails
        · exact absurd rfl fails
      · refine ⟨fun x data => same _ kept x data (congrFun restored x), ?_⟩
        have after : result.2.memory.freeClusters = (freeCells vol (result.2.view vol).cells).card :=
          settled.1.counts
        rw [after, restored, counts]
        rfl

/-- Three clusters of an empty card. -/
theorem allocates_or_restores_card : ∃ l, l.length = 3 ∧ NewChain card cardState.table.disk
      ((allocateClusters card 3).run (serve card fun _ => {}) cardState).2.table.disk 2 4 l := by
  have fresh : (allocateClusters card 3).Keeps (serve card fun _ => {}) (Fresh card) cardState :=
    keeps_of_whole card_whole _ _
  have returned : ((allocateClusters card 3).run (serve card fun _ => {}) cardState).1 =
      .ok (2, 4) := by decide +kernel
  exact ((allocates_or_restores readSuperBlock_card (Window.start (by decide))
    (Window.start (by decide)) rfl (by decide) fresh).1 (2, 4) returned).2

/-! ## When the cleanup fails -/

/-- No sector of the table can be had from a moment on. -/
def failingFrom (clock : Nat) : Nat → Moment := fun c =>
  if clock ≤ c then { sectors := fun _ => some .io } else {}

/-- When the second cluster cannot be linked and then the first not be cleared, both stay
allocated. -/
theorem not_restores_always : ¬∀ (bytesRead : Nat) (sb : FATSuperBlock) (vol : FATVolume)
    (moments : Nat → Moment) (s : DriverState) (n : Nat) (stop : Stop),
    readSuperBlock bytesRead sb = .ok vol → Window vol s.table.it → Window vol s.cursor →
    s.memory.freeClusters = zeroEntries vol s.table.disk →
    vol.isDataCluster s.memory.lastAllocatedCluster →
    (allocateClusters vol n).Keeps (serve vol moments) (Fresh vol) s → 0 < n →
    n ≤ vol.totalClusters →
    ((allocateClusters vol n).run (serve vol moments) s).1 = .error stop →
    ∀ x, vol.isDataCluster x →
      vol.entry ((allocateClusters vol n).run (serve vol moments) s).2.table.disk x =
        vol.entry s.table.disk x := by
  intro always
  have fresh : (allocateClusters card 2).Keeps (serve card (failingFrom 12)) (Fresh card)
      cardState := keeps_of_whole card_whole _ _
  have thrown : ((allocateClusters card 2).run (serve card (failingFrom 12)) cardState).1 =
      .error (.throws .io) := by decide +kernel
  have same := always 512 cardSector card (failingFrom 12) cardState 2 (.throws .io)
    readSuperBlock_card (Window.start (by decide)) (Window.start (by decide)) rfl (by decide) fresh
    (by decide) (by decide) thrown 2 (by decide)
  have lost : card.entry ((allocateClusters card 2).run (serve card (failingFrom 12))
      cardState).2.table.disk 2 ≠ card.entry cardState.table.disk 2 := by decide +kernel
  exact lost same

end PadOS.Fat
