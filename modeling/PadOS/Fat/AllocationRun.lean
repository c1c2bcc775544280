import PadOS.Fat.SetChainLength

/-! # Runs of the allocation

In runs that access the table through windows that are not stale, the chains of the
inodes stay apart and end, the free count is right and the metadata that are loaded
are those of the chains. Through a stale window an entry is put together of two that
do not belong together.
-/

namespace PadOS.Fat

open Transition Program FATTableIterator Function Option

inductive AllocationOp
  | allocateClusters (id : Nat) (inode : FATInode) (clusterCount : Nat)
  | clearFATChain (id : Nat)
  | setChainLength (id clusterCount : Nat) (updateICache : Bool)
  | ensureClusterChainMetadataLoaded (id : Nat)
  | getChainEntry (chainStart index : Nat)
  | elsewhere (slots : Nat → Nat → FATDirectoryEntryCombo) (maps : InodeMap)
      (deleted dirty : Nat → Bool) (times : Nat → FATTimes)

namespace AllocationOp

/-- A new inode gets a chain of its own, as in `CreateDirectory`; one that is deleted
loses its chain and is gone, as in `ReleaseInode`. -/
def program (vol : FATVolume) : AllocationOp → Driver Unit
  | allocateClusters id inode clusterCount => do
      let (startCluster, endCluster) ← Driver.allocateClusters vol clusterCount
      Driver.update fun m =>
        { m with nodes := fun i =>
            if i = id then some (inode.setChain startCluster endCluster clusterCount) else m.nodes i }
  | clearFATChain id => do
      let inode ← Driver.node id
      (if inode.startCluster = 0 then pure ()
        else Driver.clearFATChain vol inode.startCluster).scopeExit
          (Driver.update fun m => { m with nodes := fun i => if i = id then none else m.nodes i })
  | setChainLength id clusterCount updateICache =>
    Driver.setChainLength vol id clusterCount updateICache
  | ensureClusterChainMetadataLoaded id => Driver.ensureClusterChainMetadataLoaded vol id
  | getChainEntry chainStart index => do
      let _ ← Driver.getChainEntry vol chainStart index
      pure ()
  | elsewhere _ _ _ _ _ => pure ()

/-- An operation is on an inode that lives, or makes one that does not yet. -/
def applies (m : Memory) : AllocationOp → Bool
  | allocateClusters id _ _ => (m.nodes id).isNone
  | clearFATChain id => (m.nodes id).isSome
  | setChainLength id _ _ => (m.nodes id).isSome
  | ensureClusterChainMetadataLoaded id => (m.nodes id).isSome
  | _ => true

def target : AllocationOp → Option Nat
  | allocateClusters id _ _ => some id
  | clearFATChain id => some id
  | setChainLength id _ _ => some id
  | _ => none

end AllocationOp

/-- An operation may return or throw. What happens elsewhere is not about the table. -/
def allocation (vol : FATVolume) (moments : Nat → Moment) : System DriverState AllocationOp where
  step s op :=
    if !op.applies s.memory then none
    else
      match op with
      | .elsewhere slots maps deleted dirty times =>
        some { s with slots, memory := { s.memory with maps, deleted, dirty, times } }
      | op => some ((op.program vol).run (serve vol moments) s).2

/-- No access of the operation is made through a stale window. -/
def KeepsFresh (vol : FATVolume) (moments : Nat → Moment) : Condition DriverState AllocationOp :=
  fun s op => (op.program vol).Keeps (serve vol moments) (Fresh vol) s

/-- Of the inodes only the target has another chain, and where its length is set it
keeps its first clusters. -/
structure OnTarget (op : AllocationOp) (t : FATView) (chains : Nat → List Nat) (t' : FATView)
    (chains' : Nat → List Nat) : Prop where
  others : ∀ id, op.target ≠ some id →
    chains' id = chains id ∧ ∀ x ∈ chains id, t'.cells x = t.cells x
  front : ∀ id n updateICache, op = .setChainLength id n updateICache →
    (chains' id).take (min (chains id).length n) = (chains id).take (min (chains id).length n)

variable {vol : FATVolume} {moments : Nat → Moment} {s s' s₀ : DriverState} {op : AllocationOp}
  {chains : Nat → List Nat} {t t' : FATView} {id n : Nat}

/-! ## An inode that is gone -/

def withoutNode (t : FATView) (id : Nat) : FATView :=
  { t with memory := { t.memory with nodes := fun i => if i = id then none else t.memory.nodes i } }

/-- Of the cells in use only those of the inode have changed. -/
structure Left (vol : FATVolume) (id : Nat) (t : FATView) (chains : Nat → List Nat) (t' : FATView) :
    Prop where
  counts : t'.CountsFree vol
  hint : vol.isDataCluster t'.memory.lastAllocatedCluster
  nodes : t'.memory.nodes = t.memory.nodes
  kept : ∀ x, x ∉ chains id → t.cells x ≠ .free → t'.cells x = t.cells x

theorem Left.withoutNode (owns : Owns vol t chains) (left : Left vol id t chains t') :
    Owns vol (withoutNode t' id) (update chains id []) := by
  apply owns.change
  · exact left.counts
  · exact left.hint
  · intro i
    rw [← left.nodes]
    rfl
  · exact left.kept
  · intro inode none
    cases none
  · exact fun _ => rfl
  · intro x member
    cases member

theorem leaves_every (accepted : vol.Accepted) (owns : Owns vol t chains) {inode : FATInode}
    (known : t.memory.nodes id = some inode) :
    (if inode.startCluster = 0 then pure () else Driver.clearFATChain vol inode.startCluster).Every
      (viewSpec vol) t (Ends (fun _ => Left vol id t chains) (Left vol id t chains)) := by
  have here : Left vol id t chains t := ⟨owns.counts, owns.hint, rfl, fun _ _ _ => rfl⟩
  split
  · exact here
  rename_i some'
  by_cases data : vol.isDataCluster inode.startCluster
  · have mine := (owns.chain id inode known).linked data
    have left (t' : FATView) (cleared : Cleared vol (chains id) t t') : Left vol id t chains t' := by
      refine ⟨cleared.counts, ?_, FATView.nodes_of_files cleared.files, fun x outside _ =>
        cleared.outside x outside⟩
      rw [cleared.hint]
      exact owns.hint
    apply ends_mono viewSpec_monotone
      (Driver.clearFATChain_every accepted owns.counts mine.1 mine.2)
    · exact fun _ => left
    · exact left
  · unfold Driver.clearFATChain
    rw [if_pos (by simp [data])]
    exact here

namespace AllocationOp

theorem onTarget_of_changed {l : List Nat} (isTarget : op.target = some id) (owns : Owns vol t chains)
    (changed : Changed vol id n t chains l t')
    (length : ∀ i k b, op = .setChainLength i k b → k = n) :
    OnTarget op t chains t' (update chains id l) where
  others i other := by
    have different : i ≠ id := by
      rintro rfl
      exact other isTarget
    rw [update_of_ne different]
    refine ⟨rfl, fun x member => ?_⟩
    apply changed.others x _ (owns.used i x member)
    exact fun mine => owns.apart i id different member mine
  front i k b same := by
    have isId : i = id := by
      rw [same] at isTarget
      exact some.inj isTarget
    rw [isId, length i k b same, update_self]
    exact changed.front

theorem program_every (accepted : vol.Accepted) (owns : Owns vol t chains) (op : AllocationOp)
    (applies : op.applies t.memory) :
    (op.program vol).Every (viewSpec vol) t (Ends
      (fun _ t' => ∃ chains', Owns vol t' chains' ∧ OnTarget op t chains t' chains')
      (fun t' => ∃ chains', Owns vol t' chains' ∧ OnTarget op t chains t' chains')) := by
  have same {t' : FATView} (owns' : Owns vol t' chains) (cells : t'.cells = t.cells) :
      ∃ chains', Owns vol t' chains' ∧ OnTarget op t chains t' chains' :=
    ⟨chains, owns', fun _ _ => ⟨rfl, fun x _ => by rw [cells]⟩, fun _ _ _ _ => rfl⟩
  have resized {t' : FATView} {id n : Nat} (isTarget : op.target = some id)
      (length : ∀ i k b, op = .setChainLength i k b → k = n)
      (resized : Resized vol id n t chains t') :
      ∃ chains', Owns vol t' chains' ∧ OnTarget op t chains t' chains' := by
    rcases resized with ⟨l, changed⟩
    exact ⟨_, changed.owns, onTarget_of_changed isTarget owns changed length⟩
  have live {id : Nat} (isSome : (t.memory.nodes id).isSome) :
      ∃ inode, t.memory.nodes id = some inode := isSome_iff_exists.1 isSome
  cases op with
  | allocateClusters id inode clusterCount =>
    have absent : t.memory.nodes id = none := by simpa [AllocationOp.applies] using applies
    have notSet : ∀ i k b, AllocationOp.allocateClusters id inode clusterCount = .setChainLength i k b →
        k = 0 := nofun
    apply ends_bind viewSpec_monotone
      (Driver.allocateClusters_every accepted owns.counts owns.hint clusterCount)
    · intro ⟨first, last⟩ t' ⟨l, made, length, positive⟩
      apply resized rfl notSet
      refine ⟨l, ?_, fun x _ used => made.kept x used, by simp⟩
      rcases made.chain with ⟨rfl, _⟩ | ⟨linked, isLast⟩
      · rw [← length] at positive
        cases positive
      have inside : ∀ x ∈ l, vol.isDataCluster x := fun x member => (made.fresh x member).1
      have data := inside first linked.mem_head
      apply owns.change
      · exact made.counts
      · exact made.hint
      · intro i
        rw [← FATView.nodes_of_files made.files]
      · exact fun x _ used => made.kept x used
      · rintro _ ⟨⟩
        refine ⟨.inr ⟨data, linked, inside⟩, fun zero => ?_, fun _ _ => ⟨linked.head_eq, isLast, length⟩⟩
        change first = 0 at zero
        rw [FATTable.isDataCluster_iff] at data
        omega
      · intro absent
        cases absent
      · exact fun x member => .inr (made.fresh x member).2
    · exact fun _ claimed => resized rfl notSet (.claimed owns claimed)
  | clearFATChain id =>
    rcases live applies with ⟨inode, known⟩
    have notSet : ∀ i k b, AllocationOp.clearFATChain id = .setChainLength i k b → k = 0 := nofun
    apply Driver.after_node known
    have removed (t' : FATView) (left : Left vol id t chains t') :
        ∃ chains', Owns vol (withoutNode t' id) chains' ∧
          OnTarget (.clearFATChain id) t chains (withoutNode t' id) chains' := by
      apply resized rfl notSet
      exact ⟨[], left.withoutNode owns, left.kept, by simp⟩
    apply ends_scopeExit viewSpec_monotone (leaves_every accepted owns known)
    · exact fun _ t' left => removed t' left
    · exact fun t' left => removed t' left
  | setChainLength id n updateICache =>
    rcases live applies with ⟨inode, known⟩
    have length : ∀ i k b, AllocationOp.setChainLength id n updateICache = .setChainLength i k b →
        k = n := by
      rintro _ _ _ ⟨⟩
      rfl
    apply ends_mono viewSpec_monotone (Driver.setChainLength_every accepted owns known updateICache)
    · exact fun _ _ kept => resized rfl length kept
    · exact fun _ kept => resized rfl length kept
  | ensureClusterChainMetadataLoaded id =>
    rcases live applies with ⟨inode, known⟩
    apply ends_mono viewSpec_monotone
      (Driver.ensureClusterChainMetadataLoaded_every accepted owns known)
    · exact fun _ _ loaded => same loaded.1 loaded.2
    · rintro _ rfl
      exact same owns rfl
  | getChainEntry chainStart index =>
    apply ends_bind viewSpec_monotone (Driver.getChainEntry_every index)
    · rintro _ _ rfl
      exact same owns rfl
    · rintro _ rfl
      exact same owns rfl
  | elsewhere slots maps deleted dirty times => exact same owns rfl

end AllocationOp

/-! ## Runs -/

theorem owns_step (accepted : vol.Accepted) (related : Related vol s (s.view vol))
    (owns : Owns vol (s.view vol) chains) (fresh : KeepsFresh vol moments s op)
    (step : (allocation vol moments).step s op = some s') :
    Related vol s' (s'.view vol) ∧ ∃ chains', Owns vol (s'.view vol) chains' ∧
      OnTarget op (s.view vol) chains (s'.view vol) chains' := by
  have applies : op.applies s.memory := by
    by_contra refused
    simp [allocation, refused] at step
  have every := AllocationOp.program_every accepted owns op applies
  rcases (serve_meets accepted moments).run related fresh every with ⟨t', related', ends⟩
  have isView := related'.view
  by_cases outside : ∃ slots maps deleted dirty times, op = .elsewhere slots maps deleted dirty times
  · rcases outside with ⟨slots, maps, deleted, dirty, times, rfl⟩
    simp only [allocation, applies, Bool.not_true, Bool.false_eq_true, if_false] at step
    obtain rfl := some.inj step
    refine ⟨⟨rfl, related.table, related.cursor⟩, chains, owns.unmoved ⟨rfl, rfl, rfl, rfl⟩, ?_, ?_⟩
    · exact fun _ _ => ⟨rfl, fun _ _ => rfl⟩
    · exact fun _ _ _ _ => rfl
  · have result : s' = ((op.program vol).run (serve vol moments) s).2 := by
      cases op with
      | elsewhere slots maps deleted dirty times => exact absurd ⟨_, _, _, _, _, rfl⟩ outside
      | _ =>
        simp only [allocation, applies] at step
        exact (some.inj step).symm
    rw [← result] at related' isView
    subst isView
    refine ⟨related', ?_⟩
    revert ends
    generalize ((op.program vol).run (serve vol moments) s).1 = r
    intro ends
    rcases r with (_ | _) | _
    · exact ends
    · exact ends.elim
    · exact ends

theorem keeps_of_whole {α : Type} (whole : ∀ cluster, ¬vol.Straddles cluster) (p : Driver α)
    (s : DriverState) : p.Keeps (serve vol moments) (Fresh vol) s := by
  induction p generalizing s with
  | done _ => trivial
  | call e next ih =>
    refine ⟨?_, ih _ _⟩
    cases e with
    | getEntry cluster | setEntry cluster value | iteratorGetEntry | iteratorSetEntry value =>
      exact fun stale => whole _ stale.straddles
    | _ => trivial

/-- What holds in each state of a run, and of each operation that may follow. -/
def Allocates (vol : FATVolume) (moments : Nat → Moment) (s : DriverState) : Prop :=
  (∃ chains, Owns vol (s.view vol) chains) ∧
    ∀ op s' chains, Owns vol (s.view vol) chains → KeepsFresh vol moments s op →
      (allocation vol moments).step s op = some s' →
      ∃ chains', Owns vol (s'.view vol) chains' ∧
        OnTarget op (s.view vol) chains (s'.view vol) chains'

/-- From a table with chains that are apart and a right free count, in every run that
never accesses it through a stale window. -/
theorem allocates_of_keepsFresh {bytesRead : Nat} {sb : FATSuperBlock}
    (read : readSuperBlock bytesRead sb = .ok vol) (table : Window vol s₀.table.it)
    (cursor : Window vol s₀.cursor) (owns : Owns vol (s₀.view vol) chains)
    (run : (allocation vol moments).Reaches (KeepsFresh vol moments) s₀ s) :
    Allocates vol moments s := by
  have accepted := accepted_of_readSuperBlock read
  have reached : Related vol s (s.view vol) ∧ ∃ chains, Owns vol (s.view vol) chains := by
    apply run.invariant fun s => Related vol s (s.view vol) ∧ ∃ chains, Owns vol (s.view vol) chains
    · exact ⟨.of_windows table cursor, chains, owns⟩
    · intro s s' op inv fresh step
      rcases inv with ⟨related, chains, owns⟩
      rcases owns_step accepted related owns fresh step with ⟨related', chains', owns', _⟩
      exact ⟨related', chains', owns'⟩
  refine ⟨reached.2, fun op s' chains owns fresh step => ?_⟩
  exact (owns_step accepted reached.1 owns fresh step).2

/-! ## A new file on a card -/

def emptyFile : FATInode where
  inodeID := 0x0000000100000000
  parentInodeID := 0x4000000100000001
  dirStartIndex := 0
  dirEndIndex := 0
  startCluster := 0
  size := 0
  dosAttribs := 0x20

/-- A card with nothing on it but an empty file. -/
def cardState : DriverState where
  table := FATTable.start card fun _ _ => 0
  cursor := FATTableIterator.start card firstDataCluster
  slots := fun _ _ _ => 0
  memory :=
    { freeClusters := (freeCells card (card.cells fun _ _ => 0)).card
      lastAllocatedCluster := firstDataCluster
      nodes := fun id => if id = 7 then some emptyFile else none }
  fsInfo := ⟨0, 0⟩

theorem owns_cardState : Owns card (cardState.view card) fun _ => [] := by
  have owns : Owns card (cardState.view card) fun id => if id = 7 then [] else [] :=
    .single rfl (by decide) (fun _ => rfl) (.inl ⟨.inl rfl, rfl⟩)
      ⟨fun _ => ⟨rfl, rfl⟩, fun _ loaded => absurd rfl loaded⟩
  simpa only [ite_self] using owns

theorem allocates_of_keepsFresh_card : ∃ s,
    (allocation card fun _ => {}).step cardState (.setChainLength 7 3 true) = some s ∧
      Allocates card (fun _ => {}) s := by
  refine ⟨_, rfl, ?_⟩
  apply allocates_of_keepsFresh readSuperBlock_card (Window.start (by decide))
    (Window.start (by decide)) owns_cardState
  exact System.Reaches.refl.next (.setChainLength 7 3 true) (keeps_of_whole card_whole _ _) rfl

/-! ## A file on a floppy -/

/-- The chain 341, 1200, 1365, of which the first and the last entry straddle sectors. -/
def threeClusters : Disk := fun s i =>
  if s = 2 ∧ i = 0 then 0x4b
  else if s = 4 ∧ i = 264 then 0x55
  else if s = 4 ∧ i = 265 then 0x05
  else if s = 4 ∧ i = 511 then 0xf0
  else if s = 5 ∧ i = 0 then 0xff
  else 0

def longFile : FATInode where
  inodeID := 0x4000000100000155
  parentInodeID := 0x4000000100000001
  dirStartIndex := 0
  dirEndIndex := 0
  startCluster := 341
  endCluster := 1365
  allocatedClusterCount := 3
  size := 1536
  dosAttribs := 0x20

def floppyState : DriverState where
  table := FATTable.start floppy threeClusters
  cursor := FATTableIterator.start floppy firstDataCluster
  slots := fun _ _ _ => 0
  memory :=
    { freeClusters := (freeCells floppy (floppy.cells threeClusters)).card
      lastAllocatedCluster := firstDataCluster
      nodes := fun id => if id = 7 then some longFile else none }
  fsInfo := ⟨0, 0⟩

theorem owns_floppyState :
    Owns floppy (floppyState.view floppy) fun id => if id = 7 then [341, 1200, 1365] else [] := by
  have linked : Linked (floppyState.view floppy).cells 341 [341, 1200, 1365] := by
    apply Linked.next (b := 1200) (by rfl)
    apply Linked.next (b := 1365) (by rfl)
    exact Linked.last (by rfl)
  exact .single rfl (by decide) (fun _ => rfl) (.inr ⟨by decide, linked, by decide⟩)
    ⟨nofun, fun _ _ => ⟨rfl, rfl, rfl⟩⟩

/-- When the file is cut to two clusters, the first of them loses its link. -/
theorem not_allocates_always : ¬∀ (bytesRead : Nat) (sb : FATSuperBlock) (vol : FATVolume)
    (moments : Nat → Moment) (s₀ s : DriverState) (chains : Nat → List Nat),
    readSuperBlock bytesRead sb = .ok vol → Window vol s₀.table.it → Window vol s₀.cursor →
    Owns vol (s₀.view vol) chains → (allocation vol moments).Reaches anyStep s₀ s →
    (∃ chains, Owns vol (s.view vol) chains) ∧
      ∀ op s' chains, Owns vol (s.view vol) chains → (allocation vol moments).step s op = some s' →
        ∃ chains', Owns vol (s'.view vol) chains' ∧
          OnTarget op (s.view vol) chains (s'.view vol) chains' := by
  intro always
  have kept := (always 512 floppySector floppy (fun _ => {}) floppyState floppyState _
    readSuperBlock_floppy (Window.start (by decide)) (Window.start (by decide)) owns_floppyState
    .refl).2 (.setChainLength 7 2 true) _ _ owns_floppyState rfl
  rcases kept with ⟨chains', owns, target⟩
  have front := target.front 7 2 true rfl
  change (chains' 7).take 2 = [341, 1200] at front
  have member : 341 ∈ chains' 7 := by
    apply List.mem_of_mem_take
    rw [front]
    exact List.mem_cons_self
  apply owns.used 7 341 member
  apply Cell.isFree_iff.1
  decide +kernel

end PadOS.Fat
