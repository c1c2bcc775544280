import PadOS.Fat.AllocationRun
import PadOS.Fat.WriteFailure

/-! # A chain whose resizing fails

`SetChainLength` commits at different points when it truncates, starts, extends and cuts
a chain. Wherever it throws, what is reachable from the inode is a chain that its
metadata describe, as long as no entry is accessed through a stale window.
-/

namespace PadOS.Fat

open Program FATTableIterator Driver

variable {vol : FATVolume} {nodes : Nat → Option FATInode} {t : StoreView} {α β : Type} {id n : Nat} {inode : FATInode}
  {chains : Nat → List Nat} {moments : Nat → Moment} {s : DriverState}

/-- The metadata of a chain in the table are known. -/
def FATInode.IsLoaded (inode : FATInode) : Prop :=
  inode.startCluster ≠ 0 → ¬isFixedRoot inode.startCluster → inode.allocatedClusterCount ≠ 0

theorem isLoaded_setChain (inode : FATInode) (startCluster endCluster : Nat) (some' : n ≠ 0) :
    (inode.setChain startCluster endCluster n).IsLoaded := fun _ _ => some'

def anySlots (nodes : Nat → Option FATInode) : Meanwhile := ⟨fun _ => True, nodes⟩

/-- However a program ends, the metadata of the inode are loaded. -/
abbrev Loading (vol : FATVolume) (nodes : Nat → Option FATInode) (id : Nat) : Except Stop α → StoreView → Prop :=
  Relists vol (anySlots nodes) id FATInode.IsLoaded

namespace Driver

section

variable (here : Listing vol (anySlots nodes) id FATInode.IsLoaded t)

include here

theorem write_loading : (write vol id).Every (storeSpec vol) t (Loading vol nodes id) := by
  rcases here.node with ⟨inode, known, loaded⟩
  apply ends_mono storeSpec_monotone (write_written known)
  · intro _ t' written
    exact ⟨trivial, written.nodes ▸ here.others, written.hint here.hint, inode, written.nodes ▸ known, loaded⟩
  · exact fun _ stays => here.stays stays

theorem setNode_loading {change : FATInode → FATInode}
    (becomes : ∀ inode, inode.IsLoaded → (change inode).IsLoaded) :
    (setNode id change).Every (storeSpec vol) t (Loading vol nodes id) :=
  setNode_listing here becomes

theorem nextIteration_loading : (nextIteration id).Every (storeSpec vol) t (Loading vol nodes id) :=
  setNode_loading here fun _ loaded => loaded

theorem truncateChain_loading (updateICache : Bool) :
    (truncateChain vol id updateICache).Every (storeSpec vol) t (Loading vol nodes id) := by
  have emptied (inode : FATInode) : (inode.setChain 0 0 0).IsLoaded := fun some' => absurd rfl some'
  apply listing_node here
  intro old _ loaded
  apply listing_setNode here fun inode _ => emptied inode
  intro t here
  have restores (t : StoreView)
      (here : Listing vol (anySlots nodes) id FATInode.IsLoaded t) :
      (setNode id fun inode => inode.setChain old.startCluster old.endCluster
        old.allocatedClusterCount).Every (storeSpec vol) t (Loading vol nodes id) :=
    setNode_loading here fun _ _ => loaded
  apply listing_then (ends_scopeFail storeSpec_monotone (write_loading here) restores)
  intro _ t here
  apply listing_then (nextIteration_loading here)
  intro _ t here
  split
  · exact listing_step here (setMapping_stays _ _) fun _ t _ here => listing_of_stays here clearFATChain_stays
  · exact listing_of_stays here clearFATChain_stays

theorem startChain_loading (some' : n ≠ 0) (updateICache : Bool) :
    (startChain vol id n updateICache).Every (storeSpec vol) t (Loading vol nodes id) := by
  apply listing_step here (allocateClusters_stays here.hint _)
  intro ⟨newStartCluster, newEndCluster⟩ t _ here
  apply listing_setNode here fun inode _ => isLoaded_setChain inode _ _ some'
  intro t here
  apply listing_then (ends_scopeFail storeSpec_monotone (write_loading here) fun t here =>
    listing_setNode here (fun _ _ zero => absurd rfl zero) fun t here =>
      listing_of_stays here clearFATChainAfterFailureNoThrow_stays)
  intro _ t here
  apply listing_then (nextIteration_loading here)
  intro _ t here
  split
  · exact listing_node here fun _ _ _ => listing_of_stays here (setMapping_stays _ _)
  · exact here

theorem growChain_loading (some' : n ≠ 0) :
    (growChain vol id n).Every (storeSpec vol) t (Loading vol nodes id) := by
  apply listing_node here
  intro inode _ _
  apply listing_step here (allocateClusters_stays here.hint _)
  intro ⟨newStartCluster, newEndCluster⟩ t _ here
  dsimp only
  split
  · trivial
  apply listing_step here
    (staying_scopeFail setEntry_stays fun _ => clearFATChainAfterFailureNoThrow_stays)
  intro _ t _ here
  apply listing_setNode here fun _ _ => isLoaded_setChain _ _ _ some'
  exact fun t here => nextIteration_loading here

theorem shrinkChain_loading (some' : n ≠ 0) :
    (shrinkChain vol id n).Every (storeSpec vol) t (Loading vol nodes id) := by
  apply listing_node here
  intro inode _ _
  apply listing_step here (getChainEntry_stays _)
  intro newEndCluster t _ here
  split
  · exact here
  apply listing_step here getEntry_stays
  intro trailingChainStart t _ here
  split
  · exact here
  apply listing_step here setEntry_stays
  intro _ t _ here
  apply listing_setNode here fun _ _ => isLoaded_setChain _ _ _ some'
  intro t here
  apply listing_then (nextIteration_loading here)
  exact fun _ t here => listing_of_stays here clearFATChain_stays

theorem setChainLength_loading (updateICache : Bool) :
    (setChainLength vol id n updateICache).Every (storeSpec vol) t (Loading vol nodes id) := by
  apply listing_node here
  intro inode _ _
  split
  · exact here
  split
  · exact here
  split
  · exact here
  split
  · exact truncateChain_loading here updateICache
  rename_i some'
  split
  · exact startChain_loading here some' updateICache
  split
  · exact growChain_loading here some'
  · exact shrinkChain_loading here some'

end

end Driver

/-! ## What is reachable -/

/-- The chain that begins at the first cluster of an inode is what the metadata say and
none of its clusters is free; it meets no other of `chains`, and these are as they were.
A fixed root directory has no chain. -/
structure NotDangling (vol : FATVolume) (chains : Nat → List Nat) (id : Nat) (before t : FATView) :
    Prop where
  mine : ∃ inode, t.memory.nodes id = some inode ∧ (isFixedRoot inode.startCluster ∨
      inode.startCluster = 0 ∧ inode.endCluster = 0 ∧ inode.allocatedClusterCount = 0 ∨
      ∃ l, Linked t.cells inode.startCluster l ∧ l.getLast? = some inode.endCluster ∧
        l.length = inode.allocatedClusterCount ∧ (∀ x ∈ l, vol.isDataCluster x ∧ t.cells x ≠ .free) ∧
        ∀ other, other ≠ id → List.Disjoint l (chains other))
  others : ∀ other, other ≠ id → ∀ x ∈ chains other, t.cells x = before.cells x

theorem Resized.notDangling {t t' : FATView} (owns : Owns vol t chains)
    (resized : Resized vol id n t chains t')
    (loaded : ∃ inode, t'.memory.nodes id = some inode ∧ inode.IsLoaded) :
    NotDangling vol chains id t t' := by
  rcases resized with ⟨l, owns', others, _⟩
  constructor
  · rcases loaded with ⟨inode, known, loaded⟩
    refine ⟨inode, known, ?_⟩
    have metadata := owns'.metadata id inode known
    have chain := owns'.chain id inode known
    have apart := owns'.apart id
    rw [Function.update_self] at metadata chain apart
    rcases chain with ⟨zero | root, _⟩ | ⟨data, linked, inside⟩
    · exact .inr (.inl ⟨zero, metadata.1 zero⟩)
    · exact .inl root
    · have notRoot := Area.not_fixedRoot_of_data data
      have some' : inode.startCluster ≠ 0 := by
        intro zero
        rw [zero, FATTable.isDataCluster_iff] at data
        omega
      rcases metadata.2 notRoot (loaded some' notRoot) with ⟨_, isLast, length⟩
      refine .inr (.inr ⟨l, linked, isLast, length, fun x member => ⟨inside x member,
        linked.not_free x member⟩, fun other different => ?_⟩)
      have disjoint := apart other different.symm
      rw [Function.update_of_ne different] at disjoint
      exact disjoint
  · intro other different x member
    exact others x (fun mine => owns.apart other id different member mine) (owns.used other x member)

/-- Wherever the resizing of a chain fails, when no entry is accessed through a stale window. -/
theorem notDangling_of_keepsFresh {bytesRead : Nat} {sb : FATSuperBlock} {code : PErrorCode}
    {updateICache : Bool} (read : readSuperBlock bytesRead sb = .ok vol)
    (table : Window vol s.table.it) (cursor : Window vol s.cursor)
    (owns : Owns vol (s.view vol) chains) (known : s.memory.nodes id = some inode)
    (loaded : inode.IsLoaded)
    (fresh : (setChainLength vol id n updateICache).Keeps (serve vol moments) (Fresh vol) s)
    (thrown : ((setChainLength vol id n updateICache).run (serve vol moments) s).1 =
      .error (.throws code)) :
    NotDangling vol chains id (s.view vol)
      (((setChainLength vol id n updateICache).run (serve vol moments) s).2.view vol) := by
  have accepted := accepted_of_readSuperBlock read
  have resizes := setChainLength_every (n := n) accepted owns known updateICache
  have here : Listing vol (anySlots s.memory.nodes) id FATInode.IsLoaded s.store :=
    ⟨trivial, fun _ _ => rfl, owns.hint, inode, known, loaded⟩
  have loads := setChainLength_loading (n := n) here updateICache
  rcases (serve_meets accepted moments).run (.of_windows table cursor) fresh resizes with
    ⟨t, ⟨rfl, _, _⟩, resized⟩
  rcases (serve_meets_store accepted moments).run ⟨rfl, cursor⟩ (keeps_any _ _) loads with
    ⟨t, ⟨rfl, _⟩, here⟩
  rw [thrown] at resized here
  exact Resized.notDangling owns resized here.node

/-- The card with a file at the clusters 2, 3 and 4. -/
def cardOfThree : DriverState :=
  let disk : Disk := fun s i =>
    if s ≠ card.fatStartSector then 0
    else if i = 4 then 3 else if i = 6 then 4 else if i = 8 ∨ i = 9 then 0xff else 0
  { cardState with
    table := FATTable.start card disk
    memory :=
      { freeClusters := (freeCells card (card.cells disk)).card
        lastAllocatedCluster := firstDataCluster
        nodes := fun id => if id = 7 then some { emptyFile with
          startCluster := 2, endCluster := 4, allocatedClusterCount := 3, size := 100 } else none } }

theorem owns_cardOfThree :
    Owns card (cardOfThree.view card) fun id => if id = 7 then [2, 3, 4] else [] := by
  have linked : Linked (cardOfThree.view card).cells 2 [2, 3, 4] := by
    apply Linked.next (b := 3) (by rfl)
    apply Linked.next (b := 4) (by rfl)
    exact Linked.last (by rfl)
  exact .single rfl (by decide) (fun _ => rfl) (.inr ⟨by decide, linked, by decide⟩)
    ⟨nofun, fun _ _ => ⟨rfl, rfl, rfl⟩⟩

/-- The entry of the file is not found when it is truncated. -/
theorem notDangling_of_keepsFresh_card :
    NotDangling card (fun id => if id = 7 then [2, 3, 4] else []) 7 (cardOfThree.view card)
      (((setChainLength card 7 0 true).run (serve card fun _ => {}) cardOfThree).2.view
        card) := by
  have thrown : ((setChainLength card 7 0 true).run (serve card fun _ => {}) cardOfThree).1 =
      .error (.throws .io) := by decide +kernel
  have fresh : (setChainLength card 7 0 true).Keeps (serve card fun _ => {}) (Fresh card)
      cardOfThree := keeps_of_whole card_whole _ _
  exact notDangling_of_keepsFresh readSuperBlock_card (Window.start (by decide))
    (Window.start (by decide)) owns_cardOfThree rfl (fun _ _ => by decide) fresh thrown

/-- The floppy with a file at the clusters 341, 1200, 1365 and 1300. The entries of the
first and the third straddle sectors. -/
def floppyOfFour : DriverState :=
  let disk : Disk := fun s i =>
    if s = 4 ∧ i = 511 then 0x40
    else if s = 5 ∧ i = 0 then 0x51
    else if s = 4 ∧ i = 414 then 0xff
    else if s = 4 ∧ i = 415 then 0x0f
    else threeClusters s i
  { floppyState with
    table := FATTable.start floppy disk
    memory :=
      { freeClusters := (freeCells floppy (floppy.cells disk)).card
        lastAllocatedCluster := firstDataCluster
        nodes := fun id => if id = 7 then some { longFile with
          endCluster := 1300, allocatedClusterCount := 4, size := 2048 } else none } }

theorem owns_floppyOfFour : Owns floppy (floppyOfFour.view floppy) fun id =>
    if id = 7 then [341, 1200, 1365, 1300] else [] := by
  have linked : Linked (floppyOfFour.view floppy).cells 341 [341, 1200, 1365, 1300] := by
    apply Linked.next (b := 1200) (by rfl)
    apply Linked.next (b := 1365) (by rfl)
    apply Linked.next (b := 1300) (by rfl)
    exact Linked.last (by rfl)
  exact .single rfl (by decide) (fun _ => rfl) (.inr ⟨by decide, linked, by decide⟩)
    ⟨nofun, fun _ _ => ⟨rfl, rfl, rfl⟩⟩

/-- When this file is cut to three clusters, the end of its chain is written into the link
of the first. -/
theorem not_notDangling_always : ¬∀ (bytesRead : Nat) (sb : FATSuperBlock) (vol : FATVolume)
    (moments : Nat → Moment) (s : DriverState) (chains : Nat → List Nat) (id n : Nat)
    (inode : FATInode) (updateICache : Bool) (code : PErrorCode),
    readSuperBlock bytesRead sb = .ok vol → Window vol s.table.it → Window vol s.cursor →
    Owns vol (s.view vol) chains → s.memory.nodes id = some inode → inode.IsLoaded →
    ((setChainLength vol id n updateICache).run (serve vol moments) s).1 =
      .error (.throws code) → NotDangling vol chains id (s.view vol)
      (((setChainLength vol id n updateICache).run (serve vol moments) s).2.view vol) := by
  intro always
  have thrown : ((setChainLength floppy 7 3 true).run (serve floppy fun _ => {})
      floppyOfFour).1 = .error (.throws .io) := by decide +kernel
  rcases (always 512 floppySector floppy (fun _ => {}) floppyOfFour _ 7 3 _ true .io
    readSuperBlock_floppy (Window.start (by decide)) (Window.start (by decide)) owns_floppyOfFour rfl
    (fun _ _ => by decide) thrown).mine with ⟨inode, known, reachable⟩
  have startCluster : (((setChainLength floppy 7 3 true).run (serve floppy fun _ => {})
      floppyOfFour).2.memory.nodes 7).map FATInode.startCluster = some 341 := by decide +kernel
  have reserved : (((setChainLength floppy 7 3 true).run (serve floppy fun _ => {})
      floppyOfFour).2.view floppy).cells 341 matches .reserved := by decide +kernel
  have remains (s : DriverState) : (s.view floppy).memory = s.memory := rfl
  rw [remains] at known
  rw [known] at startCluster
  have start : inode.startCluster = 341 := Option.some.inj startCluster
  rw [start] at reachable
  rcases reachable with root | ⟨zero, _⟩ | ⟨l, linked, _⟩
  · cases root
  · cases zero
  · cases linked with
    | last ends =>
      rw [ends] at reserved
      cases reserved
    | next links _ =>
      rw [links] at reserved
      cases reserved

end PadOS.Fat
