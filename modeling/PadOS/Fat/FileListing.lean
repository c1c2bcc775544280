import PadOS.Fat.AnyTable
import PadOS.Fat.StoredEntry

/-! # The entry of a file while it is written

A file that has a first cluster keeps it through every failure of `Write`, `ResizeFile`
and `OpenFile`, or loses it with its size, so whatever is put into its slot is again an
entry that a scan takes.
-/

namespace PadOS.Fat

open Program

/-! ## The inode of a file -/

/-- A file with a chain; its size may be changing. -/
structure FATInode.IsChained (vol : FATVolume) (inode : FATInode) : Prop where
  isFile : inode.isDirectory = false
  noLabel : inode.dosAttribs &&& fatVolumeAttribute = 0
  cluster : vol.isDataCluster inode.startCluster
  size : inode.size < 2 ^ 32

variable {vol : FATVolume} {t t' : StoreView} {id size : Nat} {inode : FATInode}
  {P Q R : FATInode → Prop} {α β : Type}

theorem FATInode.IsChained.cluster_ne_zero (chained : inode.IsChained vol) : inode.startCluster ≠ 0 := by
  have data := FATTable.isDataCluster_iff.1 chained.cluster
  omega

theorem FATInode.IsChained.storable (chained : inode.IsChained vol) (some' : inode.size ≠ 0) :
    inode.IsStorable vol where
  isFile := chained.isFile
  noLabel := chained.noLabel
  cluster := .inr chained.cluster
  size := chained.size
  agree := ⟨fun zero => absurd zero chained.cluster_ne_zero, fun zero => absurd zero some'⟩

theorem FATInode.IsStorable.chained (storable : inode.IsStorable vol) (some' : inode.startCluster ≠ 0) :
    inode.IsChained vol ∧ inode.size ≠ 0 := by
  refine ⟨⟨storable.isFile, storable.noLabel, ?_, storable.size⟩, fun zero => ?_⟩
  · rcases storable.cluster with zero | data
    · exact absurd zero some'
    · exact data
  · exact some' (storable.agree.2 zero)

/-- What does not depend on how the chain goes on behind its first cluster. -/
def ChainBlind (P : FATInode → Prop) : Prop :=
  ∀ inode endCluster allocatedClusterCount iteration, P inode →
    P { inode with endCluster, allocatedClusterCount, iteration }

/-- The archive attribute changes nothing else. -/
theorem archive_land {attribs mask : Nat} (other : fatArchiveAttribute &&& mask = 0) :
    (attribs ||| fatArchiveAttribute) &&& mask = attribs &&& mask := by
  rw [Nat.and_or_distrib_right, other, Nat.or_zero]

/-! ## The directories meanwhile -/

/-- What the slots may be while a file is written, and the other inodes. -/
structure Meanwhile where
  slots : (Nat → Nat → FATDirectoryEntryCombo) → Prop
  nodes : Nat → Option FATInode

/-- Where the slots are listed as before, they may go on as `base'`. -/
structure Meanwhile.Lists (vol : FATVolume) (base base' : Meanwhile) : Prop where
  slots : ∀ slots slots', base.slots slots →
    (∀ cluster slot, StaysListed vol (slots cluster slot) (slots' cluster slot)) → base'.slots slots'
  nodes : base'.nodes = base.nodes

variable {base base' : Meanwhile}

/-- The slots are allowed, and nothing but the inode has changed. -/
structure Listing (vol : FATVolume) (base : Meanwhile) (id : Nat) (P : FATInode → Prop)
    (t : StoreView) : Prop where
  slots : base.slots t.slots
  others : ∀ other, other ≠ id → t.memory.nodes other = base.nodes other
  hint : vol.isDataCluster t.memory.lastAllocatedCluster
  node : ∃ inode, t.memory.nodes id = some inode ∧ P inode

section

variable (here : Listing vol base id P t)

include here

theorem Listing.mono (weaker : ∀ inode, P inode → Q inode) :
    Listing vol base id Q t := by
  rcases here.node with ⟨inode, known, holds⟩
  exact ⟨here.slots, here.others, here.hint, inode, known, weaker inode holds⟩

theorem Listing.stays (stays : Stays vol t t') :
    Listing vol base id P t' := by
  rcases here.node with ⟨inode, known, holds⟩
  refine ⟨?_, ?_, stays.hint here.hint, inode, ?_, holds⟩
  · rw [stays.slots]
    exact here.slots
  · rw [stays.nodes]
    exact here.others
  · rw [stays.nodes]
    exact known

theorem Listing.lists (lists : base.Lists vol base') :
    Listing vol base' id P t :=
  ⟨lists.slots _ _ here.slots fun _ _ => .refl .., lists.nodes ▸ here.others, here.hint, here.node⟩

end

/-- However a program ends, the entry is still taken. -/
abbrev Relists (vol : FATVolume) (base : Meanwhile) (id : Nat) (Q : FATInode → Prop)
    (R : FATInode → Prop := Q) : Except Stop α → StoreView → Prop :=
  Settles (fun _ => Listing vol base id Q) (Listing vol base id R)

section Rules

variable {p : Driver α} {f : α → Driver β} {returns : α → Prop} {fails : StoreView → Prop}
  {finally' : β → StoreView → Prop} {post : Except Stop β → StoreView → Prop}

section

variable (here : Listing vol base id P t)
  (every : p.Every (storeSpec vol) t (Staying vol t returns))

include here every

/-- On with a program that leaves the directories and the inodes. -/
theorem listing_bind
    (rest : ∀ a t', returns a → Listing vol base id P t' →
      (f a).Every (storeSpec vol) t' (Settles finally' fails))
    (failed : ∀ t', Listing vol base id P t' → fails t') :
    (p >>= f).Every (storeSpec vol) t (Settles finally' fails) := by
  apply ends_bind storeSpec_monotone every
  · exact fun a t' after => rest a t' after.2 (here.stays after.1)
  · exact fun t' stays => failed t' (here.stays stays)

theorem listing_step
    (rest : ∀ a t', returns a → Listing vol base id P t' →
      (f a).Every (storeSpec vol) t' (Settles finally' (Listing vol base id P))) :
    (p >>= f).Every (storeSpec vol) t (Settles finally' (Listing vol base id P)) :=
  listing_bind here every rest fun _ here => here

end

theorem listing_then {between : α → StoreView → Prop}
    (every : p.Every (storeSpec vol) t (Settles between fails))
    (rest : ∀ a t', between a t' → (f a).Every (storeSpec vol) t' (Settles finally' fails)) :
    (p >>= f).Every (storeSpec vol) t (Settles finally' fails) :=
  ends_bind storeSpec_monotone every rest fun _ here => here

theorem listing_node {f : FATInode → Driver β} (here : Listing vol base id P t)
    (rest : ∀ inode, t.memory.nodes id = some inode → P inode →
      (f inode).Every (storeSpec vol) t post) :
    (Driver.node id >>= f).Every (storeSpec vol) t post := by
  rcases here.node with ⟨inode, known, holds⟩
  exact Driver.store_node known (rest inode known holds)

theorem listing_update {change : Memory → Memory} {f : Unit → Driver β}
    (rest : (f ()).Every (storeSpec vol) { t with memory := change t.memory } post) :
    (Driver.update change >>= f).Every (storeSpec vol) t post := rest

/-- The view after the inode has been changed. -/
def changed (t : StoreView) (id : Nat) (change : FATInode → FATInode) : StoreView :=
  { t with memory := { t.memory with
      nodes := fun i => if i = id then (t.memory.nodes i).map change else t.memory.nodes i } }

section

variable (here : Listing vol base id P t)

include here

variable {change : FATInode → FATInode}

theorem Listing.changed
    (becomes : ∀ inode, P inode → Q (change inode)) : Listing vol base id Q (changed t id change) := by
  rcases here.node with ⟨inode, known, holds⟩
  refine ⟨here.slots, fun other different => ?_, here.hint, change inode, ?_, becomes inode holds⟩
  · exact (if_neg different).trans (here.others other different)
  · show (if id = id then (t.memory.nodes id).map change else _) = _
    rw [if_pos rfl, known]
    rfl

theorem listing_setNode {f : Unit → Driver β}
    (becomes : ∀ inode, P inode → Q (change inode))
    (rest : ∀ t', Listing vol base id Q t' → (f ()).Every (storeSpec vol) t' post) :
    (Driver.setNode id change >>= f).Every (storeSpec vol) t post :=
  rest _ (here.changed becomes)

theorem setNode_listing (becomes : ∀ inode, P inode → Q (change inode)) :
    (Driver.setNode id change).Every (storeSpec vol) t
      (Settles (fun _ => Listing vol base id Q) fails) := here.changed becomes

end

end Rules

/-- The request is refused, or is for no bytes. -/
def WriteRequest.WritesNothing (request : WriteRequest) (inode : FATInode) : Prop :=
  inode.isDirectory ∨ request.openedReadOnly ∨ request.volumeReadOnly ∨ request.pos < 0 ∨
    request.len = 0 ∨ request.nullBuffer ∨ request.position inode ≥ fatMaxFileSize

namespace Driver

/-! ## Writing the entry -/

theorem discardPendingMetadata_stays (id : Nat) :
    (discardPendingMetadata id).Every (storeSpec vol) t (Staying vol t) :=
  update_stays rfl rfl fun data => data

/-- What ends with a program that leaves the directories and the inodes. -/
theorem listing_of_stays {p : Driver α} (here : Listing vol base id P t)
    (every : p.Every (storeSpec vol) t (Staying vol t)) :
    p.Every (storeSpec vol) t (Relists vol base id P) := by
  apply ends_mono storeSpec_monotone every
  · exact fun _ t' after => here.stays after.1
  · exact fun t' stays => here.stays stays

/-- `Write` has put the inode into a slot, if the file is not deleted. -/
structure Written (vol : FATVolume) (id : Nat) (inode : FATInode) (t t' : StoreView) : Prop where
  nodes : t'.memory.nodes = t.memory.nodes
  hint : vol.isDataCluster t.memory.lastAllocatedCluster →
    vol.isDataCluster t'.memory.lastAllocatedCluster
  slots : t.memory.deleted id ∧ t'.slots = t.slots ∨
    ¬t.memory.deleted id ∧ ∃ cluster slot expectedStartCluster times,
      isFATInodeWriteEntryValid vol inode (t.slots cluster slot) expectedStartCluster ∧
      t'.slots = setSlot t.slots cluster slot ((t.slots cluster slot).withInode inode.dosAttribs times
        inode.startCluster (if inode.isDirectory then 0 else inode.size))

theorem write_written (known : t.memory.nodes id = some inode) : (write vol id).Every (storeSpec vol) t
    (Settles (fun _ => Written vol id inode t) (Stays vol t)) := by
  apply store_recall
  apply store_node known
  split
  · rename_i deleted
    exact ⟨rfl, fun data => data, .inl ⟨deleted, rfl⟩⟩
  rename_i kept
  split
  · exact Stays.refl
  split
  · exact Stays.refl
  rename_i expectedStartCluster _
  apply ends_bind storeSpec_monotone (seekSlot_stays _ _) ?_ fun _ stays => stays
  intro place t' after
  refine ⟨?_, fun _ => after.1⟩
  show Every _ (if !isFATInodeWriteEntryValid vol inode _ _ then _ else _) _ _
  split
  · exact after.1
  rename_i mine
  rw [after.1.slots] at mine ⊢
  refine ⟨after.1.nodes, after.1.hint, .inr ⟨kept, place.1, place.2, expectedStartCluster,
    t.memory.times id, by simpa using mine, ?_⟩⟩
  show setSlot t'.slots _ _ _ = _
  rw [after.1.slots]

theorem write_listing (accepted : vol.Accepted) (lists : base.Lists vol base')
    (storable : ∀ inode, P inode → inode.IsStorable vol) (here : Listing vol base id P t) :
    (write vol id).Every (storeSpec vol) t
      (Settles (fun _ => Listing vol base' id P) (Listing vol base id P)) := by
  rcases here.node with ⟨inode, known, holds⟩
  apply ends_mono storeSpec_monotone (write_written known)
  · intro _ t' written
    refine ⟨lists.slots _ _ here.slots fun cluster slot => ?_, fun other different => ?_,
      written.hint here.hint, inode, written.nodes.symm ▸ known, holds⟩
    · rcases written.slots with ⟨_, same⟩ | ⟨_, c, i, expectedStartCluster, times, mine, put⟩
      · rw [same]
        exact .refl ..
      · rw [put, setSlot]
        split
        · rename_i same
          have listed := staysListed_withInode accepted (storable inode holds) mine times
          rw [same.1, same.2, (storable inode holds).isFile]
          exact listed
        · exact .refl ..
    · rw [written.nodes, lists.nodes]
      exact here.others other different
  · exact fun _ stays => here.stays stays

/-! ## The chain -/

theorem ensureClusterChainMetadataLoaded_listing (blind : ChainBlind P)
    (isFile : ∀ inode, P inode → inode.isDirectory = false) (here : Listing vol base id P t) :
    (ensureClusterChainMetadataLoaded vol id).Every (storeSpec vol) t (Relists vol base id P) := by
  apply listing_node here
  intro inode _ _
  split
  · exact here
  apply listing_step here getChainLength_stays
  intro ⟨chainLength, endCluster⟩ t' _ here
  dsimp only
  split
  · exact here
  apply setNode_listing here
  intro inode holds
  have set := blind inode endCluster chainLength inode.iteration holds
  show P (if (inode.setChain inode.startCluster endCluster chainLength).isDirectory then _ else _)
  rw [if_neg (by simp [isFile _ set, FATInode.setChain])]
  exact set

theorem nextIteration_listing (blind : ChainBlind P) (here : Listing vol base id P t) :
    (nextIteration id).Every (storeSpec vol) t (Relists vol base id P) :=
  setNode_listing here fun inode holds =>
    blind inode inode.endCluster inode.allocatedClusterCount _ holds

theorem setMapping_stays (inodeID locationID : Nat) :
    (setMapping inodeID locationID).Every (storeSpec vol) t (Staying vol t) := by
  unfold setMapping
  apply store_recall
  split
  · exact staying_throws _
  · exact staying_panics
  · exact update_stays rfl rfl fun data => data

theorem growChain_listing (blind : ChainBlind P) (clusterCount : Nat)
    (here : Listing vol base id P t) : (growChain vol id clusterCount).Every (storeSpec vol) t
      (Relists vol base id P) := by
  apply listing_node here
  intro inode _ _
  apply listing_step here (allocateClusters_stays here.hint _)
  intro ⟨newStartCluster, newEndCluster⟩ t' _ here
  dsimp only
  split
  · trivial
  apply listing_step here
    (staying_scopeFail setEntry_stays fun _ => clearFATChainAfterFailureNoThrow_stays)
  intro _ t' _ here
  apply listing_setNode here fun inode holds => blind inode _ _ inode.iteration holds
  intro t' here
  exact nextIteration_listing blind here

theorem shrinkChain_listing (blind : ChainBlind P) (clusterCount : Nat)
    (here : Listing vol base id P t) : (shrinkChain vol id clusterCount).Every (storeSpec vol) t
      (Relists vol base id P) := by
  apply listing_node here
  intro inode _ _
  apply listing_step here (getChainEntry_stays _)
  intro newEndCluster t' _ here
  split
  · exact here
  apply listing_step here getEntry_stays
  intro trailingChainStart t' _ here
  split
  · exact here
  apply listing_step here setEntry_stays
  intro _ t' _ here
  apply listing_setNode here fun inode holds => blind inode _ _ inode.iteration holds
  intro t' here
  apply listing_then (nextIteration_listing blind here)
  intro _ t' here
  exact listing_of_stays here clearFATChain_stays

/-- A chain that does not lose its first cluster. -/
theorem setChainLength_listing (blind : ChainBlind P)
    (chained : ∀ inode, P inode → inode.startCluster ≠ 0) {clusterCount : Nat}
    (some' : clusterCount ≠ 0) (updateICache : Bool) (here : Listing vol base id P t) :
    (setChainLength vol id clusterCount updateICache).Every (storeSpec vol) t
      (Relists vol base id P) := by
  apply listing_node here
  intro inode _ holds
  split
  · exact here
  split
  · exact here
  split
  · exact here
  rw [if_neg (chained inode holds)]
  split
  · exact growChain_listing blind _ here
  · exact shrinkChain_listing blind _ here

/-- A file about to lose its chain: it has no size already. -/
def Emptying (vol : FATVolume) (count : Nat) (inode : FATInode) : Prop :=
  inode.IsChained vol ∧ inode.size = 0 ∧ inode.allocatedClusterCount = count

/-- The file has lost its chain. -/
def Emptied (vol : FATVolume) (inode : FATInode) : Prop :=
  inode.IsStorable vol ∧ inode.startCluster = 0 ∧ inode.allocatedClusterCount = 0

theorem Emptying.emptied {count : Nat} (emptying : Emptying vol count inode) :
    Emptied vol (inode.setChain 0 0 0) :=
  ⟨⟨emptying.1.isFile, emptying.1.noLabel, .inl rfl, emptying.1.size,
    ⟨fun _ => emptying.2.1, fun _ => rfl⟩⟩, rfl, rfl⟩

/-- Either the chain is still that of the inode, or both it and its number of clusters
are gone. -/
def Undecided (vol : FATVolume) (count : Nat) (inode : FATInode) : Prop :=
  Emptying vol count inode ∨ Emptied vol inode ∧ count ≠ 0

theorem truncateChain_listing (accepted : vol.Accepted) (lists : base.Lists vol base) {count : Nat} (some' : count ≠ 0)
    (updateICache : Bool) (here : Listing vol base id (Emptying vol count) t) :
    (truncateChain vol id updateICache).Every (storeSpec vol) t
      (Relists vol base id (Emptied vol) (Undecided vol count)) := by
  apply listing_node here
  intro old _ holds
  have guarded (t' : StoreView)
      (here : Listing vol base id (fun inode => Emptied vol inode ∧ ∃ b : FATInode,
        Emptying vol count b ∧ inode = b.setChain 0 0 0) t') :
      ((write vol id).scopeFail (setNode id fun inode =>
        inode.setChain old.startCluster old.endCluster old.allocatedClusterCount)).Every
          (storeSpec vol) t' (Relists vol base id (Emptied vol) (Undecided vol count)) := by
    have written := write_listing accepted lists (fun inode holds => holds.1.1) here
    have kept := ends_mono storeSpec_monotone written
      (fun _ t' here => here.mono (Q := Emptied vol) fun _ holds => holds.1) fun _ here => here
    apply ends_scopeFail storeSpec_monotone kept
    intro t' here
    apply setNode_listing here
    rintro _ ⟨_, b, emptying, rfl⟩
    exact .inl ⟨⟨emptying.1.isFile, emptying.1.noLabel, holds.1.cluster, emptying.1.size⟩,
      emptying.2.1, holds.2.2⟩
  have emptied : ∀ inode, Emptying vol count inode → Emptied vol (inode.setChain 0 0 0) ∧
      ∃ b : FATInode, Emptying vol count b ∧ inode.setChain 0 0 0 = b.setChain 0 0 0 :=
    fun inode holds => ⟨holds.emptied, inode, holds, rfl⟩
  apply listing_setNode (Q := fun inode => Emptied vol inode ∧ ∃ b : FATInode,
    Emptying vol count b ∧ inode = b.setChain 0 0 0) here emptied
  intro t' here
  apply listing_then (guarded t' here)
  intro _ t' here
  have undecided (t' : StoreView) (here : Listing vol base id (Emptied vol) t') :
      Listing vol base id (Undecided vol count) t' := here.mono fun _ holds => .inr ⟨holds, some'⟩
  have next : ∀ inode, Emptied vol inode →
      Emptied vol { inode with iteration := (inode.iteration + 1) % 2 ^ 32 } := by
    intro inode holds
    exact ⟨⟨holds.1.isFile, holds.1.noLabel, holds.1.cluster, holds.1.size, holds.1.agree⟩, holds.2⟩
  have clears (t' : StoreView) (here : Listing vol base id (Emptied vol) t') :
      (clearFATChain vol old.startCluster).Every (storeSpec vol) t'
        (Relists vol base id (Emptied vol) (Undecided vol count)) :=
    ends_mono storeSpec_monotone (listing_of_stays here clearFATChain_stays)
      (fun _ _ here => here) undecided
  apply listing_setNode here next
  intro t' here
  split
  · apply listing_bind here (setMapping_stays _ _)
    · exact fun _ t' _ here => clears t' here
    · exact undecided
  · exact clears t' here

theorem setChainLength_zero_listing (accepted : vol.Accepted) (lists : base.Lists vol base) {count : Nat}
    (updateICache : Bool) (here : Listing vol base id (Emptying vol count) t) :
    (setChainLength vol id 0 updateICache).Every (storeSpec vol) t
      (Relists vol base id (Emptied vol) (Undecided vol count)) := by
  apply listing_node here
  intro inode _ holds
  have undecided : Listing vol base id (Undecided vol count) t := here.mono fun _ => .inl
  split
  · exact undecided
  rename_i consistent
  split
  · exact undecided
  have some' : count ≠ 0 := by
    rintro rfl
    apply consistent
    unfold hasInconsistentChain
    rw [if_pos holds.1.cluster_ne_zero]
    simp [holds.2.2]
  rw [if_neg (by rw [holds.2.2]; exact some'.symm), if_pos rfl]
  exact truncateChain_listing accepted lists some' updateICache here

/-! ## Metadata -/

theorem markContentsModified_listing {fails : StoreView → Prop} (archived : ∀ inode, P inode →
      P { inode with dosAttribs := inode.dosAttribs ||| fatArchiveAttribute })
    (now : FATNow) (updateModificationTime : Bool) (here : Listing vol base id P t) :
    (markContentsModified id now updateModificationTime).Every (storeSpec vol) t
      (Settles (fun _ => Listing vol base id P) fails) := by
  have marks (t' : StoreView) (here : Listing vol base id P t') : (do
      setNode id fun inode => { inode with dosAttribs := inode.dosAttribs ||| fatArchiveAttribute }
      if !(← recollect).deleted id then markMetadataDirty id : Driver Unit).Every (storeSpec vol) t'
        (Settles (fun _ => Listing vol base id P) fails) := by
    apply listing_setNode here archived
    intro t' here
    show Every _ (if !t'.memory.deleted id then markMetadataDirty id else pure ()) _ _
    split
    · exact here.stays ⟨rfl, rfl, rfl, fun data => data⟩
    · exact here
  unfold markContentsModified
  split
  · apply listing_update
    exact marks _ (here.stays ⟨rfl, rfl, rfl, fun data => data⟩)
  · exact marks t here

theorem restoreModificationMetadata_listing {dosAttribs : Nat}
    (restored : ∀ inode, P inode → Q { inode with dosAttribs }) (times : FATTimes)
    (metadataWasDirty : Bool) (here : Listing vol base id P t) :
    (restoreModificationMetadata id times dosAttribs metadataWasDirty).Every (storeSpec vol) t
      (Relists vol base id Q) := by
  have modified : Stays vol t { t with memory := { t.memory with
      times := fun i => if i = id then (t.memory.times i).modifiedAt
        { modificationTime := times.modificationTime, modificationDate := times.modificationDate }
        else t.memory.times i } } := ⟨rfl, rfl, rfl, fun data => data⟩
  apply listing_update
  apply listing_setNode (here.stays modified) restored
  intro t' here
  split
  · exact listing_of_stays here (discardPendingMetadata_stays id)
  · exact here

/-! ## `ResizeFile` -/

theorem archived_land {attribs mask : Nat} (other : fatArchiveAttribute &&& mask = 0) :
    attribs &&& mask = 0 → (attribs ||| fatArchiveAttribute) &&& mask = 0 := by
  intro none
  rw [archive_land other, none]

theorem IsChained_archived (chained : inode.IsChained vol) : FATInode.IsChained vol
    { inode with dosAttribs := inode.dosAttribs ||| fatArchiveAttribute } := by
  refine ⟨?_, archived_land rfl chained.noLabel, chained.cluster, chained.size⟩
  have isFile := chained.isFile
  simp only [FATInode.isDirectory, bne_eq_false_iff_eq] at isFile ⊢
  exact archived_land rfl isFile

/-- A file with a chain and a size that may not be the right one yet. -/
def Sized (vol : FATVolume) (size : Nat) (inode : FATInode) : Prop :=
  inode.IsChained vol ∧ inode.size = size

theorem sized_blind (size : Nat) : ChainBlind (Sized vol size) := by
  intro inode _ _ _ holds
  exact ⟨⟨holds.1.isFile, holds.1.noLabel, holds.1.cluster, holds.1.size⟩, holds.2⟩

theorem Sized.archived (sized : Sized vol size inode) : Sized vol size
    { inode with dosAttribs := inode.dosAttribs ||| fatArchiveAttribute } :=
  ⟨IsChained_archived sized.1, sized.2⟩

theorem Sized.resize {newSize : Nat} (sized : Sized vol size inode) (small : newSize < 2 ^ 32) :
    Sized vol newSize { inode with size := newSize } :=
  ⟨⟨sized.1.isFile, sized.1.noLabel, sized.1.cluster, small⟩, rfl⟩

/-- The size and the attributes from before are put back. -/
theorem restore_listing (small : size < 2 ^ 32) {old : FATInode}
    (isFile : old.isDirectory = false) (noLabel : old.dosAttribs &&& fatVolumeAttribute = 0)
    (times : FATTimes) (metadataWasDirty : Bool) (chained : ∀ inode, P inode → inode.IsChained vol)
    (here : Listing vol base id P t) : (do
      setSize id size
      restoreModificationMetadata id times old.dosAttribs metadataWasDirty).Every (storeSpec vol) t
      (Relists vol base id (Sized vol size)) := by
  apply listing_setNode (Q := Sized vol size) here
  · exact fun inode holds => Sized.resize ⟨chained inode holds, rfl⟩ small
  intro t' here
  apply restoreModificationMetadata_listing _ _ _ here
  exact fun inode holds =>
    ⟨⟨isFile, noLabel, holds.1.cluster, holds.1.size⟩, holds.2⟩

theorem getFileClusterCount_ne_zero (accepted : vol.Accepted) {fileSize : Nat} (some' : fileSize ≠ 0) :
    getFileClusterCount vol fileSize ≠ 0 := by
  have sector := accepted.sectorSize
  have positive : 0 < vol.bytesPerSector * vol.sectorsPerCluster :=
    Nat.mul_pos (by omega) accepted.clusterSize.1
  unfold getFileClusterCount
  rw [if_neg some']
  have atLeast := (Nat.one_le_div_iff positive).2 (show vol.bytesPerSector * vol.sectorsPerCluster ≤
      fileSize + vol.bytesPerSector * vol.sectorsPerCluster - 1 by omega)
  dsimp only
  omega

/-- The zeros, the size and the entry of a file that has grown. -/
theorem grow_listing (accepted : vol.Accepted) (lists : base.Lists vol base') (now : FATNow)
    (updateModificationTime : Bool) {oldSize newSize : Nat} (small : newSize < 2 ^ 32)
    (positive : newSize ≠ 0) {restore : Driver Unit}
    (restores : ∀ t', Listing vol base id (Sized vol newSize) t' →
      restore.Every (storeSpec vol) t' (Relists vol base id (Sized vol oldSize)))
    (here : Listing vol base id (Sized vol oldSize) t) : (do
      clearFileRange vol id oldSize newSize
      setSize id newSize
      markContentsModified id now updateModificationTime
      (write vol id).scopeFail restore : Driver Unit).Every (storeSpec vol) t
        (Settles (fun _ => Listing vol base' id (Sized vol newSize))
          (Listing vol base id (Sized vol oldSize))) := by
  apply listing_step here (clearFileRange_stays _ _)
  intro _ t' _ here
  apply listing_setNode here fun _ holds => Sized.resize holds small
  intro t' here
  apply listing_then (markContentsModified_listing (fun _ holds => Sized.archived holds) now
    updateModificationTime here)
  intro _ t' here
  have written := write_listing accepted lists
    (fun _ holds => holds.1.storable (by rw [holds.2]; exact positive)) here
  exact ends_scopeFail storeSpec_monotone written restores

theorem resizeFile_listing (accepted : vol.Accepted) (lists : base.Lists vol base) (now : FATNow)
    (updateModificationTime : Bool) {fileSize : Int} (here : Listing vol base id (fun inode => inode.IsStorable vol ∧
      (inode.startCluster ≠ 0 ∨ fileSize ≤ 0 ∨ fileSize > fatMaxFileSize)) t) :
    (resizeFile vol id fileSize now updateModificationTime).Every (storeSpec vol) t
      (Relists vol base id (FATInode.IsStorable vol)) := by
  have storable : Listing vol base id (FATInode.IsStorable vol) t := here.mono fun _ holds => holds.1
  unfold resizeFile
  split
  · exact storable
  split
  · exact storable
  rename_i notNegative notHuge
  apply listing_node here
  intro inode known holds
  dsimp only
  split
  · exact storable
  rename_i resizes
  have chain : inode.startCluster ≠ 0 := by
    intro zero
    have empty := holds.1.agree.1 zero
    omega
  rcases holds.1.chained chain with ⟨chained, some'⟩
  have oldSmall := chained.size
  have newSmall : fileSize.toNat < 2 ^ 32 := by
    unfold fatMaxFileSize at notHuge
    omega
  have here : Listing vol base id (Sized vol inode.size) t :=
    ⟨here.slots, here.others, here.hint, inode, known, chained, rfl⟩
  have done (k : Nat) (positive : k ≠ 0) (t' : StoreView) (here : Listing vol base id (Sized vol k) t') :
      Listing vol base id (FATInode.IsStorable vol) t' :=
    here.mono fun _ holds => holds.1.storable (by rw [holds.2]; exact positive)
  have isOld := done inode.size some'
  apply ends_bind storeSpec_monotone
    (ensureClusterChainMetadataLoaded_listing (sized_blind _) (fun _ holds => holds.1.isFile) here)
  · intro _ t' here
    apply listing_node here
    intro old knownOld oldHolds
    have recalled : recollect.Every (storeSpec vol) t' (Staying vol t') := ⟨.refl, trivial⟩
    have here : Listing vol base id (fun now => Sized vol inode.size now ∧
        now.allocatedClusterCount = old.allocatedClusterCount) t' :=
      ⟨here.slots, here.others, here.hint, old, knownOld, oldHolds, rfl⟩
    apply listing_bind here recalled
    · intro oldMemory t' _ here
      have restores {P : FATInode → Prop} (t' : StoreView) (chained : ∀ inode, P inode → inode.IsChained vol)
          (here : Listing vol base id P t') :=
        ends_mono storeSpec_monotone
          (restore_listing oldSmall oldHolds.1.isFile oldHolds.1.noLabel (oldMemory.times id)
            (oldMemory.dirty id) chained here)
          (fun _ => isOld) isOld
      -- the chain is set without a loss of the first cluster
      have sets {k : Nat} (positive : k ≠ 0) (t' : StoreView) (here : Listing vol base id (Sized vol k) t')
          (n : Nat) (some' : n ≠ 0) {restore : Driver Unit} :
          ((setChainLength vol id n true).scopeFail do
            if (← node id).allocatedClusterCount = old.allocatedClusterCount ∧ n = 0 then
              restore).Every (storeSpec vol) t' (Relists vol base id (Sized vol k) (FATInode.IsStorable vol)) := by
        apply ends_scopeFail storeSpec_monotone (setChainLength_listing (sized_blind k)
          (fun _ holds => holds.1.cluster_ne_zero) some' true here)
        intro t' here
        apply listing_node here
        intro _ _ _
        rw [if_neg fun both => some' both.2]
        exact done k positive t' here
      split
      · rename_i shrinks
        apply listing_setNode (Q := fun now => Sized vol fileSize.toNat now ∧
          now.allocatedClusterCount = old.allocatedClusterCount) here
        · exact fun _ holds => ⟨holds.1.resize newSmall, holds.2⟩
        intro t' here
        apply listing_then (markContentsModified_listing
          (fun _ holds => ⟨Sized.archived holds.1, holds.2⟩) now updateModificationTime here)
        intro _ t' here
        split
        · rename_i some'
          have positive : fileSize.toNat ≠ 0 := by
            intro zero
            rw [zero] at some'
            exact some' rfl
          have here := here.mono fun _ holds => holds.1
          have written := write_listing accepted lists
            (fun _ holds => holds.1.storable (by rw [holds.2]; exact positive)) here
          apply listing_then
            (ends_scopeFail storeSpec_monotone written fun t' here =>
              restores t' (fun _ holds => holds.1) here)
          intro _ t' here
          apply listing_then (sets positive t' here _ some')
          intro _ t' here
          rw [if_neg (by omega)]
          exact done _ positive t' here
        · rename_i none
          have zero : fileSize.toNat = 0 := by
            by_contra positive
            exact none (getFileClusterCount_ne_zero accepted positive)
          have none := not_not.1 none
          rw [none]
          have here : Listing vol base id (Emptying vol old.allocatedClusterCount) t' := by
            apply here.mono
            intro _ holds
            exact ⟨holds.1.1, holds.1.2.trans zero, holds.2⟩
          apply listing_then
            (ends_scopeFail storeSpec_monotone (setChainLength_zero_listing accepted lists true here) ?_)
          intro _ t' here
          rw [if_neg (by omega)]
          exact here.mono fun _ holds => holds.1
          · intro t' here
            apply listing_node here
            intro inode' known undecided
            rcases undecided with emptying | ⟨emptied, some'⟩
            · rw [if_pos ⟨emptying.2.2, rfl⟩]
              exact restores t' (P := (· = inode')) (by rintro _ rfl; exact emptying.1)
                ⟨here.slots, here.others, here.hint, inode', known, rfl⟩
            · rw [if_neg fun same => some' (same.1.symm.trans emptied.2.2)]
              exact ⟨here.slots, here.others, here.hint, inode', known, emptied.1⟩
      · rename_i notLess
        have grows : fileSize.toNat > inode.size := by omega
        have positive : fileSize.toNat ≠ 0 := by omega
        have here := here.mono fun _ holds => holds.1
        apply listing_then
          (sets some' t' here _ (getFileClusterCount_ne_zero accepted positive))
        intro _ t' here
        rw [if_pos grows]
        apply ends_mono storeSpec_monotone (grow_listing accepted lists now updateModificationTime
          newSmall positive (fun t' here => restore_listing oldSmall oldHolds.1.isFile
            oldHolds.1.noLabel (oldMemory.times id) (oldMemory.dirty id) (fun _ holds => holds.1) here) here)
        · exact fun _ => done _ positive
        · exact isOld
    · exact fun t' here => isOld t' (here.mono fun _ holds => holds.1)
  · exact isOld

/-! ## `Write` and `OpenFile` -/

/-- A step of the transfer; where it fails the file may be marked as modified. -/
theorem partiallyWritten_listing {p : Driver α} (now : FATNow) (bytesWritten : Nat)
    (every : ∀ t, p.Every (storeSpec vol) t (Staying vol t))
    (here : Listing vol base id (Sized vol size) t) :
    (partiallyWritten id now bytesWritten p).Every (storeSpec vol) t
      (Relists vol base id (Sized vol size)) := by
  apply ends_scopeFail storeSpec_monotone (listing_of_stays here (every t))
  intro t' here
  split
  · exact markContentsModified_listing (fun _ holds => Sized.archived holds) now true here
  · exact here

theorem writeMiddle_listing (now : FATNow) (len rounds : Nat) (it : FATClusterSectorIterator)
    (bytesWritten : Nat) (here : Listing vol base id (Sized vol size) t) :
    (writeMiddle vol id now len rounds it bytesWritten).Every (storeSpec vol) t
      (Relists vol base id (Sized vol size)) := by
  induction rounds generalizing it bytesWritten t with
  | zero => exact here
  | succ rounds ih =>
    unfold writeMiddle
    split
    · apply listing_then
        (partiallyWritten_listing now bytesWritten (fun _ => transferSector_stays it) here)
      intro _ t' here
      dsimp only
      split
      · apply listing_then
          (partiallyWritten_listing now _ (fun _ => advanceSector_stays it 1) here)
        exact fun it t' here => ih it _ here
      · exact ih _ _ here
    · exact here

theorem writeData_listing (now : FATNow) (len pos : Nat) (it : FATClusterSectorIterator)
    (here : Listing vol base id (Sized vol size) t) :
    (writeData vol id now len pos it).Every (storeSpec vol) t
      (Relists vol base id (Sized vol size)) := by
  have finish (last : FATClusterSectorIterator × Nat) (t' : StoreView)
      (here : Listing vol base id (Sized vol size) t') :
      (if last.2 < len then do
          partiallyWritten id now last.2 (transferSector vol last.1)
          pure last.1
        else pure last.1 : Driver FATClusterSectorIterator).Every (storeSpec vol) t'
          (Relists vol base id (Sized vol size)) := by
    split
    · apply listing_then
        (partiallyWritten_listing now last.2 (fun _ => transferSector_stays last.1) here)
      exact fun _ _ here => here
    · exact here
  have rest (it : FATClusterSectorIterator) (bytesWritten : Nat) (t' : StoreView)
      (here : Listing vol base id (Sized vol size) t') :=
    listing_then (writeMiddle_listing now len (len / vol.bytesPerSector) it bytesWritten here) finish
  unfold writeData
  dsimp only
  split
  · apply listing_step here (transferSector_stays it)
    intro _ t' _ here
    split
    · apply listing_then
        (partiallyWritten_listing now _ (fun _ => advanceSector_stays it 1) here)
      exact fun it t' here => rest it _ t' here
    · exact rest it _ t' here
  · exact rest it 0 t here

section

variable (accepted : vol.Accepted)

include accepted

theorem extendFile_listing {oldFileSize pos writeEnd : Nat}
    (here : Listing vol base id (Sized vol size) t) :
    (extendFile vol id oldFileSize pos writeEnd).Every (storeSpec vol) t
      (Relists vol base id (Sized vol size)) := by
  unfold extendFile
  split
  · rename_i longer
    have clears (t' : StoreView) (here : Listing vol base id (Sized vol size) t') :
        (if pos > oldFileSize then clearFileRange vol id oldFileSize pos else pure ()).Every
          (storeSpec vol) t' (Relists vol base id (Sized vol size)) := by
      split
      · exact listing_of_stays here (clearFileRange_stays _ _)
      · exact here
    dsimp only
    split
    · apply listing_then (ensureClusterChainMetadataLoaded_listing
        (sized_blind _) (fun _ holds => holds.1.isFile) here)
      intro _ t' here
      apply listing_node here
      intro inode _ _
      split
      · have positive : writeEnd ≠ 0 := by omega
        have some' := getFileClusterCount_ne_zero accepted positive
        apply listing_then (setChainLength_listing (sized_blind _)
          (fun _ holds => holds.1.cluster_ne_zero) some' true here)
        exact fun _ t' here => clears t' here
      · exact clears t' here
    · exact clears t here
  · exact here

/-- The data, the size and the entry of a file that has room for them. -/
theorem putBytes_listing (lists : base.Lists vol base') (now : FATNow)
    {len pos : Nat} (it : FATClusterSectorIterator) (sectors : Nat) (small : size < 2 ^ 32)
    (fits : pos + len < 2 ^ 32) (here : Listing vol base id (Sized vol size) t) : (do
      let it ← advanceSector vol it sectors
      let it ← writeData vol id now len pos it
      markContentsModified id now true
      if pos + len > size then do
        setSize id (pos + len)
        (write vol id).scopeFail (setSize id size)
      let inode ← node id
      pure (len,
        { fatIteration := inode.iteration
          fatChainIndex := (pos + len - 1) / vol.bytesPerSector / vol.sectorsPerCluster
          cachedCluster := it.currentCluster }) : Driver (Nat × FATFileNode)).Every (storeSpec vol) t
        (Settles (fun _ => Listing vol base' id (Sized vol (max size (pos + len))))
          (Listing vol base id (Sized vol size))) := by
  apply listing_step here (advanceSector_stays _ _)
  intro it t' _ here
  apply listing_then (writeData_listing now len pos it here)
  intro it t' here
  apply listing_then (markContentsModified_listing (fun _ holds => Sized.archived holds) now true here)
  intro _ t' here
  split
  · rename_i longer
    rw [max_eq_right longer.le]
    apply listing_setNode here fun _ holds => Sized.resize holds fits
    intro t' here
    have written := write_listing accepted lists
      (fun _ holds => holds.1.storable (by rw [holds.2]; omega)) here
    have cleans (t' : StoreView) (here : Listing vol base id (Sized vol (pos + len)) t') :
        (setSize id size).Every (storeSpec vol) t' (Relists vol base id (Sized vol size)) :=
      setNode_listing here fun _ holds => Sized.resize holds small
    apply listing_then (ends_scopeFail storeSpec_monotone written cleans)
    exact fun _ t' here => listing_node here fun _ _ _ => here
  · rw [max_eq_left (by omega)]
    exact listing_node here fun _ _ _ => here.lists lists

theorem writeBytes_listing (lists : base.Lists vol base) (file : FATFileNode)
    (now : FATNow) {len pos : Nat} (some' : size ≠ 0) (small : size < 2 ^ 32) (fits : pos + len < 2 ^ 32)
    (here : Listing vol base id (Sized vol size) t) :
    (writeBytes vol id file now len pos).Every (storeSpec vol) t
      (Relists vol base id (FATInode.IsStorable vol)) := by
  have done {k : Nat} (positive : k ≠ 0) {t' : StoreView} (here : Listing vol base id (Sized vol k) t') :
      Listing vol base id (FATInode.IsStorable vol) t' :=
    here.mono fun _ holds => holds.1.storable (by rw [holds.2]; exact positive)
  have isOld (t' : StoreView) (here : Listing vol base id (Sized vol size) t') := done some' here
  apply listing_node here
  intro inode _ holds
  rw [holds.2]
  dsimp only
  split
  · rename_i stop _
    cases stop with
    | throws code => exact isOld t here
    | panics => trivial
  apply ends_bind storeSpec_monotone (extendFile_listing accepted here) ?_ isOld
  intro _ t' here
  apply listing_node here
  intro inode' _ _
  apply ends_mono storeSpec_monotone (putBytes_listing accepted lists now _ _ small fits here)
  · exact fun _ t' here => done (by omega) here
  · exact isOld

theorem writeFile_listing (lists : base.Lists vol base) (file : FATFileNode) (now : FATNow)
    (request : WriteRequest) (here : Listing vol base id (fun inode => inode.IsStorable vol ∧
      (inode.startCluster ≠ 0 ∨ request.WritesNothing inode)) t) :
    (writeFile vol id file now request).Every (storeSpec vol) t
      (Relists vol base id (FATInode.IsStorable vol)) := by
  have storable : Listing vol base id (FATInode.IsStorable vol) t := here.mono fun _ holds => holds.1
  apply listing_node here
  intro inode known holds
  split
  · exact storable
  split
  · exact storable
  split
  · exact storable
  split
  · exact storable
  dsimp only
  split
  · exact storable
  split
  · exact storable
  split
  · exact storable
  rename_i isFile opened writable position bytes buffer fits
  have chain : inode.startCluster ≠ 0 := by
    rcases holds.2 with chain | nothing
    · exact chain
    · rcases nothing with refused | refused | refused | refused | refused | refused | refused
      · exact absurd refused isFile
      · exact absurd refused opened
      · exact absurd refused writable
      · exact absurd refused position
      · exact absurd refused bytes
      · exact absurd refused buffer
      · exact absurd refused fits
  rcases holds.1.chained chain with ⟨chained, some'⟩
  apply writeBytes_listing accepted lists file now some' chained.size
  · unfold fatMaxFileSize at fits ⊢
    omega
  · exact ⟨here.slots, here.others, here.hint, inode, known, chained, rfl⟩

theorem openFile_listing (lists : base.Lists vol base) (now : FATNow)
    (request : OpenRequest) (here : Listing vol base id (FATInode.IsStorable vol) t) :
    (openFile vol id now request).Every (storeSpec vol) t
      (Relists vol base id (FATInode.IsStorable vol)) := by
  have opens (t' : StoreView) (here : Listing vol base id (FATInode.IsStorable vol) t') : (do
      let inode ← node id
      pure { fatIteration := inode.iteration, fatChainIndex := 0
             cachedCluster := inode.startCluster } : Driver FATFileNode).Every (storeSpec vol) t'
        (Relists vol base id (FATInode.IsStorable vol)) :=
    listing_node here fun _ _ _ => here
  apply listing_node here
  intro inode _ _
  split
  · exact here
  split
  · exact here
  split
  · exact here
  split
  · exact here
  split
  · exact here
  split
  · have truncates : Listing vol base id (fun inode => inode.IsStorable vol ∧
        (inode.startCluster ≠ 0 ∨ (0 : Int) ≤ 0 ∨ (0 : Int) > fatMaxFileSize)) t :=
      here.mono fun _ holds => ⟨holds, .inr (.inl (le_refl 0))⟩
    apply listing_then (resizeFile_listing accepted lists now true truncates)
    exact fun _ t' here => opens t' here
  · exact opens t here

end

end Driver

end PadOS.Fat
