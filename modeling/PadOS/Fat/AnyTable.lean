import PadOS.Fat.FileWrite

/-! # Calls over a table that may hold anything

What a failing operation leaves in the directories does not depend on what the table
says: an access may deliver any value, fail, or run into an assertion. `StoreView` is
what is left of a state.
-/

namespace PadOS.Fat

open Program FATTableIterator

structure StoreView where
  slots : Nat → Nat → FATDirectoryEntryCombo
  memory : Memory

def DriverState.store (s : DriverState) : StoreView := ⟨s.slots, s.memory⟩

/-- The iterator of the allocation is at a data cluster, whatever it has read. -/
def storeSpec (vol : FATVolume) : Program.Spec FATCall FATCall.Result StoreView
  | .openIterator cluster, t, post => vol.isDataCluster cluster ∧ post (.ok ()) t
  | .iteratorCluster, t, post => ∀ cluster, vol.isDataCluster cluster → post (.ok cluster) t
  | .readSlot cluster slot, t, post =>
    post (.ok (t.slots cluster slot)) t ∧ ∀ code, post (.error (.throws code)) t
  | .writeSlot cluster slot entry, t, post =>
    post (.ok ()) { t with slots := setSlot t.slots cluster slot entry }
  | .recollect, t, post => post (.ok t.memory) t
  | .update change, t, post => post (.ok ()) { t with memory := change t.memory }
  | _, t, post => ∀ r, post r t

structure StoreRelated (vol : FATVolume) (s : DriverState) (t : StoreView) : Prop where
  store : s.store = t
  cursor : Window vol s.cursor

variable {vol : FATVolume} {t t' : StoreView} {α β : Type} {id cluster value : Nat}

theorem storeSpec_monotone : (storeSpec vol).Monotone := by
  intro e t post post' weaker
  cases e with
  | openIterator cluster => exact fun h => ⟨h.1, weaker _ _ h.2⟩
  | iteratorCluster => exact fun h cluster data => weaker _ _ (h cluster data)
  | readSlot cluster slot => exact fun h => ⟨weaker _ _ h.1, fun code => weaker _ _ (h.2 code)⟩
  | writeSlot cluster slot entry | recollect | update change => exact weaker _ _
  | _ => exact fun h r => weaker _ _ (h r)

theorem attempt_store (moment : Moment) {value : α} {s s' : DriverState} {clock : Nat}
    {post : Except Stop α → StoreView → Prop} (same : s.store = s'.store)
    (still : s'.cursor = s.cursor) (cursor : Window vol s.cursor) (done : post (.ok value) s.store)
    (fails : ∀ code, post (.error (.throws code)) s.store) :
    StoreRelated vol { (attempt moment value s s').2 with clock } s.store ∧
      post (attempt moment value s s').1 s.store := by
  unfold attempt
  split
  · exact ⟨⟨rfl, cursor⟩, fails _⟩
  · exact ⟨⟨same.symm, still ▸ cursor⟩, done⟩

/-- Whatever fails, and whatever is stale. -/
theorem serve_meets_store (accepted : vol.Accepted) (moments : Nat → Moment) :
    Program.Meets (serve vol moments) (fun _ _ => True) (storeSpec vol) (StoreRelated vol) := by
  intro e s t post related _ spec
  obtain ⟨rfl, cursor⟩ := related
  cases e with
  | getEntry cluster | setEntry cluster value => exact ⟨_, ⟨rfl, cursor⟩, spec _⟩
  | openIterator cluster => exact ⟨_, ⟨rfl, Window.start spec.1⟩, spec.2⟩
  | iteratorGetEntry =>
    refine ⟨_, ⟨rfl, ?_⟩, spec _⟩
    show Window vol (s.cursor.getEntry vol _ s.table.disk).2
    rw [getEntry_iterator]
    exact (update_spec accepted cursor _).window
  | iteratorSetEntry value =>
    refine ⟨_, ⟨rfl, ?_⟩, spec _⟩
    show Window vol (s.cursor.setEntry vol _ value s.table.disk).2.1
    rw [setEntry_iterator]
    exact (update_spec accepted cursor _).window
  | iteratorCluster => exact ⟨_, ⟨rfl, cursor⟩, spec _ cursor.data⟩
  | iteratorIncrement =>
    rcases increment_spec accepted cursor with ⟨next, data, _, moved⟩
    refine ⟨_, ⟨rfl, ?_⟩, spec _⟩
    show Window vol (s.cursor.increment vol).2
    rw [moved]
    exact cursor.moveTo data
  | readSlot cluster slot => exact ⟨_, attempt_store (moments s.clock) rfl rfl cursor spec.1 spec.2⟩
  | writeSlot cluster slot entry => exact ⟨_, ⟨rfl, cursor⟩, spec⟩
  | transfer =>
    exact ⟨_, attempt_store (moments s.clock) rfl rfl cursor (spec _) fun _ => spec _⟩
  | updateFSInfo =>
    have store : s.store = DriverState.store
      { s with fsInfo := ⟨s.memory.freeClusters, s.memory.lastAllocatedCluster⟩ } := rfl
    exact ⟨_, attempt_store (moments s.clock) store rfl cursor (spec _) fun _ => spec _⟩
  | recollect | update change => exact ⟨_, ⟨rfl, cursor⟩, spec⟩

/-! ## What stays -/

/-- The directories and the inodes are the same, and the hint is one. -/
structure Stays (vol : FATVolume) (t t' : StoreView) : Prop where
  slots : t'.slots = t.slots
  nodes : t'.memory.nodes = t.memory.nodes
  deleted : t'.memory.deleted = t.memory.deleted
  hint : vol.isDataCluster t.memory.lastAllocatedCluster →
    vol.isDataCluster t'.memory.lastAllocatedCluster

theorem Stays.refl : Stays vol t t := ⟨rfl, rfl, rfl, fun data => data⟩

theorem Stays.trans {t'' : StoreView} (first : Stays vol t t') (second : Stays vol t' t'') :
    Stays vol t t'' :=
  ⟨second.slots.trans first.slots, second.nodes.trans first.nodes,
    second.deleted.trans first.deleted, fun data => second.hint (first.hint data)⟩

/-- However a program ends, the directories and the inodes have stayed. -/
abbrev Staying (vol : FATVolume) (t : StoreView) (returns : α → Prop := fun _ => True) :
    Except Stop α → StoreView → Prop :=
  Settles (fun a t' => Stays vol t t' ∧ returns a) (Stays vol t)

section Staying

variable {returns : α → Prop} {finally' : β → Prop} {p : Driver α} {f : α → Driver β}

section

variable (every : p.Every (storeSpec vol) t (Staying vol t returns))

include every

theorem staying_bind
    (rest : ∀ a t', returns a → Stays vol t t' →
      (f a).Every (storeSpec vol) t' (Staying vol t' finally')) :
    (p >>= f).Every (storeSpec vol) t (Staying vol t finally') := by
  apply ends_bind storeSpec_monotone every
  · intro a t' returned
    apply ends_mono storeSpec_monotone (rest a t' returned.2 returned.1)
    · exact fun b t'' after => ⟨returned.1.trans after.1, after.2⟩
    · exact fun t'' after => returned.1.trans after
  · exact fun _ stays => stays

theorem staying_scopeFail {cleanup : Driver Unit}
    (cleans : ∀ t', cleanup.Every (storeSpec vol) t' (Staying vol t')) :
    (p.scopeFail cleanup).Every (storeSpec vol) t (Staying vol t returns) := by
  apply ends_scopeFail storeSpec_monotone every
  intro t' stays
  apply ends_mono storeSpec_monotone (cleans t')
  · exact fun _ t'' after => stays.trans after.1
  · exact fun t'' after => stays.trans after

theorem staying_handle {caught : PErrorCode → Driver α}
    (handles : ∀ code t', (caught code).Every (storeSpec vol) t' (Staying vol t' returns)) :
    (p.handle caught).Every (storeSpec vol) t (Staying vol t returns) := by
  apply ends_handle storeSpec_monotone every
  intro code t' stays
  apply ends_mono storeSpec_monotone (handles code t')
  · exact fun _ t'' after => ⟨stays.trans after.1, after.2⟩
  · exact fun t'' after => stays.trans after

end

theorem staying_pure {a : α} (returned : returns a) :
    (pure a : Driver α).Every (storeSpec vol) t (Staying vol t returns) := ⟨.refl, returned⟩

theorem staying_throws (code : PErrorCode) :
    (Program.throws code : Driver α).Every (storeSpec vol) t (Staying vol t returns) :=
  Stays.refl

theorem staying_panics :
    (Program.panics : Driver α).Every (storeSpec vol) t (Staying vol t returns) := trivial

/-- What may be returned by a call that says nothing. -/
theorem settles_any {r : Except Stop α} (returned : ∀ a, returns a) :
    Staying vol t returns r t := by
  rcases r with (_ | _) | a
  · exact .refl
  · trivial
  · exact ⟨.refl, returned a⟩

end Staying

/-! ## The table -/

namespace Driver

theorem getEntry_stays :
    (getEntry cluster).Every (storeSpec vol) t (Staying vol t) :=
  fun _ => settles_any fun _ => trivial

theorem setEntry_stays :
    (setEntry cluster value).Every (storeSpec vol) t (Staying vol t) :=
  fun _ => settles_any fun _ => trivial

theorem updateFSInfo_stays : (updateFSInfo vol).Every (storeSpec vol) t (Staying vol t) := by
  unfold updateFSInfo
  split
  · exact fun _ => settles_any fun _ => trivial
  · exact staying_pure trivial

/-- What is done to the counter and to the hint. -/
theorem update_stays {change : Memory → Memory} (nodes : (change t.memory).nodes = t.memory.nodes)
    (deleted : (change t.memory).deleted = t.memory.deleted)
    (hint : vol.isDataCluster t.memory.lastAllocatedCluster →
      vol.isDataCluster (change t.memory).lastAllocatedCluster) :
    (update change).Every (storeSpec vol) t (Staying vol t) :=
  ⟨⟨rfl, nodes, deleted, hint⟩, trivial⟩

theorem follow_stays (index : Nat) :
    (follow vol index cluster).Every (storeSpec vol) t (Staying vol t) := by
  induction index generalizing cluster t with
  | zero => exact staying_pure trivial
  | succ index ih =>
    apply staying_bind getEntry_stays
    intro next t' _ _
    split
    · exact ih
    · exact staying_pure trivial

theorem getChainEntry_stays (index : Nat) :
    (getChainEntry vol cluster index).Every (storeSpec vol) t (Staying vol t) := by
  unfold getChainEntry
  split
  · exact staying_throws _
  · exact follow_stays index

theorem seekSlot_stays (start index : Nat) :
    (seekSlot vol start index).Every (storeSpec vol) t (Staying vol t) := by
  unfold seekSlot
  dsimp only
  split
  · split
    · exact staying_pure trivial
    · exact staying_throws _
  split
  · split
    · exact staying_pure trivial
    · exact staying_throws _
  apply staying_bind (getChainEntry_stays _)
  intro next t' _ _
  split
  · split
    · exact staying_throws _
    · exact staying_pure trivial
  · exact staying_throws _

theorem chainLengthLoop_stays (rounds count : Nat) :
    (chainLengthLoop vol rounds count cluster).Every (storeSpec vol) t (Staying vol t) := by
  induction rounds generalizing count cluster t with
  | zero => exact staying_throws _
  | succ rounds ih =>
    apply staying_bind getEntry_stays
    intro next t' _ _
    split
    · exact staying_pure trivial
    split
    · exact staying_throws _
    · exact ih _

theorem getChainLength_stays :
    (getChainLength vol cluster).Every (storeSpec vol) t (Staying vol t) := by
  unfold getChainLength
  split
  · exact staying_throws _
  · exact chainLengthLoop_stays _ _

theorem clearLoop_stays (rounds : Nat) :
    (clearLoop vol rounds cluster).Every (storeSpec vol) t (Staying vol t) := by
  induction rounds generalizing cluster t with
  | zero => exact staying_pure trivial
  | succ rounds ih =>
    unfold clearLoop
    split
    · apply staying_bind getEntry_stays
      intro next t' _ _
      split
      · exact staying_pure trivial
      apply staying_bind setEntry_stays
      intro _ t' _ _
      have counted : (update fun m =>
          if m.freeClusters < vol.totalClusters then { m with freeClusters := m.freeClusters + 1 }
          else m).Every (storeSpec vol) t' (Staying vol t') := by
        apply update_stays
        · split <;> rfl
        · split <;> rfl
        · split <;> exact fun data => data
      apply staying_bind counted
      intro _ t' _ _
      exact ih
    · exact staying_pure trivial

theorem clearFATChain_stays :
    (clearFATChain vol cluster).Every (storeSpec vol) t (Staying vol t) := by
  unfold clearFATChain
  split
  · exact staying_throws _
  apply staying_bind (clearLoop_stays _)
  intro last t' _ _
  apply staying_bind updateFSInfo_stays
  intro _ t' _ _
  split
  · exact staying_throws _
  · exact staying_pure trivial

theorem clearFATChainAfterFailureNoThrow_stays :
    (clearFATChainAfterFailureNoThrow vol cluster).Every (storeSpec vol) t (Staying vol t) := by
  unfold clearFATChainAfterFailureNoThrow
  split
  · apply staying_handle clearFATChain_stays
    exact fun _ _ => staying_pure trivial
  · exact staying_pure trivial

theorem releaseAllocated_stays (firstCluster detachedCluster : Nat) :
    (releaseAllocated vol firstCluster detachedCluster).Every (storeSpec vol) t
      (Staying vol t) := by
  apply staying_bind clearFATChainAfterFailureNoThrow_stays
  intro _ _ _ _
  exact clearFATChainAfterFailureNoThrow_stays

/-! ## Allocation -/

theorem claimCluster_stays (firstCluster lastCluster allocatedClusterCount : Nat) :
    (claimCluster vol firstCluster lastCluster allocatedClusterCount).Every (storeSpec vol) t
      (Staying vol t fun linked => vol.isDataCluster linked.1) := by
  have stored : (perform (.iteratorSetEntry endFatEntry)).Every (storeSpec vol) t
      (Staying vol t) := fun _ => settles_any fun _ => trivial
  apply staying_bind (staying_scopeFail stored fun _ => releaseAllocated_stays _ _)
  intro _ t' _ _
  have delivered : (perform .iteratorCluster).Every (storeSpec vol) t'
      (Staying vol t' fun cluster => vol.isDataCluster cluster) :=
    fun cluster data => ⟨.refl, data⟩
  apply staying_bind delivered
  intro detachedCluster t' data _
  have counted : (update fun m =>
      if m.freeClusters > 0 then { m with freeClusters := m.freeClusters - 1 } else m).Every
        (storeSpec vol) t' (Staying vol t') := by
    apply update_stays
    · split <;> rfl
    · split <;> rfl
    · split <;> exact fun data => data
  apply staying_bind counted
  intro _ t' _ _
  have finish (linked : Nat × Nat) (t' : StoreView)
      (both : vol.isDataCluster linked.1 ∧ vol.isDataCluster linked.2) : (do
        update fun m => { m with lastAllocatedCluster := linked.2 }
        pure linked : Driver (Nat × Nat)).Every (storeSpec vol) t'
          (Staying vol t' fun linked => vol.isDataCluster linked.1) := by
    have hinted : (update fun m => { m with lastAllocatedCluster := linked.2 }).Every (storeSpec vol)
        t' (Staying vol t') := update_stays rfl rfl fun _ => both.2
    apply staying_bind hinted
    intro _ _ _ _
    exact staying_pure both.1
  split
  · split
    · exact finish _ _ ⟨data, data⟩
    · exact staying_panics
  split
  · rename_i both
    simp only [Bool.and_eq_true] at both
    apply staying_bind (staying_scopeFail setEntry_stays fun _ => releaseAllocated_stays _ _)
    intro _ _ _ _
    exact finish _ _ ⟨both.1, data⟩
  · exact staying_panics

theorem allocateLoop_stays (clusterCount rounds firstCluster lastCluster allocatedClusterCount : Nat) :
    (allocateLoop vol clusterCount rounds firstCluster lastCluster allocatedClusterCount).Every
      (storeSpec vol) t (Staying vol t) := by
  induction rounds generalizing firstCluster lastCluster allocatedClusterCount t with
  | zero => exact staying_pure trivial
  | succ rounds ih =>
    have read : (perform .iteratorGetEntry).Every (storeSpec vol) t (Staying vol t) :=
      fun _ => settles_any fun _ => trivial
    have moved (t : StoreView) : (perform .iteratorIncrement).Every (storeSpec vol) t
        (Staying vol t) := fun _ => settles_any fun _ => trivial
    apply staying_bind (staying_scopeFail read fun _ => releaseAllocated_stays _ _)
    intro value t' _ _
    split
    · apply staying_bind (claimCluster_stays _ _ _)
      intro linked t' _ _
      split
      · exact staying_pure trivial
      apply staying_bind (moved _)
      intro _ _ _ _
      exact ih _ _ _
    · apply staying_bind (moved _)
      intro _ _ _ _
      exact ih _ _ _

/-- A chain begins at a data cluster. -/
theorem allocateClusters_stays (hint : vol.isDataCluster t.memory.lastAllocatedCluster)
    (clusterCount : Nat) : (allocateClusters vol clusterCount).Every (storeSpec vol) t
      (Staying vol t fun chain => vol.isDataCluster chain.1 ∧ vol.isDataCluster chain.2) := by
  unfold allocateClusters
  split
  · exact staying_throws _
  split
  · exact staying_throws _
  have recalled : recollect.Every (storeSpec vol) t
      (Staying vol t fun m => vol.isDataCluster m.lastAllocatedCluster) := ⟨.refl, hint⟩
  apply staying_bind recalled
  intro m t' hint _
  have opened : (perform (.openIterator m.lastAllocatedCluster)).Every (storeSpec vol) t'
      (Staying vol t') := ⟨hint, .refl, trivial⟩
  apply staying_bind opened
  intro _ t' _ _
  apply staying_bind (allocateLoop_stays _ _ _ _ _)
  intro ⟨firstCluster, lastCluster, allocated⟩ t' _ _
  apply staying_bind (staying_scopeFail updateFSInfo_stays fun _ => releaseAllocated_stays _ _)
  intro _ t' _ _
  split
  · exact staying_scopeFail (staying_throws _) fun _ => releaseAllocated_stays _ _
  split
  · rename_i both
    simp only [Bool.and_eq_true] at both
    exact staying_pure both
  · exact staying_panics

/-! ## The sectors of a file -/

theorem store_recall {f : Memory → Driver β} (rest : (f t.memory).Every (storeSpec vol) t post) :
    (recollect >>= f).Every (storeSpec vol) t post := rest

theorem store_node {id : Nat} {inode : FATInode} {f : FATInode → Driver β}
    (known : t.memory.nodes id = some inode) (rest : (f inode).Every (storeSpec vol) t post) :
    (node id >>= f).Every (storeSpec vol) t post :=
  every_node (fun _ holds => holds) known rest

theorem node_stays (id : Nat) : (node id).Every (storeSpec vol) t (Staying vol t) := by
  unfold node
  apply store_recall
  split
  · exact staying_pure trivial
  · exact staying_panics

section

variable (it : FATClusterSectorIterator)

include it

theorem incrementSector_stays (sectors : Nat) :
    (incrementSector vol it sectors).Every (storeSpec vol) t (Staying vol t) := by
  unfold incrementSector
  split
  · exact staying_throws _
  split
  · exact staying_pure trivial
  split
  · split
    · exact staying_pure trivial
    · exact staying_pure trivial
  split
  · exact staying_pure trivial
  apply staying_bind (getChainEntry_stays _)
  intro next t' _ _
  split
  · exact staying_pure trivial
  split
  · split
    · exact staying_throws _
    · exact staying_pure trivial
  · exact staying_throws _

theorem advanceSector_stays (sectors : Nat) :
    (advanceSector vol it sectors).Every (storeSpec vol) t (Staying vol t) := by
  apply staying_bind (incrementSector_stays it sectors)
  intro ⟨more, it⟩ t' _ _
  dsimp only
  split
  · exact staying_pure trivial
  · exact staying_throws _

theorem transferSector_stays :
    (transferSector vol it).Every (storeSpec vol) t (Staying vol t) := by
  unfold transferSector
  split
  · exact staying_throws _
  · exact fun _ => settles_any fun _ => trivial

end

theorem clearRangeLoop_stays (rounds : Nat) (it : FATClusterSectorIterator)
    (currentPosition endPosition : Nat) :
    (clearRangeLoop vol rounds it currentPosition endPosition).Every (storeSpec vol) t
      (Staying vol t) := by
  induction rounds generalizing it currentPosition t with
  | zero => exact staying_pure trivial
  | succ rounds ih =>
    unfold clearRangeLoop
    split
    · apply staying_bind (transferSector_stays it)
      intro _ t' _ _
      dsimp only
      split
      · apply staying_bind (advanceSector_stays it 1)
        exact fun it t' _ _ => ih _ _
      · exact staying_pure trivial
    · exact staying_pure trivial

theorem clearFileRange_stays (startPosition endPosition : Nat) :
    (clearFileRange vol id startPosition endPosition).Every (storeSpec vol) t (Staying vol t) := by
  unfold clearFileRange
  split
  · exact staying_pure trivial
  apply staying_bind (node_stays id)
  intro inode t' _ _
  apply staying_bind (advanceSector_stays _ _)
  exact fun it t' _ _ => clearRangeLoop_stays _ _ _ _

end Driver

end PadOS.Fat
