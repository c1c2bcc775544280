import PadOS.Fat.ChainOwnership

/-! # Changing the chain of one inode

`SetChainLength` and the loading of metadata keep the ownership of clusters, whatever
fails on the way. Up to the new length the chain of the inode stays, and those of the
others stay altogether.
-/

namespace PadOS.Fat

open Program List Option

variable {vol : FATVolume} {t t' t'' : FATView} {id n : Nat} {inode : FATInode} {l : List Nat}
  {chains : Nat → List Nat}

/-- An inode may have got another chain; of what both chains have, nothing has changed. -/
structure Changed (vol : FATVolume) (id n : Nat) (t : FATView) (chains : Nat → List Nat) (l : List Nat)
    (t' : FATView) : Prop where
  owns : Owns vol t' (Function.update chains id l)
  others : ∀ x, x ∉ chains id → t.cells x ≠ .free → t'.cells x = t.cells x
  front : l.take (min (chains id).length n) = (chains id).take (min (chains id).length n)

def Resized (vol : FATVolume) (id n : Nat) (t : FATView) (chains : Nat → List Nat) (t' : FATView) : Prop :=
  ∃ l, Changed vol id n t chains l t'

theorem Resized.refl (owns : Owns vol t chains) : Resized vol id n t chains t :=
  ⟨chains id, by rw [Function.update_eq_self]; exact owns, fun _ _ _ => rfl, rfl⟩

theorem Resized.claimed (owns : Owns vol t chains) (claimed : Claimed vol t t') :
    Resized vol id n t chains t' := by
  refine ⟨chains id, ?_, fun x _ used => claimed.kept x used, rfl⟩
  rw [Function.update_eq_self]
  exact owns.claimed claimed

theorem Resized.unmoved (resized : Resized vol id n t chains t') (same : Unmoved t' t'') :
    Resized vol id n t chains t'' := by
  rcases resized with ⟨l, owns, others, front⟩
  refine ⟨l, owns.unmoved same, fun x outside used => ?_, front⟩
  rw [same.cells]
  exact others x outside used

namespace Driver

section

variable (known : t.memory.nodes id = some inode) (change : FATInode → FATInode)

include known change

theorem withNode_self :
    (withNode t id change).memory.nodes id = some (change inode) := by
  show (if id = id then (t.memory.nodes id).map change else t.memory.nodes id) = _
  rw [if_pos rfl, known]
  rfl

theorem withNode_nodes (i : Nat) :
    (withNode t id change).memory.nodes i = if i = id then some (change inode) else t.memory.nodes i := by
  show (if i = id then (t.memory.nodes i).map change else t.memory.nodes i) = _
  split
  · rename_i same
    rw [same, known]
    rfl
  · rfl

end

/-- Other members of an inode have changed. -/
theorem withNode_owns (owns : Owns vol t chains) {change : FATInode → FATInode}
    (startCluster : ∀ i, (change i).startCluster = i.startCluster)
    (endCluster : ∀ i, (change i).endCluster = i.endCluster)
    (count : ∀ i, (change i).allocatedClusterCount = i.allocatedClusterCount) :
    Owns vol (withNode t id change) chains := by
  have known (i : Nat) (inode' : FATInode) (node : (withNode t id change).memory.nodes i = some inode') :
      ∃ inode, t.memory.nodes i = some inode ∧ inode'.startCluster = inode.startCluster ∧
        inode'.endCluster = inode.endCluster ∧
        inode'.allocatedClusterCount = inode.allocatedClusterCount := by
    change (if i = id then (t.memory.nodes i).map change else t.memory.nodes i) = _ at node
    split at node
    · rcases map_eq_some_iff.1 node with ⟨inode, known, rfl⟩
      exact ⟨inode, known, startCluster inode, endCluster inode, count inode⟩
    · exact ⟨inode', node, rfl, rfl, rfl⟩
  constructor
  · exact owns.counts
  · exact owns.hint
  · intro i inode' node
    rcases known i inode' node with ⟨inode, known, start, _, _⟩
    rw [start]
    exact owns.chain i inode known
  · intro i node
    apply owns.unused
    change (if i = id then (t.memory.nodes i).map change else t.memory.nodes i) = _ at node
    split at node
    · exact map_eq_none_iff.1 node
    · exact node
  · exact owns.apart
  · intro i inode' node
    rcases known i inode' node with ⟨inode, known, start, last, count⟩
    have metadata := owns.metadata i inode known
    unfold FATInode.Describes at metadata ⊢
    rw [start, last, count]
    exact metadata

/-! ## Truncation -/

/-- The inode has lost its chain, the clusters of which may have been cleared. -/
structure Detached (vol : FATVolume) (id : Nat) (t : FATView) (chains : Nat → List Nat) (t' : FATView) :
    Prop where
  counts : t'.CountsFree vol
  hint : vol.isDataCluster t'.memory.lastAllocatedCluster
  nodes : ∃ inode, inode.startCluster = 0 ∧ inode.endCluster = 0 ∧ inode.allocatedClusterCount = 0 ∧
    ∀ i, t'.memory.nodes i = if i = id then some inode else t.memory.nodes i
  kept : ∀ x, x ∉ chains id → t.cells x ≠ .free → t'.cells x = t.cells x

namespace Detached

theorem resized (owns : Owns vol t chains) (detached : Detached vol id t chains t')
    (shorter : n = 0 ∨ chains id = []) : Resized vol id n t chains t' := by
  rcases detached with ⟨counts, hint, ⟨inode, start, last, count, nodes⟩, kept⟩
  refine ⟨[], ?_, kept, by rcases shorter with rfl | none <;> simp [*]⟩
  apply owns.change counts hint nodes kept
  · rintro _ ⟨⟩
    refine ⟨.inl ⟨.inl start, rfl⟩, fun _ => ⟨last, count⟩, fun _ some' => absurd count some'⟩
  · intro none
    cases none
  · intro x member
    cases member

section

variable (detached : Detached vol id t chains t')

include detached

theorem unmoved (same : Unmoved t' t'') :
    Detached vol id t chains t'' := by
  rcases detached with ⟨counts, hint, ⟨inode, start, last, count, nodes⟩, kept⟩
  rcases same with ⟨cells, nodes', free, hint'⟩
  constructor
  · show t''.memory.freeClusters = (freeCells vol t''.cells).card
    rw [free, cells]
    exact counts
  · rw [hint']
    exact hint
  · refine ⟨inode, start, last, count, fun i => ?_⟩
    rw [nodes']
    exact nodes i
  · rw [cells]
    exact kept

theorem cleared (cleared : Cleared vol l t' t'')
    (origin : ∀ x ∈ l, x ∈ chains id ∨ t.cells x = .free) : Detached vol id t chains t'' := by
  rcases detached with ⟨_, hint, ⟨inode, start, last, count, nodes⟩, kept⟩
  constructor
  · exact cleared.counts
  · rw [cleared.hint]
    exact hint
  · refine ⟨inode, start, last, count, fun i => ?_⟩
    rw [FATView.nodes_of_files cleared.files]
    exact nodes i
  · intro x outside used
    have untouched : x ∉ l := by
      intro member
      rcases origin x member with mine | free
      · exact outside mine
      · exact used free
    rw [cleared.outside x untouched]
    exact kept x outside used

theorem nextIteration :
    Detached vol id t chains
      (withNode t' id fun inode => { inode with iteration := (inode.iteration + 1) % 2 ^ 32 }) := by
  rcases detached with ⟨counts, hint, ⟨inode, start, last, count, nodes⟩, kept⟩
  refine ⟨counts, hint, ⟨{ inode with iteration := (inode.iteration + 1) % 2 ^ 32 }, start, last, count,
    fun i => ?_⟩, kept⟩
  show (if i = id then (t'.memory.nodes i).map _ else t'.memory.nodes i) = _
  rw [nodes]
  split
  · rfl
  · rfl

end

end Detached

theorem restored (known : t.memory.nodes id = some inode) :
    Unmoved t (withNode (withNode t id fun inode => inode.setChain 0 0 0) id fun i =>
      i.setChain inode.startCluster inode.endCluster inode.allocatedClusterCount) := by
  refine ⟨rfl, ?_, rfl, rfl⟩
  funext i
  rw [withNode_nodes (withNode_self known _), withNode_nodes known]
  split
  · rename_i same
    rw [same, known]
    rfl
  · rfl

section

variable (accepted : vol.Accepted) (owns : Owns vol t chains)
  (known : t.memory.nodes id = some inode)

include accepted owns known

theorem truncateChain_every
    (data : vol.isDataCluster inode.startCluster)
    (updateICache : Bool) :
    (truncateChain vol id updateICache).Every (viewSpec vol) t
      (Ends (fun _ => Resized vol id 0 t chains) (Resized vol id 0 t chains)) := by
  have mine := (owns.chain id inode known).linked data
  have emptied : Detached vol id t chains (withNode t id fun inode => inode.setChain 0 0 0) :=
    ⟨owns.counts, owns.hint, ⟨inode.setChain 0 0 0, rfl, rfl, rfl, withNode_nodes known _⟩,
      fun _ _ _ => rfl⟩
  unfold truncateChain
  apply after_node known
  apply after_setNode
  have written : ((write vol id).scopeFail (setNode id fun i =>
      i.setChain inode.startCluster inode.endCluster inode.allocatedClusterCount)).Every (viewSpec vol)
        (withNode t id fun inode => inode.setChain 0 0 0)
        (Ends (fun _ => Unmoved (withNode t id fun inode => inode.setChain 0 0 0))
          (Resized vol id 0 t chains)) := by
    apply ends_scopeFail viewSpec_monotone (write_every (withNode_self known _))
    rintro _ rfl
    exact (Resized.refl owns).unmoved (restored known)
  apply ends_bind viewSpec_monotone written
  · intro _ t₁ same
    have detached := (emptied.unmoved same).nextIteration
    have cells : t₁.cells = t.cells := same.cells
    apply after_setNode
    -- the chain is still there
    have clear {t' : FATView} (detached : Detached vol id t chains t') (cells : t'.cells = t.cells) :
        (clearFATChain vol inode.startCluster).Every (viewSpec vol) t'
          (Ends (fun _ => Resized vol id 0 t chains) (Resized vol id 0 t chains)) := by
      have linked : Linked t'.cells inode.startCluster (chains id) := cells ▸ mine.1
      apply ends_mono viewSpec_monotone (clearFATChain_every accepted detached.counts linked mine.2)
      · exact fun _ _ cleared => (detached.cleared cleared fun _ => .inl).resized owns (.inl rfl)
      · exact fun _ cleared => (detached.cleared cleared fun _ => .inl).resized owns (.inl rfl)
    cases updateICache with
    | false => exact clear detached cells
    | true =>
      apply ends_bind viewSpec_monotone (setMapping_every _ _)
      · intro _ t₂ same'
        exact clear (detached.unmoved same') (same'.cells.trans cells)
      · rintro _ rfl
        exact detached.resized owns (.inl rfl)
  · exact fun _ resized => resized

/-! ## First allocation -/

theorem startChain_every
    (start : inode.startCluster = 0) (updateICache : Bool) :
    (startChain vol id n updateICache).Every (viewSpec vol) t
      (Ends (fun _ => Resized vol id n t chains) (Resized vol id n t chains)) := by
  have none' : chains id = [] := by
    rcases owns.chain id inode known with ⟨_, none'⟩ | ⟨data, _⟩
    · exact none'
    · rw [start, FATTable.isDataCluster_iff] at data
      omega
  unfold startChain
  apply ends_bind viewSpec_monotone (allocateClusters_every accepted owns.counts owns.hint n)
  · intro ⟨first, last⟩ t₁ ⟨l, made, length, positive⟩
    have some' : first ≠ 0 := by
      rcases made.chain with ⟨rfl, _⟩ | ⟨linked, _⟩
      · rw [← length] at positive
        cases positive
      · have data := (made.fresh _ linked.mem_head).1
        rw [FATTable.isDataCluster_iff] at data
        omega
    have linked := made.linked some'
    have known₁ : t₁.memory.nodes id = some inode := by
      rw [FATView.nodes_of_files made.files]
      exact known
    have nodes (change : FATInode → FATInode) (i : Nat) : (withNode t₁ id change).memory.nodes i =
          if i = id then some (change inode) else t.memory.nodes i := by
      rw [withNode_nodes known₁, FATView.nodes_of_files made.files]
    apply after_setNode
    have started : Resized vol id n t chains (withNode t₁ id fun inode => inode.setChain first last n) := by
      refine ⟨l, ?_, fun x _ used => made.kept x used, by simp [none']⟩
      apply owns.change
      · exact made.counts
      · exact made.hint
      · exact nodes _
      · exact fun x _ used => made.kept x used
      · rintro _ ⟨⟩
        refine ⟨.inr ⟨linked.2 _ linked.1.mem_head, linked⟩, fun zero => absurd zero some', fun _ _ => ?_⟩
        rcases made.chain with ⟨_, zero⟩ | ⟨_, isLast⟩
        · exact absurd zero some'
        · exact ⟨linked.1.head_eq, isLast, length⟩
      · intro absent
        cases absent
      · exact fun x member => .inr (made.fresh x member).2
    have detached : Detached vol id t chains (withNode (withNode t₁ id fun inode =>
        inode.setChain first last n) id fun inode => inode.setChain 0 0 0) := by
      refine ⟨made.counts, made.hint, ⟨inode.setChain 0 0 0, rfl, rfl, rfl, fun i => ?_⟩,
        fun x _ used => made.kept x used⟩
      rw [withNode_nodes (withNode_self known₁ _), nodes]
      split
      · rfl
      · rfl
    have written : ((write vol id).scopeFail do
        setNode id fun inode => inode.setChain 0 0 0
        clearFATChainAfterFailureNoThrow vol first).Every (viewSpec vol)
          (withNode t₁ id fun inode => inode.setChain first last n)
          (Ends (fun _ => Unmoved (withNode t₁ id fun inode => inode.setChain first last n))
            (Resized vol id n t chains)) := by
      apply ends_scopeFail viewSpec_monotone (write_every (withNode_self known₁ _))
      rintro _ rfl
      apply after_setNode
      apply ends_mono viewSpec_monotone
        (clearAfterFailure_every accepted detached.counts linked.1 linked.2)
      · intro _ _ cleared
        exact (detached.cleared cleared fun x member => .inr (made.fresh x member).2).resized owns
          (.inr none')
      · exact fun _ impossible => impossible.elim
    apply ends_bind viewSpec_monotone written
    · intro _ t₂ same
      have known₂ : t₂.memory.nodes id = some (inode.setChain first last n) := by
        rw [same.nodes]
        exact withNode_self known₁ _
      apply after_setNode
      have iterated : Resized vol id n t chains (withNode t₂ id fun inode =>
          { inode with iteration := (inode.iteration + 1) % 2 ^ 32 }) := by
        rcases started.unmoved same with ⟨l', owns', others, front⟩
        exact ⟨l', withNode_owns owns' (fun _ => rfl) (fun _ => rfl) fun _ => rfl, others, front⟩
      split
      · apply after_node (withNode_self known₂ _)
        apply ends_mono viewSpec_monotone (setMapping_every _ _)
        · exact fun _ _ same' => iterated.unmoved same'
        · rintro _ rfl
          exact iterated
      · exact iterated
    · exact fun _ resized => resized
  · exact fun _ claimed => .claimed owns claimed

end

/-! ## Growth -/

/-- The chain and the new one behind it. -/
theorem grown (owns : Owns vol t chains) (known : t.memory.nodes id = some inode)
    (data : vol.isDataCluster inode.startCluster) (loaded : inode.allocatedClusterCount ≠ 0)
    (longer : inode.allocatedClusterCount < n) {first last : Nat} {t₁ t₂ : FATView}
    (made : Allocated vol l first last t t₁) (length : l.length = n - inode.allocatedClusterCount)
    (cells : t₂.cells = Function.update t₁.cells inode.endCluster (.next first))
    (counts : t₂.memory.freeClusters = t₁.memory.freeClusters)
    (hint : t₂.memory.lastAllocatedCluster = t₁.memory.lastAllocatedCluster) {iteration : Nat}
    (nodes : ∀ i, t₂.memory.nodes i = if i = id then
      some { inode.setChain inode.startCluster last n with iteration } else t.memory.nodes i) :
    Resized vol id n t chains t₂ := by
  have notRoot := Area.not_fixedRoot_of_data data
  have mine := (owns.chain id inode known).linked data
  rcases (owns.metadata id inode known).2 notRoot loaded with ⟨_, isLast, count⟩
  have endCluster := mem_of_getLast? isLast
  have used := owns.used id
  rcases made.chain with ⟨rfl, _⟩ | ⟨fresh, isEnd⟩
  · rw [length_nil] at length
    omega
  have still : Linked t₁.cells inode.startCluster (chains id) :=
    mine.1.congr fun x member => made.kept x (used x member)
  have apart : List.Disjoint (chains id) l := fun x member member' =>
    used x member (made.fresh x member').2
  have joined := still.append fresh apart
  have last' : (chains id).getLast still.ne_nil = inode.endCluster := by
    rw [getLast?_eq_some_getLast still.ne_nil] at isLast
    exact some.inj isLast
  rw [last', ← cells] at joined
  have others : ∀ x, x ∉ chains id → t.cells x ≠ .free → t₂.cells x = t.cells x := by
    intro x outside used
    have other : x ≠ inode.endCluster := fun same => outside (same ▸ endCluster)
    rw [cells, Function.update_of_ne other]
    exact made.kept x used
  have inside : ∀ x ∈ chains id ++ l, vol.isDataCluster x := by
    intro x member
    rcases mem_append.1 member with member | member
    · exact mine.2 x member
    · exact (made.fresh x member).1
  refine ⟨chains id ++ l, ?_, others, ?_⟩
  · apply owns.change
    · show t₂.memory.freeClusters = (freeCells vol t₂.cells).card
      rw [cells, freeCells_relink _ (by simp), counts]
      · exact made.counts
      · exact still.not_free _ endCluster
    · rw [hint]
      exact made.hint
    · exact nodes
    · exact others
    · rintro _ ⟨⟩
      refine ⟨.inr ⟨data, joined, inside⟩, fun zero => ?_, fun _ _ => ⟨joined.head_eq, ?_, ?_⟩⟩
      · change inode.startCluster = 0 at zero
        rw [FATTable.isDataCluster_iff] at data
        omega
      · rw [getLast?_append, isEnd]
        rfl
      · show (chains id ++ l).length = n
        rw [length_append]
        omega
    · intro absent
      cases absent
    · intro x member
      rcases mem_append.1 member with member | member
      · exact .inl member
      · exact .inr (made.fresh x member).2
  · rw [take_append_of_le_length (Nat.min_le_left _ _)]

theorem growChain_every (accepted : vol.Accepted) (owns : Owns vol t chains)
    (known : t.memory.nodes id = some inode) (data : vol.isDataCluster inode.startCluster)
    (endData : vol.isDataCluster inode.endCluster) (loaded : inode.allocatedClusterCount ≠ 0)
    (longer : inode.allocatedClusterCount < n) :
    (growChain vol id n).Every (viewSpec vol) t
      (Ends (fun _ => Resized vol id n t chains) (Resized vol id n t chains)) := by
  unfold growChain
  apply after_node known
  apply ends_bind viewSpec_monotone (allocateClusters_every accepted owns.counts owns.hint _)
  · intro ⟨first, last⟩ t₁ ⟨l, made, length, positive⟩
    have some' : l ≠ [] := by
      rintro rfl
      rw [← length] at positive
      cases positive
    have linked : Linked t₁.cells first l := by
      rcases made.chain with ⟨none, _⟩ | ⟨linked, _⟩
      · exact absurd none some'
      · exact linked
    have inside : ∀ x ∈ l, vol.isDataCluster x := fun x member => (made.fresh x member).1
    have firstData := inside first linked.mem_head
    have known₁ : t₁.memory.nodes id = some inode := by
      rw [FATView.nodes_of_files made.files]
      exact known
    dsimp only
    rw [if_neg (by simp [firstData])]
    have set : ((setEntry inode.endCluster first).scopeFail
        (clearFATChainAfterFailureNoThrow vol first)).Every (viewSpec vol) t₁
          (Ends (fun _ t' => t' = t₁.setCell inode.endCluster (.next first))
            (Resized vol id n t chains)) := by
      have stored : (setEntry inode.endCluster first).Every (viewSpec vol) t₁
          (Ends (fun _ t' => t' = t₁.setCell inode.endCluster (.next first)) (· = t₁)) := by
        refine ⟨endData, storable_data firstData, ?_, fun _ => rfl⟩
        rw [cell_data accepted firstData]
        rfl
      apply ends_scopeFail viewSpec_monotone stored
      rintro _ rfl
      have cleared := clearAfterFailure_every accepted made.counts linked inside
      apply ends_mono viewSpec_monotone cleared
      · intro _ v cleared
        exact .claimed owns (made.cleared cleared)
      · exact fun _ impossible => impossible.elim
    apply ends_bind viewSpec_monotone set
    · rintro _ _ rfl
      apply after_setNode
      show Resized vol id n t chains (withNode (withNode (t₁.setCell inode.endCluster (.next first)) id
        fun inode => inode.setChain inode.startCluster last n) id fun inode =>
          { inode with iteration := (inode.iteration + 1) % 2 ^ 32 })
      apply grown owns known data loaded longer made length
      · rfl
      · rfl
      · rfl
      · intro i
        rw [← FATView.nodes_of_files made.files, withNode_nodes (withNode_self _ _), withNode_nodes]
        · split
          · rfl
          · rfl
        · exact known₁
        · exact known₁
    · exact fun _ resized => resized
  · exact fun _ claimed => .claimed owns claimed

/-! ## Shrinking -/

/-- The view when the chain has been cut but not cleared. -/
def cutAt (t : FATView) (id last n : Nat) : FATView :=
  withNode (withNode (t.setCell last .last) id fun inode => inode.setChain inode.startCluster last n) id
    fun inode => { inode with iteration := (inode.iteration + 1) % 2 ^ 32 }

theorem cutAt_nodes (known : t.memory.nodes id = some inode) (last n i : Nat) :
    (cutAt t id last n).memory.nodes i = if i = id then
      some { inode.setChain inode.startCluster last n with
        iteration := (inode.iteration + 1) % 2 ^ 32 } else t.memory.nodes i := by
  have known' : (t.setCell last .last).memory.nodes id = some inode := known
  unfold cutAt
  rw [withNode_nodes (withNode_self known' _), withNode_nodes known']
  split
  · rfl
  · rfl

theorem cut_linked {start last : Nat} (linked : Linked t.cells start l) (some' : n ≠ 0)
    (here : n - 1 < l.length) (isLast : last = l[n - 1])
    (cleared : Cleared vol (l.drop n) (cutAt t id last n) t') : Linked t'.cells start (l.take n) := by
  have cells : (cutAt t id last n).cells = Function.update t.cells last .last := rfl
  have positive : n - 1 + 1 = n := by omega
  have cut := linked.take here
  rw [positive, ← isLast, ← cells] at cut
  have apart : List.Disjoint (l.take n) (l.drop n) := by
    apply disjoint_of_nodup_append
    rw [take_append_drop]
    exact linked.nodup
  exact cut.congr fun x member => cleared.outside x (apart member)

/-- The first clusters of the chain, when the others have been cleared. -/
theorem shrunk (owns : Owns vol t chains) (known : t.memory.nodes id = some inode)
    (data : vol.isDataCluster inode.startCluster) (some' : n ≠ 0) {last : Nat}
    (here : n - 1 < (chains id).length) (isLast : last = (chains id)[n - 1])
    (cleared : Cleared vol ((chains id).drop n) (cutAt t id last n) t') :
    Resized vol id n t chains t' := by
  have cells : (cutAt t id last n).cells = Function.update t.cells last .last := rfl
  have mine := (owns.chain id inode known).linked data
  have member : last ∈ chains id := isLast ▸ getElem_mem _
  have kept : ∀ x, x ∉ chains id → t.cells x ≠ .free → t'.cells x = t.cells x := by
    intro x outside _
    have other : x ≠ last := fun same => outside (same ▸ member)
    rw [cleared.outside x fun inside => outside (mem_of_mem_drop inside), cells,
      Function.update_of_ne other]
  have still := cut_linked mine.1 some' here isLast cleared
  have inside : ∀ x ∈ (chains id).take n, vol.isDataCluster x := fun x member =>
    mine.2 x (mem_of_mem_take member)
  refine ⟨(chains id).take n, ?_, kept, ?_⟩
  · apply owns.change
    · exact cleared.counts
    · rw [cleared.hint]
      exact owns.hint
    · intro i
      rw [FATView.nodes_of_files cleared.files]
      exact cutAt_nodes known last n i
    · exact kept
    · rintro _ ⟨⟩
      refine ⟨.inr ⟨data, still, inside⟩, fun zero => ?_, fun _ _ => ⟨still.head_eq, ?_, ?_⟩⟩
      · change inode.startCluster = 0 at zero
        rw [FATTable.isDataCluster_iff] at data
        omega
      · show _ = some last
        rw [getLast?_take, if_neg some', getElem?_eq_getElem here, ← isLast]
        rfl
      · show ((chains id).take n).length = n
        rw [length_take]
        omega
    · intro absent
      cases absent
    · exact fun x member => .inl (mem_of_mem_take member)
  · rw [take_take]
    congr 1
    omega

/-- The chain has been cut, and clusters behind the cut may have been cleared. -/
def Cut (vol : FATVolume) (id n : Nat) (t : FATView) (chains : Nat → List Nat) (t' : FATView) : Prop :=
  ∃ last, (chains id)[n - 1]? = some last ∧ Cleared vol ((chains id).drop n) (cutAt t id last n) t'

theorem shrinkChain_cuts (accepted : vol.Accepted) (owns : Owns vol t chains)
    (known : t.memory.nodes id = some inode) (data : vol.isDataCluster inode.startCluster)
    (shorter : n < inode.allocatedClusterCount) (some' : n ≠ 0) :
    (shrinkChain vol id n).Every (viewSpec vol) t
      (Ends (fun _ => Cut vol id n t chains) fun t' => t' = t ∨ Cut vol id n t chains t') := by
  have notRoot := Area.not_fixedRoot_of_data data
  have mine := (owns.chain id inode known).linked data
  rcases (owns.metadata id inode known).2 notRoot (by omega) with ⟨_, _, count⟩
  have here : n - 1 < (chains id).length := by omega
  have there : n - 1 + 1 < (chains id).length := by omega
  unfold shrinkChain
  apply after_node known
  apply ends_bind viewSpec_monotone (getChainEntry_linked mine.1 mine.2 here)
  · rintro _ t ⟨rfl, rfl⟩
    have lastData := mine.2 _ (getElem_mem here)
    rw [if_neg (by simp [lastData])]
    apply after_getEntry lastData fun _ => .inl rfl
    have next : valueOf (t.cells (chains id)[n - 1]) = (chains id)[n - 1 + 1] := by
      rw [mine.1.getElem_next there]
      rfl
    have nextData := mine.2 _ (getElem_mem there)
    rw [next, if_neg (by simp [nextData])]
    apply after_setEntry lastData storable_end fun _ => .inl rfl
    rw [cell_end accepted]
    apply after_setNode
    apply after_setNode
    show Every _ (clearFATChain vol _) (cutAt t id (chains id)[n - 1] n) _
    have behind : (chains id).drop (n - 1 + 1) = (chains id).drop n := by
      congr 1
      omega
    have tail : Linked (cutAt t id (chains id)[n - 1] n).cells (chains id)[n - 1 + 1]
        ((chains id).drop n) := behind ▸ mine.1.drop_update here there .last
    have inside : ∀ x ∈ (chains id).drop n, vol.isDataCluster x := fun x member =>
      mine.2 x (mem_of_mem_drop member)
    have counts : (cutAt t id (chains id)[n - 1] n).CountsFree vol := by
      show t.memory.freeClusters = (freeCells vol (Function.update t.cells _ .last)).card
      rw [freeCells_relink (mine.1.not_free _ (getElem_mem here)) (by simp)]
      exact owns.counts
    have isLast := getElem?_eq_getElem here
    apply ends_mono viewSpec_monotone (clearFATChain_every accepted counts tail inside)
    · exact fun _ _ cleared => ⟨_, isLast, cleared⟩
    · exact fun _ cleared => .inr ⟨_, isLast, cleared⟩
  · rintro _ rfl
    exact .inl rfl

theorem Cut.resized (owns : Owns vol t chains) (known : t.memory.nodes id = some inode)
    (data : vol.isDataCluster inode.startCluster) (some' : n ≠ 0) (cut : Cut vol id n t chains t') :
    Resized vol id n t chains t' := by
  rcases cut with ⟨last, isLast, cleared⟩
  rcases List.getElem?_eq_some_iff.1 isLast with ⟨here, isLast⟩
  exact shrunk owns known data some' here isLast.symm cleared

section

variable (accepted : vol.Accepted) (owns : Owns vol t chains)
  (known : t.memory.nodes id = some inode)

include accepted owns known

theorem shrinkChain_every
    (data : vol.isDataCluster inode.startCluster)
    (shorter : n < inode.allocatedClusterCount) (some' : n ≠ 0) :
    (shrinkChain vol id n).Every (viewSpec vol) t
      (Ends (fun _ => Resized vol id n t chains) (Resized vol id n t chains)) := by
  apply ends_mono viewSpec_monotone (shrinkChain_cuts accepted owns known data shorter some')
  · exact fun _ _ cut => cut.resized owns known data some'
  · rintro _ (rfl | cut)
    · exact .refl owns
    · exact cut.resized owns known data some'

/-! ## The whole of it -/

/-- `SetChainLength` keeps the ownership, whether it returns or throws. -/
theorem setChainLength_every
    (updateICache : Bool) :
    (setChainLength vol id n updateICache).Every (viewSpec vol) t
      (Ends (fun _ => Resized vol id n t chains) (Resized vol id n t chains)) := by
  unfold setChainLength
  apply after_node known
  split
  · exact .refl owns
  rename_i consistent
  split
  · exact .refl owns
  split
  · exact .refl owns
  rename_i different
  have metadata := (owns.metadata id inode known).1
  have chained (some' : inode.startCluster ≠ 0) : vol.isDataCluster inode.startCluster ∧
      vol.isDataCluster inode.endCluster ∧ inode.allocatedClusterCount ≠ 0 := by
    have checked : isFixedRoot inode.startCluster = false ∧ vol.isDataCluster inode.startCluster ∧
        vol.isDataCluster inode.endCluster ∧ inode.allocatedClusterCount ≠ 0 := by
      simpa [hasInconsistentChain, some', and_assoc] using consistent
    exact checked.2
  split
  · rename_i zero
    subst zero
    have some' : inode.startCluster ≠ 0 := fun none => different (metadata none).2.symm
    exact truncateChain_every accepted owns known (chained some').1 updateICache
  rename_i positive
  split
  · rename_i none
    exact startChain_every accepted owns known none updateICache
  rename_i some'
  rcases chained some' with ⟨data, endData, loaded⟩
  split
  · rename_i longer
    exact growChain_every accepted owns known data endData loaded longer
  · rename_i notLonger
    exact shrinkChain_every accepted owns known data (by omega) positive

end

/-! ## Loading -/

theorem withNode_loaded (owns : Owns vol t chains) (known : t.memory.nodes id = some inode)
    {change : FATInode → FATInode} (startCluster : (change inode).startCluster = inode.startCluster)
    (describes : (change inode).Describes (chains id)) :
    Owns vol (withNode t id change) chains := by
  have again : Owns vol (withNode t id change) (Function.update chains id (chains id)) := by
    apply owns.change
    · exact owns.counts
    · exact owns.hint
    · exact withNode_nodes known change
    · exact fun _ _ _ => rfl
    · rintro _ ⟨⟩
      rw [startCluster]
      exact ⟨owns.chain id inode known, describes⟩
    · intro absent
      cases absent
    · exact fun _ => .inl
  rw [Function.update_eq_self] at again
  exact again

/-- The metadata that are loaded are those of the chain; no cell changes. -/
theorem ensureClusterChainMetadataLoaded_every (accepted : vol.Accepted) (owns : Owns vol t chains)
    (known : t.memory.nodes id = some inode) :
    (ensureClusterChainMetadataLoaded vol id).Every (viewSpec vol) t
      (Ends (fun _ t' => Owns vol t' chains ∧ t'.cells = t.cells) (· = t)) := by
  unfold ensureClusterChainMetadataLoaded
  apply after_node known
  split
  · exact ⟨owns, rfl⟩
  rename_i needed
  rw [not_or, not_or] at needed
  rcases owns.chain id inode known with ⟨zero | root, _⟩ | ⟨data, linked, inside⟩
  · exact absurd zero needed.1
  · exact absurd root needed.2.2
  apply ends_bind viewSpec_monotone (getChainLength_every accepted linked inside)
  · rintro ⟨length, last⟩ t ⟨rfl, isLength, isLast⟩
    dsimp only
    split
    · rfl
    · refine ⟨?_, rfl⟩
      apply withNode_loaded owns known
      · split
        · rfl
        · rfl
      · have described : (inode.setChain inode.startCluster last length).Describes (chains id) :=
          ⟨fun zero => absurd zero needed.1, fun _ _ => ⟨linked.head_eq, isLast, isLength.symm⟩⟩
        split
        · exact described
        · exact described
  · exact fun _ same => same

end Driver

end PadOS.Fat
