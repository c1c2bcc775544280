import PadOS.Fat.ChainUpdate

/-! # Who owns which clusters

Each inode owns a chain or none, and no two chains meet. An operation on one inode
takes clusters from its chain or from the free ones, so the chains of the others stay.
-/

namespace PadOS.Fat

open Program List
open Function (update_self update_of_ne update)

variable {vol : FATVolume} {t t' t'' : FATView} {id n : Nat} {inode : FATInode} {l l' : List Nat}
  {chains : Nat → List Nat}

/-! ## The invariant -/

/-- The clusters that begin at the first cluster of an inode. -/
def HasChain (vol : FATVolume) (cells : Nat → Cell Nat) (startCluster : Nat) (l : List Nat) : Prop :=
  (startCluster = 0 ∨ isFixedRoot startCluster) ∧ l = [] ∨
    vol.isDataCluster startCluster ∧ Linked cells startCluster l ∧ ∀ x ∈ l, vol.isDataCluster x

/-- The metadata of an inode, where it is loaded, is that of its chain. -/
def FATInode.Describes (inode : FATInode) (l : List Nat) : Prop :=
  (inode.startCluster = 0 → inode.endCluster = 0 ∧ inode.allocatedClusterCount = 0) ∧
    (¬isFixedRoot inode.startCluster → inode.allocatedClusterCount ≠ 0 →
      l.head? = some inode.startCluster ∧ l.getLast? = some inode.endCluster ∧
        l.length = inode.allocatedClusterCount)

structure Owns (vol : FATVolume) (t : FATView) (chains : Nat → List Nat) : Prop where
  counts : t.CountsFree vol
  hint : vol.isDataCluster t.memory.lastAllocatedCluster
  chain : ∀ id inode, t.memory.nodes id = some inode →
    HasChain vol t.cells inode.startCluster (chains id)
  unused : ∀ id, t.memory.nodes id = none → chains id = []
  apart : ∀ id id', id ≠ id' → Disjoint (chains id) (chains id')
  metadata : ∀ id inode, t.memory.nodes id = some inode → inode.Describes (chains id)

theorem HasChain.used {cells : Nat → Cell Nat} {startCluster : Nat}
    (chain : HasChain vol cells startCluster l) : ∀ x ∈ l, cells x ≠ .free := by
  rcases chain with ⟨_, rfl⟩ | ⟨_, linked, _⟩
  · intro x member
    cases member
  · exact linked.not_free

theorem HasChain.congr {cells cells' : Nat → Cell Nat} {startCluster : Nat}
    (chain : HasChain vol cells startCluster l) (same : ∀ x ∈ l, cells' x = cells x) :
    HasChain vol cells' startCluster l := by
  rcases chain with ⟨none, rfl⟩ | ⟨data, linked, inside⟩
  · exact .inl ⟨none, rfl⟩
  · exact .inr ⟨data, linked.congr same, inside⟩

theorem HasChain.linked {cells : Nat → Cell Nat} {startCluster : Nat}
    (chain : HasChain vol cells startCluster l) (data : vol.isDataCluster startCluster) :
    Linked cells startCluster l ∧ ∀ x ∈ l, vol.isDataCluster x := by
  rcases chain with ⟨none, _⟩ | ⟨_, linked⟩
  · rw [FATTable.isDataCluster_iff] at data
    unfold isFixedRoot at none
    rw [beq_iff_eq] at none
    omega
  · exact linked

namespace Owns

theorem used (owns : Owns vol t chains) (id : Nat) : ∀ x ∈ chains id, t.cells x ≠ .free := by
  cases known : t.memory.nodes id with
  | none =>
    rw [owns.unused id known]
    intro x member
    cases member
  | some inode => exact (owns.chain id inode known).used

/-- A single inode in memory. -/
theorem single (counts : t.CountsFree vol) (hint : vol.isDataCluster t.memory.lastAllocatedCluster)
    (nodes : ∀ i, t.memory.nodes i = if i = id then some inode else none)
    (chain : HasChain vol t.cells inode.startCluster l) (describes : inode.Describes l) :
    Owns vol t fun i => if i = id then l else [] where
  counts := counts
  hint := hint
  chain i inode' known := by
    rw [nodes] at known
    split at known
    · rename_i same
      obtain rfl := Option.some.inj known
      rw [if_pos same]
      exact chain
    · cases known
  unused i absent := by
    rw [nodes] at absent
    split at absent
    · cases absent
    · rename_i other
      exact if_neg other
  apart i j different := by
    by_cases same : i = id
    · have other : j ≠ id := fun same' => different (same.trans same'.symm)
      rw [if_neg other]
      exact disjoint_nil_right _
    · rw [if_neg same]
      exact disjoint_nil_left _
  metadata i inode' known := by
    rw [nodes] at known
    split at known
    · rename_i same
      obtain rfl := Option.some.inj known
      rw [if_pos same]
      exact describes
    · cases known

/-- One inode has got another chain, of clusters it had or of free ones. -/
theorem change (owns : Owns vol t chains) {node : Option FATInode} (counts : t'.CountsFree vol)
    (hint : vol.isDataCluster t'.memory.lastAllocatedCluster)
    (nodes : ∀ i, t'.memory.nodes i = if i = id then node else t.memory.nodes i)
    (kept : ∀ x, x ∉ chains id → t.cells x ≠ .free → t'.cells x = t.cells x)
    (chain : ∀ inode, node = some inode →
      HasChain vol t'.cells inode.startCluster l ∧ inode.Describes l)
    (unused : node = none → l = []) (origin : ∀ x ∈ l, x ∈ chains id ∨ t.cells x = .free) :
    Owns vol t' (update chains id l) where
  counts := counts
  hint := hint
  chain i inode known := by
    rw [nodes] at known
    split at known
    · rename_i same
      rw [same, update_self]
      exact (chain inode known).1
    · rename_i other
      rw [update_of_ne other]
      apply (owns.chain i inode known).congr
      intro x member
      exact kept x (fun member' => owns.apart i id other member member') (owns.used i x member)
  unused i none := by
    rw [nodes] at none
    split at none
    · rename_i same
      rw [same, update_self]
      exact unused none
    · rename_i other
      rw [update_of_ne other]
      exact owns.unused i none
  apart := by
    have fresh (i : Nat) (other : i ≠ id) : Disjoint l (chains i) := by
      intro x member member'
      rcases origin x member with mine | free
      · exact owns.apart id i (Ne.symm other) mine member'
      · exact owns.used i x member' free
    intro i j different
    by_cases isI : i = id
    · subst isI
      rw [update_self, update_of_ne (Ne.symm different)]
      exact fresh j (Ne.symm different)
    · rw [update_of_ne isI]
      by_cases isJ : j = id
      · subst isJ
        rw [update_self]
        exact (fresh i isI).symm
      · rw [update_of_ne isJ]
        exact owns.apart i j different
  metadata i inode known := by
    rw [nodes] at known
    split at known
    · rename_i same
      rw [same, update_self]
      exact (chain inode known).2
    · rename_i other
      rw [update_of_ne other]
      exact owns.metadata i inode known

theorem claimed (owns : Owns vol t chains) (claimed : Claimed vol t t') : Owns vol t' chains := by
  have nodes := FATView.nodes_of_files claimed.files
  constructor
  · exact claimed.counts
  · exact claimed.hint
  · intro id inode known
    rw [nodes] at known
    apply (owns.chain id inode known).congr
    exact fun x member => claimed.kept x (owns.used id x member)
  · rw [nodes]
    exact owns.unused
  · exact owns.apart
  · rw [nodes]
    exact owns.metadata

end Owns

/-! ## What is not about chains -/

/-- Slots, maps and flags may have changed. -/
structure Unmoved (t t' : FATView) : Prop where
  cells : t'.cells = t.cells
  nodes : t'.memory.nodes = t.memory.nodes
  freeClusters : t'.memory.freeClusters = t.memory.freeClusters
  lastAllocatedCluster : t'.memory.lastAllocatedCluster = t.memory.lastAllocatedCluster

theorem Owns.unmoved (owns : Owns vol t chains) (same : Unmoved t t') : Owns vol t' chains := by
  rcases same with ⟨cells, nodes, free, hint⟩
  rcases owns with ⟨counts, isHint, chain, unused, apart, metadata⟩
  constructor
  · show t'.memory.freeClusters = (freeCells vol t'.cells).card
    rw [free, cells]
    exact counts
  · rw [hint]
    exact isHint
  · rw [nodes, cells]
    exact chain
  · rw [nodes]
    exact unused
  · exact apart
  · rw [nodes]
    exact metadata

namespace Driver

variable {cluster : Nat}

theorem follow_every (index : Nat) (data : vol.isDataCluster cluster) :
    (follow vol index cluster).Every (viewSpec vol) t (Ends (fun _ t' => t' = t) (· = t)) := by
  induction index generalizing cluster with
  | zero => rfl
  | succ index ih =>
    unfold follow
    apply after_getEntry data fun _ => rfl
    split
    · rename_i next
      exact ih next
    · rfl

section

variable (linked : Linked t.cells cluster l) (inside : ∀ x ∈ l, vol.isDataCluster x)

include linked inside

/-- Along a chain the loop finds the cluster at the index. -/
theorem follow_linked {index : Nat}
    (below : index < l.length) :
    (follow vol index cluster).Every (viewSpec vol) t
      (Ends (fun r t' => t' = t ∧ r = l[index]) (· = t)) := by
  induction index generalizing cluster l with
  | zero => exact ⟨rfl, (linked.getElem_zero below).symm⟩
  | succ index ih =>
    unfold follow
    apply after_getEntry (inside _ linked.mem_head) fun _ => rfl
    cases linked with
    | last _ =>
      rw [length_singleton] at below
      omega
    | @next _ b rest links linked =>
      have next : valueOf (t.cells cluster) = b := by rw [links]; rfl
      have data := inside b (mem_cons_of_mem _ linked.mem_head)
      rw [next, if_pos data]
      have short : index < rest.length := by simpa using below
      exact ih linked (fun x member => inside x (mem_cons_of_mem _ member)) short

theorem getChainEntry_linked {index : Nat}
    (below : index < l.length) :
    (getChainEntry vol cluster index).Every (viewSpec vol) t
      (Ends (fun r t' => t' = t ∧ r = l[index]) (· = t)) := by
  unfold getChainEntry
  split
  · rfl
  · exact follow_linked linked inside below

end

theorem chainLengthLoop_every (accepted : vol.Accepted) (rounds count : Nat)
    (linked : Linked t.cells cluster l) (inside : ∀ x ∈ l, vol.isDataCluster x) :
    (chainLengthLoop vol rounds count cluster).Every (viewSpec vol) t
      (Ends (fun r t' => t' = t ∧ r.1 + 1 = count + l.length ∧ l.getLast? = some r.2) (· = t)) := by
  induction rounds generalizing count cluster l with
  | zero => rfl
  | succ rounds ih =>
    unfold chainLengthLoop
    apply after_getEntry (inside _ linked.mem_head) fun _ => rfl
    cases linked with
    | last ends =>
      have next : valueOf (t.cells cluster) = endFatEntry := by rw [ends]; rfl
      rw [next, if_pos rfl]
      exact ⟨rfl, rfl, rfl⟩
    | @next _ b rest links linked =>
      have next : valueOf (t.cells cluster) = b := by rw [links]; rfl
      have data := inside b (mem_cons_of_mem _ linked.mem_head)
      have notEnd : b ≠ endFatEntry := by
        rintro rfl
        exact FATTable.not_data_of_reserved accepted le_rfl data
      rw [next, if_neg notEnd, if_neg (by simp [data])]
      apply ends_mono viewSpec_monotone
        (ih (count + 1) linked fun x member => inside x (mem_cons_of_mem _ member))
      · rintro r _ ⟨rfl, length, last⟩
        refine ⟨rfl, ?_, ?_⟩
        · rw [length_cons]
          omega
        · rw [List.getLast?_cons, last]
          rfl
      · exact fun _ same => same

theorem getChainLength_every (accepted : vol.Accepted) (linked : Linked t.cells cluster l)
    (inside : ∀ x ∈ l, vol.isDataCluster x) :
    (getChainLength vol cluster).Every (viewSpec vol) t
      (Ends (fun r t' => t' = t ∧ r.1 = l.length ∧ l.getLast? = some r.2) (· = t)) := by
  unfold getChainLength
  rw [if_neg (by simp [inside _ linked.mem_head])]
  apply ends_mono viewSpec_monotone (chainLengthLoop_every accepted _ 1 linked inside)
  · rintro r _ ⟨rfl, length, last⟩
    exact ⟨rfl, by omega, last⟩
  · exact fun _ same => same

theorem getChainEntry_every (index : Nat) :
    (getChainEntry vol cluster index).Every (viewSpec vol) t (Ends (fun _ t' => t' = t) (· = t)) := by
  unfold getChainEntry
  split
  · rfl
  · rename_i valid
    apply follow_every
    simpa using (not_or.1 valid).1

theorem seekSlot_every (start index : Nat) :
    (seekSlot vol start index).Every (viewSpec vol) t (Ends (fun _ t' => t' = t) (· = t)) := by
  unfold seekSlot
  dsimp only
  split
  · split
    · rfl
    · rfl
  split
  · split
    · rfl
    · rfl
  apply ends_bind viewSpec_monotone (getChainEntry_every _)
  · rintro next _ rfl
    split
    · split
      · rfl
      · rfl
    · rfl
  · exact fun _ same => same

theorem write_every (known : t.memory.nodes id = some inode) :
    (write vol id).Every (viewSpec vol) t (Ends (fun _ => Unmoved t) (· = t)) := by
  unfold write
  apply after_recall
  apply after_node known
  split
  · exact ⟨rfl, rfl, rfl, rfl⟩
  split
  · rfl
  split
  · rfl
  rename_i parentCluster expectedStartCluster _
  apply ends_bind viewSpec_monotone (seekSlot_every parentCluster inode.dirEndIndex)
  · rintro place _ rfl
    constructor
    · show Every _ (if _ then _ else _) _ _
      split
      · rfl
      · exact ⟨rfl, rfl, rfl, rfl⟩
    · exact fun _ => rfl
  · exact fun _ same => same

theorem setMapping_every (inodeID locationID : Nat) :
    (setMapping inodeID locationID).Every (viewSpec vol) t (Ends (fun _ => Unmoved t) (· = t)) := by
  unfold setMapping
  apply after_recall
  have noPanic : t.memory.maps.setInodeIDToLocationIDMapping inodeID locationID ≠ .error .panics := by
    unfold InodeMap.setInodeIDToLocationIDMapping
    repeat' split
    all_goals simp
  cases result : t.memory.maps.setInodeIDToLocationIDMapping inodeID locationID with
  | error stop =>
    cases stop with
    | throws code => rfl
    | panics => exact absurd result noPanic
  | ok maps => exact ⟨rfl, rfl, rfl, rfl⟩

end Driver

end PadOS.Fat
