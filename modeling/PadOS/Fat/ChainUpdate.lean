import PadOS.Fat.CallRules
import Mathlib.Data.Finset.Card
import Mathlib.Order.Interval.Finset.Nat

/-! # What the allocation does to the cells

Clearing a chain touches the cells of the chain, allocation only cells that were free.
Both keep the count of the free cells, whether they succeed or not.
-/

namespace PadOS.Fat

open Program List Option
open Function (update_self update_of_ne)

variable {vol : FATVolume} {t t' t'' : FATView} {cluster : Nat} {l : List Nat}

/-! ## Free cells -/

def freeCells (vol : FATVolume) (cells : Nat → Cell Nat) : Finset Nat :=
  (Finset.Ico firstDataCluster (vol.totalClusters + firstDataCluster)).filter fun c => (cells c).isFree

theorem mem_freeCells {cells : Nat → Cell Nat} :
    cluster ∈ freeCells vol cells ↔ vol.isDataCluster cluster ∧ cells cluster = .free := by
  unfold freeCells
  rw [Finset.mem_filter, Finset.mem_Ico, Cell.isFree_iff, FATTable.isDataCluster_iff]
  rfl

theorem card_freeCells_le (vol : FATVolume) (cells : Nat → Cell Nat) : (freeCells vol cells).card ≤ vol.totalClusters := by
  apply (Finset.card_filter_le _ _).trans
  rw [Nat.card_Ico]
  omega

theorem freeCells_claim {cells : Nat → Cell Nat} {c : Cell Nat} (used : c ≠ .free) :
    freeCells vol (Function.update cells cluster c) = (freeCells vol cells).erase cluster := by
  ext x
  rw [Finset.mem_erase, mem_freeCells, mem_freeCells]
  by_cases same : x = cluster
  · subst same
    simp [used]
  · simp [same]

theorem freeCells_release {cells : Nat → Cell Nat} (data : vol.isDataCluster cluster) :
    freeCells vol (Function.update cells cluster .free) = insert cluster (freeCells vol cells) := by
  ext x
  rw [Finset.mem_insert, mem_freeCells, mem_freeCells]
  by_cases same : x = cluster
  · subst same
    simp [data]
  · simp [same]

namespace FATView

/-- `m_FreeClusters` is the number of free cells. -/
def CountsFree (vol : FATVolume) (t : FATView) : Prop :=
  t.memory.freeClusters = (freeCells vol t.cells).card

/-- What the table is not about. -/
def files (t : FATView) : (Nat → Nat → FATDirectoryEntryCombo) × Memory :=
  (t.slots, { t.memory with freeClusters := 0, lastAllocatedCluster := 0 })

theorem nodes_of_files (same : t'.files = t.files) : t'.memory.nodes = t.memory.nodes := by
  show t'.files.2.nodes = t.files.2.nodes
  rw [same]

theorem setCell_of_ne {c : Cell Nat} {x : Nat} (other : x ≠ cluster) :
    (t.setCell cluster c).cells x = t.cells x := update_of_ne other _ _

@[simp] theorem setCell_files (c : Cell Nat) : (t.setCell cluster c).files = t.files := rfl

@[simp] theorem setCell_memory (c : Cell Nat) : (t.setCell cluster c).memory = t.memory := rfl

end FATView

/-! ## Clearing -/

/-- After cells of a chain have been cleared. -/
structure Cleared (vol : FATVolume) (l : List Nat) (t t' : FATView) : Prop where
  files : t'.files = t.files
  hint : t'.memory.lastAllocatedCluster = t.memory.lastAllocatedCluster
  counts : t'.CountsFree vol
  outside : ∀ x, x ∉ l → t'.cells x = t.cells x

namespace Cleared

theorem refl (counts : t.CountsFree vol) : Cleared vol l t t := ⟨rfl, rfl, counts, fun _ _ => rfl⟩

variable {l' : List Nat}

theorem trans (cleared : Cleared vol l t t') (cleared' : Cleared vol l' t' t'') :
    Cleared vol (l ++ l') t t'' where
  files := cleared'.files.trans cleared.files
  hint := cleared'.hint.trans cleared.hint
  counts := cleared'.counts
  outside x member := by
    rw [mem_append, not_or] at member
    exact (cleared'.outside x member.2).trans (cleared.outside x member.1)

end Cleared

variable {b : Bounds}

/-- The chain has been cleared, or the cleanup may have failed at one of its entries. -/
structure Released (vol : FATVolume) (b : Bounds) (l : List Nat) (t t' : FATView) : Prop
    extends Cleared vol l t t' where
  freed : b.Unsure ∨ ∀ x ∈ l, t'.cells x = .free

theorem Released.refl (counts : t.CountsFree vol) : Released vol b [] t t :=
  ⟨.refl counts, .inr nofun⟩

theorem Released.failed (counts : t.CountsFree vol) (unsure : b.Unsure) : Released vol b l t t :=
  ⟨.refl counts, .inl unsure⟩

theorem Released.trans (released : Released vol b l t t')
    (released' : Released vol b l' t' t'') (apart : List.Disjoint l l') :
    Released vol b (l ++ l') t t'' := by
  refine ⟨released.toCleared.trans released'.toCleared, ?_⟩
  rcases released.freed with unsure | freed
  · exact .inl unsure
  rcases released'.freed with unsure | freed'
  · exact .inl unsure
  refine .inr fun x member => ?_
  rcases mem_append.1 member with member | member
  · rw [released'.outside x (apart member)]
    exact freed x member
  · exact freed' x member

namespace Driver

/-- Where the loop stands: at a cluster of a chain, or behind it. -/
def Clearing (vol : FATVolume) (t : FATView) (cluster : Nat) (l : List Nat) : Prop :=
  cluster = endFatEntry ∧ l = [] ∨ Linked t.cells cluster l ∧ ∀ x ∈ l, vol.isDataCluster x

theorem cleared_one (data : vol.isDataCluster cluster) (used : t.cells cluster ≠ .free)
    (counts : t.CountsFree vol) :
    Cleared vol [cluster] t { t.setCell cluster .free with
        memory := if t.memory.freeClusters < vol.totalClusters then
          { t.memory with freeClusters := t.memory.freeClusters + 1 } else t.memory } := by
  have absent : cluster ∉ freeCells vol t.cells := by
    rw [mem_freeCells]
    exact fun h => used h.2
  have grown : (freeCells vol (t.setCell cluster .free).cells).card = t.memory.freeClusters + 1 := by
    show (freeCells vol (Function.update t.cells cluster .free)).card = _
    rw [freeCells_release data, Finset.card_insert_of_notMem absent, counts]
  have room : t.memory.freeClusters < vol.totalClusters := by
    have := card_freeCells_le vol (t.setCell cluster .free).cells
    omega
  rw [if_pos room]
  refine ⟨rfl, rfl, grown.symm, fun x outside => ?_⟩
  exact FATView.setCell_of_ne (ne_of_not_mem_cons outside)

theorem clearLoop_every (accepted : vol.Accepted) {rounds : Nat} (counts : t.CountsFree vol)
    (here : Clearing vol t cluster l) (mayStore : ∀ x ∈ l, b.mayStore x) (enough : l.length ≤ rounds) :
    (clearLoop vol rounds cluster).Every (boundedSpec vol b) t
      (Ends (fun last t' => Released vol b l t t' ∧ last = endFatEntry) (Released vol b l t)) := by
  have atEnd (rounds : Nat) : clearLoop vol rounds endFatEntry = pure endFatEntry := by
    cases rounds with
    | zero => rfl
    | succ rounds => exact if_neg (FATTable.not_data_of_reserved accepted le_rfl)
  induction rounds generalizing t cluster l with
  | zero =>
    rcases here with ⟨rfl, rfl⟩ | ⟨linked, _⟩
    · exact ⟨.refl counts, rfl⟩
    · exact absurd linked.length_pos (by omega)
  | succ rounds ih =>
    rcases here with ⟨rfl, rfl⟩ | ⟨linked, inside⟩
    · rw [atEnd]
      exact ⟨.refl counts, rfl⟩
    have data := inside cluster linked.mem_head
    have used := linked.not_free cluster linked.mem_head
    have stored := mayStore cluster linked.mem_head
    have first : Released vol b [cluster] t _ := ⟨cleared_one data used counts, .inr fun x member => by
      rw [mem_singleton.1 member]
      exact update_self _ _ _⟩
    -- on with the rest of the chain, which the cell still names
    have goOn {next : Nat} {rest : List Nat} (named : valueOf (t.cells cluster) = next)
        (some' : next ≠ 0) (parts : l = cluster :: rest) (behind : cluster ∉ rest)
        (still : Clearing vol { t.setCell cluster .free with
          memory := if t.memory.freeClusters < vol.totalClusters then
            { t.memory with freeClusters := t.memory.freeClusters + 1 } else t.memory } next rest) :
        (clearLoop vol (rounds + 1) cluster).Every (boundedSpec vol b) t
          (Ends (fun last t' => Released vol b l t t' ∧ last = endFatEntry)
            (Released vol b l t)) := by
      unfold clearLoop
      rw [if_pos data]
      apply bounded_getEntry data fun mayFail _ => .failed counts ⟨_, .inl mayFail⟩
      rw [named, if_neg some']
      apply bounded_setEntry stored data storable_zero fun mayFail _ =>
        .failed counts ⟨_, .inr mayFail⟩
      rw [cell_zero]
      apply bounded_update
      subst parts
      have apart : List.Disjoint [cluster] rest := singleton_disjoint.2 behind
      have mayStore' : ∀ x ∈ rest, b.mayStore x := fun x member =>
        mayStore x (mem_cons_of_mem _ member)
      apply ends_mono boundedSpec_monotone (ih first.counts still mayStore' (by simpa using enough))
      · exact fun _ _ done => ⟨first.trans done.1 apart, done.2⟩
      · exact fun _ released => first.trans released apart
    cases linked with
    | last ends =>
      exact goOn (by rw [ends]; rfl) (by decide) rfl not_mem_nil (.inl ⟨rfl, rfl⟩)
    | @next a next rest links linked =>
      have outside := (nodup_cons.1 (Linked.next links linked).nodup).1
      have nextData := inside next (mem_cons_of_mem _ linked.mem_head)
      have some' : next ≠ 0 := by
        rw [FATTable.isDataCluster_iff] at nextData
        omega
      exact goOn (by rw [links]; rfl) some' rfl outside
        (.inr ⟨linked.update outside _, fun x member => inside x (mem_cons_of_mem _ member)⟩)

theorem clearFATChain_releases (accepted : vol.Accepted) (counts : t.CountsFree vol)
    (linked : Linked t.cells cluster l) (inside : ∀ x ∈ l, vol.isDataCluster x)
    (mayStore : ∀ x ∈ l, b.mayStore x) :
    (clearFATChain vol cluster).Every (boundedSpec vol b) t
      (Ends (fun _ => Released vol b l t) (Released vol b l t)) := by
  have data := inside cluster linked.mem_head
  have short := FATTable.length_le_of_nodup linked.nodup inside
  unfold clearFATChain
  rw [if_neg (by simp [data])]
  apply ends_bind boundedSpec_monotone
    (clearLoop_every accepted counts (.inr ⟨linked, inside⟩) mayStore short)
  · rintro last t' ⟨released, rfl⟩
    rw [every_bind]
    apply bounded_updateFSInfo
    · exact released
    · exact fun _ _ => released
  · exact fun _ released => released

/-- What a cleanup is given: no cluster, or a chain. -/
def Releasable (vol : FATVolume) (t : FATView) (cluster : Nat) (l : List Nat) : Prop :=
  cluster = 0 ∧ l = [] ∨ Linked t.cells cluster l ∧ ∀ x ∈ l, vol.isDataCluster x

theorem cluster_ne_zero (data : vol.isDataCluster cluster) : cluster ≠ 0 := by
  rw [FATTable.isDataCluster_iff] at data
  omega

theorem clearAfterFailure_releases (accepted : vol.Accepted) (counts : t.CountsFree vol)
    (releasable : Releasable vol t cluster l) (mayStore : ∀ x ∈ l, b.mayStore x) :
    (clearFATChainAfterFailureNoThrow vol cluster).Every (boundedSpec vol b) t
      (Ends (fun _ => Released vol b l t) fun _ => False) := by
  unfold clearFATChainAfterFailureNoThrow
  rcases releasable with ⟨rfl, rfl⟩ | ⟨linked, inside⟩
  · rw [if_neg (by simp)]
    exact Released.refl counts
  · rw [if_pos (cluster_ne_zero (inside cluster linked.mem_head))]
    apply ends_handle boundedSpec_monotone (clearFATChain_releases accepted counts linked inside mayStore)
    exact fun _ _ released => released

section

variable (accepted : vol.Accepted) (counts : t.CountsFree vol) (linked : Linked t.cells cluster l)
  (inside : ∀ x ∈ l, vol.isDataCluster x)

include accepted counts linked inside

theorem clearFATChain_every
    :
    (clearFATChain vol cluster).Every (viewSpec vol) t
      (Ends (fun _ => Cleared vol l t) (Cleared vol l t)) := by
  apply every_of_any
  apply ends_mono boundedSpec_monotone
    (clearFATChain_releases accepted counts linked inside fun _ _ => trivial)
  · exact fun _ _ released => released.toCleared
  · exact fun _ released => released.toCleared

theorem clearAfterFailure_every
    :
    (clearFATChainAfterFailureNoThrow vol cluster).Every (viewSpec vol) t
      (Ends (fun _ => Cleared vol l t) fun _ => False) := by
  apply every_of_any
  apply ends_mono boundedSpec_monotone
    (clearAfterFailure_releases accepted counts (.inr ⟨linked, inside⟩) fun _ _ => trivial)
  · exact fun _ _ released => released.toCleared
  · exact fun _ impossible => impossible

end

end Driver

/-! ## Allocating -/

theorem freeCells_relink {cells : Nat → Cell Nat} {c : Cell Nat} (before : cells cluster ≠ .free)
    (after : c ≠ .free) : freeCells vol (Function.update cells cluster c) = freeCells vol cells := by
  rw [freeCells_claim after, Finset.erase_eq_of_notMem]
  rw [mem_freeCells]
  exact fun h => before h.2

/-- Only cells that were free have changed. -/
structure Claimed (vol : FATVolume) (t t' : FATView) : Prop where
  files : t'.files = t.files
  counts : t'.CountsFree vol
  hint : vol.isDataCluster t'.memory.lastAllocatedCluster
  kept : ∀ x, t.cells x ≠ .free → t'.cells x = t.cells x

/-- Not even these have, or the cleanup may have failed. -/
structure Undone (vol : FATVolume) (b : Bounds) (t t' : FATView) : Prop extends Claimed vol t t' where
  restored : b.Unsure ∨ t'.cells = t.cells

/-- A chain of cells that were free, or none yet. -/
structure Allocated (vol : FATVolume) (l : List Nat) (firstCluster lastCluster : Nat) (t t' : FATView) :
    Prop where
  files : t'.files = t.files
  counts : t'.CountsFree vol
  hint : vol.isDataCluster t'.memory.lastAllocatedCluster
  fresh : ∀ x ∈ l, vol.isDataCluster x ∧ t.cells x = .free
  outside : ∀ x, x ∉ l → t'.cells x = t.cells x
  chain : l = [] ∧ firstCluster = 0 ∨ Linked t'.cells firstCluster l ∧ l.getLast? = some lastCluster

namespace Allocated

variable {firstCluster lastCluster : Nat}

theorem start (counts : t.CountsFree vol) (hint : vol.isDataCluster t.memory.lastAllocatedCluster) :
    Allocated vol [] 0 0 t t where
  files := rfl
  counts := counts
  hint := hint
  fresh _ member := nomatch member
  outside _ _ := rfl
  chain := .inl ⟨rfl, rfl⟩

section

variable (made : Allocated vol l firstCluster lastCluster t t')

include made

theorem moved (position : Nat) :
    Allocated vol l firstCluster lastCluster t { t' with position } :=
  ⟨made.files, made.counts, made.hint, made.fresh, made.outside, made.chain⟩

theorem kept :
    ∀ x, t.cells x ≠ .free → t'.cells x = t.cells x := by
  intro x used
  apply made.outside
  intro member
  exact used (made.fresh x member).2

theorem releasable :
    Driver.Releasable vol t' firstCluster l := by
  rcases made.chain with ⟨none, zero⟩ | ⟨linked, _⟩
  · exact .inl ⟨zero, none⟩
  · exact .inr ⟨linked, fun x member => (made.fresh x member).1⟩

theorem linked (some' : firstCluster ≠ 0) :
    Linked t'.cells firstCluster l ∧ ∀ x ∈ l, vol.isDataCluster x := by
  rcases made.releasable with ⟨zero, _⟩ | linked
  · exact absurd zero some'
  · exact linked

theorem card_free :
    (freeCells vol t.cells).card = (freeCells vol t'.cells).card + l.length := by
  have nodup : l.Nodup := by
    rcases made.chain with ⟨rfl, _⟩ | ⟨linked, _⟩
    · exact nodup_nil
    · exact linked.nodup
  have used : ∀ x ∈ l, t'.cells x ≠ .free := by
    rcases made.chain with ⟨rfl, _⟩ | ⟨linked, _⟩
    · exact nofun
    · exact linked.not_free
  have parts : freeCells vol t.cells = freeCells vol t'.cells ∪ l.toFinset := by
    ext x
    rw [Finset.mem_union, List.mem_toFinset, mem_freeCells, mem_freeCells]
    by_cases member : x ∈ l
    · simp [member, made.fresh x member]
    · simp [member, made.outside x member]
  have apart : Disjoint (freeCells vol t'.cells) l.toFinset := by
    rw [Finset.disjoint_left]
    intro x free member
    exact used x (List.mem_toFinset.1 member) (mem_freeCells.1 free).2
  rw [parts, Finset.card_union_of_disjoint apart, toFinset_card_of_nodup nodup]

theorem cleared {v : FATView} (cleared : Cleared vol l t' v) : Claimed vol t v where
  files := cleared.files.trans made.files
  counts := cleared.counts
  hint := by
    rw [cleared.hint]
    exact made.hint
  kept x used := by
    have notFresh : x ∉ l := fun member => used (made.fresh x member).2
    rw [cleared.outside x notFresh, made.outside x notFresh]

theorem undone {b : Bounds} {u v : FATView} {detached : List Nat}
    (files : u.files = t'.files) (hint : u.memory.lastAllocatedCluster = t'.memory.lastAllocatedCluster)
    (same : ∀ x, x ∉ detached → u.cells x = t'.cells x) (free : ∀ x ∈ detached, t'.cells x = .free)
    (released : Released vol b (l ++ detached) u v) : Undone vol b t v := by
  have outside (x : Nat) (notFresh : x ∉ l) (notDetached : x ∉ detached) : v.cells x = t.cells x := by
    have outside : x ∉ l ++ detached := by
      rw [mem_append]
      exact not_or.2 ⟨notFresh, notDetached⟩
    rw [released.outside x outside, same x notDetached, made.outside x notFresh]
  have wasFree (x : Nat) (member : x ∈ l ++ detached) : t.cells x = .free := by
    by_cases fresh : x ∈ l
    · exact (made.fresh x fresh).2
    · rw [← made.outside x fresh]
      exact free x ((mem_append.1 member).resolve_left fresh)
  refine ⟨⟨released.files.trans (files.trans made.files), released.counts, ?_, ?_⟩, ?_⟩
  · rw [released.hint, hint]
    exact made.hint
  · intro x used
    apply outside x
    · exact fun member => used (wasFree x (mem_append_left _ member))
    · exact fun member => used (wasFree x (mem_append_right _ member))
  · rcases released.freed with unsure | freed
    · exact .inl unsure
    apply Or.inr
    funext x
    by_cases member : x ∈ l ++ detached
    · rw [freed x member, wasFree x member]
    · rw [mem_append, not_or] at member
      exact outside x member.1 member.2

end

end Allocated

namespace Driver

variable {firstCluster lastCluster : Nat} {b : Bounds}

theorem releaseAllocated_releases (accepted : vol.Accepted) {detachedCluster : Nat}
    (counts : t.CountsFree vol) (releasable : Releasable vol t firstCluster l)
    (releasable' : Releasable vol t detachedCluster l') (apart : List.Disjoint l l')
    (mayStore : ∀ x ∈ l ++ l', b.mayStore x) :
    (releaseAllocated vol firstCluster detachedCluster).Every (boundedSpec vol b) t
      (Ends (fun _ => Released vol b (l ++ l') t) fun _ => False) := by
  unfold releaseAllocated
  apply ends_bind boundedSpec_monotone (clearAfterFailure_releases accepted counts releasable
    fun x member => mayStore x (mem_append_left _ member))
  · intro _ t' released
    have still : Releasable vol t' detachedCluster l' := by
      rcases releasable' with none | ⟨linked, inside⟩
      · exact .inl none
      refine .inr ⟨linked.congr fun x member => ?_, inside⟩
      exact released.outside x fun inside => apart inside member
    apply ends_mono boundedSpec_monotone (clearAfterFailure_releases accepted released.counts still
      fun x member => mayStore x (mem_append_right _ member))
    · exact fun _ _ released' => released.trans released' apart
    · exact fun _ impossible => impossible
  · exact fun _ impossible => impossible.elim

/-- The cells that are free before the allocation may be stored to. -/
def Bounds.Frees (b : Bounds) (vol : FATVolume) (t : FATView) : Prop :=
  ∀ x, vol.isDataCluster x → t.cells x = .free → b.mayStore x

variable {t₀ : FATView}

theorem guarded_every (accepted : vol.Accepted) {α : Type} {p : Driver α}
    {returns : α → FATView → Prop} {reason : Prop} (mayStore : Bounds.Frees b vol t₀)
    (made : Allocated vol l firstCluster lastCluster t₀ t)
    (every : p.Every (boundedSpec vol b) t (Ends returns fun t' => t' = t ∧ reason)) :
    (p.scopeFail (releaseAllocated vol firstCluster 0)).Every (boundedSpec vol b) t
      (Ends returns fun t' => Undone vol b t₀ t' ∧ reason) := by
  apply ends_scopeFail boundedSpec_monotone every
  rintro _ ⟨rfl, reason⟩
  have released := releaseAllocated_releases (b := b) accepted made.counts made.releasable
    (.inl ⟨rfl, rfl⟩) (disjoint_nil_right l) (by
      intro x member
      rw [append_nil] at member
      exact mayStore x (made.fresh x member).1 (made.fresh x member).2)
  apply ends_mono boundedSpec_monotone released
  · exact fun _ _ released => ⟨made.undone rfl rfl (fun _ _ => rfl)
      (fun _ member => absurd member not_mem_nil) released, reason⟩
  · exact fun _ impossible => impossible.elim

/-- After the free cell at the iterator has been made the end of a chain. -/
def taken (t : FATView) : FATView :=
  { t.setCell t.position .last with
    memory := if t.memory.freeClusters > 0 then
      { t.memory with freeClusters := t.memory.freeClusters - 1 } else t.memory }

theorem taken_files (t : FATView) : (taken t).files = t.files := by
  unfold taken FATView.files
  split
  · rfl
  · rfl

theorem taken_hint (t : FATView) :
    (taken t).memory.lastAllocatedCluster = t.memory.lastAllocatedCluster := by
  unfold taken
  split
  · rfl
  · rfl

theorem taken_cells (t : FATView) : (taken t).cells = Function.update t.cells t.position .last := rfl

theorem taken_counts (data : vol.isDataCluster t.position) (free : t.cells t.position = .free)
    (counts : t.CountsFree vol) : (taken t).CountsFree vol := by
  have member : t.position ∈ freeCells vol t.cells := mem_freeCells.2 ⟨data, free⟩
  have positive : t.memory.freeClusters > 0 := by
    rw [counts]
    exact Finset.card_pos.2 ⟨_, member⟩
  show (taken t).memory.freeClusters = (freeCells vol (taken t).cells).card
  rw [taken_cells, freeCells_claim (by simp), Finset.card_erase_of_mem member, ← counts]
  unfold taken
  rw [if_pos positive]

theorem taken_first (made : Allocated vol [] firstCluster lastCluster t₀ t)
    (data : vol.isDataCluster t.position) (free : t.cells t.position = .free) :
    Allocated vol [t.position] t.position t.position t₀
      { taken t with memory := { (taken t).memory with lastAllocatedCluster := t.position } } where
  files := (taken_files t).trans made.files
  counts := taken_counts data free made.counts
  hint := data
  fresh x member := by
    obtain rfl := mem_singleton.1 member
    exact ⟨data, (made.outside _ not_mem_nil).symm.trans free⟩
  outside x outside := by
    have other : x ≠ t.position := fun same => outside (mem_singleton.2 same)
    exact (update_of_ne other _ _).trans (made.outside x not_mem_nil)
  chain := by
    apply Or.inr
    constructor
    · apply Linked.last
      exact update_self _ _ _
    · rfl

theorem taken_next (made : Allocated vol l firstCluster lastCluster t₀ t)
    (data : vol.isDataCluster t.position) (free : t.cells t.position = .free)
    (linked : Linked t.cells firstCluster l) (last : l.getLast? = some lastCluster) :
    Allocated vol (l ++ [t.position]) firstCluster t.position t₀
      { (taken t).setCell lastCluster (.next t.position) with
        memory := { (taken t).memory with lastAllocatedCluster := t.position } } where
  files := (taken_files t).trans made.files
  counts := by
    have member := mem_of_getLast? last
    have used := linked.not_free lastCluster member
    have other : lastCluster ≠ t.position := fun same => used (same ▸ free)
    have still : (taken t).cells lastCluster ≠ .free := by
      rw [taken_cells, update_of_ne other]
      exact used
    show (taken t).memory.freeClusters = (freeCells vol (Function.update _ _ _)).card
    rw [freeCells_relink still (by simp)]
    exact taken_counts data free made.counts
  hint := data
  fresh x member := by
    rcases mem_append.1 member with member | member
    · exact made.fresh x member
    · obtain rfl := mem_singleton.1 member
      have notIn : t.position ∉ l := fun member => linked.not_free _ member free
      exact ⟨data, (made.outside _ notIn).symm.trans free⟩
  outside x outside := by
    rw [mem_append, not_or, mem_singleton] at outside
    have other : x ≠ lastCluster := fun same => outside.1 (same ▸ mem_of_getLast? last)
    show Function.update (taken t).cells _ _ x = _
    rw [update_of_ne other, taken_cells, update_of_ne outside.2]
    exact made.outside x outside.1
  chain := by
    apply Or.inr
    have notIn : t.position ∉ l := fun member => linked.not_free _ member free
    have front : Linked (taken t).cells firstCluster l := linked.update notIn _
    have behind : Linked (taken t).cells t.position [t.position] :=
      .last (update_self _ _ _)
    have isLast : l.getLast front.ne_nil = lastCluster := by
      rw [getLast?_eq_some_getLast front.ne_nil] at last
      exact some.inj last
    have apart : List.Disjoint l [t.position] := disjoint_singleton.2 notIn
    have joined := front.append behind apart
    rw [isLast] at joined
    exact ⟨joined, by simp⟩

section

variable (accepted : vol.Accepted) (mayStore : Bounds.Frees b vol t₀)
  (made : Allocated vol l firstCluster lastCluster t₀ t)

include accepted mayStore made

/-- The link to the detached cluster; where it cannot be set, both chains are released. -/
theorem linkDetached_every
   
    (data : vol.isDataCluster t.position) (free : t.cells t.position = .free)
    (linked : Linked t.cells firstCluster l) (last : l.getLast? = some lastCluster) :
    ((setEntry lastCluster t.position).scopeFail
        (releaseAllocated vol firstCluster t.position)).Every (boundedSpec vol b) (taken t)
      (Ends (fun _ t' => t' = (taken t).setCell lastCluster (.next t.position)) fun t' =>
        Undone vol b t₀ t' ∧ ∃ e, b.mayFail e) := by
  have lastFresh := made.fresh _ (mem_of_getLast? last)
  have notIn : t.position ∉ l := fun member => linked.not_free _ member free
  have wasFree : t₀.cells t.position = .free := (made.outside _ notIn).symm.trans free
  have set : (setEntry lastCluster t.position).Every (boundedSpec vol b) (taken t)
      (Ends (fun _ t' => t' = (taken t).setCell lastCluster (.next t.position)) fun t' =>
        t' = taken t ∧ ∃ e, b.mayFail e) := by
    refine ⟨mayStore _ lastFresh.1 lastFresh.2, lastFresh.1, storable_data data, fun _ => ?_,
      fails_within fun mayFail _ => ⟨rfl, _, mayFail⟩⟩
    rw [cell_data accepted data]
    rfl
  apply ends_scopeFail boundedSpec_monotone set
  rintro _ ⟨rfl, reason⟩
  have front : Linked (taken t).cells firstCluster l := linked.update notIn _
  have behind : Linked (taken t).cells t.position [t.position] := .last (update_self _ _ _)
  have released := releaseAllocated_releases (b := b) accepted (taken_counts data free made.counts)
    (.inr ⟨front, fun x member => (made.fresh x member).1⟩)
    (.inr ⟨behind, fun x member => mem_singleton.1 member ▸ data⟩)
    (disjoint_singleton.2 notIn) (by
      intro x member
      rcases mem_append.1 member with member | member
      · exact mayStore x (made.fresh x member).1 (made.fresh x member).2
      · rw [mem_singleton.1 member]
        exact mayStore _ data wasFree)
  have same : ∀ x, x ∉ [t.position] → (taken t).cells x = t.cells x := fun x outside =>
    update_of_ne (ne_of_not_mem_cons outside) _ _
  have isFree : ∀ x ∈ [t.position], t.cells x = .free := fun x member =>
    mem_singleton.1 member ▸ free
  apply ends_mono boundedSpec_monotone released
  · exact fun _ _ released =>
      ⟨made.undone (taken_files t) (taken_hint t) same isFree released, reason⟩
  · exact fun _ impossible => impossible.elim

theorem claimCluster_every
    (free : t.cells t.position = .free)
    (data : vol.isDataCluster t.position) :
    (claimCluster vol firstCluster lastCluster l.length).Every (boundedSpec vol b) t
      (Ends (fun linked t' => Allocated vol (l ++ [t.position]) linked.1 linked.2 t₀ t' ∧
        t'.position = t.position) fun t' => Undone vol b t₀ t' ∧ ∃ e, b.mayFail e) := by
  have notIn : t.position ∉ l := by
    intro member
    rcases made.chain with ⟨rfl, _⟩ | ⟨linked, _⟩
    · cases member
    · exact linked.not_free _ member free
  have wasFree : t₀.cells t.position = .free := (made.outside _ notIn).symm.trans free
  unfold claimCluster
  have ended : (perform (.iteratorSetEntry endFatEntry)).Every (boundedSpec vol b) t
      (Ends (fun _ t' => t' = t.setCell t.position .last) fun t' => t' = t ∧ ∃ e, b.mayFail e) := by
    refine ⟨mayStore _ data wasFree, storable_end, fun _ => ?_,
      fails_within fun mayFail _ => ⟨rfl, _, mayFail⟩⟩
    rw [cell_end accepted]
    rfl
  apply ends_bind boundedSpec_monotone (guarded_every accepted mayStore made ended)
  · rintro _ _ rfl
    refine ⟨trivial, fun _ _ => ?_⟩
    apply bounded_update
    show Every _ _ (taken t) _
    cases l with
    | nil =>
      have zero : firstCluster = 0 := by
        rcases made.chain with ⟨_, zero⟩ | ⟨linked, _⟩
        · exact zero
        · exact absurd rfl linked.ne_nil
      rw [length_nil, if_pos rfl, if_pos zero]
      exact ⟨trivial, fun _ => ⟨taken_first made data free, rfl⟩⟩
    | cons a rest =>
      rcases made.chain with ⟨impossible, _⟩ | ⟨linked, last⟩
      · cases impossible
      · have member := mem_of_getLast? last
        have first := (made.fresh _ linked.mem_head).1
        have lastData := (made.fresh _ member).1
        rw [if_neg (by simp), if_pos (by simp [first, lastData])]
        apply ends_bind boundedSpec_monotone
          (linkDetached_every accepted mayStore made data free linked last)
        · rintro _ _ rfl
          exact ⟨trivial, fun _ => ⟨taken_next made data free linked last, rfl⟩⟩
        · exact fun _ undone => undone
  · exact fun _ undone => undone

end

/-! ## The way round the table -/

theorem isDataCluster_nextPosition (data : vol.isDataCluster cluster) :
    vol.isDataCluster (nextPosition vol cluster) := by
  rw [FATTable.isDataCluster_iff] at data ⊢
  unfold nextPosition firstDataCluster
  split
  · omega
  · omega

theorem nextPosition_iterate (data : vol.isDataCluster cluster) (k : Nat) :
    (nextPosition vol)^[k] cluster =
      firstDataCluster + (cluster - firstDataCluster + k) % vol.totalClusters := by
  rw [FATTable.isDataCluster_iff] at data
  induction k with
  | zero =>
    rw [Function.iterate_zero_apply, add_zero, firstDataCluster, Nat.mod_eq_of_lt (by omega)]
    omega
  | succ k ih =>
    have below := Nat.mod_lt (cluster - 2 + k) (show vol.totalClusters > 0 by omega)
    rw [Function.iterate_succ_apply', ih]
    unfold nextPosition firstDataCluster
    rw [← add_assoc, ← Nat.mod_add_mod (cluster - 2 + k) vol.totalClusters 1]
    split
    · rename_i atEnd
      have full : (cluster - 2 + k) % vol.totalClusters + 1 = vol.totalClusters := by omega
      rw [full, Nat.mod_self]
    · have notFull : (cluster - 2 + k) % vol.totalClusters + 1 < vol.totalClusters := by omega
      rw [Nat.mod_eq_of_lt notFull, add_assoc]

/-- The loop is still to come to the free cells. -/
def Ahead (vol : FATVolume) (rounds : Nat) (t : FATView) : Prop :=
  ∀ x, vol.isDataCluster x → t.cells x = .free → ∃ k < rounds, (nextPosition vol)^[k] t.position = x

theorem Ahead.next {rounds : Nat} (ahead : Ahead vol (rounds + 1) t)
    (here : t'.cells t.position ≠ .free) (same : ∀ x, t'.cells x = .free → t.cells x = .free) :
    Ahead vol rounds { t' with position := nextPosition vol t.position } := by
  intro x data free
  rcases ahead x data (same x free) with ⟨k, below, place⟩
  cases k with
  | zero =>
    have isHere : t.position = x := place
    exact absurd (isHere ▸ free) here
  | succ k => exact ⟨k, by omega, place⟩

theorem ahead_all (data : vol.isDataCluster cluster) :
    Ahead vol vol.totalClusters { t with position := cluster } := by
  intro x isData _
  have first := FATTable.isDataCluster_iff.1 data
  have second := FATTable.isDataCluster_iff.1 isData
  by_cases behind : cluster ≤ x
  · refine ⟨x - cluster, by omega, ?_⟩
    rw [nextPosition_iterate data, firstDataCluster, Nat.mod_eq_of_lt (by omega)]
    omega
  · refine ⟨x + vol.totalClusters - cluster, by omega, ?_⟩
    have around : cluster - 2 + (x + vol.totalClusters - cluster) = x - 2 + vol.totalClusters := by omega
    rw [nextPosition_iterate data, firstDataCluster, around, Nat.add_mod_right,
      Nat.mod_eq_of_lt (by omega)]
    omega

theorem allocateLoop_every (accepted : vol.Accepted) {clusterCount : Nat} (rounds : Nat)
    (mayStore : Bounds.Frees b vol t₀) (made : Allocated vol l firstCluster lastCluster t₀ t)
    (place : vol.isDataCluster t.position) (ahead : Ahead vol rounds t)
    (short : l.length < clusterCount) :
    (allocateLoop vol clusterCount rounds firstCluster lastCluster l.length).Every (boundedSpec vol b) t
      (Ends (fun result t' => ∃ l', Allocated vol l' result.1 result.2.1 t₀ t' ∧
        l'.length = result.2.2 ∧
          (result.2.2 = clusterCount ∨ result.2.2 < clusterCount ∧ freeCells vol t'.cells = ∅))
        fun t' => Undone vol b t₀ t' ∧ ∃ e, b.mayFail e) := by
  induction rounds generalizing t l firstCluster lastCluster with
  | zero =>
    refine ⟨l, made, rfl, .inr ⟨short, Finset.eq_empty_of_forall_notMem fun x member => ?_⟩⟩
    rw [mem_freeCells] at member
    rcases ahead x member.1 member.2 with ⟨_, below, _⟩
    cases below
  | succ rounds ih =>
    unfold allocateLoop
    have read : (perform .iteratorGetEntry).Every (boundedSpec vol b) t
        (Ends (fun value t' => (value = 0 ↔ t.cells t.position = .free) ∧ t' = t)
          fun t' => t' = t ∧ ∃ e, b.mayFail e) :=
      ⟨trivial, fun _ zero _ => ⟨zero, rfl⟩, fails_within fun mayFail _ => ⟨rfl, _, mayFail⟩⟩
    have placed := isDataCluster_nextPosition place
    apply ends_bind boundedSpec_monotone (guarded_every accepted mayStore made read)
    · intro value u ⟨zero, same⟩
      subst u
      show Every _ (if value = 0 then _ else _) _ _
      split
      · rename_i isZero
        have free := zero.1 isZero
        apply ends_bind boundedSpec_monotone (claimCluster_every accepted mayStore made free place)
        · intro linked t' ⟨made', still⟩
          have longer : (l ++ [t.position]).length = l.length + 1 := by simp
          show Every _ (if l.length + 1 = clusterCount then _ else _) _ _
          split
          · rename_i enough
            exact ⟨_, made', longer, .inl enough⟩
          · have taken : t'.cells t.position ≠ .free := by
              rcases made'.chain with ⟨none, _⟩ | ⟨linked, _⟩
              · exact absurd none (by simp)
              · exact linked.not_free _ (by simp)
            have fewer (x : Nat) (isFree : t'.cells x = .free) : t.cells x = .free := by
              rcases made'.chain with ⟨none, _⟩ | ⟨linked, _⟩
              · exact absurd none (by simp)
              have outside : x ∉ l ++ [t.position] := fun member => linked.not_free x member isFree
              rw [made.outside x fun member => outside (mem_append_left _ member),
                ← made'.outside x outside]
              exact isFree
            have ahead' := ahead.next taken fewer
            have again := ih (made'.moved (nextPosition vol t.position)) placed ahead' (by omega)
            rw [longer] at again
            refine ⟨trivial, fun _ => ?_⟩
            rw [still]
            exact again
        · exact fun _ undone => undone
      · rename_i some'
        have used : t.cells t.position ≠ .free := fun free => some' (zero.2 free)
        exact ⟨trivial, fun _ => ih (made.moved _) placed (ahead.next used fun _ free => free) short⟩
    · exact fun _ undone => undone

/-- Why the allocation throws: a call has failed, or too few clusters are free. -/
def Refused (vol : FATVolume) (b : Bounds) (t : FATView) (clusterCount : Nat) : Prop :=
  (∃ e, b.mayFail e) ∨ clusterCount = 0 ∨ (freeCells vol t.cells).card < clusterCount

section

variable (accepted : vol.Accepted) (counts : t.CountsFree vol)
  (hint : vol.isDataCluster t.memory.lastAllocatedCluster)

include accepted counts hint

theorem allocateClusters_bounded
    (mayStore : Bounds.Frees b vol t)
    (clusterCount : Nat) :
    (allocateClusters vol clusterCount).Every (boundedSpec vol b) t
      (Ends (fun ends t' => ∃ l, Allocated vol l ends.1 ends.2 t t' ∧ l.length = clusterCount ∧
        0 < clusterCount) fun t' => Undone vol b t t' ∧ Refused vol b t clusterCount) := by
  have undone : Undone vol b t t := ⟨⟨rfl, counts, hint, fun _ _ => rfl⟩, .inr rfl⟩
  unfold allocateClusters
  split
  · rename_i none
    exact ⟨undone, .inr (.inl none)⟩
  split
  · rename_i tooMany
    have := card_freeCells_le vol t.cells
    exact ⟨undone, .inr (.inr (by omega))⟩
  rename_i some' _
  refine ⟨trivial, fun _ => ⟨trivial, hint, fun _ => ?_⟩⟩
  have started := (Allocated.start counts hint).moved t.memory.lastAllocatedCluster
  apply ends_bind boundedSpec_monotone (allocateLoop_every accepted vol.totalClusters mayStore started
    hint (ahead_all hint) (Nat.pos_of_ne_zero some'))
  · intro ⟨firstCluster, lastCluster, allocated⟩ t' ⟨l, made, length, enough⟩
    have info : (updateFSInfo vol).Every (boundedSpec vol b) t'
        (Ends (fun _ u => u = t') fun u => u = t' ∧ ∃ e, b.mayFail e) :=
      bounded_updateFSInfo rfl fun mayFail _ => ⟨rfl, _, mayFail⟩
    apply ends_bind boundedSpec_monotone (guarded_every accepted mayStore made info)
    · rintro _ _ rfl
      dsimp only at length enough ⊢
      split
      · rename_i notEnough
        have few : (freeCells vol t.cells).card < clusterCount := by
          rcases enough with enough | ⟨short, none⟩
          · exact absurd enough notEnough
          · rw [made.card_free, none, Finset.card_empty, length]
            omega
        exact guarded_every accepted mayStore made ⟨rfl, .inr (.inr few)⟩
      · rename_i isEnough
        have isEnough : l.length = clusterCount := length.trans (not_not.1 isEnough)
        rcases made.chain with ⟨rfl, _⟩ | ⟨linked, last⟩
        · exact absurd isEnough.symm some'
        · have first := (made.fresh _ linked.mem_head).1
          have last := (made.fresh _ (mem_of_getLast? last)).1
          rw [if_pos (by simp [first, last])]
          exact ⟨l, made, isEnough, Nat.pos_of_ne_zero some'⟩
    · exact fun _ undone => ⟨undone.1, .inl undone.2⟩
  · exact fun _ undone => ⟨undone.1, .inl undone.2⟩

theorem allocateClusters_every
    (clusterCount : Nat) :
    (allocateClusters vol clusterCount).Every (viewSpec vol) t
      (Ends (fun ends t' => ∃ l, Allocated vol l ends.1 ends.2 t t' ∧ l.length = clusterCount ∧
        0 < clusterCount) (Claimed vol t)) := by
  apply every_of_any
  apply ends_mono boundedSpec_monotone
    (allocateClusters_bounded accepted counts hint (fun _ _ _ => trivial) clusterCount)
  · exact fun _ _ made => made
  · exact fun _ undone => undone.1.toClaimed

end

end Driver

end PadOS.Fat
