import PadOS.Fat.Allocation

/-! # Rules for the calls

What has to hold before a call, for what should hold when the program that goes on
with it returns or throws.
-/

namespace PadOS.Fat

open Program

variable {vol : FATVolume} {t : FATView} {β : Type} {post : Except Stop β → FATView → Prop}
  {cluster value : Nat}

/-! ## Stored values -/

theorem cell_zero : vol.cell (0 % 2 ^ vol.entryWidth) = .free := by
  rw [Nat.zero_mod]
  exact if_pos rfl

theorem cell_data (accepted : vol.Accepted) (data : vol.isDataCluster value) :
    vol.cell (value % 2 ^ vol.entryWidth) = .next value := by
  have width := accepted.width
  have atMost := accepted.atMost
  have bounds := FATTable.isDataCluster_iff.1 data
  have small : value < 2 ^ vol.entryWidth := by
    unfold FATVolume.entryWidth
    rcases accepted.fatBits_cases with bits | bits | bits <;> rw [bits] at width ⊢
    · split at width
      · simp
        omega
      · split at width <;> omega
    · split at width
      · omega
      · split at width
        · simp
          omega
        · omega
    · simp only [if_true]
      omega
  rw [Nat.mod_eq_of_lt small]
  unfold FATVolume.cell
  rw [if_neg (by omega), if_pos data]

theorem cell_end (accepted : vol.Accepted) : vol.cell (endFatEntry % 2 ^ vol.entryWidth) = .last := by
  have width := accepted.width
  have atMost := accepted.atMost
  unfold FATVolume.cell FATVolume.entryWidth
  rcases accepted.fatBits_cases with bits | bits | bits <;> rw [bits] at width ⊢
  · have few : ¬vol.isDataCluster (endFatEntry % 2 ^ 12) := by
      rw [FATTable.isDataCluster_iff]
      unfold endFatEntry
      split at width
      · omega
      · split at width <;> omega
    simp only [Nat.reduceEqDiff, if_false]
    rw [if_neg (by decide), if_neg few, if_pos (by decide)]
  · have few : ¬vol.isDataCluster (endFatEntry % 2 ^ 16) := by
      rw [FATTable.isDataCluster_iff]
      unfold endFatEntry
      split at width
      · omega
      · split at width <;> omega
    simp only [Nat.reduceEqDiff, if_false]
    rw [if_neg (by decide), if_neg few, if_pos (by decide)]
  · have few : ¬vol.isDataCluster (endFatEntry % 2 ^ 28) := by
      rw [FATTable.isDataCluster_iff]
      unfold endFatEntry
      omega
    simp only [if_true]
    rw [if_neg (by decide), if_neg few, if_pos (by decide)]

theorem storable_zero : vol.Storable 0 := .inl rfl

theorem storable_end : vol.Storable endFatEntry := .inr (.inl rfl)

theorem storable_data (data : vol.isDataCluster value) : vol.Storable value := .inr (.inr data)

/-! ## Calls -/

namespace Driver

theorem after_getEntry {f : Nat → Driver β} (data : vol.isDataCluster cluster) (failed : Fails t post)
    (rest : (f (valueOf (t.cells cluster))).Every (viewSpec vol) t post) :
    (getEntry cluster >>= f).Every (viewSpec vol) t post :=
  ⟨data, rest, failed⟩

theorem after_setEntry {f : Unit → Driver β} (data : vol.isDataCluster cluster)
    (storable : vol.Storable value) (failed : Fails t post) (rest : (f ()).Every (viewSpec vol)
      (t.setCell cluster (vol.cell (value % 2 ^ vol.entryWidth))) post) :
    (setEntry cluster value >>= f).Every (viewSpec vol) t post :=
  ⟨data, storable, rest, failed⟩

theorem after_recall {f : Memory → Driver β} (rest : (f t.memory).Every (viewSpec vol) t post) :
    (recollect >>= f).Every (viewSpec vol) t post := rest

theorem after_node {id : Nat} {inode : FATInode} {f : FATInode → Driver β}
    (known : t.memory.nodes id = some inode) (rest : (f inode).Every (viewSpec vol) t post) :
    (node id >>= f).Every (viewSpec vol) t post :=
  every_node (fun _ holds => holds) known rest

/-- The view after an inode has been changed. -/
def withNode (t : FATView) (id : Nat) (change : FATInode → FATInode) : FATView :=
  { t with memory := { t.memory with
      nodes := fun i => if i = id then (t.memory.nodes i).map change else t.memory.nodes i } }

theorem after_setNode {id : Nat} {change : FATInode → FATInode} {f : Unit → Driver β}
    (rest : (f ()).Every (viewSpec vol) (withNode t id change) post) :
    (setNode id change >>= f).Every (viewSpec vol) t post := rest

end Driver

/-! ## Bounded calls -/

/-- The calls that may fail, and the clusters whose entries may be stored. -/
structure Bounds where
  mayFail : FATCall → Prop
  mayStore : Nat → Prop

namespace Bounds

def allows (b : Bounds) : FATCall → FATView → Prop
  | .setEntry cluster _, _ => b.mayStore cluster
  | .iteratorSetEntry _, t => b.mayStore t.position
  | _, _ => True

/-- Anything may happen. -/
def any : Bounds := ⟨fun _ => True, fun _ => True⟩

/-- Clearing an entry may fail, or reading one that is to be cleared. -/
def Unsure (b : Bounds) : Prop :=
  ∃ cluster, b.mayFail (.getEntry cluster) ∨ b.mayFail (.setEntry cluster 0)

end Bounds

def boundedSpec (vol : FATVolume) (b : Bounds) : Program.Spec FATCall FATCall.Result FATView :=
  (viewSpec vol).within b.mayFail b.allows

theorem boundedSpec_monotone {b : Bounds} : (boundedSpec vol b).Monotone := viewSpec_monotone.within

theorem every_of_any {α : Type} {p : Driver α} {post : Except Stop α → FATView → Prop}
    (every : p.Every (boundedSpec vol .any) t post) : p.Every (viewSpec vol) t post :=
  every_of_within viewSpec_monotone every

namespace Driver

variable {b : Bounds}

theorem fails_within {α : Type} {e : FATCall} {post : Except Stop α → FATView → Prop}
    (failed : b.mayFail e → Fails t post) :
    Fails t fun r t' => (∀ stop, r = .error stop → b.mayFail e) → post r t' :=
  fun code mayFail => failed (mayFail _ rfl) code

theorem bounded_getEntry {f : Nat → Driver β} (data : vol.isDataCluster cluster)
    (failed : b.mayFail (.getEntry cluster) → Fails t post)
    (rest : (f (valueOf (t.cells cluster))).Every (boundedSpec vol b) t post) :
    (getEntry cluster >>= f).Every (boundedSpec vol b) t post :=
  ⟨trivial, data, fun _ => rest, fails_within failed⟩

theorem bounded_setEntry {f : Unit → Driver β} (mayStore : b.mayStore cluster)
    (data : vol.isDataCluster cluster) (storable : vol.Storable value)
    (failed : b.mayFail (.setEntry cluster value) → Fails t post)
    (rest : (f ()).Every (boundedSpec vol b)
      (t.setCell cluster (vol.cell (value % 2 ^ vol.entryWidth))) post) :
    (setEntry cluster value >>= f).Every (boundedSpec vol b) t post :=
  ⟨mayStore, data, storable, fun _ => rest, fails_within failed⟩

theorem bounded_update {change : Memory → Memory} {f : Unit → Driver β}
    (rest : (f ()).Every (boundedSpec vol b) { t with memory := change t.memory } post) :
    (update change >>= f).Every (boundedSpec vol b) t post :=
  ⟨trivial, fun _ => rest⟩

theorem bounded_updateFSInfo {post : Except Stop Unit → FATView → Prop} (done : post (.ok ()) t)
    (failed : b.mayFail .updateFSInfo → Fails t post) :
    (updateFSInfo vol).Every (boundedSpec vol b) t post := by
  unfold updateFSInfo
  split
  · exact ⟨trivial, fun _ => done, fails_within failed⟩
  · exact done

end Driver

end PadOS.Fat
