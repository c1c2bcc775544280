import PadOS.Fat.PackedTable

/-! # The iterator as a window on the table

`Update` reloads only when the first sector of the entry is not the loaded one.
An entry that straddles two sectors and is reached from a neighbour in the first
of them finds no second block. `Stale` is this situation; in runs that stay clear
of it the iterator reads and writes the packed entry of its cluster.
-/

namespace PadOS.Fat

open Transition Option

variable {vol : FATVolume} {disk : Disk} {it : FATTableIterator} {faults : Faults}

namespace FATTableIterator

/-- The first sector is loaded, the second one that the entry needs is not. -/
structure Stale (vol : FATVolume) (it : FATTableIterator) : Prop where
  straddles : vol.Straddles it.currentCluster
  first : it.loadedSector1 = some it.currentSector
  second : it.loadedSector2 = none

/-- The loaded sectors are the ones the descriptors hold, and the second follows
the first. -/
structure Window (vol : FATVolume) (it : FATTableIterator) : Prop where
  data : vol.isDataCluster it.currentCluster
  sector : it.currentSector = vol.entrySector it.currentCluster
  offset : it.offsetInSector = vol.entryOffset it.currentCluster
  first : ∀ s, it.loadedSector1 = some s → it.block1 = .of s
  second : ∀ s, it.loadedSector2 = some s → it.block2 = .of s ∧ s < vol.fatEndSector ∧
    ∃ s₁, it.loadedSector1 = some s₁ ∧ s = s₁ + 1

namespace Window

theorem start {cluster : Nat} (data : vol.isDataCluster cluster) : Window vol (start vol cluster) where
  data := data
  sector := rfl
  offset := rfl
  first _ loaded := by cases loaded
  second _ loaded := by cases loaded

theorem moveTo (w : Window vol it) {cluster : Nat} (data : vol.isDataCluster cluster) :
    Window vol (it.moveTo vol cluster) :=
  ⟨data, rfl, rfl, w.first, w.second⟩

theorem loadFirst (w : Window vol it) {it' : FATTableIterator}
    (loaded : it.loadFirst faults = .ok it') :
    Window vol it' ∧ it'.currentCluster = it.currentCluster ∧
      it'.loadedSector1 = some it'.currentSector ∧ it'.loadedSector2 = none := by
  unfold FATTableIterator.loadFirst at loaded
  split at loaded
  · rename_i next
    obtain rfl := Except.ok.inj loaded
    refine ⟨⟨w.data, w.sector, w.offset, fun s isFirst => ?_, fun s isSecond => by cases isSecond⟩,
      rfl, rfl, rfl⟩
    obtain rfl := some.inj isFirst
    exact (w.second _ next.2).1
  · split at loaded
    · cases loaded
    · obtain rfl := Except.ok.inj loaded
      refine ⟨⟨w.data, w.sector, w.offset, fun s isFirst => ?_, fun s isSecond => by cases isSecond⟩,
        rfl, rfl, rfl⟩
      obtain rfl := some.inj isFirst
      rfl

end Window

/-- What `Update` leaves: a window, with the first sector of the entry and, if all
is `fresh`, the second. -/
structure Updated (vol : FATVolume) (faults : Faults) (it : FATTableIterator) (fresh : Prop)
    (result : Option Stop × FATTableIterator) : Prop where
  window : Window vol result.2
  cluster : result.2.currentCluster = it.currentCluster
  loaded : result.1 = none → result.2.loadedSector1 = some result.2.currentSector
  ready : result.1 = none → fresh → vol.Straddles result.2.currentCluster →
    result.2.loadedSector2 = some (result.2.currentSector + 1)
  fails : ∀ stop, result.1 = some stop → ∃ sector code, faults sector = some code ∧ stop = .throws code

theorem loadSecond_spec (accepted : vol.Accepted) (w : Window vol it)
    (first : it.loadedSector1 = some it.currentSector) (second : it.loadedSector2 = none)
    (faults : Faults) : Updated vol faults it True (it.loadSecond vol faults) := by
  unfold loadSecond
  split
  · rename_i last
    have straddles : vol.Straddles it.currentCluster := w.offset.symm.trans last
    cases fault : faults (it.currentSector + 1) with
    | some code =>
      refine ⟨⟨w.data, w.sector, w.offset, fun s isFirst => ?_, fun s isSecond => ?_⟩, rfl, ?_, ?_,
        ?_⟩
      · cases isFirst
      · exact absurd (second.symm.trans isSecond) (by simp)
      · intro none
        cases none
      · intro none
        cases none
      · intro stop failed
        obtain rfl := some.inj failed
        exact ⟨_, code, fault, rfl⟩
    | none =>
      refine ⟨⟨w.data, w.sector, w.offset, w.first, fun s isSecond => ?_⟩, rfl, fun _ => first,
        fun _ _ _ => rfl, ?_⟩
      · obtain rfl := some.inj isSecond
        refine ⟨rfl, ?_, it.currentSector, first, rfl⟩
        rw [w.sector]
        exact accepted.straddling_sector_lt w.data straddles
      · intro stop failed
        cases failed
  · rename_i notLast
    refine ⟨w, rfl, fun _ => first, fun _ _ straddles => ?_, ?_⟩
    · exact absurd (w.offset.trans straddles) notLast
    · intro stop failed
      cases failed

theorem update_spec (accepted : vol.Accepted) (w : Window vol it) (faults : Faults) :
    Updated vol faults it (¬it.Stale vol) (it.update vol faults) := by
  unfold update
  rw [if_neg (by simp [w.data]), if_neg (by simp [w.offset])]
  by_cases loaded : it.loadedSector1 = some it.currentSector
  · rw [if_pos loaded]
    refine ⟨w, rfl, fun _ => loaded, fun _ fresh straddles => ?_, ?_⟩
    · cases second : it.loadedSector2 with
      | none => exact absurd ⟨straddles, loaded, second⟩ fresh
      | some s =>
        obtain ⟨_, _, s₁, first, rfl⟩ := w.second s second
        obtain rfl := some.inj (first.symm.trans loaded)
        rfl
    · intro stop failed
      cases failed
  · rw [if_neg loaded]
    cases result : it.loadFirst faults with
    | error code =>
      refine ⟨w, rfl, ?_, ?_, ?_⟩
      · intro none
        cases none
      · intro none
        cases none
      · intro stop failed
        obtain rfl := some.inj failed
        refine ⟨it.currentSector, code, ?_, rfl⟩
        unfold loadFirst at result
        split at result
        · cases result
        · split at result
          · rename_i fault
            obtain rfl := Except.error.inj result
            exact fault
          · cases result
    | ok it' =>
      obtain ⟨w', cluster, first, second⟩ := w.loadFirst result
      have after := loadSecond_spec accepted w' first second faults
      exact ⟨after.window, after.cluster.trans cluster, after.loaded,
        fun none _ => after.ready none trivial, after.fails⟩

end FATTableIterator

end PadOS.Fat
