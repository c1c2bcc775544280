import PadOS.Fat.TableWindow

/-! # Writing through to the mirrors

`SetEntry` copies each loaded sector of the active FAT to the same sector of the
other FATs. Sector `i` of one FAT is never a sector of another, so the copies
leave the active FAT alone.
-/

namespace PadOS.Fat

variable {vol : FATVolume} {disk disk' : Disk} {it : FATTableIterator} {faults : Faults}
  {sector s first cluster value : Nat} {second : Option Nat}

/-- A place is in one row of `n`, at one index. -/
theorem place_unique {n k k' i i' : Nat} (inside : i < n) (inside' : i' < n)
    (same : k * n + i = k' * n + i') : k = k' ∧ i = i' := by
  have positive : 0 < n := Nat.zero_lt_of_lt inside
  rw [mul_comm k, mul_comm k', add_comm _ i, add_comm _ i'] at same
  have row : (i + n * k) / n = k ∧ (i + n * k) % n = i :=
    (Nat.div_mod_unique positive).2 ⟨rfl, inside⟩
  have row' : (i' + n * k') / n = k' ∧ (i' + n * k') % n = i' :=
    (Nat.div_mod_unique positive).2 ⟨rfl, inside'⟩
  rw [same] at row
  exact ⟨row.1.symm.trans row'.1, row.2.symm.trans row'.2⟩

namespace FATVolume

def InActiveFAT (vol : FATVolume) (sector : Nat) : Prop :=
  vol.fatStartSector ≤ sector ∧ sector < vol.fatEndSector

/-- The sector of another FAT that mirrors a sector of the active one. -/
def mirrorSector (vol : FATVolume) (sector fatIndex : Nat) : Nat :=
  vol.reservedSectors + fatIndex * vol.sectorsPerFAT + (sector - vol.fatStartSector)

def mirrors (vol : FATVolume) (sector : Nat) : List Nat :=
  if vol.fatMirrored then
    ((List.range vol.fatCount).filter (· ≠ vol.activeFAT)).map (vol.mirrorSector sector)
  else []

theorem mirrorSector_inj {sector' f f' : Nat} (active : vol.InActiveFAT sector)
    (active' : vol.InActiveFAT sector')
    (same : vol.mirrorSector sector f = vol.mirrorSector sector' f') :
    sector = sector' ∧ f = f' := by
  unfold InActiveFAT fatEndSector at active active'
  unfold mirrorSector at same
  have inside : sector - vol.fatStartSector < vol.sectorsPerFAT := by omega
  have inside' : sector' - vol.fatStartSector < vol.sectorsPerFAT := by omega
  have flat : f * vol.sectorsPerFAT + (sector - vol.fatStartSector) =
      f' * vol.sectorsPerFAT + (sector' - vol.fatStartSector) := by omega
  have place := place_unique inside inside' flat
  omega

theorem mirrorSector_active (active : vol.InActiveFAT sector) :
    vol.mirrorSector sector vol.activeFAT = sector := by
  unfold InActiveFAT fatStartSector at active
  unfold mirrorSector fatStartSector
  omega

theorem mem_mirrors : s ∈ vol.mirrors sector ↔
    vol.fatMirrored ∧ ∃ f, f < vol.fatCount ∧ f ≠ vol.activeFAT ∧ vol.mirrorSector sector f = s := by
  unfold mirrors
  by_cases mirrored : vol.fatMirrored
  · simp [mirrored, and_assoc]
  · simp [mirrored]

/-- No sector of the active FAT is a mirror. -/
theorem not_mem_mirrors (active : vol.InActiveFAT sector)
    (active' : vol.InActiveFAT s) : s ∉ vol.mirrors sector := by
  intro mirror
  obtain ⟨_, f, _, other, place⟩ := mem_mirrors.1 mirror
  apply other
  rw [← mirrorSector_active active'] at place
  exact (mirrorSector_inj active active' place).2

theorem mem_mirrors_bounds (active : vol.InActiveFAT sector)
    (mirror : s ∈ vol.mirrors sector) :
    vol.reservedSectors ≤ s ∧ s < vol.reservedSectors + vol.fatCount * vol.sectorsPerFAT := by
  obtain ⟨_, f, below, _, rfl⟩ := mem_mirrors.1 mirror
  unfold InActiveFAT fatEndSector at active
  have room : f * vol.sectorsPerFAT + vol.sectorsPerFAT ≤ vol.fatCount * vol.sectorsPerFAT := by
    rw [← Nat.succ_mul]
    exact Nat.mul_le_mul_right _ below
  unfold mirrorSector
  omega

end FATVolume

open FATVolume List Option

namespace FATTableIterator

theorem mapM_mirrors (faults : Faults) (place : Nat → Nat) (indices : List Nat) :
    (∃ sector code, faults sector = some code ∧ (indices.mapM fun f => match faults (place f) with
        | some code => Except.error (Stop.throws code)
        | none => .ok (place f)) = .error (.throws code)) ∨
    (indices.mapM fun f => match faults (place f) with
        | some code => Except.error (Stop.throws code)
        | none => .ok (place f)) = .ok (indices.map place) := by
  induction indices with
  | nil => exact .inr rfl
  | cons f rest ih =>
    cases fault : faults (place f) with
    | some code =>
      refine .inl ⟨_, code, fault, ?_⟩
      rw [mapM_cons, fault]
      rfl
    | none =>
      rcases ih with ⟨sector, code, failed, result⟩ | result
      · refine .inl ⟨sector, code, failed, ?_⟩
        rw [mapM_cons, fault, result]
        rfl
      · apply Or.inr
        rw [mapM_cons, fault, result]
        rfl

theorem acquireMirrorBlocks_spec (accepted : vol.Accepted)
    (active : vol.InActiveFAT sector) (faults : Faults) :
    (∃ s code, faults s = some code ∧
      acquireMirrorBlocks vol faults sector = .error (.throws code)) ∨
    acquireMirrorBlocks vol faults sector = .ok (vol.mirrors sector) := by
  have fats := accepted.fats.2
  unfold InActiveFAT at active
  unfold acquireMirrorBlocks mirrors
  by_cases mirrored : vol.fatMirrored
  · rw [if_neg (by simp [mirrored]), if_neg (by omega), if_neg (by omega), if_pos mirrored]
    exact mapM_mirrors faults (vol.mirrorSector sector) _
  · rw [if_pos (by simp [mirrored]), if_neg mirrored]
    exact .inr rfl

theorem copyToMirrorBlocks_apply (disk : Disk) {source : Nat} {mirrors : List Nat}
    (apart : source ∉ mirrors) (s i : Nat) :
    copyToMirrorBlocks vol disk source mirrors s i =
      if s ∈ mirrors ∧ i < vol.bytesPerSector then disk source i else disk s i := by
  unfold copyToMirrorBlocks
  induction mirrors generalizing disk with
  | nil => simp
  | cons mirror rest ih =>
    rw [mem_cons, not_or] at apart
    rw [foldl_cons, ih _ apart.2]
    have unchanged : ¬(source = mirror ∧ i < vol.bytesPerSector) := fun h => apart.1 h.1
    rw [if_neg unchanged]
    by_cases later : s ∈ rest ∧ i < vol.bytesPerSector
    · rw [if_pos later, if_pos ⟨mem_cons_of_mem _ later.1, later.2⟩]
    · rw [if_neg later]
      by_cases here : s = mirror ∧ i < vol.bytesPerSector
      · rw [if_pos here, if_pos ⟨here.1 ▸ mem_cons_self, here.2⟩]
      · rw [if_neg here, if_neg]
        intro either
        rcases mem_cons.1 either.1 with rfl | inRest
        · exact here ⟨rfl, either.2⟩
        · exact later ⟨inRest, either.2⟩

/-! ## Writing an entry -/

/-- What `SetEntry` does to the disk: the bits of the entry change, the other FATs
keep their sectors or take over those of the active FAT, and the sectors outside
the FATs stay as they are. -/
structure SetsEntry (vol : FATVolume) (cluster value : Nat) (disk disk' : Disk) : Prop where
  bits : ∀ k, k < 8 * (vol.sectorsPerFAT * vol.bytesPerSector) → vol.fatBit disk' k =
    BitTable.put (vol.fatBit disk) vol.fatBits vol.entryWidth cluster value k
  outside : ∀ s, s < vol.reservedSectors ∨
    vol.reservedSectors + vol.fatCount * vol.sectorsPerFAT ≤ s → disk' s = disk s
  mirrors : ∀ s i, ¬vol.InActiveFAT s → disk' s i = disk s i ∨
    ∃ active, vol.InActiveFAT active ∧ s ∈ vol.mirrors active ∧ disk' s i = disk' active i
  copied : ∀ active, active = vol.entrySector cluster ∨
      (vol.Straddles cluster ∧ active = vol.entrySector cluster + 1) →
    ∀ s ∈ vol.mirrors active, ∀ i, i < vol.bytesPerSector → disk' s i = disk' active i

theorem Updated.shows {fresh : Prop} {result : Option Stop × FATTableIterator}
    (updated : Updated vol faults it fresh result) (done : result.1 = none) (ready : fresh) :
    result.2.Shows vol where
  sector := updated.window.sector
  offset := updated.window.offset
  first := by
    rw [updated.window.first _ (updated.loaded done)]
    rfl
  second straddles := by
    rw [(updated.window.second _ (updated.ready done ready straddles)).1]
    rfl

theorem Window.active (accepted : vol.Accepted) (w : Window vol it) :
    vol.InActiveFAT it.currentSector := by
  rw [w.sector]
  exact ⟨Nat.le_add_right _ _, accepted.entrySector_lt w.data⟩

theorem Window.active_second (accepted : vol.Accepted) (w : Window vol it)
    (first : it.loadedSector1 = some it.currentSector) (second : it.loadedSector2 = some s) :
    s = it.currentSector + 1 ∧ vol.InActiveFAT s := by
  obtain ⟨_, below, s₁, isFirst, rfl⟩ := w.second s second
  obtain rfl := some.inj (isFirst.symm.trans first)
  have := (w.active accepted).1
  exact ⟨rfl, by omega, below⟩

/-- The iterator moves its window only in `Update`. -/
theorem getEntry_iterator (faults : Faults) (disk : Disk) :
    (it.getEntry vol faults disk).2 = (it.update vol faults).2 := by
  unfold getEntry
  split <;> rename_i updated <;> rw [updated]

theorem setEntry_iterator (faults : Faults) (value : Nat) (disk : Disk) :
    (it.setEntry vol faults value disk).2.1 = (it.update vol faults).2 := by
  unfold setEntry
  split
  · rename_i updated
    rw [updated]
  · rename_i updated
    rw [updated]
    split
    · rfl
    · split <;> rfl

theorem getEntry_spec (accepted : vol.Accepted) (w : Window vol it) (fresh : ¬it.Stale vol)
    (faults : Faults) (disk : Disk) :
    (∃ sector code, faults sector = some code ∧
      (it.getEntry vol faults disk).1 = .error (.throws code)) ∨
    (it.getEntry vol faults disk).1 = .ok (widen vol.fatBits (vol.entry disk it.currentCluster)) := by
  have updated := update_spec accepted w faults
  unfold getEntry
  cases result : it.update vol faults with
  | mk stop it' =>
    rw [result] at updated
    cases stop with
    | some stop =>
      obtain ⟨sector, code, fault, rfl⟩ := updated.fails stop rfl
      exact .inl ⟨sector, code, fault, rfl⟩
    | none =>
      apply Or.inr
      show it'.readEntry vol disk = _
      rw [readEntry_eq accepted (updated.shows rfl fresh), updated.cluster]

theorem acquireMirrors_spec (accepted : vol.Accepted) (w : Window vol it)
    (first : it.loadedSector1 = some it.currentSector) (faults : Faults) :
    (∃ s code, faults s = some code ∧ it.acquireMirrors vol faults = .error (.throws code)) ∨
    it.acquireMirrors vol faults = .ok (vol.mirrors it.currentSector, match it.loadedSector2 with
      | none => []
      | some second => vol.mirrors second) := by
  unfold acquireMirrors
  rw [first, getD_some]
  rcases acquireMirrorBlocks_spec accepted (w.active accepted) faults with
    ⟨s, code, fault, result⟩ | result
  · exact .inl ⟨s, code, fault, by rw [result]⟩
  · rw [result]
    cases second : it.loadedSector2 with
    | none => exact .inr rfl
    | some s₂ =>
      have active := (w.active_second accepted first second).2
      rcases acquireMirrorBlocks_spec accepted active faults with ⟨s, code, fault, result₂⟩ | result₂
      · exact .inl ⟨s, code, fault, by simp only [result₂]⟩
      · exact .inr (by simp only [result₂])

/-- The disk after the mirrors of one sector, and of a second one if it is loaded,
have been written. -/
def copied (vol : FATVolume) (disk : Disk) (first : Nat) (second : Option Nat) : Disk :=
  copyToMirrorBlocks vol (copyToMirrorBlocks vol disk first (vol.mirrors first)) (second.getD 0)
    (match second with
      | none => []
      | some second => vol.mirrors second)

theorem copied_apply (disk : Disk)
    (active : vol.InActiveFAT first) (active' : ∀ s, second = some s → vol.InActiveFAT s) (s i : Nat) :
    copied vol disk first second s i =
      if (∃ s₂, second = some s₂ ∧ s ∈ vol.mirrors s₂) ∧ i < vol.bytesPerSector then
        disk (second.getD 0) i
      else if s ∈ vol.mirrors first ∧ i < vol.bytesPerSector then disk first i
      else disk s i := by
  unfold copied
  cases second with
  | none =>
    show copyToMirrorBlocks vol disk first (vol.mirrors first) s i = _
    rw [copyToMirrorBlocks_apply disk (not_mem_mirrors active active)]
    simp
  | some s₂ =>
    have active₂ := active' s₂ rfl
    rw [getD_some, copyToMirrorBlocks_apply _ (not_mem_mirrors active₂ active₂),
      copyToMirrorBlocks_apply _ (not_mem_mirrors active active),
      copyToMirrorBlocks_apply _ (not_mem_mirrors active active)]
    simp [not_mem_mirrors active active₂]

section

variable (active : vol.InActiveFAT first) (active' : ∀ s, second = some s → vol.InActiveFAT s)

include active active'

theorem copied_of_active
    (inside : vol.InActiveFAT s) :
    copied vol disk first second s = disk s := by
  funext i
  rw [copied_apply disk active active', if_neg, if_neg]
  · intro mirror
    exact not_mem_mirrors active inside mirror.1
  · intro mirror
    obtain ⟨⟨s₂, isSecond, member⟩, _⟩ := mirror
    exact not_mem_mirrors (active' s₂ isSecond) inside member

theorem copied_mirror
    {source : Nat}
    (loaded : source = first ∨ second = some source) {i : Nat} (member : s ∈ vol.mirrors source)
    (inside : i < vol.bytesPerSector) :
    copied vol disk first second s i = disk source i := by
  have unique : ∀ s₂, vol.InActiveFAT s₂ → vol.InActiveFAT source → s ∈ vol.mirrors s₂ →
      s₂ = source := by
    intro s₂ active₂ activeSource member₂
    obtain ⟨_, f, _, _, place⟩ := mem_mirrors.1 member
    obtain ⟨_, f', _, _, place'⟩ := mem_mirrors.1 member₂
    exact (mirrorSector_inj active₂ activeSource (place'.trans place.symm)).1
  have activeSource : vol.InActiveFAT source := by
    rcases loaded with rfl | isSecond
    · exact active
    · exact active' source isSecond
  rw [copied_apply disk active active']
  by_cases viaSecond : ∃ s₂, second = some s₂ ∧ s ∈ vol.mirrors s₂
  · rw [if_pos ⟨viaSecond, inside⟩]
    obtain ⟨s₂, isSecond, member₂⟩ := viaSecond
    obtain rfl := unique s₂ (active' s₂ isSecond) activeSource member₂
    rw [isSecond, getD_some]
  · rw [if_neg (fun h => viaSecond h.1)]
    rcases loaded with rfl | isSecond
    · rw [if_pos ⟨member, inside⟩]
    · exact absurd ⟨source, isSecond, member⟩ viaSecond

end

/-- Each sector outside the active FAT is as it was or a copy. -/
theorem copied_cases (disk : Disk)
    (active : vol.InActiveFAT first) (active' : ∀ s, second = some s → vol.InActiveFAT s) (s i : Nat) :
    copied vol disk first second s i = disk s i ∨
      ∃ source, vol.InActiveFAT source ∧ s ∈ vol.mirrors source ∧
        copied vol disk first second s i = copied vol disk first second source i := by
  rw [copied_apply disk active active']
  split
  · rename_i viaSecond
    obtain ⟨⟨s₂, isSecond, member⟩, _⟩ := viaSecond
    refine .inr ⟨s₂, active' s₂ isSecond, member, ?_⟩
    rw [copied_of_active active active' (active' s₂ isSecond), isSecond, getD_some]
  · split
    · rename_i viaFirst
      exact .inr ⟨first, active, viaFirst.1, by rw [copied_of_active active active' active]⟩
    · exact .inl rfl

/-- The sectors of an entry lie in the active FAT. -/
theorem active_of_entry (accepted : vol.Accepted) (data : vol.isDataCluster cluster)
    (place : s = vol.entrySector cluster ∨
      (vol.Straddles cluster ∧ s = vol.entrySector cluster + 1)) : vol.InActiveFAT s := by
  have above : vol.fatStartSector ≤ vol.entrySector cluster := Nat.le_add_right _ _
  rcases place with rfl | ⟨straddles, rfl⟩
  · exact ⟨above, accepted.entrySector_lt data⟩
  · exact ⟨by omega, accepted.straddling_sector_lt data straddles⟩

theorem setsEntry_of_writes (accepted : vol.Accepted)
    (data : vol.isDataCluster cluster) (active' : ∀ s, second = some s → vol.InActiveFAT s)
    (needed : vol.Straddles cluster → second = some (vol.entrySector cluster + 1))
    (writes : Writes vol cluster value disk disk') :
    SetsEntry vol cluster value disk (copied vol disk' (vol.entrySector cluster) second) := by
  have active := active_of_entry accepted data (.inl rfl)
  have unwritten : ∀ s, ¬vol.InActiveFAT s → disk' s = disk s := by
    intro s outside
    apply writes.others
    · intro same
      exact outside (same ▸ active)
    · intro straddles same
      exact outside (active_of_entry accepted data (.inr ⟨straddles, same⟩))
  have fats : vol.activeFAT * vol.sectorsPerFAT + vol.sectorsPerFAT ≤
      vol.fatCount * vol.sectorsPerFAT := by
    rw [← Nat.succ_mul]
    exact Nat.mul_le_mul_right _ accepted.active
  constructor
  · intro k inside
    rw [← writes.bits]
    unfold fatBit fatByte
    rw [copied_of_active active active']
    have byte : k / 8 < vol.sectorsPerFAT * vol.bytesPerSector := by omega
    have sector : k / 8 / vol.bytesPerSector < vol.sectorsPerFAT :=
      (Nat.div_lt_iff_lt_mul accepted.bytesPerSector_pos).2 byte
    exact ⟨Nat.le_add_right _ _, Nat.add_lt_add_left sector _⟩
  · intro s outside
    have notActive : ¬vol.InActiveFAT s := by
      unfold InActiveFAT fatEndSector fatStartSector
      omega
    funext i
    rcases copied_cases disk' active active' s i with same | ⟨source, isActive, member, _⟩
    · rw [same, unwritten s notActive]
    · have := mem_mirrors_bounds isActive member
      omega
  · intro s i outside
    rcases copied_cases disk' active active' s i with same | copy
    · exact .inl (by rw [same, unwritten s outside])
    · exact .inr copy
  · intro source place s member i inside
    have isActive := active_of_entry accepted data place
    rw [copied_of_active active active' isActive]
    apply copied_mirror active active' _ member inside
    rcases place with rfl | ⟨straddles, rfl⟩
    · exact .inl rfl
    · exact .inr (needed straddles)

theorem copied_buffers (w : Window vol it) (shows : it.Shows vol) (disk : Disk) :
    copyToMirrorBlocks vol
      (copyToMirrorBlocks vol disk (it.block1.buffer.getD 0) (vol.mirrors it.currentSector))
      (it.block2.buffer.getD 0)
      (match it.loadedSector2 with
        | none => []
        | some second => vol.mirrors second) =
      copied vol disk it.currentSector it.loadedSector2 := by
  unfold copied
  rw [shows.first]
  cases second : it.loadedSector2 with
  | none => rfl
  | some s =>
    rw [(w.second s second).1]
    rfl

section

variable (accepted : vol.Accepted)

include accepted

theorem setEntry_spec (w : Window vol it) (fresh : ¬it.Stale vol)
    (faults : Faults) (fits : vol.fatBits = 32 → value < 2 ^ 28) (disk : Disk) :
    (∃ s code, faults s = some code ∧ (it.setEntry vol faults value disk).1 = some (.throws code) ∧
      (it.setEntry vol faults value disk).2.2 = disk) ∨
    ((it.setEntry vol faults value disk).1 = none ∧
      SetsEntry vol it.currentCluster value disk (it.setEntry vol faults value disk).2.2) := by
  have updated := update_spec accepted w faults
  unfold setEntry
  cases result : it.update vol faults with
  | mk stop it' =>
    rw [result] at updated
    cases stop with
    | some stop =>
      obtain ⟨sector, code, fault, rfl⟩ := updated.fails stop rfl
      exact .inl ⟨sector, code, fault, rfl, rfl⟩
    | none =>
      have shows := updated.shows rfl fresh
      have loaded := updated.loaded rfl
      rcases acquireMirrors_spec accepted updated.window loaded faults with
        ⟨s, code, fault, acquired⟩ | acquired
      · exact .inl ⟨s, code, fault, by simp only [acquired], by simp only [acquired]⟩
      · obtain ⟨disk', written, writes⟩ := writeEntry_spec accepted shows fits disk
        simp only [acquired, written]
        apply Or.inr
        refine ⟨trivial, ?_⟩
        have data := updated.window.data
        have sets := setsEntry_of_writes accepted data
          (fun s isSecond => (updated.window.active_second accepted loaded isSecond).2)
          (fun straddles => shows.sector ▸ updated.ready rfl fresh straddles) writes
        rw [copied_buffers updated.window shows, shows.sector, ← updated.cluster]
        exact sets

/-! The written entry is the value, the others are as they were. -/

theorem entry_inside {j : Nat} (data : vol.isDataCluster cluster)
    (inside : j < vol.entryWidth) :
    cluster * vol.fatBits + j < 8 * (vol.sectorsPerFAT * vol.bytesPerSector) := by
  have size := accepted.fatSize
  simp only [isDataCluster, Bool.and_eq_true, decide_eq_true_eq] at data
  have narrow : vol.entryWidth ≤ vol.fatBits := by
    unfold entryWidth
    split <;> omega
  have next : cluster * vol.fatBits + vol.fatBits ≤
      (vol.totalClusters + firstDataCluster) * vol.fatBits := by
    rw [← Nat.succ_mul]
    exact Nat.mul_le_mul_right _ data.2
  omega

theorem SetsEntry.entry_self
    (data : vol.isDataCluster cluster) (sets : SetsEntry vol cluster value disk disk') :
    vol.entry disk' cluster = value % 2 ^ vol.entryWidth := by
  have same := BitTable.entry_congr fun j inside =>
    sets.bits _ (entry_inside accepted data inside)
  exact same.trans (BitTable.entry_put_self cluster value)

theorem SetsEntry.entry_of_ne {other : Nat}
    (data : vol.isDataCluster other) (different : other ≠ cluster)
    (sets : SetsEntry vol cluster value disk disk') :
    vol.entry disk' other = vol.entry disk other := by
  have narrow : vol.entryWidth ≤ vol.fatBits := by
    unfold entryWidth
    split <;> omega
  have same := BitTable.entry_congr fun j inside =>
    sets.bits _ (entry_inside accepted data inside)
  exact same.trans (BitTable.entry_put_of_ne narrow different value)

end

end FATTableIterator

end PadOS.Fat
