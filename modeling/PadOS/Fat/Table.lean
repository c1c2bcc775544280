import PadOS.Fat.TableRun
import Mathlib.Data.List.Nodup
import Mathlib.Data.List.Perm.Subperm

/-! # Entries of the file allocation table

`FATTable` keeps one iterator for all its accesses, so what an access finds in
its window depends on the accesses before it. A value that was stored is read
back unless the window is stale or the value looks like a reserved marker.
-/

namespace PadOS.Fat

open Transition FATTableIterator

variable {vol : FATVolume} {cluster value : Nat} {s : TableState} {faults : Faults}

namespace FATTable

/-- `FATTable::GetEntry` knows data clusters, the end marker and bad clusters. -/
def classify (vol : FATVolume) (value : Nat) : Except Stop Nat :=
  if value = 0 ∨ vol.isDataCluster value then .ok value
  else if value ≥ endFatEntry then .ok endFatEntry
  else if value ≥ badFatEntry then .ok badFatEntry
  else .error (.throws .io)

def getEntry (vol : FATVolume) (faults : Faults) (cluster : Nat) (s : TableState) :
    Except Stop Nat × TableState :=
  match s.it.setCluster vol cluster with
  | (some stop, it) => (.error stop, { s with it })
  | (none, it) =>
    match it.getEntry vol faults s.disk with
    | (.error stop, it) => (.error stop, { s with it })
    | (.ok value, it) => (classify vol value, { s with it })

def setEntry (vol : FATVolume) (faults : Faults) (cluster value : Nat) (s : TableState) :
    Option Stop × TableState :=
  match s.it.setCluster vol cluster with
  | (some stop, it) => (some stop, { s with it })
  | (none, it) =>
    match it.setEntry vol faults value s.disk with
    | (stop, it, disk) => (stop, { it, disk })

/-- The constructor. -/
def start (vol : FATVolume) (disk : Disk) : TableState :=
  ⟨FATTableIterator.start vol firstDataCluster, disk⟩

end FATTable

/-- A table that has been in use: what others do to the disk and what accesses were
made before is left open. -/
def FATTable.InUse (vol : FATVolume) (s : TableState) : Prop :=
  ∃ disk, (tableCalls vol).Reaches (OnDataClusters vol) (start vol disk) s

/-- What the driver stores in an entry. -/
def FATVolume.Storable (vol : FATVolume) (value : Nat) : Prop :=
  value = 0 ∨ value = endFatEntry ∨ vol.isDataCluster value

/-- A data cluster whose number is widened like a reserved marker. -/
def FATVolume.LooksReserved (vol : FATVolume) (value : Nat) : Prop :=
  vol.isDataCluster value ∧ (vol.fatBits = 12 ∧ 0xff0 ≤ value ∨ vol.fatBits = 16 ∧ 0xfff0 ≤ value)

/-- The value is stored and then read back, with all sectors at hand. -/
def FATTable.RoundTrips (vol : FATVolume) (s : TableState) (cluster value : Nat) : Prop :=
  (setEntry vol noFaults cluster value s).1 = none ∧
    (getEntry vol noFaults cluster (setEntry vol noFaults cluster value s).2).1 = .ok value

namespace FATTable

theorem isDataCluster_iff :
    vol.isDataCluster cluster ↔ 2 ≤ cluster ∧ cluster < vol.totalClusters + 2 := by
  unfold FATVolume.isDataCluster
  rw [Bool.and_eq_true, decide_eq_true_eq, decide_eq_true_eq]
  rfl

theorem length_le_of_nodup {l : List Nat} (nodup : l.Nodup) (inside : ∀ x ∈ l, vol.isDataCluster x) :
    l.length ≤ vol.totalClusters := by
  have among : l ⊆ List.range' firstDataCluster vol.totalClusters := by
    intro c member
    have data := isDataCluster_iff.1 (inside c member)
    rw [List.mem_range'_1, firstDataCluster]
    omega
  have shorter := (List.subperm_of_subset nodup among).length_le
  simpa using shorter

theorem isDataCluster_first (accepted : vol.Accepted) : vol.isDataCluster firstDataCluster := by
  have := accepted.someClusters
  rw [isDataCluster_iff, firstDataCluster]
  omega

theorem InUse.window (accepted : vol.Accepted) (used : InUse vol s) : Window vol s.it := by
  obtain ⟨disk, run⟩ := used
  exact window_run accepted (isDataCluster_first accepted) run

/-! ## One access -/

/-- The cluster of an access. -/
def seek (vol : FATVolume) (s : TableState) (cluster : Nat) : TableState :=
  { s with it := s.it.moveTo vol cluster }

section

variable (accepted : vol.Accepted)

include accepted

theorem getEntry_eq (data : vol.isDataCluster cluster) :
    getEntry vol faults cluster s = match (seek vol s cluster).it.getEntry vol faults s.disk with
      | (.error stop, it) => (.error stop, { s with it })
      | (.ok value, it) => (classify vol value, { s with it }) := by
  unfold getEntry
  rw [setCluster_spec accepted data]
  rfl

theorem setEntry_eq (data : vol.isDataCluster cluster) :
    setEntry vol faults cluster value s =
      match (seek vol s cluster).it.setEntry vol faults value s.disk with
      | (stop, it, disk) => (stop, { it, disk }) := by
  unfold setEntry
  rw [setCluster_spec accepted data]
  rfl

theorem getEntry_fresh (w : Window vol s.it)
    (data : vol.isDataCluster cluster) (fresh : ¬(seek vol s cluster).it.Stale vol) :
    (getEntry vol noFaults cluster s).1 =
        classify vol (widen vol.fatBits (vol.entry s.disk cluster)) ∧
      (getEntry vol noFaults cluster s).2.disk = s.disk ∧
      Window vol (getEntry vol noFaults cluster s).2.it := by
  have moved : Window vol (seek vol s cluster).it := w.moveTo data
  have spec := getEntry_spec accepted moved fresh noFaults s.disk
  have after := (update_spec accepted moved noFaults).window
  rw [← getEntry_iterator noFaults s.disk] at after
  rw [getEntry_eq accepted data]
  split
  · rename_i result
    rw [result] at spec
    rcases spec with ⟨_, _, fault, _⟩ | read
    · cases fault
    · cases read
  · rename_i result
    rw [result] at spec after
    rcases spec with ⟨_, _, fault, _⟩ | read
    · cases fault
    · obtain rfl := Except.ok.inj read
      exact ⟨rfl, rfl, after⟩

theorem setEntry_fresh (w : Window vol s.it)
    (data : vol.isDataCluster cluster) (fits : vol.fatBits = 32 → value < 2 ^ 28)
    (fresh : ¬(seek vol s cluster).it.Stale vol) :
    (setEntry vol noFaults cluster value s).1 = none ∧
      SetsEntry vol cluster value s.disk (setEntry vol noFaults cluster value s).2.disk ∧
      Window vol (setEntry vol noFaults cluster value s).2.it := by
  have moved : Window vol (seek vol s cluster).it := w.moveTo data
  have after := (update_spec accepted moved noFaults).window
  rw [← setEntry_iterator noFaults value s.disk] at after
  rw [setEntry_eq accepted data]
  rcases setEntry_spec accepted moved fresh noFaults fits s.disk with ⟨_, _, fault, _⟩ | ⟨done, sets⟩
  · cases fault
  · exact ⟨done, sets, after⟩

/-! ## Stored values -/

theorem storable_fits (storable : vol.Storable value) :
    value < 2 ^ 28 := by
  have := accepted.atMost
  rcases storable with rfl | rfl | data
  · decide
  · decide
  · rw [isDataCluster_iff] at data
    omega

end

theorem or_mask {n val m : Nat} (small : val < 2 ^ n) : val ||| m <<< n = m <<< n + val := by
  rw [Nat.or_comm, Nat.shiftLeft_add_eq_or_of_lt small]

theorem classify_data (data : vol.isDataCluster value) : classify vol value = .ok value := by
  unfold classify
  rw [if_pos (.inr data)]

theorem classify_zero (vol : FATVolume) : classify vol 0 = .ok 0 := by
  unfold classify
  rw [if_pos (.inl rfl)]

section

variable (accepted : vol.Accepted)

include accepted

theorem not_data_of_reserved (large : endFatEntry ≤ value) :
    ¬vol.isDataCluster value := by
  have := accepted.atMost
  rw [isDataCluster_iff]
  unfold endFatEntry at large
  omega

theorem classify_end : classify vol endFatEntry = .ok endFatEntry := by
  unfold classify
  rw [if_neg, if_pos le_rfl]
  rintro (zero | data)
  · cases zero
  · exact not_data_of_reserved accepted le_rfl data

theorem classify_stored (storable : vol.Storable value)
    (plain : ¬vol.LooksReserved value) :
    classify vol (widen vol.fatBits (value % 2 ^ vol.entryWidth)) = .ok value := by
  have width := accepted.width
  have atMost := accepted.atMost
  unfold FATVolume.entryWidth
  rcases storable with rfl | rfl | data
  · rw [Nat.zero_mod]
    rcases accepted.fatBits_cases with bits | bits | bits <;> rw [bits] <;> exact classify_zero vol
  · rcases accepted.fatBits_cases with bits | bits | bits <;> rw [bits] <;>
      exact classify_end accepted
  · have below := (isDataCluster_iff.1 data).2
    have plain' := not_and.1 plain data
    have narrow : value % 2 ^ (if vol.fatBits = 32 then 28 else vol.fatBits) = value := by
      apply Nat.mod_eq_of_lt
      rcases accepted.fatBits_cases with bits | bits | bits <;> rw [bits] at width ⊢
      · split at width <;> simp <;> omega
      · split at width
        · omega
        · split at width <;> simp <;> omega
      · simp only [if_true]
        omega
    rw [narrow]
    have asIs : widen vol.fatBits value = value := by
      unfold widen
      rcases accepted.fatBits_cases with bits | bits | bits <;> rw [bits] at plain' ⊢
      · rw [if_pos rfl, if_neg (by omega)]
      · rw [if_neg (by decide), if_pos rfl, if_neg (by omega)]
      · rfl
    rw [asIs, classify_data data]

theorem classify_looksReserved (looks : vol.LooksReserved value) :
    classify vol (widen vol.fatBits (value % 2 ^ vol.entryWidth)) = .error (.throws .io) := by
  obtain ⟨data, top⟩ := looks
  have below := (isDataCluster_iff.1 data).2
  have width := accepted.width
  have invalid {val : Nat} (low : 0x0ffffff0 ≤ val) (high : val < badFatEntry)
      (few : vol.totalClusters < 65525) : classify vol val = .error (.throws .io) := by
    unfold badFatEntry at high
    unfold classify
    rw [if_neg, if_neg (by unfold endFatEntry; omega), if_neg (by unfold badFatEntry; omega)]
    rw [isDataCluster_iff]
    omega
  unfold FATVolume.entryWidth widen
  rcases top with ⟨bits, high⟩ | ⟨bits, high⟩
  · rw [bits] at width ⊢
    have few : vol.totalClusters < 4085 := by
      split at width
      · assumption
      · split at width <;> omega
    have small : value < 2 ^ 12 := by omega
    have masked : value ||| 0x0ffff000 = 0x0ffff000 + value := or_mask (m := 0x0ffff) small
    simp only [Nat.reduceEqDiff, if_false, if_true, Nat.mod_eq_of_lt small, ge_iff_le, high, masked]
    exact invalid (by omega) (by unfold badFatEntry; omega) (by omega)
  · rw [bits] at width ⊢
    have few : vol.totalClusters < 65525 := by
      split at width
      · omega
      · split at width <;> omega
    have small : value < 2 ^ 16 := by omega
    have masked : value ||| 0x0fff0000 = 0x0fff0000 + value := or_mask (m := 0x0fff) small
    simp only [Nat.reduceEqDiff, if_false, if_true, Nat.mod_eq_of_lt small, ge_iff_le, high, masked]
    exact invalid (by omega) (by unfold badFatEntry; omega) few

end

/-! ## Round trips -/

theorem not_stale_of_whole (whole : ¬vol.Straddles cluster) :
    ¬(seek vol s cluster).it.Stale vol :=
  fun stale => whole stale.straddles

theorem not_stale_start (vol : FATVolume) (disk : Disk) (cluster : Nat) :
    ¬(seek vol (start vol disk) cluster).it.Stale vol := by
  intro stale
  cases stale.first

section

variable (accepted : vol.Accepted)

include accepted

theorem getEntry_setEntry (w : Window vol s.it)
    (data : vol.isDataCluster cluster) (storable : vol.Storable value)
    (fresh : ¬(seek vol s cluster).it.Stale vol)
    (fresh' : ¬(seek vol (setEntry vol noFaults cluster value s).2 cluster).it.Stale vol) :
    (setEntry vol noFaults cluster value s).1 = none ∧
      (getEntry vol noFaults cluster (setEntry vol noFaults cluster value s).2).1 =
        classify vol (widen vol.fatBits (value % 2 ^ vol.entryWidth)) := by
  obtain ⟨done, sets, w'⟩ :=
    setEntry_fresh accepted w data (fun _ => storable_fits accepted storable) fresh
  rw [(getEntry_fresh accepted w' data fresh').1, sets.entry_self accepted data]
  exact ⟨done, rfl⟩

theorem roundTrips_of_plain (used : InUse vol s)
    (data : vol.isDataCluster cluster) (storable : vol.Storable value)
    (whole : ¬vol.Straddles cluster) (plain : ¬vol.LooksReserved value) :
    RoundTrips vol s cluster value := by
  obtain ⟨done, read⟩ := getEntry_setEntry accepted (used.window accepted) data storable
    (not_stale_of_whole whole) (not_stale_of_whole whole)
  exact ⟨done, read.trans (classify_stored accepted storable plain)⟩

/-! The window goes stale when the entry before a straddling one is read. -/

theorem before_straddling (data : vol.isDataCluster cluster)
    (straddles : vol.Straddles cluster) :
    vol.isDataCluster (cluster - 1) ∧ ¬vol.Straddles (cluster - 1) ∧
      vol.entrySector (cluster - 1) = vol.entrySector cluster := by
  have bits := accepted.fatBits_of_straddles straddles
  have size := accepted.sectorSize
  unfold FATVolume.Straddles FATVolume.entryOffset FATVolume.entrySector at *
  unfold FATVolume.fatByteOffset at *
  rw [isDataCluster_iff] at data ⊢
  rw [bits] at straddles ⊢
  have near : (cluster - 1) * 12 / 8 + 1 = cluster * 12 / 8 ∨
      (cluster - 1) * 12 / 8 + 2 = cluster * 12 / 8 := by omega
  have large : 3 ≤ cluster := by
    rcases size with size | size | size <;> rw [size] at straddles <;> omega
  generalize (cluster - 1) * 12 / 8 = x at near ⊢
  generalize cluster * 12 / 8 = y at near straddles ⊢
  refine ⟨by omega, ?_⟩
  rcases size with size | size | size <;> rw [size] at straddles ⊢ <;> omega

theorem getEntry_start (data : vol.isDataCluster cluster)
    (whole : ¬vol.Straddles cluster) (disk : Disk) :
    ((seek vol (start vol disk) cluster).it.getEntry vol noFaults disk) =
      (.ok (widen vol.fatBits (vol.entry disk cluster)),
        { (seek vol (start vol disk) cluster).it with
          loadedSector1 := some (vol.entrySector cluster), block1 := .of (vol.entrySector cluster) }) := by
  have updated : (seek vol (start vol disk) cluster).it.update vol noFaults = (none,
      { (seek vol (start vol disk) cluster).it with
          loadedSector1 := some (vol.entrySector cluster), block1 := .of (vol.entrySector cluster) }) := by
    unfold update
    rw [if_neg (by simp [seek, moveTo, data]), if_neg (by simp [seek, moveTo]),
      if_neg (by simp [seek, moveTo, start, FATTableIterator.start])]
    show loadSecond vol _ noFaults = _
    exact if_neg whole
  have moved : Window vol (seek vol (start vol disk) cluster).it :=
    (Window.start (isDataCluster_first accepted)).moveTo data
  rcases getEntry_spec accepted moved (not_stale_start vol disk cluster) noFaults disk with
    ⟨_, _, fault, _⟩ | read
  · cases fault
  · apply Prod.ext read
    rw [getEntry_iterator, updated]

theorem inUse_seek (used : InUse vol s)
    (data : vol.isDataCluster cluster) : InUse vol (seek vol s cluster) := by
  obtain ⟨disk, run⟩ := used
  have good : OnDataClusters vol s (.setCluster cluster) := data
  apply Exists.intro disk
  apply System.Reaches.tail run good
  simp only [tableCalls, setCluster_spec accepted data]
  rfl

end

theorem inUse_getEntry {val : Nat} {it : FATTableIterator} (used : InUse vol s)
    (read : s.it.getEntry vol faults s.disk = (.ok val, it)) : InUse vol { s with it } := by
  obtain ⟨disk, run⟩ := used
  have good : OnDataClusters vol s (.getEntry faults) := trivial
  apply Exists.intro disk
  apply System.Reaches.tail run good
  simp only [tableCalls, read]

theorem inUse_start (vol : FATVolume) (disk : Disk) : InUse vol (start vol disk) :=
  ⟨disk, .refl⟩

theorem inUse_stale (accepted : vol.Accepted) (data : vol.isDataCluster cluster)
    (straddles : vol.Straddles cluster) :
    ∃ s, InUse vol s ∧ s.it.loadedSector1 = some (vol.entrySector cluster) ∧
      s.it.loadedSector2 = none ∧ s.it.block2.buffer = none ∧ Window vol s.it := by
  obtain ⟨before, whole, sector⟩ := before_straddling accepted data straddles
  have read := getEntry_start accepted before whole (fun _ _ => 0)
  have used := inUse_getEntry (inUse_seek accepted (inUse_start vol fun _ _ => 0) before) read
  refine ⟨_, used, ?_, rfl, rfl, used.window accepted⟩
  rw [← sector]

theorem setEntry_stale (accepted : vol.Accepted) (w : Window vol s.it)
    (data : vol.isDataCluster cluster) (straddles : vol.Straddles cluster)
    (first : s.it.loadedSector1 = some (vol.entrySector cluster))
    (second : s.it.block2.buffer = none) (value : Nat) :
    (setEntry vol noFaults cluster value s).1 = some .panics := by
  have bits := accepted.fatBits_of_straddles straddles
  have moved : Window vol (seek vol s cluster).it := w.moveTo data
  have updated : (seek vol s cluster).it.update vol noFaults = (none, (seek vol s cluster).it) := by
    unfold update
    rw [if_neg (by simp [seek, moveTo, data]), if_neg (by simp [seek, moveTo])]
    exact if_pos first
  obtain ⟨disk', written⟩ : ∃ disk', (seek vol s cluster).it.writeEntry vol value s.disk =
      (some .panics, disk') := by
    have buffer : (seek vol s cluster).it.block1.buffer = some (vol.entrySector cluster) := by
      rw [moved.first _ first]
      rfl
    have last : (seek vol s cluster).it.offsetInSector = vol.bytesPerSector - 1 := straddles
    have missing : (seek vol s cluster).it.block2.buffer = none := second
    simp [writeEntry, buffer, bits, last, missing]
  rw [setEntry_eq accepted data]
  unfold FATTableIterator.setEntry
  rw [updated]
  rcases acquireMirrors_spec accepted moved first noFaults with ⟨_, _, fault, _⟩ | acquired
  · cases fault
  · simp only [acquired, written]

/-- Exactly the values that do not look reserved, in entries that do not straddle
sectors, are read back whatever the table was used for before. -/
theorem roundTrips_iff {bytesRead : Nat} {sb : FATSuperBlock}
    (read : readSuperBlock bytesRead sb = .ok vol) (data : vol.isDataCluster cluster)
    (storable : vol.Storable value) :
    (∀ s, InUse vol s → RoundTrips vol s cluster value) ↔
      ¬vol.Straddles cluster ∧ ¬vol.LooksReserved value := by
  have accepted := accepted_of_readSuperBlock read
  constructor
  · intro always
    have whole : ¬vol.Straddles cluster := by
      intro straddles
      obtain ⟨s, used, first, _, second, w⟩ := inUse_stale accepted data straddles
      have stored := (always s used).1
      rw [setEntry_stale accepted w data straddles first second value] at stored
      cases stored
    refine ⟨whole, fun looks => ?_⟩
    have used := inUse_start vol fun _ _ => 0
    have result := (getEntry_setEntry accepted (used.window accepted) data storable
      (not_stale_of_whole whole) (not_stale_of_whole whole)).2
    rw [(always _ used).2, classify_looksReserved accepted looks] at result
    cases result
  · intro clear s used
    exact roundTrips_of_plain accepted used data storable clear.1 clear.2

/-- Entry 340 of a floppy takes any cluster of the floppy. -/
theorem roundTrips_iff_floppy : (∀ s, InUse floppy s → RoundTrips floppy s 340 2848) ↔
    ¬floppy.Straddles 340 ∧ ¬floppy.LooksReserved 2848 :=
  roundTrips_iff readSuperBlock_floppy (by decide) (.inr (.inr (by decide)))

/-- Entry 341 does not take the end of a chain after entry 340 was read. -/
theorem not_roundTrips_always : ¬∀ (bytesRead : Nat) (sb : FATSuperBlock) (vol : FATVolume)
    (cluster value : Nat) (s : TableState), readSuperBlock bytesRead sb = .ok vol →
    vol.isDataCluster cluster → vol.Storable value → InUse vol s →
    RoundTrips vol s cluster value := by
  intro always
  have accepted := accepted_of_readSuperBlock readSuperBlock_floppy
  have straddles : floppy.Straddles 341 := by decide
  obtain ⟨s, used, first, _, second, w⟩ := inUse_stale accepted (by decide) straddles
  have stored := (always 512 floppySector floppy 341 endFatEntry s readSuperBlock_floppy (by decide)
    (.inr (.inl rfl)) used).1
  rw [setEntry_stale accepted w (by decide) (by decide) first second] at stored
  cases stored

end FATTable

theorem card_whole (cluster : Nat) : ¬card.Straddles cluster := by
  intro straddles
  have narrow := (accepted_of_readSuperBlock readSuperBlock_card).fatBits_of_straddles straddles
  cases narrow

end PadOS.Fat
