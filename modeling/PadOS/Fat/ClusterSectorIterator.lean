import PadOS.Fat.Table

/-! # Walking the sectors of a cluster chain

`GetChainEntry` follows the table, and `FATClusterSectorIterator` steps through
the sectors of a chain or of the fixed root. A chain that the table ends is a
list of clusters, and its sectors are a list as well; the iterator is an index
into that list, or stands at its end.
-/

namespace PadOS.Fat

open List Option

variable {vol : FATVolume} {disk : Disk} {n : Nat} {clusters : List Nat}

def isFixedRoot (cluster : Nat) : Bool := cluster == 1

namespace FATVolume

/-- `FATTable::GetEntry` on the packed table, as a window that is not stale gives
it. -/
def tableEntry (vol : FATVolume) (disk : Disk) (cluster : Nat) : Except Stop Nat :=
  FATTable.classify vol (FATTableIterator.widen vol.fatBits (vol.entry disk cluster))

/-- The loop of `GetChainEntry`. -/
def follow (vol : FATVolume) (disk : Disk) : Nat → Nat → Except Stop Nat
  | 0, cluster => .ok cluster
  | index + 1, cluster =>
    match vol.tableEntry disk cluster with
    | .error stop => .error stop
    | .ok next => if vol.isDataCluster next then follow vol disk index next else .ok next

def getChainEntry (vol : FATVolume) (disk : Disk) (chainStart index : Nat) : Except Stop Nat :=
  if !vol.isDataCluster chainStart ∨ index > vol.totalClusters then .error (.throws .io)
  else vol.follow disk index chainStart

end FATVolume

/-! ## The iterator -/

structure FATClusterSectorIterator where
  currentCluster : Nat
  currentSector : Nat
  visitedClusterCount : Nat := 1
  deriving DecidableEq

/-- `m_CurrentSector` after the end of the chain. -/
def endOfChain : Nat := 0xffff

namespace FATClusterSectorIterator

def isValidClusterSector (vol : FATVolume) (cluster sector : Nat) : Bool :=
  if vol.fatBits ≠ 32 ∧ isFixedRoot cluster then sector < vol.rootSectorCount
  else if sector ≥ vol.sectorsPerCluster then false
  else vol.isDataCluster cluster

def blockSector (vol : FATVolume) (it : FATClusterSectorIterator) : Nat :=
  if isFixedRoot it.currentCluster then vol.rootStart + it.currentSector
  else vol.firstDataSector + (it.currentCluster - 2) * vol.sectorsPerCluster + it.currentSector

/-- Callers never pass a negative count. -/
def increment (vol : FATVolume) (disk : Disk) (it : FATClusterSectorIterator) (sectors : Nat) :
    Except Stop (Bool × FATClusterSectorIterator) :=
  if it.currentSector = endOfChain then .error (.throws .io)
  else if sectors = 0 then .ok (true, it)
  else if isFixedRoot it.currentCluster then
    if it.currentSector + sectors < vol.rootSectorCount then
      .ok (true, { it with currentSector := it.currentSector + sectors })
    else .ok (false, { it with currentSector := endOfChain })
  else if it.currentSector + sectors < vol.sectorsPerCluster then
    .ok (true, { it with currentSector := it.currentSector + sectors })
  else
    let advance := (it.currentSector + sectors) / vol.sectorsPerCluster
    match vol.getChainEntry disk it.currentCluster advance with
    | .error stop => .error stop
    | .ok next =>
      if next = endFatEntry then .ok (false, { it with currentSector := endOfChain })
      else if vol.isDataCluster next then
        if it.visitedClusterCount > vol.totalClusters ∨
            advance > vol.totalClusters - it.visitedClusterCount then .error (.throws .io)
        else .ok (true,
          { currentCluster := next
            currentSector := (it.currentSector + sectors) % vol.sectorsPerCluster
            visitedClusterCount := it.visitedClusterCount + advance })
      else .error (.throws .io)

/-- The block of the current sector, which the cache delivers. -/
def getBlock (vol : FATVolume) (it : FATClusterSectorIterator) : Except Stop KCacheBlockDesc :=
  if !isValidClusterSector vol it.currentCluster it.currentSector then .error (.throws .io)
  else .ok (.of (it.blockSector vol))

end FATClusterSectorIterator

/-! ## Chains -/

/-- The clusters of a chain that the table ends. -/
inductive FATVolume.Chain (vol : FATVolume) (disk : Disk) : List Nat → Prop
  | last {cluster : Nat} (data : vol.isDataCluster cluster)
      (ends : vol.tableEntry disk cluster = .ok endFatEntry) : Chain vol disk [cluster]
  | link {cluster next : Nat} {rest : List Nat} (data : vol.isDataCluster cluster)
      (entry : vol.tableEntry disk cluster = .ok next) (chain : Chain vol disk (next :: rest)) :
      Chain vol disk (cluster :: next :: rest)

namespace FATVolume.Chain

variable {clusters : List Nat} {cluster : Nat}

theorem data (chain : vol.Chain disk clusters) : ∀ c ∈ clusters, vol.isDataCluster c := by
  induction chain with
  | last data _ => simpa using data
  | link data _ _ ih =>
    intro c member
    rcases mem_cons.1 member with rfl | member
    · exact data
    · exact ih c member

theorem follow_lt (chain : vol.Chain disk (cluster :: clusters))
    (inside : n < (cluster :: clusters).length) :
    vol.follow disk n cluster = .ok ((cluster :: clusters)[n]) := by
  induction n generalizing cluster clusters with
  | zero => rfl
  | succ n ih =>
    cases chain with
    | last _ _ => simp at inside
    | link data entry rest =>
      have next := rest.data _ mem_cons_self
      rw [FATVolume.follow, entry]
      simp only [next, if_true]
      exact ih rest (by simpa using inside)

theorem follow_end (accepted : vol.Accepted) (chain : vol.Chain disk (cluster :: clusters))
    (beyond : (cluster :: clusters).length ≤ n) : vol.follow disk n cluster = .ok endFatEntry := by
  have notData : ¬vol.isDataCluster endFatEntry :=
    FATTable.not_data_of_reserved accepted le_rfl
  induction n generalizing cluster clusters with
  | zero => simp at beyond
  | succ n ih =>
    rw [FATVolume.follow]
    cases chain with
    | last data ends =>
      rw [ends]
      simp only [notData, Bool.false_eq_true, if_false]
    | link data entry rest =>
      have next := rest.data _ mem_cons_self
      rw [entry]
      simp only [next, if_true]
      exact ih rest (by simpa using beyond)

theorem drop (chain : vol.Chain disk clusters) (inside : n < clusters.length) :
    vol.Chain disk (clusters.drop n) := by
  induction n generalizing clusters with
  | zero => exact chain
  | succ n ih =>
    cases chain with
    | last _ _ => simp at inside
    | link _ _ rest => exact ih rest (by simpa using inside)

theorem drop_eq (chain : vol.Chain disk clusters) (inside : n < clusters.length) :
    vol.Chain disk (clusters[n] :: clusters.drop (n + 1)) := by
  rw [← drop_eq_getElem_cons inside]
  exact chain.drop inside

section

variable (accepted : vol.Accepted)

include accepted

theorem nodup (chain : vol.Chain disk clusters) : clusters.Nodup := by
  rw [nodup_iff_getElem?_ne_getElem?]
  intro i j before inside
  have below : i < clusters.length := by omega
  rw [getElem?_eq_getElem inside, getElem?_eq_getElem below]
  intro same
  have same := some.inj same
  have fromJ := (chain.drop_eq inside).follow_end accepted (n := clusters.length - j)
    (by simp only [length_cons, length_drop]; omega)
  have fromI := (chain.drop_eq below).follow_lt (n := clusters.length - j)
    (by simp only [length_cons, length_drop]; omega)
  rw [same, fromJ] at fromI
  have data := (chain.drop_eq below).data endFatEntry (by
    rw [same, Except.ok.inj fromI]
    exact getElem_mem _)
  exact FATTable.not_data_of_reserved accepted le_rfl data

theorem length_le (chain : vol.Chain disk clusters) :
    clusters.length ≤ vol.totalClusters :=
  FATTable.length_le_of_nodup (chain.nodup accepted) chain.data

theorem getChainEntry_lt (chain : vol.Chain disk (cluster :: clusters))
    (inside : n < (cluster :: clusters).length) :
    vol.getChainEntry disk cluster n = .ok ((cluster :: clusters)[n]) := by
  have data := chain.data cluster mem_cons_self
  have short := chain.length_le accepted
  rw [getChainEntry, if_neg, chain.follow_lt inside]
  simp only [data, Bool.not_true, Bool.false_eq_true, false_or]
  omega

theorem getChainEntry_end (chain : vol.Chain disk (cluster :: clusters))
    (beyond : (cluster :: clusters).length ≤ n) :
    vol.getChainEntry disk cluster n =
      if n > vol.totalClusters then .error (.throws .io) else .ok endFatEntry := by
  have data := chain.data cluster mem_cons_self
  rw [getChainEntry, chain.follow_end accepted beyond]
  simp [data]

end

end FATVolume.Chain

/-! ## The sectors of a directory or file -/

/-- Where the sectors of a directory are. -/
inductive Area
  | fixedRoot
  | chain (clusters : List Nat)

namespace Area

section

variable (vol : FATVolume)

def length : Area → Nat
  | fixedRoot => vol.rootSectorCount
  | chain clusters => clusters.length * vol.sectorsPerCluster

/-- The sectors belong to the directory that starts at a cluster. -/
def Holds (disk : Disk) (start : Nat) : Area → Prop
  | fixedRoot => isFixedRoot start ∧ vol.fatBits ≠ 32
  | chain clusters => vol.Chain disk clusters ∧ clusters.head? = some start

/-- The iterator at an index. -/
def position : Area → Nat → FATClusterSectorIterator
  | fixedRoot, p => { currentCluster := 1, currentSector := p }
  | chain clusters, p =>
    { currentCluster := clusters.getD (p / vol.sectorsPerCluster) 0
      currentSector := p % vol.sectorsPerCluster
      visitedClusterCount := p / vol.sectorsPerCluster + 1 }

def sector (area : Area) (p : Nat) : Nat := (area.position vol p).blockSector vol

/-- The iterator after it has run over the end. -/
def ended (area : Area) : FATClusterSectorIterator :=
  { area.position vol (area.length vol - 1) with currentSector := endOfChain }

end

variable {area : Area} {start p n : Nat}

theorem length_pos (accepted : vol.Accepted) (held : area.Holds vol disk start) :
    0 < area.length vol := by
  cases area with
  | fixedRoot => exact (accepted.someRoot held.2).1
  | chain clusters =>
    apply Nat.mul_pos _ accepted.clusterSize.1
    cases held.1 with
    | last _ _ => simp
    | link _ _ _ => simp

theorem cluster_inside (inside : p < (chain clusters).length vol) :
    p / vol.sectorsPerCluster < clusters.length :=
  Nat.div_lt_of_lt_mul (by rw [mul_comm]; exact inside)

theorem position_cluster (below : p / vol.sectorsPerCluster < clusters.length) :
    ((chain clusters).position vol p).currentCluster = clusters[p / vol.sectorsPerCluster] := by
  show clusters.getD _ 0 = _
  rw [getD_eq_getElem?_getD, getElem?_eq_getElem below]
  rfl

theorem not_fixedRoot_of_data {cluster : Nat} (data : vol.isDataCluster cluster) :
    ¬isFixedRoot cluster := by
  rw [FATTable.isDataCluster_iff] at data
  unfold isFixedRoot
  rw [beq_iff_eq]
  omega

theorem position_data (chained : vol.Chain disk clusters)
    (inside : p < (chain clusters).length vol) :
    vol.isDataCluster ((chain clusters).position vol p).currentCluster := by
  rw [position_cluster (cluster_inside inside)]
  exact chained.data _ (getElem_mem _)

theorem position_ne_end (accepted : vol.Accepted) (inside : p < area.length vol) :
    (area.position vol p).currentSector ≠ endOfChain := by
  cases area with
  | fixedRoot =>
    have := accepted.rootSize
    have : p < vol.rootSectorCount := inside
    show p ≠ 0xffff
    omega
  | chain clusters =>
    have size := accepted.clusterSize
    have := Nat.mod_lt p size.1
    show p % vol.sectorsPerCluster ≠ 0xffff
    omega

theorem getBlock_position (accepted : vol.Accepted) (held : area.Holds vol disk start)
    (inside : p < area.length vol) :
    (area.position vol p).getBlock vol = .ok (.of (area.sector vol p)) := by
  unfold FATClusterSectorIterator.getBlock
  rw [if_neg]
  · rfl
  cases area with
  | fixedRoot =>
    have below : p < vol.rootSectorCount := inside
    simp [FATClusterSectorIterator.isValidClusterSector, position, held.2, isFixedRoot, below]
  | chain clusters =>
    have data := position_data held.1 inside
    have plain := not_fixedRoot_of_data data
    have size := Nat.mod_lt p accepted.clusterSize.1
    have below : ((chain clusters).position vol p).currentSector < vol.sectorsPerCluster := size
    simp [FATClusterSectorIterator.isValidClusterSector, plain, data, below]

theorem increment_ended (n : Nat) :
    (area.ended vol).increment vol disk n = .error (.throws .io) := by
  unfold FATClusterSectorIterator.increment
  exact if_pos rfl

section

variable (accepted : vol.Accepted)

include accepted

theorem getChainEntry_position
    (chained : vol.Chain disk clusters) (here : p < (chain clusters).length vol)
    (there : p / vol.sectorsPerCluster + n < clusters.length) :
    vol.getChainEntry disk ((chain clusters).position vol p).currentCluster n =
      .ok clusters[p / vol.sectorsPerCluster + n] := by
  have below := cluster_inside here
  rw [position_cluster below, (chained.drop_eq below).getChainEntry_lt accepted
    (by simp only [length_cons, length_drop]; omega)]
  simp only [← drop_eq_getElem_cons, getElem_drop]

theorem cluster_add (p n : Nat) : (p + n) / vol.sectorsPerCluster =
    p / vol.sectorsPerCluster + (p % vol.sectorsPerCluster + n) / vol.sectorsPerCluster := by
  have place := Nat.div_add_mod p vol.sectorsPerCluster
  have linear : p + n = p % vol.sectorsPerCluster + n +
      vol.sectorsPerCluster * (p / vol.sectorsPerCluster) := by omega
  rw [linear, Nat.add_mul_div_left _ _ accepted.clusterSize.1, add_comm]

theorem increment_inside (held : area.Holds vol disk start)
    (inside : p + n < area.length vol) :
    (area.position vol p).increment vol disk n = .ok (true, area.position vol (p + n)) := by
  have here : p < area.length vol := by omega
  unfold FATClusterSectorIterator.increment
  rw [if_neg (position_ne_end accepted here)]
  by_cases still : n = 0
  · rw [if_pos still, still]
    rfl
  rw [if_neg still]
  cases area with
  | fixedRoot =>
    have below : p + n < vol.rootSectorCount := inside
    simp [position, isFixedRoot, below]
  | chain clusters =>
    have data := position_data held.1 here
    rw [if_neg (not_fixedRoot_of_data data)]
    have place := Nat.div_add_mod p vol.sectorsPerCluster
    have linear : p + n = p % vol.sectorsPerCluster + n +
        vol.sectorsPerCluster * (p / vol.sectorsPerCluster) := by omega
    have offset : (p + n) % vol.sectorsPerCluster =
        (p % vol.sectorsPerCluster + n) % vol.sectorsPerCluster := by
      rw [linear, Nat.add_mul_mod_self_left]
    have index := cluster_add accepted p n
    have current : ((chain clusters).position vol p).currentSector = p % vol.sectorsPerCluster := rfl
    rw [current]
    by_cases same : p % vol.sectorsPerCluster + n < vol.sectorsPerCluster
    · rw [if_pos same]
      have none : (p % vol.sectorsPerCluster + n) / vol.sectorsPerCluster = 0 :=
        Nat.div_eq_of_lt same
      simp [position, offset, index, none, Nat.mod_eq_of_lt same]
    · rw [if_neg same]
      have there := cluster_inside inside
      have short := held.1.length_le accepted
      rw [index] at there
      have entry := getChainEntry_position accepted held.1 here there
      have next : vol.isDataCluster (clusters[p / vol.sectorsPerCluster +
          (p % vol.sectorsPerCluster + n) / vol.sectorsPerCluster]) :=
        held.1.data _ (getElem_mem _)
      have notEnd : clusters[p / vol.sectorsPerCluster +
          (p % vol.sectorsPerCluster + n) / vol.sectorsPerCluster] ≠ endFatEntry := by
        intro isEnd
        rw [isEnd] at next
        exact FATTable.not_data_of_reserved accepted le_rfl next
      have visited : ((chain clusters).position vol p).visitedClusterCount =
          p / vol.sectorsPerCluster + 1 := rfl
      simp only [entry, next, notEnd, visited, if_true, if_false]
      have room : ¬(p / vol.sectorsPerCluster + 1 > vol.totalClusters ∨
          (p % vol.sectorsPerCluster + n) / vol.sectorsPerCluster >
            vol.totalClusters - (p / vol.sectorsPerCluster + 1)) := by
        generalize (p % vol.sectorsPerCluster + n) / vol.sectorsPerCluster = advance at there ⊢
        omega
      rw [if_neg room]
      simp only [position, offset, index, getD_eq_getElem?_getD,
        getElem?_eq_getElem there, getD_some, Except.ok.injEq, Prod.mk.injEq, true_and,
        FATClusterSectorIterator.mk.injEq]
      omega

theorem increment_last (held : area.Holds vol disk start)
    (last : p + 1 = area.length vol) :
    (area.position vol p).increment vol disk 1 = .ok (false, area.ended vol) := by
  have here : p < area.length vol := by omega
  have isLast : area.length vol - 1 = p := by omega
  unfold FATClusterSectorIterator.increment ended
  rw [if_neg (position_ne_end accepted here), if_neg (by decide), isLast]
  cases area with
  | fixedRoot =>
    have end' : ¬p + 1 < vol.rootSectorCount := by
      have : p + 1 = vol.rootSectorCount := last
      omega
    simp [position, isFixedRoot, end']
  | chain clusters =>
    have size := accepted.clusterSize.1
    have data := position_data held.1 here
    have total : p + 1 = clusters.length * vol.sectorsPerCluster := last
    have place := Nat.div_add_mod p vol.sectorsPerCluster
    have bound := Nat.mod_lt p size
    have lastCluster : p / vol.sectorsPerCluster + 1 = clusters.length := by
      have above := cluster_inside here
      have below : clusters.length * vol.sectorsPerCluster <
          (p / vol.sectorsPerCluster + 2) * vol.sectorsPerCluster := by
        rw [Nat.add_mul, mul_comm (p / vol.sectorsPerCluster)]
        omega
      have := Nat.lt_of_mul_lt_mul_right below
      omega
    have lastSector : p % vol.sectorsPerCluster + 1 = vol.sectorsPerCluster := by
      rw [← lastCluster, Nat.add_mul, mul_comm (p / vol.sectorsPerCluster)] at total
      omega
    have current : ((chain clusters).position vol p).currentSector = p % vol.sectorsPerCluster := rfl
    have some' := accepted.someClusters
    rw [if_neg (not_fixedRoot_of_data data), current, if_neg (by omega), lastSector,
      Nat.div_self size]
    have tail := held.1.drop_eq (cluster_inside here)
    have entry := tail.getChainEntry_end accepted (n := 1)
      (by simp only [length_cons, length_drop]; omega)
    have here' := position_cluster (cluster_inside here)
    rw [if_neg (by omega), ← here'] at entry
    simp only [entry, if_true]

end

end Area

end PadOS.Fat
