import PadOS.Fat.BoundedWalks
import PadOS.Fat.SetChainLength

/-! # The longest chains

A walk that does not fail comes to the end of a chain, also where the chain takes all
clusters of the volume, unless a link looks like a reserved value. An entry that
straddles two sectors has to be reached from another sector.
-/

namespace PadOS.Fat

open Program FATTableIterator List Option FATTable Nat

variable {vol : FATVolume} {disk disk' : Disk} {cluster next start n : Nat} {l rest : List Nat}
  {s s' : DriverState} {it : FATTableIterator}

/-! ## Accesses one after another -/

/-- The second entry is not met through a window on its first sector alone. -/
def FATVolume.Apart (vol : FATVolume) (previous cluster : Nat) : Prop :=
  vol.Straddles cluster → vol.entrySector previous ≠ vol.entrySector cluster

instance (vol : FATVolume) (previous cluster : Nat) : Decidable (vol.Apart previous cluster) :=
  inferInstanceAs (Decidable (_ → _))

/-- What an access to an entry leaves. -/
structure FATTableIterator.Loaded (vol : FATVolume) (cluster : Nat) (it : FATTableIterator) : Prop where
  window : Window vol it
  first : it.loadedSector1 = some (vol.entrySector cluster)
  second : vol.Straddles cluster → it.loadedSector2 = some (vol.entrySector cluster + 1)

namespace FATTableIterator

theorem Loaded.fresh (loaded : Loaded vol cluster it) : ¬(it.moveTo vol cluster).Stale vol := by
  intro stale
  have missing : it.loadedSector2 = none := stale.second
  rw [loaded.second stale.straddles] at missing
  cases missing

theorem Loaded.fresh_next (loaded : Loaded vol cluster it) (apart : vol.Apart cluster next) :
    ¬(it.moveTo vol next).Stale vol := by
  intro stale
  have here : it.loadedSector1 = some (vol.entrySector next) := stale.first
  rw [loaded.first] at here
  exact apart stale.straddles (some.inj here)

theorem loaded_update (accepted : vol.Accepted) (w : Window vol it) (data : vol.isDataCluster cluster)
    (fresh : ¬(it.moveTo vol cluster).Stale vol) :
    Loaded vol cluster ((it.moveTo vol cluster).update vol noFaults).2 := by
  have updated := update_spec accepted (w.moveTo data) noFaults
  have done : ((it.moveTo vol cluster).update vol noFaults).1 = none := by
    rcases ended : ((it.moveTo vol cluster).update vol noFaults).1 with _ | stop
    · rfl
    · rcases updated.fails stop ended with ⟨_, _, fault, _⟩
      cases fault
  have here : ((it.moveTo vol cluster).update vol noFaults).2.currentSector = vol.entrySector cluster := by
    rw [updated.window.sector, updated.cluster]
    rfl
  have first := updated.loaded done
  have second := updated.ready done fresh
  rw [here] at first second
  rw [updated.cluster] at second
  exact ⟨updated.window, first, second⟩

end FATTableIterator

/-- Nothing fails. -/
def quiet : Nat → Moment := fun _ => {}

theorem serve_getEntry (accepted : vol.Accepted) (w : Window vol s.table.it) (data : vol.isDataCluster cluster)
    (fresh : ¬(s.table.it.moveTo vol cluster).Stale vol) :
    ∃ s', serve vol quiet (.getEntry cluster) s = (vol.tableEntry s.table.disk cluster, s') ∧
      s'.table.disk = s.table.disk ∧ Loaded vol cluster s'.table.it := by
  rcases getEntry_fresh accepted w data fresh with ⟨read, same, _⟩
  refine ⟨_, Prod.ext read rfl, same, ?_⟩
  have loaded := loaded_update accepted w data fresh
  rw [← getEntry_iterator noFaults s.table.disk] at loaded
  show Loaded vol cluster (getEntry vol noFaults cluster s.table).2.it
  rw [getEntry_eq accepted data]
  split <;> rename_i ended <;> exact (congrArg (fun r => Loaded vol cluster r.2) ended).mp loaded

theorem serve_setEntry (accepted : vol.Accepted) (loaded : Loaded vol cluster s.table.it)
    (data : vol.isDataCluster cluster) : ∃ s', serve vol quiet (.setEntry cluster 0) s = (.ok (), s') ∧
      SetsEntry vol cluster 0 s.table.disk s'.table.disk ∧ Loaded vol cluster s'.table.it := by
  have fits : vol.fatBits = 32 → 0 < 2 ^ 28 := fun _ => by decide
  rcases setEntry_fresh accepted loaded.window data fits loaded.fresh with ⟨done, sets, _⟩
  refine ⟨_, Prod.ext (congrArg resultOf done) rfl, sets, ?_⟩
  have again := loaded_update accepted loaded.window data loaded.fresh
  rw [← setEntry_iterator noFaults 0 s.table.disk] at again
  show Loaded vol cluster (setEntry vol noFaults cluster 0 s.table).2.it
  rw [setEntry_eq accepted data]
  exact again

theorem run_getEntry {result : Except Stop Nat} (served : serve vol quiet (.getEntry cluster) s = (result, s')) :
    (Driver.getEntry cluster).run (serve vol quiet) s = (result, s') := served

theorem run_setEntry {value : Nat} (served : serve vol quiet (.setEntry cluster value) s = (.ok (), s')) :
    (Driver.setEntry cluster value).run (serve vol quiet) s = (.ok (), s') := served

/-! ## Reading along a chain -/

/-- The entries of the clusters that are left are those of a disk, and the window is not
stale for the first of them. -/
structure Reading (vol : FATVolume) (disk : Disk) (l : List Nat) (s : DriverState) : Prop where
  window : Window vol s.table.it
  entries : ∀ c ∈ l, vol.entry s.table.disk c = vol.entry disk c
  fresh : ∀ c, l.head? = some c → ¬(s.table.it.moveTo vol c).Stale vol

theorem Reading.of_loaded (loaded : Loaded vol cluster s.table.it)
    (apart : (cluster :: rest).IsChain vol.Apart)
    (entries : ∀ c ∈ rest, vol.entry s.table.disk c = vol.entry disk c) : Reading vol disk rest s where
  window := loaded.window
  entries := entries
  fresh c isHead := by
    cases rest with
    | nil => cases isHead
    | cons next rest =>
      cases isHead
      exact loaded.fresh_next (isChain_cons_cons.1 apart).1

theorem Reading.getEntry (accepted : vol.Accepted) (reading : Reading vol disk (cluster :: rest) s)
    (data : vol.isDataCluster cluster) (apart : (cluster :: rest).IsChain vol.Apart) :
    ∃ s', serve vol quiet (.getEntry cluster) s = (vol.tableEntry disk cluster, s') ∧
      Loaded vol cluster s'.table.it ∧ Reading vol disk rest s' := by
  rcases serve_getEntry accepted reading.window data (reading.fresh cluster rfl) with
    ⟨s', served, same, loaded⟩
  have entry : vol.tableEntry s.table.disk cluster = vol.tableEntry disk cluster := by
    unfold FATVolume.tableEntry
    rw [reading.entries cluster mem_cons_self]
  refine ⟨s', served.trans (by rw [entry]), loaded, .of_loaded loaded apart ?_⟩
  intro c member
  rw [same]
  exact reading.entries c (mem_cons_of_mem _ member)

theorem Reading.setEntry (accepted : vol.Accepted) (reading : Reading vol disk rest s)
    (loaded : Loaded vol cluster s.table.it) (data : ∀ c ∈ cluster :: rest, vol.isDataCluster c)
    (fresh : cluster ∉ rest) (apart : (cluster :: rest).IsChain vol.Apart) :
    ∃ s', serve vol quiet (.setEntry cluster 0) s = (.ok (), s') ∧ Reading vol disk rest s' := by
  rcases serve_setEntry accepted loaded (data _ mem_cons_self) with ⟨s', served, sets, loaded'⟩
  refine ⟨s', served, .of_loaded loaded' apart ?_⟩
  intro c member
  have different : c ≠ cluster := by
    rintro rfl
    exact fresh member
  rw [sets.entry_of_ne accepted (data c (mem_cons_of_mem _ member)) different]
  exact reading.entries c member

namespace Driver

variable {p count rounds : Nat}

section

variable (accepted : vol.Accepted)

include accepted

section

variable (chain : vol.Chain disk (cluster :: rest)) (apart : (cluster :: rest).IsChain vol.Apart)
  (reading : Reading vol disk (cluster :: rest) s)

include chain apart reading

theorem follow_run
    :
    ∃ s', (follow vol n cluster).run (serve vol quiet) s = (vol.follow disk n cluster, s') ∧
      Reading vol disk ((cluster :: rest).drop n) s' := by
  induction n generalizing cluster rest s with
  | zero => exact ⟨s, rfl, reading⟩
  | succ n ih =>
    rcases reading.getEntry accepted (chain.data _ mem_cons_self) apart with ⟨s', served, _, reading'⟩
    cases chain with
    | last data ends =>
      rw [ends] at served
      have notData : ¬vol.isDataCluster endFatEntry :=
        not_data_of_reserved accepted (le_refl _)
      refine ⟨s', ?_, ?_⟩
      · rw [follow, run_bind (run_getEntry served), FATVolume.follow, ends]
        simp only [notData, Bool.false_eq_true, if_false]
        rfl
      · rw [drop_succ_cons, drop_nil]
        exact reading'
    | link data entry rest' =>
      rw [entry] at served
      have next := rest'.data _ mem_cons_self
      rcases ih rest' (isChain_cons_cons.1 apart).2 reading' with ⟨s'', followed, reading''⟩
      refine ⟨s'', ?_, reading''⟩
      rw [follow, run_bind (run_getEntry served), FATVolume.follow, entry]
      simp only [next, if_true]
      exact followed

theorem getChainEntry_run
    (inside : n ≤ vol.totalClusters) :
    ∃ s', (getChainEntry vol cluster n).run (serve vol quiet) s = (vol.getChainEntry disk cluster n, s') ∧
      Reading vol disk ((cluster :: rest).drop n) s' := by
  have data := chain.data _ mem_cons_self
  have valid : ¬(!vol.isDataCluster cluster ∨ n > vol.totalClusters) := by
    simp only [data, Bool.not_true, Bool.false_eq_true, false_or]
    omega
  rw [getChainEntry, FATVolume.getChainEntry, if_neg valid, if_neg valid]
  exact follow_run accepted chain apart reading

theorem chainLengthLoop_run
    (enough : rest.length < rounds) :
    ((chainLengthLoop vol rounds count cluster).run (serve vol quiet) s).1 =
      .ok (count + rest.length, (cluster :: rest).getLast (cons_ne_nil _ _)) := by
  induction rounds generalizing cluster rest count s with
  | zero => omega
  | succ rounds ih =>
    rcases reading.getEntry accepted (chain.data _ mem_cons_self) apart with ⟨s', served, _, reading'⟩
    cases chain with
    | last data ends =>
      rw [ends] at served
      rw [chainLengthLoop, run_bind (run_getEntry served), if_pos rfl]
      rfl
    | @link _ next rest data entry rest' =>
      rw [entry] at served
      have isData := rest'.data _ mem_cons_self
      have going : next ≠ endFatEntry := by
        rintro rfl
        exact not_data_of_reserved accepted (le_refl _) isData
      rw [chainLengthLoop, run_bind (run_getEntry served), if_neg going]
      simp only [isData, Bool.not_true, Bool.false_eq_true, if_false]
      rw [ih rest' (isChain_cons_cons.1 apart).2 reading' (by simpa using enough)]
      rw [getLast_cons_cons, length_cons]
      congr 2
      omega

end

theorem clearLoop_end (rounds : Nat) :
    clearLoop vol rounds endFatEntry = pure endFatEntry := by
  have notData : ¬vol.isDataCluster endFatEntry := not_data_of_reserved accepted (le_refl _)
  cases rounds with
  | zero => rfl
  | succ rounds => rw [clearLoop, if_neg notData]

section

variable (chain : vol.Chain disk (cluster :: rest)) (apart : (cluster :: rest).IsChain vol.Apart)
  (reading : Reading vol disk (cluster :: rest) s)

include chain apart reading

theorem clearLoop_run
    (enough : rest.length < rounds) :
    ∃ s', (clearLoop vol rounds cluster).run (serve vol quiet) s = (.ok endFatEntry, s') := by
  induction rounds generalizing cluster rest s with
  | zero => omega
  | succ rounds ih =>
    have data := chain.data
    have nodup := chain.nodup accepted
    rcases reading.getEntry accepted (data _ mem_cons_self) apart with ⟨s₁, served, loaded, reading₁⟩
    rcases reading₁.setEntry accepted loaded data (nodup_cons.1 nodup).1 apart with
      ⟨s₂, cleared, reading₂⟩
    rw [clearLoop, if_pos (data _ mem_cons_self)]
    cases chain with
    | last _ ends =>
      rw [ends] at served
      rw [run_bind (run_getEntry served), if_neg (by decide), run_bind (run_setEntry cleared), clearLoop_end accepted]
      exact ⟨_, rfl⟩
    | @link _ next rest _ entry rest' =>
      rw [entry] at served
      have some' : next ≠ 0 := by
        have bounds := isDataCluster_iff.1 (rest'.data _ mem_cons_self)
        omega
      rw [run_bind (run_getEntry served), if_neg some', run_bind (run_setEntry cleared)]
      have shorter : rest.length < rounds := by
        rw [length_cons] at enough
        omega
      have reading₃ : Reading vol disk (next :: rest) (serve vol quiet (.update fun m =>
          if m.freeClusters < vol.totalClusters then { m with freeClusters := m.freeClusters + 1 }
          else m) s₂).2 := ⟨reading₂.window, reading₂.entries, reading₂.fresh⟩
      exact ih rest' (isChain_cons_cons.1 apart).2 reading₃ shorter

theorem clearFATChain_run
    :
    ((clearFATChain vol cluster).run (serve vol quiet) s).1 = .ok () := by
  have short := chain.length_le accepted
  have data := chain.data _ mem_cons_self
  rcases clearLoop_run accepted chain apart reading (lt_of_succ_le short) with ⟨s', cleared⟩
  have info : ∃ s'', (updateFSInfo vol).run (serve vol quiet) s' = (.ok (), s'') := by
    unfold updateFSInfo
    split
    · exact ⟨_, rfl⟩
    · exact ⟨_, rfl⟩
  rcases info with ⟨s'', updated⟩
  rw [clearFATChain, if_neg (by simp [data]), run_bind cleared, run_bind updated, if_neg (by simp)]
  rfl

end

section

variable (chain : vol.Chain disk l) (apart : l.IsChain vol.Apart)
  (reading : Reading vol disk (l.drop (p / vol.sectorsPerCluster)) s)

include chain apart reading

theorem incrementSector_run
    (inside : p + n < (Area.chain l).length vol) :
    ∃ s', (incrementSector vol ((Area.chain l).position vol p) n).run (serve vol quiet) s =
        (.ok (true, (Area.chain l).position vol (p + n)), s') ∧
      Reading vol disk (l.drop ((p + n) / vol.sectorsPerCluster)) s' := by
  have here : p < (Area.chain l).length vol := by omega
  have held : (Area.chain l).Holds vol disk (l.headD 0) := by
    refine ⟨chain, ?_⟩
    cases chain <;> rfl
  have moved := Area.increment_inside accepted held inside
  have data := Area.position_data chain here
  have index := Area.cluster_add accepted p n
  have current : ((Area.chain l).position vol p).currentSector = p % vol.sectorsPerCluster := rfl
  unfold FATClusterSectorIterator.increment at moved
  unfold incrementSector
  rw [if_neg (Area.position_ne_end accepted here)] at moved ⊢
  by_cases still : n = 0
  · rw [if_pos still] at moved ⊢
    refine ⟨s, congrArg (·, s) moved, ?_⟩
    rw [still, add_zero]
    exact reading
  rw [if_neg still, if_neg (Area.not_fixedRoot_of_data data), current] at moved ⊢
  by_cases near : p % vol.sectorsPerCluster + n < vol.sectorsPerCluster
  · rw [if_pos near] at moved ⊢
    refine ⟨s, congrArg (·, s) moved, ?_⟩
    rw [index, div_eq_of_lt near, add_zero]
    exact reading
  · rw [if_neg near] at moved ⊢
    dsimp only at moved ⊢
    have below := Area.cluster_inside here
    have there := Area.cluster_inside inside
    rw [index] at there
    have short := chain.length_le accepted
    have advances : (p % vol.sectorsPerCluster + n) / vol.sectorsPerCluster ≤ vol.totalClusters :=
      le_of_lt (lt_of_le_of_lt (le_add_left _ _) (lt_of_lt_of_le there short))
    rw [drop_eq_getElem_cons below] at reading
    have apart' : (l[p / vol.sectorsPerCluster] :: l.drop (p / vol.sectorsPerCluster + 1)).IsChain vol.Apart := by
      rw [← drop_eq_getElem_cons below]
      exact apart.drop _
    rcases getChainEntry_run accepted (chain.drop_eq below) apart' reading advances with ⟨s', read, reading'⟩
    have cluster : ((Area.chain l).position vol p).currentCluster = l[p / vol.sectorsPerCluster] :=
      Area.position_cluster below
    rw [← cluster] at read
    have entry := Area.getChainEntry_position accepted chain here there
    rw [entry] at read moved
    rw [← drop_eq_getElem_cons below, drop_drop, ← index] at reading'
    refine ⟨s', ?_, reading'⟩
    rw [run_bind read]
    dsimp only at moved
    split at moved
    · cases moved
    rename_i notEnd
    split at moved
    · rename_i isData
      split at moved
      · cases moved
      · rename_i room
        rw [if_neg notEnd, if_pos isData, if_neg room]
        exact congrArg (·, s') moved
    · cases moved

theorem incrementAll_run
    {steps : List Nat}
    (inside : p + steps.sum < (Area.chain l).length vol) :
    ((incrementAll vol ((Area.chain l).position vol p) steps).run (serve vol quiet) s).1 =
      .ok ((Area.chain l).position vol (p + steps.sum)) := by
  induction steps generalizing p s with
  | nil => rfl
  | cons n steps ih =>
    rw [sum_cons, ← add_assoc] at inside ⊢
    rcases incrementSector_run accepted chain apart reading (lt_of_le_of_lt (le_add_right _ _) inside)
      with ⟨s', moved, reading'⟩
    rw [incrementAll, run_bind moved]
    exact ih reading' inside

end

end

end Driver

/-! ## Cells and entries -/

theorem raw_of_next {raw : Nat} (isNext : vol.cell raw = .next next) : raw = next ∧ vol.isDataCluster next := by
  unfold FATVolume.cell at isNext
  split at isNext
  · cases isNext
  · split at isNext
    · cases isNext
      exact ⟨rfl, ‹_›⟩
    · split at isNext <;> cases isNext

theorem tableEntry_of_last (accepted : vol.Accepted) (data : vol.isDataCluster cluster)
    (isLast : vol.cells disk cluster = .last) : vol.tableEntry disk cluster = .ok endFatEntry := by
  unfold FATVolume.cells at isLast
  rw [if_pos data] at isLast
  unfold FATVolume.cell at isLast
  unfold FATVolume.tableEntry classify
  split at isLast
  · cases isLast
  · split at isLast
    · cases isLast
    · split at isLast
      · rename_i reserved
        have notData := FATTable.not_data_of_reserved accepted reserved
        rw [if_neg, if_pos reserved]
        rintro (zero | data)
        · rw [zero] at reserved
          cases reserved
        · exact notData data
      · cases isLast

/-! ## Chains that are accepted -/

theorem data_of_cell (known : vol.cells disk cluster ≠ .reserved) : vol.isDataCluster cluster := by
  by_contra outside
  exact known (if_neg outside)

theorem tableEntry_of_next (links : vol.cells disk cluster = .next next) :
    vol.isDataCluster next ∧ vol.tableEntry disk cluster =
      classify vol (widen vol.fatBits (next % 2 ^ vol.entryWidth)) := by
  have data := data_of_cell (by rw [links]; exact nofun)
  unfold FATVolume.cells at links
  rw [if_pos data] at links
  rcases raw_of_next links with ⟨same, isData⟩
  refine ⟨isData, ?_⟩
  have small : vol.entry disk cluster < 2 ^ vol.entryWidth := BitTable.entry_lt _
  rw [same] at small
  unfold FATVolume.tableEntry
  rw [same, mod_eq_of_lt small]

theorem FATVolume.Chain.of_linked (accepted : vol.Accepted) (linked : Linked (vol.cells disk) start l)
    (plain : ∀ c ∈ l.tail, ¬vol.LooksReserved c) : vol.Chain disk l := by
  induction linked with
  | last ends =>
    have data := data_of_cell (by rw [ends]; exact nofun)
    exact .last data (tableEntry_of_last accepted data ends)
  | @next a b l links rest ih =>
    have data := data_of_cell (by rw [links]; exact nofun)
    rcases tableEntry_of_next links with ⟨isData, entry⟩
    cases l with
    | nil => exact absurd rfl rest.ne_nil
    | cons c l =>
      obtain rfl : b = c := (some.inj rest.head_eq).symm
      have isPlain := plain b mem_cons_self
      rw [classify_stored accepted (.inr (.inr isData)) isPlain] at entry
      exact .link data entry (ih fun x member => plain x (mem_cons_of_mem _ member))

theorem Driver.plain_of_chainLengthLoop (accepted : vol.Accepted) {rounds count : Nat} {r : Nat × Nat}
    (linked : Linked (vol.cells disk) cluster (cluster :: rest))
    (apart : (cluster :: rest).IsChain vol.Apart) (reading : Reading vol disk (cluster :: rest) s)
    (returns : ((chainLengthLoop vol rounds count cluster).run (serve vol quiet) s).1 = .ok r) :
    ∀ c ∈ rest, ¬vol.LooksReserved c := by
  induction rounds generalizing cluster rest count s with
  | zero => cases returns
  | succ rounds ih =>
    cases linked with
    | last _ => simp
    | @next _ b _ links rest' =>
      have data := data_of_cell (by rw [links]; exact nofun)
      rcases reading.getEntry accepted data apart with ⟨s', served, _, reading'⟩
      rcases tableEntry_of_next links with ⟨isData, entry⟩
      rw [entry] at served
      have isPlain : ¬vol.LooksReserved b := by
        intro looks
        rw [classify_looksReserved accepted looks] at served
        rw [chainLengthLoop, run_bind_error (run_getEntry served)] at returns
        cases returns
      rw [classify_stored accepted (.inr (.inr isData)) isPlain] at served
      have going : b ≠ endFatEntry := by
        rintro rfl
        exact not_data_of_reserved accepted (le_refl _) isData
      rw [chainLengthLoop, run_bind (run_getEntry served), if_neg going] at returns
      simp only [isData, Bool.not_true, Bool.false_eq_true, if_false] at returns
      cases rest with
      | nil => exact absurd rfl rest'.ne_nil
      | cons c rest =>
        obtain rfl : b = c := (some.inj rest'.head_eq).symm
        have later := ih rest' (isChain_cons_cons.1 apart).2 reading' returns
        intro x member
        rcases mem_cons.1 member with rfl | member
        · exact isPlain
        · exact later x member

/-- The walks along a chain come to its end, and say where it is. -/
structure FATVolume.AcceptsChain (vol : FATVolume) (start : Nat) (l : List Nat) (s : DriverState) : Prop where
  length : ((Driver.getChainLength vol start).run (serve vol quiet) s).1 = .ok (l.length, l.getLastD 0)
  entry : ∀ n ≤ vol.totalClusters,
    ((Driver.getChainEntry vol start n).run (serve vol quiet) s).1 = .ok (l.getD n endFatEntry)
  clear : ((Driver.clearFATChain vol start).run (serve vol quiet) s).1 = .ok ()
  walk : ∀ steps : List Nat, steps.sum < l.length * vol.sectorsPerCluster →
    ((Driver.incrementAll vol { currentCluster := start, currentSector := 0 } steps).run
      (serve vol quiet) s).1 = .ok ((Area.chain l).position vol steps.sum)

/-- A table in use that holds the disk, with a window that is not stale at a cluster. -/
structure FATVolume.StartsAt (vol : FATVolume) (disk : Disk) (start : Nat) (s : DriverState) : Prop where
  used : FATTable.InUse vol s.table
  disk : s.table.disk = disk
  fresh : ¬(s.table.it.moveTo vol start).Stale vol

section

variable (accepted : vol.Accepted) (starts : vol.StartsAt disk start s)
  (linked : Linked (vol.cells disk) start l)

include accepted starts linked

theorem Reading.of_starts : Reading vol disk l s where
  window := starts.used.window accepted
  entries c _ := by rw [starts.disk]
  fresh c isHead := by
    rw [linked.head_eq] at isHead
    cases isHead
    exact starts.fresh

theorem acceptsChain_of_plain
    (apart : l.IsChain vol.Apart)
    (plain : ∀ c ∈ l.tail, ¬vol.LooksReserved c) : vol.AcceptsChain start l s := by
  have chain := FATVolume.Chain.of_linked accepted linked plain
  have reading := Reading.of_starts accepted starts linked
  cases l with
  | nil => exact absurd rfl linked.ne_nil
  | cons c rest =>
    obtain rfl : start = c := (some.inj linked.head_eq).symm
    have data := chain.data _ mem_cons_self
    have short := chain.length_le accepted
    refine ⟨?_, ?_, Driver.clearFATChain_run accepted chain apart reading, ?_⟩
    · rw [Driver.getChainLength, if_neg (by simp [data]),
        Driver.chainLengthLoop_run accepted chain apart reading (lt_of_succ_le short),
        getLast_eq_getLastD, getLastD_cons, length_cons, add_comm]
    · intro n inside
      rcases Driver.getChainEntry_run accepted chain apart reading inside with ⟨s', read, _⟩
      rw [read]
      by_cases within : n < (start :: rest).length
      · rw [getD_eq_getElem _ _ within]
        exact chain.getChainEntry_lt accepted within
      · rw [getD_eq_default _ _ (Nat.le_of_not_lt within)]
        show vol.getChainEntry disk start n = _
        rw [chain.getChainEntry_end accepted (Nat.le_of_not_lt within), if_neg (by omega)]
    · intro steps inside
      have first : ({ currentCluster := start, currentSector := 0 } : FATClusterSectorIterator) =
          (Area.chain (start :: rest)).position vol 0 := by
        simp [Area.position]
      have here : Reading vol disk ((start :: rest).drop (0 / vol.sectorsPerCluster)) s := by
        rw [Nat.zero_div]
        exact reading
      rw [← zero_add steps.sum] at inside
      have walked := Driver.incrementAll_run accepted chain apart here inside
      rw [zero_add] at walked
      rw [first]
      exact walked

end

/-- The table of a volume that has been mounted. -/
def mounted (vol : FATVolume) (disk : Disk) : DriverState where
  table := FATTable.start vol disk
  cursor := FATTableIterator.start vol firstDataCluster
  slots := fun _ _ _ => 0
  memory := { freeClusters := 0, lastAllocatedCluster := firstDataCluster }
  fsInfo := { freeClusters := 0, lastAllocatedCluster := firstDataCluster }

theorem mounted_startsAt (vol : FATVolume) (disk : Disk) (start : Nat) :
    vol.StartsAt disk start (mounted vol disk) :=
  ⟨FATTable.inUse_start vol disk, rfl, FATTable.not_stale_start vol disk start⟩

theorem plain_of_acceptsChain (accepted : vol.Accepted) (starts : vol.StartsAt disk start s)
    (linked : Linked (vol.cells disk) start l) (apart : l.IsChain vol.Apart)
    (accepts : vol.AcceptsChain start l s) : ∀ c ∈ l.tail, ¬vol.LooksReserved c := by
  have reading := Reading.of_starts accepted starts linked
  have length := accepts.length
  unfold Driver.getChainLength at length
  split at length
  · cases length
  cases l with
  | nil => exact absurd rfl linked.ne_nil
  | cons c rest =>
    obtain rfl : start = c := (some.inj linked.head_eq).symm
    exact Driver.plain_of_chainLengthLoop accepted linked apart reading length

/-- Every walk ends. A chain of any length, up to all clusters of the volume, is accepted
exactly if no link looks like a reserved value, where no straddling entry is met through a
window on its first sector. -/
theorem walksEnd_acceptsChain {bytesRead : Nat} {sb : FATSuperBlock}
    (read : readSuperBlock bytesRead sb = .ok vol) (linked : Linked (vol.cells disk) start l)
    (apart : l.IsChain vol.Apart) :
    vol.WalksEnd ∧ ((∀ s, vol.StartsAt disk start s → vol.AcceptsChain start l s) ↔
      ∀ c ∈ l.tail, ¬vol.LooksReserved c) := by
  have accepted := accepted_of_readSuperBlock read
  refine ⟨accepted.walksEnd, ?_, ?_⟩
  · intro accepts
    have starts := mounted_startsAt vol disk start
    exact plain_of_acceptsChain accepted starts linked apart (accepts _ starts)
  · intro plain s starts
    exact acceptsChain_of_plain accepted starts linked apart plain

/-! ## A volume of 340 clusters

The entry of the last cluster straddles the two sectors of the table.
-/

def smallSector : FATSuperBlock := fun i =>
  (([(0x0c, 2), (0x0d, 1), (0x0e, 1), (0x10, 2), (0x11, 0x10), (0x13, 0x5a), (0x14, 1), (0x15, 0xf0),
    (0x16, 2), (0x1fe, 0x55), (0x1ff, 0xaa)] : List (Nat × UInt8)).lookup i).getD 0

def small : FATVolume where
  fatBits := 12
  bytesPerSector := 512
  reservedSectors := 1
  sectorsPerFAT := 2
  sectorsPerCluster := 1
  fatCount := 2
  activeFAT := 0
  rootEntriesCount := 16
  totalSectors := 346
  mediaDescriptor := 0xf0
  fsInfoSector := 0xffff
  backupBootSector := 0
  totalClusters := 340
  fatMirrored := true
  rootStart := 5
  rootSectorCount := 1
  volumeLabelEntry := -2
  volumeLabel := FATSuperBlock.blankLabel
  firstDataSector := 6
  rootSize := 512
  rootStartCluster := 1
  rootEndCluster := 1

theorem readSuperBlock_small : readSuperBlock 512 smallSector = .ok small := by decide +kernel

/-- The bytes of a table of 12-bit entries. -/
def packedByte (value : Nat → Nat) (offset : Nat) : Nat :=
  let pair := 2 * (offset / 3)
  if offset % 3 = 0 then value pair % 0x100
  else if offset % 3 = 1 then value pair / 0x100 + 0x10 * (value (pair + 1) % 0x10)
  else value (pair + 1) / 0x10

def tableDisk (value : Nat → Nat) : Disk := fun sector i =>
  if sector = 1 ∨ sector = 2 then UInt8.ofNat (packedByte value (512 * (sector - 1) + i)) else 0

/-- All clusters in their order. -/
def ascending (cluster : Nat) : Nat := if cluster = 341 then 0xfff else cluster + 1

/-- All clusters, the last one first. -/
def rotated (cluster : Nat) : Nat :=
  if cluster = 341 then 2 else if cluster = 340 then 0xfff else cluster + 1

theorem small_data : small.isDataCluster cluster ↔ 2 ≤ cluster ∧ cluster < 342 := isDataCluster_iff

theorem small_next (data : 2 ≤ cluster ∧ cluster < 342) (data' : 2 ≤ next ∧ next < 342)
    (entry : small.entry disk cluster = next) : small.cells disk cluster = .next next := by
  unfold FATVolume.cells FATVolume.cell
  rw [if_pos (small_data.2 data), entry, if_neg (by omega), if_pos (small_data.2 data')]

theorem small_last (data : 2 ≤ cluster ∧ cluster < 342) (entry : small.entry disk cluster = 0xfff) :
    small.cells disk cluster = .last := by
  unfold FATVolume.cells
  rw [if_pos (small_data.2 data), entry]
  rfl

theorem linked_range {a : Nat} (inside : 2 ≤ a ∧ a + n < 342)
    (entries : ∀ c ∈ range' a n, small.entry disk c = c + 1)
    (linked : Linked (small.cells disk) (a + n) l) :
    Linked (small.cells disk) a (range' a n ++ l) := by
  induction n generalizing a with
  | zero => exact linked
  | succ n ih =>
    rw [range'_succ, cons_append]
    rw [range'_succ] at entries
    have entry := entries a mem_cons_self
    apply Linked.next (small_next (by omega) (by omega) entry)
    apply ih (by omega) fun c member => entries c (mem_cons_of_mem _ member)
    rw [add_right_comm]
    exact linked

theorem small_fatBits : small.fatBits = 12 := rfl

theorem linked_ascending :
    Linked (small.cells (tableDisk ascending)) 2 (range' 2 339 ++ [341]) := by
  have entries : ∀ c ∈ range' 2 339, small.entry (tableDisk ascending) c = c + 1 := by
    simp only [← FATTableIterator.twelve_bits small_fatBits]
    decide +kernel
  exact linked_range (by decide) entries (.last (small_last (by decide) (by decide +kernel)))

theorem linked_rotated :
    Linked (small.cells (tableDisk rotated)) 341 (341 :: (range' 2 338 ++ [340])) := by
  have entries : ∀ c ∈ range' 2 338, small.entry (tableDisk rotated) c = c + 1 := by
    simp only [← FATTableIterator.twelve_bits small_fatBits]
    decide +kernel
  exact .next (small_next (by decide) (by decide) (by decide +kernel)) <|
    linked_range (by decide) entries (.last (small_last (by decide) (by decide +kernel)))

/-- The chain of all clusters, where the straddling entry comes first. -/
theorem walksEnd_acceptsChain_rotated : small.WalksEnd ∧
    ((∀ s, small.StartsAt (tableDisk rotated) 341 s →
        small.AcceptsChain 341 (341 :: (range' 2 338 ++ [340])) s) ↔
      ∀ c ∈ (341 :: (range' 2 338 ++ [340])).tail, ¬small.LooksReserved c) :=
  walksEnd_acceptsChain readSuperBlock_small linked_rotated (by decide +kernel)

/-- The chain of all clusters in their order is not accepted: the last entry is met
through a window on its first sector, without a second buffer. -/
theorem not_acceptsChain_always : ¬∀ (bytesRead : Nat) (sb : FATSuperBlock) (vol : FATVolume) (disk : Disk)
    (start : Nat) (l : List Nat) (s : DriverState), readSuperBlock bytesRead sb = .ok vol →
    Linked (vol.cells disk) start l → (∀ c, vol.isDataCluster c → c ∈ l) → vol.StartsAt disk start s →
    vol.AcceptsChain start l s := by
  intro always
  have whole : ∀ c, small.isDataCluster c → c ∈ range' 2 339 ++ [341] := by
    intro c data
    have bounds := small_data.1 data
    rw [mem_append, mem_range'_1, mem_singleton]
    omega
  have accepts := always 512 smallSector small _ 2 _ _ readSuperBlock_small linked_ascending whole
    (mounted_startsAt small (tableDisk ascending) 2)
  have stops : ((Driver.getChainLength small 2).run (serve small quiet)
      (mounted small (tableDisk ascending))).1 = .error .panics := by decide +kernel
  rw [accepts.length] at stops
  cases stops

end PadOS.Fat
