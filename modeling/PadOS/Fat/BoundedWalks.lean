import PadOS.Fat.CompactDirectory
import PadOS.Fat.FileWrite
import PadOS.Fat.ReadDirectory

/-! # Walks that end

Whatever the table says, a walk along it makes no more steps than the volume has
clusters, and a scan of a directory no more than it has slots. Three counters see to
it: the index of `GetChainEntry`, the count of `ClearFATChain` and the visited clusters
of an iterator.
-/

namespace PadOS.Fat

open Program FATClusterSectorIterator FATDirectoryIterator Run Nat

variable {vol : FATVolume} {disk : Disk} {cluster : Nat} {wantName : Bool} {rounds calls : Nat}

/-! ## Accesses to the table -/

namespace Driver

theorem getEntry_atMost : (getEntry cluster).AtMost 1 := atMost_perform _

theorem follow_atMost (index : Nat) : (follow vol index cluster).AtMost index := by
  induction index generalizing cluster with
  | zero => exact atMost_done _ _
  | succ index ih =>
    have step : (follow vol (index + 1) cluster).AtMost (1 + index) := by
      apply getEntry_atMost.bind
      intro next
      split
      · exact ih
      · exact atMost_done _ _
    exact step.mono (by omega)

theorem getChainEntry_atMost (index : Nat) :
    (getChainEntry vol cluster index).AtMost vol.totalClusters := by
  unfold getChainEntry
  split
  · exact atMost_done _ _
  · rename_i valid
    exact (follow_atMost index).mono (Nat.le_of_not_lt (not_or.1 valid).2)

theorem chainLengthLoop_atMost (rounds count : Nat) :
    (chainLengthLoop vol rounds count cluster).AtMost rounds := by
  induction rounds generalizing count cluster with
  | zero => exact atMost_done _ _
  | succ rounds ih =>
    have step : (chainLengthLoop vol (rounds + 1) count cluster).AtMost (1 + rounds) := by
      apply getEntry_atMost.bind
      intro next
      split
      · exact atMost_done _ _
      split
      · exact atMost_done _ _
      · exact ih _
    exact step.mono (by omega)

theorem getChainLength_atMost : (getChainLength vol cluster).AtMost vol.totalClusters := by
  unfold getChainLength
  split
  · exact atMost_done _ _
  · exact chainLengthLoop_atMost _ _

theorem clearLoop_atMost (rounds : Nat) : (clearLoop vol rounds cluster).AtMost (3 * rounds) := by
  induction rounds generalizing cluster with
  | zero => exact atMost_done _ _
  | succ rounds ih =>
    have step : (clearLoop vol (rounds + 1) cluster).AtMost (1 + (1 + (1 + 3 * rounds))) := by
      unfold clearLoop
      split
      · apply getEntry_atMost.bind
        intro next
        split
        · exact atMost_done _ _
        apply AtMost.bind (atMost_perform _)
        intro _
        apply AtMost.bind (atMost_perform _)
        exact fun _ => ih
      · exact atMost_done _ _
    exact step.mono (by omega)

theorem clearFATChain_atMost : (clearFATChain vol cluster).AtMost (3 * vol.totalClusters + 1) := by
  have info : (updateFSInfo vol).AtMost 1 := by
    unfold updateFSInfo
    split
    · exact atMost_perform _
    · exact atMost_done _ _
  unfold clearFATChain
  split
  · exact atMost_done _ _
  apply (clearLoop_atMost _).bind
  intro last
  have rest : (updateFSInfo vol >>= fun _ =>
      if last ≠ endFatEntry then throws .io else pure ()).AtMost (1 + 0) := by
    apply info.bind
    intro _
    split
    · exact atMost_done _ _
    · exact atMost_done _ _
  exact rest

theorem incrementSector_atMost (it : FATClusterSectorIterator) (sectors : Nat) :
    (incrementSector vol it sectors).AtMost vol.totalClusters := by
  unfold incrementSector
  split
  · exact atMost_done _ _
  split
  · exact atMost_done _ _
  split
  · split
    · exact atMost_done _ _
    · exact atMost_done _ _
  split
  · exact atMost_done _ _
  have entry : (getChainEntry vol it.currentCluster
      ((it.currentSector + sectors) / vol.sectorsPerCluster)).AtMost vol.totalClusters :=
    getChainEntry_atMost _
  refine AtMost.mono (entry.bind (fun next => ?_)) (le_refl (vol.totalClusters + 0))
  split
  · exact atMost_done _ _
  split
  · split
    · exact atMost_done _ _
    · exact atMost_done _ _
  · exact atMost_done _ _

end Driver

/-! ## The iterator over sectors -/

/-- The steps that are left, at least. -/
def FATClusterSectorIterator.remaining (vol : FATVolume) (it : FATClusterSectorIterator) : Nat :=
  if it.currentSector = endOfChain then 0
  else if isFixedRoot it.currentCluster then vol.rootSectorCount - it.currentSector + 1
  else (vol.totalClusters - it.visitedClusterCount) * vol.sectorsPerCluster +
    (vol.sectorsPerCluster - it.currentSector) + 1

namespace FATClusterSectorIterator

variable {it it' : FATClusterSectorIterator} {sectors : Nat} {more : Bool}

theorem remaining_pos (going : it.currentSector ≠ endOfChain) : 0 < it.remaining vol := by
  unfold remaining
  rw [if_neg going]
  split <;> omega

/-- One of the sectors after the current one, in the same cluster. -/
theorem remaining_near (going : it.currentSector ≠ endOfChain) (some' : 0 < sectors)
    (inside : it.currentSector + sectors <
      if isFixedRoot it.currentCluster then vol.rootSectorCount else vol.sectorsPerCluster) :
    { it with currentSector := it.currentSector + sectors }.remaining vol < it.remaining vol := by
  by_cases ended : it.currentSector + sectors = endOfChain
  · rw [remaining, if_pos ended]
    exact remaining_pos going
  · unfold remaining
    rw [if_neg ended, if_neg going]
    dsimp only
    split at inside
    · rename_i root
      rw [if_pos root, if_pos root]
      omega
    · rename_i plain
      rw [if_neg plain, if_neg plain]
      omega

/-- A sector of a later cluster, which counts as visited. -/
theorem remaining_far (accepted : vol.Accepted) (going : it.currentSector ≠ endOfChain) (some' : 0 < sectors)
    (plain : ¬isFixedRoot it.currentCluster) {next : Nat} (data : vol.isDataCluster next)
    (visits : (it.currentSector + sectors) / vol.sectorsPerCluster + it.visitedClusterCount ≤
      vol.totalClusters) :
    remaining vol
      { currentCluster := next
        currentSector := (it.currentSector + sectors) % vol.sectorsPerCluster
        visitedClusterCount := it.visitedClusterCount +
          (it.currentSector + sectors) / vol.sectorsPerCluster } < it.remaining vol := by
  have size := accepted.clusterSize.1
  have place := div_add_mod (it.currentSector + sectors) vol.sectorsPerCluster
  have offset := mod_lt (it.currentSector + sectors) size
  have plain' : ¬isFixedRoot next := Area.not_fixedRoot_of_data data
  unfold remaining
  rw [if_neg going, if_neg plain, if_neg plain']
  split
  · omega
  dsimp only
  generalize (it.currentSector + sectors) / vol.sectorsPerCluster = advance at *
  obtain ⟨rest, total⟩ := Nat.exists_eq_add_of_le visits
  have before : vol.totalClusters - it.visitedClusterCount = advance + rest := by omega
  have after : vol.totalClusters - (it.visitedClusterCount + advance) = rest := by omega
  rw [before, after, add_mul, mul_comm advance]
  omega

/-- A step forwards leaves fewer steps, whatever the table says. -/
theorem remaining_increment (accepted : vol.Accepted) (some' : 0 < sectors)
    (moved : it.increment vol disk sectors = .ok (more, it')) : it'.remaining vol < it.remaining vol := by
  unfold increment at moved
  split at moved
  · cases moved
  rename_i going
  rw [if_neg (by omega)] at moved
  split at moved
  · rename_i root
    split at moved
    · rename_i inside
      cases moved
      exact remaining_near going some' (by rw [if_pos root]; exact inside)
    · cases moved
      exact remaining_pos going
  rename_i plain
  split at moved
  · rename_i inside
    cases moved
    exact remaining_near going some' (by rw [if_neg plain]; exact inside)
  dsimp only at moved
  split at moved
  · cases moved
  split at moved
  · cases moved
    exact remaining_pos going
  split at moved
  · rename_i data
    split at moved
    · cases moved
    · rename_i visits
      cases moved
      exact remaining_far accepted going some' plain data (by omega)
  · cases moved

theorem remaining_start (accepted : vol.Accepted) (first : it.visitedClusterCount = 1) :
    it.remaining vol ≤ max vol.rootSectorCount (vol.totalClusters * vol.sectorsPerCluster) + 1 := by
  have := accepted.someClusters
  have whole : vol.totalClusters * vol.sectorsPerCluster =
      (vol.totalClusters - 1) * vol.sectorsPerCluster + vol.sectorsPerCluster := by
    rw [← succ_mul]
    congr 1
    omega
  unfold remaining
  rw [first]
  split
  · omega
  split
  · omega
  · omega

end FATClusterSectorIterator

namespace Driver

variable {it it' : FATClusterSectorIterator} {sectors : Nat}

/-- Whatever is read, a step forwards leaves fewer steps. -/
theorem remaining_incrementSector (accepted : vol.Accepted) (it : FATClusterSectorIterator)
    (some' : 0 < sectors) (n : Nat) :
    (incrementSector vol it sectors).Every counting n fun r _ =>
      ∀ a, r = .ok a → a.2.remaining vol < it.remaining vol := by
  unfold incrementSector
  split
  · exact fun _ impossible => nomatch impossible
  rename_i going
  rw [if_neg (by omega)]
  split
  · rename_i root
    split
    · rename_i inside
      rintro _ ⟨⟩
      exact remaining_near going some' (by rw [if_pos root]; exact inside)
    · rintro _ ⟨⟩
      exact remaining_pos going
  rename_i plain
  split
  · rename_i inside
    rintro _ ⟨⟩
    exact remaining_near going some' (by rw [if_neg plain]; exact inside)
  rw [every_bind]
  apply every_of_forall
  intro r m
  rcases r with stop | next
  · exact fun _ impossible => nomatch impossible
  show Every counting _ m _
  beta_reduce
  split
  · rintro _ ⟨⟩
    exact remaining_pos going
  split
  · rename_i data
    split
    · exact fun _ impossible => nomatch impossible
    · rename_i visits
      rintro _ ⟨⟩
      exact remaining_far accepted going some' plain data (by omega)
  · exact fun _ impossible => nomatch impossible
/-- `Increment` again and again. -/
def incrementAll (vol : FATVolume) (it : FATClusterSectorIterator) :
    List Nat → Driver FATClusterSectorIterator
  | [] => pure it
  | sectors :: steps => do
      let (_, it) ← incrementSector vol it sectors
      incrementAll vol it steps

theorem incrementAll_every (accepted : vol.Accepted) (it : FATClusterSectorIterator) {steps : List Nat}
    (forwards : ∀ n ∈ steps, 0 < n) (n : Nat) : (incrementAll vol it steps).Every counting n fun r _ =>
      ∀ a, r = .ok a → steps.length + a.remaining vol ≤ it.remaining vol := by
  induction steps generalizing it n with
  | nil =>
    rintro _ ⟨⟩
    simp
  | cons sectors steps ih =>
    have moved := remaining_incrementSector accepted it (forwards sectors List.mem_cons_self) n
    show (incrementSector vol it sectors >>= _).Every counting n _
    rw [every_bind]
    apply every_mono counting_monotone moved
    intro r m fewer
    rcases r with stop | ⟨more, it'⟩
    · exact fun _ impossible => nomatch impossible
    have fewer := fewer _ rfl
    have rest := ih it' (fun n member => forwards n (List.mem_cons_of_mem _ member)) m
    apply every_mono counting_monotone rest
    intro r _ bounded a ended
    have bounded := bounded a ended
    rw [List.length_cons]
    dsimp only at fewer
    omega

/-- A walk forwards that returns has made no more steps than were left. -/
theorem incrementAll_length (accepted : vol.Accepted) {steps : List Nat} (forwards : ∀ n ∈ steps, 0 < n)
    {moments : Nat → Moment} {s s' : DriverState}
    (moved : (incrementAll vol it steps).run (serve vol moments) s = (.ok it', s')) :
    steps.length ≤ it.remaining vol := by
  have ended := every_counting (h := serve vol moments) (s := s) (incrementAll_every accepted it forwards 0)
  rw [moved] at ended
  have bounded := ended it' rfl
  omega

end Driver

/-! ## The iterator over slots -/

namespace FATDirectoryIterator

variable {it it' it'' : FATDirectoryIterator} {buffer : Option FATDirectoryEntryCombo} {k : Nat}

/-- The slots that are left, at least. -/
def remaining (vol : FATVolume) (it : FATDirectoryIterator) : Nat :=
  it.sectorIterator.remaining vol * vol.entriesPerSector +
    (vol.entriesPerSector - 1 - it.currentIndex % vol.entriesPerSector)

theorem remaining_enterNextSector (accepted : vol.Accepted) (crosses : it.currentIndex % vol.entriesPerSector = 0)
    (moved : it.enterNextSector vol disk = .ok (buffer, it')) :
    it'.remaining vol < it.sectorIterator.remaining vol * vol.entriesPerSector := by
  have positive := Area.entriesPerSector_pos accepted
  obtain ⟨fewer, same⟩ : it'.sectorIterator.remaining vol < it.sectorIterator.remaining vol ∧
      it'.currentIndex = it.currentIndex := by
    unfold enterNextSector at moved
    split at moved
    · cases moved
    · rename_i advanced
      cases moved
      exact ⟨remaining_increment accepted one_pos advanced, rfl⟩
    · rename_i advanced
      split at moved
      · cases moved
      · cases moved
        exact ⟨remaining_increment accepted one_pos advanced, rfl⟩
  unfold remaining
  rw [same, crosses]
  calc it'.sectorIterator.remaining vol * vol.entriesPerSector + (vol.entriesPerSector - 1 - 0)
      < (it'.sectorIterator.remaining vol + 1) * vol.entriesPerSector := by
        rw [succ_mul]
        omega
    _ ≤ it.sectorIterator.remaining vol * vol.entriesPerSector := mul_le_mul_right _ fewer

/-- A slot further, fewer slots are left, whatever the table says. -/
theorem remaining_getNextRawEntry (accepted : vol.Accepted) (shown : it.currentBlock.buffer.isSome)
    (moved : it.getNextRawEntry vol disk = .ok (buffer, it')) : it'.remaining vol < it.remaining vol := by
  unfold getNextRawEntry at moved
  rw [if_neg (by simp [Option.isSome_iff_ne_none.1 shown])] at moved
  dsimp only at moved
  split at moved
  · rename_i crosses
    have fewer := remaining_enterNextSector accepted (by unfold releaseCurrentBlock; split <;> exact crosses) moved
    refine lt_of_lt_of_le fewer ?_
    have same : { it with currentIndex := (it.currentIndex + 1) % 2 ^ 32 }.releaseCurrentBlock.sectorIterator =
        it.sectorIterator := by
      unfold releaseCurrentBlock
      split <;> rfl
    rw [same]
    exact le_add_right _ _
  · rename_i stays
    cases moved
    unfold remaining
    rw [Area.mod_entriesPerSector accepted] at stays
    have next : (it.currentIndex + 1) % vol.entriesPerSector = it.currentIndex % vol.entriesPerSector + 1 := by
      have here := div_add_mod it.currentIndex vol.entriesPerSector
      have there := div_add_mod (it.currentIndex + 1) vol.entriesPerSector
      rcases Area.succ_div (k := vol.entriesPerSector) it.currentIndex with ⟨crosses, _⟩ | ⟨_, same⟩
      · exact absurd crosses stays
      · rw [same] at there
        omega
    have size := mod_lt (it.currentIndex + 1) (Area.entriesPerSector_pos accepted)
    dsimp only
    rw [Area.mod_entriesPerSector accepted, next]
    omega

/-- The iterator is `k` slots further; the disk may have changed in between. -/
inductive RawSteps (vol : FATVolume) : Nat → FATDirectoryIterator → FATDirectoryIterator → Prop
  | refl {it : FATDirectoryIterator} : RawSteps vol 0 it it
  | next {k : Nat} {it it' it'' : FATDirectoryIterator} {disk : Disk} {buffer : Option FATDirectoryEntryCombo}
      (shown : it.currentBlock.buffer.isSome) (moved : it.getNextRawEntry vol disk = .ok (buffer, it'))
      (rest : RawSteps vol k it' it'') : RawSteps vol (k + 1) it it''

theorem RawSteps.le_remaining (accepted : vol.Accepted) (steps : RawSteps vol k it it') :
    k + it'.remaining vol ≤ it.remaining vol := by
  induction steps with
  | refl => omega
  | next shown moved rest ih =>
    have fewer := remaining_getNextRawEntry accepted shown moved
    omega

theorem RawSteps.trans {n : Nat} (steps : RawSteps vol k it it') (steps' : RawSteps vol n it' it'') :
    RawSteps vol (k + n) it it'' := by
  induction steps with
  | refl =>
    rw [zero_add]
    exact steps'
  | next shown moved _ ih =>
    rw [add_right_comm]
    exact .next shown moved (ih steps')

theorem RawSteps.single (shown : it.currentBlock.buffer.isSome)
    (moved : it.getNextRawEntry vol disk = .ok (buffer, it')) : RawSteps vol 1 it it' :=
  .next shown moved .refl

theorem shown_of_getCurrentEntry (shows : (it.getCurrentEntry vol disk).isSome) :
    it.currentBlock.buffer.isSome := by
  unfold getCurrentEntry at shows
  rw [Option.isSome_map] at shows
  exact shows

theorem shown_of_getNextRawEntry (moved : it.getNextRawEntry vol disk = .ok (buffer, it'))
    (shows : buffer.isSome) : it'.currentBlock.buffer.isSome := by
  unfold getNextRawEntry at moved
  split at moved
  · cases moved
    cases shows
  dsimp only at moved
  split at moved
  · unfold enterNextSector at moved
    split at moved
    · cases moved
    · cases moved
      cases shows
    · split at moved
      · cases moved
      · cases moved
        exact shown_of_getCurrentEntry shows
  · cases moved
    exact shown_of_getCurrentEntry shows

/-! ## Scans -/

/-- The iterator of a scan has moved on, if something has been found. -/
def MovedOn {α : Type} (vol : FATVolume) (it : FATDirectoryIterator)
    (r : Option α × FATDirectoryIterator) : Prop :=
  ∃ k, RawSteps vol k it r.2 ∧ (r.1.isSome → 0 < k)

theorem lfnLoop_finishes (accepted : vol.Accepted) (enough : it.remaining vol + 2 ≤ rounds)
    (state : LFNState) (shows : buffer.isSome → it.currentBlock.buffer.isSome) :
    (lfnLoop vol disk wantName rounds state buffer it).Finishes fun r =>
      (∃ k, RawSteps vol k it r.2) ∧ (r.1.isSome → r.2.currentBlock.buffer.isSome) := by
  induction rounds generalizing state buffer it with
  | zero => omega
  | succ rounds ih =>
    cases buffer with
    | none => exact finishes_pure ⟨⟨0, .refl⟩, fun impossible => nomatch impossible⟩
    | some buffer =>
      have shown := shows rfl
      unfold lfnLoop
      split
      · exact finishes_pure ⟨⟨0, .refl⟩, fun impossible => nomatch impossible⟩
      · exact finishes_pure ⟨⟨0, .refl⟩, fun _ => shown⟩
      · apply Run.Finishes.bind (finishes_ofExcept fun a moved => moved)
        intro ⟨buffer', it'⟩ moved
        have fewer := remaining_getNextRawEntry accepted shown moved
        apply (ih (by omega) _ (shown_of_getNextRawEntry moved)).mono
        intro r ⟨⟨k, steps⟩, shows'⟩
        exact ⟨⟨k + 1, .next shown moved steps⟩, shows'⟩

theorem getNextLFNEntry_finishes (accepted : vol.Accepted) (enough : it.remaining vol + 2 ≤ rounds) :
    (it.getNextLFNEntry vol disk wantName rounds).Finishes (MovedOn vol it) := by
  apply (lfnLoop_finishes accepted enough {} shown_of_getCurrentEntry).bind
  intro ⟨found, it'⟩ ⟨⟨k, steps⟩, shows⟩
  cases found with
  | none => exact finishes_pure ⟨k, steps, fun impossible => nomatch impossible⟩
  | some found =>
    apply Run.Finishes.bind (finishes_ofExcept fun a moved => moved)
    intro ⟨_, it''⟩ moved
    exact finishes_pure ⟨k + 1, steps.trans (.single (shows rfl) moved), fun _ => succ_pos k⟩

theorem MovedOn.fewer {α : Type} (accepted : vol.Accepted) {found : Option α}
    (moved : MovedOn vol it (found, it')) (some' : found.isSome) : it'.remaining vol < it.remaining vol := by
  rcases moved with ⟨k, steps, forwards⟩
  have bounded := steps.le_remaining accepted
  have := forwards some'
  dsimp only at bounded
  omega

variable {directory : FATInode}

theorem getNextVisibleEntry_finishes (accepted : vol.Accepted) (enough : it.remaining vol + 2 ≤ rounds)
    (enough' : it.remaining vol < calls) :
    (getNextVisibleEntry vol disk directory rounds calls it).Finishes (MovedOn vol it) := by
  induction calls generalizing it with
  | zero => omega
  | succ calls ih =>
    apply (getNextLFNEntry_finishes accepted enough).bind
    intro ⟨found, it'⟩ moved
    cases found with
    | none => exact finishes_pure moved
    | some entry =>
      have fewer := moved.fewer accepted rfl
      dsimp only
      split
      · apply (ih (by omega) (by omega)).mono
        intro r ⟨n, steps', forwards⟩
        rcases moved with ⟨k, steps, some'⟩
        refine ⟨k + n, steps.trans steps', fun _ => ?_⟩
        have := some' rfl
        omega
      · exact finishes_pure moved

theorem getNextDirectoryEntry_finishes (accepted : vol.Accepted) (enough : it.remaining vol + 2 ≤ rounds)
    (maps : InodeMap) : (it.getNextDirectoryEntry vol disk directory rounds maps).Finishes fun r =>
      MovedOn vol it (r.1, r.2.2) := by
  apply (getNextVisibleEntry_finishes accepted enough (by omega)).bind
  intro ⟨found, it'⟩ moved
  cases found with
  | none => exact finishes_pure moved
  | some f =>
    have made : (ofExcept (toRecord vol directory maps f)).Finishes fun _ => True :=
      finishes_ofExcept fun _ _ => trivial
    apply made.bind
    intro _ _
    exact finishes_pure moved

end FATDirectoryIterator

open FATDirectoryIterator Unicode

variable {it : FATDirectoryIterator} {directory : FATInode}

section

variable (accepted : vol.Accepted) (enough : it.remaining vol + 2 ≤ rounds)
  (enough' : it.remaining vol < calls)

include accepted enough enough'

theorem locateLoop_finishes
    (fileName : PString) (maps : InodeMap) :
    (locateLoop vol disk directory fileName rounds calls maps it).Finishes fun _ => True := by
  induction calls generalizing it maps with
  | zero => omega
  | succ calls ih =>
    apply (getNextDirectoryEntry_finishes accepted enough maps).bind
    intro ⟨found, maps', it'⟩ moved
    cases found with
    | none => exact finishes_pure trivial
    | some record =>
      have fewer := moved.fewer accepted rfl
      dsimp only at fewer ⊢
      split
      · exact finishes_pure trivial
      · exact ih (by omega) (by omega) maps'

theorem readLoop_finishes
    (layout : DirentLayout) (w : DirEntryWriter) (s : ReadState) :
    (readLoop layout vol disk directory rounds calls w s it).Finishes fun _ => True := by
  induction calls generalizing it w s with
  | zero => omega
  | succ calls ih =>
    unfold readLoop
    split
    · exact finishes_pure trivial
    apply (getNextDirectoryEntry_finishes accepted enough s.maps).bind
    rintro ⟨found, maps', it'⟩ moved
    cases found with
    | none => exact finishes_pure trivial
    | some record =>
      have fewer := moved.fewer accepted rfl
      dsimp only at fewer ⊢
      split
      · split
        · exact finishes_throw _
        · exact finishes_pure trivial
      · exact ih (by omega) (by omega) _ _

theorem compactLoop_finishes
    (isRoot : Bool) (directoryEntryCount last : Nat) :
    (compactLoop vol disk isRoot directoryEntryCount rounds calls last it).Finishes fun _ => True := by
  induction calls generalizing it last with
  | zero => omega
  | succ calls ih =>
    unfold compactLoop
    split
    · apply (getNextLFNEntry_finishes accepted enough).bind
      rintro ⟨found, it'⟩ moved
      cases found with
      | none => exact finishes_pure trivial
      | some entry =>
        have fewer := moved.fewer accepted rfl
        exact ih (by omega) (by omega) _
    · exact finishes_pure trivial

end

/-! ## From the first slot -/

/-- The slots of the longest directory, the one the iterator starts in and the last one again. -/
def FATVolume.slotLimit (vol : FATVolume) : Nat :=
  (max vol.rootSectorCount (vol.totalClusters * vol.sectorsPerCluster) + 2) * vol.entriesPerSector

theorem FATDirectoryIterator.remaining_create (accepted : vol.Accepted) {cluster index : Nat}
    (created : create vol disk cluster index = .ok it) :
    it.remaining vol < vol.slotLimit := by
  have positive := Area.entriesPerSector_pos accepted
  have first := remaining_start accepted (show ({ currentCluster := cluster, currentSector := 0 } :
      FATClusterSectorIterator).visitedClusterCount = 1 from rfl)
  have inside : it.sectorIterator.remaining vol ≤
      max vol.rootSectorCount (vol.totalClusters * vol.sectorsPerCluster) + 1 := by
    unfold create at created
    simp only [Bind.bind, Except.bind, Pure.pure, Except.pure] at created
    split at created
    · rename_i far
      split at created
      · cases created
      rename_i advanced
      split at created
      · cases created
      cases created
      have fewer := remaining_increment accepted (div_pos far positive) advanced
      dsimp only at fewer ⊢
      omega
    · split at created
      · cases created
      cases created
      exact first
  unfold remaining FATVolume.slotLimit
  calc it.sectorIterator.remaining vol * vol.entriesPerSector +
        (vol.entriesPerSector - 1 - it.currentIndex % vol.entriesPerSector)
      < (it.sectorIterator.remaining vol + 1) * vol.entriesPerSector := by
        rw [succ_mul]
        omega
    _ ≤ _ := mul_le_mul_right _ (succ_le_succ inside)

theorem FATDirectoryIterator.create_finishes (accepted : vol.Accepted) (cluster index : Nat) :
    (ofExcept (create vol disk cluster index)).Finishes fun it =>
      it.remaining vol < vol.slotLimit :=
  finishes_ofExcept fun _ created => remaining_create accepted created

section

variable (accepted : vol.Accepted) (enough : vol.slotLimit < rounds)

include accepted enough

theorem doLocateInode_finishes
    (fileName : PString) (maps : InodeMap) :
    (doLocateInode vol disk directory fileName rounds maps).Finishes fun _ => True := by
  unfold doLocateInode
  split
  · exact finishes_pure trivial
  split
  · exact finishes_pure trivial
  apply (create_finishes accepted _ _).bind
  intro it started
  exact locateLoop_finishes accepted (by omega) (by omega) fileName maps

theorem readDirectory_finishes
    (layout : DirentLayout) (bufferSize : Nat) (s : ReadState) :
    (readDirectory layout vol disk directory rounds bufferSize s).Finishes fun _ => True := by
  unfold readDirectory
  by_cases small : bufferSize < layout.recordSize 0
  · dsimp only
    rw [if_pos small]
    exact finishes_throw (.throws .inval)
  dsimp only
  rw [if_neg small]
  have first : (ofExcept (if directory.isRoot vol then
      addRootEntries layout vol 2 { bufferSize } s.currentIndex
      else .ok (true, { bufferSize }, s.currentIndex))).Finishes fun _ => True :=
    finishes_ofExcept fun _ _ => trivial
  apply first.bind
  intro ⟨more, w, currentIndex⟩ _
  cases more
  · exact finishes_pure trivial
  apply (create_finishes accepted _ _).bind
  intro it started
  apply (readLoop_finishes accepted (by omega) (by omega) layout w _).bind
  intro _ _
  exact finishes_pure trivial

theorem findLast_finishes :
    (findLast vol disk rounds directory).Finishes fun _ => True := by
  apply (create_finishes accepted _ _).bind
  intro it started
  exact compactLoop_finishes accepted (by omega) (by omega) _ _ _

end

/-- Whatever the table and the directories hold and whatever fails, accesses to the table
are bounded by the clusters of the volume and steps of an iterator by what is left of the
longest chain; a scan of a directory ends in as many rounds as there are slots. -/
structure FATVolume.WalksEnd (vol : FATVolume) : Prop where
  getChainEntry : ∀ cluster index moments s,
    (Driver.getChainEntry vol cluster index).calls (serve vol moments) s ≤ vol.totalClusters
  getChainLength : ∀ cluster moments s,
    (Driver.getChainLength vol cluster).calls (serve vol moments) s ≤ vol.totalClusters
  clearFATChain : ∀ cluster moments s,
    (Driver.clearFATChain vol cluster).calls (serve vol moments) s ≤ 3 * vol.totalClusters + 1
  incrementSector : ∀ it sectors moments s,
    (Driver.incrementSector vol it sectors).calls (serve vol moments) s ≤ vol.totalClusters
  incrementAll : ∀ it it' steps moments s s', (∀ n ∈ steps, 0 < n) →
    (Driver.incrementAll vol it steps).run (serve vol moments) s = (.ok it', s') →
    steps.length ≤ it.remaining vol
  started : ∀ it : FATClusterSectorIterator, it.visitedClusterCount = 1 →
    it.remaining vol ≤ max vol.rootSectorCount (vol.totalClusters * vol.sectorsPerCluster) + 1
  rawSteps : ∀ k (it it' : FATDirectoryIterator), RawSteps vol k it it' → k ≤ it.remaining vol
  getNextLFNEntry : ∀ disk wantName rounds (it : FATDirectoryIterator), it.remaining vol + 2 ≤ rounds →
    (it.getNextLFNEntry vol disk wantName rounds).Finishes (MovedOn vol it)
  created : ∀ disk cluster index it, create vol disk cluster index = .ok it →
    it.remaining vol < vol.slotLimit
  doLocateInode : ∀ disk directory fileName rounds maps, vol.slotLimit < rounds →
    (Fat.doLocateInode vol disk directory fileName rounds maps).Finishes fun _ => True
  readDirectory : ∀ layout disk directory rounds bufferSize s, vol.slotLimit < rounds →
    (Fat.readDirectory layout vol disk directory rounds bufferSize s).Finishes fun _ => True
  findLast : ∀ disk rounds directory, vol.slotLimit < rounds →
    (Fat.findLast vol disk rounds directory).Finishes fun _ => True

theorem FATVolume.Accepted.walksEnd (accepted : vol.Accepted) : vol.WalksEnd where
  getChainEntry _ index _ _ := (Driver.getChainEntry_atMost index).calls_le
  getChainLength _ _ _ := Driver.getChainLength_atMost.calls_le
  clearFATChain _ _ _ := Driver.clearFATChain_atMost.calls_le
  incrementSector it sectors _ _ := (Driver.incrementSector_atMost it sectors).calls_le
  incrementAll _ _ _ _ _ _ forwards moved := Driver.incrementAll_length accepted forwards moved
  started _ first := remaining_start accepted first
  rawSteps _ _ _ steps := le_of_add_right_le (steps.le_remaining accepted)
  getNextLFNEntry _ _ _ _ enough := getNextLFNEntry_finishes accepted enough
  created _ _ _ _ created := remaining_create accepted created
  doLocateInode _ _ fileName _ maps enough := doLocateInode_finishes accepted enough fileName maps
  readDirectory layout _ _ _ bufferSize s enough := readDirectory_finishes accepted enough layout bufferSize s
  findLast _ _ _ enough := findLast_finishes accepted enough

end PadOS.Fat
