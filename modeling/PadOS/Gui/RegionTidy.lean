import PadOS.Gui.RegionOptimize

/-! # What `Optimize` leaves

Between the merges every slot is in use and valid, or unused, and no two overlap. The slots that
were merged away are removed from the second one on; so the result is tidy exactly when the first
rectangle is never the one that is merged away.
-/

namespace PadOS.Gui.PRegion

open Rectangle List

/-! ## The first slot -/

/-- The slots after a merge. -/
def merge (expand : PIRect → PIRect → PIRect) (rects : List PIRect) (curr next : Nat) :
    List PIRect :=
  (rects.set curr (expand (slot rects curr) (slot rects next))).set next
    { slot rects next with left := (slot rects next).right }

/-- The merges of one loop, none of which takes the first rectangle for `next`. -/
def Spares (adjacent : PIRect → PIRect → Bool) (expand : PIRect → PIRect → PIRect) :
    Nat → List Nat → List PIRect → Prop
  | _, [], _ => True
  | curr, next :: rest, rects =>
    if adjacent (slot rects curr) (slot rects next) then
      next ≠ 0 ∧ Spares adjacent expand curr rest (merge expand rects curr next)
    else Spares adjacent expand next rest rects

section

variable (order : StdSort)

def SparesSorted (key : PIRect → Int) (adjacent : PIRect → PIRect → Bool)
    (expand : PIRect → PIRect → PIRect) (rects : List PIRect) (list : List Nat) : Prop :=
  match order.sort (fun i => key (slot rects i)) list with
  | [] => True
  | first :: rest => Spares adjacent expand first rest rects

def SparesRows : List PIRect → List Nat → Prop :=
  SparesSorted order (·.left)
    (fun curr next => curr.right == next.left && curr.top == next.top && curr.bottom == next.bottom)
    (fun curr next => { curr with right := next.right })

def SparesColumns : List PIRect → List Nat → Prop :=
  SparesSorted order (·.top)
    (fun curr next => curr.bottom == next.top && curr.left == next.left && curr.right == next.right)
    (fun curr next => { curr with bottom := next.bottom })

def SparesLoop : Nat → List PIRect → List Nat → Prop
  | 0, _, _ => True
  | fuel + 1, rects, list =>
    if list.length ≤ 1 then True
    else
      SparesRows order rects list ∧
      match mergeRows order rects list with
      | (rects, list, rowsRemoved) =>
        if list.length ≤ 1 then True
        else
          SparesColumns order rects list ∧
          match mergeColumns order rects list with
          | (rects, list, columnsRemoved) =>
            if rowsRemoved || columnsRemoved then SparesLoop fuel rects list else True

/-- In no merge of the run does the first rectangle continue the one before it in the sorted
list. -/
def SparesFirst (rects : List PIRect) : Prop :=
  SparesLoop order rects.length rects (range rects.length)

end

/-! ## Slots in use -/

variable {rects : List PIRect} {list : List Nat} {rect : PIRect} {i j : Nat}
  {adjacent : PIRect → PIRect → Bool} {expand : PIRect → PIRect → PIRect}

/-- Every slot is valid or unused, and no two overlap. -/
structure Cut (rects : List PIRect) : Prop where
  valid : ∀ rect ∈ rects, isUnused rect = true ∨ rect.IsValid
  apart : rects.Pairwise Apart

theorem Cut.of_tiles (tiles : Tiles rects) : Cut rects :=
  ⟨fun rect member => .inr (tiles.valid rect member), tiles.apart⟩

theorem Cut.tiles (cut : Cut rects) : Tiles (inUse rects) := by
  constructor
  · intro rect member
    have ⟨here, used⟩ := mem_filter.1 member
    rcases cut.valid rect here with unused | valid
    · simp [unused] at used
    · exact valid
  · exact cut.apart.sublist filter_sublist

theorem Cut.slot_apart (cut : Cut rects) (other : i ≠ j) (within : i < rects.length)
    (within' : j < rects.length) : Apart (slot rects i) (slot rects j) := by
  have pairs := pairwise_iff_getElem.1 cut.apart
  unfold slot
  rw [getD_eq_getElem _ _ within, getD_eq_getElem _ _ within']
  rcases Nat.lt_or_gt_of_ne other with less | less
  · exact pairs i j within within' less
  · exact (pairs j i within' within less).symm

theorem cut_iff_slot : Cut rects ↔
    (∀ i < rects.length, isUnused (slot rects i) = true ∨ (slot rects i).IsValid) ∧
    ∀ i j, i < j → j < rects.length → Apart (slot rects i) (slot rects j) := by
  constructor
  · intro cut
    refine ⟨fun i within => ?_, fun i j less within =>
      cut.slot_apart less.ne (less.trans within) within⟩
    unfold slot
    rw [getD_eq_getElem _ _ within]
    exact cut.valid _ (getElem_mem within)
  · intro ⟨valid, apart⟩
    constructor
    · intro rect member
      obtain ⟨i, within, rfl⟩ := mem_iff_getElem.1 member
      have here := valid i within
      unfold slot at here
      rwa [getD_eq_getElem _ _ within] at here
    · rw [pairwise_iff_getElem]
      intro i j within within' less
      have here := apart i j less within'
      unfold slot at here
      rwa [getD_eq_getElem _ _ within, getD_eq_getElem _ _ within'] at here

theorem length_merge : (merge expand rects i j).length = rects.length := by simp [merge]

theorem slot_merge (within : i < rects.length) (within' : j < rects.length) (k : Nat) :
    slot (merge expand rects i j) k =
      if k = j then { slot rects j with left := (slot rects j).right }
      else if k = i then expand (slot rects i) (slot rects j) else slot rects k := by
  rw [merge, slot_set j (by rwa [length_set]), slot_set i within]

theorem mergeFrom_merge {curr next : Nat} {rest : List Nat}
    (neighbours : adjacent (slot rects curr) (slot rects next) = true) :
    mergeFrom adjacent expand curr (next :: rest) rects =
      ((mergeFrom adjacent expand curr rest (merge expand rects curr next)).1,
        (mergeFrom adjacent expand curr rest (merge expand rects curr next)).2.1, true) := by
  rw [mergeFrom, if_pos neighbours]
  rfl

theorem mergeFrom_next {curr next : Nat} {rest : List Nat}
    (apart : ¬ adjacent (slot rects curr) (slot rects next) = true) :
    mergeFrom adjacent expand curr (next :: rest) rects =
      ((mergeFrom adjacent expand next rest rects).1,
        curr :: (mergeFrom adjacent expand next rest rects).2.1,
        (mergeFrom adjacent expand next rest rects).2.2) := by
  rw [mergeFrom, if_neg apart]

theorem mergeFrom_sublist (curr : Nat) (list : List Nat) (rects : List PIRect) :
    (mergeFrom adjacent expand curr list rects).2.1.Sublist (curr :: list) := by
  induction list generalizing curr rects with
  | nil => exact .refl _
  | cons next rest ih =>
    by_cases neighbours : adjacent (slot rects curr) (slot rects next) = true
    · rw [mergeFrom_merge neighbours]
      exact (ih _ _).trans ((sublist_cons_self _ _).cons_cons _)
    · rw [mergeFrom_next neighbours]
      exact (ih _ _).cons_cons _

/-- Merging keeps validity. -/
structure Joins (adjacent : PIRect → PIRect → Bool) (expand : PIRect → PIRect → PIRect) : Prop
    extends Merges adjacent expand where
  valid : ∀ curr next, adjacent curr next → curr.IsValid → next.IsValid → (expand curr next).IsValid

theorem Cut.merge (cut : Cut rects) (joins : Joins adjacent expand)
    (within : i < rects.length) (within' : j < rects.length) (valid : (slot rects i).IsValid)
    (valid' : (slot rects j).IsValid) (neighbours : adjacent (slot rects i) (slot rects j)) :
    Cut (merge expand rects i j) := by
  have union := joins.points _ _ neighbours (.of_isValid valid) (.of_isValid valid')
  have grown := joins.valid _ _ neighbours valid valid'
  have unused : isUnused { slot rects j with left := (slot rects j).right } = true := by
    simp [isUnused]
  have empty := points_of_isUnused unused
  rw [cut_iff_slot]
  simp only [length_merge, slot_merge within within']
  obtain ⟨allValid, allApart⟩ := cut_iff_slot.1 cut
  -- The grown slot keeps clear of the others because both of its parts did.
  have clear : ∀ k < rects.length, k ≠ i → k ≠ j →
      Apart (expand (slot rects i) (slot rects j)) (slot rects k) := by
    intro k inside notI notJ
    unfold Apart
    rw [union, Set.disjoint_union_left]
    exact ⟨cut.slot_apart (Ne.symm notI) within inside,
      cut.slot_apart (Ne.symm notJ) within' inside⟩
  constructor
  · intro k inside
    split_ifs
    · exact .inl unused
    · exact .inr grown
    · exact allValid k inside
  · intro k l less inside
    have early : k < rects.length := less.trans inside
    unfold Apart at *
    split_ifs with kJ lJ lI kI lJ lI lJ lI
    · rw [empty]
      exact Set.disjoint_empty _
    · rw [empty]
      exact Set.empty_disjoint _
    · rw [empty]
      exact Set.empty_disjoint _
    · rw [empty]
      exact Set.disjoint_empty _
    · omega
    · exact clear l inside lI lJ
    · rw [empty]
      exact Set.disjoint_empty _
    · exact (clear k early kI kJ).symm
    · exact allApart k l less inside

theorem mergeRows_joins : Joins
    (fun curr next => curr.right == next.left && curr.top == next.top && curr.bottom == next.bottom)
    (fun curr next => { curr with right := next.right }) where
  toMerges := mergeRows_merges
  valid := by
    intro curr next adjacent valid valid'
    simp only [Bool.and_eq_true, beq_iff_eq] at adjacent
    have ⟨width, height⟩ := valid
    have ⟨width', height'⟩ := valid'
    exact ⟨by show curr.left < next.right; omega, height⟩

theorem mergeColumns_joins : Joins
    (fun curr next => curr.bottom == next.top && curr.left == next.left && curr.right == next.right)
    (fun curr next => { curr with bottom := next.bottom }) where
  toMerges := mergeColumns_merges
  valid := by
    intro curr next adjacent valid valid'
    simp only [Bool.and_eq_true, beq_iff_eq] at adjacent
    have ⟨width, height⟩ := valid
    have ⟨width', height'⟩ := valid'
    exact ⟨width, by show curr.top < next.bottom; omega⟩

/-! ## One loop over the sorted list -/

/-- What a loop leaves of the slots of its list: those that stay in the list are valid, the others
are unused, and no other slot has changed. -/
structure Cleared (rects : List PIRect) (list : List Nat)
    (result : List PIRect × List Nat × Bool) : Prop where
  cut : Cut result.1
  valid : ∀ i ∈ result.2.1, (slot result.1 i).IsValid
  unused : ∀ i ∈ list, i ∉ result.2.1 → isUnused (slot result.1 i) = true
  frame : ∀ i, i ∉ list → slot result.1 i = slot rects i

theorem mergeFrom_cleared (joins : Joins adjacent expand) (curr : Nat) (list : List Nat)
    (cut : Cut rects) (slots : Slots rects (curr :: list))
    (valid : ∀ i ∈ curr :: list, (slot rects i).IsValid) :
    Cleared rects (curr :: list) (mergeFrom adjacent expand curr list rects) := by
  induction list generalizing curr rects with
  | nil => exact ⟨cut, valid, fun i member missing => absurd member missing, fun i _ => rfl⟩
  | cons next rest ih =>
    have ⟨distinct, inside⟩ := slots
    have within := inside curr (by simp)
    have within' := inside next (by simp)
    by_cases neighbours : adjacent (slot rects curr) (slot rects next) = true
    · rw [mergeFrom_merge neighbours]
      have at_slot : ∀ k, slot (merge expand rects curr next) k = _ :=
        slot_merge within within'
      have fewer : ∀ i ∈ curr :: rest, i ∈ curr :: next :: rest ∧ i ≠ next := by
        intro i member
        have notNext : next ≠ curr ∧ next ∉ rest := by
          simp only [nodup_cons, mem_cons, not_or] at distinct
          exact ⟨Ne.symm distinct.1.1, distinct.2.1⟩
        rcases mem_cons.1 member with rfl | member
        · exact ⟨by simp, Ne.symm notNext.1⟩
        · exact ⟨by simp [member], fun same => notNext.2 (same ▸ member)⟩
      have slots' : Slots (merge expand rects curr next) (curr :: rest) := by
        refine ⟨distinct.sublist ((sublist_cons_self _ _).cons_cons _), ?_⟩
        intro i member
        rw [length_merge]
        exact inside i (fewer i member).1
      have valid' : ∀ i ∈ curr :: rest, (slot (merge expand rects curr next) i).IsValid := by
        intro i member
        rw [at_slot, if_neg (fewer i member).2]
        split_ifs with isCurr
        · exact joins.valid _ _ neighbours (valid curr (by simp)) (valid next (by simp))
        · exact valid i (fewer i member).1
      have cleared := ih curr (cut.merge joins within within' (valid curr (by simp))
        (valid next (by simp)) neighbours) slots' valid'
      refine ⟨cleared.cut, cleared.valid, ?_, ?_⟩
      · intro i member missing
        by_cases isNext : i = next
        · rw [cleared.frame i fun member => (fewer i member).2 isNext, at_slot, if_pos isNext]
          simp [isUnused]
        · exact cleared.unused i (by simpa [isNext] using member) missing
      · intro i outside
        simp only [mem_cons, not_or] at outside
        rw [cleared.frame i (by simp [outside]), at_slot, if_neg outside.2.1, if_neg outside.1]
    · rw [mergeFrom_next neighbours]
      have notLater : curr ∉ next :: rest := (nodup_cons.1 distinct).1
      have cleared := ih next cut ⟨(nodup_cons.1 distinct).2,
        fun i member => inside i (mem_cons_of_mem _ member)⟩
        (fun i member => valid i (mem_cons_of_mem _ member))
      refine ⟨cleared.cut, ?_, ?_, ?_⟩
      · intro i member
        rcases mem_cons.1 member with rfl | member
        · rw [cleared.frame i notLater]
          exact valid i (by simp)
        · exact cleared.valid i member
      · intro i member missing
        have notCurr : i ≠ curr := fun same => missing (same ▸ mem_cons_self)
        exact cleared.unused i (mem_of_ne_of_mem notCurr member)
          fun member => missing (mem_cons_of_mem _ member)
      · intro i outside
        exact cleared.frame i fun member => outside (mem_cons_of_mem _ member)

theorem spares_of_notMem (curr : Nat) (list : List Nat) (rects : List PIRect)
    (missing : 0 ∉ list) : Spares adjacent expand curr list rects := by
  induction list generalizing curr rects with
  | nil => trivial
  | cons next rest ih =>
    simp only [mem_cons, not_or] at missing
    rw [Spares]
    split_ifs
    · exact ⟨Ne.symm missing.1, ih _ _ missing.2⟩
    · exact ih _ _ missing.2

theorem mem_mergeFrom (curr : Nat) (list : List Nat) (rects : List PIRect)
    (distinct : (curr :: list).Nodup) (member : 0 ∈ curr :: list) :
    0 ∈ (mergeFrom adjacent expand curr list rects).2.1 ↔
      Spares adjacent expand curr list rects := by
  induction list generalizing curr rects with
  | nil => simpa [mergeFrom, Spares] using member
  | cons next rest ih =>
    simp only [nodup_cons, mem_cons, not_or] at distinct member
    rw [Spares]
    split_ifs with neighbours
    · rw [mergeFrom_merge neighbours]
      by_cases isNext : next = 0
      · subst isNext
        have gone : 0 ∉ curr :: rest := by simp [Ne.symm distinct.1.1, distinct.2.1]
        simp only [ne_eq, not_true_eq_false, false_and, iff_false]
        exact fun member => gone ((mergeFrom_sublist _ _ _).subset member)
      · have stays : 0 ∈ curr :: rest := by simpa [Ne.symm isNext] using member
        simpa [isNext] using ih curr _ (by simp [distinct]) stays
    · rw [mergeFrom_next neighbours]
      by_cases isCurr : 0 = curr
      · have spares : Spares adjacent expand next rest rects :=
          spares_of_notMem next rest rects (isCurr ▸ distinct.1.2)
        simp [isCurr, spares]
      · simpa [isCurr] using ih next rects (by simp [distinct]) (by simpa [isCurr] using member)

theorem mergeSorted_cleared (order : StdSort) (joins : Joins adjacent expand) (key : PIRect → Int)
    (cut : Cut rects) (slots : Slots rects list) (valid : ∀ i ∈ list, (slot rects i).IsValid) :
    Cleared rects list (mergeSorted order key adjacent expand rects list) ∧
      (0 ∈ list → (0 ∈ (mergeSorted order key adjacent expand rects list).2.1 ↔
        SparesSorted order key adjacent expand rects list)) := by
  have perm := order.perm (fun i => key (slot rects i)) list
  unfold mergeSorted SparesSorted
  cases sorted : order.sort (fun i => key (slot rects i)) list with
  | nil =>
    rw [sorted] at perm
    have empty : list = [] := by simpa using perm.symm
    subst empty
    exact ⟨⟨cut, valid, fun i member missing => absurd member missing, fun i _ => rfl⟩, by simp⟩
  | cons first rest =>
    rw [sorted] at perm
    have slots' := slots.mono perm.subperm
    have cleared := mergeFrom_cleared joins first rest cut slots'
      fun i member => valid i (perm.subset member)
    refine ⟨⟨cleared.cut, cleared.valid, ?_, ?_⟩, fun member => ?_⟩
    · exact fun i member missing => cleared.unused i (perm.symm.subset member) missing
    · exact fun i outside => cleared.frame i fun member => outside (perm.subset member)
    · exact mem_mergeFrom first rest rects slots'.1 (perm.symm.subset member)

/-! ## The whole run -/

theorem Slots.range (rects : List PIRect) : Slots rects (range rects.length) :=
  ⟨nodup_range, fun _ member => mem_range.1 member⟩

/-- A round over a list, and what it does to the first slot. -/
structure Round (rects : List PIRect) (list : List Nat) (result : List PIRect × List Nat × Bool)
    (spares : Prop) : Prop where
  cut : Cut result.1
  upright : AllUpright result.1
  slots : Slots result.1 result.2.1
  valid : ∀ i ∈ result.2.1, (slot result.1 i).IsValid
  absent : 0 ∉ list → 0 ∉ result.2.1 ∧ slot result.1 0 = slot rects 0
  kept : 0 ∈ list → spares → 0 ∈ result.2.1
  lost : 0 ∈ list → ¬ spares → 0 ∉ result.2.1 ∧ isUnused (slot result.1 0) = true

theorem mergeSorted_round (order : StdSort) (joins : Joins adjacent expand) (key : PIRect → Int)
    (cut : Cut rects) (upright : AllUpright rects) (slots : Slots rects list)
    (valid : ∀ i ∈ list, (slot rects i).IsValid) :
    Round rects list (mergeSorted order key adjacent expand rects list)
      (SparesSorted order key adjacent expand rects list) := by
  have ⟨cleared, stays⟩ := mergeSorted_cleared order joins key cut slots valid
  have merged := mergeSorted_spec order joins.toMerges key list upright slots
  refine ⟨cleared.cut, merged.upright, merged.toSlots slots, cleared.valid, ?_, ?_, ?_⟩
  · exact fun missing =>
      ⟨fun member => missing (merged.slots.subset member), cleared.frame 0 missing⟩
  · exact fun member spared => (stays member).2 spared
  · intro member spoiled
    have missing := fun there => spoiled ((stays member).1 there)
    exact ⟨missing, cleared.unused 0 member missing⟩

section

variable (order : StdSort) (cut : Cut rects) (upright : AllUpright rects) (slots : Slots rects list)
  (valid : ∀ i ∈ list, (slot rects i).IsValid)

include order cut upright slots valid

theorem mergeRows_round
    :
    Round rects list (mergeRows order rects list) (SparesRows order rects list) :=
  mergeSorted_round order mergeRows_joins (·.left) cut upright slots valid

theorem mergeColumns_round
    :
    Round rects list (mergeColumns order rects list) (SparesColumns order rects list) :=
  mergeSorted_round order mergeColumns_joins (·.top) cut upright slots valid

end

theorem Round.last {result : List PIRect × List Nat × Bool} {spares : Prop}
    (round : Round rects list result spares) (member : 0 ∈ list) :
    isUnused (slot result.1 0) = false ↔ spares := by
  by_cases spared : spares
  · simp [spared, isUnused_of_isValid (round.valid 0 (round.kept member spared))]
  · simp [spared, (round.lost member spared).2]

theorem optimizeLoop_cut (order : StdSort) (fuel : Nat) (cut : Cut rects)
    (upright : AllUpright rects) (slots : Slots rects list)
    (valid : ∀ i ∈ list, (slot rects i).IsValid) :
    Cut (optimizeLoop order fuel rects list) ∧
      (0 ∉ list → slot (optimizeLoop order fuel rects list) 0 = slot rects 0) ∧
      (0 ∈ list → (isUnused (slot (optimizeLoop order fuel rects list) 0) = false ↔
        SparesLoop order fuel rects list)) := by
  induction fuel generalizing rects list with
  | zero =>
    refine ⟨cut, fun _ => rfl, fun member => ?_⟩
    simp [optimizeLoop, SparesLoop, isUnused_of_isValid (valid 0 member)]
  | succ fuel ih =>
    rw [optimizeLoop, SparesLoop]
    by_cases short : list.length ≤ 1
    · simpa [short, cut] using fun member => isUnused_of_isValid (valid 0 member)
    rw [if_neg short, if_neg short]
    have rows := mergeRows_round order cut upright slots valid
    generalize SparesRows order rects list = sparesRows at rows
    generalize mergeRows order rects list = result at rows
    obtain ⟨rects', list', rowsRemoved⟩ := result
    by_cases short' : list'.length ≤ 1
    · simp only [if_pos short', and_true]
      exact ⟨rows.cut, fun missing => (rows.absent missing).2, rows.last⟩
    simp only [if_neg short']
    have columns := mergeColumns_round order rows.cut rows.upright rows.slots rows.valid
    dsimp only at columns
    generalize SparesColumns order rects' list' = sparesColumns at columns
    generalize mergeColumns order rects' list' = result at columns
    obtain ⟨rects'', list'', columnsRemoved⟩ := result
    -- Once the first slot has left the list nothing changes it any more.
    have frozen : 0 ∉ list → 0 ∉ list'' ∧ slot rects'' 0 = slot rects 0 := by
      intro missing
      obtain ⟨missing', same⟩ := rows.absent missing
      obtain ⟨missing'', same'⟩ := columns.absent missing'
      exact ⟨missing'', same'.trans same⟩
    have lost : 0 ∈ list → ¬ sparesRows → 0 ∉ list'' ∧ isUnused (slot rects'' 0) = true := by
      intro member spoiled
      obtain ⟨missing, unused⟩ := rows.lost member spoiled
      obtain ⟨missing', same⟩ := columns.absent missing
      exact ⟨missing', same ▸ unused⟩
    by_cases again : (rowsRemoved || columnsRemoved) = true
    · simp only [if_pos again]
      obtain ⟨cut', frozen', stays⟩ := ih columns.cut columns.upright columns.slots columns.valid
      dsimp only at cut' frozen' stays
      refine ⟨cut', fun missing => ?_, fun member => ?_⟩
      · rw [frozen' (frozen missing).1, (frozen missing).2]
      · by_cases spared : sparesRows
        · have member' := rows.kept member spared
          by_cases spared' : sparesColumns
          · simpa [spared, spared'] using stays (columns.kept member' spared')
          · obtain ⟨missing, unused⟩ := columns.lost member' spared'
            simp [spared', frozen' missing, unused]
        · obtain ⟨missing, unused⟩ := lost member spared
          simp [spared, frozen' missing, unused]
    · simp only [if_neg again, and_true]
      refine ⟨columns.cut, fun missing => (frozen missing).2, fun member => ?_⟩
      by_cases spared : sparesRows
      · simpa [spared] using columns.last (rows.kept member spared)
      · simp [spared, (lost member spared).2]

/-! ## The removal -/

/-- The removal starts behind the first slot, which it neither changes nor takes away. -/
theorem removeLoop_first (left i newClipCount : Nat) (rects : List PIRect) (behind : 0 < i)
    (last : i + left ≤ newClipCount) :
    (removeLoop left i newClipCount rects).2[0]? = rects[0]? ∧
      0 < (removeLoop left i newClipCount rects).1 := by
  induction left generalizing i newClipCount rects with
  | zero => exact ⟨rfl, by simp only [removeLoop]; omega⟩
  | succ left ih =>
    have untouched (rect : PIRect) : (rects.set i rect)[0]? = rects[0]? :=
      getElem?_set_ne (by omega)
    rw [removeLoop]
    by_cases here : isUnusedAt rects i
    · simp only [here, if_true]
      split_ifs with isEnd inner
      · exact ih _ _ _ behind (by omega)
      · rw [← untouched]
        exact ih _ _ _ behind (by omega)
      · rw [← untouched]
        exact ih _ _ _ (by omega) (by omega)
    · simp only [here, Bool.false_eq_true, if_false]
      exact ih _ _ _ (by omega) (by omega)

theorem isUnusedAt_zero (rects : List PIRect) (nonempty : 0 < rects.length) :
    isUnusedAt rects 0 = isUnused (slot rects 0) := by
  rw [isUnusedAt_of_getElem? (getElem?_eq_getElem nonempty), slot, getD_eq_getElem _ _ nonempty]

theorem removeUnusedClips_perm (some' : 0 < rects.length)
    (first : isUnused (slot rects 0) = false) :
    (removeUnusedClips rects 1 rects.length).Perm (inUse rects) := by
  have used := used_removeLoop (rects.length - 1) 1 rects.length rects (by omega) le_rfl
    (by
      intro j inside unused
      have notFirst : j ≠ 0 := by
        intro isFirst
        rw [isFirst, isUnusedAt_zero rects some', first] at unused
        cases unused
      omega)
  have removed :=
    inUse_removeLoop (rects.length - 1) 1 rects.length rects (by omega) le_rfl
  rwa [inUse_take_all used, take_length] at removed

theorem removeUnusedClips_keeps (some' : 0 < rects.length) :
    slot rects 0 ∈ removeUnusedClips rects 1 rects.length := by
  have ⟨same, nonempty⟩ :=
    removeLoop_first (rects.length - 1) 1 rects.length rects (by omega) (by omega)
  rw [getElem?_eq_getElem some'] at same
  have here : (removeUnusedClips rects 1 rects.length)[0]? = some rects[0] := by
    rw [removeUnusedClips, getElem?_take_of_lt nonempty, same]
  rw [slot, getD_eq_getElem _ _ some']
  exact mem_of_getElem? here

/-! ## The result -/

/-- Valid rectangles that do not overlap and cover the same points, not more than before. -/
structure Tidied (rects result : List PIRect) : Prop where
  tiles : Tiles result
  covered : Rectangle.covered result = Rectangle.covered rects
  length : result.length ≤ rects.length

theorem optimizeLoop_enough (order : StdSort) (upright : AllUpright rects) {fuel : Nat}
    (enough : rects.length ≤ fuel) :
    optimizeLoop order fuel rects (range rects.length) =
      optimizeLoop order rects.length rects (range rects.length) := by
  induction fuel, enough using Nat.le_induction with
  | base => rfl
  | succ fuel enough ih =>
    rw [← ih, ← optimizeLoop_fuel order fuel _ upright (.range rects) (by simpa using enough)]

/-- The loop comes to its end, and what is left is tidy exactly when the first rectangle was not
merged away. -/
theorem optimize_tidied_iff (order : StdSort) (tiles : Tiles rects) :
    (∀ fuel, rects.length ≤ fuel → optimizeLoop order fuel rects (range rects.length) =
      optimizeLoop order rects.length rects (range rects.length)) ∧
    (Tidied rects (optimize order rects) ↔ SparesFirst order rects) := by
  have upright : AllUpright rects := fun r member => .of_isValid (tiles.valid r member)
  refine ⟨fun fuel enough => optimizeLoop_enough order upright enough, ?_⟩
  have same := covered_optimize order (.inl upright)
  unfold optimize at same ⊢
  unfold SparesFirst
  by_cases short : rects.length ≤ 1
  · have spared : SparesLoop order rects.length rects (range rects.length) := by
      generalize rects.length = fuel at short ⊢
      cases fuel with
      | zero => trivial
      | succ fuel => simp [SparesLoop, short]
    simp only [if_pos short, spared, iff_true]
    exact ⟨tiles, rfl, le_rfl⟩
  · rw [if_neg short] at same ⊢
    have valid : ∀ i ∈ range rects.length, (slot rects i).IsValid := by
      intro i member
      have within := mem_range.1 member
      rw [slot, getD_eq_getElem _ _ within]
      exact tiles.valid _ (getElem_mem within)
    have ⟨cut, _, stays⟩ := optimizeLoop_cut order rects.length (.of_tiles tiles) upright
      (.range rects) valid
    have length := (optimizeLoop_spec order rects.length _ upright (.range rects)).2.2
    rw [← stays (mem_range.2 (by omega))]
    generalize optimizeLoop order rects.length rects (range rects.length) = merged
      at same cut length ⊢
    have some' : 0 < merged.length := by omega
    rw [← length] at same ⊢
    constructor
    · intro tidied
      exact isUnused_of_isValid (tidied.tiles.valid _ (removeUnusedClips_keeps some'))
    · intro used
      have perm := removeUnusedClips_perm some' used
      refine ⟨cut.tiles.perm perm.symm, same, ?_⟩
      rw [perm.length_eq, ← length]
      exact length_filter_le _ _

theorem tiles_pair {left right : PIRect} (valid : left.IsValid) (valid' : right.IsValid)
    (apart : left.right ≤ right.left) : Tiles [left, right] := by
  refine ⟨by simp [valid, valid'], ?_⟩
  simp only [pairwise_cons, mem_singleton, forall_eq, not_mem_nil, false_imp_iff,
    implies_true, Pairwise.nil, and_true]
  apply Set.disjoint_left.2
  intro p inside inside'
  have := inside.1.2
  have := inside'.1.1
  omega

theorem optimize_tidied_iff_row :
    (∀ fuel, 2 ≤ fuel →
      optimizeLoop insertionOrder fuel [⟨0, 0, 1, 1⟩, ⟨1, 0, 2, 1⟩] (range 2) =
      optimizeLoop insertionOrder 2 [⟨0, 0, 1, 1⟩, ⟨1, 0, 2, 1⟩] (range 2)) ∧
    (Tidied [⟨0, 0, 1, 1⟩, ⟨1, 0, 2, 1⟩] (optimize insertionOrder [⟨0, 0, 1, 1⟩, ⟨1, 0, 2, 1⟩]) ↔
      SparesFirst insertionOrder [⟨0, 0, 1, 1⟩, ⟨1, 0, 2, 1⟩]) :=
  optimize_tidied_iff insertionOrder (tiles_pair (by decide) (by decide) (by decide))

/-- The first rectangle, merged into the one to its left, stays behind. -/
theorem not_optimize_tidied : ¬ ∀ (order : StdSort) (rects : List PIRect), Tiles rects →
    Tidied rects (optimize order rects) := by
  intro all
  have tiles : Tiles ([⟨0, 0, 1, 1⟩, ⟨1, 0, 2, 1⟩] : List PIRect) :=
    tiles_pair (by decide) (by decide) (by decide)
  have tidied := all insertionOrder [⟨1, 0, 2, 1⟩, ⟨0, 0, 1, 1⟩] (tiles.perm (.swap _ _ _))
  have left : (⟨2, 0, 2, 1⟩ : PIRect) ∈
      optimize insertionOrder [⟨1, 0, 2, 1⟩, ⟨0, 0, 1, 1⟩] := by decide
  exact absurd (tidied.tiles.valid _ left) (by decide)

end PadOS.Gui.PRegion
