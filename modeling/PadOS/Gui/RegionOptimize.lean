import PadOS.Gui.Region
import Mathlib.Data.List.Sort

/-! # Merging the rectangles of a region

`Optimize` sorts the rectangles and merges neighbours that share an edge, along the rows and
then along the columns, until a round merges nothing. A rectangle that was merged into its
neighbour becomes an unused slot; those are removed from the second slot on, so the first one
may stay, without any points.
-/

namespace PadOS.Gui

open Rectangle List

namespace PRegion

/-- `std::sort` by a key. It is not stable: how it orders equal keys is left open. -/
structure StdSort where
  sort : (Nat → Int) → List Nat → List Nat
  perm : ∀ key list, (sort key list).Perm list
  sorted : ∀ key list, (sort key list).Pairwise fun i j => key i ≤ key j

def insertionOrder : StdSort where
  sort key list := list.insertionSort fun i j => key i ≤ key j
  perm _ _ := perm_insertionSort _ _
  sorted key list :=
    have : Std.Total fun i j => key i ≤ key j := ⟨fun i j => Int.le_total (key i) (key j)⟩
    have : IsTrans Nat fun i j => key i ≤ key j := ⟨fun _ _ _ => Int.le_trans⟩
    pairwise_insertionSort _ list

/-! ## The constructor that cuts a region to a rectangle -/

/-- `PRegion(region, rectangle, normalize)`. -/
def clipTo (region : List PIRect) (rectangle : PIRect) (normalize : Bool) : List PIRect :=
  region.flatMap fun oldClip =>
    let rect := oldClip.inter rectangle
    if rect.IsValid then
      [if normalize then PIRect.add rect ⟨-rectangle.left, -rectangle.top⟩ else rect]
    else []

/-! ## `Optimize` -/

def slot (rects : List PIRect) (i : Nat) : PIRect := rects.getD i ⟨0, 0, 0, 0⟩

/-- The loop over the sorted list: the rectangles, the list and `someRemoved`. -/
def mergeFrom (adjacent : PIRect → PIRect → Bool) (expand : PIRect → PIRect → PIRect) :
    Nat → List Nat → List PIRect → List PIRect × List Nat × Bool
  | curr, [], rects => (rects, [curr], false)
  | curr, next :: rest, rects =>
    if adjacent (slot rects curr) (slot rects next) then
      let expanded := rects.set curr (expand (slot rects curr) (slot rects next))
      let marked := expanded.set next { slot rects next with left := (slot rects next).right }
      match mergeFrom adjacent expand curr rest marked with
      | (rects, list, _) => (rects, list, true)
    else
      match mergeFrom adjacent expand next rest rects with
      | (rects, list, someRemoved) => (rects, curr :: list, someRemoved)

section

variable (order : StdSort)

def mergeSorted (key : PIRect → Int) (adjacent : PIRect → PIRect → Bool)
    (expand : PIRect → PIRect → PIRect) (rects : List PIRect) (list : List Nat) :
    List PIRect × List Nat × Bool :=
  match order.sort (fun i => key (slot rects i)) list with
  | [] => (rects, [], false)
  | first :: rest => mergeFrom adjacent expand first rest rects

def mergeRows : List PIRect → List Nat → List PIRect × List Nat × Bool :=
  mergeSorted order (·.left)
    (fun curr next => curr.right == next.left && curr.top == next.top && curr.bottom == next.bottom)
    (fun curr next => { curr with right := next.right })

def mergeColumns : List PIRect → List Nat → List PIRect × List Nat × Bool :=
  mergeSorted order (·.top)
    (fun curr next => curr.bottom == next.top && curr.left == next.left && curr.right == next.right)
    (fun curr next => { curr with bottom := next.bottom })

/-- The loop of `Optimize`; each round that is followed by another one shortens the list. -/
def optimizeLoop : Nat → List PIRect → List Nat → List PIRect
  | 0, rects, _ => rects
  | fuel + 1, rects, list =>
    if list.length ≤ 1 then rects
    else
      match mergeRows order rects list with
      | (rects, list, rowsRemoved) =>
        if list.length ≤ 1 then rects
        else
          match mergeColumns order rects list with
          | (rects, list, columnsRemoved) =>
            if rowsRemoved || columnsRemoved then optimizeLoop fuel rects list else rects

def optimize (rects : List PIRect) : List PIRect :=
  if rects.length ≤ 1 then rects
  else
    removeUnusedClips (optimizeLoop order rects.length rects (range rects.length)) 1 rects.length

end

/-! ## What the lists cover -/

variable {rects region : List PIRect} {rect : PIRect} {p : Int × Int} {i j : Nat}

/-- Neither edge is on the wrong side of the other one; the rectangle may be empty. -/
def Upright (rect : PIRect) : Prop := rect.left ≤ rect.right ∧ rect.top ≤ rect.bottom

theorem Upright.of_isValid (valid : rect.IsValid) : Upright rect :=
  ⟨valid.1.le, valid.2.le⟩

theorem points_of_isUnused (unused : isUnused rect) : rect.points = ∅ := by
  apply points_eq_empty
  intro valid
  rw [isUnused_of_isValid valid] at unused
  cases unused

theorem covered_inUse (rects : List PIRect) : covered (inUse rects) = covered rects := by
  ext p
  constructor
  · intro ⟨r, member, inside⟩
    exact ⟨r, (mem_filter.1 member).1, inside⟩
  · intro ⟨r, member, inside⟩
    refine ⟨r, mem_filter.2 ⟨member, ?_⟩, inside⟩
    cases unused : isUnused r with
    | false => rfl
    | true =>
      rw [points_of_isUnused unused] at inside
      cases inside

theorem covered_exclude (rects : List PIRect) (rect : PIRect) :
    covered (exclude rects rect) = covered rects \ rect.points := by
  rw [covered_perm (exclude_perm_inUse rects rect), covered_flatMap_without, covered_inUse]

theorem covered_excludeRegion (rects region : List PIRect) :
    covered (excludeRegion rects region) = covered rects \ covered region := by
  induction region generalizing rects with
  | nil =>
    rw [covered_nil, Set.sdiff_empty]
    rfl
  | cons clip rest ih =>
    have whole : covered (clip :: rest) = clip.points ∪ covered rest := by
      rw [← covered_singleton, ← covered_append]
      rfl
    show covered (excludeRegion (exclude rects clip) rest) = _
    rw [ih, covered_exclude, whole, Set.sdiff_sdiff]

theorem covered_excludeOffset (rects region : List PIRect) (offset : PIPoint) :
    covered (excludeOffset rects region offset) =
      covered rects \ translate (covered region) offset := by
  rw [excludeOffset_eq, covered_excludeRegion, translate_covered]

theorem covered_intersect (rects region : List PIRect) :
    covered (intersect rects region) = covered rects ∩ covered region := by
  show covered (rects.flatMap fun dst => region.flatMap (overlap dst)) = _
  ext p
  simp only [covered_flatMap, covered_overlap, Set.mem_iUnion, Set.mem_inter_iff, mem_covered,
    exists_prop]
  constructor
  · intro ⟨dst, member, src, member', inside, inside'⟩
    exact ⟨⟨dst, member, inside⟩, src, member', inside'⟩
  · intro ⟨⟨dst, member, inside⟩, src, member', inside'⟩
    exact ⟨dst, member, src, member', inside, inside'⟩

theorem covered_clipTo (region : List PIRect) (rectangle : PIRect) :
    covered (clipTo region rectangle true) =
      translate (covered region ∩ rectangle.points) ⟨-rectangle.left, -rectangle.top⟩ := by
  ext p
  constructor
  · intro ⟨r, member, inside⟩
    rcases mem_flatMap.1 member with ⟨oldClip, member, piece⟩
    by_cases valid : (oldClip.inter rectangle).IsValid
    · simp only [if_pos valid, if_true, mem_singleton] at piece
      rw [piece, points_add] at inside
      have both := points_inter.subset inside
      exact ⟨⟨oldClip, member, both.1⟩, both.2⟩
    · simp only [if_neg valid] at piece
      cases piece
  · intro ⟨⟨oldClip, member, inside⟩, inside'⟩
    have both : (p.1 - -rectangle.left, p.2 - -rectangle.top) ∈ (oldClip.inter rectangle).points :=
      points_inter.superset ⟨inside, inside'⟩
    have valid := isValid_of_mem both
    refine ⟨PIRect.add (oldClip.inter rectangle) ⟨-rectangle.left, -rectangle.top⟩, ?_, ?_⟩
    · apply mem_flatMap.2
      refine ⟨oldClip, member, ?_⟩
      simp only [if_pos valid, if_true, mem_singleton]
    · rw [points_add]
      exact both

/-! ## Upright rectangles -/

def AllUpright (rects : List PIRect) : Prop := ∀ rect ∈ rects, Upright rect

theorem AllUpright.clipTo (region : List PIRect) (rectangle : PIRect) :
    AllUpright (clipTo region rectangle true) := by
  intro r member
  rcases mem_flatMap.1 member with ⟨oldClip, _, piece⟩
  by_cases valid : (oldClip.inter rectangle).IsValid
  · simp only [if_pos valid, if_true, mem_singleton] at piece
    rw [piece]
    exact ⟨Int.add_le_add_right valid.1.le _, Int.add_le_add_right valid.2.le _⟩
  · simp only [if_neg valid] at piece
    cases piece

theorem AllUpright.intersect (rects region : List PIRect) : AllUpright (intersect rects region) := by
  intro r member
  rcases mem_flatMap.1 member with ⟨dst, _, member'⟩
  rcases mem_flatMap.1 member' with ⟨src, _, piece⟩
  by_cases valid : (dst.inter src).IsValid
  · rw [if_pos valid, mem_singleton] at piece
    rw [piece]
    exact .of_isValid valid
  · rw [if_neg valid] at piece
    cases piece

theorem AllUpright.exclude (upright : AllUpright rects) (rect : PIRect) :
    AllUpright (exclude rects rect) := by
  intro r member
  have member' := (exclude_perm_inUse rects rect).mem_iff.1 member
  rcases mem_flatMap.1 member' with ⟨old, isOld, piece⟩
  unfold without at piece
  by_cases valid : (rect.inter old).IsValid
  · rw [if_pos valid] at piece
    exact .of_isValid (isValid_of_mem_around (inter_within rect old) valid piece)
  · rw [if_neg valid, mem_singleton] at piece
    rw [piece]
    exact upright old (mem_filter.1 isOld).1

/-! ## What a round of merging keeps -/

/-- Where `Optimize` may merge: with one rectangle there is nothing to merge. -/
def Mergeable (rects : List PIRect) : Prop := AllUpright rects ∨ rects.length ≤ 1

theorem Mergeable.exclude (mergeable : Mergeable rects) (rect : PIRect) :
    Mergeable (exclude rects rect) := by
  rcases mergeable with upright | short
  · exact .inl (upright.exclude rect)
  · by_cases upright : AllUpright rects
    · exact .inl (upright.exclude rect)
    · right
      rw [(exclude_perm_inUse rects rect).length_eq]
      have one : ∀ old ∈ inUse rects, without rect old = [old] := by
        intro old member
        apply if_neg
        intro valid
        apply upright
        intro other isOther
        have same : other = old := by
          match rects, short with
          | [single], _ =>
            have isOld := (mem_filter.1 member).1
            rw [mem_singleton] at isOther isOld
            rw [isOther, isOld]
        have wide : old.left < old.right ∧ old.top < old.bottom := by
          simp only [IsValid, inter, max_lt_iff, lt_min_iff] at valid
          omega
        rw [same]
        exact .of_isValid wide
      have same : (inUse rects).flatMap (without rect) = inUse rects := by
        rw [flatMap_congr one]
        exact flatMap_singleton' _
      rw [same]
      exact le_trans (length_filter_le _ _) short

theorem Mergeable.excludeRegion (mergeable : Mergeable rects) (region : List PIRect) :
    Mergeable (excludeRegion rects region) := by
  induction region generalizing rects with
  | nil => exact mergeable
  | cons clip rest ih => exact ih (mergeable.exclude clip)

theorem mem_covered_iff_slot : p ∈ covered rects ↔ ∃ i, i < rects.length ∧ p ∈ (slot rects i).points := by
  constructor
  · intro ⟨r, member, inside⟩
    rcases mem_iff_getElem.1 member with ⟨i, within, rfl⟩
    refine ⟨i, within, ?_⟩
    unfold slot
    rw [getD_eq_getElem _ _ within]
    exact inside
  · intro ⟨i, within, inside⟩
    unfold slot at inside
    rw [getD_eq_getElem _ _ within] at inside
    exact ⟨_, getElem_mem within, inside⟩

theorem slot_set (i : Nat) (within : i < rects.length) (j : Nat) :
    slot (rects.set i rect) j = if j = i then rect else slot rects j := by
  unfold slot
  by_cases same : j = i
  · subst same
    rw [if_pos rfl, getD_eq_getElem _ _ (by rw [length_set]; exact within)]
    exact getElem_set_self _
  · rw [if_neg same, getD_eq_getElem?_getD, getD_eq_getElem?_getD,
      getElem?_set_ne (fun equal => same equal.symm)]

theorem upright_slot (upright : AllUpright rects) (within : i < rects.length) : Upright (slot rects i) := by
  unfold slot
  rw [getD_eq_getElem _ _ within]
  exact upright _ (getElem_mem within)

/-- Two neighbours and what takes their places. -/
structure Merges (adjacent : PIRect → PIRect → Bool) (expand : PIRect → PIRect → PIRect) : Prop where
  upright : ∀ curr next, adjacent curr next → Upright curr → Upright next → Upright (expand curr next)
  points : ∀ curr next, adjacent curr next → Upright curr → Upright next →
    (expand curr next).points = curr.points ∪ next.points

/-- The slots of the list are different slots of the region. -/
def Slots (rects : List PIRect) (list : List Nat) : Prop := list.Nodup ∧ ∀ i ∈ list, i < rects.length

variable {adjacent : PIRect → PIRect → Bool} {expand : PIRect → PIRect → PIRect}

theorem merge_step (merges : Merges adjacent expand) (upright : AllUpright rects) (other : i ≠ j)
    (within : i < rects.length) (within' : j < rects.length)
    (neighbours : adjacent (slot rects i) (slot rects j)) :
    let marked := (rects.set i (expand (slot rects i) (slot rects j))).set j
      { slot rects j with left := (slot rects j).right }
    AllUpright marked ∧ covered marked = covered rects := by
  have upright_i := upright_slot upright within
  have upright_j := upright_slot upright within'
  have expanded := merges.upright _ _ neighbours upright_i upright_j
  have union := merges.points _ _ neighbours upright_i upright_j
  intro marked
  have length : marked.length = rects.length := by simp only [marked, length_set]
  have at_slot (k : Nat) : slot marked k =
      if k = j then { slot rects j with left := (slot rects j).right }
      else if k = i then expand (slot rects i) (slot rects j) else slot rects k := by
    simp only [marked]
    rw [slot_set j (by rw [length_set]; exact within'), slot_set i within]
  constructor
  · intro r member
    rcases mem_iff_getElem.1 member with ⟨k, inside, rfl⟩
    have here := at_slot k
    unfold slot at here
    rw [getD_eq_getElem _ _ inside] at here
    rw [here]
    split
    · exact ⟨Int.le_refl _, upright_j.2⟩
    · split
      · exact expanded
      · exact upright_slot upright (by omega)
  · ext p
    rw [mem_covered_iff_slot, mem_covered_iff_slot, length]
    constructor
    · intro ⟨k, inside, here⟩
      rw [at_slot] at here
      split at here
      · exact absurd here.1.2 (not_lt_of_ge here.1.1)
      · split at here
        · rw [union] at here
          rcases here with here | here
          · exact ⟨i, within, here⟩
          · exact ⟨j, within', here⟩
        · exact ⟨k, inside, here⟩
    · intro ⟨k, inside, here⟩
      by_cases isOne : k = i ∨ k = j
      · refine ⟨i, within, ?_⟩
        rw [at_slot, if_neg other, if_pos rfl, union]
        rcases isOne with rfl | rfl
        · exact .inl here
        · exact .inr here
      · refine ⟨k, inside, ?_⟩
        rw [at_slot, if_neg (fun same => isOne (.inr same)), if_neg (fun same => isOne (.inl same))]
        exact here

/-- What a round keeps: the points, and a shorter list wherever it merged. -/
structure Merged (rects : List PIRect) (list : List Nat) (result : List PIRect × List Nat × Bool) :
    Prop where
  upright : AllUpright result.1
  covered : covered result.1 = covered rects
  length : result.1.length = rects.length
  slots : result.2.1.Subperm list
  shorter : if result.2.2 then result.2.1.length < list.length else result.2.1.length ≤ list.length

theorem mergeFrom_spec (merges : Merges adjacent expand) (curr : Nat) (list : List Nat)
    (upright : AllUpright rects) (slots : Slots rects (curr :: list)) :
    Merged rects (curr :: list) (mergeFrom adjacent expand curr list rects) := by
  induction list generalizing curr rects with
  | nil => exact ⟨upright, rfl, rfl, List.Subperm.refl _, le_rfl⟩
  | cons next rest ih =>
    have ⟨distinct, inside⟩ := slots
    have other : curr ≠ next := by
      intro same
      exact (nodup_cons.1 distinct).1 (same ▸ mem_cons_self)
    have within := inside curr mem_cons_self
    have within' := inside next (mem_cons_of_mem _ mem_cons_self)
    rw [mergeFrom]
    by_cases neighbours : adjacent (slot rects curr) (slot rects next)
    · rw [if_pos neighbours]
      have ⟨upright', same⟩ := merge_step merges upright other within within' neighbours
      have fewer : (curr :: rest).Sublist (curr :: next :: rest) := (sublist_cons_self _ _).cons_cons _
      have slots' : Slots ((rects.set curr (expand (slot rects curr) (slot rects next))).set next
          { slot rects next with left := (slot rects next).right }) (curr :: rest) := by
        refine ⟨distinct.sublist fewer, ?_⟩
        intro i member
        rw [length_set, length_set]
        exact inside i (fewer.subset member)
      have merged := ih curr upright' slots'
      refine ⟨merged.upright, merged.covered.trans same, ?_, merged.slots.trans fewer.subperm, ?_⟩
      · rw [merged.length, length_set, length_set]
      · show if true then _ else _
        rw [if_pos rfl]
        exact Nat.lt_succ_of_le merged.slots.length_le
    · rw [if_neg neighbours]
      have merged := ih next upright ⟨(nodup_cons.1 distinct).2,
        fun i member => inside i (mem_cons_of_mem _ member)⟩
      refine ⟨merged.upright, merged.covered, merged.length, (subperm_cons curr).2 merged.slots, ?_⟩
      have shorter := merged.shorter
      show if _ then _ else _
      split at shorter
      · rename_i removed
        rw [if_pos removed]
        exact Nat.succ_lt_succ shorter
      · rename_i kept
        rw [if_neg kept]
        exact Nat.succ_le_succ shorter

theorem Slots.mono {list' : List Nat} (slots : Slots rects list) (fewer : list'.Subperm list) :
    Slots rects list' := by
  rcases fewer with ⟨part, perm, sub⟩
  refine ⟨perm.nodup_iff.1 (slots.1.sublist sub), ?_⟩
  intro i member
  exact slots.2 i (sub.subset (perm.mem_iff.2 member))

theorem Merged.toSlots {result : List PIRect × List Nat × Bool} (merged : Merged rects list result)
    (slots : Slots rects list) : Slots result.1 result.2.1 := by
  refine ⟨(slots.mono merged.slots).1, ?_⟩
  intro i member
  rw [merged.length]
  exact slots.2 i (merged.slots.subset member)

theorem mergeSorted_spec (order : StdSort) (merges : Merges adjacent expand) (key : PIRect → Int)
    (list : List Nat) (upright : AllUpright rects) (slots : Slots rects list) :
    Merged rects list (mergeSorted order key adjacent expand rects list) := by
  have perm := order.perm (fun i => key (slot rects i)) list
  unfold mergeSorted
  cases sorted : order.sort (fun i => key (slot rects i)) list with
  | nil =>
    rw [sorted] at perm
    exact ⟨upright, rfl, rfl, perm.subperm, perm.length_eq.le⟩
  | cons first rest =>
    rw [sorted] at perm
    have merged := mergeFrom_spec merges first rest upright (slots.mono perm.subperm)
    refine ⟨merged.upright, merged.covered, merged.length, merged.slots.trans perm.subperm, ?_⟩
    rw [← perm.length_eq]
    exact merged.shorter

theorem mergeRows_merges : Merges
    (fun curr next => curr.right == next.left && curr.top == next.top && curr.bottom == next.bottom)
    (fun curr next => { curr with right := next.right }) := by
  constructor
  all_goals
    rintro curr next adjacent ⟨width, height⟩ ⟨width', height'⟩
    simp only [Bool.and_eq_true, beq_iff_eq] at adjacent
  · exact ⟨by show curr.left ≤ next.right; omega, height⟩
  · ext p
    simp only [Set.mem_union, mem_points]
    omega

theorem mergeColumns_merges : Merges
    (fun curr next => curr.bottom == next.top && curr.left == next.left && curr.right == next.right)
    (fun curr next => { curr with bottom := next.bottom }) := by
  constructor
  all_goals
    rintro curr next adjacent ⟨width, height⟩ ⟨width', height'⟩
    simp only [Bool.and_eq_true, beq_iff_eq] at adjacent
  · exact ⟨width, by show curr.top ≤ next.bottom; omega⟩
  · ext p
    simp only [Set.mem_union, mem_points]
    omega

/-- A round ends the loop, or the loop goes on with a shorter list. -/
theorem optimizeLoop_succ (order : StdSort) (list : List Nat) (upright : AllUpright rects)
    (slots : Slots rects list) : ∃ rects', AllUpright rects' ∧ covered rects' = covered rects ∧
      rects'.length = rects.length ∧ ((∀ fuel, optimizeLoop order (fuel + 1) rects list = rects') ∨
        ∃ list', Slots rects' list' ∧ list'.length < list.length ∧
          ∀ fuel, optimizeLoop order (fuel + 1) rects list = optimizeLoop order fuel rects' list') := by
  simp only [optimizeLoop]
  by_cases short : list.length ≤ 1
  · simp only [if_pos short]
    exact ⟨rects, upright, rfl, rfl, .inl fun _ => rfl⟩
  simp only [if_neg short]
  have rows : Merged rects list (mergeRows order rects list) :=
    mergeSorted_spec order mergeRows_merges _ list upright slots
  generalize mergeRows order rects list = result at rows
  have slots' := rows.toSlots slots
  rcases result with ⟨rects', list', rowsRemoved⟩
  by_cases short' : list'.length ≤ 1
  · simp only [if_pos short']
    exact ⟨rects', rows.upright, rows.covered, rows.length, .inl fun _ => rfl⟩
  simp only [if_neg short']
  have columns : Merged rects' list' (mergeColumns order rects' list') :=
    mergeSorted_spec order mergeColumns_merges _ list' rows.upright slots'
  generalize mergeColumns order rects' list' = result at columns
  have slots'' := columns.toSlots slots'
  rcases result with ⟨rects'', list'', columnsRemoved⟩
  refine ⟨rects'', columns.upright, columns.covered.trans rows.covered,
    columns.length.trans rows.length, ?_⟩
  by_cases again : (rowsRemoved || columnsRemoved) = true
  · simp only [if_pos again]
    refine .inr ⟨list'', slots'', ?_, fun _ => rfl⟩
    have fewer := rows.shorter
    have fewer' := columns.shorter
    cases rowsRemoved <;> cases columnsRemoved <;> simp_all <;> omega
  · simp only [if_neg again]
    exact .inl fun _ => trivial

section

variable (order : StdSort) (fuel : Nat) (list : List Nat) (upright : AllUpright rects)
  (slots : Slots rects list)

include order fuel list upright slots

theorem optimizeLoop_spec :
    AllUpright (optimizeLoop order fuel rects list) ∧
      covered (optimizeLoop order fuel rects list) = covered rects ∧
      (optimizeLoop order fuel rects list).length = rects.length := by
  induction fuel generalizing rects list with
  | zero => exact ⟨upright, rfl, rfl⟩
  | succ fuel ih =>
    rcases optimizeLoop_succ order list upright slots with
      ⟨rects', upright', same, length, ends | ⟨list', slots', _, goesOn⟩⟩
    · rw [ends]
      exact ⟨upright', same, length⟩
    · rw [goesOn, ← same, ← length]
      exact ih list' upright' slots'

/-- The list is shorter after each round that is not the last one, so the loop is never cut off. -/
theorem optimizeLoop_fuel
    (enough : list.length ≤ fuel) :
    optimizeLoop order fuel rects list = optimizeLoop order (fuel + 1) rects list := by
  induction fuel generalizing rects list with
  | zero =>
    have short : list.length ≤ 1 := by omega
    rw [optimizeLoop, optimizeLoop, if_pos short]
  | succ fuel ih =>
    rcases optimizeLoop_succ order list upright slots with
      ⟨rects', upright', _, _, ends | ⟨list', slots', fewer, goesOn⟩⟩
    · rw [ends, ends]
    · rw [goesOn, goesOn]
      exact ih list' upright' slots' (by omega)

end

/-- `Optimize` changes the rectangles, not the points they cover. -/
theorem covered_optimize (order : StdSort) (mergeable : Mergeable rects) :
    covered (optimize order rects) = covered rects := by
  unfold optimize
  by_cases short : rects.length ≤ 1
  · rw [if_pos short]
  · rw [if_neg short]
    have upright : AllUpright rects := mergeable.resolve_right short
    have slots : Slots rects (range rects.length) :=
      ⟨nodup_range, fun i member => mem_range.1 member⟩
    rcases optimizeLoop_spec order rects.length _ upright slots with ⟨_, same, length⟩
    generalize optimizeLoop order rects.length rects (range rects.length) = merged at same length
    have removed := inUse_removeLoop (rects.length - 1) 1 merged.length merged (by omega) le_rfl
    rw [take_length] at removed
    unfold removeUnusedClips
    rw [← same, ← covered_inUse merged, ← covered_inUse]
    exact covered_perm removed

theorem mem_removeLoop (left i newClipCount : Nat) (rects : List PIRect)
    (member : rect ∈ (removeLoop left i newClipCount rects).2) : rect ∈ rects ∨ rect = ⟨0, 0, 0, 0⟩ := by
  induction left generalizing i newClipCount rects with
  | zero => exact .inl member
  | succ left ih =>
    have moved (k : Nat) (member : rect ∈ rects.set i (rects.getD k ⟨0, 0, 0, 0⟩) ∨ rect = ⟨0, 0, 0, 0⟩) :
        rect ∈ rects ∨ rect = ⟨0, 0, 0, 0⟩ := by
      rcases member with member | isEmpty
      · rcases mem_or_eq_of_mem_set member with member | isLast
        · exact .inl member
        · rw [getD_eq_getElem?_getD] at isLast
          cases slot : rects[k]? with
          | none =>
            rw [slot] at isLast
            exact .inr isLast
          | some last =>
            rw [slot] at isLast
            rw [isLast]
            exact .inl (mem_of_getElem? slot)
      · exact .inr isEmpty
    rw [removeLoop] at member
    by_cases here : isUnusedAt rects i
    · simp only [here, if_true] at member
      split at member
      · exact ih _ _ _ member
      · split at member
        · exact moved _ (ih _ _ _ member)
        · exact moved _ (ih _ _ _ member)
    · simp only [here, Bool.false_eq_true, if_false] at member
      exact ih _ _ _ member

theorem Mergeable.optimize (order : StdSort) (mergeable : Mergeable rects) :
    Mergeable (optimize order rects) := by
  unfold PRegion.optimize
  by_cases short : rects.length ≤ 1
  · rw [if_pos short]
    exact mergeable
  · rw [if_neg short]
    have upright : AllUpright rects := mergeable.resolve_right short
    have slots : Slots rects (range rects.length) :=
      ⟨nodup_range, fun i member => mem_range.1 member⟩
    rcases optimizeLoop_spec order rects.length _ upright slots with ⟨upright', _, length⟩
    generalize PRegion.optimizeLoop order rects.length rects (range rects.length) = merged at upright' length
    left
    intro r member
    rcases mem_removeLoop _ _ _ _ (mem_of_mem_take member) with member | isEmpty
    · exact upright' r member
    · rw [isEmpty]
      exact ⟨Int.le_refl _, Int.le_refl _⟩

end PRegion

end PadOS.Gui
