import PadOS.Core.Rectangle
import Mathlib.Data.List.GetD

/-! # Regions

`PRegion` keeps a set of points as a list of rectangles. `Exclude` takes a rectangle out of
each one: the pieces that are left go to slots that have become unused or to the end of the
list, and in the end the slots that are still unused are removed. Coordinates are integers;
a sum that leaves the range of `int` is undefined in the source. Memory does not run out.
-/

namespace PadOS.Gui

open Rectangle List Option Function

abbrev PIRect := Rectangle Int

structure PIPoint where
  x : Int
  y : Int
  deriving DecidableEq

/-- `rect + point`. -/
def PIRect.add (rect : PIRect) (point : PIPoint) : PIRect where
  left := rect.left + point.x
  top := rect.top + point.y
  right := rect.right + point.x
  bottom := rect.bottom + point.y

/-! ## The operations on `m_Rects` -/

namespace PRegion

def isUnused (rect : PIRect) : Bool := rect.left == rect.right

def isUnusedAt (rects : List PIRect) (i : Nat) : Bool := (rects[i]?).any isUnused

def findUnusedClip (rects : List PIRect) (prevUnused lastToCheck : Nat) : Option Nat :=
  (range' prevUnused (lastToCheck + 1 - prevUnused)).find? (isUnusedAt rects)

/-- The next slot to look at, and the list. -/
abbrev Clips := Nat × List PIRect

def addOrReuseClip (lastToCheck : Nat) (clips : Clips) (frame : PIRect) : Clips :=
  match findUnusedClip clips.2 clips.1 lastToCheck with
  | none => (lastToCheck + 1, clips.2 ++ [frame])
  | some freeSlot => (freeSlot + 1, clips.2.set freeSlot frame)

/-- The body of the loop of `Exclude`. -/
def excludeFrom (rect : PIRect) (clips : Clips) (i : Nat) : Clips :=
  match clips.2[i]? with
  | none => clips
  | some oldFrame =>
    let hide := rect.inter oldFrame
    if hide.IsValid then
      let marked := clips.2.set i { oldFrame with left := oldFrame.right }
      (oldFrame.around hide).foldl (addOrReuseClip i) (clips.1, marked)
    else clips

/-- The loop of `RemoveUnusedClips`, with the number of slots that are still to be checked:
the new number of rectangles, and the list. -/
def removeLoop : Nat → Nat → Nat → List PIRect → Nat × List PIRect
  | 0, _, newClipCount, rects => (newClipCount, rects)
  | left + 1, i, newClipCount, rects =>
    let lastToCheck := i + (left + 1)
    if isUnusedAt rects i then
      let newClipCount := newClipCount - 1
      if i = rects.length - 1 then removeLoop left i newClipCount rects
      else
        let rects := rects.set i (rects.getD newClipCount ⟨0, 0, 0, 0⟩)
        if newClipCount < lastToCheck then removeLoop left i newClipCount rects
        else removeLoop left (i + 1) newClipCount rects
    else removeLoop left (i + 1) newClipCount rects

def removeUnusedClips (rects : List PIRect) (firstToCheck lastToCheck : Nat) : List PIRect :=
  match removeLoop (lastToCheck - firstToCheck) firstToCheck rects.length rects with
  | (newClipCount, rects) => rects.take newClipCount

def exclude (rects : List PIRect) (rect : PIRect) : List PIRect :=
  match (range rects.length).foldl (excludeFrom rect) (0, rects) with
  | (nextFree, clips) => removeUnusedClips clips nextFree rects.length

def excludeRegion (rects region : List PIRect) : List PIRect := region.foldl exclude rects

def excludeOffset (rects region : List PIRect) (offset : PIPoint) : List PIRect :=
  region.foldl (fun rects clip => exclude rects (PIRect.add clip offset)) rects

def includeRect (rects : List PIRect) (rect : PIRect) : List PIRect := excludeRegion [rect] rects ++ rects

def intersect (rects region : List PIRect) : List PIRect :=
  rects.flatMap fun dstRect => region.flatMap fun srcRect =>
    if (dstRect.inter srcRect).IsValid then [dstRect.inter srcRect] else []

def intersectOffset (rects region : List PIRect) (offset : PIPoint) : List PIRect :=
  rects.flatMap fun dstRect => region.flatMap fun srcRect =>
    let rect := dstRect.inter (PIRect.add srcRect offset)
    if rect.IsValid then [rect] else []

/-! ## Unused slots -/

/-- The rectangles in use. -/
def inUse (rects : List PIRect) : List PIRect := rects.filter fun rect => !isUnused rect

variable {rects : List PIRect} {rect frame old : PIRect} {i j k : Nat}

theorem isUnused_of_isValid (valid : rect.IsValid) : isUnused rect = false := by
  have width := valid.1
  unfold isUnused
  rw [beq_eq_false_iff_ne]
  omega

theorem isUnused_of_overlap (overlaps : (rect.inter old).IsValid) : isUnused old = false := by
  have width := overlaps.1
  simp only [inter, max_lt_iff, lt_min_iff] at width
  unfold isUnused
  rw [beq_eq_false_iff_ne]
  omega

theorem isUnusedAt_of_getElem? (slot : rects[i]? = some rect) : isUnusedAt rects i = isUnused rect := by
  unfold isUnusedAt
  rw [slot]
  rfl

theorem exists_of_isUnusedAt (unused : isUnusedAt rects i) : ∃ rect, rects[i]? = some rect ∧ isUnused rect := by
  unfold isUnusedAt at unused
  cases slot : rects[i]? with
  | none =>
    rw [slot] at unused
    cases unused
  | some rect =>
    rw [slot] at unused
    exact ⟨rect, rfl, unused⟩

theorem inUse_append (xs ys : List PIRect) : inUse (xs ++ ys) = inUse xs ++ inUse ys :=
  filter_append _ _

theorem inUse_eq_self (valid : ∀ rect ∈ rects, rect.IsValid) : inUse rects = rects := by
  apply filter_eq_self.2
  intro rect member
  rw [isUnused_of_isValid (valid rect member)]
  rfl

theorem set_split (slot : rects[i]? = some old) (frame : PIRect) :
    rects = rects.take i ++ old :: rects.drop (i + 1) ∧
      rects.set i frame = rects.take i ++ frame :: rects.drop (i + 1) := by
  rcases List.getElem?_eq_some_iff.1 slot with ⟨inside, isOld⟩
  constructor
  · rw [← isOld, ← drop_eq_getElem_cons inside, take_append_drop]
  · exact set_eq_take_append_cons_drop.trans (if_pos inside)

theorem inUse_set_reuse (slot : rects[i]? = some old) (unused : isUnused old)
    (frameInUse : isUnused frame = false) : (inUse (rects.set i frame)).Perm (frame :: inUse rects) := by
  rcases set_split slot frame with ⟨before, after⟩
  have kept : inUse (frame :: rects.drop (i + 1)) = frame :: inUse (rects.drop (i + 1)) :=
    filter_cons_of_pos (by rw [frameInUse]; rfl)
  have dropped : inUse (old :: rects.drop (i + 1)) = inUse (rects.drop (i + 1)) :=
    filter_cons_of_neg (by rw [unused]; decide)
  have same : inUse rects = inUse (rects.take i) ++ inUse (rects.drop (i + 1)) := by
    rw [← dropped, ← inUse_append, ← before]
  rw [after, inUse_append, kept, same]
  exact perm_middle

theorem inUse_set_mark (slot : rects[i]? = some old) (inUse' : isUnused old = false)
    (unused : isUnused frame) : (inUse rects).Perm (old :: inUse (rects.set i frame)) := by
  obtain ⟨inside, rfl⟩ := List.getElem?_eq_some_iff.1 slot
  have back := inUse_set_reuse (getElem?_set_self inside) unused inUse'
  rwa [set_set, set_getElem_self] at back

theorem isUnusedAt_set (unused : isUnusedAt (rects.set i frame) j) :
    j = i ∧ isUnused frame ∨ j ≠ i ∧ isUnusedAt rects j := by
  by_cases same : j = i
  · subst same
    rcases exists_of_isUnusedAt unused with ⟨rect, slot, here⟩
    have inside : j < (rects.set j frame).length := (List.getElem?_eq_some_iff.1 slot).1
    rw [length_set] at inside
    rw [getElem?_set_self inside] at slot
    obtain rfl := some.inj slot
    exact .inl ⟨rfl, here⟩
  · refine .inr ⟨same, ?_⟩
    unfold isUnusedAt at unused ⊢
    rw [getElem?_set_ne (fun equal => same equal.symm)] at unused
    exact unused

/-! ## `AddOrReuseClip` -/

/-- Unused slots are at the next slot to look at or behind it; the slots behind the last one
checked are still those of the original list. -/
structure Scanned (original : List PIRect) (i : Nat) (clips : Clips) : Prop where
  next : clips.1 ≤ i + 1
  unused : ∀ j, isUnusedAt clips.2 j → clips.1 ≤ j ∧ j < original.length
  length : original.length ≤ clips.2.length
  inside : i < original.length
  rest : ∀ j, i < j → j < original.length → clips.2[j]? = original[j]?

theorem findUnusedClip_spec (rects : List PIRect) (prevUnused lastToCheck : Nat) :
    match findUnusedClip rects prevUnused lastToCheck with
    | none => ∀ j, prevUnused ≤ j → j ≤ lastToCheck → ¬isUnusedAt rects j
    | some freeSlot => prevUnused ≤ freeSlot ∧ freeSlot ≤ lastToCheck ∧ isUnusedAt rects freeSlot ∧
        ∀ j, prevUnused ≤ j → j < freeSlot → ¬isUnusedAt rects j := by
  cases found : findUnusedClip rects prevUnused lastToCheck with
  | none =>
    intro j above below
    have inRange : j ∈ range' prevUnused (lastToCheck + 1 - prevUnused) := by
      rw [mem_range'_1]
      omega
    exact find?_eq_none.1 found j inRange
  | some freeSlot =>
    have free := find?_some found
    have inRange := mem_range'_1.1 (mem_of_find?_eq_some found)
    refine ⟨inRange.1, by omega, free, ?_⟩
    intro j above below unused
    rcases find?_range'_eq_some.1 found with ⟨_, _, before⟩
    have not' := before j above below
    rw [unused] at not'
    cases not'

variable {original : List PIRect} {clips : Clips}

theorem addOrReuseClip_spec (scanned : Scanned original i clips) (frameInUse : isUnused frame = false) :
    Scanned original i (addOrReuseClip i clips frame) ∧
      (inUse (addOrReuseClip i clips frame).2).Perm (frame :: inUse clips.2) := by
  have ⟨next, unused, length, inside, rest⟩ := scanned
  have search := findUnusedClip_spec clips.2 clips.1 i
  unfold addOrReuseClip
  cases found : findUnusedClip clips.2 clips.1 i with
  | none =>
    rw [found] at search
    constructor
    · refine ⟨le_rfl, ?_, ?_, inside, ?_⟩
      · intro j here
        rcases exists_of_isUnusedAt here with ⟨rect, slot, isUnused'⟩
        by_cases old : j < clips.2.length
        · have slot' : clips.2[j]? = some rect := by
            rw [← slot]
            exact (getElem?_append_left old).symm
          have here' : isUnusedAt clips.2 j := by rw [isUnusedAt_of_getElem? slot', isUnused']
          have place := unused j here'
          by_cases later : i < j
          · exact ⟨later, place.2⟩
          · exact absurd here' (search j place.1 (by omega))
        · have slot' : [frame][j - clips.2.length]? = some rect := by
            rw [← slot]
            exact (getElem?_append_right (by omega)).symm
          have isFrame : frame = rect := by
            have member := mem_of_getElem? slot'
            exact (mem_singleton.1 member).symm
          rw [← isFrame, frameInUse] at isUnused'
          cases isUnused'
      · show original.length ≤ (clips.2 ++ [frame]).length
        rw [length_append]
        omega
      · intro j later within
        show (clips.2 ++ [frame])[j]? = _
        rw [getElem?_append_left (by omega)]
        exact rest j later within
    · show (inUse (clips.2 ++ [frame])).Perm _
      have kept : inUse [frame] = [frame] := filter_cons_of_pos (by rw [frameInUse]; rfl)
      rw [inUse_append, kept]
      exact perm_append_singleton _ _
  | some freeSlot =>
    rw [found] at search
    rcases search with ⟨above, below, free, before⟩
    rcases exists_of_isUnusedAt free with ⟨old, slot, isUnused'⟩
    constructor
    · refine ⟨Nat.succ_le_succ below, ?_, ?_, inside, ?_⟩
      · intro j here
        rcases isUnusedAt_set here with ⟨_, frameUnused⟩ | ⟨other, here⟩
        · rw [frameInUse] at frameUnused
          cases frameUnused
        · have place := unused j here
          have notBefore : ¬j < freeSlot := fun earlier => before j place.1 earlier here
          show freeSlot + 1 ≤ j ∧ j < original.length
          omega
      · show original.length ≤ (clips.2.set freeSlot frame).length
        rw [length_set]
        exact length
      · intro j later within
        show (clips.2.set freeSlot frame)[j]? = _
        rw [getElem?_set_ne (by omega)]
        exact rest j later within
    · exact inUse_set_reuse slot isUnused' frameInUse

theorem addClips_spec (frames : List PIRect) (framesInUse : ∀ frame ∈ frames, isUnused frame = false)
    {clips : Clips} (scanned : Scanned original i clips) :
    Scanned original i (frames.foldl (addOrReuseClip i) clips) ∧
      (inUse (frames.foldl (addOrReuseClip i) clips).2).Perm (frames ++ inUse clips.2) := by
  induction frames generalizing clips with
  | nil => exact ⟨scanned, .refl _⟩
  | cons frame rest ih =>
    rcases addOrReuseClip_spec scanned (framesInUse frame mem_cons_self) with ⟨scanned', added⟩
    rcases ih (fun f member => framesInUse f (mem_cons_of_mem _ member)) scanned' with
      ⟨scanned'', more⟩
    refine ⟨scanned'', more.trans ?_⟩
    exact (Perm.append_left rest added).trans perm_middle

/-! ## The loop of `Exclude` -/

/-- The first `i` rectangles of the original list have been cut. -/
structure Excluded (original : List PIRect) (rect : PIRect) (i : Nat) (clips : Clips) : Prop where
  next : clips.1 ≤ i
  unused : ∀ j, isUnusedAt clips.2 j → clips.1 ≤ j ∧ j < original.length
  length : original.length ≤ clips.2.length
  rest : ∀ j, i ≤ j → j < original.length → clips.2[j]? = original[j]?
  content : (inUse clips.2).Perm
    ((inUse (original.take i)).flatMap (without rect) ++ inUse (original.drop i))

theorem Excluded.start (original : List PIRect) (rect : PIRect) :
    Excluded original rect 0 (0, original) where
  next := le_rfl
  unused := by
    intro j here
    rcases exists_of_isUnusedAt here with ⟨old, slot, unused⟩
    exact ⟨Nat.zero_le _, (List.getElem?_eq_some_iff.1 slot).1⟩
  length := le_rfl
  rest := fun _ _ _ => rfl
  content := .refl _

theorem take_succ_inUse (slot : original[i]? = some old) :
    inUse (original.take (i + 1)) = inUse (original.take i) ++ inUse [old] := by
  rcases List.getElem?_eq_some_iff.1 slot with ⟨inside, isOld⟩
  rw [take_succ_eq_append_getElem inside, isOld, inUse_append]

theorem excludeFrom_spec (within : i < original.length) (excluded : Excluded original rect i clips) :
    Excluded original rect (i + 1) (excludeFrom rect clips i) := by
  have ⟨next, unused, length, rest, content⟩ := excluded
  have isOriginal : original[i]? = some original[i] := getElem?_eq_getElem within
  generalize original[i] = old at isOriginal
  have slot : clips.2[i]? = some old := (rest i le_rfl within).trans isOriginal
  have behind : inUse (original.drop i) = inUse [old] ++ inUse (original.drop (i + 1)) := by
    rcases List.getElem?_eq_some_iff.1 isOriginal with ⟨inside, isOld⟩
    rw [drop_eq_getElem_cons inside, isOld, ← inUse_append]
    rfl
  rw [behind] at content
  unfold excludeFrom
  simp only [slot]
  by_cases overlaps : (rect.inter old).IsValid
  · rw [if_pos overlaps]
    have oldInUse := isUnused_of_overlap overlaps
    have single : inUse [old] = [old] := filter_cons_of_pos (by rw [oldInUse]; rfl)
    have empty : isUnused { old with left := old.right } := by simp [isUnused]
    have marked := inUse_set_mark slot oldInUse empty
    have scanned : Scanned original i (clips.1, clips.2.set i { old with left := old.right }) := by
      refine ⟨by omega, ?_, ?_, within, ?_⟩
      · intro j here
        rcases isUnusedAt_set here with ⟨rfl, _⟩ | ⟨_, here⟩
        · exact ⟨next, within⟩
        · exact unused j here
      · show original.length ≤ (clips.2.set i _).length
        rw [length_set]
        exact length
      · intro j later inside
        show (clips.2.set i _)[j]? = _
        rw [getElem?_set_ne (by omega)]
        exact rest j (by omega) inside
    have framesInUse : ∀ frame ∈ old.around (rect.inter old), isUnused frame = false := fun frame member =>
      isUnused_of_isValid (isValid_of_mem_around (inter_within rect old) overlaps member)
    rcases addClips_spec _ framesInUse scanned with ⟨scanned', added⟩
    refine ⟨scanned'.next, scanned'.unused, scanned'.length, ?_, ?_⟩
    · intro j later inside
      exact scanned'.rest j later inside
    · have parts : without rect old = old.around (rect.inter old) := if_pos overlaps
      rw [take_succ_inUse isOriginal, single, flatMap_append, flatMap_singleton, parts,
        append_assoc]
      refine added.trans ?_
      have left : (inUse (clips.2.set i { old with left := old.right })).Perm
          ((inUse (original.take i)).flatMap (without rect) ++ inUse (original.drop (i + 1))) := by
        rw [single] at content
        exact Perm.cons_inv (marked.symm.trans (content.trans perm_middle))
      refine (Perm.append_left _ left).trans ?_
      rw [← append_assoc, ← append_assoc]
      exact Perm.append_right _ perm_append_comm
  · rw [if_neg overlaps]
    refine ⟨by omega, unused, length, ?_, ?_⟩
    · intro j later inside
      exact rest j (by omega) inside
    · have whole : (inUse [old]).flatMap (without rect) = inUse [old] := by
        cases oldUnused : isUnused old with
        | false =>
          have single : inUse [old] = [old] := filter_cons_of_pos (by rw [oldUnused]; rfl)
          rw [single, flatMap_singleton]
          exact if_neg overlaps
        | true =>
          have gone : inUse [old] = [] := filter_cons_of_neg (by rw [oldUnused]; decide)
          rw [gone]
          rfl
      rw [take_succ_inUse isOriginal, flatMap_append, whole, append_assoc]
      exact content

theorem excludeLoop_spec (original : List PIRect) (rect : PIRect) (i : Nat)
    (within : i ≤ original.length) :
    Excluded original rect i ((range i).foldl (excludeFrom rect) (0, original)) := by
  induction i with
  | zero => exact .start original rect
  | succ i ih =>
    rw [range_succ, foldl_append]
    exact excludeFrom_spec within (ih (by omega))

/-! ## `RemoveUnusedClips` -/

theorem take_pred (inside : k < rects.length) {last : PIRect} (slot : rects[k]? = some last) :
    rects.take (k + 1) = rects.take k ++ [last] := by
  rcases List.getElem?_eq_some_iff.1 slot with ⟨_, isLast⟩
  rw [take_succ_eq_append_getElem inside, isLast]

/-- The last rectangle in the range takes the place of an unused one. -/
theorem inUse_swap (before : i < k) (inside : k < rects.length) (unused : isUnusedAt rects i) :
    (inUse ((rects.set i (rects.getD k ⟨0, 0, 0, 0⟩)).take k)).Perm (inUse (rects.take (k + 1))) := by
  rcases exists_of_isUnusedAt unused with ⟨old, slot, isUnused'⟩
  have isLast : rects[k]? = some rects[k] := getElem?_eq_getElem inside
  have last : rects.getD k ⟨0, 0, 0, 0⟩ = rects[k] := getD_eq_getElem _ _ inside
  rw [take_pred inside isLast, inUse_append, last, take_set]
  generalize rects[k] = last
  have slot' : (rects.take k)[i]? = some old := by
    rw [getElem?_take_of_lt before]
    exact slot
  cases lastUnused : isUnused last with
  | false =>
    have kept : inUse [last] = [last] := filter_cons_of_pos (by rw [lastUnused]; rfl)
    rw [kept]
    exact (inUse_set_reuse slot' isUnused' lastUnused).trans (perm_append_singleton _ _).symm
  | true =>
    have gone : inUse [last] = [] := filter_cons_of_neg (by rw [lastUnused]; decide)
    rcases set_split slot' last with ⟨whole, swapped⟩
    rw [gone, append_nil, swapped, inUse_append]
    conv => rhs; rw [whole, inUse_append]
    have first : inUse (last :: (rects.take k).drop (i + 1)) = inUse ((rects.take k).drop (i + 1)) :=
      filter_cons_of_neg (by rw [lastUnused]; decide)
    have second : inUse (old :: (rects.take k).drop (i + 1)) = inUse ((rects.take k).drop (i + 1)) :=
      filter_cons_of_neg (by rw [isUnused']; decide)
    rw [first, second]

/-- Removing unused slots leaves the rectangles in use, whatever the range that is checked. -/
theorem inUse_removeLoop (left i newClipCount : Nat) (rects : List PIRect)
    (last : i + left ≤ newClipCount) (count : newClipCount ≤ rects.length) :
    (inUse ((removeLoop left i newClipCount rects).2.take
      (removeLoop left i newClipCount rects).1)).Perm (inUse (rects.take newClipCount)) := by
  induction left generalizing i newClipCount rects with
  | zero => exact .refl _
  | succ left ih =>
    rw [removeLoop]
    by_cases here : isUnusedAt rects i
    · obtain ⟨k, rfl⟩ : ∃ k, newClipCount = k + 1 := ⟨newClipCount - 1, by omega⟩
      simp only [here, if_true, Nat.add_sub_cancel]
      have shorter (isLast : i = k) : inUse (rects.take (k + 1)) = inUse (rects.take k) := by
        subst isLast
        rcases exists_of_isUnusedAt here with ⟨old, slot, isUnused'⟩
        have gone : inUse [old] = [] := filter_cons_of_neg (by rw [isUnused']; decide)
        rw [take_pred (by omega) slot, inUse_append, gone, append_nil]
      by_cases end' : i = rects.length - 1
      · rw [if_pos end', shorter (by omega)]
        exact ih _ _ _ (by omega) (by omega)
      · rw [if_neg end']
        by_cases self : i = k
        · subst self
          have same : rects.set i (rects.getD i ⟨0, 0, 0, 0⟩) = rects := by
            rw [getD_eq_getElem _ _ (by omega)]
            exact set_getElem_self _
          rw [if_pos (by omega), same, shorter rfl]
          exact ih _ _ _ (by omega) (by omega)
        · have swap := inUse_swap (show i < k by omega) (by omega) here
          by_cases inner : k < i + (left + 1)
          · rw [if_pos inner]
            exact (ih _ _ _ (by omega) (by rw [length_set]; omega)).trans swap
          · rw [if_neg inner]
            exact (ih _ _ _ (by omega) (by rw [length_set]; omega)).trans swap
    · simp only [here, Bool.false_eq_true, if_false]
      exact ih _ _ _ (by omega) count

theorem used_removeLoop (left i newClipCount : Nat) (rects : List PIRect)
    (last : i + left ≤ newClipCount) (count : newClipCount ≤ rects.length)
    (unused : ∀ j, j < newClipCount → isUnusedAt rects j → i ≤ j ∧ j < i + left) :
    ∀ j, j < (removeLoop left i newClipCount rects).1 →
      ¬isUnusedAt (removeLoop left i newClipCount rects).2 j := by
  induction left generalizing i newClipCount rects with
  | zero =>
    intro j inside here
    have place := unused j inside here
    omega
  | succ left ih =>
    rw [removeLoop]
    by_cases here : isUnusedAt rects i
    · obtain ⟨k, rfl⟩ : ∃ k, newClipCount = k + 1 := ⟨newClipCount - 1, by omega⟩
      simp only [here, if_true, Nat.add_sub_cancel]
      by_cases end' : i = rects.length - 1
      · rw [if_pos end']
        apply ih
        · omega
        · omega
        · intro j inside there
          have place := unused j (by omega) there
          omega
      · rw [if_neg end']
        by_cases inner : k < i + (left + 1)
        · rw [if_pos inner]
          apply ih
          · omega
          · rw [length_set]
            omega
          · intro j inside there
            rcases isUnusedAt_set there with ⟨rfl, _⟩ | ⟨_, there⟩
            · omega
            · have place := unused j (by omega) there
              omega
        · rw [if_neg inner]
          apply ih
          · omega
          · rw [length_set]
            omega
          · intro j inside there
            rcases isUnusedAt_set there with ⟨_, lastUnused⟩ | ⟨other, there⟩
            · have isLast : rects[k]? = some (rects.getD k ⟨0, 0, 0, 0⟩) := by
                rw [getD_eq_getElem _ _ (by omega)]
                exact getElem?_eq_getElem _
              rw [← isUnusedAt_of_getElem? isLast] at lastUnused
              have place := unused k (by omega) lastUnused
              omega
            · have place := unused j (by omega) there
              omega
    · simp only [here, Bool.false_eq_true, if_false]
      apply ih
      · omega
      · exact count
      · intro j inside there
        have place := unused j inside there
        have other : j ≠ i := by
          rintro rfl
          exact here there
        omega

theorem inUse_take_all (used : ∀ j, j < k → ¬isUnusedAt rects j) : inUse (rects.take k) = rects.take k := by
  apply filter_eq_self.2
  intro rect member
  rcases mem_iff_getElem?.1 member with ⟨j, slot⟩
  have inside := (List.getElem?_eq_some_iff.1 slot).1
  rw [length_take] at inside
  rw [getElem?_take_of_lt (by omega)] at slot
  have used' := used j (by omega)
  rw [isUnusedAt_of_getElem? slot] at used'
  simpa using used'

/-- `Exclude` takes the rectangle out of every other one, and drops the unused slots. -/
theorem exclude_perm_inUse (rects : List PIRect) (rect : PIRect) :
    (exclude rects rect).Perm ((inUse rects).flatMap (without rect)) := by
  have excluded := excludeLoop_spec rects rect rects.length le_rfl
  unfold exclude
  generalize (range rects.length).foldl (excludeFrom rect) (0, rects) = clips at excluded
  have ⟨next, unused, length, _, content⟩ := excluded
  rw [take_length, drop_length] at content
  have empty : inUse [] = [] := rfl
  rw [empty, append_nil] at content
  have inRange (j : Nat) (_ : j < clips.2.length) (here : isUnusedAt clips.2 j) :
      clips.1 ≤ j ∧ j < clips.1 + (rects.length - clips.1) := by
    have place := unused j here
    omega
  have removed := inUse_removeLoop (rects.length - clips.1) clips.1 clips.2.length clips.2
    (by omega) le_rfl
  have used := used_removeLoop (rects.length - clips.1) clips.1 clips.2.length clips.2
    (by omega) le_rfl inRange
  rw [inUse_take_all used, take_length] at removed
  exact removed.trans content

theorem exclude_perm (valid : ∀ rect ∈ rects, rect.IsValid) (rect : PIRect) :
    (exclude rects rect).Perm (rects.flatMap (without rect)) := by
  have perm := exclude_perm_inUse rects rect
  rw [inUse_eq_self valid] at perm
  exact perm

theorem exclude_spec (tiles : Tiles rects) (rect : PIRect) :
    Tiles (exclude rects rect) ∧ covered (exclude rects rect) = covered rects \ rect.points := by
  have perm := exclude_perm tiles.valid rect
  exact ⟨(tiles.flatMap_without).perm perm.symm, (covered_perm perm).trans covered_flatMap_without⟩

/-! ## The other operations -/

def translate (points : Set (Int × Int)) (offset : PIPoint) : Set (Int × Int) :=
  {p | (p.1 - offset.x, p.2 - offset.y) ∈ points}

theorem points_add (rect : PIRect) (offset : PIPoint) :
    (PIRect.add rect offset).points = translate rect.points offset := by
  ext p
  show (_ ∧ _) ∧ _ ∧ _ ↔ (_ ∧ _) ∧ _ ∧ _
  simp only [PIRect.add]
  omega

theorem translate_covered (region : List PIRect) (offset : PIPoint) :
    translate (covered region) offset = covered (region.map fun clip => PIRect.add clip offset) := by
  ext p
  constructor
  · intro ⟨clip, member, inside⟩
    exact ⟨_, mem_map_of_mem member, by rw [points_add]; exact inside⟩
  · intro ⟨_, member, inside⟩
    rcases mem_map.1 member with ⟨clip, member', rfl⟩
    rw [points_add] at inside
    exact ⟨clip, member', inside⟩

theorem Tiles.translate (tiles : Tiles rects) (offset : PIPoint) :
    Tiles (rects.map fun clip => PIRect.add clip offset) := by
  constructor
  · intro r member
    rcases mem_map.1 member with ⟨clip, member', rfl⟩
    have valid := tiles.valid clip member'
    exact ⟨Int.add_lt_add_right valid.1 _, Int.add_lt_add_right valid.2 _⟩
  · rw [pairwise_map]
    apply tiles.apart.imp
    intro r s apart
    rw [Apart, points_add, points_add, Set.disjoint_left]
    intro p inside inside'
    exact Set.disjoint_left.1 apart inside inside'

theorem excludeRegion_spec (tiles : Tiles rects) (region : List PIRect) :
    Tiles (excludeRegion rects region) ∧
      covered (excludeRegion rects region) = covered rects \ covered region := by
  induction region generalizing rects with
  | nil =>
    refine ⟨tiles, ?_⟩
    rw [covered_nil, Set.sdiff_empty]
    rfl
  | cons clip rest ih =>
    rcases exclude_spec tiles clip with ⟨tiles', without'⟩
    rcases ih tiles' with ⟨tiles'', less⟩
    have whole : covered (clip :: rest) = clip.points ∪ covered rest := by
      rw [← covered_singleton, ← covered_append]
      rfl
    refine ⟨tiles'', less.trans ?_⟩
    rw [without', whole, Set.sdiff_sdiff]

theorem excludeOffset_eq (rects region : List PIRect) (offset : PIPoint) :
    excludeOffset rects region offset =
      excludeRegion rects (region.map fun clip => PIRect.add clip offset) := by
  unfold excludeOffset excludeRegion
  rw [foldl_map]

theorem includeRect_spec (tiles : Tiles rects) (valid : rect.IsValid) :
    Tiles (includeRect rects rect) ∧ covered (includeRect rects rect) = covered rects ∪ rect.points := by
  rcases excludeRegion_spec (.singleton valid) rects with ⟨new, less⟩
  rw [covered_singleton] at less
  constructor
  · apply new.append tiles
    rw [less]
    exact Set.disjoint_sdiff_left
  · unfold includeRect
    rw [covered_append, less, Set.sdiff_union_self, Set.union_comm]

theorem intersect_spec (tiles : Tiles rects) {region : List PIRect} (tiles' : Tiles region) :
    Tiles (intersect rects region) ∧
      covered (intersect rects region) = covered rects ∩ covered region := by
  have parts (dst : PIRect) : covered (region.flatMap (overlap dst)) = dst.points ∩ covered region :=
    covered_flatMap_overlap
  constructor
  · apply tiles.flatMap
    · exact fun _ _ => tiles'.flatMap_overlap
    · intro dst _
      show covered (region.flatMap (overlap dst)) ⊆ _
      rw [parts]
      exact Set.inter_subset_left
  · show covered (rects.flatMap fun dst => region.flatMap (overlap dst)) = _
    rw [covered_flatMap]
    ext p
    simp only [parts, Set.mem_iUnion, Set.mem_inter_iff, mem_covered, exists_prop]
    constructor
    · intro ⟨dst, member, inside, inside'⟩
      exact ⟨⟨dst, member, inside⟩, inside'⟩
    · intro ⟨⟨dst, member, inside⟩, inside'⟩
      exact ⟨dst, member, inside, inside'⟩

theorem intersectOffset_eq (rects region : List PIRect) (offset : PIPoint) :
    intersectOffset rects region offset =
      intersect rects (region.map fun clip => PIRect.add clip offset) := by
  unfold intersectOffset intersect
  simp only [flatMap_map]

end PRegion

/-! ## Regions under calls -/

/-- A call to one of the regions named by `ι`. To exclude a region from itself is
undefined: the list would change under the loop over it. -/
inductive RegionCall (ι : Type)
  | set (target : ι) (rect : PIRect) (valid : rect.IsValid)
  | setRegion (target source : ι)
  | includeRect (target : ι) (rect : PIRect) (valid : rect.IsValid)
  | exclude (target : ι) (rect : PIRect) (valid : rect.IsValid)
  | excludeRegion (target source : ι) (other : source ≠ target)
  | excludeOffset (target source : ι) (other : source ≠ target) (offset : PIPoint)
  | intersect (target source : ι)
  | intersectOffset (target source : ι) (offset : PIPoint)

namespace RegionCall

variable {ι : Type} [DecidableEq ι]

def apply (regions : ι → List PIRect) : RegionCall ι → ι → List PIRect
  | set target rect _ => update regions target [rect]
  | setRegion target source => update regions target (regions source)
  | includeRect target rect _ =>
    update regions target (PRegion.includeRect (regions target) rect)
  | exclude target rect _ => update regions target (PRegion.exclude (regions target) rect)
  | excludeRegion target source _ =>
    update regions target (PRegion.excludeRegion (regions target) (regions source))
  | excludeOffset target source _ offset =>
    update regions target (PRegion.excludeOffset (regions target) (regions source) offset)
  | intersect target source =>
    update regions target (PRegion.intersect (regions target) (regions source))
  | intersectOffset target source offset =>
    update regions target (PRegion.intersectOffset (regions target) (regions source) offset)

/-- What the call means for the sets of points. -/
def meaning (sets : ι → Set (Int × Int)) : RegionCall ι → ι → Set (Int × Int)
  | set target rect _ => update sets target rect.points
  | setRegion target source => update sets target (sets source)
  | includeRect target rect _ => update sets target (sets target ∪ rect.points)
  | exclude target rect _ => update sets target (sets target \ rect.points)
  | excludeRegion target source _ => update sets target (sets target \ sets source)
  | excludeOffset target source _ offset =>
    update sets target (sets target \ PRegion.translate (sets source) offset)
  | intersect target source => update sets target (sets target ∩ sets source)
  | intersectOffset target source offset =>
    update sets target (sets target ∩ PRegion.translate (sets source) offset)

/-- Each region tiles the set that it stands for. -/
def Represents (regions : ι → List PIRect) (sets : ι → Set (Int × Int)) : Prop :=
  ∀ i, Tiles (regions i) ∧ covered (regions i) = sets i

theorem Represents.update {regions : ι → List PIRect} {sets : ι → Set (Int × Int)}
    (represents : Represents regions sets) (target : ι) {rects : List PIRect} {points : Set (Int × Int)}
    (new : Tiles rects ∧ covered rects = points) :
    Represents (update regions target rects) (update sets target points) := by
  intro i
  by_cases same : i = target
  · subst same
    rw [update_self, update_self]
    exact new
  · rw [update_of_ne same, update_of_ne same]
    exact represents i

theorem Represents.apply {regions : ι → List PIRect} {sets : ι → Set (Int × Int)}
    (represents : Represents regions sets) (call : RegionCall ι) :
    Represents (call.apply regions) (call.meaning sets) := by
  cases call with
  | set target rect valid => exact represents.update target ⟨.singleton valid, covered_singleton⟩
  | setRegion target source => exact represents.update target (represents source)
  | includeRect target rect valid =>
    have new := PRegion.includeRect_spec (represents target).1 valid
    rw [(represents target).2] at new
    exact represents.update target new
  | exclude target rect valid =>
    have new := PRegion.exclude_spec (represents target).1 rect
    rw [(represents target).2] at new
    exact represents.update target new
  | excludeRegion target source _ =>
    have new := PRegion.excludeRegion_spec (represents target).1 (regions source)
    rw [(represents target).2, (represents source).2] at new
    exact represents.update target new
  | excludeOffset target source _ offset =>
    have new := PRegion.excludeRegion_spec (represents target).1
      ((regions source).map fun clip => PIRect.add clip offset)
    rw [← PRegion.excludeOffset_eq, ← PRegion.translate_covered, (represents target).2,
      (represents source).2] at new
    exact represents.update target new
  | intersect target source =>
    have new := PRegion.intersect_spec (represents target).1 (represents source).1
    rw [(represents target).2, (represents source).2] at new
    exact represents.update target new
  | intersectOffset target source offset =>
    have new := PRegion.intersect_spec (represents target).1
      (PRegion.Tiles.translate (represents source).1 offset)
    rw [← PRegion.intersectOffset_eq, ← PRegion.translate_covered, (represents target).2,
      (represents source).2] at new
    exact represents.update target new

example : (([.set true ⟨0, 0, 9, 9⟩ (by decide), .exclude true ⟨3, 3, 6, 6⟩ (by decide),
    .set false ⟨0, 0, 9, 6⟩ (by decide), .excludeOffset true false (by decide) ⟨0, 0⟩] :
    List (RegionCall Bool)).foldl apply fun _ => []) true = [⟨0, 6, 9, 9⟩] := by decide

end RegionCall

end PadOS.Gui
