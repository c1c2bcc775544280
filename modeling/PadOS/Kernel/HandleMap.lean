import PadOS.Kernel.HandleArray

/-!
# What the handle array keeps

The tree is a map from the live handles to objects. Every block counts its slots in use, the top
level counts the live handles, and what is in the reserve is an empty block.
-/

namespace PadOS.Kernel.KHandleArray

open CountedTree CountedTree.Slot List Option
open CountedTree (Counted)
open Function (update_self update_of_ne update)

variable {Obj : Type*}

/-! ## The map -/

/-- What is in the slot that a handle's low 24 bits name. -/
def lookup (arr : KHandleArray Obj) (handle : Int) : HandleSlot Obj :=
  (arr.topLevel.array (index1 handle)).get [index2 handle, index3 handle]

def InSpace (handle : Int) : Prop := 0 ≤ handle ∧ handle < 2 ^ 24

def Live (arr : KHandleArray Obj) (handle : Int) : Prop :=
  InSpace handle ∧ arr.lookup handle ≠ .empty

def liveHandles (arr : KHandleArray Obj) : Finset Int :=
  ((Finset.range (2 ^ 24)).image fun (handle : Nat) => (handle : Int)).filter fun handle =>
    !(arr.lookup handle).isEmpty

/-- The places of the reserve, the blocks in them and their count. -/
structure ReserveOk (arr : KHandleArray Obj) : Prop where
  places : arr.reservedBlocks.length = 4
  fresh : ∀ block, some block ∈ arr.reservedBlocks → block = .fresh
  counted : arr.cachedBlockCount = arr.reservedBlocks.countP Option.isSome

structure Consistent (arr : KHandleArray Obj) : Prop where
  blocks : ∀ i, Counted 2 (arr.topLevel.array i)
  handles : arr.topLevel.usedIndexes = arr.liveHandles.card
  reserve : arr.ReserveOk

section Handles

variable {arr : KHandleArray Obj} {handle other : Int}

theorem mem_liveHandles : handle ∈ arr.liveHandles ↔ arr.Live handle := by
  unfold liveHandles Live InSpace
  rw [Finset.mem_filter, Finset.mem_image]
  constructor
  · rintro ⟨⟨n, below, rfl⟩, used⟩
    have bound := Finset.mem_range.mp below
    exact ⟨⟨Int.natCast_nonneg n, by omega⟩, by simpa using used⟩
  · rintro ⟨⟨low, high⟩, used⟩
    have whole : ((handle.toNat : Nat) : Int) = handle := Int.toNat_of_nonneg low
    exact ⟨⟨handle.toNat, Finset.mem_range.mpr (by omega), whole⟩, by simpa using used⟩

theorem eq_of_indexes (inSpace : InSpace handle) (otherIn : InSpace other)
    (same1 : index1 handle = index1 other) (same2 : index2 handle = index2 other)
    (same3 : index3 handle = index3 other) : handle = other := by
  simp only [index1, index2, index3, Fin.mk.injEq] at same1 same2 same3
  unfold InSpace at inSpace otherIn
  omega

end Handles

/-! ## The reserve -/

section Reserve

variable {block : KHandleArrayBlock Obj} {blocks : List (Option (KHandleArrayBlock Obj))}
  {arr : KHandleArray Obj}

theorem putReserved_eq_none :
    putReserved block blocks = none → blocks.countP Option.isSome = blocks.length := by
  induction blocks with
  | nil => simp
  | cons place rest ih =>
    cases place with
    | none => simp [putReserved]
    | some other =>
      intro full
      simp only [putReserved, map_eq_none_iff] at full
      simp [ih full]

theorem putReserved_eq_some {after : List (Option (KHandleArrayBlock Obj))}
    (put : putReserved block blocks = some after) :
    after.length = blocks.length ∧ after.countP Option.isSome = blocks.countP Option.isSome + 1 ∧
      ∀ other, some other ∈ after → other = block ∨ some other ∈ blocks := by
  induction blocks generalizing after with
  | nil => cases put
  | cons place rest ih =>
    cases place with
    | none =>
      cases put
      simp
    | some held =>
      rcases map_eq_some_iff.mp put with ⟨behind, putBehind, rfl⟩
      have ⟨length, count, members⟩ := ih putBehind
      refine ⟨by simp [length], by simp [count], fun other member => ?_⟩
      rcases mem_cons.mp member with same | member
      · exact .inr (same ▸ mem_cons_self)
      · exact (members other member).imp id (mem_cons_of_mem _)

theorem takeReserved_eq_none (none_ : takeReserved blocks = none) :
    blocks.countP Option.isSome = 0 := by
  induction blocks with
  | nil => rfl
  | cons place rest ih =>
    cases place with
    | none =>
      simp only [takeReserved, map_eq_none_iff] at none_
      simpa using ih none_
    | some block => cases none_

theorem takeReserved_eq_some {after : List (Option (KHandleArrayBlock Obj))}
    (take : takeReserved blocks = some (block, after)) :
    after.length = blocks.length ∧ after.countP Option.isSome + 1 = blocks.countP Option.isSome ∧
      some block ∈ blocks ∧ ∀ other, some other ∈ after → some other ∈ blocks := by
  induction blocks generalizing after with
  | nil => cases take
  | cons place rest ih =>
    cases place with
    | none =>
      rcases map_eq_some_iff.mp take with ⟨⟨taken, behind⟩, takeBehind, same⟩
      cases same
      have ⟨length, count, member, members⟩ := ih takeBehind
      refine ⟨by simp [length], by simpa using count, mem_cons_of_mem _ member,
        fun other member => ?_⟩
      rcases mem_cons.mp member with same | member
      · cases same
      · exact mem_cons_of_mem _ (members other member)
    | some held =>
      cases take
      refine ⟨rfl, by simp, mem_cons_self, fun other member => ?_⟩
      rcases mem_cons.mp member with same | member
      · cases same
      · exact mem_cons_of_mem _ member

/-- What a change of the reserve leaves as it is. -/
def SameTree (arr after : KHandleArray Obj) : Prop :=
  after.topLevel = arr.topLevel ∧ after.nextHandle = arr.nextHandle

theorem CacheBlock_fresh (ok : arr.ReserveOk) :
    (arr.CacheBlock .fresh).ReserveOk ∧ arr.SameTree (arr.CacheBlock .fresh) ∧
      (arr.cachedBlockCount < 4 →
        (arr.CacheBlock .fresh).cachedBlockCount = arr.cachedBlockCount + 1) := by
  rw [CacheBlock]
  split
  · rename_i full
    refine ⟨ok, ⟨rfl, rfl⟩, fun room => ?_⟩
    have all := putReserved_eq_none full
    rw [ok.counted, all, ok.places] at room
    exact absurd room (by decide)
  · rename_i after put
    have ⟨length, count, members⟩ := putReserved_eq_some put
    refine ⟨⟨length.trans ok.places, fun block member => ?_, ?_⟩, ⟨rfl, rfl⟩, fun _ => rfl⟩
    · exact (members block member).elim id (ok.fresh block)
    · rw [count, ok.counted]
      rfl

theorem AllocBlock_cases (ok : arr.ReserveOk) :
    arr.cachedBlockCount = 0 ∧ arr.AllocBlock = none ∨
      ∃ after, arr.AllocBlock = some (.fresh, after) ∧ after.ReserveOk ∧ arr.SameTree after ∧
        0 < arr.cachedBlockCount ∧ after.cachedBlockCount = arr.cachedBlockCount - 1 := by
  rw [AllocBlock]
  cases take : takeReserved arr.reservedBlocks with
  | none =>
    left
    have none_ := takeReserved_eq_none take
    exact ⟨by rw [ok.counted, none_]; rfl, rfl⟩
  | some taken =>
    right
    rcases taken with ⟨block, blocks⟩
    have ⟨length, count, member, members⟩ := takeReserved_eq_some take
    have isFresh := ok.fresh block member
    subst isFresh
    have counted := ok.counted
    refine ⟨_, rfl, ⟨length.trans ok.places, fun other member => ok.fresh other (members _ member),
      ?_⟩, ⟨rfl, rfl⟩, by omega, rfl⟩
    simp only
    omega

end Reserve

/-! ## Taking the next handle -/

section Take

variable {arr after : KHandleArray Obj} {handle : Int} {block2 : KHandleArrayBlock Obj}

/-- The handle that comes next. -/
def nextNumber (arr : KHandleArray Obj) : Int := (arr.nextHandle % 2 ^ 24 : Nat)

/-- How many blocks have to be put into the tree below a slot of the top level for a handle. -/
def needed (slot : HandleSlot Obj) (handle : Int) : Int :=
  match slot with
  | .block _ array => if (array (index2 handle)).isEmpty then 1 else 0
  | _ => 2

/-- The handle is put below `slot`, and nothing else in the tree is changed. -/
structure Takes (arr : KHandleArray Obj) (slot : HandleSlot Obj) (handle : Int)
    (after : KHandleArray Obj) : Prop where
  array : after.topLevel.array = update arr.topLevel.array (index1 handle)
    (CountedTree.insert none [index2 handle, index3 handle] slot)
  used : after.topLevel.usedIndexes = arr.topLevel.usedIndexes + 1
  reserve : after.ReserveOk
  next : after.nextHandle = arr.nextHandle

/-- The array with a null pointer in the handle's slot of its third block. -/
def withSlot (arr : KHandleArray Obj) (handle : Int) (block2 block3 : KHandleArrayBlock Obj) :
    KHandleArray Obj :=
  (arr.setTop (index1 handle) (KHandleArrayBlock.slot { block2 with
    array := update block2.array (index2 handle) (.block (block3.usedIndexes + 1)
        (update block3.array (index3 handle) (.object none))) })).setUsed
    (arr.topLevel.usedIndexes + 1)

theorem takeSlot_free {block3 : KHandleArrayBlock Obj}
    (free : block3.array (index3 handle) = .empty) :
    arr.takeSlot handle block2 block3 = (.taken handle, arr.withSlot handle block2 block3) := by
  rw [takeSlot, if_pos (isEmpty_iff.mpr free)]
  rfl

theorem takeBelow_wrapped (all : ∀ i, Counted 1 (block2.array i))
    (taken : block2.slot.get [index2 handle, index3 handle] ≠ .empty) :
    arr.takeBelow handle block2 = some (.wrapped, arr) := by
  have counted := all (index2 handle)
  rw [KHandleArrayBlock.slot, get_block] at taken
  rw [takeBelow]
  cases slot : block2.array (index2 handle) with
  | empty =>
    rw [slot] at taken
    exact absurd rfl taken
  | object value =>
    rw [slot] at counted
    exact counted.elim
  | block used array =>
    rw [slot, get_block, get_nil] at taken
    simp [takeSlot, taken]

theorem takeBelow_free (ok : arr.ReserveOk) (all : ∀ i, Counted 1 (block2.array i))
    (free : block2.slot.get [index2 handle, index3 handle] = .empty) :
    needed block2.slot handle ≤ arr.cachedBlockCount ∧
        (∃ after, arr.takeBelow handle block2 = some (.taken handle, after) ∧
          arr.Takes block2.slot handle after) ∨
      needed block2.slot handle = 1 ∧ arr.cachedBlockCount = 0 ∧
        arr.takeBelow handle block2 = some (.noBlock,
          if block2.usedIndexes = 0 then (arr.setTop (index1 handle) .empty).CacheBlock block2
          else arr) := by
  have counted := all (index2 handle)
  rw [KHandleArrayBlock.slot, get_block] at free
  rw [takeBelow]
  cases slot : block2.array (index2 handle) with
  | object value =>
    rw [slot] at counted
    exact counted.elim
  | block used array =>
    left
    rw [slot, get_block, get_nil] at free
    have count_nonneg : 0 ≤ arr.cachedBlockCount := by
      rw [ok.counted]
      omega
    refine ⟨by simpa [needed, KHandleArrayBlock.slot, slot] using count_nonneg, ?_⟩
    have taken := @takeSlot_free Obj arr handle block2 ⟨array, used⟩ free
    refine ⟨_, congrArg some taken, ?_, rfl, ⟨ok.places, ok.fresh, ok.counted⟩, rfl⟩
    simp [withSlot, setUsed, setTop, KHandleArrayBlock.slot, CountedTree.insert, slot, free]
  | empty =>
    rcases AllocBlock_cases ok with ⟨none_, alloc⟩ | ⟨after, alloc, afterOk, same, some_, _⟩
    · right
      rw [alloc]
      refine ⟨by simp [needed, KHandleArrayBlock.slot, slot], none_, ?_⟩
      dsimp only
      split <;> rfl
    · left
      rw [alloc]
      refine ⟨by simp [needed, KHandleArrayBlock.slot, slot]; omega, ?_⟩
      refine ⟨_, congrArg some (takeSlot_free rfl), ?_, ?_,
        ⟨afterOk.places, afterOk.fresh, afterOk.counted⟩, same.2⟩
      · simp [withSlot, setUsed, setTop, KHandleArrayBlock.slot, KHandleArrayBlock.fresh,
          CountedTree.insert, slot, same.1]
      · simp [withSlot, setUsed, setTop, same.1]

/-- The array with the next handle passed. -/
def passed (arr : KHandleArray Obj) : KHandleArray Obj :=
  { arr with nextHandle := arr.nextHandle + 1 }

/-- Nothing but the places in the reserve differs once the next handle has been tried. -/
structure NoBlock (arr after : KHandleArray Obj) : Prop where
  topLevel : after.topLevel = arr.topLevel
  reserve : after.ReserveOk
  count : after.cachedBlockCount = arr.cachedBlockCount
  next : after.nextHandle = arr.nextHandle + 1

theorem takeNext_wrapped (blocks : ∀ i, Counted 2 (arr.topLevel.array i))
    (taken : arr.lookup arr.nextNumber ≠ .empty) :
    arr.takeNext = some (.wrapped, arr.passed) := by
  have counted := blocks (index1 arr.nextNumber)
  rw [takeNext]
  rw [lookup] at taken
  simp only [← nextNumber.eq_def]
  cases slot : arr.topLevel.array (index1 arr.nextNumber) with
  | empty =>
    rw [slot, get_empty] at taken
    exact absurd rfl taken
  | object value =>
    rw [slot] at counted
    exact counted.elim
  | block used array =>
    rw [slot] at counted taken
    exact @takeBelow_wrapped Obj arr.passed arr.nextNumber ⟨array, used⟩ counted.2.2 taken

theorem takeNext_free (ok : arr.ReserveOk) (blocks : ∀ i, Counted 2 (arr.topLevel.array i))
    (free : arr.lookup arr.nextNumber = .empty) :
    (needed (arr.topLevel.array (index1 arr.nextNumber)) arr.nextNumber ≤ arr.cachedBlockCount ∧
      ∃ after, arr.takeNext = some (.taken arr.nextNumber, after) ∧
        arr.passed.Takes (arr.topLevel.array (index1 arr.nextNumber)) arr.nextNumber after) ∨
    (arr.cachedBlockCount < needed (arr.topLevel.array (index1 arr.nextNumber)) arr.nextNumber ∧
      ∃ after, arr.takeNext = some (.noBlock, after) ∧ arr.NoBlock after) := by
  have counted := blocks (index1 arr.nextNumber)
  have passedOk : arr.passed.ReserveOk := ⟨ok.places, ok.fresh, ok.counted⟩
  rw [takeNext]
  rw [lookup] at free
  simp only [← nextNumber.eq_def]
  cases slot : arr.topLevel.array (index1 arr.nextNumber) with
  | object value =>
    rw [slot] at counted
    exact counted.elim
  | block used array =>
    rw [slot] at counted free
    have used_pos := counted.2.1
    rcases @takeBelow_free Obj arr.passed arr.nextNumber ⟨array, used⟩ passedOk counted.2.2 free
      with taken | ⟨one, none_, ends⟩
    · exact .inl taken
    · right
      have left_ : arr.cachedBlockCount = 0 := none_
      have one' : needed (.block used array) arr.nextNumber = 1 := one
      rw [if_neg (by exact used_pos.ne')] at ends
      exact ⟨by omega, arr.passed, ends, rfl, passedOk, rfl, rfl⟩
  | empty =>
    rcases AllocBlock_cases passedOk with ⟨none_, alloc⟩ | ⟨after, alloc, afterOk, same, some_, less⟩
    · right
      have left_ : arr.cachedBlockCount = 0 := none_
      rw [passed] at alloc
      simp only [alloc]
      exact ⟨by simp [needed, left_], arr.passed, rfl, rfl, passedOk, rfl, rfl⟩
    · have count : after.cachedBlockCount = arr.cachedBlockCount - 1 := less
      have storedOk : (after.setTop (index1 arr.nextNumber) KHandleArrayBlock.fresh.slot).ReserveOk :=
        ⟨afterOk.places, afterOk.fresh, afterOk.counted⟩
      rw [passed] at alloc
      simp only [alloc]
      rcases takeBelow_free storedOk (fun _ => counted_empty)
          (show KHandleArrayBlock.fresh.slot.get [index2 arr.nextNumber, index3 arr.nextNumber] =
            .empty by simp [KHandleArrayBlock.slot, KHandleArrayBlock.fresh]) with
        ⟨enough, taken, ends, takes⟩ | ⟨one, none_, ends⟩
      · left
        have enough' : 1 ≤ after.cachedBlockCount := enough
        refine ⟨by simp only [needed]; omega, taken, ends, ?_, ?_, takes.reserve, ?_⟩
        · rw [takes.array]
          simp [setTop, same.1, passed, KHandleArrayBlock.slot, KHandleArrayBlock.fresh,
            CountedTree.insert]
        · rw [takes.used]
          simp [setTop, same.1]
        · rw [takes.next]
          exact same.2
      · right
        have left_ : after.cachedBlockCount = 0 := none_
        rw [if_pos (by rfl)] at ends
        have backOk : ((after.setTop (index1 arr.nextNumber) KHandleArrayBlock.fresh.slot).setTop
            (index1 arr.nextNumber) .empty).ReserveOk :=
          ⟨afterOk.places, afterOk.fresh, afterOk.counted⟩
        have cached := CacheBlock_fresh backOk
        refine ⟨by simp only [needed]; omega, _, ends, ?_, cached.1, ?_, ?_⟩
        · rw [cached.2.1.1]
          simp [setTop, same.1, passed, ← slot]
        · rw [cached.2.2 (by rw [setTop, setTop]; simp only; omega)]
          simp only [setTop]
          omega
        · rw [cached.2.1.2]
          exact same.2

end Take

/-! ## The tree as a map -/

section Map

variable {arr after : KHandleArray Obj} {handle other : Int} {object : Option Obj}

theorem path_eq_iff (inSpace : InSpace handle) (otherIn : InSpace other)
    (same : index1 other = index1 handle) :
    [index2 other, index3 other] = [index2 handle, index3 handle] ↔ other = handle := by
  constructor
  · intro paths
    simp only [List.cons.injEq, and_true] at paths
    exact eq_of_indexes otherIn inSpace same paths.1 paths.2
  · intro here
    rw [here]

theorem lookup_update {slot value : HandleSlot Obj}
    (array : after.topLevel.array = update arr.topLevel.array (index1 handle) slot)
    (under : slot.get [index2 other, index3 other] =
      if [index2 other, index3 other] = [index2 handle, index3 handle] then value
      else (arr.topLevel.array (index1 handle)).get [index2 other, index3 other])
    (inSpace : InSpace handle) (otherIn : InSpace other) :
    after.lookup other = if other = handle then value else arr.lookup other := by
  rw [lookup, array]
  by_cases same : index1 other = index1 handle
  · rw [same, update_self, under]
    simp only [path_eq_iff inSpace otherIn same, lookup, same]
  · have apart : other ≠ handle := fun here => same (by rw [here])
    rw [update_of_ne same, if_neg apart, lookup]

section

variable (blocks : ∀ i, Counted 2 (arr.topLevel.array i))

include blocks

theorem lookup_insert
    (array : after.topLevel.array = update arr.topLevel.array (index1 handle)
      (CountedTree.insert object [index2 handle, index3 handle]
        (arr.topLevel.array (index1 handle))))
    (inSpace : InSpace handle) (otherIn : InSpace other) :
    after.lookup other = if other = handle then .object object else arr.lookup other :=
  lookup_update array (get_insert (blocks _) rfl rfl) inSpace otherIn

theorem lookup_remove
    (array : after.topLevel.array = update arr.topLevel.array (index1 handle)
      (remove [index2 handle, index3 handle] (arr.topLevel.array (index1 handle))))
    (there : arr.lookup handle ≠ .empty) (inSpace : InSpace handle) (otherIn : InSpace other) :
    after.lookup other = if other = handle then .empty else arr.lookup other :=
  lookup_update array (get_remove (blocks _) rfl rfl there) inSpace otherIn

theorem blocks_update {slot : HandleSlot Obj}
    (array : after.topLevel.array = update arr.topLevel.array (index1 handle) slot)
    (counted : Counted 2 slot) : ∀ i, Counted 2 (after.topLevel.array i) := by
  intro i
  rw [array]
  by_cases here : i = index1 handle
  · rw [here, update_self]
    exact counted
  · rw [update_of_ne here]
    exact blocks i

end

/-- Of a map with one more handle. -/
structure Adds (arr : KHandleArray Obj) (handle : Int) (object : Option Obj)
    (after : KHandleArray Obj) : Prop where
  wasFree : ¬arr.Live handle
  inSpace : InSpace handle
  lookup : ∀ other, InSpace other →
    after.lookup other = if other = handle then .object object else arr.lookup other

/-- Of a map with one handle less. -/
structure Removes (arr : KHandleArray Obj) (handle : Int) (after : KHandleArray Obj) : Prop where
  wasLive : arr.Live handle
  lookup : ∀ other, InSpace other →
    after.lookup other = if other = handle then .empty else arr.lookup other

theorem Adds.liveHandles (adds : arr.Adds handle object after) :
    after.liveHandles = insert handle arr.liveHandles := by
  ext other
  simp only [mem_liveHandles, Live, Finset.mem_insert]
  constructor
  · intro ⟨inSpace, filled⟩
    rw [adds.lookup other inSpace] at filled
    by_cases here : other = handle
    · exact .inl here
    · rw [if_neg here] at filled
      exact .inr ⟨inSpace, filled⟩
  · rintro (rfl | ⟨inSpace, filled⟩)
    · exact ⟨adds.inSpace, by rw [adds.lookup other adds.inSpace, if_pos rfl]; simp⟩
    · refine ⟨inSpace, ?_⟩
      rw [adds.lookup other inSpace]
      split
      · simp
      · exact filled

theorem Removes.liveHandles (removes : arr.Removes handle after) :
    after.liveHandles = arr.liveHandles.erase handle := by
  ext other
  simp only [mem_liveHandles, Live, Finset.mem_erase]
  constructor
  · intro ⟨inSpace, filled⟩
    rw [removes.lookup other inSpace] at filled
    by_cases here : other = handle
    · rw [if_pos here] at filled
      exact absurd rfl filled
    · rw [if_neg here] at filled
      exact ⟨here, inSpace, filled⟩
  · intro ⟨apart, inSpace, filled⟩
    refine ⟨inSpace, ?_⟩
    rw [removes.lookup other inSpace, if_neg apart]
    exact filled

theorem Consistent.passed (consistent : arr.Consistent) : arr.passed.Consistent :=
  ⟨consistent.blocks, consistent.handles,
    ⟨consistent.reserve.places, consistent.reserve.fresh, consistent.reserve.counted⟩⟩

theorem nextNumber_inSpace : InSpace arr.nextNumber := by
  unfold InSpace nextNumber
  omega

theorem Consistent.takes (consistent : arr.Consistent) (inSpace : InSpace handle)
    (free : arr.lookup handle = .empty)
    (takes : arr.Takes (arr.topLevel.array (index1 handle)) handle after) :
    after.Consistent ∧ arr.Adds handle none after := by
  have adds : arr.Adds handle none after :=
    ⟨fun live => live.2 free, inSpace,
      fun other otherIn => lookup_insert consistent.blocks takes.array inSpace otherIn⟩
  refine ⟨⟨?_, ?_, takes.reserve⟩, adds⟩
  · exact blocks_update consistent.blocks takes.array (counted_insert (consistent.blocks _) rfl)
  · rw [takes.used, adds.liveHandles, Finset.card_insert_of_notMem
      (fun member => adds.wasFree (mem_liveHandles.mp member)), consistent.handles]
    exact (Nat.cast_succ _).symm

end Map

/-! ## Giving a handle back -/

section Free

variable {arr after : KHandleArray Obj} {handle : Int} {object : Option Obj}

/-- What `release` does, on an array whose reserve is in order. -/
structure Released (arr : KHandleArray Obj) (handle : Int) (after : KHandleArray Obj) : Prop where
  array : after.topLevel.array = update arr.topLevel.array (index1 handle)
    (remove [index2 handle, index3 handle] (arr.topLevel.array (index1 handle)))
  used : after.topLevel.usedIndexes = arr.topLevel.usedIndexes - 1
  reserve : after.ReserveOk

theorem emptied_eq_fresh {array : Fin 256 → HandleSlot Obj} {used : Int} {i : Fin 256}
    (count : used = inUse array) (filled : array i ≠ .empty) (last : used = 1) :
    (⟨update array i .empty, used - 1⟩ : KHandleArrayBlock Obj) = .fresh := by
  rw [update_empty_of_last filled (by omega), last]
  rfl

theorem release_released {used2 used3 : Int} {array2 array3 : Fin 256 → HandleSlot Obj}
    (ok : arr.ReserveOk) (counted : Counted 2 (arr.topLevel.array (index1 handle)))
    (slot1 : arr.topLevel.array (index1 handle) = .block used2 array2)
    (slot2 : array2 (index2 handle) = .block used3 array3)
    (filled : array3 (index3 handle) ≠ .empty) :
    arr.Released handle (arr.release handle ⟨array2, used2⟩ ⟨array3, used3⟩) := by
  rw [slot1] at counted
  have counted3 := counted.2.2 (index2 handle)
  rw [slot2] at counted3
  have filled2 : array2 (index2 handle) ≠ .empty := by simp [slot2]
  have lowered : (arr.setUsed (arr.topLevel.usedIndexes - 1)).ReserveOk :=
    ⟨ok.places, ok.fresh, ok.counted⟩
  by_cases last3 : used3 = 1
  · have fresh3 := emptied_eq_fresh counted3.1 filled last3
    have cached := CacheBlock_fresh lowered
    have top3 : ((arr.setUsed (arr.topLevel.usedIndexes - 1)).CacheBlock .fresh).topLevel =
        ⟨arr.topLevel.array, arr.topLevel.usedIndexes - 1⟩ := cached.2.1.1
    by_cases last2 : used2 = 1
    · have fresh2 := emptied_eq_fresh counted.1 filled2 last2
      have again := CacheBlock_fresh cached.1
      have top2 := again.2.1.1.trans top3
      simp only [release, last3, last2, sub_self, if_true] at fresh2 fresh3 ⊢
      rw [fresh3, fresh2]
      refine ⟨?_, ?_, ⟨again.1.places, again.1.fresh, again.1.counted⟩⟩
      · simp [setTop, top2, slot1, slot2, remove, last2, last3]
      · simp [setTop, top2]
    · have others : used2 - 1 ≠ 0 := by omega
      simp only [release, last3, sub_self, if_true, if_neg others] at fresh3 ⊢
      rw [fresh3]
      refine ⟨?_, ?_, ⟨cached.1.places, cached.1.fresh, cached.1.counted⟩⟩
      · simp [setTop, top3, slot1, slot2, remove, last2, last3, KHandleArrayBlock.slot]
      · simp [setTop, top3]
  · have others : used3 - 1 ≠ 0 := by omega
    simp only [release, if_neg others]
    refine ⟨?_, rfl, ⟨lowered.places, lowered.fresh, lowered.counted⟩⟩
    simp [setTop, setUsed, slot1, slot2, remove, last3, KHandleArrayBlock.slot]

theorem FreeHandle_trw_cases (consistent : arr.Consistent) :
    arr.lookup handle = .empty ∧ arr.FreeHandle_trw handle = some (.error .inval, arr) ∨
      arr.lookup handle ≠ .empty ∧
        ∃ after, arr.FreeHandle_trw handle = some (.ok (), after) ∧ arr.Released handle after := by
  have counted := consistent.blocks (index1 handle)
  rw [FreeHandle_trw, lookup]
  cases slot1 : arr.topLevel.array (index1 handle) with
  | empty => exact .inl ⟨rfl, rfl⟩
  | object value =>
    rw [slot1] at counted
    exact counted.elim
  | block used2 array2 =>
    have below := counted
    rw [slot1] at below
    have counted2 := below.2.2 (index2 handle)
    cases slot2 : array2 (index2 handle) with
    | empty => exact .inl ⟨by simp [slot2], by simp [slot2]⟩
    | object value =>
      rw [slot2] at counted2
      exact counted2.elim
    | block used3 array3 =>
      by_cases free : array3 (index3 handle) = .empty
      · exact .inl ⟨by simp [slot2, free], by simp [slot2, free]⟩
      · exact .inr ⟨by simpa [slot2] using free, _, by simp [slot2, free],
          release_released consistent.reserve counted slot1 slot2 free⟩

theorem Consistent.released (consistent : arr.Consistent) (live : arr.Live handle)
    (released : arr.Released handle after) : after.Consistent ∧ arr.Removes handle after := by
  have removes : arr.Removes handle after :=
    ⟨live, fun other otherIn =>
      lookup_remove consistent.blocks released.array live.2 live.1 otherIn⟩
  refine ⟨⟨?_, ?_, released.reserve⟩, removes⟩
  · exact blocks_update consistent.blocks released.array
      (counted_remove (consistent.blocks _) rfl live.2)
  · have member := mem_liveHandles.mpr live
    have some_ := Finset.card_pos.mpr ⟨_, member⟩
    rw [released.used, removes.liveHandles, Finset.card_erase_of_mem member, consistent.handles]
    omega

end Free

/-! ## Setting a handle's object -/

section SetObject

variable {arr after : KHandleArray Obj} {handle other : Int} {object : Option Obj}

/-- The handle that an `int` is taken for. -/
def number (handle : Int) : Int := handle % 2 ^ 24

theorem number_inSpace (handle : Int) : InSpace (number handle) := by
  unfold InSpace number
  omega

theorem index_number (handle : Int) :
    index1 (number handle) = index1 handle ∧ index2 (number handle) = index2 handle ∧
      index3 (number handle) = index3 handle := by
  simp only [index1, index2, index3, number, Fin.mk.injEq]
  omega

theorem lookup_number (arr : KHandleArray Obj) (handle : Int) :
    arr.lookup (number handle) = arr.lookup handle := by
  have same := index_number handle
  rw [lookup, lookup, same.1, same.2.1, same.2.2]

/-- The two blocks that a handle's slot is reached through are there. -/
def HasBlocks (arr : KHandleArray Obj) (handle : Int) : Prop :=
  needed (arr.topLevel.array (index1 handle)) handle = 0

/-- Of a map in which a live handle stands for another object. -/
structure Changes (arr : KHandleArray Obj) (handle : Int) (object : Option Obj)
    (after : KHandleArray Obj) : Prop where
  wasLive : arr.Live handle
  lookup : ∀ other, InSpace other →
    after.lookup other = if other = handle then .object object else arr.lookup other

theorem Changes.liveHandles (changes : arr.Changes handle object after) :
    after.liveHandles = arr.liveHandles := by
  ext other
  simp only [mem_liveHandles, Live]
  refine and_congr_right fun inSpace => ?_
  rw [changes.lookup other inSpace]
  split
  · rename_i here
    rw [here]
    simpa using changes.wasLive.2
  · rfl

theorem Set_of_not_hasBlocks (consistent : arr.Consistent) (unbuilt : ¬arr.HasBlocks handle) :
    arr.Set handle object = some arr := by
  have counted := consistent.blocks (index1 handle)
  rw [HasBlocks] at unbuilt
  rw [Set]
  cases slot1 : arr.topLevel.array (index1 handle) with
  | empty => rfl
  | object value =>
    rw [slot1] at counted
    exact counted.elim
  | block used2 array2 =>
    rw [slot1] at counted unbuilt
    have counted2 := counted.2.2 (index2 handle)
    cases slot2 : array2 (index2 handle) with
    | empty => simp [slot2]
    | object value =>
      rw [slot2] at counted2
      exact counted2.elim
    | block used3 array3 => simp [needed, slot2] at unbuilt

theorem Set_of_filled (consistent : arr.Consistent) (filled : arr.lookup handle ≠ .empty) :
    ∃ after, arr.Set handle object = some after ∧ after.Consistent ∧
      arr.Changes (number handle) object after := by
  have counted := consistent.blocks (index1 handle)
  have live : arr.Live (number handle) := ⟨number_inSpace handle, by rwa [lookup_number]⟩
  have inserted : ∃ after, arr.Set handle object = some after ∧
      after.topLevel.array = update arr.topLevel.array (index1 handle)
        (CountedTree.insert object [index2 handle, index3 handle]
          (arr.topLevel.array (index1 handle))) ∧
      after.topLevel.usedIndexes = arr.topLevel.usedIndexes ∧ after.ReserveOk := by
    rw [lookup] at filled
    rw [Set]
    cases slot1 : arr.topLevel.array (index1 handle) with
    | empty =>
      rw [slot1, get_empty] at filled
      exact absurd rfl filled
    | object value =>
      rw [slot1] at counted
      exact counted.elim
    | block used2 array2 =>
      rw [slot1] at counted filled
      have counted2 := counted.2.2 (index2 handle)
      cases slot2 : array2 (index2 handle) with
      | empty => simp [slot2] at filled
      | object value =>
        rw [slot2] at counted2
        exact counted2.elim
      | block used3 array3 =>
        have filled3 : array3 (index3 handle) ≠ .empty := by simpa [slot2] using filled
        have ok := consistent.reserve
        simp only [slot2]
        refine ⟨_, rfl, ?_, rfl, ⟨ok.places, ok.fresh, ok.counted⟩⟩
        simp [setTop, CountedTree.insert, slot2, filled3]
  rcases inserted with ⟨after, set, array, used, reserve⟩
  have same := index_number handle
  have changes : arr.Changes (number handle) object after := by
    refine ⟨live, fun other otherIn => ?_⟩
    refine lookup_insert consistent.blocks ?_ live.1 otherIn
    rw [same.1, same.2.1, same.2.2]
    exact array
  refine ⟨after, set, ⟨?_, ?_, reserve⟩, changes⟩
  · exact blocks_update consistent.blocks array (counted_insert (consistent.blocks _) rfl)
  · rw [used, changes.liveHandles, consistent.handles]

end SetObject

end PadOS.Kernel.KHandleArray
