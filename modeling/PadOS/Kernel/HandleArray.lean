import Mathlib.Data.Fintype.Fin
import Mathlib.Data.Int.Interval
import PadOS.Core.CountedTree
import PadOS.Core.ErrorCode

/-!
# The handle array

Handles name slots in three levels of blocks of 256. A block that nothing is in is not kept in the
tree: where it would be, all levels share one block of empty slots, here an empty slot. Blocks are
taken from a small reserve, so that none is allocated while interrupts are disabled.
-/

namespace PadOS.Kernel

open Function (update)

open CountedTree (Slot Counted)

/-- A slot for a pointer, which is null or points to an object of `Obj`, or to a block. -/
abbrev HandleSlot (Obj : Type*) := Slot (Fin 256) (Option Obj)

structure KHandleArrayBlock (Obj : Type*) where
  array : Fin 256 → HandleSlot Obj
  usedIndexes : Int

namespace KHandleArrayBlock

variable {Obj : Type*}

/-- A block that has just been constructed. -/
def fresh : KHandleArrayBlock Obj := ⟨fun _ => .empty, 0⟩

def slot (block : KHandleArrayBlock Obj) : HandleSlot Obj := .block block.usedIndexes block.array

end KHandleArrayBlock

/-- The next handle is an `int` of which only the low 24 bits are read. -/
structure KHandleArray (Obj : Type*) where
  topLevel : KHandleArrayBlock Obj
  reservedBlocks : List (Option (KHandleArrayBlock Obj))
  cachedBlockCount : Int
  nextHandle : Nat

def index1 (handle : Int) : Fin 256 := ⟨(handle / 65536 % 256).toNat, by omega⟩

def index2 (handle : Int) : Fin 256 := ⟨(handle / 256 % 256).toNat, by omega⟩

def index3 (handle : Int) : Fin 256 := ⟨(handle % 256).toNat, by omega⟩

/-- Which way an attempt to take the next handle ends. -/
inductive Attempt where
  | noBlock
  | wrapped
  | taken (handle : Int)
  deriving DecidableEq, Repr

namespace KHandleArray

variable {Obj : Type*}

/-- An array that has just been constructed. -/
def empty : KHandleArray Obj where
  topLevel := .fresh
  reservedBlocks := [none, none, none, none]
  cachedBlockCount := 0
  nextHandle := 0

/-! ## The reserve of blocks -/

/-- The first free place takes a block; without one the block is dropped. -/
def putReserved (block : KHandleArrayBlock Obj) :
    List (Option (KHandleArrayBlock Obj)) → Option (List (Option (KHandleArrayBlock Obj)))
  | [] => none
  | none :: rest => some (some block :: rest)
  | some other :: rest => (putReserved block rest).map (some other :: ·)

def CacheBlock (arr : KHandleArray Obj) (block : KHandleArrayBlock Obj) : KHandleArray Obj :=
  match putReserved block arr.reservedBlocks with
  | none => arr
  | some blocks =>
    { arr with reservedBlocks := blocks, cachedBlockCount := arr.cachedBlockCount + 1 }

def takeReserved : List (Option (KHandleArrayBlock Obj)) →
    Option (KHandleArrayBlock Obj × List (Option (KHandleArrayBlock Obj)))
  | [] => none
  | some block :: rest => some (block, none :: rest)
  | none :: rest => (takeReserved rest).map fun (block, blocks) => (block, none :: blocks)

def AllocBlock (arr : KHandleArray Obj) : Option (KHandleArrayBlock Obj × KHandleArray Obj) :=
  (takeReserved arr.reservedBlocks).map fun (block, blocks) =>
    (block, { arr with reservedBlocks := blocks, cachedBlockCount := arr.cachedBlockCount - 1 })

/-- The loop of `AllocBuffers`. It allocates as `allocations` says, and stands still when it gets
out of steps. -/
def fillReserve : Nat → KHandleArray Obj → (Nat → Bool) →
    Option (Bool × KHandleArray Obj × (Nat → Bool))
  | 0, _, _ => none
  | steps + 1, arr, allocations =>
    let later := fun n => allocations (n + 1)
    if allocations 0 then
      let arr := arr.CacheBlock .fresh
      if arr.cachedBlockCount ≥ 2 then some (true, arr, later) else fillReserve steps arr later
    else some (arr.cachedBlockCount ≠ 0, arr, later)

def AllocBuffers (steps : Nat) (arr : KHandleArray Obj) (allocations : Nat → Bool) :
    Option (Bool × KHandleArray Obj × (Nat → Bool)) :=
  if arr.cachedBlockCount < 2 then fillReserve steps arr allocations
  else some (true, arr, allocations)

/-! ## Taking a handle -/

section

variable (arr : KHandleArray Obj)

/-- Storing into a slot of the top level. -/
def setTop (i : Fin 256) (slot : HandleSlot Obj) : KHandleArray Obj :=
  { arr with
    topLevel := { arr.topLevel with array := update arr.topLevel.array i slot } }

def setUsed (used : Int) : KHandleArray Obj :=
  { arr with topLevel := { arr.topLevel with usedIndexes := used } }

/-- What is done once both blocks of the handle are there. The new slot holds a null pointer. -/
def takeSlot (handle : Int) (block2 block3 : KHandleArrayBlock Obj) :
    Attempt × KHandleArray Obj :=
  if (block3.array (index3 handle)).isEmpty then
    let block3 : KHandleArrayBlock Obj :=
      ⟨update block3.array (index3 handle) (.object none), block3.usedIndexes + 1⟩
    let block2 := { block2 with array := update block2.array (index2 handle) block3.slot }
    (.taken handle, (arr.setTop (index1 handle) block2.slot).setUsed (arr.topLevel.usedIndexes + 1))
  else (.wrapped, arr)

/-- What is done once the handle's block of the second level is there. A slot that is read as a
block and holds an object has no result. -/
def takeBelow (handle : Int) (block2 : KHandleArrayBlock Obj) :
    Option (Attempt × KHandleArray Obj) :=
  match block2.array (index2 handle) with
  | .object _ => none
  | .block used array => some (arr.takeSlot handle block2 ⟨array, used⟩)
  | .empty =>
    match arr.AllocBlock with
    | some (block3, arr) =>
      let block2 : KHandleArrayBlock Obj :=
        ⟨update block2.array (index2 handle) block3.slot, block2.usedIndexes + 1⟩
      some ((arr.setTop (index1 handle) block2.slot).takeSlot handle block2 block3)
    | none =>
      if block2.usedIndexes = 0 then
        some (.noBlock, (arr.setTop (index1 handle) .empty).CacheBlock block2)
      else some (.noBlock, arr)

/-- The critical section of `AllocHandle`. -/
def takeNext : Option (Attempt × KHandleArray Obj) :=
  let handle : Int := (arr.nextHandle % 2 ^ 24 : Nat)
  let arr := { arr with nextHandle := arr.nextHandle + 1 }
  match arr.topLevel.array (index1 handle) with
  | .object _ => none
  | .block used array => arr.takeBelow handle ⟨array, used⟩
  | .empty =>
    match arr.AllocBlock with
    | some (block2, arr) => (arr.setTop (index1 handle) block2.slot).takeBelow handle block2
    | none => some (.noBlock, arr)

end

/-- The head of the loop, which gives what the array and the flags are behind it. -/
def refill (steps : Nat) (arr : KHandleArray Obj) (needBuffers allocBuffersFailed : Bool)
    (allocations : Nat → Bool) : Option (KHandleArray Obj × Bool × Bool × (Nat → Bool)) :=
  if needBuffers ∧ arr.cachedBlockCount < 2 then
    (AllocBuffers steps arr allocations).map fun (filled, arr, allocations) =>
      (arr, false, allocBuffersFailed || !filled, allocations)
  else some (arr, needBuffers, allocBuffersFailed, allocations)

def allocLoop : Nat → KHandleArray Obj → (needBuffers allocBuffersFailed : Bool) →
    (Nat → Bool) → Option (Except PErrorCode Int × KHandleArray Obj)
  | 0, _, _, _, _ => none
  | steps + 1, arr, needBuffers, allocBuffersFailed, allocations =>
    match refill steps arr needBuffers allocBuffersFailed allocations with
    | none => none
    | some (arr, needBuffers, allocBuffersFailed, allocations) =>
      match arr.takeNext with
      | none => none
      | some (.taken handle, arr) => some (.ok handle, arr)
      | some (.wrapped, arr) => allocLoop steps arr needBuffers allocBuffersFailed allocations
      | some (.noBlock, arr) =>
        if allocBuffersFailed then some (.error .nomem, arr)
        else
          allocLoop steps { arr with nextHandle := arr.nextHandle - 1 } true allocBuffersFailed
            allocations

/-- `AllocHandle`, as far as it gets in a number of steps; the allocations of blocks that it asks
for succeed and fail as `allocations` says. -/
def AllocHandle (steps : Nat) (arr : KHandleArray Obj) (allocations : Nat → Bool) :
    Option (Except PErrorCode Int × KHandleArray Obj) :=
  allocLoop steps arr false false allocations

/-! ## Giving a handle back, and what it stands for -/

/-- What is done once the handle's slot has been found in use. -/
def release (arr : KHandleArray Obj) (handle : Int) (block2 block3 : KHandleArrayBlock Obj) :
    KHandleArray Obj :=
  let arr := arr.setUsed (arr.topLevel.usedIndexes - 1)
  let block3 : KHandleArrayBlock Obj :=
    ⟨update block3.array (index3 handle) .empty, block3.usedIndexes - 1⟩
  if block3.usedIndexes = 0 then
    let arr := arr.CacheBlock block3
    let block2 : KHandleArrayBlock Obj :=
      ⟨update block2.array (index2 handle) .empty, block2.usedIndexes - 1⟩
    if block2.usedIndexes = 0 then (arr.CacheBlock block2).setTop (index1 handle) .empty
    else arr.setTop (index1 handle) block2.slot
  else
    let block2 := { block2 with array := update block2.array (index2 handle) block3.slot }
    arr.setTop (index1 handle) block2.slot

def FreeHandle_trw (arr : KHandleArray Obj) (handle : Int) :
    Option (Except PErrorCode Unit × KHandleArray Obj) :=
  match arr.topLevel.array (index1 handle) with
  | .empty => some (.error .inval, arr)
  | .object _ => none
  | .block used2 array2 =>
    match array2 (index2 handle) with
    | .empty => some (.error .inval, arr)
    | .object _ => none
    | .block used3 array3 =>
      if (array3 (index3 handle)).isEmpty then some (.error .inval, arr)
      else some (.ok (), arr.release handle ⟨array2, used2⟩ ⟨array3, used3⟩)

def Set (arr : KHandleArray Obj) (handle : Int) (object : Option Obj) :
    Option (KHandleArray Obj) :=
  match arr.topLevel.array (index1 handle) with
  | .empty => some arr
  | .object _ => none
  | .block used2 array2 =>
    match array2 (index2 handle) with
    | .empty => some arr
    | .object _ => none
    | .block used3 array3 =>
      let block3 : HandleSlot Obj :=
        .block used3 (update array3 (index3 handle) (.object object))
      some (arr.setTop (index1 handle)
        (.block used2 (update array2 (index2 handle) block3)))

end KHandleArray

end PadOS.Kernel
