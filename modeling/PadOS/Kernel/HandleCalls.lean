import PadOS.Kernel.HandleMap

/-!
# Runs of the handle array

A handle is taken after the live ones that come before it, with blocks from the reserve, which is
filled again when it has too few. The calls of a run keep the array a map as long as none frees a
value outside the handle space that stands for a live handle.
-/

namespace PadOS.Kernel.KHandleArray

open Option

open CountedTree (Counted)

variable {Obj : Type*}

/-! ## The loop of `AllocHandle` -/

variable (arr : KHandleArray Obj)

/-- With enough steps the loop returns. -/
def LoopEnds (needBuffers allocBuffersFailed : Bool)
    (allocations : Nat → Bool) (result : Except PErrorCode Int) (after : KHandleArray Obj) : Prop :=
  ∃ enough, ∀ steps, enough ≤ steps →
    allocLoop steps arr needBuffers allocBuffersFailed allocations = some (result, after)

/-- With enough steps the head of the loop gets past. -/
def Refills (needBuffers allocBuffersFailed : Bool)
    (allocations : Nat → Bool)
    (behind : KHandleArray Obj × Bool × Bool × (Nat → Bool)) : Prop :=
  ∃ enough, ∀ steps, enough ≤ steps →
    refill steps arr needBuffers allocBuffersFailed allocations = some behind

section Loop

variable {arr refilled next after : KHandleArray Obj} {need failed need' failed' : Bool}
  {allocations allocations' : Nat → Bool} {handle : Int} {result : Except PErrorCode Int}

theorem loopEnds_of_refills {behind : KHandleArray Obj × Bool × Bool × (Nat → Bool)}
    (refills : Refills arr need failed allocations behind)
    (rest : ∃ enough, ∀ steps, enough ≤ steps →
      refill steps arr need failed allocations = some behind →
        allocLoop (steps + 1) arr need failed allocations = some (result, after)) :
    LoopEnds arr need failed allocations result after := by
  rcases refills with ⟨enough, past⟩
  rcases rest with ⟨more, ends⟩
  refine ⟨max enough more + 1, fun steps long => ?_⟩
  cases steps with
  | zero => omega
  | succ steps => exact ends steps (by omega) (past steps (by omega))

theorem loopEnds_taken
    (refills : Refills arr need failed allocations (refilled, need', failed', allocations'))
    (takes : refilled.takeNext = some (.taken handle, after)) :
    LoopEnds arr need failed allocations (.ok handle) after := by
  refine loopEnds_of_refills refills ⟨0, fun steps _ past => ?_⟩
  rw [allocLoop, past]
  simp only [takes]

theorem loopEnds_nomem
    (refills : Refills arr need failed allocations (refilled, need', true, allocations'))
    (takes : refilled.takeNext = some (.noBlock, after)) :
    LoopEnds arr need failed allocations (.error .nomem) after := by
  refine loopEnds_of_refills refills ⟨0, fun steps _ past => ?_⟩
  rw [allocLoop, past]
  simp only [takes, if_true]

theorem loopEnds_wrapped
    (refills : Refills arr need failed allocations (refilled, need', failed', allocations'))
    (takes : refilled.takeNext = some (.wrapped, next))
    (rest : LoopEnds next need' failed' allocations' result after) :
    LoopEnds arr need failed allocations result after := by
  rcases rest with ⟨enough, ends⟩
  refine loopEnds_of_refills refills ⟨enough, fun steps long past => ?_⟩
  rw [allocLoop, past]
  simp only [takes]
  exact ends steps long

/-- The loop tries the same handle again. -/
def again (arr : KHandleArray Obj) : KHandleArray Obj :=
  { arr with nextHandle := arr.nextHandle - 1 }

theorem loopEnds_again
    (refills : Refills arr need failed allocations (refilled, need', false, allocations'))
    (takes : refilled.takeNext = some (.noBlock, next))
    (rest : LoopEnds next.again true false allocations' result after) :
    LoopEnds arr need failed allocations result after := by
  rcases rest with ⟨enough, ends⟩
  refine loopEnds_of_refills refills ⟨enough, fun steps long past => ?_⟩
  rw [allocLoop, past]
  simp only [takes, Bool.false_eq_true, if_false]
  exact ends steps long

theorem refills_idle : Refills arr false failed allocations (arr, false, failed, allocations) :=
  ⟨0, fun _ _ => by simp [refill]⟩

/-- The allocations that are left behind the first. -/
def later (allocations : Nat → Bool) : Nat → Bool := fun n => allocations (n + 1)

theorem refills_one (ok : arr.ReserveOk) (one : arr.cachedBlockCount = 1)
    (gets : allocations 0 = true) :
    Refills arr true failed allocations
      (arr.CacheBlock .fresh, false, failed, later allocations) := by
  refine ⟨1, fun steps long => ?_⟩
  have count := (CacheBlock_fresh ok).2.2 (by omega)
  cases steps with
  | zero => omega
  | succ steps =>
    simp [refill, AllocBuffers, fillReserve, gets, count, one]
    rfl

theorem refills_one_failing (one : arr.cachedBlockCount = 1) (fails : allocations 0 = false) :
    Refills arr true failed allocations (arr, false, failed, later allocations) := by
  refine ⟨1, fun steps long => ?_⟩
  cases steps with
  | zero => omega
  | succ steps =>
    simp [refill, AllocBuffers, fillReserve, fails, one]
    rfl

theorem refills_none (none_ : arr.cachedBlockCount = 0) (fails : allocations 0 = false) :
    Refills arr true failed allocations (arr, false, true, later allocations) := by
  refine ⟨1, fun steps long => ?_⟩
  cases steps with
  | zero => omega
  | succ steps =>
    simp [refill, AllocBuffers, fillReserve, fails, none_]
    rfl

theorem refills_both (ok : arr.ReserveOk) (none_ : arr.cachedBlockCount = 0)
    (gets : allocations 0 = true) :
    Refills arr true failed allocations
      (if allocations 1 then (arr.CacheBlock .fresh).CacheBlock .fresh else arr.CacheBlock .fresh,
        false, failed, later (later allocations)) := by
  refine ⟨2, fun steps long => ?_⟩
  have cached := CacheBlock_fresh ok
  have count := cached.2.2 (by omega)
  have count' := (CacheBlock_fresh cached.1).2.2 (by omega)
  match steps, long with
  | steps + 2, _ =>
    by_cases second : allocations 1 = true
    · simp [refill, AllocBuffers, fillReserve, gets, second, count, count', none_]
      rfl
    · simp [refill, AllocBuffers, fillReserve, gets, second, count, none_]
      rfl

end Loop

/-! ## What a call returns with -/

/-- A handle that was not live is added, or the tree is as it was. -/
def AllocOutcome (result : Except PErrorCode Int)
    (after : KHandleArray Obj) : Prop :=
  after.Consistent ∧ match result with
    | .ok handle => arr.Adds handle none after
    | .error code => code = .nomem ∧ after.topLevel = arr.topLevel

/-- The loop returns in the end. -/
def LoopReturns (needBuffers allocBuffersFailed : Bool)
    (allocations : Nat → Bool) : Prop :=
  ∃ result after, LoopEnds arr needBuffers allocBuffersFailed allocations result after ∧
    AllocOutcome arr result after

section Outcome

variable {arr other after : KHandleArray Obj} {need failed need' failed' : Bool}
  {allocations allocations' : Nat → Bool} {result : Except PErrorCode Int}

theorem lookup_congr (same : other.topLevel = arr.topLevel) (handle : Int) :
    other.lookup handle = arr.lookup handle := by
  rw [lookup, same, lookup]

theorem AllocOutcome.of_topLevel (outcome : other.AllocOutcome result after)
    (same : other.topLevel = arr.topLevel) : arr.AllocOutcome result after := by
  cases result with
  | error code => exact ⟨outcome.1, outcome.2.1, outcome.2.2.trans same⟩
  | ok handle =>
    have adds := outcome.2
    refine ⟨outcome.1, fun live => adds.wasFree ⟨live.1, ?_⟩, adds.inSpace, fun next inSpace => ?_⟩
    · rw [lookup_congr same]
      exact live.2
    · rw [adds.lookup next inSpace, lookup_congr same]

theorem Consistent.of_topLevel (consistent : arr.Consistent)
    (same : other.topLevel = arr.topLevel) (reserve : other.ReserveOk) : other.Consistent := by
  refine ⟨fun i => ?_, ?_, reserve⟩
  · rw [same]
    exact consistent.blocks i
  · rw [same, consistent.handles, liveHandles, liveHandles]
    simp only [lookup_congr same]

theorem loopReturns_of_enough {refilled : KHandleArray Obj}
    (refills : Refills arr need failed allocations (refilled, need', failed', allocations'))
    (consistent : refilled.Consistent) (same : refilled.topLevel = arr.topLevel)
    (free : refilled.lookup refilled.nextNumber = .empty)
    (enough : needed (refilled.topLevel.array (index1 refilled.nextNumber)) refilled.nextNumber ≤
      refilled.cachedBlockCount) : LoopReturns arr need failed allocations := by
  rcases takeNext_free consistent.reserve consistent.blocks free with
    ⟨_, after, takes, taken⟩ | ⟨short, _⟩
  · have ends := consistent.passed.takes nextNumber_inSpace free taken
    have outcome : refilled.passed.AllocOutcome (.ok refilled.nextNumber) after := ends
    exact ⟨_, after, loopEnds_taken refills takes, outcome.of_topLevel same⟩
  · omega

/-- Of a free handle that there are not blocks enough for. -/
structure Short (arr : KHandleArray Obj) (missing : Int) : Prop where
  consistent : arr.Consistent
  free : arr.lookup arr.nextNumber = .empty
  count : arr.cachedBlockCount < missing
  needed : needed (arr.topLevel.array (index1 arr.nextNumber)) arr.nextNumber = missing

theorem nextNumber_congr (same : other.nextHandle = arr.nextHandle) :
    other.nextNumber = arr.nextNumber := by
  rw [nextNumber, same, nextNumber]

theorem NoBlock.again (noBlock : arr.NoBlock after) :
    after.again.topLevel = arr.topLevel ∧ after.again.nextHandle = arr.nextHandle ∧
      after.again.cachedBlockCount = arr.cachedBlockCount ∧ after.again.ReserveOk := by
  have next := noBlock.next
  refine ⟨noBlock.topLevel, ?_, noBlock.count,
    ⟨noBlock.reserve.places, noBlock.reserve.fresh, noBlock.reserve.counted⟩⟩
  simp only [KHandleArray.again]
  omega

variable {missing : Int}

theorem Short.again (short : arr.Short missing) :
    ∃ after, arr.takeNext = some (.noBlock, after) ∧ arr.NoBlock after ∧
      after.again.Short missing := by
  rcases takeNext_free short.consistent.reserve short.consistent.blocks short.free with
    ⟨enough, _⟩ | ⟨_, after, takes, noBlock⟩
  · exact absurd enough (by rw [short.needed]; exact not_le.mpr short.count)
  · have ⟨top, next, count, reserve⟩ := noBlock.again
    refine ⟨after, takes, noBlock, short.consistent.of_topLevel top reserve, ?_, ?_, ?_⟩
    · rw [lookup_congr top, nextNumber_congr next]
      exact short.free
    · rw [count]
      exact short.count
    · rw [top, nextNumber_congr next]
      exact short.needed

theorem Short.returns_of_filled {refilled : KHandleArray Obj}
    (short : arr.Short missing)
    (refills : Refills arr need failed allocations (refilled, need', failed', allocations'))
    (reserve : refilled.ReserveOk) (same : arr.SameTree refilled)
    (enough : missing ≤ refilled.cachedBlockCount) : LoopReturns arr need failed allocations := by
  refine loopReturns_of_enough refills (short.consistent.of_topLevel same.1 reserve) same.1 ?_ ?_
  · rw [lookup_congr same.1, nextNumber_congr same.2]
    exact short.free
  · rw [same.1, nextNumber_congr same.2, short.needed]
    exact enough

theorem Short.returns_of_one (short : arr.Short 2) (one : arr.cachedBlockCount = 1)
    (gets : ∃ n, allocations n = true) : LoopReturns arr true false allocations := by
  have reserve := short.consistent.reserve
  have got {allocations : Nat → Bool} {arr : KHandleArray Obj} (short : arr.Short 2)
      (one : arr.cachedBlockCount = 1) (first : allocations 0 = true) :
      LoopReturns arr true false allocations := by
    have cached := CacheBlock_fresh short.consistent.reserve
    have count := cached.2.2 (by omega)
    exact short.returns_of_filled (refills_one short.consistent.reserve one first) cached.1
      cached.2.1 (by omega)
  rcases gets with ⟨n, gets⟩
  induction n generalizing arr allocations with
  | zero => exact got short one gets
  | succ n ih =>
    cases first : allocations 0 with
    | true => exact got short one first
    | false =>
      rcases short.again with ⟨after, takes, noBlock, still⟩
      have ⟨top, _, count, reserve⟩ := noBlock.again
      rcases @ih after.again (later allocations) still (count.trans one) reserve gets with
        ⟨result, last, ends, outcome⟩
      exact ⟨result, last, loopEnds_again (refills_one_failing one first) takes ends,
        outcome.of_topLevel top⟩

theorem Short.returns_of_none (short : arr.Short missing) (most : missing ≤ 2)
    (none_ : arr.cachedBlockCount = 0)
    (gets : missing = 2 → allocations 0 = true → ∃ n, allocations (n + 1) = true) :
    LoopReturns arr true false allocations := by
  have reserve := short.consistent.reserve
  cases first : allocations 0 with
  | false =>
    rcases short.again with ⟨after, takes, noBlock, _⟩
    exact ⟨_, after, loopEnds_nomem (refills_none none_ first) takes,
      short.consistent.of_topLevel noBlock.topLevel noBlock.reserve, rfl, noBlock.topLevel⟩
  | true =>
    have refills : Refills arr true false allocations _ := refills_both reserve none_ first
    have cached := CacheBlock_fresh reserve
    have count := cached.2.2 (by omega)
    cases second : allocations 1 with
    | true =>
      have twice := CacheBlock_fresh cached.1
      have count' := twice.2.2 (by omega)
      rw [second, if_pos rfl] at refills
      exact short.returns_of_filled refills twice.1
        ⟨twice.2.1.1.trans cached.2.1.1, twice.2.1.2.trans cached.2.1.2⟩ (by omega)
    | false =>
      rw [second, if_neg Bool.false_ne_true] at refills
      by_cases single : missing ≤ 1
      · exact short.returns_of_filled refills cached.1 cached.2.1 (by omega)
      · have two : missing = 2 := by omega
        subst two
        have still : (arr.CacheBlock .fresh).Short 2 := by
          refine ⟨short.consistent.of_topLevel cached.2.1.1 cached.1, ?_, by omega, ?_⟩
          · rw [lookup_congr cached.2.1.1, nextNumber_congr cached.2.1.2]
            exact short.free
          · rw [cached.2.1.1, nextNumber_congr cached.2.1.2]
            exact short.needed
        rcases still.again with ⟨after, takes, noBlock, retried⟩
        have ⟨top, _, kept, _⟩ := noBlock.again
        have succeeds : ∃ n, later (later allocations) n = true := by
          rcases gets rfl first with ⟨n, gets⟩
          cases n with
          | zero =>
            rw [second] at gets
            cases gets
          | succ n => exact ⟨n, gets⟩
        rcases retried.returns_of_one (by omega) succeeds with ⟨result, last, ends, outcome⟩
        exact ⟨result, last, loopEnds_again refills takes ends,
          outcome.of_topLevel (top.trans cached.2.1.1)⟩

/-- The handle that is tried behind some others. -/
def handleAt (arr : KHandleArray Obj) (passed : Nat) : Int :=
  ((arr.nextHandle + passed) % 2 ^ 24 : Nat)

/-- A handle is free, and where the first one that is needs two blocks of which one is there or
got, a later allocation succeeds. -/
def CanAlloc (arr : KHandleArray Obj) (allocations : Nat → Bool) : Prop :=
  ∃ passed, (∀ before, before < passed → arr.lookup (arr.handleAt before) ≠ .empty) ∧
    arr.lookup (arr.handleAt passed) = .empty ∧
    (needed (arr.topLevel.array (index1 (arr.handleAt passed))) (arr.handleAt passed) = 2 →
      (arr.cachedBlockCount = 1 → ∃ n, allocations n = true) ∧
      (arr.cachedBlockCount = 0 → allocations 0 = true → ∃ n, allocations (n + 1) = true))

theorem needed_le (slot : HandleSlot Obj) (handle : Int) : needed slot handle ≤ 2 := by
  cases slot with
  | empty => exact le_rfl
  | object value => exact le_rfl
  | block used array =>
    simp only [needed]
    split <;> decide

theorem handleAt_passed (passed : Nat) :
    arr.passed.handleAt passed = arr.handleAt (passed + 1) := by
  simp only [handleAt, KHandleArray.passed]
  congr 2
  omega

theorem Consistent.allocLoop (consistent : arr.Consistent)
    (can : arr.CanAlloc allocations) : LoopReturns arr false false allocations := by
  rcases can with ⟨passed, live, free, gets⟩
  induction passed generalizing arr with
  | zero =>
    have nextEq : arr.handleAt 0 = arr.nextNumber := rfl
    rw [nextEq] at free gets
    by_cases enough : needed (arr.topLevel.array (index1 arr.nextNumber)) arr.nextNumber ≤
        arr.cachedBlockCount
    · exact loopReturns_of_enough refills_idle consistent rfl free enough
    · have short : arr.Short (needed (arr.topLevel.array (index1 arr.nextNumber)) arr.nextNumber) :=
        ⟨consistent, free, not_le.mp enough, rfl⟩
      rcases short.again with ⟨after, takes, noBlock, still⟩
      have ⟨top, _, count, _⟩ := noBlock.again
      have most := needed_le (arr.topLevel.array (index1 arr.nextNumber)) arr.nextNumber
      have count_nonneg : 0 ≤ arr.cachedBlockCount := by
        rw [consistent.reserve.counted]
        omega
      have returns : LoopReturns after.again true false allocations := by
        by_cases none_ : arr.cachedBlockCount = 0
        · exact still.returns_of_none most (count.trans none_) fun two => (gets two).2 none_
        · have two : needed (arr.topLevel.array (index1 arr.nextNumber)) arr.nextNumber = 2 := by
            omega
          have one : arr.cachedBlockCount = 1 := by omega
          rw [two] at still
          exact still.returns_of_one (count.trans one) ((gets two).1 one)
      rcases returns with ⟨result, last, ends, outcome⟩
      exact ⟨result, last, loopEnds_again refills_idle takes ends, outcome.of_topLevel top⟩
  | succ passed ih =>
    have wraps := takeNext_wrapped consistent.blocks (live 0 (by omega))
    have behind : LoopReturns arr.passed false false allocations := by
      refine ih consistent.passed (fun before less => ?_) ?_ ?_
      · rw [handleAt_passed]
        exact live (before + 1) (by omega)
      · rw [handleAt_passed]
        exact free
      · rw [handleAt_passed]
        exact gets
    rcases behind with ⟨result, last, ends, outcome⟩
    exact ⟨result, last, loopEnds_wrapped refills_idle wraps ends, outcome.of_topLevel rfl⟩

end Outcome

/-! ## Runs of calls -/

inductive Call (Obj : Type*) where
  | alloc (allocations : Nat → Bool)
  | set (handle : Int) (object : Option Obj)
  | free (handle : Int)

/-- The array that a call returns with. -/
def Returns (after : KHandleArray Obj) : Call Obj → Prop
  | .alloc allocations => ∃ result, LoopEnds arr false false allocations result after
  | .set handle object => arr.Set handle object = some after
  | .free handle => ∃ result, arr.FreeHandle_trw handle = some (result, after)

/-- The calls that keep the array a map. -/
def Fit : Call Obj → Prop
  | .alloc allocations => arr.CanAlloc allocations
  | .set handle _ => arr.HasBlocks handle → arr.lookup handle ≠ .empty
  | .free handle => InSpace handle ∨ arr.lookup handle = .empty

/-- What a call on a map does. -/
def ActsAsMap : Call Obj → Prop
  | .alloc allocations =>
    ∃ steps result after, arr.AllocHandle steps allocations = some (result, after) ∧
      (result = .error .nomem ∧ after.liveHandles = arr.liveHandles ∨
        ∃ handle, result = .ok handle ∧ arr.Adds handle none after)
  | .set handle object =>
    ∃ after, arr.Set handle object = some after ∧
      (after = arr ∨ arr.Changes (number handle) object after)
  | .free handle =>
    (arr.Live handle →
      ∃ after, arr.FreeHandle_trw handle = some (.ok (), after) ∧ arr.Removes handle after) ∧
    (¬arr.Live handle → arr.FreeHandle_trw handle = some (.error .inval, arr))

/-- The arrays that calls that fit lead to. -/
inductive Reached : KHandleArray Obj → Prop
  | start : Reached empty
  | call {arr after : KHandleArray Obj} {call : Call Obj} (reached : Reached arr)
      (fit : arr.Fit call) (returns : arr.Returns after call) : Reached after

section Runs

variable {arr after : KHandleArray Obj} {call : Call Obj}

theorem consistent_empty : (empty : KHandleArray Obj).Consistent := by
  refine ⟨fun _ => CountedTree.counted_empty, ?_, rfl, ?_, rfl⟩
  · have none_ : (empty : KHandleArray Obj).liveHandles = ∅ := by
      ext handle
      simp [mem_liveHandles, Live, lookup, empty, KHandleArrayBlock.fresh]
    rw [none_]
    rfl
  · intro block member
    simp [empty] at member

theorem LoopEnds.unique {result result' : Except PErrorCode Int} {after' : KHandleArray Obj}
    {need failed : Bool} {allocations : Nat → Bool}
    (ends : LoopEnds arr need failed allocations result after)
    (ends' : LoopEnds arr need failed allocations result' after') :
    result = result' ∧ after = after' := by
  rcases ends with ⟨enough, ends⟩
  rcases ends' with ⟨enough', ends'⟩
  have same := (ends (max enough enough') (le_max_left _ _)).symm.trans
    (ends' (max enough enough') (le_max_right _ _))
  exact Prod.mk.inj (some.inj same)

theorem Consistent.returns (consistent : arr.Consistent) (fit : arr.Fit call)
    (returns : arr.Returns after call) : after.Consistent := by
  cases call with
  | alloc allocations =>
    rcases returns with ⟨result, ends⟩
    rcases consistent.allocLoop fit with ⟨result', after', ends', outcome⟩
    exact (ends.unique ends').2 ▸ outcome.1
  | set handle object =>
    by_cases built : arr.HasBlocks handle
    · rcases @Set_of_filled Obj arr handle object consistent (fit built) with
        ⟨after', set, kept, _⟩
      exact some.inj (set.symm.trans returns) ▸ kept
    · have same := (Set_of_not_hasBlocks consistent built).symm.trans returns
      exact some.inj same ▸ consistent
  | free handle =>
    rcases returns with ⟨result, frees⟩
    rcases @FreeHandle_trw_cases Obj arr handle consistent with
      ⟨_, throws⟩ | ⟨filled, after', frees', released⟩
    · have same := some.inj (throws.symm.trans frees)
      exact (Prod.mk.inj same).2 ▸ consistent
    · have same := some.inj (frees'.symm.trans frees)
      have live : arr.Live handle := ⟨fit.resolve_right filled, filled⟩
      exact (Prod.mk.inj same).2 ▸ (consistent.released live released).1

theorem Reached.consistent (reached : Reached arr) : arr.Consistent := by
  induction reached with
  | start => exact consistent_empty
  | call _ fit returns ih => exact ih.returns fit returns

theorem liveHandles_congr (same : after.topLevel = arr.topLevel) :
    after.liveHandles = arr.liveHandles := by
  rw [liveHandles, liveHandles]
  simp only [lookup_congr same]

theorem Consistent.actsAsMap (consistent : arr.Consistent) (fit : arr.Fit call) :
    arr.ActsAsMap call := by
  cases call with
  | alloc allocations =>
    rcases consistent.allocLoop fit with ⟨result, after, ⟨enough, ends⟩, outcome⟩
    refine ⟨enough, result, after, ends enough le_rfl, ?_⟩
    cases result with
    | error code =>
      rcases outcome with ⟨_, rfl, same⟩
      exact .inl ⟨rfl, liveHandles_congr same⟩
    | ok handle => exact .inr ⟨handle, rfl, outcome.2⟩
  | set handle object =>
    by_cases built : arr.HasBlocks handle
    · rcases @Set_of_filled Obj arr handle object consistent (fit built) with
        ⟨after, set, _, changes⟩
      exact ⟨after, set, .inr changes⟩
    · exact ⟨arr, Set_of_not_hasBlocks consistent built, .inl rfl⟩
  | free handle =>
    rcases @FreeHandle_trw_cases Obj arr handle consistent with
      ⟨none_, throws⟩ | ⟨filled, after, frees, released⟩
    · exact ⟨fun live => absurd none_ live.2, fun _ => throws⟩
    · have live : arr.Live handle := ⟨fit.resolve_right filled, filled⟩
      exact ⟨fun _ => ⟨after, frees, (consistent.released live released).2⟩,
        fun dead => absurd live dead⟩

/-- In every run of calls that fit the array is a map with its counts in order, and each call that
fits acts on it as on a map. -/
theorem handleArray_actsAsMap (reached : Reached arr) :
    arr.Consistent ∧ ∀ call, arr.Fit call → arr.ActsAsMap call :=
  ⟨reached.consistent, fun _ fit => reached.consistent.actsAsMap fit⟩

/-- A handle is given out, gets an object and is freed. -/
theorem handleArray_actsAsMap_empty : ∃ arr : KHandleArray Unit, Reached arr ∧ arr.nextHandle = 1 ∧
    arr.Consistent ∧ ∀ call, arr.Fit call → arr.ActsAsMap call := by
  have fit : (empty : KHandleArray Unit).Fit (.alloc fun _ => true) :=
    ⟨0, fun _ none => absurd none (Nat.not_lt_zero _), rfl,
      fun _ => ⟨fun _ => ⟨0, rfl⟩, fun _ _ => ⟨0, rfl⟩⟩⟩
  have allocated : Reached (((empty : KHandleArray Unit).AllocHandle 4 fun _ => true).get rfl).2 := by
    refine .call .start fit ⟨.ok 0, 4, fun steps enough => ?_⟩
    obtain ⟨rounds, rfl⟩ := Nat.exists_eq_add_of_le' enough
    rfl
  have set := allocated.call (show Fit _ (.set 0 (some ())) from fun _ same => by cases same) rfl
  have freed := set.call (show Fit _ (.free 0) from .inl ⟨by decide, by decide⟩) ⟨_, rfl⟩
  exact ⟨_, freed, rfl, handleArray_actsAsMap freed⟩

/-- Freeing a value outside the handle space takes away the handle of its low 24 bits. -/
theorem alias_freed :
    ((empty : KHandleArray Unit).AllocHandle 4 fun _ => true).bind (fun (_, arr) =>
      (arr.FreeHandle_trw 0x1000000).map fun (result, after) =>
        (result, (arr.lookup 0).isEmpty, (after.lookup 0).isEmpty)) =
      some (.ok (), false, true) := by
  rfl

end Runs

end PadOS.Kernel.KHandleArray
