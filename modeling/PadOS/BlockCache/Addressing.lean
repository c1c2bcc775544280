import PadOS.BlockCache.Pool

/-! # Where a block lies in its buffer

`SetDevice` fixes, with the block size, how a block number is split into the
buffer that holds the block and its place there. The split stays for the whole
time the device is attached.
-/

namespace PadOS.BlockCache

open Transition Option State KBlockCache

variable {n : Nat} {s t u : State n} {c c' : CacheId} {h : Fin n}

/-- The fields `GetBlock_trw` splits a block number with. -/
def KBlockCache.geometry (c : KBlockCache n) : Nat × Nat × Nat :=
  (c.blockSize, c.blockToBufferShift, c.bufferOffsetMask)

theorem KBlockCache.bufferNum_of_geometry {c c' : KBlockCache n} (same : c.geometry = c'.geometry)
    (blockNum : Nat) : c.bufferNum blockNum = c'.bufferNum blockNum := by
  simp only [geometry, Prod.mk.injEq] at same
  simp only [bufferNum, same]

theorem KBlockCache.blockOffset_of_geometry {c c' : KBlockCache n}
    (same : c.geometry = c'.geometry) (blockNum : Nat) :
    c.blockOffset blockNum = c'.blockOffset blockNum := by
  simp only [geometry, Prod.mk.injEq] at same
  simp only [blockOffset, same]

/-! ## Where the calls point -/

/-- A call that returns points at the buffer its block number was split into,
and the map holds that buffer. -/
theorem State.getBlock_returns {blockNum offset : Nat} {read : ReadOutcome}
    (result : s.getBlock c blockNum read = (.returns h offset, t)) :
    (t.cache c).blockMap ((s.cache c).bufferNum blockNum) = some h ∧
      offset = (s.cache c).blockOffset blockNum := by
  have loaded {s' : State n} {v : Fin n}
      (same : (s'.cache c).geometry = (s.cache c).geometry)
      (result : s'.loadBlock c v blockNum read = (.returns h offset, t)) :
      (t.cache c).blockMap ((s.cache c).bufferNum blockNum) = some h ∧
        offset = (s.cache c).blockOffset blockNum := by
    unfold loadBlock at result
    dsimp only at result
    split at result
    · cases result
    · simp only [Prod.mk.injEq, Pass.returns.injEq] at result
      obtain ⟨⟨rfl, rfl⟩, rfl⟩ := result
      rw [← bufferNum_of_geometry same, ← blockOffset_of_geometry same]
      simp
  cases s.getBlock_cases c blockNum read with
  | hit h' found cached passed =>
    rw [passed] at result
    simp only [Prod.mk.injEq, Pass.returns.injEq] at result
    obtain ⟨⟨rfl, rfl⟩, rfl⟩ := result
    exact ⟨found, rfl⟩
  | stale h' found gone passed =>
    rw [passed] at result
    cases result
  | fromFree v missing last passed =>
    rw [passed] at result
    refine loaded ?_ result
    rfl
  | evicted v evicts passed =>
    rw [passed] at result
    refine loaded ?_ result
    simp [evict, setBlockMap, geometry]
  | refused pass missing noBlock passed =>
    rw [passed] at result
    rcases noBlock with rfl | rfl <;> cases result
  | requested v missing passed =>
    rw [passed] at result
    cases result

/-- The bytes `[offset, offset + size)` of one buffer have nothing in common with
`[offset', offset' + size)`. -/
def Apart (size offset offset' : Nat) : Prop := offset + size ≤ offset' ∨ offset' + size ≤ offset

/-- Blocks of `size` bytes are where the device has them: each lies within its
buffer, at the buffer's place for the block's device offset, different blocks
share no byte, and a call points there. -/
structure State.AddressesBlocks (s : State n) (c : CacheId) (size : Nat) : Prop where
  exact : ∀ blockNum,
    (s.cache c).bufferNum blockNum * bufferBlockSize + (s.cache c).blockOffset blockNum =
      blockNum * size
  inside : ∀ blockNum, (s.cache c).blockOffset blockNum + size ≤ bufferBlockSize
  apart : ∀ blockNum blockNum', blockNum ≠ blockNum' →
    (s.cache c).bufferNum blockNum = (s.cache c).bufferNum blockNum' →
    Apart size ((s.cache c).blockOffset blockNum) ((s.cache c).blockOffset blockNum')
  pointed : ∀ blockNum read h offset t, s.getBlock c blockNum read = (.returns h offset, t) →
    (t.cache c).blockMap ((s.cache c).bufferNum blockNum) = some h ∧
      offset = (s.cache c).blockOffset blockNum

/-! ## The split while a device is attached -/

/-- Every operation but `SetDevice` of this cache and its destruction. -/
def KeepsGeometry (c : CacheId) : Condition (State n) (Op n) := fun _ op =>
  match op with
  | .setDevice c' _ _ _ => c' ≠ c
  | .destroy c' => c' ≠ c
  | _ => True

theorem State.setBlockMap_geometry (c' b : Nat) (entry : Option (Fin n)) :
    ((s.setBlockMap c' b entry).cache c).geometry = (s.cache c).geometry := by
  unfold setBlockMap
  by_cases same : c = c'
  · subst same
    simp [geometry]
  · simp [same]

theorem State.loadBlock_geometry (blockNum : Nat) (read : ReadOutcome) :
    ((s.loadBlock c' h blockNum read).2.cache c).geometry = (s.cache c).geometry := by
  unfold loadBlock
  dsimp only
  split
  · rfl
  · exact setBlockMap_geometry _ _ _

theorem State.getBlock_geometry (blockNum : Nat) (read : ReadOutcome) :
    ((s.getBlock c' blockNum read).2.cache c).geometry = (s.cache c).geometry := by
  cases s.getBlock_cases c' blockNum read with
  | hit h found cached result => exact result ▸ rfl
  | stale h found gone result => exact result ▸ rfl
  | fromFree h missing last result => exact result ▸ loadBlock_geometry _ _
  | evicted v evicts result =>
    rw [result]
    exact (loadBlock_geometry _ _).trans (setBlockMap_geometry _ _ _)
  | refused pass missing noBlock result => exact result ▸ rfl
  | requested v missing result => exact result ▸ rfl

theorem State.setDevice_cache_of_ne (other : c ≠ c') (device : Int) (count size : Nat) :
    (s.setDevice c' device count size).2.cache c = s.cache c := by
  unfold setDevice
  dsimp only
  split
  · exact detachDevice_cache_of_ne s other
  split
  · exact detachDevice_cache_of_ne s other
  · exact (Function.update_of_ne other _ _).trans (detachDevice_cache_of_ne s other)

theorem geometry_of_step {op : Op n} (meets : KeepsGeometry c s op) (applies : step s op = some t) :
    (t.cache c).geometry = (s.cache c).geometry := by
  cases steps_of_step applies with
  | getBlock => exact getBlock_geometry _ _
  | marks | markDirty => rw [(SamePool.setDirty _).cache]
  | passes | modify | transfer => rfl
  | release => rw [SamePool.removeRef.cache]
  | setDevice => rw [setDevice_cache_of_ne (Ne.symm meets)]
  | destroy =>
    unfold destroy
    dsimp only
    rw [Function.update_of_ne (Ne.symm meets), setDevice_cache_of_ne (Ne.symm meets)]
  | flush => rw [Calms.flushInternal.cache]
  | beginRound => rw [(Calms.beginRound _ _).cache]
  | writeDone => rw [(Calms.finishWrite _ _).cache]

theorem geometry_of_reaches (run : (system n).Reaches (KeepsGeometry c) s t) :
    (t.cache c).geometry = (s.cache c).geometry :=
  run.invariant (fun t => (t.cache c).geometry = (s.cache c).geometry) rfl
    fun same meets applies => (geometry_of_step meets applies).trans same

/-! ## The accepted sizes -/

theorem State.setDevice_geometry {device : Int} {count size : Nat}
    (accepted : s.setDevice c device count size = (true, t)) (attached : device ≠ -1) :
    (blockSizeGeometry size).2.2.2 = true ∧ (t.cache c).geometry =
        (size, (blockSizeGeometry size).2.1, (blockSizeGeometry size).2.2.1) := by
  unfold setDevice at accepted
  dsimp only at accepted
  split at accepted
  · cases accepted
  unfold attachDevice at accepted
  simp only [Prod.mk.injEq] at accepted
  obtain ⟨supported, rfl⟩ := accepted
  exact ⟨supported, by simp [geometry]⟩

theorem blockSizeGeometry_supported {size : Nat} (supported : (blockSizeGeometry size).2.2.2 = true) :
    size = 512 ∨ size = 1024 ∨ size = 2048 ∨ size = 4096 := by
  unfold blockSizeGeometry at supported
  split at supported
  · exact .inl rfl
  · exact .inr (.inl rfl)
  · exact .inr (.inr (.inl rfl))
  · exact .inr (.inr (.inr rfl))
  · cases supported

theorem State.AddressesBlocks.size_le {size : Nat} (addresses : s.AddressesBlocks c size) :
    size ≤ bufferBlockSize :=
  (Nat.le_add_left _ _).trans (addresses.inside 0)

theorem State.addressesBlocks_of_whole (whole : (s.cache c).geometry = (bufferBlockSize, 0, 0)) :
    s.AddressesBlocks c bufferBlockSize := by
  simp only [geometry, Prod.mk.injEq] at whole
  obtain ⟨_, shift, mask⟩ := whole
  have number blockNum : (s.cache c).bufferNum blockNum = blockNum := by
    simp [bufferNum, shift]
  have offset blockNum : (s.cache c).blockOffset blockNum = 0 := by
    simp [blockOffset, mask]
  refine ⟨fun blockNum => ?_, fun blockNum => ?_, fun blockNum blockNum' differ same => ?_,
    fun _ _ _ _ _ result => getBlock_returns result⟩
  · rw [number, offset, Nat.add_zero]
  · rw [offset, Nat.zero_add]
  · rw [number, number] at same
    exact absurd same differ

/-- As long as a device stays attached its blocks are addressed exactly when they
are as large as a buffer, whatever other size `SetDevice` accepted. -/
theorem setDevice_addressesBlocks {device : Int} {count size : Nat}
    (accepted : s.setDevice c device count size = (true, t)) (attached : device ≠ -1)
    (run : (system n).Reaches (KeepsGeometry c) t u) :
    u.AddressesBlocks c size ↔ size = bufferBlockSize := by
  obtain ⟨supported, geometry⟩ := setDevice_geometry accepted attached
  constructor
  · intro addresses
    have small := addresses.size_le
    unfold bufferBlockSize at small ⊢
    rcases blockSizeGeometry_supported supported with whole | larger
    · exact whole
    · omega
  · rintro rfl
    exact addressesBlocks_of_whole ((geometry_of_reaches run).trans geometry)

theorem setDevice_addressesBlocks_512 :
    ((initialState 2).setDevice 0 5 64 512).2.AddressesBlocks 0 512 ↔ 512 = bufferBlockSize := by
  have accepted : (initialState 2).setDevice 0 5 64 512 =
      (true, ((initialState 2).setDevice 0 5 64 512).2) := Prod.ext rfl rfl
  exact setDevice_addressesBlocks accepted (by decide) .refl

/-- With 1024-byte sectors `SetDevice` succeeds and the second block is looked for
behind the end of its buffer. -/
theorem setDevice_1024_outside_buffer :
    ∃ t, (initialState 2).setDevice 0 5 64 1024 = (true, t) ∧
      (∃ h u, t.getBlock 0 1 .complete = (.returns h 1024, u)) ∧
      ¬ t.AddressesBlocks 0 1024 := by
  refine ⟨_, rfl, ⟨_, _, rfl⟩, fun addresses => ?_⟩
  exact absurd addresses.size_le (by decide)

end PadOS.BlockCache
