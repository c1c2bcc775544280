import PadOS.BlockCache.Pool

/-! # Coherence of the maps

The pool and the lists are shared by all caches, the maps are not. Eviction takes
a header from the shared list and edits the map of the cache that asked, and
`SetDevice` keeps the old map, so the maps stay right only in runs that meet
`KeepsMaps`: an evicted header is known to the asking cache or to none, a cache
changes to another device only with an empty map and to one that left no header
behind, and no header of a destroyed cache is in use or dirty.
-/

namespace PadOS.BlockCache

open Transition List Option State
open Function (update update_apply update_of_ne)

variable {n : Nat} {s t : State n} {h v : Fin n} {c : CacheId} {blockNum : Nat}

/-- What the claimed coherence says of one state. Headers on the free list hold
nothing, whatever their fields say. -/
structure Coherent (s : State n) : Prop where
  mapped : ∀ c b h, (s.cache c).blockMap b = some h →
    (s.header h).device = (s.cache c).device ∧ (s.header h).bufferNumber = b
  reachable : ∀ h, (s.header h).Held → ∃ c, s.deviceMap (s.header h).device = some c ∧
    (s.cache c).device = (s.header h).device ∧
    (s.cache c).blockMap (s.header h).bufferNumber = some h
  distinct : ∀ h ∈ s.mruList, ∀ h' ∈ s.mruList, (s.header h).device = (s.header h').device →
    (s.header h).bufferNumber = (s.header h').bufferNumber → h = h'

/-- A block is read from the device and the buffer it belongs to, and from the
dirty header that holds it if there is one. -/
structure ReadsCoherently (s : State n) : Prop where
  own : ∀ c blockNum read h offset t, s.getBlock c blockNum read = (.returns h offset, t) →
    (t.header h).device = (s.cache c).device ∧
      (t.header h).bufferNumber = (s.cache c).bufferNum blockNum
  pending : ∀ c blockNum read h, (s.header h).dirty → (s.header h).device = (s.cache c).device →
    (s.header h).bufferNumber = (s.cache c).bufferNum blockNum →
    ∃ t, s.getBlock c blockNum read = (.returns h ((s.cache c).blockOffset blockNum), t) ∧
      (t.header h).edits = (s.header h).edits

/-! ## The condition -/

/-- Taking the buffer number of `v` out of the map of `c` forgets `v` and nothing
else. -/
def State.ForgetsOnly (s : State n) (c : CacheId) (v : Fin n) : Prop :=
  (s.cache c).blockMap (s.header v).bufferNumber = some v ∨
    ((s.cache c).blockMap (s.header v).bufferNumber = none ∧
      ∀ c' b, (s.cache c').blockMap b ≠ some v)

def KeepsMaps : Condition (State n) (Op n)
  | s, .getBlock c blockNum _ => ∀ v, s.Evicts c blockNum v → s.ForgetsOnly c v
  | s, .setDevice c device _ _ =>
    device = (s.cache c).device ∨ ((∀ b, (s.cache c).blockMap b = none) ∧
        (device ≠ -1 → ∀ h ∈ s.mruList, (s.header h).device ≠ device))
  | s, .destroy c => ∀ h, (s.header h).Held → (s.header h).device ≠ (s.cache c).device
  | _, _ => True

/-! ## The invariant -/

/-- Coherence with what keeps it: the device map and the caches agree, maps know
only cached headers of an attached device, and of such a device every cached
header is known. -/
structure Wellformed (s : State n) : Prop extends Pooled s where
  linked : ∀ c d, s.deviceMap d = some c ↔ (s.cache c).device = d ∧ d ≠ -1
  mapped : ∀ c b h, (s.cache c).blockMap b = some h → h ∈ s.mruList ∧
    (s.header h).device = (s.cache c).device ∧ (s.header h).bufferNumber = b ∧
    (s.cache c).device ≠ -1
  owned : ∀ h ∈ s.mruList, ∀ c, s.deviceMap (s.header h).device = some c →
    (s.cache c).blockMap (s.header h).bufferNumber = some h
  held : ∀ h, (s.header h).Held → ∃ c b, (s.cache c).blockMap b = some h
  distinct : ∀ h ∈ s.mruList, ∀ h' ∈ s.mruList, (s.header h).device = (s.header h').device →
    (s.header h).bufferNumber = (s.header h').bufferNumber → h = h'

namespace Wellformed

theorem initial : Wellformed (initialState n) where
  toPooled := .initial
  linked c d := by
    simp only [initialState, reduceCtorEq, ne_eq, false_iff, not_and, not_not]
    intro same
    exact same.symm
  mapped c b h found := by simp [initialState] at found
  owned h known := by simp [initialState] at known
  held h isHeld := by simp [initialState, KCacheBlockHeader.Held] at isHeld
  distinct h known := by simp [initialState] at known

section

variable (w : Wellformed s)

include w

theorem coherent : Coherent s where
  mapped c b h found := ⟨(w.mapped c b h found).2.1, (w.mapped c b h found).2.2.1⟩
  reachable h isHeld := by
    obtain ⟨c, b, found⟩ := w.held h isHeld
    obtain ⟨_, device, number, attached⟩ := w.mapped c b h found
    refine ⟨c, ?_, device.symm, number.symm ▸ found⟩
    exact (w.linked c _).2 ⟨device.symm, device ▸ attached⟩
  distinct := w.distinct

/-- A header is in the map of one cache only. -/
theorem mapped_unique {c c' : CacheId} {b b' : Nat}
    (found : (s.cache c).blockMap b = some h) (found' : (s.cache c').blockMap b' = some h) :
    c = c' ∧ b = b' := by
  obtain ⟨_, device, number, attached⟩ := w.mapped c b h found
  obtain ⟨_, device', number', _⟩ := w.mapped c' b' h found'
  have link : s.deviceMap (s.cache c).device = some c := (w.linked c _).2 ⟨rfl, attached⟩
  have link' : s.deviceMap (s.cache c).device = some c' :=
    (w.linked c' _).2 ⟨device'.symm.trans device, attached⟩
  exact ⟨some.inj (link.symm.trans link'), number.symm.trans number'⟩

theorem of_samePool (same : SamePool s t)
    (held : ∀ h, (t.header h).Held → (s.header h).Held ∨ ∃ c b, (s.cache c).blockMap b = some h) :
    Wellformed t where
  toPooled := w.toPooled.of_samePool same fun h isFree isHeld => by
    rcases held h isHeld with before | ⟨c, b, found⟩
    · exact before
    · exact absurd (w.mapped c b h found).1 (w.free h isFree).1
  linked c d := by
    rw [same.deviceMap, same.cache]
    exact w.linked c d
  mapped c b h found := by
    rw [same.cache] at found ⊢
    rw [same.mruList.mem_iff, same.device, same.bufferNumber]
    exact w.mapped c b h found
  owned h known c attached := by
    rw [same.mruList.mem_iff] at known
    rw [same.deviceMap, same.device] at attached
    rw [same.cache, same.bufferNumber]
    exact w.owned h known c attached
  held h isHeld := by
    rw [same.cache]
    rcases held h isHeld with before | found
    · exact w.held h before
    · exact found
  distinct h known h' known' device number := by
    rw [same.mruList.mem_iff] at known known'
    rw [same.device, same.device] at device
    rw [same.bufferNumber, same.bufferNumber] at number
    exact w.distinct h known h' known' device number

theorem of_calms (calm : Calms s t) : Wellformed t :=
  w.of_samePool calm.toSamePool fun h isHeld => .inl <|
    isHeld.imp (fun used => calm.useCount h ▸ used) (calm.dirty h)

/-- A change of one header that keeps its identity, when the header is mapped or
held already. -/
theorem of_known (same : SamePool s t) (others : ∀ h', h' ≠ h → t.header h' = s.header h')
    (known : (s.header h).Held ∨ ∃ c b, (s.cache c).blockMap b = some h) : Wellformed t := by
  refine w.of_samePool same fun h' isHeld => ?_
  by_cases eq : h' = h
  · exact eq ▸ known
  · exact .inl (others h' eq ▸ isHeld)

/-! ## Loading and evicting -/

theorem takeFree (last : s.freeList.getLast? = some h) :
    Wellformed { s with freeList := s.freeList.dropLast } :=
  ⟨(w.toPooled.takeFree last).1, w.linked, w.mapped, w.owned, w.held, w.distinct⟩

theorem evict (evicts : s.Evicts c blockNum v)
    (forgets : s.ForgetsOnly c v) : Wellformed (s.evict c v) := by
  obtain ⟨pooled, loose⟩ := w.toPooled.evict evicts
  have still : ∀ {h}, h ∈ s.mruList.erase v ↔ h ≠ v ∧ h ∈ s.mruList := w.mruNodup.mem_erase_iff
  -- The map entry taken out belonged to `v`, or to nobody.
  have keeps : ∀ {c' b h}, h ≠ v → (s.cache c').blockMap b = some h →
      ¬(c' = c ∧ b = (s.header v).bufferNumber) := by
    rintro c' b h ne found ⟨rfl, rfl⟩
    rcases forgets with own | ⟨none, _⟩
    · exact ne (some.inj (found.symm.trans own))
    · simp [none] at found
  have forgotten : ∀ c' b, (s.cache c').blockMap b = some v →
      c' = c ∧ b = (s.header v).bufferNumber := by
    intro c' b found
    rcases forgets with own | ⟨_, nobody⟩
    · exact w.mapped_unique found own
    · exact absurd found (nobody c' b)
  refine ⟨pooled, ?_, ?_, ?_, ?_, ?_⟩
  · intro c' d
    simp only [State.evict, State.setBlockMap_device]
    exact w.linked c' d
  · intro c' b h found
    simp only [State.evict, State.setBlockMap_blockMap, State.setBlockMap_device] at found ⊢
    split at found
    · cases found
    · rename_i kept
      obtain ⟨cached, rest⟩ := w.mapped c' b h found
      have ne : h ≠ v := by
        rintro rfl
        exact kept (forgotten c' b found)
      exact ⟨still.2 ⟨ne, cached⟩, rest⟩
  · intro h cached c' attached
    obtain ⟨ne, cached⟩ := still.1 cached
    have found := w.owned h cached c' attached
    simp only [State.evict, State.setBlockMap_blockMap, State.setBlockMap_header]
    rw [if_neg (keeps ne found)]
    exact found
  · intro h isHeld
    obtain ⟨c', b, found⟩ := w.held h isHeld
    have ne : h ≠ v := by
      rintro rfl
      exact loose.notHeld isHeld
    refine ⟨c', b, ?_⟩
    simp only [State.evict, State.setBlockMap_blockMap]
    rw [if_neg (keeps ne found)]
    exact found
  · intro h cached h' cached'
    exact w.distinct h (mem_of_mem_erase cached) h' (mem_of_mem_erase cached')

theorem failedLoad (loose : Loose s h) :
    Wellformed { s with freeList := s.freeList ++ [h] } :=
  ⟨w.toPooled.failedLoad loose, w.linked, w.mapped, w.owned, w.held, w.distinct⟩

theorem loaded (loose : Loose s h) (attached : (s.cache c).device ≠ -1)
    (missing : (s.cache c).blockMap ((s.cache c).bufferNum blockNum) = none) :
    Wellformed ({ s.modifyHeader h (fun _ =>
        { device := (s.cache c).device, bufferNumber := (s.cache c).bufferNum blockNum
          useCount := 1 }) with
      mruList := s.mruList ++ [h] }.setBlockMap c ((s.cache c).bufferNum blockNum) (some h)) := by
  generalize numberEq : (s.cache c).bufferNum blockNum = number at missing ⊢
  have fresh : ∀ {h'}, h' ∈ s.mruList → h' ≠ h := by
    rintro h' cached rfl
    exact loose.notCached cached
  have link : s.deviceMap (s.cache c).device = some c := (w.linked c _).2 ⟨rfl, attached⟩
  -- No cached header has the block that was missing.
  have absent : ∀ h' ∈ s.mruList, (s.header h').device = (s.cache c).device →
      (s.header h').bufferNumber ≠ number := by
    rintro h' cached device rfl
    have found := w.owned h' cached c (device ▸ link)
    rw [missing] at found
    cases found
  refine ⟨w.toPooled.loaded loose _ _, ?_, ?_, ?_, ?_, ?_⟩
  · intro c' d
    rw [State.setBlockMap_device]
    exact w.linked c' d
  · intro c' b h' found
    rw [State.setBlockMap_blockMap] at found
    rw [State.setBlockMap_device]
    split at found
    · rename_i own
      obtain ⟨rfl, rfl⟩ := own
      obtain rfl : h = h' := some.inj found
      refine ⟨mem_append_right _ (mem_singleton_self h), ?_⟩
      simp [setBlockMap, attached, modifyHeader]
    · obtain ⟨cached, rest⟩ := w.mapped c' b h' found
      refine ⟨mem_append_left _ cached, ?_⟩
      simpa [setBlockMap, modifyHeader, fresh cached] using rest
  · intro h' cached c' owner
    rw [State.setBlockMap_blockMap]
    rcases mem_append.1 cached with old | new
    · have ne := fresh old
      simp only [setBlockMap, modifyHeader, update_apply, ne, if_false] at owner ⊢
      have found := w.owned h' old c' owner
      rw [if_neg]
      · exact found
      · rintro ⟨rfl, number'⟩
        rw [number', missing] at found
        cases found
    · obtain rfl := mem_singleton.1 new
      have owner' : s.deviceMap (s.cache c).device = some c' := by
        simpa [setBlockMap, modifyHeader] using owner
      have same : c = c' := some.inj (link.symm.trans owner')
      simp [setBlockMap, modifyHeader, same]
  · intro h' isHeld
    by_cases eq : h' = h
    · subst eq
      exact ⟨c, number, by simp⟩
    · have before : (s.header h').Held := by
        simpa [setBlockMap, modifyHeader, eq] using isHeld
      obtain ⟨c', b, found⟩ := w.held h' before
      refine ⟨c', b, ?_⟩
      rw [State.setBlockMap_blockMap, if_neg]
      · exact found
      · rintro ⟨rfl, rfl⟩
        have : some h' = none := found.symm.trans missing
        cases this
  · intro h₁ cached₁ h₂ cached₂ device number'
    simp only [setBlockMap, modifyHeader, update_apply] at device number'
    rcases mem_append.1 cached₁ with old₁ | new₁ <;> rcases mem_append.1 cached₂ with old₂ | new₂
    · simp only [fresh old₁, fresh old₂, if_false] at device number'
      exact w.distinct h₁ old₁ h₂ old₂ device number'
    · obtain rfl := mem_singleton.1 new₂
      simp only [fresh old₁, if_false, if_true] at device number'
      exact absurd number' (absent h₁ old₁ device)
    · obtain rfl := mem_singleton.1 new₁
      simp only [fresh old₂, if_false, if_true] at device number'
      exact absurd number'.symm (absent h₂ old₂ device.symm)
    · exact (mem_singleton.1 new₁).trans (mem_singleton.1 new₂).symm

theorem loadBlock (loose : Loose s h) (read : ReadOutcome)
    (missing : (s.cache c).blockMap ((s.cache c).bufferNum blockNum) = none) :
    Wellformed (s.loadBlock c h blockNum read).2 := by
  unfold State.loadBlock
  dsimp only
  split
  · exact w.failedLoad loose
  · rename_i fine
    exact w.loaded loose (readError_eq_none fine) missing

theorem getBlock (read : ReadOutcome) (forgets : ∀ v, s.Evicts c blockNum v → s.ForgetsOnly c v) :
    Wellformed (s.getBlock c blockNum read).2 := by
  cases s.getBlock_cases c blockNum read with
  | hit h found cached result =>
    rw [result]
    have referenced : Wellformed (s.addRef h) :=
      w.of_known (h := h) (.modifyHeader (fun _ => rfl) fun _ => rfl)
        (fun h' ne => s.modifyHeader_of_ne _ ne) (.inr ⟨c, _, found⟩)
    refine referenced.of_samePool ⟨rfl, rfl, rfl, ?_, fun _ => rfl, fun _ => rfl⟩ fun h' => .inl
    exact perm_append_comm.trans (perm_cons_erase cached).symm
  | stale h found gone result => exact result ▸ w
  | fromFree h missing last result =>
    rw [result]
    exact (w.takeFree last).loadBlock (w.toPooled.takeFree last).2 read missing
  | evicted v evicts result =>
    rw [result]
    refine (w.evict evicts (forgets v evicts)).loadBlock (w.toPooled.evict evicts).2 read ?_
    rw [State.evict_bufferNum]
    simp only [State.evict, State.setBlockMap_blockMap]
    split
    · rfl
    · exact evicts.missing
  | refused p missing noBlock result => exact result ▸ w
  | requested v missing result => exact result ▸ w.of_calms (.setFlushRequested true)

/-! ## Devices -/

theorem unattached (c : CacheId) : s.deviceMap (-1) ≠ some c := by
  intro attached
  exact ((w.linked c _).1 attached).2 rfl

/-- The device map after cache `c` has gone over to `device`. -/
theorem linked_of_moved {device : Int}
    (others : ∀ c', c' ≠ c → t.cache c' = s.cache c') (own : (t.cache c).device = device)
    (deviceMap : ∀ d, t.deviceMap d = if d = device ∧ d ≠ -1 then some c
      else if d = (s.cache c).device then none else s.deviceMap d)
    (free : device ≠ (s.cache c).device → s.deviceMap device = none) (c' : CacheId) (d : Int) :
    t.deviceMap d = some c' ↔ (t.cache c').device = d ∧ d ≠ -1 := by
  by_cases attached : d = -1
  · subst attached
    have : s.deviceMap (-1) ≠ some c' := w.unattached c'
    simp only [deviceMap, ne_eq, not_true_eq_false, and_false, if_false, iff_false]
    split
    · simp
    · exact this
  have before := w.linked c' d
  simp only [deviceMap, attached, ne_eq, not_false_eq_true, and_true] at before ⊢
  by_cases same : c' = c
  · subst same
    by_cases new : d = device
    · simp [new, own]
    · have : (s.cache c').device = d → d = (s.cache c').device := Eq.symm
      grind
  · rw [others c' same]
    by_cases new : d = device
    · have link := w.linked c d
      simp only [attached, ne_eq, not_false_eq_true, and_true] at link
      grind
    · have link := w.linked c d
      simp only [attached, ne_eq, not_false_eq_true, and_true] at link
      grind

/-- Cache `c` goes over to `device`, with its map when that was its device before,
with an empty map otherwise. -/
theorem of_moved (device : Int) (header : t.header = s.header)
    (freeList : t.freeList = s.freeList) (mruList : t.mruList = s.mruList)
    (others : ∀ c', c' ≠ c → t.cache c' = s.cache c') (own : (t.cache c).device = device)
    (deviceMap : ∀ d, t.deviceMap d = if d = device ∧ d ≠ -1 then some c
      else if d = (s.cache c).device then none else s.deviceMap d)
    (free : device ≠ (s.cache c).device → s.deviceMap device = none)
    (moves : (device = (s.cache c).device ∧ (t.cache c).blockMap = (s.cache c).blockMap) ∨
      ((∀ b, (t.cache c).blockMap b = none) ∧
        (∀ h, (s.header h).Held → ∀ b, (s.cache c).blockMap b ≠ some h) ∧
        (device ≠ -1 → ∀ h ∈ s.mruList, (s.header h).device ≠ device))) :
    Wellformed t := by
  have linkedBefore : ∀ {c' d}, (s.cache c').device = d → d ≠ -1 → s.deviceMap d = some c' :=
    fun same attached => (w.linked _ _).2 ⟨same, attached⟩
  have pooled : Pooled t :=
    ⟨freeList ▸ w.freeNodup, mruList ▸ w.mruNodup, freeList ▸ mruList ▸ header ▸ w.free⟩
  refine ⟨pooled, w.linked_of_moved others own deviceMap free, ?_, ?_, ?_, header ▸ mruList ▸ w.distinct⟩
  · intro c' b h found
    rw [header, mruList]
    by_cases same : c' = c
    · subst same
      rcases moves with ⟨kept, map⟩ | ⟨empty, _⟩
      · rw [map] at found
        rw [own, kept]
        exact w.mapped c' b h found
      · rw [empty] at found
        cases found
    · rw [others c' same] at found ⊢
      exact w.mapped c' b h found
  · intro h cached c' attached
    rw [mruList] at cached
    rw [header, deviceMap] at attached
    rw [header]
    split at attached
    · rename_i new
      obtain rfl := some.inj attached
      rcases moves with ⟨kept, map⟩ | ⟨_, _, absent⟩
      · rw [map]
        exact w.owned h cached c (linkedBefore (kept ▸ new.1.symm) new.2)
      · exact absurd new.1 (absent (new.1 ▸ new.2) h cached)
    · rename_i notNew
      split at attached
      · cases attached
      · rename_i notOld
        have same : c' ≠ c := by
          rintro rfl
          exact notOld ((w.linked _ _).1 attached).1.symm
        rw [others c' same]
        exact w.owned h cached c' attached
  · intro h isHeld
    rw [header] at isHeld
    obtain ⟨c', b, found⟩ := w.held h isHeld
    refine ⟨c', b, ?_⟩
    by_cases same : c' = c
    · subst same
      rcases moves with ⟨_, map⟩ | ⟨_, idle, _⟩
      · rw [map]
        exact found
      · exact absurd found (idle h isHeld b)
    · rw [others c' same]
      exact found

theorem detachDevice_deviceMap (c : CacheId) (d : Int) :
    (s.detachDevice c).deviceMap d = if d = (s.cache c).device then none else s.deviceMap d := by
  unfold State.detachDevice
  split
  · rename_i alone
    split
    · rename_i same
      rw [same, alone]
      exact eq_none_iff_forall_ne_some.2 w.unattached
    · rfl
  · simp only [update_apply]

/-- `SetDevice` that ends without a device. -/
theorem detachDevice (moves : (s.cache c).device = -1 ∨ ∀ b, (s.cache c).blockMap b = none) :
    Wellformed (s.detachDevice c) := by
  rcases moves with alone | empty
  · simpa [State.detachDevice, alone] using w
  refine w.of_moved (-1) (c := c) (by simp) (by simp) (by simp)
    (fun c' other => s.detachDevice_cache_of_ne other) (by simp) (fun d => ?_)
    (fun _ => eq_none_iff_forall_ne_some.2 w.unattached) (.inr ⟨fun b => ?_, ?_, ?_⟩)
  · have : ¬(d = -1 ∧ d ≠ -1) := fun h => h.2 h.1
    rw [w.detachDevice_deviceMap, if_neg this]
  · simp [empty]
  · intro h _ b
    simp [empty]
  · exact fun h => absurd rfl h

theorem attachDevice {device : Int} (count size : Nat)
    (free : (s.detachDevice c).deviceMap device = none) (attached : device ≠ -1)
    (moves : device = (s.cache c).device ∨ ((∀ b, (s.cache c).blockMap b = none) ∧
      (device ≠ -1 → ∀ h ∈ s.mruList, (s.header h).device ≠ device))) :
    Wellformed ((s.detachDevice c).attachDevice c device count size).2 := by
  refine w.of_moved device (c := c) (by simp [State.attachDevice])
    (by simp [State.attachDevice]) (by simp [State.attachDevice]) (fun c' other => ?_)
    (by simp [State.attachDevice]) (fun d => ?_) (fun moved => ?_) ?_
  · rw [← s.detachDevice_cache_of_ne other]
    exact update_of_ne other _ _
  · simp only [State.attachDevice, update_apply, w.detachDevice_deviceMap]
    by_cases new : d = device
    · simp [new, attached]
    · simp [new]
  · rw [w.detachDevice_deviceMap, if_neg moved] at free
    exact free
  · rcases moves with same | ⟨empty, absent⟩
    · exact .inl ⟨same, by simp [State.attachDevice]⟩
    · refine .inr ⟨fun b => ?_, fun h _ b => ?_, absent⟩
      · simp [State.attachDevice, empty]
      · simp [empty]

theorem setDevice (device : Int) (count size : Nat)
    (moves : device = (s.cache c).device ∨ ((∀ b, (s.cache c).blockMap b = none) ∧
      (device ≠ -1 → ∀ h ∈ s.mruList, (s.header h).device ≠ device))) :
    Wellformed (s.setDevice c device count size).2 := by
  unfold State.setDevice
  dsimp only
  split
  · rename_i taken
    refine w.detachDevice ?_
    rcases moves with same | ⟨empty, _⟩
    · simp [w.detachDevice_deviceMap, same] at taken
    · exact .inr empty
  · rename_i notTaken
    split
    · rename_i none
      rcases moves with same | ⟨empty, _⟩
      · exact w.detachDevice (.inl (same ▸ none))
      · exact w.detachDevice (.inr empty)
    · rename_i attached
      exact w.attachDevice count size (by simpa using notTaken) attached moves

theorem destroy (idle : ∀ h, (s.header h).Held → (s.header h).device ≠ (s.cache c).device) :
    Wellformed (s.destroy c) := by
  have detached : (s.setDevice c (-1) 0 0).2 = s.detachDevice c := by
    unfold State.setDevice
    dsimp only
    split <;> rfl
  unfold State.destroy
  rw [detached]
  refine w.of_moved (-1) (c := c) (by simp) (by simp) (by simp) (fun c' other => ?_)
    (by simp) (fun d => ?_) (fun _ => eq_none_iff_forall_ne_some.2 w.unattached)
    (.inr ⟨fun b => by simp, ?_, fun h => absurd rfl h⟩)
  · simp only [update_of_ne other]
    exact s.detachDevice_cache_of_ne other
  · have : ¬(d = -1 ∧ d ≠ -1) := fun h => h.2 h.1
    rw [if_neg this, ← w.detachDevice_deviceMap]
  · intro h isHeld b found
    exact idle h isHeld (w.mapped c b h found).2.1

theorem step {op : Op n} (meets : KeepsMaps s op)
    (applies : step s op = some t) : Wellformed t := by
  cases steps_of_step applies with
  | getBlock => exact w.getBlock _ meets
  | @marks h c _ now found =>
    exact w.of_known (h := h) (.setDirty now) (fun h' ne => s.setDirty_of_ne now ne)
      (.inr ⟨c, _, found⟩)
  | passes => exact w
  | @modify h used =>
    exact w.of_known (h := h) (.modifyHeader (fun _ => rfl) fun _ => rfl)
      (fun h' ne => s.modifyHeader_of_ne _ ne) (.inl (.inl used))
  | @markDirty h now used =>
    exact w.of_known (h := h) (.setDirty now) (fun h' ne => s.setDirty_of_ne now ne)
      (.inl (.inl used))
  | @release h used =>
    exact w.of_known (h := h) .removeRef (fun h' ne => s.removeRef_of_ne ne) (.inl (.inl used))
  | setDevice => exact w.setDevice _ _ _ meets
  | destroy => exact w.destroy meets
  | flush => exact w.of_calms .flushInternal
  | beginRound => exact w.of_calms (.beginRound _ _)
  | transfer => exact w.of_calms ((Calms.refl s).of_eq rfl rfl rfl rfl rfl)
  | writeDone => exact w.of_calms (.finishWrite _ _)

end

theorem reached (run : (system n).Reaches KeepsMaps (initialState n) s) : Wellformed s :=
  run.invariant Wellformed .initial fun w meets applies => w.step meets applies

theorem readsCoherently (w : Wellformed s) : ReadsCoherently s where
  own c blockNum read h offset t result := by
    cases s.getBlock_cases c blockNum read with
    | hit h' found cached result' =>
      rw [result'] at result
      cases result
      obtain ⟨_, device, number, _⟩ := w.mapped c _ h found
      simpa [State.addRef] using ⟨device, number⟩
    | fromFree h' missing last result' =>
      rw [result'] at result
      have loaded := loadBlock_returns result
      exact loaded
    | evicted v evicts result' =>
      rw [result'] at result
      have loaded := loadBlock_returns result
      rw [State.evict_bufferNum] at loaded
      simpa [State.evict] using loaded
    | stale h' found gone result' => simp [result'] at result
    | refused p missing noBlock result' =>
      rw [result'] at result
      rcases noBlock with rfl | rfl <;> cases result
    | requested v missing result' => simp [result'] at result
  pending c blockNum read h dirty device number := by
    obtain ⟨c', b, found⟩ := w.held h (.inr dirty)
    obtain ⟨cached, device', number', attached⟩ := w.mapped c' b h found
    have link : s.deviceMap (s.cache c).device = some c :=
      (w.linked c _).2 ⟨rfl, by rw [← device, device']; exact attached⟩
    have known := w.owned h cached c (device ▸ link)
    rw [number] at known
    have result : s.getBlock c blockNum read = (.returns h ((s.cache c).blockOffset blockNum),
        { s.addRef h with mruList := s.mruList.erase h ++ [h] }) := by
      simp [State.getBlock, known, cached]
    exact ⟨_, result, by simp [State.addRef]⟩

end Wellformed

/-! ## Runs -/

theorem coherent_of_keepsMaps (run : (system n).Reaches KeepsMaps (initialState n) s) :
    Coherent s ∧ ReadsCoherently s :=
  ⟨(Wellformed.reached run).coherent, (Wellformed.reached run).readsCoherently⟩

/-- Each of two caches has a block, and the first one evicts its own for another. -/
theorem coherent_of_keepsMaps_evicted : ∃ s : State 2, (s.cache 0).blockMap 9 = some 1 ∧
    (s.cache 0).blockMap 7 = none ∧ (s.cache 1).blockMap 5 = some 0 ∧ Coherent s ∧
      ReadsCoherently s := by
  have start : (system 2).Reaches KeepsMaps (initialState 2) _ := .refl
  have mounts {s : State 2} (c : CacheId) (device : Int) (none : s.mruList = [])
      (empty : ∀ b, (s.cache c).blockMap b = .none) : KeepsMaps s (.setDevice c device 64 512) :=
    .inr ⟨empty, fun _ h cached => absurd (none ▸ cached) not_mem_nil⟩
  have first := start.next (.setDevice 0 3 64 512) (mounts _ _ rfl fun _ => rfl) rfl
  have second := first.next (.setDevice 1 4 64 512) (mounts _ _ rfl fun _ => rfl) rfl
  have loaded := second.next (.getBlock 0 7 .complete)
    (fun v evicts => absurd evicts.noneFree (by decide)) rfl
  have both := (loaded.next (.release 1) trivial rfl).next (.getBlock 1 5 .complete)
    (fun v evicts => absurd evicts.noneFree (by decide)) rfl
  have evicted := both.next (.getBlock 0 9 .complete) (by
    intro v evicts
    obtain rfl : 1 = v := Option.some.inj evicts.victim
    exact .inl rfl) rfl
  exact ⟨_, rfl, rfl, rfl, coherent_of_keepsMaps evicted⟩

/-! ## Eviction across volumes

Cache 0 fills the pool, then cache 1 asks for a block: the header it is given
stays in the map of cache 0.
-/

/-- Cache 0 has read the blocks below `k` of its device and has let go of them. -/
structure Filled (k : Nat) (s : State n) : Prop where
  run : (system n).Reaches KeepsMaps (initialState n) s
  free : s.freeList.length + k = n
  cached : s.mruList.length = k
  device : (s.cache 0).device = 3
  device' : (s.cache 1).device = 4
  shift : (s.cache 0).blockToBufferShift = 0
  idle : ∀ h ∈ s.mruList, (s.header h).useCount = 0 ∧ (s.header h).dirty = false ∧
    (s.header h).isFlushing = false ∧ (s.header h).device = 3
  below : ∀ b, k ≤ b → (s.cache 0).blockMap b = none
  empty : ∀ b, (s.cache 1).blockMap b = none

theorem filled_zero (n : Nat) : ∃ s : State n, Filled 0 s := by
  let first := ((initialState n).setDevice 0 3 8192 512).2
  let second := (first.setDevice 1 4 8192 512).2
  have mounts : (system n).step (initialState n) (.setDevice 0 3 8192 512) = some first := rfl
  have mounts' : (system n).step first (.setDevice 1 4 8192 512) = some second := rfl
  refine ⟨second, .head ?_ mounts (.single ?_ mounts'), ?_, rfl, rfl, rfl, rfl, ?_,
    fun _ _ => rfl, fun _ => rfl⟩
  · exact .inr ⟨fun b => rfl, fun _ h cached => absurd cached not_mem_nil⟩
  · exact .inr ⟨fun b => rfl, fun _ h cached => absurd cached not_mem_nil⟩
  · exact length_finRange
  · intro h cached
    exact absurd cached not_mem_nil

theorem filled_succ {k : Nat} (room : k < n) (f : Filled k s) : ∃ t : State n, Filled (k + 1) t := by
  have w := Wellformed.reached f.run
  have number : (s.cache 0).bufferNum k = k := by simp [KBlockCache.bufferNum, f.shift]
  have notEmpty : s.freeList ≠ [] := by
    intro none
    have := f.free
    simp [none] at this
    omega
  obtain ⟨front, h, split⟩ : ∃ front h, s.freeList = front ++ [h] :=
    ⟨_, _, (dropLast_append_getLast notEmpty).symm⟩
  have fresh : ∀ h' ∈ s.mruList, h' ≠ h := by
    rintro h' cached rfl
    exact (w.free h' (by simp [split])).1 cached
  have missing := f.below k (Nat.le_refl k)
  let u := (s.getBlock 0 k .complete).2
  have result : s.getBlock 0 k .complete = (.returns h ((s.cache 0).blockOffset k), u) := by
    simp [u, State.getBlock, number, missing, split, State.loadBlock, readError, f.device]
  have uEq : u = ({ s.modifyHeader h (fun _ => { device := 3, bufferNumber := k, useCount := 1 }) with
      freeList := front, mruList := s.mruList ++ [h] }.setBlockMap 0 k (some h)) := by
    simp [u, State.getBlock, number, missing, split, State.loadBlock, readError, f.device,
      modifyHeader]
  have toU : (system n).step s (.getBlock 0 k .complete) = some u := by
    simp [system, step, result]
  have used : (u.header h).useCount = 1 := by simp [uEq, modifyHeader]
  have toT : (system n).step u (.release h) = some (u.removeRef h) := by
    simp [system, step, used]
  have headerT : (u.removeRef h).header = update u.header h
      { u.header h with useCount := 0 } := by
    simp [removeRef, modifyHeader, wakeDone, used]
  have cacheT : (u.removeRef h).cache = u.cache := SamePool.removeRef.cache
  have freeT : (u.removeRef h).freeList = front := by
    rw [SamePool.removeRef.freeList, uEq]
    rfl
  have mruT : (u.removeRef h).mruList = s.mruList ++ [h] := by
    simp [removeRef, modifyHeader, wakeDone, uEq, setBlockMap]
  refine ⟨u.removeRef h, .tail (.tail f.run ?_ toU) ?_ toT, ?_, ?_, ?_, ?_, ?_, ?_, ?_, ?_⟩
  · intro v evicts
    exact absurd evicts.noneFree notEmpty
  · trivial
  · have := f.free
    rw [split] at this
    simp only [length_append, length_singleton] at this
    rw [freeT]
    omega
  · simp [mruT, f.cached]
  · rw [cacheT, uEq, State.setBlockMap_device]
    exact f.device
  · rw [cacheT, uEq, State.setBlockMap_device]
    exact f.device'
  · rw [cacheT, uEq]
    simp [f.shift, modifyHeader, setBlockMap]
  · intro h' cached
    rw [mruT] at cached
    rcases mem_append.1 cached with old | new
    · rw [headerT, uEq]
      simpa [modifyHeader, fresh h' old] using f.idle h' old
    · obtain rfl := mem_singleton.1 new
      rw [headerT, uEq]
      simp [modifyHeader]
  · intro b above
    have : b ≠ k := by omega
    rw [cacheT, uEq]
    simpa [modifyHeader, this] using f.below b (by omega)
  · intro b
    rw [cacheT, uEq]
    simpa [modifyHeader] using f.empty b

theorem filled_all (n : Nat) : ∀ k ≤ n, ∃ s : State n, Filled k s := by
  intro k
  induction k with
  | zero => exact fun _ => filled_zero n
  | succ k ih =>
    intro room
    obtain ⟨s, f⟩ := ih (by omega)
    exact filled_succ (by omega) f

/-- The header evicted for cache 1 keeps its entry in the map of cache 0. -/
theorem not_coherent_of_filled (some' : 0 < n) (f : Filled n s) :
    ∃ t, (system n).step s (.getBlock 1 0 .complete) = some t ∧ ¬Coherent t := by
  have w := Wellformed.reached f.run
  have noneFree : s.freeList = [] := length_eq_zero_iff.1 (by have := f.free; omega)
  obtain ⟨v, rest, split⟩ : ∃ v rest, s.mruList = v :: rest :=
    exists_cons_of_length_pos (by rw [f.cached]; exact some')
  have first : v ∈ s.mruList := by simp [split]
  obtain ⟨unused, clean, settled, device⟩ := f.idle v first
  have victim : s.victim? = some v := by simp [victim?, split, unused]
  have owner : (s.cache 0).blockMap (s.header v).bufferNumber = some v := by
    refine w.owned v first 0 ?_
    rw [device, w.linked 0 3]
    exact ⟨f.device, by decide⟩
  have notMru : s.mruList ≠ [] := by simp [split]
  have result : s.getBlock 1 0 .complete = (s.evict 1 v).loadBlock 1 v 0 .complete := by
    simp [State.getBlock, f.empty, noneFree, notMru, victim, settled, clean]
  have loaded : ∃ offset u, s.getBlock 1 0 .complete = (.returns v offset, u) ∧
      (u.header v).device = 4 ∧
      (u.cache 0).blockMap (s.header v).bufferNumber = some v ∧ (u.cache 0).device = 3 := by
    rw [result]
    simp [State.loadBlock, readError, State.evict, f.device', f.device, modifyHeader, owner]
  obtain ⟨offset, u, result', device', still, own⟩ := loaded
  refine ⟨u, by simp [system, step, result'], fun coherent => ?_⟩
  have := (coherent.mapped 0 _ v still).1
  rw [device', own] at this
  exact absurd this (by decide)

theorem not_coherent_always : ¬∀ s : State blockCount,
    (system blockCount).Reaches anyStep (initialState blockCount) s → Coherent s := by
  intro always
  obtain ⟨s, f⟩ := filled_all blockCount blockCount le_rfl
  obtain ⟨t, applies, broken⟩ := not_coherent_of_filled (by decide) f
  exact broken (always t (.tail (f.run.mono fun _ _ _ => trivial) trivial applies))

end PadOS.BlockCache
