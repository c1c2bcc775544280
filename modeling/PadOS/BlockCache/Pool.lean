import PadOS.BlockCache.Frame

/-! # The pool

A header is on the free list or on the MRU list or with the pass that fills it.
`Pooled` says so for the lists, and that nobody holds a free header. It does not
speak of the maps.
-/

namespace PadOS.BlockCache

open List

variable {n : Nat} {s t : State n} {h v : Fin n} {c : CacheId} {blockNum : Nat}

structure Pooled (s : State n) : Prop where
  freeNodup : s.freeList.Nodup
  mruNodup : s.mruList.Nodup
  free : ∀ h ∈ s.freeList, h ∉ s.mruList ∧ ¬(s.header h).Held

/-- A header that is on no list, as the pass that fills it has it. -/
structure Loose (s : State n) (h : Fin n) : Prop where
  notFree : h ∉ s.freeList
  notCached : h ∉ s.mruList
  notHeld : ¬(s.header h).Held

namespace Pooled

theorem initial : Pooled (initialState n) where
  freeNodup := nodup_finRange n
  mruNodup := .nil
  free h _ := ⟨not_mem_nil, by simp [initialState, KCacheBlockHeader.Held]⟩

section

variable (p : Pooled s)

include p

theorem of_samePool (same : SamePool s t)
    (held : ∀ h ∈ s.freeList, (t.header h).Held → (s.header h).Held) : Pooled t where
  freeNodup := same.freeList ▸ p.freeNodup
  mruNodup := same.mruList.nodup_iff.2 p.mruNodup
  free h isFree := by
    rw [same.freeList] at isFree
    obtain ⟨notCached, notHeld⟩ := p.free h isFree
    rw [same.mruList.mem_iff]
    exact ⟨notCached, fun isHeld => notHeld (held h isFree isHeld)⟩

theorem of_calms (calm : Calms s t) : Pooled t :=
  p.of_samePool calm.toSamePool fun h _ isHeld =>
    isHeld.imp (fun used => calm.useCount h ▸ used) (calm.dirty h)

/-- A change of one header that is not on the free list. -/
theorem of_notFree (same : SamePool s t)
    (others : ∀ h', h' ≠ h → t.header h' = s.header h') (notFree : h ∉ s.freeList) : Pooled t := by
  refine p.of_samePool same fun h' isFree isHeld => ?_
  have ne : h' ≠ h := by
    rintro rfl
    exact notFree isFree
  exact others h' ne ▸ isHeld

theorem notFree_of_used (used : 0 < (s.header h).useCount) : h ∉ s.freeList :=
  fun isFree => (p.free h isFree).2 (.inl used)

/-! ## Taking a header and giving it a block -/

theorem takeFree (last : s.freeList.getLast? = some h) :
    Pooled { s with freeList := s.freeList.dropLast } ∧
      Loose { s with freeList := s.freeList.dropLast } h := by
  obtain ⟨front, split⟩ : ∃ front, s.freeList = front ++ [h] := getLast?_eq_some_iff.1 last
  have nodup : (front ++ [h]).Nodup := split ▸ p.freeNodup
  have isFree : h ∈ s.freeList := split ▸ mem_append_right _ (mem_singleton_self h)
  have dropped : s.freeList.dropLast = front := by rw [split, dropLast_concat]
  obtain ⟨notCached, notHeld⟩ := p.free h isFree
  refine ⟨⟨?_, p.mruNodup, fun h' isFree' => p.free h' (dropLast_subset _ isFree')⟩,
    ?_, notCached, notHeld⟩
  · exact dropped ▸ (nodup_append.1 nodup).1
  · intro again
    have inFront : h ∈ front := dropped ▸ again
    exact (nodup_append.1 nodup).2.2 h inFront h (mem_singleton_self h) rfl

theorem evict (evicts : s.Evicts c blockNum v) :
    Pooled (s.evict c v) ∧ Loose (s.evict c v) v := by
  obtain ⟨known, unused⟩ := State.victim_spec evicts.victim
  have notHeld : ¬(s.header v).Held := by
    simp [KCacheBlockHeader.Held, unused, evicts.clean]
  refine ⟨⟨p.freeNodup, p.mruNodup.erase v, fun h isFree => ?_⟩, ?_, ?_, notHeld⟩
  · obtain ⟨notCached, notHeld'⟩ := p.free h isFree
    exact ⟨fun cached => notCached (mem_of_mem_erase cached), notHeld'⟩
  · intro isFree
    exact (p.free v isFree).1 known
  · intro again
    exact (p.mruNodup.mem_erase_iff.1 again).1 rfl

theorem failedLoad (loose : Loose s h) :
    Pooled { s with freeList := s.freeList ++ [h] } := by
  refine ⟨?_, p.mruNodup, fun h' isFree => ?_⟩
  · rw [nodup_append]
    refine ⟨p.freeNodup, nodup_singleton h, ?_⟩
    rintro a isFree b last rfl
    exact loose.notFree (mem_singleton.1 last ▸ isFree)
  · rcases mem_append.1 isFree with old | new
    · exact p.free h' old
    · obtain rfl := mem_singleton.1 new
      exact ⟨loose.notCached, loose.notHeld⟩

theorem loaded (loose : Loose s h) (fill : KCacheBlockHeader → KCacheBlockHeader)
    (b : Nat) : Pooled ({ s.modifyHeader h fill with
      mruList := s.mruList ++ [h] }.setBlockMap c b (some h)) := by
  refine ⟨p.freeNodup, ?_, fun h' isFree => ?_⟩
  · show (s.mruList ++ [h]).Nodup
    rw [nodup_append]
    refine ⟨p.mruNodup, nodup_singleton h, ?_⟩
    rintro a cached b last rfl
    exact loose.notCached (mem_singleton.1 last ▸ cached)
  · obtain ⟨notCached, notHeld⟩ := p.free h' isFree
    have ne : h' ≠ h := by
      rintro rfl
      exact loose.notFree isFree
    refine ⟨fun cached => ?_, ?_⟩
    · rcases mem_append.1 cached with old | new
      · exact notCached old
      · exact ne (mem_singleton.1 new)
    · simpa [State.setBlockMap, State.modifyHeader, ne] using notHeld

theorem loadBlock (loose : Loose s h) (read : ReadOutcome) :
    Pooled (s.loadBlock c h blockNum read).2 := by
  unfold State.loadBlock
  dsimp only
  split
  · exact p.failedLoad loose
  · exact p.loaded loose _ _

theorem hit (cached : h ∈ s.mruList) :
    Pooled { s.addRef h with mruList := s.mruList.erase h ++ [h] } := by
  have notFree : h ∉ s.freeList := fun isFree => (p.free h isFree).1 cached
  have referenced : Pooled (s.addRef h) :=
    p.of_notFree (h := h) (.modifyHeader (fun _ => rfl) fun _ => rfl)
      (fun h' ne => s.modifyHeader_of_ne _ ne) notFree
  refine referenced.of_samePool ⟨rfl, rfl, rfl, ?_, fun _ => rfl, fun _ => rfl⟩ fun _ _ => id
  exact perm_append_comm.trans (perm_cons_erase cached).symm

theorem getBlock (c : CacheId) (blockNum : Nat) (read : ReadOutcome) :
    Pooled (s.getBlock c blockNum read).2 := by
  cases s.getBlock_cases c blockNum read with
  | hit h found cached result => exact result ▸ p.hit cached
  | stale h found gone result => exact result ▸ p
  | fromFree h missing last result =>
    rw [result]
    obtain ⟨p', loose⟩ := p.takeFree last
    exact p'.loadBlock loose read
  | evicted v evicts result =>
    rw [result]
    obtain ⟨p', loose⟩ := p.evict evicts
    exact p'.loadBlock loose read
  | refused pass missing noBlock result => exact result ▸ p
  | requested v missing result => exact result ▸ p.of_calms (.setFlushRequested true)

theorem setDevice (c : CacheId) (device : Int) (count size : Nat) :
    Pooled (s.setDevice c device count size).2 := by
  have detached : Pooled (s.detachDevice c) :=
    ⟨by simpa using p.freeNodup, by simpa using p.mruNodup, by simpa using p.free⟩
  unfold State.setDevice
  dsimp only
  split
  · exact detached
  · split
    · exact detached
    · exact ⟨detached.freeNodup, detached.mruNodup, detached.free⟩

theorem destroy (c : CacheId) : Pooled (s.destroy c) := by
  have detached := p.setDevice c (-1) 0 0
  exact ⟨detached.freeNodup, detached.mruNodup, detached.free⟩

end

end Pooled

end PadOS.BlockCache
