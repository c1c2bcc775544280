import PadOS.BlockCache.Model
import Mathlib.Data.List.SplitBy

/-! # What a round writes

`FlushBlockList_trw` as one loop over the sorted list. It looks at the flags of
each block once, so the headers stand here as the loop finds them when it comes
to the block; the wait for the device in between is the business of the system
in the model, whose scan is this loop up to the next write.
-/

namespace PadOS.BlockCache

open List Function

variable {n : Nat} {s : State n} {curTime : Int}

/-! ## The loop -/

/-- The arguments of one `kpwritev_trw`. An entry of the vector is the header
whose buffer it points at. -/
structure SegmentWrite (n : Nat) where
  device : Int
  offset : Nat
  segments : List (Option (Fin n))
  deriving DecidableEq

/-- The write of `segment`, which is not empty, with the entries of the static
array as far as the segment is long. -/
def State.segmentWrite (s : State n) (segments : Nat → Option (Fin n)) (segment : List (Fin n)) :
    List (SegmentWrite n) :=
  match segment with
  | [] => []
  | start :: _ =>
    [{ device := (s.header start).device
       offset := (s.header start).bufferNumber * bufferBlockSize
       segments := (range segment.length).map segments }]

/-- `segments` is the array of `iovec_t`, kept from segment to segment. -/
def State.flushFrom (s : State n) (curTime : Int) (segments : Nat → Option (Fin n)) :
    (segment : List (Fin n)) → (requiredSegment hasTimedOutBlocks : Bool) →
      (rest : List (Fin n)) → List (SegmentWrite n)
  | segment, requiredSegment, hasTimedOutBlocks, [] =>
    if requiredSegment || hasTimedOutBlocks || minFlushBlockCount ≤ segment.length then
      s.segmentWrite segments segment
    else []
  | segment, requiredSegment, hasTimedOutBlocks, h :: rest =>
    let requiredSegment := requiredSegment || (s.header h).flushRequested
    let hasTimedOutBlocks := hasTimedOutBlocks ||
      (!requiredSegment && flushPeriod ≤ curTime - (s.header h).dirtyTime)
    if s.isBoundary segment h then
      (if requiredSegment || hasTimedOutBlocks || minFlushBlockCount ≤ segment.length then
        s.segmentWrite segments segment
      else []) ++ s.flushFrom curTime (update segments 0 (some h)) [h] false false rest
    else
      s.flushFrom curTime (update segments segment.length (some h)) (segment ++ [h])
        requiredSegment hasTimedOutBlocks rest

/-- The writes of `FlushBlockList_trw` for a list that is already sorted. What the
array holds from the call before does not matter. -/
def State.flushBlockList (s : State n) (curTime : Int) (segments : Nat → Option (Fin n))
    (blockList : List (Fin n)) : List (SegmentWrite n) :=
  s.flushFrom curTime segments [] false false blockList

/-! ## The segments -/

/-- The loop without the array. -/
def State.flushedSegments (s : State n) (curTime : Int) :
    (segment : List (Fin n)) → (requiredSegment hasTimedOutBlocks : Bool) →
      (rest : List (Fin n)) → List (List (Fin n))
  | segment, requiredSegment, hasTimedOutBlocks, [] =>
    if requiredSegment || hasTimedOutBlocks || minFlushBlockCount ≤ segment.length then [segment]
    else []
  | segment, requiredSegment, hasTimedOutBlocks, h :: rest =>
    let requiredSegment := requiredSegment || (s.header h).flushRequested
    let hasTimedOutBlocks := hasTimedOutBlocks ||
      (!requiredSegment && flushPeriod ≤ curTime - (s.header h).dirtyTime)
    if s.isBoundary segment h then
      (if requiredSegment || hasTimedOutBlocks || minFlushBlockCount ≤ segment.length then
        [segment]
      else []) ++ s.flushedSegments curTime [h] false false rest
    else s.flushedSegments curTime (segment ++ [h]) requiredSegment hasTimedOutBlocks rest

/-- The array holds the entries of the segment that has been collected so far. -/
def Collected (segments : Nat → Option (Fin n)) (segment : List (Fin n)) : Prop :=
  ∀ i < segment.length, segments i = segment[i]?

theorem Collected.append {segments : Nat → Option (Fin n)} {segment : List (Fin n)}
    (collected : Collected segments segment) (h : Fin n) :
    Collected (update segments segment.length (some h)) (segment ++ [h]) := by
  intro i below
  rw [length_append, length_singleton] at below
  rcases Nat.lt_succ_iff_lt_or_eq.1 below with earlier | rfl
  · rw [update_of_ne (Nat.ne_of_lt earlier), collected i earlier,
      getElem?_append_left earlier]
  · simp

theorem Collected.map_range {segments : Nat → Option (Fin n)} {segment : List (Fin n)}
    (collected : Collected segments segment) :
    (range segment.length).map segments = segment.map some := by
  apply ext_getElem?
  intro i
  rcases Nat.lt_or_ge i segment.length with inside | beyond
  · simp [inside, collected i inside]
  · simp [beyond]

/-- The write whose entries are the segment's own buffers. -/
def State.ownWrite (s : State n) : List (Fin n) → List (SegmentWrite n)
  | [] => []
  | start :: more =>
    [{ device := (s.header start).device
       offset := (s.header start).bufferNumber * bufferBlockSize
       segments := (start :: more).map some }]

theorem State.segmentWrite_of_collected {segments : Nat → Option (Fin n)} {segment : List (Fin n)}
    (collected : Collected segments segment) :
    s.segmentWrite segments segment = s.ownWrite segment := by
  cases segment with
  | nil => rfl
  | cons start more =>
    unfold segmentWrite ownWrite
    rw [collected.map_range]

theorem State.flushFrom_eq (rest : List (Fin n)) :
    ∀ (segments : Nat → Option (Fin n)) (segment : List (Fin n))
      (requiredSegment hasTimedOutBlocks : Bool), Collected segments segment →
        s.flushFrom curTime segments segment requiredSegment hasTimedOutBlocks rest =
          (s.flushedSegments curTime segment requiredSegment hasTimedOutBlocks rest).flatMap
            s.ownWrite := by
  induction rest with
  | nil =>
    intro segments segment requiredSegment hasTimedOutBlocks collected
    simp only [flushFrom, flushedSegments]
    split
    · rw [segmentWrite_of_collected collected]
      simp
    · rfl
  | cons h rest ih =>
    intro segments segment requiredSegment hasTimedOutBlocks collected
    have single : Collected (update segments 0 (some h)) [h] := by
      intro i below
      obtain rfl : i = 0 := by simpa using below
      simp
    simp only [flushFrom, flushedSegments]
    split
    · rw [flatMap_append, ih _ _ _ _ single]
      congr 1
      split
      · rw [segmentWrite_of_collected collected]
        simp
      · rfl
    · exact ih _ _ _ _ (collected.append h)

/-! ## Due blocks and runs -/

def State.isDue (s : State n) (curTime : Int) (h : Fin n) : Bool :=
  (s.header h).flushRequested || flushPeriod ≤ curTime - (s.header h).dirtyTime

/-- `h` continues the segment that ends with `p`. -/
def State.follows (s : State n) (p h : Fin n) : Bool :=
  (s.header p).device = (s.header h).device ∧
    (s.header p).bufferNumber + 1 = (s.header h).bufferNumber

theorem State.isBoundary_eq {segment : List (Fin n)} {p : Fin n}
    (last : segment.getLast? = some p) (h : Fin n) :
    s.isBoundary segment h = !s.follows p h := by
  unfold isBoundary follows
  rw [last]
  simp only [ne_eq, ← not_and_or, decide_not]

theorem State.flags_after (requiredSegment hasTimedOutBlocks : Bool) (h : Fin n) :
    (requiredSegment || (s.header h).flushRequested ||
      (hasTimedOutBlocks || (!(requiredSegment || (s.header h).flushRequested) &&
        flushPeriod ≤ curTime - (s.header h).dirtyTime))) =
      (requiredSegment || hasTimedOutBlocks || s.isDue curTime h) := by
  unfold isDue
  cases requiredSegment <;> cases (s.header h).flushRequested <;> cases hasTimedOutBlocks <;> simp

/-- The blocks of a list in stretches of consecutive buffers of one device. -/
def State.runs (s : State n) (blocks : List (Fin n)) : List (List (Fin n)) :=
  blocks.splitBy s.follows

/-- Whether the loop writes a run: `seen` is set when it has found one of its
blocks due, and the flags of the block after it count too. -/
def State.writesRun (s : State n) (curTime : Int) (seen : Bool) (run : List (Fin n))
    (post : List (List (Fin n))) : Bool :=
  seen || (post.head?.bind head?).any (s.isDue curTime) || minFlushBlockCount ≤ run.length

/-- The runs the loop writes when it has looked at the flags of the first block
only if `whole` is set. -/
def State.writtenRuns (s : State n) (curTime : Int) :
    (whole : Bool) → List (List (Fin n)) → List (List (Fin n))
  | _, [] => []
  | whole, run :: post =>
    let looked := if whole then run else run.tail
    (if s.writesRun curTime (looked.any (s.isDue curTime)) run post then [run] else []) ++
      s.writtenRuns curTime false post

theorem State.flushedSegments_run (curTime : Int) (more : List (Fin n)) :
    ∀ (segment : List (Fin n)) (requiredSegment hasTimedOutBlocks : Bool) (rest : List (Fin n)),
      segment ≠ [] → (segment ++ more).IsChain (fun p h => s.follows p h = true) →
      ∃ requiredSegment' hasTimedOutBlocks', (requiredSegment' || hasTimedOutBlocks') =
          (requiredSegment || hasTimedOutBlocks || more.any (s.isDue curTime)) ∧
        s.flushedSegments curTime segment requiredSegment hasTimedOutBlocks (more ++ rest) =
          s.flushedSegments curTime (segment ++ more) requiredSegment' hasTimedOutBlocks' rest := by
  induction more with
  | nil =>
    intro segment requiredSegment hasTimedOutBlocks rest _ _
    exact ⟨requiredSegment, hasTimedOutBlocks, by simp, by simp⟩
  | cons h more ih =>
    intro segment requiredSegment hasTimedOutBlocks rest some' chain
    obtain ⟨front, p, rfl⟩ : ∃ front p, segment = front ++ [p] :=
      ⟨_, _, (dropLast_append_getLast some').symm⟩
    have follows : s.follows p h = true := by
      rw [append_assoc] at chain
      exact (isChain_cons_cons.1 chain.right_of_append).1
    have inside : s.isBoundary (front ++ [p]) h = false := by
      rw [isBoundary_eq (p := p) (by simp), follows]
      rfl
    rw [append_cons] at chain
    obtain ⟨requiredSegment', hasTimedOutBlocks', flags, same⟩ :=
      ih (front ++ [p] ++ [h]) _ _ rest (by simp) chain
    refine ⟨requiredSegment', hasTimedOutBlocks', ?_, ?_⟩
    · rw [flags, flags_after, any_cons, Bool.or_assoc]
    · rw [cons_append, flushedSegments]
      simp only [inside, Bool.false_eq_true, if_false]
      rw [same, append_cons (front ++ [p]) h more]

/-- Runs as `splitBy` gives them. -/
structure State.AreRuns (s : State n) (runs : List (List (Fin n))) : Prop where
  nonempty : [] ∉ runs
  consecutive : ∀ run ∈ runs, run.IsChain fun p h => s.follows p h = true
  boundaries : runs.IsChain fun run next =>
    ∃ some' some'', s.follows (run.getLast some') (next.head some'') = false

theorem State.runs_areRuns (blocks : List (Fin n)) : s.AreRuns (s.runs blocks) :=
  ⟨nil_notMem_splitBy _ _, fun _ => isChain_of_mem_splitBy, isChain_getLast_head_splitBy _ _⟩

theorem State.AreRuns.tail {run : List (Fin n)} {post : List (List (Fin n))}
    (areRuns : s.AreRuns (run :: post)) : s.AreRuns post where
  nonempty := fun mem => areRuns.nonempty (mem_cons_of_mem _ mem)
  consecutive := fun run mem => areRuns.consecutive run (mem_cons_of_mem _ mem)
  boundaries := areRuns.boundaries.tail

theorem State.flushedSegments_runs {post : List (List (Fin n))} :
    ∀ {h : Fin n} {more : List (Fin n)} {requiredSegment hasTimedOutBlocks : Bool},
      s.AreRuns ((h :: more) :: post) →
      s.flushedSegments curTime [h] requiredSegment hasTimedOutBlocks (more ++ post.flatten) =
        (if s.writesRun curTime (requiredSegment || hasTimedOutBlocks || more.any (s.isDue curTime))
            (h :: more) post then [h :: more] else []) ++ s.writtenRuns curTime false post := by
  induction post with
  | nil =>
    intro h more requiredSegment hasTimedOutBlocks areRuns
    obtain ⟨requiredSegment', hasTimedOutBlocks', flags, same⟩ :=
      flushedSegments_run curTime more [h] requiredSegment hasTimedOutBlocks []
        (cons_ne_nil _ _) (areRuns.consecutive _ mem_cons_self)
    rw [flatten_nil, same, flushedSegments, flags]
    simp [writesRun, writtenRuns]
  | cons next post ih =>
    intro h more requiredSegment hasTimedOutBlocks areRuns
    obtain ⟨h', more', rfl⟩ : ∃ h' more', next = h' :: more' :=
      exists_cons_of_ne_nil fun empty =>
        areRuns.nonempty (empty ▸ mem_cons_of_mem _ mem_cons_self)
    obtain ⟨requiredSegment', hasTimedOutBlocks', flags, same⟩ :=
      flushedSegments_run curTime more [h] requiredSegment hasTimedOutBlocks
        (h' :: (more' ++ post.flatten)) (cons_ne_nil _ _)
        (areRuns.consecutive _ mem_cons_self)
    rw [singleton_append] at same
    have boundary : s.isBoundary (h :: more) h' = true := by
      obtain ⟨some', _, apart⟩ := (isChain_cons_cons.1 areRuns.boundaries).1
      rw [head_cons] at apart
      rw [isBoundary_eq (getLast?_eq_some_getLast some'), apart]
      rfl
    rw [flatten_cons, cons_append, same, flushedSegments]
    simp only [boundary, if_true]
    rw [flags_after, flags, ih areRuns.tail]
    simp [writesRun, writtenRuns]

theorem State.flushBlockList_eq (segments : Nat → Option (Fin n)) (blockList : List (Fin n)) :
    s.flushBlockList curTime segments blockList =
      (s.writtenRuns curTime true (s.runs blockList)).flatMap s.ownWrite := by
  have empty : Collected segments [] := fun _ below => absurd below (Nat.not_lt_zero _)
  unfold flushBlockList
  rw [flushFrom_eq blockList segments [] false false empty]
  congr 1
  have areRuns := s.runs_areRuns blockList
  have joined : (s.runs blockList).flatten = blockList := flatten_splitBy _ _
  cases parts : s.runs blockList with
  | nil =>
    rw [parts] at joined
    rw [← joined]
    rfl
  | cons run post =>
    rw [parts] at joined areRuns
    obtain ⟨h, more, rfl⟩ : ∃ h more, run = h :: more :=
      exists_cons_of_ne_nil fun empty => areRuns.nonempty (empty ▸ mem_cons_self)
    rw [← joined, flatten_cons, cons_append, flushedSegments]
    have first : s.isBoundary [] h = false := rfl
    simp only [first, Bool.false_eq_true, if_false, nil_append]
    rw [flushedSegments_runs areRuns, flags_after]
    simp [writtenRuns]

/-! ## What is written -/

/-- The due blocks of the list are handed to the device, each as often as it is in
the list, which is once. A write is of consecutive buffers of one device, each at
its own offset. -/
structure State.FlushesDue (s : State n) (curTime : Int) (blockList : List (Fin n))
    (writes : List (SegmentWrite n)) : Prop where
  due : ∀ h ∈ blockList, s.isDue curTime h = true →
    (writes.flatMap SegmentWrite.segments).count (some h) = blockList.count h
  ownPlace : ∀ w ∈ writes, ∃ blocks, w.segments = blocks.map some ∧ blocks ⊆ blockList ∧
    ∀ i h, blocks[i]? = some h → (s.header h).device = w.device ∧
      (s.header h).bufferNumber * bufferBlockSize = w.offset + i * bufferBlockSize

/-- No segment but the first rests on the flags of its first block alone: the loop
looks at these before it closes the segment in front and forgets them then. -/
def State.FlagsSeen (s : State n) (curTime : Int) (blocks : List (Fin n)) : Prop :=
  ∀ pre run post, s.runs blocks = pre ++ run :: post → pre ≠ [] →
    (∃ h ∈ run.head?, s.isDue curTime h = true) → (∃ h ∈ run.tail, s.isDue curTime h = true) ∨
        (∃ h ∈ post.head?.bind head?, s.isDue curTime h = true) ∨
        minFlushBlockCount ≤ run.length

theorem State.writtenRuns_sublist (whole : Bool) (runs : List (List (Fin n))) :
    (s.writtenRuns curTime whole runs).Sublist runs := by
  induction runs generalizing whole with
  | nil => exact .refl _
  | cons run post ih =>
    unfold writtenRuns
    dsimp only
    generalize s.writesRun curTime _ run post = written
    cases written with
    | true => exact (ih false).cons_cons run
    | false => exact (ih false).cons run

theorem State.count_writtenRuns (curTime : Int) (h : Fin n) (runs : List (List (Fin n))) :
    ∀ (whole : Bool), (s.writtenRuns curTime whole runs).flatten.count h = runs.flatten.count h ↔
      ∀ pre run post, runs = pre ++ run :: post → h ∈ run →
        s.writesRun curTime ((if whole && pre.isEmpty then run else run.tail).any (s.isDue curTime))
          run post = true := by
  induction runs with
  | nil =>
    intro whole
    simp [writtenRuns]
  | cons run post ih =>
    intro whole
    have fewer : (s.writtenRuns curTime false post).flatten.count h ≤ post.flatten.count h :=
      ((writtenRuns_sublist false post).flatten).count_le h
    have split : (s.writtenRuns curTime whole (run :: post)).flatten.count h =
        (run :: post).flatten.count h ↔
        (h ∈ run → s.writesRun curTime ((if whole then run else run.tail).any (s.isDue curTime))
          run post = true) ∧
        (s.writtenRuns curTime false post).flatten.count h = post.flatten.count h := by
      simp only [writtenRuns]
      by_cases written : s.writesRun curTime
          ((if whole then run else run.tail).any (s.isDue curTime)) run post = true
      · simp [written]
      · by_cases mem : h ∈ run
        · have some' := count_pos_iff.2 mem
          simp only [written, mem, flatten_cons, count_append]
          simp only [Bool.false_eq_true, if_false, nil_append, forall_const, false_and, iff_false]
          omega
        · simp [written, mem, count_eq_zero.2 mem]
    rw [split, ih false]
    constructor
    · intro ⟨first, others⟩ pre run' post' parts mem
      cases pre with
      | nil =>
        cases parts
        simpa using first mem
      | cons run'' pre =>
        cases parts
        simpa using others pre run' post' rfl mem
    · intro all
      refine ⟨fun mem => ?_, fun pre run' post' parts mem => ?_⟩
      · simpa using all [] run post rfl mem
      · simpa using all (run :: pre) run' post' (congrArg (run :: ·) parts) mem

theorem State.flatMap_ownWrite {runs : List (List (Fin n))} :
    (runs.flatMap s.ownWrite).flatMap SegmentWrite.segments = runs.flatten.map some := by
  induction runs with
  | nil => rfl
  | cons run post ih =>
    rw [flatMap_cons, flatMap_append, ih, flatten_cons, map_append]
    congr 1
    cases run <;> simp [ownWrite]

theorem State.bufferNumber_of_chain {h : Fin n} {more : List (Fin n)}
    (chain : (h :: more).IsChain fun p h => s.follows p h = true) (i : Nat) (h' : Fin n)
    (at' : (h :: more)[i]? = some h') :
    (s.header h').device = (s.header h).device ∧
      (s.header h').bufferNumber = (s.header h).bufferNumber + i := by
  induction more generalizing h i with
  | nil =>
    cases i with
    | zero =>
      cases at'
      exact ⟨rfl, rfl⟩
    | succ i => cases at'
  | cons next more ih =>
    cases i with
    | zero =>
      cases at'
      exact ⟨rfl, rfl⟩
    | succ i =>
      obtain ⟨next', chain⟩ := isChain_cons_cons.1 chain
      obtain ⟨device, number⟩ := ih chain i at'
      unfold State.follows at next'
      rw [decide_eq_true_eq] at next'
      exact ⟨device.trans next'.1.symm, by omega⟩

theorem State.mem_runs {blocks run : List (Fin n)} {h : Fin n} (ofList : run ∈ s.runs blocks)
    (mem : h ∈ run) : h ∈ blocks := by
  rw [← flatten_splitBy s.follows blocks]
  exact mem_flatten.2 ⟨run, ofList, mem⟩

section

variable (segments : Nat → Option (Fin n))

theorem State.flushBlockList_ownPlace
    {blocks : List (Fin n)} {w : SegmentWrite n}
    (mem : w ∈ s.flushBlockList curTime segments blocks) :
    ∃ own, w.segments = own.map some ∧ own ⊆ blocks ∧
      ∀ i h, own[i]? = some h → (s.header h).device = w.device ∧
        (s.header h).bufferNumber * bufferBlockSize = w.offset + i * bufferBlockSize := by
  rw [flushBlockList_eq, mem_flatMap] at mem
  obtain ⟨run, written, mem⟩ := mem
  have ofList := (writtenRuns_sublist true _).subset written
  cases run with
  | nil => exact absurd ofList (s.runs_areRuns blocks).nonempty
  | cons start more =>
    obtain rfl := mem_singleton.1 mem
    refine ⟨start :: more, rfl, fun _ => mem_runs ofList, fun i h at' => ?_⟩
    obtain ⟨device, number⟩ :=
      bufferNumber_of_chain ((s.runs_areRuns blocks).consecutive _ ofList) i h at'
    exact ⟨device, by rw [number, Nat.add_mul]⟩

theorem State.count_flushBlockList (blocks : List (Fin n))
    (h : Fin n) :
    ((s.flushBlockList curTime segments blocks).flatMap SegmentWrite.segments).count (some h) =
        blocks.count h ↔
      ∀ pre run post, s.runs blocks = pre ++ run :: post → h ∈ run →
        s.writesRun curTime ((if pre.isEmpty then run else run.tail).any (s.isDue curTime))
          run post = true := by
  rw [flushBlockList_eq, flatMap_ownWrite, count_map_of_injective _ _ (Option.some_injective _)]
  have joined : (s.runs blocks).flatten = blocks := flatten_splitBy _ _
  have counted := s.count_writtenRuns curTime h (s.runs blocks) true
  rw [joined] at counted
  exact counted

/-- A round writes the due blocks of its list exactly when no segment but the first
rests on the flags of its first block. `sorted` is the list as `std::sort` leaves
it, whatever it does with equal keys. -/
theorem flushBlockList_flushesDue
    {blockList sorted : List (Fin n)} (order : sorted.Perm blockList) :
    s.FlushesDue curTime blockList (s.flushBlockList curTime segments sorted) ↔
      s.FlagsSeen curTime sorted := by
  constructor
  · intro flushes pre run post parts notFirst first
    obtain ⟨h, head, isDue⟩ := first
    have mem : h ∈ run := mem_of_mem_head? head
    have ofList : run ∈ s.runs sorted := parts ▸ mem_append_right _ mem_cons_self
    have count := flushes.due h (order.subset (State.mem_runs ofList mem)) isDue
    rw [← order.count_eq, State.count_flushBlockList] at count
    have written := count pre run post parts mem
    rw [if_neg (by simpa using notFirst)] at written
    simpa [State.writesRun, or_assoc, Option.any_eq_true] using written
  · intro seen
    refine ⟨fun h mem isDue => ?_, fun w mem => ?_⟩
    · rw [← order.count_eq, State.count_flushBlockList]
      intro pre run post parts inRun
      rcases eq_or_ne pre [] with rfl | notFirst
      · have any : run.any (s.isDue curTime) = true := any_eq_true.2 ⟨h, inRun, isDue⟩
        simp [State.writesRun, any]
      · have kept := seen pre run post parts notFirst
        cases run with
        | nil => cases inRun
        | cons first more =>
          rw [if_neg (by simpa using notFirst)]
          rcases mem_cons.1 inRun with rfl | later
          · simpa [State.writesRun, or_assoc, Option.any_eq_true] using kept ⟨h, rfl, isDue⟩
          · have any : more.any (s.isDue curTime) = true := any_eq_true.2 ⟨h, later, isDue⟩
            simp [State.writesRun, any]
    · obtain ⟨own, segments', inside, place⟩ := State.flushBlockList_ownPlace segments mem
      exact ⟨own, segments', fun _ inOwn => order.subset (inside inOwn), place⟩

end

/-- Two dirty blocks of a device, buffers 0 and 5. A flush of buffer 5 is
requested, buffer 0 has just become dirty. -/
def twoBlocks : State 2 :=
  { initialState 2 with
    header := fun h =>
      if h = 0 then { device := 3, dirty := true, isFlushing := true }
      else { device := 3, bufferNumber := 5, dirty := true, isFlushing := true
             flushRequested := true } }

theorem flushBlockList_flushesDue_twoBlocks :
    twoBlocks.FlushesDue 0 [1, 0] (twoBlocks.flushBlockList 0 (fun _ => none) [0, 1]) ↔
      twoBlocks.FlagsSeen 0 [0, 1] :=
  flushBlockList_flushesDue (fun _ => none) (.swap 1 0 [])

/-- Buffer 0 is written in place of the requested one. -/
theorem requested_block_not_written :
    twoBlocks.flushBlockList 0 (fun _ => none) [0, 1] =
        [{ device := 3, offset := 0, segments := [some 0] }] ∧
      ¬ twoBlocks.FlushesDue 0 [0, 1] (twoBlocks.flushBlockList 0 (fun _ => none) [0, 1]) := by
  refine ⟨by decide +kernel, fun flushes => ?_⟩
  exact absurd (flushes.due 1 (by decide) (by decide)) (by decide +kernel)

end PadOS.BlockCache
