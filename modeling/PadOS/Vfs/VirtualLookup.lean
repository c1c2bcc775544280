import PadOS.Vfs.VirtualTree

/-! # Looking up in the virtual filesystem

By name, by number and by reading a directory in pieces, the same tree is seen.
-/

namespace PadOS.Vfs.VirtualFilesystem

open Function NamedTree Transition List Option
open PadOS.Unicode (PString)
open PadOS.Fat (DirentLayout)

namespace KVirtualFSVolume

variable {s t : KVirtualFSVolume} {dir ref index bufferSize : Nat} {inode : KVirtualFSBaseInode}
  {name : PString} {id : Int} {layout : DirentLayout}

theorem mem_childList {child : Nat} : (name, child) ∈ s.childList dir ↔ s.entry dir name = some child := by
  unfold childList entry
  cases s.inodes dir with
  | none => simp
  | some inode => exact Std.TreeMap.mem_toList_iff_getElem?_eq_some

theorem childList_nodup (s : KVirtualFSVolume) (dir : Nat) : ((s.childList dir).map Prod.fst).Nodup := by
  unfold childList
  cases s.inodes dir with
  | none => exact nodup_nil
  | some inode =>
    rw [elim_some, List.Nodup, pairwise_map]
    apply inode.children.distinct_keys_toList.imp
    intro a b differ same
    exact differ (Std.LawfulEqOrd.compare_eq_iff_eq.2 same)

/-! ## By number -/

/-- A search below a directory finds the inode with the number or says that there is none. -/
def Finds (s : KVirtualFSVolume) (id : Int) (dir : Nat) (result : Run Nat) : Prop :=
  (∃ ref, Under s.entry dir ref ∧ s.inodeID ref = some id ∧ result = pure ref) ∨
    ((∀ ref, Under s.entry dir ref → s.inodeID ref ≠ some id) ∧ result = throw (.throws .io))

theorem findChild_spec {find : Nat → Run Nat} (children : List (PString × Nat))
    (finds : ∀ child ∈ children, s.isDirectory child.2 → s.Finds id child.2 (find child.2))
    (leaves : ∀ child ∈ children, ¬s.isDirectory child.2 → ∀ n, s.entry child.2 n = none) :
    (∃ child ∈ children, ∃ ref, Under s.entry child.2 ref ∧ s.inodeID ref = some id ∧
        s.findChild id find children = pure ref) ∨
      ((∀ child ∈ children, ∀ ref, Under s.entry child.2 ref → s.inodeID ref ≠ some id) ∧
        s.findChild id find children = throw (.throws .io)) := by
  induction children with
  | nil => exact .inr ⟨fun _ impossible => absurd impossible not_mem_nil, rfl⟩
  | cons child children ih =>
    have rest := ih (fun c member => finds c (.tail child member)) fun c member => leaves c (.tail child member)
    rw [findChild]
    by_cases isThis : s.inodeID child.2 = some id
    · rw [if_pos isThis]
      exact .inl ⟨child, .head children, child.2, .refl, isThis, rfl⟩
    rw [if_neg isThis]
    -- where the child and what is below it do not have the number
    have passes (none : ∀ ref, Under s.entry child.2 ref → s.inodeID ref ≠ some id) :
        (∃ c ∈ child :: children, ∃ ref, Under s.entry c.2 ref ∧ s.inodeID ref = some id ∧
            s.findChild id find children = pure ref) ∨
          ((∀ c ∈ child :: children, ∀ ref, Under s.entry c.2 ref → s.inodeID ref ≠ some id) ∧
            s.findChild id find children = throw (.throws .io)) := by
      rcases rest with ⟨c, member, found⟩ | ⟨absent, failed⟩
      · exact .inl ⟨c, .tail child member, found⟩
      · refine .inr ⟨?_, failed⟩
        intro c member
        rcases mem_cons.1 member with rfl | member
        · exact none
        · exact absent c member
    by_cases isDir : s.isDirectory child.2
    · rw [if_pos isDir]
      rcases finds child (.head children) isDir with ⟨ref, under, isNumber, found⟩ | ⟨none, failed⟩
      · rw [found]
        exact .inl ⟨child, .head children, ref, under, isNumber, rfl⟩
      · rw [failed]
        exact passes none
    · rw [if_neg isDir]
      apply passes
      intro ref under
      rcases under.cases_head with rfl | ⟨n, b, entered, _⟩
      · exact isThis
      · rw [leaves child (.head children) isDir n] at entered
        cases entered

theorem findInode_spec (sound : s.Sound) (reachable : s.Reachable dir) {depth : Nat}
    (enough : s.nextRef ≤ dir + depth) : s.Finds id dir (s.findInode id depth dir) := by
  induction depth generalizing dir with
  | zero =>
    rcases sound.exists_of_reachable reachable with ⟨inode, found⟩
    have := sound.lt_nextRef found
    omega
  | succ depth ih =>
    rw [findInode]
    by_cases isThis : s.inodeID dir = some id
    · rw [if_pos isThis]
      exact .inl ⟨dir, .refl, isThis, rfl⟩
    rw [if_neg isThis]
    have entered {child : PString × Nat} (member : child ∈ s.childList dir) :
        s.entry dir child.1 = some child.2 := mem_childList.1 member
    have searched := findChild_spec (s := s) (s.childList dir)
      (fun child member _ => ih (.tail reachable (entered member)) (by
        have := sound.later (entered member)
        omega))
      (fun child member notDir n => by
        cases below : s.entry child.2 n with
        | none => rfl
        | some b => exact absurd (sound.directory (.tail reachable (entered member)) below) notDir)
    rcases searched with ⟨child, member, ref, under, isNumber, found⟩ | ⟨absent, failed⟩
    · exact .inl ⟨ref, .head (entered member) under, isNumber, found⟩
    · refine .inr ⟨?_, failed⟩
      intro ref under
      rcases under.cases_head with rfl | ⟨n, b, below, under⟩
      · exact isThis
      · exact absent (n, b) (mem_childList.2 below) ref under

theorem loadInode_spec (sound : s.Sound) (id : Int) : s.Finds id rootNode (s.loadInode id) := by
  unfold loadInode
  by_cases isRoot : s.inodeID rootNode = some id
  · rw [if_pos isRoot]
    exact .inl ⟨rootNode, .refl, isRoot, rfl⟩
  · rw [if_neg isRoot]
    exact findInode_spec sound .refl (Nat.le_add_left ..)

/-! ## By reading the directory -/

def childDirent (s : KVirtualFSVolume) (child : PString × Nat) : Dirent where
  volumeID := s.volumeID
  inodeID := (s.inodes child.2).elim 0 (·.inodeID)
  type := (s.inodes child.2).elim .unknown (·.fileType)
  name := child.1

theorem dirent_eq (found : (s.inodes ref).isSome) : s.dirent name ref = some (s.childDirent (name, ref)) := by
  rcases isSome_iff_exists.1 found with ⟨inode, found⟩
  simp [dirent, childDirent, found]

/-- The records from an index on, where the children from there on are known. -/
def pending (s : KVirtualFSVolume) (dir index : Nat) (children : List (PString × Nat)) : List Dirent :=
  if index = 0 then
    s.childDirent (dotName, dir) :: ((s.dotDotDirent dir).toList ++ children.map s.childDirent)
  else if s.haveParent dir ∧ index = 1 then (s.dotDotDirent dir).toList ++ children.map s.childDirent
  else children.map s.childDirent

/-- All records of a directory, in the order in which they are read. -/
def listing (s : KVirtualFSVolume) (dir : Nat) : List Dirent := s.pending dir 0 (s.childList dir)

section

variable (sound : s.Sound) (reachable : s.Reachable dir)

include sound reachable

theorem Sound.parent_of_reachable (notRoot : dir ≠ rootNode) :
    ∃ parent, s.parent dir = some parent ∧ (s.inodes parent).isSome := by
  cases reachable with
  | refl => exact absurd rfl notRoot
  | @tail parent _ name above entered =>
    rcases sound.exists_of_reachable above with ⟨inode, found⟩
    exact ⟨parent, sound.tree.parent_eq above entered, by rw [found]; rfl⟩

theorem dotDotDirent_spec :
    (s.dotDotDirent dir).isSome = s.haveParent dir := by
  unfold dotDotDirent haveParent
  by_cases isRoot : dir = rootNode
  · simp [isRoot]
  · rcases sound.parent_of_reachable reachable isRoot with ⟨parent, isParent, found⟩
    simp [isRoot, isParent, dirent_eq found]

theorem pending_cons {children : List (PString × Nat)}
    (entered : ∀ child ∈ children, s.entry dir child.1 = some child.2)
    (more : (index = 0 ∨ s.haveParent dir ∧ index = 1) ∨ children ≠ []) :
    ∃ next, (if index = 0 then s.dirent dotName dir
        else if s.haveParent dir ∧ index = 1 then s.dotDotDirent dir
        else children.head?.bind fun child => s.dirent child.1 child.2) = some next ∧
      s.pending dir index children = next :: s.pending dir (index + 1)
        (if index = 0 ∨ s.haveParent dir ∧ index = 1 then children else children.tail) := by
  have dotDot := dotDotDirent_spec sound reachable
  by_cases first : index = 0
  · rcases sound.exists_of_reachable reachable with ⟨inode, found⟩
    have isSome : (s.inodes dir).isSome := by rw [found]; rfl
    refine ⟨s.childDirent (dotName, dir), by rw [if_pos first, dirent_eq isSome], ?_⟩
    cases parent : s.haveParent dir with
    | true => simp [pending, first, parent]
    | false =>
      have none : s.dotDotDirent dir = none := by simpa [parent] using dotDot
      simp [pending, first, parent, none]
  · by_cases second : s.haveParent dir ∧ index = 1
    · rw [second.1] at dotDot
      rcases isSome_iff_exists.1 dotDot with ⟨next, isNext⟩
      exact ⟨next, by simp [second, isNext], by simp [pending, second, isNext]⟩
    · cases children with
      | nil => simp [first, second] at more
      | cons child children =>
        have isSome := sound.found (entered child (.head children))
        exact ⟨s.childDirent child, by simp [first, second, dirent_eq isSome],
          by simp [pending, first, second]⟩

end

/-- There is no room for the record. -/
def NoRoom (layout : DirentLayout) (room : Nat) (record : Dirent) : Prop :=
  layout.recordSize record.name.length = 0 ∨ room < layout.recordSize record.name.length

section

variable (sound : s.Sound) (reachable : s.Reachable dir)

include sound reachable

theorem readLoop_spec (layout : DirentLayout)
    (bufferSize rounds written index : Nat) (entries : List Dirent) {children : List (PString × Nat)}
    (entered : ∀ child ∈ children, s.entry dir child.1 = some child.2)
    (enough : (s.pending dir index children).length < rounds) :
    (∃ m ≤ (s.pending dir index children).length,
        s.readLoop layout dir bufferSize rounds written entries index children =
          pure (entries ++ (s.pending dir index children).take m, index + m) ∧
        (m = 0 → written = 0 → layout.recordSize 0 ≤ bufferSize → s.pending dir index children = [])) ∨
      (written = 0 ∧ s.readLoop layout dir bufferSize rounds written entries index children =
          throw (.throws .nametoolong) ∧
        ∃ next ∈ (s.pending dir index children).head?, NoRoom layout bufferSize next) := by
  induction rounds generalizing written entries index children with
  | zero => omega
  | succ rounds ih =>
    rw [readLoop]
    by_cases full : bufferSize - written < layout.recordSize 0
    · rw [if_pos full]
      refine .inl ⟨0, zero_le, by simp, ?_⟩
      intro _ none room
      omega
    rw [if_neg full]
    by_cases ended : ¬(index = 0 ∨ s.haveParent dir ∧ index = 1) ∧ children = []
    · have none : s.pending dir index children = [] := by
        have := not_or.1 ended.1
        simp [pending, this.1, this.2, ended.2]
      simp only [if_pos ended]
      exact .inl ⟨0, zero_le, by simp, fun _ _ _ => none⟩
    have more : (index = 0 ∨ s.haveParent dir ∧ index = 1) ∨ children ≠ [] := by
      by_contra neither
      exact ended ⟨fun synthetic => neither (.inl synthetic), by_contra fun some => neither (.inr some)⟩
    rcases pending_cons sound reachable entered more with ⟨next, isNext, isPending⟩
    simp only [if_neg ended, isNext]
    by_cases noRoom : layout.recordSize next.name.length = 0 ∨
        layout.recordSize next.name.length > bufferSize - written
    · rw [if_pos noRoom]
      by_cases nothing : written = 0
      · rw [if_pos nothing]
        refine .inr ⟨nothing, rfl, next, by simp [isPending], ?_⟩
        rw [nothing, Nat.sub_zero] at noRoom
        exact noRoom
      · rw [if_neg nothing]
        exact .inl ⟨0, zero_le, by simp, fun _ none => absurd none nothing⟩
    · rw [if_neg noRoom]
      have entered' : ∀ child ∈ (if index = 0 ∨ s.haveParent dir ∧ index = 1 then children else children.tail),
          s.entry dir child.1 = some child.2 := by
        intro child member
        split at member
        · exact entered child member
        · exact entered child (mem_of_mem_tail member)
      rw [isPending] at enough ⊢
      rw [length_cons] at enough
      have wrote : written + layout.recordSize next.name.length ≠ 0 := by omega
      rcases ih (written + layout.recordSize next.name.length) (index + 1) (entries ++ [next]) entered'
        (by omega) with ⟨m, bound, result, _⟩ | ⟨nothing, _⟩
      · refine .inl ⟨m + 1, Nat.succ_le_succ bound, ?_, fun none => absurd none (Nat.succ_ne_zero m)⟩
        rw [result, append_assoc, take_succ_cons, add_assoc, add_comm 1 m]
        rfl
      · exact absurd nothing wrote

theorem pending_drop (index : Nat) :
    s.pending dir index ((s.childList dir).drop
      (min (if index ≥ (if s.haveParent dir then 2 else 1) then index - (if s.haveParent dir then 2 else 1) else 0)
        (s.childList dir).length)) = (s.listing dir).drop index := by
  have dotDot := dotDotDirent_spec sound reachable
  have whole (k) : (s.childList dir).drop (min k (s.childList dir).length) = (s.childList dir).drop k := by
    rcases Nat.le_total k (s.childList dir).length with small | large
    · rw [min_eq_left small]
    · rw [min_eq_right large, drop_length, drop_eq_nil_of_le large]
  rw [whole]
  cases parent : s.haveParent dir with
  | true =>
    rw [parent] at dotDot
    rcases isSome_iff_exists.1 dotDot with ⟨next, isNext⟩
    match index with
    | 0 => simp [listing, pending]
    | 1 => simp [listing, pending, parent, isNext]
    | index + 2 => simp [listing, pending, isNext, map_drop]
  | false =>
    have none : s.dotDotDirent dir = none := by simpa [parent] using dotDot
    match index with
    | 0 => simp [listing, pending]
    | index + 1 => simp [listing, pending, parent, none, map_drop]

theorem readDirectory_spec (layout : DirentLayout)
    (index bufferSize : Nat) :
    (∃ m ≤ ((s.listing dir).drop index).length,
        s.readDirectory layout dir index bufferSize = pure (((s.listing dir).drop index).take m, index + m) ∧
        (m = 0 → (s.listing dir).drop index = [])) ∨
      ∃ stop, s.readDirectory layout dir index bufferSize = throw stop ∧
        (bufferSize < layout.recordSize 0 ∨
          ∃ next ∈ ((s.listing dir).drop index).head?, NoRoom layout bufferSize next) := by
  unfold readDirectory
  by_cases small : bufferSize < layout.recordSize 0
  · rw [if_pos small]
    exact .inr ⟨_, rfl, .inl small⟩
  rw [if_neg small]
  have isPending := pending_drop sound reachable index
  have entered : ∀ child ∈ (s.childList dir).drop
      (min (if index ≥ (if s.haveParent dir then 2 else 1) then index - (if s.haveParent dir then 2 else 1) else 0)
        (s.childList dir).length), s.entry dir child.1 = some child.2 :=
    fun child member => mem_childList.1 (mem_of_mem_drop member)
  have bound : ∀ children, (s.pending dir index children).length < children.length + 3 := by
    intro children
    have : (s.dotDotDirent dir).toList.length ≤ 1 := by cases s.dotDotDirent dir <;> simp
    unfold pending
    split
    · simp only [length_cons, length_append, length_map]
      omega
    · split
      · simp only [length_append, length_map]
        omega
      · simp
  have read := readLoop_spec sound reachable layout bufferSize _ 0 index [] entered (bound _)
  rw [isPending] at read
  rcases read with ⟨m, within, result, progress⟩ | ⟨_, result, next⟩
  · exact .inl ⟨m, within, result, fun none => progress none rfl (Nat.le_of_not_lt small)⟩
  · exact .inr ⟨_, result, .inr next⟩

end

/-- Calls one after the other, with any buffers. A call that throws gives no records. -/
def readCalls (layout : DirentLayout) (s : KVirtualFSVolume) (dir : Nat) : List Nat → Nat → List Dirent × Nat
  | [], index => ([], index)
  | bufferSize :: sizes, index =>
    match s.readDirectory layout dir index bufferSize with
    | some (.ok (records, index)) =>
      let rest := readCalls layout s dir sizes index
      (records ++ rest.1, rest.2)
    | _ => readCalls layout s dir sizes index

theorem readCalls_spec (sound : s.Sound) (reachable : s.Reachable dir) (layout : DirentLayout)
    (sizes : List Nat) (within : index ≤ (s.listing dir).length) :
    ∃ k, index + k ≤ (s.listing dir).length ∧
      s.readCalls layout dir sizes index = (((s.listing dir).drop index).take k, index + k) := by
  induction sizes generalizing index with
  | nil => exact ⟨0, within, by simp [readCalls]⟩
  | cons bufferSize sizes ih =>
    rw [readCalls]
    rcases readDirectory_spec sound reachable layout index bufferSize with
      ⟨m, bound, result, _⟩ | ⟨stop, result, _⟩
    · rw [length_drop] at bound
      rcases ih (show index + m ≤ (s.listing dir).length by omega) with ⟨k, bound', rest⟩
      refine ⟨m + k, by omega, ?_⟩
      have both : (((s.listing dir).drop index).take m ++ (s.readCalls layout dir sizes (index + m)).1,
          (s.readCalls layout dir sizes (index + m)).2) =
            (((s.listing dir).drop index).take (m + k), index + (m + k)) := by
        rw [rest, take_add, drop_drop, add_assoc]
      rw [result]
      exact both
    · rw [result]
      exact ih within

/-! ## By name -/

theorem locateInode_iff (notDot : name ≠ dotName) (notDotDot : name ≠ dotDotName)
    (proper : ∀ ref, s.entry dir name = some ref → name ≠ []) :
    s.locateInode dir name = .ok ref ↔ s.entry dir name = some ref := by
  unfold locateInode
  by_cases empty : name = []
  · have none : s.entry dir name ≠ some ref := fun entered => proper ref entered empty
    rw [if_pos empty]
    constructor
    · intro impossible
      cases impossible
    · intro entered
      exact absurd entered none
  · simp only [if_neg empty, if_neg notDot, if_neg notDotDot]
    cases entered : s.entry dir name with
    | none => simp
    | some found => simp

/-! ## The views together -/

/-- A tree, and what lookups and reading show of it. -/
structure IsVirtualTree (s : KVirtualFSVolume) : Prop where
  parent_of_entry : ∀ dir name ref, s.Reachable dir → s.entry dir name = some ref →
    (s.inodes ref).isSome ∧ s.parent ref = some dir
  name_of_entry : ∀ dir name name' ref, s.Reachable dir → s.entry dir name = some ref →
    s.entry dir name' = some ref → name = name'
  locate : ∀ dir name ref, s.Reachable dir → name ≠ dotName → name ≠ dotDotName →
    (s.locateInode dir name = .ok ref ↔ s.entry dir name = some ref)
  locate_dot : ∀ dir, s.Reachable dir → s.locateInode dir dotName = .ok dir ∧ s.entry dir dotName = none
  locate_dotDot : ∀ dir name ref, s.Reachable dir → s.entry dir name = some ref →
    s.locateInode ref dotDotName = .ok dir ∧ s.entry dir dotDotName = none
  load : ∀ id ref, s.loadInode id = pure ref ↔ s.Reachable ref ∧ s.inodeID ref = some id
  load_fails : ∀ id, (∀ ref, s.Reachable ref → s.inodeID ref ≠ some id) → s.loadInode id = throw (.throws .io)
  listed : ∀ dir name ref, (name, ref) ∈ s.childList dir ↔ s.entry dir name = some ref
  listed_once : ∀ dir, ((s.childList dir).map Prod.fst).Nodup
  read : ∀ layout dir sizes, s.Reachable dir → ∃ k ≤ (s.listing dir).length,
    s.readCalls layout dir sizes 0 = ((s.listing dir).take k, k)
  read_ends : ∀ layout dir index next size, s.Reachable dir →
    s.readDirectory layout dir index size = pure ([], next) → (s.listing dir).length ≤ index
  read_fails : ∀ layout dir index size stop, s.Reachable dir →
    s.readDirectory layout dir index size = throw stop → size < layout.recordSize 0 ∨
      ∃ record ∈ ((s.listing dir).drop index).head?, NoRoom layout size record

theorem Sound.load (sound : s.Sound) :
    s.loadInode id = pure ref ↔ s.Reachable ref ∧ s.inodeID ref = some id := by
  rcases loadInode_spec sound id with ⟨found, reachable, isNumber, result⟩ | ⟨absent, result⟩
  · rw [result, Run.pure_inj]
    constructor
    · rintro rfl
      exact ⟨reachable, isNumber⟩
    · intro ⟨reachable', isNumber'⟩
      exact sound.numbers reachable reachable' (isNumber.trans isNumber'.symm)
  · rw [result]
    constructor
    · intro impossible
      cases impossible
    · intro ⟨reachable, isNumber⟩
      exact absurd isNumber (absent ref reachable)

theorem Sound.isVirtualTree (sound : s.Sound) : s.IsVirtualTree where
  parent_of_entry _ _ _ reachable entered := ⟨sound.found entered, sound.tree.parent_eq reachable entered⟩
  name_of_entry _ _ _ _ reachable first second := sound.tree.unique reachable first second
  locate _ _ _ reachable notDot notDotDot :=
    locateInode_iff notDot notDotDot fun _ entered => (sound.proper reachable entered).1
  locate_dot dir reachable := by
    refine ⟨by simp [locateInode, dotName], ?_⟩
    by_contra some
    rcases ne_none_iff_exists'.1 some with ⟨ref, entered⟩
    exact (sound.proper reachable entered).2.1 rfl
  locate_dotDot dir name ref reachable entered := by
    have isParent := sound.tree.parent_eq reachable entered
    refine ⟨by simp [locateInode, dotName, dotDotName, isParent], ?_⟩
    by_contra some
    rcases ne_none_iff_exists'.1 some with ⟨ref, entered⟩
    exact (sound.proper reachable entered).2.2 rfl
  load _ _ := sound.load
  load_fails id absent := by
    rcases loadInode_spec sound id with ⟨found, reachable, isNumber, _⟩ | ⟨_, result⟩
    · exact absurd isNumber (absent found reachable)
    · exact result
  listed _ _ _ := mem_childList
  listed_once dir := s.childList_nodup dir
  read layout dir sizes reachable := by
    rcases readCalls_spec sound reachable layout sizes zero_le with ⟨k, bound, result⟩
    rw [zero_add] at bound result
    exact ⟨k, bound, result⟩
  read_ends layout dir index next size reachable result := by
    rcases readDirectory_spec sound reachable layout index size with ⟨m, bound, read, ended⟩ | ⟨stop, read, _⟩
    · rw [read, Run.pure_inj] at result
      have taken : ((s.listing dir).drop index).take m = [] := congrArg Prod.fst result
      rcases take_eq_nil_iff.1 taken with none | none
      · exact drop_eq_nil_iff.1 (ended none)
      · exact drop_eq_nil_iff.1 none
    · rw [read] at result
      cases result
  read_fails layout dir index size stop reachable result := by
    rcases readDirectory_spec sound reachable layout index size with ⟨m, _, read, _⟩ | ⟨_, _, noRoom⟩
    · rw [read] at result
      cases result
    · exact noRoom

theorem mounted_entry (volumeID : Nat) (mountPoint : Option MountPoint) (id : Int) (dir : Nat) (name : PString) :
    (mounted volumeID mountPoint id).entry dir name = none := by
  unfold entry mounted
  by_cases isRoot : dir = rootNode <;> simp [isRoot]

theorem mounted_reachable {volumeID : Nat} {mountPoint : Option MountPoint}
    (reachable : (mounted volumeID mountPoint id).Reachable ref) : ref = rootNode := by
  cases reachable with
  | refl => rfl
  | tail _ entered =>
    rw [mounted_entry] at entered
    cases entered

theorem mounted_sound (volumeID : Nat) (mountPoint : Option MountPoint) (id : Int) :
    (mounted volumeID mountPoint id).Sound := by
  have none {dir name ref} (entered : (mounted volumeID mountPoint id).entry dir name = some ref) : False := by
    rw [mounted_entry] at entered
    cases entered
  constructor
  case tree => exact ⟨fun _ entered => (none entered).elim, fun _ entered => (none entered).elim⟩
  case root => rfl
  case found => exact fun entered => (none entered).elim
  case later => exact fun entered => (none entered).elim
  case directory => exact fun _ entered => (none entered).elim
  case proper => exact fun _ entered => (none entered).elim
  case numbers =>
    intro a b reachesA reachesB _
    rw [mounted_reachable reachesA, mounted_reachable reachesB]
  case fresh =>
    intro ref young
    have notRoot : ref ≠ rootNode := Nat.ne_of_gt young
    simp [mounted, notRoot]

/-- While inodes are made where they can be found and under free names, the filesystem is a tree in
all views and entries disappear only by removal. What is read of a file fits if what is left of
it does. -/
theorem filesystem_is_tree {volumeID : Nat} {mountPoint : Option MountPoint} {firstID : Int}
    (run : virtualFSSystem.Reaches KeepsTree (mounted volumeID mountPoint firstID) s) :
    s.IsVirtualTree ∧ (∀ op t, s.KeepsTree op → s.step op = some t → s.KeepsEntries op t) ∧
      ∀ fileData length position, read fileData length position ≤ length ↔
        ssize fileData.length - ssize position ≤ length := by
  have sound : s.Sound := run.invariant Sound (mounted_sound ..) fun sound meets applies =>
    (step_sound sound meets applies).1
  refine ⟨sound.isVirtualTree, fun op t meets applies => (step_sound sound meets applies).2, ?_⟩
  intro fileData length position
  unfold read
  omega

/-- A directory of a volume, and one in it. -/
theorem filesystem_is_tree_made : ∃ t : KVirtualFSVolume, t.entry rootNode [0x61] = some 1 ∧
    t.entry 1 [0x62] = some 2 ∧ t.IsVirtualTree := by
  have meets : (mounted 1 none 7).KeepsTree (.createDirectory rootNode [0x61] 0o755) := by
    intro _
    refine ⟨.refl, rfl, ⟨by decide, by decide, by decide⟩, ?_⟩
    intro ref reachable
    rw [mounted_reachable reachable]
    decide
  have run : virtualFSSystem.Reaches KeepsTree (mounted 1 none 7) _ := .single meets rfl
  have sound := (step_sound (mounted_sound 1 none 7) meets rfl).1
  have meets' : ((mounted 1 none 7).createDirectory rootNode [0x61] 0o755).2.KeepsTree
      (.createDirectory 1 [0x62] 0o755) := by
    intro _
    refine ⟨.tail (n := [0x61]) .refl rfl, rfl, ⟨by decide, by decide, by decide⟩, ?_⟩
    intro ref reachable
    rcases sound.exists_of_reachable reachable with ⟨_, found⟩
    have below : ref < 2 := sound.lt_nextRef found
    obtain rfl | rfl : ref = 0 ∨ ref = 1 := by omega
    · decide
    · decide
  exact ⟨_, rfl, rfl, (filesystem_is_tree (run.next _ meets' rfl)).1⟩

/-- A link is made and then taken for a directory that is to be made. -/
def overLink : VirtualFSOp := .locateParentInode rootNode [0x61, 0x2f, 0x62] true

theorem filesystem_loses_entry :
    ¬∀ s, virtualFSSystem.Reaches anyStep (mounted 1 none 7) s →
      s.IsVirtualTree ∧ (∀ op t, s.step op = some t → s.KeepsEntries op t) ∧
        ∀ fileData length position, read fileData length position ≤ length := by
  intro always
  let s := ((mounted 1 none 7).createSymlink rootNode [0x61] [0x78]).2
  have applies : virtualFSSystem.step (mounted 1 none 7) (.createSymlink rootNode [0x61] [0x78]) = some s := rfl
  have keeps := (always s (.single trivial applies)).2.1 overLink _ rfl
  rcases keeps.entries rootNode [0x61] 1 rfl with kept | removed | removed
  · exact absurd kept (by decide)
  · cases removed
  · cases removed

end KVirtualFSVolume

end PadOS.Vfs.VirtualFilesystem
