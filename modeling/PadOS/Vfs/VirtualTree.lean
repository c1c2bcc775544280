import PadOS.Vfs.VirtualFilesystem

/-! # The tree of the virtual filesystem

While inodes are made only in directories that can be reached, under names that lookups do
not treat specially and that are not in use, what can be reached from the root is a tree.
-/

namespace PadOS.Vfs.VirtualFilesystem

open Function NamedTree Transition Option
open PadOS.Unicode (PString)

namespace KVirtualFSVolume

variable {s t u : KVirtualFSVolume} {dir d ref current : Nat} {inode : KVirtualFSBaseInode}
  {name n path : PString} {fileType : FileType} {permission : Nat} {fileData : List UInt8}

def Reachable (s : KVirtualFSVolume) (ref : Nat) : Prop := Under s.entry rootNode ref

/-- `LocateInode` finds an entry with this name. -/
def Proper (name : PString) : Prop := name ≠ [] ∧ name ≠ dotName ∧ name ≠ dotDotName

structure Sound (s : KVirtualFSVolume) : Prop where
  tree : IsTree s.entry s.parent rootNode
  root : s.isDirectory rootNode
  found : ∀ {dir name ref}, s.entry dir name = some ref → (s.inodes ref).isSome
  later : ∀ {dir name ref}, s.entry dir name = some ref → dir < ref
  directory : ∀ {dir name ref}, s.Reachable dir → s.entry dir name = some ref → s.isDirectory dir
  proper : ∀ {dir name ref}, s.Reachable dir → s.entry dir name = some ref → Proper name
  numbers : ∀ {a b}, s.Reachable a → s.Reachable b → s.inodeID a = s.inodeID b → a = b
  fresh : ∀ {ref}, s.nextRef ≤ ref → s.inodes ref = none

/-- An inode may be made under this name: in a directory that can be reached, with a number that
nothing else that can be reached has. -/
structure CanEnter (s : KVirtualFSVolume) (dir : Nat) (name : PString) : Prop where
  reachable : s.Reachable dir
  directory : s.isDirectory dir
  proper : Proper name
  unused : ∀ {ref}, s.Reachable ref → s.inodeID ref ≠ some s.nextID

/-! ## Changes -/

theorem isSome_of_isDirectory (isDir : s.isDirectory ref) : (s.inodes ref).isSome := by
  cases found : s.inodes ref with
  | none => simp [isDirectory, found] at isDir
  | some inode => rfl

theorem Sound.exists_of_reachable (sound : s.Sound) (reachable : s.Reachable ref) :
    ∃ inode, s.inodes ref = some inode := by
  cases reachable with
  | refl => exact isSome_iff_exists.1 (isSome_of_isDirectory sound.root)
  | tail _ entered => exact isSome_iff_exists.1 (sound.found entered)

theorem Sound.lt_nextRef (sound : s.Sound) (found : s.inodes ref = some inode) : ref < s.nextRef := by
  by_contra notBelow
  rw [sound.fresh (Nat.le_of_not_lt notBelow)] at found
  cases found

section Enter

section

variable (sound : s.Sound) (found : s.inodes dir = some inode)

include sound found

theorem entry_enter :
    (s.enter dir inode name fileType permission fileData).2.entry d n =
      if d = dir ∧ n = name then some s.nextRef else s.entry d n := by
  have below := sound.lt_nextRef found
  by_cases sameDir : d = dir
  · by_cases same : n = name
    · simp [entry, enter, sameDir, same]
    · simp [entry, enter, sameDir, same, found, Std.TreeMap.getElem?_insert, Ne.symm same]
  · by_cases isNew : d = s.nextRef
    · have unborn := sound.fresh (Nat.le_refl s.nextRef)
      have other : s.nextRef ≠ dir := by omega
      simp [entry, enter, isNew, unborn, other]
    · simp [entry, enter, update_of_ne isNew, sameDir]

/-- What does not depend on the children is as before, but for the new inode. -/
theorem inodes_enter {β : Type}
    (f : Option KVirtualFSBaseInode → β)
    (same : ∀ children, f (some { inode with children := children }) = f (some inode)) :
    f ((s.enter dir inode name fileType permission fileData).2.inodes ref) = if ref = s.nextRef then
        f (some { inodeID := s.nextID, fileType := fileType, permission := permission, parent := some dir
                  fileData := fileData })
      else f (s.inodes ref) := by
  have below := sound.lt_nextRef found
  by_cases isNew : ref = s.nextRef
  · have other : s.nextRef ≠ dir := by omega
    simp [enter, isNew, update_of_ne other]
  · by_cases sameDir : ref = dir
    · simp [enter, sameDir, found, same, show dir ≠ s.nextRef by omega]
    · simp [enter, update_of_ne sameDir, isNew]

theorem parent_enter :
    (s.enter dir inode name fileType permission fileData).2.parent ref =
      if ref = s.nextRef then some dir else s.parent ref :=
  inodes_enter sound found (fun o => o.bind KVirtualFSBaseInode.parent) fun _ => rfl

theorem inodeID_enter :
    (s.enter dir inode name fileType permission fileData).2.inodeID ref =
      if ref = s.nextRef then some s.nextID else s.inodeID ref :=
  inodes_enter sound found (fun o => o.map KVirtualFSBaseInode.inodeID) fun _ => rfl

theorem isDirectory_enter :
    (s.enter dir inode name fileType permission fileData).2.isDirectory ref =
      if ref = s.nextRef then fileType == .dir else s.isDirectory ref :=
  inodes_enter sound found (fun o => o.any KVirtualFSBaseInode.isDirectory) fun _ => rfl

theorem isSome_enter :
    ((s.enter dir inode name fileType permission fileData).2.inodes ref).isSome =
      if ref = s.nextRef then true else (s.inodes ref).isSome :=
  inodes_enter sound found Option.isSome fun _ => rfl

end

/-- Entries are kept, and what is made can be reached. -/
structure Grows (s t : KVirtualFSVolume) : Prop where
  entries : ∀ {dir name ref}, s.entry dir name = some ref → t.entry dir name = some ref
  inodes : ∀ {ref}, (s.inodes ref).isSome → (t.inodes ref).isSome
  made : ∀ {ref}, s.inodes ref = none → (t.inodes ref).isSome → t.Reachable ref

theorem Grows.refl (s : KVirtualFSVolume) : s.Grows s where
  entries entered := entered
  inodes found := found
  made unborn found := by
    rw [unborn] at found
    cases found

theorem Grows.trans (first : s.Grows t) (second : t.Grows u) : s.Grows u where
  entries entered := second.entries (first.entries entered)
  inodes found := second.inodes (first.inodes found)
  made {ref} unborn found := by
    cases between : t.inodes ref with
    | none => exact second.made between found
    | some inode =>
      have made : t.Reachable ref := first.made unborn (by rw [between]; rfl)
      exact made.mono fun _ _ _ entered => second.entries entered

theorem enter_sound (sound : s.Sound) (found : s.inodes dir = some inode)
    (free : s.entry dir name = none) (can : s.CanEnter dir name) (fileType : FileType) (permission : Nat)
    (fileData : List UInt8) :
    (s.enter dir inode name fileType permission fileData).2.Sound ∧
      s.Grows (s.enter dir inode name fileType permission fileData).2 ∧
      (s.enter dir inode name fileType permission fileData).2.Reachable s.nextRef := by
  let t := (s.enter dir inode name fileType permission fileData).2
  have entries (d n) : t.entry d n = if d = dir ∧ n = name then some s.nextRef else s.entry d n :=
    entry_enter sound found
  have parents (r) : t.parent r = if r = s.nextRef then some dir else s.parent r := parent_enter sound found
  have numbers (r) : t.inodeID r = if r = s.nextRef then some s.nextID else s.inodeID r :=
    inodeID_enter sound found
  have directories (r) : t.isDirectory r = if r = s.nextRef then fileType == .dir else s.isDirectory r :=
    isDirectory_enter sound found
  have born (r) : (t.inodes r).isSome = if r = s.nextRef then true else (s.inodes r).isSome :=
    isSome_enter sound found
  have below := sound.lt_nextRef found
  have unborn := sound.fresh (Nat.le_refl s.nextRef)
  have kept {d n r} (entered : s.entry d n = some r) : t.entry d n = some r := by
    rw [entries, if_neg, entered]
    rintro ⟨rfl, rfl⟩
    rw [free] at entered
    cases entered
  have old {d n r} (entered : t.entry d n = some r) :
      s.entry d n = some r ∨ (d = dir ∧ n = name ∧ r = s.nextRef) := by
    rw [entries] at entered
    split at entered
    · exact .inr ⟨‹_ ∧ _›.1, ‹_ ∧ _›.2, (some.inj entered).symm⟩
    · exact .inl entered
  have isLeaf (n) : t.entry s.nextRef n = none := by
    rw [entries, if_neg fun both => by omega]
    simp [entry, unborn]
  have isNew (a n) : s.entry a n ≠ some s.nextRef := by
    intro entered
    have isSome := sound.found entered
    rw [unborn] at isSome
    cases isSome
  have reachesNew : t.Reachable s.nextRef := by
    have reachesDir : t.Reachable dir := can.reachable.mono fun _ _ _ entered => kept entered
    exact .tail reachesDir (show t.entry dir name = some s.nextRef by rw [entries, if_pos ⟨rfl, rfl⟩])
  have before {r} (reachable : t.Reachable r) : r = s.nextRef ∨ s.Reachable r :=
    reachable.of_insert (fun _ _ _ entered => (old entered).imp_right fun new => new.2.2) isLeaf
  have notNew {r} (reachable : s.Reachable r) : r ≠ s.nextRef := by
    rcases sound.exists_of_reachable reachable with ⟨inode, isInode⟩
    have := sound.lt_nextRef isInode
    omega
  refine ⟨?_, ⟨kept, ?_, ?_⟩, reachesNew⟩
  · constructor
    case tree =>
      apply sound.tree.insert (fun _ _ _ entered => old entered) isLeaf isNew
      · intro b other
        rw [parents, if_neg other]
      · rw [parents, if_pos rfl]
    case root =>
      have isRoot := notNew (r := rootNode) .refl
      rw [directories, if_neg isRoot]
      exact sound.root
    case found =>
      intro d n r entered
      rw [born]
      split
      · rfl
      · rcases old entered with entered | ⟨_, _, isNew⟩
        · exact sound.found entered
        · contradiction
    case later =>
      intro d n r entered
      rcases old entered with entered | ⟨rfl, _, rfl⟩
      · exact sound.later entered
      · exact below
    case directory =>
      intro d n r reachable entered
      rcases before reachable with rfl | reachable
      · rw [isLeaf] at entered
        cases entered
      · rw [directories, if_neg (notNew reachable)]
        rcases old entered with entered | ⟨rfl, _, _⟩
        · exact sound.directory reachable entered
        · exact can.directory
    case proper =>
      intro d n r reachable entered
      rcases old entered with entered' | ⟨_, rfl, _⟩
      · rcases before reachable with rfl | reachable
        · rw [isLeaf] at entered
          cases entered
        · exact sound.proper reachable entered'
      · exact can.proper
    case numbers =>
      intro a b reachesA reachesB same
      rw [numbers, numbers] at same
      rcases before reachesA with isNewA | reachesA <;> rcases before reachesB with isNewB | reachesB
      · rw [isNewA, isNewB]
      · rw [if_pos isNewA, if_neg (notNew reachesB)] at same
        exact absurd same.symm (can.unused reachesB)
      · rw [if_neg (notNew reachesA), if_pos isNewB] at same
        exact absurd same (can.unused reachesA)
      · rw [if_neg (notNew reachesA), if_neg (notNew reachesB)] at same
        exact sound.numbers reachesA reachesB same
    case fresh =>
      intro r young
      have young' : s.nextRef + 1 ≤ r := young
      rw [← not_isSome_iff_eq_none, born, if_neg (by omega), sound.fresh (by omega)]
      exact Bool.false_ne_true
  · intro r isSome
    rw [born]
    split
    · rfl
    · exact isSome
  · intro r unborn' isSome
    rw [born] at isSome
    split at isSome
    · rename_i same
      rw [same]
      exact reachesNew
    · rw [unborn'] at isSome
      cases isSome

end Enter

/-! ## Removal -/

theorem entry_erase (found : s.inodes dir = some inode) :
    (s.erase dir inode name).entry d n = if d = dir ∧ n = name then none else s.entry d n := by
  by_cases sameDir : d = dir
  · by_cases same : n = name
    · simp [entry, erase, sameDir, same]
    · simp [entry, erase, sameDir, same, found, Std.TreeMap.getElem?_erase, Ne.symm same]
  · simp [entry, erase, sameDir]

/-- What does not depend on the children is as before. -/
theorem inodes_erase (found : s.inodes dir = some inode) {β : Type} (f : Option KVirtualFSBaseInode → β)
    (same : ∀ children, f (some { inode with children := children }) = f (some inode)) :
    f ((s.erase dir inode name).inodes ref) = f (s.inodes ref) := by
  by_cases sameDir : ref = dir
  · simp [erase, sameDir, found, same]
  · simp [erase, sameDir]

theorem erase_sound (sound : s.Sound) (found : s.inodes dir = some inode) : (s.erase dir inode name).Sound := by
  have old {d n r} (entered : (s.erase dir inode name).entry d n = some r) : s.entry d n = some r := by
    rw [entry_erase found] at entered
    split at entered
    · cases entered
    · exact entered
  have before {r} (reachable : (s.erase dir inode name).Reachable r) : s.Reachable r :=
    reachable.mono fun _ _ _ entered => old entered
  have born (r) : ((s.erase dir inode name).inodes r).isSome = (s.inodes r).isSome :=
    inodes_erase found Option.isSome fun _ => rfl
  have directories (r) : (s.erase dir inode name).isDirectory r = s.isDirectory r :=
    inodes_erase found (fun o => o.any KVirtualFSBaseInode.isDirectory) fun _ => rfl
  have parents : (s.erase dir inode name).parent = s.parent := by
    funext r
    exact inodes_erase found (fun o => o.bind KVirtualFSBaseInode.parent) fun _ => rfl
  have numbers (r) : (s.erase dir inode name).inodeID r = s.inodeID r :=
    inodes_erase found (fun o => o.map KVirtualFSBaseInode.inodeID) fun _ => rfl
  constructor
  case tree =>
    rw [parents]
    exact sound.tree.remove fun _ _ _ entered => old entered
  case root =>
    rw [directories]
    exact sound.root
  case found =>
    intro d n r entered
    rw [born]
    exact sound.found (old entered)
  case later => exact fun entered => sound.later (old entered)
  case directory =>
    intro d n r reachable entered
    rw [directories]
    exact sound.directory (before reachable) (old entered)
  case proper => exact fun reachable entered => sound.proper (before reachable) (old entered)
  case numbers =>
    intro a b reachesA reachesB same
    rw [numbers, numbers] at same
    exact sound.numbers (before reachesA) (before reachesB) same
  case fresh =>
    intro r young
    rw [← not_isSome_iff_eq_none, born, sound.fresh young]
    exact Bool.false_ne_true

/-! ## Calls -/

theorem discard_sound (sound : s.Sound) : s.discard.Sound :=
  ⟨sound.tree, sound.root, sound.found, sound.later, sound.directory, sound.proper, sound.numbers, sound.fresh⟩

theorem discard_grows (s : KVirtualFSVolume) : s.Grows s.discard :=
  ⟨fun entered => entered, fun found => found, (Grows.refl s).made⟩

/-- The directories that `LocateParentInode` makes may all be made, and no name before the last
is one of an inode that is not a directory. -/
def Walks : PString → PString → Nat → KVirtualFSVolume → Prop
  | [], _, _, _ => True
  | c :: path, name, current, s =>
    if c = 0x2f then
      if name = [] then Walks path [] current s
      else
        ∀ inode, s.inodes current = some inode → match inode.children[name]? with
          | some child => s.isDirectory child ∧ Walks path [] child s
          | none => s.CanEnter current name ∧
              Walks path [] s.nextRef (s.enter current inode name .dir allPermissions []).2
    else Walks path (name ++ [c]) current s

theorem locateParentLoop_walks (sound : s.Sound) (walks : Walks path name current s) (i : Nat) :
    (locateParentLoop true path i name current s).2.Sound ∧
      s.Grows (locateParentLoop true path i name current s).2 := by
  induction path generalizing i name current s with
  | nil => exact ⟨sound, .refl s⟩
  | cons c path ih =>
    rw [Walks] at walks
    rw [locateParentLoop]
    by_cases separator : c = 0x2f
    · rw [if_pos separator] at walks ⊢
      by_cases empty : name = []
      · rw [if_pos empty] at walks ⊢
        exact ih sound walks _
      · rw [if_neg empty] at walks ⊢
        cases found : s.inodes current with
        | none => exact ⟨sound, .refl s⟩
        | some inode =>
          have walks' := walks inode found
          cases isChild : inode.children[name]? with
          | some child =>
            rw [isChild] at walks'
            simp only [isChild, filter_some, walks'.1, if_true]
            exact ih sound walks'.2 _
          | none =>
            rw [isChild] at walks'
            simp only [isChild, filter_none, if_true]
            have free : s.entry current name = none := by simp [entry, found, isChild]
            have entered := enter_sound sound found free walks'.1 .dir allPermissions []
            have rest := ih entered.1 walks'.2 (i + 1)
            exact ⟨rest.1, entered.2.1.trans rest.2⟩
    · rw [if_neg separator] at walks ⊢
      exact ih sound walks _

/-- Without `createParents` nothing is made. -/
theorem locateParentLoop_looks {i : Nat} : (locateParentLoop false path i name current s).2 = s := by
  induction path generalizing i name current with
  | nil => rfl
  | cons c path ih =>
    rw [locateParentLoop]
    split
    · split
      · exact ih
      · split
        · rfl
        · simp only []
          split
          · exact ih
          · rfl
    · exact ih

/-- Inodes are made where they can be found, and nothing is entered over something else. -/
def KeepsTree : Condition KVirtualFSVolume VirtualFSOp
  | s, .createDirectory parent name _ => s.entry parent name = none → s.CanEnter parent name
  | s, .createSymlink parent name _ => s.entry parent name = none → s.CanEnter parent name
  | s, .locateParentInode parent path createParents => createParents = true → Walks path [] parent s
  | _, _ => True

/-- An entry disappears only by the removal of its own name, and what is made can be reached. -/
structure KeepsEntries (s : KVirtualFSVolume) (op : VirtualFSOp) (t : KVirtualFSVolume) : Prop where
  entries : ∀ dir name ref, s.entry dir name = some ref → t.entry dir name = some ref ∨
    op = .unlink dir name ∨ op = .removeDirectory dir name
  made : ∀ ref, s.inodes ref = none → (t.inodes ref).isSome → t.Reachable ref

variable {op : VirtualFSOp}

theorem Grows.keepsEntries (grows : s.Grows t) : s.KeepsEntries op t :=
  ⟨fun _ _ _ entered => .inl (grows.entries entered), fun _ unborn made => grows.made unborn made⟩

theorem erase_keepsEntries (found : s.inodes dir = some inode)
    (removal : op = .unlink dir name ∨ op = .removeDirectory dir name) :
    s.KeepsEntries op (s.erase dir inode name) := by
  constructor
  · intro d n r entered
    rw [entry_erase found]
    by_cases same : d = dir ∧ n = name
    · rw [same.1, same.2]
      exact .inr removal
    · rw [if_neg same]
      exact .inl entered
  · intro r unborn made
    have born : ((s.erase dir inode name).inodes r).isSome = (s.inodes r).isSome :=
      inodes_erase found Option.isSome fun _ => rfl
    rw [born, unborn] at made
    cases made

section

variable (sound : s.Sound)

include sound

theorem createDirectory_sound {parent : Nat}
    (can : s.entry parent name = none → s.CanEnter parent name) (permission : Nat) :
    (s.createDirectory parent name permission).2.Sound ∧ s.Grows (s.createDirectory parent name permission).2 := by
  unfold createDirectory
  cases found : s.inodes parent with
  | none => exact ⟨sound, .refl s⟩
  | some inode =>
    by_cases taken : (inode.children[name]?).isSome
    · simp only [taken, if_true]
      exact ⟨discard_sound sound, discard_grows s⟩
    · simp only [taken]
      have free : s.entry parent name = none := by
        simpa [entry, found, isSome_iff_ne_none] using taken
      have entered := enter_sound sound found free (can free) .dir permission []
      exact ⟨entered.1, entered.2.1⟩

theorem createSymlink_sound {parent : Nat}
    (can : s.entry parent name = none → s.CanEnter parent name) (targetPath : List UInt8) :
    (s.createSymlink parent name targetPath).2.Sound ∧ s.Grows (s.createSymlink parent name targetPath).2 := by
  unfold createSymlink
  cases found : s.inodes parent with
  | none => exact ⟨sound, .refl s⟩
  | some inode =>
    by_cases taken : (inode.children[name]?).isSome
    · simp only [taken, if_true]
      exact ⟨sound, .refl s⟩
    · simp only [taken]
      have free : s.entry parent name = none := by
        simpa [entry, found, isSome_iff_ne_none] using taken
      have entered := enter_sound sound found free (can free) .lnk allPermissions targetPath
      exact ⟨entered.1, entered.2.1⟩

theorem unlink_sound (parent : Nat) (name : PString) :
    (s.unlink parent name).2.Sound ∧ s.KeepsEntries (.unlink parent name) (s.unlink parent name).2 := by
  have same : s.Sound ∧ s.KeepsEntries (.unlink parent name) s := ⟨sound, (Grows.refl s).keepsEntries⟩
  unfold unlink
  split
  · exact same
  · rename_i inode found
    split
    · exact same
    · split
      · exact same
      · exact ⟨erase_sound sound found, erase_keepsEntries found (.inl rfl)⟩

theorem removeDirectory_sound (parent : Nat) (name : PString) :
    (s.removeDirectory parent name).2.Sound ∧
      s.KeepsEntries (.removeDirectory parent name) (s.removeDirectory parent name).2 := by
  have same : s.Sound ∧ s.KeepsEntries (.removeDirectory parent name) s :=
    ⟨sound, (Grows.refl s).keepsEntries⟩
  unfold removeDirectory
  split
  · exact same
  · rename_i inode found
    split
    · exact same
    · split
      · exact same
      · split
        · exact same
        · split
          · exact same
          · exact ⟨erase_sound sound found, erase_keepsEntries found (.inr rfl)⟩

theorem step_sound (meets : s.KeepsTree op) (applies : s.step op = some t) :
    t.Sound ∧ s.KeepsEntries op t := by
  cases op with
  | createDirectory parent name permission =>
    rcases ite_none_right_eq_some.1 applies with ⟨_, result⟩
    cases result
    have made := createDirectory_sound sound meets permission
    exact ⟨made.1, made.2.keepsEntries⟩
  | createSymlink parent name targetPath =>
    rcases ite_none_right_eq_some.1 applies with ⟨_, result⟩
    cases result
    have made := createSymlink_sound sound meets targetPath
    exact ⟨made.1, made.2.keepsEntries⟩
  | locateParentInode parent path createParents =>
    rcases ite_none_right_eq_some.1 applies with ⟨_, result⟩
    cases result
    unfold locateParentInode
    cases createParents with
    | false =>
      rw [locateParentLoop_looks]
      exact ⟨sound, (Grows.refl s).keepsEntries⟩
    | true =>
      have walked := locateParentLoop_walks sound (meets rfl) 0
      exact ⟨walked.1, walked.2.keepsEntries⟩
  | unlink parent name =>
    rcases ite_none_right_eq_some.1 applies with ⟨_, result⟩
    cases result
    exact unlink_sound sound parent name
  | removeDirectory parent name =>
    rcases ite_none_right_eq_some.1 applies with ⟨_, result⟩
    cases result
    exact removeDirectory_sound sound parent name
  | allocInodeNumber =>
    cases applies
    exact ⟨discard_sound sound, (discard_grows s).keepsEntries⟩

end

end KVirtualFSVolume

end PadOS.Vfs.VirtualFilesystem
