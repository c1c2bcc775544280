import PadOS.Fat.FileListing

/-! # Files whose writing fails

The first cluster of a file and its size reach the directory in separate writes. What
throws between the two leaves an entry with a cluster and no size. Everything else that
throws leaves entries that a scan takes, whatever fails.
-/

namespace PadOS.Fat

open Program FATTableIterator

inductive FileOp
  | write (id : Nat) (file : FATFileNode) (now : FATNow) (request : WriteRequest)
  | resize (id : Nat) (fileSize : Int) (now : FATNow) (updateModificationTime : Bool)
  | openFile (id : Nat) (now : FATNow) (request : OpenRequest)

namespace FileOp

def target : FileOp → Nat
  | write id _ _ _ => id
  | resize id _ _ _ => id
  | openFile id _ _ => id

def program (vol : FATVolume) : FileOp → Driver Unit
  | write id file now request => do
      let _ ← Driver.writeFile vol id file now request
      pure ()
  | resize id fileSize now updateModificationTime =>
    Driver.resizeFile vol id fileSize now updateModificationTime
  | openFile id now request => do
      let _ ← Driver.openFile vol id now request
      pure ()

/-- The first cluster of the file is asked for. -/
def AsksForFirst (inode : FATInode) : FileOp → Prop
  | write _ _ _ request => inode.startCluster = 0 ∧ ¬request.WritesNothing inode
  | resize _ fileSize _ _ => inode.startCluster = 0 ∧ 0 < fileSize ∧ fileSize ≤ fatMaxFileSize
  | openFile _ _ _ => False

/-- The size that the file is to get. -/
def newSize (inode : FATInode) : FileOp → Nat
  | write _ _ _ request =>
    request.position inode + min request.len (fatMaxFileSize - request.position inode)
  | resize _ fileSize _ _ => fileSize.toNat
  | openFile _ _ _ => 0

end FileOp

/-- `SetChainLength` of a file without clusters, up to the write of the entry. -/
def Driver.giveFirst (vol : FATVolume) (id clusterCount : Nat) : Driver Unit := do
  let (newStartCluster, newEndCluster) ← allocateClusters vol clusterCount
  setNode id fun inode => inode.setChain newStartCluster newEndCluster clusterCount
  (write vol id).scopeFail do
    setNode id fun inode => inode.setChain 0 0 0
    clearFATChainAfterFailureNoThrow vol newStartCluster

def DriverState.later (s : DriverState) (calls : Nat) : DriverState := { s with clock := s.clock + calls }

/-- `SetChainLength` stores the entry of a file that gets its first cluster. The memory
has been looked at five times before. -/
def StoresFirst (vol : FATVolume) (moments : Nat → Moment) (s : DriverState) (inode : FATInode)
    (op : FileOp) : Prop :=
  op.AsksForFirst inode ∧ s.memory.deleted op.target = false ∧
    ((Driver.giveFirst vol op.target (Driver.getFileClusterCount vol (op.newSize inode))).run
      (serve vol moments) (s.later 5)).1 = .ok ()

/-- Every entry that a scan took is still found under its name and taken. -/
def StillListed (vol : FATVolume) (s s' : DriverState) : Prop :=
  ∀ cluster slot, StaysListed vol (s.slots cluster slot) (s'.slots cluster slot)

/-- A file and its entry agree, before an operation on it. -/
structure Undamaged (vol : FATVolume) (s : DriverState) (id : Nat) (inode : FATInode) : Prop where
  known : s.memory.nodes id = some inode
  storable : inode.IsStorable vol
  chainless : inode.startCluster = 0 → inode.endCluster = 0 ∧ inode.allocatedClusterCount = 0
  entries : ∀ cluster slot expectedStartCluster,
    isFATInodeWriteEntryValid vol inode (s.slots cluster slot) expectedStartCluster →
    validateFATDirectoryEntry vol inode (entryInfo vol 0 0 (s.slots cluster slot)) [0x41] = .ok ()
  hint : vol.isDataCluster s.memory.lastAllocatedCluster
  cursor : Window vol s.cursor

variable {vol : FATVolume} {base : Meanwhile} {t : StoreView} {moments : Nat → Moment}
  {s s' : DriverState} {op : FileOp} {id n : Nat} {inode : FATInode} {α β : Type}

theorem FileOp.program_listing (accepted : vol.Accepted) (lists : base.Lists vol base)
    (op : FileOp) (here : Listing vol base op.target
      (fun inode => inode.IsStorable vol ∧ ¬op.AsksForFirst inode) t) :
    (op.program vol).Every (storeSpec vol) t
      (Settles (fun _ => Listing vol base op.target (FATInode.IsStorable vol))
        (Listing vol base op.target (FATInode.IsStorable vol))) := by
  cases op with
  | write id file now request =>
    apply ends_bind storeSpec_monotone (Driver.writeFile_listing accepted lists file now request ?_)
    · exact fun _ _ here => here
    · exact fun _ here => here
    · apply here.mono
      intro inode holds
      exact ⟨holds.1, by_contra fun neither => holds.2 (by
        rw [not_or, not_not] at neither
        exact neither)⟩
  | resize id fileSize now updateModificationTime =>
    apply Driver.resizeFile_listing accepted lists now updateModificationTime
    apply here.mono
    intro inode holds
    refine ⟨holds.1, by_contra fun neither => holds.2 ?_⟩
    rw [not_or, not_not, not_or] at neither
    exact ⟨neither.1, by omega, by omega⟩
  | openFile id now request =>
    apply ends_bind storeSpec_monotone
      (Driver.openFile_listing accepted lists now request (here.mono fun _ holds => holds.1))
    · exact fun _ _ here => here
    · exact fun _ here => here

theorem Meanwhile.Lists.any : base.Lists vol { base with slots := fun _ => True } :=
  ⟨fun _ _ _ _ => trivial, rfl⟩

theorem Stays.allowed {t' : StoreView} (stays : Stays vol t t') (allowed : base.slots t.slots) :
    base.slots t'.slots := by
  rw [stays.slots]
  exact allowed

theorem Undamaged.later (undamaged : Undamaged vol s id inode) (calls : Nat) :
    Undamaged vol (s.later calls) id inode :=
  ⟨undamaged.known, undamaged.storable, undamaged.chainless, undamaged.entries, undamaged.hint,
    undamaged.cursor⟩

/-! ## The first cluster -/

/-- An entry is stored with a cluster and no size. -/
def Marred (vol : FATVolume) (inode : FATInode)
    (slots slots' : Nat → Nat → FATDirectoryEntryCombo) : Prop :=
  ∃ cluster slot expectedStartCluster times startCluster,
    isFATInodeWriteEntryValid vol inode (slots cluster slot) expectedStartCluster ∧
    vol.isDataCluster startCluster ∧ slots' = setSlot slots cluster slot
      ((slots cluster slot).withInode inode.dosAttribs times startCluster 0)

theorem Marred.refused (accepted : vol.Accepted) {slots slots' : Nat → Nat → FATDirectoryEntryCombo}
    (marred : Marred vol inode slots slots') (storable : inode.IsStorable vol)
    (entries : ∀ cluster slot expectedStartCluster,
      isFATInodeWriteEntryValid vol inode (slots cluster slot) expectedStartCluster →
      validateFATDirectoryEntry vol inode (entryInfo vol 0 0 (slots cluster slot)) [0x41] = .ok ()) :
    ¬∀ cluster slot, StaysListed vol (slots cluster slot) (slots' cluster slot) := by
  rcases marred with ⟨cluster, slot, expectedStartCluster, times, startCluster, mine, data, rfl⟩
  intro listed
  have taken := (listed cluster slot).valid inode 0 0 [0x41] (entries cluster slot _ mine)
  rw [setSlot, if_pos ⟨rfl, rfl⟩] at taken
  generalize slots cluster slot = e at taken
  have isCluster := e.withInode_startCluster inode.dosAttribs times startCluster 0 0 0 accepted (.inr data)
  have noSize : (entryInfo vol 0 0 (e.withInode inode.dosAttribs times startCluster 0)).size = 0 :=
    e.withInode_fileSize inode.dosAttribs times startCluster 0 (by decide)
  have attribs : (entryInfo vol 0 0 (e.withInode inode.dosAttribs times startCluster 0)).dosAttribs =
      inode.dosAttribs % 256 := e.withInode_attribs inode.dosAttribs times startCluster 0
  have subdir : inode.dosAttribs % 256 &&& fatSubdirAttribute = 0 := by
    rw [land_byte (by decide)]
    simpa [FATInode.isDirectory] using storable.isFile
  have some' : startCluster ≠ 0 := by
    have inside := FATTable.isDataCluster_iff.1 data
    omega
  unfold validateFATDirectoryEntry at taken
  simp only [isCluster, noSize, attribs, subdir] at taken
  simp [some', dotName, dotDotName] at taken

namespace Driver

/-- The file has its first cluster, and its entry is marred unless it is deleted. -/
structure GivenFirst (vol : FATVolume) (id : Nat) (inode : FATInode) (t t' : StoreView) : Prop where
  hint : vol.isDataCluster t'.memory.lastAllocatedCluster
  node : ∃ inode', t'.memory.nodes id = some inode' ∧ Sized vol 0 inode'
  slots : t.memory.deleted id ∧ t'.slots = t.slots ∨
    ¬t.memory.deleted id ∧ Marred vol inode t.slots t'.slots

def KeepsSlots (vol : FATVolume) (t t' : StoreView) : Prop :=
  vol.isDataCluster t'.memory.lastAllocatedCluster ∧ t'.slots = t.slots

theorem giveFirst_every (hint : vol.isDataCluster t.memory.lastAllocatedCluster)
    (known : t.memory.nodes id = some inode) (storable : inode.IsStorable vol)
    (first : inode.startCluster = 0) : (giveFirst vol id n).Every (storeSpec vol) t
      (Settles (fun _ => GivenFirst vol id inode t) (KeepsSlots vol t)) := by
  apply ends_bind storeSpec_monotone (allocateClusters_stays hint n) ?_
    fun _ stays => ⟨stays.hint hint, stays.slots⟩
  rintro ⟨newStartCluster, newEndCluster⟩ t' ⟨stays, data, _⟩
  have size := storable.agree.1 first
  have known' : (changed t' id (·.setChain newStartCluster newEndCluster n)).memory.nodes id =
      some (inode.setChain newStartCluster newEndCluster n) := by
    show (if id = id then (t'.memory.nodes id).map _ else _) = _
    rw [if_pos rfl, stays.nodes, known]
    rfl
  have undone (t' : StoreView) (failed : KeepsSlots vol t t') : (do
        setNode id fun inode => inode.setChain 0 0 0
        clearFATChainAfterFailureNoThrow vol newStartCluster : Driver Unit).Every (storeSpec vol) t'
          (Settles (fun _ => KeepsSlots vol t) (KeepsSlots vol t)) :=
    ends_mono storeSpec_monotone clearFATChainAfterFailureNoThrow_stays
      (fun _ _ after => ⟨after.1.hint failed.1, after.1.slots.trans failed.2⟩)
      fun _ after => ⟨after.hint failed.1, after.slots.trans failed.2⟩
  refine ends_scopeFail storeSpec_monotone (ends_mono storeSpec_monotone (write_written known') ?_
    fun _ failed => ⟨failed.hint (stays.hint hint), failed.slots.trans stays.slots⟩) undone
  intro _ t'' written
  refine ⟨written.hint (stays.hint hint), ⟨_, written.nodes ▸ known', ?_⟩, ?_⟩
  · exact ⟨⟨storable.isFile, storable.noLabel, data, storable.size⟩, size⟩
  have slots := written.slots
  rw [show (changed t' id (·.setChain newStartCluster newEndCluster n)).slots = t.slots from stays.slots,
    show (changed t' id (·.setChain newStartCluster newEndCluster n)).memory.deleted =
      t.memory.deleted from stays.deleted] at slots
  refine slots.imp_right fun put => ⟨put.1, ?_⟩
  obtain ⟨_, cluster, slot, expectedStartCluster, times, mine, put⟩ := put
  refine ⟨cluster, slot, expectedStartCluster, times, newStartCluster, mine, data, put.trans ?_⟩
  congr 1
  show FATDirectoryEntryCombo.withInode _ _ _ _ (if inode.isDirectory then 0 else inode.size) = _
  rw [storable.isFile, size]
  rfl

theorem startChain_eq (vol : FATVolume) (id clusterCount : Nat) (updateICache : Bool) :
    startChain vol id clusterCount updateICache = (do
      giveFirst vol id clusterCount
      nextIteration id
      if updateICache then
        let inode ← node id
        setMapping inode.inodeID (generateDirClusterInodeID inode.parentInodeID inode.startCluster)) := by
  unfold startChain giveFirst
  rw [bind_assoc]
  congr 1
  funext chain
  cases chain
  exact (bind_assoc ..).symm

/-! ## The operations up to the first cluster -/

section Doing

variable {post : Except Stop β → DriverState → Prop}

theorem doing_node {f : FATInode → Driver β} (known : s.memory.nodes id = some inode)
    (rest : (f inode).Every (doing (serve vol moments)) (s.later 1) post) :
    (node id >>= f).Every (doing (serve vol moments)) s post :=
  every_node (fun _ holds => holds) known rest

theorem doing_recall {f : Memory → Driver β}
    (rest : (f s.memory).Every (doing (serve vol moments)) (s.later 1) post) :
    (recollect >>= f).Every (doing (serve vol moments)) s post := rest

theorem doing_loaded {f : Unit → Driver β} (known : s.memory.nodes id = some inode)
    (first : inode.startCluster = 0)
    (rest : (f ()).Every (doing (serve vol moments)) (s.later 1) post) :
    (ensureClusterChainMetadataLoaded vol id >>= f).Every (doing (serve vol moments)) s post := by
  unfold ensureClusterChainMetadataLoaded
  rw [bind_assoc]
  apply doing_node known
  rw [if_pos (.inl first)]
  exact rest

theorem doing_of_store (accepted : vol.Accepted) (moments : Nat → Moment) (cursor : Window vol s.cursor) {p : Driver α}
    {returns : α → StoreView → Prop} {fails : StoreView → Prop}
    (every : p.Every (storeSpec vol) s.store (Settles returns fails)) :
    p.Every (doing (serve vol moments)) s
      (Settles (fun a s' => Window vol s'.cursor ∧ returns a s'.store)
        fun s' => Window vol s'.cursor ∧ fails s'.store) := by
  rw [every_doing]
  rcases (serve_meets_store accepted moments).run ⟨rfl, cursor⟩ (keeps_any _ _) every with
    ⟨t, ⟨rfl, cursor'⟩, settles⟩
  revert cursor' settles
  rcases p.run (serve vol moments) s with ⟨(code | _) | a, s'⟩ <;> intro cursor' settles
  · exact ⟨cursor', settles⟩
  · trivial
  · exact ⟨cursor', settles⟩

end Doing

/-- The slots as they are once the first cluster is given or cannot be had. -/
def afterFirst (vol : FATVolume) (moments : Nat → Moment) (s : DriverState) (id n : Nat) : Meanwhile where
  slots slots := ((giveFirst vol id n).run (serve vol moments) s).1 ≠ .error .panics ∧
    slots = ((giveFirst vol id n).run (serve vol moments) s).2.slots
  nodes := ((giveFirst vol id n).run (serve vol moments) s).2.memory.nodes

/-- The first cluster is given and the file not yet written, or it cannot be had. -/
abbrev Given (vol : FATVolume) (moments : Nat → Moment) (s : DriverState) (id n : Nat) :
    Except Stop Unit → DriverState → Prop :=
  Settles (fun _ s' => Window vol s'.cursor ∧
      Listing vol (afterFirst vol moments s id n) id (Sized vol 0) s'.store)
    fun s' => Window vol s'.cursor ∧ (afterFirst vol moments s id n).slots s'.slots

section

variable (moments) (accepted : vol.Accepted) (undamaged : Undamaged vol s id inode)
  (first : inode.startCluster = 0)

include accepted undamaged first

theorem startChain_doing (updateICache : Bool) : (startChain vol id n updateICache).Every
    (doing (serve vol moments)) s (Given vol moments s id n) := by
  rw [startChain_eq]
  have given := doing_of_store accepted moments undamaged.cursor
    (giveFirst_every (n := n) (t := s.store) undamaged.hint undamaged.known undamaged.storable first)
  have listed : (giveFirst vol id n).Every (doing (serve vol moments)) s (Given vol moments s id n) := by
    rw [every_doing] at given ⊢
    unfold Given afterFirst
    revert given
    rcases (giveFirst vol id n).run (serve vol moments) s with ⟨(code | _) | a, s'⟩ <;> intro given
    · exact ⟨given.1, by simp, rfl⟩
    · trivial
    · exact ⟨given.1, ⟨by simp, rfl⟩, fun _ _ => rfl, given.2.hint, given.2.node⟩
  apply ends_bind doing_monotone listed ?_ fun _ failed => failed
  rintro _ s' ⟨cursor, here⟩
  refine ends_mono doing_monotone (doing_of_store accepted moments cursor ?_) (fun _ _ after => after)
    fun _ (after : _ ∧ Listing vol (afterFirst vol moments s id n) id (Sized vol 0) _) =>
      ⟨after.1, after.2.slots⟩
  apply listing_then (nextIteration_listing (sized_blind 0) here)
  intro _ t' here
  split
  · exact listing_node here fun _ _ _ => listing_of_stays here (setMapping_stays _ _)
  · exact here

theorem setChainLength_doing (some' : n ≠ 0) (updateICache : Bool) :
    (setChainLength vol id n updateICache).Every (doing (serve vol moments)) s
      (Given vol moments (s.later 1) id n) := by
  have metadata := undamaged.chainless first
  apply doing_node undamaged.known
  rw [if_neg (by simp [hasInconsistentChain, first, metadata])]
  by_cases tooMany : n > vol.totalClusters
  · have refused : (giveFirst vol id n).run (serve vol moments) (s.later 1) =
        (.error (.throws .nospc), s.later 1) := by
      unfold giveFirst allocateClusters
      rw [if_neg some', if_pos tooMany]
      rfl
    rw [if_pos tooMany]
    refine ⟨undamaged.cursor, ?_⟩
    unfold afterFirst
    rw [refused]
    exact ⟨by simp, rfl⟩
  · rw [if_neg tooMany, if_neg (by rw [metadata.2]; exact some'), if_neg some', if_pos first]
    exact startChain_doing moments accepted (undamaged.later 1) first updateICache

theorem resizeFile_doing (now : FATNow) (updateModificationTime : Bool) {fileSize : Int}
    (grows : 0 < fileSize) (fits : fileSize ≤ fatMaxFileSize) :
    (resizeFile vol id fileSize now updateModificationTime).Every (doing (serve vol moments)) s
      (Settles (fun _ _ => True)
        fun s' => (afterFirst vol moments (s.later 5) id (getFileClusterCount vol fileSize.toNat)).slots
          s'.slots) := by
  have size := undamaged.storable.agree.1 first
  have small : fileSize.toNat < 2 ^ 32 := by
    unfold fatMaxFileSize at fits
    omega
  unfold resizeFile
  rw [if_neg (by omega), if_neg (by omega)]
  apply doing_node undamaged.known
  rw [size]
  dsimp only
  rw [if_neg (by omega)]
  apply doing_loaded (undamaged.later 1).known first
  apply doing_node (undamaged.later 2).known
  apply doing_recall
  rw [if_neg (by omega)]
  have some' := getFileClusterCount_ne_zero accepted (show fileSize.toNat ≠ 0 by omega)
  have quiet (t : StoreView) : (do
      let now ← node id
      if now.allocatedClusterCount = inode.allocatedClusterCount ∧
          getFileClusterCount vol fileSize.toNat = 0 then
        setSize id 0
        restoreModificationMetadata id (s.memory.times id) inode.dosAttribs (s.memory.dirty id) :
          Driver Unit).Every (storeSpec vol) t (Staying vol t) := by
    apply staying_bind (node_stays id)
    intro _ _ _ _
    rw [if_neg fun both => some' both.2]
    exact staying_pure trivial
  have given := setChainLength_doing moments accepted (undamaged.later 4) first some' true
  rw [show (s.later 4).later 1 = s.later 5 from rfl] at given
  refine ends_bind doing_monotone (ends_scopeFail doing_monotone given fun s' failed => ?_) ?_
    fun _ failed => failed
  · apply ends_mono doing_monotone (doing_of_store accepted moments failed.1 (quiet s'.store))
    · exact fun _ _ after => after.2.1.allowed failed.2
    · exact fun _ after => after.2.allowed failed.2
  rintro _ s' ⟨cursor, here⟩
  rw [if_pos (by omega)]
  apply ends_mono doing_monotone (doing_of_store accepted moments cursor
    (grow_listing accepted .any now updateModificationTime small (by omega)
      (fun _ here => restore_listing (by decide) undamaged.storable.isFile undamaged.storable.noLabel _ _
        (fun _ holds => holds.1) here) here))
  · exact fun _ _ _ => trivial
  · exact fun _ after => after.2.slots

theorem extendFile_doing (pos : Nat) {writeEnd : Nat} (grows : writeEnd ≠ 0) :
    (extendFile vol id 0 pos writeEnd).Every (doing (serve vol moments)) s
      (Given vol moments (s.later 3) id (getFileClusterCount vol writeEnd)) := by
  have some' := getFileClusterCount_ne_zero accepted grows
  have none : getFileClusterCount vol 0 = 0 := rfl
  unfold extendFile
  rw [if_pos (by omega)]
  dsimp only
  rw [none, if_pos (by omega)]
  apply doing_loaded undamaged.known first
  apply doing_node (undamaged.later 1).known
  rw [(undamaged.chainless first).2, if_pos (by omega)]
  have given := setChainLength_doing moments accepted (undamaged.later 2) first some' true
  rw [show (s.later 2).later 1 = s.later 3 from rfl] at given
  refine ends_bind doing_monotone given ?_ fun _ failed => failed
  rintro _ s' ⟨cursor, here⟩
  have cleared : (if pos > 0 then clearFileRange vol id 0 pos else pure () : Driver Unit).Every
      (storeSpec vol) s'.store (Staying vol s'.store) := by
    split
    · exact clearFileRange_stays _ _
    · exact staying_pure trivial
  exact ends_mono doing_monotone (doing_of_store accepted moments cursor (listing_of_stays here cleared))
    (fun _ _ after => after) fun _ after => ⟨after.1, after.2.slots⟩

theorem writeFile_doing (file : FATFileNode) (now : FATNow) {request : WriteRequest}
    (writes : ¬request.WritesNothing inode) :
    (writeFile vol id file now request).Every (doing (serve vol moments)) s
      (Settles (fun _ _ => True) fun s' => (afterFirst vol moments (s.later 5) id
        (getFileClusterCount vol (request.position inode +
          min request.len (fatMaxFileSize - request.position inode)))).slots s'.slots) := by
  simp only [WriteRequest.WritesNothing, not_or] at writes
  obtain ⟨isFile, opened, writable, position, bytes, buffer, fits⟩ := writes
  have size := undamaged.storable.agree.1 first
  apply doing_node undamaged.known
  rw [if_neg isFile, if_neg opened, if_neg writable, if_neg position]
  dsimp only
  rw [if_neg bytes, if_neg buffer, if_neg fits]
  apply doing_node (undamaged.later 1).known
  have start : writeStart vol file inode (request.position inode) = .ok none := by
    unfold writeStart
    rw [if_neg fun some' => some'.1 size]
  dsimp only
  rw [start, size]
  have extended := extendFile_doing moments accepted
    (undamaged.later 2) first (request.position inode) (show request.position inode +
      min request.len (fatMaxFileSize - request.position inode) ≠ 0 by omega)
  refine ends_bind doing_monotone extended ?_ fun _ failed => failed.2
  rintro _ s' ⟨cursor, here⟩
  apply ends_mono doing_monotone (doing_of_store accepted moments cursor
    (listing_node here fun _ _ _ => putBytes_listing accepted .any now _ _ (by decide) ?_ here))
  · exact fun _ _ _ => trivial
  · exact fun _ after => after.2.slots
  · unfold fatMaxFileSize at fits ⊢
    omega

end

end Driver

/-! ## Operations that throw -/

theorem FileOp.AsksForFirst.first (asks : op.AsksForFirst inode) : inode.startCluster = 0 := by
  cases op with
  | write => exact asks.1
  | resize => exact asks.1
  | openFile => exact asks.elim

theorem FileOp.program_doing (accepted : vol.Accepted) (moments : Nat → Moment) (undamaged : Undamaged vol s op.target inode)
    (asks : op.AsksForFirst inode) : (op.program vol).Every (doing (serve vol moments)) s
      (Settles (fun _ _ => True) fun s' => (Driver.afterFirst vol moments (s.later 5) op.target
        (Driver.getFileClusterCount vol (op.newSize inode))).slots s'.slots) := by
  have first := asks.first
  cases op with
  | write id file now request =>
    exact ends_bind doing_monotone (Driver.writeFile_doing moments accepted undamaged first file now asks.2)
      (fun _ _ _ => trivial) fun _ failed => failed
  | resize id fileSize now updateModificationTime =>
    exact Driver.resizeFile_doing moments accepted undamaged first now updateModificationTime asks.2.1 asks.2.2
  | openFile => exact asks.elim

/-- The entry of a file `A`. -/
def entryA : FATDirectoryEntryCombo := fun i =>
  if i = 0 then 0x41 else if i.val ≤ 0x0b then 0x20 else 0

def emptyA : FATInode where
  inodeID := 0x100000000
  parentInodeID := 0x4000000100000001
  dirStartIndex := 0
  dirEndIndex := 0
  startCluster := 0
  size := 0
  dosAttribs := 0x20

/-- The card with the file in its root directory. -/
def cardWithA : DriverState where
  table := FATTable.start card fun _ _ => 0
  cursor := FATTableIterator.start card firstDataCluster
  slots := fun cluster slot => if cluster = 1 ∧ slot = 0 then entryA else fun _ => 0
  memory :=
    { freeClusters := 100
      lastAllocatedCluster := firstDataCluster
      nodes := fun id => if id = 7 then some emptyA else none }
  fsInfo := ⟨0, 0⟩

theorem undamaged_cardWithA : Undamaged card cardWithA 7 emptyA where
  known := rfl
  storable := by constructor <;> decide
  chainless _ := ⟨rfl, rfl⟩
  entries cluster slot _ mine := by
    unfold cardWithA at mine ⊢
    dsimp only at mine ⊢
    split
    · rfl
    · rename_i elsewhere
      rw [if_neg elsewhere] at mine
      cases mine
  hint := rfl
  cursor := Window.start rfl

/-- No sector of a directory or a file can be had at a moment. -/
def failingAt (clock : Nat) : Nat → Moment := fun c =>
  if c = clock then { device := some .io } else {}

/-- The file is to get a hundred bytes. -/
def growA : FileOp := .resize 7 100 ⟨0, 0⟩ true

end PadOS.Fat
