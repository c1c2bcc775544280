import PadOS.Core.NamedTree
import PadOS.Core.Run
import PadOS.Core.Transition
import PadOS.Fat.ReadDirectory
import Std.Data.TreeMap.Lemmas

/-! # The virtual filesystem

`KVirtualFilesystemBase` keeps its inodes in memory: a directory maps names to its children
and each child points to the directory it was made for. A directory that has been removed
stays usable for those who refer to it, so inodes are found by reference and are not
destroyed here.

Each call holds the mutex of the volume and is one step. The number of the next inode is
shared by all virtual filesystems.
-/

namespace PadOS.Vfs.VirtualFilesystem

open Transition NamedTree Function
open PadOS.Unicode (PString)
open PadOS.Fat (DirentLayout)

/-- What `S_IFMT` leaves of a mode, and what `d_type` is made of it. -/
inductive FileType
  | blk
  | chr
  | dir
  | fifo
  | reg
  | lnk
  | sock
  | unknown
  deriving DecidableEq, Repr

structure KVirtualFSBaseInode where
  inodeID : Int
  fileType : FileType
  permission : Nat
  parent : Option Nat
  children : Std.TreeMap PString Nat := {}
  fileData : List UInt8 := []

def KVirtualFSBaseInode.isDirectory (inode : KVirtualFSBaseInode) : Bool := inode.fileType == .dir

/-- `S_IRWXU | S_IRWXG | S_IRWXO`. -/
def allPermissions : Nat := 0o777

/-- An inode of another volume, as far as a directory shows it. -/
structure MountPoint where
  volumeID : Nat
  inodeID : Int
  fileType : FileType

/-- The volume, with its inodes and the counter of `AllocInodeNumber`. -/
structure KVirtualFSVolume where
  inodes : Nat → Option KVirtualFSBaseInode
  nextRef : Nat
  nextID : Int
  volumeID : Nat
  mountPoint : Option MountPoint := none

/-- The reference to `m_RootNode`. -/
def rootNode : Nat := 0

namespace KVirtualFSVolume

variable (s : KVirtualFSVolume)

def entry (dir : Nat) (name : PString) : Option Nat :=
  (s.inodes dir).bind fun inode => inode.children[name]?

def parent (ref : Nat) : Option Nat := (s.inodes ref).bind (·.parent)

def inodeID (ref : Nat) : Option Int := (s.inodes ref).map (·.inodeID)

def isDirectory (ref : Nat) : Bool := (s.inodes ref).any (·.isDirectory)

/-! ## Changes -/

/-- `nextID++` on an `atomic_int32_t`. -/
def nextInodeNumber (id : Int) : Int := if id = 2 ^ 31 - 1 then -2 ^ 31 else id + 1

/-- An inode is made and entered in a directory. -/
def enter (dir : Nat) (inode : KVirtualFSBaseInode) (name : PString)
    (fileType : FileType) (permission : Nat) (fileData : List UInt8) : Nat × KVirtualFSVolume :=
  let made : KVirtualFSBaseInode :=
    { inodeID := s.nextID, fileType := fileType, permission := permission, parent := some dir
      fileData := fileData }
  let entered := { inode with children := inode.children.insert name s.nextRef }
  (s.nextRef, { s with
    inodes := update (update s.inodes s.nextRef (some made)) dir (some entered)
    nextRef := s.nextRef + 1
    nextID := nextInodeNumber s.nextID })

/-- An inode is made and destroyed again. -/
def discard : KVirtualFSVolume := { s with nextID := nextInodeNumber s.nextID }

def erase (s : KVirtualFSVolume) (dir : Nat) (inode : KVirtualFSBaseInode) (name : PString) :
    KVirtualFSVolume :=
  { s with
    inodes := update s.inodes dir (some { inode with children := inode.children.erase name }) }

/-! ## Creation and removal -/

/-- `CreateDirectory`. -/
def createDirectory (parent : Nat) (name : PString) (permission : Nat) :
    Except Stop Unit × KVirtualFSVolume :=
  match s.inodes parent with
  | none => (.error .panics, s)
  | some inode =>
    if (inode.children[name]?).isSome then (.error (.throws .exist), s.discard)
    else (.ok (), (s.enter parent inode name .dir permission []).2)

/-- `CreateSymlink`. -/
def createSymlink (parent : Nat) (name : PString) (targetPath : List UInt8) :
    Except Stop Unit × KVirtualFSVolume :=
  match s.inodes parent with
  | none => (.error .panics, s)
  | some inode =>
    if (inode.children[name]?).isSome then (.error (.throws .exist), s)
    else (.ok (), (s.enter parent inode name .lnk allPermissions targetPath).2)

/-- The loop of `LocateParentInode`. `name` is what has been read since `nameStart`, and `i` is
the position of the rest of the path. -/
def locateParentLoop (createParents : Bool) :
    PString → Nat → PString → Nat → KVirtualFSVolume → Except Stop (Nat × Nat) × KVirtualFSVolume
  | [], i, name, current, s => (.ok (current, i - name.length), s)
  | c :: path, i, name, current, s =>
    if c = 0x2f then
      if name = [] then locateParentLoop createParents path (i + 1) [] current s
      else
        match s.inodes current with
        | none => (.error .panics, s)
        | some inode =>
          let known := (inode.children[name]?).filter fun child => s.isDirectory child
          match known with
          | some child => locateParentLoop createParents path (i + 1) [] child s
          | none =>
            if createParents then
              let folder := s.enter current inode name .dir allPermissions []
              locateParentLoop createParents path (i + 1) [] folder.1 folder.2
            else (.error (.throws .noent), s)
    else locateParentLoop createParents path (i + 1) (name ++ [c]) current s

/-- `LocateParentInode`: the inode and where the last name starts. -/
def locateParentInode (parent : Nat) (path : PString) (createParents : Bool) :
    Except Stop (Nat × Nat) × KVirtualFSVolume :=
  locateParentLoop createParents path 0 [] parent s

/-- `Unlink`. -/
def unlink (parent : Nat) (name : PString) : Except Stop Unit × KVirtualFSVolume :=
  match s.inodes parent with
  | none => (.error .panics, s)
  | some inode =>
    match inode.children[name]? with
    | none => (.error (.throws .noent), s)
    | some child =>
      if s.isDirectory child then (.error (.throws .isdir), s)
      else (.ok (), s.erase parent inode name)

/-- `RemoveDirectory`. -/
def removeDirectory (parent : Nat) (name : PString) :
    Except Stop Unit × KVirtualFSVolume :=
  match s.inodes parent with
  | none => (.error .panics, s)
  | some inode =>
    match inode.children[name]? with
    | none => (.error (.throws .noent), s)
    | some child =>
      match s.inodes child with
      | none => (.error .panics, s)
      | some directory =>
        if !directory.isDirectory then (.error (.throws .notdir), s)
        else if !directory.children.isEmpty then (.error (.throws .notempty), s)
        else (.ok (), s.erase parent inode name)

/-! ## Lookup -/

def dotName : PString := [0x2e]

def dotDotName : PString := [0x2e, 0x2e]

/-- `LocateInode`. -/
def locateInode (parent : Nat) (name : PString) : Except Stop Nat :=
  let found :=
    if name = [] then none
    else if name = dotName then some parent
    else if name = dotDotName then s.parent parent
    else s.entry parent name
  match found with
  | none => .error (.throws .noent)
  | some ref => .ok ref

/-- The loop over the children in `FindInode`. -/
def findChild (s : KVirtualFSVolume) (id : Int) (find : Nat → Run Nat) : List (PString × Nat) → Run Nat
  | [] => throw (.throws .io)
  | (_, child) :: children =>
    if s.inodeID child = some id then pure child
    else if s.isDirectory child then
      match find child with
      | some (.error (.throws .io)) => findChild s id find children
      | result => result
    else findChild s id find children

def childList (dir : Nat) : List (PString × Nat) :=
  (s.inodes dir).elim [] fun inode => inode.children.toList

/-- `FindInode`, where nothing is to be removed. -/
def findInode (s : KVirtualFSVolume) (id : Int) : Nat → Nat → Run Nat
  | 0, _ => Run.unfinished
  | depth + 1, dir =>
    if s.inodeID dir = some id then pure dir
    else s.findChild id (s.findInode id depth) (s.childList dir)

/-- `LoadInode`. A directory is entered in one that has been made before it. -/
def loadInode (id : Int) : Run Nat :=
  if s.inodeID rootNode = some id then pure rootNode
  else s.findInode id s.nextRef rootNode

/-! ## Reading -/

structure Dirent where
  volumeID : Nat
  inodeID : Int
  type : FileType
  name : PString

def dirent (name : PString) (ref : Nat) : Option Dirent :=
  (s.inodes ref).map fun inode =>
    { volumeID := s.volumeID, inodeID := inode.inodeID, type := inode.fileType, name := name }

def haveParent (dir : Nat) : Bool := dir != rootNode || s.mountPoint.isSome

/-- The record for the directory that a directory is in. -/
def dotDotDirent (dir : Nat) : Option Dirent :=
  if dir ≠ rootNode then (s.parent dir).bind (s.dirent dotDotName)
  else s.mountPoint.map fun mount =>
    { volumeID := mount.volumeID, inodeID := mount.inodeID, type := mount.fileType, name := dotDotName }

/-- The loop of `ReadDirectory`, over the children from `childIterator` on. -/
def readLoop (layout : DirentLayout) (s : KVirtualFSVolume) (dir bufferSize : Nat) :
    Nat → Nat → List Dirent → Nat → List (PString × Nat) → Run (List Dirent × Nat)
  | 0, _, _, _, _ => Run.unfinished
  | rounds + 1, bytesWritten, entries, currentIndex, children =>
    if bufferSize - bytesWritten < layout.recordSize 0 then pure (entries, currentIndex)
    else
      let isSynthetic := currentIndex = 0 ∨ (s.haveParent dir ∧ currentIndex = 1)
      if ¬isSynthetic ∧ children = [] then pure (entries, currentIndex)
      else
        let next :=
          if currentIndex = 0 then s.dirent dotName dir
          else if s.haveParent dir ∧ currentIndex = 1 then s.dotDotDirent dir
          else children.head?.bind fun child => s.dirent child.1 child.2
        match next with
        | none => throw .panics
        | some dirent =>
          let recordSize := layout.recordSize dirent.name.length
          if recordSize = 0 ∨ recordSize > bufferSize - bytesWritten then
            if bytesWritten = 0 then throw (.throws .nametoolong) else pure (entries, currentIndex)
          else
            readLoop layout s dir bufferSize rounds (bytesWritten + recordSize) (entries ++ [dirent])
              (currentIndex + 1) (if isSynthetic then children else children.tail)

/-- `ReadDirectory`: the records, and `m_CurrentIndex` afterwards. The buffer is aligned. -/
def readDirectory (layout : DirentLayout) (s : KVirtualFSVolume) (dir currentIndex bufferSize : Nat) :
    Run (List Dirent × Nat) :=
  if bufferSize < layout.recordSize 0 then throw (.throws .inval)
  else
    let syntheticEntryCount := if s.haveParent dir then 2 else 1
    let childIndex := if currentIndex ≥ syntheticEntryCount then currentIndex - syntheticEntryCount else 0
    let children := (s.childList dir).drop (min childIndex (s.childList dir).length)
    readLoop layout s dir bufferSize (children.length + 3) 0 [] currentIndex children

/-- `ssize_t` of a size or a position. -/
def ssize (n : Int) : Int := (n + 2 ^ 31) % 2 ^ 32 - 2 ^ 31

/-- `Read`: how many bytes it stores in the buffer, which is also what it returns. The
requested length is not looked at. -/
def read (fileData : List UInt8) (_length : Nat) (position : Int) : Nat :=
  (max 0 (ssize fileData.length - ssize position)).toNat

end KVirtualFSVolume

/-! ## The system -/

inductive VirtualFSOp
  | createDirectory (parent : Nat) (name : PString) (permission : Nat)
  | createSymlink (parent : Nat) (name : PString) (targetPath : List UInt8)
  | locateParentInode (parent : Nat) (path : PString) (createParents : Bool)
  | unlink (parent : Nat) (name : PString)
  | removeDirectory (parent : Nat) (name : PString)
  | allocInodeNumber

namespace KVirtualFSVolume

/-- A call is made with a reference to an inode. Other virtual filesystems take numbers too. -/
def step (s : KVirtualFSVolume) : VirtualFSOp → Option KVirtualFSVolume
  | .createDirectory parent name permission =>
    if (s.inodes parent).isSome then some (s.createDirectory parent name permission).2 else none
  | .createSymlink parent name targetPath =>
    if (s.inodes parent).isSome then some (s.createSymlink parent name targetPath).2 else none
  | .locateParentInode parent path createParents =>
    if (s.inodes parent).isSome then some (s.locateParentInode parent path createParents).2 else none
  | .unlink parent name => if (s.inodes parent).isSome then some (s.unlink parent name).2 else none
  | .removeDirectory parent name =>
    if (s.inodes parent).isSome then some (s.removeDirectory parent name).2 else none
  | .allocInodeNumber => some s.discard

def virtualFSSystem : System KVirtualFSVolume VirtualFSOp where
  step := step

/-- `DoMount`. -/
def mounted (volumeID : Nat) (mountPoint : Option MountPoint) (id : Int) : KVirtualFSVolume where
  inodes ref :=
    if ref = rootNode then
      some { inodeID := id, fileType := .dir, permission := allPermissions, parent := none }
    else none
  nextRef := 1
  nextID := nextInodeNumber id
  volumeID := volumeID
  mountPoint := mountPoint

end KVirtualFSVolume

end PadOS.Vfs.VirtualFilesystem
