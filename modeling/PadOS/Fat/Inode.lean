import PadOS.Fat.DirectoryEntry

/-! # Inodes and their numbers

An inode number encodes the directory and either the first cluster or the index of
the directory entry. Entries that moved while their inode was in use keep an
artificial number, which is what `InodeMap` is for.
-/

namespace PadOS.Fat

open Unicode

def fatVolumeAttribute : Nat := 0x08
def fatSubdirAttribute : Nat := 0x10

/-! ## Numbers -/

def artificialInodeIDBits : Nat := 0x6 <<< 60
def dirClusterInodeIDBits : Nat := 0x4 <<< 60

def isDirClusterInodeID (id : Nat) : Bool := id &&& artificialInodeIDBits == dirClusterInodeIDBits

def generateDirIndexInodeID (directory index : Nat) : Nat := (directory <<< 32) % 2 ^ 64 ||| index

def generateDirClusterInodeID (directory cluster : Nat) : Nat :=
  dirClusterInodeIDBits ||| (directory <<< 32) % 2 ^ 64 ||| cluster

def clusterOfDirClusterInodeID (id : Nat) : Nat := id &&& 0xffffffff

def FATVolume.rootInodeID (vol : FATVolume) : Nat :=
  generateDirClusterInodeID vol.rootStartCluster vol.rootStartCluster

structure FATInode where
  inodeID : Nat
  parentInodeID : Nat
  iteration : Nat := 0
  dirStartIndex : Nat
  dirEndIndex : Nat
  startCluster : Nat
  endCluster : Nat := 0
  allocatedClusterCount : Nat := 0
  size : Nat
  dosAttribs : Nat
  deriving DecidableEq

def FATInode.isRoot (vol : FATVolume) (inode : FATInode) : Bool := inode.inodeID == vol.rootInodeID

/-! ## The maps of a volume -/

structure InodeMap where
  inodeToLocation : Nat → Option Nat := fun _ => none
  locationToInode : Nat → Option Nat := fun _ => none
  directoryMap : Nat → Option Nat := fun _ => none
  currentArtificialID : Nat := artificialInodeIDBits

namespace InodeMap

def allocUniqueInodeID (maps : InodeMap) : Nat × InodeMap :=
  (maps.currentArtificialID,
    { maps with currentArtificialID := (maps.currentArtificialID + 1) % 2 ^ 64 })

def setInodeIDToLocationIDMapping (maps : InodeMap) (inodeID locationID : Nat) :
    Except Stop InodeMap :=
  match maps.inodeToLocation inodeID with
  | some oldLocation =>
    if maps.locationToInode oldLocation ≠ some inodeID then .error (.throws .io)
    else if locationID = oldLocation then .ok maps
    else if (maps.locationToInode locationID).isSome then .error (.throws .io)
    else
      let forgotten := fun l => if l = oldLocation then none else maps.locationToInode l
      if inodeID ≠ locationID then .ok
        { maps with
          inodeToLocation := fun i => if i = inodeID then some locationID else maps.inodeToLocation i
          locationToInode := fun l => if l = locationID then some inodeID else forgotten l }
      else .ok { maps with
          inodeToLocation := fun i => if i = inodeID then none else maps.inodeToLocation i
          locationToInode := forgotten }
  | none =>
    if (maps.locationToInode locationID).isSome then .error (.throws .io)
    else if inodeID ≠ locationID then .ok
      { maps with
        inodeToLocation := fun i => if i = inodeID then some locationID else maps.inodeToLocation i
        locationToInode := fun l => if l = locationID then some inodeID else maps.locationToInode l }
    else .ok maps

/-- `AddDirectoryMapping`; nothing is returned for `false`. -/
def addDirectoryMapping (vol : FATVolume) (maps : InodeMap) (startCluster inodeID : Nat) :
    Option InodeMap :=
  if (!vol.isDataCluster startCluster ∧ startCluster ≠ 1) ∨ !isDirClusterInodeID inodeID ∨
      inodeID = 0 ∨ clusterOfDirClusterInodeID inodeID ≠ startCluster then none
  else
    match maps.directoryMap startCluster with
    | some mapped => if mapped ≠ inodeID then none else some maps
    | none => some { maps with
          directoryMap := fun c => if c = startCluster then some inodeID else maps.directoryMap c }

end InodeMap

end PadOS.Fat
