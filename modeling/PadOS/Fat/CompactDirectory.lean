import PadOS.Fat.Inode
import PadOS.Fat.Scan

/-! # Compacting a directory

`CompactDirectory` goes over the entries of a directory to find the last one that it counts.
Volume labels are not counted in the root.
-/

namespace PadOS.Fat

/-- An entry that keeps the slots in front of it. -/
def countsEntry (isRoot : Bool) (dosAttribs : Nat) : Bool :=
  dosAttribs &&& fatVolumeAttribute == 0 || !isRoot

/-- The loop over the entries: the index behind the last one that counts, once `GetNextLFNEntry`
has returned false. -/
def compactLoop (vol : FATVolume) (disk : Disk) (isRoot : Bool) (directoryEntryCount rounds : Nat) :
    Nat → Nat → FATDirectoryIterator → Run (Option Nat)
  | 0, _, _ => Run.unfinished
  | calls + 1, last, it =>
    if it.currentIndex < directoryEntryCount ∧ (it.getCurrentEntry vol disk).isSome then do
      let (found, it) ← it.getNextLFNEntry vol disk false rounds
      match found with
      | some entry =>
        compactLoop vol disk isRoot directoryEntryCount rounds calls
          (if countsEntry isRoot entry.info.dosAttribs then it.currentIndex else last) it
      | none => return some last
    else return none

/-- The pass over a directory whose metadata are loaded. -/
def findLast (vol : FATVolume) (disk : Disk) (rounds : Nat) (dir : FATInode) : Run (Option Nat) := do
  let it ← Run.ofExcept (FATDirectoryIterator.create vol disk dir.startCluster 0)
  let directoryEntryCount := dir.size / directoryEntrySize % 2 ^ 32
  compactLoop vol disk (dir.isRoot vol) directoryEntryCount rounds rounds 0 it

end PadOS.Fat
