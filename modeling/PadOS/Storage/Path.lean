import PadOS.Core.PathResolution
import PadOS.Core.Unicode

/-! # `PPath::Normalize`

The path is edited in place: the loop runs to the end of each component and erases what does not
stay. After a dot or two dots the index is set back to the start of the next component and then
stepped, so the first character there is never looked at.
-/

namespace PadOS.Storage.PPath

open Unicode (PString)
open PathResolution

def slash : UInt8 := 0x2f

def dot : UInt8 := 0x2e

def erase (path : PString) (position count : Nat) : PString :=
  path.take position ++ path.drop (position + count)

/-- How many slashes stand at `i` and behind. -/
def consecutiveSlashes (path : PString) (i : Nat) : Nat :=
  ((path.drop i).takeWhile fun c => c == slash).length

/-- Backwards from a position until a slash stands before it. -/
def rewindName (path : PString) : Nat → Nat
  | 0 => 0
  | position + 1 => if path[position]? = some slash then position + 1 else rewindName path position

structure Normalizing where
  path : PString
  nameStart : Nat
  prevNameStart : Nat
  i : Nat

/-- The body of the loop, with the step to the next index. -/
def normalizeStep (s : Normalizing) : Normalizing :=
  if s.i = s.path.length ∨ s.path[s.i]? = some slash then
    let nameLength := s.i - s.nameStart
    if nameLength = 0 then
      { s with path := erase s.path s.i (consecutiveSlashes s.path s.i), i := s.i + 1 }
    else if nameLength = 1 ∧ s.path[s.nameStart]? = some dot then
      if s.nameStart ≠ 0 then
        if s.nameStart = s.path.length - 1 then
          { s with path := erase s.path s.nameStart 1, i := s.i - 1 + 1 }
        else { s with path := erase s.path s.nameStart 2, i := s.i - 1 + 1 }
      else { s with prevNameStart := s.nameStart, nameStart := s.i + 1, i := s.i + 1 }
    else if nameLength = 2 ∧ s.path[s.nameStart]? = some dot ∧
        s.path[s.nameStart + 1]? = some dot then
      let prevNameStart :=
        if s.prevNameStart > 0 ∧ s.prevNameStart = s.nameStart then
          rewindName s.path (s.prevNameStart - 1)
        else s.prevNameStart
      let path :=
        if prevNameStart = 0 then erase s.path 1 (s.i - prevNameStart)
        else erase s.path prevNameStart (s.i - prevNameStart + 1)
      { path := path, nameStart := prevNameStart, prevNameStart := prevNameStart,
        i := prevNameStart + 1 }
    else { s with prevNameStart := s.nameStart, nameStart := s.i + 1, i := s.i + 1 }
  else { s with i := s.i + 1 }

def normalizeLoop : Nat → Normalizing → Normalizing
  | 0, s => s
  | fuel + 1, s => if s.i ≤ s.path.length then normalizeLoop fuel (normalizeStep s) else s

/-- As many steps as the loop may take. -/
def normalizeFuel (path : PString) : Nat := 2 * path.length

def normalizeStart (path : PString) : Normalizing :=
  { path := path, nameStart := 1, prevNameStart := 1, i := 1 }

/-- The path and `m_NameStart`. -/
def normalize (path : PString) : PString × Nat :=
  if path.length < 2 then (path, path.length)
  else
    let s := normalizeLoop (normalizeFuel path) (normalizeStart path)
    let path :=
      if s.path.length > 1 ∧ s.path[s.path.length - 1]? = some slash then
        s.path.take (s.path.length - 1)
      else s.path
    if s.prevNameStart ≥ path.length then (path, rewindName path path.length)
    else (path, s.prevNameStart)

def getLeaf (path : PString) (nameStart : Nat) : PString := path.drop nameStart

def getDir (path : PString) (nameStart : Nat) : PString :=
  if nameStart ≥ path.length then path
  else if nameStart > 1 ∧ path[nameStart - 1]? = some slash then path.take (nameStart - 1)
  else path.take nameStart

/-! ## The loop ends -/

variable {path : PString} {s : Normalizing}

theorem length_erase (position count : Nat) : (erase path position count).length =
    min position path.length + (path.length - (position + count)) := by
  simp [erase]

/-- The starts that are remembered stand at or before the index. -/
structure Ordered (s : Normalizing) : Prop where
  previous : s.prevNameStart ≤ s.nameStart
  name : s.nameStart ≤ s.i

theorem normalizeStep_less (ordered : Ordered s) (within : s.i ≤ s.path.length) :
    Ordered (normalizeStep s) ∧ 2 * (normalizeStep s).path.length + 1 - (normalizeStep s).i <
        2 * s.path.length + 1 - s.i := by
  obtain ⟨path, nameStart, prevNameStart, i⟩ := s
  have ⟨previous, name⟩ := ordered
  simp only at previous name within
  unfold normalizeStep
  dsimp only
  split_ifs with isEnd empty single notStart last double again root root <;>
    refine ⟨⟨?_, ?_⟩, ?_⟩ <;> simp only [length_erase] <;> omega

theorem normalizeLoop_stop (fuel : Nat) (ended : s.path.length < s.i) :
    normalizeLoop fuel s = s := by
  cases fuel with
  | zero => rfl
  | succ fuel => rw [normalizeLoop, if_neg (not_le.2 ended)]

theorem normalizeLoop_ends (fuel : Nat) (ordered : Ordered s)
    (enough : 2 * s.path.length + 1 - s.i ≤ fuel) :
    (normalizeLoop fuel s).path.length < (normalizeLoop fuel s).i := by
  induction fuel generalizing s with
  | zero =>
    rw [normalizeLoop]
    omega
  | succ fuel ih =>
    rw [normalizeLoop]
    split_ifs with within
    · have ⟨ordered', less⟩ := normalizeStep_less ordered within
      exact ih ordered' (by omega)
    · omega

theorem normalizeLoop_more (fuel more : Nat)
    (ended : (normalizeLoop fuel s).path.length < (normalizeLoop fuel s).i) :
    normalizeLoop (fuel + more) s = normalizeLoop fuel s := by
  induction fuel generalizing s with
  | zero =>
    rw [zero_add]
    exact normalizeLoop_stop more ended
  | succ fuel ih =>
    rw [Nat.succ_add, normalizeLoop, normalizeLoop]
    rw [normalizeLoop] at ended
    split_ifs at ended ⊢ with within
    · exact ih ended
    · rfl

theorem ordered_start (path : PString) : Ordered (normalizeStart path) :=
  ⟨le_rfl, le_rfl⟩

theorem normalizeLoop_enough (path : PString) {fuel : Nat} (enough : normalizeFuel path ≤ fuel) :
    normalizeLoop fuel (normalizeStart path) =
      normalizeLoop (normalizeFuel path) (normalizeStart path) := by
  have ended := normalizeLoop_ends (normalizeFuel path) (ordered_start path)
    (by simp only [normalizeStart, normalizeFuel]; omega)
  obtain ⟨more, rfl⟩ := Nat.exists_eq_add_of_le enough
  exact normalizeLoop_more _ more ended

end PadOS.Storage.PPath
