import PadOS.Vfs.InodeCacheConsistency

/-! # Leaked inodes

With the count as `PtrTarget` keeps it. `HandleLastRefGone` raises the count before it calls
`LastReferenceGone`, and nothing takes it down again, so `InodeReleased` never finds an
unreferenced inode.
-/

namespace PadOS.Vfs.InodeCache

open Transition
open Function (update_self update_of_ne)

variable {s u : State} {t i : Nat}

def Releasing (s : State) (i : Nat) : Prop := ∃ t, (s.pc t).inode? = some i

/-- An active inode of the map to which no reference is left, and whose release is over. -/
structure Unreferenced (s : State) (i : Nat) : Prop where
  alive : (s.inode i).life = .alive
  active : (s.inode i).active = true
  mapped : s.map (s.inode i).key = .inode i
  unused : (s.inode i).refs = 0
  settled : ¬Releasing s i

/-- Such an inode is on the list, and is none that is not to be cached. -/
def Settled (s : State) : Prop :=
  ∀ i, Unreferenced s i → (s.inode i).dontCache = false ∧ i ∈ s.mru ∧ (s.inode i).ptrCount = 0

/-- No inode is ever listed, and a count that is one too high stays so. -/
structure Raised (s : State) : Prop where
  unlisted : s.mru = []
  kept : ∀ t i key flush, s.pc t ≠ .discarding i key flush ∧ s.pc t ≠ .discarded key flush
  counted : ∀ i, (s.inode i).ptrCount = (s.inode i).refs ∨ (s.inode i).ptrCount = (s.inode i).refs + 1
  dropped : ∀ t i, s.pc t = .dropped i → (s.inode i).ptrCount = 0
  raised : ∀ t i, s.pc t = .notifying i ∨ s.pc t = .lastGone i →
    (s.inode i).ptrCount = (s.inode i).refs + 1
  owned : ∀ t i, (s.pc t).inode? = some i → (s.inode i).life = .alive
  alone : ∀ t u i, (s.pc t).inode? = some i → (s.pc u).inode? = some i → t = u
  zero : ∀ i, (s.inode i).life = .alive → (s.inode i).ptrCount = 0 → ∃ t, s.pc t = .dropped i

namespace Raised

theorem initial : Raised initialState := by
  constructor <;> simp [initialState, Pc.inode?]

section

variable (r : Raised s)

include r

variable {f : KInode → KInode}

/-- One inode changes while every thread stays. -/
theorem modify
    (counted : (f (s.inode i)).ptrCount = (f (s.inode i)).refs ∨
      (f (s.inode i)).ptrCount = (f (s.inode i)).refs + 1)
    (dropped : (∃ t, s.pc t = .dropped i) → (f (s.inode i)).ptrCount = 0)
    (raised : (∃ t, s.pc t = .notifying i ∨ s.pc t = .lastGone i) →
      (f (s.inode i)).ptrCount = (f (s.inode i)).refs + 1)
    (owned : (∃ t, (s.pc t).inode? = some i) → (f (s.inode i)).life = .alive)
    (zero : (f (s.inode i)).life = .alive → (f (s.inode i)).ptrCount = 0 → ∃ t, s.pc t = .dropped i) :
    Raised (s.modify i f) := by
  have here : (s.modify i f).inode i = f (s.inode i) := update_self i _ _
  have other : ∀ j, j ≠ i → (s.modify i f).inode j = s.inode j :=
    fun j differs => update_of_ne differs _ _
  constructor
  case unlisted => exact r.unlisted
  case kept => exact r.kept
  case alone => exact r.alone
  case counted =>
    intro j
    by_cases same : j = i
    · cases same
      rw [here]
      exact counted
    · rw [other j same]
      exact r.counted j
  case dropped =>
    intro t j found
    by_cases same : j = i
    · cases same
      rw [here]
      exact dropped ⟨t, found⟩
    · rw [other j same]
      exact r.dropped t j found
  case raised =>
    intro t j found
    by_cases same : j = i
    · cases same
      rw [here]
      exact raised ⟨t, found⟩
    · rw [other j same]
      exact r.raised t j found
  case owned =>
    intro t j owns
    by_cases same : j = i
    · cases same
      rw [here]
      exact owned ⟨t, owns⟩
    · rw [other j same]
      exact r.owned t j owns
  case zero =>
    intro j
    by_cases same : j = i
    · cases same
      rw [here]
      exact zero
    · rw [other j same]
      exact r.zero j

/-- One thread goes to a place without an inode. -/
theorem setPc {pc : Pc} (none : pc.inode? = none) (keeps : ∀ k flush, pc ≠ .discarded k flush)
    (before : ∀ i, s.pc t ≠ .dropped i) : Raised (s.setPc t pc) := by
  have here : (s.setPc t pc).pc t = pc := update_self t _ _
  have other : ∀ u, u ≠ t → (s.setPc t pc).pc u = s.pc u :=
    fun u differs => update_of_ne differs _ _
  have back : ∀ u j, ((s.setPc t pc).pc u).inode? = some j → (s.setPc t pc).pc u = s.pc u := by
    intro u j owns
    by_cases same : u = t
    · rw [same, here, none] at owns
      cases owns
    · exact other u same
  constructor
  case unlisted => exact r.unlisted
  case counted => exact r.counted
  case kept =>
    intro u j k flush
    by_cases same : u = t
    · rw [same, here]
      refine ⟨?_, keeps k flush⟩
      rintro rfl
      cases none
    · rw [other u same]
      exact r.kept u j k flush
  case dropped =>
    intro u j found
    have old := back u j (by rw [found]; rfl)
    exact r.dropped u j (old ▸ found)
  case raised =>
    intro u j found
    have owns : ((s.setPc t pc).pc u).inode? = some j := by
      rcases found with found | found
      · rw [found]
        rfl
      · rw [found]
        rfl
    have old := back u j owns
    exact r.raised u j (old ▸ found)
  case owned =>
    intro u j owns
    exact r.owned u j (back u j owns ▸ owns)
  case alone =>
    intro u v j first second
    exact r.alone u v j (back u j first ▸ first) (back v j second ▸ second)
  case zero =>
    intro j alive zero
    rcases r.zero j alive zero with ⟨u, found⟩
    refine ⟨u, (other u ?_).trans found⟩
    rintro rfl
    exact before j found

/-- A thread that no other shares its inode with changes the count and goes on. -/
theorem settle {pc : Pc}
    (own : ∀ u, u ≠ t → (s.pc u).inode? ≠ some i) (before : ∀ j, (s.pc t).inode? = some j → j = i)
    (after : ∀ j, pc.inode? = some j → j = i ∧ (f (s.inode i)).life = .alive)
    (keeps : ∀ j k flush, pc ≠ .discarding j k flush ∧ pc ≠ .discarded k flush)
    (counted : (f (s.inode i)).ptrCount = (f (s.inode i)).refs ∨
      (f (s.inode i)).ptrCount = (f (s.inode i)).refs + 1)
    (dropped : pc = .dropped i → (f (s.inode i)).ptrCount = 0)
    (raised : pc = .notifying i ∨ pc = .lastGone i → (f (s.inode i)).ptrCount = (f (s.inode i)).refs + 1)
    (zero : (f (s.inode i)).life = .alive → (f (s.inode i)).ptrCount = 0 → pc = .dropped i) :
    Raised ((s.modify i f).setPc t pc) := by
  have inode : ((s.modify i f).setPc t pc).inode i = f (s.inode i) := update_self i _ _
  have inodes : ∀ j, j ≠ i → ((s.modify i f).setPc t pc).inode j = s.inode j :=
    fun j differs => update_of_ne differs _ _
  have here : ((s.modify i f).setPc t pc).pc t = pc := update_self t _ _
  have other : ∀ u, u ≠ t → ((s.modify i f).setPc t pc).pc u = s.pc u :=
    fun u differs => update_of_ne differs _ _
  -- a thread that has another inode in hand is another thread, and has it as before
  have back : ∀ u j, j ≠ i → (((s.modify i f).setPc t pc).pc u).inode? = some j →
      ((s.modify i f).setPc t pc).pc u = s.pc u := by
    intro u j differs owns
    by_cases same : u = t
    · rw [same, here] at owns
      exact absurd (after j owns).1 differs
    · exact other u same
  have only : ∀ u, (((s.modify i f).setPc t pc).pc u).inode? = some i → u = t := by
    intro u owns
    by_contra differs
    rw [other u differs] at owns
    exact own u differs owns
  constructor
  case unlisted => exact r.unlisted
  case counted =>
    intro j
    by_cases same : j = i
    · cases same
      rw [inode]
      exact counted
    · rw [inodes j same]
      exact r.counted j
  case kept =>
    intro u j k flush
    by_cases same : u = t
    · rw [same, here]
      exact keeps j k flush
    · rw [other u same]
      exact r.kept u j k flush
  case dropped =>
    intro u j found
    have owns : (((s.modify i f).setPc t pc).pc u).inode? = some j := by rw [found]; rfl
    by_cases same : j = i
    · cases same
      rw [only u owns, here] at found
      rw [inode]
      exact dropped found
    · rw [inodes j same]
      exact r.dropped u j (back u j same owns ▸ found)
  case raised =>
    intro u j found
    have owns : (((s.modify i f).setPc t pc).pc u).inode? = some j := by
      rcases found with found | found
      · rw [found]
        rfl
      · rw [found]
        rfl
    by_cases same : j = i
    · cases same
      rw [only u owns, here] at found
      rw [inode]
      exact raised found
    · rw [inodes j same]
      exact r.raised u j (back u j same owns ▸ found)
  case owned =>
    intro u j owns
    by_cases same : j = i
    · cases same
      rw [only u owns, here] at owns
      rw [inode]
      exact (after i owns).2
    · rw [inodes j same]
      exact r.owned u j (back u j same owns ▸ owns)
  case alone =>
    intro u v j first second
    by_cases same : j = i
    · cases same
      rw [only u first, only v second]
    · exact r.alone u v j (back u j same first ▸ first) (back v j same second ▸ second)
  case zero =>
    intro j alive none
    by_cases same : j = i
    · cases same
      rw [inode] at alive none
      exact ⟨t, here.trans (zero alive none)⟩
    · rw [inodes j same] at alive none
      rcases r.zero j alive none with ⟨u, found⟩
      refine ⟨u, (other u ?_).trans found⟩
      rintro rfl
      exact same (before j (by rw [found]; rfl))

theorem setMap (key : Key) (entry : Entry) : Raised (s.setMap key entry) :=
  ⟨r.unlisted, r.kept, r.counted, r.dropped, r.raised, r.owned, r.alone, r.zero⟩

theorem fail : Raised s.fail :=
  ⟨r.unlisted, r.kept, r.counted, r.dropped, r.raised, r.owned, r.alone, r.zero⟩

theorem addRef (positive : 0 < (s.inode i).ptrCount) : Raised (s.addRef i) := by
  have counted := r.counted i
  apply r.modify
  · show (s.inode i).ptrCount + 1 = (s.inode i).refs + 1 ∨ (s.inode i).ptrCount + 1 = (s.inode i).refs + 1 + 1
    omega
  · intro ⟨t, found⟩
    have := r.dropped t i found
    omega
  · intro ⟨t, found⟩
    exact congrArg (· + 1) (r.raised t i found)
  · intro ⟨t, owns⟩
    exact r.owned t i owns
  · intro _ zero
    exact absurd zero (Nat.succ_ne_zero _)

theorem releasePtrRef (idle : s.pc t = .idle) (held : s.Held i) :
    Raised (s.releasePtrRef .ptrTarget t i) := by
  have counted := r.counted i
  have some' := held.2
  have before : ∀ j, (s.pc t).inode? = some j → j = i := by
    intro j owns
    rw [idle] at owns
    cases owns
  have after : (s.modify i fun n => { n with ptrCount := n.ptrCount - 1, refs := n.refs - 1 }).inode i =
      { s.inode i with ptrCount := (s.inode i).ptrCount - 1, refs := (s.inode i).refs - 1 } :=
    update_self i _ _
  unfold State.releasePtrRef
  dsimp only
  rw [after]
  dsimp only
  split
  · rename_i more
    apply r.modify
    · show (s.inode i).ptrCount - 1 = (s.inode i).refs - 1 ∨
        (s.inode i).ptrCount - 1 = (s.inode i).refs - 1 + 1
      omega
    · intro ⟨u, found⟩
      have := r.dropped u i found
      omega
    · intro ⟨u, found⟩
      have := r.raised u i found
      show (s.inode i).ptrCount - 1 = (s.inode i).refs - 1 + 1
      omega
    · intro ⟨u, owns⟩
      exact r.owned u i owns
    · intro _ zero
      change (s.inode i).ptrCount - 1 = 0 at zero
      omega
  · rename_i last
    -- a count of one is that of a single reference, and of no thread
    apply r.settle
    · intro u _ owns
      rcases found : s.pc u with _ | j | j | j | ⟨j, k, flush⟩ | ⟨k, flush⟩ | k
      · rw [found] at owns
        cases owns
      · rw [found] at owns
        cases owns
        have := r.dropped u i found
        omega
      · rw [found] at owns
        cases owns
        have := r.raised u i (.inl found)
        omega
      · rw [found] at owns
        cases owns
        have := r.raised u i (.inr found)
        omega
      · exact (r.kept u j k flush).1 found
      · rw [found] at owns
        cases owns
      · rw [found] at owns
        cases owns
    · exact before
    · intro j owns
      cases owns
      exact ⟨rfl, held.1⟩
    · exact fun _ _ _ => ⟨nofun, nofun⟩
    · show (s.inode i).ptrCount - 1 = (s.inode i).refs - 1 ∨
        (s.inode i).ptrCount - 1 = (s.inode i).refs - 1 + 1
      omega
    · intro _
      show (s.inode i).ptrCount - 1 = 0
      omega
    · exact fun other => other.elim nofun nofun
    · exact fun _ _ => rfl

/-- The other threads do not hold an inode that a thread holds, and the thread holds no other. -/
theorem alone_at (here : (s.pc t).inode? = some i) :
    (∀ u, u ≠ t → (s.pc u).inode? ≠ some i) ∧ ∀ j, (s.pc t).inode? = some j → j = i :=
  ⟨fun u differs owns => differs (r.alone u t i owns here), fun _ owns =>
    Option.some.inj (owns.symm.trans here)⟩

theorem handleLastRefGone {revived : Nat} (here : s.pc t = .dropped i) :
    Raised (s.handleLastRefGone t i revived) := by
  rcases r.alone_at (t := t) (i := i) (by rw [here]; rfl) with ⟨own, before⟩
  have alive := r.owned t i (by rw [here]; rfl)
  have zero := r.dropped t i here
  have counted := r.counted i
  unfold State.handleLastRefGone
  split
  · apply r.settle own before
    · intro j owns
      cases owns
      exact ⟨rfl, alive⟩
    · exact fun _ _ _ => ⟨nofun, nofun⟩
    · right
      show (s.inode i).ptrCount + 1 = (s.inode i).refs + 1
      omega
    · exact nofun
    · intro _
      show (s.inode i).ptrCount + 1 = (s.inode i).refs + 1
      omega
    · exact fun _ zero => absurd zero (Nat.succ_ne_zero _)
  · apply r.settle own before
    · intro j owns
      cases owns
      exact ⟨rfl, alive⟩
    · exact fun _ _ _ => ⟨nofun, nofun⟩
    · right
      show (s.inode i).ptrCount + 1 + revived = (s.inode i).refs + revived + 1
      omega
    · exact nofun
    · intro _
      show (s.inode i).ptrCount + 1 + revived = (s.inode i).refs + revived + 1
      omega
    · intro _ zero
      change (s.inode i).ptrCount + 1 + revived = 0 at zero
      omega

theorem retryRelease (here : s.pc t = .notifying i) : Raised (s.retryRelease t i) := by
  rcases r.alone_at (t := t) (i := i) (by rw [here]; rfl) with ⟨own, before⟩
  have alive := r.owned t i (by rw [here]; rfl)
  have raised := r.raised t i (.inl here)
  have after : (s.modify i fun n => { n with ptrCount := n.ptrCount - 1 }).inode i =
      { s.inode i with ptrCount := (s.inode i).ptrCount - 1 } := update_self i _ _
  have counted : (s.inode i).ptrCount - 1 = (s.inode i).refs ∨
      (s.inode i).ptrCount - 1 = (s.inode i).refs + 1 := by omega
  unfold State.retryRelease
  dsimp only
  rw [after]
  dsimp only
  split
  · rename_i more
    apply r.settle own before
    · intro j owns
      cases owns
    · exact fun _ _ _ => ⟨nofun, nofun⟩
    · exact counted
    · exact nofun
    · exact fun other => other.elim nofun nofun
    · intro _ zero
      change (s.inode i).ptrCount - 1 = 0 at zero
      omega
  · rename_i last
    apply r.settle own before
    · intro j owns
      cases owns
      exact ⟨rfl, alive⟩
    · exact fun _ _ _ => ⟨nofun, nofun⟩
    · exact counted
    · intro _
      show (s.inode i).ptrCount - 1 = 0
      omega
    · exact fun other => other.elim nofun nofun
    · exact fun _ _ => rfl

/-- `InodeReleased` finds the count that was raised for it. -/
theorem lastReferenceGone {now : Int} (here : s.pc t = .lastGone i) :
    Raised (s.lastReferenceGone t i now) := by
  rcases r.alone_at (t := t) (i := i) (by rw [here]; rfl) with ⟨own, before⟩
  have raised := r.raised t i (.inr here)
  have quiet : ∀ {f : KInode → KInode}, (f (s.inode i)).ptrCount = (s.inode i).ptrCount →
      (f (s.inode i)).refs = (s.inode i).refs → Raised ((s.modify i f).setPc t .idle) := by
    intro f count refs
    apply r.settle own before
    · intro j owns
      cases owns
    · exact fun _ _ _ => ⟨nofun, nofun⟩
    · rw [count, refs]
      exact r.counted i
    · exact nofun
    · exact fun other => other.elim nofun nofun
    · intro _ zero
      rw [count] at zero
      omega
  unfold State.lastReferenceGone
  split
  · have same : (s.modify i fun n => { n with lastUseTime := now }).inode i =
        { s.inode i with lastUseTime := now } := update_self i _ _
    unfold State.inodeReleased
    rw [same, if_neg]
    · exact quiet rfl rfl
    · show ¬(s.inode i).ptrCount = 0
      omega
  · exact quiet rfl rfl

theorem getInode {key : Key} {registered : Bool} (idle : s.pc t = .idle) :
    Raised (s.getInode t key registered) := by
  unfold State.getInode
  split
  · exact r
  · rename_i i _
    split
    · rw [if_neg (by simp [r.unlisted])]
      exact r.fail
    · exact r.addRef (by omega)
  · split
    · exact (r.setMap key .pending).setPc rfl (fun _ _ => nofun) (fun i found => by
        rw [show s.pc t = _ from found] at idle
        cases idle)
    · exact r

theorem endLoad {key : Key} {loaded : Option Nat} (here : s.pc t = .loading key) :
    Raised (s.endLoad t key loaded) := by
  have before : ∀ i, s.pc t ≠ .dropped i := by
    intro i found
    rw [here] at found
    cases found
  unfold State.endLoad
  split
  · cases loaded with
    | none => exact (r.setMap key .absent).setPc rfl (fun _ _ => nofun) before
    | some i => exact (r.setMap key (.inode i)).setPc rfl (fun _ _ => nofun) before
  · exact r.fail

theorem step {op : Op} (applies : step .ptrTarget s op = some u) : Raised u := by
  cases steps_of_step applies with
  | @newInode i _ _ unborn =>
    have free : ∀ t, (s.pc t).inode? ≠ some i := by
      intro t owns
      have alive := r.owned t i owns
      rw [unborn] at alive
      cases alive
    apply r.modify
    · exact .inl rfl
    · intro ⟨t, found⟩
      exact absurd (by rw [found]; rfl) (free t)
    · rintro ⟨t, found | found⟩
      · exact absurd (by rw [found]; rfl) (free t)
      · exact absurd (by rw [found]; rfl) (free t)
    · exact fun _ => rfl
    · exact fun _ zero => absurd zero Nat.one_ne_zero
  | @copy i held =>
    have counted := r.counted i
    have := held.2
    exact r.addRef (by omega)
  | promote _ counted => exact r.addRef counted
  | @watch i | @detach i =>
    exact r.modify (r.counted i) (fun ⟨t, found⟩ => r.dropped t i found)
      (fun ⟨t, found⟩ => r.raised t i found) (fun ⟨t, owns⟩ => r.owned t i owns) (r.zero i)
  | drop idle held => exact r.releasePtrRef idle held
  | handle here => exact r.handleLastRefGone here
  | retry here => exact r.retryRelease here
  | lastReferenceGone here => exact r.lastReferenceGone here
  | getInode idle => exact r.getInode idle
  | endLoad here => exact r.endLoad here
  | flushInodes idle =>
    unfold State.flushInodes
    rw [r.unlisted]
    apply r.setPc rfl
    · exact fun _ _ same => by cases same
    · simp [idle]
  | releaseInode here => exact absurd here (r.kept _ _ _ _).1
  | endDiscard here => exact absurd here (r.kept _ 0 _ _).2

end

theorem reached (run : (system .ptrTarget).Reaches anyStep initialState s) : Raised s :=
  run.invariant Raised initial fun r _ applies => r.step applies

/-- A count that is not zero is never taken for an unused inode. -/
theorem not_settled (r : Raised s) (unreferenced : Unreferenced s i) : ¬Settled s := by
  intro settled
  have listed := (settled i unreferenced).2.1
  rw [r.unlisted] at listed
  cases listed

/-- The count that no release takes down again. -/
theorem leaked (r : Raised s) (unreferenced : Unreferenced s i) : (s.inode i).ptrCount = 1 := by
  have unused := unreferenced.unused
  rcases r.counted i with same | raised
  · rcases r.zero i unreferenced.alive (by omega) with ⟨t, found⟩
    exact absurd ⟨t, by rw [found]; rfl⟩ unreferenced.settled
  · omega

end Raised

/-! ## Runs -/

/-- The step does not drop the last reference to an active inode of the map. -/
def KeepsReferenced : Condition State Op
  | s, .drop _ i => ¬((s.inode i).refs = 1 ∧ (s.inode i).active = true ∧ s.map (s.inode i).key = .inode i)
  | _, _ => True

/-- What the map holds is referred to. -/
def MapsReferenced (s : State) : Prop :=
  ∀ key i, s.map key = .inode i → (s.inode i).life = .alive ∧ (s.inode i).key = key ∧
    (s.inode i).active = true ∧ 0 < (s.inode i).refs

namespace MapsReferenced

section

variable (m : MapsReferenced s)

include m

theorem modify
    (stays : ∀ key, s.map key = .inode i → (f (s.inode i)).life = .alive ∧
      (f (s.inode i)).key = (s.inode i).key ∧ (f (s.inode i)).active = true ∧
        0 < (f (s.inode i)).refs) : MapsReferenced (s.modify i f) := by
  intro key j found
  have old := m key j found
  by_cases same : j = i
  · cases same
    have new := stays key found
    rw [show (s.modify i f).inode i = f (s.inode i) from update_self i _ _]
    exact ⟨new.1, new.2.1.trans old.2.1, new.2.2⟩
  · rw [show (s.modify i f).inode j = s.inode j from update_of_ne same _ _]
    exact old

theorem setMap {key : Key} {entry : Entry}
    (entries : ∀ i, entry = .inode i → (s.inode i).life = .alive ∧ (s.inode i).key = key ∧
      (s.inode i).active = true ∧ 0 < (s.inode i).refs) : MapsReferenced (s.setMap key entry) := by
  intro k j found
  by_cases same : k = key
  · rw [same, show (s.setMap key entry).map key = entry from update_self key _ _] at found
    rw [same]
    exact entries j found
  · rw [show (s.setMap key entry).map k = s.map k from update_of_ne same _ _] at found
    exact m k j found

theorem setPc (pc : Pc) : MapsReferenced (s.setPc t pc) := m

theorem addRef : MapsReferenced (s.addRef i) := by
  apply m.modify
  intro key found
  have old := m key i found
  exact ⟨old.1, rfl, old.2.2.1, Nat.succ_pos _⟩

end

theorem step {op : Op} (r : Raised s) (m : MapsReferenced s) (meets : KeepsReferenced s op)
    (applies : step .ptrTarget s op = some u) : MapsReferenced u := by
  cases steps_of_step applies with
  | @newInode i _ _ unborn =>
    apply m.modify
    intro k found
    have alive := (m k i found).1
    rw [unborn] at alive
    cases alive
  | copy | promote => exact m.addRef
  | @watch i =>
    apply m.modify
    intro k found
    have old := m k i found
    exact ⟨old.1, rfl, old.2.2⟩
  | @detach i _ unmapped =>
    apply m.modify
    intro k found
    have own := (m k i found).2.1
    exact absurd (own ▸ found) unmapped
  | @drop t i =>
    have fewer : MapsReferenced
        (s.modify i fun n => { n with ptrCount := n.ptrCount - 1, refs := n.refs - 1 }) := by
      apply m.modify
      intro k found
      have old := m k i found
      refine ⟨old.1, rfl, old.2.2.1, ?_⟩
      show 0 < (s.inode i).refs - 1
      by_contra last
      have := old.2.2.2
      exact meets ⟨by omega, old.2.2.1, old.2.1 ▸ found⟩
    unfold State.releasePtrRef
    dsimp only
    split
    · exact fewer
    · exact fewer
  | @handle t i _ here =>
    have unused := r.dropped t i here
    have counted := r.counted i
    have unmapped : ∀ k, s.map k ≠ .inode i := by
      intro k found
      have := (m k i found).2.2.2
      omega
    unfold State.handleLastRefGone
    split
    · exact (m.modify fun k found => absurd found (unmapped k)).setPc _
    · exact (m.modify fun k found => absurd found (unmapped k)).setPc _
  | @retry t i =>
    have fewer : MapsReferenced (s.modify i fun n => { n with ptrCount := n.ptrCount - 1 }) := by
      apply m.modify
      intro k found
      have old := m k i found
      exact ⟨old.1, rfl, old.2.2⟩
    unfold State.retryRelease
    dsimp only
    split
    · exact fewer
    · exact fewer
  | @lastReferenceGone t i now here =>
    have raised := r.raised t i (.inr here)
    unfold State.lastReferenceGone
    split
    · have same : (s.modify i fun n => { n with lastUseTime := now }).inode i =
          { s.inode i with lastUseTime := now } := update_self i _ _
      unfold State.inodeReleased
      rw [same, if_neg (by show ¬(s.inode i).ptrCount = 0; omega)]
      apply setPc
      apply m.modify
      intro k found
      have old := m k i found
      exact ⟨old.1, rfl, old.2.2⟩
    · rename_i inactive
      apply setPc
      apply m.modify
      intro k found
      exact absurd (m k i found).2.2.1 inactive
  | getInode =>
    unfold State.getInode
    split
    · exact m
    · split
      · rw [if_neg (by simp [r.unlisted])]
        exact m
      · exact m.addRef
    · split
      · apply setPc
        exact m.setMap nofun
      · exact m
  | @endLoad _ _ loaded _ loads =>
    unfold State.endLoad
    split
    · apply setPc
      cases loaded with
      | none => exact m.setMap nofun
      | some i =>
        have loads := loads i rfl
        apply m.setMap
        intro j same
        cases same
        exact ⟨loads.1.1, loads.2.1, loads.2.2, loads.1.2⟩
    · exact m
  | flushInodes =>
    unfold State.flushInodes
    rw [r.unlisted]
    exact m
  | releaseInode here => exact absurd here (r.kept _ _ _ _).1
  | endDiscard here => exact absurd here (r.kept _ 0 _ _).2

theorem reached (run : (system .ptrTarget).Reaches KeepsReferenced initialState s) : MapsReferenced s := by
  have both : Raised s ∧ MapsReferenced s :=
    run.invariant (fun s => Raised s ∧ MapsReferenced s)
      ⟨Raised.initial, fun key i found => by cases found⟩
      fun both meets applies => ⟨both.1.step applies, step both.1 both.2 meets applies⟩
  exact both.2

end MapsReferenced

/-- Where no step drops the last reference to a mapped inode nothing is left to be listed, and
in every run an inode that is left without references stays off the list, counted as used. -/
theorem settled_of_keepsReferenced (s : State) :
    ((system .ptrTarget).Reaches KeepsReferenced initialState s → Settled s) ∧
    ((system .ptrTarget).Reaches anyStep initialState s → s.mru = [] ∧
      ∀ i, Unreferenced s i → (s.inode i).ptrCount = 1 ∧ ¬Settled s) := by
  constructor
  · intro run i unreferenced
    have held := (MapsReferenced.reached run _ i unreferenced.mapped).2.2.2
    have := unreferenced.unused
    omega
  · intro run
    have r := Raised.reached run
    exact ⟨r.unlisted, fun i unreferenced => ⟨r.leaked unreferenced, r.not_settled unreferenced⟩⟩

/-- A copy of the reference is dropped. -/
theorem settled_of_keepsReferenced_copied :
    ∃ s, (system .ptrTarget).Reaches KeepsReferenced initialState s ∧ (s.inode 0).refs = 1 ∧
      s.map (1, 7) = .inode 0 ∧ Settled s := by
  have made : (system .ptrTarget).Reaches KeepsReferenced initialState _ :=
    System.Reaches.refl.next (.newInode 0 (1, 7) false) trivial rfl
  have missed := made.next (.getInode 1 (1, 7) true) trivial rfl
  have loaded := missed.next (.endLoad 1 (some 0)) trivial rfl
  have copied := loaded.next (.copy 0) trivial rfl
  have run := copied.next (.drop 1 0) (fun last => absurd last.1 (by decide)) rfl
  exact ⟨_, run, rfl, rfl, (settled_of_keepsReferenced _).1 run⟩

/-- A loaded inode loses its only reference. -/
theorem not_settled_always :
    ¬∀ s, (system .ptrTarget).Reaches anyStep initialState s → Settled s := by
  intro always
  have made : (system .ptrTarget).Reaches anyStep initialState _ :=
    System.Reaches.refl.next (.newInode 0 (1, 7) false) trivial rfl
  have missed := made.next (.getInode 1 (1, 7) true) trivial rfl
  have loaded := missed.next (.endLoad 1 (some 0)) trivial rfl
  have dropped := loaded.next (.drop 1 0) trivial rfl
  have handled := dropped.next (.handle 1 0) trivial rfl
  have run := handled.next (.lastReferenceGone 1 5) trivial rfl
  have listed := (always _ run 0 ⟨rfl, rfl, rfl, rfl, ?_⟩).2.1
  · cases listed
  · intro ⟨t, owns⟩
    match t with
    | 0 => cases owns
    | 1 => cases owns
    | t + 2 => cases owns

end PadOS.Vfs.InodeCache
