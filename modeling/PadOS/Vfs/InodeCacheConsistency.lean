import PadOS.Vfs.InodeCache

/-! # Consistency of the inode cache

With the number of references as the count. The list, the map and the threads that work on
an inode or a key exclude each other; a step that keeps to this needs no more than that the
inode it finds is where the manager expects it.
-/

namespace PadOS.Vfs.InodeCache

open Transition List
open Function (update_self update_of_ne update_idem update)

variable {s t' : State} {t i : Nat} {key : Key} {flush : Option Int}

/-- The inode a thread has in hand without a reference to it. -/
def Pc.inode? : Pc → Option Nat
  | .dropped i | .notifying i | .lastGone i | .discarding i _ _ => some i
  | _ => none

/-- The key whose entry a thread keeps pending. -/
def Pc.key? : Pc → Option Key
  | .discarding _ key _ | .discarded key _ | .loading key => some key
  | _ => none

structure Tracked (s : State) : Prop where
  asserted : s.asserted = true
  counted : ∀ i, (s.inode i).ptrCount = (s.inode i).refs
  dead : ∀ i, (s.inode i).life ≠ .alive → (s.inode i).refs = 0
  nodup : s.mru.Nodup
  count : s.unusedCount = s.mru.length
  listed : ∀ i ∈ s.mru, (s.inode i).life = .alive ∧ (s.inode i).refs = 0 ∧
    s.map (s.inode i).key = .inode i
  mapped : ∀ key i, s.map key = .inode i → (s.inode i).life = .alive ∧ (s.inode i).key = key ∧
    (s.inode i).active = true
  plain : ∀ t i, s.pc t ≠ .dropped i ∧ s.pc t ≠ .notifying i
  owned : ∀ t i, (s.pc t).inode? = some i → (s.inode i).life = .alive ∧ (s.inode i).refs = 0 ∧ i ∉ s.mru
  alone : ∀ t u i, (s.pc t).inode? = some i → (s.pc u).inode? = some i → t = u
  keyed : ∀ t key, (s.pc t).key? = some key → s.map key = .pending
  apart : ∀ t u key, (s.pc t).key? = some key → (s.pc u).key? = some key → t = u
  discards : ∀ t i key flush, s.pc t = .discarding i key flush → (s.inode i).key = key

namespace Tracked

theorem initial : Tracked initialState := by
  constructor <;> simp [initialState, Pc.inode?, Pc.key?]

section

variable (w : Tracked s)

include w

/-- An inode that is referred to is neither listed nor in hand. -/
theorem not_listed (held : 0 < (s.inode i).refs) : i ∉ s.mru := by
  intro member
  have := (w.listed i member).2.1
  omega

theorem not_owned (held : 0 < (s.inode i).refs) (u : Nat) :
    (s.pc u).inode? ≠ some i := by
  intro owns
  have := (w.owned u i owns).2.1
  omega

theorem modify {f : KInode → KInode}
    (key : (s.inode i).life = .alive → (f (s.inode i)).key = (s.inode i).key)
    (counted : (f (s.inode i)).ptrCount = (f (s.inode i)).refs)
    (dead : (f (s.inode i)).life ≠ .alive → (f (s.inode i)).refs = 0)
    (lives : (s.inode i).life = .alive → (∃ key, s.map key = .inode i) ∨ i ∈ s.mru ∨
      (∃ t, (s.pc t).inode? = some i) → (f (s.inode i)).life = .alive)
    (stays : i ∈ s.mru ∨ (∃ t, (s.pc t).inode? = some i) → (f (s.inode i)).refs = 0)
    (active : ∀ key, s.map key = .inode i → (f (s.inode i)).active = true) :
    Tracked (s.modify i f) := by
  have here : (s.modify i f).inode i = f (s.inode i) := update_self i _ _
  have other : ∀ j, j ≠ i → (s.modify i f).inode j = s.inode j :=
    fun j differs => update_of_ne differs _ _
  constructor
  case asserted => exact w.asserted
  case nodup => exact w.nodup
  case count => exact w.count
  case plain => exact w.plain
  case alone => exact w.alone
  case keyed => exact w.keyed
  case apart => exact w.apart
  case counted =>
    intro j
    by_cases same : j = i
    · rw [same, here]
      exact counted
    · rw [other j same]
      exact w.counted j
  case dead =>
    intro j
    by_cases same : j = i
    · rw [same, here]
      exact dead
    · rw [other j same]
      exact w.dead j
  case listed =>
    intro j member
    have old := w.listed j member
    by_cases same : j = i
    · cases same
      rw [here]
      refine ⟨lives old.1 (.inr (.inl member)), stays (.inl member), ?_⟩
      rw [key old.1]
      exact old.2.2
    · rw [other j same]
      exact old
  case mapped =>
    intro k j found
    have old := w.mapped k j found
    by_cases same : j = i
    · cases same
      rw [here]
      exact ⟨lives old.1 (.inl ⟨k, found⟩), (key old.1).trans old.2.1, active k found⟩
    · rw [other j same]
      exact old
  case owned =>
    intro u j owns
    have old := w.owned u j owns
    by_cases same : j = i
    · cases same
      rw [here]
      exact ⟨lives old.1 (.inr (.inr ⟨u, owns⟩)), stays (.inr ⟨u, owns⟩), old.2.2⟩
    · rw [other j same]
      exact old
  case discards =>
    intro u j k flush found
    have old := w.discards u j k flush found
    by_cases same : j = i
    · cases same
      rw [here]
      have owned := w.owned u i (by rw [show s.pc u = _ from found]; rfl)
      exact (key owned.1).trans old
    · rw [other j same]
      exact old

theorem setPc {pc : Pc} (plain : ∀ j, pc ≠ .dropped j ∧ pc ≠ .notifying j)
    (owned : ∀ j, pc.inode? = some j → (s.inode j).life = .alive ∧ (s.inode j).refs = 0 ∧ j ∉ s.mru ∧
      ∀ u, u ≠ t → (s.pc u).inode? ≠ some j)
    (keyed : ∀ k, pc.key? = some k → s.map k = .pending ∧ ∀ u, u ≠ t → (s.pc u).key? ≠ some k)
    (discards : ∀ j k flush, pc = .discarding j k flush → (s.inode j).key = k) :
    Tracked (s.setPc t pc) := by
  have here : (s.setPc t pc).pc t = pc := update_self t _ _
  have other : ∀ u, u ≠ t → (s.setPc t pc).pc u = s.pc u :=
    fun u differs => update_of_ne differs _ _
  constructor
  case asserted => exact w.asserted
  case counted => exact w.counted
  case dead => exact w.dead
  case nodup => exact w.nodup
  case count => exact w.count
  case listed => exact w.listed
  case mapped => exact w.mapped
  case plain =>
    intro u j
    by_cases same : u = t
    · rw [same, here]
      exact plain j
    · rw [other u same]
      exact w.plain u j
  case owned =>
    intro u j owns
    by_cases same : u = t
    · rw [same, here] at owns
      have new := owned j owns
      exact ⟨new.1, new.2.1, new.2.2.1⟩
    · rw [other u same] at owns
      exact w.owned u j owns
  case alone =>
    intro u v j first second
    by_cases same : u = t
    · by_cases same' : v = t
      · rw [same, same']
      · rw [same, here] at first
        rw [other v same'] at second
        exact absurd second ((owned j first).2.2.2 v same')
    · rw [other u same] at first
      by_cases same' : v = t
      · rw [same', here] at second
        exact absurd first ((owned j second).2.2.2 u same)
      · rw [other v same'] at second
        exact w.alone u v j first second
  case keyed =>
    intro u k owns
    by_cases same : u = t
    · rw [same, here] at owns
      exact (keyed k owns).1
    · rw [other u same] at owns
      exact w.keyed u k owns
  case apart =>
    intro u v k first second
    by_cases same : u = t
    · by_cases same' : v = t
      · rw [same, same']
      · rw [same, here] at first
        rw [other v same'] at second
        exact absurd second ((keyed k first).2 v same')
    · rw [other u same] at first
      by_cases same' : v = t
      · rw [same', here] at second
        exact absurd first ((keyed k second).2 u same)
      · rw [other v same'] at second
        exact w.apart u v k first second
  case discards =>
    intro u j k flush found
    by_cases same : u = t
    · rw [same, here] at found
      exact discards j k flush found
    · rw [other u same] at found
      exact w.discards u j k flush found

/-- A thread that lets go of what it had. -/
theorem idle (t : Nat) : Tracked (s.setPc t .idle) :=
  w.setPc (fun _ => ⟨nofun, nofun⟩) (fun _ owns => by cases owns) (fun _ owns => by cases owns)
    (fun _ _ _ found => by cases found)

/-- The entry of a key that no thread keeps pending. -/
theorem setMap {entry : Entry} (free : ∀ u, (s.pc u).key? ≠ some key)
    (unlisted : ∀ j ∈ s.mru, (s.inode j).key ≠ key)
    (mapped : ∀ j, entry = .inode j → (s.inode j).life = .alive ∧ (s.inode j).key = key ∧
      (s.inode j).active = true) : Tracked (s.setMap key entry) := by
  have here : (s.setMap key entry).map key = entry := update_self key _ _
  have other : ∀ k, k ≠ key → (s.setMap key entry).map k = s.map k :=
    fun k differs => update_of_ne differs _ _
  constructor
  case asserted => exact w.asserted
  case counted => exact w.counted
  case dead => exact w.dead
  case nodup => exact w.nodup
  case count => exact w.count
  case plain => exact w.plain
  case owned => exact w.owned
  case alone => exact w.alone
  case apart => exact w.apart
  case discards => exact w.discards
  case listed =>
    intro j member
    have old := w.listed j member
    refine ⟨old.1, old.2.1, ?_⟩
    show (s.setMap key entry).map (s.inode j).key = .inode j
    rw [other _ (unlisted j member)]
    exact old.2.2
  case mapped =>
    intro k j found
    by_cases same : k = key
    · rw [same, here] at found
      rw [same]
      exact mapped j found
    · rw [other k same] at found
      exact w.mapped k j found
  case keyed =>
    intro u k owns
    have differs : k ≠ key := by
      rintro rfl
      exact free u owns
    rw [other k differs]
    exact w.keyed u k owns

/-- Only the thread that has an inode in hand has it. -/
theorem inode_free (owns : (s.pc t).inode? = some i) (u : Nat) :
    ((s.setPc t .idle).pc u).inode? ≠ some i := by
  intro also
  by_cases same : u = t
  · rw [same, show (s.setPc t .idle).pc t = .idle from update_self t _ _] at also
    cases also
  · rw [show (s.setPc t .idle).pc u = s.pc u from update_of_ne same _ _] at also
    exact same (w.alone u t i also owns)

theorem key_free (owns : (s.pc t).key? = some key) (u : Nat) :
    ((s.setPc t .idle).pc u).key? ≠ some key := by
  intro also
  by_cases same : u = t
  · rw [same, show (s.setPc t .idle).pc t = .idle from update_self t _ _] at also
    cases also
  · rw [show (s.setPc t .idle).pc u = s.pc u from update_of_ne same _ _] at also
    exact same (w.apart u t key also owns)

/-- A key whose entry is no inode is not that of a listed inode. -/
theorem unlisted (none : ∀ j, s.map key ≠ .inode j) :
    ∀ j ∈ s.mru, (s.inode j).key ≠ key := by
  rintro j member rfl
  exact none j (w.listed j member).2.2

theorem removeUnused (member : i ∈ s.mru) : Tracked (s.removeUnused i) where
  asserted := w.asserted
  counted := w.counted
  dead := w.dead
  nodup := w.nodup.erase i
  count := by
    have positive := length_pos_of_mem member
    show s.unusedCount - 1 = ((s.mru.erase i).length : Int)
    rw [w.count, length_erase_of_mem member]
    omega
  listed := fun j kept => w.listed j (mem_of_mem_erase kept)
  mapped := w.mapped
  plain := w.plain
  owned := fun u j owns =>
    ⟨(w.owned u j owns).1, (w.owned u j owns).2.1, fun kept =>
      (w.owned u j owns).2.2 (mem_of_mem_erase kept)⟩
  alone := w.alone
  keyed := w.keyed
  apart := w.apart
  discards := w.discards

theorem appendUnused (alive : (s.inode i).life = .alive) (unused : (s.inode i).refs = 0)
    (found : s.map (s.inode i).key = .inode i) (fresh : i ∉ s.mru)
    (free : ∀ u, (s.pc u).inode? ≠ some i) : Tracked (s.appendUnused i) where
  asserted := w.asserted
  counted := w.counted
  dead := w.dead
  nodup := by
    show (s.mru ++ [i]).Nodup
    rw [nodup_append]
    refine ⟨w.nodup, nodup_singleton i, fun j member k last same => ?_⟩
    rw [mem_singleton.1 last] at same
    exact fresh (same ▸ member)
  count := by
    show s.unusedCount + 1 = ((s.mru ++ [i]).length : Int)
    rw [w.count, length_append]
    rfl
  listed := by
    intro j member
    rcases mem_append.1 member with old | new
    · exact w.listed j old
    · rw [mem_singleton.1 new]
      exact ⟨alive, unused, found⟩
  mapped := w.mapped
  plain := w.plain
  owned := by
    intro u j owns
    have old := w.owned u j owns
    refine ⟨old.1, old.2.1, fun member => ?_⟩
    rcases mem_append.1 member with before | new
    · exact old.2.2 before
    · rw [mem_singleton.1 new] at owns
      exact free u owns
  alone := w.alone
  keyed := w.keyed
  apart := w.apart
  discards := w.discards

end

theorem setPc_setPc (pc pc' : Pc) : (s.setPc t pc).setPc t pc' = s.setPc t pc' := by
  unfold State.setPc
  rw [update_idem]

/-- The oldest unused inode, or any other, is discarded by a thread that has nothing in hand. -/
theorem discardInode (w : Tracked (s.setPc t .idle)) (member : i ∈ s.mru) :
    Tracked (s.discardInode t i flush) := by
  have listed := w.listed i member
  have counted := w.counted i
  have free : ∀ u, ((s.setPc t .idle).pc u).inode? ≠ some i :=
    fun u owns => (w.owned u i owns).2.2 member
  have unkeyed : ∀ u, ((s.setPc t .idle).pc u).key? ≠ some (s.inode i).key := by
    intro u owns
    have pending : s.map (s.inode i).key = .pending := w.keyed u _ owns
    have there : s.map (s.inode i).key = .inode i := listed.2.2
    rw [there] at pending
    cases pending
  have removed := w.removeUnused member
  have unlisted : ∀ j ∈ (s.mru.erase i), (s.inode j).key ≠ (s.inode i).key := by
    intro j kept same
    have found := (w.listed j (mem_of_mem_erase kept)).2.2
    have both : Entry.inode j = Entry.inode i := by
      rw [← found, ← listed.2.2]
      exact congrArg s.map same
    cases both
    exact w.nodup.not_mem_erase kept
  have pending : Tracked (((s.setPc t .idle).removeUnused i).setMap (s.inode i).key .pending) :=
    removed.setMap unkeyed unlisted nofun
  have result : s.discardInode t i flush =
      (((s.setPc t .idle).removeUnused i).setMap (s.inode i).key .pending).setPc t
        (.discarding i (s.inode i).key flush) := by
    unfold State.discardInode
    have zero : (s.inode i).ptrCount = 0 := counted.trans listed.2.1
    have there : s.map (s.inode i).key = .inode i := listed.2.2
    dsimp only
    rw [if_neg (by simpa using zero), if_neg (by simpa using member), there]
    exact (setPc_setPc .idle _).symm
  rw [result]
  apply pending.setPc
  · exact fun _ => ⟨nofun, nofun⟩
  · intro j owns
    cases owns
    refine ⟨listed.1, listed.2.1, w.nodup.not_mem_erase, fun u _ owns => free u owns⟩
  · intro k owns
    cases owns
    refine ⟨update_self _ _ _, fun u _ owns => unkeyed u owns⟩
  · intro j k other found
    cases found
    rfl

/-- An inode whose last reference is gone is listed, if the map has it. -/
theorem inodeReleased (w : Tracked s) (here : s.pc t = .lastGone i)
    (cacheable : (s.inode i).dontCache = false) (found : s.map (s.inode i).key = .inode i) :
    Tracked (s.inodeReleased t i) := by
  have owned := w.owned t i (by rw [here]; rfl)
  have counted := w.counted i
  have free := w.inode_free (show (s.pc t).inode? = some i by rw [here]; rfl)
  have appended : Tracked ((s.appendUnused i).setPc t .idle) :=
    (w.idle t).appendUnused owned.1 owned.2.1 found owned.2.2 free
  unfold State.inodeReleased
  rw [if_pos (counted.trans owned.2.1), if_neg (by simp [cacheable]), if_neg owned.2.2]
  dsimp only
  split
  · split
    · rename_i first oldest
      exact appended.discardInode (mem_of_mem_head? oldest)
    · rename_i none
      exact absurd (head?_eq_none_iff.1 none) (by simp [State.appendUnused])
  · exact appended

theorem flushInodes {curTime : Int} (w : Tracked (s.setPc t .idle)) :
    Tracked (s.flushInodes t curTime) := by
  unfold State.flushInodes
  split
  · rename_i first oldest
    split
    · exact w.discardInode (mem_of_mem_head? oldest)
    · exact w
  · exact w

section

variable (w : Tracked s)

include w

theorem endDiscard (here : s.pc t = .discarded key flush) :
    Tracked (s.endDiscard t key flush) := by
  have pending := w.keyed t key (by rw [here]; rfl)
  have free := w.key_free (show (s.pc t).key? = some key by rw [here]; rfl)
  have unlisted := @unlisted _ key w (fun j => by simp [pending])
  have absent : Tracked ((s.setMap key .absent).setPc t .idle) :=
    (w.idle t).setMap free unlisted nofun
  unfold State.endDiscard
  rw [pending]
  dsimp only
  split
  · exact absent.flushInodes
  · exact absent

theorem endLoad {loaded : Option Nat} (here : s.pc t = .loading key)
    (loads : ∀ i ∈ loaded, s.Loads key i) : Tracked (s.endLoad t key loaded) := by
  have pending := w.keyed t key (by rw [here]; rfl)
  have free := w.key_free (show (s.pc t).key? = some key by rw [here]; rfl)
  have unlisted := @unlisted _ key w (fun j => by simp [pending])
  unfold State.endLoad
  rw [pending]
  cases loaded with
  | none => exact (w.idle t).setMap free unlisted nofun
  | some i =>
    have loads := loads i rfl
    apply (w.idle t).setMap free unlisted
    intro j same
    cases same
    exact ⟨loads.1.1, loads.2.1, loads.2.2⟩

/-- A reference more to an inode that no list and no thread has. -/
theorem addRef (alive : (s.inode i).life = .alive) (unlisted : i ∉ s.mru)
    (free : ∀ u, (s.pc u).inode? ≠ some i) : Tracked (s.addRef i) := by
  apply w.modify
  · exact fun _ => rfl
  · show (s.inode i).ptrCount + 1 = (s.inode i).refs + 1
    rw [w.counted]
  · exact fun dead => absurd alive dead
  · exact fun alive _ => alive
  · rintro (member | ⟨u, owns⟩)
    · exact absurd member unlisted
    · exact absurd owns (free u)
  · exact fun k found => (w.mapped k i found).2.2

theorem getInode {registered : Bool}
    (settled : ∀ i, s.map key = .inode i → (s.inode i).ptrCount = 0 → i ∈ s.mru) :
    Tracked (s.getInode t key registered) := by
  unfold State.getInode
  split
  · exact w
  · rename_i i found
    have alive := (w.mapped key i found).1
    split
    · rename_i unused
      have member := settled i found unused
      rw [if_pos member]
      apply (w.removeUnused member).addRef alive
      · exact w.nodup.not_mem_erase
      · exact fun u owns => (w.owned u i owns).2.2 member
    · rename_i used
      have held : 0 < (s.inode i).refs := by
        have := w.counted i
        omega
      exact w.addRef alive (w.not_listed held) (w.not_owned held)
  · rename_i absent
    split
    · have free : ∀ u, (s.pc u).key? ≠ some key := by
        intro u owns
        have pending := w.keyed u key owns
        rw [absent] at pending
        cases pending
      have unlisted := @unlisted _ key w (fun j => by simp [absent])
      have pending : Tracked (s.setMap key .pending) := w.setMap free unlisted nofun
      apply pending.setPc
      · exact fun _ => ⟨nofun, nofun⟩
      · intro j owns
        cases owns
      · intro k owns
        cases owns
        exact ⟨update_self _ _ _, fun u _ owns => free u owns⟩
      · intro j k flush found
        cases found
    · exact w

theorem releasePtrRef (held : s.Held i) :
    Tracked (s.releasePtrRef .references t i) := by
  have counted := w.counted i
  have unlisted := w.not_listed held.2
  have free := w.not_owned held.2
  have fewer : Tracked (s.modify i fun n => { n with ptrCount := n.ptrCount - 1, refs := n.refs - 1 }) := by
    apply w.modify
    · exact fun _ => rfl
    · show (s.inode i).ptrCount - 1 = (s.inode i).refs - 1
      rw [counted]
    · exact fun dead => absurd held.1 dead
    · exact fun alive _ => alive
    · rintro (member | ⟨u, owns⟩)
      · exact absurd member unlisted
      · exact absurd owns (free u)
    · exact fun k found => (w.mapped k i found).2.2
  unfold State.releasePtrRef
  dsimp only
  split
  · exact fewer
  · rename_i zero
    apply fewer.setPc
    · exact fun _ => ⟨nofun, nofun⟩
    · intro j owns
      cases owns
      have gone := fewer.counted i
      exact ⟨by simpa [State.modify] using held.1, by omega, unlisted, fun u _ => free u⟩
    · intro k owns
      cases owns
    · intro j k flush found
      cases found

theorem delete (owns : (s.pc t).inode? = some i) (unmapped : ∀ k, s.map k ≠ .inode i) :
    Tracked ((s.setPc t .idle).modify i fun n => { n with life := .deleted }) := by
  have owned := w.owned t i owns
  have free := w.inode_free owns
  apply (w.idle t).modify
  · exact fun _ => rfl
  · exact w.counted i
  · exact fun _ => owned.2.1
  · rintro _ (⟨k, found⟩ | member | ⟨u, owns⟩)
    · exact absurd found (unmapped k)
    · exact absurd member owned.2.2
    · exact absurd owns (free u)
  · exact fun _ => owned.2.1
  · exact fun k found => absurd found (unmapped k)

theorem lastReferenceGone {now : Int} (here : s.pc t = .lastGone i)
    (managed : (s.inode i).active = true → (s.inode i).ptrCount = 0 →
      (s.inode i).dontCache = false ∧ s.map (s.inode i).key = .inode i) :
    Tracked (s.lastReferenceGone t i now) := by
  have owned := w.owned t i (by rw [here]; rfl)
  have counted := w.counted i
  unfold State.lastReferenceGone
  split
  · rename_i active
    have managed := managed active (counted.trans owned.2.1)
    have used : Tracked (s.modify i fun n => { n with lastUseTime := now }) := by
      apply w.modify
      · exact fun _ => rfl
      · exact counted
      · exact w.dead i
      · exact fun alive _ => alive
      · exact fun _ => owned.2.1
      · exact fun _ _ => active
    have same : (s.modify i fun n => { n with lastUseTime := now }).inode i =
        { s.inode i with lastUseTime := now } := update_self i _ _
    apply used.inodeReleased here
    · rw [same]
      exact managed.1
    · rw [same]
      exact managed.2
  · rename_i inactive
    exact w.delete (by rw [here]; rfl) fun k found => inactive (w.mapped k i found).2.2

theorem releaseInode (here : s.pc t = .discarding i key flush) :
    Tracked ((s.modify i fun n => { n with life := .deleted }).setPc t (.discarded key flush)) := by
  have pending := w.keyed t key (by rw [here]; rfl)
  have unkeyed := w.key_free (show (s.pc t).key? = some key by rw [here]; rfl)
  have unmapped : ∀ k, s.map k ≠ .inode i := by
    intro k found
    have key' := (w.mapped k i found).2.1
    rw [w.discards t i key flush here] at key'
    rw [key', found] at pending
    cases pending
  have deleted := w.delete (by rw [here]; rfl) unmapped
  rw [← setPc_setPc (s := s.modify i _) .idle]
  apply deleted.setPc
  · exact fun _ => ⟨nofun, nofun⟩
  · intro j owns
    cases owns
  · intro k owns
    cases owns
    exact ⟨pending, fun u _ => unkeyed u⟩
  · intro j k flush found
    cases found

end

end Tracked

/-- A released inode may be cached and is the entry of its key, and a lookup finds no inode
whose release is still to come. -/
def FindsReleased : Condition State Op
  | s, .lastReferenceGone t _ => ∀ i, s.pc t = .lastGone i → (s.inode i).active = true →
      (s.inode i).ptrCount = 0 → (s.inode i).dontCache = false ∧ s.map (s.inode i).key = .inode i
  | s, .getInode _ key _ => ∀ i, s.map key = .inode i → (s.inode i).ptrCount = 0 → i ∈ s.mru
  | _, _ => True

theorem Tracked.step {op : Op} (w : Tracked s) (meets : FindsReleased s op)
    (applies : step .references s op = some t') : Tracked t' := by
  cases steps_of_step applies with
  | @newInode i _ _ unborn =>
    have dead : (s.inode i).life ≠ .alive := by simp [unborn]
    apply w.modify
    · exact fun alive => absurd alive dead
    · rfl
    · exact fun dead => absurd rfl dead
    · exact fun _ _ => rfl
    · rintro (member | ⟨u, owns⟩)
      · exact absurd (w.listed i member).1 dead
      · exact absurd (w.owned u i owns).1 dead
    · exact fun k found => absurd (w.mapped k i found).1 dead
  | copy held => exact w.addRef held.1 (w.not_listed held.2) (w.not_owned held.2)
  | @promote i alive counted =>
    have held : 0 < (s.inode i).refs := by
      have := w.counted i
      omega
    exact w.addRef alive (w.not_listed held) (w.not_owned held)
  | @watch i held =>
    apply w.modify
    · exact fun _ => rfl
    · exact w.counted i
    · exact w.dead i
    · exact fun alive _ => alive
    · rintro (member | ⟨u, owns⟩)
      · exact (w.listed i member).2.1
      · exact (w.owned u i owns).2.1
    · exact fun k found => (w.mapped k i found).2.2
  | @detach i held unmapped =>
    apply w.modify
    · exact fun _ => rfl
    · exact w.counted i
    · exact w.dead i
    · exact fun alive _ => alive
    · rintro (member | ⟨u, owns⟩)
      · exact (w.listed i member).2.1
      · exact (w.owned u i owns).2.1
    · intro k found
      have own := (w.mapped k i found).2.1
      exact absurd (own ▸ found) unmapped
  | drop _ held => exact w.releasePtrRef held
  | handle here => exact absurd here (w.plain _ _).1
  | retry here => exact absurd here (w.plain _ _).2
  | lastReferenceGone here => exact w.lastReferenceGone here (meets _ here)
  | getInode => exact w.getInode meets
  | endLoad here loads => exact w.endLoad here loads
  | flushInodes => exact (w.idle _).flushInodes
  | releaseInode here => exact w.releaseInode here
  | endDiscard here => exact w.endDiscard here

theorem Tracked.reached (run : (system .references).Reaches FindsReleased initialState s) : Tracked s :=
  run.invariant Tracked Tracked.initial fun w meets applies => w.step meets applies

/-- An inode is deleted without references and entries where a deleted one has none. -/
structure Consistent (s : State) : Prop where
  count : s.unusedCount = s.mru.length
  listed : ∀ i ∈ s.mru, (s.inode i).refs = 0 ∧ s.map (s.inode i).key = .inode i
  asserted : s.asserted = true
  deleted : ∀ i, (s.inode i).life = .deleted → (s.inode i).refs = 0 ∧ ∀ key, s.map key ≠ .inode i

theorem Tracked.consistent (w : Tracked s) : Consistent s where
  count := w.count
  listed := fun i member => (w.listed i member).2
  asserted := w.asserted
  deleted := by
    intro i deleted
    have dead : (s.inode i).life ≠ .alive := by simp [deleted]
    exact ⟨w.dead i dead, fun key found => dead (w.mapped key i found).1⟩

theorem not_consistent_fail : ¬Consistent s.fail := fun consistent =>
  Bool.false_ne_true consistent.asserted

/-- An inode without its entry stays on the list when another is discarded. -/
theorem not_consistent_discardInode {first : Nat} (member : i ∈ s.mru) (differs : i ≠ first)
    (lost : s.map (s.inode i).key ≠ .inode i) : ¬Consistent (s.discardInode t first flush) := by
  unfold State.discardInode
  dsimp only
  split
  · exact not_consistent_fail
  · split
    · exact not_consistent_fail
    · split
      · intro consistent
        have found := (consistent.listed i ((mem_erase_of_ne differs).2 member)).2
        change update s.map (s.inode first).key .pending (s.inode i).key = .inode i at found
        by_cases same : (s.inode i).key = (s.inode first).key
        · rw [same, update_self] at found
          cases found
        · rw [update_of_ne same] at found
          exact lost found
      · exact not_consistent_fail

theorem Tracked.not_consistent_inodeReleased (w : Tracked s) (here : s.pc t = .lastGone i)
    (unmanaged : (s.inode i).dontCache = false → s.map (s.inode i).key ≠ .inode i) :
    ¬Consistent (s.inodeReleased t i) := by
  have owned := w.owned t i (by rw [here]; rfl)
  have zero := (w.counted i).trans owned.2.1
  unfold State.inodeReleased
  rw [if_pos zero]
  split
  · unfold State.discardInode
    rw [if_neg (by simpa using zero), if_pos owned.2.2]
    exact not_consistent_fail
  · rename_i cacheable
    have lost := unmanaged (by simpa using cacheable)
    rw [if_neg owned.2.2]
    dsimp only
    split
    · rename_i crowded
      split
      · rename_i first oldest
        have differs : i ≠ first := by
          rintro rfl
          cases empty : s.mru with
          | nil =>
            have none : s.unusedCount + 1 > maxInodeCacheCount := crowded
            rw [w.count, empty] at none
            exact absurd none (by decide)
          | cons j rest =>
            change (s.mru ++ [i]).head? = some i at oldest
            rw [empty] at oldest
            cases oldest
            exact owned.2.2 (by simp [empty])
        apply not_consistent_discardInode (i := i) (mem_append_right _ (mem_singleton_self i)) differs
        exact lost
      · exact not_consistent_fail
    · intro consistent
      exact lost (consistent.listed i (mem_append_right _ (mem_singleton_self i))).2

theorem Tracked.not_consistent_step {op : Op} (w : Tracked s) (breaks : ¬FindsReleased s op)
    (applies : InodeCache.step .references s op = some t') : ¬Consistent t' := by
  unfold InodeCache.step at applies
  rw [if_neg (by simp [w.asserted])] at applies
  cases op with
  | lastReferenceGone t now =>
    simp only [FindsReleased, not_forall, exists_prop, not_and] at breaks
    rcases breaks with ⟨i, here, active, zero, unmanaged⟩
    simp only [here] at applies
    cases applies
    have used : Tracked (s.modify i fun n => { n with lastUseTime := now }) := by
      apply w.modify
      · exact fun _ => rfl
      · exact w.counted i
      · exact w.dead i
      · exact fun alive _ => alive
      · exact fun _ => (w.counted i) ▸ zero
      · exact fun _ _ => active
    have same : (s.modify i fun n => { n with lastUseTime := now }).inode i =
        { s.inode i with lastUseTime := now } := update_self i _ _
    rw [State.lastReferenceGone, if_pos active]
    apply used.not_consistent_inodeReleased here
    rw [same]
    exact unmanaged
  | getInode t key registered =>
    simp only [FindsReleased, not_forall, exists_prop] at breaks
    rcases breaks with ⟨i, found, zero, unlisted⟩
    dsimp only at applies
    split at applies
    · cases applies
      simp only [State.getInode, found, zero, if_true, if_neg unlisted]
      exact not_consistent_fail
    · cases applies
  | _ => exact absurd trivial breaks

/-- A run that keeps to the condition stays consistent, and its next step does if and only if
it keeps to the condition too. -/
theorem consistent_iff_findsReleased
    (run : (system .references).Reaches FindsReleased initialState s) :
    Consistent s ∧ ∀ op t', (system .references).step s op = some t' →
      (Consistent t' ↔ FindsReleased s op) := by
  have w := Tracked.reached run
  refine ⟨w.consistent, fun op t' applies => ⟨fun consistent => ?_, fun meets => ?_⟩⟩
  · by_contra breaks
    exact w.not_consistent_step breaks applies consistent
  · exact (w.step meets applies).consistent

/-- An inode is loaded, released, and found on the list. -/
theorem consistent_iff_findsReleased_found :
    ∃ s, (system .references).Reaches FindsReleased initialState s ∧ (s.inode 0).refs = 1 ∧ Consistent s := by
  have made : (system .references).Reaches FindsReleased initialState _ :=
    System.Reaches.refl.next (.newInode 0 (1, 7) false) trivial rfl
  have missed := made.next (.getInode 1 (1, 7) true) (fun i found => by cases found) rfl
  have loaded := missed.next (.endLoad 1 (some 0)) trivial rfl
  have dropped := loaded.next (.drop 1 0) trivial rfl
  have released := dropped.next (.lastReferenceGone 1 5)
    (fun i here _ _ => by cases here; exact ⟨rfl, rfl⟩) rfl
  have run := released.next (.getInode 2 (1, 7) true) (fun i found _ => by cases found; decide) rfl
  exact ⟨_, run, rfl, (consistent_iff_findsReleased run).1⟩

/-- A pipe that was never in the map loses its last reference. -/
theorem not_consistent_always :
    ¬∀ s, (system .references).Reaches anyStep initialState s → Consistent s := by
  intro always
  have made : (system .references).Reaches anyStep initialState _ :=
    System.Reaches.refl.next (.newInode 0 (2, 1) true) trivial rfl
  have dropped := made.next (.drop 1 0) trivial rfl
  have run := dropped.next (.lastReferenceGone 1 5) trivial rfl
  exact Bool.false_ne_true (always _ run).asserted

end PadOS.Vfs.InodeCache
