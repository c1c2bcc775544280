import Mathlib.Algebra.BigOperators.Group.List.Basic
import Mathlib.Data.List.Pairwise
import Mathlib.Tactic.Common

/-!
# Queues that merge

An input is cut up into entries: each begins with one event, and later events may join it. The
account of an input says that every event went into one entry, that the entries stand in the order
of the events they begin with, and that nothing that would interrupt an entry came before one of
the events that joined it.
-/

namespace PadOS.MergingQueue

open List Option

variable {E M : Type*}

/-- What may join an entry and what interrupts it. What joins does not interrupt. -/
structure Rules (E : Type*) where
  merge : E → E → E
  joins : E → E → Prop
  interrupts : E → E → Prop
  not_interrupts : ∀ {f e g}, joins f e → ¬interrupts g e

/-- The event an entry begins with and those that joined it, with their places in the input. -/
structure Entry (E : Type*) where
  first : E × Nat
  others : List (E × Nat)

namespace Entry

def members (g : Entry E) : List (E × Nat) := g.first :: g.others

def join (g : Entry E) (e : E × Nat) : Entry E := { g with others := g.others ++ [e] }

/-- What the entry has become. -/
def event (merge : E → E → E) (g : Entry E) : E :=
  g.others.foldl (fun e other => merge e other.1) g.first.1

theorem members_join (g : Entry E) (e : E × Nat) : (g.join e).members = g.members ++ [e] := rfl

theorem event_join (merge : E → E → E) (g : Entry E) (e : E × Nat) :
    (g.join e).event merge = merge (g.event merge) e.1 := by
  simp [event, join]

end Entry

structure Rules.Account (R : Rules E) (sent : List E) (entries : List (Entry E)) : Prop where
  complete : (entries.flatMap Entry.members).Perm sent.zipIdx
  inOrder : entries.Pairwise fun g h => g.first.2 < h.first.2
  ascending : ∀ g ∈ entries, g.members.Pairwise fun e other => e.2 < other.2
  joined : ∀ g ∈ entries, ∀ e ∈ g.others, R.joins g.first.1 e.1 ∧
    ∀ place between, g.first.2 < place → place < e.2 → sent[place]? = some between →
      ¬R.interrupts g.first.1 between

theorem map_fst_filter_zipIdx (events : List E) (start low high : Nat) (p : E → Bool) :
    ((events.zipIdx start).filter fun x => p x.1 ∧ low ≤ x.2 ∧ x.2 < high).map Prod.fst =
      ((events.take (high - start)).drop (low - start)).filter p := by
  induction events generalizing start with
  | nil => simp
  | cons e rest ih =>
    rw [zipIdx_cons, filter_cons]
    rcases Nat.lt_or_ge start high with below | above
    · obtain ⟨length, isLength⟩ : ∃ length, high - start = length + 1 :=
        ⟨high - start - 1, by omega⟩
      have next : high - (start + 1) = length := by omega
      rw [isLength, take_succ_cons]
      rcases Nat.lt_or_ge start low with before | within
      · obtain ⟨skip, isSkip⟩ : ∃ skip, low - start = skip + 1 := ⟨low - start - 1, by omega⟩
        have nextSkip : low - (start + 1) = skip := by omega
        rw [isSkip, drop_succ_cons, if_neg (by simp; omega), ih, next, nextSkip]
      · have zero : low - start = 0 := by omega
        have nextZero : low - (start + 1) = 0 := by omega
        have tail := ih (start + 1)
        rw [next, nextZero, drop_zero] at tail
        rw [zero, drop_zero, filter_cons]
        by_cases holds : p e = true
        · rw [if_pos (by simp [holds, within, below]), if_pos holds, map_cons, tail]
        · rw [if_neg (by simp [holds]), if_neg holds, tail]
    · have zero : high - start = 0 := by omega
      have nextZero : high - (start + 1) = 0 := by omega
      rw [if_neg (by simp; omega), ih, zero, nextZero, take_zero, take_zero, drop_nil, drop_nil]

/-- Events of one kind that two others interrupt. -/
structure Fenced (R : Rules E) (P : E → Prop) (opening closing : E) : Prop where
  joins : ∀ {f e}, R.joins f e → (P f ↔ P e)
  notOpening : ¬P opening
  notClosing : ¬P closing
  opens : ∀ {f}, P f → R.interrupts f opening
  closes : ∀ {f}, P f → R.interrupts f closing

namespace Rules.Account

variable {R : Rules E} {sent : List E} {entries front behind : List (Entry E)} {g : Entry E}
  {e : E}

theorem nil : R.Account [] [] := ⟨.nil, .nil, by simp, by simp⟩

section

variable (account : R.Account sent entries)

include account

variable {x : E × Nat}

theorem placed (isEntry : g ∈ entries)
    (isMember : x ∈ g.members) : sent[x.2]? = some x.1 := by
  have among := account.complete.subset (mem_flatMap.mpr ⟨g, isEntry, isMember⟩)
  exact mem_zipIdx_iff_getElem?.mp among

theorem lt_length (isEntry : g ∈ entries)
    (isMember : x ∈ g.members) : x.2 < sent.length :=
  (List.getElem?_eq_some_iff.mp (account.placed isEntry isMember)).1

theorem exists_entry {place : Nat}
    (isSent : sent[place]? = some e) : ∃ g ∈ entries, (e, place) ∈ g.members := by
  have among : (e, place) ∈ sent.zipIdx := mem_zipIdx_iff_getElem?.mpr isSent
  exact mem_flatMap.mp (account.complete.symm.subset among)

theorem first_le (isEntry : g ∈ entries)
    (isMember : x ∈ g.members) : g.first.2 ≤ x.2 := by
  rcases mem_cons.mp isMember with rfl | isOther
  · exact Nat.le_refl _
  · exact Nat.le_of_lt ((pairwise_cons.mp (account.ascending g isEntry)).1 x isOther)

theorem joined_append (isEntry : g ∈ entries)
    (isOther : x ∈ g.others) (new : E) : R.joins g.first.1 x.1 ∧
      ∀ place between, g.first.2 < place → place < x.2 → (sent ++ [new])[place]? = some between →
        ¬R.interrupts g.first.1 between := by
  have old := account.joined g isEntry x isOther
  have below := account.lt_length isEntry (mem_cons_of_mem _ isOther)
  refine ⟨old.1, fun place between after before isSent => old.2 place between after before ?_⟩
  rw [← isSent, getElem?_append_left (by omega)]

theorem append (e : E) :
    R.Account (sent ++ [e]) (entries ++ [⟨(e, sent.length), []⟩]) := by
  refine ⟨?_, ?_, ?_, ?_⟩
  · rw [flatMap_append, zipIdx_append]
    simpa [Entry.members] using account.complete.append_right [(e, sent.length)]
  · rw [pairwise_append]
    refine ⟨account.inOrder, by simp, ?_⟩
    intro g isEntry h isNew
    rw [mem_singleton.mp isNew]
    exact account.lt_length isEntry (mem_cons_self ..)
  · intro g isEntry
    rcases mem_append.mp isEntry with isEntry | isNew
    · exact account.ascending g isEntry
    · rw [mem_singleton.mp isNew]
      exact pairwise_singleton _ _
  · intro g isEntry x isOther
    rcases mem_append.mp isEntry with isEntry | isNew
    · exact account.joined_append isEntry isOther e
    · rw [mem_singleton.mp isNew] at isOther
      cases isOther

end

/-- Nothing interrupts between an entry and the end of the input when no entry behind it begins with
an event that does. -/
theorem not_interrupted (account : R.Account sent (front ++ g :: behind))
    (clear : ∀ h ∈ behind, ¬R.interrupts g.first.1 h.first.1) {place : Nat}
    (after : g.first.2 < place) (isSent : sent[place]? = some e) :
    ¬R.interrupts g.first.1 e := by
  rcases account.exists_entry isSent with ⟨h, isEntry, isMember⟩
  rcases mem_cons.mp isMember with isFirst | isOther
  · have inOrder := pairwise_append.mp account.inOrder
    rcases mem_append.mp isEntry with inFront | inRest
    · have before := inOrder.2.2 h inFront g (mem_cons_self ..)
      rw [← isFirst] at before
      exact absurd before (Nat.lt_asymm after)
    · rcases mem_cons.mp inRest with rfl | isBehind
      · rw [← isFirst] at after
        exact absurd after (Nat.lt_irrefl _)
      · have apart := clear h isBehind
        rw [← isFirst] at apart
        exact apart
  · exact R.not_interrupts (account.joined h isEntry _ isOther).1

theorem merge (account : R.Account sent (front ++ g :: behind)) (joins : R.joins g.first.1 e)
    (clear : ∀ h ∈ behind, ¬R.interrupts g.first.1 h.first.1) :
    R.Account (sent ++ [e]) (front ++ g.join (e, sent.length) :: behind) := by
  have isEntry : g ∈ front ++ g :: behind := by simp
  have others : ∀ h ∈ front ++ g.join (e, sent.length) :: behind,
      h = g.join (e, sent.length) ∨ h ∈ front ++ g :: behind := by
    intro h isOne
    simp only [mem_append, mem_cons] at isOne ⊢
    tauto
  refine ⟨?_, ?_, ?_, ?_⟩
  · have old := account.complete.append_right [(e, sent.length)]
    rw [zipIdx_append]
    simp only [flatMap_append, flatMap_cons, append_assoc] at old
    simp only [flatMap_append, flatMap_cons, Entry.members_join, append_assoc,
      zipIdx_cons, zipIdx_nil, zero_add]
    refine List.Perm.trans (.append_left _ (.append_left _ ?_)) old
    exact perm_append_comm
  · have inOrder := account.inOrder
    simp only [pairwise_append, pairwise_cons] at inOrder ⊢
    refine ⟨inOrder.1, inOrder.2.1, ?_⟩
    intro h inFront k inRest
    rcases mem_cons.mp inRest with rfl | isBehind
    · exact inOrder.2.2 h inFront g (mem_cons_self ..)
    · exact inOrder.2.2 h inFront k (mem_cons_of_mem _ isBehind)
  · intro h isOne
    rcases others h isOne with rfl | isOld
    · rw [Entry.members_join, pairwise_append]
      refine ⟨account.ascending g isEntry, pairwise_singleton _ _, ?_⟩
      intro x isMember y isNew
      rw [mem_singleton.mp isNew]
      exact account.lt_length isEntry isMember
    · exact account.ascending h isOld
  · intro h isOne x isOther
    rcases others h isOne with rfl | isOld
    · rcases mem_append.mp isOther with isOther | isNew
      · exact account.joined_append isEntry isOther e
      · rw [mem_singleton.mp isNew]
        refine ⟨joins, fun place between after before isSent => ?_⟩
        rw [getElem?_append_left before] at isSent
        exact account.not_interrupted clear after isSent
    · exact account.joined_append isOld isOther e

/-! ## What lies between two events -/

variable {pre mid post : List (Entry E)} {opening closing : Entry E} {P : E → Prop}

theorem between_iff (account : R.Account sent (pre ++ opening :: (mid ++ closing :: post)))
    (fenced : Fenced R P opening.first.1 closing.first.1)
    (isEntry : g ∈ pre ++ opening :: (mid ++ closing :: post))
    (isMember : x ∈ g.members) (kind : P x.1) :
    (opening.first.2 < x.2 ∧ x.2 < closing.first.2) ↔
      opening.first.2 < g.first.2 ∧ g.first.2 < closing.first.2 := by
  have isOpening : sent[opening.first.2]? = some opening.first.1 :=
    account.placed (by simp) (mem_cons_self ..)
  have isClosing : sent[closing.first.2]? = some closing.first.1 :=
    account.placed (by simp) (mem_cons_self ..)
  have here := account.placed isEntry isMember
  have above := account.first_le isEntry isMember
  rcases mem_cons.mp isMember with rfl | isOther
  · exact Iff.rfl
  · have joined := account.joined g isEntry x isOther
    have first : P g.first.1 := (fenced.joins joined.1).mpr kind
    have ascending := (pairwise_cons.mp (account.ascending g isEntry)).1 x isOther
    have begins := account.placed isEntry (mem_cons_self ..)
    -- neither of the two fences stands between an entry's first event and the one that joined
    have notOpened : ¬(g.first.2 < opening.first.2 ∧ opening.first.2 < x.2) := fun both =>
      joined.2 _ _ both.1 both.2 isOpening (fenced.opens first)
    have notClosed : ¬(g.first.2 < closing.first.2 ∧ closing.first.2 < x.2) := fun both =>
      joined.2 _ _ both.1 both.2 isClosing (fenced.closes first)
    have other : ∀ {place : Nat} {fence : E}, sent[place]? = some fence → ¬P fence →
        x.2 ≠ place ∧ g.first.2 ≠ place := by
      intro place fence stands differs
      refine ⟨fun same => ?_, fun same => ?_⟩
      · rw [same, stands] at here
        exact differs (some.inj here ▸ kind)
      · rw [same, stands] at begins
        exact differs (some.inj begins ▸ first)
    have apart := other isOpening fenced.notOpening
    have apart' := other isClosing fenced.notClosing
    omega

theorem sum_between [AddCommMonoid M] [DecidablePred P] (weight : E → M)
    (account : R.Account sent (pre ++ opening :: (mid ++ closing :: post)))
    (fenced : Fenced R P opening.first.1 closing.first.1) :
    (((mid.flatMap Entry.members).filter fun x => P x.1).map fun x => weight x.1).sum =
      ((sent.zipIdx.filter fun x => P x.1 ∧ opening.first.2 < x.2 ∧ x.2 < closing.first.2).map
        fun x => weight x.1).sum := by
  have order := account.inOrder
  simp only [pairwise_append, pairwise_cons, mem_append, mem_cons] at order
  rcases order with ⟨-, ⟨afterOpening, -, ⟨beforePost, -⟩, beforeClosing⟩, preBefore⟩
  have sides : ∀ entries : List (Entry E),
      (∀ g ∈ entries, g ∈ pre ++ opening :: (mid ++ closing :: post)) →
      (∀ g ∈ entries, ¬(opening.first.2 < g.first.2 ∧ g.first.2 < closing.first.2)) →
      (entries.flatMap Entry.members).filter
        (fun x => P x.1 ∧ opening.first.2 < x.2 ∧ x.2 < closing.first.2) = [] := by
    intro entries areEntries outside
    rw [filter_eq_nil_iff]
    intro x isOne
    rcases mem_flatMap.mp isOne with ⟨g, isEntry, isMember⟩
    simp only [decide_eq_true_eq, not_and]
    intro kind after before
    exact outside g isEntry
      ((account.between_iff fenced (areEntries g isEntry) isMember kind).mp ⟨after, before⟩)
  have inside : (mid.flatMap Entry.members).filter
      (fun x => P x.1 ∧ opening.first.2 < x.2 ∧ x.2 < closing.first.2) =
      (mid.flatMap Entry.members).filter fun x => P x.1 := by
    refine filter_congr fun x isOne => ?_
    rcases mem_flatMap.mp isOne with ⟨g, isEntry, isMember⟩
    rw [decide_eq_decide]
    refine ⟨And.left, fun kind => ⟨kind, ?_⟩⟩
    refine (account.between_iff fenced (by simp [isEntry]) isMember kind).mpr ⟨?_, ?_⟩
    · exact afterOpening g (.inl isEntry)
    · exact beforeClosing g isEntry closing (.inl rfl)
  have opened : opening.first.2 < closing.first.2 := afterOpening closing (.inr (.inl rfl))
  rw [← ((account.complete.filter _).map _).sum_eq]
  have parts : (pre ++ opening :: (mid ++ closing :: post)).flatMap Entry.members =
      (pre ++ [opening]).flatMap Entry.members ++ (mid.flatMap Entry.members ++
        (closing :: post).flatMap Entry.members) := by
    simp
  rw [parts, filter_append, filter_append, inside, sides (pre ++ [opening]) ?_ ?_,
    sides (closing :: post) ?_ ?_]
  · simp
  · intro g isOne
    simp only [mem_cons, mem_append] at isOne ⊢
    tauto
  · intro g isOne
    rcases mem_cons.mp isOne with rfl | isOne
    · omega
    · have behind := beforePost g isOne
      omega
  · intro g isOne
    simp only [mem_cons, mem_append, not_mem_nil, or_false] at isOne ⊢
    tauto
  · intro g isOne
    rcases mem_append.mp isOne with isOne | isOne
    · have before := preBefore g isOne opening (.inl rfl)
      omega
    · rw [mem_singleton.mp isOne]
      omega

end Rules.Account

end PadOS.MergingQueue
