import PadOS.Core.ErrorCode
import Mathlib.Logic.Function.Basic
import Mathlib.Tactic.SplitIfs

/-! # File handles and their duplication

`DupeFileHandle` on the file tables of all I/O contexts. A table holds references, so a file
is closed, as far as a table is concerned, when the table drops its reference; these drops
are recorded. The context mutexes are free at the start of the call, as it asserts.
-/

namespace PadOS.Vfs.IOContext

open List Option

/-- `id` stands for the object's identity. -/
structure KFileTableNode where
  id : Nat
  inode : Option Nat
  deriving DecidableEq, Repr

/-- `s_PlaceholderFile`, which marks a slot as taken while its file is being opened. -/
def placeholderFile : KFileTableNode := ⟨0, none⟩

abbrev FileTable := List (Option KFileTableNode)

/-- A file as the entry of a context and a handle. -/
structure Entry where
  context : Nat
  handle : Nat
  node : KFileTableNode
  deriving DecidableEq, Repr

/-- The contexts, of which `current` is that of the calling process. -/
structure IOContexts where
  fileTable : Nat → FileTable
  current : Nat
  kernelProcess : Nat
  released : List Entry := []

namespace IOContexts

section

variable (w : IOContexts)

/-- What stands in a slot, where the table has it and it is not empty. -/
def slot (context handle : Nat) : Option KFileTableNode :=
  (w.fileTable context)[handle]?.join

def setTable (context : Nat) (table : FileTable) : IOContexts :=
  { w with fileTable := Function.update w.fileTable context table }

/-- `m_FileTable[handle] = node`, which drops the reference that the slot held. -/
def assign (context handle : Nat) (node : Option KFileTableNode) : IOContexts :=
  { w.setTable context ((w.fileTable context).set handle node) with
    released := w.released ++ ((w.slot context handle).map (⟨context, handle, ·⟩)).toList }

/-- `GetFileNode_pl`, which throws `BADF` where this is `none`. -/
def getFileNode (context : Nat) (handle : Int) : Option KFileTableNode :=
  if 0 ≤ handle ∧ handle < (w.fileTable context).length then
    (w.slot context handle.toNat).filter (·.inode.isSome)
  else none

def freeFileHandle (context : Nat) (handle : Int) : IOContexts :=
  if 0 ≤ handle ∧ handle < (w.fileTable context).length then w.assign context handle.toNat none
  else w

def setFileNode (context : Nat) (handle : Int) (node : KFileTableNode) : IOContexts :=
  if 0 ≤ handle ∧ handle < (w.fileTable context).length then
    w.assign context handle.toNat (some node)
  else w

end

/-- `AllocFileHandle_pl`, which throws `MFILE` where this is `none`. -/
def allocFileHandle (openMax : Nat) (w : IOContexts) (context : Nat) : Option (Nat × IOContexts) :=
  let table := w.fileTable context
  if table.idxOf none < table.length then
    some (table.idxOf none, w.assign context (table.idxOf none) (some placeholderFile))
  else if table.length ≥ openMax then none
  else some (table.length, w.setTable context (table ++ [some placeholderFile]))

def fdKernelFlag : Nat := 0x40000000

/-- `kget_io_context` for a handle, and the handle without the flag. -/
def locate (w : IOContexts) (handle : Nat) : Nat × Nat :=
  if handle &&& fdKernelFlag ≠ 0 then (w.kernelProcess, handle - fdKernelFlag) else (w.current, handle)

def kclose (w : IOContexts) (handle : Nat) : IOContexts :=
  match w.getFileNode (w.locate handle).1 (w.locate handle).2 with
  | some _ => w.freeFileHandle (w.locate handle).1 (w.locate handle).2
  | none => w

end IOContexts

inductive DupeOutcome
  | returns (handle : Int) (w : IOContexts)
  | throws (code : PErrorCode) (w : IOContexts)
  | indexesOutside

open IOContexts

/-- The `for (;;)` loop, which takes another round after each call of `kclose`. -/
def dupeLoop (openMax this : Nat) (file : KFileTableNode) :
    Nat → IOContexts → Int → Option DupeOutcome
  | 0, _, _ => none
  | rounds + 1, w, newHandle =>
    if newHandle < 0 then
      match w.allocFileHandle openMax this with
      | none => some (.throws .mfile w)
      | some (handle, w) => some (.returns handle (w.setFileNode this handle file))
    else
      let size := (w.fileTable this).length
      if size ≠ 0 ∧ newHandle ≥ size then some .indexesOutside
      -- `int(m_FileTable.size() && m_FileTable[newHandle] != nullptr)` is 0 or 1
      else if newHandle < (if size ≠ 0 ∧ w.slot this newHandle.toNat ≠ none then 1 else 0) then
        dupeLoop openMax this file rounds (w.kclose newHandle.toNat) newHandle
      else
        let w :=
          if newHandle ≥ size then
            w.setTable this (w.fileTable this ++ replicate (newHandle.toNat + 1 - size) none)
          else w
        some (.returns newHandle (w.setFileNode this newHandle file))

/-- `DupeFileHandle` of the context `this`. -/
def dupeFileHandle (openMax rounds : Nat) (w : IOContexts) (this ioContextOld : Nat)
    (oldHandle newHandle : Int) : Option DupeOutcome :=
  if oldHandle < 0 ∨ oldHandle ≥ openMax ∨ newHandle ≥ openMax then some (.throws .mfile w)
  else if oldHandle = newHandle ∧ ioContextOld = this then some (.returns oldHandle w)
  else
    match w.getFileNode ioContextOld oldHandle with
    | none => some (.throws .badf w)
    | some file => dupeLoop openMax this file rounds w newHandle

/-! ## What duplication should do -/

/-- The references to open files that tables have dropped. -/
def IOContexts.closed (w : IOContexts) : List Entry := w.released.filter (·.node.inode.isSome)

/-- The open file of a slot. -/
def IOContexts.openAt (w : IOContexts) (context handle : Nat) : Option Entry :=
  ((w.slot context handle).filter (·.inode.isSome)).map (⟨context, handle, ·⟩)

/-- The slot refers to `file`, what was open there has been closed once, and nothing else has
changed but for the empty slots below a handle above the table. -/
structure Duped (w w' : IOContexts) (this handle : Nat) (file : KFileTableNode) : Prop where
  refers : (w'.fileTable this)[handle]? = some (some file)
  closes : w'.closed = w.closed ++ (w.openAt this handle).toList
  keeps : ∀ i : Nat, i ≠ handle → i < (w.fileTable this).length →
    (w'.fileTable this)[i]? = (w.fileTable this)[i]?
  fills : ∀ i : Nat, (w.fileTable this).length ≤ i → i < handle →
    (w'.fileTable this)[i]? = some none
  size : (w'.fileTable this).length = max (w.fileTable this).length (handle + 1)
  others : ∀ context, context ≠ this → w'.fileTable context = w.fileTable context

/-- What `dup2` makes of each way to leave the call; for a negative handle it is `dup`. -/
def Meets (w : IOContexts) (this ioContextOld : Nat) (oldHandle newHandle : Int)
    (file : KFileTableNode) : DupeOutcome → Prop
  | .returns handle w' =>
    if oldHandle = newHandle ∧ ioContextOld = this then handle = oldHandle ∧ w' = w
    else 0 ≤ handle ∧ (0 ≤ newHandle → handle = newHandle) ∧ Duped w w' this handle.toNat file
  | .throws _ w' => w' = w
  | .indexesOutside => False

/-- The call ends, and as `dup2` ends. -/
def IsDup2 (openMax : Nat) (w : IOContexts) (this ioContextOld : Nat) (oldHandle newHandle : Int)
    (file : KFileTableNode) : Prop :=
  ∃ rounds outcome, dupeFileHandle openMax rounds w this ioContextOld oldHandle newHandle = some outcome ∧
    Meets w this ioContextOld oldHandle newHandle file outcome

/-- The handles for which the tests of the loop are the intended ones: none above a table with
entries, and 0 only if it is free or an open file of the calling process. -/
def InReach (openMax : Nat) (w : IOContexts) (this ioContextOld : Nat)
    (oldHandle newHandle : Int) : Prop :=
  (openMax : Int) ≤ oldHandle ∨ (openMax : Int) ≤ newHandle ∨
    (oldHandle = newHandle ∧ ioContextOld = this) ∨ newHandle < 0 ∨ w.fileTable this = [] ∨
    newHandle < (w.fileTable this).length ∧
      (newHandle = 0 → ∀ node, w.slot this 0 = some node → node.inode.isSome ∧ w.current = this)

/-! ## Assignments to a slot -/

variable {openMax this ioContextOld handle context : Nat} {w w' : IOContexts} {file : KFileTableNode}
  {node : Option KFileTableNode} {oldHandle newHandle : Int}

theorem assign_table : (w.assign this handle node).fileTable this =
    (w.fileTable this).set handle node := by
  simp [assign, setTable]

theorem assign_other (other : context ≠ this) :
    (w.assign this handle node).fileTable context = w.fileTable context := by
  simp [assign, setTable, other]

theorem setTable_table {table : FileTable} : (w.setTable this table).fileTable this = table := by
  simp [setTable]

theorem setTable_other {table : FileTable} (other : context ≠ this) :
    (w.setTable this table).fileTable context = w.fileTable context := by
  simp [setTable, other]

theorem closed_assign :
    (w.assign this handle node).closed = w.closed ++ (w.openAt this handle).toList := by
  unfold assign IOContexts.closed IOContexts.openAt
  rw [filter_append]
  cases held : w.slot this handle with
  | none => rfl
  | some old => cases isOpen : old.inode <;> simp [isOpen, Option.filter]

theorem openAt_eq_none (free : (w.fileTable this)[handle]?.join.all (·.inode.isNone)) :
    w.openAt this handle = none := by
  unfold IOContexts.openAt slot
  cases held : (w.fileTable this)[handle]?.join with
  | none => rfl
  | some old =>
    rw [held] at free
    cases isOpen : old.inode with
    | none => simp [isOpen]
    | some inode => simp [isOpen] at free

/-- The table has a slot for the handle, and nothing but this slot still differs from what
duplication should leave. -/
structure Prepared (w w' : IOContexts) (this handle : Nat) : Prop where
  closes : w'.closed ++ (w'.openAt this handle).toList = w.closed ++ (w.openAt this handle).toList
  keeps : ∀ i : Nat, i ≠ handle → i < (w.fileTable this).length →
    (w'.fileTable this)[i]? = (w.fileTable this)[i]?
  fills : ∀ i : Nat, (w.fileTable this).length ≤ i → i < handle →
    (w'.fileTable this)[i]? = some none
  size : (w'.fileTable this).length = max (w.fileTable this).length (handle + 1)
  others : ∀ context, context ≠ this → w'.fileTable context = w.fileTable context

theorem Prepared.duped (prepared : Prepared w w' this handle) :
    Duped w (w'.setFileNode this handle file) this handle file := by
  have inside : handle < (w'.fileTable this).length := by
    rw [prepared.size]
    omega
  have assigned : w'.setFileNode this handle file = w'.assign this handle (some file) := by
    unfold setFileNode
    rw [if_pos ⟨by omega, by omega⟩, Int.toNat_natCast]
  rw [assigned]
  refine ⟨?_, ?_, ?_, ?_, ?_, ?_⟩
  · rw [assign_table, getElem?_set_self inside]
  · rw [closed_assign, prepared.closes]
  · intro i apart below
    rw [assign_table, getElem?_set_ne (Ne.symm apart)]
    exact prepared.keeps i apart below
  · intro i above below
    rw [assign_table, getElem?_set_ne (by omega)]
    exact prepared.fills i above below
  · rw [assign_table, length_set]
    exact prepared.size
  · intro context other
    rw [assign_other other]
    exact prepared.others context other

theorem prepared_self (inside : handle < (w.fileTable this).length) : Prepared w w this handle := by
  refine ⟨rfl, fun _ _ _ => rfl, ?_, by omega, fun _ _ => rfl⟩
  intro i above below
  omega

theorem Prepared.assign (inside : handle < (w.fileTable this).length)
    (unopened : node.all (·.inode.isNone)) : Prepared w (w.assign this handle node) this handle := by
  have free : (w.assign this handle node).openAt this handle = none := by
    apply openAt_eq_none
    rw [assign_table, getElem?_set_self inside]
    simpa using unopened
  refine ⟨?_, ?_, ?_, ?_, fun _ other => assign_other other⟩
  · rw [free, closed_assign]
    simp
  · intro i apart _
    rw [assign_table, getElem?_set_ne (Ne.symm apart)]
  · intro i above below
    omega
  · rw [assign_table, length_set]
    omega

theorem Prepared.grow {extra : FileTable} (last : (w.fileTable this).length + extra.length = handle + 1)
    (proper : extra ≠ []) (empty : ∀ i : Nat, i + 1 < extra.length → extra[i]? = some none)
    (unopened : extra[extra.length - 1]?.join.all (·.inode.isNone)) :
    Prepared w (w.setTable this (w.fileTable this ++ extra)) this handle := by
  have positive := length_pos_iff.2 proper
  have index : handle = (w.fileTable this).length + (extra.length - 1) := by omega
  have free : (w.setTable this (w.fileTable this ++ extra)).openAt this handle = none := by
    apply openAt_eq_none
    rw [setTable_table, getElem?_append_right (by omega), index, Nat.add_sub_cancel_left]
    exact unopened
  have before : w.openAt this handle = none := by
    apply openAt_eq_none
    rw [getElem?_eq_none (by omega)]
    rfl
  refine ⟨?_, ?_, ?_, ?_, fun _ other => setTable_other other⟩
  · rw [free, before]
    rfl
  · intro i _ below
    rw [setTable_table, getElem?_append_left below]
  · intro i above below
    rw [setTable_table, getElem?_append_right above]
    exact empty _ (by omega)
  · rw [setTable_table, length_append]
    omega

theorem allocFileHandle_prepared (allocated : w.allocFileHandle openMax this = some (handle, w')) :
    Prepared w w' this handle := by
  unfold allocFileHandle at allocated
  dsimp only at allocated
  split at allocated
  · rename_i found
    cases allocated
    exact .assign found rfl
  · split at allocated
    · cases allocated
    · cases allocated
      exact .grow rfl (by simp) (by simp) rfl

theorem resize_prepared (above : (w.fileTable this).length ≤ handle) :
    Prepared w (w.setTable this (w.fileTable this ++
      replicate (handle + 1 - (w.fileTable this).length) none)) this handle := by
  apply Prepared.grow
  · rw [length_replicate]
    omega
  · rw [ne_eq, replicate_eq_nil_iff]
    omega
  · intro i below
    rw [length_replicate] at below
    rw [getElem?_replicate, if_pos (by omega)]
  · rw [length_replicate, getElem?_replicate]
    split <;> rfl

/-! ## The loop -/

theorem kclose_zero : w.kclose 0 = match w.getFileNode w.current 0 with
    | some _ => w.freeFileHandle w.current 0
    | none => w := rfl

theorem slot_lt (held : w.slot this handle ≠ none) : handle < (w.fileTable this).length := by
  by_contra above
  apply held
  unfold slot
  rw [getElem?_eq_none (by omega)]
  rfl

theorem getFileNode_zero : w.getFileNode this 0 = (w.slot this 0).filter (·.inode.isSome) := by
  unfold getFileNode
  by_cases inside : 0 < (w.fileTable this).length
  · rw [if_pos ⟨by omega, by omega⟩]
    rfl
  · rw [if_neg (by omega)]
    have empty : w.slot this 0 = none := by
      by_contra held
      exact inside (slot_lt held)
    rw [empty]
    rfl

variable {old : KFileTableNode}

theorem kclose_zero_current (held : w.slot w.current 0 = some old)
    (isOpen : old.inode.isSome) : w.kclose 0 = w.assign w.current 0 none := by
  have inside : 0 < (w.fileTable w.current).length := slot_lt (by simp [held])
  rw [kclose_zero, getFileNode_zero, held]
  simp only [Option.filter, isOpen, if_true]
  unfold freeFileHandle
  rw [if_pos ⟨by omega, by omega⟩]
  rfl

section

variable (held : w.slot this 0 = some old) (stuck : ¬(old.inode.isSome ∧ w.current = this))

include held stuck

theorem kclose_zero_slot :
    (w.kclose 0).slot this 0 = some old ∧ (w.kclose 0).current = w.current := by
  rw [kclose_zero]
  split
  · rename_i closed found
    by_cases here : w.current = this
    · rw [here, getFileNode_zero, held] at found
      have shut : ¬old.inode.isSome := fun isOpen => stuck ⟨isOpen, here⟩
      simp [Option.filter, shut] at found
    · unfold freeFileHandle
      split
      · refine ⟨?_, rfl⟩
        unfold slot
        rw [assign_other (Ne.symm here)]
        exact held
      · exact ⟨held, rfl⟩
  · exact ⟨held, rfl⟩

theorem dupeLoop_stuck
    (rounds : Nat) :
    dupeLoop openMax this file rounds w 0 = none := by
  induction rounds generalizing w with
  | zero => rfl
  | succ rounds ih =>
    have inside : 0 < (w.fileTable this).length := slot_lt (by simp [held])
    rw [dupeLoop, if_neg (by omega)]
    dsimp only
    rw [if_neg (by omega), if_pos (by simp [held, length_pos_iff.1 inside])]
    rcases kclose_zero_slot held stuck with ⟨heldStill, same⟩
    exact ih heldStill (by rwa [Int.toNat_zero, same])

end

theorem dupeLoop_negative {rounds : Nat} (negative : newHandle < 0) :
    ∃ outcome, dupeLoop openMax this file (rounds + 1) w newHandle = some outcome ∧
      (outcome = .throws .mfile w ∨
        ∃ handle : Nat, ∃ w', outcome = .returns handle w' ∧ Duped w w' this handle file) := by
  rw [dupeLoop, if_pos negative]
  cases allocated : w.allocFileHandle openMax this with
  | none => exact ⟨_, rfl, .inl rfl⟩
  | some result => exact ⟨_, rfl, .inr ⟨_, _, rfl, (allocFileHandle_prepared allocated).duped⟩⟩

theorem dupeLoop_outside {rounds : Nat} (proper : w.fileTable this ≠ [])
    (above : (w.fileTable this).length ≤ handle) :
    dupeLoop openMax this file (rounds + 1) w handle = some .indexesOutside := by
  rw [dupeLoop, if_neg (by omega)]
  dsimp only
  rw [if_pos ⟨by simpa using proper, by omega⟩]

theorem dupeLoop_assigns {rounds : Nat} (within : w.fileTable this = [] ∨ handle < (w.fileTable this).length)
    (free : handle = 0 → w.slot this 0 = none) :
    ∃ w₁, dupeLoop openMax this file (rounds + 1) w handle =
        some (.returns handle (w₁.setFileNode this handle file)) ∧ Prepared w w₁ this handle := by
  rw [dupeLoop, if_neg (by omega)]
  dsimp only
  have notOutside : ¬((w.fileTable this).length ≠ 0 ∧ (handle : Int) ≥ (w.fileTable this).length) := by
    intro ⟨proper, above⟩
    rcases within with empty | inside
    · simp [empty] at proper
    · omega
  have noClose : ¬((handle : Int) <
      (if (w.fileTable this).length ≠ 0 ∧ w.slot this (handle : Int).toNat ≠ none then 1 else 0)) := by
    split
    · rename_i taken
      intro less
      obtain rfl : handle = 0 := by omega
      exact taken.2 (free rfl)
    · omega
  rw [if_neg notOutside, if_neg noClose, Int.toNat_natCast]
  by_cases above : (handle : Int) ≥ (w.fileTable this).length
  · rw [if_pos above]
    exact ⟨_, rfl, resize_prepared (by omega)⟩
  · rw [if_neg above]
    exact ⟨w, rfl, prepared_self (by omega)⟩

theorem dupeLoop_closes {rounds : Nat} (held : w.slot this 0 = some old)
    (isOpen : old.inode.isSome) (here : w.current = this) :
    ∃ w₁, dupeLoop openMax this file (rounds + 2) w 0 =
        some (.returns (0 : Nat) (w₁.setFileNode this (0 : Nat) file)) ∧ Prepared w w₁ this 0 := by
  have inside : 0 < (w.fileTable this).length := slot_lt (by simp [held])
  rw [dupeLoop, if_neg (by omega)]
  dsimp only
  rw [if_neg (by omega), if_pos (by simp [held, length_pos_iff.1 inside]), Int.toNat_zero]
  obtain rfl := here
  rw [kclose_zero_current held isOpen]
  have closed : Prepared w (w.assign w.current 0 none) w.current 0 := .assign inside rfl
  have empty : (w.assign w.current 0 none).slot w.current 0 = none := by
    unfold slot
    rw [assign_table, getElem?_set_self inside]
    rfl
  have inside₁ : 0 < ((w.assign w.current 0 none).fileTable w.current).length := by
    rw [assign_table, length_set]
    exact inside
  refine ⟨w.assign w.current 0 none, ?_, closed⟩
  rw [dupeLoop, if_neg (by omega)]
  dsimp only
  rw [if_neg (by omega), if_neg (by simp [empty]), if_neg (by omega)]
  rfl

/-! ## The call -/

theorem getFileNode_nonneg (isOpen : w.getFileNode ioContextOld oldHandle = some file) : 0 ≤ oldHandle := by
  unfold getFileNode at isOpen
  split at isOpen
  · omega
  · cases isOpen

section
variable {rounds : Nat} {outcome : DupeOutcome}

section

variable (isOpen : w.getFileNode ioContextOld oldHandle = some file)
  (allowed : ¬((openMax : Int) ≤ oldHandle ∨ (openMax : Int) ≤ newHandle))
  (differ : ¬(oldHandle = newHandle ∧ ioContextOld = this))

include isOpen allowed differ

theorem dupeFileHandle_eq_loop
    :
    dupeFileHandle openMax rounds w this ioContextOld oldHandle newHandle =
      dupeLoop openMax this file rounds w newHandle := by
  have nonneg := getFileNode_nonneg isOpen
  unfold dupeFileHandle
  rw [if_neg (by omega), if_neg differ, isOpen]

theorem isDup2_iff_loop
    :
    IsDup2 openMax w this ioContextOld oldHandle newHandle file ↔
      ∃ rounds outcome, dupeLoop openMax this file rounds w newHandle = some outcome ∧
        Meets w this ioContextOld oldHandle newHandle file outcome := by
  unfold IsDup2
  simp only [dupeFileHandle_eq_loop isOpen allowed differ]

end

theorem meets_returns (differ : ¬(oldHandle = newHandle ∧ ioContextOld = this))
    (same : 0 ≤ newHandle → (handle : Int) = newHandle) (duped : Duped w w' this handle file) :
    Meets w this ioContextOld oldHandle newHandle file (.returns handle w') := by
  unfold Meets
  dsimp only
  rw [if_neg differ]
  exact ⟨Int.natCast_nonneg _, same, duped⟩

end

/-- The call duplicates the handle as `dup2` does, without looking outside the table, exactly
for the handles in reach of its misplaced test. -/
theorem dupeFileHandle_isDup2_iff (openMax this ioContextOld : Nat) (w : IOContexts)
    (oldHandle newHandle : Int) (file : KFileTableNode)
    (isOpen : w.getFileNode ioContextOld oldHandle = some file) :
    IsDup2 openMax w this ioContextOld oldHandle newHandle file ↔
      InReach openMax w this ioContextOld oldHandle newHandle := by
  have nonneg := getFileNode_nonneg isOpen
  by_cases refused : (openMax : Int) ≤ oldHandle ∨ (openMax : Int) ≤ newHandle
  · have throws : dupeFileHandle openMax 0 w this ioContextOld oldHandle newHandle =
        some (.throws .mfile w) := by
      unfold dupeFileHandle
      rw [if_pos (by omega)]
    exact iff_of_true ⟨0, _, throws, rfl⟩ (refused.imp_right .inl)
  by_cases same : oldHandle = newHandle ∧ ioContextOld = this
  · have returns : dupeFileHandle openMax 0 w this ioContextOld oldHandle newHandle =
        some (.returns oldHandle w) := by
      unfold dupeFileHandle
      rw [if_neg (by omega), if_pos same]
    refine iff_of_true ⟨0, _, returns, ?_⟩ (.inr (.inr (.inl same)))
    unfold Meets
    dsimp only
    rw [if_pos same]
    exact ⟨rfl, rfl⟩
  rw [isDup2_iff_loop isOpen refused same]
  unfold InReach
  by_cases negative : newHandle < 0
  · rcases @dupeLoop_negative openMax this w file newHandle 0 negative with ⟨outcome, ended, how⟩
    refine iff_of_true ⟨1, outcome, ended, ?_⟩ (.inr (.inr (.inr (.inl negative))))
    rcases how with rfl | ⟨handle, w', rfl, duped⟩
    · rfl
    · exact meets_returns same (fun nonneg => absurd nonneg (by omega)) duped
  obtain ⟨handle, rfl⟩ := Int.eq_ofNat_of_zero_le (Int.not_lt.1 negative)
  have assigns (rounds : Nat) (ended : ∃ w₁, dupeLoop openMax this file rounds w handle =
      some (.returns handle (w₁.setFileNode this handle file)) ∧ Prepared w w₁ this handle) :
      ∃ rounds outcome, dupeLoop openMax this file rounds w handle = some outcome ∧
        Meets w this ioContextOld oldHandle handle file outcome := by
    rcases ended with ⟨w₁, ended, prepared⟩
    exact ⟨rounds, _, ended, meets_returns same (fun _ => rfl) prepared.duped⟩
  by_cases empty : w.fileTable this = []
  · have free : w.slot this 0 = none := by simp [slot, empty]
    exact iff_of_true (assigns 1 (dupeLoop_assigns (.inl empty) fun _ => free))
      (.inr (.inr (.inr (.inr (.inl empty)))))
  by_cases inside : handle < (w.fileTable this).length
  · by_cases taken : handle = 0 ∧ w.slot this 0 ≠ none
    · rcases taken with ⟨rfl, held⟩
      rcases ne_none_iff_exists'.1 held with ⟨old, held⟩
      by_cases closes : old.inode.isSome ∧ w.current = this
      · refine iff_of_true (assigns 2 (dupeLoop_closes held closes.1 closes.2)) ?_
        refine .inr (.inr (.inr (.inr (.inr ⟨by omega, ?_⟩))))
        intro _ node found
        rw [held] at found
        cases found
        exact closes
      · apply iff_of_false
        · rintro ⟨rounds, outcome, ended, -⟩
          have none : dupeLoop openMax this file rounds w 0 = none := dupeLoop_stuck held closes rounds
          rw [Int.natCast_zero, none] at ended
          cases ended
        · have spare : ∀ node, w.slot this 0 = some node → ¬(node.inode.isSome ∧ w.current = this) := by
            intro node found
            rw [held] at found
            cases found
            exact closes
          rintro (more | more | equal | less | none | ⟨-, free⟩)
          · exact refused (.inl more)
          · exact refused (.inr more)
          · exact same equal
          · exact negative less
          · exact empty none
          · exact spare old held (free rfl old held)
    · have free : handle = 0 → w.slot this 0 = none := by
        intro zero
        by_contra held
        exact taken ⟨zero, held⟩
      refine iff_of_true (assigns 1 (dupeLoop_assigns (.inr inside) free)) ?_
      refine .inr (.inr (.inr (.inr (.inr ⟨by omega, ?_⟩))))
      intro zero node found
      rw [free (by omega)] at found
      cases found
  · apply iff_of_false
    · intro ⟨rounds, outcome, ended, meets⟩
      cases rounds with
      | zero => cases ended
      | succ rounds =>
        rw [dupeLoop_outside empty (by omega)] at ended
        cases ended
        exact meets
    · rintro (more | more | equal | less | none | ⟨below, -⟩)
      · exact refused (.inl more)
      · exact refused (.inr more)
      · exact same equal
      · exact negative less
      · exact empty none
      · omega

/-- Every context has one open file, at handle 0. -/
def singleFile : IOContexts where
  fileTable := fun _ => [some ⟨1, some 1⟩]
  current := 0
  kernelProcess := 1

/-- A file is put over another one. -/
theorem dupeFileHandle_isDup2_singleFile :
    let files := { singleFile with fileTable := fun _ => [some ⟨1, some 1⟩, some ⟨2, some 2⟩] }
    IsDup2 64 files 0 0 0 1 ⟨1, some 1⟩ ↔ InReach 64 files 0 0 0 1 :=
  dupeFileHandle_isDup2_iff 64 0 0 _ 0 1 ⟨1, some 1⟩ rfl

/-- For handle 1 the call looks at the slot behind the only one of the table. -/
theorem dupeFileHandle_indexes_outside :
    ¬∀ (openMax this ioContextOld : Nat) (w : IOContexts) (oldHandle newHandle : Int)
      (file : KFileTableNode), w.getFileNode ioContextOld oldHandle = some file →
        IsDup2 openMax w this ioContextOld oldHandle newHandle file := by
  intro isDup2
  rcases isDup2 64 0 0 singleFile 0 1 ⟨1, some 1⟩ rfl with ⟨rounds, outcome, ended, meets⟩
  rw [dupeFileHandle_eq_loop rfl (by decide) (by decide)] at ended
  cases rounds with
  | zero => cases ended
  | succ rounds =>
    have outside := @dupeLoop_outside 64 0 1 singleFile ⟨1, some 1⟩ rounds (by decide) (by decide)
    obtain rfl := some.inj (outside.symm.trans ended)
    exact meets

end PadOS.Vfs.IOContext
