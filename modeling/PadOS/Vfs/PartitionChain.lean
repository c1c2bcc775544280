import PadOS.Vfs.DiskPartitions
import Mathlib.Data.Fintype.Pigeonhole
import Mathlib.Data.Int.ConditionallyCompleteOrder
import Mathlib.Order.Lattice.Nat
import Mathlib.Data.Int.Interval

/-! # The chain of partition tables

What an image says of the chain before anything is decoded: where its tables stand, what each
of them lists, and whether the tables up to a point pass every check. The decoder runs on for
ever exactly when the chain closes into a circle of tables that list nothing.
-/

namespace PadOS.Vfs.DiskPartitions

open List Option Decoding

variable {g : DeviceGeometry} {image : Image} {d d' : Decoding} {n m slot start length : Nat}

/-! ## What an image links and lists -/

/-- The records at a position, where the block is read and is a table with one link at most. -/
def tableAt (image : Image) (pos : Int) : Option (List PartitionRecord) :=
  match image pos with
  | .ok buffer =>
    if signature buffer = 0xaa55 ∧ (records buffer).countP (·.IsExtended) ≤ 1 then
      some (records buffer)
    else none
  | .error _ => none

section

variable (g : DeviceGeometry)

def linkAfter (link : Int) : List PartitionRecord → Int
  | [] => link
  | r :: rest =>
    linkAfter (if r.IsExtended then off64 (r.startLBA * g.bytesPerSector) else link) rest

/-- What the table's extended record links to, zero without one. -/
def linkOf (table : List PartitionRecord) : Int := linkAfter g 0 table

/-- Where the table linked to by `table` stands. -/
def hop (image : Image) (firstExtended pos : Int) : Option Int :=
  (tableAt image pos).bind fun table =>
    if linkOf g table = 0 then none else some (off64 (firstExtended + linkOf g table))

/-- The link of the master table, to which all later links are relative. -/
def firstLink (image : Image) : Int :=
  ((tableAt image 0).map (linkOf g)).getD 0

def firstExtendedAt (image : Image) (n : Nat) : Int :=
  if n = 0 then 0 else firstLink g image

/-- The position of the `n`th table of the chain. -/
def position (image : Image) : Nat → Option Int
  | 0 => some 0
  | n + 1 => (position image n).bind (hop g image (firstExtendedAt g image n))

/-- What one record adds to the vector. -/
def entryOf (firstExtended pos : Int) (r : PartitionRecord) :
    Option DiskPartitionDesc :=
  if r.type = 0 then none
  else if r.IsExtended then if firstExtended = 0 then some {} else none
  else some (describe g pos r)

/-- The entries of a table with their slots. -/
def slotEntries (firstExtended pos : Int) :
    Nat → List PartitionRecord → List (Nat × DiskPartitionDesc)
  | _, [] => []
  | slot, r :: rest =>
    ((entryOf g firstExtended pos r).map (slot, ·)).toList ++
      slotEntries firstExtended pos (slot + 1) rest

/-- The entries of the `n`th table. -/
def entries (image : Image) (n : Nat) : List (Nat × DiskPartitionDesc) :=
  ((position g image n).bind fun pos => (tableAt image pos).map
    (slotEntries g (firstExtendedAt g image n) pos 0)).getD []

/-- The entries of the first `n` tables, each with its table and slot. -/
def listed (image : Image) : Nat → List ((Nat × Nat) × DiskPartitionDesc)
  | 0 => []
  | n + 1 => listed image n ++ (entries g image n).map fun e => ((n, e.1), e.2)

/-! ## The checks -/

/-- What the decoder checks of a new entry by itself. -/
def FitsDisk (new : DiskPartitionDesc) : Prop :=
  new.type ≠ 0 → off64 (new.start + new.size) ≤ g.diskSize

end

/-- What the decoder checks of a new entry against an earlier one. -/
def Compatible (cur new : DiskPartitionDesc) : Prop :=
  new.type ≠ 0 →
    ¬(off64 (cur.start + cur.size) > new.start ∧ cur.start < off64 (new.start + new.size)) ∧
    ¬(active new.status ∧ active cur.status) ∧ ¬(new.type = 0x05 ∧ cur.type = 0x05)

/-- Every check on the entries is passed. -/
structure Consistent (g : DeviceGeometry) (entries : List DiskPartitionDesc) : Prop where
  fits : ∀ new ∈ entries, FitsDisk g new
  compatible : entries.Pairwise Compatible

/-- The decoder gets to the `n`th table of the chain with room in the vector. -/
structure Accepted (g : DeviceGeometry) (image : Image) (n : Nat) : Prop where
  linked : (position g image n).isSome
  room : (listed g image n).length < maxPartitions
  consistent : Consistent g ((listed g image n).map (·.2))

/-- The tables `start` to `start + length` of the chain are a circle that lists nothing. The
master table is not part of it, as it is read only once as such. -/
structure BarrenCircle (g : DeviceGeometry) (image : Image) (start length : Nat) : Prop where
  extended : 0 < start
  proper : 0 < length
  accepted : Accepted g image (start + length)
  closes : position g image (start + length) = position g image start
  barren : ∀ n, start ≤ n → n < start + length → entries g image n = []

/-! ## One table -/

theorem checkAgainst_eq_ok {new : DiskPartitionDesc} {earlier : List DiskPartitionDesc} :
    checkAgainst new earlier = .ok () ↔ ∀ cur ∈ earlier, Compatible cur new := by
  induction earlier with
  | nil => simp [checkAgainst]
  | cons cur rest ih =>
    simp only [checkAgainst, forall_mem_cons, ← ih]
    by_cases unused : new.type = 0
    · simp [unused, Compatible]
    · rw [if_neg unused, ite_error_eq_ok, ite_error_eq_ok, ite_error_eq_ok]
      simp only [Compatible, ne_eq, unused, not_false_eq_true, true_imp_iff]
      tauto

theorem countExtended_eq_ok {table : List PartitionRecord} {count : Nat} (small : count ≤ 1) :
    (∃ total, countExtended table count = .ok total) ↔ count + table.countP (·.IsExtended) ≤ 1 := by
  induction table generalizing count with
  | nil => simp [countExtended, small]
  | cons r rest ih =>
    by_cases extended : r.IsExtended
    · simp only [countExtended, extended, if_true, decide_true, countP_cons_of_pos]
      by_cases more : count + 1 > 1
      · simp [more]
        omega
      · rw [if_neg more, ih (by omega)]
        omega
    · simp only [countExtended, extended, if_false]
      rw [if_neg (by omega), ih small]
      simp [extended]

/-- The variables once the records of a table are taken. -/
def Decoding.taken (g : DeviceGeometry) (d : Decoding) (slot : Nat)
    (table : List PartitionRecord) : Decoding :=
  let new := slotEntries g d.firstExtended d.tablePos slot table
  { d with
    extStart := linkAfter g d.extStart table
    partitions := d.partitions ++ new.map (·.2)
    listedFor := d.listedFor ++ new.map fun e => (d.table, e.1) }

theorem taken_nil : d.taken g slot [] = d := by
  simp [taken, slotEntries, linkAfter]

theorem taken_cons {r : PartitionRecord} {rest : List PartitionRecord} :
    d.taken g slot (r :: rest) = (d.taken g slot [r]).taken g (slot + 1) rest := by
  simp [taken, slotEntries, linkAfter]

theorem taken_length {table : List PartitionRecord} :
    (d.taken g slot table).partitions.length =
      d.partitions.length + (slotEntries g d.firstExtended d.tablePos slot table).length := by
  simp [taken]

theorem consistent_append_single {ps : List DiskPartitionDesc} {new : DiskPartitionDesc} :
    Consistent g (ps ++ [new]) ↔
      Consistent g ps ∧ FitsDisk g new ∧ ∀ cur ∈ ps, Compatible cur new := by
  constructor
  · intro ⟨fits, compatible⟩
    rw [pairwise_append] at compatible
    refine ⟨⟨fun p h => fits p (by simp [h]), compatible.1⟩, fits new (by simp), ?_⟩
    intro cur member
    exact compatible.2.2 cur member new (by simp)
  · intro ⟨⟨fits, compatible⟩, fitsNew, compatibleNew⟩
    constructor
    · intro p member
      rcases mem_append.1 member with earlier | last
      · exact fits p earlier
      · rw [mem_singleton.1 last]
        exact fitsNew
    · rw [pairwise_append]
      refine ⟨compatible, pairwise_singleton _ _, ?_⟩
      intro cur member p last
      rw [mem_singleton.1 last]
      exact compatibleNew cur member

theorem Consistent.prefix {ps qs : List DiskPartitionDesc} (consistent : Consistent g (ps ++ qs)) :
    Consistent g ps :=
  ⟨fun p h => consistent.fits p (mem_append_left _ h), (pairwise_append.1 consistent.compatible).1⟩

section

variable (before : Consistent g d.partitions)

include before

theorem takeRecord_eq_ok {r : PartitionRecord} :
    d.takeRecord g slot r = .ok d' ↔ d' = d.taken g slot [r] ∧ Consistent g d'.partitions := by
  unfold takeRecord
  by_cases unused : r.type = 0
  · have plain : ¬r.IsExtended := by simp [PartitionRecord.IsExtended, unused]
    have same : d.taken g slot [r] = d := by
      simp [taken, slotEntries, linkAfter, entryOf, unused, plain]
    simp only [unused, if_true, same, Except.ok.injEq]
    constructor
    · rintro rfl
      exact ⟨rfl, before⟩
    · rintro ⟨rfl, -⟩
      rfl
  · rw [if_neg unused]
    by_cases extended : r.IsExtended
    · have taken : d.taken g slot [r] = if d.firstExtended = 0 then
            ({ d with extStart := off64 (r.startLBA * g.bytesPerSector) } : Decoding).push slot {}
          else { d with extStart := off64 (r.startLBA * g.bytesPerSector) } := by
        by_cases first : d.firstExtended = 0 <;>
          simp [taken, slotEntries, linkAfter, entryOf, unused, extended, first, push]
      have keeps : Consistent g (d.taken g slot [r]).partitions := by
        by_cases first : d.firstExtended = 0
        · rw [taken, if_pos first]
          exact consistent_append_single.2
            ⟨before, fun used => absurd rfl used, fun _ _ used => absurd rfl used⟩
        · rw [taken, if_neg first]
          exact before
      simp only [extended, if_true, Except.ok.injEq]
      constructor
      · rintro rfl
        exact ⟨taken.symm, taken ▸ keeps⟩
      · rintro ⟨rfl, -⟩
        exact taken.symm
    · have taken : d.taken g slot [r] = d.push slot (describe g d.tablePos r) := by
        simp [taken, slotEntries, linkAfter, entryOf, unused, extended, push]
      have used : (describe g d.tablePos r).type ≠ 0 := unused
      have fits : FitsDisk g (describe g d.tablePos r) ↔
          ¬off64 ((describe g d.tablePos r).start + (describe g d.tablePos r).size) > g.diskSize := by
        simp [FitsDisk, used]
      rw [if_neg extended, ite_error_eq_ok, taken, ← fits]
      cases checked : checkAgainst (describe g d.tablePos r) d.partitions with
      | error stop =>
        have refused : ¬∀ cur ∈ d.partitions, Compatible cur (describe g d.tablePos r) := by
          rw [← checkAgainst_eq_ok, checked]
          simp
        constructor
        · rintro ⟨-, impossible⟩
          cases impossible
        · rintro ⟨rfl, consistent⟩
          exact absurd (consistent_append_single.1 consistent).2.2 refused
      | ok =>
        have passed := checkAgainst_eq_ok.1 checked
        simp only [Except.map, Except.ok.injEq]
        constructor
        · rintro ⟨fit, rfl⟩
          exact ⟨rfl, consistent_append_single.2 ⟨before, fit, passed⟩⟩
        · rintro ⟨rfl, consistent⟩
          exact ⟨(consistent_append_single.1 consistent).2.1, rfl⟩

theorem takeRecords_eq_ok {table : List PartitionRecord}
    (room : d'.partitions.length < maxPartitions) :
    d.takeRecords g slot table = .ok d' ↔
      d' = d.taken g slot table ∧ Consistent g d'.partitions := by
  induction table generalizing d slot with
  | nil =>
    simp only [takeRecords, taken_nil, Except.ok.injEq]
    constructor
    · rintro rfl
      exact ⟨rfl, before⟩
    · rintro ⟨rfl, -⟩
      rfl
  | cons r rest ih =>
    rw [takeRecords, taken_cons]
    constructor
    · intro ended
      split at ended
      · rcases first : d.takeRecord g slot r with stop | next
        · rw [first] at ended
          cases ended
        · rw [first] at ended
          rcases (takeRecord_eq_ok before).1 first with ⟨rfl, consistent⟩
          exact (ih consistent).1 ended
      · cases ended
        omega
    · rintro ⟨rfl, consistent⟩
      have shorter := @taken_length g (d.taken g slot [r]) (slot + 1) rest
      have longer := @taken_length g d slot [r]
      have first : Consistent g (d.taken g slot [r]).partitions := consistent.prefix
      rw [if_pos (by omega), (takeRecord_eq_ok before).2 ⟨rfl, first⟩]
      exact (ih first).2 ⟨rfl, consistent⟩

theorem decodeTable_eq_ok
    (room : d'.partitions.length < maxPartitions) :
    decodeTable g image d = .ok d' ↔
      ∃ table, tableAt image d.tablePos = some table ∧ d' = d.taken g 0 table ∧
        Consistent g d'.partitions := by
  unfold decodeTable tableAt
  cases read : image d.tablePos with
  | error stop => simp [Except.bind, bind]
  | ok buffer =>
    have single := @countExtended_eq_ok (records buffer) 0 (by omega)
    show (if _ then _ else _) = _ ↔ _
    by_cases signed : signature buffer = 0xaa55
    · rw [if_neg (not_not.2 signed)]
      simp only [signed, true_and]
      cases counted : countExtended (records buffer) 0 with
      | error stop =>
        have several : ¬(records buffer).countP (·.IsExtended) ≤ 1 := by
          intro few
          rcases single.2 (by omega) with ⟨total, same⟩
          rw [counted] at same
          cases same
        rw [if_neg several]
        simp [Except.bind, bind]
      | ok total =>
        have few := single.1 ⟨total, counted⟩
        rw [if_pos (by omega)]
        simp only [Except.bind, bind, some.injEq]
        rw [takeRecords_eq_ok before room]
        simp
    · simp [signed]

end

/-! ## The rounds of the loop -/

/-- The variables when the loop body is done and the loop goes on. -/
def nextRound (g : DeviceGeometry) (image : Image) (d : Decoding) : Option Decoding :=
  if d.partitions.length < maxPartitions then
    match decodeTable g image d with
    | .ok d => d.follow
    | .error _ => none
  else none

/-- The variables at the head of the loop after `n` rounds, where it gets that far. -/
def reached (g : DeviceGeometry) (image : Image) : Nat → Option Decoding
  | 0 => some {}
  | n + 1 => (reached g image n).bind (nextRound g image)

theorem decodeLoop_next (next : nextRound g image d = some d') :
    decodeLoop g image (n + 1) d = decodeLoop g image n d' := by
  unfold nextRound at next
  split at next
  · rename_i room
    cases table : decodeTable g image d with
    | error stop => simp [table] at next
    | ok taken =>
      simp only [table] at next
      exact decodeLoop_follow room table next
  · cases next

theorem decodeLoop_last (last : nextRound g image d = none) :
    ∃ result, decodeLoop g image (n + 1) d = Run.ofExcept result := by
  unfold nextRound at last
  split at last
  · rename_i room
    cases table : decodeTable g image d with
    | error stop =>
      rw [decodeLoop, if_pos room, table]
      exact ⟨.error stop, rfl⟩
    | ok taken =>
      simp only [table] at last
      exact ⟨.ok taken, decodeLoop_end room table last⟩
  · rename_i full
    rw [decodeLoop, if_neg full]
    exact ⟨.ok d, rfl⟩

theorem decodeLoop_reached (run : reached g image n = some d) :
    decodeLoop g image (n + m) {} = decodeLoop g image m d := by
  induction n generalizing m d with
  | zero =>
    cases run
    rw [zero_add]
  | succ n ih =>
    rcases bind_eq_some_iff.1 run with ⟨before, run, next⟩
    rw [Nat.add_right_comm, add_assoc, ih run, decodeLoop_next next]

/-- The call ends, by returning or by throwing. As each round reads one table, it has then
read as many tables as there were rounds at most. -/
def Terminates (g : DeviceGeometry) (image : Image) : Prop :=
  ∃ rounds result, decodeDiskPartitions rounds g image = Run.ofExcept result

theorem decode_ofExcept {rounds : Nat} :
    (∃ result, decodeDiskPartitions rounds g image = Run.ofExcept result) ↔
      ∃ result, decodeLoop g image rounds {} = Run.ofExcept result := by
  unfold decodeDiskPartitions
  match decodeLoop g image rounds {} with
  | none =>
    constructor
    · intro ⟨result, impossible⟩
      cases impossible
    · intro ⟨result, impossible⟩
      cases impossible
  | some (.ok d) => exact ⟨fun _ => ⟨.ok d, rfl⟩, fun _ => ⟨.ok d.partitions, rfl⟩⟩
  | some (.error stop) => exact ⟨fun _ => ⟨.error stop, rfl⟩, fun _ => ⟨.error stop, rfl⟩⟩

theorem terminates_iff : Terminates g image ↔ ∃ n, reached g image n = none := by
  constructor
  · intro ⟨rounds, ended⟩
    rcases decode_ofExcept.1 ended with ⟨result, ended⟩
    refine ⟨rounds, ?_⟩
    cases run : reached g image rounds with
    | none => rfl
    | some d =>
      rw [← add_zero rounds, decodeLoop_reached run] at ended
      cases ended
  · intro ⟨n, stuck⟩
    induction n with
    | zero => cases stuck
    | succ n ih =>
      cases run : reached g image n with
      | none => exact ih run
      | some d =>
        have last : nextRound g image d = none := by
          simpa [reached, run] using stuck
        refine ⟨n + 1, decode_ofExcept.2 ?_⟩
        rw [decodeLoop_reached run]
        exact decodeLoop_last last

/-! ## The run is what the image says -/

/-- The variables at the head of the loop when the decoder has come to the `n`th table. -/
def stateAt (g : DeviceGeometry) (image : Image) (n : Nat) (pos : Int) : Decoding where
  tablePos := pos
  firstExtended := firstExtendedAt g image n
  partitions := (listed g image n).map (·.2)
  table := n
  listedFor := (listed g image n).map (·.1)

variable {pos : Int}

theorem position_succ {next : Int} (here : position g image (n + 1) = some next) :
    ∃ pos table, position g image n = some pos ∧ tableAt image pos = some table ∧
      linkOf g table ≠ 0 ∧ next = off64 (firstExtendedAt g image n + linkOf g table) := by
  rcases bind_eq_some_iff.1 here with ⟨pos, there, hopped⟩
  rcases bind_eq_some_iff.1 hopped with ⟨table, found, linked⟩
  by_cases none : linkOf g table = 0
  · simp [none] at linked
  · rw [if_neg none] at linked
    exact ⟨pos, table, there, found, none, (some.inj linked).symm⟩

theorem position_mono (here : (position g image (n + m)).isSome) :
    (position g image n).isSome := by
  induction m with
  | zero => exact here
  | succ m ih =>
    rcases isSome_iff_exists.1 here with ⟨next, here⟩
    rcases position_succ here with ⟨pos, -, there, -⟩
    exact ih (isSome_of_eq_some there)

theorem firstLink_ne (here : (position g image (n + 1)).isSome) : firstLink g image ≠ 0 := by
  have one : (position g image 1).isSome := position_mono (m := n) (by rwa [add_comm])
  rcases isSome_iff_exists.1 one with ⟨next, one⟩
  rcases position_succ one with ⟨pos, table, there, found, linked, -⟩
  obtain rfl := some.inj there
  simpa [firstLink, found] using linked

section

variable (here : position g image n = some pos)

include here

variable {table : List PartitionRecord}

theorem entries_eq
    (found : tableAt image pos = some table) :
    entries g image n = slotEntries g (firstExtendedAt g image n) pos 0 table := by
  simp [entries, here, found]

theorem taken_stateAt
    (found : tableAt image pos = some table) :
    (stateAt g image n pos).taken g 0 table = { stateAt g image n pos with
        extStart := linkOf g table
        partitions := (listed g image (n + 1)).map (·.2)
        listedFor := (listed g image (n + 1)).map (·.1) } := by
  simp [taken, stateAt, listed, entries_eq here found, linkOf, Function.comp_def]

theorem follow_stateAt
    (found : tableAt image pos = some table) :
    ((stateAt g image n pos).taken g 0 table).follow =
      (position g image (n + 1)).map (stateAt g image (n + 1)) := by
  have next : position g image (n + 1) = hop g image (firstExtendedAt g image n) pos := by
    simp [position, here]
  rw [taken_stateAt here found, next]
  unfold follow hop
  rw [found, bind_some]
  by_cases unlinked : linkOf g table = 0
  · simp [unlinked]
  · rw [if_pos unlinked, if_neg unlinked, map_some]
    cases n with
    | zero =>
      cases here
      simp [stateAt, firstExtendedAt, firstLink, found]
    | succ n =>
      have first := @firstLink_ne g image n (by simp [here])
      simp [stateAt, firstExtendedAt, first]

end

theorem Accepted.before (accepted : Accepted g image (n + 1)) : Accepted g image n := by
  refine ⟨position_mono (m := 1) accepted.linked, ?_, ?_⟩
  · have room := accepted.room
    simp only [listed, length_append] at room
    omega
  · have consistent := accepted.consistent
    simp only [listed, map_append] at consistent
    exact consistent.prefix

theorem Accepted.mono (accepted : Accepted g image (n + m)) : Accepted g image n := by
  induction m with
  | zero => exact accepted
  | succ m ih => exact ih accepted.before

theorem nextRound_stateAt (here : position g image n = some pos) (accepted : Accepted g image n)
    (room : d'.partitions.length < maxPartitions) :
    nextRound g image (stateAt g image n pos) = some d' ↔ Accepted g image (n + 1) ∧
        (position g image (n + 1)).map (stateAt g image (n + 1)) = some d' := by
  have roomHere : (stateAt g image n pos).partitions.length < maxPartitions := by
    simpa [stateAt] using accepted.room
  unfold nextRound
  rw [if_pos roomHere]
  constructor
  · intro next
    cases ended : decodeTable g image (stateAt g image n pos) with
    | error stop => simp [ended] at next
    | ok taken =>
      simp only [ended] at next
      have roomTaken : taken.partitions.length < maxPartitions := by
        unfold follow at next
        split at next <;> cases next
        exact room
      rcases (decodeTable_eq_ok accepted.consistent roomTaken).1 ended with
        ⟨table, found, rfl, consistent⟩
      have followed := follow_stateAt here found
      rw [next] at followed
      rw [taken_stateAt here found] at consistent roomTaken
      refine ⟨⟨?_, ?_, consistent⟩, followed.symm⟩
      · by_contra none
        simp [not_isSome_iff_eq_none.1 none] at followed
      · simpa using roomTaken
  · intro ⟨there, next⟩
    rcases isSome_iff_exists.1 there.linked with ⟨pos', linked⟩
    rcases position_succ linked with ⟨pos₀, table, here₀, found, -⟩
    obtain rfl := some.inj (here.symm.trans here₀)
    have taken := taken_stateAt here found
    have consistent : Consistent g ((stateAt g image n pos).taken g 0 table).partitions := by
      rw [taken]
      exact there.consistent
    have roomTaken : ((stateAt g image n pos).taken g 0 table).partitions.length < maxPartitions := by
      rw [taken]
      simpa using there.room
    rw [(decodeTable_eq_ok accepted.consistent roomTaken).2 ⟨table, found, rfl, consistent⟩]
    exact (follow_stateAt here found).trans next

theorem reached_iff :
    (reached g image n = some d ∧ d.partitions.length < maxPartitions) ↔
      Accepted g image n ∧ (position g image n).map (stateAt g image n) = some d := by
  induction n generalizing d with
  | zero =>
    have start : (position g image 0).map (stateAt g image 0) = some {} := rfl
    have accepted : Accepted g image 0 :=
      ⟨rfl, by simp [listed, maxPartitions], by simp [listed], by simp [listed]⟩
    rw [start]
    constructor
    · rintro ⟨begun, -⟩
      exact ⟨accepted, begun⟩
    · rintro ⟨-, begun⟩
      cases begun
      exact ⟨rfl, by decide⟩
  | succ n ih =>
    constructor
    · intro ⟨run, room⟩
      rcases bind_eq_some_iff.1 run with ⟨before, run, next⟩
      have roomBefore : before.partitions.length < maxPartitions := by
        unfold nextRound at next
        split at next
        · assumption
        · cases next
      rcases ih.1 ⟨run, roomBefore⟩ with ⟨accepted, state⟩
      rcases map_eq_some_iff.1 state with ⟨pos, here, rfl⟩
      exact (nextRound_stateAt here accepted room).1 next
    · intro ⟨accepted, state⟩
      rcases isSome_iff_exists.1 accepted.before.linked with ⟨pos, here⟩
      have room : d.partitions.length < maxPartitions := by
        rcases map_eq_some_iff.1 state with ⟨pos', -, rfl⟩
        simpa [stateAt] using accepted.room
      refine ⟨?_, room⟩
      rw [reached, (ih.2 ⟨accepted.before, by rw [here]; rfl⟩).1]
      exact (nextRound_stateAt here accepted.before room).2 ⟨accepted, state⟩

theorem endless_iff : ¬Terminates g image ↔ ∀ n, Accepted g image n := by
  rw [terminates_iff, not_exists]
  constructor
  · intro endless n
    rcases ne_none_iff_exists'.1 (endless (n + 1)) with ⟨next, run⟩
    rcases bind_eq_some_iff.1 run with ⟨d, here, next⟩
    have room : d.partitions.length < maxPartitions := by
      unfold nextRound at next
      split at next
      · assumption
      · cases next
    exact (reached_iff.1 ⟨here, room⟩).1
  · intro accepted n stuck
    rcases isSome_iff_exists.1 (accepted n).linked with ⟨pos, here⟩
    have run := (reached_iff.2 ⟨accepted n, by rw [here]; rfl⟩).1
    rw [stuck] at run
    cases run

/-! ## Circles -/

theorem exists_settled {f : Nat → Nat} {bound : Nat} (mono : Monotone f) (bounded : ∀ n, f n < bound) :
    ∃ N, ∀ n, N ≤ n → f n = f N := by
  have above : BddAbove (Set.range f) := by
    refine ⟨bound, ?_⟩
    rintro _ ⟨n, rfl⟩
    exact (bounded n).le
  rcases Nat.sSup_mem (Set.range_nonempty f) above with ⟨N, most⟩
  refine ⟨N, fun n later => le_antisymm ?_ (mono later)⟩
  rw [most]
  exact le_csSup above ⟨n, rfl⟩

theorem listed_length_mono : Monotone fun n => (listed g image n).length := by
  apply monotone_nat_of_le_succ
  intro n
  simp [listed]

theorem position_bounded {next : Int} (here : position g image (n + 1) = some next) :
    next ∈ Set.Icc (-2 ^ 63 : Int) (2 ^ 63) := by
  rcases position_succ here with ⟨-, -, -, -, -, rfl⟩
  unfold off64
  constructor
  · exact Int.le_bmod (by decide)
  · exact (Int.bmod_lt (by decide)).le

theorem exists_position_eq (linked : ∀ n, (position g image n).isSome) (late : Nat) :
    ∃ i j, late < i ∧ i < j ∧ position g image i = position g image j := by
  let place : Nat → Set.Icc (-2 ^ 63 : Int) (2 ^ 63) := fun n =>
    ⟨(position g image (late + n + 1)).get (linked _), position_bounded (some_get _).symm⟩
  rcases Finite.exists_ne_map_eq_of_infinite place with ⟨a, b, differ, same⟩
  have positions : position g image (late + a + 1) = position g image (late + b + 1) :=
    get_inj.1 (congrArg Subtype.val same)
  rcases Nat.lt_or_gt_of_ne differ with less | more
  · exact ⟨_, _, by omega, by omega, positions⟩
  · exact ⟨_, _, by omega, by omega, positions.symm⟩

section

variable (circle : BarrenCircle g image start length)

include circle

theorem BarrenCircle.position_add
    (i : Nat) : position g image (start + length + i) = position g image (start + i) := by
  have extended := circle.extended
  induction i with
  | zero => exact circle.closes
  | succ i ih =>
    have first : firstExtendedAt g image (start + length + i) = firstExtendedAt g image (start + i) := by
      simp [firstExtendedAt, show start ≠ 0 by omega]
    rw [← add_assoc, ← add_assoc, position, position, ih, first]

theorem BarrenCircle.entries_eq_nil
    (i : Nat) : entries g image (start + i) = [] := by
  have proper := circle.proper
  have extended := circle.extended
  induction i using Nat.strongRecOn with
  | ind i ih =>
    by_cases inside : i < length
    · exact circle.barren (start + i) (by omega) (by omega)
    · have earlier := ih (i - length) (by omega)
      have same := circle.position_add (i - length)
      have index : start + length + (i - length) = start + i := by omega
      rw [index] at same
      rw [← earlier]
      simp [entries, same, firstExtendedAt, show start ≠ 0 by omega]

theorem BarrenCircle.listed_add
    (i : Nat) : listed g image (start + i) = listed g image start := by
  induction i with
  | zero => rfl
  | succ i ih => rw [← add_assoc, listed, circle.entries_eq_nil, map_nil, append_nil, ih]

theorem BarrenCircle.linked_add
    (i : Nat) : (position g image (start + i)).isSome := by
  have proper := circle.proper
  induction i using Nat.strongRecOn with
  | ind i ih =>
    by_cases inside : i < length
    · apply position_mono (m := length - i)
      rw [show start + i + (length - i) = start + length by omega]
      exact circle.accepted.linked
    · have same := circle.position_add (i - length)
      have index : start + length + (i - length) = start + i := by omega
      rw [← index, same]
      exact ih (i - length) (by omega)

theorem BarrenCircle.accepted_all
    (n : Nat) : Accepted g image n := by
  have first : Accepted g image start := circle.accepted.mono
  by_cases early : n ≤ start
  · have accepted : Accepted g image (n + (start - n)) := by
      rwa [show n + (start - n) = start by omega]
    exact accepted.mono
  · have same := circle.listed_add (n - start)
    have linked := circle.linked_add (n - start)
    rw [show start + (n - start) = n by omega] at same linked
    exact ⟨linked, by rw [same]; exact first.room, by rw [same]; exact first.consistent⟩

theorem BarrenCircle.not_terminates :
    ¬Terminates g image :=
  endless_iff.2 circle.accepted_all

end

theorem entries_eq_nil_of_settled (settled : (listed g image (n + 1)).length = (listed g image n).length) :
    entries g image n = [] := by
  simpa [listed] using settled

/-- The decoding of an image ends unless the links of its extended tables lead, past tables
that are all accepted, into a circle of tables without a partition. -/
theorem decodeDiskPartitions_terminates_iff (g : DeviceGeometry) (image : Image) :
    Terminates g image ↔ ¬∃ start length, BarrenCircle g image start length := by
  constructor
  · intro ended ⟨start, length, circle⟩
    exact circle.not_terminates ended
  · intro free
    by_contra endless
    have accepted := endless_iff.1 endless
    rcases exists_settled listed_length_mono (fun n => (accepted n).room) with ⟨N, settled⟩
    rcases exists_position_eq (fun n => (accepted n).linked) N with ⟨i, j, late, less, closes⟩
    have whole : i + (j - i) = j := by omega
    refine free ⟨i, j - i, by omega, by omega, accepted _, by rw [whole, closes], ?_⟩
    intro n later _
    apply entries_eq_nil_of_settled
    rw [settled (n + 1) (by omega), settled n (by omega)]

/-- Every block of the disk is a table with one record, which links to the next sector. -/
def selfLinked : Image := fun _ => .ok fun i =>
  if i = 0x1fe then 0x55 else if i = 0x1ff then 0xaa
  else if i = 0x1c2 then 0x05 else if i = 0x1c6 then 1 else 0

theorem selfLinked_circle : BarrenCircle ⟨1000, 512⟩ selfLinked 2 1 := by
  have listed_eq : listed ⟨1000, 512⟩ selfLinked 3 = [((0, 0), {})] := by decide +kernel
  refine ⟨by decide, by decide, ⟨by decide +kernel, ?_, ?_⟩, by decide +kernel, ?_⟩
  · rw [listed_eq]
    decide
  · rw [listed_eq]
    refine ⟨?_, pairwise_singleton _ _⟩
    intro new only used
    rw [map_singleton, mem_singleton] at only
    rw [only] at used
    exact absurd rfl used
  · intro n low high
    obtain rfl : n = 2 := by omega
    decide +kernel

theorem decodeDiskPartitions_runs_on : ¬∀ g image, Terminates g image :=
  fun ends => selfLinked_circle.not_terminates (ends _ _)

end PadOS.Vfs.DiskPartitions
