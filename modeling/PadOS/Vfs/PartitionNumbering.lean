import PadOS.Vfs.PartitionChain

/-! # What the decoder returns

The returned vector lists a part of the chain that passed every check, so its entries are
disjoint and inside the disk. Its indices are another matter: an empty slot adds no entry.
-/

namespace PadOS.Vfs.DiskPartitions

open List Option

variable {g : DeviceGeometry} {image : Image} {d d' t : Decoding} {n m rounds : Nat} {pos : Int}
  {table : List PartitionRecord}

/-! ## The returned vector -/

/-- The loop over a table takes its first `k` records, all of them while there is room. -/
theorem takeRecords_prefix {slot : Nat}
    (before : Consistent g d.partitions) (ended : d.takeRecords g slot table = .ok d') :
    ∃ k, d' = d.taken g slot (table.take k) ∧ Consistent g d'.partitions ∧
      (table.length ≤ k ∨ maxPartitions ≤ d'.partitions.length) := by
  induction table generalizing d slot with
  | nil =>
    cases ended
    exact ⟨0, taken_nil.symm, before, .inl (Nat.zero_le _)⟩
  | cons r rest ih =>
    rw [Decoding.takeRecords] at ended
    split at ended
    · rcases first : d.takeRecord g slot r with stop | next
      · rw [first] at ended
        cases ended
      · rw [first] at ended
        rcases (takeRecord_eq_ok before).1 first with ⟨rfl, consistent⟩
        rcases ih consistent ended with ⟨k, same, passed, whole⟩
        refine ⟨k + 1, ?_, passed, ?_⟩
        · rw [take_succ_cons, taken_cons]
          exact same
        · simpa using whole
    · cases ended
      refine ⟨0, taken_nil.symm, before, .inr (by omega)⟩

/-- The decoder returned from the `n`th table of the chain, having taken `k` of its records. -/
structure ReturnsFrom (g : DeviceGeometry) (image : Image) (d : Decoding) (n k : Nat) (pos : Int)
    (table : List PartitionRecord) : Prop where
  here : position g image n = some pos
  accepted : Accepted g image n
  found : tableAt image pos = some table
  partitions_eq : d.partitions = ((stateAt g image n pos).taken g 0 (table.take k)).partitions
  listedFor_eq : d.listedFor = ((stateAt g image n pos).taken g 0 (table.take k)).listedFor
  consistent : Consistent g d.partitions
  whole : table.length ≤ k ∨ maxPartitions ≤ d.partitions.length
  last : position g image (n + 1) = none ∨ maxPartitions ≤ d.partitions.length

theorem decodeTable_prefix (before : Consistent g d.partitions) (ended : decodeTable g image d = .ok t) :
    ∃ table k, tableAt image d.tablePos = some table ∧ t = d.taken g 0 (table.take k) ∧
      Consistent g t.partitions ∧ (table.length ≤ k ∨ maxPartitions ≤ t.partitions.length) := by
  unfold decodeTable at ended
  unfold tableAt
  cases read : image d.tablePos with
  | error stop => simp [read, Except.bind, bind] at ended
  | ok buffer =>
    have single := @countExtended_eq_ok (records buffer) 0 (by omega)
    rw [read] at ended
    change (if _ then _ else _) = _ at ended
    split at ended
    · cases ended
    · rename_i signed
      cases counted : countExtended (records buffer) 0 with
      | error stop =>
        rw [counted] at ended
        cases ended
      | ok total =>
        rw [counted] at ended
        have few := single.1 ⟨total, counted⟩
        rcases takeRecords_prefix before ended with ⟨k, same, consistent, whole⟩
        exact ⟨records buffer, k, if_pos ⟨not_not.1 signed, by omega⟩, same, consistent, whole⟩

theorem follow_lists (followed : t.follow = some d) :
    d.partitions = t.partitions ∧ d.listedFor = t.listedFor := by
  unfold Decoding.follow at followed
  split at followed <;> cases followed
  exact ⟨rfl, rfl⟩

theorem decodeLoop_returnsFrom {h : Decoding} (run : reached g image n = some h)
    (room : h.partitions.length < maxPartitions) (ended : decodeLoop g image rounds h = pure d) :
    ∃ n k pos table, ReturnsFrom g image d n k pos table := by
  induction rounds generalizing n h with
  | zero => cases ended
  | succ rounds ih =>
    rcases reached_iff.1 ⟨run, room⟩ with ⟨accepted, state⟩
    rcases map_eq_some_iff.1 state with ⟨pos, here, rfl⟩
    cases taken : decodeTable g image (stateAt g image n pos) with
    | error stop =>
      rw [decodeLoop, if_pos room, taken] at ended
      cases ended
    | ok t =>
      rcases decodeTable_prefix accepted.consistent taken with ⟨table, k, found, same, consistent, whole⟩
      cases followed : t.follow with
      | none =>
        rw [decodeLoop_end room taken followed] at ended
        obtain rfl := Run.pure_inj.1 ended
        refine ⟨n, k, pos, table, here, accepted, found, by rw [same], by rw [same], consistent,
          whole, ?_⟩
        refine whole.imp_left fun all => ?_
        have next := follow_stateAt here found
        rw [same, take_of_length_le all] at followed
        rw [followed] at next
        exact map_eq_none_iff.1 next.symm
      | some h =>
        rw [decodeLoop_follow room taken followed] at ended
        have lists := follow_lists followed
        by_cases more : h.partitions.length < maxPartitions
        · have next : reached g image (n + 1) = some h := by
            simp [reached, run, nextRound, room, taken, followed]
          exact ih next more ended
        · have stays : d = h := by
            cases rounds with
            | zero => cases ended
            | succ rounds =>
              change decodeLoop g image (rounds + 1) h = _ at ended
              rw [decodeLoop, if_neg more] at ended
              exact (Run.pure_inj.1 ended).symm
          rw [← stays] at lists more
          exact ⟨n, k, pos, table, here, accepted, found, by rw [lists.1, same],
            by rw [lists.2, same], by rwa [lists.1], .inr (by omega), .inr (by omega)⟩

theorem returnsFrom (ended : decodeLoop g image rounds {} = pure d) :
    ∃ n k pos table, ReturnsFrom g image d n k pos table :=
  decodeLoop_returnsFrom (n := 0) rfl (by decide) ended

/-! ## Sound entries -/

theorem littleEndian_lt (buffer : Buffer) (offset count : Nat) :
    littleEndian buffer offset count < 256 ^ count := by
  induction count generalizing offset with
  | zero => simp [littleEndian]
  | succ count ih =>
    have byte := (buffer offset).toNat_lt
    have rest := ih (offset + 1)
    rw [littleEndian, Nat.pow_succ]
    omega

/-- A geometry for which no position that a table can name leaves `off64_t`. -/
def DeviceGeometry.Fits (g : DeviceGeometry) : Prop := g.bytesPerSector < 2 ^ 29

instance (g : DeviceGeometry) : Decidable g.Fits := inferInstanceAs (Decidable (_ < _))

/-- The positions that a sector number of a record can name. -/
def reach (g : DeviceGeometry) : Int := (2 ^ 32 - 1) * g.bytesPerSector

theorem off64_eq {x : Int} (low : 0 ≤ x) (high : x < 2 ^ 63) : off64 x = x :=
  Int.bmod_eq_of_le (by omega) (by omega)

theorem off64_le {x : Int} (low : 0 ≤ x) : off64 x ≤ x := by
  unfold off64
  rw [Int.bmod_def, show ((2 ^ 64 : Nat) : Int) = 18446744073709551616 from rfl]
  split <;> omega

theorem product_bounds {lba : Nat} (bounded : lba < 2 ^ 32) :
    (0 : Int) ≤ lba * g.bytesPerSector ∧ (lba : Int) * g.bytesPerSector ≤ reach g := by
  constructor
  · exact Int.mul_nonneg (Int.natCast_nonneg _) (Int.natCast_nonneg _)
  · exact Int.mul_le_mul_of_nonneg_right (by omega) (Int.natCast_nonneg _)

theorem reach_lt (fits : g.Fits) : reach g < 2 ^ 61 := by
  unfold DeviceGeometry.Fits at fits
  unfold reach
  omega

theorem sector_off64 (fits : g.Fits) {lba : Nat} (bounded : lba < 2 ^ 32) :
    off64 (lba * g.bytesPerSector) = lba * g.bytesPerSector := by
  have product := @product_bounds g lba bounded
  have small := reach_lt fits
  exact off64_eq product.1 (by omega)

/-- A record read from a buffer has 32 bits for its sectors. -/
def PartitionRecord.Stored (r : PartitionRecord) : Prop := r.startLBA < 2 ^ 32 ∧ r.size < 2 ^ 32

theorem stored_of_tableAt (found : tableAt image pos = some table) :
    ∃ buffer, table = records buffer ∧ ∀ r ∈ table, r.Stored := by
  unfold tableAt at found
  split at found
  · rename_i buffer _
    split at found <;> cases found
    refine ⟨buffer, rfl, ?_⟩
    intro r member
    rcases mem_map.1 member with ⟨i, -, rfl⟩
    exact ⟨littleEndian_lt _ _ 4, littleEndian_lt _ _ 4⟩
  · cases found

theorem linkAfter_bounds (fits : g.Fits) {link : Int}
    (stored : ∀ r ∈ table, r.Stored) (low : 0 ≤ link) (high : link ≤ reach g) :
    0 ≤ linkAfter g link table ∧ linkAfter g link table ≤ reach g := by
  induction table generalizing link with
  | nil => exact ⟨low, high⟩
  | cons r rest ih =>
    have bounded := (stored r mem_cons_self).1
    have product := @product_bounds g r.startLBA bounded
    have later := fun s h => stored s (mem_cons_of_mem r h)
    unfold linkAfter
    split
    · rw [sector_off64 fits bounded]
      exact ih later product.1 product.2
    · exact ih later low high

theorem reach_nonneg : 0 ≤ reach g := Int.mul_nonneg (by decide) (Int.natCast_nonneg _)

theorem linkOf_bounds (fits : g.Fits)
    (found : tableAt image pos = some table) : 0 ≤ linkOf g table ∧ linkOf g table ≤ reach g := by
  rcases stored_of_tableAt found with ⟨-, -, stored⟩
  exact linkAfter_bounds fits stored (Int.le_refl 0) reach_nonneg

theorem firstExtendedAt_bounds (fits : g.Fits) :
    0 ≤ firstExtendedAt g image n ∧ firstExtendedAt g image n ≤ reach g := by
  have nonneg := @reach_nonneg g
  unfold firstExtendedAt firstLink
  split
  · omega
  · cases found : tableAt image 0 with
    | none => simpa using nonneg
    | some table => exact linkOf_bounds fits found

theorem position_bounds (fits : g.Fits) (here : position g image n = some pos) :
    0 ≤ pos ∧ pos ≤ 2 * reach g := by
  have nonneg := @reach_nonneg g
  cases n with
  | zero =>
    obtain rfl := some.inj here
    omega
  | succ n =>
    rcases position_succ here with ⟨_, table, -, found, -, rfl⟩
    have first := @firstExtendedAt_bounds g image n fits
    have link := linkOf_bounds fits found
    have small := reach_lt fits
    rw [off64_eq (by omega) (by omega)]
    omega

theorem describe_start (r : PartitionRecord) :
    (describe g pos r).start = off64 (r.startLBA * g.bytesPerSector + pos) := by
  rw [describe]

theorem describe_size (r : PartitionRecord) :
    (describe g pos r).size = off64 (r.size * g.bytesPerSector) := by
  rw [describe]

/-- An entry is the placeholder of the extended partition, or describes bytes of the disk. -/
inductive Described (g : DeviceGeometry) : DiskPartitionDesc → Prop
  | placeholder : Described g {}
  | data {p : DiskPartitionDesc} (used : p.type ≠ 0) (start_nonneg : 0 ≤ p.start)
      (size_nonneg : 0 ≤ p.size) (exact : p.start + p.size < 2 ^ 63) : Described g p

theorem described_of_slotEntries (fits : g.Fits) (low : 0 ≤ pos) (high : pos ≤ 2 * reach g)
    {first : Int} {slot : Nat} (stored : ∀ r ∈ table, r.Stored)
    {e : Nat × DiskPartitionDesc} (member : e ∈ slotEntries g first pos slot table) :
    Described g e.2 := by
  induction table generalizing slot with
  | nil => cases member
  | cons r rest ih =>
    rcases mem_append.1 member with here | later
    · have bounded := stored r mem_cons_self
      rcases map_eq_some_iff.1 (mem_toList.1 here) with ⟨p, entry, rfl⟩
      unfold entryOf at entry
      split at entry
      · cases entry
      · rename_i used
        split at entry
        · split at entry <;> cases entry
          exact .placeholder
        · obtain rfl := some.inj entry
          have start := @product_bounds g r.startLBA bounded.1
          have size := @product_bounds g r.size bounded.2
          have small := reach_lt fits
          have starts : off64 (r.startLBA * g.bytesPerSector + pos) =
              r.startLBA * g.bytesPerSector + pos := off64_eq (by omega) (by omega)
          have sizes := sector_off64 fits bounded.2
          refine .data used ?_ ?_ ?_
          · rw [describe_start, starts]
            omega
          · rw [describe_size, sizes]
            exact size.1
          · rw [describe_start, describe_size, starts, sizes]
            omega
    · exact ih (fun s h => stored s (mem_cons_of_mem r h)) later

theorem described_of_listed (fits : g.Fits) {e : (Nat × Nat) × DiskPartitionDesc}
    (member : e ∈ listed g image n) : Described g e.2 := by
  induction n with
  | zero => cases member
  | succ n ih =>
    rcases mem_append.1 member with earlier | here
    · exact ih earlier
    · rcases mem_map.1 here with ⟨e, inTable, rfl⟩
      cases linked : position g image n with
      | none => simp [entries, linked] at inTable
      | some pos =>
        cases found : tableAt image pos with
        | none => simp [entries, linked, found] at inTable
        | some table =>
          rw [entries_eq linked found] at inTable
          rcases stored_of_tableAt found with ⟨-, -, stored⟩
          rcases position_bounds fits linked with ⟨low, high⟩
          exact described_of_slotEntries fits low high stored inTable

/-- The byte of the disk belongs to the partition. -/
def DiskPartitionDesc.Holds (p : DiskPartitionDesc) (offset : Int) : Prop :=
  p.start ≤ offset ∧ offset < p.start + p.size

structure Sound (g : DeviceGeometry) (partitions : List DiskPartitionDesc) : Prop where
  disjoint : partitions.Pairwise fun p q => ∀ offset, ¬(p.Holds offset ∧ q.Holds offset)
  inside : ∀ p ∈ partitions, p.type ≠ 0 →
    0 ≤ p.start ∧ 0 ≤ p.size ∧ p.start + p.size ≤ g.sectorCount * g.bytesPerSector
  active : partitions.Pairwise fun p q => ¬(active p.status ∧ active q.status)

theorem described_exact {p : DiskPartitionDesc} (described : Described g p) :
    off64 (p.start + p.size) = p.start + p.size := by
  cases described with
  | placeholder => rfl
  | data _ start size exact => exact off64_eq (by omega) exact

theorem apart_of_compatible {p q : DiskPartitionDesc} (hp : Described g p) (hq : Described g q)
    (compatible : Compatible p q) : ∀ offset, ¬(p.Holds offset ∧ q.Holds offset) := by
  intro offset ⟨⟨startP, endP⟩, startQ, endQ⟩
  cases hq with
  | placeholder => exact absurd endQ (by simpa using startQ)
  | data used start size exact =>
    have overlap := (compatible used).1
    rw [described_exact hp, off64_eq (by omega) exact] at overlap
    exact overlap ⟨by omega, by omega⟩

theorem passive_of_compatible {p q : DiskPartitionDesc} (hq : Described g q)
    (compatible : Compatible p q) : ¬(active p.status ∧ active q.status) := by
  intro ⟨activeP, activeQ⟩
  cases hq with
  | placeholder => cases activeQ
  | data used => exact (compatible used).2.1 ⟨activeQ, activeP⟩

theorem sound_of_consistent {partitions : List DiskPartitionDesc}
    (described : ∀ p ∈ partitions, Described g p) (consistent : Consistent g partitions) :
    Sound g partitions := by
  refine ⟨?_, ?_, ?_⟩
  · exact consistent.compatible.imp_of_mem fun hp hq =>
      apart_of_compatible (described _ hp) (described _ hq)
  · intro p member used
    have fit := consistent.fits p member used
    have size : g.diskSize ≤ g.sectorCount * g.bytesPerSector :=
      off64_le (Int.mul_nonneg (Int.natCast_nonneg _) (Int.natCast_nonneg _))
    rw [described_exact (described p member)] at fit
    cases described p member with
    | placeholder => exact absurd rfl used
    | data _ start sizes => exact ⟨start, sizes, by omega⟩
  · exact consistent.compatible.imp_of_mem fun _ hq => passive_of_compatible (described _ hq)

/-! ## Indices -/

section
variable {first : Int} {slot index : Nat} {table rest : List PartitionRecord}

theorem slotEntries_append :
    slotEntries g first pos slot (table ++ rest) =
      slotEntries g first pos slot table ++ slotEntries g first pos (slot + table.length) rest := by
  induction table generalizing slot with
  | nil => simp [slotEntries]
  | cons r table ih =>
    rw [cons_append, slotEntries, slotEntries, ih, append_assoc, length_cons,
      Nat.add_right_comm, add_assoc]

theorem slotEntries_take (k : Nat) :
    ∃ others, slotEntries g first pos slot table =
      slotEntries g first pos slot (table.take k) ++ others := by
  rw [← take_append_drop k table, slotEntries_append, take_append_drop]
  exact ⟨_, rfl⟩

theorem entryOf_eq_none {r : PartitionRecord} : entryOf g 0 pos r = none ↔ r.type = 0 := by
  unfold entryOf
  split
  · simp [*]
  · split <;> simp [*]

theorem slot_ge {e : Nat × DiskPartitionDesc}
    (here : (slotEntries g first pos slot table)[index]? = some e) : slot + index ≤ e.1 := by
  induction table generalizing slot index with
  | nil => cases here
  | cons r rest ih =>
    unfold slotEntries at here
    cases entry : entryOf g first pos r with
    | none =>
      have later := ih (by simpa [entry] using here)
      omega
    | some p =>
      cases index with
      | zero =>
        obtain rfl : (slot, p) = e := by simpa [entry] using here
        exact le_rfl
      | succ index =>
        have later := @ih (slot + 1) index (by simpa [entry] using here)
        omega

/-- An entry stands at the index of its slot when all slots before it are in use. -/
theorem slot_exact {p : DiskPartitionDesc} :
    (slotEntries g 0 pos slot table)[index]? = some (slot + index, p) ↔
      (∀ i s, i < index → table[i]? = some s → s.type ≠ 0) ∧
        ∃ r, table[index]? = some r ∧ entryOf g 0 pos r = some p := by
  induction table generalizing slot index with
  | nil => simp [slotEntries]
  | cons r rest ih =>
    unfold slotEntries
    cases entry : entryOf g 0 pos r with
    | none =>
      have unused := entryOf_eq_none.1 entry
      have behind : ¬(slotEntries g 0 pos (slot + 1) rest)[index]? = some (slot + index, p) := by
        intro here
        have later := slot_ge here
        omega
      simp only [map_none, toList_none, nil_append, behind, false_iff]
      rintro ⟨used, s, here, added⟩
      cases index with
      | zero =>
        obtain rfl : r = s := by simpa using here
        rw [entry] at added
        cases added
      | succ index => exact used 0 r (Nat.succ_pos _) rfl unused
    | some q =>
      have used : r.type ≠ 0 := by
        intro unused
        rw [entryOf_eq_none.2 unused] at entry
        cases entry
      cases index with
      | zero => simp [entry]
      | succ index =>
        have later := @ih (slot + 1) index
        rw [Nat.add_right_comm, add_assoc] at later
        simp only [map_some, toList_some, singleton_append, getElem?_cons_succ, later]
        refine and_congr_left fun _ => ?_
        constructor
        · intro before i s less here
          cases i with
          | zero =>
            obtain rfl : r = s := by simpa using here
            exact used
          | succ i => exact before i s (by omega) (by simpa using here)
        · intro before i s less here
          exact before (i + 1) s (by omega) (by simpa using here)

theorem slotEntries_length :
    (slotEntries g 0 pos slot table).length = table.countP (·.type ≠ 0) := by
  induction table generalizing slot with
  | nil => rfl
  | cons r rest ih =>
    unfold slotEntries
    rw [length_append, ih]
    cases entry : entryOf g 0 pos r with
    | none =>
      have unused := entryOf_eq_none.1 entry
      simp [unused]
    | some p =>
      have used : r.type ≠ 0 := by
        intro unused
        rw [entryOf_eq_none.2 unused] at entry
        cases entry
      simp [used, add_comm]

end

/-! ## The numbering of a returned vector -/

def masterTable (image : Image) : List PartitionRecord := (tableAt image 0).getD []

/-- The documented numbering: a primary partition has the index of its slot, and the logical
ones, which are listed for a later table, follow from index 4 on. -/
structure Numbered (g : DeviceGeometry) (image : Image) (d : Decoding) : Prop where
  primary : ∀ (slot : Nat) (r : PartitionRecord), (masterTable image)[slot]? = some r → r.IsData →
    d.listedFor[slot]? = some (0, slot) ∧ d.partitions[slot]? = some (describe g 0 r)
  logical : ∀ (index table slot : Nat), d.listedFor[index]? = some (table, slot) → table ≠ 0 → 4 ≤ index

/-- No empty slot of the master table stands before a primary partition, nor anywhere in the
master table if an extended table of the chain records a partition. -/
structure SlotsInUse (g : DeviceGeometry) (image : Image) : Prop where
  primary : ∀ (slot : Nat) (r : PartitionRecord), (masterTable image)[slot]? = some r → r.IsData →
    ∀ (i : Nat) (s : PartitionRecord), i < slot → (masterTable image)[i]? = some s → s.type ≠ 0
  logical : (∃ n, 0 < n ∧ entries g image n ≠ []) → ∀ r ∈ masterTable image, r.type ≠ 0

theorem position_none (none : position g image n = none) (i : Nat) :
    position g image (n + i) = Option.none := by
  by_contra linked
  have there := position_mono (isSome_iff_ne_none.2 linked)
  simp [none] at there

theorem entries_of_position_none (none : position g image n = Option.none) :
    entries g image n = [] := by
  simp [entries, none]

/-- What is listed is the master table's part and a part of later tables, which is empty when
each of them is. -/
theorem listed_split :
    ∃ rest, listed g image (n + 1) = listed g image 1 ++ rest ∧ (∀ e ∈ rest, e.1.1 ≠ 0) ∧
      (rest = [] ↔ ∀ i, 0 < i → i ≤ n → entries g image i = []) := by
  induction n with
  | zero =>
    refine ⟨[], by simp, by simp, ?_⟩
    simp only [true_iff]
    omega
  | succ n ih =>
    rcases ih with ⟨rest, same, later, empty⟩
    refine ⟨rest ++ (entries g image (n + 1)).map fun e => ((n + 1, e.1), e.2), ?_, ?_, ?_⟩
    · rw [listed, same, append_assoc]
    · intro e member
      rcases mem_append.1 member with before | here
      · exact later e before
      · rcases mem_map.1 here with ⟨-, -, rfl⟩
        exact Nat.succ_ne_zero n
    · rw [append_eq_nil_iff, map_eq_nil_iff, empty]
      constructor
      · rintro ⟨before, here⟩ i positive upTo
        rcases Nat.lt_or_eq_of_le upTo with less | rfl
        · exact before i positive (by omega)
        · exact here
      · intro all
        exact ⟨fun i positive upTo => all i positive (by omega), all _ (by omega) (by omega)⟩

theorem listed_one : listed g image 1 = (slotEntries g 0 0 0 (masterTable image)).map
    fun e => ((0, e.1), e.2) := by
  cases found : tableAt image 0 <;>
    simp [listed, entries, position, masterTable, found, firstExtendedAt, slotEntries]

theorem masterTable_length_le : (masterTable image).length ≤ 4 := by
  unfold masterTable
  cases found : tableAt image 0 with
  | none => simp
  | some table =>
    rcases stored_of_tableAt found with ⟨buffer, rfl, -⟩
    simp [records]

theorem listed_one_length : (listed g image 1).length ≤ 4 := by
  rw [listed_one, length_map, slotEntries_length]
  exact countP_le_length.trans masterTable_length_le

theorem ReturnsFrom.lists {k : Nat}
    (returns : ReturnsFrom g image d n k pos table) :
    ∃ rest, d.listedFor = (listed g image 1 ++ rest).map (·.1) ∧
      d.partitions = (listed g image 1 ++ rest).map (·.2) ∧ (∀ e ∈ rest, e.1.1 ≠ 0) ∧
      (rest = [] ↔ ∀ i, 0 < i → entries g image i = []) := by
  have entriesHere := entries_eq returns.here returns.found
  rcases @slotEntries_take g pos (firstExtendedAt g image n) 0 table k with ⟨others, whole⟩
  let taken := slotEntries g (firstExtendedAt g image n) pos 0 (table.take k)
  have lists : d.listedFor = (listed g image n ++ taken.map fun e => ((n, e.1), e.2)).map (·.1) ∧
      d.partitions = (listed g image n ++ taken.map fun e => ((n, e.1), e.2)).map (·.2) := by
    rw [returns.listedFor_eq, returns.partitions_eq]
    simp [Decoding.taken, stateAt, taken, Function.comp_def]
  have ends : d.partitions.length < maxPartitions →
      entries g image n = taken ∧ ∀ i, n < i → entries g image i = [] := by
    intro room
    have all := returns.whole.resolve_right (by omega)
    have last := returns.last.resolve_right (by omega)
    refine ⟨?_, ?_⟩
    · rw [entriesHere]
      simp [taken, take_of_length_le all]
    · intro i later
      apply entries_of_position_none
      have none := position_none last (i - (n + 1))
      rwa [show n + 1 + (i - (n + 1)) = i by omega] at none
  cases n with
  | zero =>
    have small : d.partitions.length < maxPartitions := by
      have bound := @listed_one_length g image
      have parts : (entries g image 0).length = taken.length + others.length := by
        rw [entriesHere, whole, length_append]
      rw [lists.2]
      simp only [listed, nil_append, length_map] at bound ⊢
      unfold maxPartitions
      omega
    rcases ends small with ⟨same, later⟩
    refine ⟨[], ?_, ?_, by simp, ?_⟩
    · rw [lists.1, append_nil, ← same]
      rfl
    · rw [lists.2, append_nil, ← same]
      rfl
    · simpa using fun i positive => later i positive
  | succ n =>
    rcases @listed_split g image n with ⟨rest, same, after, empty⟩
    refine ⟨rest ++ taken.map fun e => ((n + 1, e.1), e.2), ?_, ?_, ?_, ?_⟩
    · rw [lists.1, same, append_assoc]
    · rw [lists.2, same, append_assoc]
    · intro e member
      rcases mem_append.1 member with before | here
      · exact after e before
      · rcases mem_map.1 here with ⟨-, -, rfl⟩
        exact Nat.succ_ne_zero n
    · rw [append_eq_nil_iff, map_eq_nil_iff, empty]
      constructor
      · rintro ⟨before, nothing⟩ i positive
        have room : d.partitions.length < maxPartitions := by
          have accepted := returns.accepted.room
          rw [lists.2, nothing]
          simpa using accepted
        rcases ends room with ⟨here, later⟩
        rcases Nat.lt_trichotomy i (n + 1) with less | rfl | more
        · exact before i positive (by omega)
        · rw [here, nothing]
        · exact later i more
      · intro all
        refine ⟨fun i positive _ => all i positive, ?_⟩
        have here := all (n + 1) (Nat.succ_pos n)
        rw [entriesHere, whole] at here
        exact (append_eq_nil_iff.1 here).1

theorem ReturnsFrom.sound {k : Nat} (fits : g.Fits)
    (returns : ReturnsFrom g image d n k pos table) : Sound g d.partitions := by
  refine sound_of_consistent ?_ returns.consistent
  rw [returns.partitions_eq]
  intro p member
  rcases mem_append.1 member with earlier | here
  · rcases mem_map.1 earlier with ⟨e, inList, rfl⟩
    exact described_of_listed fits inList
  · rcases mem_map.1 here with ⟨e, inTable, rfl⟩
    rcases stored_of_tableAt returns.found with ⟨-, -, stored⟩
    rcases position_bounds fits returns.here with ⟨low, high⟩
    exact described_of_slotEntries fits low high (fun r h => stored r (mem_of_mem_take h)) inTable

section
variable {rest : List ((Nat × Nat) × DiskPartitionDesc)} {slot : Nat} {r : PartitionRecord}

theorem entryOf_data {first : Int} (data : r.IsData) : entryOf g first pos r = some (describe g pos r) := by
  simp [entryOf, data.1, data.2]

section

variable (later : ∀ e ∈ rest, e.1.1 ≠ 0)
  (lists : d.listedFor = (listed g image 1 ++ rest).map (·.1))

include later lists

theorem primary_iff
    (parts : d.partitions = (listed g image 1 ++ rest).map (·.2))
    (here : (masterTable image)[slot]? = some r) (data : r.IsData) :
    d.listedFor[slot]? = some (0, slot) ∧ d.partitions[slot]? = some (describe g 0 r) ↔
      ∀ (i : Nat) (s : PartitionRecord), i < slot → (masterTable image)[i]? = some s → s.type ≠ 0 := by
  rw [lists, parts, getElem?_map, getElem?_map]
  constructor
  · rintro ⟨listedHere, -⟩
    rcases map_eq_some_iff.1 listedHere with ⟨e, found, named⟩
    rcases mem_append.1 (mem_of_getElem? found) with first | after
    · by_cases inside : slot < (listed g image 1).length
      · rw [List.getElem?_append_left inside, listed_one, getElem?_map] at found
        rcases map_eq_some_iff.1 found with ⟨⟨s, p⟩, entry, rfl⟩
        have same : s = slot := (Prod.mk.inj named).2
        rw [same] at entry
        have exact := @slot_exact g 0 0 slot (masterTable image) p
        rw [zero_add] at exact
        exact (exact.1 entry).1
      · rw [getElem?_append_right (by omega)] at found
        exact absurd (congrArg Prod.fst named) (later e (mem_of_getElem? found))
    · exact absurd (congrArg Prod.fst named) (later e after)
  · intro used
    have exact := @slot_exact g 0 0 slot (masterTable image) (describe g 0 r)
    rw [zero_add] at exact
    have entry := exact.2 ⟨used, r, here, entryOf_data data⟩
    have found : (listed g image 1 ++ rest)[slot]? = some ((0, slot), describe g 0 r) := by
      have first : (listed g image 1)[slot]? = some ((0, slot), describe g 0 r) := by
        rw [listed_one, getElem?_map, entry]
        rfl
      rw [List.getElem?_append_left (List.getElem?_eq_some_iff.1 first).1, first]
    rw [found]
    exact ⟨rfl, rfl⟩

theorem logical_iff :
    (∀ (index table slot : Nat), d.listedFor[index]? = some (table, slot) → table ≠ 0 → 4 ≤ index) ↔
      (rest = [] ∨ 4 ≤ (listed g image 1).length) := by
  rw [lists]
  constructor
  · intro numbered
    cases rest with
    | nil => exact .inl rfl
    | cons e rest =>
      refine .inr (numbered _ e.1.1 e.1.2 ?_ (later e mem_cons_self))
      simp
  · intro ends index table slot found extended
    by_contra low
    rw [getElem?_map] at found
    rcases map_eq_some_iff.1 found with ⟨e, here, named⟩
    have first : e ∈ listed g image 1 := by
      rcases ends with rfl | four
      · rw [append_nil] at here
        exact mem_of_getElem? here
      · rw [List.getElem?_append_left (by omega)] at here
        exact mem_of_getElem? here
    rw [listed_one] at first
    rcases mem_map.1 first with ⟨_, -, rfl⟩
    exact extended (congrArg Prod.fst named).symm

end

theorem four_slots_iff (read : tableAt image 0 = some (masterTable image)) :
    4 ≤ (listed g image 1).length ↔ ∀ r ∈ masterTable image, r.type ≠ 0 := by
  have four : (masterTable image).length = 4 := by
    rcases stored_of_tableAt read with ⟨buffer, same, -⟩
    rw [same]
    simp [records]
  have most : (masterTable image).countP (·.type ≠ 0) ≤ (masterTable image).length := countP_le_length
  rw [listed_one, length_map, slotEntries_length]
  constructor
  · intro all
    have whole := countP_eq_length.1 (show (masterTable image).countP (·.type ≠ 0) = _ by omega)
    intro r member
    simpa using whole r member
  · intro used
    rw [countP_eq_length.2 (by simpa using used), four]

end

theorem ReturnsFrom.master {k : Nat}
    (returns : ReturnsFrom g image d n k pos table) : tableAt image 0 = some (masterTable image) := by
  have read : (tableAt image 0).isSome := by
    cases n with
    | zero =>
      obtain rfl := some.inj returns.here
      exact isSome_of_eq_some returns.found
    | succ n =>
      have linked : (position g image (1 + n)).isSome := by
        rw [add_comm, returns.here]
        rfl
      rcases isSome_iff_exists.1 (position_mono linked) with ⟨next, second⟩
      rcases position_succ second with ⟨start, table, first, found, -⟩
      obtain rfl := some.inj first
      exact isSome_of_eq_some found
  rcases isSome_iff_exists.1 read with ⟨table, found⟩
  simp [masterTable, found]

/-- A returned vector is always sound, and it is numbered as documented exactly when the
table slots that the numbering skips over are in use. -/
theorem decodeDiskPartitions_numbered_iff (g : DeviceGeometry) (image : Image) (rounds : Nat)
    (d : Decoding) (fits : g.Fits) (returns : decodeLoop g image rounds {} = pure d) :
    (Sound g d.partitions ∧ Numbered g image d) ↔ SlotsInUse g image := by
  rcases returnsFrom returns with ⟨n, k, pos, table, source⟩
  rcases source.lists with ⟨rest, lists, parts, later, empty⟩
  have used := four_slots_iff (g := g) source.master
  have some_later : rest ≠ [] ↔ ∃ n, 0 < n ∧ entries g image n ≠ [] := by
    rw [ne_eq, empty]
    push Not
    rfl
  constructor
  · rintro ⟨-, numbered⟩
    constructor
    · intro slot r here data
      exact (primary_iff later lists parts here data).1 (numbered.primary slot r here data)
    · intro logical
      have full := (logical_iff later lists).1 numbered.logical
      exact used.1 (full.resolve_left (some_later.2 logical))
  · intro inUse
    refine ⟨source.sound fits, ?_, ?_⟩
    · intro slot r here data
      exact (primary_iff later lists parts here data).2 (inUse.primary slot r here data)
    · apply (logical_iff later lists).2
      by_cases none : rest = []
      · exact .inl none
      · exact .inr (used.2 (inUse.logical (some_later.1 none)))

/-- The disk's only record stands in the given slot: a partition of sectors 1 and 2. -/
def oneRecord (slot : Nat) : Image := fun _ => .ok fun i =>
  if i = 0x1fe then 0x55 else if i = 0x1ff then 0xaa
  else if i = 0x1be + 16 * slot + 4 then 0x0c else if i = 0x1be + 16 * slot + 8 then 1
  else if i = 0x1be + 16 * slot + 12 then 2 else 0

instance : DecidableEq (Run Decoding) :=
  inferInstanceAs (DecidableEq (Option (Except Stop Decoding)))

/-- Slot 0 holds that partition, and slot 1 another one behind it. -/
def twoRecords : Image := fun position => do
  let first ← oneRecord 0 position
  let second ← oneRecord 1 position
  pure fun i => if i < 0x1ce then first i else if i = 0x1d6 then 3 else second i

theorem decodeDiskPartitions_numbered_twoRecords : ∃ d : Decoding, d.listedFor = [(0, 0), (0, 1)] ∧
    (Sound ⟨1000, 512⟩ d.partitions ∧ Numbered ⟨1000, 512⟩ twoRecords d ↔
      SlotsInUse ⟨1000, 512⟩ twoRecords) := by
  have returns : decodeLoop ⟨1000, 512⟩ twoRecords 1 {} = pure
      { partitions := [{ start := 512, size := 1024, type := 0x0c },
          { start := 1536, size := 1024, type := 0x0c }],
        listedFor := [(0, 0), (0, 1)] } := by decide +kernel
  exact ⟨_, rfl, decodeDiskPartitions_numbered_iff ⟨1000, 512⟩ twoRecords 1 _ (by decide) returns⟩

theorem oneRecord_returns : decodeLoop ⟨1000, 512⟩ (oneRecord 1) 1 {} = pure
    { partitions := [{ start := 512, size := 1024, type := 0x0c }], listedFor := [(0, 1)] } := by
  decide +kernel

/-- The partition of slot 1 is returned at index 0. -/
theorem decodeDiskPartitions_misnumbers :
    ¬∀ (g : DeviceGeometry) (image : Image) (rounds : Nat) (d : Decoding), g.Fits →
      decodeLoop g image rounds {} = pure d → Sound g d.partitions ∧ Numbered g image d := by
  intro numbered
  have primary := (numbered _ _ 1 _ (by decide) oneRecord_returns).2.primary 1
    { status := 0, type := 0x0c, startLBA := 1, size := 2 } (by decide) (by decide)
  exact absurd primary.1 (by decide)

end PadOS.Vfs.DiskPartitions
