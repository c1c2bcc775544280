import PadOS.Core.BitTable
import PadOS.Fat.TableIterator

/-! # The table as packed entries

The active FAT is one sequence of bits over its sectors, and entry `cluster` its
12, 16 or 28 bits at `cluster` times the width of an entry. An iterator that has
the right sectors in its buffers reads and writes exactly these bits.
-/

namespace PadOS.Fat

open Nat

variable {vol : FATVolume} {disk : Disk} {it : FATTableIterator} {cluster value : Nat}

namespace FATVolume

def fatByte (vol : FATVolume) (disk : Disk) (i : Nat) : Nat :=
  (disk (vol.fatStartSector + i / vol.bytesPerSector) (i % vol.bytesPerSector)).toNat

def fatBit (vol : FATVolume) (disk : Disk) (k : Nat) : Bool :=
  (vol.fatByte disk (k / 8)).testBit (k % 8)

/-- The top four bits of a FAT32 entry are not part of it. -/
def entryWidth (vol : FATVolume) : Nat := if vol.fatBits = 32 then 28 else vol.fatBits

def entry (vol : FATVolume) (disk : Disk) (cluster : Nat) : Nat :=
  BitTable.entry (vol.fatBit disk) vol.fatBits vol.entryWidth cluster

namespace Accepted

variable (accepted : vol.Accepted)

include accepted

theorem fatBits_cases : vol.fatBits = 12 ∨ vol.fatBits = 16 ∨ vol.fatBits = 32 := by
  have width := accepted.width
  split at width
  · exact .inl width
  · split at width
    · exact .inr (.inl width)
    · exact .inr (.inr width)

theorem bytesPerSector_pos : 0 < vol.bytesPerSector := by
  have := accepted.sectorSize
  omega

/-- The bytes of an entry of a data cluster lie in the active FAT. -/
theorem fatByteOffset_lt (data : vol.isDataCluster cluster) :
    vol.fatByteOffset cluster + (if vol.fatBits = 12 then 1 else 0) <
      vol.sectorsPerFAT * vol.bytesPerSector := by
  have size := accepted.fatSize
  simp only [isDataCluster, Bool.and_eq_true, decide_eq_true_eq] at data
  unfold fatByteOffset
  rcases accepted.fatBits_cases with width | width | width <;> rw [width] at size ⊢
  · simp only [if_true]
    omega
  · simp only [reduceEqDiff, if_false]
    omega
  · simp only [reduceEqDiff, if_false]
    omega

theorem entrySector_lt (data : vol.isDataCluster cluster) :
    vol.entrySector cluster < vol.fatEndSector := by
  have inside := accepted.fatByteOffset_lt data
  have sector : vol.fatByteOffset cluster / vol.bytesPerSector < vol.sectorsPerFAT :=
    (div_lt_iff_lt_mul accepted.bytesPerSector_pos).2 (by omega)
  unfold entrySector fatEndSector
  omega

end Accepted

/-- The entry goes on in the sector after the one it begins in. -/
def Straddles (vol : FATVolume) (cluster : Nat) : Prop :=
  vol.entryOffset cluster = vol.bytesPerSector - 1

instance (cluster : Nat) : Decidable (vol.Straddles cluster) :=
  inferInstanceAs (Decidable (_ = _))

/-- Only 12-bit entries straddle sectors. -/
theorem Accepted.fatBits_of_straddles (accepted : vol.Accepted)
    (straddles : vol.Straddles cluster) : vol.fatBits = 12 := by
  unfold Straddles entryOffset fatByteOffset at straddles
  have size := accepted.sectorSize
  rcases accepted.fatBits_cases with width | width | width
  · exact width
  · rw [width] at straddles
    rcases size with size | size | size <;> rw [size] at straddles <;> omega
  · rw [width] at straddles
    rcases size with size | size | size <;> rw [size] at straddles <;> omega

theorem Accepted.straddling_sector_lt (accepted : vol.Accepted)
    (data : vol.isDataCluster cluster) (straddles : vol.Straddles cluster) :
    vol.entrySector cluster + 1 < vol.fatEndSector := by
  have inside := accepted.fatByteOffset_lt data
  rw [if_pos (accepted.fatBits_of_straddles straddles)] at inside
  unfold Straddles entryOffset at straddles
  have split := div_add_mod (vol.fatByteOffset cluster) vol.bytesPerSector
  have positive := accepted.bytesPerSector_pos
  have next : (vol.fatByteOffset cluster / vol.bytesPerSector + 1) * vol.bytesPerSector =
      vol.fatByteOffset cluster + 1 := by
    rw [add_mul, mul_comm]
    omega
  have : vol.fatByteOffset cluster / vol.bytesPerSector + 1 < vol.sectorsPerFAT := by
    apply Nat.lt_of_mul_lt_mul_right (a := vol.bytesPerSector)
    omega
  unfold entrySector fatEndSector
  omega

/-! ## Bytes of an entry -/

/-- Byte `i` of the active FAT as a place on the disk. -/
def fatSector (vol : FATVolume) (i : Nat) : Nat := vol.fatStartSector + i / vol.bytesPerSector

theorem entry_place {i : Nat} (inside : vol.entryOffset cluster + i < vol.bytesPerSector) :
    vol.fatSector (vol.fatByteOffset cluster + i) = vol.entrySector cluster ∧
      (vol.fatByteOffset cluster + i) % vol.bytesPerSector = vol.entryOffset cluster + i := by
  unfold fatSector entrySector entryOffset at *
  generalize vol.fatByteOffset cluster = x at *
  have split : x + i = x % vol.bytesPerSector + i + vol.bytesPerSector * (x / vol.bytesPerSector) := by
    have := mod_add_div x vol.bytesPerSector
    omega
  have sector : (x + i) / vol.bytesPerSector = x / vol.bytesPerSector := by
    rw [split, add_mul_div_left _ _ (by omega), div_eq_of_lt inside, zero_add]
  have offset : (x + i) % vol.bytesPerSector = x % vol.bytesPerSector + i := by
    rw [split, add_mul_mod_self_left, mod_eq_of_lt inside]
  exact ⟨by rw [sector], offset⟩

theorem straddling_place (positive : 0 < vol.bytesPerSector)
    (straddles : vol.Straddles cluster) :
    vol.fatSector (vol.fatByteOffset cluster + 1) = vol.entrySector cluster + 1 ∧
      (vol.fatByteOffset cluster + 1) % vol.bytesPerSector = 0 := by
  unfold Straddles fatSector entrySector entryOffset at *
  generalize vol.fatByteOffset cluster = x at *
  have split : x + 1 = vol.bytesPerSector * (x / vol.bytesPerSector + 1) := by
    have := mod_add_div x vol.bytesPerSector
    rw [mul_add]
    omega
  have sector : (x + 1) / vol.bytesPerSector = x / vol.bytesPerSector + 1 := by
    rw [split, Nat.mul_div_cancel_left _ positive]
  have offset : (x + 1) % vol.bytesPerSector = 0 := by rw [split, Nat.mul_mod_right]
  exact ⟨by rw [sector, add_assoc], offset⟩

theorem fatByte_eq (i : Nat) :
    vol.fatByte disk i = (disk (vol.fatSector i) (i % vol.bytesPerSector)).toNat := rfl

theorem fatByte_lt (vol : FATVolume) (disk : Disk) (i : Nat) : vol.fatByte disk i < 256 := (disk _ _).toNat_lt

theorem place_inj {i j : Nat} (sector : vol.fatSector i = vol.fatSector j)
    (offset : i % vol.bytesPerSector = j % vol.bytesPerSector) : i = j := by
  have div : i / vol.bytesPerSector = j / vol.bytesPerSector := by
    unfold fatSector at sector
    omega
  rw [← mod_add_div i vol.bytesPerSector, ← mod_add_div j vol.bytesPerSector, offset, div]

theorem fatByte_set (i j byte : Nat) :
    vol.fatByte (disk.set (vol.fatSector j) (j % vol.bytesPerSector) byte) i =
      if i = j then byte % 256 else vol.fatByte disk i := by
  rw [fatByte_eq, fatByte_eq, Disk.set]
  by_cases same : i = j
  · subst same
    simp
  · rw [if_neg same, if_neg]
    intro place
    exact same (place_inj place.1 place.2)

end FATVolume

/-! ## Bits of a few bytes -/

theorem testBit_two_bytes {low high : Nat} (small : low < 256) (j : Nat) :
    (low + 0x100 * high).testBit j = if j < 8 then low.testBit j else high.testBit (j - 8) := by
  rw [add_comm]
  exact testBit_two_pow_mul_add high (i := 8) small j

theorem testBit_0xf (j : Nat) : testBit 0xf j = decide (j < 4) :=
  testBit_two_pow_sub_one 4 j

theorem testBit_0xff (j : Nat) : testBit 0xff j = decide (j < 8) :=
  testBit_two_pow_sub_one 8 j

theorem testBit_0xfff (j : Nat) : testBit 0xfff j = decide (j < 12) :=
  testBit_two_pow_sub_one 12 j

theorem testBit_0xf0 (j : Nat) : testBit 0xf0 j = (decide (4 ≤ j) && decide (j < 8)) := by
  have shifted : (0xf0 : Nat) = 0xf <<< 4 := rfl
  rw [shifted, testBit_shiftLeft, testBit_0xf]
  by_cases above : 4 ≤ j
  · simp only [above, decide_true, Bool.true_and, decide_eq_decide]
    omega
  · simp [above]

/-! ## Reading -/

/-- The position of an iterator fits its cluster and its buffers show the sectors
of the entry. -/
structure FATTableIterator.Shows (vol : FATVolume) (it : FATTableIterator) : Prop where
  sector : it.currentSector = vol.entrySector it.currentCluster
  offset : it.offsetInSector = vol.entryOffset it.currentCluster
  first : it.block1.buffer = some it.currentSector
  second : vol.Straddles it.currentCluster → it.block2.buffer = some (it.currentSector + 1)

namespace FATTableIterator

open FATVolume

theorem twelve_bits (width : vol.fatBits = 12) :
    (if cluster % 2 = 1
      then (vol.fatByte disk (vol.fatByteOffset cluster) +
        0x100 * vol.fatByte disk (vol.fatByteOffset cluster + 1)) >>> 4
      else (vol.fatByte disk (vol.fatByteOffset cluster) +
        0x100 * vol.fatByte disk (vol.fatByteOffset cluster + 1)) &&& 0xfff) =
      vol.entry disk cluster := by
  have low := fatByte_lt vol disk (vol.fatByteOffset cluster)
  have high := fatByte_lt vol disk (vol.fatByteOffset cluster + 1)
  have position : vol.fatByteOffset cluster = cluster * 12 / 8 := by rw [fatByteOffset, width]
  have bits : vol.entryWidth = 12 := by
    rw [entryWidth, width]
    rfl
  unfold FATVolume.entry
  rw [bits, width]
  apply BitTable.eq_entry
  · split
    · rw [shiftRight_eq_div_pow]
      omega
    · exact and_lt_two_pow _ (by decide)
  intro j inside
  split
  · rename_i odd
    rw [testBit_shiftRight, testBit_two_bytes low, fatBit]
    split
    · congr 2 <;> omega
    · congr 2 <;> omega
  · rename_i even
    rw [testBit_and, testBit_0xfff, testBit_two_bytes low, fatBit]
    simp only [inside, decide_true, Bool.and_true]
    split
    · congr 2 <;> omega
    · congr 2 <;> omega

theorem sixteen_bits (width : vol.fatBits = 16) :
    vol.fatByte disk (vol.fatByteOffset cluster) +
      0x100 * vol.fatByte disk (vol.fatByteOffset cluster + 1) = vol.entry disk cluster := by
  have low := fatByte_lt vol disk (vol.fatByteOffset cluster)
  have high := fatByte_lt vol disk (vol.fatByteOffset cluster + 1)
  have position : vol.fatByteOffset cluster = cluster * 16 / 8 := by rw [fatByteOffset, width]
  have bits : vol.entryWidth = 16 := by
    rw [entryWidth, width]
    rfl
  unfold FATVolume.entry
  rw [bits, width]
  apply BitTable.eq_entry
  · omega
  intro j inside
  rw [testBit_two_bytes low, fatBit]
  split
  · congr 2 <;> omega
  · congr 2 <;> omega

theorem thirty_two_bits (width : vol.fatBits = 32) :
    vol.fatByte disk (vol.fatByteOffset cluster) +
      0x100 * vol.fatByte disk (vol.fatByteOffset cluster + 1) +
      0x10000 * vol.fatByte disk (vol.fatByteOffset cluster + 2) +
      0x1000000 * (vol.fatByte disk (vol.fatByteOffset cluster + 3) &&& 0x0f) =
      vol.entry disk cluster := by
  have position : vol.fatByteOffset cluster = cluster * 32 / 8 := by rw [fatByteOffset, width]
  have byte0 := fatByte_lt vol disk (vol.fatByteOffset cluster)
  have byte1 := fatByte_lt vol disk (vol.fatByteOffset cluster + 1)
  have byte2 := fatByte_lt vol disk (vol.fatByteOffset cluster + 2)
  have byte3 : vol.fatByte disk (vol.fatByteOffset cluster + 3) &&& 0x0f < 16 :=
    and_lt_two_pow (n := 4) _ (by decide)
  have bits : vol.entryWidth = 28 := by
    rw [entryWidth, width]
    rfl
  have nested : vol.fatByte disk (vol.fatByteOffset cluster) +
      0x100 * vol.fatByte disk (vol.fatByteOffset cluster + 1) +
      0x10000 * vol.fatByte disk (vol.fatByteOffset cluster + 2) +
      0x1000000 * (vol.fatByte disk (vol.fatByteOffset cluster + 3) &&& 0x0f) =
      vol.fatByte disk (vol.fatByteOffset cluster) +
        0x100 * (vol.fatByte disk (vol.fatByteOffset cluster + 1) +
          0x100 * (vol.fatByte disk (vol.fatByteOffset cluster + 2) +
            0x100 * (vol.fatByte disk (vol.fatByteOffset cluster + 3) &&& 0x0f))) := by
    omega
  unfold FATVolume.entry
  rw [bits, width]
  apply BitTable.eq_entry
  · omega
  intro j inside
  rw [nested, testBit_two_bytes byte0, testBit_two_bytes byte1, testBit_two_bytes byte2,
    testBit_and, testBit_0xf, fatBit]
  split
  · congr 2 <;> omega
  split
  · congr 2 <;> omega
  split
  · congr 2 <;> omega
  · have top : j - 8 - 8 - 8 < 4 := by omega
    simp only [top, decide_true, Bool.and_true]
    congr 2 <;> omega

/-- An entry that does not straddle lies in its sector. -/
theorem inside_of_not_straddles (accepted : vol.Accepted)
    (whole : ¬vol.Straddles cluster) :
    vol.entryOffset cluster + (if vol.fatBits = 32 then 3 else 1) < vol.bytesPerSector := by
  have size := accepted.sectorSize
  unfold Straddles at whole
  unfold entryOffset fatByteOffset at *
  rcases accepted.fatBits_cases with width | width | width <;> rw [width] at whole ⊢
  · simp only [reduceEqDiff, if_false]
    rcases size with size | size | size <;> rw [size] at whole ⊢ <;> omega
  · simp only [reduceEqDiff, if_false]
    rcases size with size | size | size <;> rw [size] <;> omega
  · simp only [if_true]
    rcases size with size | size | size <;> rw [size] <;> omega

theorem Shows.byte (good : it.Shows vol) (disk : Disk) {i : Nat}
    (inside : vol.entryOffset it.currentCluster + i < vol.bytesPerSector) :
    (disk it.currentSector (it.offsetInSector + i)).toNat =
      vol.fatByte disk (vol.fatByteOffset it.currentCluster + i) := by
  obtain ⟨sector, offset⟩ := entry_place inside
  rw [fatByte_eq, sector, offset, good.sector, good.offset]

theorem readEntry_eq (accepted : vol.Accepted) (good : it.Shows vol) :
    it.readEntry vol disk = .ok (widen vol.fatBits (vol.entry disk it.currentCluster)) := by
  have positive := accepted.bytesPerSector_pos
  unfold readEntry
  simp only [good.first]
  by_cases straddles : vol.Straddles it.currentCluster
  · have width := accepted.fatBits_of_straddles straddles
    have last : it.offsetInSector = vol.bytesPerSector - 1 := good.offset.trans straddles
    have low : vol.entryOffset it.currentCluster + 0 < vol.bytesPerSector := by
      rw [straddles]
      omega
    have byte0 := good.byte disk low
    have byte1 : (disk (it.currentSector + 1) 0).toNat =
        vol.fatByte disk (vol.fatByteOffset it.currentCluster + 1) := by
      obtain ⟨sector, offset⟩ := straddling_place positive straddles
      rw [fatByte_eq, sector, offset, good.sector]
    simp only [width, if_true, last, good.second straddles]
    rw [← last, byte0, byte1, add_zero, twelve_bits width]
  · have inside := inside_of_not_straddles accepted straddles
    have notLast : it.offsetInSector ≠ vol.bytesPerSector - 1 := by
      rw [good.offset]
      exact straddles
    have byte0 := good.byte disk (i := 0) (by omega)
    have byte1 := good.byte disk (i := 1) (by split at inside <;> omega)
    rcases accepted.fatBits_cases with width | width | width
    · simp only [width, if_true, notLast, if_false]
      rw [byte0, byte1, add_zero, twelve_bits width]
    · simp only [width, reduceEqDiff, if_false, if_true]
      rw [byte0, byte1, add_zero, sixteen_bits width]
    · rw [width, if_pos rfl] at inside
      have byte2 := good.byte disk (i := 2) (by omega)
      have byte3 := good.byte disk (i := 3) (by omega)
      simp only [width, reduceEqDiff, if_false, if_true]
      rw [byte0, byte1, byte2, byte3, add_zero, thirty_two_bits width]
      rfl

/-! ## Writing -/

theorem testBit_byte (x j : Nat) : (x % 256).testBit j = (decide (j < 8) && x.testBit j) :=
  testBit_mod_two_pow x 8 j

theorem testBit_0xf000 {j : Nat} (low : j < 8) : testBit 0xf000 j = false := by
  have shifted : (0xf000 : Nat) = 0xf <<< 12 := rfl
  rw [shifted, testBit_shiftLeft]
  simp only [Bool.and_eq_false_imp, decide_eq_true_eq]
  omega

variable {disk' : Disk}

/-- A write seen byte by byte: the entry's bits are those of the value, the others are kept. -/
theorem put_of_bytes {width : Nat} (bits : ∀ i j, j < 8 → (vol.fatByte disk' i).testBit j =
      if cluster * vol.fatBits ≤ 8 * i + j ∧ 8 * i + j < cluster * vol.fatBits + width then
        value.testBit (8 * i + j - cluster * vol.fatBits)
      else (vol.fatByte disk i).testBit j) :
    vol.fatBit disk' = BitTable.put (vol.fatBit disk) vol.fatBits width cluster value := by
  funext k
  have bit := bits (k / 8) (k % 8) (mod_lt _ (by decide))
  rwa [div_add_mod] at bit

/-- An odd 12-bit entry: the upper half of one byte and the next byte. -/
theorem put_odd (width : vol.fatBits = 12)
    (odd : cluster % 2 = 1) (bytes : ∀ i, vol.fatByte disk' i =
      if i = vol.fatByteOffset cluster + 1 then
        ((vol.fatByte disk (vol.fatByteOffset cluster + 1) &&& 0xf >>> 8) |||
          ((value &&& 0xfff) <<< 4) >>> 8) % 256
      else if i = vol.fatByteOffset cluster then
        ((vol.fatByte disk (vol.fatByteOffset cluster) &&& 0xf) ||| (value &&& 0xfff) <<< 4) % 256
      else vol.fatByte disk i) :
    vol.fatBit disk' = BitTable.put (vol.fatBit disk) vol.fatBits 12 cluster value := by
  have position : vol.fatByteOffset cluster = cluster * 12 / 8 := by rw [fatByteOffset, width]
  refine put_of_bytes fun i j low => ?_
  rw [bytes, width]
  split_ifs with second _ first
  all_goals try first | rfl | omega
  · have bit : 8 * i + j - cluster * 12 = 4 + j := by omega
    have same : 8 + j - 4 = 4 + j := by omega
    have above : 4 ≤ 8 + j := by omega
    have within : 4 + j < 12 := by omega
    simp [testBit_byte, testBit_0xfff, low, bit, same, above, within]
  · have upper : ¬j < 4 := by omega
    have bit : 8 * i + j - cluster * 12 = j - 4 := by omega
    have above : 4 ≤ j := by omega
    have within : j - 4 < 12 := by omega
    simp [testBit_byte, testBit_0xfff, testBit_0xf, low, upper, bit, above, within]
  · have kept : j < 4 := by omega
    have below : ¬4 ≤ j := by omega
    simp [testBit_byte, testBit_0xf, low, kept, below, first]

/-- An even 12-bit entry: a byte and the lower half of the next. -/
theorem put_even (width : vol.fatBits = 12)
    (even : ¬cluster % 2 = 1) (bytes : ∀ i, vol.fatByte disk' i =
      if i = vol.fatByteOffset cluster + 1 then
        ((vol.fatByte disk (vol.fatByteOffset cluster + 1) &&& 0xf000 >>> 8) |||
          (value &&& 0xfff) >>> 8) % 256
      else if i = vol.fatByteOffset cluster then
        ((vol.fatByte disk (vol.fatByteOffset cluster) &&& 0xf000) ||| (value &&& 0xfff)) % 256
      else vol.fatByte disk i) :
    vol.fatBit disk' = BitTable.put (vol.fatBit disk) vol.fatBits 12 cluster value := by
  have position : vol.fatByteOffset cluster = cluster * 12 / 8 := by rw [fatByteOffset, width]
  have mask : (0xf000 : Nat) >>> 8 = 0xf0 := rfl
  refine put_of_bytes fun i j low => ?_
  rw [bytes, width, mask]
  split_ifs with second _ first
  all_goals try first | rfl | omega
  · have bit : 8 * i + j - cluster * 12 = 8 + j := by omega
    have upper : ¬4 ≤ j := by omega
    simp [testBit_byte, testBit_0xfff, testBit_0xf0, low, upper, bit]
    omega
  · have upper : 4 ≤ j := by omega
    simp [testBit_byte, testBit_0xfff, testBit_0xf0, low, upper, second]
    omega
  · have bit : 8 * i + j - cluster * 12 = j := by omega
    simp [testBit_byte, testBit_0xfff, testBit_0xf000, low, bit]
    omega

theorem put_sixteen (width : vol.fatBits = 16)
    (bytes : ∀ i, vol.fatByte disk' i =
      if i = vol.fatByteOffset cluster + 1 then ((value >>> 8) &&& 0xff) % 256
      else if i = vol.fatByteOffset cluster then (value &&& 0xff) % 256
      else vol.fatByte disk i) :
    vol.fatBit disk' = BitTable.put (vol.fatBit disk) vol.fatBits 16 cluster value := by
  have position : vol.fatByteOffset cluster = cluster * 16 / 8 := by rw [fatByteOffset, width]
  refine put_of_bytes fun i j low => ?_
  rw [bytes, width]
  split_ifs with second _ first
  all_goals try first | rfl | omega
  · have bit : 8 * i + j - cluster * 16 = 8 + j := by omega
    simp [testBit_byte, testBit_0xff, low, bit]
  · have bit : 8 * i + j - cluster * 16 = j := by omega
    simp [testBit_byte, testBit_0xff, low, bit]

/-- The upper half of the fourth byte is kept. -/
theorem put_thirty_two (width : vol.fatBits = 32)
    (bytes : ∀ i, vol.fatByte disk' i = if i = vol.fatByteOffset cluster + 3 then
        ((vol.fatByte disk (vol.fatByteOffset cluster + 3) &&& 0xf0) |||
          ((value >>> 24) &&& 0x0f)) % 256
      else if i = vol.fatByteOffset cluster + 2 then ((value >>> 16) &&& 0xff) % 256
      else if i = vol.fatByteOffset cluster + 1 then ((value >>> 8) &&& 0xff) % 256
      else if i = vol.fatByteOffset cluster then (value &&& 0xff) % 256
      else vol.fatByte disk i) :
    vol.fatBit disk' = BitTable.put (vol.fatBit disk) vol.fatBits 28 cluster value := by
  have position : vol.fatByteOffset cluster = cluster * 32 / 8 := by rw [fatByteOffset, width]
  refine put_of_bytes fun i j low => ?_
  rw [bytes, width]
  split_ifs with fourth _ third _ second _ first
  all_goals try first | rfl | omega
  · have bit : 8 * i + j - cluster * 32 = 24 + j := by omega
    have within : j < 4 := by omega
    have lower : ¬4 ≤ j := by omega
    simp [testBit_byte, testBit_0xf, testBit_0xf0, low, within, lower, bit]
  · have apart : ¬j < 4 := by omega
    have upper : 4 ≤ j := by omega
    simp [testBit_byte, testBit_0xf, testBit_0xf0, low, upper, apart, fourth]
  · have bit : 8 * i + j - cluster * 32 = 16 + j := by omega
    simp [testBit_byte, testBit_0xff, low, bit]
  · have bit : 8 * i + j - cluster * 32 = 8 + j := by omega
    simp [testBit_byte, testBit_0xff, low, bit]
  · have bit : 8 * i + j - cluster * 32 = j := by omega
    simp [testBit_byte, testBit_0xff, low, bit]

/-- What a write of one entry does to the disk: the bits of the entry, in the
sectors of the entry. -/
structure Writes (vol : FATVolume) (cluster value : Nat) (disk disk' : Disk) : Prop where
  bits : vol.fatBit disk' = BitTable.put (vol.fatBit disk) vol.fatBits vol.entryWidth cluster value
  others : ∀ s, s ≠ vol.entrySector cluster →
    (vol.Straddles cluster → s ≠ vol.entrySector cluster + 1) → disk' s = disk s

theorem Disk.set_of_ne {s sector : Nat} (other : s ≠ sector) (offset byte : Nat) :
    disk.set sector offset byte s = disk s := by
  funext i
  simp [Disk.set, other]

theorem Shows.place (good : it.Shows vol) {i : Nat}
    (inside : vol.entryOffset it.currentCluster + i < vol.bytesPerSector) :
    it.currentSector = vol.fatSector (vol.fatByteOffset it.currentCluster + i) ∧
      it.offsetInSector + i = (vol.fatByteOffset it.currentCluster + i) % vol.bytesPerSector := by
  obtain ⟨sector, offset⟩ := entry_place inside
  rw [sector, offset, good.sector, good.offset]
  exact ⟨rfl, rfl⟩

theorem Shows.fatByte_set (good : it.Shows vol) (disk : Disk) {j : Nat}
    (inside : vol.entryOffset it.currentCluster + j < vol.bytesPerSector) (byte i : Nat) :
    vol.fatByte (disk.set it.currentSector (it.offsetInSector + j) byte) i =
      if i = vol.fatByteOffset it.currentCluster + j then byte % 256 else vol.fatByte disk i := by
  obtain ⟨sector, offset⟩ := good.place inside
  rw [offset, sector, FATVolume.fatByte_set]

section

variable (accepted : vol.Accepted) (good : it.Shows vol)

include accepted good

theorem writeEntry_twelve (width : vol.fatBits = 12)
    (value : Nat) : ∃ disk', it.writeEntry vol value disk = (none, disk') ∧
      Writes vol it.currentCluster value disk disk' := by
  have positive := accepted.bytesPerSector_pos
  have bits : vol.entryWidth = 12 := by
    rw [entryWidth, width]
    rfl
  have low : vol.entryOffset it.currentCluster + 0 < vol.bytesPerSector :=
    mod_lt _ positive
  have byte0 := good.byte disk low
  -- The place of the second byte, in this sector or the next.
  obtain ⟨sector, offset, place, offsetPlace, near, result⟩ : ∃ sector offset,
      sector = vol.fatSector (vol.fatByteOffset it.currentCluster + 1) ∧
      offset = (vol.fatByteOffset it.currentCluster + 1) % vol.bytesPerSector ∧
      (sector = it.currentSector ∨
        (vol.Straddles it.currentCluster ∧ sector = it.currentSector + 1)) ∧
      it.writeEntry vol value disk = (none, (disk.set it.currentSector it.offsetInSector
          (((disk it.currentSector it.offsetInSector).toNat &&&
              (if it.currentCluster % 2 = 1 then 0xf else 0xf000)) |||
            (if it.currentCluster % 2 = 1 then (value &&& 0xfff) <<< 4 else value &&& 0xfff))).set
          sector offset
          (((disk sector offset).toNat &&&
              ((if it.currentCluster % 2 = 1 then 0xf else 0xf000) >>> 8)) |||
            ((if it.currentCluster % 2 = 1 then (value &&& 0xfff) <<< 4 else value &&& 0xfff) >>>
              8))) := by
    by_cases straddles : vol.Straddles it.currentCluster
    · have last : it.offsetInSector = vol.bytesPerSector - 1 := good.offset.trans straddles
      obtain ⟨place, offsetPlace⟩ := straddling_place positive straddles
      refine ⟨it.currentSector + 1, 0, by rw [place, good.sector], offsetPlace.symm,
        .inr ⟨straddles, rfl⟩, ?_⟩
      simp [writeEntry, good.first, width, last, good.second straddles, Disk.set]
    · have inside := inside_of_not_straddles accepted straddles
      have notLast : it.offsetInSector ≠ vol.bytesPerSector - 1 := by
        rw [good.offset]
        exact straddles
      obtain ⟨place, offsetPlace⟩ := good.place (i := 1) (by split at inside <;> omega)
      refine ⟨it.currentSector, it.offsetInSector + 1, place, offsetPlace, .inl rfl, ?_⟩
      simp [writeEntry, good.first, width, notLast]
  have byte1 : (disk sector offset).toNat =
      vol.fatByte disk (vol.fatByteOffset it.currentCluster + 1) := by
    rw [place, offsetPlace]
    rfl
  have set0 := good.fatByte_set disk low
  simp only [add_zero] at byte0 set0
  refine ⟨_, result, ?_, ?_⟩
  · rw [bits, byte0, byte1, place, offsetPlace]
    by_cases odd : it.currentCluster % 2 = 1
    · refine put_odd width odd fun i => ?_
      simp only [odd, if_true]
      rw [FATVolume.fatByte_set, set0]
    · refine put_even width odd fun i => ?_
      simp only [odd, if_false]
      rw [FATVolume.fatByte_set, set0]
  · intro s other other'
    rw [Disk.set_of_ne, Disk.set_of_ne]
    · exact good.sector ▸ other
    · rcases near with rfl | ⟨straddles, rfl⟩
      · exact good.sector ▸ other
      · exact good.sector ▸ other' straddles

theorem writeEntry_sixteen
    (width : vol.fatBits = 16) (value : Nat) : ∃ disk', it.writeEntry vol value disk = (none, disk') ∧
      Writes vol it.currentCluster value disk disk' := by
  have bits : vol.entryWidth = 16 := by
    rw [entryWidth, width]
    rfl
  have whole : ¬vol.Straddles it.currentCluster := by
    intro straddles
    have := accepted.fatBits_of_straddles straddles
    omega
  have inside := inside_of_not_straddles accepted whole
  simp only [width, reduceEqDiff, if_false] at inside
  have set0 (disk : Disk) := good.fatByte_set disk (j := 0) (by omega)
  have set1 (disk : Disk) := good.fatByte_set disk inside
  simp only [add_zero] at set0
  refine ⟨(disk.set it.currentSector it.offsetInSector (value &&& 0xff)).set it.currentSector
    (it.offsetInSector + 1) ((value >>> 8) &&& 0xff), ?_, ?_, ?_⟩
  · simp [writeEntry, good.first, width]
  · rw [bits]
    refine put_sixteen width fun i => ?_
    rw [set1, set0]
  · intro s other _
    rw [Disk.set_of_ne, Disk.set_of_ne]
    · exact good.sector ▸ other
    · exact good.sector ▸ other

theorem writeEntry_thirty_two
    (width : vol.fatBits = 32) (fits : value < 2 ^ 28) :
    ∃ disk', it.writeEntry vol value disk = (none, disk') ∧
      Writes vol it.currentCluster value disk disk' := by
  have bits : vol.entryWidth = 28 := by
    rw [entryWidth, width]
    rfl
  have whole : ¬vol.Straddles it.currentCluster := by
    intro straddles
    have := accepted.fatBits_of_straddles straddles
    omega
  have inside := inside_of_not_straddles accepted whole
  simp only [width, if_true] at inside
  have reserved : value &&& 0xf0000000 = 0 := by
    apply eq_of_testBit_eq
    intro j
    have mask : (0xf0000000 : Nat) = 0xf <<< 28 := rfl
    rw [testBit_and, mask, testBit_shiftLeft, zero_testBit]
    by_cases above : 28 ≤ j
    · have large : 2 ^ 28 ≤ 2 ^ j := Nat.pow_le_pow_right (by decide) above
      rw [Nat.testBit_lt_two_pow (by omega), Bool.false_and]
    · simp [above]
  have byte3 := good.byte disk inside
  have set0 (disk : Disk) := good.fatByte_set disk (j := 0) (by omega)
  have set1 (disk : Disk) := good.fatByte_set disk (j := 1) (by omega)
  have set2 (disk : Disk) := good.fatByte_set disk (j := 2) (by omega)
  have set3 (disk : Disk) := good.fatByte_set disk inside
  simp only [add_zero] at set0
  refine ⟨(((disk.set it.currentSector it.offsetInSector (value &&& 0xff)).set it.currentSector
    (it.offsetInSector + 1) ((value >>> 8) &&& 0xff)).set it.currentSector
    (it.offsetInSector + 2) ((value >>> 16) &&& 0xff)).set it.currentSector
    (it.offsetInSector + 3) (((disk it.currentSector (it.offsetInSector + 3)).toNat &&& 0xf0) |||
      ((value >>> 24) &&& 0x0f)), ?_, ?_, ?_⟩
  · simp [writeEntry, good.first, width, reserved]
  · rw [bits]
    refine put_thirty_two width fun i => ?_
    rw [set3, set2, set1, set0, byte3]
  · intro s other _
    rw [Disk.set_of_ne, Disk.set_of_ne, Disk.set_of_ne, Disk.set_of_ne]
    all_goals exact good.sector ▸ other

theorem writeEntry_spec
    (fits : vol.fatBits = 32 → value < 2 ^ 28) (disk : Disk) : ∃ disk', it.writeEntry vol value disk = (none, disk') ∧
      Writes vol it.currentCluster value disk disk' := by
  rcases accepted.fatBits_cases with width | width | width
  · exact writeEntry_twelve accepted good width value
  · exact writeEntry_sixteen accepted good width value
  · exact writeEntry_thirty_two accepted good width (fits width)

end

end FATTableIterator

end PadOS.Fat
