import PadOS.Core.LocalTime
import Mathlib.Algebra.Order.BigOperators.Group.Finset

/-! # Universal time

A zone that is lawful in all the years after 1970. Days are counted through years and months, whose
lengths are those of blocks that follow each other.
-/

namespace PadOS.LocalTime

/-! ## Blocks -/

/-- Where the block `k` begins. -/
def blockStart (length : Nat → Nat) (k : Nat) : Nat := ∑ i ∈ Finset.range k, length i

/-- The block of a place that lies `left` behind the start of the block `k`, and the place in it. -/
def locate (length : Nat → Nat) : Nat → Nat → Nat → Nat × Nat
  | 0, k, left => (k, left)
  | fuel + 1, k, left =>
    if left < length k then (k, left) else locate length fuel (k + 1) (left - length k)

section Blocks

variable {length : Nat → Nat} {k l x r : Nat}

theorem blockStart_zero (length : Nat → Nat) : blockStart length 0 = 0 := rfl

theorem blockStart_succ (length : Nat → Nat) (k : Nat) :
    blockStart length (k + 1) = blockStart length k + length k :=
  Finset.sum_range_succ ..

theorem blockStart_mono (le : k ≤ l) : blockStart length k ≤ blockStart length l :=
  Finset.sum_le_sum_of_subset (Finset.range_subset_range.mpr le)

theorem block_lt (inside : r < length k) (lt : k < l) :
    blockStart length k + r < blockStart length l := by
  have next := blockStart_succ length k
  have le := @blockStart_mono length _ _ (show k + 1 ≤ l from lt)
  omega

theorem le_blockStart (positive : ∀ i, 0 < length i) (k : Nat) : k ≤ blockStart length k := by
  induction k with
  | zero => exact zero_le
  | succ k ih =>
    have some' := positive k
    rw [blockStart_succ]
    omega

theorem locate_spec (positive : ∀ i, 0 < length i) {fuel left : Nat} (enough : left < fuel)
    (k : Nat) : (locate length fuel k left).2 < length (locate length fuel k left).1 ∧
      blockStart length (locate length fuel k left).1 + (locate length fuel k left).2 =
        blockStart length k + left := by
  induction fuel generalizing k left with
  | zero => omega
  | succ fuel ih =>
    have some' := positive k
    unfold locate
    split
    · rename_i inside
      exact ⟨inside, rfl⟩
    · have found := @ih (left - length k) (by omega) (k + 1)
      rw [blockStart_succ] at found
      exact ⟨found.1, by omega⟩

end Blocks

/-! ## Days -/

/-- The days of the years from 1970 on. -/
def yearLength (k : Nat) : Nat := if isLeap (70 + k) then 366 else 365

def monthLength (year : Int) (mon : Nat) : Nat := (daysInMonth year mon).toNat

/-- The days of a year before a date. -/
def Tm.dayOfYear (tm : Tm) : Nat :=
  blockStart (monthLength tm.year) tm.mon.toNat + (tm.mday - 1).toNat

/-- The days since the epoch. -/
def Tm.day (tm : Tm) : Nat := blockStart yearLength (tm.year - 70).toNat + tm.dayOfYear

def universal : Zone where
  localtime s :=
    if s < 0 then none
    else
      let day := (s / 86400).toNat
      let year := locate yearLength (day + 1) 0 day
      let mon := locate (monthLength (70 + year.1)) (year.2 + 1) 0 year.2
      some
        { sec := s % 60
          min := s / 60 % 60
          hour := s / 3600 % 24
          mday := mon.2 + 1
          mon := mon.1
          year := 70 + year.1 }
  mktime tm := ((tm.day * 24 + tm.hour) * 60 + tm.min) * 60 + tm.sec

variable {a b tm : Tm} {lo hi s t : Int}

theorem yearLength_pos (k : Nat) : 0 < yearLength k := by
  unfold yearLength
  split
  · decide
  · decide

theorem monthLength_pos (year : Int) (mon : Nat) : 0 < monthLength year mon := by
  have least := le_daysInMonth year mon
  unfold monthLength
  omega

theorem monthLength_sum (k : Nat) : blockStart (monthLength (70 + k)) 12 = yearLength k := by
  unfold yearLength
  simp only [blockStart, Finset.sum_range_succ, Finset.sum_range_zero, monthLength, daysInMonth]
  cases isLeap (70 + k) with
  | true => decide
  | false => decide

theorem Tm.Valid.dayOfYear_lt (valid : tm.Valid) (from1970 : 70 ≤ tm.year) :
    tm.dayOfYear < yearLength (tm.year - 70).toNat := by
  have year : 70 + ((tm.year - 70).toNat : Int) = tm.year := by omega
  have mon : (tm.mon.toNat : Int) = tm.mon := by
    have := valid.mon
    omega
  have mday := valid.mday
  have before := valid.mon
  rw [← monthLength_sum, year]
  apply block_lt
  · rw [monthLength, mon]
    omega
  · omega

theorem day_lt (left : a.Valid) (right : b.Valid) (from1970 : 70 ≤ a.year)
    (lt : a.date < b.date) : a.day < b.day := by
  have years : a.year ≤ b.year := by
    rw [← Tm.date_div_year left, ← Tm.date_div_year right]
    omega
  have inside := left.dayOfYear_lt from1970
  rcases Int.lt_or_eq_of_le years with earlier | same
  · have before := @block_lt yearLength _ _ _ inside
      (show (a.year - 70).toNat < (b.year - 70).toNat by omega)
    unfold Tm.day
    omega
  · obtain ⟨mon, mon'⟩ := left.mon
    obtain ⟨mon₂, mon₂'⟩ := right.mon
    obtain ⟨mday, mday'⟩ := left.mday
    obtain ⟨mday₂, _⟩ := right.mday
    have atMost := left.mday_le
    have atMost' := right.mday_le
    unfold Tm.day Tm.dayOfYear
    rw [same]
    unfold Tm.date at lt
    rw [same] at lt
    rcases Int.lt_or_le a.mon b.mon with earlier | later
    · have cast : (a.mon.toNat : Int) = a.mon := by omega
      have days : (a.mday - 1).toNat < monthLength b.year a.mon.toNat := by
        rw [monthLength, cast, ← same]
        omega
      have before := block_lt days (show a.mon.toNat < b.mon.toNat by omega)
      omega
    · have equal : a.mon = b.mon := by omega
      rw [equal]
      omega

theorem universal_lt (left : a.Valid) (right : b.Valid) (from1970 : 70 ≤ a.year)
    (lt : a.ordinal < b.ordinal) : universal.mktime a < universal.mktime b := by
  have dates : a.date ≤ b.date := by
    rw [← Tm.ordinal_div_day left, ← Tm.ordinal_div_day right]
    omega
  obtain ⟨⟨_, _⟩, ⟨_, _⟩, ⟨_, _⟩, _, _⟩ := id left
  obtain ⟨⟨_, _⟩, ⟨_, _⟩, ⟨_, _⟩, _, _⟩ := id right
  show ((a.day * 24 + a.hour) * 60 + a.min) * 60 + a.sec <
    ((b.day * 24 + b.hour) * 60 + b.min) * 60 + b.sec
  rcases Int.lt_or_eq_of_le dates with earlier | same
  · have days := day_lt left right from1970 earlier
    omega
  · have year : a.year = b.year := by
      rw [← Tm.date_div_year left, ← Tm.date_div_year right, same]
    obtain ⟨_, _, _, ⟨_, _⟩, ⟨_, _⟩⟩ := id left
    obtain ⟨_, _, _, ⟨_, _⟩, ⟨_, _⟩⟩ := id right
    have atMost := left.mday_le
    have atMost' := right.mday_le
    have days : a.day = b.day := by
      unfold Tm.date at same
      rw [year] at same
      have mon : a.mon = b.mon := by omega
      have mday : a.mday = b.mday := by omega
      unfold Tm.day Tm.dayOfYear
      rw [year, mon, mday]
    unfold Tm.ordinal at lt
    omega

theorem localtime_some (found : universal.localtime s = some tm) :
    0 ≤ s ∧ 70 ≤ tm.year ∧ tm.Valid ∧ universal.mktime tm = s := by
  simp only [universal] at found ⊢
  split at found
  · cases found
  · rename_i nonneg
    generalize isDay : (s / 86400).toNat = day at found
    have years := locate_spec yearLength_pos (Nat.lt_succ_self day) 0
    generalize locate yearLength (day + 1) 0 day = year at found years
    obtain ⟨year, left⟩ := year
    have months := locate_spec (monthLength_pos (70 + year)) (Nat.lt_succ_self left) 0
    generalize locate (monthLength (70 + year)) (left + 1) 0 left = mon at found months
    obtain ⟨mon, mday⟩ := mon
    rw [blockStart_zero, zero_add] at years months
    obtain ⟨inYear, isDay'⟩ := years
    obtain ⟨inMonth, isLeft⟩ := months
    dsimp only at inYear isDay' inMonth isLeft
    have small : mon < 12 := by
      by_contra beyond
      have reached := @blockStart_mono (monthLength (70 + year)) _ _ (not_lt.mp beyond)
      rw [monthLength_sum] at reached
      omega
    cases found
    have days : Tm.day { sec := s % 60, min := s / 60 % 60, hour := s / 3600 % 24
                         mday := mday + 1, mon := mon, year := 70 + year } = day := by
      simp only [Tm.day, Tm.dayOfYear, Int.toNat_natCast, Int.add_sub_cancel,
        show ((70 + year : Int) - 70).toNat = year by omega]
      omega
    have length : monthLength (70 + year) mon = (daysInMonth (70 + year) mon).toNat := rfl
    refine ⟨by omega, by dsimp only; omega, ⟨?_, ?_, ?_, ?_, ?_⟩, ?_⟩
    · dsimp only
      omega
    · dsimp only
      omega
    · dsimp only
      omega
    · dsimp only
      omega
    · dsimp only
      omega
    · rw [days]
      dsimp only
      omega

theorem universal_nonneg (valid : tm.Valid) : 0 ≤ universal.mktime tm := by
  obtain ⟨⟨_, _⟩, ⟨_, _⟩, ⟨_, _⟩, _, _⟩ := valid
  show 0 ≤ ((tm.day * 24 + tm.hour) * 60 + tm.min) * 60 + tm.sec
  omega

theorem universal_answers (nonneg : 0 ≤ s) : ∃ found, universal.localtime s = some found :=
  ⟨_, if_neg (Int.not_lt.mpr nonneg)⟩

theorem universal_lawful (late : 70 < lo) : universal.Lawful lo hi where
  valid _ _ found := (localtime_some found).2.2.1
  ordered s t a b le found found' := by
    obtain ⟨_, _, valid, here⟩ := localtime_some found
    obtain ⟨_, from1970, valid', here'⟩ := localtime_some found'
    by_contra later
    have earlier := universal_lt valid' valid from1970 (Int.not_le.mp later)
    omega
  mktime_localtime _ _ found _ := (localtime_some found).2.2.2
  localtime_mktime tm valid inside := by
    obtain ⟨found, answer⟩ := universal_answers (universal_nonneg valid)
    obtain ⟨_, from1970, valid', here⟩ := localtime_some answer
    have lower := inside.1
    have same : found = tm := by
      rcases Int.lt_trichotomy found.ordinal tm.ordinal with earlier | same | later
      · have lt := universal_lt valid' valid from1970 earlier
        omega
      · exact Tm.ordinal_inj valid' valid same
      · have lt := universal_lt valid valid' (by omega) later
        omega
    rw [answer, same]
  epoch tm valid inside := by
    obtain ⟨lower, _⟩ := inside
    have some' := le_blockStart yearLength_pos (tm.year - 70).toNat
    obtain ⟨⟨_, _⟩, ⟨_, _⟩, ⟨_, _⟩, _, _⟩ := valid
    show 0 < ((tm.day * 24 + tm.hour) * 60 + tm.min) * 60 + tm.sec
    unfold Tm.day
    omega
  answers _ _ nonneg _ _ _ := universal_answers nonneg

end PadOS.LocalTime
