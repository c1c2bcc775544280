import PadOS.Core.LocalTime
import PadOS.Fat.StoredEntry

/-! # The times of an entry

How the times of an inode are rounded, packed into an entry and loaded from it. Nothing here
overflows: the years of FAT end long before the nanoseconds do.
-/

namespace PadOS.Fat

open LocalTime

/-! ## TimeValNanos -/

structure Timespec where
  sec : Int
  nsec : Int

/-! A `TimeValNanos` is the `Int` of its nanoseconds since the epoch. -/

namespace TimeValNanos

def ticksPerSecond : Int := 1000000000
def ticksPerMillisecond : Int := 1000000

def fromSeconds (value : Int) : Int := value * ticksPerSecond
def fromMilliseconds (value : Int) : Int := value * ticksPerMillisecond

/-- The division rounds to zero. -/
def asSecondsI (t : Int) : Int := Int.tdiv t ticksPerSecond

def asTimespec (t : Int) : Timespec where
  sec := Int.tdiv t ticksPerSecond
  nsec := Int.tmod t 1000000000

end TimeValNanos

open TimeValNanos

/-! ## Packed times -/

def u32 (value : Int) : Nat := (value % 2 ^ 32).toNat

def shl (value : Int) (bits : Nat) : Nat := (u32 value <<< bits) % 2 ^ 32

/-- The `timeInfo` of `FATTimeToUnixTime`. -/
def fatTimeInfo (fatTime : Nat) : Tm where
  sec := ((fatTime &&& 0x1f) * 2 : Nat)
  min := ((fatTime >>> 5) &&& 0x3f : Nat)
  hour := ((fatTime >>> 11) &&& 0x1f : Nat)
  mday := ((fatTime >>> 16) &&& 0x1f : Nat)
  mon := ((fatTime >>> 21) &&& 0x0f : Nat) - 1
  year := ((fatTime >>> 25) &&& 0x7f : Nat) + 80

/-- The fields that `UnixTimeToFATTime` puts together. -/
def fatTimeOf (timeInfo : Tm) : Nat :=
  u32 (Int.tdiv timeInfo.sec 2) ||| shl timeInfo.min 5 ||| shl timeInfo.hour 11 |||
    shl timeInfo.mday 16 ||| shl (timeInfo.mon + 1) 21 ||| shl (timeInfo.year - 80) 25

def minimumFATTime : Nat := 1 <<< 21 ||| 1 <<< 16

def maximumFATTime : Nat :=
  127 <<< 25 ||| 12 <<< 21 ||| 31 <<< 16 ||| 23 <<< 11 ||| 59 <<< 5 ||| 29

variable (zone : Zone)

def fatTimeToUnixTime (fatTime : Nat) : Int := zone.mktime (fatTimeInfo fatTime)

def fatTimeToTimeVal (fatTime createTimeFine : Nat) : Int :=
  fromSeconds (fatTimeToUnixTime zone fatTime) +
    fromMilliseconds ((if 199 < createTimeFine then 199 else createTimeFine : Nat) * 10)

def unixTimeToFATTime (unixTime : Int) : Nat :=
  match zone.localtime unixTime with
  | none => if unixTime < 0 then minimumFATTime else maximumFATTime
  | some timeInfo =>
    if timeInfo.year < 80 then minimumFATTime
    else if 207 < timeInfo.year then maximumFATTime
    else fatTimeOf timeInfo

def timeValToFATCreateTimeFine (time : Int) : Nat :=
  let timeSpec := asTimespec time
  let createTimeFine := u32 (timeSpec.sec % 2 * 100 + Int.tdiv timeSpec.nsec 10000000)
  if 199 < createTimeFine then 199 else createTimeFine

def roundTimeToFATCreateTime (time : Int) : Int :=
  fatTimeToTimeVal zone (unixTimeToFATTime zone (asSecondsI time)) (timeValToFATCreateTimeFine time)

def roundTimeToFATAccessTime (time : Int) : Int :=
  fatTimeToTimeVal zone (unixTimeToFATTime zone (asSecondsI time) &&& 0xffff0000) 0

def roundTimeToFATModificationTime (time : Int) : Int :=
  fatTimeToTimeVal zone (unixTimeToFATTime zone (asSecondsI time)) 0

/-! ## The times of an inode -/

/-- `m_CTime`, `m_ATime` and `m_MTime`. -/
structure InodeTimes where
  cTime : Int
  aTime : Int
  mTime : Int

/-- What `Write` and `SetFATDirectoryEntryTimestamps` put into an entry. -/
def packTimes (times : InodeTimes) : FATTimes :=
  let fatCreateTime := unixTimeToFATTime zone (asSecondsI times.cTime)
  let fatAccessTime := unixTimeToFATTime zone (asSecondsI times.aTime)
  let fatModificationTime := unixTimeToFATTime zone (asSecondsI times.mTime)
  { createTimeFine := timeValToFATCreateTimeFine times.cTime
    createTime := fatCreateTime &&& 0xffff
    createDate := fatCreateTime >>> 16
    accessDate := fatAccessTime >>> 16
    modificationTime := fatModificationTime &&& 0xffff
    modificationDate := fatModificationTime >>> 16 }

def fatTimeToTimeValOrFallback (fatTime createTimeFine : Nat) (fallbackTime : Int) :
    Int :=
  if fatTime &&& 0xffff0000 = 0 then fallbackTime else fatTimeToTimeVal zone fatTime createTimeFine

/-- What `LoadInode` takes from an entry. -/
def loadTimes (info : FATDirectoryEntryInfo) : InodeTimes :=
  let modificationTime := fatTimeToTimeValOrFallback zone info.fatModificationTime 0 0
  { cTime := fatTimeToTimeValOrFallback zone info.fatCreateTime info.fatCreateTimeFine
      modificationTime
    aTime := fatTimeToTimeValOrFallback zone info.fatAccessTime 0 modificationTime
    mTime := modificationTime }

inductive TimeKind
  | create
  | access
  | modification

def InodeTimes.get (times : InodeTimes) : TimeKind → Int
  | .create => times.cTime
  | .access => times.aTime
  | .modification => times.mTime

def roundTime : TimeKind → Int → Int
  | .create => roundTimeToFATCreateTime zone
  | .access => roundTimeToFATAccessTime zone
  | .modification => roundTimeToFATModificationTime zone

/-! ## Fields -/

variable {zone : Zone} {tm : Tm}

theorem or_shl {value field bits : Nat} (small : value < 2 ^ bits)
    (fits : field <<< bits < 2 ^ 32) :
    value ||| (field <<< bits) % 2 ^ 32 = value + field * 2 ^ bits := by
  rw [Nat.mod_eq_of_lt fits, Nat.or_comm, ← Nat.shiftLeft_add_eq_or_of_lt small, Nat.shiftLeft_eq,
    add_comm]

theorem or_fields {sec min hour mday mon year : Nat} (sec_lt : sec < 32) (min_lt : min < 64)
    (hour_lt : hour < 32) (mday_lt : mday < 32) (mon_lt : mon < 16) (year_lt : year < 128) :
    sec ||| (min <<< 5) % 2 ^ 32 ||| (hour <<< 11) % 2 ^ 32 ||| (mday <<< 16) % 2 ^ 32 |||
        (mon <<< 21) % 2 ^ 32 ||| (year <<< 25) % 2 ^ 32 =
      sec + min * 2 ^ 5 + hour * 2 ^ 11 + mday * 2 ^ 16 + mon * 2 ^ 21 + year * 2 ^ 25 := by
  have shifted (field bits : Nat) : field <<< bits = field * 2 ^ bits := Nat.shiftLeft_eq ..
  rw [@or_shl sec min 5 (by omega) (by rw [shifted]; omega),
    @or_shl _ hour 11 (by omega) (by rw [shifted]; omega),
    @or_shl _ mday 16 (by omega) (by rw [shifted]; omega),
    @or_shl _ mon 21 (by omega) (by rw [shifted]; omega),
    @or_shl _ year 25 (by omega) (by rw [shifted]; omega)]

theorem u32_eq {value : Int} (nonneg : 0 ≤ value) (small : value < 2 ^ 32) :
    (u32 value : Int) = value := by
  unfold u32
  omega

/-- The fields of a local time in the years of FAT, as they are packed. -/
structure Fields (tm : Tm) (sec min hour mday mon year : Nat) : Prop where
  secs : tm.sec / 2 = sec ∧ sec < 32
  mins : tm.min = min ∧ min < 64
  hours : tm.hour = hour ∧ hour < 32
  mdays : tm.mday = mday ∧ 1 ≤ mday ∧ mday < 32
  mons : tm.mon + 1 = mon ∧ 1 ≤ mon ∧ mon < 16
  years : tm.year - 80 = year ∧ year < 128
  packed : fatTimeOf tm =
    sec + min * 2 ^ 5 + hour * 2 ^ 11 + mday * 2 ^ 16 + mon * 2 ^ 21 + year * 2 ^ 25

theorem exists_fields (valid : tm.Valid) (inside : tm.Within 80 207) :
    ∃ sec min hour mday mon year, Fields tm sec min hour mday mon year := by
  have atMost := valid.mday_le
  obtain ⟨⟨_, _⟩, ⟨_, _⟩, ⟨_, _⟩, ⟨_, _⟩, ⟨_, _⟩⟩ := valid
  obtain ⟨_, _⟩ := inside
  have half : Int.tdiv tm.sec 2 = tm.sec / 2 := Int.tdiv_eq_ediv_of_nonneg (by omega)
  have secs := @u32_eq (tm.sec / 2) (by omega) (by omega)
  have mins := @u32_eq tm.min (by omega) (by omega)
  have hours := @u32_eq tm.hour (by omega) (by omega)
  have mdays := @u32_eq tm.mday (by omega) (by omega)
  have mons := @u32_eq (tm.mon + 1) (by omega) (by omega)
  have years := @u32_eq (tm.year - 80) (by omega) (by omega)
  refine ⟨u32 (tm.sec / 2), u32 tm.min, u32 tm.hour, u32 tm.mday, u32 (tm.mon + 1),
    u32 (tm.year - 80), ⟨by omega, by omega⟩, ⟨by omega, by omega⟩, ⟨by omega, by omega⟩,
    ⟨by omega, by omega, by omega⟩, ⟨by omega, by omega, by omega⟩, ⟨by omega, by omega⟩, ?_⟩
  rw [fatTimeOf, half]
  exact or_fields (by omega) (by omega) (by omega) (by omega) (by omega) (by omega)

/-- The local time on the grid of two seconds. -/
def evenSecond (tm : Tm) : Tm := { tm with sec := tm.sec / 2 * 2 }

def midnight (tm : Tm) : Tm := { tm with sec := 0, min := 0, hour := 0 }

theorem fatTimeInfo_eq {fatTime sec min hour mday mon year : Nat} (sec_lt : sec < 32)
    (min_lt : min < 64) (hour_lt : hour < 32) (mday_lt : mday < 32) (mon_lt : mon < 16)
    (year_lt : year < 128) (packed : fatTime =
      sec + min * 2 ^ 5 + hour * 2 ^ 11 + mday * 2 ^ 16 + mon * 2 ^ 21 + year * 2 ^ 25) :
    fatTimeInfo fatTime = ⟨sec * 2, min, hour, mday, mon - 1, year + 80⟩ := by
  have low (value bits : Nat) : value &&& 2 ^ bits - 1 = value % 2 ^ bits :=
    Nat.and_two_pow_sub_one_eq_mod ..
  have secs := low fatTime 5
  have mins := low (fatTime >>> 5) 6
  have hours := low (fatTime >>> 11) 5
  have mdays := low (fatTime >>> 16) 5
  have mons := low (fatTime >>> 21) 4
  have years := low (fatTime >>> 25) 7
  simp only [Nat.shiftRight_eq_div_pow, Nat.reducePow, Nat.reduceSub] at *
  unfold fatTimeInfo
  simp only [Nat.shiftRight_eq_div_pow, Nat.reducePow, secs, mins, hours, mdays, mons, years,
    Tm.mk.injEq]
  omega

theorem fatTimeInfo_fatTimeOf (valid : tm.Valid) (inside : tm.Within 80 207) :
    fatTimeInfo (fatTimeOf tm) = evenSecond tm := by
  obtain ⟨sec, min, hour, mday, mon, year, fields⟩ := exists_fields valid inside
  rw [fatTimeInfo_eq fields.secs.2 fields.mins.2 fields.hours.2 fields.mdays.2.2 fields.mons.2.2
    fields.years.2 fields.packed]
  obtain ⟨⟨secs, _⟩, ⟨mins, _⟩, ⟨hours, _⟩, ⟨mdays, _⟩, ⟨mons, _⟩, ⟨years, _⟩, _⟩ := fields
  cases tm
  simp only [evenSecond, Tm.mk.injEq] at *
  omega

theorem land_low (fatTime : Nat) : fatTime &&& 0xffff = fatTime % 2 ^ 16 :=
  Nat.and_two_pow_sub_one_eq_mod fatTime 16

theorem land_high {fatTime : Nat} (small : fatTime < 2 ^ 32) :
    fatTime &&& 0xffff0000 = fatTime / 2 ^ 16 * 2 ^ 16 := by
  have apart : 0xffff0000 = (2 ^ 16 - 1) <<< 16 := by decide
  rw [← Nat.shiftRight_eq_div_pow, ← Nat.shiftLeft_eq, apart]
  apply Nat.eq_of_testBit_eq
  intro i
  simp only [Nat.testBit_and, Nat.testBit_shiftLeft, Nat.testBit_shiftRight,
    Nat.testBit_two_pow_sub_one]
  by_cases high : 16 ≤ i
  · by_cases inside : i < 32
    · have bits : i - 16 < 16 := by omega
      simp [high, bits, Nat.add_sub_cancel' high]
    · have beyond : fatTime.testBit i = false :=
        Nat.testBit_lt_two_pow (Nat.lt_of_lt_of_le small (Nat.pow_le_pow_right (by decide) (by omega)))
      simp [high, beyond, Nat.add_sub_cancel' high]
  · simp [high]

section

variable (valid : tm.Valid) (inside : tm.Within 80 207)

include valid inside

theorem fatTimeOf_lt : fatTimeOf tm < 2 ^ 32 := by
  obtain ⟨sec, min, hour, mday, mon, year, fields⟩ := exists_fields valid inside
  obtain ⟨⟨_, _⟩, ⟨_, _⟩, ⟨_, _⟩, ⟨_, _, _⟩, ⟨_, _, _⟩, ⟨_, _⟩, packed⟩ := fields
  omega

theorem fatTimeInfo_date :
    fatTimeInfo (fatTimeOf tm &&& 0xffff0000) = midnight tm := by
  rw [land_high (fatTimeOf_lt valid inside)]
  obtain ⟨sec, min, hour, mday, mon, year, fields⟩ := exists_fields valid inside
  obtain ⟨⟨_, _⟩, ⟨_, _⟩, ⟨_, _⟩, ⟨mdays, _, _⟩, ⟨mons, _, _⟩, ⟨years, _⟩, packed⟩ := fields
  rw [@fatTimeInfo_eq _ 0 0 0 mday mon year (by decide) (by decide) (by decide) (by omega) (by omega)
    (by omega) (by omega)]
  cases tm
  simp only [midnight, Tm.mk.injEq] at *
  omega

theorem fatTimeOf_date_ne :
    fatTimeOf tm / 2 ^ 16 * 2 ^ 16 ≠ 0 := by
  obtain ⟨sec, min, hour, mday, mon, year, fields⟩ := exists_fields valid inside
  obtain ⟨⟨_, _⟩, ⟨_, _⟩, ⟨_, _⟩, ⟨_, _, _⟩, ⟨_, _, _⟩, ⟨_, _⟩, packed⟩ := fields
  omega

end

theorem unixTimeToFATTime_eq (zone : Zone) (s : Int) :
    unixTimeToFATTime zone s = fatTimeOf (zone.clamped 80 207 s) := by
  have lowest : minimumFATTime = fatTimeOf (.first 80) := by decide
  have highest : maximumFATTime = fatTimeOf (.last 207) := by decide
  unfold unixTimeToFATTime Zone.clamped
  rw [lowest, highest]
  cases zone.localtime s with
  | none => exact (apply_ite fatTimeOf ..).symm
  | some tm =>
    dsimp only
    rw [apply_ite fatTimeOf, apply_ite fatTimeOf]

end PadOS.Fat
