import PadOS.Core.UniversalTime
import PadOS.Fat.Timestamps

/-! # Rounded times

A rounded time stays what it is: rounded again, and packed into an entry and loaded from it. For a
creation time that holds only where its hundredths belong to the second that is packed.
-/

namespace PadOS.Fat

open LocalTime TimeValNanos Int

variable {zone : Zone} {tm : Tm}

/-! ## Rounding -/

/-- The local time on the grid that a time is kept on. -/
def onGrid : TimeKind → Tm → Tm
  | .access => midnight
  | _ => evenSecond

/-- The nanoseconds that are kept beside the packed time. -/
def fineOf : TimeKind → Int → Int
  | .create, time => timeValToFATCreateTimeFine time * 10000000
  | _, _ => 0

theorem onGrid_valid (valid : tm.Valid) (kind : TimeKind) : (onGrid kind tm).Valid := by
  obtain ⟨⟨_, _⟩, min, hour, mday, mon⟩ := valid
  cases kind with
  | access =>
    exact ⟨by simp [onGrid, midnight], by simp [onGrid, midnight], by simp [onGrid, midnight],
      mday, mon⟩
  | create | modification =>
    refine ⟨⟨?_, ?_⟩, min, hour, mday, mon⟩
    · show 0 ≤ tm.sec / 2 * 2
      omega
    · show tm.sec / 2 * 2 < 60
      omega

theorem onGrid_within {lo hi : Int} (inside : tm.Within lo hi) (kind : TimeKind) :
    (onGrid kind tm).Within lo hi := by
  cases kind with
  | create | access | modification => exact inside

theorem onGrid_onGrid (kind : TimeKind) (tm : Tm) : onGrid kind (onGrid kind tm) = onGrid kind tm := by
  cases kind with
  | access => rfl
  | create | modification =>
    simp only [onGrid, evenSecond, Tm.mk.injEq, and_true]
    omega

theorem onGrid_le {a b : Tm} (left : a.Valid) (right : b.Valid) (le : a.ordinal ≤ b.ordinal)
    (kind : TimeKind) : (onGrid kind a).ordinal ≤ (onGrid kind b).ordinal := by
  cases kind with
  | access =>
    have day : a.date ≤ b.date := by
      rw [← Tm.ordinal_div_day left, ← Tm.ordinal_div_day right]
      omega
    have same (tm : Tm) : (midnight tm).ordinal = tm.date * 86400 := by
      simp only [Tm.ordinal, midnight, Tm.date]
      omega
    show (midnight a).ordinal ≤ (midnight b).ordinal
    rw [same, same]
    omega
  | create | modification =>
    have same (tm : Tm) : (evenSecond tm).ordinal = tm.ordinal / 2 * 2 := by
      simp only [Tm.ordinal, evenSecond, Tm.date]
      omega
    show (evenSecond a).ordinal ≤ (evenSecond b).ordinal
    rw [same, same]
    omega

theorem timeValToFATCreateTimeFine_le (time : Int) :
    timeValToFATCreateTimeFine time ≤ 199 := by
  unfold timeValToFATCreateTimeFine
  dsimp only
  split
  · exact Nat.le_refl 199
  · omega

/-- The Unix time of the grid that a time is rounded to. -/
def gridSecond (zone : Zone) (kind : TimeKind) (time : Int) : Int :=
  zone.mktime (onGrid kind (zone.clamped 80 207 (asSecondsI time)))

theorem roundTime_eq (lawful : zone.Lawful 80 207) (kind : TimeKind) (time : Int) :
    roundTime zone kind time = gridSecond zone kind time * 1000000000 + fineOf kind time := by
  have valid := lawful.clamped_valid (asSecondsI time)
  have inside := lawful.clamped_within (by decide) (asSecondsI time)
  cases kind with
  | access =>
    simp only [roundTime, roundTimeToFATAccessTime, fatTimeToTimeVal, fatTimeToUnixTime,
      unixTimeToFATTime_eq, fatTimeInfo_date valid inside]
    rfl
  | modification =>
    simp only [roundTime, roundTimeToFATModificationTime, fatTimeToTimeVal, fatTimeToUnixTime,
      unixTimeToFATTime_eq, fatTimeInfo_fatTimeOf valid inside]
    rfl
  | create =>
    have le := timeValToFATCreateTimeFine_le time
    simp only [roundTime, roundTimeToFATCreateTime, fatTimeToTimeVal, fatTimeToUnixTime,
      unixTimeToFATTime_eq, fatTimeInfo_fatTimeOf valid inside, if_neg (not_lt.mpr le)]
    rw [fromMilliseconds, ticksPerMillisecond, mul_assoc]
    rfl

/-! ## Rounding again -/

variable {kind : TimeKind} {time : Int}

theorem gridSecond_pos (lawful : zone.Lawful 80 207) (kind : TimeKind) (time : Int) :
    0 < gridSecond zone kind time :=
  lawful.epoch _ (onGrid_valid (lawful.clamped_valid _) kind)
    (onGrid_within (lawful.clamped_within (by decide) _) kind)

theorem asSecondsI_of_nonneg (nonneg : 0 ≤ time) : asSecondsI time = time / 1000000000 :=
  Int.tdiv_eq_ediv_of_nonneg nonneg

theorem fine_of_nonneg (nonneg : 0 ≤ time) : (timeValToFATCreateTimeFine time : Int) =
    time / 1000000000 % 2 * 100 + time % 1000000000 / 10000000 := by
  have sec : (asTimespec time).sec = time / 1000000000 := asSecondsI_of_nonneg nonneg
  have nsec : (asTimespec time).nsec = time % 1000000000 := tmod_eq_emod_of_nonneg nonneg
  have part : tdiv (time % 1000000000) 10000000 = time % 1000000000 / 10000000 :=
    Int.tdiv_eq_ediv_of_nonneg (emod_nonneg _ (by decide))
  unfold timeValToFATCreateTimeFine
  dsimp only
  rw [sec, nsec, part]
  have value := @u32_eq (time / 1000000000 % 2 * 100 + time % 1000000000 / 10000000) (by omega)
    (by omega)
  split
  · omega
  · exact value

theorem fineOf_create (time : Int) :
    fineOf .create time = timeValToFATCreateTimeFine time * 10000000 := rfl

theorem fineOf_bounds (kind : TimeKind) (time : Int) :
    0 ≤ fineOf kind time ∧ fineOf kind time < 2000000000 := by
  have le := timeValToFATCreateTimeFine_le time
  cases kind with
  | access | modification => exact ⟨le_refl 0, by simp [fineOf]⟩
  | create =>
    rw [fineOf_create]
    omega

theorem clamped_odd (lawful : zone.Lawful 80 207) {tm : Tm} (valid : tm.Valid)
    (inside : tm.Within 80 207) :
    evenSecond (zone.clamped 80 207 (zone.mktime (evenSecond tm) + 1)) = evenSecond tm := by
  have valid' : (evenSecond tm).Valid := onGrid_valid valid .create
  have odd : Tm.Valid { tm with sec := tm.sec / 2 * 2 + 1 } := by
    obtain ⟨⟨_, _⟩, min, hour, mday, mon⟩ := valid
    refine ⟨⟨?_, ?_⟩, min, hour, mday, mon⟩
    · show 0 ≤ tm.sec / 2 * 2 + 1
      omega
    · show tm.sec / 2 * 2 + 1 < 60
      omega
  have next : Tm.ordinal { tm with sec := tm.sec / 2 * 2 + 1 } = (evenSecond tm).ordinal + 1 := by
    simp only [Tm.ordinal, evenSecond, Tm.date]
    omega
  rw [← lawful.mktime_succ valid' inside odd inside next, lawful.clamped_mktime odd inside]
  simp only [evenSecond, Tm.mk.injEq, and_true]
  omega

theorem gridSecond_roundTime (lawful : zone.Lawful 80 207) (kind : TimeKind) (time : Int) :
    gridSecond zone kind (roundTime zone kind time) = gridSecond zone kind time := by
  have valid := lawful.clamped_valid (asSecondsI time)
  have inside := lawful.clamped_within (by decide) (asSecondsI time)
  have positive := gridSecond_pos lawful kind time
  obtain ⟨lower, upper⟩ := fineOf_bounds kind time
  have second : asSecondsI (roundTime zone kind time) =
      gridSecond zone kind time + fineOf kind time / 1000000000 := by
    rw [roundTime_eq lawful, asSecondsI_of_nonneg (by omega)]
    omega
  have still : fineOf kind time / 1000000000 = 0 → gridSecond zone kind (roundTime zone kind time) =
      gridSecond zone kind time := by
    intro zero
    unfold gridSecond at second ⊢
    rw [second, zero, add_zero, lawful.clamped_mktime (onGrid_valid valid kind)
      (onGrid_within inside kind), onGrid_onGrid]
  cases kind with
  | access | modification => exact still (by simp [fineOf])
  | create =>
    by_cases odd : fineOf .create time / 1000000000 = 0
    · exact still odd
    · have one : fineOf .create time / 1000000000 = 1 := by omega
      unfold gridSecond at second ⊢
      rw [second, one]
      exact congrArg zone.mktime (clamped_odd lawful valid inside)

/-- Rounding again changes a creation time just if the even seconds of local time are odd ones of
Unix time. -/
theorem roundTime_roundTime_iff (lawful : zone.Lawful 80 207) (kind : TimeKind) (time : Int) :
    roundTime zone kind (roundTime zone kind time) = roundTime zone kind time ↔
      (kind = .create → gridSecond zone .create time % 2 = 0) := by
  have positive := gridSecond_pos lawful kind time
  obtain ⟨lower, upper⟩ := fineOf_bounds kind time
  rw [roundTime_eq lawful kind (roundTime zone kind time), gridSecond_roundTime lawful,
    roundTime_eq lawful kind time]
  cases kind with
  | access | modification => exact ⟨fun _ => nofun, fun _ => rfl⟩
  | create =>
    have fine := @fine_of_nonneg
      (gridSecond zone .create time * 1000000000 + fineOf .create time) (by omega)
    rw [fineOf_create (gridSecond zone .create time * 1000000000 + _), fine]
    rw [fineOf_create] at *
    constructor
    · intro same _
      omega
    · intro even
      have even := even rfl
      omega

/-! ## Loading -/

theorem rejoin {fatTime : Nat} (small : fatTime < 2 ^ 32) :
    (fatTime &&& 0xffff) % 2 ^ 16 ||| ((fatTime >>> 16) % 2 ^ 16) <<< 16 = fatTime := by
  rw [land_low, Nat.or_comm, ← Nat.shiftLeft_add_eq_or_of_lt (Nat.mod_lt _ (by decide)),
    Nat.shiftLeft_eq, Nat.shiftRight_eq_div_pow]
  omega

theorem shift_date {fatTime : Nat} (small : fatTime < 2 ^ 32) :
    ((fatTime >>> 16) % 2 ^ 16) <<< 16 = fatTime &&& 0xffff0000 := by
  rw [land_high small, Nat.shiftLeft_eq, Nat.shiftRight_eq_div_pow]
  omega

variable (vol : FATVolume) (startIndex endIndex : Nat) (e : FATDirectoryEntryCombo)
  (attribs cluster size : Nat) (times : InodeTimes)

theorem entryInfo_withInode (lawful : zone.Lawful 80 207) :
    let info := entryInfo vol startIndex endIndex
      (e.withInode attribs (packTimes zone times) cluster size)
    info.fatCreateTime = unixTimeToFATTime zone (asSecondsI times.cTime) ∧
      info.fatCreateTimeFine = timeValToFATCreateTimeFine times.cTime ∧
      info.fatAccessTime = unixTimeToFATTime zone (asSecondsI times.aTime) &&& 0xffff0000 ∧
      info.fatModificationTime = unixTimeToFATTime zone (asSecondsI times.mTime) := by
  have small (s : Int) : unixTimeToFATTime zone s < 2 ^ 32 := by
    rw [unixTimeToFATTime_eq]
    exact fatTimeOf_lt (lawful.clamped_valid s) (lawful.clamped_within (by decide) s)
  have joins (value : Nat) := FATDirectoryEntryCombo.low_add_high value
  have fine := timeValToFATCreateTimeFine_le times.cTime
  have low := FATDirectoryEntryCombo.toNat_low (timeValToFATCreateTimeFine times.cTime)
  rw [Nat.mod_eq_of_lt (by omega)] at low
  refine ⟨?_, low, ?_, ?_⟩
  · exact (congrArg₂ (fun x y => x ||| y <<< 16) (joins _) (joins _)).trans (rejoin (small _))
  · exact (congrArg (fun x => x <<< 16) (joins _)).trans (shift_date (small _))
  · exact (congrArg₂ (fun x y => x ||| y <<< 16) (joins _) (joins _)).trans (rejoin (small _))

theorem no_fallback (lawful : zone.Lawful 80 207) (s : Int) :
    unixTimeToFATTime zone s &&& 0xffff0000 ≠ 0 := by
  have valid := lawful.clamped_valid s
  have inside := lawful.clamped_within (by decide) s
  rw [unixTimeToFATTime_eq, land_high (fatTimeOf_lt valid inside)]
  exact fatTimeOf_date_ne valid inside

theorem loadTimes_get (lawful : zone.Lawful 80 207) (kind : TimeKind) :
    (loadTimes zone (entryInfo vol startIndex endIndex
      (e.withInode attribs (packTimes zone times) cluster size))).get kind =
      roundTime zone kind (times.get kind) := by
  obtain ⟨create, fine, access, modification⟩ :=
    entryInfo_withInode vol startIndex endIndex e attribs cluster size times lawful
  have date := no_fallback lawful
  cases kind with
  | create =>
    show fatTimeToTimeValOrFallback .. = _
    rw [create, fine, fatTimeToTimeValOrFallback, if_neg (date _)]
    rfl
  | access =>
    show fatTimeToTimeValOrFallback .. = _
    rw [access, fatTimeToTimeValOrFallback, Nat.land_assoc, Nat.and_self, if_neg (date _)]
    rfl
  | modification =>
    show fatTimeToTimeValOrFallback .. = _
    rw [modification, fatTimeToTimeValOrFallback, if_neg (date _)]
    rfl

/-! ## The ends of the years -/

/-- The first time that an entry can hold. -/
def startTime (zone : Zone) : Int := fromSeconds (zone.mktime ⟨0, 0, 0, 1, 0, 80⟩)

/-- The last one. -/
def endTime (zone : Zone) : TimeKind → Int
  | .create => fromSeconds (zone.mktime ⟨58, 59, 23, 31, 11, 207⟩) + fromMilliseconds 1990
  | .access => fromSeconds (zone.mktime ⟨0, 0, 0, 31, 11, 207⟩)
  | .modification => fromSeconds (zone.mktime ⟨58, 59, 23, 31, 11, 207⟩)

theorem roundTime_before_iff (lawful : zone.Lawful 80 207) (kind : TimeKind)
    (before : zone.Before 80 (asSecondsI time)) :
    roundTime zone kind time = startTime zone ↔
      (kind = .create → timeValToFATCreateTimeFine time = 0) := by
  have grid : gridSecond zone kind time = zone.mktime ⟨0, 0, 0, 1, 0, 80⟩ := by
    rw [gridSecond, lawful.clamped_before (by decide) before]
    cases kind with
    | create | access | modification => rfl
  rw [roundTime_eq lawful, grid, startTime, fromSeconds, ticksPerSecond]
  cases kind with
  | access | modification => exact ⟨fun _ => nofun, fun _ => add_zero _⟩
  | create =>
    rw [fineOf_create]
    constructor
    · intro same _
      omega
    · intro zero
      have zero := zero rfl
      omega

theorem roundTime_after_iff (lawful : zone.Lawful 80 207) (kind : TimeKind)
    (after : zone.After 207 (asSecondsI time)) :
    roundTime zone kind time = endTime zone kind ↔
      (kind = .create → timeValToFATCreateTimeFine time = 199) := by
  have grid : gridSecond zone kind time = zone.mktime (onGrid kind (.last 207)) := by
    rw [gridSecond, lawful.clamped_after (by decide) after]
  rw [roundTime_eq lawful, grid]
  cases kind with
  | access | modification => exact ⟨fun _ => nofun, fun _ => add_zero _⟩
  | create =>
    show zone.mktime ⟨58, 59, 23, 31, 11, 207⟩ * 1000000000 + fineOf .create time =
      zone.mktime ⟨58, 59, 23, 31, 11, 207⟩ * 1000000000 + 1990 * 1000000 ↔ _
    rw [fineOf_create]
    constructor
    · intro same _
      omega
    · intro last
      have last := last rfl
      omega

/-! ## Times that last -/

theorem mktime_evenSecond (lawful : zone.Lawful 80 207) (valid : tm.Valid)
    (inside : tm.Within 80 207) :
    zone.mktime (evenSecond tm) = zone.mktime tm - tm.sec % 2 := by
  by_cases even : tm.sec % 2 = 0
  · have same : evenSecond tm = tm := by
      cases tm
      simp only [evenSecond, Tm.mk.injEq, and_true] at *
      omega
    rw [same, even, sub_zero]
  · have valid' : (evenSecond tm).Valid := onGrid_valid valid .create
    have next : tm.ordinal = (evenSecond tm).ordinal + 1 := by
      simp only [Tm.ordinal, evenSecond, Tm.date]
      omega
    have succ := lawful.mktime_succ valid' inside valid inside next
    omega

/-- The hundredths of a creation time belong to the second that is packed. -/
structure FineAgrees (zone : Zone) (time : Int) : Prop where
  inside : ∀ tm, zone.localtime (asSecondsI time) = some tm → tm.Within 80 207 →
    tm.sec % 2 = asSecondsI time % 2
  before : zone.Before 80 (asSecondsI time) → zone.mktime (.first 80) % 2 = 0 ∧
    (asTimespec time).sec % 2 = 0 ∧ -10000000 < (asTimespec time).nsec ∧
      (asTimespec time).nsec < 10000000
  after : zone.After 207 (asSecondsI time) → zone.mktime (.last 207) % 2 = 1 ∧
    (asTimespec time).sec % 2 = 1 ∧ 990000000 ≤ (asTimespec time).nsec

theorem fine_eq_zero_iff (time : Int) : timeValToFATCreateTimeFine time = 0 ↔
    (asTimespec time).sec % 2 = 0 ∧ -10000000 < (asTimespec time).nsec ∧
      (asTimespec time).nsec < 10000000 := by
  have lower : -1000000000 < (asTimespec time).nsec := lt_tmod_of_pos time (by decide)
  have upper : (asTimespec time).nsec < 1000000000 := tmod_lt_of_pos time (by decide)
  have hundredths : -99 ≤ tdiv (asTimespec time).nsec 10000000 ∧
      tdiv (asTimespec time).nsec 10000000 ≤ 99 ∧
      (tdiv (asTimespec time).nsec 10000000 = 0 ↔
        -10000000 < (asTimespec time).nsec ∧ (asTimespec time).nsec < 10000000) := by
    rcases le_total 0 (asTimespec time).nsec with nonneg | nonpos
    · rw [Int.tdiv_eq_ediv_of_nonneg nonneg]
      omega
    · have part : tdiv (asTimespec time).nsec 10000000 = -(-(asTimespec time).nsec / 10000000) := by
        rw [← Int.tdiv_eq_ediv_of_nonneg (by omega), Int.neg_tdiv, Int.neg_neg]
      rw [part]
      omega
  obtain ⟨_, _, small⟩ := hundredths
  have zero {value : Int} (above : -100 < value) (below : value < 200) :
      u32 value = 0 ↔ value = 0 := by
    unfold u32
    omega
  rw [← small]
  unfold timeValToFATCreateTimeFine
  dsimp only
  have value := @zero ((asTimespec time).sec % 2 * 100 + tdiv (asTimespec time).nsec 10000000)
    (by omega) (by omega)
  split
  · omega
  · omega

theorem fine_eq_last_iff (nonneg : 0 ≤ time) : timeValToFATCreateTimeFine time = 199 ↔
    (asTimespec time).sec % 2 = 1 ∧ 990000000 ≤ (asTimespec time).nsec := by
  have sec : (asTimespec time).sec = time / 1000000000 := asSecondsI_of_nonneg nonneg
  have nsec : (asTimespec time).nsec = time % 1000000000 := tmod_eq_emod_of_nonneg nonneg
  have fine := fine_of_nonneg nonneg
  rw [sec, nsec]
  omega

/-- What the rounding of a time and its storing promise. -/
structure Stable (zone : Zone) (kind : TimeKind) (time : Int) : Prop where
  again : roundTime zone kind (roundTime zone kind time) = roundTime zone kind time
  before : zone.Before 80 (asSecondsI time) → roundTime zone kind time = startTime zone
  after : zone.After 207 (asSecondsI time) → roundTime zone kind time = endTime zone kind
  reloads : ∀ (vol : FATVolume) (startIndex endIndex : Nat) (e : FATDirectoryEntryCombo)
    (attribs cluster size : Nat) (times : InodeTimes),
    times.get kind = roundTime zone kind time →
    (loadTimes zone (entryInfo vol startIndex endIndex
      (e.withInode attribs (packTimes zone times) cluster size))).get kind = times.get kind

theorem nonneg_of_second {time : Int} (positive : 0 < asSecondsI time) : 0 ≤ time := by
  by_contra negative
  have second : asSecondsI time ≤ asSecondsI 0 := Int.tdiv_le_tdiv (by decide) (by omega)
  have zero : asSecondsI 0 = 0 := rfl
  omega

section

variable (lawful : zone.Lawful 80 207)

include lawful

theorem nonneg_of_after (after : zone.After 207 (asSecondsI time)) :
    0 ≤ time := by
  have late := lawful.lt_after (by decide) after
  have positive := lawful.epoch _ (Tm.last_valid 207) (Zone.Lawful.last_within (by decide))
  exact nonneg_of_second (by omega)

theorem fineAgrees_iff (time : Int) :
    FineAgrees zone time ↔ gridSecond zone .create time % 2 = 0 ∧
      (zone.Before 80 (asSecondsI time) → timeValToFATCreateTimeFine time = 0) ∧
      (zone.After 207 (asSecondsI time) → timeValToFATCreateTimeFine time = 199) := by
  have grid : gridSecond zone .create time = zone.mktime (zone.clamped 80 207 (asSecondsI time)) -
      (zone.clamped 80 207 (asSecondsI time)).sec % 2 :=
    mktime_evenSecond lawful (lawful.clamped_valid _) (lawful.clamped_within (by decide) _)
  have first : (Tm.first 80).sec % 2 = 0 := rfl
  have last : (Tm.last 207).sec % 2 = 1 := rfl
  constructor
  · intro agrees
    refine ⟨?_, fun before => (fine_eq_zero_iff time).mpr (agrees.before before).2,
      fun after => (fine_eq_last_iff (nonneg_of_after lawful after)).mpr (agrees.after after).2⟩
    rw [grid]
    rcases lawful.clamped_cases (asSecondsI time) with ⟨before, same⟩ | ⟨after, same⟩ |
        ⟨found, inside, here⟩
    · have even := (agrees.before before).1
      rw [same]
      omega
    · have odd := (agrees.after after).1
      rw [same]
      omega
    · have parity := agrees.inside _ found inside
      omega
  · intro ⟨even, early, late⟩
    rw [grid] at even
    refine ⟨?_, fun before => ⟨?_, (fine_eq_zero_iff time).mp (early before)⟩,
      fun after => ⟨?_, (fine_eq_last_iff (nonneg_of_after lawful after)).mp (late after)⟩⟩
    · intro tm found inside
      have here := lawful.mktime_localtime _ _ found inside
      have same : zone.clamped 80 207 (asSecondsI time) = tm := by
        rw [← here, lawful.clamped_mktime (lawful.valid _ _ found) inside]
      rw [same] at even
      omega
    · rw [lawful.clamped_before (by decide) before] at even
      omega
    · rw [lawful.clamped_after (by decide) after] at even
      omega

theorem stable_iff (kind : TimeKind) (time : Int) :
    Stable zone kind time ↔ (kind = .create → FineAgrees zone time) := by
  have again := roundTime_roundTime_iff lawful kind time
  rw [fineAgrees_iff lawful]
  constructor
  · intro stable isCreate
    refine ⟨again.mp stable.again isCreate, fun before => ?_, fun after => ?_⟩
    · exact (roundTime_before_iff lawful kind before).mp (stable.before before) isCreate
    · exact (roundTime_after_iff lawful kind after).mp (stable.after after) isCreate
  · intro agrees
    have same := again.mpr fun isCreate => (agrees isCreate).1
    refine ⟨same, fun before => ?_, fun after => ?_, ?_⟩
    · exact (roundTime_before_iff lawful kind before).mpr fun isCreate => (agrees isCreate).2.1 before
    · exact (roundTime_after_iff lawful kind after).mpr fun isCreate => (agrees isCreate).2.2 after
    · intro vol startIndex endIndex e attribs cluster size times rounded
      rw [loadTimes_get vol startIndex endIndex e attribs cluster size times lawful kind, rounded, same]

theorem gridSecond_le {s t : Int} (le : s ≤ t) (kind : TimeKind) :
    gridSecond zone kind s ≤ gridSecond zone kind t := by
  have seconds : asSecondsI s ≤ asSecondsI t := Int.tdiv_le_tdiv (by decide) le
  have valid := lawful.clamped_valid (asSecondsI s)
  have inside := lawful.clamped_within (by decide) (asSecondsI s)
  have valid' := lawful.clamped_valid (asSecondsI t)
  have inside' := lawful.clamped_within (by decide) (asSecondsI t)
  exact lawful.mktime_le (onGrid_valid valid kind) (onGrid_within inside kind)
    (onGrid_valid valid' kind) (onGrid_within inside' kind)
    (onGrid_le valid valid' (lawful.clamped_le (by decide) seconds) kind)

theorem fine_le {s t : Int} (le : s ≤ t) (first : FineAgrees zone s) (second : FineAgrees zone t)
    (same : gridSecond zone .create s = gridSecond zone .create t) :
    timeValToFATCreateTimeFine s ≤ timeValToFATCreateTimeFine t := by
  obtain ⟨even, early, _⟩ := (fineAgrees_iff lawful s).mp first
  obtain ⟨even', _, late⟩ := (fineAgrees_iff lawful t).mp second
  have seconds : asSecondsI s ≤ asSecondsI t := Int.tdiv_le_tdiv (by decide) le
  have atMost := timeValToFATCreateTimeFine_le s
  have grid (u : Int) : gridSecond zone .create u = zone.mktime (zone.clamped 80 207 (asSecondsI u)) -
      (zone.clamped 80 207 (asSecondsI u)).sec % 2 :=
    mktime_evenSecond lawful (lawful.clamped_valid _) (lawful.clamped_within (by decide) _)
  rw [grid] at even even'
  rw [grid, grid] at same
  have lower := lawful.mktime_first_le (by decide) (lawful.clamped_valid (asSecondsI s))
    (lawful.clamped_within (by decide) _)
  have upper := lawful.mktime_le_last (by decide) (lawful.clamped_valid (asSecondsI t))
    (lawful.clamped_within (by decide) _)
  have positive := lawful.epoch _ (lawful.clamped_valid (asSecondsI s))
    (lawful.clamped_within (by decide) _)
  rcases lawful.clamped_cases (asSecondsI s) with ⟨before, _⟩ | ⟨after, _⟩ | ⟨_, _, here⟩
  · rw [early before]
    exact zero_le
  · -- Who is after the years has nobody inside of them after him.
    have later := lawful.lt_after (by decide) after
    rcases lawful.clamped_cases (asSecondsI t) with ⟨before, _⟩ | ⟨after', _⟩ | ⟨_, _, here'⟩
    · have earlier := lawful.before_lt (by decide) before
      have ends := lawful.mktime_ends (by decide)
      omega
    · rw [late after']
      exact atMost
    · omega
  · rcases lawful.clamped_cases (asSecondsI t) with ⟨before, _⟩ | ⟨after, _⟩ | ⟨_, _, here'⟩
    · have earlier := lawful.before_lt (by decide) before
      omega
    · rw [late after]
      exact atMost
    · have positive' := lawful.epoch _ (lawful.clamped_valid (asSecondsI t))
        (lawful.clamped_within (by decide) _)
      have left := @nonneg_of_second s (by omega)
      have right := @nonneg_of_second t (by omega)
      have fine := fine_of_nonneg left
      have fine' := fine_of_nonneg right
      rw [asSecondsI_of_nonneg left] at *
      rw [asSecondsI_of_nonneg right] at *
      omega

theorem roundTime_create_le {s t : Int} (le : s ≤ t)
    (first : FineAgrees zone s) (second : FineAgrees zone t) :
    roundTime zone .create s ≤ roundTime zone .create t := by
  have grids := gridSecond_le lawful le .create
  have even := ((fineAgrees_iff lawful s).mp first).1
  have even' := ((fineAgrees_iff lawful t).mp second).1
  have atMost := timeValToFATCreateTimeFine_le s
  rw [roundTime_eq lawful, roundTime_eq lawful, fineOf_create, fineOf_create]
  rcases lt_or_eq_of_le grids with earlier | same
  · omega
  · have fine := fine_le lawful le first second same
    omega

end

/-- The times of an inode are stable across the disk, but for creation times whose hundredths do
not belong to the second that is packed. -/
theorem times_stable_iff {s t : Int} (lawful : zone.Lawful 80 207) (kind : TimeKind) (le : s ≤ t) :
    Stable zone kind s ∧ Stable zone kind t ∧ roundTime zone kind s ≤ roundTime zone kind t ↔
      (kind = .create → FineAgrees zone s ∧ FineAgrees zone t) := by
  rw [stable_iff lawful, stable_iff lawful]
  constructor
  · intro ⟨first, second, _⟩ isCreate
    exact ⟨first isCreate, second isCreate⟩
  · intro agree
    refine ⟨fun isCreate => (agree isCreate).1, fun isCreate => (agree isCreate).2, ?_⟩
    cases kind with
    | create => exact roundTime_create_le lawful le (agree rfl).1 (agree rfl).2
    | access | modification =>
      have grids := gridSecond_le lawful le
      rw [roundTime_eq lawful, roundTime_eq lawful]
      exact Int.add_le_add_right (Int.mul_le_mul_of_nonneg_right (grids _) (by decide)) 0

theorem FineAgrees.of_inside {time : Int} (tm : Tm) (found : zone.localtime (asSecondsI time) = some tm)
    (inside : tm.Within 80 207) (parity : tm.sec % 2 = asSecondsI time % 2) :
    FineAgrees zone time := by
  obtain ⟨lower, upper⟩ := inside
  constructor
  · intro other same _
    rw [found, Option.some.injEq] at same
    rw [← same]
    exact parity
  · intro before
    rw [Zone.Before, found] at before
    exact absurd before (not_lt.mpr lower)
  · intro after
    rw [Zone.After, found] at after
    exact absurd after (not_lt.mpr upper)

theorem times_stable_iff_2023 :
    Stable universal .create 1700000000123456789 ∧ Stable universal .create 1700000001987654321 ∧
      roundTime universal .create 1700000000123456789 ≤
        roundTime universal .create 1700000001987654321 :=
  (times_stable_iff (universal_lawful (by decide)) .create (by decide)).mpr fun _ =>
    ⟨.of_inside ⟨20, 13, 22, 14, 10, 123⟩ (by decide +kernel) ⟨by decide, by decide⟩ (by decide),
      .of_inside ⟨21, 13, 22, 14, 10, 123⟩ (by decide +kernel) ⟨by decide, by decide⟩ (by decide)⟩

/-- Half a second before the years is rounded to a second and a half inside of them. -/
theorem not_times_stable_always : ¬∀ zone : Zone, zone.Lawful 80 207 → ∀ kind s t, s ≤ t →
    Stable zone kind s ∧ Stable zone kind t ∧ roundTime zone kind s ≤ roundTime zone kind t := by
  intro always
  have stable := (always universal (universal_lawful (by decide)) .create 315532799500000000 _
    (le_refl _)).1
  have before : universal.Before 80 (asSecondsI 315532799500000000) := by
    have found : universal.localtime (asSecondsI 315532799500000000) =
        some ⟨59, 59, 23, 31, 11, 79⟩ := by decide +kernel
    rw [Zone.Before, found]
    decide
  have rounded := stable.before before
  revert rounded
  decide +kernel

end PadOS.Fat
