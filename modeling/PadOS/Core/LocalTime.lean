import Mathlib.Tactic.ByContra

/-! # Local time

Broken-down times, and what `localtime` and `mktime` are to each other in a zone where every local
time of some years comes once. Universal time is such a zone.
-/

namespace PadOS.LocalTime

/-- The fields of `struct tm` that tell a time. Years count from 1900, months from 0. -/
structure Tm where
  sec : Int
  min : Int
  hour : Int
  mday : Int
  mon : Int
  year : Int
  deriving DecidableEq

def isLeap (year : Int) : Bool :=
  (year + 1900) % 4 = 0 && ((year + 1900) % 100 ≠ 0 || (year + 1900) % 400 = 0)

def daysInMonth (year mon : Int) : Int :=
  if mon = 1 then if isLeap year then 29 else 28
  else if mon = 3 ∨ mon = 5 ∨ mon = 8 ∨ mon = 10 then 30
  else 31

namespace Tm

structure Valid (tm : Tm) : Prop where
  sec : 0 ≤ tm.sec ∧ tm.sec < 60
  min : 0 ≤ tm.min ∧ tm.min < 60
  hour : 0 ≤ tm.hour ∧ tm.hour < 24
  mday : 1 ≤ tm.mday ∧ tm.mday ≤ daysInMonth tm.year tm.mon
  mon : 0 ≤ tm.mon ∧ tm.mon < 12

def Within (lo hi : Int) (tm : Tm) : Prop := lo ≤ tm.year ∧ tm.year ≤ hi

def date (tm : Tm) : Int := (tm.year * 12 + tm.mon) * 31 + (tm.mday - 1)

/-- The place of a time in the order of times. -/
def ordinal (tm : Tm) : Int := ((tm.date * 24 + tm.hour) * 60 + tm.min) * 60 + tm.sec

def first (lo : Int) : Tm := ⟨0, 0, 0, 1, 0, lo⟩

def last (hi : Int) : Tm := ⟨59, 59, 23, 31, 11, hi⟩

end Tm

/-- What a zone makes of the seconds since the epoch, and of a broken-down time. -/
structure Zone where
  localtime : Int → Option Tm
  mktime : Tm → Int

/-- In the years from `lo` to `hi` each valid time comes once, and the times come in order, after
the epoch. -/
structure Zone.Lawful (zone : Zone) (lo hi : Int) : Prop where
  valid : ∀ s tm, zone.localtime s = some tm → tm.Valid
  ordered : ∀ s t a b, s ≤ t → zone.localtime s = some a → zone.localtime t = some b →
    a.ordinal ≤ b.ordinal
  mktime_localtime : ∀ s tm, zone.localtime s = some tm → tm.Within lo hi → zone.mktime tm = s
  localtime_mktime : ∀ tm : Tm, tm.Valid → tm.Within lo hi →
    zone.localtime (zone.mktime tm) = some tm
  epoch : ∀ tm : Tm, tm.Valid → tm.Within lo hi → 0 < zone.mktime tm
  answers : ∀ (s : Int) (tm : Tm), 0 ≤ s → tm.Valid → tm.Within lo hi → s ≤ zone.mktime tm →
    ∃ found, zone.localtime s = some found

variable {a b tm : Tm} {lo hi s t : Int}

theorem daysInMonth_le (year mon : Int) : daysInMonth year mon ≤ 31 := by
  unfold daysInMonth
  split
  · split
    · decide
    · decide
  · split
    · decide
    · exact Int.le_refl 31

theorem le_daysInMonth (year mon : Int) : 28 ≤ daysInMonth year mon := by
  unfold daysInMonth
  split
  · split
    · decide
    · decide
  · split
    · decide
    · decide

namespace Tm

theorem Valid.mday_le (valid : tm.Valid) : tm.mday ≤ 31 :=
  Int.le_trans valid.mday.2 (daysInMonth_le ..)

theorem first_valid (lo : Int) : (first lo).Valid := by
  constructor <;> simp [first, daysInMonth]

theorem last_valid (hi : Int) : (last hi).Valid := by
  constructor <;> simp [last, daysInMonth]

theorem ordinal_div_day (valid : tm.Valid) : tm.ordinal / 86400 = tm.date := by
  have sec := valid.sec
  have min := valid.min
  have hour := valid.hour
  unfold ordinal
  omega

theorem date_div_year (valid : tm.Valid) : tm.date / 372 = tm.year := by
  have mday := valid.mday
  have mon := valid.mon
  have atMost := valid.mday_le
  unfold date
  omega

theorem ordinal_inj (left : a.Valid) (right : b.Valid) (same : a.ordinal = b.ordinal) : a = b := by
  have date : a.date = b.date := by
    rw [← ordinal_div_day left, ← ordinal_div_day right, same]
  have year : a.year = b.year := by
    rw [← date_div_year left, ← date_div_year right, date]
  obtain ⟨⟨_, _⟩, ⟨_, _⟩, ⟨_, _⟩, ⟨_, _⟩, ⟨_, _⟩⟩ := left
  obtain ⟨⟨_, _⟩, ⟨_, _⟩, ⟨_, _⟩, ⟨_, _⟩, ⟨_, _⟩⟩ := right
  have atMost := daysInMonth_le a.year a.mon
  have atMost' := daysInMonth_le b.year b.mon
  unfold Tm.ordinal at same
  unfold Tm.date at date same
  cases a
  cases b
  dsimp only at *
  subst year
  rw [Tm.mk.injEq]
  omega

theorem year_le (left : a.Valid) (right : b.Valid) (le : a.ordinal ≤ b.ordinal) :
    a.year ≤ b.year := by
  rw [← date_div_year left, ← date_div_year right, ← ordinal_div_day left, ← ordinal_div_day right]
  omega

theorem first_le (valid : tm.Valid) (within : lo ≤ tm.year) : (first lo).ordinal ≤ tm.ordinal := by
  obtain ⟨⟨_, _⟩, ⟨_, _⟩, ⟨_, _⟩, ⟨_, _⟩, ⟨_, _⟩⟩ := valid
  simp only [ordinal, date, first]
  omega

theorem le_last (valid : tm.Valid) (within : tm.year ≤ hi) : tm.ordinal ≤ (last hi).ordinal := by
  have atMost := valid.mday_le
  obtain ⟨⟨_, _⟩, ⟨_, _⟩, ⟨_, _⟩, ⟨_, _⟩, ⟨_, _⟩⟩ := valid
  simp only [ordinal, date, last]
  omega

end Tm

namespace Zone

variable {zone : Zone}

/-- The second comes before the years. A failure tells so only by its sign. -/
def Before (zone : Zone) (lo s : Int) : Prop :=
  match zone.localtime s with
  | none => s < 0
  | some tm => tm.year < lo

def After (zone : Zone) (hi s : Int) : Prop :=
  match zone.localtime s with
  | none => 0 ≤ s
  | some tm => hi < tm.year

/-- The local time, brought to the ends of the years. -/
def clamped (zone : Zone) (lo hi s : Int) : Tm :=
  match zone.localtime s with
  | none => if s < 0 then .first lo else .last hi
  | some tm => if tm.year < lo then .first lo else if hi < tm.year then .last hi else tm

namespace Lawful

section

variable (lawful : zone.Lawful lo hi) (left : a.Valid) (inside : a.Within lo hi) (right : b.Valid)
  (inside' : b.Within lo hi)

include lawful left inside right inside'

theorem mktime_le
    (le : a.ordinal ≤ b.ordinal) :
    zone.mktime a ≤ zone.mktime b := by
  by_contra later
  have back := lawful.ordered _ _ _ _ (Int.le_of_lt (Int.not_le.mp later))
    (lawful.localtime_mktime b right inside') (lawful.localtime_mktime a left inside)
  rw [Tm.ordinal_inj left right (Int.le_antisymm le back)] at later
  exact later (Int.le_refl _)

theorem mktime_succ
    (next : b.ordinal = a.ordinal + 1) :
    zone.mktime b = zone.mktime a + 1 := by
  have le := lawful.mktime_le left inside right inside' (by omega)
  have here := lawful.localtime_mktime a left inside
  have after := lawful.localtime_mktime b right inside'
  have apart : zone.mktime a ≠ zone.mktime b := by
    intro same
    rw [same, after] at here
    cases here
    omega
  by_contra between
  -- A second in between has a time that is one of the two.
  have epoch := lawful.epoch a left inside
  obtain ⟨c, found⟩ := lawful.answers (zone.mktime a + 1) b (by omega) right inside' (by omega)
  have valid := lawful.valid _ _ found
  have lower := lawful.ordered _ _ _ _ (by omega) here found
  have upper := lawful.ordered _ _ _ _ (by omega) found after
  have one : c = a ∨ c = b := by
    rcases Int.lt_or_le a.ordinal c.ordinal with above | below
    · exact .inr (Tm.ordinal_inj valid right (by omega))
    · exact .inl (Tm.ordinal_inj valid left (by omega))
  rcases one with rfl | rfl
  · have back := lawful.mktime_localtime _ _ found inside
    omega
  · have back := lawful.mktime_localtime _ _ found inside'
    omega

end

theorem first_within (some' : lo ≤ hi) : (Tm.first lo).Within lo hi := ⟨Int.le_refl lo, some'⟩

theorem last_within (some' : lo ≤ hi) : (Tm.last hi).Within lo hi := ⟨some', Int.le_refl hi⟩

section

variable (lawful : zone.Lawful lo hi)

include lawful

theorem before_lt (some' : lo ≤ hi) (before : zone.Before lo s) :
    s < zone.mktime (.first lo) := by
  have positive := lawful.epoch _ (Tm.first_valid lo) (first_within some')
  have known := lawful.localtime_mktime _ (Tm.first_valid lo) (first_within some')
  unfold Before at before
  split at before
  · omega
  · rename_i tm found
    by_contra later
    have above := lawful.ordered _ _ _ _ (Int.not_lt.mp later) known found
    have year : lo ≤ tm.year := Tm.year_le (Tm.first_valid lo) (lawful.valid _ _ found) above
    omega

theorem lt_after (some' : lo ≤ hi) (after : zone.After hi s) :
    zone.mktime (.last hi) < s := by
  have known := lawful.localtime_mktime _ (Tm.last_valid hi) (last_within some')
  unfold After at after
  by_contra earlier
  split at after
  · rename_i none
    obtain ⟨found, answer⟩ := lawful.answers s _ after (Tm.last_valid hi) (last_within some')
      (Int.not_lt.mp earlier)
    rw [none] at answer
    cases answer
  · rename_i tm found
    have below := lawful.ordered _ _ _ _ (Int.not_lt.mp earlier) found known
    have year : tm.year ≤ hi := Tm.year_le (lawful.valid _ _ found) (Tm.last_valid hi) below
    omega

theorem clamped_cases (s : Int) :
    zone.Before lo s ∧ zone.clamped lo hi s = .first lo ∨
      zone.After hi s ∧ zone.clamped lo hi s = .last hi ∨
      zone.localtime s = some (zone.clamped lo hi s) ∧ (zone.clamped lo hi s).Within lo hi ∧
        zone.mktime (zone.clamped lo hi s) = s := by
  unfold clamped Before After
  cases found : zone.localtime s with
  | none =>
    by_cases negative : s < 0
    · exact .inl ⟨negative, if_pos negative⟩
    · exact .inr (.inl ⟨Int.not_lt.mp negative, if_neg negative⟩)
  | some tm =>
    dsimp only
    by_cases early : tm.year < lo
    · exact .inl ⟨early, if_pos early⟩
    · rw [if_neg early]
      by_cases late : hi < tm.year
      · exact .inr (.inl ⟨late, if_pos late⟩)
      · have inside : tm.Within lo hi := ⟨Int.not_lt.mp early, Int.not_lt.mp late⟩
        rw [if_neg late]
        exact .inr (.inr ⟨rfl, inside, lawful.mktime_localtime _ _ found inside⟩)

theorem clamped_mktime (valid : tm.Valid) (inside : tm.Within lo hi) :
    zone.clamped lo hi (zone.mktime tm) = tm := by
  obtain ⟨lower, upper⟩ := inside
  rw [clamped, lawful.localtime_mktime tm valid ⟨lower, upper⟩]
  dsimp only
  rw [if_neg (by omega), if_neg (by omega)]

theorem clamped_valid (s : Int) : (zone.clamped lo hi s).Valid := by
  rcases lawful.clamped_cases s with ⟨_, same⟩ | ⟨_, same⟩ | ⟨found, _⟩
  · rw [same]
    exact Tm.first_valid lo
  · rw [same]
    exact Tm.last_valid hi
  · exact lawful.valid _ _ found

section

variable (some' : lo ≤ hi)

include some'

theorem clamped_within (s : Int) :
    (zone.clamped lo hi s).Within lo hi := by
  rcases lawful.clamped_cases s with ⟨_, same⟩ | ⟨_, same⟩ | ⟨_, inside, _⟩
  · rw [same]
    exact first_within some'
  · rw [same]
    exact last_within some'
  · exact inside

theorem mktime_first_le (valid : tm.Valid)
    (inside : tm.Within lo hi) : zone.mktime (.first lo) ≤ zone.mktime tm :=
  lawful.mktime_le (Tm.first_valid lo) (first_within some') valid inside
    (Tm.first_le valid inside.1)

theorem mktime_le_last (valid : tm.Valid)
    (inside : tm.Within lo hi) : zone.mktime tm ≤ zone.mktime (.last hi) :=
  lawful.mktime_le valid inside (Tm.last_valid hi) (last_within some') (Tm.le_last valid inside.2)

theorem mktime_ends :
    zone.mktime (.first lo) ≤ zone.mktime (.last hi) :=
  lawful.mktime_first_le some' (Tm.last_valid hi) (last_within some')

theorem clamped_before
    (before : zone.Before lo s) : zone.clamped lo hi s = .first lo := by
  have early := lawful.before_lt some' before
  rcases lawful.clamped_cases s with ⟨_, same⟩ | ⟨after, _⟩ | ⟨_, inside, here⟩
  · exact same
  · have late := lawful.lt_after some' after
    have ends := lawful.mktime_ends some'
    omega
  · have lower := lawful.mktime_first_le some' (lawful.clamped_valid s) inside
    omega

theorem clamped_after
    (after : zone.After hi s) : zone.clamped lo hi s = .last hi := by
  have late := lawful.lt_after some' after
  rcases lawful.clamped_cases s with ⟨before, _⟩ | ⟨_, same⟩ | ⟨_, inside, here⟩
  · have early := lawful.before_lt some' before
    have ends := lawful.mktime_ends some'
    omega
  · exact same
  · have upper := lawful.mktime_le_last some' (lawful.clamped_valid s) inside
    omega

theorem clamped_le (le : s ≤ t) :
    (zone.clamped lo hi s).ordinal ≤ (zone.clamped lo hi t).ordinal := by
  have valid := lawful.clamped_valid s
  have inside := lawful.clamped_within some' s
  have valid' := lawful.clamped_valid t
  have inside' := lawful.clamped_within some' t
  have lower := lawful.mktime_first_le some' valid inside
  have upper := lawful.mktime_le_last some' valid' inside'
  have ends := lawful.mktime_ends some'
  rcases lawful.clamped_cases s with ⟨_, same⟩ | ⟨after, _⟩ | ⟨found, _, here⟩
  · rw [same]
    exact Tm.first_le valid' inside'.1
  · have beyond := lawful.lt_after some' after
    rcases lawful.clamped_cases t with ⟨before, _⟩ | ⟨_, same⟩ | ⟨_, _, here⟩
    · have early := lawful.before_lt some' before
      omega
    · rw [same]
      exact Tm.le_last valid inside.2
    · omega
  · rcases lawful.clamped_cases t with ⟨before, _⟩ | ⟨_, same⟩ | ⟨found', _⟩
    · have early := lawful.before_lt some' before
      omega
    · rw [same]
      exact Tm.le_last valid inside.2
    · exact lawful.ordered _ _ _ _ le found found'

end

end

end Lawful

end Zone

end PadOS.LocalTime
