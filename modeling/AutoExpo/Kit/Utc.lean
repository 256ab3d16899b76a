import AutoExpo.Kit.Calendar
import AutoExpo.Kit.Decimal
import Mathlib.Tactic.IntervalCases

/-!
# Times in UTC

A date and a time of the day, the milliseconds from 1 January 1970 to it, and
its fields as texts of fixed width. The days are counted in closed form, by the
leap years since the year 1, and not by the positions of `Kit.Calendar`; that
the two counts agree is `day_ofDays`.
-/

namespace Kit

/-- A date and a time of the day, to the millisecond; months and days count from 1. -/
structure Utc where
  year : Int
  month : Nat
  day : Nat
  hour : Nat
  minute : Nat
  second : Nat
  milli : Nat
  deriving DecidableEq, Repr

namespace Utc

open Calendar

/-- The days of all years before `y`, up to a constant. -/
def daysBeforeYear (y : Int) : Int := 365 * y + (y - 1) / 4 - (y - 1) / 100 + (y - 1) / 400

/-- The days of the year before the month; the 13th begins the next year. -/
def daysBeforeMonth (y : Int) (month : Nat) : Nat :=
  [0, 31, 59, 90, 120, 151, 181, 212, 243, 273, 304, 334, 365].getD (month - 1) 0 +
    if 2 < month ∧ isLeap y then 1 else 0

/-- The days since 1 January 1970. -/
def dayNumber (u : Utc) : Int :=
  daysBeforeYear u.year - daysBeforeYear 1970 + daysBeforeMonth u.year u.month + u.day - 1

/-- The milliseconds since 1 January 1970. -/
def instant (u : Utc) : Int :=
  (((u.dayNumber * 24 + u.hour) * 60 + u.minute) * 60 + u.second) * 1000 + u.milli

/-- There is such a date, and such a time of the day. -/
structure Valid (u : Utc) : Prop where
  month : 1 ≤ u.month ∧ u.month ≤ 12
  day : 1 ≤ u.day ∧ daysBeforeMonth u.year u.month + u.day ≤ daysBeforeMonth u.year (u.month + 1)
  hour : u.hour < 24
  minute : u.minute < 60
  second : u.second < 60
  milli : u.milli < 1000

example : (Utc.mk 2019 10 12 12 51 41 950).instant = 1570884701950 := by decide

/-- The last `w` digits of `n`. -/
def digits : Nat → Nat → Text
  | 0, _ => []
  | w + 1, n => digits w (n / 10) ++ [Nat.digitChar (n % 10)]

/-! ## The two counts of the days -/

/-- A year is a day longer if the count of the leap years goes up in it. -/
theorem daysBeforeYear_succ (y : Int) : daysBeforeYear (y + 1) = daysBeforeYear y + yearLen y := by
  unfold daysBeforeYear yearLen isLeap
  split
  next hleap =>
    simp only [Bool.decide_and, Bool.decide_or, Bool.and_eq_true, Bool.or_eq_true,
      decide_eq_true_eq] at hleap
    omega
  next hleap =>
    simp only [Bool.decide_and, Bool.decide_or, Bool.and_eq_true, Bool.or_eq_true,
      decide_eq_true_eq] at hleap
    omega

theorem daysBeforeYear_era (y k : Int) :
    daysBeforeYear (y + 400 * k) = daysBeforeYear y + eraDays * k := by
  unfold daysBeforeYear eraDays
  omega

/-- The first years of an era, day by day. -/
theorem eraLens_take {k : Nat} (hk : k ≤ 400) :
    ((eraLens.take k).sum : Int) = daysBeforeYear (1970 + k) - daysBeforeYear 1970 := by
  induction k with
  | zero => simp
  | succ k ih =>
      have hlen : k < eraLens.length := by
        simp only [eraLens, List.length_map, List.length_range]
        omega
      have hyear : eraLens[k] = yearLen (1970 + k) := by simp [eraLens]
      have hnext := daysBeforeYear_succ (1970 + k)
      rw [List.sum_take_succ _ _ hlen, hyear]
      have hrest := ih (by omega)
      rw [Nat.cast_add, hrest, Nat.cast_succ, ← Int.add_assoc]
      omega

theorem monthLens_take {y : Int} {mon : Nat} (hmon : mon ≤ 12) :
    ((monthLens y).take mon).sum = daysBeforeMonth y (mon + 1) := by
  unfold monthLens daysBeforeMonth
  cases hleap : isLeap y <;> interval_cases mon <;> rfl

/-- The date that `d` is the day of is `d` days after 1 January 1970. -/
theorem day_ofDays (d : Int) :
    daysBeforeYear (ofDays d).year - daysBeforeYear 1970 +
      daysBeforeMonth (ofDays d).year ((ofDays d).mon + 1) + (ofDays d).mday - 1 = d := by
  obtain ⟨hmon, hmday, -⟩ := ofDays_bounds d
  have hdays := days_ofDays d
  generalize ofDays d = date at *
  have hera := daysBeforeYear_era (1970 + (date.year - 1970) % 400) ((date.year - 1970) / 400)
  have hyears := eraLens_take (k := ((date.year - 1970) % 400).toNat) (by omega)
  rw [show (((date.year - 1970) % 400).toNat : Int) = (date.year - 1970) % 400 by omega] at hyears
  rw [show 1970 + (date.year - 1970) % 400 + 400 * ((date.year - 1970) / 400) = date.year by omega]
    at hera
  rw [Date.days, monthLens_take (by omega)] at hdays
  omega

/-- A day of the month is none of the next. -/
theorem mday_le (d : Int) : daysBeforeMonth (ofDays d).year ((ofDays d).mon + 1) + (ofDays d).mday ≤
    daysBeforeMonth (ofDays d).year ((ofDays d).mon + 2) := by
  obtain ⟨len, hlen, hle⟩ := position_year d
  obtain ⟨hmon, hget⟩ := List.getElem?_eq_some_iff.mp hlen
  have hnext := List.sum_take_succ _ _ hmon
  have hlt : (ofDays d).mon < 12 := (ofDays_bounds d).1
  rw [monthLens_take (by omega), monthLens_take (by omega), hget] at hnext
  rw [hnext]
  omega

/-! ## Texts -/

/-- A padded text is the last digit and the padded text of the rest. -/
theorem padded_succ (w n : Nat) :
    Decimal.padded (w + 2) n = Decimal.padded (w + 1) (n / 10) ++ [Nat.digitChar (n % 10)] := by
  unfold Decimal.padded Decimal.decimal
  rw [Nat.toDigits_eq_if (by decide) (n := n)]
  split
  next hn =>
    rw [Nat.div_eq_of_lt hn, Nat.mod_eq_of_lt hn, Nat.toDigits_of_lt_base (by decide : 0 < 10)]
    simp [List.leftpad, List.replicate_succ', Nat.digitChar]
  next =>
    simp only [List.leftpad, List.length_append, List.length_singleton, List.append_assoc]
    rw [show w + 2 - ((Nat.toDigits 10 (n / 10)).length + 1) =
      w + 1 - (Nat.toDigits 10 (n / 10)).length by omega]

/-- A number that has no more digits is padded. -/
theorem digits_eq_padded {w n : Nat} (h : n < 10 ^ (w + 1)) :
    digits (w + 1) n = Decimal.padded (w + 1) n := by
  induction w generalizing n with
  | zero =>
      have hn : n < 10 := h
      rw [Decimal.padded, Decimal.decimal, Nat.toDigits_of_lt_base hn]
      simp [digits, Nat.mod_eq_of_lt hn, List.leftpad]
  | succ w ih =>
      have hrest : n / 10 < 10 ^ (w + 1) := by
        rw [Nat.pow_succ] at h
        omega
      rw [digits, ih hrest, padded_succ]

end Utc

end Kit
