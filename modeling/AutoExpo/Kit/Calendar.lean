import Mathlib.Algebra.BigOperators.Group.List.Basic
import Mathlib.Algebra.Ring.Nat
import Mathlib.Tactic.Common

/-!
# The Gregorian calendar

Days counted from 1 January 1970 as dates, and back. The calendar repeats after
400 years; within such an era a day is found by its position in the list of the
years' lengths, and within the year in the list of the months' lengths.
-/

namespace Kit.Calendar

/-! ## Positions in consecutive spans -/

/-- The span that holds the `d`-th item, and the item's place in it. -/
def position : List Nat → Nat → Nat × Nat
  | [], d => (0, d)
  | len :: rest, d =>
      if d < len then (0, d) else ((position rest (d - len)).1 + 1, (position rest (d - len)).2)

/-- The spans before the one that holds an item, and its place there, add up to it. -/
theorem position_sum (lens : List Nat) (d : Nat) :
    (lens.take (position lens d).1).sum + (position lens d).2 = d := by
  induction lens generalizing d with
  | nil => simp [position]
  | cons len rest ih =>
      unfold position
      split
      · simp
      next hge =>
        have hrest := ih (d - len)
        simp only [List.take_succ_cons, List.sum_cons]
        omega

theorem position_lt {lens : List Nat} {d : Nat} (h : d < lens.sum) :
    ∃ len, lens[(position lens d).1]? = some len ∧ (position lens d).2 < len := by
  induction lens generalizing d with
  | nil => simp at h
  | cons len rest ih =>
      unfold position
      split
      next hlt => exact ⟨len, rfl, hlt⟩
      next hge =>
        rw [List.sum_cons] at h
        exact ih (by omega)

theorem position_zero {lens : List Nat} (hpos : ∀ len ∈ lens, 0 < len) :
    position lens 0 = (0, 0) := by
  cases lens with
  | nil => rfl
  | cons len rest =>
      unfold position
      rw [if_pos (hpos len List.mem_cons_self)]

/-- The next item is in the next place of the span, or in the first of the next one. -/
theorem position_succ {lens : List Nat} {d len : Nat} (hpos : ∀ len ∈ lens, 0 < len)
    (hlen : lens[(position lens d).1]? = some len) :
    position lens (d + 1) = if (position lens d).2 + 1 < len
      then ((position lens d).1, (position lens d).2 + 1) else ((position lens d).1 + 1, 0) := by
  induction lens generalizing d with
  | nil => simp at hlen
  | cons first rest ih =>
      have hrest : ∀ len ∈ rest, 0 < len := fun len hmem => hpos len (List.mem_cons_of_mem _ hmem)
      by_cases hd : d < first
      · simp only [position, if_pos hd, List.getElem?_cons_zero, Option.some.injEq] at hlen ⊢
        subst hlen
        by_cases hnext : d + 1 < first
        · rw [if_pos hnext, if_pos hnext]
        · have hover : d + 1 - first = 0 := by omega
          rw [if_neg hnext, if_neg hnext, hover, position_zero hrest]
      · have hd' : ¬ d + 1 < first := by omega
        have hshift : d + 1 - first = d - first + 1 := by omega
        simp only [position, if_neg hd, if_neg hd', List.getElem?_cons_succ, hshift] at hlen ⊢
        rw [ih hrest hlen]
        split <;> rfl

/-- What is left of the span is left of the whole. -/
theorem position_room {lens : List Nat} {d len : Nat}
    (hlen : lens[(position lens d).1]? = some len) :
    d + (len - (position lens d).2) ≤ lens.sum := by
  induction lens generalizing d with
  | nil => simp at hlen
  | cons first rest ih =>
      rw [List.sum_cons]
      by_cases hd : d < first
      · simp only [position, if_pos hd, List.getElem?_cons_zero, Option.some.injEq] at hlen ⊢
        omega
      · simp only [position, if_neg hd, List.getElem?_cons_succ] at hlen ⊢
        have hroom := ih hlen
        omega

/-! ## Dates -/

def isLeap (y : Int) : Bool := y % 4 = 0 ∧ (y % 100 ≠ 0 ∨ y % 400 = 0)

def yearLen (y : Int) : Nat := if isLeap y then 366 else 365

def monthLens (y : Int) : List Nat :=
  [31, if isLeap y then 29 else 28, 31, 30, 31, 30, 31, 31, 30, 31, 30, 31]

/-- The years of the era that begins in 1970. -/
def eraLens : List Nat := (List.range 400).map fun k : Nat => yearLen (1970 + k)

def eraDays : Int := 146097

theorem eraLens_sum : (eraLens.sum : Int) = eraDays := by decide +kernel

/-- A date; the month counts from 0, the day of the month from 1. -/
structure Date where
  year : Int
  mon : Nat
  mday : Nat
  deriving DecidableEq, Repr

/-- The date `d` days after 1 January 1970. -/
def ofDays (d : Int) : Date :=
  let inEra := position eraLens (d % eraDays).toNat
  let year := 1970 + 400 * (d / eraDays) + inEra.1
  let inYear := position (monthLens year) inEra.2
  { year := year, mon := inYear.1, mday := inYear.2 + 1 }

example : ofDays 18181 = ⟨2019, 9, 12⟩ := by decide +kernel

/-- The number of days from 1 January 1970 to a date. -/
def Date.days (a : Date) : Int :=
  eraDays * ((a.year - 1970) / 400) + (eraLens.take ((a.year - 1970) % 400).toNat).sum +
    ((monthLens a.year).take a.mon).sum + (a.mday - 1)

theorem isLeap_era (y k : Int) : isLeap (y + 400 * k) = isLeap y := by
  have h₄ : (y + 400 * k) % 4 = y % 4 := by omega
  have h₁₀₀ : (y + 400 * k) % 100 = y % 100 := by omega
  have h₄₀₀ : (y + 400 * k) % 400 = y % 400 := by omega
  simp only [isLeap, h₄, h₁₀₀, h₄₀₀]

theorem monthLens_sum (y : Int) : (monthLens y).sum = yearLen y := by
  unfold monthLens yearLen
  cases isLeap y <;> rfl

theorem mem_monthLens {y : Int} {len : Nat} (h : len ∈ monthLens y) : len ≤ 31 := by
  unfold monthLens at h
  cases hleap : isLeap y <;>
    simp only [hleap, Bool.false_eq_true, if_false, if_true, List.mem_cons, List.not_mem_nil,
      or_false] at h <;>
    omega

theorem inEra_lt (d : Int) : (d % eraDays).toNat < eraLens.sum := by
  have hsum := eraLens_sum
  unfold eraDays at hsum ⊢
  omega

theorem eraLens_getElem? {k len : Nat} (h : eraLens[k]? = some len) :
    k < 400 ∧ yearLen (1970 + k) = len := by
  rw [eraLens, List.getElem?_map, Option.map_eq_some_iff] at h
  obtain ⟨j, hj, hlen⟩ := h
  obtain ⟨hk, hget⟩ := List.getElem?_eq_some_iff.mp hj
  rw [List.length_range] at hk
  rw [List.getElem_range] at hget
  exact ⟨hk, hget ▸ hlen⟩

/-- A day falls into one of the 400 years of its era, and into one of the days of that
year. -/
theorem position_era (d : Int) : (position eraLens (d % eraDays).toNat).1 < 400 ∧
    (position eraLens (d % eraDays).toNat).2 <
      yearLen (1970 + (position eraLens (d % eraDays).toNat).1) := by
  obtain ⟨len, hlen, hlt⟩ := position_lt (inEra_lt d)
  obtain ⟨hk, hget⟩ := eraLens_getElem? hlen
  exact ⟨hk, hget ▸ hlt⟩

/-- A date determines its day. -/
theorem days_ofDays (d : Int) : (ofDays d).days = d := by
  obtain ⟨hk, -⟩ := position_era d
  have hyears := position_sum eraLens (d % eraDays).toNat
  have hmonths := position_sum
    (monthLens (1970 + 400 * (d / eraDays) + (position eraLens (d % eraDays).toNat).1))
    (position eraLens (d % eraDays).toNat).2
  generalize hpos : position eraLens (d % eraDays).toNat = inEra at hk hyears hmonths
  have hera : (1970 + 400 * (d / eraDays) + inEra.1 - 1970) / 400 = d / eraDays := by omega
  have hyear : ((1970 + 400 * (d / eraDays) + inEra.1 - 1970) % 400).toNat = inEra.1 := by omega
  simp only [ofDays, Date.days, hpos, hera, hyear]
  have hsplit := Int.mul_ediv_add_emod d eraDays
  have hnonneg : 0 ≤ d % eraDays := Int.emod_nonneg d (by decide)
  omega

theorem ofDays_injective {a b : Int} (h : ofDays a = ofDays b) : a = b := by
  rw [← days_ofDays a, h, days_ofDays]

theorem yearLen_era (y k : Int) : yearLen (y + 400 * k) = yearLen y := by
  simp only [yearLen, isLeap_era]

/-- The year of a date, by the years of an era. -/
theorem yearLen_ofDays (d : Int) : yearLen (ofDays d).year =
    yearLen (1970 + (position eraLens (d % eraDays).toNat).1) := by
  have hyear : (ofDays d).year =
      1970 + (position eraLens (d % eraDays).toNat).1 + 400 * (d / eraDays) := by
    simp only [ofDays]
    omega
  rw [hyear, yearLen_era]

/-- A day falls into one of the months of its year, and into one of the days of that
month. -/
theorem position_year (d : Int) : ∃ len, (monthLens (ofDays d).year)[(ofDays d).mon]? = some len ∧
    (ofDays d).mday ≤ len := by
  obtain ⟨-, hdoy⟩ := position_era d
  rw [← yearLen_ofDays, ← monthLens_sum] at hdoy
  obtain ⟨len, hlen, hlt⟩ := position_lt hdoy
  exact ⟨len, hlen, hlt⟩

theorem ofDays_bounds (d : Int) :
    (ofDays d).mon < 12 ∧ 1 ≤ (ofDays d).mday ∧ (ofDays d).mday ≤ 31 := by
  obtain ⟨len, hlen, hle⟩ := position_year d
  obtain ⟨hmon, hget⟩ := List.getElem?_eq_some_iff.mp hlen
  have hmonth := mem_monthLens (hget ▸ List.getElem_mem hmon)
  exact ⟨hmon, Nat.le_add_left _ _, Nat.le_trans hle hmonth⟩

/-- The days since 1970 fall into the years since 1970. -/
theorem ofDays_year {d : Int} (h : 0 ≤ d) : 1970 ≤ (ofDays d).year := by
  have hera : 0 ≤ d / eraDays := Int.ediv_nonneg h (by decide)
  simp only [ofDays]
  omega

/-! ## The next day -/

/-- The length of the month. -/
def Date.monthLen (a : Date) : Nat := (monthLens a.year).getD a.mon 0

theorem monthLens_pos (y : Int) : ∀ len ∈ monthLens y, 0 < len := by
  unfold monthLens
  cases isLeap y <;> decide

theorem eraLens_pos : ∀ len ∈ eraLens, 0 < len := by
  intro len hlen
  obtain ⟨k, hk, rfl⟩ := List.mem_map.mp hlen
  unfold yearLen
  split <;> omega

theorem monthLen_eq {d : Int} {len : Nat}
    (hlen : (monthLens (ofDays d).year)[(ofDays d).mon]? = some len) :
    (ofDays d).monthLen = len := by
  rw [Date.monthLen, List.getD_eq_getElem?_getD, hlen, Option.getD_some]

theorem mday_le_monthLen (d : Int) : (ofDays d).mday ≤ (ofDays d).monthLen := by
  obtain ⟨len, hlen, hle⟩ := position_year d
  rw [monthLen_eq hlen]
  exact hle

/-- The day after is the next one of the year, or the first of a year. -/
theorem position_tomorrow (d : Int) :
    if (position eraLens (d % eraDays).toNat).2 + 1 < yearLen (ofDays d).year
      then (d + 1) / eraDays = d / eraDays ∧ position eraLens ((d + 1) % eraDays).toNat =
        ((position eraLens (d % eraDays).toNat).1, (position eraLens (d % eraDays).toNat).2 + 1)
      else (position eraLens ((d + 1) % eraDays).toNat).2 = 0 := by
  obtain ⟨len, hlen, -⟩ := position_lt (inEra_lt d)
  have hyear : yearLen (ofDays d).year = len := by
    rw [yearLen_ofDays]
    exact (eraLens_getElem? hlen).2
  have hroom := position_room hlen
  have hnext := position_succ eraLens_pos hlen
  have hsum := eraLens_sum
  have hsplit := Int.mul_ediv_add_emod d eraDays
  have hnonneg := Int.emod_nonneg d (show eraDays ≠ 0 by decide)
  rw [hyear]
  by_cases hlast : (d % eraDays).toNat + 1 < eraLens.sum
  · -- the same era
    have hera : (d + 1) / eraDays = d / eraDays := by
      unfold eraDays at *
      omega
    have hmod : ((d + 1) % eraDays).toNat = (d % eraDays).toNat + 1 := by
      unfold eraDays at *
      omega
    split
    next hday => exact ⟨hera, by rw [hmod, hnext, if_pos hday]⟩
    next hday => rw [hmod, hnext, if_neg hday]
  · have hmod : ((d + 1) % eraDays).toNat = 0 := by
      unfold eraDays at *
      omega
    split
    next hday => omega
    next hday => rw [hmod, position_zero eraLens_pos]

/-- The day of the month goes up by one, or starts again with the next month. -/
theorem mday_succ (d : Int) : (ofDays (d + 1)).mday =
    if (ofDays d).mday < (ofDays d).monthLen then (ofDays d).mday + 1 else 1 := by
  obtain ⟨len, hlen, hle⟩ := position_year d
  rw [monthLen_eq hlen]
  have hroom := position_room hlen
  rw [monthLens_sum] at hroom
  have htomorrow := position_tomorrow d
  split at htomorrow
  next hday =>
    obtain ⟨hera, hpos⟩ := htomorrow
    have hnext := position_succ (monthLens_pos (ofDays d).year) hlen
    have hmday : (ofDays (d + 1)).mday = (position (monthLens (ofDays d).year)
        ((position eraLens (d % eraDays).toNat).2 + 1)).2 + 1 := by
      simp only [ofDays, hera, hpos]
    rw [hmday, hnext]
    show (if (ofDays d).mday < len then _ else _ : Nat × Nat).2 + 1 = _
    split <;> rfl
  next hday =>
    have hlast : ¬ (ofDays d).mday < len := by
      simp only [ofDays] at hroom hday ⊢
      omega
    rw [if_neg hlast]
    simp only [ofDays, htomorrow]
    rw [position_zero (monthLens_pos _)]

end Kit.Calendar
