import AutoExpo.Kit.Calendar
import AutoExpo.Kit.Decimal

/-!
# Times as `save_data` writes them

`std::gmtime` and `std::put_time`, as far as `save_data` uses them, and the
texts it makes of one exposure start: the DATE-OBS value, the directory, the
time in the file name. A `system_clock` time point is a number of nanoseconds
since 1970; `to_time_t` and the casts to milliseconds truncate.

Within the years 1970 to 9999 every text has its fixed width, and the time in
the file name determines the millisecond of the exposure start
(`stampText_injective`).
-/

namespace AutoExpo.Save

open Kit Kit.Decimal

/-- `std::tm`, the fields the formats read. -/
structure Tm where
  tmSec : Nat
  tmMin : Nat
  tmHour : Nat
  tmMday : Nat
  tmMon : Nat
  tmYear : Int
  deriving DecidableEq, Repr

/-- The `tm` that `std::gmtime` stores. -/
def gmtime (rawtime : Int) : Tm :=
  let date := Calendar.ofDays (rawtime / 86400)
  let sec := (rawtime % 86400).toNat
  { tmSec := sec % 60
    tmMin := sec / 60 % 60
    tmHour := sec / 3600
    tmMday := date.mday
    tmMon := date.mon
    tmYear := date.year - 1900 }

/-- `system_clock::to_time_t`. -/
def toTimeT (t : Int) : Int := t.tdiv 1000000000

/-- `duration_cast<milliseconds>(t) % 1000`. -/
def millis (t : Int) : Int := (t.tdiv 1000000).tmod 1000

/-! ## Formats -/

def decimalInt : Int → Text
  | .ofNat n => decimal n
  | .negSucc n => '-' :: decimal (n + 1)

def directive (tm : Tm) : Char → Text
  | 'Y' => decimalInt (tm.tmYear + 1900)
  | 'm' => padded 2 (tm.tmMon + 1)
  | 'd' => padded 2 tm.tmMday
  | 'H' => padded 2 tm.tmHour
  | 'M' => padded 2 tm.tmMin
  | 'S' => padded 2 tm.tmSec
  | 'F' => decimalInt (tm.tmYear + 1900) ++ ['-'] ++ padded 2 (tm.tmMon + 1) ++ ['-'] ++
      padded 2 tm.tmMday
  | 'T' => padded 2 tm.tmHour ++ [':'] ++ padded 2 tm.tmMin ++ [':'] ++ padded 2 tm.tmSec
  | c => ['%', c]

/-- `std::put_time`, with the conversions `save_data` uses. -/
def putTime (tm : Tm) : Text → Text
  | '%' :: c :: rest => directive tm c ++ putTime tm rest
  | c :: rest => c :: putTime tm rest
  | [] => []

/-- `setfill('0')`, `setw(3)`. -/
def msText (ms : Int) : Text := (decimalInt ms).leftpad 3 '0'

def dateObsText (tm : Tm) (ms : Int) : Text := putTime tm "%F %T".toList ++ ['.'] ++ msText ms

def yearText (tm : Tm) : Text := putTime tm "%Y".toList

def monthDayText (tm : Tm) : Text := putTime tm "%m%d".toList

def hourText (tm : Tm) : Text := putTime tm "%H".toList

def nameText (tm : Tm) : Text := putTime tm "%Y%m%d_%H%M%S_".toList

/-- The time in a file name. -/
def stampText (tm : Tm) (ms : Int) : Text := nameText tm ++ msText ms

example : dateObsText (gmtime (toTimeT 1570884701950000000)) (millis 1570884701950000000) =
    "2019-10-12 12:51:41.950".toList := by decide +kernel

/-- The pieces of the time in a file name. -/
def Tm.pieces (tm : Tm) (ms : Int) : List Text :=
  [decimalInt (tm.tmYear + 1900), padded 2 (tm.tmMon + 1), padded 2 tm.tmMday, ['_'],
    padded 2 tm.tmHour, padded 2 tm.tmMin, padded 2 tm.tmSec, ['_'], msText ms]

theorem stampText_pieces (tm : Tm) (ms : Int) : stampText tm ms = (tm.pieces ms).flatten := by
  simp [stampText, nameText, putTime, directive, Tm.pieces]

/-! ## What the texts tell of the time -/

theorem tm_bounds (rawtime : Int) :
    (gmtime rawtime).tmMon + 1 < 10 ^ 2 ∧ (gmtime rawtime).tmMday < 10 ^ 2 ∧
      (gmtime rawtime).tmHour < 10 ^ 2 ∧ (gmtime rawtime).tmMin < 10 ^ 2 ∧
      (gmtime rawtime).tmSec < 10 ^ 2 := by
  obtain ⟨hmon, -, hmday⟩ := Calendar.ofDays_bounds (rawtime / 86400)
  simp only [gmtime]
  omega

/-- The calendar fields determine the second. -/
theorem gmtime_injective {a b : Int} (h : gmtime a = gmtime b) : a = b := by
  simp only [gmtime, Tm.mk.injEq] at h
  obtain ⟨hsec, hmin, hhour, hmday, hmon, hyear⟩ := h
  have hdate : Calendar.ofDays (a / 86400) = Calendar.ofDays (b / 86400) := by
    cases ha : Calendar.ofDays (a / 86400)
    cases hb : Calendar.ofDays (b / 86400)
    simp only [ha, hb] at hmday hmon hyear
    simp only [Calendar.Date.mk.injEq]
    exact ⟨by omega, hmon, hmday⟩
  have hday := Calendar.ofDays_injective hdate
  omega

/-- The start times the names are made for: the years 1970 to 9999. -/
def InYears (t : Int) : Prop := 0 ≤ t ∧ (gmtime (toTimeT t)).tmYear + 1900 ≤ 9999

instance (t : Int) : Decidable (InYears t) := inferInstanceAs (Decidable (_ ∧ _))

theorem toTimeT_eq {t : Int} (h : 0 ≤ t) : toTimeT t = t / 1000000000 :=
  Int.tdiv_eq_ediv_of_nonneg h

theorem millis_eq {t : Int} (h : 0 ≤ t) : millis t = t / 1000000 % 1000 := by
  have hms : 0 ≤ t / 1000000 := by omega
  rw [millis, Int.tdiv_eq_ediv_of_nonneg h, Int.tmod_eq_emod_of_nonneg hms]

theorem msText_eq {t : Int} (h : 0 ≤ t) :
    msText (millis t) = padded 3 (t / 1000000 % 1000).toNat := by
  rw [millis_eq h]
  have hms : t / 1000000 % 1000 = .ofNat (t / 1000000 % 1000).toNat := by
    rw [Int.ofNat_eq_natCast]
    omega
  rw [hms]
  rfl

/-- In these years the year has four digits. -/
theorem InYears.year {t : Int} (h : InYears t) : ∃ n : Nat,
    decimalInt ((gmtime (toTimeT t)).tmYear + 1900) = decimal n ∧
      (gmtime (toTimeT t)).tmYear + 1900 = n ∧ 10 ^ 3 ≤ n ∧ n < 10 ^ 4 := by
  obtain ⟨hpos, hlast⟩ := h
  have hfirst : 1970 ≤ (gmtime (toTimeT t)).tmYear + 1900 := by
    have hday : 0 ≤ toTimeT t / 86400 := by
      rw [toTimeT_eq hpos]
      omega
    have hyear := Calendar.ofDays_year hday
    simp only [gmtime]
    omega
  obtain ⟨n, hn⟩ := Int.eq_ofNat_of_zero_le (by omega : 0 ≤ (gmtime (toTimeT t)).tmYear + 1900)
  rw [hn] at hfirst hlast ⊢
  exact ⟨n, rfl, rfl, by omega, by omega⟩

theorem flatten_injective {xs ys : List Text} (hlen : xs.map List.length = ys.map List.length)
    (h : xs.flatten = ys.flatten) : xs = ys := by
  induction xs generalizing ys with
  | nil => cases ys with
      | nil => rfl
      | cons y ys => cases hlen
  | cons x xs ih => cases ys with
      | nil => cases hlen
      | cons y ys =>
          simp only [List.map_cons, List.cons.injEq] at hlen
          obtain ⟨hx, hxs⟩ := List.append_inj h hlen.1
          rw [hx, ih hlen.2 hxs]

/-- The widths of the pieces. -/
theorem pieces_lengths {t : Int} (h : InYears t) :
    ((gmtime (toTimeT t)).pieces (millis t)).map List.length = [4, 2, 2, 1, 2, 2, 2, 1, 3] := by
  obtain ⟨hmon, hmday, hhour, hmin, hsec⟩ := tm_bounds (toTimeT t)
  obtain ⟨n, hyear, -, hlow, hhigh⟩ := h.year
  have hms : (t / 1000000 % 1000).toNat < 10 ^ 3 := by omega
  simp only [Tm.pieces, List.map_cons, List.map_nil, hyear, msText_eq h.1,
    length_decimal (by decide : 0 < 3) hlow hhigh, length_padded (by decide : 0 < 3) hms,
    length_padded (by decide : 0 < 2) hmon, length_padded (by decide : 0 < 2) hmday,
    length_padded (by decide : 0 < 2) hhour, length_padded (by decide : 0 < 2) hmin,
    length_padded (by decide : 0 < 2) hsec, List.length_cons, List.length_nil]

theorem length_stampText {t : Int} (h : InYears t) :
    (stampText (gmtime (toTimeT t)) (millis t)).length = 19 := by
  rw [stampText_pieces, List.length_flatten, pieces_lengths h]
  rfl

/-- The time in the file name determines the millisecond. -/
theorem stampText_injective {t u : Int} (ht : InYears t) (hu : InYears u)
    (h : stampText (gmtime (toTimeT t)) (millis t) = stampText (gmtime (toTimeT u)) (millis u)) :
    t / 1000000 = u / 1000000 := by
  rw [stampText_pieces, stampText_pieces] at h
  have hpieces := flatten_injective ((pieces_lengths ht).trans (pieces_lengths hu).symm) h
  obtain ⟨n, hn, hyear, -⟩ := ht.year
  obtain ⟨m, hm, hyear', -⟩ := hu.year
  simp only [Tm.pieces, List.cons.injEq, hn, hm, msText_eq ht.1, msText_eq hu.1] at hpieces
  obtain ⟨hy, hmon, hmday, -, hhour, hmin, hsec, -, hms, -⟩ := hpieces
  have hyears := decimal_injective hy
  have hmonths := padded_injective hmon
  have htm : gmtime (toTimeT t) = gmtime (toTimeT u) := by
    have hmday := padded_injective hmday
    have hhour := padded_injective hhour
    have hmin := padded_injective hmin
    have hsec := padded_injective hsec
    generalize gmtime (toTimeT t) = a at *
    generalize gmtime (toTimeT u) = b at *
    cases a
    cases b
    simp only [Tm.mk.injEq] at *
    omega
  have hraw := gmtime_injective htm
  rw [toTimeT_eq ht.1, toTimeT_eq hu.1] at hraw
  have hmillis := padded_injective hms
  omega

end AutoExpo.Save
