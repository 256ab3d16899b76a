import AutoExpo.Kit.Utc
import AutoExpo.Save.SaveData
import Mathlib.Data.Fintype.Basic
import Mathlib.Data.Fintype.Pi

/-!
# The times of concurrent saves

`std::gmtime` stores into one `tm` for the whole process, and a save reads it
five times. As long as no save stores a different time while another one still
has to read its own, every text a save makes is the UTC rendering of its own
frame's start time (`own_time`): the fields of a valid date and time of the day
that is as many milliseconds after 1970 as the frame's start. Before 1970 the
casts round up, and that holds on the whole seconds only.
-/

namespace AutoExpo.Save

open Kit

variable {ι : Type}

/-! ## The UTC rendering -/

def utcYear (u : Utc) : Text := (toString u.year).toList

/-- Like `1012`. -/
def utcMonthDay (u : Utc) : Text := Utc.digits 2 u.month ++ Utc.digits 2 u.day

def utcHour (u : Utc) : Text := Utc.digits 2 u.hour

/-- Like `2019-10-12 12:51:41.950`. -/
def utcDateObs (u : Utc) : Text :=
  utcYear u ++ ['-'] ++ Utc.digits 2 u.month ++ ['-'] ++ Utc.digits 2 u.day ++ [' '] ++
    Utc.digits 2 u.hour ++ [':'] ++ Utc.digits 2 u.minute ++ [':'] ++ Utc.digits 2 u.second ++
    ['.'] ++ Utc.digits 3 u.milli

/-- Like `20191012_125141_950`. -/
def utcStamp (u : Utc) : Text :=
  utcYear u ++ utcMonthDay u ++ ['_'] ++ utcHour u ++ Utc.digits 2 u.minute ++
    Utc.digits 2 u.second ++ ['_'] ++ Utc.digits 3 u.milli

/-- The file is stamped and filed under the time `u`, and that is its frame's start. -/
structure StampedWith (cfg : Config ι) (u : Utc) (e : Saved ι) : Prop where
  valid : u.Valid
  start : u.instant = e.imgMeta.timExpoStart / 1000000
  dateObs : e.dateObs = utcDateObs u
  output : e.output = [cfg.output, utcYear u, utcMonthDay u, utcHour u]
  fname : e.fname = ['!'] ++ cfg.output ++ ['/'] ++ utcYear u ++ ['/'] ++ utcMonthDay u ++ ['/'] ++
    utcHour u ++ ['/'] ++ cfg.namePrefix ++ cfg.prodId e.cam ++ ['_'] ++ utcStamp u ++
    ".fits.fz[compress]".toList

/-- A file that is stamped and filed under its own time. -/
def OwnTime (cfg : Config ι) (e : Saved ι) : Prop := ∃ u, StampedWith cfg u e

/-- The casts round down: the frame starts in 1970 or later, or at a whole second. -/
def RoundsDown (t : Int) : Prop := 0 ≤ t ∨ t % 1000000000 = 0

instance (t : Int) : Decidable (RoundsDown t) := inferInstanceAs (Decidable (_ ∨ _))

theorem toTimeT_floor {t : Int} (h : RoundsDown t) : toTimeT t = t / 1000000000 := by
  rcases h with h | h
  · exact toTimeT_eq h
  · exact Int.tdiv_eq_ediv_of_dvd (Int.dvd_of_emod_eq_zero h)

theorem millis_floor {t : Int} (h : RoundsDown t) : millis t = t / 1000000 % 1000 := by
  rcases h with h | h
  · exact millis_eq h
  · have hdiv : t.tdiv 1000000 = t / 1000000 :=
      Int.tdiv_eq_ediv_of_dvd (Int.dvd_of_emod_eq_zero (by omega))
    have hmod : (t / 1000000).tmod 1000 = 0 := Int.tmod_eq_zero_of_dvd (by omega)
    rw [millis, hdiv, hmod]
    omega

/-- The fields of the `tm` that `gmtime` stores, and the milliseconds. -/
def utcOf (t : Int) : Utc :=
  let tm := Save.gmtime (toTimeT t)
  { year := tm.tmYear + 1900
    month := tm.tmMon + 1
    day := tm.tmMday
    hour := tm.tmHour
    minute := tm.tmMin
    second := tm.tmSec
    milli := (millis t).toNat }

theorem utcOf_valid {t : Int} (h : RoundsDown t) : (utcOf t).Valid := by
  obtain ⟨hmon, hmday, -⟩ := Calendar.ofDays_bounds (toTimeT t / 86400)
  have hday := Utc.mday_le (toTimeT t / 86400)
  have hms := millis_floor h
  constructor
  · exact ⟨Nat.le_add_left 1 _, hmon⟩
  · simp only [utcOf, Save.gmtime, Int.sub_add_cancel]
    exact ⟨hmday, hday⟩
  all_goals
    simp only [utcOf, Save.gmtime]
    omega

/-- The instant of these fields is the start of the frame. -/
theorem utcOf_instant {t : Int} (h : RoundsDown t) : (utcOf t).instant = t / 1000000 := by
  have hday := Utc.day_ofDays (toTimeT t / 86400)
  have hms := millis_floor h
  have hraw := toTimeT_floor h
  simp only [Utc.instant, Utc.dayNumber, utcOf, Save.gmtime, Int.sub_add_cancel]
  rw [hday, hms, hraw]
  omega

theorem decimalInt_eq (y : Int) : decimalInt y = (toString y).toList := by
  cases y <;> simp [decimalInt, toString, Int.repr, Nat.repr, Decimal.decimal]

/-! ## The texts of a save -/

/-- The texts that the code makes of a frame's own `tm`. -/
def ownDateObs (m : ImgMeta) : Text := dateObsText (ownTm m) (ownMs m)

def Config.ownDir (cfg : Config ι) (m : ImgMeta) : Dir :=
  cfg.outputDir (yearText (ownTm m)) (monthDayText (ownTm m)) (hourText (ownTm m))

def ownStamp (m : ImgMeta) : Text := stampText (ownTm m) (ownMs m)

/-- A file all of whose texts are made of its frame's own `tm`. -/
structure FromOwnTm (cfg : Config ι) (e : Saved ι) : Prop where
  dateObs : e.dateObs = ownDateObs e.imgMeta
  output : e.output = cfg.ownDir e.imgMeta
  fname : e.fname = cfg.fname e.cam (cfg.ownDir e.imgMeta) (ownStamp e.imgMeta)

section
variable {t : Int}

theorem yearText_utc (t : Int) : yearText (Save.gmtime (toTimeT t)) = utcYear (utcOf t) := by
  simp [yearText, putTime, directive, utcYear, utcOf, decimalInt_eq]

theorem monthDayText_utc (t : Int) :
    monthDayText (Save.gmtime (toTimeT t)) = utcMonthDay (utcOf t) := by
  obtain ⟨hmon, hmday, -⟩ := tm_bounds (toTimeT t)
  simp [monthDayText, putTime, directive, utcMonthDay, utcOf, Utc.digits_eq_padded hmon,
    Utc.digits_eq_padded hmday]

theorem hourText_utc (t : Int) : hourText (Save.gmtime (toTimeT t)) = utcHour (utcOf t) := by
  obtain ⟨-, -, hhour, -⟩ := tm_bounds (toTimeT t)
  simp [hourText, putTime, directive, utcHour, utcOf, Utc.digits_eq_padded hhour]

theorem msText_utc (h : RoundsDown t) : msText (millis t) = Utc.digits 3 (utcOf t).milli := by
  have hms := millis_floor h
  have hlt : (millis t).toNat < 10 ^ 3 := by omega
  have hnat : millis t = .ofNat (millis t).toNat := by
    rw [Int.ofNat_eq_natCast]
    omega
  rw [utcOf, Utc.digits_eq_padded hlt, hnat]
  rfl

theorem dateObsText_utc (h : RoundsDown t) :
    dateObsText (Save.gmtime (toTimeT t)) (millis t) = utcDateObs (utcOf t) := by
  obtain ⟨hmon, hmday, hhour, hmin, hsec⟩ := tm_bounds (toTimeT t)
  rw [dateObsText, msText_utc h]
  simp [putTime, directive, utcDateObs, utcYear, utcOf, decimalInt_eq, Utc.digits_eq_padded hmon,
    Utc.digits_eq_padded hmday, Utc.digits_eq_padded hhour, Utc.digits_eq_padded hmin,
    Utc.digits_eq_padded hsec]

theorem stampText_utc (h : RoundsDown t) :
    stampText (Save.gmtime (toTimeT t)) (millis t) = utcStamp (utcOf t) := by
  obtain ⟨hmon, hmday, hhour, hmin, hsec⟩ := tm_bounds (toTimeT t)
  rw [stampText, msText_utc h]
  simp [nameText, putTime, directive, utcStamp, utcYear, utcMonthDay, utcHour, utcOf,
    decimalInt_eq, Utc.digits_eq_padded hmon, Utc.digits_eq_padded hmday,
    Utc.digits_eq_padded hhour, Utc.digits_eq_padded hmin, Utc.digits_eq_padded hsec]

end

/-- The texts of a frame's own `tm` are the rendering of its start. -/
theorem FromOwnTm.ownTime {cfg : Config ι} {e : Saved ι} (he : FromOwnTm cfg e)
    (hstart : RoundsDown e.imgMeta.timExpoStart) : OwnTime cfg e := by
  have houtput : cfg.ownDir e.imgMeta = [cfg.output, utcYear (utcOf e.imgMeta.timExpoStart),
      utcMonthDay (utcOf e.imgMeta.timExpoStart), utcHour (utcOf e.imgMeta.timExpoStart)] := by
    simp only [Config.ownDir, Config.outputDir, ownTm, yearText_utc, monthDayText_utc,
      hourText_utc]
  refine ⟨utcOf e.imgMeta.timExpoStart, utcOf_valid hstart, utcOf_instant hstart, ?_, ?_, ?_⟩
  · rw [he.dateObs]
    exact dateObsText_utc hstart
  · rw [he.output, houtput]
  · have hstamp : ownStamp e.imgMeta = utcStamp (utcOf e.imgMeta.timExpoStart) :=
      stampText_utc hstart
    rw [he.fname, houtput, hstamp]
    simp [Config.fname, Dir.text, List.intercalate, List.intersperse]

/-- The texts a call has made so far are its own frame's. -/
def OwnTexts (cfg : Config ι) (c : ι) : SavePc → Prop
  | .idle | .gmtime _ | .dateObs _ => True
  | .year m dateObs => dateObs = ownDateObs m
  | .monthDay m dateObs year => dateObs = ownDateObs m ∧ year = yearText (ownTm m)
  | .hour m dateObs year monthDay => dateObs = ownDateObs m ∧ year = yearText (ownTm m) ∧
      monthDay = monthDayText (ownTm m)
  | .fsExists m dateObs output | .createDirs m dateObs output | .fname m dateObs output =>
      dateObs = ownDateObs m ∧ output = cfg.ownDir m
  | .write m dateObs output fname => dateObs = ownDateObs m ∧ output = cfg.ownDir m ∧
      fname = cfg.fname c (cfg.ownDir m) (ownStamp m)

/-- A call that has still to read the `tm` finds its own time there. -/
structure Keeps (cfg : Config ι) (c : ι) (s : Shared ι) (l : SavePc) : Prop where
  tm : ∀ m, l.holdsTm = some m → s.tm = ownTm m
  texts : OwnTexts cfg c l

variable {cfg : Config ι} {c : ι} {s s' : Shared ι} {l l' l₂ : SavePc} {a : SaveAct}

/-- A step of a call that reads its own time makes the texts of its own time. -/
theorem SaveStep.keeps (h : SaveStep cfg c s l a s' l') (hs : Keeps cfg c s l) :
    Keeps cfg c s' l' := by
  obtain ⟨htm, htexts⟩ := hs
  cases h with
  | saveData m => exact ⟨fun _ hm => (by cases hm), trivial⟩
  | gmtime m => exact ⟨fun _ hm => (by cases hm; rfl), trivial⟩
  | dateObs m =>
      refine ⟨htm, ?_⟩
      show dateObsText s.tm (ownMs m) = ownDateObs m
      rw [htm m rfl, ownDateObs]
  | year m dateObs => exact ⟨htm, htexts, by rw [htm m rfl]⟩
  | monthDay m dateObs year => exact ⟨htm, htexts.1, htexts.2, by rw [htm m rfl]⟩
  | hour m dateObs year monthDay =>
      obtain ⟨hdate, hyear, hmonth⟩ := htexts
      refine ⟨htm, hdate, ?_⟩
      rw [hyear, hmonth, htm m rfl, Config.ownDir]
  | found m dateObs output | missing m dateObs output | created m dateObs output =>
      exact ⟨htm, htexts⟩
  | there | refused | failed | write => exact ⟨fun _ hm => (by cases hm), trivial⟩
  | fname m dateObs output =>
      obtain ⟨hdate, hout⟩ := htexts
      refine ⟨fun _ hm => (by cases hm), hdate, hout, ?_⟩
      rw [hout, htm m rfl, ownStamp]

/-- What is written is what the texts say. -/
theorem SaveStep.writes (h : SaveStep cfg c s l a s' l') (hs : Keeps cfg c s l)
    (hsaved : ∀ e ∈ s.saved, FromOwnTm cfg e) : ∀ e ∈ s'.saved, FromOwnTm cfg e := by
  cases h with
  | write m dateObs output fname =>
      intro e he
      rcases List.mem_append.mp he with he | he
      · exact hsaved e he
      · rw [List.mem_singleton] at he
        obtain ⟨hdate, hout, hname⟩ := hs.texts
        subst he
        exact ⟨hdate, hout, hname⟩
  | _ => exact hsaved

/-- Another call leaves the time a call has still to read, if it stores no other. -/
theorem Keeps.keep (h : SaveStep cfg c s l a s' l') {d : ι} (hs : Keeps cfg d s l₂)
    (hsame : ∀ m, l = .gmtime m → a = .gmtime → ∀ m₂, l₂.holdsTm = some m₂ →
      ownTm m = ownTm m₂) : Keeps cfg d s' l₂ := by
  refine ⟨?_, hs.texts⟩
  intro m₂ hm₂
  rcases h.tm with htm | ⟨m, hl, ha, htm⟩
  · rw [htm]
    exact hs.tm m₂ hm₂
  · rw [htm]
    exact hsame m hl ha m₂ hm₂

section

variable [DecidableEq ι] [Fintype ι]

/-- No other save has still to read a different time than this step stores. -/
def keepsTm (c : Threads.Conf ι (Shared ι) SavePc) (a : ι × SaveAct) : Bool :=
  match a.2, c.loc a.1 with
  | .gmtime, .gmtime m => decide (∀ j, j ≠ a.1 →
      ((c.loc j).holdsTm.all fun m₂ => ownTm m = ownTm m₂) = true)
  | _, _ => true

theorem keeps_outline (cfg : Config ι) :
    (saves cfg).Outline (fun c a => keepsTm c a = true)
      (fun s => ∀ e ∈ s.saved, FromOwnTm cfg e) (Keeps cfg) where
  initShared s h e he := by
    rw [h.2] at he
    cases he
  initLocal i s l _ h := by
    subst h
    exact ⟨fun _ hm => (by cases hm), trivial⟩
  own c i a s' l' _ hG hP hact := by
    obtain ⟨_, hstep⟩ := saves_act hact
    exact ⟨hstep.writes hP hG, hstep.keeps hP⟩
  others c i j a s' l' hij hC _ hPi _ hact := by
    obtain ⟨_, hstep⟩ := saves_act hact
    apply hPi.keep hstep
    intro m hl ha m₂ hm₂
    subst ha
    simp only [keepsTm, hl, decide_eq_true_eq] at hC
    simpa [hm₂] using hC i hij

end

/-- Two saves of different times, the second begun when the first has read its time. -/
def savesInTurn : List (Bool × SaveAct) :=
  of false (lookUp (frameAt 0) ++ [.createDirectories 0, .putName]) ++
    of true (lookUp (frameAt 5000000000)) ++ of false [.writeFits 0] ++ of true finish

/-- The rendering ends with the seconds and the milliseconds. -/
theorem utcDateObs_ends (u : Utc) : ∃ front, utcDateObs u =
    front ++ (Utc.digits 2 u.second ++ ['.'] ++ Utc.digits 3 u.milli) :=
  ⟨_, by rw [utcDateObs, List.append_assoc, List.append_assoc, ← List.append_assoc _ ['.']]⟩

end AutoExpo.Save
