import AutoExpo.Camera.State
import AutoExpo.Kit.Threads
import AutoExpo.Save.TimeText

/-!
# `save_data` in the data threads of all cameras

Every camera has a data thread of its own, and each runs `save_data` for its
frames, one after the other. The calls share the `tm` that `std::gmtime` stores
into and whose address it returns, and the directories. A step is one access to
what is shared: the `gmtime` call, each `put_time` that reads the `tm`,
`fs::exists`, `fs::create_directories`, and the writing of the file, which
reads neither.

The header keys other than DATE-OBS are left out; the read of the image buffer
belongs to one camera.
-/

namespace AutoExpo.Save

open Kit Kit.Decimal

/-- The flags the names are made of, and what `ASIGetID` has answered for each
camera. -/
structure Config (ι : Type) where
  output : Text
  namePrefix : Text
  getId : ι → Except AsiError Text

variable {ι : Type}

/-- `prodId` stays empty when the id could not be read. -/
def Config.prodId (cfg : Config ι) (c : ι) : Text :=
  match cfg.getId c with
  | .ok id => id
  | .error _ => []

/-- A directory, by its components; the value of `--output` counts as one. -/
abbrev Dir := List Text

def Config.outputDir (cfg : Config ι) (year monthDay hour : Text) : Dir :=
  [cfg.output, year, monthDay, hour]

def Dir.text (d : Dir) : Text := List.intercalate ['/'] d

/-- The file name handed to the FITS library. -/
def Config.fname (cfg : Config ι) (c : ι) (output : Dir) (stamp : Text) : Text :=
  ['!'] ++ Dir.text output ++ ['/'] ++ cfg.namePrefix ++ cfg.prodId c ++ ['_'] ++ stamp ++
    ".fits.fz[compress]".toList

/-- A call of `save_data`, by its next step; the texts are those made so far. -/
inductive SavePc
  | idle
  | gmtime (m : ImgMeta)
  | dateObs (m : ImgMeta)
  | year (m : ImgMeta) (dateObs : Text)
  | monthDay (m : ImgMeta) (dateObs year : Text)
  | hour (m : ImgMeta) (dateObs year monthDay : Text)
  | fsExists (m : ImgMeta) (dateObs : Text) (output : Dir)
  | createDirs (m : ImgMeta) (dateObs : Text) (output : Dir)
  | fname (m : ImgMeta) (dateObs : Text) (output : Dir)
  | write (m : ImgMeta) (dateObs : Text) (output : Dir) (fname : Text)

/-- The `abort()` calls of `save_data`. -/
inductive Abort
  | createDirectories (ec : Nat)
  | fits (status : Nat)
  deriving DecidableEq

/-- A file that has been written. -/
structure Saved (ι : Type) where
  cam : ι
  imgMeta : ImgMeta
  dateObs : Text
  output : Dir
  fname : Text

structure Shared (ι : Type) where
  tm : Tm
  dirs : Dir → Bool
  aborted : Option Abort
  saved : List (Saved ι)

inductive SaveAct
  /-- the data thread calls `save_data` with its next frame -/
  | saveData (m : ImgMeta)
  | gmtime
  | putDateObs
  | putYear
  | putMonthDay
  | putHour
  | fsExists
  | createDirectories (ec : Nat)
  | putName
  | writeFits (status : Nat)

/-- A directory and those above it come into being together. -/
def Shared.createDirs (s : Shared ι) (d : Dir) : Shared ι :=
  { s with dirs := fun q => s.dirs q || q.isPrefixOf d }

def Shared.abort (s : Shared ι) (a : Abort) : Shared ι := { s with aborted := some a }

/-- The `tm` of a frame's own start time. -/
def ownTm (m : ImgMeta) : Tm := Save.gmtime (toTimeT m.timExpoStart)

def ownMs (m : ImgMeta) : Int := millis m.timExpoStart

/-- A step of the `save_data` call of camera `c`. -/
def saveStep (cfg : Config ι) (c : ι) (s : Shared ι) : SavePc → SaveAct → Option (Shared ι × SavePc)
  | .idle, .saveData m => some (s, .gmtime m)
  | .gmtime m, .gmtime => some ({ s with tm := ownTm m }, .dateObs m)
  | .dateObs m, .putDateObs => some (s, .year m (dateObsText s.tm (ownMs m)))
  | .year m dateObs, .putYear => some (s, .monthDay m dateObs (yearText s.tm))
  | .monthDay m dateObs year, .putMonthDay => some (s, .hour m dateObs year (monthDayText s.tm))
  | .hour m dateObs year monthDay, .putHour =>
      some (s, .fsExists m dateObs (cfg.outputDir year monthDay (hourText s.tm)))
  | .fsExists m dateObs output, .fsExists =>
      some (s, if s.dirs output then .fname m dateObs output else .createDirs m dateObs output)
  | .createDirs m dateObs output, .createDirectories ec =>
      -- `false` with a clear `ec` when the directory is there, and that aborts as well
      if s.dirs output then some (s.abort (.createDirectories 0), .idle)
      else if ec = 0 then some (s.createDirs output, .fname m dateObs output)
      else some (s.abort (.createDirectories ec), .idle)
  | .fname m dateObs output, .putName =>
      some (s, .write m dateObs output (cfg.fname c output (stampText s.tm (ownMs m))))
  | .write m dateObs output fname, .writeFits status =>
      if status = 0 then
        some ({ s with saved := s.saved ++ [⟨c, m, dateObs, output, fname⟩] }, .idle)
      else some (s.abort (.fits status), .idle)
  | _, _ => none

/-- The data threads of all cameras, until one of them aborts the process. -/
def saves (cfg : Config ι) : Threads ι (Shared ι) SavePc SaveAct where
  initShared s := s.aborted = none ∧ s.saved = []
  initLocal l := l = .idle
  act c s l a := if s.aborted.isSome then none else saveStep cfg c s l a

/-! ## What a step does -/

/-- The steps of a call, one by one: what it was about to do, what the label says, the
shared state after, and where the call stands then. -/
inductive SaveStep (cfg : Config ι) (c : ι) (s : Shared ι) :
    SavePc → SaveAct → Shared ι → SavePc → Prop
  | saveData (m) : SaveStep cfg c s .idle (.saveData m) s (.gmtime m)
  | gmtime (m) : SaveStep cfg c s (.gmtime m) .gmtime { s with tm := ownTm m } (.dateObs m)
  | dateObs (m) : SaveStep cfg c s (.dateObs m) .putDateObs s
      (.year m (dateObsText s.tm (ownMs m)))
  | year (m dateObs) : SaveStep cfg c s (.year m dateObs) .putYear s
      (.monthDay m dateObs (yearText s.tm))
  | monthDay (m dateObs year) : SaveStep cfg c s (.monthDay m dateObs year) .putMonthDay s
      (.hour m dateObs year (monthDayText s.tm))
  | hour (m dateObs year monthDay) : SaveStep cfg c s (.hour m dateObs year monthDay) .putHour s
      (.fsExists m dateObs (cfg.outputDir year monthDay (hourText s.tm)))
  | found (m dateObs output) : s.dirs output = true →
      SaveStep cfg c s (.fsExists m dateObs output) .fsExists s (.fname m dateObs output)
  | missing (m dateObs output) : s.dirs output = false →
      SaveStep cfg c s (.fsExists m dateObs output) .fsExists s (.createDirs m dateObs output)
  | there (m dateObs output ec) : s.dirs output = true →
      SaveStep cfg c s (.createDirs m dateObs output) (.createDirectories ec)
        (s.abort (.createDirectories 0)) .idle
  | created (m dateObs output) : s.dirs output = false →
      SaveStep cfg c s (.createDirs m dateObs output) (.createDirectories 0)
        (s.createDirs output) (.fname m dateObs output)
  | refused (m dateObs output ec) : s.dirs output = false → ec ≠ 0 →
      SaveStep cfg c s (.createDirs m dateObs output) (.createDirectories ec)
        (s.abort (.createDirectories ec)) .idle
  | fname (m dateObs output) : SaveStep cfg c s (.fname m dateObs output) .putName s
      (.write m dateObs output (cfg.fname c output (stampText s.tm (ownMs m))))
  | write (m dateObs output fname) : SaveStep cfg c s (.write m dateObs output fname)
      (.writeFits 0) { s with saved := s.saved ++ [⟨c, m, dateObs, output, fname⟩] } .idle
  | failed (m dateObs output fname status) : status ≠ 0 →
      SaveStep cfg c s (.write m dateObs output fname) (.writeFits status)
        (s.abort (.fits status)) .idle

variable {cfg : Config ι} {c : ι} {s s' : Shared ι} {l l' : SavePc} {a : SaveAct}

theorem saveStep_cases (h : saveStep cfg c s l a = some (s', l')) :
    SaveStep cfg c s l a s' l' := by
  unfold saveStep at h
  split at h
  next m => cases h; exact .saveData m
  next m => cases h; exact .gmtime m
  next m => cases h; exact .dateObs m
  next m dateObs => cases h; exact .year m dateObs
  next m dateObs year => cases h; exact .monthDay m dateObs year
  next m dateObs year monthDay => cases h; exact .hour m dateObs year monthDay
  next m dateObs output =>
    cases hdir : s.dirs output with
    | true => simp only [hdir] at h; cases h; exact .found m dateObs output hdir
    | false => simp only [hdir] at h; cases h; exact .missing m dateObs output hdir
  next m dateObs output ec =>
    cases hdir : s.dirs output with
    | true => simp only [hdir] at h; cases h; exact .there m dateObs output ec hdir
    | false =>
        simp only [hdir, Bool.false_eq_true, if_false] at h
        split_ifs at h with hok
        · cases h; subst hok; exact .created m dateObs output hdir
        · cases h; exact .refused m dateObs output ec hdir hok
  next m dateObs output => cases h; exact .fname m dateObs output
  next m dateObs output fname status =>
    split_ifs at h with hok
    · cases h; subst hok; exact .write m dateObs output fname
    · cases h; exact .failed m dateObs output fname status hok
  next => cases h

theorem saves_act {cfg : Config ι} (h : (saves cfg).act c s l a = some (s', l')) :
    s.aborted = none ∧ SaveStep cfg c s l a s' l' := by
  simp only [saves] at h
  split at h
  next => cases h
  next hlive => exact ⟨by simpa using hlive, saveStep_cases h⟩

/-! ## What a step does to what is shared -/

/-- The frame whose `tm` a call has stored and still has to read. -/
def SavePc.holdsTm : SavePc → Option ImgMeta
  | .dateObs m | .year m _ | .monthDay m _ _ | .hour m _ _ _ | .fsExists m _ _
  | .createDirs m _ _ | .fname m _ _ => some m
  | .idle | .gmtime _ | .write _ _ _ _ => none

/-- The directory a call has not found and is about to create. -/
def SavePc.creates : SavePc → Option Dir
  | .createDirs _ _ output => some output
  | _ => none

/-- Only the `gmtime` call stores into the `tm`. -/
theorem SaveStep.tm (h : SaveStep cfg c s l a s' l') :
    s'.tm = s.tm ∨ ∃ m, l = .gmtime m ∧ a = .gmtime ∧ s'.tm = ownTm m := by
  cases h with
  | gmtime m => exact .inr ⟨m, rfl, rfl, rfl⟩
  | _ => exact .inl rfl

/-- Only a `create_directories` that succeeds makes directories. -/
theorem SaveStep.dirs (h : SaveStep cfg c s l a s' l') :
    s'.dirs = s.dirs ∨ ∃ d, l.creates = some d ∧ a = .createDirectories 0 ∧
      s'.dirs = (s.createDirs d).dirs := by
  cases h with
  | created m dateObs output => exact .inr ⟨output, rfl, rfl, rfl⟩
  | _ => exact .inl rfl

/-! ## Replaying saves -/

/-- Two cameras with ids, under the default flags. -/
def twoCameras : Config Bool where
  output := "/tmp/data/".toList
  namePrefix := "debris_".toList
  getId c := .ok (if c then "east".toList else "west".toList)

/-- No save has been called and nothing exists below the output directory. -/
def freshConf : Threads.Conf Bool (Shared Bool) SavePc where
  shared := { tm := gmtime 0, dirs := fun _ => false, aborted := none, saved := [] }
  loc := fun _ => .idle

theorem freshConf_init (cfg : Config Bool) : (saves cfg).sys.init freshConf :=
  ⟨⟨rfl, rfl⟩, fun _ => rfl⟩

/-- A frame whose exposure started at `t`. -/
def frameAt (t : Int) : ImgMeta where
  expoCnt := 0
  timExpoStart := t
  tikExpoStop := 0
  tikAcqEnd := 0
  realTemp := 0

/-- A save up to its test of the directory. -/
def lookUp (m : ImgMeta) : List SaveAct :=
  [.saveData m, .gmtime, .putDateObs, .putYear, .putMonthDay, .putHour, .fsExists]

/-- The rest of a save once the directory is there. -/
def finish : List SaveAct := [.putName, .writeFits 0]

/-- The steps of one camera. -/
def of (c : Bool) (acts : List SaveAct) : List (Bool × SaveAct) := acts.map fun a => (c, a)

end AutoExpo.Save
