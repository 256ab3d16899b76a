import AutoExpo.HandOver.Candidates

/-!
# `mount_check`

The script that `file_dispatch` has taken over from: it keeps the link `/data` on
a candidate with space, and stops the exposure when there is none. Its loop
starts the services and sets the link when the candidate is another one than
before, and stops the services in every iteration without a candidate. That
iteration does not touch the remembered candidate.

So when space comes back on the remembered candidate, the services stay stopped
(`space_back_unnoticed`). They are in step with the disks in the runs in which
another candidate follows on a phase without space, and in no other
(`in_step`). `systemctl` and `ln` do what they are told.
-/

namespace AutoExpo.MountCheck

open Kit
open Candidates (Dir)

/-! ## The world of the script -/

/-- `shutil.disk_usage(fs).free`, or FileNotFoundError. -/
inductive Usage
  | free (n : Nat)
  | missing

/-- `auto_expo_start.timer` and `auto_expo.service`. -/
inductive ServiceUnit
  | timer
  | service
  deriving DecidableEq

inductive Systemctl
  | start
  | stop
  | enable
  | disable

/-- `flag` is whether `no_more_space.flag` exists, `link` where `/data` points; `fs` is the
candidate that the loop remembers. -/
structure State where
  flag : Bool
  link : Option Dir
  active : ServiceUnit → Bool
  enabled : ServiceUnit → Bool
  fs : Option Dir

def State.systemctl (s : State) (u : ServiceUnit) : Systemctl → State
  | .start => { s with active := Function.update s.active u true }
  | .stop => { s with active := Function.update s.active u false }
  | .enable => { s with enabled := Function.update s.enabled u true }
  | .disable => { s with enabled := Function.update s.enabled u false }

def State.onFindSpaceOK (s : State) : State :=
  (s.systemctl .timer .start).systemctl .timer .enable

def State.onFindSpaceFull (s : State) : State :=
  ((s.systemctl .timer .disable).systemctl .timer .stop).systemctl .service .stop

/-- `ln -sfn src /data` -/
def State.mkLink (s : State) (src : Dir) : State := { s with link := some src }

/-! ## The loop -/

structure Config where
  candidates : List Dir
  threshold : Int

def Usage.above (threshold : Int) : Usage → Bool
  | .free n => threshold < n
  | .missing => false

/-- The candidate `selectFs` returns: the first above the threshold. -/
def Config.found (cfg : Config) (usage : Dir → Usage) : Option Dir :=
  cfg.candidates.find? fun fs => (usage fs).above cfg.threshold

/-- `selectFs` unlinks the flag file when it finds a candidate, and makes it when not. -/
def Config.selectFs (cfg : Config) (usage : Dir → Usage) (s : State) : Option Dir × State :=
  (cfg.found usage, { s with flag := (cfg.found usage).isNone })

/-- An iteration of the loop. -/
def Config.iterate (cfg : Config) (usage : Dir → Usage) (s : State) : State :=
  match cfg.selectFs usage s with
  | (none, s) => s.onFindSpaceFull
  | (some newfs, s) =>
      if some newfs ≠ s.fs then ({ s with fs := some newfs }.mkLink newfs).onFindSpaceOK else s

/-- What comes before the loop. -/
def State.begin (s : State) : State :=
  let s := if s.flag then s else s.onFindSpaceOK
  { s with fs := none }

/-- An iteration, or the timer starting the service. -/
inductive Act
  | iterate (usage : Dir → Usage)
  | timerElapses

def step (cfg : Config) (s : State) : Act → Option State
  | .iterate usage => some (cfg.iterate usage s)
  | .timerElapses => if s.active .timer then some (s.systemctl .service .start) else none

def mountCheck (cfg : Config) : TSys State Act where
  init s := ∃ s₀ : State, s = s₀.begin
  step := step cfg

/-! ## In step with the disks -/

/-- Services, flag file and link are as the readings of the iteration ask. -/
def InStep (cfg : Config) (usage : Dir → Usage) (s : State) : Prop :=
  match cfg.found usage with
  | some fs => s.flag = false ∧ s.link = some fs ∧ s.active .timer = true ∧
      s.enabled .timer = true
  | none => s.flag = true ∧ s.active .timer = false ∧ s.active .service = false

/-- The last iteration has found no candidate. -/
def noteFull (cfg : Config) (full : Bool) (_ : State) : Act → Bool
  | .iterate usage => (cfg.found usage).isNone
  | .timerElapses => full

/-- The script, with whether its last iteration has found no candidate. -/
def watched (cfg : Config) : TSys (State × Bool) Act := (mountCheck cfg).record false (noteFull cfg)

def Kept (cfg : Config) (_ : State × Bool) (a : Act) (p' : State × Bool) : Prop :=
  match a with
  | .iterate usage => InStep cfg usage p'.1
  | .timerElapses => True

/-- After an iteration without a candidate, none finds the one before it again. -/
def FindsAnother (cfg : Config) (p : State × Bool) (a : Act) (_ : State × Bool) : Prop :=
  match a with
  | .iterate usage => p.2 = true → ∀ fs ∈ cfg.found usage, p.1.fs ≠ some fs
  | .timerElapses => True

/-- The remembered candidate is linked, and its services run unless the last iteration has
found none. -/
structure Remembered (p : State × Bool) : Prop where
  link : ∀ fs, p.1.fs = some fs → p.1.link = some fs
  running : ∀ fs, p.1.fs = some fs → p.2 = false →
    p.1.active .timer = true ∧ p.1.enabled .timer = true
  stopped : p.2 = true → p.1.active .timer = false

variable {cfg : Config} {p p' : State × Bool} {s : State} {usage : Dir → Usage}

/-- An iteration that finds no candidate. -/
theorem iterate_full (hfound : cfg.found usage = none) :
    (cfg.iterate usage s).flag = true ∧ (cfg.iterate usage s).active .timer = false ∧
      (cfg.iterate usage s).active .service = false ∧
      (cfg.iterate usage s).link = s.link ∧ (cfg.iterate usage s).fs = s.fs := by
  simp [Config.iterate, Config.selectFs, hfound, State.onFindSpaceFull, State.systemctl]

/-- An iteration that finds another candidate than the remembered one. -/
theorem iterate_moves {fs : Dir} (hfound : cfg.found usage = some fs) (hfs : s.fs ≠ some fs) :
    (cfg.iterate usage s).flag = false ∧ (cfg.iterate usage s).active .timer = true ∧
      (cfg.iterate usage s).enabled .timer = true ∧
      (cfg.iterate usage s).link = some fs ∧ (cfg.iterate usage s).fs = some fs := by
  simp [Config.iterate, Config.selectFs, hfound, hfs.symm, State.onFindSpaceOK, State.systemctl,
    State.mkLink]

/-- An iteration that finds the remembered candidate. -/
theorem iterate_stays {fs : Dir} (hfound : cfg.found usage = some fs) (hfs : s.fs = some fs) :
    cfg.iterate usage s = { s with flag := false } := by
  simp [Config.iterate, Config.selectFs, hfound, hfs]

theorem watched_iterate (h : (watched cfg).step p (.iterate usage) = some p') :
    p' = (cfg.iterate usage p.1, (cfg.found usage).isNone) := by
  obtain ⟨hstep, hnote⟩ := TSys.record_step.mp h
  simp only [mountCheck, step, Option.some.injEq] at hstep
  exact Prod.ext hstep.symm hnote

/-- An iteration leaves the services in step just when it does not find the candidate again
that was there before. -/
theorem kept_iff {a : Act} (hp : Remembered p) (h : (watched cfg).step p a = some p') :
    Kept cfg p a p' ↔ FindsAnother cfg p a p' := by
  cases a with
  | timerElapses => exact Iff.rfl
  | iterate usage =>
      rw [Kept, FindsAnother, watched_iterate h, InStep]
      cases hfound : cfg.found usage with
      | none =>
          obtain ⟨hflag, htimer, hservice, -⟩ := iterate_full (s := p.1) hfound
          simp [hflag, htimer, hservice]
      | some fs =>
          simp only [Option.mem_some_iff, forall_eq']
          by_cases hfs : p.1.fs = some fs
          · rw [iterate_stays hfound hfs]
            refine ⟨?_, ?_⟩
            · rintro ⟨-, -, htimer, -⟩ hfull
              rw [hp.stopped hfull] at htimer
              cases htimer
            · intro hnot
              have hnone : p.2 = false := by
                by_contra hfull
                exact hnot (by simpa using hfull) hfs
              exact ⟨rfl, hp.link fs hfs, hp.running fs hfs hnone⟩
          · obtain ⟨hflag, htimer, henabled, hlink, -⟩ := iterate_moves hfound hfs
            simp [hflag, htimer, henabled, hlink, hfs]

/-- Once a candidate is found, its services run. -/
theorem remembered_running {fs : Dir} (hfs : s.fs = some fs) (hlink : s.link = some fs)
    (htimer : s.active .timer = true) (henabled : s.enabled .timer = true) :
    Remembered (s, false) := by
  refine ⟨?_, fun _ _ _ => ⟨htimer, henabled⟩, ?_⟩
  · intro fs' hsome
    rw [hfs] at hsome
    exact hlink.trans hsome
  · intro hfull
    cases hfull

theorem Remembered.kept {a : Act} (hp : Remembered p) (h : (watched cfg).step p a = some p')
    (hcond : FindsAnother cfg p a p') : Remembered p' := by
  cases a with
  | timerElapses =>
      obtain ⟨hstep, hnote⟩ := TSys.record_step.mp h
      obtain ⟨s', full⟩ := p'
      simp only [mountCheck, step, noteFull] at hstep hnote
      subst hnote
      split at hstep
      next htimer =>
        cases hstep
        refine ⟨hp.link, ?_, ?_⟩
        · intro fs hfs hnone
          exact ⟨by simpa [State.systemctl] using htimer, (hp.running fs hfs hnone).2⟩
        · intro hfull
          rw [hp.stopped hfull] at htimer
          cases htimer
      next => cases hstep
  | iterate usage =>
      rw [watched_iterate h]
      cases hfound : cfg.found usage with
      | none =>
          obtain ⟨-, htimer, -, hlink, hfs⟩ := iterate_full (s := p.1) hfound
          refine ⟨?_, ?_, fun _ => htimer⟩
          · intro fs hsome
            rw [hfs] at hsome
            rw [hlink]
            exact hp.link fs hsome
          · intro fs _ hnone
            cases hnone
      | some fs =>
          by_cases hfs : p.1.fs = some fs
          · have hkept := (kept_iff hp h).mpr hcond
            rw [Kept, watched_iterate h, InStep, hfound] at hkept
            obtain ⟨-, hlink, htimer, henabled⟩ := hkept
            refine remembered_running ?_ hlink htimer henabled
            rw [iterate_stays hfound hfs]
            exact hfs
          · obtain ⟨-, htimer, henabled, hlink, hfs'⟩ := iterate_moves hfound hfs
            exact remembered_running hfs' hlink htimer henabled

/-- In every run of the script, every iteration leaves flag file, link and services in step
with its readings, if and only if after an iteration without a candidate none finds the one
before it again. -/
theorem in_step (cfg : Config) (s : State) (ls : List Act) :
    (watched cfg).Along (Kept cfg) (s.begin, false) ls ↔
      (watched cfg).Along (FindsAnother cfg) (s.begin, false) ls := by
  apply TSys.along_iff (I := Remembered)
  · intro p a p' hp h hcond
    exact hp.kept h hcond
  · intro p a p' hp h
    exact kept_iff hp h
  · refine ⟨?_, ?_, ?_⟩
    · intro fs hfs
      cases hfs
    · intro fs hfs
      cases hfs
    · intro hfull
      cases hfull

/-- One candidate, full or free. -/
def oneDisk : Config where
  candidates := ["/data1"]
  threshold := 16 * 1024 * 1024 * 1024

/-- Nothing runs and no flag file is there. -/
def quiet : State where
  flag := false
  link := none
  active := fun _ => false
  enabled := fun _ => false
  fs := none

/-- The disk has space, is full, and has space again. -/
def spaceBack : List Act :=
  [.iterate fun _ => .free (2 ^ 40), .iterate fun _ => .free 0, .iterate fun _ => .free (2 ^ 40)]

theorem space_back_unnoticed : ¬ ∀ (cfg : Config) (s : State) (ls : List Act),
    (watched cfg).Along (Kept cfg) (s.begin, false) ls := by
  intro hall
  obtain ⟨-, hfirst⟩ := hall oneDisk quiet spaceBack _ rfl
  obtain ⟨-, hfull⟩ := hfirst _ rfl
  obtain ⟨hlast, -⟩ := hfull _ rfl
  have htimer := hlast.2.2.1
  exact absurd htimer (by decide)

end AutoExpo.MountCheck
