import AutoExpo.HandOver.Candidates

/-!
# The command line of `file_dispatch`

`__main__` up to the start of the observer: it takes the lock on the pid file,
adds the directories of the `-f` options to the candidates and selects the first
one. Each `-f` option comes as a list, and a list cannot be added to a set. The
loop over the options reuses the name of the lock file, and `--threshold` is
parsed and not used again.

So the command line is honoured without `-f` and with the default threshold, and
on no other (`honours_iff`, `option_ends_start`).
-/

namespace AutoExpo.Candidates

open Kit

/-! ## `__main__` -/

/-- A value of the option loop. -/
inductive Value
  | str (s : Dir)
  | list (l : List Dir)

/-- What the name `f` is bound to; of the pid file, whether the lock is taken. A file that
loses its only name is closed, and its lock is gone. -/
inductive Binding
  | unbound
  | pidfile (locked : Bool)
  | value (v : Value)

structure Args where
  fs : Option (List Value)
  threshold : Int

/-- `parser.parse_args()`, given the groups of the `-f` options and the threshold. -/
def parseArgs (groups : List (List Dir)) (threshold : Int) : Args where
  fs := if groups = [] then none else some (groups.map .list)
  threshold := threshold

/-- How opening and locking the pid file go: a file that is locked by another process raises
BlockingIOError, other exceptions are passed over. -/
inductive Pidfile
  | locked
  | blocked
  | notOpened
  | notLocked
  deriving DecidableEq

/-- What ends the start. -/
inductive Failure
  | exit
  | typeError
  | zeroDivision

/-- The globals of the module that `__main__` sets. -/
structure Main where
  globals : Globals
  f : Binding
  select : Option Dir

/-- The lock of the pid file is held. -/
def Main.held (m : Main) : Bool :=
  match m.f with
  | .pidfile locked => locked
  | _ => false

/-- `FS_CANDIDATE.add(v)`: a list is not hashable. -/
def Globals.add (g : Globals) : Value → Except Failure Globals
  | .str fs => .ok { g with fsCandidate := insert fs g.fsCandidate }
  | .list _ => .error .typeError

/-- A pass of `for f in args.fs`. -/
def Main.addFs (m : Main) (v : Value) : Except Failure Main :=
  match m.globals.add v with
  | .ok globals => .ok { m with globals := globals, f := .value v }
  | .error e => .error e

def openPidfile : Pidfile → Except Failure Binding
  | .locked => .ok (.pidfile true)
  | .blocked => .error .exit
  | .notOpened => .ok .unbound
  | .notLocked => .ok (.pidfile false)

/-- `SELECT = sorted(FS_CANDIDATE)[datetime.now().day%len(FS_CANDIDATE)]` -/
def Main.selectFirst (m : Main) (today : Nat) : Except Failure Main :=
  match nth m.globals.fsCandidate (today % m.globals.fsCandidate.card) with
  | some fs => .ok { m with select := some fs }
  | none => .error .zeroDivision

/-- `__main__`, up to `observer.start()`. -/
def start (args : Args) (pidfile : Pidfile) (today : Nat) : Except Failure Main := do
  let f ← openPidfile pidfile
  let m : Main := { globals := defaults, f := f, select := none }
  let m ← match args.fs with
    | none => pure m
    | some fs => fs.foldlM Main.addFs m
  m.selectFirst today

/-! ## The options -/

/-- Unless another process has the lock, the start completes with the directories of all
groups among the candidates, a writable candidate is rejected just when its free space is
below the given threshold, and a lock that was taken is held. -/
def Honours (groups : List (List Dir)) (threshold : Int) : Prop :=
  ∀ pidfile today, pidfile ≠ .blocked →
    ∃ m, start (parseArgs groups threshold) pidfile today = .ok m ∧
    m.globals.fsCandidate = defaults.fsCandidate ∪ groups.flatten.toFinset ∧
    (∀ (disk : Disk) (free : Nat), disk.free = some free → disk.writes = true →
      ((doCheck m.globals.threshold disk).removeit = true ↔ (free : Int) < threshold)) ∧
    (pidfile = .locked → m.held = true)

/-- The first option ends the start. -/
theorem start_of_option {group : List Dir} {groups : List (List Dir)} {threshold : Int}
    {today : Nat} :
    start (parseArgs (group :: groups) threshold) .locked today = .error .typeError := rfl

/-- Without `-f` the start completes with the defaults. -/
theorem start_of_none (threshold : Int) (today : Nat) {pidfile : Pidfile} {f : Binding}
    (hopen : openPidfile pidfile = .ok f) :
    ∃ fs, start (parseArgs [] threshold) pidfile today = .ok ⟨defaults, f, some fs⟩ := by
  cases hselect : nth defaults.fsCandidate (today % defaults.fsCandidate.card) with
  | none =>
      have hle := nth_eq_none.mp hselect
      have hlt := Nat.mod_lt today (show 0 < defaults.fsCandidate.card by decide +kernel)
      exact absurd hlt (Nat.not_lt.mpr hle)
  | some fs =>
      refine ⟨fs, ?_⟩
      show (openPidfile pidfile >>= fun f => Main.selectFirst ⟨defaults, f, none⟩ today) = _
      rw [hopen]
      show Main.selectFirst ⟨defaults, f, none⟩ today = _
      simp only [Main.selectFirst, hselect]

/-- On a writable candidate `doCheck` compares the free space with the module's threshold. -/
theorem doCheck_writable {threshold : Int} {disk : Disk} {free : Nat}
    (hfree : disk.free = some free) (hwrites : disk.writes = true) :
    (doCheck threshold disk).removeit = true ↔ (free : Int) < threshold := by
  simp [doCheck, hfree, hwrites]

/-- Two thresholds below which the same free spaces are, the first of them positive, are
the same. -/
theorem threshold_eq {a b : Int} (ha : 0 < a)
    (hsame : ∀ free : Nat, (free : Int) < a ↔ (free : Int) < b) : b = a := by
  have hatA := hsame a.toNat
  have hatB := hsame b.toNat
  omega

/-- The command line is honoured if and only if it has no `-f` and the default threshold. -/
theorem honours_iff (groups : List (List Dir)) (threshold : Int) :
    Honours groups threshold ↔ groups = [] ∧ threshold = defaults.threshold := by
  refine ⟨?_, ?_⟩
  · intro hall
    obtain ⟨m, hstart, -, hcheck, -⟩ := hall .locked 0 (by decide)
    cases groups with
    | cons group groups =>
        rw [start_of_option] at hstart
        cases hstart
    | nil =>
        obtain ⟨fs, hdefault⟩ := start_of_none threshold 0
          (show openPidfile .locked = .ok _ from rfl)
        rw [hstart, Except.ok.injEq] at hdefault
        subst hdefault
        refine ⟨rfl, threshold_eq (by decide +kernel) ?_⟩
        intro free
        rw [← hcheck ⟨some free, true⟩ free rfl rfl]
        exact (doCheck_writable rfl rfl).symm
  · rintro ⟨rfl, rfl⟩ pidfile today hpid
    have hcheck : ∀ (disk : Disk) (free : Nat), disk.free = some free → disk.writes = true →
        ((doCheck defaults.threshold disk).removeit = true ↔ (free : Int) < defaults.threshold) :=
      fun _ _ => doCheck_writable
    cases hopen : openPidfile pidfile with
    | error e => cases pidfile with
        | blocked => exact absurd rfl hpid
        | locked | notOpened | notLocked => cases hopen
    | ok f =>
        obtain ⟨fs, hstart⟩ := start_of_none defaults.threshold today hopen
        refine ⟨_, hstart, by simp, hcheck, ?_⟩
        rintro rfl
        cases hopen
        rfl

theorem option_ends_start :
    ¬ ∀ (groups : List (List Dir)) (threshold : Int), Honours groups threshold := by
  intro hall
  obtain ⟨m, hstart, -⟩ := hall [["/data5"]] defaults.threshold .locked 12 (by decide)
  rw [start_of_option] at hstart
  cases hstart

end AutoExpo.Candidates
