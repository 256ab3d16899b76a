import AutoExpo.HandOver.Dispatch
import AutoExpo.Kit.Rank
import AutoExpo.Kit.Runs
import Mathlib.Data.String.Basic

/-!
# Choosing a candidate

Every 20 seconds `checkCandidate` has all candidates checked, each in a thread
of its own, and sets `SELECT` to the candidate at the place of the day of the
month among those that are left. What is left out are the candidates whose
check has finished and says so. A check that hangs until `asyncio.wait` times
out leaves its candidate in.

So a hanging candidate may be selected (`hanging_selected`), exactly when it is
in turn (`selects_checked`). When no candidate is left the division raises, and
nobody awaits the coroutine: it is gone (`all_full_ends`). The rounds that do
what is asked of them are those in which some check passes (`survives`).
-/

namespace AutoExpo.Candidates

open Kit

/-! ## One check -/

/-- A directory, by its name. -/
abbrev Dir := String

/-- What `doCheck` meets on a candidate: the free space, or none where
`shutil.disk_usage` raises, and whether `write_text` succeeds. -/
structure Disk where
  free : Option Nat
  writes : Bool

/-- What `doCheck` returns, and whether it has written `.check`. -/
structure Check where
  removeit : Bool
  written : Bool

def doCheck (threshold : Int) (disk : Disk) : Check :=
  match disk.free with
  -- the exception comes before `.check` is written
  | none => { removeit := true, written := false }
  | some free =>
      let removeit : Bool := free < threshold
      if disk.writes then { removeit := removeit, written := true }
      else { removeit := true, written := false }

/-- A check when `asyncio.wait` returns. -/
inductive Task
  | done (disk : Disk)
  | pending

/-- The result of a task that is done asks for the removal. -/
def Task.removes (threshold : Int) : Task → Bool
  | .done disk => (doCheck threshold disk).removeit
  | .pending => false

/-! ## One round -/

/-- The globals a round reads. -/
structure Globals where
  fsCandidate : Finset Dir
  threshold : Int

/-- A round: `datetime.now().day`, and how the checks go. -/
structure Round where
  today : Nat
  task : Dir → Task

/-- `ACTUAL_CANDIDATE`, after the removals. -/
def Globals.actualCandidate (g : Globals) (r : Round) : Finset Dir :=
  g.fsCandidate.filter fun fs => (r.task fs).removes g.threshold = false

/-- `sorted(ACTUAL_CANDIDATE)[today % len(ACTUAL_CANDIDATE)]`; none when it raises, for
there is no candidate left. -/
def Globals.select (g : Globals) (r : Round) : Option Dir :=
  nth (g.actualCandidate r) (r.today % (g.actualCandidate r).card)

/-- The coroutine: the global `SELECT`, and whether it is still running. -/
structure Coroutine where
  select : Dir
  alive : Bool

def checkCandidate (g : Globals) (s : Coroutine) (r : Round) : Option Coroutine :=
  if s.alive then
    match g.select r with
    | some fs => some { s with select := fs }
    -- nobody awaits the coroutine, so the exception ends it and is not seen
    | none => some { s with alive := false }
  else none

def coroutine (g : Globals) : TSys Coroutine Round where
  init s := s.alive = true
  step := checkCandidate g

/-- The check has finished, written `.check`, and found the threshold free or more. -/
structure Task.Passed (threshold : Int) (t : Task) (disk : Disk) : Prop where
  done : t = .done disk
  written : (doCheck threshold disk).written = true
  space : ∃ free ∈ disk.free, threshold ≤ (free : Int)

/-! ## The check and the removal -/

variable {g : Globals} {r : Round} {s s' : Coroutine} {fs : Dir}

/-- A finished check passes if it does not ask for the removal. -/
theorem passed_iff {threshold : Int} {t : Task} {disk : Disk} :
    t.Passed threshold disk ↔ t = .done disk ∧ (doCheck threshold disk).removeit = false := by
  refine ⟨?_, ?_⟩
  · rintro ⟨hdone, hwritten, free, hfree, hle⟩
    refine ⟨hdone, ?_⟩
    rw [Option.mem_def] at hfree
    simp only [doCheck, hfree] at hwritten ⊢
    cases hwrites : disk.writes with
    | true => simp [hle]
    | false => simp [hwrites] at hwritten
  · rintro ⟨hdone, hkeep⟩
    simp only [doCheck] at hkeep
    split at hkeep
    next => cases hkeep
    next free hfree =>
      split at hkeep
      next hwrites =>
        have hle : threshold ≤ (free : Int) := by simpa using hkeep
        exact ⟨hdone, by simp [doCheck, hfree, hwrites], free, hfree, hle⟩
      next => cases hkeep

/-- What is not removed has passed its check, or hangs. -/
theorem removes_eq_false {threshold : Int} {t : Task} :
    t.removes threshold = false ↔ (∃ disk, t.Passed threshold disk) ∨ t = .pending := by
  cases t with
  | pending => simp [Task.removes]
  | done disk => simp [Task.removes, passed_iff]

theorem mem_actualCandidate : fs ∈ g.actualCandidate r ↔ fs ∈ g.fsCandidate ∧
    ((∃ disk, (r.task fs).Passed g.threshold disk) ∨ r.task fs = .pending) := by
  rw [Globals.actualCandidate, Finset.mem_filter, removes_eq_false]

/-- A hanging candidate is left in. -/
theorem pending_mem (hfs : fs ∈ g.fsCandidate) (hhangs : r.task fs = .pending) :
    fs ∈ g.actualCandidate r :=
  mem_actualCandidate.mpr ⟨hfs, .inr hhangs⟩

theorem select_eq_some : g.select r = some fs ↔ fs ∈ g.actualCandidate r ∧
    rank (g.actualCandidate r) fs = r.today % (g.actualCandidate r).card :=
  nth_eq_some

theorem select_eq_none : g.select r = none ↔ g.actualCandidate r = ∅ := by
  rw [Globals.select, nth_eq_none]
  refine ⟨?_, ?_⟩
  · intro hle
    by_contra hne
    have hpos := Finset.card_pos.mpr (Finset.nonempty_iff_ne_empty.mpr hne)
    exact absurd (Nat.mod_lt r.today hpos) (Nat.not_lt.mpr hle)
  · intro hempty
    simp [hempty]

/-- A round either sets `SELECT` or is the last one. -/
theorem checkCandidate_eq (halive : s.alive = true) (h : checkCandidate g s r = some s') :
    (s'.alive = true ∧ g.select r = some s'.select) ∨
      (s'.alive = false ∧ g.actualCandidate r = ∅) := by
  rw [checkCandidate, if_pos halive] at h
  split at h
  next fs hfs =>
    cases h
    exact .inl ⟨halive, hfs⟩
  next hnone =>
    cases h
    exact .inr ⟨rfl, select_eq_none.mp hnone⟩

/-- The candidate a round selects is one the dispatcher moves files to. -/
theorem dispatch_selects {cfg : HandOver.Config} {m : HandOver.State}
    (parts : Dir → HandOver.Path) (hcfg : ∀ fs ∈ g.fsCandidate, parts fs ∈ cfg.candidates)
    (hup : m.up = true) (hfs : g.select r = some fs) :
    HandOver.step cfg m (.checkCandidate (parts fs)) = some { m with select := parts fs } := by
  have hmem := (mem_actualCandidate.mp (select_eq_some.mp hfs).1).1
  simp [HandOver.step, hup, hcfg fs hmem]

/-! ## Which candidate is selected -/

/-- A round that sets `SELECT` selects a candidate whose check has passed in it. -/
def SelectsChecked (g : Globals) (r : Round) : Prop :=
  ∀ s s', checkCandidate g s r = some s' → s'.alive = true →
    s'.select ∈ g.fsCandidate ∧ ∃ disk, (r.task s'.select).Passed g.threshold disk

/-- The candidate's check hangs, and the candidate is at the place of the day among those
whose check hangs or does not ask for the removal. -/
def HangsInTurn (g : Globals) (r : Round) (fs : Dir) : Prop :=
  fs ∈ g.fsCandidate ∧ r.task fs = .pending ∧
    rank (g.actualCandidate r) fs = r.today % (g.actualCandidate r).card

theorem selectsChecked_of_notInTurn (hturn : ∀ fs, ¬ HangsInTurn g r fs) : SelectsChecked g r := by
  intro s s' h hlive
  have halive : s.alive = true := by
    by_contra hdead
    rw [checkCandidate, if_neg hdead] at h
    cases h
  rcases checkCandidate_eq halive h with ⟨-, hselect⟩ | ⟨hdead, -⟩
  · obtain ⟨hmem, hrank⟩ := select_eq_some.mp hselect
    obtain ⟨hfs, hpassed | hhangs⟩ := mem_actualCandidate.mp hmem
    · exact ⟨hfs, hpassed⟩
    · exact absurd ⟨hfs, hhangs, hrank⟩ (hturn _)
  · rw [hdead] at hlive
    cases hlive

/-- A round in which no check hangs selects a checked candidate. -/
theorem selectsChecked_of_done (hdone : ∀ fs ∈ g.fsCandidate, r.task fs ≠ .pending) :
    SelectsChecked g r :=
  selectsChecked_of_notInTurn fun fs ⟨hfs, hhangs, _⟩ => hdone fs hfs hhangs

/-- A round selects a checked candidate, if and only if no hanging one is in turn. -/
theorem selects_checked (g : Globals) (r : Round) :
    SelectsChecked g r ↔ ∀ fs, ¬ HangsInTurn g r fs := by
  refine ⟨?_, ?_⟩
  · rintro hall fs ⟨hfs, hhangs, hturn⟩
    have hselect := select_eq_some.mpr ⟨pending_mem hfs hhangs, hturn⟩
    have hround : checkCandidate g ⟨fs, true⟩ r = some ⟨fs, true⟩ := by
      simp [checkCandidate, hselect]
    obtain ⟨-, disk, hpassed⟩ := hall _ _ hround rfl
    rw [hpassed.done] at hhangs
    cases hhangs
  · exact selectsChecked_of_notInTurn

/-- The globals as the script sets them. -/
def defaults : Globals where
  fsCandidate := {"/data1", "/data2", "/data3", "/data4"}
  threshold := 256 * 1024 * 1024 * 1024

/-- The disk of `/data1` hangs, the others are full. -/
def firstHangs : Round where
  today := 12
  task fs := if fs = "/data1" then .pending else .done ⟨some 0, true⟩

theorem hanging_selected : ¬ ∀ (g : Globals) (r : Round), SelectsChecked g r := by
  intro hall
  have hselect : defaults.select firstHangs = some "/data1" :=
    select_eq_some.mpr (by decide +kernel)
  have hround : checkCandidate defaults ⟨"/data2", true⟩ firstHangs =
      some ⟨"/data1", true⟩ := by simp [checkCandidate, hselect]
  obtain ⟨-, disk, hpassed⟩ := hall defaults firstHangs _ _ hround rfl
  cases hpassed.done

/-! ## The rounds one after another -/

/-- Some check passes. -/
def Usable (g : Globals) (r : Round) : Prop :=
  ∃ fs ∈ g.fsCandidate, ∃ disk, (r.task fs).Passed g.threshold disk

/-- After the round the coroutine goes on; `SELECT` is set in it if there is a usable
candidate, and kept if there is none. -/
structure Survives (g : Globals) (s : Coroutine) (r : Round) (s' : Coroutine) : Prop where
  alive : s'.alive = true
  sets : Usable g r → g.select r = some s'.select
  keeps : ¬ Usable g r → s'.select = s.select

/-- Some check passes, or the candidate that is selected already hangs and is in turn. -/
def PassesOrStays (g : Globals) (s : Coroutine) (r : Round) (_ : Coroutine) : Prop :=
  Usable g r ∨ HangsInTurn g r s.select

theorem Usable.nonempty (h : Usable g r) : g.actualCandidate r ≠ ∅ := by
  obtain ⟨fs, hfs, hpassed⟩ := h
  exact Finset.ne_empty_of_mem (mem_actualCandidate.mpr ⟨hfs, .inl hpassed⟩)

/-- With no usable candidate, only a hanging one can be selected. -/
theorem select_pending (hno : ¬ Usable g r) (hselect : g.select r = some fs) :
    fs ∈ g.fsCandidate ∧ r.task fs = .pending := by
  obtain ⟨hfs, hpassed | hhangs⟩ := mem_actualCandidate.mp (select_eq_some.mp hselect).1
  · exact absurd ⟨fs, hfs, hpassed⟩ hno
  · exact ⟨hfs, hhangs⟩

theorem survives_iff (halive : s.alive = true) (h : checkCandidate g s r = some s') :
    Survives g s r s' ↔ PassesOrStays g s r s' := by
  refine ⟨?_, ?_⟩
  · intro hs
    by_cases husable : Usable g r
    · exact .inl husable
    · rcases checkCandidate_eq halive h with ⟨-, hselect⟩ | ⟨hdead, -⟩
      · rw [hs.keeps husable] at hselect
        obtain ⟨hfs, hhangs⟩ := select_pending husable hselect
        exact .inr ⟨hfs, hhangs, (select_eq_some.mp hselect).2⟩
      · rw [hs.alive] at hdead
        cases hdead
  · intro hcond
    rcases checkCandidate_eq halive h with ⟨hlive, hselect⟩ | ⟨-, hempty⟩
    · refine ⟨hlive, fun _ => hselect, ?_⟩
      intro hno
      obtain ⟨hfs, hhangs, hturn⟩ := hcond.resolve_left hno
      have hstays := select_eq_some.mpr ⟨pending_mem hfs hhangs, hturn⟩
      rw [hselect, Option.some.injEq] at hstays
      exact hstays
    · rcases hcond with husable | ⟨hfs, hhangs, -⟩
      · exact absurd hempty husable.nonempty
      · exact absurd hempty (Finset.ne_empty_of_mem (pending_mem hfs hhangs))

/-- In every run of rounds each one does what is asked of it, if and only if in each some
check passes, or the selected candidate hangs and is in turn again. -/
theorem survives (g : Globals) (fs : Dir) (rounds : List Round) :
    (coroutine g).Along (Survives g) ⟨fs, true⟩ rounds ↔
      (coroutine g).Along (PassesOrStays g) ⟨fs, true⟩ rounds := by
  apply TSys.along_iff (I := fun s => s.alive = true)
  · intro s r s' halive h hcond
    exact ((survives_iff halive h).mpr hcond).alive
  · intro s r s' halive h
    exact survives_iff halive h
  · rfl

/-- Every disk is full. -/
def allFull : Round where
  today := 12
  task _ := .done ⟨some 0, true⟩

theorem all_full_ends : ¬ ∀ (g : Globals) (fs : Dir) (rounds : List Round),
    (coroutine g).Along (Survives g) ⟨fs, true⟩ rounds := by
  intro hall
  have hempty : defaults.actualCandidate allFull = ∅ := by decide +kernel
  have hround : (coroutine defaults).step ⟨"/data1", true⟩ allFull =
      some ⟨"/data1", false⟩ := by
    simp [coroutine, checkCandidate, select_eq_none.mpr hempty]
  obtain ⟨hsurvives, -⟩ := hall defaults "/data1" [allFull] _ hround
  cases hsurvives.alive

end AutoExpo.Candidates
