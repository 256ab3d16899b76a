import AutoExpo.Camera.State

/-!
# The error counter

`ASICamHandler::traceError` counts the errors of the SDK calls and stops the
exposure at the sixteenth of a series in which no 30 minutes pass without one.
The counter and the time of the last error are static locals of a member
function, so there is one counter, whatever the camera.

Errors of other cameras therefore stop a camera (`stopped_by_another`). Its own
calls decide in the runs in which the others' errors tip no verdict of its own,
and in no other run (`stops_of_own`).
-/

namespace AutoExpo.Watchdog

/-! ## The code -/

/-- The static locals `err_cnt` and `last_err`; `last_err` is set by the first call. -/
structure ErrCount where
  errCnt : Nat
  lastErr : Option Int

def ErrCount.start : ErrCount where
  errCnt := 0
  lastErr := none

/-- `duration_cast<minutes>` of a time in nanoseconds: towards zero. -/
def minutes (d : Int) : Int := d.tdiv (60 * 10 ^ 9)

/-- `traceError`, and whether it gives up: raises `th_expo_stop` and calls `alarm(20)`. -/
def ErrCount.traceError (e : ErrCount) (now : Int) (err : AsiError) : ErrCount × Bool :=
  let lastErr := e.lastErr.getD now
  if err = ASI_SUCCESS then ({ e with lastErr := some lastErr }, false)
  else
    let errCnt := (if 30 < minutes (now - lastErr) then 0 else e.errCnt) + 1
    ({ errCnt := errCnt, lastErr := some now }, 16 ≤ errCnt)

/-- A call by one of the cameras, and when. -/
structure Call (ι : Type*) where
  cam : ι
  time : Int
  err : AsiError

variable {ι : Type*}

def after (e : ErrCount) (calls : List (Call ι)) : ErrCount :=
  calls.foldl (fun e c => (e.traceError c.time c.err).1) e

/-- At which of its own calls a camera has its `th_expo_stop` raised. -/
def stops [DecidableEq ι] (cam : ι) : ErrCount → List (Call ι) → List Bool
  | _, [] => []
  | e, c :: rest =>
      let (e', stop) := e.traceError c.time c.err
      if c.cam = cam then stop :: stops cam e' rest else stops cam e' rest

/-! ## Series of errors -/

/-- The length of the last chain of a list, its newest element first. -/
def chain {τ : Type*} (linked : τ → τ → Prop) [DecidableRel linked] : List τ → Nat
  | [] => 0
  | [_] => 1
  | t :: u :: rest => if linked u t then chain linked (u :: rest) + 1 else 1

/-- An error continues the series of the one before it. -/
abbrev Continues (before now : Int) : Prop := minutes (now - before) ≤ 30

/-- The times of the errors, the last one first. -/
def errorTimes (calls : List (Call ι)) : List Int :=
  ((calls.filter fun c => c.err ≠ ASI_SUCCESS).map Call.time).reverse

/-- The number of errors in the last series. -/
def series (calls : List (Call ι)) : Nat := chain Continues (errorTimes calls)

theorem errorTimes_concat (calls : List (Call ι)) (c : Call ι) :
    errorTimes (calls ++ [c]) =
      if c.err = ASI_SUCCESS then errorTimes calls else c.time :: errorTimes calls := by
  by_cases herr : c.err = ASI_SUCCESS <;> simp [errorTimes, herr]

/-- The counter has counted the errors at `times`. -/
structure Counted (e : ErrCount) (times : List Int) : Prop where
  errCnt : e.errCnt = chain Continues times
  lastErr : ∀ t ∈ times.head?, e.lastErr = some t

theorem counted_start : Counted .start [] := ⟨rfl, by simp⟩

theorem Counted.success {e : ErrCount} {times : List Int} (h : Counted e times) (now : Int) :
    Counted (e.traceError now ASI_SUCCESS).1 times ∧
      (e.traceError now ASI_SUCCESS).2 = false := by
  refine ⟨⟨h.errCnt, ?_⟩, rfl⟩
  intro t ht
  simp [ErrCount.traceError, h.lastErr t ht]

theorem Counted.error {e : ErrCount} {times : List Int} (h : Counted e times) (now : Int)
    {err : AsiError} (herr : err ≠ ASI_SUCCESS) :
    Counted (e.traceError now err).1 (now :: times) ∧
      (e.traceError now err).2 = decide (16 ≤ chain Continues (now :: times)) := by
  have hcnt : (if 30 < minutes (now - e.lastErr.getD now) then 0 else e.errCnt) + 1 =
      chain Continues (now :: times) := by
    rw [h.errCnt]
    cases times with
    | nil => simp [chain]
    | cons t rest =>
        rw [h.lastErr t rfl, Option.getD_some, chain]
        by_cases hnear : minutes (now - t) ≤ 30
        · rw [if_neg (Int.not_lt.mpr hnear), if_pos hnear]
        · rw [if_pos (Int.not_le.mp hnear), if_neg hnear]
  simp only [ErrCount.traceError, if_neg herr, hcnt]
  exact ⟨⟨rfl, by simp⟩, trivial⟩

theorem after_concat (e : ErrCount) (calls : List (Call ι)) (c : Call ι) :
    after e (calls ++ [c]) = ((after e calls).traceError c.time c.err).1 := by
  simp [after]

/-- The counter counts the errors of all cameras. -/
theorem after_counted (calls : List (Call ι)) :
    Counted (after .start calls) (errorTimes calls) := by
  induction calls using List.reverseRecOn with
  | nil => exact counted_start
  | append_singleton calls c ih =>
      rw [after_concat, errorTimes_concat]
      by_cases herr : c.err = ASI_SUCCESS
      · rw [if_pos herr, herr]
        exact (ih.success c.time).1
      · rw [if_neg herr]
        exact (ih.error c.time herr).1

/-- A call gives up when it is the sixteenth error of its series, or a later one. -/
theorem traceError_after (calls : List (Call ι)) (c : Call ι) :
    ((after .start calls).traceError c.time c.err).2 = true ↔
      c.err ≠ ASI_SUCCESS ∧ 16 ≤ series (calls ++ [c]) := by
  have hcount := after_counted calls
  rw [series, errorTimes_concat]
  by_cases herr : c.err = ASI_SUCCESS
  · rw [herr, (hcount.success c.time).2]
    simp
  · rw [if_neg herr, (hcount.error c.time herr).2]
    simp [herr]

/-! ## One camera among others -/

section
variable [DecidableEq ι]

def own (cam : ι) (calls : List (Call ι)) : List (Call ι) := calls.filter fun c => c.cam = cam

/-- At each error of the camera, the last series of the errors of all cameras has sixteen
just when that of its own errors has. -/
def OwnVerdicts (cam : ι) (calls : List (Call ι)) : Prop :=
  ∀ before c, before ++ [c] <+: calls → c.cam = cam → c.err ≠ ASI_SUCCESS →
    (16 ≤ series (before ++ [c]) ↔ 16 ≤ series (own cam before ++ [c]))

variable {cam : ι}

theorem own_own (calls : List (Call ι)) : own cam (own cam calls) = own cam calls := by
  simp [own, List.filter_filter]

theorem own_concat (calls : List (Call ι)) (c : Call ι) :
    own cam (calls ++ [c]) = if c.cam = cam then own cam calls ++ [c] else own cam calls := by
  by_cases hcam : c.cam = cam <;> simp [own, hcam]

theorem stops_concat (e : ErrCount) (calls : List (Call ι)) (c : Call ι) :
    stops cam e (calls ++ [c]) = stops cam e calls ++
      if c.cam = cam then [((after e calls).traceError c.time c.err).2] else [] := by
  induction calls generalizing e with
  | nil => by_cases hcam : c.cam = cam <;> simp [stops, after, hcam]
  | cons d rest ih =>
      simp only [List.cons_append, stops, ih, after, List.foldl_cons]
      by_cases hd : d.cam = cam <;> simp [hd]

theorem ownVerdicts_concat {calls : List (Call ι)} {c : Call ι} :
    OwnVerdicts cam (calls ++ [c]) ↔ OwnVerdicts cam calls ∧
      (c.cam = cam → c.err ≠ ASI_SUCCESS →
        (16 ≤ series (calls ++ [c]) ↔ 16 ≤ series (own cam calls ++ [c]))) := by
  refine ⟨?_, ?_⟩
  · intro hall
    refine ⟨?_, ?_⟩
    · intro before d hpre
      exact hall before d (hpre.trans (List.prefix_append _ _))
    · exact hall calls c (List.prefix_refl _)
  · rintro ⟨hbefore, hlast⟩ before d hpre
    rcases List.prefix_concat_iff.mp hpre with heq | hpre
    · obtain ⟨rfl, hd⟩ := List.append_inj' heq rfl
      obtain rfl := List.singleton_inj.mp hd
      exact hlast
    · exact hbefore before d hpre

/-- The verdicts on a camera are those on its own calls alone, exactly when the others'
errors tip none of them. -/
theorem stops_eq_own {calls : List (Call ι)} :
    stops cam .start calls = stops cam .start (own cam calls) ↔ OwnVerdicts cam calls := by
  induction calls using List.reverseRecOn with
  | nil =>
      simp only [own, List.filter_nil, true_iff]
      intro before c hpre
      simp at hpre
  | append_singleton calls c ih =>
      rw [ownVerdicts_concat, ← ih, stops_concat, own_concat]
      by_cases hcam : c.cam = cam
      · simp only [hcam, if_true, stops_concat, true_imp_iff]
        have hverdict : ((after .start calls).traceError c.time c.err).2 =
            ((after .start (own cam calls)).traceError c.time c.err).2 ↔
            (c.err ≠ ASI_SUCCESS →
              (16 ≤ series (calls ++ [c]) ↔ 16 ≤ series (own cam calls ++ [c]))) := by
          rw [Bool.eq_iff_iff, traceError_after, traceError_after]
          by_cases herr : c.err = ASI_SUCCESS <;> simp [herr]
        rw [← hverdict]
        refine ⟨?_, ?_⟩
        · intro heq
          obtain ⟨hinit, hlast⟩ := List.append_inj' heq rfl
          exact ⟨hinit, List.singleton_inj.mp hlast⟩
        · rintro ⟨hinit, hlast⟩
          rw [hinit, hlast]
      · simp only [hcam, if_false, List.append_nil, false_imp_iff, and_true]

theorem ownVerdicts_own (calls : List (Call ι)) : OwnVerdicts cam (own cam calls) := by
  rw [← stops_eq_own, own_own]

/-- A run in which the others' errors tip no verdict on the camera stops it as its own calls
alone would, and agrees on it with every such run in which the camera makes the same calls; and
no other run does either. -/
theorem stops_of_own (cam : ι) (calls : List (Call ι)) :
    (stops cam .start calls = stops cam .start (own cam calls) ↔ OwnVerdicts cam calls) ∧
      ((∀ calls', own cam calls' = own cam calls → OwnVerdicts cam calls' →
          stops cam .start calls' = stops cam .start calls) ↔
        OwnVerdicts cam calls) := by
  refine ⟨stops_eq_own, ?_, ?_⟩
  · intro hsame
    rw [← stops_eq_own, hsame (own cam calls) (own_own calls) (ownVerdicts_own calls)]
  · intro hcalls calls' hown hcalls'
    rw [stops_eq_own.mpr hcalls, stops_eq_own.mpr hcalls', hown]

end

/-- Fifteen errors of camera 1, and the first error of camera 0. -/
def fifteenAndOne (err : AsiError) : List (Call Int) :=
  List.replicate 15 ⟨1, 0, err⟩ ++ [⟨0, 0, 1⟩]

/-- Camera 0 is stopped at its first error, or not, as camera 1 has failed or not. -/
theorem stopped_by_another :
    ¬ ∀ (cam : Int) (calls calls' : List (Call Int)), own cam calls' = own cam calls →
      stops cam .start calls' = stops cam .start calls := by
  intro hall
  have hsame := hall 0 (fifteenAndOne ASI_SUCCESS) (fifteenAndOne 1) rfl
  exact absurd hsame (by decide)

end AutoExpo.Watchdog
