import AutoExpo.Kit.Runs
import AutoExpo.Watchdog.TraceError
import Mathlib.Data.Finset.Card

/-!
# The last resort

When the number of cameras stays wrong, or the errors become too many, the
exposure threads are told to stop and `alarm(20)` is to end a process that hangs
in its shutdown. A further call of `alarm` takes the pending one back. The
watchdog calls it again at every poll that finds the wrong number of cameras,
once it has found it four times, and `traceError` at every error from the
sixteenth of a series on.

SIGALRM is left where the first call put it exactly in the runs without such a
poll or error later on (`deadline_kept`). A camera that stays away postpones it
every five seconds (`deadline_postponed`).
-/

namespace AutoExpo.Watchdog

open Kit

/-! ## The watchdog thread, `traceError` and the clock -/

/-- A second, in nanoseconds. -/
def second : Int := 10 ^ 9

/-- `nextPoll` is when the watchdog's sleep is over, `alarm` when SIGALRM is due. -/
structure State (ι : Type*) where
  now : Int
  nextPoll : Int
  connErrCount : Nat
  err : ErrCount
  thExpoStop : ι → Bool
  alarm : Option Int
  killed : Bool

inductive Act (ι : Type*)
  | pass (d : Int)
  | poll (num : Int)
  | traceError (cam : ι) (err : AsiError)
  | sigalrm

variable {ι : Type*}

/-- `alarm(20)`; a pending alarm is gone. -/
def State.callAlarm (s : State ι) : State ι := { s with alarm := some (s.now + 20 * second) }

/-- Time does not pass beyond a SIGALRM that is due, which ends the process. -/
def step [DecidableEq ι] (cams : Finset ι) (s : State ι) (a : Act ι) : Option (State ι) :=
  if s.killed then none
  else match a with
    | .pass d =>
        if 0 ≤ d ∧ s.alarm.all (fun due => s.now + d ≤ due) then some { s with now := s.now + d }
        else none
    | .poll num =>
        if s.nextPoll ≤ s.now then
          let s := { s with nextPoll := s.now + 5 * second }
          if num ≠ cams.card then
            let s := { s with connErrCount := s.connErrCount + 1 }
            if 3 < s.connErrCount then
              some { s with thExpoStop := fun c => c ∈ cams || s.thExpoStop c }.callAlarm
            else some s
          else some s
        else none
    | .traceError cam err =>
        let (count, stop) := s.err.traceError s.now err
        let s := { s with err := count }
        if stop then
          some { s with thExpoStop := Function.update s.thExpoStop cam true }.callAlarm
        else some s
    | .sigalrm =>
        if s.alarm.any (fun due => due ≤ s.now) then some { s with killed := true } else none

/-- The state in which the watchdog thread starts. -/
def starting (now : Int) : State ι where
  now := now
  nextPoll := now + 5 * second
  connErrCount := 0
  err := .start
  thExpoStop := fun _ => false
  alarm := none
  killed := false

def process [DecidableEq ι] (cams : Finset ι) : TSys (State ι) (Act ι) where
  init s := ∃ now, s = starting now
  step := step cams

/-! ## When the alarm is set -/

/-- The step calls `alarm`. -/
def Arms (cams : Finset ι) (s : State ι) : Act ι → Prop
  | .poll num => num ≠ cams.card ∧ 3 ≤ s.connErrCount
  | .traceError _ err => (s.err.traceError s.now err).2 = true
  | _ => False

instance (cams : Finset ι) (s : State ι) (a : Act ι) : Decidable (Arms cams s a) :=
  match a with
  | .poll _ => inferInstanceAs (Decidable (_ ∧ _))
  | .traceError _ _ => inferInstanceAs (Decidable (_ = true))
  | .pass _ | .sigalrm => isFalse id

/-- A poll finds every camera, or has missed some three times at most; an error is at most
the fifteenth of its series. -/
def Spares (cams : Finset ι) (s : State ι) : Act ι → Prop
  | .poll num => num ≠ cams.card → s.connErrCount < 3
  | .traceError _ err => err ≠ ASI_SUCCESS →
      minutes (s.now - s.err.lastErr.getD s.now) ≤ 30 → s.err.errCnt < 15
  | _ => True

theorem spares_iff {cams : Finset ι} {s : State ι} {a : Act ι} :
    Spares cams s a ↔ ¬ Arms cams s a := by
  cases a with
  | pass d => simp [Spares, Arms]
  | sigalrm => simp [Spares, Arms]
  | poll num => simp [Spares, Arms]
  | traceError cam err =>
      by_cases herr : err = ASI_SUCCESS
      · simp [Spares, Arms, ErrCount.traceError, herr]
      · simp only [Spares, Arms, ErrCount.traceError, herr, ne_eq, not_false_eq_true, if_false,
          true_imp_iff, decide_eq_true_eq]
        by_cases hnear : minutes (s.now - s.err.lastErr.getD s.now) ≤ 30
        · rw [if_neg (Int.not_lt.mpr hnear)]
          omega
        · rw [if_pos (Int.not_le.mp hnear)]
          omega

section
variable [DecidableEq ι]

/-- What a step does to the clock and the alarm. -/
theorem step_alarm {cams : Finset ι} {s s' : State ι} {a : Act ι}
    (h : step cams s a = some s') :
    s.now ≤ s'.now ∧ (Arms cams s a → s'.alarm = some (s.now + 20 * second)) ∧
      (¬ Arms cams s a → s'.alarm = s.alarm) := by
  unfold step at h
  split at h
  · cases h
  cases a with
  | pass d =>
      simp only at h
      split at h
      next hd =>
        cases h
        refine ⟨?_, False.elim, fun _ => rfl⟩
        have hpos := hd.1
        show s.now ≤ s.now + d
        omega
      next => cases h
  | poll num =>
      simp only at h
      split at h
      next =>
        split_ifs at h with hnum hcnt <;> cases h
        · exact ⟨Int.le_refl _, fun _ => rfl, fun hno => absurd ⟨hnum, by omega⟩ hno⟩
        · refine ⟨Int.le_refl _, ?_, fun _ => rfl⟩
          rintro ⟨-, hthree⟩
          omega
        · refine ⟨Int.le_refl _, ?_, fun _ => rfl⟩
          rintro ⟨hmiss, -⟩
          exact absurd hmiss hnum
      next => cases h
  | traceError cam err =>
      simp only at h
      split at h
      next hstop =>
        cases h
        exact ⟨Int.le_refl _, fun _ => rfl, fun hno => absurd hstop hno⟩
      next hgo =>
        cases h
        exact ⟨Int.le_refl _, fun hstop => absurd hstop hgo, fun _ => rfl⟩
  | sigalrm =>
      simp only at h
      split at h
      · cases h
        exact ⟨Int.le_refl _, False.elim, fun _ => rfl⟩
      · cases h

/-! ## The deadline -/

/-- When `alarm` was first called. -/
def noteArmed (cams : Finset ι) (armed : Option Int) (s : State ι) (a : Act ι) : Option Int :=
  if Arms cams s a then armed.or (some s.now) else armed

/-- The process, with the time at which `alarm` was first called. -/
def armed (cams : Finset ι) : TSys (State ι × Option Int) (Act ι) :=
  (process cams).record none (noteArmed cams)

/-- After the step, SIGALRM is due 20 seconds after the first call of `alarm`, or earlier. -/
def Kept (_ : State ι × Option Int) (_ : Act ι) (p' : State ι × Option Int) : Prop :=
  ∀ due ∈ p'.1.alarm, ∀ t ∈ p'.2, due ≤ t + 20 * second

/-- Later than the first call of `alarm`, no step calls it. -/
def SparesLater (cams : Finset ι) (p : State ι × Option Int) (a : Act ι)
    (_ : State ι × Option Int) : Prop :=
  ∀ t ∈ p.2, t < p.1.now → Spares cams p.1 a

/-- The alarm is pending from its first call on. -/
structure Pending (p : State ι × Option Int) : Prop where
  due : ∀ due ∈ p.1.alarm, ∃ t ∈ p.2, due ≤ t + 20 * second
  past : ∀ t ∈ p.2, t ≤ p.1.now

variable {cams : Finset ι} {p p' : State ι × Option Int} {a : Act ι}

/-- A step that does not call `alarm` leaves the deadline where it was. -/
theorem pending_spared (hp : Pending p) (h : (armed cams).step p a = some p')
    (harms : ¬ Arms cams p.1 a) : Pending p' := by
  obtain ⟨hstep, hnote⟩ := TSys.record_step.mp h
  obtain ⟨hnow, -, hsame⟩ := step_alarm hstep
  rw [noteArmed, if_neg harms] at hnote
  refine ⟨?_, ?_⟩
  · intro due hdue
    rw [hsame harms] at hdue
    rw [hnote]
    exact hp.due due hdue
  · intro t ht
    rw [hnote] at ht
    exact Int.le_trans (hp.past t ht) hnow

/-- A step that calls `alarm` puts the deadline 20 seconds from now. -/
theorem armed_arms (h : (armed cams).step p a = some p') (harms : Arms cams p.1 a) :
    p'.1.alarm = some (p.1.now + 20 * second) ∧ p.1.now ≤ p'.1.now ∧
      p'.2 = some (p.2.getD p.1.now) := by
  obtain ⟨hstep, hnote⟩ := TSys.record_step.mp h
  obtain ⟨hnow, hset, -⟩ := step_alarm hstep
  rw [noteArmed, if_pos harms] at hnote
  refine ⟨hset harms, hnow, ?_⟩
  rw [hnote]
  cases p.2 <;> rfl

theorem kept_iff (hp : Pending p) (h : (armed cams).step p a = some p') :
    Kept p a p' ↔ SparesLater cams p a p' := by
  by_cases harms : Arms cams p.1 a
  · obtain ⟨halarm, -, hfirst⟩ := armed_arms h harms
    simp only [Kept, SparesLater, halarm, hfirst, spares_iff, harms, Option.mem_some_iff,
      forall_eq', not_true_eq_false, imp_false, Int.not_lt]
    refine ⟨?_, ?_⟩
    · intro hle t ht
      rw [Option.mem_def.mp ht, Option.getD_some] at hle
      omega
    · intro hnever
      cases hfirst' : p.2 with
      | none => simp
      | some t =>
          have hnow := hnever t hfirst'
          simpa using hnow
  · have hp' := pending_spared hp h harms
    refine ⟨?_, ?_⟩
    · intro _ t _ _
      exact spares_iff.mpr harms
    · intro _ due hdue t ht
      obtain ⟨t', ht', hle⟩ := hp'.due due hdue
      rw [ht, Option.mem_some_iff] at ht'
      exact ht' ▸ hle

theorem pending_kept (hp : Pending p) (h : (armed cams).step p a = some p')
    (hkept : Kept p a p') : Pending p' := by
  by_cases harms : Arms cams p.1 a
  · obtain ⟨halarm, hnow, hfirst⟩ := armed_arms h harms
    refine ⟨?_, ?_⟩
    · intro due hdue
      exact ⟨_, hfirst, hkept due hdue _ hfirst⟩
    · intro t ht
      rw [hfirst, Option.mem_some_iff] at ht
      cases hp₂ : p.2 with
      | none => simpa [← ht, hp₂] using hnow
      | some t' =>
          have hpast := hp.past t' hp₂
          rw [hp₂, Option.getD_some] at ht
          omega
  · exact pending_spared hp h harms

/-- In every run, SIGALRM stays due 20 seconds after the first call of `alarm`, if and only
if no later poll misses a camera a fourth time and no later error is the sixteenth of its
series, or one beyond. -/
theorem deadline_kept (cams : Finset ι) (now : Int) (ls : List (Act ι)) :
    (armed cams).Along Kept (starting now, none) ls ↔
      (armed cams).Along (SparesLater cams) (starting now, none) ls := by
  apply TSys.along_iff (I := Pending)
  · intro p a p' hp hstep hspares
    exact pending_kept hp hstep ((kept_iff hp hstep).mpr hspares)
  · intro p a p' hp hstep
    exact kept_iff hp hstep
  · refine ⟨?_, ?_⟩
    · intro due hdue
      cases hdue
    · intro t ht
      cases ht

end

/-- The only camera of a process is gone at each of four polls, and five seconds later. -/
def cameraGone : List (Act Unit) :=
  (List.replicate 4 [.pass (5 * second), .poll 0]).flatten ++ [.pass (5 * second)]

/-- The fourth poll puts SIGALRM at 40 seconds, the fifth at 45. -/
theorem deadline_postponed :
    ¬ ∀ (cams : Finset Unit) (now : Int) (ls : List (Act Unit)),
      (armed cams).Along Kept (starting now, none) ls := by
  intro hall
  have hlast := (hall {()} 0 (cameraGone ++ [.poll 0])).last rfl rfl
  have hdue := hlast (45 * second) rfl (20 * second) rfl
  exact absurd hdue (by decide)

end AutoExpo.Watchdog
