import AutoExpo.Watchdog.Alarm

/-!
# A camera that stays away

The watchdog goes on polling after it has called `alarm(20)`. Its polls are five
seconds apart, and one that misses a camera calls `alarm` again, since it has
missed some three times before: as long as the camera stays away, SIGALRM is
fifteen seconds ahead of the next poll and never comes (`never_killed`), however
long a shutdown hangs that it should end (`outlives`). Where the first call of
`alarm` is that of a sixteenth error, the first polls that miss the camera leave
SIGALRM where it is.
-/

namespace AutoExpo.Watchdog

open Kit

variable {ι : Type*}

/-- The watchdog is less than 15 seconds late and the first to call `alarm`; once it has,
every poll misses a camera. -/
def StaysAway (cams : Finset ι) (s : State ι) : Act ι → Prop
  | .pass d => s.now + d < s.nextPoll + 15 * second
  | .poll num => s.alarm ≠ none → num ≠ cams.card
  | .traceError cam err => Arms cams s (.traceError cam err) → s.alarm ≠ none
  | .sigalrm => True

instance (cams : Finset ι) (s : State ι) (a : Act ι) : Decidable (StaysAway cams s a) :=
  match a with
  | .pass _ => inferInstanceAs (Decidable (_ < _))
  | .poll _ => inferInstanceAs (Decidable (_ → _))
  | .traceError cam err =>
      inferInstanceAs (Decidable (Arms cams s (.traceError cam err) → s.alarm ≠ none))
  | .sigalrm => isTrue trivial

/-- The next poll comes before SIGALRM, and calls `alarm` if it misses a camera. -/
structure Ahead (s : State ι) : Prop where
  alive : s.killed = false
  missed : s.alarm ≠ none → 3 < s.connErrCount
  inTime : s.now < s.nextPoll + 15 * second
  polls : s.nextPoll ≤ s.now + 5 * second
  due : ∀ due ∈ s.alarm, s.nextPoll + 15 * second ≤ due

theorem second_pos : 0 < second := by decide

theorem inTime_of_poll (now : Int) : now < now + 5 * second + 15 * second := by
  have hsecond := second_pos
  omega

theorem ahead_starting (now : Int) : Ahead (starting now : State ι) where
  alive := rfl
  missed hpending := absurd rfl hpending
  inTime := inTime_of_poll now
  polls := Int.le_refl _
  due due hdue := by cases hdue

variable {s : State ι}

/-- A call of `alarm` puts SIGALRM fifteen seconds after the next poll, or later. -/
theorem ahead_callAlarm (halive : s.killed = false) (hmissed : 3 < s.connErrCount)
    (hin : s.now < s.nextPoll + 15 * second) (hpolls : s.nextPoll ≤ s.now + 5 * second) :
    Ahead s.callAlarm where
  alive := halive
  missed _ := hmissed
  inTime := hin
  polls := hpolls
  due due hdue := by
    have hnow : s.now + 20 * second = due := Option.mem_some_iff.mp hdue
    show s.nextPoll + 15 * second ≤ due
    omega

variable [DecidableEq ι] {s' : State ι}

theorem Ahead.step {cams : Finset ι} {a : Act ι} (hs : Ahead s) (haway : StaysAway cams s a)
    (h : Watchdog.step cams s a = some s') : Ahead s' := by
  unfold Watchdog.step at h
  split at h
  · cases h
  cases a with
  | pass d =>
      simp only at h
      split at h
      next hd =>
        cases h
        refine ⟨hs.alive, hs.missed, haway, ?_, hs.due⟩
        have hpolls := hs.polls
        show s.nextPoll ≤ s.now + d + 5 * second
        omega
      next => cases h
  | poll num =>
      simp only at h
      split at h
      next =>
        have hdue : s.alarm = none → ∀ due ∈ s.alarm, s.now + 5 * second + 15 * second ≤ due := by
          intro hnone due hdue
          rw [hnone] at hdue
          cases hdue
        split_ifs at h with hmiss hcnt <;> cases h
        · exact ahead_callAlarm hs.alive hcnt (inTime_of_poll s.now) (Int.le_refl _)
        · -- fewer than four polls have missed a camera, so no SIGALRM is pending
          have hnone : s.alarm = none := by
            by_contra hpending
            exact hcnt (Nat.lt_succ_of_lt (hs.missed hpending))
          exact ⟨hs.alive, fun hpending => absurd hnone hpending, inTime_of_poll s.now,
            Int.le_refl _, hdue hnone⟩
        · have hnone : s.alarm = none := by
            by_contra hpending
            exact hmiss (haway hpending)
          exact ⟨hs.alive, fun hpending => absurd hnone hpending, inTime_of_poll s.now,
            Int.le_refl _, hdue hnone⟩
      next => cases h
  | traceError cam err =>
      simp only at h
      split at h
      next harms =>
        cases h
        exact ahead_callAlarm hs.alive (hs.missed (haway harms)) hs.inTime hs.polls
      next =>
        cases h
        exact ⟨hs.alive, hs.missed, hs.inTime, hs.polls, hs.due⟩
  | sigalrm =>
      simp only at h
      split at h
      next hany =>
        -- SIGALRM would have to be due already
        obtain ⟨due, halarm, hle⟩ := (Option.any_eq_true _ _).mp hany
        have hnow := of_decide_eq_true hle
        have hlater := hs.due due halarm
        have hin := hs.inTime
        omega
      next => cases h

theorem ahead_inductive (cams : Finset ι) :
    ((process cams).restrict (StaysAway cams)).Inductive Ahead where
  init s h := by
    obtain ⟨now, rfl⟩ := h
    exact ahead_starting now
  step s a s' _ hs h := by
    obtain ⟨haway, h⟩ := TSys.restrict_step.mp h
    exact hs.step haway h

/-- As long as a camera stays away, SIGALRM does not come: it is always ahead, and the process
is not ended. -/
theorem never_killed (cams : Finset ι) (s : State ι)
    (hs : ((process cams).restrict (StaysAway cams)).Reachable s) :
    s.killed = false ∧ ∀ due ∈ s.alarm, s.now < due := by
  have hahead := (ahead_inductive cams).invariant s hs
  refine ⟨hahead.alive, fun due hdue => ?_⟩
  have hin := hahead.inTime
  have hlater := hahead.due due hdue
  omega

/-- The runs in which the only camera stays away. -/
def away : TSys (State Unit) (Act Unit) := (process {()}).restrict (StaysAway {()})

/-- Between two polls, told to end and with SIGALRM pending. -/
structure Hanging (s : State Unit) : Prop where
  reachable : away.Reachable s
  pending : s.alarm ≠ none
  missed : 3 ≤ s.connErrCount
  rested : s.nextPoll = s.now + 5 * second
  stopped : s.thExpoStop () = true

/-- Four polls have missed the camera. -/
def fourPolls : List (Act Unit) := (List.replicate 4 [.pass (5 * second), .poll 0]).flatten

theorem hanging_fourPolls : ∃ s, Hanging s ∧ 0 ≤ s.now := by
  obtain ⟨s, hs, hshape⟩ := TSys.Reachable.of_exec (⟨0, rfl⟩ : away.init (starting 0))
    (show (away.exec (starting 0) fourPolls).any
      (fun s => s.alarm ≠ none && 3 ≤ s.connErrCount && s.nextPoll = s.now + 5 * second &&
        s.thExpoStop () && 0 ≤ s.now) = true by decide +kernel)
  simp only [Bool.and_eq_true, decide_eq_true_eq] at hshape
  obtain ⟨⟨⟨⟨hpending, hmissed⟩, hrested⟩, hstopped⟩, hnow⟩ := hshape
  exact ⟨s, ⟨hs, hpending, hmissed, hrested, hstopped⟩, hnow⟩

theorem never_killed_fourPolls : ∃ s : State Unit, s.killed = false ∧
    ∃ due ∈ s.alarm, s.now < due := by
  obtain ⟨s, hs, -⟩ := hanging_fourPolls
  obtain ⟨halive, hdue⟩ := never_killed {()} s hs.reachable
  obtain ⟨due, halarm⟩ := Option.ne_none_iff_exists'.mp hs.pending
  exact ⟨s, halive, due, halarm, hdue due halarm⟩

/-- Five seconds later nothing has changed. -/
theorem Hanging.next {s : State Unit} (hs : Hanging s) :
    ∃ s', Hanging s' ∧ s'.now = s.now + 5 * second := by
  have hsecond := second_pos
  have hahead := (ahead_inductive {()}).invariant s hs.reachable
  have hpass : away.step s (.pass (5 * second)) = some { s with now := s.now + 5 * second } := by
    refine TSys.restrict_step.mpr ⟨?_, ?_⟩
    · show s.now + 5 * second < s.nextPoll + 15 * second
      have hrested := hs.rested
      omega
    · have hall : s.alarm.all (fun due => s.now + 5 * second ≤ due) = true := by
        rw [Option.all_eq_true]
        intro due hdue
        have hlater := hahead.due due hdue
        have hrested := hs.rested
        exact decide_eq_true (by omega)
      simp [process, step, hahead.alive, hall, hsecond.le]
  have hpoll : away.step { s with now := s.now + 5 * second } (.poll 0) = some
      { s with
        now := s.now + 5 * second
        nextPoll := s.now + 5 * second + 5 * second
        connErrCount := s.connErrCount + 1
        thExpoStop := fun c => decide (c ∈ ({()} : Finset Unit)) || s.thExpoStop c
        alarm := some (s.now + 5 * second + 20 * second) } := by
    refine TSys.restrict_step.mpr ⟨fun _ => by decide, ?_⟩
    simp [process, step, hahead.alive, hs.rested, Nat.lt_succ_of_le hs.missed, State.callAlarm]
  exact ⟨_, ⟨(hs.reachable.step hpass).step hpoll, Option.some_ne_none _,
    Nat.le_succ_of_le hs.missed, rfl, rfl⟩, rfl⟩

/-- However late, there is a run in which the process is still there, told to end. -/
theorem outlives (n : Nat) : ∃ s, away.Reachable s ∧ n * (5 * second) ≤ s.now ∧
    s.thExpoStop () = true ∧ s.alarm ≠ none ∧ s.killed = false := by
  have hhanging : ∃ s, Hanging s ∧ n * (5 * second) ≤ s.now := by
    induction n with
    | zero =>
        obtain ⟨s, hs, hnow⟩ := hanging_fourPolls
        exact ⟨s, hs, by simpa using hnow⟩
    | succ n ih =>
        obtain ⟨s, hs, hnow⟩ := ih
        obtain ⟨s', hs', hnow'⟩ := hs.next
        refine ⟨s', hs', ?_⟩
        rw [hnow', Nat.cast_succ, Int.add_mul, Int.one_mul]
        omega
  obtain ⟨s, hs, hnow⟩ := hhanging
  have halive := ((ahead_inductive {()}).invariant s hs.reachable).alive
  exact ⟨s, hs.reachable, hnow, hs.stopped, hs.pending, halive⟩

end AutoExpo.Watchdog
