import AutoExpo.Camera.Shutdown
import AutoExpo.Kit.Runs

/-!
# The end of the exposure thread

Told to stop, the exposure thread goes down through what is left of its pass to
the head of its loop and leaves. `ExpoPc.rank` counts the way; the one step that
does not shorten it is a status poll that finds the exposure WORKING, for the
polling loop is the only one that does not look at `th_expo_stop`.

So the thread ends if and only if the camera does not answer WORKING for ever
(`expo_ends`, `hung_camera_never_ends`).
-/

namespace AutoExpo

open Kit

/-- The longest way to the end once the stop flag is up, WORKING polls apart. -/
def ExpoPc.rank : ExpoPc → Nat
  | .unborn | .ended => 0
  | .head => 1
  | .coolLoop _ | .idle | .incr => 2
  | .coolSleep | .coolTik _ _ | .eraseBuf _ | .push _ => 3
  | .filling _ _ _ _ => 4
  | .getData _ _ _ _ => 5
  | .gen _ => 6
  | .poll _ => 7
  | .expoWait _ _ => 8
  | .start => 9
  | .test => 10

/-- A step of the exposure thread; the SDK's stores are not its own. -/
def Act.isExpo : Act → Bool
  | .expo (.sdkStore _) => false
  | .expo _ => true
  | _ => false

/-- A status poll that is answered WORKING. -/
def Act.isWorking : Act → Bool
  | .expo (.getExpStatus res stat _ _) => res = ASI_SUCCESS && stat = .working
  | _ => false

/-- Every SDK call and every sleep of the exposure thread returns: it moves on and on until
it ends. -/
def Returns {cfg : Config} (b : (camera cfg).Behaviour) : Prop :=
  ∀ i, (b.state i).expo = .ended ∨ ∃ j, i ≤ j ∧ (b.act j).isExpo = true

/-- The camera answers WORKING to the polls for ever. -/
def WorksForEver {cfg : Config} (b : (camera cfg).Behaviour) : Prop :=
  ∀ i, ∃ j, i ≤ j ∧ (b.act j).isWorking = true

variable {cfg : Config} {s s' : Cam}

/-! ## One step -/

/-- With the flag up, every step of the thread but a WORKING poll is one towards the end. -/
theorem ExpoStep.rank_lt {a : ExpoAct} (h : ExpoStep cfg s a s') (hstop : s.thExpoStop = true)
    (hlive : s'.crash = none) (hown : (Act.expo a).isExpo = true)
    (hworking : (Act.expo a).isWorking = false) : s'.expo.rank < s.expo.rank := by
  cases h with
  | coolOn realTemp waitMax he hwait => exact absurd (.inl hstop) hwait
  | coolTik waitMax tik he htik => exact absurd (.inr hstop) htik
  | expoWait shot elapseCnt he hwait => exact absurd (.inl hstop) hwait
  | enter he hgo =>
      rw [hstop] at hgo
      cases hgo
  | done he =>
      cases cfg.keepRunning <;> simp [he, ExpoPc.rank]
  | working trip tik shot he => simp [Act.isWorking] at hworking
  | genNull shot he => simp at hlive
  | sdkStore => simp [Act.isExpo] at hown
  | coolSleep he | cooled _ _ he | coolTikDone _ _ he | leave he | pass he | idleSleep he
  | startExposure _ _ _ he | expoWaitDone _ _ he | polled _ _ _ _ _ he | genFull _ _ he
  | gen _ _ he | getDataBegin _ _ _ _ he | getDataOk _ _ _ _ _ _ _ _ he
  | getDataFail _ _ _ _ _ _ _ _ _ he | eraseBuf _ he | pushData _ he | incrExpoCnt he =>
      simp [he, ExpoPc.rank]

/-- WORKING polls and the SDK's stores leave the thread where it is. -/
theorem ExpoStep.expo_eq {a : ExpoAct} (h : ExpoStep cfg s a s')
    (hstay : (Act.expo a).isExpo = false ∨ (Act.expo a).isWorking = true) :
    s'.expo = s.expo := by
  cases h with
  | working => rfl
  | sdkStore => rfl
  | polled res stat trip tik shot he hno =>
      simp only [Act.isExpo, Act.isWorking, Bool.and_eq_true, decide_eq_true_eq] at hstay
      rcases hstay with hstay | hstay
      · cases hstay
      · exact absurd hstay hno
  | _ => simp [Act.isExpo, Act.isWorking] at hstay

/-- The thread has been started and told to stop. -/
structure Told (s : Cam) : Prop where
  born : s.expo ≠ .unborn
  stop : s.thExpoStop = true

theorem Told.step {a : Act} (hs : Told s) (h : step cfg s a = some s') : Told s' := by
  refine ⟨?_, step_stop h hs.stop⟩
  cases a with
  | expo e =>
      cases step_cases h with
      | expo h => exact h.born.2
  | main e | data e | rpc e =>
      rw [step_expo_of_others h hs.born (by simp)]
      exact hs.born

/-- What a step of the process does to the rank. -/
theorem step_rank {a : Act} (hs : Told s) (h : step cfg s a = some s') (hlive : s'.crash = none) :
    s'.expo.rank ≤ s.expo.rank ∧
      (a.isExpo = true → a.isWorking = false → s'.expo.rank < s.expo.rank) := by
  cases a with
  | expo e =>
      cases step_cases h with
      | expo h =>
          by_cases hstay : (Act.expo e).isExpo = false ∨ (Act.expo e).isWorking = true
          · rw [h.expo_eq hstay]
            refine ⟨Nat.le_refl _, ?_⟩
            intro hown hno
            rcases hstay with hstay | hstay
            · rw [hstay] at hown
              cases hown
            · rw [hstay] at hno
              cases hno
          · rw [not_or, Bool.not_eq_false, Bool.not_eq_true] at hstay
            have hlt := h.rank_lt hs.stop hlive hstay.1 hstay.2
            exact ⟨Nat.le_of_lt hlt, fun _ _ => hlt⟩
  | main e | data e | rpc e =>
      rw [step_expo_of_others h hs.born (by simp)]
      exact ⟨Nat.le_refl _, fun hown => by cases hown⟩

/-! ## The run -/

/-- A thread that has ended polls no more. -/
theorem ended_not_working {a : Act} (hended : s.expo = .ended) (h : step cfg s a = some s') :
    a.isWorking = false ∧ s'.expo = .ended := by
  cases a with
  | expo e =>
      cases step_cases h with
      | expo h => cases h <;> simp_all
  | main e | data e | rpc e =>
      refine ⟨rfl, ?_⟩
      rw [step_expo_of_others h (by simp [hended]) (by simp), hended]

/-- Told to stop, the exposure thread ends, if and only if the camera does not answer
WORKING to its polls for ever. -/
theorem expo_ends (cfg : Config) (b : (camera cfg).Behaviour) (htold : Told (b.state 0))
    (hret : Returns b) : (∃ i, (b.state i).expo = .ended) ↔ ¬ WorksForEver b := by
  refine ⟨?_, ?_⟩
  · rintro ⟨i, hended⟩ hworks
    obtain ⟨j, hij, hworking⟩ := hworks i
    have hj : (b.state j).expo = .ended :=
      b.propagate (fun _ _ _ hs h => (ended_not_working hs h).2) hij hended
    rw [(ended_not_working hj (b.next j)).1] at hworking
    cases hworking
  · intro hstops
    have htold' : ∀ i, Told (b.state i) := fun i =>
      b.propagate (fun _ _ _ hs h => hs.step h) (Nat.zero_le i) htold
    have hrank := fun i => step_rank (htold' i) (b.next i) (step_live (b.next (i + 1)))
    -- every other step of the thread shortens the way: there are finitely many
    have hfinite : ∃ N, ∀ j, N ≤ j →
        ¬ ((b.act j).isExpo = true ∧ (b.act j).isWorking = false) := by
      apply TSys.finitely_many (m := fun i => (b.state i).expo.rank)
      · intro i
        exact (hrank i).1
      · intro i hi
        exact (hrank i).2 hi.1 hi.2
    obtain ⟨N, hN⟩ := hfinite
    simp only [WorksForEver, not_forall, not_exists, not_and, Bool.not_eq_true] at hstops
    obtain ⟨M, hM⟩ := hstops
    rcases hret (max N M) with hended | ⟨j, hj, hown⟩
    · exact ⟨_, hended⟩
    · have hno := hM j (Nat.le_trans (Nat.le_max_right N M) hj)
      exact absurd ⟨hown, hno⟩ (hN j (Nat.le_trans (Nat.le_max_left N M) hj))

/-- A SIGINT after the first changes nothing. -/
theorem raiseStop_again (hlive : s.crash = none) (hstop : s.thExpoStop = true) :
    (camera cfg).step s (.main (.raiseStop .sigint)) = some s := by
  simp only [camera, step_of_live hlive, mainStep]
  cases s
  cases hstop
  rfl

/-- SIGINT while the camera is being polled. -/
def stopWhenPolling : List Act :=
  startUp ++ [.expo .head, .expo .test, .expo (.startExposure ASI_SUCCESS 0 0), .expo .expoWait,
    .main (.raiseStop .sigint)]

/-- Two polls in vain and a third one; the frame is read out, and the thread leaves. -/
def lastPass : List Act :=
  [.expo (.getExpStatus ASI_SUCCESS .working false 0),
    .expo (.getExpStatus ASI_SUCCESS .working false 0),
    .expo (.getExpStatus ASI_SUCCESS .success false 0), .expo .genBuff] ++
      readOut (fun _ => 1) ++ [.expo .head]

/-- After the pass SIGINT comes again and again. -/
theorem expo_ends_lastPass : ∃ b : (camera shortExpo).Behaviour,
    (b.state 0).expo = .poll ⟨0, 0, 0⟩ ∧ (b.act 1).isWorking = true ∧
      ∃ i, (b.state i).expo = .ended := by
  obtain ⟨s, -, hshape⟩ := TSys.Reachable.of_exec (fresh_initial : (camera shortExpo).init _)
    (show ((camera shortExpo).exec Cam.fresh stopWhenPolling).any
      (fun s => s.expo = .poll ⟨0, 0, 0⟩ && s.thExpoStop && ((camera shortExpo).exec s lastPass).any
        (fun t => t.expo = .ended && t.thExpoStop && t.crash = none)) = true
      by decide +kernel)
  simp only [Bool.and_eq_true, decide_eq_true_eq] at hshape
  obtain ⟨⟨hpoll, hstop⟩, hrun⟩ := hshape
  obtain ⟨t, hrun, ht⟩ := TSys.exec_any hrun
  simp only [Bool.and_eq_true, decide_eq_true_eq] at ht
  obtain ⟨⟨hended, htstop⟩, htlive⟩ := ht
  have hstay : (camera shortExpo).step t (.main (.raiseStop .sigint)) = some t :=
    raiseStop_again htlive htstop
  let b := TSys.Behaviour.replay lastPass hrun hstay
  have hlast : ∀ i, 9 ≤ i → b.state i = t ∧ b.act i = .main (.raiseStop .sigint) := fun i hi =>
    TSys.Behaviour.replay_end hrun hstay hi
  have hborn : (b.state 0).expo ≠ .unborn := by
    show s.expo ≠ .unborn
    rw [hpoll]
    exact ExpoPc.noConfusion
  have hret : Returns b := by
    intro i
    by_cases hi : i ≤ 8
    · exact .inr ⟨8, hi, rfl⟩
    · left
      rw [(hlast i (Nat.lt_of_not_le hi)).1]
      exact hended
  refine ⟨b, hpoll, rfl, (expo_ends shortExpo b ⟨hborn, hstop⟩ hret).mpr ?_⟩
  intro hworks
  obtain ⟨j, hj, hworking⟩ := hworks 9
  rw [(hlast j hj).2] at hworking
  cases hworking

/-- A camera that hangs in WORKING keeps the exposure thread in its polling loop. -/
theorem hung_camera_never_ends :
    ¬ ∀ b : (camera shortExpo).Behaviour, (camera shortExpo).Reachable (b.state 0) →
      Told (b.state 0) → Returns b → ∃ i, (b.state i).expo = .ended := by
  intro hall
  obtain ⟨s, hs, hshape⟩ := TSys.Reachable.of_exec (fresh_initial : (camera shortExpo).init _)
    (show ((camera shortExpo).exec Cam.fresh stopWhenPolling).any
      (fun s => s.expo = .poll ⟨0, 0, 0⟩ && s.thExpoStop && s.crash = none) = true
      by decide +kernel)
  simp only [Bool.and_eq_true, decide_eq_true_eq] at hshape
  obtain ⟨⟨hpoll, hstop⟩, hlive⟩ := hshape
  have hworking : (camera shortExpo).step s
      (.expo (.getExpStatus ASI_SUCCESS .working false 0)) = some s := by
    simp [camera, step_of_live hlive, expoStep, hpoll]
  have hret : Returns (TSys.Behaviour.stay hworking) := fun i => .inr ⟨i, Nat.le_refl _, rfl⟩
  obtain ⟨i, hended⟩ := hall (.stay hworking) hs ⟨by simp [TSys.Behaviour.stay, hpoll], hstop⟩ hret
  simp [TSys.Behaviour.stay, hpoll] at hended

end AutoExpo
