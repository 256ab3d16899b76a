import AutoExpo.Camera.Ends

/-!
# The cooling wait

Before it exposes, the thread waits for the sensor to get cold: it compares the
temperature with the target, and sleeps five seconds where it is not there yet. A
cooler that does not work must not keep the camera from exposing, so it gives up
after `wait_max` comparisons.

So the wait comes to an end, and an exposure is started only after a cold reading
or after `5 * wait_max` sleeps of a second (`cooling_wait`). A thread told to stop
in its wait leaves the wait too, but exposes nothing.
-/

namespace AutoExpo

open Kit

/-- What the wait has seen so far: a reading below the target plus one, and the sleeps of
one second it has taken. -/
structure Waited where
  cold : Bool
  slept : Nat
  deriving DecidableEq

def Waited.start : Waited where
  cold := false
  slept := 0

/-- The temperature is looked at only if the loop has not ended before. -/
def noteCooling (cfg : Config) (w : Waited) (s : Cam) : Act → Waited
  | .expo (.coolLoop realTemp) => match s.expo with
      | .coolLoop waitMax =>
          if s.thExpoStop ∨ waitMax = 0 then w
          else { w with cold := w.cold || decide (realTemp < cfg.coolTemp + 1) }
      | _ => w
  | .expo .coolTik => match s.expo with
      | .coolTik _ tik =>
          if tik = 0 ∨ s.thExpoStop then w else { w with slept := w.slept + 1 }
      | _ => w
  | _ => w

/-- A camera, with what its cooling wait has seen. -/
def cooling (cfg : Config) : TSys (Cam × Waited) Act :=
  (camera cfg).record .start (noteCooling cfg)

/-- The points of `expo_wait_cooling`. -/
def ExpoPc.cooling : ExpoPc → Bool
  | .coolSleep | .coolLoop _ | .coolTik _ _ => true
  | _ => false

/-- The points of the exposure loop's body. -/
def ExpoPc.looping : ExpoPc → Bool
  | .unborn | .coolSleep | .coolLoop _ | .coolTik _ _ | .head | .ended => false
  | _ => true

/-- The sleeps of one second that are still to come. -/
def ExpoPc.sleepsLeft (cfg : Config) : ExpoPc → Nat
  | .unborn | .coolSleep => 5 * cfg.waitMax
  | .coolLoop waitMax => 5 * waitMax
  | .coolTik waitMax tik => 5 * waitMax + tik
  | _ => 0

/-- The longest way through the wait. -/
def ExpoPc.coolRank (cfg : Config) : ExpoPc → Nat
  | .coolSleep => 8 * cfg.waitMax + 2
  | .coolLoop waitMax => 8 * waitMax + 1
  | .coolTik waitMax tik => 8 * waitMax + 2 + tik
  | _ => 0

/-- The sensor has been cold, or waited for long enough. -/
def Waited.enough (cfg : Config) (w : Waited) : Prop :=
  w.cold = true ∨ w.slept = 5 * cfg.waitMax

/-- The wait ends with the first cold reading, takes `5 * wait_max` seconds at most, and
no exposure is started before it is over. -/
structure WaitsForCold (cfg : Config) (p : Cam × Waited) : Prop where
  cooling : p.1.expo.cooling = true → p.2.cold = false
  bounded : p.2.slept ≤ 5 * cfg.waitMax
  exposing : p.1.expo = .start → p.2.enough cfg

/-- The sleeps taken and those to come are `5 * wait_max` together, unless the camera has
been told to stop. -/
structure Cooling (cfg : Config) (p : Cam × Waited) : Prop where
  bounded : p.2.slept + p.1.expo.sleepsLeft cfg ≤ 5 * cfg.waitMax
  waiting : p.1.expo = .unborn ∨ p.1.expo.cooling = true → p.2.cold = false ∧
    (p.1.thExpoStop = true ∨ p.2.slept + p.1.expo.sleepsLeft cfg = 5 * cfg.waitMax)
  head : p.1.expo = .head → p.1.thExpoStop = true ∨ p.2.enough cfg
  looping : p.1.expo.looping = true → p.2.enough cfg

variable {cfg : Config} {s s' : Cam} {w : Waited}

/-! ## What the wait has seen -/

/-- A point of the wait. -/
theorem Cooling.of_cooling (hcooling : s.expo.cooling = true) (hcold : w.cold = false)
    (hbounded : w.slept + s.expo.sleepsLeft cfg ≤ 5 * cfg.waitMax)
    (hleft : s.thExpoStop = true ∨ w.slept + s.expo.sleepsLeft cfg = 5 * cfg.waitMax) :
    Cooling cfg (s, w) := by
  refine ⟨hbounded, fun _ => ⟨hcold, hleft⟩, ?_, ?_⟩
  · intro hhead
    have hno : ExpoPc.cooling .head = true := hhead ▸ hcooling
    cases hno
  · intro hlooping
    cases hpc : s.expo <;> simp_all [ExpoPc.cooling, ExpoPc.looping]

/-- A point past the wait. -/
theorem Cooling.past (hbounded : w.slept ≤ 5 * cfg.waitMax) (hcooling : s.expo.cooling = false)
    (hborn : s.expo ≠ .unborn) (hhead : s.expo = .head → s.thExpoStop = true ∨ w.enough cfg)
    (hlooping : s.expo.looping = true → w.enough cfg) : Cooling cfg (s, w) := by
  refine ⟨?_, ?_, hhead, hlooping⟩
  · have hzero : s.expo.sleepsLeft cfg = 0 := by
      cases hpc : s.expo <;> simp_all [ExpoPc.cooling, ExpoPc.sleepsLeft]
    show w.slept + s.expo.sleepsLeft cfg ≤ 5 * cfg.waitMax
    rw [hzero]
    exact hbounded
  · rintro (hun | hcool)
    · exact absurd hun hborn
    · rw [hcooling] at hcool
      cases hcool

theorem Cooling.slept_le (hs : Cooling cfg (s, w)) : w.slept ≤ 5 * cfg.waitMax :=
  Nat.le_trans (Nat.le_add_right _ _) hs.bounded

/-- A step within the body of the loop, or out of it. -/
theorem Cooling.loop (hs : Cooling cfg (s, w)) (hfrom : s.expo.looping = true)
    (hto : s'.expo.looping = true ∨ s'.expo = .head ∨ s'.expo = .ended) :
    Cooling cfg (s', w) := by
  have henough := hs.looping hfrom
  refine .past hs.slept_le ?_ ?_ (fun _ => .inr henough) (fun _ => henough)
  · rcases hto with hto | hto | hto
    · cases hpc : s'.expo <;> simp_all [ExpoPc.cooling, ExpoPc.looping]
    · rw [hto]
      rfl
    · rw [hto]
      rfl
  · intro hun
    rw [hun] at hto
    rcases hto with hto | hto | hto <;> cases hto

/-- A step that leaves the thread where it is. -/
theorem Cooling.stay (hs : Cooling cfg (s, w)) (hexpo : s'.expo = s.expo)
    (hstop : s.thExpoStop = true → s'.thExpoStop = true) : Cooling cfg (s', w) := by
  refine ⟨?_, ?_, ?_, ?_⟩
  · show w.slept + s'.expo.sleepsLeft cfg ≤ _
    rw [hexpo]
    exact hs.bounded
  · intro hwait
    simp only [hexpo] at hwait ⊢
    obtain ⟨hcold, hleft⟩ := hs.waiting hwait
    exact ⟨hcold, hleft.imp_left hstop⟩
  · intro hhead
    exact (hs.head (hexpo.symm.trans hhead)).imp_left hstop
  · intro hlooping
    simp only [hexpo] at hlooping
    exact hs.looping hlooping

/-- The head of the wait's loop, where the temperature is looked at. -/
theorem Cooling.coolLoop (hs : Cooling cfg (s, w)) (realTemp : Rat) {waitMax : Nat}
    (he : s.expo = .coolLoop waitMax) :
    ((s.thExpoStop ∨ waitMax = 0 ∨ realTemp < cfg.coolTemp + 1) →
      Cooling cfg ({ s with expo := .head }, noteCooling cfg w s (.expo (.coolLoop realTemp)))) ∧
    (¬ (s.thExpoStop ∨ waitMax = 0 ∨ realTemp < cfg.coolTemp + 1) →
      Cooling cfg ({ s with expo := .coolTik (waitMax - 1) 5 },
        noteCooling cfg w s (.expo (.coolLoop realTemp)))) := by
  obtain ⟨hcold, hleft⟩ : w.cold = false ∧ _ := hs.waiting (.inr (by rw [he]; rfl))
  have hslept := hs.slept_le
  have hbounded := hs.bounded
  simp only [he, ExpoPc.sleepsLeft] at hleft hbounded
  by_cases hover : s.thExpoStop ∨ waitMax = 0
  · have hnote : noteCooling cfg w s (.expo (.coolLoop realTemp)) = w := by
      simp only [noteCooling, he, hover, if_true]
    rw [hnote]
    refine ⟨fun _ => ?_, fun hgo => absurd (hover.imp_right .inl) hgo⟩
    refine .past hslept rfl ExpoPc.noConfusion (fun _ => ?_) (fun hpc => by cases hpc)
    rcases hover with hstop | rfl
    · exact .inl hstop
    · exact hleft.imp_right .inr
  · have hnote : noteCooling cfg w s (.expo (.coolLoop realTemp)) =
        { w with cold := decide (realTemp < cfg.coolTemp + 1) } := by
      simp only [noteCooling, he, hover, if_false, hcold, Bool.false_or]
    rw [hnote]
    rw [not_or] at hover
    refine ⟨fun hend => ?_, fun hgo => ?_⟩
    · have hreading : realTemp < cfg.coolTemp + 1 :=
        (hend.resolve_left hover.1).resolve_left hover.2
      exact .past hslept rfl ExpoPc.noConfusion (fun _ => .inr (.inl (decide_eq_true hreading)))
        (fun hpc => by cases hpc)
    · rw [not_or, not_or] at hgo
      have hpred : w.slept + (5 * (waitMax - 1) + 5) = w.slept + 5 * waitMax := by
        have hmore := hover.2
        omega
      refine .of_cooling rfl (decide_eq_false hgo.2.2) ?_ ?_
      · exact hpred ▸ hbounded
      · exact hleft.imp_right fun hall => hpred.trans hall

theorem ExpoStep.cooling {a : ExpoAct} (h : ExpoStep cfg s a s') (hs : Cooling cfg (s, w)) :
    Cooling cfg (s', noteCooling cfg w s (.expo a)) := by
  cases h with
  | coolSleep he =>
      obtain ⟨hcold, hleft⟩ := hs.waiting (.inr (by rw [he]; rfl))
      have hbounded := hs.bounded
      simp only [he, ExpoPc.sleepsLeft] at hleft hbounded
      exact .of_cooling rfl hcold hbounded hleft
  | cooled realTemp waitMax he hend => exact (hs.coolLoop realTemp he).1 hend
  | coolOn realTemp waitMax he hgo => exact (hs.coolLoop realTemp he).2 hgo
  | coolTikDone waitMax tik he hdone =>
      obtain ⟨hcold, hleft⟩ := hs.waiting (.inr (by rw [he]; rfl))
      have hbounded := hs.bounded
      simp only [he, ExpoPc.sleepsLeft] at hleft hbounded
      simp only [noteCooling, he, hdone, if_true]
      refine .of_cooling rfl hcold ?_ ?_
      · show w.slept + 5 * waitMax ≤ _
        omega
      · rcases hdone with rfl | hstop
        · exact hleft
        · exact .inl hstop
  | coolTik waitMax tik he hgo =>
      obtain ⟨hcold, hleft⟩ := hs.waiting (.inr (by rw [he]; rfl))
      have hbounded := hs.bounded
      simp only [he, ExpoPc.sleepsLeft] at hleft hbounded
      simp only [noteCooling, he, hgo, if_false]
      have hslept : w.slept + 1 + (5 * waitMax + (tik - 1)) = w.slept + (5 * waitMax + tik) := by
        rw [not_or] at hgo
        omega
      refine .of_cooling rfl hcold ?_ ?_
      · exact hslept ▸ hbounded
      · exact hleft.imp_right fun hall => hslept.trans hall
  | leave he hstop =>
      exact .past hs.slept_le rfl ExpoPc.noConfusion (fun hpc => by cases hpc)
        (fun hpc => by cases hpc)
  | enter he hgo =>
      have henough : w.enough cfg := by
        rcases hs.head he with hstop | henough
        · rw [hgo] at hstop
          cases hstop
        · exact henough
      exact .past hs.slept_le rfl ExpoPc.noConfusion (fun hpc => by cases hpc) (fun _ => henough)
  | done he hdone =>
      refine hs.loop (by rw [he]; rfl) ?_
      cases cfg.keepRunning
      · exact .inr (.inr rfl)
      · exact .inl rfl
  | working trip tik shot he => exact hs
  | sdkStore px shot imgBuf imgSize ticket he => exact hs.stay rfl id
  | genNull shot he => exact hs.stay rfl id
  | genFull shot c he => exact hs.loop (by rw [he]; rfl) (.inr (.inl rfl))
  | idleSleep he | incrExpoCnt he => exact hs.loop (by rw [he]; rfl) (.inr (.inl rfl))
  | pass he | startExposure _ _ _ he | expoWaitDone _ _ he | expoWait _ _ he
  | polled _ _ _ _ _ he | gen _ _ he | getDataBegin _ _ _ _ he | getDataOk _ _ _ _ _ _ _ _ he
  | getDataFail _ _ _ _ _ _ _ _ _ he | eraseBuf _ he | pushData _ he =>
      exact hs.loop (by rw [he]; rfl) (.inl rfl)

/-- The other threads leave the exposure thread where it is; `main` starts it. -/
theorem CamStep.cooling {a : Act} (h : CamStep cfg s a s') (hs : Cooling cfg (s, w)) :
    Cooling cfg (s', noteCooling cfg w s a) := by
  cases h with
  | main h => cases h with
      | dataSavingStart => exact hs.stay rfl id
      | raiseStop => exact hs.stay rfl fun _ => rfl
      | expoLoopStart hun _ =>
          have hleft := hs.waiting (.inl hun)
          have hbounded := hs.bounded
          simp only [hun, ExpoPc.sleepsLeft] at hleft hbounded
          exact .of_cooling rfl hleft.1 hbounded hleft.2
  | expo h => exact h.cooling hs
  | data h => exact hs.stay (by rw [h.frame]) (by rw [h.frame]; exact id)
  | rpc h => exact hs.stay (by rw [h.frame]) (by rw [h.frame]; exact id)

theorem cooling_inductive (cfg : Config) : (AutoExpo.cooling cfg).Inductive (Cooling cfg) where
  init p hinit := by
    obtain ⟨⟨_, _, _, _, _, _, hexpo, _⟩, hstart⟩ := hinit
    refine ⟨?_, fun _ => ⟨?_, .inr ?_⟩, ?_, ?_⟩
    · simp [hexpo, hstart, Waited.start, ExpoPc.sleepsLeft]
    · rw [hstart]
      rfl
    · simp [hexpo, hstart, Waited.start, ExpoPc.sleepsLeft]
    · simp [hexpo]
    · simp [hexpo, ExpoPc.looping]
  step p a p' _ hs hstep := by
    obtain ⟨hstep, hnote⟩ := TSys.record_step.mp hstep
    have hcooling := (step_cases hstep).cooling hs
    rw [← hnote] at hcooling
    exact hcooling

theorem Cooling.waits {p : Cam × Waited} (hs : Cooling cfg p) : WaitsForCold cfg p where
  cooling h := (hs.waiting (.inr h)).1
  bounded := hs.slept_le
  exposing h := hs.looping (by rw [h]; rfl)

/-! ## The way through the wait -/

/-- Every step of the thread in its wait is one towards the wait's end. -/
theorem ExpoStep.coolRank_lt {a : ExpoAct} (h : ExpoStep cfg s a s')
    (hcooling : s.expo.cooling = true) : s'.expo.coolRank cfg < s.expo.coolRank cfg := by
  cases h with
  | coolOn realTemp waitMax he hgo =>
      rw [not_or, not_or] at hgo
      have hmore := hgo.2.1
      rw [he]
      show 8 * (waitMax - 1) + 2 + 5 < 8 * waitMax + 1
      omega
  | coolTik waitMax tik he hgo =>
      rw [not_or] at hgo
      have hmore := hgo.1
      rw [he]
      show 8 * waitMax + 2 + (tik - 1) < 8 * waitMax + 2 + tik
      omega
  | coolTikDone waitMax tik he =>
      rw [he]
      show 8 * waitMax + 1 < 8 * waitMax + 2 + tik
      omega
  | coolSleep he =>
      rw [he]
      exact Nat.lt_succ_self _
  | cooled _ _ he =>
      rw [he]
      exact Nat.succ_pos _
  | _ => simp_all [ExpoPc.cooling]

/-- The thread does not come back to its wait. -/
theorem ExpoStep.cooled_stays {a : ExpoAct} (h : ExpoStep cfg s a s')
    (hcooling : s.expo.cooling = false) : s'.expo.cooling = false := by
  cases h with
  | done => cases cfg.keepRunning <;> rfl
  | working => exact hcooling
  | sdkStore | genNull => exact hcooling
  | coolSleep he | coolOn _ _ he | coolTikDone _ _ he | coolTik _ _ he =>
      rw [he] at hcooling
      cases hcooling
  | _ => rfl

/-- What a step of the process does to the way through the wait. -/
theorem step_coolRank {a : Act} (hborn : s.expo ≠ .unborn) (h : step cfg s a = some s') :
    s'.expo ≠ .unborn ∧ (s.expo.cooling = false → s'.expo.cooling = false) ∧
      s'.expo.coolRank cfg ≤ s.expo.coolRank cfg ∧
      (a.isExpo = true → s.expo.cooling = true →
        s'.expo.coolRank cfg < s.expo.coolRank cfg) := by
  cases a with
  | expo e =>
      cases step_cases h with
      | expo h =>
          refine ⟨h.born.2, h.cooled_stays, ?_, fun _ => h.coolRank_lt⟩
          cases hcooling : s.expo.cooling with
          | true => exact Nat.le_of_lt (h.coolRank_lt hcooling)
          | false =>
              have hzero : s'.expo.coolRank cfg = 0 := by
                have hpast := h.cooled_stays hcooling
                cases hpc : s'.expo <;> simp_all [ExpoPc.cooling, ExpoPc.coolRank]
              rw [hzero]
              exact Nat.zero_le _
  | main e | data e | rpc e =>
      rw [step_expo_of_others h hborn (by simp)]
      exact ⟨hborn, id, Nat.le_refl _, fun hown => by cases hown⟩

/-! ## The run -/

/-- The exposure thread waits once, for as long as it takes the sensor to get cold and
for `5 * wait_max` seconds at most; it exposes only when that is over. -/
theorem cooling_wait (cfg : Config) (b : (AutoExpo.cooling cfg).Behaviour)
    (hreach : (AutoExpo.cooling cfg).Reachable (b.state 0))
    (hborn : (b.state 0).1.expo ≠ .unborn) (hret : Returns b.forget) :
    (∃ i, ∀ j, (b.state j).1.expo.cooling = true ↔ j < i) ∧
      ∀ j, WaitsForCold cfg (b.state j) := by
  have hborn' : ∀ i, (b.state i).1.expo ≠ .unborn := fun i =>
    b.forget.propagate (P := fun s => s.expo ≠ .unborn)
      (fun _ _ _ hs h => (step_coolRank hs h).1) (Nat.zero_le i) hborn
  have hstep := fun i => step_coolRank (hborn' i) (b.forget.next i)
  have hfinite : ∃ N, ∀ j, N ≤ j →
      ¬ ((b.act j).isExpo = true ∧ (b.state j).1.expo.cooling = true) :=
    TSys.finitely_many (m := fun i => (b.state i).1.expo.coolRank cfg) (fun i => (hstep i).2.2.1)
      (fun i hi => (hstep i).2.2.2 hi.1 hi.2)
  obtain ⟨N, hN⟩ := hfinite
  -- the thread moves again after its last step of the wait, so it is past the wait
  have hpast : ∃ i, (b.state i).1.expo.cooling = false := by
    rcases hret N with hended | ⟨j, hj, hown⟩
    · refine ⟨N, ?_⟩
      have hended : (b.state N).1.expo = .ended := hended
      rw [hended]
      rfl
    · exact ⟨j, Bool.eq_false_iff.mpr fun hcooling => hN j hj ⟨hown, hcooling⟩⟩
  refine ⟨⟨Nat.find hpast, ?_⟩, ?_⟩
  · intro j
    refine ⟨fun hcooling => ?_, fun hj => ?_⟩
    · by_contra hlate
      have hstays : (b.state j).1.expo.cooling = false :=
        (b.forget.propagate (P := fun s => s.expo ≠ .unborn ∧ s.expo.cooling = false)
          (fun _ _ _ hs h => ⟨(step_coolRank hs.1 h).1, (step_coolRank hs.1 h).2.1 hs.2⟩)
          (Nat.le_of_not_lt hlate) ⟨hborn' _, Nat.find_spec hpast⟩).2
      rw [hcooling] at hstays
      cases hstays
    · exact Bool.not_eq_false _ ▸ Nat.find_min hpast hj
  · intro j
    have hreach' : (AutoExpo.cooling cfg).Reachable (b.state j) :=
      b.propagate (fun _ _ _ hs h => hs.step h) (Nat.zero_le j) hreach
    exact ((cooling_inductive cfg).invariant _ hreach').waits

/-- A camera that waits for its cooler. -/
def coolExpo : Config := { shortExpo with waitCooling := true, cooler := true }

/-- A warm reading, five seconds of sleep, a cold reading and an exposure. -/
def coolDown : List Act :=
  [.expo .coolSleep, .expo (.coolLoop 5)] ++ List.replicate 6 (.expo .coolTik) ++
    [.expo (.coolLoop 0), .expo .head, .expo .test, .expo (.startExposure ASI_SUCCESS 0 0),
      .expo .expoWait]

theorem cooling_wait_coolDown :
    ∃ b : (AutoExpo.cooling coolExpo).Behaviour, (b.state 11).1.expo = .start ∧
      (b.state 11).2.slept = 5 ∧ (∃ i, ∀ j, (b.state j).1.expo.cooling = true ↔ j < i) ∧
      ∀ j, WaitsForCold coolExpo (b.state j) := by
  obtain ⟨s, hs, hshape⟩ := TSys.Reachable.of_exec
    (show (AutoExpo.cooling coolExpo).init (Cam.fresh, .start) from ⟨fresh_initial, rfl⟩)
    (show ((AutoExpo.cooling coolExpo).exec (Cam.fresh, .start)
        [.main .dataSavingStart, .main .expoLoopStart]).any
      (fun s => s.1.expo = .coolSleep && ((AutoExpo.cooling coolExpo).exec s (coolDown.take 11)).any
          (fun t => t.1.expo = .start && t.2.slept = 5) &&
        ((AutoExpo.cooling coolExpo).exec s coolDown).any
          (fun t => t.1.expo = .poll ⟨0, 0, 0⟩ && t.1.crash = none)) = true
      by decide +kernel)
  simp only [Bool.and_eq_true, decide_eq_true_eq] at hshape
  obtain ⟨⟨hexpo, hmid⟩, hrun⟩ := hshape
  obtain ⟨t, hrun, ht⟩ := TSys.exec_any hrun
  obtain ⟨u, hmid, hu⟩ := TSys.exec_any hmid
  simp only [Bool.and_eq_true, decide_eq_true_eq] at ht hu
  have hstay : (AutoExpo.cooling coolExpo).step t
      (.expo (.getExpStatus ASI_SUCCESS .working false 0)) = some t := by
    rw [AutoExpo.cooling, TSys.record_step]
    refine ⟨?_, rfl⟩
    simp only [camera, step_of_live ht.2, expoStep, ht.1]
    rfl
  let b := TSys.Behaviour.replay coolDown hrun hstay
  have helev : b.state 11 = u := by
    show ((AutoExpo.cooling coolExpo).exec s (coolDown.take 11)).getD t = u
    rw [hmid]
    rfl
  have hret : Returns b.forget := by
    intro i
    refine .inr ⟨max i coolDown.length, Nat.le_max_left _ _, ?_⟩
    have hlast := (TSys.Behaviour.replay_end hrun hstay (Nat.le_max_right i coolDown.length)).2
    show (b.act _).isExpo = true
    rw [hlast]
    rfl
  have hborn : (b.state 0).1.expo ≠ .unborn := by
    show s.1.expo ≠ .unborn
    rw [hexpo]
    exact ExpoPc.noConfusion
  refine ⟨b, ?_, ?_, cooling_wait coolExpo b hs hborn hret⟩
  · rw [helev]
    exact hu.1
  · rw [helev]
    exact hu.2

end AutoExpo
