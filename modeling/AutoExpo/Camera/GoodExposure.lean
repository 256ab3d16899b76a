import AutoExpo.Camera.Steps
import AutoExpo.Kit.Runs

/-!
# Good exposures

A pass of the exposure loop goes from `ASIStartExposure` through the status
polls to the read-out, and only the result of the read-out decides whether a
frame is pushed: the others are logged, or not looked at.

So a frame may come of an exposure that was never started
(`refused_exposure_pushed`). The frames pushed are good in the runs in which the
camera hands out data only for an exposure it has started and reported as a
success (`pushed_good`).
-/

namespace AutoExpo

open Kit

/-- What the SDK has answered in the current pass; of the polls, the last one. -/
structure Answers where
  start : Option AsiError
  poll : Option (AsiError × ExposureStatus)
  data : Option AsiError
  deriving DecidableEq

def Answers.none : Answers where
  start := .none
  poll := .none
  data := .none

/-- The exposure was started and reported as a success. -/
def Answers.exposed (a : Answers) : Bool :=
  a.start = some ASI_SUCCESS && a.poll = some (ASI_SUCCESS, .success)

/-- And its data were read out. -/
def Answers.good (a : Answers) : Bool := a.exposed && a.data = some ASI_SUCCESS

/-- The answers of the current pass, and the frames pushed with those of theirs. -/
structure History where
  current : Answers
  pushed : List (Frame × Answers)

def History.start : History where
  current := .none
  pushed := []

def noteAnswer (h : History) (s : Cam) : Act → History
  | .expo (.startExposure res _ _) =>
      { h with current := { start := some res, poll := none, data := none } }
  | .expo (.getExpStatus res stat _ _) =>
      { h with current := { h.current with poll := some (res, stat) } }
  | .expo (.getDataEnd res _ _ _ _) =>
      { h with current := { h.current with data := some res } }
  | .expo .pushData => match s.expo with
      | .push f => { h with pushed := h.pushed ++ [(f, h.current)] }
      | _ => h
  | _ => h

/-- A camera, with what the SDK has answered. -/
def answered (cfg : Config) : TSys (Cam × History) Act := (camera cfg).record .start noteAnswer

/-- Every frame pushed is one of a good exposure. -/
def PushedGood (p : Cam × History) : Prop :=
  p.1.log.pushed = p.2.pushed.map Prod.fst ∧ ∀ e ∈ p.2.pushed, e.2.good = true

/-- The camera hands out data for an exposure it has started and reported as a success. -/
def dataOfExposure (p : Cam × History) : Act → Bool
  | .expo (.getDataEnd res _ _ _ _) => res ≠ ASI_SUCCESS || p.2.current.exposed
  | _ => true

/-- The frame that is about to be pushed is good as well. -/
structure GoodSoFar (p : Cam × History) : Prop where
  pushed : PushedGood p
  ready : ∀ f, p.1.expo = .push f → p.2.current.good = true

variable {cfg : Config} {s s' : Cam} {h : History}

/-- A step that notes no answer and pushes nothing. -/
theorem GoodSoFar.keep (hs : GoodSoFar (s, h)) (hlog : s'.log.pushed = s.log.pushed)
    (hexpo : ∀ f, s'.expo = .push f → s.expo = .push f) : GoodSoFar (s', h) := by
  refine ⟨?_, ?_⟩
  · exact ⟨hlog.trans hs.pushed.1, hs.pushed.2⟩
  · intro f hf
    exact hs.ready f (hexpo f hf)

/-- A step that notes an answer of the current pass, not at its push. -/
theorem GoodSoFar.note (hs : GoodSoFar (s, h)) (current : Answers)
    (hlog : s'.log.pushed = s.log.pushed) (hexpo : ∀ f, s'.expo ≠ .push f) :
    GoodSoFar (s', { h with current := current }) := by
  refine ⟨?_, ?_⟩
  · exact ⟨hlog.trans hs.pushed.1, hs.pushed.2⟩
  · intro f hf
    exact absurd hf (hexpo f)

theorem ExpoStep.good {a : ExpoAct} (hstep : ExpoStep cfg s a s') (hs : GoodSoFar (s, h))
    (hdata : dataOfExposure (s, h) (.expo a) = true) :
    GoodSoFar (s', noteAnswer h s (.expo a)) := by
  cases hstep with
  | startExposure res tim tik => exact hs.note _ rfl (by simp)
  | working trip tik shot he => exact hs.note _ rfl (by simp [he])
  | polled res stat trip tik shot he => exact hs.note _ rfl (by simp)
  | getDataFail res px trip tik realTemp shot => exact hs.note _ rfl (by simp)
  | getDataOk px trip tik realTemp shot imgBuf imgSize ticket he =>
      have hexposed : h.current.exposed = true := by simpa [dataOfExposure] using hdata
      refine ⟨hs.pushed, ?_⟩
      intro f _
      simp only [noteAnswer, Answers.good, decide_true, Bool.and_true]
      exact hexposed
  | pushData f he =>
      simp only [noteAnswer, he]
      obtain ⟨hlog, hgood⟩ := hs.pushed
      refine ⟨⟨?_, ?_⟩, by simp⟩
      · simpa using hlog
      · intro e hmem
        rcases List.mem_append.mp hmem with hold | hnew
        · exact hgood e hold
        · rw [List.mem_singleton] at hnew
          subst hnew
          exact hs.ready f he
  | done he =>
      refine hs.keep rfl ?_
      cases cfg.keepRunning <;> simp
  | sdkStore px shot imgBuf imgSize ticket he => exact hs.keep rfl (by simp [Cam.store])
  | genNull shot he => exact hs.keep rfl (by simp)
  | _ => exact hs.keep rfl (by simp)

theorem DataStep.pushed {a : DataAct} (hstep : DataStep s a s') :
    s'.log.pushed = s.log.pushed ∧ s'.expo = s.expo := by
  cases hstep with
  | pick f rest | drain f rest =>
      unfold Cam.takeFront
      split <;> exact ⟨rfl, rfl⟩
  | _ => exact ⟨rfl, rfl⟩

theorem good_inductive (cfg : Config) :
    ((answered cfg).restrict fun p a => dataOfExposure p a = true).Inductive GoodSoFar where
  init p hinit := by
    obtain ⟨⟨_, _, _, _, _, _, hexpo, _, _, _, hlog⟩, hstart⟩ := hinit
    refine ⟨⟨?_, ?_⟩, ?_⟩
    · simp [hlog, hstart, History.start]
    · simp [hstart, History.start]
    · simp [hexpo]
  step p a p' _ hs hstep := by
    obtain ⟨hdata, hstep⟩ := TSys.restrict_step.mp hstep
    obtain ⟨hstep, hnote⟩ := TSys.record_step.mp hstep
    obtain ⟨s', h'⟩ := p'
    simp only at hnote
    subst hnote
    have hcam : step cfg p.1 a = some s' := hstep
    cases step_cases hcam with
    | expo hexpo => exact hexpo.good hs hdata
    | main hmain => cases hmain with
        | expoLoopStart => exact hs.keep rfl (by simp)
        | dataSavingStart | raiseStop => exact hs.keep rfl fun _ hf => hf
    | data hdata =>
        obtain ⟨hlog, hexpo⟩ := hdata.pushed
        refine hs.keep hlog ?_
        intro f hf
        rwa [hexpo] at hf
    | rpc hrpc => cases hrpc <;> exact hs.keep rfl fun _ hf => hf

/-- In the runs in which the camera hands out data only for an exposure it has started and
reported as a success, every frame pushed is one of a good exposure. -/
theorem pushed_good (cfg : Config) (p : Cam × History)
    (hp : ((answered cfg).restrict fun p a => dataOfExposure p a = true).Reachable p) :
    PushedGood p :=
  ((good_inductive cfg).invariant p hp).pushed

/-- Two passes, of which the first is refused at `ASIStartExposure` and at its read-out. -/
def refusedThenGood : List Act :=
  startUp ++ [.expo .head, .expo .test, .expo (.startExposure 1 0 0), .expo .expoWait,
    .expo (.getExpStatus ASI_SUCCESS .idle false 0), .expo .genBuff, .expo .getDataBegin,
    .expo (.getDataEnd 1 (fun _ => 0) false 0 0), .expo .eraseBuf, .expo .incrExpoCnt] ++
    expose ++ readOut fun _ => 1

theorem pushed_good_refusedThenGood : ∃ p, PushedGood p ∧ p.1.log.pushed.length = 1 := by
  obtain ⟨p, hp, hshape⟩ := TSys.Reachable.of_exec
    (show ((answered shortExpo).restrict fun p a => dataOfExposure p a = true).init
      (Cam.fresh, .start) from ⟨fresh_initial, rfl⟩)
    (show (((answered shortExpo).restrict fun p a => dataOfExposure p a = true).exec
      (Cam.fresh, .start) refusedThenGood).any (fun p => p.1.log.pushed.length = 1) = true
      by decide +kernel)
  exact ⟨p, pushed_good shortExpo p hp, by simpa using hshape⟩

/-- The exposure is refused, its status is IDLE, and the camera hands out what it has. -/
def refusedExposure : List Act :=
  startUp ++ [.expo .head, .expo .test, .expo (.startExposure 1 0 0), .expo .expoWait,
    .expo (.getExpStatus ASI_SUCCESS .idle false 0), .expo .genBuff] ++ readOut fun _ => 0

theorem refused_exposure_pushed :
    ¬ ∀ p, (answered shortExpo).Reachable p → PushedGood p := by
  intro hall
  obtain ⟨p, hp, hshape⟩ := TSys.Reachable.of_exec
    (show (answered shortExpo).init (Cam.fresh, .start) from ⟨fresh_initial, rfl⟩)
    (show ((answered shortExpo).exec (Cam.fresh, .start) refusedExposure).any
      (fun p => p.2.pushed.any fun e => !e.2.good) = true by decide +kernel)
  rw [List.any_eq_true] at hshape
  obtain ⟨e, he, hbad⟩ := hshape
  rw [(hall p hp).2 e he] at hbad
  cases hbad

end AutoExpo
