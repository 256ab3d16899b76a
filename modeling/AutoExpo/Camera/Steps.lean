import AutoExpo.Camera.Threads

/-!
# What a step of the camera can do

One relation for each thread, with one constructor for each way through its step
function: the guard the code has tested and the state it leaves. Each step
function is split once, in its `_cases` lemma; every property of steps is read
off the relations.
-/

namespace AutoExpo

/-! ## The ways through the step functions -/

inductive MainStep (cfg : Config) (s : Cam) : MainAct → Cam → Prop
  | dataSavingStart : s.data = .unborn → MainStep cfg s .dataSavingStart { s with data := .loop }
  | expoLoopStart : s.expo = .unborn → s.data ≠ .unborn →
      MainStep cfg s .expoLoopStart { s with
        loopCnt := cfg.expoCount
        cirBuf := some (.new cfg.imgSize cfg.bufCnt cfg.bufCnt_pos)
        expo := .coolSleep }
  | raiseStop (cause) : (cause = .expoLoopWait → s.expo = .ended) →
      MainStep cfg s (.raiseStop cause) { s with thExpoStop := true }

inductive ExpoStep (cfg : Config) (s : Cam) : ExpoAct → Cam → Prop
  | coolSleep : s.expo = .coolSleep →
      ExpoStep cfg s .coolSleep { s with expo := .coolLoop cfg.waitMax }
  | cooled (realTemp : Rat) (waitMax) : s.expo = .coolLoop waitMax →
      (s.thExpoStop ∨ waitMax = 0 ∨ realTemp < cfg.coolTemp + 1) →
      ExpoStep cfg s (.coolLoop realTemp) { s with expo := .head }
  | coolOn (realTemp : Rat) (waitMax) : s.expo = .coolLoop waitMax →
      ¬ (s.thExpoStop ∨ waitMax = 0 ∨ realTemp < cfg.coolTemp + 1) →
      ExpoStep cfg s (.coolLoop realTemp) { s with expo := .coolTik (waitMax - 1) 5 }
  | coolTikDone (waitMax tik) : s.expo = .coolTik waitMax tik → (tik = 0 ∨ s.thExpoStop) →
      ExpoStep cfg s .coolTik { s with expo := .coolLoop waitMax }
  | coolTik (waitMax tik) : s.expo = .coolTik waitMax tik → ¬ (tik = 0 ∨ s.thExpoStop) →
      ExpoStep cfg s .coolTik { s with expo := .coolTik waitMax (tik - 1) }
  | leave : s.expo = .head → s.thExpoStop = true → ExpoStep cfg s .head { s with expo := .ended }
  | enter : s.expo = .head → s.thExpoStop = false → ExpoStep cfg s .head { s with expo := .test }
  | done : s.expo = .test → s.targetReached = true →
      ExpoStep cfg s .test { s with expo := if cfg.keepRunning then .idle else .ended }
  | pass : s.expo = .test → s.targetReached = false →
      ExpoStep cfg s .test { s with expo := .start }
  | idleSleep : s.expo = .idle → ExpoStep cfg s .idleSleep { s with expo := .head }
  | startExposure (res tim tik) : s.expo = .start →
      ExpoStep cfg s (.startExposure res tim tik)
        { s with expo := .expoWait ⟨tim, tik, 0⟩ cfg.elapseCnt }
  | expoWaitDone (shot elapseCnt) : s.expo = .expoWait shot elapseCnt →
      (s.thExpoStop ∨ elapseCnt = 0 ∨ cfg.expoMs < 10) →
      ExpoStep cfg s .expoWait { s with expo := .poll shot }
  | expoWait (shot elapseCnt) : s.expo = .expoWait shot elapseCnt →
      ¬ (s.thExpoStop ∨ elapseCnt = 0 ∨ cfg.expoMs < 10) →
      ExpoStep cfg s .expoWait { s with expo := .expoWait shot (elapseCnt - 1) }
  | working (trip tik shot) : s.expo = .poll shot → trip = false →
      ExpoStep cfg s (.getExpStatus ASI_SUCCESS .working trip tik) s
  | polled (res stat trip tik shot) : s.expo = .poll shot →
      ¬ (res = ASI_SUCCESS ∧ stat = .working) → ¬ (trip = true ∧ res = ASI_SUCCESS) →
      ExpoStep cfg s (.getExpStatus res stat trip tik) { s.traceError trip with
        expo := .gen { shot with tikExpoStop := tik - shot.tikExpoStart } }
  | genNull (shot) : s.expo = .gen shot → s.cirBuf = none →
      ExpoStep cfg s .genBuff { s with crash := some .nullDeref }
  | genFull (shot c) : s.expo = .gen shot → s.cirBuf = some c → c.bufCurPos ∈ s.bufToProc →
      ExpoStep cfg s .genBuff { s with
        cirBuf := some c.genBuff.2
        log := { s.log with genCalls := s.log.genCalls + 1 }
        thExpoStop := true
        expo := .head }
  | gen (shot c) : s.expo = .gen shot → s.cirBuf = some c → c.bufCurPos ∉ s.bufToProc →
      ExpoStep cfg s .genBuff { s with
        cirBuf := some c.genBuff.2
        log := { s.log with genCalls := s.log.genCalls + 1 }
        bufToProc := insert c.bufCurPos s.bufToProc
        expo := .getData shot c.bufCurPos c.bufLen s.log.genCalls }
  | getDataBegin (shot imgBuf imgSize ticket) : s.expo = .getData shot imgBuf imgSize ticket →
      ExpoStep cfg s .getDataBegin { s with expo := .filling shot imgBuf imgSize ticket }
  | sdkStore (px shot imgBuf imgSize ticket) : s.expo = .filling shot imgBuf imgSize ticket →
      ExpoStep cfg s (.sdkStore px) (s.store imgBuf px)
  | getDataOk (px trip tik realTemp shot imgBuf imgSize ticket) :
      s.expo = .filling shot imgBuf imgSize ticket → trip = false →
      ExpoStep cfg s (.getDataEnd ASI_SUCCESS px trip tik realTemp)
        { (s.store imgBuf px).traceError trip with
          expo := .push (s.frame shot imgBuf imgSize ticket tik realTemp)
          log := { s.log with
            acquired := s.log.acquired ++
              [(s.frame shot imgBuf imgSize ticket tik realTemp, px)] } }
  | getDataFail (res px trip tik realTemp shot imgBuf imgSize ticket) :
      s.expo = .filling shot imgBuf imgSize ticket → res ≠ ASI_SUCCESS →
      ExpoStep cfg s (.getDataEnd res px trip tik realTemp)
        { (s.store imgBuf px).traceError trip with expo := .eraseBuf imgBuf }
  | eraseBuf (imgBuf) : s.expo = .eraseBuf imgBuf →
      ExpoStep cfg s .eraseBuf { s with bufToProc := s.bufToProc.erase imgBuf, expo := .incr }
  | pushData (f) : s.expo = .push f →
      ExpoStep cfg s .pushData { s with
        dataQ := s.dataQ ++ [f]
        expo := .incr
        log := { s.log with pushed := s.log.pushed ++ [f] } }
  | incrExpoCnt : s.expo = .incr →
      ExpoStep cfg s .incrExpoCnt { s with expoCnt := s.expoCnt + 1, expo := .head }

inductive DataStep (s : Cam) : DataAct → Cam → Prop
  | loop : s.data = .loop → s.thExpoStop = false → DataStep s .loop { s with data := .pick }
  | leave : s.data = .loop → s.thExpoStop = true → DataStep s .loop { s with data := .drain }
  | pickNone : s.data = .pick → s.dataQ = [] → DataStep s .pick { s with data := .loop }
  | pick (f rest) : s.data = .pick → s.dataQ = f :: rest →
      DataStep s .pick (s.takeFront f rest false)
  | readBegin (f cached) : s.data = .saving f cached →
      DataStep s .readBegin { s with data := .reading f [s.mem f.imgBuf] cached }
  | readEnd (pick f seen cached) : s.data = .reading f seen cached →
      DataStep s (.readEnd pick) { s with
        data := if cached then .drain else .loop
        log := { s.log with
          saved := s.log.saved ++ [(f, Kit.Relay.tear seen (s.mem f.imgBuf) pick)] } }
  | saveAbort (f cached) :
      (s.data = .saving f cached ∨ ∃ seen, s.data = .reading f seen cached) →
      DataStep s .saveAbort { s with crash := some .aborted }
  | finish : s.data = .drain → s.dataQ = [] → DataStep s .drain { s with data := .ended }
  | drain (f rest) : s.data = .drain → s.dataQ = f :: rest →
      DataStep s .drain (s.takeFront f rest true)

inductive RpcStep (s : Cam) : RpcAct → Cam → Prop
  | resetCall (n) : s.rpc = .idle → RpcStep s (.resetCall n) { s with rpc := .resetLoop n }
  | resetLoopCnt (n) : s.rpc = .resetLoop n →
      RpcStep s .resetLoopCnt { s with loopCnt := n, rpc := .resetExpo n }
  | resetExpoCnt (n) : s.rpc = .resetExpo n →
      RpcStep s .resetExpoCnt { s with expoCnt := 0, rpc := .idle }
  | stopCall : s.rpc = .idle → RpcStep s .stopCall { s with rpc := .stopExpo }
  | stopExpoCnt : s.rpc = .stopExpo →
      RpcStep s .stopExpoCnt { s with expoCnt := ULONG_MAX - 1, rpc := .stopLoop }
  | stopLoopCnt : s.rpc = .stopLoop → RpcStep s .stopLoopCnt { s with loopCnt := 1, rpc := .idle }

variable {cfg : Config} {s s' : Cam}

theorem mainStep_cases {a : MainAct} (h : mainStep cfg s a = some s') : MainStep cfg s a s' := by
  cases a with
  | dataSavingStart =>
      simp only [mainStep] at h
      split at h
      next hd => cases h; exact .dataSavingStart hd
      next => cases h
  | expoLoopStart =>
      simp only [mainStep] at h
      split at h
      next => cases h
      next he hd => cases h; exact .expoLoopStart he hd
      next => cases h
  | raiseStop cause =>
      cases cause with
      | expoLoopWait =>
          simp only [mainStep] at h
          split at h
          next he => cases h; exact .raiseStop _ fun _ => he
          next => cases h
      | sigint | watchdog => cases h; exact .raiseStop _ (by simp)

theorem expoStep_cases {a : ExpoAct} (h : expoStep cfg s a = some s') : ExpoStep cfg s a s' := by
  cases a with
  | coolSleep =>
      simp only [expoStep] at h
      split at h
      next he => cases h; exact .coolSleep he
      next => cases h
  | coolLoop realTemp =>
      simp only [expoStep] at h
      split at h
      next waitMax he =>
        split_ifs at h with hcool <;> cases h
        · exact .cooled realTemp waitMax he hcool
        · exact .coolOn realTemp waitMax he hcool
      next => cases h
  | coolTik =>
      simp only [expoStep] at h
      split at h
      next waitMax tik he =>
        split_ifs at h with htik <;> cases h
        · exact .coolTikDone waitMax tik he htik
        · exact .coolTik waitMax tik he htik
      next => cases h
  | head =>
      simp only [expoStep] at h
      split at h
      next he =>
        by_cases hstop : s.thExpoStop = true
        · rw [if_pos hstop] at h
          cases h
          exact .leave he hstop
        · rw [if_neg hstop] at h
          cases h
          exact .enter he (by simpa using hstop)
      next => cases h
  | test =>
      simp only [expoStep] at h
      split at h
      next he =>
        split at h
        next hdone => cases h; exact .done he hdone
        next hdone => cases h; exact .pass he (by simpa using hdone)
      next => cases h
  | idleSleep =>
      simp only [expoStep] at h
      split at h
      next he => cases h; exact .idleSleep he
      next => cases h
  | startExposure res tim tik =>
      simp only [expoStep] at h
      split at h
      next he => cases h; exact .startExposure res tim tik he
      next => cases h
  | expoWait =>
      simp only [expoStep] at h
      split at h
      next shot elapseCnt he =>
        split_ifs at h with hwait <;> cases h
        · exact .expoWaitDone shot elapseCnt he hwait
        · exact .expoWait shot elapseCnt he hwait
      next => cases h
  | getExpStatus res stat trip tik =>
      simp only [expoStep] at h
      split at h
      next shot he =>
        split_ifs at h with htrip hworking <;> cases h
        · obtain ⟨rfl, rfl⟩ := hworking
          exact .working trip tik shot he (by simpa using htrip)
        · exact .polled res stat trip tik shot he hworking htrip
      next => cases h
  | genBuff =>
      simp only [expoStep] at h
      split at h
      next shot he =>
        split at h
        next hnull => cases h; exact .genNull shot he hnull
        next c hcir =>
          by_cases hfull : c.bufCurPos ∈ s.bufToProc
          · simp only [CircularBuffer.genBuff, hfull, if_true] at h
            cases h
            exact .genFull shot c he hcir hfull
          · simp only [CircularBuffer.genBuff, hfull, if_false] at h
            cases h
            exact .gen shot c he hcir hfull
      next => cases h
  | getDataBegin =>
      simp only [expoStep] at h
      split at h
      next shot imgBuf imgSize ticket he =>
        cases h
        exact .getDataBegin shot imgBuf imgSize ticket he
      next => cases h
  | sdkStore px =>
      simp only [expoStep] at h
      split at h
      next shot imgBuf imgSize ticket he =>
        cases h
        exact .sdkStore px shot imgBuf imgSize ticket he
      next => cases h
  | getDataEnd res px trip tik realTemp =>
      simp only [expoStep] at h
      split at h
      next shot imgBuf imgSize ticket he =>
        split at h
        next => cases h
        next htrip =>
          split at h
          next hres =>
            cases h
            subst hres
            exact .getDataOk px trip tik realTemp shot _ _ _ he (by simpa using htrip)
          next hres =>
            cases h
            exact .getDataFail res px trip tik realTemp shot _ _ _ he hres
      next => cases h
  | eraseBuf =>
      simp only [expoStep] at h
      split at h
      next imgBuf he => cases h; exact .eraseBuf imgBuf he
      next => cases h
  | pushData =>
      simp only [expoStep] at h
      split at h
      next f he => cases h; exact .pushData f he
      next => cases h
  | incrExpoCnt =>
      simp only [expoStep] at h
      split at h
      next he => cases h; exact .incrExpoCnt he
      next => cases h

theorem dataStep_cases {a : DataAct} (h : dataStep s a = some s') : DataStep s a s' := by
  cases a with
  | loop =>
      simp only [dataStep] at h
      split at h
      next hd =>
        by_cases hstop : s.thExpoStop = true
        · rw [if_pos hstop] at h
          cases h
          exact .leave hd hstop
        · rw [if_neg hstop] at h
          cases h
          exact .loop hd (by simpa using hstop)
      next => cases h
  | pick =>
      simp only [dataStep] at h
      split at h
      next hd =>
        split at h
        next hq => cases h; exact .pickNone hd hq
        next f rest hq => cases h; exact .pick f rest hd hq
      next => cases h
  | readBegin =>
      simp only [dataStep] at h
      split at h
      next f cached hd => cases h; exact .readBegin f cached hd
      next => cases h
  | readEnd pick =>
      simp only [dataStep] at h
      split at h
      next f seen cached hd => cases h; exact .readEnd pick f seen cached hd
      next => cases h
  | saveAbort =>
      simp only [dataStep] at h
      split at h
      next f cached hd => cases h; exact .saveAbort f cached (.inl hd)
      next f seen cached hd => cases h; exact .saveAbort f cached (.inr ⟨seen, hd⟩)
      next => cases h
  | drain =>
      simp only [dataStep] at h
      split at h
      next hd =>
        split at h
        next hq => cases h; exact .finish hd hq
        next f rest hq => cases h; exact .drain f rest hd hq
      next => cases h

theorem rpcStep_cases {a : RpcAct} (h : rpcStep s a = some s') : RpcStep s a s' := by
  cases a with
  | resetCall n =>
      simp only [rpcStep] at h
      split at h
      next hr => cases h; exact .resetCall n hr
      next => cases h
  | resetLoopCnt =>
      simp only [rpcStep] at h
      split at h
      next n hr => cases h; exact .resetLoopCnt n hr
      next => cases h
  | resetExpoCnt =>
      simp only [rpcStep] at h
      split at h
      next n hr => cases h; exact .resetExpoCnt n hr
      next => cases h
  | stopCall =>
      simp only [rpcStep] at h
      split at h
      next hr => cases h; exact .stopCall hr
      next => cases h
  | stopExpoCnt =>
      simp only [rpcStep] at h
      split at h
      next hr => cases h; exact .stopExpoCnt hr
      next => cases h
  | stopLoopCnt =>
      simp only [rpcStep] at h
      split at h
      next hr => cases h; exact .stopLoopCnt hr
      next => cases h

/-- Only a process that has not crashed moves, one of its threads at a time. -/
theorem step_live {a : Act} (h : step cfg s a = some s') : s.crash = none := by
  unfold step at h
  cases hc : s.crash with
  | none => rfl
  | some _ => simp [hc] at h

theorem step_of_live {a : Act} (hc : s.crash = none) :
    step cfg s a = match a with
      | .main a => mainStep cfg s a
      | .expo a => expoStep cfg s a
      | .data a => dataStep s a
      | .rpc a => rpcStep s a := by
  cases a <;> simp [step, hc]

/-- A step of the process is a step of one of its parties. -/
inductive CamStep (cfg : Config) (s : Cam) : Act → Cam → Prop
  | main {a s'} : MainStep cfg s a s' → CamStep cfg s (.main a) s'
  | expo {a s'} : ExpoStep cfg s a s' → CamStep cfg s (.expo a) s'
  | data {a s'} : DataStep s a s' → CamStep cfg s (.data a) s'
  | rpc {a s'} : RpcStep s a s' → CamStep cfg s (.rpc a) s'

theorem step_cases {a : Act} (h : step cfg s a = some s') : CamStep cfg s a s' := by
  rw [step_of_live (step_live h)] at h
  cases a with
  | main a => exact .main (mainStep_cases h)
  | expo a => exact .expo (expoStep_cases h)
  | data a => exact .data (dataStep_cases h)
  | rpc a => exact .rpc (rpcStep_cases h)

/-! ## What each thread leaves alone -/

/-- Once the exposure thread exists, `main` and the other parties raise the stop
flag, start the data thread and nothing else. -/
theorem MainStep.frame {a : MainAct} (h : MainStep cfg s a s') (hborn : s.expo ≠ .unborn) :
    s' = { s with thExpoStop := s'.thExpoStop, data := s'.data } := by
  cases h with
  | expoLoopStart he _ => exact absurd he hborn
  | dataSavingStart | raiseStop => rfl

/-- The data thread writes the bookkeeping of the queue and nothing else. -/
theorem DataStep.frame {a : DataAct} (h : DataStep s a s') :
    s' = { s with
      bufToProc := s'.bufToProc, dataQ := s'.dataQ, data := s'.data, crash := s'.crash,
      log := s'.log } := by
  cases h with
  | pick f rest | drain f rest =>
      unfold Cam.takeFront
      split <;> rfl
  | _ => rfl

/-- A request writes the two counters and nothing else. -/
theorem RpcStep.frame {a : RpcAct} (h : RpcStep s a s') :
    s' = { s with loopCnt := s'.loopCnt, expoCnt := s'.expoCnt, rpc := s'.rpc } := by
  cases h <;> rfl

/-- The exposure thread writes neither the target nor the requests. -/
theorem ExpoStep.frame {a : ExpoAct} (h : ExpoStep cfg s a s') :
    s' = { s' with loopCnt := s.loopCnt, rpc := s.rpc } := by
  cases h <;> rfl

/-- The exposure thread moves only once it has been started, and stays so. -/
theorem ExpoStep.born {a : ExpoAct} (h : ExpoStep cfg s a s') :
    s.expo ≠ .unborn ∧ s'.expo ≠ .unborn := by
  cases h with
  | done he _ =>
      rw [he]
      refine ⟨?_, ?_⟩
      · simp
      · cases cfg.keepRunning <;> simp
  | _ => simp [Cam.store, *]

/-- The exposure thread moves the ring's position by `gen_buff` only. -/
theorem ExpoStep.cirBuf {a : ExpoAct} (h : ExpoStep cfg s a s') :
    s'.cirBuf = s.cirBuf ∨ ∃ c, s.cirBuf = some c ∧ s'.cirBuf = some c.genBuff.2 := by
  cases h with
  | genFull shot c _ hcir | gen shot c _ hcir => exact .inr ⟨c, hcir, rfl⟩
  | _ => exact .inl rfl

/-- The exposure thread reaches the data thread's point only through what a read
under way sees of the SDK's stores. -/
theorem ExpoStep.data {a : ExpoAct} (h : ExpoStep cfg s a s') :
    s'.data = s.data ∨ ∃ b px, s'.data = (s.store b px).data := by
  cases h with
  | sdkStore px shot imgBuf => exact .inr ⟨imgBuf, px, rfl⟩
  | getDataOk px trip tik realTemp shot imgBuf => exact .inr ⟨imgBuf, px, rfl⟩
  | getDataFail res px trip tik realTemp shot imgBuf => exact .inr ⟨imgBuf, px, rfl⟩
  | _ => exact .inl rfl

/-- The others do not move the exposure thread, once it has been started. -/
theorem step_expo_of_others {a : Act} (h : step cfg s a = some s') (hborn : s.expo ≠ .unborn)
    (ha : ∀ e, a ≠ .expo e) : s'.expo = s.expo := by
  cases step_cases h with
  | main h => rw [h.frame hborn]
  | expo => exact absurd rfl (ha _)
  | data h => rw [h.frame]
  | rpc h => rw [h.frame]

end AutoExpo
