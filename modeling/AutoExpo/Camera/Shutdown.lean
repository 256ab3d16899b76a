import AutoExpo.Camera.Pipeline

/-!
# Shutdown

Once `th_expo_stop` is up the data thread leaves its main loop and saves what
is queued ("saving cached data..."). It ends at the first empty queue, whatever
the exposure thread is doing; a pass of the exposure loop that is under way
goes on to the read-out and pushes its frame into a queue that nobody empties
any more (`stop_in_exposure_loses`).

Nothing is lost on the runs in which the data thread finds the queue empty for
the last time when no pass is under way (`shutdown_complete`).
-/

namespace AutoExpo

open Kit

/-- A pass of the exposure loop is under way that may still push a frame. -/
def ExpoPc.midPass : ExpoPc → Bool
  | .test | .start | .expoWait _ _ | .poll _ | .gen _ | .getData _ _ _ _ | .filling _ _ _ _
  | .push _ => true
  | _ => false

/-- The data thread is past its main loop. -/
def DataPc.draining : DataPc → Bool
  | .saving _ cached | .reading _ _ cached => cached
  | .drain | .ended => true
  | _ => false

/-- The queue is empty and every frame acquired has been handed to `save_data`,
once and in order. -/
def NoFrameLost (s : Cam) : Prop :=
  s.dataQ = [] ∧ s.log.handed = s.log.acquired.map Prod.fst

/-- The data thread does not end while a pass of the exposure loop is under way. -/
def drainsLast (s : Cam) : Act → Bool
  | .data .drain => !(s.dataQ.isEmpty && s.expo.midPass)
  | _ => true

/-! ## The stop flag is never taken back -/

theorem ExpoStep.stop {cfg : Config} {s s' : Cam} {a : ExpoAct} (h : ExpoStep cfg s a s')
    (hstop : s.thExpoStop = true) : s'.thExpoStop = true := by
  cases h with
  | genFull => rfl
  | _ => simp [Cam.traceError, Cam.store, hstop]

theorem step_stop {cfg : Config} {s s' : Cam} {a : Act} (h : step cfg s a = some s')
    (hstop : s.thExpoStop = true) : s'.thExpoStop = true := by
  cases step_cases h with
  | main h => cases h with
      | raiseStop => rfl
      | dataSavingStart | expoLoopStart => exact hstop
  | expo h => exact h.stop hstop
  | data h => rw [h.frame]; exact hstop
  | rpc h => rw [h.frame]; exact hstop

/-! ## Between passes the exposure thread comes to its end -/

/-- Told to stop between passes, the exposure thread begins no other and pushes
nothing. -/
theorem ExpoStep.quiet {cfg : Config} {s s' : Cam} {a : ExpoAct} (h : ExpoStep cfg s a s')
    (hstop : s.thExpoStop = true) (hquiet : s.expo.midPass = false) :
    s'.expo.midPass = false ∧ s'.dataQ = s.dataQ := by
  cases h with
  | coolSleep | cooled | coolOn | coolTikDone | coolTik | leave | idleSleep | eraseBuf
  | incrExpoCnt => exact ⟨rfl, rfl⟩
  | enter _ hgo =>
      rw [hstop] at hgo
      cases hgo
  | done he | pass he | startExposure _ _ _ he | expoWaitDone _ _ he | expoWait _ _ he
  | working _ _ _ he | polled _ _ _ _ _ he | genNull _ he | genFull _ _ he | gen _ _ he
  | getDataBegin _ _ _ _ he | sdkStore _ _ _ _ _ he | getDataOk _ _ _ _ _ _ _ _ he
  | getDataFail _ _ _ _ _ _ _ _ _ he | pushData _ he =>
      -- these steps are taken within a pass
      rw [he] at hquiet
      cases hquiet

/-- The exposure thread does not move the data thread between its loops. -/
theorem ExpoStep.draining {cfg : Config} {s s' : Cam} {a : ExpoAct} (h : ExpoStep cfg s a s') :
    s'.data.draining = s.data.draining ∧ (s'.data = .ended → s.data = .ended) := by
  rcases h.data with hd | ⟨b, px, hd⟩
  · refine ⟨?_, ?_⟩
    · rw [hd]
    · intro he
      rw [← hd]
      exact he
  · cases hdata : s.data <;> simp [hd, Cam.store, hdata, DataPc.draining]

/-- What the data thread knows when it ends. -/
structure Drained (s : Cam) : Prop where
  stopped : s.data.draining = true → s.thExpoStop = true
  quiet : s.data = .ended → s.expo.midPass = false ∧ s.dataQ = []

theorem takeFront_drained {s : Cam} {f : Frame} {rest : List Frame} {cached : Bool}
    (hstop : cached = true → s.thExpoStop = true) (hs : Drained s) :
    Drained (s.takeFront f rest cached) := by
  simp only [Cam.takeFront]
  split
  · exact ⟨hstop, by simp⟩
  · exact ⟨hs.stopped, hs.quiet⟩

/-- The data thread enters its last loop only when the flag is up, and leaves it only
between passes and with the queue empty. -/
theorem DataStep.drained {s s' : Cam} {a : DataAct} (h : DataStep s a s') (hs : Drained s)
    (hlast : drainsLast s (.data a) = true) : Drained s' := by
  have hstopped := hs.stopped
  cases h with
  | loop | pickNone => exact ⟨by simp [DataPc.draining], by simp⟩
  | leave _ hstop => exact ⟨fun _ => hstop, by simp⟩
  | pick f rest => exact takeFront_drained (by simp) hs
  | readBegin f cached hd =>
      rw [hd] at hstopped
      exact ⟨hstopped, by simp⟩
  | readEnd pick f seen cached hd =>
      rw [hd] at hstopped
      cases cached with
      | true => exact ⟨fun _ => hstopped rfl, by simp⟩
      | false => exact ⟨by simp [DataPc.draining], by simp⟩
  | saveAbort => exact ⟨hs.stopped, hs.quiet⟩
  | finish hd hq =>
      rw [hd] at hstopped
      have hquiet : s.expo.midPass = false := by simpa [drainsLast, hq] using hlast
      exact ⟨fun _ => hstopped rfl, fun _ => ⟨hquiet, hq⟩⟩
  | drain f rest hd =>
      rw [hd] at hstopped
      exact takeFront_drained (fun _ => hstopped rfl) hs

theorem drained_inductive (cfg : Config) :
    ((camera cfg).restrict fun s a => drainsLast s a = true).Inductive Drained where
  init s h := by
    obtain ⟨_, _, _, _, _, _, _, hdata, _⟩ := h
    exact ⟨by simp [hdata, DataPc.draining], by simp [hdata]⟩
  step s a s' _ hs h := by
    obtain ⟨hlast, h⟩ := TSys.restrict_step.mp h
    have hstop := step_stop h
    cases step_cases h with
    | main h => cases h with
        | dataSavingStart => exact ⟨by simp [DataPc.draining], by simp⟩
        | expoLoopStart => exact ⟨hs.stopped, fun hd => ⟨rfl, (hs.quiet hd).2⟩⟩
        | raiseStop => exact ⟨fun _ => rfl, hs.quiet⟩
    | expo h =>
        obtain ⟨hdrain, hended⟩ := h.draining
        refine ⟨?_, ?_⟩
        · intro hd
          exact hstop (hs.stopped (hdrain ▸ hd))
        · intro hd
          have hend : s.data = .ended := hended hd
          obtain ⟨hquiet, hempty⟩ := hs.quiet hend
          -- the data thread has ended, so the flag is up: no pass begins any more
          have hflag : s.thExpoStop = true := hs.stopped (by rw [hend]; rfl)
          obtain ⟨hquiet', hq⟩ := h.quiet hflag hquiet
          exact ⟨hquiet', hq ▸ hempty⟩
    | data h => exact h.drained hs hlast
    | rpc h =>
        have hframe := h.frame
        exact ⟨hframe ▸ hs.stopped, hframe ▸ hs.quiet⟩

/-- On the runs in which the data thread outlasts the passes of the exposure
loop, no acquired frame is lost at shutdown. -/
theorem shutdown_complete (cfg : Config) (s : Cam)
    (hs : ((camera cfg).restrict fun s a => drainsLast s a = true).Reachable s)
    (hexpo : s.expo = .ended) (hdata : s.data = .ended) : NoFrameLost s := by
  have hempty := ((drained_inductive cfg).invariant s hs).quiet hdata |>.2
  have hinv := Relay.relay_inv (relay_reachable hs.of_restrict)
  have hfilled := hinv.filled
  have hqueued := hinv.queued
  simp only [Cam.relay, hexpo, ExpoPc.producer, Relay.Producer.done, hempty,
    Option.toList_none, List.append_nil] at hfilled hqueued
  exact ⟨hempty, by rw [hfilled, hqueued]⟩

def DataPc.isEnded : DataPc → Bool
  | .ended => true
  | _ => false

theorem isEnded_iff {pc : DataPc} : pc.isEnded = true ↔ pc = .ended := by
  cases pc <;> simp [DataPc.isEnded]

/-- SIGINT during a save, after the pass of the exposure loop has pushed. -/
def orderlyStop : List Act :=
  startUp ++ expose ++ readOut (fun _ => 1) ++ handOver ++ expose ++ readOut (fun _ => 2) ++
    [.main (.raiseStop .sigint), .expo .head] ++ saveFrame ++
    [.data .loop, .data .drain] ++ saveFrame ++ [.data .drain]

theorem shutdown_complete_orderlyStop :
    ∃ s, NoFrameLost s ∧ s.log.handed.length = 2 := by
  obtain ⟨s, hs, hshape⟩ := TSys.Reachable.of_exec
    (show ((camera shortExpo).restrict fun s a => drainsLast s a = true).init _ from
      fresh_initial)
    (show (((camera shortExpo).restrict fun s a => drainsLast s a = true).exec
      Cam.fresh orderlyStop).any
        (fun s => s.expo = .ended && s.data.isEnded && s.log.handed.length = 2) = true
      by decide +kernel)
  simp only [Bool.and_eq_true, decide_eq_true_eq] at hshape
  obtain ⟨⟨hexpo, hdata⟩, hlen⟩ := hshape
  exact ⟨s, shutdown_complete shortExpo s hs hexpo (isEnded_iff.mp hdata), hlen⟩

/-- SIGINT during an exposure: the data thread finds nothing queued and ends,
then the read-out succeeds and its frame is pushed. -/
def stopInExposure : List Act :=
  startUp ++ [.expo .head, .expo .test, .expo (.startExposure ASI_SUCCESS 0 0),
    .main (.raiseStop .sigint), .data .loop, .data .drain, .expo .expoWait,
    .expo (.getExpStatus ASI_SUCCESS .success false 0), .expo .genBuff] ++
    readOut (fun _ => 1) ++ [.expo .head]

theorem stop_in_exposure_loses :
    ¬ ∀ s, (camera shortExpo).Reachable s → s.expo = .ended → s.data = .ended →
      NoFrameLost s := by
  intro hall
  obtain ⟨s, hs, hshape⟩ := TSys.Reachable.of_exec (fresh_initial : (camera shortExpo).init _)
    (show ((camera shortExpo).exec Cam.fresh stopInExposure).any
      (fun s => s.expo = .ended && s.data.isEnded && s.dataQ.length = 1) = true
      by decide +kernel)
  simp only [Bool.and_eq_true, decide_eq_true_eq] at hshape
  obtain ⟨⟨hexpo, hdata⟩, hlen⟩ := hshape
  have hempty := (hall s hs hexpo (isEnded_iff.mp hdata)).1
  rw [hempty] at hlen
  simp at hlen

end AutoExpo
