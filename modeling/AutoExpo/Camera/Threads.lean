import AutoExpo.Camera.State
import AutoExpo.Kit.Relay

/-!
# One camera: its threads

The lambdas of `expo_loop_start` and `data_saving_start`, the counter setters
the HTTP thread calls, and what `main` and the other parties do to the same
members, as one labelled system. A label names the step and carries what the
outside answers in it: the result of an SDK call, a clock, the pixels the SDK
stores, whether `traceError` gives up (its counter is shared with the other
cameras, so any error may be the one too many).

Every `mtx_data` critical section is one step, as is every iteration of the
"saving cached data" loop, which takes no lock. `ASIGetDataAfterExp` and the
read of the buffer in `save_data` have a begin and an end; between the two the
SDK stores into the buffer at will.
-/

namespace AutoExpo

/-- Who raises `th_expo_stop`, apart from the exposure thread itself. -/
inductive StopCause
  /-- `stop()` from the SIGINT handler -/
  | sigint
  /-- `stop()` from the camera count watchdog -/
  | watchdog
  /-- `expo_loop_wait`, after the exposure thread has been joined -/
  | expoLoopWait
  deriving DecidableEq

inductive MainAct
  | dataSavingStart
  | expoLoopStart
  | raiseStop (cause : StopCause)

inductive ExpoAct
  | coolSleep
  | coolLoop (realTemp : Rat)
  | coolTik
  | head
  | test
  | idleSleep
  | startExposure (res : AsiError) (tim tik : Int)
  | expoWait
  | getExpStatus (res : AsiError) (stat : ExposureStatus) (trip : Bool) (tik : Int)
  | genBuff
  | getDataBegin
  | sdkStore (px : Pixels)
  | getDataEnd (res : AsiError) (px : Pixels) (trip : Bool) (tik : Int) (realTemp : Rat)
  | eraseBuf
  | pushData
  | incrExpoCnt

inductive DataAct
  | loop
  | pick
  | readBegin
  | readEnd (pick : Nat → Nat)
  | saveAbort
  | drain

inductive RpcAct
  | resetCall (loopCnt : ULong)
  | resetLoopCnt
  | resetExpoCnt
  | stopCall
  | stopExpoCnt
  | stopLoopCnt

inductive Act
  | main (a : MainAct)
  | expo (a : ExpoAct)
  | data (a : DataAct)
  | rpc (a : RpcAct)

/-! ## `main` and the stop flag -/

/-- `main` starts the data thread before the exposure thread. -/
def mainStep (cfg : Config) (s : Cam) : MainAct → Option Cam
  | .dataSavingStart => match s.data with
      | .unborn => some { s with data := .loop }
      | _ => none
  | .expoLoopStart => match s.expo, s.data with
      | .unborn, .unborn => none
      | .unborn, _ =>
          some { s with
            loopCnt := cfg.expoCount
            cirBuf := some (.new cfg.imgSize cfg.bufCnt cfg.bufCnt_pos)
            expo := .coolSleep }
      | _, _ => none
  | .raiseStop .expoLoopWait => match s.expo with
      | .ended => some { s with thExpoStop := true }
      | _ => none
  | .raiseStop _ => some { s with thExpoStop := true }

/-! ## The exposure thread -/

/-- `traceError`: an error may be the one that gives up. -/
def Cam.traceError (s : Cam) (trip : Bool) : Cam :=
  { s with thExpoStop := s.thExpoStop || trip }

/-- The SDK stores `px` in buffer `b`; a read of `b` under way may see it. -/
def Cam.store (s : Cam) (b : Nat) (px : Pixels) : Cam :=
  { s with
    mem := fun b' => if b' = b then px else s.mem b'
    data := match s.data with
      | .reading f seen cached =>
          .reading f (if f.imgBuf = b then seen ++ [px] else seen) cached
      | d => d }

/-- The queue entry of a successful acquisition ("Adding Data"). -/
def Cam.frame (s : Cam) (shot : Shot) (imgBuf imgSize ticket : Nat) (tik : Int)
    (realTemp : Rat) : Frame where
  imgBuf := imgBuf
  imgSize := imgSize
  imgMeta :=
    { expoCnt := s.expoCnt
      timExpoStart := shot.timExpoStart
      tikExpoStop := shot.tikExpoStop
      tikAcqEnd := tik - shot.tikExpoStart
      realTemp := realTemp }
  ticket := ticket

def expoStep (cfg : Config) (s : Cam) : ExpoAct → Option Cam
  | .coolSleep => match s.expo with
      | .coolSleep => some { s with expo := .coolLoop cfg.waitMax }
      | _ => none
  | .coolLoop realTemp => match s.expo with
      | .coolLoop waitMax =>
          if s.thExpoStop ∨ waitMax = 0 ∨ realTemp < cfg.coolTemp + 1 then
            some { s with expo := .head }
          else some { s with expo := .coolTik (waitMax - 1) 5 }
      | _ => none
  | .coolTik => match s.expo with
      | .coolTik waitMax tik =>
          if tik = 0 ∨ s.thExpoStop then some { s with expo := .coolLoop waitMax }
          else some { s with expo := .coolTik waitMax (tik - 1) }
      | _ => none
  | .head => match s.expo with
      | .head => some { s with expo := if s.thExpoStop then .ended else .test }
      | _ => none
  | .test => match s.expo with
      | .test =>
          if s.targetReached then
            some { s with expo := if cfg.keepRunning then .idle else .ended }
          else some { s with expo := .start }
      | _ => none
  | .idleSleep => match s.expo with
      | .idle => some { s with expo := .head }
      | _ => none
  -- the result of ASIStartExposure is not looked at
  | .startExposure _ tim tik => match s.expo with
      | .start => some { s with expo := .expoWait ⟨tim, tik, 0⟩ cfg.elapseCnt }
      | _ => none
  | .expoWait => match s.expo with
      | .expoWait shot elapseCnt =>
          if s.thExpoStop ∨ elapseCnt = 0 ∨ cfg.expoMs < 10 then
            some { s with expo := .poll shot }
          else some { s with expo := .expoWait shot (elapseCnt - 1) }
      | _ => none
  | .getExpStatus res stat trip tik => match s.expo with
      | .poll shot =>
          if trip ∧ res = ASI_SUCCESS then none
          else if res = ASI_SUCCESS ∧ stat = .working then some s
          else
            -- whatever the status, the thread goes on to read the data out
            some { s.traceError trip with
              expo := .gen { shot with tikExpoStop := tik - shot.tikExpoStart } }
      | _ => none
  | .genBuff => match s.expo with
      | .gen shot => match s.cirBuf with
          | none => some { s with crash := some .nullDeref }
          | some c =>
              let ((imgBuf, imgSize), c') := c.genBuff
              let s' := { s with
                cirBuf := some c', log := { s.log with genCalls := s.log.genCalls + 1 } }
              if imgBuf ∈ s.bufToProc then
                -- "CircularBuffer is not big enough"
                some { s' with thExpoStop := true, expo := .head }
              else
                some { s' with
                  bufToProc := insert imgBuf s.bufToProc
                  expo := .getData shot imgBuf imgSize s.log.genCalls }
      | _ => none
  | .getDataBegin => match s.expo with
      | .getData shot imgBuf imgSize ticket =>
          some { s with expo := .filling shot imgBuf imgSize ticket }
      | _ => none
  | .sdkStore px => match s.expo with
      | .filling _ imgBuf _ _ => some (s.store imgBuf px)
      | _ => none
  | .getDataEnd res px trip tik realTemp => match s.expo with
      | .filling shot imgBuf imgSize ticket =>
          let s' := (s.store imgBuf px).traceError trip
          if trip ∧ res = ASI_SUCCESS then none
          else if res = ASI_SUCCESS then
            let f := s.frame shot imgBuf imgSize ticket tik realTemp
            some { s' with
              expo := .push f
              log := { s.log with acquired := s.log.acquired ++ [(f, px)] } }
          else some { s' with expo := .eraseBuf imgBuf }
      | _ => none
  | .eraseBuf => match s.expo with
      | .eraseBuf imgBuf =>
          some { s with bufToProc := s.bufToProc.erase imgBuf, expo := .incr }
      | _ => none
  | .pushData => match s.expo with
      | .push f =>
          some { s with
            dataQ := s.dataQ ++ [f]
            expo := .incr
            log := { s.log with pushed := s.log.pushed ++ [f] } }
      | _ => none
  | .incrExpoCnt => match s.expo with
      | .incr => some { s with expoCnt := s.expoCnt + 1, expo := .head }
      | _ => none

/-! ## The data thread -/

/-- The body both loops of the data thread share: the front of the queue is
taken off under `assert(buf_to_proc.erase(imgBuf))` and handed to `save_data`;
nothing shared is touched between the pop and the call. -/
def Cam.takeFront (s : Cam) (f : Frame) (rest : List Frame) (cached : Bool) : Cam :=
  if f.imgBuf ∈ s.bufToProc then
    { s with
      bufToProc := s.bufToProc.erase f.imgBuf
      dataQ := rest
      data := .saving f cached
      log := { s.log with handed := s.log.handed ++ [f] } }
  else { s with crash := some .assertFailed }

/-- The read of `save_data` returns, at each offset, a byte its buffer has
contained since the read began. -/
def dataStep (s : Cam) : DataAct → Option Cam
  | .loop => match s.data with
      | .loop => some { s with data := if s.thExpoStop then .drain else .pick }
      | _ => none
  | .pick => match s.data with
      | .pick => match s.dataQ with
          | [] => some { s with data := .loop }
          | f :: rest => some (s.takeFront f rest false)
      | _ => none
  | .readBegin => match s.data with
      | .saving f cached => some { s with data := .reading f [s.mem f.imgBuf] cached }
      | _ => none
  | .readEnd pick => match s.data with
      | .reading f seen cached =>
          some { s with
            data := if cached then .drain else .loop
            log := { s.log with
              saved := s.log.saved ++ [(f, Kit.Relay.tear seen (s.mem f.imgBuf) pick)] } }
      | _ => none
  -- save_data aborts when the directory or the FITS file cannot be written
  | .saveAbort => match s.data with
      | .saving _ _ | .reading _ _ _ => some { s with crash := some .aborted }
      | _ => none
  | .drain => match s.data with
      | .drain => match s.dataQ with
          | [] => some { s with data := .ended }
          | f :: rest => some (s.takeFront f rest true)
      | _ => none

/-! ## The HTTP thread -/

/-- `reset_expo_count` and `stop_expo_count`, store by store. The HTTP thread
serves one request at a time. -/
def rpcStep (s : Cam) : RpcAct → Option Cam
  | .resetCall loopCnt => match s.rpc with
      | .idle => some { s with rpc := .resetLoop loopCnt }
      | _ => none
  | .resetLoopCnt => match s.rpc with
      | .resetLoop loopCnt => some { s with loopCnt := loopCnt, rpc := .resetExpo loopCnt }
      | _ => none
  | .resetExpoCnt => match s.rpc with
      | .resetExpo _ => some { s with expoCnt := 0, rpc := .idle }
      | _ => none
  | .stopCall => match s.rpc with
      | .idle => some { s with rpc := .stopExpo }
      | _ => none
  | .stopExpoCnt => match s.rpc with
      | .stopExpo => some { s with expoCnt := ULONG_MAX - 1, rpc := .stopLoop }
      | _ => none
  | .stopLoopCnt => match s.rpc with
      | .stopLoop => some { s with loopCnt := 1, rpc := .idle }
      | _ => none

/-! ## The system -/

/-- A step of the process as far as this camera goes. A crashed process takes
none. -/
def step (cfg : Config) (s : Cam) (a : Act) : Option Cam :=
  if s.crash.isSome then none
  else match a with
    | .main a => mainStep cfg s a
    | .expo a => expoStep cfg s a
    | .data a => dataStep s a
    | .rpc a => rpcStep s a

def camera (cfg : Config) : Kit.TSys Cam Act where
  init := Cam.Initial
  step := step cfg

/-! ## Replaying a camera

The pieces the concrete runs below are put together from. -/

/-- A handler as it is constructed, its buffers not yet allocated. -/
def Cam.fresh : Cam where
  thExpoStop := false
  loopCnt := 0
  expoCnt := 0
  cirBuf := none
  bufToProc := ∅
  dataQ := []
  mem := fun _ _ => 0
  expo := .unborn
  data := .unborn
  rpc := .idle
  crash := none
  log := { genCalls := 0, pushed := [], handed := [], acquired := [], saved := [] }

theorem fresh_initial : Cam.fresh.Initial := by
  simp [Cam.Initial, Cam.fresh]

/-- A camera of one pixel on short exposures, looping for ever. -/
def shortExpo : Config where
  curHeight := 1
  curWidth := 1
  imgType := .raw8
  expoMs := 5
  coolTemp := 0
  waitCooling := false
  cooler := false
  keepRunning := true
  expoCount := 0

/-- Both threads started, the exposure thread at the head of its loop. -/
def startUp : List Act :=
  [.main .dataSavingStart, .main .expoLoopStart, .expo .coolSleep, .expo (.coolLoop 0)]

/-- An exposure that succeeds, up to the choice of its buffer. -/
def expose : List Act :=
  [.expo .head, .expo .test, .expo (.startExposure ASI_SUCCESS 0 0), .expo .expoWait,
    .expo (.getExpStatus ASI_SUCCESS .success false 0), .expo .genBuff]

/-- A read-out that succeeds with `px`, the push and the count. -/
def readOut (px : Pixels) : List Act :=
  [.expo .getDataBegin, .expo (.getDataEnd ASI_SUCCESS px false 0 0), .expo .pushData,
    .expo .incrExpoCnt]

/-- The data thread hands the oldest frame to `save_data`. -/
def handOver : List Act := [.data .loop, .data .pick]

/-- `save_data` reads the buffer it was given. -/
def saveFrame : List Act := [.data .readBegin, .data (.readEnd fun _ => 0)]

end AutoExpo
