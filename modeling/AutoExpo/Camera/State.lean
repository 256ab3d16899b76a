import Mathlib.Data.Finset.Basic
import Mathlib.Data.Rat.Floor

/-!
# One camera: the data of `ASICamHandler`

The members of `ASICamHandler` that its threads share, the control points of
the threads, and the history the properties are stated about. `Threads` says
what each thread does with them.

A ring buffer is named by its index in `CircularBuffer::_buf`; the pointers
`gen_buff` hands out are distinct for distinct indices.
-/

namespace AutoExpo

/-- `unsigned long` on the machines the program is built for. -/
abbrev ULong := BitVec 64

def ULONG_MAX : ULong := BitVec.allOnes 64

/-- An `ASI_ERROR_CODE`. -/
abbrev AsiError := Nat

def ASI_SUCCESS : AsiError := 0

/-- `ASI_EXPOSURE_STATUS`. -/
inductive ExposureStatus
  | idle
  | working
  | success
  | failed
  deriving DecidableEq, Repr

/-- `ASI_IMG_TYPE`. -/
inductive ImgType
  | raw8
  | rgb24
  | raw16
  | y8
  | unset
  deriving DecidableEq, Repr

/-! ## The ring -/

/-- `CircularBuffer`: the read position is always an index of the ring. -/
structure CircularBuffer where
  bufLen : Nat
  bufCnt : Nat
  bufCurPos : Nat
  pos_lt : bufCurPos < bufCnt

/-- The constructor; the buffers are allocated and zeroed, the position is 0. -/
def CircularBuffer.new (bufLen bufCnt : Nat) (pos : 0 < bufCnt) : CircularBuffer where
  bufLen := bufLen
  bufCnt := bufCnt
  bufCurPos := 0
  pos_lt := pos

/-- `CircularBuffer::gen_buff`: the buffer at the position, which moves on. -/
def CircularBuffer.genBuff (c : CircularBuffer) : (Nat × Nat) × CircularBuffer :=
  ((c.bufCurPos, c.bufLen),
    { c with
      bufCurPos := (c.bufCurPos + 1) % c.bufCnt
      pos_lt := Nat.mod_lt _ (Nat.zero_lt_of_lt c.pos_lt) })

/-! ## Frames -/

/-- The part of `ImgMeta` the exposure thread fills from its own clocks and
counters. Times are in nanoseconds, the temperature is the one last read. -/
structure ImgMeta where
  expoCnt : ULong
  timExpoStart : Int
  tikExpoStop : Int
  tikAcqEnd : Int
  realTemp : Rat
  deriving DecidableEq

/-- `ImgDataType`, an entry of `data_q`. The ticket is history and no step
reads it: the number of the `gen_buff` call that gave the buffer. -/
structure Frame where
  imgBuf : Nat
  imgSize : Nat
  imgMeta : ImgMeta
  ticket : Nat
  deriving DecidableEq

/-- The bytes of a buffer, by offset. -/
abbrev Pixels := Nat → UInt8

/-! ## Control points -/

/-- The locals of one pass of the exposure loop. -/
structure Shot where
  timExpoStart : Int
  tikExpoStart : Int
  tikExpoStop : Int
  deriving DecidableEq

/-- The exposure thread. `unborn` is `th_expo == nullptr`; the `cool` points
are those of `expo_wait_cooling`. -/
inductive ExpoPc
  | unborn
  | coolSleep
  | coolLoop (waitMax : Nat)
  | coolTik (waitMax tik : Nat)
  | head
  | test
  | idle
  | start
  | expoWait (shot : Shot) (elapseCnt : Nat)
  | poll (shot : Shot)
  | gen (shot : Shot)
  | getData (shot : Shot) (imgBuf imgSize ticket : Nat)
  | filling (shot : Shot) (imgBuf imgSize ticket : Nat)
  | eraseBuf (imgBuf : Nat)
  | push (f : Frame)
  | incr
  | ended
  deriving DecidableEq

/-- The data thread. `save_data` is called with a frame in hand (`saving`) and
reads its buffer in `fits_write_img` (`reading`, with what the buffer has
contained since); `cached` tells the calls of the final "saving cached data"
loop from those of the main loop. -/
inductive DataPc
  | unborn
  | loop
  | pick
  | saving (f : Frame) (cached : Bool)
  | reading (f : Frame) (seen : List Pixels) (cached : Bool)
  | drain
  | ended

/-- A request of the HTTP thread, as it reaches this camera. Both setters make
two stores; the point says how many are still to come. -/
inductive RpcPc
  | idle
  | resetLoop (loopCnt : ULong)
  | resetExpo (loopCnt : ULong)
  | stopExpo
  | stopLoop
  deriving DecidableEq

/-- How the process ends other than by its threads returning. -/
inductive Crash
  | assertFailed
  | nullDeref
  | aborted
  deriving DecidableEq

/-- What has happened so far; no step reads it. -/
structure Log where
  genCalls : Nat
  pushed : List Frame
  handed : List Frame
  acquired : List (Frame × Pixels)
  saved : List (Frame × Pixels)

structure Cam where
  thExpoStop : Bool
  loopCnt : ULong
  expoCnt : ULong
  cirBuf : Option CircularBuffer
  bufToProc : Finset Nat
  dataQ : List Frame
  mem : Nat → Pixels
  expo : ExpoPc
  data : DataPc
  rpc : RpcPc
  crash : Option Crash
  log : Log

/-- What is fixed before the threads of the camera start: the command line
flags and the handler's own settings. The code asks for a ring of 20. -/
structure Config where
  bufCnt : Nat := 20
  bufCnt_pos : 0 < bufCnt := by decide
  curHeight : Nat
  curWidth : Nat
  imgType : ImgType
  expoMs : Rat
  coolTemp : Int
  waitCooling : Bool
  cooler : Bool
  keepRunning : Bool
  expoCount : ULong

/-- The size of one image, as `expo_loop_start` computes it. -/
def Config.imgSize (cfg : Config) : Nat :=
  cfg.curHeight * cfg.curWidth * (1 + if cfg.imgType = .raw16 then 1 else 0)

/-- `expo_wait_cooling`'s `wait_max`. -/
def Config.waitMax (cfg : Config) : Nat :=
  if cfg.cooler then (if cfg.waitCooling then 1000 else 0) else 0

/-- The number of 10 ms sleeps of the exposure wait. -/
def Config.elapseCnt (cfg : Config) : Nat := (cfg.expoMs / 10).floor.toNat

/-- A handler whose threads have not been started. -/
def Cam.Initial (s : Cam) : Prop :=
  s.thExpoStop = false ∧ s.loopCnt = 0 ∧ s.expoCnt = 0 ∧ s.cirBuf = none ∧ s.bufToProc = ∅ ∧
    s.dataQ = [] ∧ s.expo = .unborn ∧ s.data = .unborn ∧ s.rpc = .idle ∧ s.crash = none ∧
    s.log = { genCalls := 0, pushed := [], handed := [], acquired := [], saved := [] }

/-- `loop_cnt > 0 && expo_cnt >= loop_cnt`: the target has been reached. -/
def Cam.targetReached (s : Cam) : Bool := 0 < s.loopCnt && s.loopCnt ≤ s.expoCnt

end AutoExpo
