import Mathlib.Data.Finset.Option
import AutoExpo.Camera.Steps

/-!
# The pipeline is a relay

The exposure thread and the data thread of a camera pass ring buffers from one
to the other. Seen from `cir_buf`, `buf_to_proc`, `data_q` and the buffers
alone they are the producer and the consumer of `Kit.Relay` (`pipeline`), and
what holds of every run of the relay holds of every run of the camera.
-/

namespace AutoExpo

open Kit
open Kit.Relay (Producer Consumer)

/-- The camera's ring, as the relay sees it. -/
def ring (cfg : Config) : Relay.Ring Frame where
  size := cfg.bufCnt
  size_pos := cfg.bufCnt_pos
  buf := Frame.imgBuf
  ticket := Frame.ticket

/-- The relay of this ring. -/
def handover (cfg : Config) : TSys (Relay.State Frame Pixels) (Relay.Act Frame Nat UInt8) :=
  Relay.relay (ring cfg)

/-- What the exposure thread is to the relay. -/
def ExpoPc.producer : ExpoPc → Producer Frame
  | .getData _ imgBuf _ ticket => .taken imgBuf ticket
  | .filling _ imgBuf _ ticket => .filling imgBuf ticket
  | .eraseBuf imgBuf => .failed imgBuf
  | .push f => .ready f
  | _ => .idle

/-- What the data thread is to the relay. -/
def DataPc.consumer : DataPc → Consumer Frame Pixels
  | .saving f _ => .holding f
  | .reading f seen _ => .reading f seen
  | _ => .idle

/-- The camera as a relay: the threads' other work is forgotten. -/
def Cam.relay (s : Cam) : Relay.State Frame Pixels where
  pos := (s.cirBuf.map CircularBuffer.bufCurPos).getD 0
  takes := s.log.genCalls
  busy := s.bufToProc
  queue := s.dataQ
  mem := s.mem
  prod := s.expo.producer
  cons := s.data.consumer
  fault := s.crash == some .assertFailed
  queued := s.log.pushed
  handed := s.log.handed
  filled := s.log.acquired
  read := s.log.saved

/-- The step of the relay a step of the camera is, if it is one. -/
def Cam.relayAct (s : Cam) : Act → Option (Relay.Act Frame Nat UInt8)
  | .expo .genBuff => some .take
  | .expo .getDataBegin => some .beginFill
  | .expo (.sdkStore px) => some (.write px)
  | .expo (.getDataEnd res px _ tik realTemp) => match s.expo with
      | .filling shot imgBuf imgSize ticket =>
          some (.endFill (res = ASI_SUCCESS) px
            (s.frame shot imgBuf imgSize ticket tik realTemp))
      | _ => none
  | .expo .eraseBuf => some .giveBack
  | .expo .pushData => some .put
  | .data .pick => some .pop
  | .data .drain => some .pop
  | .data .readBegin => some .beginRead
  | .data (.readEnd pick) => some (.endRead pick)
  | _ => none

/-- A take is a call of `gen_buff`. -/
theorem genBuff_of_take {s : Cam} {a : Act} (hlab : s.relayAct a = some .take) :
    a = .expo .genBuff := by
  cases a with
  | expo a =>
      cases a <;> simp [Cam.relayAct] at hlab ⊢
      split at hlab <;> simp at hlab
  | main a => simp [Cam.relayAct] at hlab
  | data a => cases a <;> simp [Cam.relayAct] at hlab
  | rpc a => simp [Cam.relayAct] at hlab

/-- The ring is created with the exposure thread and never replaced. -/
structure Born (cfg : Config) (s : Cam) : Prop where
  unborn : s.expo = .unborn → s.cirBuf = none
  born : s.expo ≠ .unborn → ∃ c, s.cirBuf = some c ∧ c.bufCnt = cfg.bufCnt

/-- The relay explains a step of the camera. -/
abbrev Explains (cfg : Config) (s : Cam) (a : Act) (s' : Cam) : Prop :=
  (handover cfg).Moves s.relay (s.relayAct a) s'.relay

theorem explains_stay {cfg : Config} {s s' : Cam} {a : Act} (hlab : s.relayAct a = none)
    (hsame : s'.relay = s.relay) : Explains cfg s a s' := by
  simp only [Explains, TSys.Moves, hlab, hsame]

theorem explains_move {cfg : Config} {s s' : Cam} {a : Act} {b : Relay.Act Frame Nat UInt8}
    (hlab : s.relayAct a = some b) (hmove : Relay.step (ring cfg) s.relay b = some s'.relay) :
    Explains cfg s a s' := by
  simp only [Explains, TSys.Moves, hlab]
  exact hmove

theorem store_relay (cfg : Config) (s : Cam) (b : Nat) (px : Pixels) :
    (s.store b px).relay = s.relay.store (ring cfg) b px := by
  cases hd : s.data <;> simp [Cam.store, Cam.relay, Relay.State.store, DataPc.consumer, hd]
  rfl

theorem relay_filling {s : Cam} {shot : Shot} {imgBuf imgSize ticket : Nat}
    (he : s.expo = .filling shot imgBuf imgSize ticket) :
    s.relay.prod = .filling imgBuf ticket := by
  simp [Cam.relay, he, ExpoPc.producer]

theorem frame_buf (cfg : Config) (s : Cam) (shot : Shot) (imgBuf imgSize ticket : Nat) (tik : Int)
    (realTemp : Rat) :
    (ring cfg).buf (s.frame shot imgBuf imgSize ticket tik realTemp) = imgBuf := rfl

theorem frame_ticket (cfg : Config) (s : Cam) (shot : Shot) (imgBuf imgSize ticket : Nat)
    (tik : Int) (realTemp : Rat) :
    (ring cfg).ticket (s.frame shot imgBuf imgSize ticket tik realTemp) = ticket := rfl

theorem ExpoStep.explained {cfg : Config} {s s' : Cam} {a : ExpoAct} (h : ExpoStep cfg s a s')
    (hb : Born cfg s) : Explains cfg s (.expo a) s' := by
  cases h with
  | genNull shot he hnull =>
      -- the ring is there as long as the exposure thread is
      obtain ⟨c, hcir, -⟩ := hb.born (by rw [he]; exact ExpoPc.noConfusion)
      rw [hnull] at hcir
      cases hcir
  | genFull shot c he hcir hfull =>
      obtain ⟨c', hcir', hcnt⟩ := hb.born (by rw [he]; exact ExpoPc.noConfusion)
      cases hcir.symm.trans hcir'
      apply explains_move rfl
      simp [Relay.step, Cam.relay, he, ExpoPc.producer, hcir, hfull, ring, hcnt,
        CircularBuffer.genBuff]
  | gen shot c he hcir hfree =>
      obtain ⟨c', hcir', hcnt⟩ := hb.born (by rw [he]; exact ExpoPc.noConfusion)
      cases hcir.symm.trans hcir'
      apply explains_move rfl
      simp [Relay.step, Cam.relay, he, ExpoPc.producer, hcir, hfree, ring, hcnt,
        CircularBuffer.genBuff]
  | sdkStore px shot imgBuf imgSize ticket he =>
      apply explains_move rfl
      simp only [Relay.step, relay_filling he, store_relay cfg]
  | getDataOk px trip tik realTemp shot imgBuf imgSize ticket he =>
      have hlab : s.relayAct (.expo (.getDataEnd ASI_SUCCESS px trip tik realTemp)) =
          some (.endFill true px (s.frame shot imgBuf imgSize ticket tik realTemp)) := by
        simp only [Cam.relayAct, he, decide_true]
      apply explains_move hlab
      simp only [Relay.step, relay_filling he, frame_buf, frame_ticket, and_self, if_true,
        ← store_relay]
      simp [Cam.relay, Cam.store, Cam.traceError, ExpoPc.producer]
  | getDataFail res px trip tik realTemp shot imgBuf imgSize ticket he hres =>
      have hlab : s.relayAct (.expo (.getDataEnd res px trip tik realTemp)) =
          some (.endFill false px (s.frame shot imgBuf imgSize ticket tik realTemp)) := by
        simp only [Cam.relayAct, he, hres, decide_false]
      apply explains_move hlab
      simp only [Relay.step, relay_filling he, frame_buf, frame_ticket, and_self, if_true,
        ← store_relay]
      simp [Cam.relay, Cam.store, Cam.traceError, ExpoPc.producer]
  | getDataBegin _ _ _ _ he | eraseBuf _ he | pushData _ he =>
      apply explains_move rfl
      simp [Relay.step, Cam.relay, he, ExpoPc.producer]
  | done he =>
      apply explains_stay rfl
      cases hrun : cfg.keepRunning <;> simp [Cam.relay, he, ExpoPc.producer]
  | coolSleep he | cooled _ _ he | coolOn _ _ he | coolTikDone _ _ he | coolTik _ _ he
  | leave he | enter he | pass he | idleSleep he | startExposure _ _ _ he
  | expoWaitDone _ _ he | expoWait _ _ he | working _ _ _ he | polled _ _ _ _ _ he
  | incrExpoCnt he =>
      apply explains_stay rfl
      simp [Cam.relay, Cam.traceError, he, ExpoPc.producer]

theorem takeFront_explained {cfg : Config} {s : Cam} {f : Frame} {rest : List Frame}
    {cached : Bool} (hidle : s.data.consumer = .idle) (hq : s.dataQ = f :: rest) :
    Relay.step (ring cfg) s.relay .pop = some (s.takeFront f rest cached).relay := by
  have hcons : s.relay.cons = .idle := hidle
  have hqueue : s.relay.queue = f :: rest := hq
  simp only [Relay.step, hcons, hqueue]
  by_cases hbusy : f.imgBuf ∈ s.bufToProc
  · simp [Cam.takeFront, Cam.relay, ring, hbusy, DataPc.consumer]
  · simp [Cam.takeFront, Cam.relay, ring, hbusy, hidle, hq]

theorem DataStep.explained {cfg : Config} {s s' : Cam} {a : DataAct} (h : DataStep s a s')
    (hc : s.crash = none) : Explains cfg s (.data a) s' := by
  cases h with
  | loop hd | leave hd =>
      apply explains_stay rfl
      simp [Cam.relay, hd, DataPc.consumer]
  | pickNone hd hq | finish hd hq =>
      apply explains_move rfl
      simp [Relay.step, Cam.relay, hd, hq, DataPc.consumer]
  | pick f rest hd hq | drain f rest hd hq =>
      exact explains_move rfl (takeFront_explained (by rw [hd]; rfl) hq)
  | readBegin f cached hd =>
      apply explains_move rfl
      simp [Relay.step, Cam.relay, hd, DataPc.consumer, ring]
  | readEnd pick f seen cached hd =>
      apply explains_move rfl
      cases cached <;> simp [Relay.step, Cam.relay, hd, DataPc.consumer, ring]
  | saveAbort =>
      apply explains_stay rfl
      simp [Cam.relay, hc]

theorem MainStep.explained {cfg : Config} {s s' : Cam} {a : MainAct} (h : MainStep cfg s a s')
    (hb : Born cfg s) : Explains cfg s (.main a) s' := by
  cases h with
  | dataSavingStart hd => exact explains_stay rfl (by simp [Cam.relay, hd, DataPc.consumer])
  | expoLoopStart he =>
      apply explains_stay rfl
      simp [Cam.relay, hb.unborn he, he, ExpoPc.producer, CircularBuffer.new]
  | raiseStop => exact explains_stay rfl rfl

theorem RpcStep.explained {cfg : Config} {s s' : Cam} {a : RpcAct} (h : RpcStep s a s') :
    Explains cfg s (.rpc a) s' := by
  cases h <;> exact explains_stay rfl (by simp only [Cam.relay])

/-! ## The simulation -/

theorem born_inductive (cfg : Config) : (camera cfg).Inductive (Born cfg) where
  init s h := by
    obtain ⟨_, _, _, hcir, _, _, hexpo, _⟩ := h
    exact ⟨fun _ => hcir, fun hne => absurd hexpo hne⟩
  step s a s' _ hs h := by
    cases step_cases h with
    | main h => cases h with
        | expoLoopStart => exact ⟨by simp, fun _ => ⟨_, rfl, rfl⟩⟩
        | dataSavingStart | raiseStop => exact ⟨hs.unborn, hs.born⟩
    | expo h =>
        obtain ⟨hborn, hborn'⟩ := h.born
        obtain ⟨c, hcir, hcnt⟩ := hs.born hborn
        refine ⟨fun he => absurd he hborn', ?_⟩
        intro _
        rcases h.cirBuf with hsame | ⟨c', hc', hnew⟩
        · exact ⟨c, hsame ▸ hcir, hcnt⟩
        · rw [hcir, Option.some.injEq] at hc'
          exact ⟨_, hnew, hc' ▸ hcnt⟩
    | data h =>
        have hframe := h.frame
        exact ⟨hframe ▸ hs.unborn, hframe ▸ hs.born⟩
    | rpc h =>
        have hframe := h.frame
        exact ⟨hframe ▸ hs.unborn, hframe ▸ hs.born⟩

theorem explained {cfg : Config} {s s' : Cam} {a : Act} (hb : Born cfg s)
    (h : step cfg s a = some s') : Explains cfg s a s' := by
  have hc := step_live h
  cases step_cases h with
  | main h => exact h.explained hb
  | expo h => exact h.explained hb
  | data h => exact h.explained hc
  | rpc h => exact h.explained

theorem relay_fresh {s : Cam} (h : s.Initial) : Relay.Fresh s.relay := by
  obtain ⟨_, _, _, hcir, hproc, hq, hexpo, hdata, _, hcrash, hlog⟩ := h
  simp [Relay.Fresh, Cam.relay, ExpoPc.producer, DataPc.consumer, *]

/-- The pipeline of a camera is a relay. -/
def pipeline (cfg : Config) : TSys.Sim (camera cfg) (handover cfg) (Born cfg) where
  abs := Cam.relay
  lab := Cam.relayAct
  init _ h := relay_fresh h
  step _ _ _ hb h := explained hb h

theorem relay_reachable {cfg : Config} {s : Cam} (hs : (camera cfg).Reachable s) :
    (handover cfg).Reachable s.relay :=
  (pipeline cfg).reachable (born_inductive cfg).invariant hs

/-! ## Bookkeeping -/

/-- The buffer the exposure thread is acquiring into, from its insertion in
`buf_to_proc` to its push or erase. -/
def ExpoPc.slot : ExpoPc → Option Nat
  | .getData _ imgBuf _ _ | .filling _ imgBuf _ _ | .eraseBuf imgBuf => some imgBuf
  | .push f => some f.imgBuf
  | _ => none

theorem slot_producer (cfg : Config) (pc : ExpoPc) : pc.producer.slot (ring cfg) = pc.slot := by
  cases pc <;> rfl

/-- What ties `data_q`, `buf_to_proc` and the frames handed on to each other. -/
structure Bookkeeping (cfg : Config) (s : Cam) : Prop where
  /-- the queued buffers are different buffers of the ring -/
  distinct : (s.dataQ.map Frame.imgBuf).Nodup
  inRing : ∀ f ∈ s.dataQ, f.imgBuf < cfg.bufCnt
  /-- `buf_to_proc` holds these and the one being acquired into -/
  toProc : s.bufToProc = (s.dataQ.map Frame.imgBuf).toFinset ∪ s.expo.slot.toFinset
  /-- frames leave for `save_data` in the order they were pushed -/
  fifo : s.log.pushed = s.log.handed ++ s.dataQ
  /-- `assert(buf_to_proc.erase(imgBuf))` has not failed -/
  asserts : s.crash ≠ some .assertFailed

theorem bookkeeping (cfg : Config) (s : Cam) (hs : (camera cfg).Reachable s) :
    Bookkeeping cfg s := by
  have hinv := Relay.relay_inv (relay_reachable hs)
  have hin : s.relay.inUse (ring cfg) = s.dataQ.map Frame.imgBuf ++ s.expo.slot.toList := by
    simp only [Relay.State.inUse, Cam.relay, slot_producer]
    rfl
  refine ⟨?_, ?_, ?_, hinv.queued, ?_⟩
  · exact (List.nodup_append.mp (hin ▸ hinv.nodup)).1
  · intro f hf
    exact (hinv.queueStamped f hf).buf_lt
  · ext b
    have hb := hinv.busy b
    rw [hin] at hb
    simpa [Cam.relay] using hb
  · have hfault := hinv.fault
    simpa [Cam.relay] using hfault

/-- One frame saved, the next pushed and a third being acquired. -/
def busyRun : List Act :=
  startUp ++ expose ++ readOut (fun _ => 1) ++ handOver ++ saveFrame ++ expose ++
    readOut (fun _ => 2) ++ expose

theorem bookkeeping_busyRun :
    ∃ s, (camera shortExpo).Reachable s ∧ Bookkeeping shortExpo s ∧ s.dataQ.length = 1 ∧
      s.bufToProc = {1, 2} := by
  obtain ⟨s, hs, hshape⟩ := TSys.Reachable.of_exec (fresh_initial : (camera shortExpo).init _)
    (show ((camera shortExpo).exec Cam.fresh busyRun).any
      (fun s => s.dataQ.length = 1 && s.bufToProc = {1, 2}) = true by decide +kernel)
  simp only [Bool.and_eq_true, decide_eq_true_eq] at hshape
  exact ⟨s, hs, bookkeeping shortExpo s hs, hshape⟩

end AutoExpo
