import AutoExpo.Camera.Pipeline

/-!
# Frame integrity

`buf_to_proc` is what keeps the exposure thread off buffers that are still
needed, but the data thread erases a buffer from it *before* `save_data` reads
it. When one save lasts while the exposure thread goes round the ring, the SDK
writes the new image into the buffer being saved (`slow_save_torn`).

`withinLap` is the pace that rules it out: while the data thread has a frame,
from its pop to the end of `save_data`, the exposure thread calls `gen_buff`
fewer than `buf_cnt` times after the call that gave the frame its buffer. On
the runs that keep this pace every image is saved as it was acquired
(`frame_integrity`).
-/

namespace AutoExpo

open Kit

/-- The buffer `ASIGetDataAfterExp` is writing. -/
def Cam.fillingBuf (s : Cam) : Option Nat :=
  match s.expo with
  | .filling _ imgBuf _ _ => some imgBuf
  | _ => none

/-- The buffer `save_data` is reading. -/
def Cam.readingBuf (s : Cam) : Option Nat :=
  match s.data with
  | .reading f _ _ => some f.imgBuf
  | _ => none

/-- The frame the data thread has popped and not finished saving. -/
def DataPc.inHand : DataPc → Option Frame
  | .saving f _ | .reading f _ _ => some f
  | _ => none

/-- The buffer being filled is neither queued nor being read, and what has been
saved is what was acquired, frame by frame. -/
def FrameIntact (s : Cam) : Prop :=
  (∀ b, s.fillingBuf = some b → b ∉ s.dataQ.map Frame.imgBuf ∧ s.readingBuf ≠ some b) ∧
    s.log.saved <+: s.log.acquired

/-- `gen_buff` is not called `buf_cnt` times after the call that gave its buffer
to the frame the data thread still has. -/
def withinLap (cfg : Config) (s : Cam) : Act → Bool
  | .expo .genBuff => s.data.inHand.all fun f => s.log.genCalls < f.ticket + cfg.bufCnt
  | _ => true

theorem inHand_consumer (d : DataPc) : d.consumer.item = d.inHand := by
  cases d <;> rfl

/-- The pace of the camera is the pace of its relay. -/
theorem inLap_of_withinLap {cfg : Config} {s : Cam} {a : Act} {b : Relay.Act Frame Nat UInt8}
    (hlap : withinLap cfg s a = true) (hlab : s.relayAct a = some b) :
    Relay.inLap (ring cfg) s.relay b = true := by
  cases b with
  | take =>
      have ha := genBuff_of_take hlab
      subst ha
      simp only [Relay.inLap, Cam.relay, inHand_consumer]
      exact hlap
  | _ => rfl

/-- The pipeline at the pace of the consumer. -/
def pacedPipeline (cfg : Config) :
    TSys.Sim ((camera cfg).restrict fun s a => withinLap cfg s a = true)
      ((handover cfg).restrict fun t b => Relay.inLap (ring cfg) t b = true) (Born cfg) :=
  (pipeline cfg).restrict _ _ fun _ _ _ hlap hlab => inLap_of_withinLap hlap hlab

/-- On the runs in which no save is lapped by the exposure thread, every image
is saved as it was acquired. -/
theorem frame_integrity (cfg : Config) (s : Cam)
    (hs : ((camera cfg).restrict fun s a => withinLap cfg s a = true).Reachable s) :
    FrameIntact s := by
  have hrelay := (pacedPipeline cfg).reachable
    (fun s hs => (born_inductive cfg).invariant s hs.of_restrict) hs
  have hintact := Relay.intact hrelay
  refine ⟨?_, ?_⟩
  · intro b hb
    have hslot : s.expo.producer.slot (ring cfg) = some b := by
      unfold Cam.fillingBuf at hb
      split at hb
      next he => simpa [he, ExpoPc.producer, Relay.Producer.slot] using hb
      next => cases hb
    have hnd := hintact.nodup
    simp only [Relay.State.inUse, pacedPipeline, TSys.Sim.restrict, pipeline, Cam.relay, hslot,
      Option.toList_some, ← List.append_assoc] at hnd
    have hfresh : b ∉ s.data.consumer.item.toList.map (ring cfg).buf ++
        s.dataQ.map (ring cfg).buf := by
      intro hmem
      exact (List.nodup_append.mp hnd).2.2 b hmem b (List.mem_singleton.mpr rfl) rfl
    rw [List.mem_append, not_or] at hfresh
    refine ⟨hfresh.2, ?_⟩
    intro hread
    apply hfresh.1
    unfold Cam.readingBuf at hread
    split at hread
    next f seen cached hd =>
      simpa [hd, DataPc.consumer, Relay.Consumer.item, ring, eq_comm] using hread
    next => cases hread
  · have hcarried := hintact.carried
    simp only [pacedPipeline, TSys.Sim.restrict, pipeline, Cam.relay] at hcarried
    exact hcarried ▸ List.prefix_append _ _

/-- A frame saved while the next one is acquired into another buffer. -/
def pacedRun : List Act :=
  startUp ++ expose ++ readOut (fun _ => 1) ++ handOver ++ [.data .readBegin] ++ expose ++
    [.expo .getDataBegin, .expo (.sdkStore fun _ => 2), .data (.readEnd fun _ => 0)]

theorem frame_integrity_pacedRun :
    ∃ s, FrameIntact s ∧ s.fillingBuf = some 1 ∧ s.log.saved.length = 1 := by
  obtain ⟨s, hs, hshape⟩ := TSys.Reachable.of_exec
    (show ((camera shortExpo).restrict fun s a => withinLap shortExpo s a = true).init _ from
      fresh_initial)
    (show (((camera shortExpo).restrict fun s a => withinLap shortExpo s a = true).exec
      Cam.fresh pacedRun).any (fun s => s.fillingBuf = some 1 && s.log.saved.length = 1) = true
      by decide +kernel)
  simp only [Bool.and_eq_true, decide_eq_true_eq] at hshape
  exact ⟨s, frame_integrity shortExpo s hs, hshape⟩

/-- One save that lasts a whole lap: frame 0 is in the hands of `save_data` while
the exposure thread fills the other nineteen buffers and comes back to buffer
0, which it fills during the read. -/
def slowSave : List Act :=
  startUp ++ expose ++ readOut (fun _ => 1) ++ handOver ++
    (List.replicate 19 (expose ++ readOut fun _ => 2)).flatten ++ expose ++
    [.data .readBegin, .expo .getDataBegin, .expo (.sdkStore fun _ => 3),
      .data (.readEnd fun _ => 1)]

/-- The image of frame 0 is acquired as ones and saved as threes. -/
theorem slow_save_torn : ¬ ∀ s, (camera shortExpo).Reachable s → FrameIntact s := by
  intro hall
  obtain ⟨s, hs, hshape⟩ := TSys.Reachable.of_exec (fresh_initial : (camera shortExpo).init _)
    (show ((camera shortExpo).exec Cam.fresh slowSave).any
      (fun s => s.log.saved.map (fun p => p.2 0) = [3] &&
        (s.log.acquired.map (fun p => p.2 0)).head? = some 1) = true by decide +kernel)
  simp only [Bool.and_eq_true, decide_eq_true_eq] at hshape
  obtain ⟨hsaved, hacquired⟩ := hshape
  obtain ⟨rest, hrest⟩ := (hall s hs).2.map fun p => p.2 0
  rw [← hrest, hsaved] at hacquired
  simp at hacquired

end AutoExpo
