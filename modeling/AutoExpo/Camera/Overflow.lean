import AutoExpo.Camera.Shutdown
import AutoExpo.Kit.FullRing

/-!
# Overflow of the ring

`gen_buff` hands out the buffers in turn, and the exposure thread gives up
("CircularBuffer is not big enough") when the one in turn is in `buf_to_proc`. A
read-out that fails gives its buffer back without queueing it, and the turn goes
on all the same: nineteen buffers may wait and one be free when the camera gives
up (`overflow_with_hole`).

The ring is full when the camera gives up if and only if the read-outs of the
last `buf_cnt` passes have all succeeded (`overflow_full`).
-/

namespace AutoExpo

open Kit

/-- The exposure thread is about to find the buffer in turn in `buf_to_proc`. -/
def Cam.overflows (s : Cam) : Prop :=
  ∃ shot c, s.expo = .gen shot ∧ s.cirBuf = some c ∧ c.bufCurPos ∈ s.bufToProc

/-- Every buffer of the ring is waiting in `data_q`. -/
def RingFull (cfg : Config) (s : Cam) : Prop :=
  ∀ b < cfg.bufCnt, b ∈ s.dataQ.map Frame.imgBuf

/-- The read-outs of the last `buf_cnt` passes have succeeded. -/
def LastLapAcquired (cfg : Config) (s : Cam) : Prop :=
  ∀ t < s.log.genCalls, s.log.genCalls ≤ t + cfg.bufCnt →
    ∃ p ∈ s.log.acquired, p.1.ticket = t

/-- The camera has given up; its exposure thread is on the way out. -/
structure GivenUp (s : Cam) : Prop where
  stop : s.thExpoStop = true
  leaving : s.expo = .head ∨ s.expo = .ended

variable {cfg : Config} {s s' : Cam}

theorem GivenUp.step {a : Act} (hs : GivenUp s) (h : step cfg s a = some s') : GivenUp s' := by
  refine ⟨step_stop h hs.stop, ?_⟩
  have hborn : s.expo ≠ .unborn := by
    rcases hs.leaving with he | he <;> simp [he]
  cases a with
  | expo e =>
      cases step_cases h with
      | expo h =>
          cases h with
          | leave => exact .inr rfl
          | enter he hgo =>
              rw [hs.stop] at hgo
              cases hgo
          | _ => rcases hs.leaving with he | he <;> simp_all
  | main e | data e | rpc e =>
      rw [step_expo_of_others h hborn (by simp)]
      exact hs.leaving

/-- What is known of every camera, as a relay. -/
structure Known (cfg : Config) (s : Cam) : Prop where
  born : Born cfg s
  inv : Relay.Inv (ring cfg) s.relay

theorem known (hs : (camera cfg).Reachable s) : Known cfg s :=
  ⟨(born_inductive cfg).invariant s hs, Relay.relay_inv (relay_reachable hs)⟩

/-- A take of a busy buffer is where the camera gives up. -/
theorem gives_up (hk : Known cfg s) (h : step cfg s (.expo .genBuff) = some s')
    (hbusy : s.relay.pos ∈ s.relay.busy) : GivenUp s' := by
  cases step_cases h with
  | expo h => cases h with
      | genNull shot he hnull =>
          obtain ⟨c, hcir, -⟩ := hk.born.born (by rw [he]; exact ExpoPc.noConfusion)
          rw [hnull] at hcir
          cases hcir
      | genFull => exact ⟨rfl, .inl rfl⟩
      | gen shot c he hcir hfree =>
          refine absurd ?_ hfree
          simpa [Cam.relay, hcir] using hbusy

/-- Until it gives up, the camera takes free buffers only. -/
theorem spaced_inductive (cfg : Config) :
    (camera cfg).InductiveOn (Known cfg) fun s => GivenUp s ∨ Relay.Spaced (ring cfg) s.relay where
  init s h := .inr (.of_fresh (relay_fresh h))
  step s a s' hk hs h := by
    rcases hs with hover | hspaced
    · exact .inl (hover.step h)
    have hexpl := explained hk.born h
    cases hlab : s.relayAct a with
    | none =>
        simp only [Explains, TSys.Moves, hlab] at hexpl
        exact .inr (hexpl ▸ hspaced)
    | some b =>
        simp only [Explains, TSys.Moves, hlab] at hexpl
        by_cases htake : b = .take ∧ s.relay.pos ∈ s.relay.busy
        · obtain ⟨rfl, hbusy⟩ := htake
          obtain rfl := genBuff_of_take hlab
          exact .inl (gives_up hk h hbusy)
        · refine .inr (hspaced.step hk.inv ?_ hexpl)
          intro hb hbusy
          exact htake ⟨hb, hbusy⟩

/-- In every state in which the exposure thread gives up, every buffer of the ring is
waiting in `data_q`, if and only if the read-outs of the last `buf_cnt` passes have all
succeeded. -/
theorem overflow_full (cfg : Config) (s : Cam) (hs : (camera cfg).Reachable s)
    (hover : s.overflows) : RingFull cfg s ↔ LastLapAcquired cfg s := by
  obtain ⟨shot, c, he, hcir, hbusy⟩ := hover
  rcases (spaced_inductive cfg).invariant (fun _ h => known h) s hs with hgone | hspaced
  · rcases hgone.leaving with hgone | hgone <;> rw [he] at hgone <;> cases hgone
  · apply Relay.full_iff (known hs).inv hspaced
    · simp only [Cam.relay, he, ExpoPc.producer]
    · simpa [Cam.relay, hcir] using hbusy

/-- Whether the exposure thread is about to give up. -/
def Cam.isOverflow (s : Cam) : Bool :=
  match s.expo, s.cirBuf with
  | .gen _, some c => c.bufCurPos ∈ s.bufToProc
  | _, _ => false

theorem overflows_of_isOverflow (h : s.isOverflow = true) : s.overflows := by
  unfold Cam.isOverflow at h
  split at h
  next shot c he hcir => exact ⟨shot, c, he, hcir, by simpa using h⟩
  next => cases h

/-- An exposure, up to the choice of its buffer. -/
def exposeOnly : List Act := expose.dropLast

/-- Twenty frames that nobody takes off the queue, and a further exposure. -/
def fullRing : List Act :=
  startUp ++ (List.replicate 20 (expose ++ readOut fun _ => 1)).flatten ++ exposeOnly

theorem overflow_full_fullRing :
    ∃ s, s.overflows ∧ (RingFull shortExpo s ↔ LastLapAcquired shortExpo s) := by
  obtain ⟨s, hs, hshape⟩ := TSys.Reachable.of_exec (fresh_initial : (camera shortExpo).init _)
    (show ((camera shortExpo).exec Cam.fresh fullRing).any Cam.isOverflow = true
      by decide +kernel)
  have hover := overflows_of_isOverflow hshape
  exact ⟨s, hover, overflow_full shortExpo s hs hover⟩

/-- A read-out that fails. -/
def readOutFails : List Act :=
  [.expo .getDataBegin, .expo (.getDataEnd 1 (fun _ => 0) false 0 0), .expo .eraseBuf,
    .expo .incrExpoCnt]

/-- The second of twenty read-outs fails, and buffer 1 is free when the camera gives up. -/
def holeInRing : List Act :=
  startUp ++ (expose ++ readOut fun _ => 1) ++ (expose ++ readOutFails) ++
    (List.replicate 18 (expose ++ readOut fun _ => 1)).flatten ++ exposeOnly

theorem overflow_with_hole :
    ¬ ∀ s, (camera shortExpo).Reachable s → s.overflows → RingFull shortExpo s := by
  intro hall
  obtain ⟨s, hs, hshape⟩ := TSys.Reachable.of_exec (fresh_initial : (camera shortExpo).init _)
    (show ((camera shortExpo).exec Cam.fresh holeInRing).any
      (fun s => s.isOverflow && !(s.dataQ.map Frame.imgBuf).contains 1) = true by decide +kernel)
  rw [Bool.and_eq_true] at hshape
  have hfull := hall s hs (overflows_of_isOverflow hshape.1) 1 (by decide)
  simp [hfull] at hshape

end AutoExpo
