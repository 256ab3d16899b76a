import AutoExpo.Camera.Ends

/-!
# The end of both threads

Told to stop, the data thread saves what is queued and ends, as the exposure
thread does. `Cam.work` weighs what is left to do for the two together: a push
makes work for the data thread, but it is a step of the exposure thread, which
weighs more.

So both threads end, and what was pushed while the data thread had not ended is
saved by then, in order (`threads_end`). `shutdown_complete` says when that is
all there is.
-/

namespace AutoExpo

open Kit

/-- The way of the data thread to its end once the stop flag is up, the queue apart. -/
def DataPc.rank : DataPc → Nat
  | .unborn | .ended => 0
  | .drain => 1
  | .loop => 2
  | .pick => 3
  | .reading _ _ cached => if cached then 2 else 3
  | .saving _ cached => if cached then 3 else 4

/-- What is left to do for the two threads. -/
def Cam.work (s : Cam) : Nat := 5 * s.expo.rank + 4 * s.dataQ.length + s.data.rank

/-- A step of the data thread. -/
def Act.isData : Act → Bool
  | .data _ => true
  | _ => false

/-- A step of one of the two threads, WORKING polls apart. -/
def Act.moves (a : Act) : Bool := (a.isExpo && !a.isWorking) || a.isData

/-- Every lock, directory and file that the data thread waits for is there in the end. -/
def DataReturns {cfg : Config} (b : (camera cfg).Behaviour) : Prop :=
  ∀ i, (b.state i).data = .ended ∨ ∃ j, i ≤ j ∧ (b.act j).isData = true

variable {cfg : Config} {s s' : Cam}

/-! ## One step -/

@[simp] theorem store_data_rank (s : Cam) (b : Nat) (px : Pixels) :
    (s.store b px).data.rank = s.data.rank := by
  cases hd : s.data <;> simp [Cam.store, DataPc.rank, hd]

theorem ExpoStep.data_rank {a : ExpoAct} (h : ExpoStep cfg s a s') :
    s'.data.rank = s.data.rank := by
  rcases h.data with hd | ⟨b, px, hd⟩
  · rw [hd]
  · rw [hd, store_data_rank]

/-- The exposure thread queues one frame at a time, and is nearer to its end then. -/
theorem ExpoStep.queue {a : ExpoAct} (h : ExpoStep cfg s a s') :
    s'.dataQ = s.dataQ ∨
      s'.dataQ.length = s.dataQ.length + 1 ∧ s'.expo.rank < s.expo.rank := by
  cases h with
  | pushData f he =>
      refine .inr ⟨List.length_append, ?_⟩
      simp [he, ExpoPc.rank]
  | _ => exact .inl rfl

/-- A frame taken off the queue weighs more than what is done with it. -/
theorem takeFront_weight {f : Frame} {rest : List Frame} {cached : Bool}
    (hq : s.dataQ = f :: rest) (hlive : (s.takeFront f rest cached).crash = none) :
    4 * (s.takeFront f rest cached).dataQ.length + (s.takeFront f rest cached).data.rank ≤
      4 * s.dataQ.length := by
  rw [Cam.takeFront] at hlive ⊢
  split at hlive
  next hbusy =>
    rw [if_pos hbusy, hq, List.length_cons]
    cases cached <;> simp only [DataPc.rank, if_true, Bool.false_eq_true, if_false] <;> omega
  next => cases hlive

/-- With the flag up, every step of the data thread is one towards its end. -/
theorem DataStep.weight_lt {a : DataAct} (h : DataStep s a s') (hstop : s.thExpoStop = true)
    (hlive : s'.crash = none) :
    4 * s'.dataQ.length + s'.data.rank < 4 * s.dataQ.length + s.data.rank := by
  cases h with
  | loop hd hgo =>
      rw [hstop] at hgo
      cases hgo
  | leave hd | pickNone hd | finish hd =>
      rw [hd]
      exact Nat.add_lt_add_left (by simp [DataPc.rank]) _
  | pick f rest hd hq | drain f rest hd hq =>
      have hweight := takeFront_weight hq hlive
      rw [hd]
      exact Nat.lt_of_le_of_lt hweight (Nat.lt_add_of_pos_right (by simp [DataPc.rank]))
  | readBegin f cached hd | readEnd pick f seen cached hd =>
      rw [hd]
      refine Nat.add_lt_add_left ?_ _
      cases cached <;> simp [DataPc.rank]
  | saveAbort => cases hlive

/-- What a step of the process does to the work that is left. -/
theorem step_work {a : Act} (hs : Told s) (hdata : s.data ≠ .unborn)
    (h : step cfg s a = some s') (hlive : s'.crash = none) :
    s'.work ≤ s.work ∧ (a.moves = true → s'.work < s.work) := by
  obtain ⟨hle, hlt⟩ := step_rank hs h hlive
  rw [Cam.work, Cam.work]
  cases step_cases h with
  | @expo e _ h =>
      rw [h.data_rank]
      rcases h.queue with hq | ⟨hq, hrank⟩
      · rw [hq]
        refine ⟨by omega, ?_⟩
        intro hmoves
        have hother : (Act.expo e).isData = false := rfl
        rw [Act.moves, hother, Bool.or_false, Bool.and_eq_true, Bool.not_eq_true'] at hmoves
        have hrank := hlt hmoves.1 hmoves.2
        omega
      · rw [hq]
        exact ⟨by omega, fun _ => by omega⟩
  | data h =>
      have hexpo : s'.expo = s.expo := by rw [h.frame]
      have hweight := h.weight_lt hs.stop hlive
      rw [hexpo]
      exact ⟨by omega, fun _ => by omega⟩
  | main h =>
      cases h with
      | dataSavingStart hd => exact absurd hd hdata
      | expoLoopStart he => exact absurd he hs.born
      | raiseStop => exact ⟨Nat.le_refl _, fun hmoves => by cases hmoves⟩
  | rpc h =>
      rw [h.frame]
      exact ⟨Nat.le_refl _, fun hmoves => by cases hmoves⟩

/-! ## What has been pushed is saved -/

/-- Both threads have been started: the data thread first. -/
def DataFirst (s : Cam) : Prop := s.expo ≠ .unborn → s.data ≠ .unborn

theorem ExpoStep.data_born {a : ExpoAct} (h : ExpoStep cfg s a s') (hborn : s.data ≠ .unborn) :
    s'.data ≠ .unborn := by
  rcases h.data with hd | ⟨b, px, hd⟩
  · rw [hd]
    exact hborn
  · cases hdata : s.data <;> simp_all [Cam.store]

theorem DataStep.data_born {a : DataAct} (h : DataStep s a s') : s'.data ≠ .unborn := by
  cases h with
  | pick f rest hd | drain f rest hd =>
      rw [Cam.takeFront]
      split
      next => exact DataPc.noConfusion
      next =>
        intro hun
        rw [hd] at hun
        cases hun
  | readEnd _ _ _ cached => cases cached <;> exact DataPc.noConfusion
  | saveAbort f cached hd =>
      intro hun
      rcases hd with hd | ⟨seen, hd⟩ <;> rw [hd] at hun <;> cases hun
  | _ => exact DataPc.noConfusion

theorem data_first_inductive (cfg : Config) : (camera cfg).Inductive DataFirst where
  init s h := by
    obtain ⟨_, _, _, _, _, _, hexpo, _⟩ := h
    exact fun hborn => absurd hexpo hborn
  step s a s' _ hs h := by
    cases step_cases h with
    | main h => cases h with
        | dataSavingStart => exact fun _ => DataPc.noConfusion
        | expoLoopStart _ hd => exact fun _ => hd
        | raiseStop => exact hs
    | expo h => exact fun _ => h.data_born (hs h.born.1)
    | data h => exact fun _ => h.data_born
    | rpc h =>
        have hframe := h.frame
        exact hframe ▸ hs

/-- The frames `l` have been pushed, and handed to `save_data` if the data thread has ended. -/
structure Kept (l : List Frame) (s : Cam) : Prop where
  pushed : l <+: s.log.pushed
  handed : s.data = .ended → l <+: s.log.handed

theorem ExpoStep.log {a : ExpoAct} (h : ExpoStep cfg s a s') :
    s.log.pushed <+: s'.log.pushed ∧ s'.log.handed = s.log.handed := by
  cases h with
  | pushData => exact ⟨List.prefix_append _ _, rfl⟩
  | _ => exact ⟨List.prefix_refl _, rfl⟩

theorem takeFront_kept {l : List Frame} {f : Frame} {rest : List Frame} {cached : Bool}
    (hs : Kept l s) : Kept l (s.takeFront f rest cached) := by
  rw [Cam.takeFront]
  split
  next => exact ⟨hs.pushed, fun hd => by cases hd⟩
  next => exact ⟨hs.pushed, hs.handed⟩

/-- The data thread ends with the queue empty: what has been pushed has been handed on. -/
theorem DataStep.kept {l : List Frame} {a : DataAct} (h : DataStep s a s') (hs : Kept l s)
    (hfifo : s.log.pushed = s.log.handed ++ s.dataQ) : Kept l s' := by
  cases h with
  | finish _ hq =>
      refine ⟨hs.pushed, fun _ => ?_⟩
      have hpushed := hs.pushed
      rwa [hfifo, hq, List.append_nil] at hpushed
  | pick f rest | drain f rest => exact takeFront_kept hs
  | readEnd _ _ _ cached =>
      refine ⟨hs.pushed, fun hd => ?_⟩
      cases cached <;> cases hd
  | saveAbort => exact ⟨hs.pushed, hs.handed⟩
  | loop | leave | pickNone | readBegin => exact ⟨hs.pushed, fun hd => by cases hd⟩

theorem Kept.step {l : List Frame} {a : Act} (hs : Kept l s)
    (hfifo : s.log.pushed = s.log.handed ++ s.dataQ) (h : AutoExpo.step cfg s a = some s') :
    Kept l s' := by
  cases step_cases h with
  | main h => cases h with
      | dataSavingStart => exact ⟨hs.pushed, fun hd => by cases hd⟩
      | expoLoopStart | raiseStop => exact ⟨hs.pushed, hs.handed⟩
  | expo h =>
      obtain ⟨hpushed, hhanded⟩ := h.log
      refine ⟨hs.pushed.trans hpushed, fun hd => ?_⟩
      rw [hhanded]
      exact hs.handed (h.draining.2 hd)
  | data h => exact h.kept hs hfifo
  | rpc h =>
      rw [h.frame]
      exact ⟨hs.pushed, hs.handed⟩

/-- The data thread stays where it has ended. -/
theorem step_data_ended {a : Act} (hended : s.data = .ended)
    (h : AutoExpo.step cfg s a = some s') : s'.data = .ended := by
  cases step_cases h with
  | main h => cases h <;> simp_all
  | expo h =>
      rcases h.data with hd | ⟨b, px, hd⟩
      · rw [hd, hended]
      · simp [hd, Cam.store, hended]
  | data h => cases h <;> simp_all
  | rpc h => rw [h.frame, hended]

/-! ## The run -/

/-- Told to stop, both threads end, unless the camera answers WORKING for ever; what has
been pushed by the time the data thread ends has been saved then, in that order. -/
theorem threads_end (cfg : Config) (b : (camera cfg).Behaviour)
    (hreach : (camera cfg).Reachable (b.state 0)) (htold : Told (b.state 0)) (hret : Returns b)
    (hdret : DataReturns b) (hcam : ¬ WorksForEver b) :
    ∃ i, (b.state i).expo = .ended ∧ (b.state i).data = .ended ∧
      ∀ j, (b.state j).data ≠ .ended →
        (b.state j).log.pushed <+: (b.state i).log.saved.map Prod.fst := by
  have hreach' : ∀ i, (camera cfg).Reachable (b.state i) := fun i =>
    b.propagate (fun _ _ _ hs h => hs.step h) (Nat.zero_le i) hreach
  have htold' : ∀ i, Told (b.state i) := fun i =>
    b.propagate (fun _ _ _ hs h => hs.step h) (Nat.zero_le i) htold
  have hdata : ∀ i, (b.state i).data ≠ .unborn := fun i =>
    (data_first_inductive cfg).invariant _ (hreach' i) (htold' i).born
  have hwork := fun i => step_work (htold' i) (hdata i) (b.next i) (step_live (b.next (i + 1)))
  have hfinite : ∃ N, ∀ j, N ≤ j → ¬ (b.act j).moves = true :=
    TSys.finitely_many (m := fun i => (b.state i).work) (fun i => (hwork i).1)
      (fun i hi => (hwork i).2 hi)
  obtain ⟨N, hN⟩ := hfinite
  simp only [WorksForEver, not_forall, not_exists, not_and, Bool.not_eq_true] at hcam
  obtain ⟨M, hM⟩ := hcam
  -- from here on no thread moves, so both have ended
  have hexpo : (b.state (max N M)).expo = .ended := by
    rcases hret (max N M) with hended | ⟨j, hj, hown⟩
    · exact hended
    · have hno := hM j (Nat.le_trans (Nat.le_max_right N M) hj)
      refine absurd ?_ (hN j (Nat.le_trans (Nat.le_max_left N M) hj))
      simp [Act.moves, hown, hno]
  have hend : (b.state (max N M)).data = .ended := by
    rcases hdret (max N M) with hended | ⟨j, hj, hown⟩
    · exact hended
    · refine absurd ?_ (hN j (Nat.le_trans (Nat.le_max_left N M) hj))
      simp [Act.moves, hown]
  refine ⟨max N M, hexpo, hend, ?_⟩
  intro j hj
  have hbefore : j ≤ max N M := by
    by_contra hlate
    exact hj (b.propagate (fun _ _ _ hs h => step_data_ended hs h)
      (Nat.le_of_not_le hlate) hend)
  have hkept : Kept (b.state j).log.pushed (b.state (max N M)) :=
    (b.propagate (P := fun s => (camera cfg).Reachable s ∧ Kept (b.state j).log.pushed s)
      (fun s _ _ hs h => ⟨hs.1.step h, hs.2.step (bookkeeping cfg s hs.1).fifo h⟩) hbefore
      ⟨hreach' j, List.prefix_refl _, fun hd => absurd hd hj⟩).2
  have hsaved := Relay.relay_accounted (relay_reachable (hreach' (max N M)))
  simp only [Relay.State.Accounted, Cam.relay, hend, DataPc.consumer, Relay.Consumer.item,
    Option.toList_none, List.append_nil] at hsaved
  exact hsaved ▸ hkept.handed hend

/-- SIGINT after a read-out, before the data thread has looked at the queue. -/
def stopWhenQueued : List Act :=
  startUp ++ expose ++ readOut (fun _ => 1) ++ [.main (.raiseStop .sigint)]

/-- The exposure thread leaves, the data thread saves the frame and leaves too. -/
def bothLeave : List Act :=
  [.expo .head, .data .loop, .data .drain] ++ saveFrame ++ [.data .drain]

theorem threads_end_stopWhenQueued :
    ∃ b : (camera shortExpo).Behaviour, (b.state 0).log.pushed.length = 1 ∧
      ∃ i, (b.state i).expo = .ended ∧ (b.state i).data = .ended ∧
        (b.state 0).log.pushed <+: (b.state i).log.saved.map Prod.fst := by
  obtain ⟨s, hs, hshape⟩ := TSys.Reachable.of_exec (fresh_initial : (camera shortExpo).init _)
    (show ((camera shortExpo).exec Cam.fresh stopWhenQueued).any
      (fun s => s.expo = .head && s.thExpoStop && s.log.pushed.length = 1 && !s.data.isEnded &&
        s.crash = none && ((camera shortExpo).exec s bothLeave).any
          (fun t => t.thExpoStop && t.crash = none && t.data.isEnded)) = true
      by decide +kernel)
  simp only [Bool.and_eq_true, decide_eq_true_eq, Bool.not_eq_true'] at hshape
  obtain ⟨⟨⟨⟨⟨hhead, hstop⟩, hlen⟩, hdata⟩, hlive⟩, hrun⟩ := hshape
  obtain ⟨t, hrun, ht⟩ := TSys.exec_any hrun
  simp only [Bool.and_eq_true, decide_eq_true_eq] at ht
  obtain ⟨⟨htstop, htlive⟩, htdata⟩ := ht
  have hstay : (camera shortExpo).step t (.main (.raiseStop .sigint)) = some t :=
    raiseStop_again htlive htstop
  let b := TSys.Behaviour.replay bothLeave hrun hstay
  have hlast : ∀ i, 6 ≤ i → b.state i = t ∧ b.act i = .main (.raiseStop .sigint) := fun i hi =>
    TSys.Behaviour.replay_end hrun hstay hi
  have hone : (b.state 1).expo = .ended := by
    have hnext : step shortExpo s (.expo .head) = some (b.state 1) := b.next 0
    rw [step_of_live hlive] at hnext
    simp only [expoStep, hhead, hstop, if_true, Option.some.injEq] at hnext
    rw [← hnext]
  have hret : Returns b := by
    intro i
    cases i with
    | zero => exact .inr ⟨0, Nat.le_refl 0, rfl⟩
    | succ i =>
        exact .inl (b.propagate (fun _ _ _ hs h => (ended_not_working hs h).2)
          (Nat.succ_le_succ (Nat.zero_le i)) hone)
  have hdret : DataReturns b := by
    intro i
    by_cases hi : i ≤ 5
    · exact .inr ⟨5, hi, rfl⟩
    · left
      rw [(hlast i (Nat.lt_of_not_le hi)).1]
      exact isEnded_iff.mp htdata
  have hcam : ¬ WorksForEver b := by
    intro hworks
    obtain ⟨j, hj, hworking⟩ := hworks 6
    rw [(hlast j hj).2] at hworking
    cases hworking
  obtain ⟨i, hexpo, hended, hsaved⟩ := threads_end shortExpo b hs
    ⟨by show s.expo ≠ _; rw [hhead]; exact ExpoPc.noConfusion, hstop⟩ hret hdret hcam
  refine ⟨b, hlen, i, hexpo, hended, hsaved 0 ?_⟩
  intro hd
  have htrue : s.data.isEnded = true := isEnded_iff.mpr hd
  rw [hdata] at htrue
  cases htrue

end AutoExpo
