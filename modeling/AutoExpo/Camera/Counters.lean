import AutoExpo.Camera.Shutdown

/-!
# The exposure counters

`start_expo` and `stop_expo` steer the exposure thread through `loop_cnt` and
`expo_cnt` alone: two plain stores each, while the thread tests the counters at
its loop head and increments one of them at the end of a pass. `CountStep` says
once what a step of the thread does to the counters; the two properties below
are read off it.

* `reset_expo_count(N)` gives exactly `N` exposures if and only if, when it
  stores 0 into `expo_cnt`, the exposures started since the call began are the
  ones in flight (`reset_exact`).
* `stop_expo_count` holds if its last store does not find the thread between its
  loop test and `ASIStartExposure`, nor `expo_cnt` where it wraps to 0
  (`stop_holds`).
-/

namespace AutoExpo

open Kit

/-! ## What a step does to the counters -/

/-- The exposure loop as the counters see it. `tested` is between the loop test
and `ASIStartExposure`. -/
inductive Phase
  | outside
  | atTest
  | tested
  | inFlight
  | finished
  deriving DecidableEq

def ExpoPc.phase : ExpoPc → Phase
  | .unborn | .coolSleep | .coolLoop _ | .coolTik _ _ | .head | .idle => .outside
  | .test => .atTest
  | .start => .tested
  | .expoWait _ _ | .poll _ | .gen _ | .getData _ _ _ _ | .filling _ _ _ _ | .eraseBuf _
  | .push _ | .incr => .inFlight
  | .ended => .finished

/-- `ASIStartExposure` is called. -/
def Act.isStart : Act → Bool
  | .expo (.startExposure _ _ _) => true
  | _ => false

def Act.isResetCall : Act → Bool
  | .rpc (.resetCall _) => true
  | _ => false

def Act.isRequest : Act → Bool
  | .rpc (.resetCall _) | .rpc .stopCall => true
  | _ => false

/-- The number of exposures started in a run. -/
def starts (ls : List Act) : Nat := ls.countP Act.isStart

/-- What a step of the exposure thread does to its phase and to `expo_cnt`; the
index tells whether it starts an exposure. -/
inductive CountStep (s s' : Cam) : Bool → Prop
  | stay : s'.expo.phase = s.expo.phase → s'.expoCnt = s.expoCnt → CountStep s s' false
  | enter : s.expo.phase = .outside → s'.expo.phase = .atTest → s.thExpoStop = false →
      s'.expoCnt = s.expoCnt → CountStep s s' false
  | leave : s.expo.phase = .outside → s'.expo.phase = .finished → s'.expoCnt = s.expoCnt →
      CountStep s s' false
  | done : s.expo.phase = .atTest → (s'.expo.phase = .outside ∨ s'.expo.phase = .finished) →
      s.targetReached = true → s'.expoCnt = s.expoCnt → CountStep s s' false
  | pass : s.expo.phase = .atTest → s'.expo.phase = .tested → s.targetReached = false →
      s'.expoCnt = s.expoCnt → CountStep s s' false
  | start : s.expo.phase = .tested → s'.expo.phase = .inFlight → s'.expoCnt = s.expoCnt →
      CountStep s s' true
  | count : s.expo.phase = .inFlight → s'.expo.phase = .outside →
      s'.expoCnt = s.expoCnt + 1 → CountStep s s' false
  | overflow : s.expo.phase = .inFlight → s'.expo.phase = .outside → s'.thExpoStop = true →
      s'.expoCnt = s.expoCnt → CountStep s s' false

theorem ExpoStep.counts {cfg : Config} {s s' : Cam} {a : ExpoAct} (h : ExpoStep cfg s a s') :
    CountStep s s' (Act.isStart (.expo a)) := by
  cases h with
  | leave he => exact .leave (by simp [he, ExpoPc.phase]) rfl rfl
  | enter he hlive => exact .enter (by simp [he, ExpoPc.phase]) rfl hlive rfl
  | done he hdone =>
      refine .done (by simp [he, ExpoPc.phase]) ?_ hdone rfl
      cases cfg.keepRunning <;> simp [ExpoPc.phase]
  | pass he hopen => exact .pass (by simp [he, ExpoPc.phase]) rfl hopen rfl
  | startExposure _ _ _ he => exact .start (by simp [he, ExpoPc.phase]) rfl rfl
  | genFull _ _ he => exact .overflow (by simp [he, ExpoPc.phase]) rfl rfl rfl
  | incrExpoCnt he => exact .count (by simp [he, ExpoPc.phase]) rfl rfl
  | sdkStore | working | genNull => exact .stay rfl rfl
  | coolSleep he | cooled _ _ he | coolOn _ _ he | coolTikDone _ _ he | coolTik _ _ he
  | idleSleep he | expoWaitDone _ _ he | expoWait _ _ he | polled _ _ _ _ _ he | gen _ _ he
  | getDataBegin _ _ _ _ he | getDataOk _ _ _ _ _ _ _ _ he | getDataFail _ _ _ _ _ _ _ _ _ he
  | eraseBuf _ he | pushData _ he => exact .stay (by simp [he, ExpoPc.phase]) rfl

/-- Whatever thread moves, with no request in progress and none arriving, the
target stays and the counter changes by a `CountStep`. -/
theorem quiet_step {cfg : Config} {s s' : Cam} {a : Act} (h : step cfg s a = some s')
    (hborn : s.expo ≠ .unborn) (hidle : s.rpc = .idle) (hreq : a.isRequest = false) :
    s'.expo ≠ .unborn ∧ s'.rpc = .idle ∧ s'.loopCnt = s.loopCnt ∧
      CountStep s s' a.isStart := by
  cases step_cases h with
  | main h =>
      have hframe := h.frame hborn
      exact ⟨hframe ▸ hborn, hframe ▸ hidle, hframe ▸ rfl, .stay (hframe ▸ rfl) (hframe ▸ rfl)⟩
  | data h =>
      have hframe := h.frame
      exact ⟨hframe ▸ hborn, hframe ▸ hidle, hframe ▸ rfl, .stay (hframe ▸ rfl) (hframe ▸ rfl)⟩
  | expo h =>
      have hframe := h.frame
      exact ⟨h.born.2, hframe ▸ hidle, hframe ▸ rfl, h.counts⟩
  | rpc h => cases h with
      | resetCall | stopCall => simp [Act.isRequest] at hreq
      | resetLoopCnt _ hr | resetExpoCnt _ hr | stopExpoCnt hr | stopLoopCnt hr =>
          rw [hidle] at hr
          cases hr

/-! ## `start_expo`: `reset_expo_count` -/

/-- The exposure thread waits for a new target. -/
def Cam.AtRest (s : Cam) : Prop :=
  (s.expo = .head ∨ s.expo = .idle) ∧ s.targetReached = true

instance (s : Cam) : Decidable s.AtRest := inferInstanceAs (Decidable (_ ∧ _))

/-- Exposures started and not yet counted. -/
def Phase.owed : Phase → Nat
  | .inFlight => 1
  | _ => 0

/-- Exposures that are past the loop test and not yet counted. -/
def Phase.pending : Phase → Nat
  | .tested | .inFlight => 1
  | _ => 0

/-- The thread counts up to `n`: `k` exposures have to be counted so far, those
in flight included. -/
structure CountingTo (n : ULong) (k : Nat) (s : Cam) : Prop where
  born : s.expo ≠ .unborn
  idle : s.rpc = .idle
  target : s.loopCnt = n
  count : s.thExpoStop = true ∨
    (s.expoCnt.toNat + s.expo.phase.owed = k ∧ s.expoCnt.toNat + s.expo.phase.pending ≤ n.toNat)

theorem targetReached_iff {s : Cam} {n : ULong} (hn : n ≠ 0) (htarget : s.loopCnt = n) :
    s.targetReached = true ↔ n.toNat ≤ s.expoCnt.toNat := by
  have hpos : 0 < n.toNat := by
    rcases Nat.eq_zero_or_pos n.toNat with h | h
    · exact absurd (BitVec.eq_of_toNat_eq (by simpa using h)) hn
    · exact h
  simp [Cam.targetReached, htarget, BitVec.lt_def, BitVec.le_def, hpos]

theorem toNat_succ {e n : ULong} (h : e.toNat + 1 ≤ n.toNat) : (e + 1).toNat = e.toNat + 1 := by
  have hlt := n.isLt
  have hone : (1 : ULong).toNat = 1 := rfl
  rw [BitVec.toNat_add, hone]
  exact Nat.mod_eq_of_lt (by omega)

theorem CountingTo.next {cfg : Config} {n : ULong} {k : Nat} {s s' : Cam} {a : Act} (hn : n ≠ 0)
    (hs : CountingTo n k s) (h : step cfg s a = some s') (hreq : a.isRequest = false) :
    CountingTo n (k + a.isStart.toNat) s' := by
  obtain ⟨hborn, hidle, htarget, hstep⟩ := quiet_step h hs.born hs.idle hreq
  refine ⟨hborn, hidle, htarget.trans hs.target, ?_⟩
  rcases hs.count with hstop | ⟨hcount, hbound⟩
  · exact .inl (step_stop h hstop)
  · generalize a.isStart = started at hstep
    cases hstep with
    | stay hphase hcnt => exact .inr (by simp [hphase, hcnt, hcount, hbound])
    | enter h₁ h₂ _ hcnt | leave h₁ h₂ hcnt =>
        right
        simp only [h₁, h₂, hcnt, Phase.owed, Phase.pending] at hcount hbound ⊢
        exact ⟨hcount, hbound⟩
    | done h₁ h₂ _ hcnt =>
        right
        rcases h₂ with h₂ | h₂ <;>
          simp only [h₁, h₂, hcnt, Phase.owed, Phase.pending] at hcount hbound ⊢ <;>
          exact ⟨hcount, hbound⟩
    | pass h₁ h₂ hopen hcnt =>
        right
        -- the loop test was open: one more still fits under the target
        have hlt : s.expoCnt.toNat < n.toNat := by
          rw [← Nat.not_le, ← targetReached_iff hn hs.target, hopen]
          exact Bool.false_ne_true
        simp only [h₁, h₂, hcnt, Phase.owed, Phase.pending] at hcount ⊢
        exact ⟨hcount, hlt⟩
    | start h₁ h₂ hcnt =>
        right
        simp only [h₁, h₂, hcnt, Phase.owed, Phase.pending, Bool.toNat_true] at hcount hbound ⊢
        exact ⟨by omega, hbound⟩
    | count h₁ h₂ hcnt =>
        right
        simp only [h₁, h₂, hcnt, Phase.owed, Phase.pending] at hcount hbound ⊢
        -- the counter is still below the target, so it does not wrap
        rw [toNat_succ hbound]
        exact ⟨hcount, hbound⟩
    | overflow _ _ hstop _ => exact .inl hstop

theorem starts_cons (a : Act) (ls : List Act) : starts (a :: ls) = starts ls + a.isStart.toNat := by
  cases h : a.isStart <;> simp [starts, h]

theorem starts_append (ls ls' : List Act) : starts (ls ++ ls') = starts ls + starts ls' :=
  List.countP_append

theorem CountingTo.run {cfg : Config} {n : ULong} {k : Nat} {s t : Cam} {ls : List Act}
    (hn : n ≠ 0) (hs : CountingTo n k s) (hrun : (camera cfg).exec s ls = some t)
    (hreq : ∀ a ∈ ls, a.isRequest = false) : CountingTo n (k + starts ls) t := by
  induction ls generalizing s k with
  | nil =>
      rw [TSys.exec_nil, Option.some.injEq] at hrun
      exact hrun ▸ hs
  | cons a rest ih =>
      obtain ⟨s', hstep, hrest⟩ := (camera cfg).exec_cons_some.mp hrun
      have hrestReq : ∀ b ∈ rest, b.isRequest = false := by
        intro b hb
        exact hreq b (List.mem_cons_of_mem _ hb)
      have hnext := ih (hs.next hn hstep (hreq a List.mem_cons_self)) hrest hrestReq
      rw [starts_cons]
      rwa [show k + (starts rest + a.isStart.toNat) = k + a.isStart.toNat + starts rest by omega]

/-- At rest the thread has counted exactly up to the target. -/
theorem CountingTo.atRest {n : ULong} {k : Nat} {s : Cam} (hn : n ≠ 0) (hs : CountingTo n k s)
    (hlive : s.thExpoStop = false) (hrest : s.AtRest) : k = n.toNat := by
  obtain ⟨hpc, hreached⟩ := hrest
  have hphase : s.expo.phase = .outside := by
    rcases hpc with hpc | hpc <;> simp [hpc, ExpoPc.phase]
  rcases hs.count with hstop | ⟨hcount, hbound⟩
  · rw [hlive] at hstop
    cases hstop
  · have hge := (targetReached_iff hn hs.target).mp hreached
    simp only [hphase, Phase.owed, Phase.pending] at hcount hbound
    omega

/-- While `reset_expo_count(n)` is between its stores. -/
def Resetting (n : ULong) (s : Cam) : Prop :=
  s.expo ≠ .unborn ∧
    (s.rpc = .resetLoop n ∨ (s.rpc = .resetExpo n ∧ s.loopCnt = n) ∨ s.rpc = .idle)

theorem Resetting.next {cfg : Config} {n : ULong} {s s' : Cam} {a : Act} (hs : Resetting n s)
    (h : step cfg s a = some s') (hreq : a.isRequest = false) : Resetting n s' := by
  obtain ⟨hborn, hrpc⟩ := hs
  cases step_cases h with
  | main h =>
      rw [h.frame hborn]
      exact ⟨hborn, hrpc⟩
  | data h =>
      rw [h.frame]
      exact ⟨hborn, hrpc⟩
  | expo h =>
      refine ⟨h.born.2, ?_⟩
      rw [h.frame]
      exact hrpc
  | rpc h => cases h with
      | resetCall | stopCall => simp [Act.isRequest] at hreq
      | resetLoopCnt m hm =>
          have heq : m = n := by
            rcases hrpc with hrpc | ⟨hrpc, _⟩ | hrpc <;> rw [hm] at hrpc <;> cases hrpc
            rfl
          exact ⟨hborn, .inr (.inl ⟨by rw [heq], heq⟩)⟩
      | resetExpoCnt => exact ⟨hborn, .inr (.inr rfl)⟩
      | stopExpoCnt hm | stopLoopCnt hm =>
          rcases hrpc with hrpc | ⟨hrpc, _⟩ | hrpc <;> rw [hm] at hrpc <;> cases hrpc

/-- The second store of `reset_expo_count(n)` starts the count at 0, with the
exposures in flight still to be counted. -/
theorem Resetting.store {cfg : Config} {n : ULong} {s s' : Cam} (hn : n ≠ 0)
    (hs : Resetting n s) (h : step cfg s (.rpc .resetExpoCnt) = some s') :
    CountingTo n s.expo.phase.owed s' := by
  obtain ⟨hborn, hrpc⟩ := hs
  cases step_cases h with
  | rpc h => cases h with
      | resetExpoCnt m hm =>
          have htarget : s.loopCnt = n := by
            rcases hrpc with hrpc | ⟨_, htarget⟩ | hrpc
            · rw [hm] at hrpc
              cases hrpc
            · exact htarget
            · rw [hm] at hrpc
              cases hrpc
          have hpos : 1 ≤ n.toNat := by
            rw [Nat.one_le_iff_ne_zero]
            intro hzero
            exact hn (BitVec.eq_of_toNat_eq hzero)
          refine ⟨hborn, rfl, htarget, .inr ⟨by simp, ?_⟩⟩
          cases s.expo.phase <;> simp [Phase.pending, hpos]

/-- One call of `reset_expo_count(n)` on a started camera, followed to a later
state in which the thread is at rest: no other request has come and the stop
flag has stayed down. `during` is what the other threads do between the call
and its second store, taken in `mid`; `after` is what follows. -/
structure ResetServed (cfg : Config) (n : ULong) (s mid t : Cam) (during after : List Act) :
    Prop where
  born : s.expo ≠ .unborn
  called : ∃ s', step cfg s (.rpc (.resetCall n)) = some s' ∧
    (camera cfg).exec s' during = some mid
  stored : ∃ s', step cfg mid (.rpc .resetExpoCnt) = some s' ∧
    (camera cfg).exec s' after = some t
  noRequest : ∀ a ∈ during ++ after, a.isRequest = false
  live : t.thExpoStop = false
  rest : t.AtRest

/-- `start_expo/n` has started `n` exposures when the thread comes to rest if
and only if, at the second store, the exposures started since the call began are
the ones in flight. -/
theorem reset_exact (cfg : Config) (n : ULong) (hn : n ≠ 0) {s mid t : Cam}
    {during after : List Act} (hserved : ResetServed cfg n s mid t during after) :
    starts (during ++ after) = n.toNat ↔ starts during = mid.expo.phase.owed := by
  obtain ⟨s₁, hcall, hduring⟩ := hserved.called
  obtain ⟨s₃, hstore, hafter⟩ := hserved.stored
  have hresetting : Resetting n s₁ := by
    cases step_cases hcall with
    | rpc h => cases h; exact ⟨hserved.born, .inl rfl⟩
  have hreqDuring : ∀ a ∈ during, a.isRequest = false := by
    intro a ha
    exact hserved.noRequest a (List.mem_append_left _ ha)
  have hreqAfter : ∀ a ∈ after, a.isRequest = false := by
    intro a ha
    exact hserved.noRequest a (List.mem_append_right _ ha)
  have hmid : Resetting n mid := TSys.exec_keeps_where
    (fun _ _ _ hreq hs h => hs.next h hreq) hduring hreqDuring hresetting
  have hcount := (hmid.store hn hstore).run hn hafter hreqAfter
  have htotal := hcount.atRest hn hserved.live hserved.rest
  rw [starts_append]
  omega

/-- A replayed call, checked at its ends. -/
theorem ResetServed.of_exec {cfg : Config} {n : ULong} {s : Cam} {during after : List Act}
    (hborn : s.expo ≠ .unborn) (hreq : ∀ a ∈ during ++ after, a.isRequest = false)
    (hrun : ((camera cfg).exec s
      (.rpc (.resetCall n) :: during ++ .rpc .resetExpoCnt :: after)).any
        (fun t => !t.thExpoStop && t.AtRest) = true) :
    ∃ mid t, ResetServed cfg n s mid t during after := by
  obtain ⟨t, ht, hshape⟩ := TSys.exec_any hrun
  simp only [Bool.and_eq_true, Bool.not_eq_true', decide_eq_true_eq] at hshape
  obtain ⟨mid, hmid, hrest⟩ := TSys.exec_append_some _ |>.mp ht
  obtain ⟨s₁, hcall, hduring⟩ := TSys.exec_cons_some _ |>.mp hmid
  obtain ⟨s₃, hstore, hafter⟩ := TSys.exec_cons_some _ |>.mp hrest
  exact ⟨mid, t, hborn, ⟨s₁, hcall, hduring⟩, ⟨s₃, hstore, hafter⟩, hreq, hshape.1, hshape.2⟩

/-- Two exposures asked of a thread that waits at its loop head. -/
theorem reset_exact_two :
    ∃ s mid t after, ResetServed shortExpo 2 s mid t [.rpc .resetLoopCnt] after ∧
      (starts ([.rpc .resetLoopCnt] ++ after) = 2 ↔ 0 = mid.expo.phase.owed) := by
  obtain ⟨s, _, hs⟩ := TSys.exec_any
    (show ((camera shortExpo).exec Cam.fresh startUp).any (fun s => s.expo ≠ .unborn &&
      ((camera shortExpo).exec s
        (.rpc (.resetCall 2) :: [.rpc .resetLoopCnt] ++ .rpc .resetExpoCnt ::
          (expose ++ readOut (fun _ => 1) ++ expose ++ readOut fun _ => 2))).any
            (fun t => !t.thExpoStop && t.AtRest)) = true by decide +kernel)
  simp only [Bool.and_eq_true, decide_eq_true_eq] at hs
  obtain ⟨mid, t, hserved⟩ := ResetServed.of_exec hs.1 (by decide) hs.2
  exact ⟨s, mid, t, _, hserved, reset_exact shortExpo 2 (by decide) hserved⟩

/-- What a request of `n` exposures promises on its own. -/
def TakesExactly (cfg : Config) : Prop :=
  ∀ (n : ULong) (s mid t : Cam) (during after : List Act), n ≠ 0 → (camera cfg).Reachable s →
    ResetServed cfg n s mid t during after → starts (during ++ after) = n.toNat

/-- An exposure in flight when `expo_cnt` is zeroed is counted for the request: of one
exposure asked for, none is started. -/
theorem reset_in_flight : shortExpo.keepRunning = true ∧ ¬ TakesExactly shortExpo := by
  refine ⟨rfl, ?_⟩
  intro hall
  obtain ⟨s, hrun, hs⟩ := TSys.exec_any
    (show ((camera shortExpo).exec Cam.fresh
      (startUp ++ [.expo .head, .expo .test, .expo (.startExposure ASI_SUCCESS 0 0)])).any
        (fun s => s.expo ≠ .unborn && ((camera shortExpo).exec s
          (.rpc (.resetCall 1) :: [.rpc .resetLoopCnt] ++ .rpc .resetExpoCnt ::
            ([.expo .expoWait, .expo (.getExpStatus ASI_SUCCESS .success false 0),
              .expo .genBuff] ++ readOut fun _ => 1))).any
                (fun t => !t.thExpoStop && t.AtRest)) = true by decide +kernel)
  simp only [Bool.and_eq_true, decide_eq_true_eq] at hs
  obtain ⟨mid, t, hserved⟩ := ResetServed.of_exec hs.1 (by decide) hs.2
  have hreach := (TSys.Reachable.init (fresh_initial : (camera shortExpo).init _)).exec hrun
  exact absurd (hall 1 s mid t _ _ (by decide) hreach hserved) (by decide)

/-! ## `stop_expo`: `stop_expo_count` -/

/-- The target is 1 and the counter is past it, with the exposures in flight
counted: nothing the thread does can start another. The thread is not between
its loop test and `ASIStartExposure` either. -/
def stopHolds (s : Cam) : Bool :=
  match s.expo.phase with
  | .outside => s.thExpoStop || s.expoCnt != 0
  | .atTest => s.expoCnt != 0
  | .tested => false
  | .inFlight => s.thExpoStop || s.expoCnt != ULONG_MAX
  | .finished => true

theorem stopHolds_stay {s s' : Cam} (hphase : s'.expo.phase = s.expo.phase)
    (hcnt : s'.expoCnt = s.expoCnt) (hstop : s.thExpoStop = true → s'.thExpoStop = true)
    (hs : stopHolds s = true) : stopHolds s' = true := by
  unfold stopHolds at hs ⊢
  rw [hphase, hcnt]
  cases hp : s.expo.phase with
  | outside | inFlight =>
      simp only [hp, Bool.or_eq_true] at hs ⊢
      exact hs.imp_left hstop
  | atTest | tested =>
      simp only [hp] at hs ⊢
      exact hs
  | finished => rfl

/-- With the target at 1, a pass is begun only while nothing has been counted. -/
theorem expoCnt_zero_of_open {s : Cam} (htarget : s.loopCnt = 1)
    (hopen : s.targetReached = false) : s.expoCnt = 0 := by
  have hnot : ¬ (1 : ULong).toNat ≤ s.expoCnt.toNat := by
    rw [← targetReached_iff (by decide) htarget, hopen]
    exact Bool.false_ne_true
  have hone : (1 : ULong).toNat = 1 := rfl
  have hlt : s.expoCnt.toNat < 1 := by rwa [hone, Nat.not_le] at hnot
  exact BitVec.eq_of_toNat_eq (Nat.lt_one_iff.mp hlt)

/-- The counter comes back to 0 only from its largest value. -/
theorem eq_max_of_succ_eq_zero {e : ULong} (h : e + 1 = 0) : e = ULONG_MAX := by
  have hmax : ULONG_MAX.toNat = 2 ^ 64 - 1 := by decide
  have hsum := congrArg BitVec.toNat h
  have hone : (1 : ULong).toNat = 1 := rfl
  have hzero : (0 : ULong).toNat = 0 := rfl
  rw [BitVec.toNat_add, hone, hzero] at hsum
  have hlt := e.isLt
  apply BitVec.eq_of_toNat_eq
  omega

/-- No step of the exposure thread leaves `stopHolds`, and none starts an exposure there. -/
theorem CountStep.staysHalted {s s' : Cam} {started : Bool} (hstep : CountStep s s' started)
    (hstop : s.thExpoStop = true → s'.thExpoStop = true) (htarget : s.loopCnt = 1)
    (hs : stopHolds s = true) : started = false ∧ stopHolds s' = true := by
  cases hstep with
  | stay hphase hcnt => exact ⟨rfl, stopHolds_stay hphase hcnt hstop hs⟩
  | enter h₁ h₂ hlive hcnt =>
      simp only [stopHolds, h₁, hlive, Bool.false_or] at hs
      exact ⟨rfl, by simpa only [stopHolds, h₂, hcnt] using hs⟩
  | leave h₁ h₂ hcnt => exact ⟨rfl, by simp only [stopHolds, h₂]⟩
  | done h₁ h₂ _ hcnt =>
      simp only [stopHolds, h₁] at hs
      refine ⟨rfl, ?_⟩
      rcases h₂ with h₂ | h₂
      · simp only [stopHolds, h₂, hcnt, hs, Bool.or_true]
      · simp only [stopHolds, h₂]
  | pass h₁ h₂ hopen hcnt =>
      simp only [stopHolds, h₁, bne_iff_ne] at hs
      exact absurd (expoCnt_zero_of_open htarget hopen) hs
  | start h₁ h₂ hcnt =>
      simp only [stopHolds, h₁] at hs
      cases hs
  | count h₁ h₂ hcnt =>
      simp only [stopHolds, h₁, Bool.or_eq_true, bne_iff_ne] at hs
      refine ⟨rfl, ?_⟩
      simp only [stopHolds, h₂, hcnt, Bool.or_eq_true, bne_iff_ne]
      apply hs.imp hstop
      intro hne hzero
      exact hne (eq_max_of_succ_eq_zero hzero)
  | overflow h₁ h₂ hhalted hcnt =>
      exact ⟨rfl, by simp only [stopHolds, h₂, hhalted, Bool.true_or]⟩

/-- `stop_expo_count` has returned and no `reset_expo_count` has followed. -/
structure Halted (s : Cam) : Prop where
  born : s.expo ≠ .unborn
  target : s.loopCnt = 1
  noReset : s.rpc = .idle ∨ s.rpc = .stopExpo ∨ s.rpc = .stopLoop
  holds : stopHolds s = true

/-- The stores of a further `stop_expo_count` keep the counter off 0 and off its
largest value. -/
theorem Halted.rpc {s s' : Cam} {a : RpcAct} (hs : Halted s) (h : RpcStep s a s')
    (hreset : (Act.rpc a).isResetCall = false) : Halted s' := by
  cases h with
  | resetCall => simp [Act.isResetCall] at hreset
  | resetLoopCnt _ hr | resetExpoCnt _ hr =>
      rcases hs.noReset with hrpc | hrpc | hrpc <;> rw [hr] at hrpc <;> cases hrpc
  | stopCall => exact ⟨hs.born, hs.target, .inr (.inl rfl), hs.holds⟩
  | stopExpoCnt =>
      refine ⟨hs.born, hs.target, .inr (.inr rfl), ?_⟩
      have hholds := hs.holds
      have hzero : (ULONG_MAX - 1 != 0) = true := by decide
      have hmax : (ULONG_MAX - 1 != ULONG_MAX) = true := by decide
      unfold stopHolds at hholds ⊢
      cases hp : s.expo.phase with
      | tested => simp only [hp] at hholds; cases hholds
      | outside | atTest | inFlight | finished => simp only [hzero, hmax, Bool.or_true]
  | stopLoopCnt => exact ⟨hs.born, rfl, .inl rfl, hs.holds⟩

theorem Halted.next {cfg : Config} {s s' : Cam} {a : Act} (hs : Halted s)
    (h : step cfg s a = some s') (hreset : a.isResetCall = false) :
    Halted s' ∧ a.isStart = false := by
  have hstop := step_stop h
  cases step_cases h with
  | rpc h => exact ⟨hs.rpc h hreset, rfl⟩
  | main h =>
      have hframe := h.frame hs.born
      refine ⟨⟨hframe ▸ hs.born, hframe ▸ hs.target, hframe ▸ hs.noReset, ?_⟩, rfl⟩
      exact stopHolds_stay (hframe ▸ rfl) (hframe ▸ rfl) hstop hs.holds
  | data h =>
      have hframe := h.frame
      refine ⟨⟨hframe ▸ hs.born, hframe ▸ hs.target, hframe ▸ hs.noReset, ?_⟩, rfl⟩
      exact stopHolds_stay (hframe ▸ rfl) (hframe ▸ rfl) hstop hs.holds
  | expo h =>
      have hframe := h.frame
      obtain ⟨hstart, hholds⟩ := h.counts.staysHalted hstop hs.target hs.holds
      exact ⟨⟨h.born.2, hframe ▸ hs.target, hframe ▸ hs.noReset, hholds⟩, hstart⟩

/-- No run without a `reset_expo_count` starts an exposure. -/
theorem Halted.run {cfg : Config} {s t : Cam} {ls : List Act} (hs : Halted s)
    (hrun : (camera cfg).exec s ls = some t) (hreset : ∀ a ∈ ls, a.isResetCall = false) :
    starts ls = 0 := by
  induction ls generalizing s with
  | nil => rfl
  | cons a rest ih =>
      obtain ⟨s', hstep, hrest⟩ := (camera cfg).exec_cons_some.mp hrun
      obtain ⟨hnext, hstart⟩ := hs.next hstep (hreset a List.mem_cons_self)
      have hrestReset : ∀ b ∈ rest, b.isResetCall = false := by
        intro b hb
        exact hreset b (List.mem_cons_of_mem _ hb)
      rw [starts_cons, hstart, ih hnext hrest hrestReset]
      rfl

/-- One call of `stop_expo_count` on a started camera: its last store is made in
`s`, and `after` follows without a `reset_expo_count`. -/
structure StopServed (cfg : Config) (s t : Cam) (after : List Act) : Prop where
  reach : (camera cfg).Reachable s
  born : s.expo ≠ .unborn
  stored : ∃ s', step cfg s (.rpc .stopLoopCnt) = some s' ∧ (camera cfg).exec s' after = some t
  noReset : ∀ a ∈ after, a.isResetCall = false

/-- `stop_expo` holds until the next `start_expo` when its last store does not
find the thread on its way into `ASIStartExposure`. -/
theorem stop_holds (cfg : Config) {s t : Cam} {after : List Act}
    (hserved : StopServed cfg s t after) (hcond : stopHolds s = true) : starts after = 0 := by
  obtain ⟨s', hstore, hafter⟩ := hserved.stored
  have hhalted : Halted s' := by
    cases step_cases hstore with
    | rpc h => cases h; exact ⟨hserved.born, rfl, .inl rfl, hcond⟩
  exact hhalted.run hafter hserved.noReset

/-- A replayed call, checked at its ends. -/
theorem StopServed.of_exec {cfg : Config} {front after : List Act} {p : Cam → Bool}
    (hreset : ∀ a ∈ after, a.isResetCall = false)
    (hrun : ((camera cfg).exec Cam.fresh front).any (fun s => s.expo ≠ .unborn && p s &&
      ((camera cfg).exec s (.rpc .stopLoopCnt :: after)).isSome) = true) :
    ∃ s t, StopServed cfg s t after ∧ p s = true := by
  obtain ⟨s, hfront, hs⟩ := TSys.exec_any hrun
  simp only [Bool.and_eq_true, decide_eq_true_eq, Option.isSome_iff_exists] at hs
  obtain ⟨⟨hborn, hp⟩, t, ht⟩ := hs
  have hreach := (TSys.Reachable.init (fresh_initial : (camera cfg).init _)).exec hfront
  exact ⟨s, t, ⟨hreach, hborn, TSys.exec_cons_some _ |>.mp ht, hreset⟩, hp⟩

/-- `stop_expo` during an exposure of a camera that loops for ever. -/
theorem stop_holds_inExposure :
    ∃ s t after, StopServed shortExpo s t after ∧ after ≠ [] ∧ starts after = 0 := by
  obtain ⟨s, t, hserved, hcond⟩ := @StopServed.of_exec shortExpo
    (startUp ++ expose ++ [.rpc .stopCall, .rpc .stopExpoCnt])
    (readOut (fun _ => 1) ++ [.expo .head, .expo .test]) stopHolds (by decide) (by decide +kernel)
  exact ⟨s, t, _, hserved, by decide, stop_holds shortExpo hserved hcond⟩

/-- What `stop_expo` promises: nothing is started once it has returned. -/
def StopsForGood (cfg : Config) : Prop :=
  ∀ (s t : Cam) (after : List Act), StopServed cfg s t after → starts after = 0

/-- Between the two stores the exposure in flight is counted and, the target being
still 0, another one begun: the margin of `ULONG_MAX - 1` is used up and the counter
wraps to 0, under the target of 1. -/
theorem stop_wraps : ¬ StopsForGood shortExpo := by
  intro hall
  obtain ⟨s, t, hserved, -⟩ := @StopServed.of_exec shortExpo
    (startUp ++ expose ++ [.rpc .stopCall, .rpc .stopExpoCnt] ++ readOut (fun _ => 1) ++ expose)
    (readOut (fun _ => 2) ++ [.expo .head, .expo .test, .expo (.startExposure ASI_SUCCESS 0 0)])
    (fun _ => true) (by decide) (by decide +kernel)
  exact absurd (hall s t _ hserved) (by decide)

end AutoExpo
