import AutoExpo.Camera.Counters
import AutoExpo.Http.StartExpo
import AutoExpo.Kit.Runs

/-!
# Requests during start-up

`main` starts the HTTP thread before it goes through the cameras with
`monitor_loop`, `data_saving_start` and `expo_loop_start`, and the last of these
stores the `expo_count` flag into `loop_cnt` and starts the exposure thread. The
stores of requests fall in between at will, and so do the loop tests and the
increments of the exposure threads that have been started (`Thread.step`, which
is what the thread of a camera does: `exposes`).

A request whose store to a camera comes before `main`'s is overwritten
(`early_stop_overwritten`). Once everything is quiet, every camera has the target
of the last request exactly when `main`'s store was first on each camera, or the
flag comes to the same, and no thread has counted the two exposures since
`stop_expo` that take its counter back to 0 (`requests_kept`).
-/

namespace AutoExpo.Http

open Kit
open Interrupt (CamManager Op Slot startCam)

/-! ## The exposure threads -/

/-- An exposure thread as the counters see it, and the `th_expo_stop` of its camera. -/
structure Thread where
  phase : Phase
  stop : Bool
  deriving DecidableEq

inductive ThreadAct
  | enter
  | leave
  | done
  | pass
  | startExposure
  | incrExpoCnt
  | overflow
  /-- the stop flag goes up, in whatever thread -/
  | raiseStop
  deriving DecidableEq

/-- `loop_cnt > 0 && expo_cnt >= loop_cnt` -/
def targetReached (loopCnt expoCnt : ULong) : Bool := 0 < loopCnt && loopCnt ≤ expoCnt

/-- A step of the thread, and what it leaves in `expo_cnt`. -/
def Thread.step (keepRunning : Bool) (loopCnt expoCnt : ULong) (t : Thread) :
    ThreadAct → Option (Thread × ULong)
  | .enter =>
      if t.phase = .outside ∧ t.stop = false then some ({ t with phase := .atTest }, expoCnt)
      else none
  | .leave =>
      if t.phase = .outside ∧ t.stop = true then some ({ t with phase := .finished }, expoCnt)
      else none
  | .done =>
      if t.phase = .atTest ∧ targetReached loopCnt expoCnt = true then
        some ({ t with phase := if keepRunning then .outside else .finished }, expoCnt)
      else none
  | .pass =>
      if t.phase = .atTest ∧ targetReached loopCnt expoCnt = false then
        some ({ t with phase := .tested }, expoCnt)
      else none
  | .startExposure =>
      if t.phase = .tested then some ({ t with phase := .inFlight }, expoCnt) else none
  | .incrExpoCnt =>
      if t.phase = .inFlight then some ({ t with phase := .outside }, expoCnt + 1) else none
  | .overflow =>
      if t.phase = .inFlight then some ({ phase := .outside, stop := true }, expoCnt) else none
  | .raiseStop => some ({ t with stop := true }, expoCnt)

section
variable {keepRunning : Bool} {loopCnt expoCnt e : ULong} {t t' : Thread} {a : ThreadAct}

/-- Only an increment changes the counter. -/
theorem Thread.step_expoCnt (h : t.step keepRunning loopCnt expoCnt a = some (t', e)) :
    e = if a = .incrExpoCnt then expoCnt + 1 else expoCnt := by
  cases a with
  | incrExpoCnt =>
      simp only [Thread.step, Option.ite_none_right_eq_some, Option.some.injEq, Prod.mk.injEq] at h
      exact h.2.2.symm
  | raiseStop => cases h; rfl
  | enter | leave | done | pass | startExposure | overflow =>
      simp only [Thread.step, Option.ite_none_right_eq_some, Option.some.injEq, Prod.mk.injEq] at h
      exact h.2.2.symm

end

/-- The exposure thread of a camera. -/
def thread (s : Cam) : Thread := ⟨s.expo.phase, s.thExpoStop⟩

/-- An error that is the last one raises the stop flag. -/
theorem exposes_traceError {s s' : Cam} (keepRunning trip : Bool)
    (hphase : s'.expo.phase = s.expo.phase) (hstop : s'.thExpoStop = (s.thExpoStop || trip))
    (hcnt : s'.expoCnt = s.expoCnt) :
    (thread s' = thread s ∧ s'.expoCnt = s.expoCnt) ∨
      ∃ b, (thread s).step keepRunning s.loopCnt s.expoCnt b = some (thread s', s'.expoCnt) := by
  cases trip with
  | false => exact .inl ⟨by simp [thread, hphase, hstop], hcnt⟩
  | true => exact .inr ⟨.raiseStop, by simp [thread, Thread.step, hphase, hstop, hcnt]⟩

/-- A step of a camera's exposure thread is one of these, or changes nothing that they are
about. -/
theorem exposes {cfg : AutoExpo.Config} {s s' : Cam} {a : ExpoAct} (h : ExpoStep cfg s a s') :
    (thread s' = thread s ∧ s'.expoCnt = s.expoCnt) ∨
      ∃ b, (thread s).step cfg.keepRunning s.loopCnt s.expoCnt b =
        some (thread s', s'.expoCnt) := by
  cases h with
  | leave he hstop => exact .inr ⟨.leave, by simp [thread, Thread.step, he, hstop, ExpoPc.phase]⟩
  | enter he hlive => exact .inr ⟨.enter, by simp [thread, Thread.step, he, hlive, ExpoPc.phase]⟩
  | done he hdone =>
      have hreached : targetReached s.loopCnt s.expoCnt = true := hdone
      refine .inr ⟨.done, ?_⟩
      cases hrun : cfg.keepRunning <;>
        simp [thread, Thread.step, he, hreached, ExpoPc.phase]
  | pass he hopen =>
      have hnot : targetReached s.loopCnt s.expoCnt = false := hopen
      exact .inr ⟨.pass, by simp [thread, Thread.step, he, hnot, ExpoPc.phase]⟩
  | startExposure _ _ _ he =>
      exact .inr ⟨.startExposure, by simp [thread, Thread.step, he, ExpoPc.phase]⟩
  | genFull _ _ he => exact .inr ⟨.overflow, by simp [thread, Thread.step, he, ExpoPc.phase]⟩
  | incrExpoCnt he => exact .inr ⟨.incrExpoCnt, by simp [thread, Thread.step, he, ExpoPc.phase]⟩
  | polled _ _ trip _ _ he =>
      exact exposes_traceError cfg.keepRunning trip (by simp [he, ExpoPc.phase]) rfl rfl
  | getDataOk _ trip _ _ _ _ _ _ he | getDataFail _ _ trip _ _ _ _ _ _ he =>
      exact exposes_traceError cfg.keepRunning trip (by simp [he, ExpoPc.phase]) rfl rfl
  | sdkStore | working | genNull => exact .inl ⟨rfl, rfl⟩
  | coolSleep he | cooled _ _ he | coolOn _ _ he | coolTikDone _ _ he | coolTik _ _ he
  | idleSleep he | expoWaitDone _ _ he | expoWait _ _ he | gen _ _ he
  | getDataBegin _ _ _ _ he | eraseBuf _ he | pushData _ he =>
      exact .inl ⟨by simp [thread, he, ExpoPc.phase], rfl⟩

/-! ## `main`, the HTTP thread and the exposure threads -/

/-- The flags. -/
structure Flags where
  expoCount : ULong
  keepRunning : Bool

structure State where
  /-- what is left of `main`'s start-up -/
  todo : List Op
  /-- what is left of the request in progress -/
  http : List Store
  counters : Counters
  threads : Int → Option Thread

inductive Act
  | main
  | request (r : Request)
  | http
  | expo (c : Int) (a : ThreadAct)

def State.setThread (s : State) (c : Int) (t : Thread) : State :=
  { s with threads := fun d => if d = c then some t else s.threads d }

/-- Of the start-up, `expo_loop_start` makes a store, and starts a thread that reads the
counters. -/
def startThread (flags : Flags) (s : State) : Slot → State
  | .cam c .expo =>
      { s.setThread c ⟨.outside, false⟩ with
        counters := s.counters.setLoopCnt c flags.expoCount }
  | .cam _ .data | .cam _ .mon | .http => s

def startOp (flags : Flags) (s : State) : Op → State
  | .start x => startThread flags s x
  | _ => s

def step (cams : CamManager) (flags : Flags) (s : State) : Act → Option State
  | .main => match s.todo with
      | [] => none
      | op :: rest => some { startOp flags s op with todo := rest }
  | .request r => match s.http with
      | [] => some { s with http := r.stores cams }
      | _ => none
  | .http => match s.http with
      | [] => none
      | x :: rest => some { s with http := rest, counters := x.exec s.counters }
  | .expo c a => match s.threads c with
      | none => none
      | some t =>
          (t.step flags.keepRunning (s.counters.loopCnt c) (s.counters.expoCnt c) a).map fun r =>
            { s.setThread c r.1 with counters := s.counters.setExpoCnt c r.2 }

/-- `main` has just started the HTTP thread. -/
def starting (cams : CamManager) (k : Counters) : State where
  todo := cams.ids.flatMap startCam
  http := []
  counters := k
  threads := fun _ => none

def startUp (cams : CamManager) (flags : Flags) : TSys State Act where
  init s := ∃ k, s = starting cams k
  step := step cams flags

/-! ## The last request -/

/-- The last request, the cameras on which its store to `loop_cnt` came before that of
`expo_loop_start`, and the exposures that a camera has counted since the last store to its
`expo_cnt`. -/
structure Last where
  request : Option Request
  early : Int → Bool
  counted : Int → Nat

def noteRequest (h : Last) (s : State) : Act → Last
  | .main => h
  | .request r => { h with request := some r, early := fun _ => false }
  | .http => match s.http with
      | .loopCnt c _ :: _ =>
          { h with early := fun d =>
              if d = c then decide (.start (.cam c .expo) ∈ s.todo) else h.early d }
      | .expoCnt c _ :: _ => { h with counted := fun d => if d = c then 0 else h.counted d }
      | [] => h
  | .expo c a =>
      { h with counted := fun d =>
          if d = c ∧ a = .incrExpoCnt then h.counted d + 1 else h.counted d }

def noRequest : Last where
  request := none
  early := fun _ => false
  counted := fun _ => 0

def requests (cams : CamManager) (flags : Flags) : TSys (State × Last) Act :=
  (startUp cams flags).record noRequest noteRequest

/-- The target of the last request is in force on camera `c`, or the flag if there was
none. -/
def InForce (expoCount : ULong) (k : Counters) (c : Int) : Option Request → Prop
  | none => k.loopCnt c = expoCount
  | some (.startExpo n) => k.loopCnt c = n
  | some .stopExpo => 0 < k.loopCnt c ∧ k.loopCnt c ≤ k.expoCnt c

/-- The request has come after `expo_loop_start` on camera `c`, or the flag comes to the
same; and two exposures, which take the counter from `ULONG_MAX - 1` to 0, are not what the
thread has counted since a stop (under a flag that comes after the stop, they are not so many
that the counter has wrapped to below the flag). -/
def Kept (expoCount : ULong) (h : Last) (c : Int) : Prop :=
  match h.request with
  | none => True
  | some (.startExpo n) => h.early c = true → expoCount = n
  | some .stopExpo =>
      if h.early c then
        0 < expoCount.toNat ∧ expoCount.toNat ≤ (2 ^ 64 - 2 + h.counted c) % 2 ^ 64
      else h.counted c % 2 ^ 64 ≠ 2

/-- What a request stores into `loop_cnt`. -/
def Request.target : Request → ULong
  | .startExpo n => n
  | .stopExpo => 1

/-- The `loop_cnt` of a camera that `main` and the last request are done with. -/
def Last.loopCnt (expoCount : ULong) (h : Last) (c : Int) : ULong :=
  match h.request with
  | none => expoCount
  | some r => if h.early c then expoCount else r.target

section
variable {cams : CamManager} {flags : Flags} {p p' : State × Last}

theorem loopCnt_mem_stores {r : Request} {c : Int} {v : ULong} :
    .loopCnt c v ∈ r.stores cams ↔ c ∈ cams.ids ∧ v = r.target := by
  cases r with
  | startExpo n => simp [Request.stores, resetExpoCount, Request.target]
  | stopExpo => simp [Request.stores, stopExpoCount, Request.target]

theorem expoCnt_mem_stop {c : Int} {v : ULong} :
    .expoCnt c v ∈ Request.stopExpo.stores cams ↔ c ∈ cams.ids ∧ v = ULONG_MAX - 1 := by
  simp [Request.stores, stopExpoCount]

/-- Where the stores to the counters have got to. -/
structure Progress (cams : CamManager) (flags : Flags) (p : State × Last) : Prop where
  http : ∀ x ∈ p.1.http, ∃ r ∈ p.2.request, x ∈ r.stores cams
  /-- a request that is through with a camera ahead of `main` is early -/
  early : ∀ r ∈ p.2.request, ∀ c ∈ cams.ids, .start (.cam c .expo) ∈ p.1.todo →
    .loopCnt c r.target ∉ p.1.http → p.2.early c = true
  loopCnt : ∀ c ∈ cams.ids, .start (.cam c .expo) ∉ p.1.todo →
    (∀ r ∈ p.2.request, .loopCnt c r.target ∉ p.1.http) →
      p.1.counters.loopCnt c = p.2.loopCnt flags.expoCount c
  expoCnt : p.2.request = some .stopExpo → ∀ c ∈ cams.ids,
    .expoCnt c (ULONG_MAX - 1) ∉ p.1.http →
      p.1.counters.expoCnt c = ULONG_MAX - 1 + BitVec.ofNat 64 (p.2.counted c)

theorem progress_starting (cams : CamManager) (flags : Flags) (k : Counters) :
    Progress cams flags (starting cams k, noRequest) where
  http x hx := by cases hx
  early r hr := by cases hr
  loopCnt c hc hstarted := by
    -- `main` has still to start every camera
    refine absurd (List.mem_flatMap.mpr ⟨c, hc, ?_⟩) hstarted
    simp [startCam]
  expoCnt hr := by cases hr

/-- The ways through a step, with what they add to the history. -/
inductive Step (cams : CamManager) (flags : Flags) (s : State) (h : Last) :
    Act → State × Last → Prop
  | main (op rest) : s.todo = op :: rest → Step cams flags s h .main
      ({ startOp flags s op with todo := rest }, h)
  | request (r) : s.http = [] → Step cams flags s h (.request r)
      ({ s with http := r.stores cams }, { h with request := some r, early := fun _ => false })
  | storeLoopCnt (c v rest) : s.http = .loopCnt c v :: rest → Step cams flags s h .http
      ({ s with http := rest, counters := s.counters.setLoopCnt c v },
        { h with early := fun d =>
            if d = c then decide (.start (.cam c .expo) ∈ s.todo) else h.early d })
  | storeExpoCnt (c v rest) : s.http = .expoCnt c v :: rest → Step cams flags s h .http
      ({ s with http := rest, counters := s.counters.setExpoCnt c v },
        { h with counted := fun d => if d = c then 0 else h.counted d })
  | expo (c a t t' e) : s.threads c = some t →
      t.step flags.keepRunning (s.counters.loopCnt c) (s.counters.expoCnt c) a = some (t', e) →
      Step cams flags s h (.expo c a)
        ({ s.setThread c t' with counters := s.counters.setExpoCnt c e },
          { h with counted := fun d =>
              if d = c ∧ a = .incrExpoCnt then h.counted d + 1 else h.counted d })

theorem requests_cases {a : Act} (h : (requests cams flags).step p a = some p') :
    Step cams flags p.1 p.2 a p' := by
  obtain ⟨hstep, hnote⟩ := TSys.record_step.mp h
  obtain ⟨s', l'⟩ := p'
  simp only at hnote
  subst hnote
  cases a with
  | main =>
      simp only [startUp, step] at hstep
      split at hstep
      next => cases hstep
      next op rest htodo => cases hstep; exact .main op rest htodo
  | request r =>
      simp only [startUp, step] at hstep
      split at hstep
      next hhttp => cases hstep; exact .request r hhttp
      next => cases hstep
  | http =>
      simp only [startUp, step] at hstep
      split at hstep
      next => cases hstep
      next x rest hhttp =>
        cases hstep
        cases x with
        | loopCnt c v => simpa only [noteRequest, hhttp] using .storeLoopCnt c v rest hhttp
        | expoCnt c v => simpa only [noteRequest, hhttp] using .storeExpoCnt c v rest hhttp
  | expo c a =>
      simp only [startUp, step] at hstep
      split at hstep
      next => cases hstep
      next t ht =>
        obtain ⟨⟨t', e⟩, hexpo, rfl⟩ := Option.map_eq_some_iff.mp hstep
        exact .expo c a t t' e ht hexpo

section
variable {s : State} {l : Last}

/-- `main` changes the counters where it starts an exposure thread. -/
theorem startOp_counters (flags : Flags) (s : State) (op : Op) (d : Int) :
    (startOp flags s op).http = s.http ∧
      (startOp flags s op).counters.expoCnt = s.counters.expoCnt ∧
      (startOp flags s op).counters.loopCnt d =
        if op = .start (.cam d .expo) then flags.expoCount else s.counters.loopCnt d := by
  cases op with
  | start x => cases x with
      | http => simp [startOp, startThread]
      | cam c t => cases t with
          | data | mon => simp [startOp, startThread]
          | expo =>
              by_cases hd : d = c <;>
                simp [startOp, startThread, State.setThread, Counters.setLoopCnt, hd, Ne.symm]
  | _ => simp [startOp]

/-- A store of `main`: on the camera it starts the flag is in force, unless the store of a
request is still to come. -/
theorem Progress.start {op : Op} {rest : List Op} (hp : Progress cams flags (s, l))
    (htodo : s.todo = op :: rest) :
    Progress cams flags ({ startOp flags s op with todo := rest }, l) := by
  obtain ⟨hhttp, hexpoCnt, -⟩ := startOp_counters flags s op 0
  have hloopCnt := fun d => (startOp_counters flags s op d).2.2
  refine ⟨?_, ?_, ?_, ?_⟩
  · simp only [hhttp]
    exact hp.http
  · simp only [hhttp]
    intro r hr c hc hstart hstored
    exact hp.early r hr c hc (htodo ▸ List.mem_cons_of_mem _ hstart) hstored
  · simp only [hhttp, hloopCnt]
    intro d hd hstarted hstored
    by_cases hop : op = .start (.cam d .expo)
    · rw [if_pos hop, Last.loopCnt]
      cases hr : l.request with
      | none => rfl
      | some r =>
          have hmem : .start (.cam d .expo) ∈ s.todo := htodo ▸ hop ▸ List.mem_cons_self
          have hfirst : l.early d = true := hp.early r hr d hd hmem (hstored r hr)
          simp only [hfirst, if_true]
    · rw [if_neg hop]
      refine hp.loopCnt d hd ?_ hstored
      simp only [htodo, List.mem_cons, not_or]
      exact ⟨fun heq => hop heq.symm, hstarted⟩
  · simp only [hhttp, hexpoCnt]
    exact hp.expoCnt

/-- A new request has all its stores to come. -/
theorem progress_request (s : State) (l : Last) (r : Request) :
    Progress cams flags ({ s with http := r.stores cams },
      { l with request := some r, early := fun _ => false }) := by
  constructor
  · intro x hx
    exact ⟨r, rfl, hx⟩
  · intro r' hr' c hc _ hstored
    rw [Option.mem_some_iff] at hr'
    exact absurd (loopCnt_mem_stores.mpr ⟨hc, hr' ▸ rfl⟩) hstored
  · intro c hc _ hstored
    exact absurd (loopCnt_mem_stores.mpr ⟨hc, rfl⟩) (hstored r rfl)
  · intro hr c hc hstored
    rw [Option.some.injEq] at hr
    subst hr
    exact absurd (expoCnt_mem_stop.mpr ⟨hc, rfl⟩) hstored

/-- The stores that were to come, but for the one that is made. -/
theorem Progress.rest {x : Store} {rest : List Store} (hp : Progress cams flags (s, l))
    (hhttp : s.http = x :: rest) :
    (∃ r ∈ l.request, x ∈ r.stores cams) ∧ ∀ y ∈ rest, ∃ r ∈ l.request, y ∈ r.stores cams := by
  refine ⟨?_, ?_⟩
  · exact hp.http x (hhttp ▸ List.mem_cons_self)
  · intro y hy
    exact hp.http y (hhttp ▸ List.mem_cons_of_mem _ hy)

theorem not_mem_http {x y : Store} {rest : List Store} (hhttp : s.http = x :: rest)
    (hne : y ≠ x) (hnot : y ∉ rest) : y ∉ s.http := by
  rw [hhttp, List.mem_cons, not_or]
  exact ⟨hne, hnot⟩

/-- A store of a request to `loop_cnt` puts the camera at its target, early or not. -/
theorem Progress.storeLoopCnt {c : Int} {v : ULong} {rest : List Store}
    (hp : Progress cams flags (s, l)) (hhttp : s.http = .loopCnt c v :: rest) :
    Progress cams flags ({ s with http := rest, counters := s.counters.setLoopCnt c v },
      { l with early := fun d =>
          if d = c then decide (.start (.cam c .expo) ∈ s.todo) else l.early d }) := by
  obtain ⟨⟨r, hr, hx⟩, hrest⟩ := hp.rest hhttp
  obtain ⟨-, rfl⟩ := loopCnt_mem_stores.mp hx
  have hother : ∀ d w, d ≠ c → .loopCnt d w ∉ rest → .loopCnt d w ∉ s.http := by
    intro d w hdc
    exact not_mem_http hhttp (by simp [hdc])
  refine ⟨hrest, ?_, ?_, ?_⟩
  · intro r' hr' d hd hstart hstored
    by_cases hdc : d = c
    · subst hdc
      simpa using hstart
    · simp only [if_neg hdc]
      exact hp.early r' hr' d hd hstart (hother d _ hdc hstored)
  · intro d hd hstarted hstored
    by_cases hdc : d = c
    · subst hdc
      simp only at hstarted
      simp [Counters.setLoopCnt, Last.loopCnt, Option.mem_def.mp hr, hstarted]
    · simp only [Counters.setLoopCnt, if_neg hdc, Last.loopCnt]
      exact hp.loopCnt d hd hstarted fun r' hr' => hother d _ hdc (hstored r' hr')
  · intro hstop d hd hstored
    exact hp.expoCnt hstop d hd (not_mem_http hhttp (by simp) hstored)

/-- A store to `expo_cnt` starts the count of the exposures again. -/
theorem Progress.storeExpoCnt {c : Int} {v : ULong} {rest : List Store}
    (hp : Progress cams flags (s, l)) (hhttp : s.http = .expoCnt c v :: rest) :
    Progress cams flags
      ({ s with http := rest, counters := s.counters.setExpoCnt c v },
        { l with counted := fun d => if d = c then 0 else l.counted d }) := by
  obtain ⟨⟨r, hr, hx⟩, hrest⟩ := hp.rest hhttp
  have hother : ∀ d w, .loopCnt d w ∉ rest → .loopCnt d w ∉ s.http := fun d w =>
    not_mem_http hhttp (by simp)
  refine ⟨hrest, ?_, ?_, ?_⟩
  · intro r' hr' d hd hstart hstored
    exact hp.early r' hr' d hd hstart (hother d _ hstored)
  · intro d hd hstarted hstored
    exact hp.loopCnt d hd hstarted fun r' hr' => hother d _ (hstored r' hr')
  · intro hstop d hd hstored
    by_cases hdc : d = c
    · subst hdc
      simp only at hstop hr
      rw [hstop, Option.mem_some_iff] at hr
      subst hr
      obtain ⟨-, rfl⟩ := expoCnt_mem_stop.mp hx
      simp [Counters.setExpoCnt]
    · simp only [Counters.setExpoCnt, if_neg hdc]
      exact hp.expoCnt hstop d hd (not_mem_http hhttp (by simp [hdc]) hstored)

/-- The threads leave the targets, and their increments are counted. -/
theorem Progress.expo {c : Int} {a : ThreadAct} {t t' : Thread} {e : ULong}
    (hp : Progress cams flags (s, l))
    (hstep : t.step flags.keepRunning (s.counters.loopCnt c) (s.counters.expoCnt c) a =
      some (t', e)) :
    Progress cams flags
      ({ s.setThread c t' with counters := s.counters.setExpoCnt c e },
        { l with counted := fun d =>
            if d = c ∧ a = .incrExpoCnt then l.counted d + 1 else l.counted d }) := by
  refine ⟨hp.http, hp.early, hp.loopCnt, ?_⟩
  intro hstop d hd hstored
  have hcnt := hp.expoCnt hstop d hd hstored
  simp only at hcnt ⊢
  by_cases hdc : d = c
  · subst hdc
    rw [Thread.step_expoCnt hstep]
    simp only [Counters.setExpoCnt, if_true, true_and]
    by_cases ha : a = .incrExpoCnt
    · rw [if_pos ha, if_pos ha, hcnt, BitVec.ofNat_add, BitVec.add_assoc]
      rfl
    · rw [if_neg ha, if_neg ha, hcnt]
  · simpa only [Counters.setExpoCnt, hdc, if_false, false_and] using hcnt

end

theorem progress_inductive (cams : CamManager) (flags : Flags) :
    (requests cams flags).Inductive (Progress cams flags) where
  init p h := by
    obtain ⟨⟨k, hk⟩, hl⟩ := h
    obtain ⟨s, l⟩ := p
    simp only at hk hl
    subst hk hl
    exact progress_starting cams flags k
  step p a p' _ hp h := by
    cases requests_cases h with
    | main op rest htodo => exact hp.start htodo
    | request r => exact progress_request p.1 p.2 r
    | storeLoopCnt c v rest hhttp => exact hp.storeLoopCnt hhttp
    | storeExpoCnt c v rest hhttp => exact hp.storeExpoCnt hhttp
    | expo c a t t' e _ hexpo => exact hp.expo hexpo

end

/-- The counter of a stopped camera, as a number. -/
theorem toNat_counted (n : Nat) :
    (ULONG_MAX - 1 + BitVec.ofNat 64 n).toNat = (2 ^ 64 - 2 + n) % 2 ^ 64 := by
  have hmax : (ULONG_MAX - 1).toNat = 2 ^ 64 - 2 := by decide
  rw [BitVec.toNat_add, hmax, BitVec.toNat_ofNat, Nat.add_mod_mod]

/-- Once `main` has started every camera and no request is in progress, the target of the
last request is in force on every camera, if and only if none was early on a camera or the
flag comes to the same, and no thread has counted a stop away. -/
theorem requests_kept (cams : CamManager) (flags : Flags) (p : State × Last)
    (hp : (requests cams flags).Reachable p) (htodo : p.1.todo = [])
    (hhttp : p.1.http = []) :
    (∀ c ∈ cams.ids, InForce flags.expoCount p.1.counters c p.2.request) ↔
      ∀ c ∈ cams.ids, Kept flags.expoCount p.2 c := by
  have hprog := (progress_inductive cams flags).invariant p hp
  apply forall₂_congr
  intro c hc
  have hloop : p.1.counters.loopCnt c = p.2.loopCnt flags.expoCount c := by
    apply hprog.loopCnt c hc
    · simp [htodo]
    · simp [hhttp]
  cases hr : p.2.request with
  | none =>
      simp only [Last.loopCnt, hr] at hloop
      simp [InForce, Kept, hr, hloop]
  | some r =>
      simp only [Last.loopCnt, hr] at hloop
      cases r with
      | startExpo n =>
          simp only [InForce, Kept, hr, hloop, Request.target]
          by_cases hearly : p.2.early c = true <;> simp [hearly]
      | stopExpo =>
          have hexpo := hprog.expoCnt hr c hc (by simp [hhttp])
          simp only [InForce, Kept, hr, hloop, hexpo, Request.target, BitVec.lt_def, BitVec.le_def,
            toNat_counted]
          by_cases hearly : p.2.early c = true
          · simp [hearly]
          · have hone : (1 : ULong).toNat = 1 := rfl
            have hzero : (0 : ULong).toNat = 0 := rfl
            simp only [hearly, Bool.false_eq_true, if_false, hone, hzero]
            omega

/-- No target, nothing counted. -/
def zeroed : Counters where
  loopCnt := fun _ => 0
  expoCnt := fun _ => 0

/-- The flags at their defaults. -/
def defaults : Flags where
  expoCount := 0
  keepRunning := true

/-- The first camera exposes once while the second is still to be started, and the stop comes
after both. -/
def behindMain : List Act :=
  [.main, .main, .main, .expo 1 .enter, .expo 1 .pass, .expo 1 .startExposure, .main, .main,
    .main, .request .stopExpo, .http, .http, .expo 1 .incrExpoCnt, .http, .http, .expo 1 .enter,
    .expo 1 .done]

theorem requests_kept_behindMain : ∃ p : State × Last, p.2.request = some .stopExpo ∧
    ∀ c ∈ twoCameras.ids, InForce 0 p.1.counters c p.2.request := by
  obtain ⟨p, hp, hshape⟩ := TSys.Reachable.of_exec
    (show (requests twoCameras defaults).init (starting twoCameras zeroed, noRequest) from
      ⟨⟨zeroed, rfl⟩, rfl⟩)
    (show ((requests twoCameras defaults).exec (starting twoCameras zeroed, noRequest)
      behindMain).any (fun p => p.1.todo = [] && p.1.http = [] && p.2.request = some .stopExpo &&
        twoCameras.ids.all fun c => !p.2.early c && p.2.counted c < 2) = true by decide +kernel)
  simp only [Bool.and_eq_true, decide_eq_true_eq, Bool.not_eq_true', List.all_eq_true] at hshape
  obtain ⟨⟨⟨htodo, hhttp⟩, hreq⟩, hcams⟩ := hshape
  refine ⟨p, hreq, (requests_kept twoCameras defaults p hp htodo hhttp).mpr ?_⟩
  intro c hc
  obtain ⟨hearly, hcounted⟩ := hcams c hc
  simp only [Kept, hreq, hearly, Bool.false_eq_true, if_false]
  omega

/-- `/stop_expo` before the first `expo_loop_start`, the flag at its default 0. -/
def earlyStop : List Act :=
  .request .stopExpo :: List.replicate 4 .http ++ List.replicate 6 .main

/-- The cameras expose for ever. -/
theorem early_stop_overwritten :
    ¬ ∀ (cams : CamManager) (flags : Flags) (p : State × Last),
      (requests cams flags).Reachable p → p.1.todo = [] → p.1.http = [] →
        ∀ c ∈ cams.ids, InForce flags.expoCount p.1.counters c p.2.request := by
  intro hall
  obtain ⟨p, hp, hshape⟩ := TSys.Reachable.of_exec
    (show (requests twoCameras defaults).init (starting twoCameras zeroed, noRequest) from
      ⟨⟨zeroed, rfl⟩, rfl⟩)
    (show ((requests twoCameras defaults).exec (starting twoCameras zeroed, noRequest)
      earlyStop).any (fun p => p.1.todo = [] && p.1.http = [] && p.2.request = some .stopExpo &&
        p.1.counters.loopCnt 1 = 0) = true by decide +kernel)
  simp only [Bool.and_eq_true, decide_eq_true_eq] at hshape
  obtain ⟨⟨⟨htodo, hhttp⟩, hreq⟩, hloop⟩ := hshape
  have hforce := hall twoCameras defaults p hp htodo hhttp 1 List.mem_cons_self
  simp only [hreq, InForce, hloop] at hforce
  exact absurd hforce.1 (by decide)

end AutoExpo.Http
