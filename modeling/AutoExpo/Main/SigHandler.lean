import AutoExpo.Kit.TSys
import Mathlib.Data.List.Nodup

/-!
# `main` and its SIGINT handler

`main` from the `std::signal` call to its return is a list of operations; it
runs them in order, ends early where it returns an error, and is interrupted
between any two of them. `sigHandler` then runs on the same thread to its end:
`main` does not go on.

What the two share is the thread pointers. The handler gets to its `exit` if and
only if it can wait on every one of them (`sigHandler_ok`, `sigHandler_ready`).
-/

namespace AutoExpo.Interrupt

open Kit

/-- The threads of one camera. -/
inductive Thread
  | expo
  | data
  | mon
  deriving DecidableEq

/-- The thread pointers: `th_expo`, `th_data` and `th_mon` of each camera, and
`th_http`. -/
inductive Slot
  | cam (c : Int) (k : Thread)
  | http
  deriving DecidableEq

/-- A thread pointer: null, or to a thread that has not been joined, is being
joined, has been joined (and is not joinable any more). -/
inductive Ptr
  | null
  | running
  | joining
  | joined
  deriving DecidableEq

/-- `camManager`: a map, iterated in the order of its keys; `main` has returned
when no camera is connected. -/
structure CamManager where
  ids : List Int
  sorted : ids.Pairwise (· < ·)
  nonempty : ids ≠ []

theorem CamManager.nodup (cams : CamManager) : cams.ids.Nodup :=
  cams.sorted.imp fun h => Int.ne_of_lt h

/-! ## `main` -/

inductive Op
  | openCamera (c : Int)
  | initCamera (c : Int)
  | getId (c : Int)
  | getNumOfControls (c : Int)
  | initCooler (c : Int)
  | setup (c : Int)
  | setROIFormat (c : Int)
  | watchdog
  /-- `monitor_loop`, `data_saving_start`, `expo_loop_start`, or the HTTP thread -/
  | start (x : Slot)
  | joinable (x : Slot)
  | joinBegin (x : Slot)
  | joinEnd (x : Slot)
  | reset (x : Slot)
  | raiseStop (c : Int)
  | closeCamera (c : Int)
  | closeSocket
  | ret
  deriving DecidableEq

/-- `expo_loop_wait`, `data_saving_wait` or `monitor_wait`, up to the reset of
the pointer. -/
def waitThread (x : Slot) : List Op := [.joinable x, .joinBegin x, .joinEnd x, .reset x]

/-- `wait_all_threads`; `expo_loop_wait` ends by raising the stop flag. -/
def waitAllThreads (c : Int) : List Op :=
  waitThread (.cam c .expo) ++ [.raiseStop c] ++ waitThread (.cam c .data) ++
    waitThread (.cam c .mon)

def initCam (c : Int) : List Op :=
  [.openCamera c, .initCamera c, .getId c, .getNumOfControls c]

def startCam (c : Int) : List Op :=
  [.start (.cam c .mon), .start (.cam c .data), .start (.cam c .expo)]

/-- `main` up to the last `expo_loop_start`. -/
def setUp (cams : List Int) : List Op :=
  cams.flatMap initCam ++ cams.map .initCooler ++ cams.map .setup ++ cams.map .setROIFormat ++
    [.watchdog, .start .http] ++ cams.flatMap startCam

/-- The rest of `main`. -/
def windUp (cams : List Int) : List Op :=
  cams.flatMap waitAllThreads ++ cams.map .closeCamera ++
    [.closeSocket, .joinBegin .http, .joinEnd .http, .ret]

def program (cams : List Int) : List Op := setUp cams ++ windUp cams

/-- The process as `main` and the handler change it; `joins` and `closed` are what has
been joined and closed so far. -/
structure Proc where
  th : Slot → Ptr
  stop : Int → Bool
  joins : List Slot
  closed : List Int

def Proc.set (p : Proc) (x : Slot) (v : Ptr) : Proc :=
  { p with th := fun y => if y = x then v else p.th y }

def Proc.raiseStop (p : Proc) (c : Int) : Proc :=
  { p with stop := fun d => if d = c then true else p.stop d }

def Proc.closeCamera (p : Proc) (c : Int) : Proc := { p with closed := p.closed ++ [c] }

/-- A join of the thread of `x` has returned. -/
def Proc.join (p : Proc) (x : Slot) : Proc :=
  { p.set x .joined with joins := p.joins ++ [x] }

def Op.exec (p : Proc) : Op → Proc
  | .start x => p.set x .running
  | .joinBegin x => p.set x .joining
  | .joinEnd x => p.join x
  | .reset x => p.set x .null
  | .raiseStop c => p.raiseStop c
  | .closeCamera c => p.closeCamera c
  | _ => p

/-- Where `main` returns an error, or its assertion fails. -/
def Op.mayFail : Op → Bool
  | .openCamera _ | .initCamera _ | .getNumOfControls _ | .setup _ => true
  | _ => false

structure State where
  todo : List Op
  proc : Proc

inductive Act
  | next
  | fail

def step (m : State) (a : Act) : Option State :=
  match m.todo, a with
  | [], _ => none
  | op :: rest, .next => some { todo := rest, proc := op.exec m.proc }
  | op :: _, .fail => if op.mayFail then some { m with todo := [] } else none

/-- `main` when it has installed the handler. -/
def start (cams : CamManager) : State where
  todo := program cams.ids
  proc := { th := fun _ => .null, stop := fun _ => false, joins := [], closed := [] }

/-- The points of `main` at which SIGINT can be delivered. -/
def main (cams : CamManager) : TSys State Act where
  init m := m = start cams
  step := step

/-! ## `sig_handler` -/

inductive Fault
  | nullDeref (x : Slot)
  | joinUnderWay (x : Slot)
  | notJoinable (x : Slot)
  | neverEnds (x : Slot)

/-- `expo_loop_wait`, `data_saving_wait` or `monitor_wait` in the handler. A camera's
threads end when its stop flag is up. -/
def Proc.waitThread (p : Proc) (c : Int) (k : Thread) : Except Fault Proc :=
  match p.th (.cam c k) with
  | .null => .error (.nullDeref (.cam c k))
  | .running =>
      if p.stop c then .ok ((p.join (.cam c k)).set (.cam c k) .null)
      else .error (.neverEnds (.cam c k))
  | .joining => .error (.joinUnderWay (.cam c k))
  | .joined => .ok (p.set (.cam c k) .null)

def Proc.waitAllThreads (p : Proc) (c : Int) : Except Fault Proc := do
  let p ← p.waitThread c .expo
  let p ← (p.raiseStop c).waitThread c .data
  p.waitThread c .mon

/-- The listening socket is closed, which ends the HTTP thread, and the thread is
joined without a test. -/
def Proc.waitHttp (p : Proc) : Except Fault Proc :=
  match p.th .http with
  | .null => .ok p
  | .running => .ok (p.join .http)
  | .joining => .error (.joinUnderWay .http)
  | .joined => .error (.notJoinable .http)

/-- `sig_handler(SIGINT)`, up to `exit(0)`. -/
def sigHandler (cams : List Int) (p : Proc) : Except Fault Proc := do
  let p ← cams.foldlM Proc.waitAllThreads (cams.foldl Proc.raiseStop p)
  (cams.foldl Proc.closeCamera p).waitHttp

/-- The handler exits, and by then every thread of every camera has been joined once
and every camera closed once. -/
def Orderly (cams : CamManager) (p : Proc) : Prop :=
  ∃ p', sigHandler cams.ids p = .ok p' ∧
    ∀ c ∈ cams.ids, p'.closed.count c = 1 ∧ ∀ k, p'.joins.count (.cam c k) = 1

/-! ## What the handler needs of the pointers -/

/-- A pointer the handler can wait on. -/
def Ptr.ready : Ptr → Bool
  | .running | .joined => true
  | .null | .joining => false

/-- The joins the handler makes of a pointer it can wait on. -/
def Ptr.owed : Ptr → Nat
  | .running => 1
  | _ => 0

def slots (c : Int) : List Slot := [.cam c .expo, .cam c .data, .cam c .mon]

@[simp] theorem mem_slots {x : Slot} {c : Int} : x ∈ slots c ↔ ∃ k, x = .cam c k := by
  simp only [slots, List.mem_cons, List.not_mem_nil, or_false]
  refine ⟨?_, ?_⟩
  · rintro (rfl | rfl | rfl)
    · exact ⟨.expo, rfl⟩
    · exact ⟨.data, rfl⟩
    · exact ⟨.mon, rfl⟩
  · rintro ⟨k, rfl⟩
    cases k <;> simp

/-- The threads of `xs` have been waited for; nothing else has happened. -/
structure Waits (xs : List Slot) (p p' : Proc) : Prop where
  th : ∀ y ∉ xs, p'.th y = p.th y
  stop : ∀ d, p.stop d = true → p'.stop d = true
  closed : p'.closed = p.closed
  joins : ∀ y, p'.joins.count y = p.joins.count y + if y ∈ xs then (p.th y).owed else 0

theorem Waits.refl (p : Proc) : Waits [] p p :=
  ⟨fun _ _ => rfl, fun _ h => h, rfl, fun _ => by simp⟩

theorem Waits.trans {xs ys : List Slot} {p q r : Proc} (h₁ : Waits xs p q) (h₂ : Waits ys q r)
    (hdisj : ∀ y ∈ ys, y ∉ xs) : Waits (xs ++ ys) p r := by
  refine ⟨?_, ?_, h₂.closed.trans h₁.closed, ?_⟩
  · intro y hy
    rw [List.mem_append, not_or] at hy
    rw [h₂.th y hy.2, h₁.th y hy.1]
  · intro d hd
    exact h₂.stop d (h₁.stop d hd)
  · intro y
    rw [h₂.joins y, h₁.joins y]
    by_cases hx : y ∈ xs
    · have hy : y ∉ ys := fun hy => hdisj y hy hx
      simp [hx, hy]
    · simp [hx, h₁.th y hx]

theorem Waits.raiseStop {xs : List Slot} {p q : Proc} (h : Waits xs p q) (c : Int) :
    Waits xs p (q.raiseStop c) := by
  refine ⟨h.th, ?_, h.closed, h.joins⟩
  intro d hd
  simp only [Proc.raiseStop]
  split
  · rfl
  · exact h.stop d hd

/-- The wait for one thread succeeds only on a pointer that is ready. -/
theorem waitThread_ok {p p' : Proc} {c : Int} {k : Thread} (h : p.waitThread c k = .ok p') :
    (p.th (.cam c k)).ready = true ∧ Waits [.cam c k] p p' := by
  unfold Proc.waitThread at h
  split at h
  next => cases h
  next hth =>
    split_ifs at h
    cases h
    refine ⟨by rw [hth]; rfl, ?_, fun _ hd => hd, rfl, ?_⟩
    · intro y hy
      rw [List.mem_singleton] at hy
      simp [Proc.join, Proc.set, hy]
    · intro y
      by_cases hy : y = .cam c k
      · simp [Proc.join, Proc.set, hy, hth, Ptr.owed]
      · simp [Proc.join, Proc.set, hy, Ne.symm hy]
  next => cases h
  next hth =>
    cases h
    -- not joinable: the pointer is only reset
    refine ⟨by rw [hth]; rfl, ?_, fun _ hd => hd, rfl, ?_⟩
    · intro y hy
      rw [List.mem_singleton] at hy
      simp [Proc.set, hy]
    · intro y
      by_cases hy : y = .cam c k
      · simp [Proc.set, hy, hth, Ptr.owed]
      · simp [Proc.set, hy]

theorem waitThread_ready {p : Proc} {c : Int} {k : Thread} (hstop : p.stop c = true)
    (hready : (p.th (.cam c k)).ready = true) : ∃ p', p.waitThread c k = .ok p' := by
  unfold Proc.waitThread
  cases hth : p.th (.cam c k) with
  | null | joining => rw [hth] at hready; cases hready
  | running => exact ⟨_, if_pos hstop⟩
  | joined => exact ⟨_, rfl⟩

theorem bind_ok {ε α β : Type} {x : Except ε α} {f : α → Except ε β} {b : β} :
    (x >>= f) = .ok b ↔ ∃ a, x = .ok a ∧ f a = .ok b := by
  cases x with
  | error e => simp [bind, Except.bind]
  | ok a => simp [bind, Except.bind]

theorem waitAllThreads_ok {p p' : Proc} {c : Int} (h : p.waitAllThreads c = .ok p') :
    (∀ k, (p.th (.cam c k)).ready = true) ∧ Waits (slots c) p p' := by
  unfold Proc.waitAllThreads at h
  obtain ⟨q, hexpo, h⟩ := bind_ok.mp h
  obtain ⟨r, hdata, hmon⟩ := bind_ok.mp h
  obtain ⟨hready₁, hw₁⟩ := waitThread_ok hexpo
  obtain ⟨hready₂, hw₂⟩ := waitThread_ok hdata
  obtain ⟨hready₃, hw₃⟩ := waitThread_ok hmon
  have hw₁₂ := (hw₁.raiseStop c).trans hw₂ (by simp)
  have hw := hw₁₂.trans hw₃ (by simp)
  refine ⟨?_, hw⟩
  -- a wait finds the other two pointers as they were
  intro k
  cases k with
  | expo => exact hready₁
  | data => rwa [(hw₁.raiseStop c).th _ (by simp)] at hready₂
  | mon => rwa [hw₁₂.th _ (by simp)] at hready₃

theorem waitAllThreads_ready {p : Proc} {c : Int} (hstop : p.stop c = true)
    (hready : ∀ k, (p.th (.cam c k)).ready = true) : ∃ p', p.waitAllThreads c = .ok p' := by
  obtain ⟨q, hq⟩ := waitThread_ready hstop (hready .expo)
  have hw₁ := (waitThread_ok hq).2.raiseStop c
  have hdata : ((q.raiseStop c).th (.cam c .data)).ready = true := by
    rw [hw₁.th _ (by simp)]
    exact hready .data
  obtain ⟨r, hr⟩ := waitThread_ready (hw₁.stop c hstop) hdata
  have hw₂ := hw₁.trans (waitThread_ok hr).2 (by simp)
  have hmon : (r.th (.cam c .mon)).ready = true := by
    rw [hw₂.th _ (by simp)]
    exact hready .mon
  obtain ⟨p', hp⟩ := waitThread_ready (hw₂.stop c hstop) hmon
  exact ⟨p', bind_ok.mpr ⟨q, hq, bind_ok.mpr ⟨r, hr, hp⟩⟩⟩

/-- The handler gets through all cameras only if every thread pointer is ready. -/
theorem waitCams_ok {cams : List Int} (hnodup : cams.Nodup) {p p' : Proc}
    (h : cams.foldlM Proc.waitAllThreads p = .ok p') :
    (∀ c ∈ cams, ∀ k, (p.th (.cam c k)).ready = true) ∧ Waits (cams.flatMap slots) p p' := by
  induction cams generalizing p with
  | nil =>
      cases h
      exact ⟨by simp, Waits.refl _⟩
  | cons c rest ih =>
      obtain ⟨hc, hrest⟩ := List.nodup_cons.mp hnodup
      rw [List.foldlM_cons] at h
      obtain ⟨q, hq, h⟩ := bind_ok.mp h
      obtain ⟨hready, hw⟩ := waitAllThreads_ok hq
      obtain ⟨hreadies, hws⟩ := ih hrest h
      have hother : ∀ d ∈ rest, ∀ k, Slot.cam d k ∉ slots c := by
        intro d hd k hk
        obtain ⟨j, hj⟩ := mem_slots.mp hk
        cases hj
        exact hc hd
      refine ⟨?_, ?_⟩
      · intro d hd k
        rcases List.mem_cons.mp hd with rfl | hd
        · exact hready k
        · rw [← hw.th _ (hother d hd k)]
          exact hreadies d hd k
      · apply hw.trans hws
        intro y hy
        obtain ⟨d, hd, hy⟩ := List.mem_flatMap.mp hy
        obtain ⟨k, rfl⟩ := mem_slots.mp hy
        exact hother d hd k

theorem waitCams_ready {cams : List Int} (hnodup : cams.Nodup) {p : Proc}
    (hstop : ∀ c ∈ cams, p.stop c = true)
    (hready : ∀ c ∈ cams, ∀ k, (p.th (.cam c k)).ready = true) :
    ∃ p', cams.foldlM Proc.waitAllThreads p = .ok p' := by
  induction cams generalizing p with
  | nil => exact ⟨p, rfl⟩
  | cons c rest ih =>
      obtain ⟨hc, hrest⟩ := List.nodup_cons.mp hnodup
      obtain ⟨q, hq⟩ := waitAllThreads_ready (hstop c List.mem_cons_self)
        (hready c List.mem_cons_self)
      have hw := (waitAllThreads_ok hq).2
      have hstop' : ∀ d ∈ rest, q.stop d = true := by
        intro d hd
        exact hw.stop d (hstop d (List.mem_cons_of_mem _ hd))
      have hready' : ∀ d ∈ rest, ∀ k, (q.th (.cam d k)).ready = true := by
        intro d hd k
        rw [hw.th]
        · exact hready d (List.mem_cons_of_mem _ hd) k
        · intro hk
          obtain ⟨j, hj⟩ := mem_slots.mp hk
          cases hj
          exact hc hd
      obtain ⟨p', hp'⟩ := ih hrest hstop' hready'
      refine ⟨p', ?_⟩
      rw [List.foldlM_cons]
      exact bind_ok.mpr ⟨q, hq, hp'⟩

theorem raiseStops_frame (cams : List Int) (p : Proc) :
    (cams.foldl Proc.raiseStop p).th = p.th ∧ (cams.foldl Proc.raiseStop p).joins = p.joins ∧
      (cams.foldl Proc.raiseStop p).closed = p.closed := by
  induction cams generalizing p with
  | nil => exact ⟨rfl, rfl, rfl⟩
  | cons c rest ih => exact ih (p.raiseStop c)

theorem raiseStops_keep {cams : List Int} {p : Proc} {d : Int} (h : p.stop d = true) :
    (cams.foldl Proc.raiseStop p).stop d = true := by
  induction cams generalizing p with
  | nil => exact h
  | cons c rest ih =>
      apply ih
      simp only [Proc.raiseStop]
      split
      · rfl
      · exact h

theorem raiseStops_stop {cams : List Int} {p : Proc} {c : Int} (hc : c ∈ cams) :
    (cams.foldl Proc.raiseStop p).stop c = true := by
  induction cams generalizing p with
  | nil => cases hc
  | cons d rest ih =>
      rcases List.mem_cons.mp hc with rfl | hc
      · have hraised : (p.raiseStop c).stop c = true := by simp [Proc.raiseStop]
        rw [List.foldl_cons]
        exact raiseStops_keep hraised
      · exact ih hc

theorem closeCameras_frame (cams : List Int) (p : Proc) :
    cams.foldl Proc.closeCamera p = { p with closed := p.closed ++ cams } := by
  induction cams generalizing p with
  | nil => simp
  | cons c rest ih =>
      rw [List.foldl_cons, ih]
      simp [Proc.closeCamera]

theorem waitHttp_ok {p p' : Proc} (h : p.waitHttp = .ok p') :
    (p.th .http = .null ∨ p.th .http = .running) ∧ p'.closed = p.closed ∧
      ∀ c k, p'.joins.count (.cam c k) = p.joins.count (.cam c k) := by
  unfold Proc.waitHttp at h
  split at h
  next hth =>
    cases h
    exact ⟨.inl hth, rfl, fun _ _ => rfl⟩
  next hth =>
    cases h
    refine ⟨.inr hth, rfl, ?_⟩
    intro c k
    simp [Proc.join, Proc.set]
  next => cases h
  next => cases h

/-- What the handler makes of a process: it can wait on every thread pointer. -/
structure Ready (cams : CamManager) (p : Proc) : Prop where
  cam : ∀ c ∈ cams.ids, ∀ k, (p.th (.cam c k)).ready = true
  http : p.th .http = .null ∨ p.th .http = .running

/-- When the handler exits, it has joined what was running and closed every camera. -/
theorem sigHandler_ok {cams : CamManager} {p p' : Proc} (h : sigHandler cams.ids p = .ok p') :
    Ready cams p ∧ ∀ c ∈ cams.ids, p'.closed.count c = p.closed.count c + 1 ∧
      ∀ k, p'.joins.count (.cam c k) =
        p.joins.count (.cam c k) + (p.th (.cam c k)).owed := by
  obtain ⟨q, hq, hhttp⟩ := bind_ok.mp h
  obtain ⟨hready, hw⟩ := waitCams_ok cams.nodup hq
  obtain ⟨hth, hjoins, hclosed⟩ := raiseStops_frame cams.ids p
  rw [closeCameras_frame] at hhttp
  obtain ⟨hnull, hclosed', hjoins'⟩ := waitHttp_ok hhttp
  have hhttp_slot : Slot.http ∉ cams.ids.flatMap slots := by simp
  rw [hth] at hready
  have hhttp_th : p.th .http = .null ∨ p.th .http = .running := by
    rw [← hth, ← hw.th _ hhttp_slot]
    exact hnull
  refine ⟨⟨hready, hhttp_th⟩, ?_⟩
  intro c hc
  refine ⟨?_, ?_⟩
  · rw [hclosed', List.count_append, hw.closed, hclosed,
      List.nodup_iff_count_eq_one.mp cams.nodup c hc]
  · intro k
    have hslot : Slot.cam c k ∈ cams.ids.flatMap slots :=
      List.mem_flatMap.mpr ⟨c, hc, mem_slots.mpr ⟨k, rfl⟩⟩
    have hcount := hw.joins (.cam c k)
    rw [if_pos hslot, hth, hjoins] at hcount
    rw [hjoins' c k]
    exact hcount

theorem sigHandler_ready {cams : CamManager} {p : Proc} (h : Ready cams p) :
    ∃ p', sigHandler cams.ids p = .ok p' := by
  obtain ⟨hth, -, -⟩ := raiseStops_frame cams.ids p
  have hcam : ∀ c ∈ cams.ids, ∀ k,
      ((cams.ids.foldl Proc.raiseStop p).th (.cam c k)).ready = true := by
    intro c hc k
    rw [hth]
    exact h.cam c hc k
  obtain ⟨q, hq⟩ := waitCams_ready cams.nodup (fun _ hc => raiseStops_stop hc) hcam
  have hhttp_slot : Slot.http ∉ cams.ids.flatMap slots := by simp
  have hhttp := (waitCams_ok cams.nodup hq).2.th _ hhttp_slot
  rw [hth] at hhttp
  have hwait : ∃ p', (cams.ids.foldl Proc.closeCamera q).waitHttp = .ok p' := by
    rw [closeCameras_frame]
    unfold Proc.waitHttp
    simp only [hhttp]
    rcases h.http with hnull | hrunning
    · rw [hnull]
      exact ⟨_, rfl⟩
    · rw [hrunning]
      exact ⟨_, rfl⟩
  obtain ⟨p', hp'⟩ := hwait
  exact ⟨p', bind_ok.mpr ⟨q, hq, hp'⟩⟩

end AutoExpo.Interrupt
