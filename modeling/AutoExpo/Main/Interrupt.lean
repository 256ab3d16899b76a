import AutoExpo.Main.SigHandler
import Mathlib.Data.List.Count

/-!
# SIGINT at every point of `main`

Each thread pointer goes through the same few operations of `main`, once
(`opsOn_program`), so the operations `main` has still to run tell the state of
every pointer (`Wf`), and with it what the handler meets. It meets nothing but
threads it can wait on between the last `expo_loop_start` and the first join,
and at one point more (`orderly_iff`).
-/

namespace AutoExpo.Interrupt

open Kit

/-! ## What the operations to come tell of the process -/

/-- The operations of `main` on a thread pointer, in order. -/
def Slot.life (x : Slot) : List Op :=
  match x with
  | .cam _ _ => [.start x, .joinable x, .joinBegin x, .joinEnd x, .reset x]
  | .http => [.start x, .joinBegin x, .joinEnd x]

/-- The pointer an operation is about. -/
def Op.slot : Op → Option Slot
  | .start x | .joinable x | .joinBegin x | .joinEnd x | .reset x => some x
  | _ => none

/-- The operations on `x` among `ops`. -/
def opsOn (x : Slot) (ops : List Op) : List Op := ops.filter fun op => op.slot = some x

/-- The state of the pointer `x` before its next operation. -/
def ptrBefore (x : Slot) : List Op → Ptr
  | .start _ :: _ => .null
  | .joinable _ :: _ | .joinBegin _ :: _ => .running
  | .joinEnd _ :: _ => .joining
  | .reset _ :: _ => .joined
  | _ => match x with
      | .cam _ _ => .null
      | .http => .joined

theorem opsOn_append (x : Slot) (l l' : List Op) : opsOn x (l ++ l') = opsOn x l ++ opsOn x l' :=
  List.filter_append l l'

theorem opsOn_cons_of_ne {x : Slot} {op : Op} {rest : List Op} (h : op.slot ≠ some x) :
    opsOn x (op :: rest) = opsOn x rest := by
  simp [opsOn, h]

theorem opsOn_cons_of_eq {x : Slot} {op : Op} {rest : List Op} (h : op.slot = some x) :
    opsOn x (op :: rest) = op :: opsOn x rest := by
  simp [opsOn, h]

theorem opsOn_suffix {x : Slot} {l l' : List Op} (h : l <:+ l') : opsOn x l <:+ opsOn x l' :=
  h.filter _

theorem count_opsOn {x : Slot} {op : Op} (l : List Op) (h : op.slot = some x) :
    (opsOn x l).count op = l.count op :=
  List.count_filter (by simpa using h)

/-- Of one block for each camera, only the block of `c` has operations on its threads. -/
theorem flatMap_single {α : Type} {cams : List Int} (hnodup : cams.Nodup) {c : Int} (hc : c ∈ cams)
    {f : Int → List α} {l : List α} (hf : ∀ d, f d = if d = c then l else []) :
    cams.flatMap f = l := by
  induction cams with
  | nil => cases hc
  | cons d rest ih =>
      obtain ⟨hd, hrest⟩ := List.nodup_cons.mp hnodup
      rw [List.flatMap_cons, hf d]
      rcases List.mem_cons.mp hc with rfl | hc
      · have hnone : rest.flatMap f = [] := by
          rw [List.flatMap_eq_nil_iff]
          intro e he
          rw [hf e, if_neg fun (h : e = c) => hd (h ▸ he)]
        rw [if_pos rfl, hnone, List.append_nil]
      · rw [if_neg fun (h : d = c) => hd (h ▸ hc), ih hrest hc, List.nil_append]

theorem opsOn_flatMap (x : Slot) (cams : List Int) (f : Int → List Op) :
    opsOn x (cams.flatMap f) = cams.flatMap fun c => opsOn x (f c) :=
  List.filter_flatMap

theorem opsOn_map_nil (x : Slot) (cams : List Int) (f : Int → Op) (hf : ∀ c, (f c).slot = none) :
    opsOn x (cams.map f) = [] := by
  simp [opsOn, hf]

/-- The threads `main` starts. -/
def Known (cams : CamManager) : Slot → Prop
  | .cam c _ => c ∈ cams.ids
  | .http => True

theorem opsOn_setUp {cams : CamManager} {x : Slot} (hx : Known cams x) :
    opsOn x (setUp cams.ids) = [.start x] := by
  have hinit : opsOn x (cams.ids.flatMap initCam) = [] := by
    rw [opsOn_flatMap, List.flatMap_eq_nil_iff]
    intro c _
    simp [opsOn, initCam, Op.slot]
  have hcooler := opsOn_map_nil x cams.ids .initCooler fun _ => rfl
  have hsetup := opsOn_map_nil x cams.ids .setup fun _ => rfl
  have hroi := opsOn_map_nil x cams.ids .setROIFormat fun _ => rfl
  simp only [setUp, opsOn_append, hinit, hcooler, hsetup, hroi, List.nil_append]
  cases x with
  | http =>
      have hstart : opsOn .http (cams.ids.flatMap startCam) = [] := by
        rw [opsOn_flatMap, List.flatMap_eq_nil_iff]
        intro c _
        simp [opsOn, startCam, Op.slot]
      rw [hstart]
      simp [opsOn, Op.slot]
  | cam c k =>
      have hstart : opsOn (.cam c k) (cams.ids.flatMap startCam) = [.start (.cam c k)] := by
        rw [opsOn_flatMap]
        apply flatMap_single cams.nodup hx
        intro d
        by_cases hd : d = c
        · cases k <;> simp [opsOn, startCam, Op.slot, hd]
        · simp [opsOn, startCam, Op.slot, hd]
      rw [hstart]
      simp [opsOn, Op.slot]

theorem opsOn_windUp {cams : CamManager} {x : Slot} (hx : Known cams x) :
    opsOn x (windUp cams.ids) = x.life.tail := by
  have hclose := opsOn_map_nil x cams.ids .closeCamera fun _ => rfl
  simp only [windUp, opsOn_append, hclose, List.append_nil]
  cases x with
  | http =>
      have hwait : opsOn .http (cams.ids.flatMap waitAllThreads) = [] := by
        rw [opsOn_flatMap, List.flatMap_eq_nil_iff]
        intro c _
        simp [opsOn, waitAllThreads, waitThread, Op.slot]
      rw [hwait]
      simp [opsOn, Op.slot, Slot.life]
  | cam c k =>
      have hwait : opsOn (.cam c k) (cams.ids.flatMap waitAllThreads) =
          (Slot.cam c k).life.tail := by
        rw [opsOn_flatMap]
        apply flatMap_single cams.nodup hx
        intro d
        by_cases hd : d = c
        · cases k <;> simp [opsOn, waitAllThreads, waitThread, Op.slot, Slot.life, hd]
        · simp [opsOn, waitAllThreads, waitThread, Op.slot, hd]
      rw [hwait]
      simp [opsOn, Op.slot]

/-- `main` takes each pointer through its operations once. -/
theorem opsOn_program {cams : CamManager} {x : Slot} (hx : Known cams x) :
    opsOn x (program cams.ids) = x.life := by
  rw [program, opsOn_append, opsOn_setUp hx, opsOn_windUp hx]
  cases x <;> rfl

theorem exec_th_other {op : Op} {x : Slot} (p : Proc) (h : op.slot ≠ some x) :
    (op.exec p).th x = p.th x := by
  cases op with
  | start y | joinBegin y | joinEnd y | reset y =>
      have hne : x ≠ y := by
        intro hxy
        exact h (by rw [Op.slot, hxy])
      simp [Op.exec, Proc.set, Proc.join, hne]
  | _ => rfl

/-- An operation on a pointer takes it to the state before the next one. -/
theorem exec_th {op : Op} {x : Slot} {rest : List Op} {p : Proc} (hlife : op :: rest <:+ x.life)
    (hp : p.th x = ptrBefore x (op :: rest)) : (op.exec p).th x = ptrBefore x rest := by
  cases x with
  | http =>
      simp only [Slot.life, List.suffix_cons_iff, List.suffix_nil, List.cons.injEq] at hlife
      rcases hlife with ⟨rfl, rfl⟩ | ⟨rfl, rfl⟩ | ⟨rfl, rfl⟩ | h
      · simp [Op.exec, Proc.set, ptrBefore]
      · simp [Op.exec, Proc.set, ptrBefore]
      · simp [Op.exec, Proc.join, Proc.set, ptrBefore]
      · cases h
  | cam c k =>
      simp only [Slot.life, List.suffix_cons_iff, List.suffix_nil, List.cons.injEq] at hlife
      rcases hlife with ⟨rfl, rfl⟩ | ⟨rfl, rfl⟩ | ⟨rfl, rfl⟩ | ⟨rfl, rfl⟩ | ⟨rfl, rfl⟩ | h
      · simp [Op.exec, Proc.set, ptrBefore]
      · exact hp
      · simp [Op.exec, Proc.set, ptrBefore]
      · simp [Op.exec, Proc.join, Proc.set, ptrBefore]
      · simp [Op.exec, Proc.set, ptrBefore]
      · cases h

/-! ## The points of `main` -/

/-- What `main` still has to run tells what it has done. -/
structure Wf (cams : CamManager) (m : State) : Prop where
  suffix : m.todo <:+ program cams.ids
  th : ∀ x, Known cams x → m.proc.th x = ptrBefore x (opsOn x m.todo)
  joins : ∀ x, Known cams x → m.proc.joins.count x + m.todo.count (.joinEnd x) = 1
  closed : ∀ c ∈ cams.ids, m.proc.closed.count c + m.todo.count (.closeCamera c) = 1

theorem count_closeCamera {cams : CamManager} {c : Int} (hc : c ∈ cams.ids) :
    (program cams.ids).count (.closeCamera c) = 1 := by
  have hsetUp : (setUp cams.ids).count (.closeCamera c) = 0 :=
    List.count_eq_zero.mpr (by simp [setUp, initCam, startCam])
  have hwait : (cams.ids.flatMap waitAllThreads).count (.closeCamera c) = 0 :=
    List.count_eq_zero.mpr (by simp [waitAllThreads, waitThread])
  have hclose : (cams.ids.map Op.closeCamera).count (.closeCamera c) = 1 := by
    have hinj : Function.Injective Op.closeCamera := by
      intro a b h
      cases h
      rfl
    rw [List.count_map_of_injective _ _ hinj]
    exact List.nodup_iff_count_eq_one.mp cams.nodup c hc
  simp [program, windUp, hsetUp, hwait, hclose]

theorem wf_start (cams : CamManager) : Wf cams (start cams) := by
  refine ⟨List.suffix_refl _, ?_, ?_, ?_⟩
  · intro x hx
    show Ptr.null = ptrBefore x (opsOn x (program cams.ids))
    rw [opsOn_program hx]
    cases x <;> rfl
  · intro x hx
    show 0 + (program cams.ids).count (.joinEnd x) = 1
    rw [← count_opsOn (x := x) _ rfl, opsOn_program hx]
    cases x <;> simp [Slot.life]
  · intro c hc
    show 0 + (program cams.ids).count (.closeCamera c) = 1
    rw [count_closeCamera hc]

theorem exec_joins (op : Op) (p : Proc) (x : Slot) :
    (op.exec p).joins.count x = p.joins.count x + [op].count (.joinEnd x) := by
  cases op with
  | joinEnd y => by_cases hy : y = x <;> simp [Op.exec, Proc.join, hy]
  | _ => simp [Op.exec, Proc.set, Proc.raiseStop, Proc.closeCamera]

theorem exec_closed (op : Op) (p : Proc) (c : Int) :
    (op.exec p).closed.count c = p.closed.count c + [op].count (.closeCamera c) := by
  cases op with
  | closeCamera d => by_cases hd : d = c <;> simp [Op.exec, Proc.closeCamera, hd]
  | _ => simp [Op.exec, Proc.set, Proc.join, Proc.raiseStop]

/-- One operation of `main`. -/
theorem Wf.next {cams : CamManager} {op : Op} {rest : List Op} {p : Proc}
    (h : Wf cams { todo := op :: rest, proc := p }) :
    Wf cams { todo := rest, proc := op.exec p } := by
  refine ⟨(List.suffix_cons op rest).trans h.suffix, ?_, ?_, ?_⟩
  · intro x hx
    have hth := h.th x hx
    -- only the pointer the operation is about changes, and only its list of operations
    by_cases hslot : op.slot = some x
    · have hlife := opsOn_suffix (x := x) h.suffix
      rw [opsOn_program hx] at hlife
      simp only [opsOn_cons_of_eq hslot] at hth hlife
      exact exec_th hlife hth
    · simp only [opsOn_cons_of_ne hslot] at hth
      exact (exec_th_other p hslot).trans hth
  · intro x hx
    have hjoins := h.joins x hx
    have hexec := exec_joins op p x
    simp only [List.count_cons, List.count_nil] at hjoins hexec ⊢
    omega
  · intro c hc
    have hclosed := h.closed c hc
    have hexec := exec_closed op p c
    simp only [List.count_cons, List.count_nil] at hclosed hexec ⊢
    omega

/-- `main` is over, or what it has still to run tells what it has done. -/
theorem wf_inductive (cams : CamManager) :
    (main cams).Inductive fun m => m.todo = [] ∨ Wf cams m where
  init m h := .inr (h ▸ wf_start cams)
  step m a m' _ h hstep := by
    obtain ⟨todo, p⟩ := m
    change step ⟨todo, p⟩ a = some m' at hstep
    cases todo with
    | nil => cases a <;> cases hstep
    | cons op rest =>
        rcases h with h | h
        · cases h
        · cases a with
          | next =>
              cases hstep
              exact .inr h.next
          | fail =>
              simp only [step] at hstep
              split_ifs at hstep
              cases hstep
              exact .inl rfl

/-! ## When SIGINT is harmless -/

/-- `main` has started every thread, and has not begun to join the first camera's
exposure thread or has joined it without resetting the pointer. -/
def allRunning (cams : CamManager) (todo : List Op) : Bool :=
  todo = windUp cams.ids ∨ todo = (windUp cams.ids).drop 1 ∨ todo = (windUp cams.ids).drop 3

/-- The joins the handler makes of a pointer that is ready are those `main` has still
to make. -/
theorem owed_of_ready {x : Slot} {ops : List Op} (hlife : ops <:+ x.life)
    (hready : (ptrBefore x ops).ready = true) :
    (ptrBefore x ops).owed = ops.count (.joinEnd x) := by
  cases x with
  | http =>
      simp only [Slot.life, List.suffix_cons_iff, List.suffix_nil] at hlife
      rcases hlife with rfl | rfl | rfl | rfl <;>
        simp_all [ptrBefore, Ptr.owed, Ptr.ready]
  | cam c k =>
      simp only [Slot.life, List.suffix_cons_iff, List.suffix_nil] at hlife
      rcases hlife with rfl | rfl | rfl | rfl | rfl | rfl <;>
        simp_all [ptrBefore, Ptr.owed, Ptr.ready]

/-- `windUp` begins with the wait for the first camera's exposure thread. -/
theorem windUp_head (cams : CamManager) : ∃ c rest, c ∈ cams.ids ∧
    windUp cams.ids = waitThread (.cam c .expo) ++ rest := by
  obtain ⟨ids, hsorted, hne⟩ := cams
  cases ids with
  | nil => exact absurd rfl hne
  | cons c ids =>
      exact ⟨c, _, List.mem_cons_self, by
        simp [windUp, waitAllThreads]
        rfl⟩

/-- `setUp` ends with the start of the last camera's exposure thread. -/
theorem setUp_last (cams : CamManager) : ∃ c ∈ cams.ids,
    [.start (.cam c .expo)] <:+ setUp cams.ids := by
  obtain ⟨ids, c, hids⟩ := List.eq_nil_or_concat cams.ids |>.resolve_left cams.nonempty
  rw [List.concat_eq_append] at hids
  have hcam : [.start (.cam c .expo)] <:+ startCam c := ⟨[_, _], rfl⟩
  have hcams : startCam c <:+ cams.ids.flatMap startCam := ⟨ids.flatMap startCam, by simp [hids]⟩
  exact ⟨c, by simp [hids], hcam.trans (hcams.trans (List.suffix_append _ _))⟩

/-- A pointer is ready before its join begins, and before its reset. -/
theorem ready_cases {c : Int} {k : Thread} {ops : List Op} (hlife : ops <:+ (Slot.cam c k).life)
    (hready : (ptrBefore (.cam c k) ops).ready = true) :
    ops = (Slot.cam c k).life.drop 1 ∨ ops = (Slot.cam c k).life.drop 2 ∨
      ops = (Slot.cam c k).life.drop 4 := by
  simp only [Slot.life, List.suffix_cons_iff, List.suffix_nil] at hlife
  rcases hlife with rfl | rfl | rfl | rfl | rfl | rfl
  · cases hready
  · exact .inl rfl
  · exact .inr (.inl rfl)
  · cases hready
  · exact .inr (.inr rfl)
  · cases hready

variable {cams : CamManager} {m : State}

theorem Wf.life (h : Wf cams m) {x : Slot} (hx : Known cams x) : opsOn x m.todo <:+ x.life := by
  rw [← opsOn_program hx]
  exact opsOn_suffix h.suffix

theorem Wf.ready_cases (h : Wf cams m) (hready : Ready cams m.proc) {c : Int} (hc : c ∈ cams.ids)
    (k : Thread) : opsOn (.cam c k) m.todo = (Slot.cam c k).life.drop 1 ∨
      opsOn (.cam c k) m.todo = (Slot.cam c k).life.drop 2 ∨
      opsOn (.cam c k) m.todo = (Slot.cam c k).life.drop 4 := by
  have hknown : Known cams (.cam c k) := hc
  apply AutoExpo.Interrupt.ready_cases (h.life hknown)
  rw [← h.th _ hknown]
  exact hready.cam c hc k

/-- With every pointer ready, `main` is past its last `expo_loop_start`. -/
theorem Wf.past_setUp (h : Wf cams m) (hready : Ready cams m.proc) :
    m.todo <:+ windUp cams.ids := by
  obtain ⟨c, hc, front, hlast⟩ := setUp_last cams
  have hsuffix := h.suffix
  rw [program] at hsuffix
  rcases List.suffix_or_suffix_of_suffix hsuffix (List.suffix_append _ _) with hle | ⟨before, hge⟩
  · exact hle
  · rw [← hge, List.suffix_append_self_iff, ← hlast, List.suffix_concat_iff] at hsuffix
    rcases hsuffix with rfl | ⟨_, hbefore, -⟩
    · exact hge ▸ List.suffix_refl _
    · -- the start of the last exposure thread is still to come: its pointer is null
      have hstart : Op.start (.cam c .expo) ∈ opsOn (.cam c .expo) m.todo := by
        simp [opsOn, ← hge, hbefore, Op.slot]
      rcases h.ready_cases hready hc .expo with hops | hops | hops <;>
        simp [hops, Slot.life] at hstart

/-- With every pointer ready, `main` has not gone beyond the reset of the first. -/
theorem Wf.allRunning (h : Wf cams m) (hready : Ready cams m.proc) :
    Interrupt.allRunning cams m.todo = true := by
  obtain ⟨c, rest, hc, hhead⟩ := windUp_head cams
  have hrest : opsOn (.cam c .expo) rest = [] := by
    have hwind : opsOn (.cam c .expo) (windUp cams.ids) = _ :=
      opsOn_windUp (show Known cams _ from hc)
    rw [hhead, opsOn_append] at hwind
    simpa [opsOn, waitThread, Slot.life, Op.slot] using hwind
  have hsuffix := h.past_setUp hready
  have hcases := h.ready_cases hready hc .expo
  simp only [hhead, waitThread, List.cons_append, List.nil_append, List.suffix_cons_iff] at hsuffix
  rcases hsuffix with htodo | htodo | htodo | htodo | htodo
  · simp [Interrupt.allRunning, hhead, htodo, waitThread]
  · simp [Interrupt.allRunning, hhead, htodo, waitThread]
  · rw [htodo, opsOn_cons_of_eq rfl, opsOn_cons_of_eq rfl, hrest] at hcases
    simp [Slot.life] at hcases
  · simp [Interrupt.allRunning, hhead, htodo, waitThread]
  · have hnone : opsOn (.cam c .expo) m.todo = [] := by
      have hsuf := opsOn_suffix (x := .cam c .expo) htodo
      rw [hrest] at hsuf
      exact List.suffix_nil.mp hsuf
    rw [hnone] at hcases
    simp [Slot.life] at hcases

theorem opsOn_waitThread (x y : Slot) (n : Nat) :
    opsOn x ((waitThread y).drop n) = if y = x then (waitThread y).drop n else [] := by
  have hslot : ∀ op ∈ (waitThread y).drop n, op.slot = some y := by
    intro op hop
    have hmem := List.mem_of_mem_drop hop
    simp only [waitThread, List.mem_cons, List.not_mem_nil, or_false] at hmem
    rcases hmem with rfl | rfl | rfl | rfl <;> rfl
  by_cases hy : y = x
  · rw [if_pos hy, opsOn, List.filter_eq_self]
    intro op hop
    simp [hslot op hop, hy]
  · rw [if_neg hy, opsOn, List.filter_eq_nil_iff]
    intro op hop
    simp [hslot op hop, hy]

/-- Once every thread is running the handler can wait on every pointer, and no camera
has been closed. -/
theorem Wf.ready (h : Wf cams m) (hrunning : Interrupt.allRunning cams m.todo = true) :
    Ready cams m.proc ∧ ∀ c ∈ cams.ids, Op.closeCamera c ∈ m.todo := by
  obtain ⟨c, rest, hc, hhead⟩ := windUp_head cams
  have htodo : ∃ n, (n = 0 ∨ n = 1 ∨ n = 3) ∧
      m.todo = (waitThread (.cam c .expo)).drop n ++ rest := by
    simp only [Interrupt.allRunning, hhead, decide_eq_true_eq] at hrunning
    rcases hrunning with htodo | htodo | htodo
    · exact ⟨0, by simp, htodo⟩
    · exact ⟨1, by simp, htodo⟩
    · exact ⟨3, by simp, htodo⟩
  obtain ⟨n, hn, htodo⟩ := htodo
  have hptr : ∀ x, Known cams x → m.proc.th x = .running ∨
      (x = .cam c .expo ∧ m.proc.th x = .joined) := by
    intro x hx
    rw [h.th x hx, htodo, opsOn_append, opsOn_waitThread]
    by_cases hfirst : x = .cam c .expo
    · rw [if_pos hfirst.symm]
      rcases hn with rfl | rfl | rfl
      · exact .inl rfl
      · exact .inl rfl
      · exact .inr ⟨hfirst, rfl⟩
    · -- the operations on the other pointers all lie in `rest`
      have hops := opsOn_windUp hx
      have hnone := opsOn_waitThread x (.cam c .expo) 0
      rw [if_neg (Ne.symm hfirst)] at hnone ⊢
      rw [hhead, opsOn_append, show waitThread _ = (waitThread _).drop 0 from rfl, hnone,
        List.nil_append] at hops
      rw [List.nil_append, hops]
      cases x <;> exact .inl rfl
  refine ⟨⟨?_, ?_⟩, ?_⟩
  · intro d hd k
    rcases hptr (.cam d k) hd with hth | ⟨-, hth⟩ <;> rw [hth] <;> rfl
  · rcases hptr .http trivial with hth | ⟨hcam, -⟩
    · exact .inr hth
    · cases hcam
  · intro d hd
    have hmem : Op.closeCamera d ∈ windUp cams.ids := by simp [windUp, hd]
    rw [hhead, List.mem_append] at hmem
    rw [htodo]
    apply List.mem_append_right
    apply hmem.resolve_left
    simp [waitThread]

/-- SIGINT at a point of `main` leads to an orderly shutdown if and only if every
thread is running there. -/
theorem orderly_iff (cams : CamManager) (m : State) (hm : (main cams).Reachable m)
    (hlive : m.todo ≠ []) : Orderly cams m.proc ↔ allRunning cams m.todo = true := by
  have h : Wf cams m := ((wf_inductive cams).invariant m hm).resolve_left hlive
  refine ⟨?_, ?_⟩
  · rintro ⟨p', hexit, -⟩
    exact h.allRunning (sigHandler_ok hexit).1
  · intro hrunning
    obtain ⟨hready, hclose⟩ := h.ready hrunning
    obtain ⟨p', hexit⟩ := sigHandler_ready hready
    refine ⟨p', hexit, ?_⟩
    intro c hc
    obtain ⟨hclosed, hjoins⟩ := (sigHandler_ok hexit).2 c hc
    refine ⟨?_, ?_⟩
    · -- `main` has yet to close the camera, so it has not done so
      have hone := h.closed c hc
      have hpos := List.count_pos_iff.mpr (hclose c hc)
      omega
    · intro k
      have hknown : Known cams (.cam c k) := hc
      have hone := h.joins _ hknown
      have howed := owed_of_ready (h.life hknown) (h.th _ hknown ▸ hready.cam c hc k)
      rw [count_opsOn _ rfl, ← h.th _ hknown] at howed
      rw [hjoins k, howed, hone]

/-- Two cameras, as the SDK numbers them. -/
def twoCameras : CamManager where
  ids := [0, 1]
  sorted := by decide
  nonempty := by decide

/-- The first operations of `main`, all successful. -/
def upTo (ops : List Op) : List Act := ops.map fun _ => .next

theorem orderly_twoCameras : ∃ m, (main twoCameras).Reachable m ∧ m.todo ≠ [] ∧
    Orderly twoCameras m.proc := by
  obtain ⟨m, hm, hshape⟩ := TSys.Reachable.of_exec (show (main twoCameras).init _ from rfl)
    (show ((main twoCameras).exec (start twoCameras) (upTo (setUp twoCameras.ids))).any
      (fun m => m.todo ≠ [] && allRunning twoCameras m.todo) = true by decide +kernel)
  simp only [Bool.and_eq_true, decide_eq_true_eq] at hshape
  exact ⟨m, hm, hshape.1, (orderly_iff twoCameras m hm hshape.1).mpr hshape.2⟩

/-- A run that is stopped while it exposes: `main` is joining the first camera's exposure
thread, and the handler joins it again. -/
theorem join_under_way : ¬ ∀ (cams : CamManager) (m : State), (main cams).Reachable m →
    m.todo ≠ [] → Orderly cams m.proc := by
  intro hall
  obtain ⟨m, hm, hshape⟩ := TSys.Reachable.of_exec (show (main twoCameras).init _ from rfl)
    (show ((main twoCameras).exec (start twoCameras)
      (upTo (setUp twoCameras.ids ++ (windUp twoCameras.ids).take 2))).any
        (fun m => m.todo ≠ [] &&
          sigHandler twoCameras.ids m.proc matches .error (.joinUnderWay (.cam 0 .expo))) = true
      by decide +kernel)
  simp only [Bool.and_eq_true, decide_eq_true_eq] at hshape
  obtain ⟨p', hexit, -⟩ := hall twoCameras m hm hshape.1
  rw [hexit] at hshape
  cases hshape.2

end AutoExpo.Interrupt
