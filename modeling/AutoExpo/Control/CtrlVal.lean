import AutoExpo.Camera.State
import AutoExpo.Kit.Runs

/-!
# Control values

`setCtrlVal` and `setExpoMilliSec`, which set a control value of the camera and
keep what the camera reports in `ctrlVal`, `ctrlValAuto` and `expo_ms`. The
SDK's answers come with the call; the read-back by `ASIGetControlValue` stands
in an assertion and succeeds. `expo_ms` is a rational, exactly.

An exposure setting that `ASISetControlValue` refuses leaves the requested time
in `expo_ms`. The recorded time is the camera's, after every call of a run, if
and only if the refused exposure settings ask for the time that is recorded
already (`expo_recorded`).
-/

namespace AutoExpo.Control

open Kit

/-- `ASI_CONTROL_TYPE`; `other` stands for those that `_CtrlType` does not name. -/
inductive CtrlType
  | gain
  | exposure
  | coolerOn
  | targetTemp
  | gamma
  | monoBin
  | highSpeedMode
  | bandwidthOverload
  | flip
  | other (code : Nat)
  deriving DecidableEq

/-- The keys of `_CtrlType`. -/
def CtrlType.named : CtrlType → Bool
  | .other _ => false
  | _ => true

def ASI_ERROR_GENERAL_ERROR : AsiError := 16

/-- A conversion to `long`: towards zero. -/
def toLong (r : Rat) : Int := r.num.tdiv r.den

/-- The members of `ASICamHandler` that hold control values. -/
structure Ctrl where
  expoMs : Rat
  ctrlVal : CtrlType → Option Int
  ctrlValAuto : CtrlType → Option Bool

/-- `expo_ms` in microseconds, as the code compares it with exposure values. -/
def Ctrl.expoUs (h : Ctrl) : Int := toLong (h.expoMs * 1000)

/-- What the SDK answers: the result of `ASISetControlValue`, and the value and flag
that `ASIGetControlValue` reads back. -/
structure Answer where
  res : AsiError
  val : Int
  auto : Bool

/-- How a call ends; `_CtrlType.at` throws for a type it does not name. -/
inductive Outcome
  | returned (res : AsiError)
  | outOfRange
  deriving DecidableEq

def Ctrl.saveCtrlVal (h : Ctrl) (type : CtrlType) (val : Int) (auto : Bool) : Ctrl :=
  { h with
    ctrlVal := fun t => if t = type then some val else h.ctrlVal t
    ctrlValAuto := fun t => if t = type then some auto else h.ctrlValAuto t }

/-- "Ugly sync expo". -/
def Ctrl.syncExpo (h : Ctrl) (type : CtrlType) (val : Int) : Ctrl :=
  if type = .exposure ∧ val ≠ h.expoUs then { h with expoMs := (val : Rat) / 1000 } else h

/-- The flag goes to the camera only; what is kept is the flag read back. -/
def Ctrl.setCtrlVal (h : Ctrl) (type : CtrlType) (val : Int) (_auto : Bool) (sdk : Answer) :
    Ctrl × Outcome :=
  if type.named then
    if sdk.res ≠ ASI_SUCCESS then
      -- only logged: `val` is still what was asked for
      (h.syncExpo type val, .returned sdk.res)
    else ((h.saveCtrlVal type sdk.val sdk.auto).syncExpo type sdk.val, .returned sdk.res)
  else (h, .outOfRange)

def Ctrl.setExpoMilliSec (h : Ctrl) (expoMs : Rat) (sdk : Answer) : Ctrl × Outcome :=
  if expoMs < 0 ∨ 60 * 1000 < expoMs then (h, .returned ASI_ERROR_GENERAL_ERROR)
  else
    let h := { h with expoMs := expoMs }
    h.setCtrlVal .exposure h.expoUs false sdk

inductive Call
  | setCtrlVal (type : CtrlType) (val : Int) (auto : Bool)
  | setExpoMilliSec (expoMs : Rat)

def Ctrl.call (h : Ctrl) (sdk : Answer) : Call → Ctrl × Outcome
  | .setCtrlVal type val auto => h.setCtrlVal type val auto sdk
  | .setExpoMilliSec expoMs => h.setExpoMilliSec expoMs sdk

/-- A handler whose setters are called, in any state before the first call. -/
def setters : TSys Ctrl (Call × Answer) where
  init _ := True
  step h a := some (h.call a.2 a.1).1

/-- The call passes an exposure value to `ASISetControlValue`. -/
def Call.setsExposure : Call → Bool
  | .setCtrlVal type _ _ => type = .exposure
  | .setExpoMilliSec expoMs => 0 ≤ expoMs ∧ expoMs ≤ 60 * 1000

/-- The exposure value the camera reported at the last setting it accepted. -/
def noteReported (reported : Option Int) (_ : Ctrl) (a : Call × Answer) : Option Int :=
  if a.1.setsExposure ∧ a.2.res = ASI_SUCCESS then some a.2.val else reported

/-- The setters, with what the camera has reported. -/
def reporting : TSys (Ctrl × Option Int) (Call × Answer) := setters.record none noteReported

/-- The recorded exposure time is the reported one. -/
def Synced (p : Ctrl × Option Int) : Prop := ∀ v, p.2 = some v → p.1.expoUs = v

/-- After the call the recorded time is the reported one, and a call that fails has
changed nothing. -/
def Kept (p : Ctrl × Option Int) (a : Call × Answer) (p' : Ctrl × Option Int) : Prop :=
  Synced p' ∧ ((p.1.call a.2 a.1).2 ≠ .returned ASI_SUCCESS → p'.1 = p.1)

/-- The camera refuses no exposure setting but of the time that is recorded already. -/
def RefusesNothingNew (p : Ctrl × Option Int) (a : Call × Answer) (_ : Ctrl × Option Int) :
    Prop :=
  match a.1 with
  | .setCtrlVal type val _ => type = .exposure → a.2.res ≠ ASI_SUCCESS → val = p.1.expoUs
  | .setExpoMilliSec expoMs =>
      (0 ≤ expoMs ∧ expoMs ≤ 60 * 1000) → a.2.res ≠ ASI_SUCCESS → expoMs = p.1.expoMs

/-! ## Microseconds -/

theorem toLong_intCast (v : Int) : toLong v = v := by
  simp [toLong]

/-- A whole number of microseconds is recorded exactly. -/
theorem expoUs_of_val (h : Ctrl) (v : Int) :
    Ctrl.expoUs { h with expoMs := (v : Rat) / 1000 } = v := by
  have hms : (v : Rat) / 1000 * 1000 = v := by
    rw [Rat.div_mul_cancel (by decide)]
  rw [Ctrl.expoUs, hms, toLong_intCast]

theorem syncExpo_expoUs (h : Ctrl) (val : Int) : (h.syncExpo .exposure val).expoUs = val := by
  unfold Ctrl.syncExpo
  split_ifs with hsync
  · exact expoUs_of_val h val
  · simp only [true_and, not_not] at hsync
    exact hsync.symm

theorem syncExpo_other {h : Ctrl} {type : CtrlType} {val : Int} (htype : type ≠ .exposure) :
    h.syncExpo type val = h := by
  simp [Ctrl.syncExpo, htype]

/-- A resynchronisation leaves the handler as it is just when the value is the recorded
one. -/
theorem syncExpo_eq_self {h : Ctrl} {val : Int} :
    h.syncExpo .exposure val = h ↔ val = h.expoUs := by
  refine ⟨?_, ?_⟩
  · intro hsame
    rw [← syncExpo_expoUs h val, hsame]
  · intro hval
    simp [Ctrl.syncExpo, hval]

/-! ## What a call does -/

variable {p p' : Ctrl × Option Int} {sdk : Answer}

theorem reporting_step {a : Call × Answer} (h : reporting.step p a = some p') :
    p'.1 = (p.1.call a.2 a.1).1 ∧ p'.2 = noteReported p.2 p.1 a := by
  obtain ⟨hstep, hnote⟩ := TSys.record_step.mp h
  simp only [setters, Option.some.injEq] at hstep
  exact ⟨hstep.symm, hnote⟩

/-- After a setting that is reported and recorded. -/
theorem synced_of_reported {v : Int} (hreported : p'.2 = some v) (hexpo : p'.1.expoUs = v) :
    Synced p' := by
  intro w hw
  rw [hreported, Option.some.injEq] at hw
  rw [hexpo, hw]

/-- After a call that reports nothing and leaves the exposure time alone. -/
theorem Synced.same (hs : Synced p) (hreported : p'.2 = p.2) (hexpo : p'.1.expoUs = p.1.expoUs) :
    Synced p' := by
  intro v hv
  rw [hexpo]
  exact hs v (hreported ▸ hv)

/-- What `ASISetControlValue` accepts is kept as the camera reports it. -/
theorem accepted_synced {h : Ctrl} {type : CtrlType} {val : Int} {auto : Bool}
    (hres : sdk.res = ASI_SUCCESS) (htype : type = .exposure) :
    (h.setCtrlVal type val auto sdk).1.expoUs = sdk.val ∧
      (h.setCtrlVal type val auto sdk).2 = .returned ASI_SUCCESS := by
  subst htype
  simp [Ctrl.setCtrlVal, CtrlType.named, hres, syncExpo_expoUs]

/-- What it refuses is kept only where it is an exposure value: the requested one. -/
theorem refused_call {h : Ctrl} {type : CtrlType} {val : Int} {auto : Bool}
    (hres : sdk.res ≠ ASI_SUCCESS) :
    (h.setCtrlVal type val auto sdk).1 = h.syncExpo type val ∧
      (h.setCtrlVal type val auto sdk).2 ≠ .returned ASI_SUCCESS := by
  unfold Ctrl.setCtrlVal
  split_ifs with hnamed
  · exact ⟨rfl, by simpa using hres⟩
  · have htype : type ≠ .exposure := by
      rintro rfl
      exact hnamed rfl
    exact ⟨(syncExpo_other htype).symm, by simp⟩

/-- A setting of another control leaves the exposure time alone. -/
theorem other_call {h : Ctrl} {type : CtrlType} {val : Int} {auto : Bool}
    (htype : type ≠ .exposure) : (h.setCtrlVal type val auto sdk).1.expoMs = h.expoMs ∧
      ((h.setCtrlVal type val auto sdk).2 ≠ .returned ASI_SUCCESS →
        (h.setCtrlVal type val auto sdk).1 = h) := by
  unfold Ctrl.setCtrlVal
  simp only [syncExpo_other htype]
  split_ifs with hnamed hres
  · exact ⟨rfl, fun _ => rfl⟩
  · simp only [ne_eq, not_not] at hres
    exact ⟨rfl, fun hfail => absurd (by rw [hres]) hfail⟩
  · exact ⟨rfl, fun _ => rfl⟩

theorem setCtrlVal_kept {type : CtrlType} {val : Int} {auto : Bool} (hs : Synced p)
    (h : reporting.step p (.setCtrlVal type val auto, sdk) = some p') :
    Kept p (.setCtrlVal type val auto, sdk) p' ↔
      RefusesNothingNew p (.setCtrlVal type val auto, sdk) p' := by
  obtain ⟨hctrl, hnote⟩ := reporting_step h
  simp only [Ctrl.call] at hctrl
  simp only [Kept, RefusesNothingNew, Ctrl.call]
  by_cases htype : type = .exposure
  · subst htype
    by_cases hres : sdk.res = ASI_SUCCESS
    · obtain ⟨hexpo, hout⟩ := @accepted_synced sdk p.1 .exposure val auto hres rfl
      simp only [noteReported, Call.setsExposure, hres, decide_true, and_self, if_true] at hnote
      have hsynced : Synced p' := synced_of_reported hnote (hctrl ▸ hexpo)
      simp [hsynced, hout, hres]
    · obtain ⟨hsync, hfail⟩ := @refused_call sdk p.1 .exposure val auto hres
      simp only [noteReported, hres, and_false, if_false] at hnote
      rw [hctrl, hsync]
      simp only [hfail, ne_eq, not_false_eq_true, forall_const, hres, syncExpo_eq_self]
      refine ⟨?_, ?_⟩
      · exact fun hboth => hboth.2
      · intro hval
        refine ⟨hs.same hnote ?_, hval⟩
        rw [hctrl, hsync, syncExpo_eq_self.mpr hval]
  · obtain ⟨hexpo, hfail⟩ := @other_call sdk p.1 type val auto htype
    simp only [noteReported, Call.setsExposure, htype, decide_false, Bool.false_eq_true,
      false_and, if_false] at hnote
    have hsynced : Synced p' := hs.same hnote (by rw [hctrl, Ctrl.expoUs, hexpo, Ctrl.expoUs])
    rw [hctrl]
    simp only [htype, false_imp_iff, iff_true]
    exact ⟨hsynced, hfail⟩

theorem setExpoMilliSec_kept {expoMs : Rat} (hs : Synced p)
    (h : reporting.step p (.setExpoMilliSec expoMs, sdk) = some p') :
    Kept p (.setExpoMilliSec expoMs, sdk) p' ↔
      RefusesNothingNew p (.setExpoMilliSec expoMs, sdk) p' := by
  obtain ⟨hctrl, hnote⟩ := reporting_step h
  by_cases hrange : 0 ≤ expoMs ∧ expoMs ≤ 60 * 1000
  · have hin : ¬ (expoMs < 0 ∨ 60 * 1000 < expoMs) := by
      rw [not_or, Rat.not_lt, Rat.not_lt]
      exact hrange
    simp only [Ctrl.call, Ctrl.setExpoMilliSec, if_neg hin] at hctrl
    simp only [Kept, RefusesNothingNew, Ctrl.call, Ctrl.setExpoMilliSec, if_neg hin]
    by_cases hres : sdk.res = ASI_SUCCESS
    · obtain ⟨hexpo, hout⟩ := @accepted_synced sdk { p.1 with expoMs := expoMs } .exposure
        (Ctrl.expoUs { p.1 with expoMs := expoMs }) false hres rfl
      simp only [noteReported, Call.setsExposure, hrange, hres, and_self, decide_true,
        if_true] at hnote
      have hsynced : Synced p' := synced_of_reported hnote (hctrl ▸ hexpo)
      simp [hsynced, hout, hres]
    · obtain ⟨hsync, hfail⟩ := @refused_call sdk { p.1 with expoMs := expoMs } .exposure
        (Ctrl.expoUs { p.1 with expoMs := expoMs }) false hres
      rw [syncExpo_eq_self.mpr rfl] at hsync
      simp only [noteReported, hres, and_false, if_false] at hnote
      rw [hctrl, hsync]
      simp only [hfail, ne_eq, not_false_eq_true, forall_const, hres, hrange, and_self]
      -- the requested time is in `expo_ms` already when the camera refuses it
      refine ⟨?_, ?_⟩
      · rintro ⟨-, hsame⟩
        rw [← hsame]
      · rintro rfl
        exact ⟨hs.same hnote (by rw [hctrl, hsync]), rfl⟩
  · have hout : expoMs < 0 ∨ 60 * 1000 < expoMs := by
      rw [← Rat.not_le, ← Rat.not_le, ← not_and_or]
      exact hrange
    simp only [Ctrl.call, Ctrl.setExpoMilliSec, if_pos hout] at hctrl
    simp only [noteReported, Call.setsExposure, hrange, decide_false, Bool.false_eq_true,
      false_and, if_false] at hnote
    have hsynced : Synced p' := hs.same hnote (by rw [hctrl])
    simp [Kept, RefusesNothingNew, hrange, hsynced, hctrl]

/-- In every run of the setters, each call leaves the recorded exposure time at the
reported one and changes nothing when it fails, if and only if the camera refuses no
exposure setting but of the time that is recorded already. -/
theorem expo_recorded (h : Ctrl) (ls : List (Call × Answer)) :
    reporting.Along Kept (h, none) ls ↔ reporting.Along RefusesNothingNew (h, none) ls := by
  have hsame : ∀ p a p', Synced p → reporting.step p a = some p' →
      (Kept p a p' ↔ RefusesNothingNew p a p') := by
    rintro p ⟨call, sdk⟩ p' hs hstep
    cases call with
    | setCtrlVal type val auto => exact setCtrlVal_kept hs hstep
    | setExpoMilliSec expoMs => exact setExpoMilliSec_kept hs hstep
  apply TSys.along_iff (I := Synced)
  · intro p a p' hs hstep hcond
    exact ((hsame p a p' hs hstep).mpr hcond).1
  · exact hsame
  · intro v hv
    cases hv

/-- A handler as it is constructed. -/
def Ctrl.fresh : Ctrl where
  expoMs := 100
  ctrlVal := fun _ => none
  ctrlValAuto := fun _ => none

/-- A setting of 100 ms is accepted, one of 200 ms refused: the camera goes on to expose
100 ms and `expo_ms` says 200. -/
theorem refused_time_recorded :
    ¬ ∀ (h : Ctrl) (ls : List (Call × Answer)), reporting.Along Kept (h, none) ls := by
  intro hall
  obtain ⟨-, hrest⟩ := hall Ctrl.fresh
    [(.setExpoMilliSec 100, ⟨ASI_SUCCESS, 100000, false⟩), (.setExpoMilliSec 200, ⟨1, 0, false⟩)]
    _ rfl
  obtain ⟨⟨hsynced, -⟩, -⟩ := hrest _ rfl
  exact absurd (hsynced 100000 (by decide +kernel)) (by decide +kernel)

end AutoExpo.Control
