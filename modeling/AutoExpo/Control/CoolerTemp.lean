import AutoExpo.Control.CtrlVal

/-!
# The cooler's target temperature

`setCoolerTemp` compares the temperature with the range the camera announces for
ASI_TARGET_TEMP and sets it, and `cool_temp` is what `ctrlVal` holds then. The
comparison asks for a temperature above the maximum and below the minimum at
once, so it refuses none that is outside of a range (`outside_passed`).

Which temperatures are treated as the range asks is said by `keeps_range`.
-/

namespace AutoExpo.Control

/-! ## The code -/

/-- `MinValue` and `MaxValue` of ASI_CONTROL_CAPS. -/
structure Caps where
  minValue : Int
  maxValue : Int

/-- A conversion from `long` to `int32_t`. -/
def toInt32 (v : Int) : Int := (BitVec.ofInt 32 v).toInt

/-- The members of `ASICamHandler` that `setCoolerTemp` uses. -/
structure Handler where
  ctrl : Ctrl
  ctrlMap : CtrlType → Option Caps
  coolTemp : Int

/-- The SDK's answers, with the result of `ASIGetControlValue`. -/
structure Reply extends Answer where
  readBack : AsiError

/-- What ends a call otherwise than by its return. -/
inductive Failure
  | assertion
  | outOfRange
  | divisionByZero
  | aborted
  deriving DecidableEq

/-- The call gets as far as `ASISetControlValue`. -/
def Call.reaches : Call → Bool
  | .setCtrlVal type _ _ => type.named
  | .setExpoMilliSec expoMs => 0 ≤ expoMs ∧ expoMs ≤ 60 * 1000

/-- A setter; the read-back of a value that the camera has accepted is asserted. -/
def Ctrl.callAsserted (h : Ctrl) (sdk : Reply) (call : Call) : Except Failure (Ctrl × AsiError) :=
  if call.reaches ∧ sdk.res = ASI_SUCCESS ∧ sdk.readBack ≠ ASI_SUCCESS then .error .assertion
  else match h.call sdk.toAnswer call with
    | (h, .returned res) => .ok (h, res)
    | (_, .outOfRange) => .error .outOfRange

def Handler.setCtrlCaps (h : Handler) (type : CtrlType) (caps : Caps) : Handler :=
  { h with ctrlMap := fun t => if t = type then some caps else h.ctrlMap t }

/-- The temperature passed to the camera, and how the call ends. -/
structure Run where
  passed : Option Int
  result : Except Failure (Handler × AsiError)

/-- `cool_temp = ctrlVal[ASI_TARGET_TEMP]`; a key that is missing is entered with 0. -/
def Handler.setCoolTemp (h : Handler) (ctrl : Ctrl) : Handler :=
  let val := (ctrl.ctrlVal .targetTemp).getD 0
  { h with
    ctrl := { ctrl with ctrlVal := fun t => if t = .targetTemp then some val else ctrl.ctrlVal t }
    coolTemp := toInt32 val }

/-- `ctrlMap[ASI_TARGET_TEMP]`, with what it enters: zeros for a camera without a cooler. -/
def Handler.targetTempCaps (h : Handler) : Caps × Handler :=
  let caps := (h.ctrlMap .targetTemp).getD ⟨0, 0⟩
  (caps, h.setCtrlCaps .targetTemp caps)

/-- `setCoolerTemp`, once it has not refused. -/
def Handler.passTemp (h : Handler) (temp : Int) (sdk : Reply) : Run where
  passed := some temp
  result := match h.ctrl.callAsserted sdk (.setCtrlVal .targetTemp temp false) with
    | .ok (ctrl, res) => .ok (h.setCoolTemp ctrl, res)
    | .error e => .error e

def Handler.setCoolerTemp (h : Handler) (temp : Int) (sdk : Reply) : Run :=
  let (caps, h) := h.targetTempCaps
  if caps.maxValue ≤ temp ∧ temp ≤ caps.minValue then
    { passed := none, result := .ok (h, ASI_ERROR_GENERAL_ERROR) }
  else h.passTemp temp sdk

/-! ## The announced range -/

/-- The camera announces a range that the temperature is in. -/
def Handler.InRange (h : Handler) (temp : Int) : Prop :=
  ∃ caps ∈ h.ctrlMap .targetTemp, caps.minValue ≤ temp ∧ temp ≤ caps.maxValue

/-- The value the camera has last reported when a call that sets the temperature is over:
the one that is read back, or the one that `ctrlVal` holds if the camera refuses; none if the
read-back fails. -/
def Handler.reported (h : Handler) (sdk : Reply) : Option Int :=
  if sdk.res ≠ ASI_SUCCESS then h.ctrl.ctrlVal .targetTemp
  else if sdk.readBack = ASI_SUCCESS then some sdk.val
  else none

/-- Only temperatures in the range are passed to the camera; another one is an error that
leaves the values alone; one in the range is passed, and `cool_temp` is then what the camera
has last reported. -/
structure KeepsRange (h : Handler) (temp : Int) (sdk : Reply) : Prop where
  passed : ∀ t ∈ (h.setCoolerTemp temp sdk).passed, h.InRange t
  outside : ¬ h.InRange temp → ∃ h' res, (h.setCoolerTemp temp sdk).result = .ok (h', res) ∧
    res ≠ ASI_SUCCESS ∧ h'.ctrl.ctrlVal = h.ctrl.ctrlVal ∧
    h'.ctrl.ctrlValAuto = h.ctrl.ctrlValAuto ∧ h'.coolTemp = h.coolTemp
  inside : h.InRange temp → (h.setCoolerTemp temp sdk).passed = some temp ∧
    ∀ h' res, (h.setCoolerTemp temp sdk).result = .ok (h', res) →
      ∀ v ∈ h.reported sdk, h'.coolTemp = v

/-- The camera announces a range of more than one temperature, the temperature is in it, and
what the camera reports fits in 32 bits; or the range is announced the wrong way round, with
the temperature in between; or none is announced, and the temperature is 0. -/
def Suits (h : Handler) (temp : Int) (sdk : Reply) : Prop :=
  match h.ctrlMap .targetTemp with
  | some caps =>
      (caps.minValue < caps.maxValue ∧ (caps.minValue ≤ temp ∧ temp ≤ caps.maxValue) ∧
        ∀ v ∈ h.reported sdk, -2 ^ 31 ≤ v ∧ v < 2 ^ 31) ∨
      (caps.maxValue < caps.minValue ∧ caps.maxValue ≤ temp ∧ temp ≤ caps.minValue)
  | none => temp = 0

/-- The comparison of `setCoolerTemp` refuses the temperature. -/
def Handler.Refuses (h : Handler) (temp : Int) : Prop :=
  h.targetTempCaps.1.maxValue ≤ temp ∧ temp ≤ h.targetTempCaps.1.minValue

variable {h h' : Handler} {temp : Int} {sdk : Reply} {res : AsiError}

theorem toInt32_eq_self {v : Int} : toInt32 v = v ↔ -2 ^ 31 ≤ v ∧ v < 2 ^ 31 := by
  rw [toInt32, BitVec.toInt_ofInt, Int.bmod_def]
  omega

theorem setCoolerTemp_refuses (hrefuses : h.Refuses temp) : h.setCoolerTemp temp sdk =
    { passed := none, result := .ok (h.targetTempCaps.2, ASI_ERROR_GENERAL_ERROR) } :=
  if_pos hrefuses

theorem setCoolerTemp_passes (hpasses : ¬ h.Refuses temp) :
    h.setCoolerTemp temp sdk = h.targetTempCaps.2.passTemp temp sdk :=
  if_neg hpasses

/-- `setCtrlVal` returns if there is something to report, and `ctrlVal` has it. -/
theorem setCtrlVal_reported {v : Int} (hv : h.reported sdk = some v) : ∃ ctrl,
    h.ctrl.callAsserted sdk (.setCtrlVal .targetTemp temp false) = .ok (ctrl, sdk.res) ∧
      ctrl.ctrlVal .targetTemp = some v := by
  unfold Handler.reported at hv
  split at hv
  next hres =>
    refine ⟨h.ctrl, ?_, hv⟩
    simp [Ctrl.callAsserted, hres, Ctrl.call, Ctrl.setCtrlVal, CtrlType.named, Ctrl.syncExpo]
  next hres =>
    split at hv
    next hread =>
      simp only [ne_eq, not_not] at hres
      cases hv
      refine ⟨h.ctrl.saveCtrlVal .targetTemp sdk.val sdk.auto, ?_, ?_⟩
      · simp [Ctrl.callAsserted, hres, hread, Ctrl.call, Ctrl.setCtrlVal, CtrlType.named,
          Ctrl.syncExpo]
      · simp [Ctrl.saveCtrlVal]
    next => cases hv

/-- After a temperature that was passed, `cool_temp` is the reported one as 32 bits hold it. -/
theorem coolTemp_passed {v : Int} (hpasses : ¬ h.Refuses temp) (hv : h.reported sdk = some v) :
    ∃ h', (h.setCoolerTemp temp sdk).result = .ok (h', sdk.res) ∧ h'.coolTemp = toInt32 v := by
  obtain ⟨ctrl, hset, hval⟩ := @setCtrlVal_reported h.targetTempCaps.2 temp sdk v hv
  rw [setCoolerTemp_passes hpasses, Handler.passTemp]
  simp only [hset]
  exact ⟨_, rfl, by simp [Handler.setCoolTemp, hval]⟩

/-- A temperature in the range is treated as asked, unless it is refused or the reported
value is cut off. -/
theorem keeps_inside (hin : h.InRange temp) : KeepsRange h temp sdk ↔
    ¬ h.Refuses temp ∧ ∀ v ∈ h.reported sdk, -2 ^ 31 ≤ v ∧ v < 2 ^ 31 := by
  refine ⟨?_, ?_⟩
  · intro hkeeps
    obtain ⟨hpassed, hcool⟩ := hkeeps.inside hin
    have hpasses : ¬ h.Refuses temp := by
      intro hrefuses
      rw [setCoolerTemp_refuses hrefuses] at hpassed
      cases hpassed
    refine ⟨hpasses, ?_⟩
    intro v hv
    obtain ⟨h', hresult, hval⟩ := coolTemp_passed hpasses hv
    exact toInt32_eq_self.mp (hval ▸ hcool h' sdk.res hresult v hv)
  · rintro ⟨hpasses, hfits⟩
    have hpassed : (h.setCoolerTemp temp sdk).passed = some temp := by
      rw [setCoolerTemp_passes hpasses, Handler.passTemp]
    refine ⟨?_, fun hout => absurd hin hout, fun _ => ⟨hpassed, ?_⟩⟩
    · intro t ht
      rw [hpassed, Option.mem_some_iff] at ht
      exact ht ▸ hin
    · intro h' res hresult v hv
      obtain ⟨h'', hresult', hval⟩ := coolTemp_passed hpasses hv
      rw [hresult, Except.ok.injEq, Prod.mk.injEq] at hresult'
      rw [hresult'.1, hval, toInt32_eq_self.mpr (hfits v hv)]

/-- A temperature outside of the range is treated as asked just when it is refused. -/
theorem keeps_outside (hout : ¬ h.InRange temp) : KeepsRange h temp sdk ↔ h.Refuses temp := by
  refine ⟨?_, ?_⟩
  · intro hkeeps
    by_contra hpasses
    refine hout (hkeeps.passed temp ?_)
    rw [setCoolerTemp_passes hpasses, Handler.passTemp, Option.mem_some_iff]
  · intro hrefuses
    refine ⟨?_, fun _ => ?_, fun hin => absurd hin hout⟩
    · intro t ht
      rw [setCoolerTemp_refuses hrefuses] at ht
      cases ht
    · rw [setCoolerTemp_refuses hrefuses]
      exact ⟨_, _, rfl, by decide, rfl, rfl, rfl⟩

/-- The temperature is treated as the announced range asks, if and only if the handler, the
temperature and the answers suit. -/
theorem keeps_range (h : Handler) (temp : Int) (sdk : Reply) :
    KeepsRange h temp sdk ↔ Suits h temp sdk := by
  by_cases hin : h.InRange temp
  · rw [keeps_inside hin]
    obtain ⟨caps, hcaps, hrange⟩ := hin
    rw [Option.mem_def] at hcaps
    simp only [Handler.Refuses, Handler.targetTempCaps, Suits, hcaps, Option.getD_some]
    refine ⟨?_, ?_⟩
    · rintro ⟨hpasses, hfits⟩
      exact .inl ⟨by omega, hrange, hfits⟩
    · rintro (⟨hlt, -, hfits⟩ | hswapped)
      · exact ⟨by omega, hfits⟩
      · omega
  · rw [keeps_outside hin]
    cases hcaps : h.ctrlMap .targetTemp with
    | none =>
        simp only [Handler.Refuses, Handler.targetTempCaps, Suits, hcaps, Option.getD_none]
        omega
    | some caps =>
        have hrange : ¬ (caps.minValue ≤ temp ∧ temp ≤ caps.maxValue) :=
          fun hboth => hin ⟨caps, hcaps, hboth⟩
        simp only [Handler.Refuses, Handler.targetTempCaps, Suits, hcaps, Option.getD_some]
        refine ⟨?_, ?_⟩
        · intro hrefuses
          exact .inr ⟨by omega, hrefuses⟩
        · rintro (⟨-, hboth, -⟩ | hswapped)
          · exact absurd hboth hrange
          · exact hswapped.2

/-- A camera that can be cooled to between -40 and 30 degrees. -/
def cooled : Handler :=
  Handler.setCtrlCaps ⟨Ctrl.fresh, fun _ => none, -2 ^ 31⟩ .targetTemp ⟨-40, 30⟩

/-- 100 degrees are passed to it. -/
theorem outside_passed : ¬ ∀ (h : Handler) (temp : Int) (sdk : Reply),
    -2 ^ 31 ≤ temp → temp < 2 ^ 31 → KeepsRange h temp sdk := by
  intro hall
  have hkeeps := hall cooled 100 ⟨⟨ASI_SUCCESS, 100, false⟩, ASI_SUCCESS⟩ (by decide) (by decide)
  obtain ⟨caps, hcaps, hrange⟩ := hkeeps.passed 100 rfl
  cases hcaps
  exact absurd hrange (by decide)

end AutoExpo.Control
