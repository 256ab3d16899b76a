import AutoExpo.Control.CoolerTemp
import AutoExpo.Main.SigHandler

/-!
# The configuration phase of `main`

With the flags parsed and the cameras open, `main` goes through the cameras
three times: cooler, controls and exposure time, image format. The validators
let every `bin` through, by which `setROIFormat` divides, and exposure times of
up to 1000 seconds, of which `setExpoMilliSec` takes 60 and `main` asserts that
it does.

With an SDK that answers every call with success, the phase comes to no
division by zero and to no failed assertion exactly when `bin` is not 0 and
`expo_ms` is at most 60000 (`configures`, `accepted_fails`).
-/

namespace AutoExpo.Control

open Interrupt (CamManager)

/-! ## Flags -/

def validateExpoMs (expoMs : Rat) : Bool := 0 < expoMs ∧ expoMs < 1000 * 1000

def validateGain (gain : Int) : Bool := 0 ≤ gain ∧ gain ≤ 300

/-- The flags of the configuration phase, as the registered validators accept them. -/
structure Flags where
  bin : Int
  imgType : String
  gain : Int
  cooler : Bool
  coolTemp : Int
  monoBin : Bool
  expoMs : Rat
  gain_valid : validateGain gain = true
  expoMs_valid : validateExpoMs expoMs = true

/-! ## One camera -/

/-- `ASI_CAMERA_INFO` has the size; the `cur` members are of the last `setROIFormat`. -/
structure Camera extends Handler where
  maxWidth : Int
  maxHeight : Int
  curWidth : Int
  curHeight : Int
  curBin : Int
  imgType : ImgType

/-- The results of `ASISetROIFormat` and `ASIGetROIFormat`, and what the latter reads. -/
structure RoiReply where
  res : AsiError
  readBack : AsiError
  width : Int
  height : Int
  bin : Int
  type : ImgType

/-- The answers to one camera: to the setter of each control, and to an image format. -/
structure Sdk where
  control : CtrlType → Reply
  roi : (width height bin : Int) → ImgType → RoiReply

def Camera.setROIFormat (h : Camera) (bin : Int) (type : ImgType) (sdk : Sdk) :
    Except Failure Camera :=
  if bin = 0 then .error .divisionByZero
  else
    let roiWidth := toInt32 (h.maxWidth.tdiv bin)
    let roiHeight := toInt32 (h.maxHeight.tdiv bin)
    let roi := sdk.roi roiWidth roiHeight bin type
    if roi.res ≠ ASI_SUCCESS then .error .aborted
    else if roi.readBack ≠ ASI_SUCCESS then .error .assertion
    -- the log line looks the type up in `_ImgType`, which has all of them
    else .ok { h with
      curBin := roi.bin, curWidth := roi.width, curHeight := roi.height, imgType := roi.type }

/-- A setter, its result not looked at. -/
def Camera.set (h : Camera) (sdk : Sdk) (type : CtrlType) (val : Int) : Except Failure Camera :=
  match h.ctrl.callAsserted (sdk.control type) (.setCtrlVal type val false) with
  | .ok (ctrl, _) => .ok { h with ctrl := ctrl }
  | .error e => .error e

/-! ## The three passes -/

variable {flags : Flags} {sdk : Sdk} {h : Camera}

/-- "init cooler" -/
def Flags.initCooler (flags : Flags) (sdk : Sdk) (h : Camera) : Except Failure Camera :=
  match (h.toHandler.setCoolerTemp flags.coolTemp (sdk.control .targetTemp)).result with
  | .ok (handler, _) =>
      { h with toHandler := handler }.set sdk .coolerOn (if flags.cooler then 1 else 0)
  | .error e => .error e

/-- The controls that "setup cameras" sets, in order. -/
def Flags.controls (flags : Flags) : List (CtrlType × Int) :=
  [(.gain, flags.gain), (.gamma, 50), (.monoBin, if flags.monoBin then 1 else 0),
    (.highSpeedMode, 0), (.bandwidthOverload, 75), (.flip, 0)]

def Camera.setAll (h : Camera) (sdk : Sdk) : List (CtrlType × Int) → Except Failure Camera
  | [] => .ok h
  | (type, val) :: rest => match h.set sdk type val with
      | .ok h => h.setAll sdk rest
      | .error e => .error e

/-- `assert(setExpoMilliSec(FLAGS_expo_ms) == ASI_SUCCESS)` -/
def Flags.assertExpo (flags : Flags) (sdk : Sdk) (h : Camera) : Except Failure Camera :=
  match h.ctrl.callAsserted (sdk.control .exposure) (.setExpoMilliSec flags.expoMs) with
  | .ok (ctrl, res) =>
      if res = ASI_SUCCESS then .ok { h with ctrl := ctrl } else .error .assertion
  | .error e => .error e

/-- "setup cameras" -/
def Flags.setUp (flags : Flags) (sdk : Sdk) (h : Camera) : Except Failure Camera :=
  match h.setAll sdk flags.controls with
  | .ok h => flags.assertExpo sdk h
  | .error e => .error e

/-- "ROI and BIN" -/
def Flags.setRoi (flags : Flags) (sdk : Sdk) (h : Camera) : Except Failure Camera :=
  h.setROIFormat flags.bin (if flags.imgType = "RAW8" then .raw8 else .raw16) sdk

/-- `for (auto& cam: camManager)` -/
def forEach (f : Int → Camera → Except Failure Camera) :
    List Int → (Int → Camera) → Except Failure (Int → Camera)
  | [], m => .ok m
  | c :: rest, m => match f c (m c) with
      | .ok h => forEach f rest fun d => if d = c then h else m d
      | .error e => .error e

def Flags.configure (flags : Flags) (cams : CamManager) (sdk : Int → Sdk) (m : Int → Camera) :
    Except Failure (Int → Camera) := do
  let m ← forEach (fun c => flags.initCooler (sdk c)) cams.ids m
  let m ← forEach (fun c => flags.setUp (sdk c)) cams.ids m
  forEach (fun c => flags.setRoi (sdk c)) cams.ids m

/-- Every call succeeds. -/
structure Sdk.Succeeds (sdk : Sdk) : Prop where
  set : ∀ type, (sdk.control type).res = ASI_SUCCESS
  readBack : ∀ type, (sdk.control type).readBack = ASI_SUCCESS
  setRoi : ∀ w h bin type, (sdk.roi w h bin type).res = ASI_SUCCESS
  readRoi : ∀ w h bin type, (sdk.roi w h bin type).readBack = ASI_SUCCESS

/-- No division by zero and no failed assertion. -/
def Configures {α : Type*} (result : Except Failure α) : Prop :=
  result ≠ .error .divisionByZero ∧ result ≠ .error .assertion

/-! ## One camera, with an SDK that succeeds -/

/-- A call that reaches a camera which takes the value returns success. -/
theorem call_returns {h : Ctrl} {answer : Answer} {call : Call} (hreaches : call.reaches = true)
    (hres : answer.res = ASI_SUCCESS) : (h.call answer call).2 = .returned ASI_SUCCESS := by
  cases call with
  | setCtrlVal type val auto =>
      have hnamed : type.named = true := hreaches
      simp [Ctrl.call, Ctrl.setCtrlVal, hnamed, hres]
  | setExpoMilliSec expoMs =>
      have hin : ¬ (expoMs < 0 ∨ 60 * 1000 < expoMs) := by
        simpa [Call.reaches, not_or] using hreaches
      simp [Ctrl.call, Ctrl.setExpoMilliSec, if_neg hin, Ctrl.setCtrlVal, CtrlType.named, hres]

theorem controls_named (flags : Flags) : ∀ p ∈ flags.controls, p.1.named = true := by
  simp [Flags.controls, CtrlType.named]

section
variable (hsdk : sdk.Succeeds)
include hsdk

/-- A setter returns success. -/
theorem callAsserted_ok (type : CtrlType) (ctrl : Ctrl) (call : Call)
    (hreaches : call.reaches = true) :
    ∃ ctrl', ctrl.callAsserted (sdk.control type) call = .ok (ctrl', ASI_SUCCESS) := by
  have hreturns := call_returns (h := ctrl) hreaches (hsdk.set type)
  rw [Ctrl.callAsserted, if_neg (by simp [hsdk.readBack type])]
  rcases hcall : ctrl.call (sdk.control type).toAnswer call with ⟨ctrl', outcome⟩
  rw [hcall] at hreturns
  cases hreturns
  exact ⟨ctrl', rfl⟩

theorem set_ok (type : CtrlType) (hnamed : type.named = true) (val : Int) (h : Camera) :
    ∃ h', h.set sdk type val = .ok h' := by
  obtain ⟨ctrl, hset⟩ := callAsserted_ok hsdk type h.ctrl (.setCtrlVal type val false) hnamed
  exact ⟨{ h with ctrl := ctrl }, by rw [Camera.set, hset]⟩

theorem setAll_ok (controls : List (CtrlType × Int))
    (hnamed : ∀ p ∈ controls, p.1.named = true) (h : Camera) :
    ∃ h', h.setAll sdk controls = .ok h' := by
  induction controls generalizing h with
  | nil => exact ⟨h, rfl⟩
  | cons p rest ih =>
      obtain ⟨h₁, hset⟩ := set_ok hsdk p.1 (hnamed p (by simp)) p.2 h
      obtain ⟨h₂, hrest⟩ := ih (fun q hq => hnamed q (by simp [hq])) h₁
      exact ⟨h₂, by simp only [Camera.setAll, hset, hrest]⟩

/-- The cooler's temperature is refused or set; in either case the call returns. -/
theorem setCoolerTemp_returns (h : Handler) (temp : Int) :
    ∃ p, (h.setCoolerTemp temp (sdk.control .targetTemp)).result = .ok p := by
  by_cases hrefuses : h.Refuses temp
  · exact ⟨_, by rw [setCoolerTemp_refuses hrefuses]⟩
  · obtain ⟨ctrl, hset⟩ := callAsserted_ok hsdk .targetTemp h.targetTempCaps.2.ctrl
      (.setCtrlVal .targetTemp temp false) rfl
    exact ⟨_, by rw [setCoolerTemp_passes hrefuses, Handler.passTemp, hset]⟩

theorem initCooler_ok (flags : Flags) (h : Camera) : ∃ h', flags.initCooler sdk h = .ok h' := by
  obtain ⟨⟨handler, res⟩, htemp⟩ := setCoolerTemp_returns hsdk h.toHandler flags.coolTemp
  obtain ⟨h', hset⟩ := set_ok hsdk .coolerOn rfl (if flags.cooler then 1 else 0)
    { h with toHandler := handler }
  exact ⟨h', by rw [Flags.initCooler, htemp]; exact hset⟩

theorem setUp_ok (hexpo : flags.expoMs ≤ 60 * 1000) (h : Camera) :
    ∃ h', flags.setUp sdk h = .ok h' := by
  obtain ⟨h₁, hall⟩ := setAll_ok hsdk flags.controls (controls_named flags) h
  have hpos : 0 ≤ flags.expoMs := by
    have hvalid := flags.expoMs_valid
    simp only [validateExpoMs, decide_eq_true_eq] at hvalid
    exact hvalid.1.le
  obtain ⟨ctrl, hset⟩ := callAsserted_ok hsdk .exposure h₁.ctrl
    (.setExpoMilliSec flags.expoMs) (by simp [Call.reaches, hpos, hexpo])
  exact ⟨{ h₁ with ctrl := ctrl }, by simp [Flags.setUp, hall, Flags.assertExpo, hset]⟩

/-- The setter does not take the exposure time, which `main` asserts that it does. -/
theorem setUp_fails (hexpo : 60 * 1000 < flags.expoMs) (h : Camera) :
    flags.setUp sdk h = .error .assertion := by
  obtain ⟨h₁, hall⟩ := setAll_ok hsdk flags.controls (controls_named flags) h
  have hrefused : h₁.ctrl.callAsserted (sdk.control .exposure) (.setExpoMilliSec flags.expoMs) =
      .ok (h₁.ctrl, ASI_ERROR_GENERAL_ERROR) := by
    simp [Ctrl.callAsserted, Call.reaches, Ctrl.call, Ctrl.setExpoMilliSec, hexpo]
  simp [Flags.setUp, hall, Flags.assertExpo, hrefused]
  decide

theorem setRoi_ok (hbin : flags.bin ≠ 0) (h : Camera) : ∃ h', flags.setRoi sdk h = .ok h' := by
  rw [Flags.setRoi, Camera.setROIFormat, if_neg hbin]
  simp only [hsdk.setRoi, hsdk.readRoi, ne_eq, not_true_eq_false, if_false]
  exact ⟨_, rfl⟩

end

theorem setRoi_zero (hbin : flags.bin = 0) (h : Camera) :
    flags.setRoi sdk h = .error .divisionByZero :=
  if_pos hbin

/-! ## All cameras -/

section
variable {f : Int → Camera → Except Failure Camera}

theorem forEach_ok (hf : ∀ c h, ∃ h', f c h = .ok h') (ids : List Int) (m : Int → Camera) :
    ∃ m', forEach f ids m = .ok m' := by
  induction ids generalizing m with
  | nil => exact ⟨m, rfl⟩
  | cons c rest ih =>
      obtain ⟨h, hc⟩ := hf c (m c)
      obtain ⟨m', hrest⟩ := ih fun d => if d = c then h else m d
      exact ⟨m', by simp only [forEach, hc, hrest]⟩

/-- The first camera ends the loop. -/
theorem forEach_fails {e : Failure} (hf : ∀ c h, f c h = .error e) {ids : List Int}
    (hids : ids ≠ []) (m : Int → Camera) : forEach f ids m = .error e := by
  obtain ⟨c, rest, rfl⟩ := List.exists_cons_of_ne_nil hids
  simp only [forEach, hf c (m c)]

end

section
variable {cams : CamManager} {sdk : Int → Sdk} {m : Int → Camera}
variable (hsdk : ∀ c, (sdk c).Succeeds)
include hsdk

/-- The first two passes succeed with an exposure time that the setter takes. -/
theorem configure_of_le (hexpo : flags.expoMs ≤ 60 * 1000) : ∃ m',
    flags.configure cams sdk m = forEach (fun c => flags.setRoi (sdk c)) cams.ids m' := by
  obtain ⟨m₁, hcooler⟩ := forEach_ok (fun c => initCooler_ok (hsdk c) flags) cams.ids m
  obtain ⟨m₂, hsetup⟩ := forEach_ok (fun c => setUp_ok (hsdk c) hexpo) cams.ids m₁
  exact ⟨m₂, by simp only [Flags.configure, hcooler, hsetup, bind, Except.bind]⟩

theorem configure_of_lt (hexpo : 60 * 1000 < flags.expoMs) :
    flags.configure cams sdk m = .error .assertion := by
  obtain ⟨m₁, hcooler⟩ := forEach_ok (fun c => initCooler_ok (hsdk c) flags) cams.ids m
  have hsetup := forEach_fails (fun c => setUp_fails (hsdk c) hexpo) cams.nonempty m₁
  simp only [Flags.configure, hcooler, hsetup, bind, Except.bind]

end

/-- The configuration phase comes to no division by zero and to no failed assertion, if and
only if there is a divisor and the exposure time is one that the setter takes. -/
theorem configures (flags : Flags) (cams : CamManager) (sdk : Int → Sdk) (m : Int → Camera)
    (hsdk : ∀ c, (sdk c).Succeeds) :
    Configures (flags.configure cams sdk m) ↔ flags.bin ≠ 0 ∧ flags.expoMs ≤ 60 * 1000 := by
  rcases lt_or_ge (60 * 1000) flags.expoMs with hslow | hexpo
  · rw [configure_of_lt hsdk hslow]
    exact ⟨fun hconf => absurd rfl hconf.2, fun hboth => absurd hboth.2 (not_le.mpr hslow)⟩
  · obtain ⟨m', hpasses⟩ := configure_of_le hsdk hexpo
    rw [hpasses]
    by_cases hbin : flags.bin = 0
    · rw [forEach_fails (fun c => setRoi_zero hbin) cams.nonempty]
      exact ⟨fun hconf => absurd rfl hconf.1, fun hboth => absurd hbin hboth.1⟩
    · obtain ⟨m'', hroi⟩ := forEach_ok (fun c => setRoi_ok (hsdk c) hbin) cams.ids m'
      rw [hroi]
      exact ⟨fun _ => ⟨hbin, hexpo⟩, fun _ => ⟨nofun, nofun⟩⟩

/-- The flags that no option changes. -/
def defaults : Flags where
  bin := 2
  imgType := "RAW16"
  gain := 0
  cooler := true
  coolTemp := -30
  monoBin := true
  expoMs := 1000
  gain_valid := by decide
  expoMs_valid := by norm_num [validateExpoMs]

/-- A camera that does what it is asked with the flag values, and reports it. -/
def Flags.obeyed (flags : Flags) : Sdk where
  control
    | .targetTemp => ⟨⟨ASI_SUCCESS, flags.coolTemp, false⟩, ASI_SUCCESS⟩
    | .coolerOn => ⟨⟨ASI_SUCCESS, if flags.cooler then 1 else 0, false⟩, ASI_SUCCESS⟩
    | .exposure => ⟨⟨ASI_SUCCESS, toLong (flags.expoMs * 1000), false⟩, ASI_SUCCESS⟩
    | type => ⟨⟨ASI_SUCCESS, (flags.controls.lookup type).getD 0, false⟩, ASI_SUCCESS⟩
  roi width height bin type := ⟨ASI_SUCCESS, ASI_SUCCESS, width, height, bin, type⟩

theorem obeyed_succeeds (flags : Flags) : flags.obeyed.Succeeds := by
  refine ⟨fun type => ?_, fun type => ?_, fun _ _ _ _ => rfl, fun _ _ _ _ => rfl⟩
  · cases type <;> rfl
  · cases type <;> rfl

/-- A camera of 4656 by 3520 pixels, and nothing else known of it. -/
def opened : Camera where
  ctrl := Ctrl.fresh
  ctrlMap _ := none
  coolTemp := -2 ^ 31
  maxWidth := 4656
  maxHeight := 3520
  curWidth := 0
  curHeight := 0
  curBin := 0
  imgType := .unset

def oneCamera : CamManager := ⟨[0], by simp, by simp⟩

theorem configures_defaults :
    Configures (defaults.configure oneCamera (fun _ => defaults.obeyed) fun _ => opened) :=
  (configures defaults oneCamera (fun _ => defaults.obeyed) (fun _ => opened)
    fun _ => obeyed_succeeds defaults).mpr ⟨by decide, by norm_num [defaults]⟩

/-- An exposure of 100 seconds is accepted, and `main` does not get past it. -/
theorem accepted_fails : ¬ ∀ (flags : Flags) (cams : CamManager) (sdk : Int → Sdk)
    (m : Int → Camera), -2 ^ 31 ≤ flags.bin → flags.bin < 2 ^ 31 →
    -2 ^ 31 ≤ flags.coolTemp → flags.coolTemp < 2 ^ 31 → (∀ c, (sdk c).Succeeds) →
    Configures (flags.configure cams sdk m) := by
  intro hall
  let slow : Flags :=
    { defaults with expoMs := 100 * 1000, expoMs_valid := by norm_num [validateExpoMs] }
  have hconf := hall slow oneCamera (fun _ => slow.obeyed) (fun _ => opened) (by decide)
    (by decide) (by decide) (by decide) fun _ => obeyed_succeeds slow
  exact hconf.2 (configure_of_lt (fun _ => obeyed_succeeds slow) (by norm_num [slow]))

end AutoExpo.Control
