import AutoExpo.Save.SaveData
import Mathlib.Data.Fintype.Basic
import Mathlib.Data.Fintype.Pi

/-!
# The directories of concurrent saves

All cameras save into the directory of the hour. Where two saves both find it
missing, the second `create_directories` returns `false` with a clear error
code, and `save_data` aborts the process over a directory that exists. That is
the only way to it: as long as no save creates a directory that another save
has found missing and not created yet, `save_data` aborts only on a reported
error (`abort_only_on_error`).
-/

namespace AutoExpo.Save

open Kit

variable {ι : Type}

/-- The directory of a call, once it has been put together. -/
def SavePc.output : SavePc → Option Dir
  | .fsExists _ _ output | .createDirs _ _ output | .fname _ _ output => some output
  | _ => none

/-- A call about to create a directory has found it missing, and it still is. -/
structure Missing (s : Shared ι) (l : SavePc) : Prop where
  depth : ∀ d, l.output = some d → d.length = 4
  absent : ∀ d, l.creates = some d → s.dirs d = false

def AbortsOnError (s : Shared ι) : Prop :=
  ∀ ec, s.aborted = some (.createDirectories ec) → ec ≠ 0

variable {cfg : Config ι} {c : ι} {s s' : Shared ι} {l l' l₂ : SavePc} {a : SaveAct}

theorem creates_output {d : Dir} (h : l.creates = some d) : l.output = some d := by
  cases l <;> simp only [SavePc.creates, SavePc.output] at h ⊢ <;> first | exact h | cases h

/-- A call aborts over its directory only when creating it is refused. -/
theorem SaveStep.aborts (h : SaveStep cfg c s l a s' l') (hlive : s.aborted = none)
    (hs : Missing s l) : AbortsOnError s' := by
  intro ec habort
  cases h with
  | there m dateObs output ec' hdir =>
      rw [hs.absent output rfl] at hdir
      cases hdir
  | refused m dateObs output ec' hdir hec =>
      cases habort
      exact hec
  | failed => cases habort
  | saveData | gmtime | dateObs | year | monthDay | hour | found | missing | created | fname
  | write =>
      change s.aborted = _ at habort
      rw [hlive] at habort
      cases habort

theorem SaveStep.keepsMissing (h : SaveStep cfg c s l a s' l') (hs : Missing s l) :
    Missing s' l' := by
  cases h with
  | hour m dateObs year monthDay =>
      refine ⟨?_, ?_⟩
      · intro d hd
        cases hd
        rfl
      · intro d hd
        cases hd
  | missing m dateObs output hdir =>
      refine ⟨hs.depth, ?_⟩
      intro d hd
      cases hd
      exact hdir
  | found | created =>
      refine ⟨hs.depth, ?_⟩
      intro d hd
      cases hd
  | saveData | gmtime | dateObs | year | monthDay | there | refused | fname | write | failed =>
      constructor <;> intro d hd <;> cases hd

/-- Another call's step leaves a missing directory missing, unless it creates it. -/
theorem Missing.keep (h : SaveStep cfg c s l a s' l') (hs : Missing s l₂) (hl : Missing s l)
    (halone : a = .createDirectories 0 → ∀ d, l.creates = some d → l₂.creates ≠ some d) :
    Missing s' l₂ := by
  refine ⟨hs.depth, ?_⟩
  intro d hd
  rcases h.dirs with hdirs | ⟨d', hd', ha, hdirs⟩
  · rw [hdirs]
    exact hs.absent d hd
  · -- the parents that come into being with `d'` are shorter than `d`
    have hne : ¬ d <+: d' := by
      intro hle
      have hlen : d.length = d'.length := by
        rw [hs.depth d (creates_output hd), hl.depth d' (creates_output hd')]
      exact halone ha d' hd' (hle.eq_of_length hlen ▸ hd)
    rw [hdirs]
    simp only [Shared.createDirs, hs.absent d hd, Bool.false_or]
    rw [← Bool.not_eq_true, List.isPrefixOf_iff_prefix]
    exact hne

section

variable [DecidableEq ι] [Fintype ι]

/-- No other save has found the directory missing that this step creates. -/
def createsAlone (c : Threads.Conf ι (Shared ι) SavePc) (a : ι × SaveAct) : Bool :=
  match a.2 with
  | .createDirectories 0 => (c.loc a.1).creates.all fun d =>
      decide (∀ j, j ≠ a.1 → (c.loc j).creates ≠ some d)
  | _ => true

theorem missing_outline (cfg : Config ι) :
    (saves cfg).Outline (fun c a => createsAlone c a = true) AbortsOnError
      fun _ => Missing where
  initShared s h ec habort := by
    rw [h.1] at habort
    cases habort
  initLocal i s l _ h := by
    subst h
    constructor <;> intro d hd <;> cases hd
  own c i a s' l' _ _ hP hact := by
    obtain ⟨hlive, hstep⟩ := saves_act hact
    exact ⟨hstep.aborts hlive hP, hstep.keepsMissing hP⟩
  others c i j a s' l' hij hC _ hPi hPj hact := by
    obtain ⟨_, hstep⟩ := saves_act hact
    apply hPi.keep hstep hPj
    intro ha d hd
    subst ha
    simp only [createsAlone, Option.all_eq_true, decide_eq_true_eq] at hC
    exact hC d hd i hij

/-- On the runs in which no save creates a directory another has found missing,
`save_data` reaches the `abort` after `create_directories` only on a reported error. -/
theorem abort_only_on_error (cfg : Config ι) (c : Threads.Conf ι (Shared ι) SavePc)
    (hc : ((saves cfg).sys.restrict fun c a => createsAlone c a = true).Reachable c) (ec : Nat)
    (habort : c.shared.aborted = some (.createDirectories ec)) : ec ≠ 0 :=
  ((missing_outline cfg).holds c hc).1 ec habort

end

/-- Two cameras save in one hour, the second one looks for the directory when the first has
created it; the directory of the next hour cannot be made. -/
def twoHours : List (Bool × SaveAct) :=
  of false (lookUp (frameAt 0)) ++ of true ((lookUp (frameAt 0)).take 6) ++
    of false [.createDirectories 0] ++ of true [.fsExists] ++ of false finish ++ of true finish ++
      of true (lookUp (frameAt (3600 * 10 ^ 9)) ++ [.createDirectories 13])

theorem abort_only_on_error_refused : ∃ c, c.shared.aborted = some (.createDirectories 13) ∧
    ((saves twoCameras).sys.restrict fun c a => createsAlone c a = true).Reachable c ∧ 13 ≠ 0 := by
  obtain ⟨c, hc, habort⟩ := TSys.Reachable.of_exec
    (show ((saves twoCameras).sys.restrict fun c a => createsAlone c a = true).init _ from
      freshConf_init twoCameras)
    (show (((saves twoCameras).sys.restrict fun c a => createsAlone c a = true).exec freshConf
      twoHours).any (fun c => c.shared.aborted = some (.createDirectories 13)) = true by
        decide +kernel)
  simp only [decide_eq_true_eq] at habort
  exact ⟨c, habort, hc, abort_only_on_error twoCameras c hc 13 habort⟩

/-- Two saves of the same hour both find its directory missing: the second one aborts the
process over the directory the first has created. -/
theorem existing_directory_aborts : ¬ ∀ c ec, (saves twoCameras).sys.Reachable c →
    c.shared.aborted = some (.createDirectories ec) → ec ≠ 0 := by
  intro hall
  obtain ⟨c, hc, habort⟩ := TSys.Reachable.of_exec (freshConf_init twoCameras)
    (show ((saves twoCameras).sys.exec freshConf
      (of false (lookUp (frameAt 0)) ++ of true (lookUp (frameAt 0)) ++
        of false [.createDirectories 0] ++ of true [.createDirectories 0])).any
          (fun c => c.shared.aborted = some (.createDirectories 0)) = true by decide +kernel)
  simp only [decide_eq_true_eq] at habort
  exact hall c 0 hc habort rfl

end AutoExpo.Save
