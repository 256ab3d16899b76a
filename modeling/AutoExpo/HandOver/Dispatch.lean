import AutoExpo.Kit.TSys
import Mathlib.Data.List.Infix

/-!
# Handing image files over to `file_dispatch`

`save_data` writes its files into the tree `file_dispatch.py` monitors; the
observer's thread calls `on_created` once for every creation event, one event
at a time, and that moves the file to the candidate `SELECT` names at the
moment of the call. The tree and the candidates are different file systems, so
`shutil.move` copies what the file holds and then unlinks it. The copy is one
step: it takes what the file holds at one moment.

A path names one file at a time: a file name of `save_data` begins with `!`,
so saving to an existing path drops the file that is there. What a writer still
writes to a file that has lost its name reaches no path, and is no step here.
`Path.resolve` is the identity: the tree has no links.

`clean` is `cleantmpdata.service`, `start` and `stop` the dispatcher's own
service; an exception in `on_created` is logged and the event is gone.
-/

namespace AutoExpo.HandOver

open Kit

/-- `Path.parts`. -/
abbrev Path := List String

abbrev Bytes := List UInt8

/-! ## The writer -/

/-- A content write of the FITS library. -/
structure Write where
  offset : Nat
  data : Bytes

/-- A write beyond the end leaves a gap of zeros. -/
def Write.apply (content : Bytes) (w : Write) : Bytes :=
  (content ++ List.replicate (w.offset - content.length) 0).take w.offset ++ w.data ++
    content.drop (w.offset + w.data.length)

/-- A file and its writer: the content writes `save_data` has still to make, or
`none` once it has closed the file. -/
structure File where
  content : Bytes
  writer : Option (List Write)

def File.toWrite (f : File) : List Write := f.writer.getD []

/-- What the file holds when `save_data` has closed it. -/
def File.final (f : File) : Bytes := f.toWrite.foldl Write.apply f.content

theorem File.final_of_written {f : File} (h : f.toWrite = []) : f.final = f.content := by
  unfold File.final
  rw [h]
  rfl

/-! ## The dispatcher -/

/-- The handler's `listen_dir`, `FS_CANDIDATE`, and the pattern test of the
observer. -/
structure Config where
  listenDir : Path
  candidates : List Path
  matching : Path → Bool

/-- `list(newfile.parts)[len(self.listen_dir.parts):]` -/
def Config.relative (cfg : Config) (newfile : Path) : Path :=
  newfile.drop cfg.listenDir.length

/-- `on_created`: no call under way, `dest` computed, its parent made (the copy
of `shutil.move` comes next), copied (the unlink comes next). -/
inductive Pc
  | idle
  | created (newfile dest : Path)
  | moving (newfile dest : Path)
  | copied (newfile dest : Path)
  deriving DecidableEq

structure State where
  tree : Path → Option File
  copies : Path → Option Bytes
  events : List Path
  up : Bool
  select : Path
  pc : Pc

inductive Act
  | create (p : Path) (writes : List Write)
  | write (p : Path)
  | close (p : Path)
  | start (fs : Path)
  | stop
  | checkCandidate (fs : Path)
  | onCreated
  | mkdir
  | mkdirFails
  | copy
  /-- the copy stops after `got` bytes -/
  | copyFails (got : Nat)
  | unlink
  | unlinkFails
  | clean (p : Path)

/-- The steps of `on_created`. -/
def Act.isMove : Act → Bool
  | .onCreated | .mkdir | .mkdirFails | .copy | .copyFails _ | .unlink | .unlinkFails => true
  | _ => false

def State.put (s : State) (p : Path) (f : Option File) : State :=
  { s with tree := fun q => if q = p then f else s.tree q }

def State.putCopy (s : State) (dest : Path) (content : Bytes) : State :=
  { s with copies := fun q => if q = dest then some content else s.copies q }

def step (cfg : Config) (s : State) : Act → Option State
  | .create p writes =>
      let s' := s.put p (some { content := [], writer := some writes })
      some { s' with
        events := if s.up && cfg.matching p then s.events ++ [p] else s.events }
  | .write p => match s.tree p with
      | some ⟨content, some (w :: rest)⟩ =>
          some (s.put p (some ⟨w.apply content, some rest⟩))
      | _ => none
  | .close p => match s.tree p with
      | some ⟨content, some []⟩ => some (s.put p (some ⟨content, none⟩))
      | _ => none
  | .start fs =>
      if !s.up && fs ∈ cfg.candidates then some { s with up := true, select := fs } else none
  -- the events and the call under way go with the process
  | .stop => if s.up then some { s with up := false, events := [], pc := .idle } else none
  | .checkCandidate fs =>
      if s.up && fs ∈ cfg.candidates then some { s with select := fs } else none
  | .onCreated => match s.pc, s.events with
      | .idle, p :: rest =>
          some { s with events := rest, pc := .created p (s.select ++ cfg.relative p) }
      | _, _ => none
  | .mkdir => match s.pc with
      | .created newfile dest => some { s with pc := .moving newfile dest }
      | _ => none
  | .mkdirFails => match s.pc with
      | .created _ _ => some { s with pc := .idle }
      | _ => none
  | .copy => match s.pc with
      | .moving newfile dest => match s.tree newfile with
          | some f => some { s.putCopy dest f.content with pc := .copied newfile dest }
          | none => none
      | _ => none
  | .copyFails got => match s.pc with
      | .moving newfile dest => match s.tree newfile with
          | some f => some { s.putCopy dest (f.content.take got) with pc := .idle }
          | none => some { s with pc := .idle }
      | _ => none
  | .unlink => match s.pc with
      | .copied newfile _ => match s.tree newfile with
          | some _ => some { s.put newfile none with pc := .idle }
          | none => none
      | _ => none
  | .unlinkFails => match s.pc with
      | .copied _ _ => some { s with pc := .idle }
      | _ => none
  | .clean p => match s.tree p with
      | some _ => some (s.put p none)
      | none => none

/-- Nothing has been saved and the dispatcher is not up yet. -/
def State.Initial (s : State) : Prop :=
  s.tree = (fun _ => none) ∧ s.copies = (fun _ => none) ∧ s.events = [] ∧ s.up = false ∧
    s.pc = .idle

def dispatch (cfg : Config) : TSys State Act where
  init := State.Initial
  step := step cfg

/-- The ways through a step. -/
inductive Step (cfg : Config) (s : State) : Act → State → Prop
  | create (p writes) : Step cfg s (.create p writes)
      { s.put p (some { content := [], writer := some writes }) with
        events := if s.up && cfg.matching p then s.events ++ [p] else s.events }
  | write (p content w rest) : s.tree p = some ⟨content, some (w :: rest)⟩ →
      Step cfg s (.write p) (s.put p (some ⟨w.apply content, some rest⟩))
  | close (p content) : s.tree p = some ⟨content, some []⟩ →
      Step cfg s (.close p) (s.put p (some ⟨content, none⟩))
  | start (fs) : s.up = false → fs ∈ cfg.candidates →
      Step cfg s (.start fs) { s with up := true, select := fs }
  | stop : s.up = true → Step cfg s .stop { s with up := false, events := [], pc := .idle }
  | checkCandidate (fs) : s.up = true → fs ∈ cfg.candidates →
      Step cfg s (.checkCandidate fs) { s with select := fs }
  | onCreated (p rest) : s.pc = .idle → s.events = p :: rest → Step cfg s .onCreated
      { s with events := rest, pc := .created p (s.select ++ cfg.relative p) }
  | mkdir (newfile dest) : s.pc = .created newfile dest →
      Step cfg s .mkdir { s with pc := .moving newfile dest }
  | mkdirFails (newfile dest) : s.pc = .created newfile dest →
      Step cfg s .mkdirFails { s with pc := .idle }
  | copy (newfile dest f) : s.pc = .moving newfile dest → s.tree newfile = some f →
      Step cfg s .copy { s.putCopy dest f.content with pc := .copied newfile dest }
  | copyFails (got newfile dest f) : s.pc = .moving newfile dest → s.tree newfile = some f →
      Step cfg s (.copyFails got) { s.putCopy dest (f.content.take got) with pc := .idle }
  | copyMissing (got newfile dest) : s.pc = .moving newfile dest → s.tree newfile = none →
      Step cfg s (.copyFails got) { s with pc := .idle }
  | unlink (newfile dest f) : s.pc = .copied newfile dest → s.tree newfile = some f →
      Step cfg s .unlink { s.put newfile none with pc := .idle }
  | unlinkFails (newfile dest) : s.pc = .copied newfile dest →
      Step cfg s .unlinkFails { s with pc := .idle }
  | clean (p f) : s.tree p = some f → Step cfg s (.clean p) (s.put p none)

theorem step_cases {cfg : Config} {s s' : State} {a : Act} (h : step cfg s a = some s') :
    Step cfg s a s' := by
  cases a with
  | create p writes => cases h; exact .create p writes
  | write p =>
      simp only [step] at h
      split at h
      next content w rest hf => cases h; exact .write p content w rest hf
      next => cases h
  | close p =>
      simp only [step] at h
      split at h
      next content hf => cases h; exact .close p content hf
      next => cases h
  | start fs =>
      simp only [step] at h
      split_ifs at h with hcond
      cases h
      simp only [Bool.and_eq_true, Bool.not_eq_true', decide_eq_true_eq] at hcond
      exact .start fs hcond.1 hcond.2
  | stop =>
      simp only [step] at h
      split_ifs at h with hup
      cases h
      exact .stop hup
  | checkCandidate fs =>
      simp only [step] at h
      split_ifs at h with hcond
      cases h
      simp only [Bool.and_eq_true, decide_eq_true_eq] at hcond
      exact .checkCandidate fs hcond.1 hcond.2
  | onCreated =>
      simp only [step] at h
      split at h
      next p rest hpc hev => cases h; exact .onCreated p rest hpc hev
      next => cases h
  | mkdir =>
      simp only [step] at h
      split at h
      next newfile dest hpc => cases h; exact .mkdir newfile dest hpc
      next => cases h
  | mkdirFails =>
      simp only [step] at h
      split at h
      next newfile dest hpc => cases h; exact .mkdirFails newfile dest hpc
      next => cases h
  | copy =>
      simp only [step] at h
      split at h
      next newfile dest hpc =>
        split at h
        next f hf => cases h; exact .copy newfile dest f hpc hf
        next => cases h
      next => cases h
  | copyFails got =>
      simp only [step] at h
      split at h
      next newfile dest hpc =>
        split at h
        next f hf => cases h; exact .copyFails got newfile dest f hpc hf
        next hf => cases h; exact .copyMissing got newfile dest hpc hf
      next => cases h
  | unlink =>
      simp only [step] at h
      split at h
      next newfile dest hpc =>
        split at h
        next f hf => cases h; exact .unlink newfile dest f hpc hf
        next => cases h
      next => cases h
  | unlinkFails =>
      simp only [step] at h
      split at h
      next newfile dest hpc => cases h; exact .unlinkFails newfile dest hpc
      next => cases h
  | clean p =>
      simp only [step] at h
      split at h
      next f hf => cases h; exact .clean p f hf
      next => cases h

/-! ## A file is removed only as a whole copy -/

/-- The copy is made of a file `save_data` has written out, and the file is not saved
over before it is unlinked. -/
def handsOverWhole (s : State) : Act → Bool
  | .copy => match s.pc with
      | .moving newfile _ => ((s.tree newfile).map File.toWrite).all List.isEmpty
      | _ => true
  | .create p _ => match s.pc with
      | .copied newfile _ => newfile ≠ p
      | _ => true
  | _ => true

/-- Where the file of a call goes: a candidate, under the file's relative path. -/
def Config.Destination (cfg : Config) (newfile dest : Path) : Prop :=
  ∃ fs ∈ cfg.candidates, dest = fs ++ cfg.relative newfile

/-- What a call of `on_created` has established so far. -/
def CallHolds (cfg : Config) (s : State) : Prop :=
  match s.pc with
  | .idle => True
  | .created newfile dest | .moving newfile dest => cfg.Destination newfile dest
  | .copied newfile dest => cfg.Destination newfile dest ∧
      ∀ f, s.tree newfile = some f → f.toWrite = [] ∧ s.copies dest = some f.content

/-- Only a running dispatcher has events and calls, and it always selects a candidate. -/
structure Wf (cfg : Config) (s : State) : Prop where
  down : s.up = false → s.events = [] ∧ s.pc = .idle
  select : s.up = true → s.select ∈ cfg.candidates
  call : CallHolds cfg s

variable {cfg : Config} {s s' : State}

/-- A change of one file that leaves it as it is once it is written out, or drops it,
keeps the call's facts. -/
theorem CallHolds.put {p : Path} {f : Option File} (hs : CallHolds cfg s)
    (hkeep : ∀ dest g, s.pc = .copied p dest → f = some g →
      ∃ f₀, s.tree p = some f₀ ∧
        (f₀.toWrite = [] → g.toWrite = [] ∧ g.content = f₀.content)) :
    CallHolds cfg (s.put p f) := by
  unfold CallHolds at hs ⊢
  cases hpc : s.pc with
  | idle => simp only [State.put, hpc]
  | created newfile dest | moving newfile dest =>
      simp only [hpc] at hs
      simpa only [State.put, hpc] using hs
  | copied newfile dest =>
      simp only [hpc] at hs
      simp only [State.put, hpc]
      refine ⟨hs.1, ?_⟩
      intro g hg
      by_cases hp : newfile = p
      · rw [if_pos hp] at hg
        obtain ⟨f₀, hf₀, hwritten⟩ := hkeep dest g (hp ▸ hpc) hg
        obtain ⟨hdone, hcopy⟩ := hs.2 f₀ (hp ▸ hf₀)
        obtain ⟨hwrite, hcontent⟩ := hwritten hdone
        exact ⟨hwrite, hcontent ▸ hcopy⟩
      · rw [if_neg hp] at hg
        exact hs.2 g hg

theorem Wf.put {p : Path} {f : Option File} (hs : Wf cfg s)
    (hkeep : ∀ dest g, s.pc = .copied p dest → f = some g →
      ∃ f₀, s.tree p = some f₀ ∧
        (f₀.toWrite = [] → g.toWrite = [] ∧ g.content = f₀.content)) :
    Wf cfg (s.put p f) :=
  ⟨hs.down, hs.select, hs.call.put hkeep⟩

/-- A call goes on only in a running dispatcher. -/
theorem Wf.up_of_call (hs : Wf cfg s) (hpc : s.pc ≠ .idle) : s.up = true := by
  cases hup : s.up with
  | true => rfl
  | false => exact absurd (hs.down hup).2 hpc

/-- A call that ends, however it ends, leaves nothing to know. -/
theorem Wf.callEnds (hs : Wf cfg s) (hup : s'.up = s.up) (hev : s'.events = s.events)
    (hselect : s'.select = s.select) (hpc : s'.pc = .idle) : Wf cfg s' := by
  refine ⟨?_, ?_, ?_⟩
  · intro hdown
    rw [hup] at hdown
    exact ⟨hev.trans (hs.down hdown).1, hpc⟩
  · rw [hup, hselect]
    exact hs.select
  · unfold CallHolds
    rw [hpc]
    trivial

/-- Only a running dispatcher has an event to serve. -/
theorem Wf.up_of_events {p : Path} {rest : List Path} (hs : Wf cfg s)
    (hev : s.events = p :: rest) : s.up = true := by
  cases hup : s.up with
  | true => rfl
  | false =>
      rw [(hs.down hup).1] at hev
      cases hev

theorem Wf.step {a : Act} (hs : Wf cfg s) (hwhole : handsOverWhole s a = true)
    (h : Step cfg s a s') : Wf cfg s' := by
  have hcall := hs.call
  unfold CallHolds at hcall
  cases h with
  | create p writes =>
      have hput : Wf cfg (s.put p (some ⟨[], some writes⟩)) := by
        apply hs.put
        intro dest g hpc _
        -- the file being moved is not saved over
        simp [handsOverWhole, hpc] at hwhole
      refine ⟨?_, hput.select, hput.call⟩
      intro hup
      change s.up = false at hup
      have hev : s.events = [] := (hs.down hup).1
      exact ⟨by simp [hup, hev], (hs.down hup).2⟩
  | write p content w rest hf =>
      apply hs.put
      intro dest g _ _
      refine ⟨_, hf, ?_⟩
      -- a file with a write to come is not written out
      intro hdone
      simp [File.toWrite] at hdone
  | close p content hf =>
      apply hs.put
      intro dest g _ hg
      cases hg
      exact ⟨_, hf, fun _ => ⟨rfl, rfl⟩⟩
  | start fs hup hfs => exact ⟨by simp, fun _ => hfs, hs.call⟩
  | stop => exact ⟨fun _ => ⟨rfl, rfl⟩, by simp, trivial⟩
  | checkCandidate fs hup hfs => exact ⟨hs.down, fun _ => hfs, hs.call⟩
  | onCreated p rest hpc hev =>
      have hup := hs.up_of_events hev
      exact ⟨by simp [hup], hs.select, s.select, hs.select hup, rfl⟩
  | mkdir newfile dest hpc =>
      have hup := hs.up_of_call (by rw [hpc]; simp)
      simp only [hpc] at hcall
      exact ⟨by simp [hup], hs.select, hcall⟩
  | copy newfile dest f hpc hf =>
      have hup := hs.up_of_call (by rw [hpc]; simp)
      simp only [hpc] at hcall
      have hdone : f.toWrite = [] := by
        simpa [handsOverWhole, hpc, hf] using hwhole
      refine ⟨by simp [State.putCopy, hup], hs.select, hcall, ?_⟩
      intro g hg
      have hfg : f = g := Option.some.inj (hf.symm.trans hg)
      exact hfg ▸ ⟨hdone, by simp [State.putCopy]⟩
  | mkdirFails | copyFails | copyMissing | unlink | unlinkFails =>
      exact hs.callEnds rfl rfl rfl rfl
  | clean p f hf =>
      apply hs.put
      intro _ _ _ hg
      cases hg

theorem wf_initial (h : s.Initial) : Wf cfg s := by
  obtain ⟨-, -, hev, hup, hpc⟩ := h
  refine ⟨fun _ => ⟨hev, hpc⟩, by simp [hup], ?_⟩
  unfold CallHolds
  rw [hpc]
  trivial

theorem wf_inductive (cfg : Config) :
    ((dispatch cfg).restrict fun s a => handsOverWhole s a = true).Inductive (Wf cfg) where
  init _ h := wf_initial h
  step s a s' _ hs h := by
    obtain ⟨hwhole, h⟩ := TSys.restrict_step.mp h
    exact hs.step hwhole (step_cases h)

/-- Only the unlink of `shutil.move` and `cleantmpdata` take a file out of the tree. -/
theorem removes {a : Act} {p : Path} {f : File} (h : Step cfg s a s') (hf : s.tree p = some f)
    (hgone : s'.tree p = none) : (a = .unlink ∧ ∃ dest, s.pc = .copied p dest) ∨ a = .clean p := by
  cases h with
  | unlink newfile dest f' hpc =>
      by_cases hp : p = newfile
      · exact .inl ⟨rfl, dest, hp ▸ hpc⟩
      · simp [State.put, hp, hf] at hgone
  | clean q f' =>
      by_cases hp : p = q
      · exact .inr (by rw [hp])
      · simp [State.put, hp, hf] at hgone
  | create q | write q | close q =>
      by_cases hp : p = q
      · simp [State.put, hp] at hgone
      · simp [State.put, hp, hf] at hgone
  | start | stop | checkCandidate | onCreated | mkdir | mkdirFails | copy | copyFails
  | copyMissing | unlinkFails =>
      -- these steps leave the tree alone
      change s.tree p = none at hgone
      rw [hf] at hgone
      cases hgone

theorem isMove_removes {a : Act} {p : Path} {f : File} (ha : a.isMove = true)
    (h : step cfg s a = some s') (hf : s.tree p = some f) (hgone : s'.tree p = none) :
    s'.copies = s.copies ∧ ∃ dest, s.pc = .copied p dest := by
  rcases removes (step_cases h) hf hgone with ⟨rfl, hpc⟩ | rfl
  · cases step_cases h with
    | unlink => exact ⟨rfl, hpc⟩
  · cases ha

/-- On the runs that copy only what has been written out, the dispatcher takes a file
out of the monitored tree only when a candidate holds its final content. -/
theorem hand_over_complete (cfg : Config) {s s' : State} {a : Act} {p : Path} {f : File}
    (hs : ((dispatch cfg).restrict fun s a => handsOverWhole s a = true).Reachable s)
    (h : ((dispatch cfg).restrict fun s a => handsOverWhole s a = true).step s a = some s')
    (ha : a.isMove = true) (hf : s.tree p = some f) (hgone : s'.tree p = none) :
    ∃ fs ∈ cfg.candidates, s'.copies (fs ++ cfg.relative p) = some f.final := by
  obtain ⟨_, h⟩ := TSys.restrict_step.mp h
  obtain ⟨hcopies, dest, hpc⟩ := isMove_removes ha h hf hgone
  have hcall := ((wf_inductive cfg).invariant s hs).call
  unfold CallHolds at hcall
  rw [hpc] at hcall
  obtain ⟨⟨fs, hfs, hdest⟩, hwhole⟩ := hcall
  obtain ⟨hdone, hcopy⟩ := hwhole f hf
  refine ⟨fs, hfs, ?_⟩
  rw [hcopies, ← hdest, hcopy, File.final_of_written hdone]

/-! ## Replaying a hand-over -/

/-- The service as it is installed, with two of its candidates; `*.fit*` covers both
of the handler's patterns. -/
def tmpData : Config where
  listenDir := ["/", "tmp", "data"]
  candidates := [["/", "data1"], ["/", "data2"]]
  matching p := p.getLast?.any fun name => ".fit".toList <:+: name.toList

def State.fresh : State where
  tree := fun _ => none
  copies := fun _ => none
  events := []
  up := false
  select := []
  pc := .idle

theorem State.fresh_initial : State.fresh.Initial := ⟨rfl, rfl, rfl, rfl, rfl⟩

def sampleFile : Path := ["/", "tmp", "data", "2019", "1012", "20", "a.fits.fz"]

/-- The dispatcher is up and two content writes of a new file lie ahead. -/
def created : List Act :=
  [.start ["/", "data1"], .create sampleFile [⟨0, [1, 2]⟩, ⟨1, [3]⟩]]

/-- `on_created` up to the unlink. -/
def moved : List Act := [.onCreated, .mkdir, .copy]

/-- The file is closed before its event is served. -/
theorem hand_over_complete_closed : ∃ s s' f, s.tree sampleFile = some f ∧ f.final = [1, 3] ∧
    step tmpData s .unlink = some s' ∧
    ∃ fs ∈ tmpData.candidates, s'.copies (fs ++ tmpData.relative sampleFile) = some f.final := by
  obtain ⟨s, hs, hshape⟩ := TSys.Reachable.of_exec
    (show ((dispatch tmpData).restrict fun s a => handsOverWhole s a = true).init _ from
      State.fresh_initial)
    (show (((dispatch tmpData).restrict fun s a => handsOverWhole s a = true).exec State.fresh
      (created ++ [.write sampleFile, .write sampleFile, .close sampleFile] ++ moved)).any
        (fun s => (s.tree sampleFile).any (fun f => f.final = [1, 3]) &&
          (step tmpData s .unlink).any fun s' => (s'.tree sampleFile).isNone) = true
      by decide +kernel)
  simp only [Bool.and_eq_true, Option.any_eq_true, decide_eq_true_eq,
    Option.isNone_iff_eq_none] at hshape
  obtain ⟨⟨f, hf, hfinal⟩, s', hstep, hgone⟩ := hshape
  have hwhole : ((dispatch tmpData).restrict fun s a => handsOverWhole s a = true).step s
      .unlink = some s' := TSys.restrict_step.mpr ⟨rfl, hstep⟩
  exact ⟨s, s', f, hf, hfinal, hstep, hand_over_complete tmpData hs hwhole rfl hf hgone⟩

/-- The event is served as soon as the file appears: an empty file is copied, and what
`save_data` writes next goes with the unlink. -/
theorem unwritten_file_unlinked :
    ¬ ∀ (s s' : State) (a : Act) (p : Path) (f : File), (dispatch tmpData).Reachable s →
      step tmpData s a = some s' → a.isMove = true → s.tree p = some f → s'.tree p = none →
      ∃ fs ∈ tmpData.candidates, s'.copies (fs ++ tmpData.relative p) = some f.final := by
  intro hall
  obtain ⟨s, hs, hshape⟩ := TSys.Reachable.of_exec
    (State.fresh_initial : (dispatch tmpData).init _)
    (show ((dispatch tmpData).exec State.fresh (created ++ moved)).any
      (fun s => (s.tree sampleFile).any (fun f => f.final = [1, 3]) &&
        (step tmpData s .unlink).any fun s' => (s'.tree sampleFile).isNone &&
          tmpData.candidates.all fun fs =>
            s'.copies (fs ++ tmpData.relative sampleFile) ≠ some [1, 3]) = true
      by decide +kernel)
  simp only [Bool.and_eq_true, Option.any_eq_true, decide_eq_true_eq, List.all_eq_true,
    Option.isNone_iff_eq_none] at hshape
  obtain ⟨⟨f, hf, hfinal⟩, s', hstep, hgone, hnone⟩ := hshape
  obtain ⟨fs, hfs, hcopy⟩ := hall s s' .unlink sampleFile f hs hstep rfl hf hgone
  rw [hfinal] at hcopy
  exact hnone fs hfs hcopy

end AutoExpo.HandOver
