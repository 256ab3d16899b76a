import AutoExpo.HandOver.Dispatch

/-!
# Files left behind

The dispatcher hears of a file once, when it is created. A file whose move
fails, whose event goes with the process, or which is created while the
dispatcher is down, is not looked at again, whatever `SELECT` becomes: it stays
in the monitored tree until it is a day old, and `cleantmpdata` deletes it
(`failed_move_left`). That is `find -ctime 1`, so time is part of the system
here, and so is the time of each file's last change.

None is left behind, and none goes that is not whole in a candidate, in the runs
without such a step and without a move of half a file, in which no file becomes a
day old before it has been copied (`none_left_behind`).
-/

namespace AutoExpo.HandOver

open Kit

/-! ## The age of the files -/

/-- The time in seconds, and that of the last change of each file. -/
structure Timed where
  state : State
  now : Nat
  ctime : Path → Nat

inductive TimedAct
  | act (a : Act)
  | wait (seconds : Nat)

/-- The file whose content the step changes. -/
def Act.changed : Act → Option Path
  | .create p _ | .write p => some p
  | _ => none

def day : Nat := 24 * 60 * 60

/-- `find -ctime 1` takes the files that are one day old, and not yet two. -/
def Timed.ripe (x : Timed) : Act → Bool
  | .clean p => (x.now - x.ctime p) / day = 1
  | _ => true

def timedStep (cfg : Config) (x : Timed) : TimedAct → Option Timed
  | .wait seconds => some { x with now := x.now + seconds }
  | .act a =>
      if x.ripe a then
        (step cfg x.state a).map fun s' =>
          { state := s'
            now := x.now
            ctime := fun p => if a.changed = some p then x.now else x.ctime p }
      else none

def cleaned (cfg : Config) : TSys Timed TimedAct where
  init x := x.state.Initial
  step := timedStep cfg

/-! ## What is left and what goes -/

/-- The file a call of `on_created` is about. -/
def Pc.newfile : Pc → Option Path
  | .idle => none
  | .created newfile _ | .moving newfile _ | .copied newfile _ => some newfile

/-- The dispatcher has still to deal with the file. -/
def State.awaits (s : State) (p : Path) : Prop := p ∈ s.events ∨ s.pc.newfile = some p

/-- No event is pending, no call under way, and there is no file the dispatcher should
have moved. -/
def NoneLeft (cfg : Config) (s : State) : Prop :=
  s.up = true → s.events = [] → s.pc = .idle → ∀ p, cfg.matching p = true → s.tree p = none

/-- A candidate holds all that `save_data` writes to the file. -/
def Moved (cfg : Config) (s : State) (p : Path) (f : File) : Prop :=
  ∃ fs ∈ cfg.candidates, s.copies (fs ++ cfg.relative p) = some f.final

/-- A file that goes from the tree has been moved. -/
def GoesMoved (cfg : Config) (s s' : State) : Prop :=
  ∀ p f, cfg.matching p = true → s.tree p = some f → s'.tree p = none → Moved cfg s p f

/-- The files with an event pending, or in a call that has not got to the copy. -/
def State.uncopied (s : State) : List Path :=
  s.events ++ match s.pc with
    | .created newfile _ | .moving newfile _ => [newfile]
    | _ => []

/-- The dispatcher is up when a file is created; a move fails, and the process ends, only
when the files it has still to move are gone. -/
def leavesNone (cfg : Config) (s : State) : Act → Bool
  | .create p _ => s.up || !cfg.matching p
  | .mkdirFails | .copyFails _ | .unlinkFails => s.pc.newfile.all fun p => (s.tree p).isNone
  | .stop => (s.pc.newfile.toList ++ s.events).all fun p => (s.tree p).isNone
  | _ => true

/-- No file leaves the dispatcher's hands before it is whole in a candidate, and none becomes
a day old before it is copied. -/
def inTime (cfg : Config) (x : Timed) : TimedAct → Bool
  | .act a => leavesNone cfg x.state a && handsOverWhole x.state a
  | .wait seconds => x.state.uncopied.all fun p =>
      (x.state.tree p).isNone || x.now + seconds < x.ctime p + day

/-! ## The dispatcher has still to deal with every file in the tree -/

def Awaited (cfg : Config) (s : State) : Prop :=
  ∀ p, cfg.matching p = true → s.tree p ≠ none → s.awaits p

variable {cfg : Config} {s s' : State} {a : Act}

/-- A call that ends is about a file that is gone. -/
theorem Awaited.callEnds {newfile : Path} {tree : Path → Option File} {copies : Path → Option Bytes}
    (hs : Awaited cfg s) (hpc : s.pc.newfile = some newfile) (hgone : tree newfile = none)
    (htree : ∀ p, tree p ≠ none → s.tree p ≠ none) :
    Awaited cfg { s with tree := tree, copies := copies, pc := .idle } := by
  intro p hp hthere
  rcases hs p hp (htree p hthere) with hev | hcall
  · exact .inl hev
  · rw [hpc, Option.some.injEq] at hcall
    exact absurd (hcall ▸ hgone) hthere

/-- A file that is written to, or dropped, adds none to the tree. -/
theorem Awaited.put {p : Path} {f : Option File} (hs : Awaited cfg s)
    (hthere : f ≠ none → s.tree p ≠ none) : Awaited cfg (s.put p f) := by
  intro q hq hq'
  apply hs q hq
  by_cases hqp : q = p
  · subst hqp
    apply hthere
    simpa [State.put] using hq'
  · simpa [State.put, hqp] using hq'

/-- A call that goes on keeps its file. -/
theorem Awaited.callGoesOn {pc : Pc} {copies : Path → Option Bytes} (hs : Awaited cfg s)
    (hfile : pc.newfile = s.pc.newfile) :
    Awaited cfg { s with copies := copies, pc := pc } := by
  intro p hp hthere
  rcases hs p hp hthere with hev | hnew
  · exact .inl hev
  · exact .inr (hfile.trans hnew)

/-- A file that is created while the dispatcher is up has its event. -/
theorem Awaited.create {p : Path} {f : File} (hs : Awaited cfg s)
    (hup : cfg.matching p = true → s.up = true) :
    Awaited cfg { s.put p (some f) with
      events := if s.up && cfg.matching p then s.events ++ [p] else s.events } := by
  intro q hq hthere
  by_cases hqp : q = p
  · -- its event is the last of those pending
    subst hqp
    exact .inl (by simp [hup hq, hq])
  · have hawaits := hs q hq (by simpa [State.put, hqp] using hthere)
    refine hawaits.imp ?_ id
    intro hev
    show q ∈ if s.up && cfg.matching p then s.events ++ [p] else s.events
    split
    · exact List.mem_append_left _ hev
    · exact hev

/-- A call of `on_created` takes over from the event. -/
theorem Awaited.onCreated {p : Path} {rest : List Path} (hs : Awaited cfg s)
    (hpc : s.pc = .idle) (hev : s.events = p :: rest) :
    Awaited cfg { s with
      events := rest, pc := .created p (s.select ++ cfg.relative p) } := by
  intro q hq hthere
  rcases hs q hq hthere with hmem | hcall
  · rw [hev, List.mem_cons] at hmem
    exact hmem.elim (fun heq => .inr (congrArg some heq.symm)) .inl
  · rw [hpc] at hcall
    cases hcall

theorem Awaited.step (hs : Awaited cfg s) (hnone : leavesNone cfg s a = true)
    (h : Step cfg s a s') : Awaited cfg s' := by
  cases h with
  | create p writes =>
      refine hs.create ?_
      intro hmatch
      simpa [leavesNone, hmatch] using hnone
  | write p content w rest hf | close p content hf => exact hs.put fun _ => by simp [hf]
  | clean p f hf => exact hs.put fun hne => absurd rfl hne
  | start | checkCandidate => exact hs
  | stop hup =>
      intro p hp hthere
      simp only [leavesNone, List.all_eq_true, List.mem_append, Option.mem_toList,
        Option.isNone_iff_eq_none] at hnone
      exact absurd (hnone p (hs p hp hthere).symm) hthere
  | onCreated p rest hpc hev => exact hs.onCreated hpc hev
  | mkdir newfile dest hpc | copy newfile dest f hpc => exact hs.callGoesOn (by rw [hpc]; rfl)
  | mkdirFails newfile dest hpc | unlinkFails newfile dest hpc =>
      have hgone : s.tree newfile = none := by simpa [leavesNone, hpc, Pc.newfile] using hnone
      exact hs.callEnds (by rw [hpc]; rfl) hgone fun _ => id
  | copyFails got newfile dest f hpc hf =>
      simp [leavesNone, hpc, Pc.newfile, hf] at hnone
  | copyMissing got newfile dest hpc hf =>
      exact hs.callEnds (by rw [hpc]; rfl) hf fun _ => id
  | unlink newfile dest f hpc hf =>
      refine hs.callEnds (by rw [hpc]; rfl) (if_pos rfl) ?_
      intro p hthere hgone
      apply hthere
      by_cases hp : p = newfile
      · exact if_pos hp
      · exact (if_neg hp).trans hgone

/-! ## No file is a day old before it is copied -/

/-- A file that is changed in place, or goes, was one to be copied before. -/
theorem uncopied_put {p q : Path} {f : Option File} (hp : p ∈ (s.put q f).uncopied)
    (hthere : (s.put q f).tree p ≠ none) (hold : p = q → f ≠ none → s.tree p ≠ none) :
    p ∈ s.uncopied ∧ s.tree p ≠ none := by
  refine ⟨hp, ?_⟩
  by_cases hpq : p = q
  · exact hold hpq (by simpa [State.put, hpq] using hthere)
  · simpa [State.put, hpq] using hthere

/-- A call that ends, or has made its copy, leaves the files of the events to be copied. -/
theorem uncopied_events {p : Path} {pc : Pc} {tree : Path → Option File}
    {copies : Path → Option Bytes} (hpc : ∀ newfile dest, pc ≠ .created newfile dest ∧
      pc ≠ .moving newfile dest)
    (hp : p ∈ ({ s with tree := tree, copies := copies, pc := pc } : State).uncopied) :
    p ∈ s.uncopied := by
  apply List.mem_append_left
  cases pc with
  | idle | copied => simpa [State.uncopied] using hp
  | created newfile dest => exact absurd rfl (hpc newfile dest).1
  | moving newfile dest => exact absurd rfl (hpc newfile dest).2

/-- Only a file that is created comes to the files to be copied. -/
theorem uncopied_before {p : Path} (h : Step cfg s a s') (hp : p ∈ s'.uncopied)
    (hthere : s'.tree p ≠ none) (hchanged : a.changed ≠ some p) :
    p ∈ s.uncopied ∧ s.tree p ≠ none := by
  cases h with
  | create q writes =>
      have hqp : p ≠ q := fun heq => hchanged (congrArg some heq.symm)
      refine ⟨?_, by simpa [State.put, hqp] using hthere⟩
      rcases List.mem_append.mp hp with hev | hcall
      · apply List.mem_append_left
        change p ∈ (if s.up && cfg.matching q then s.events ++ [q] else s.events) at hev
        split at hev
        · simpa [hqp] using hev
        · exact hev
      · exact List.mem_append_right _ hcall
  | write q content w rest hf => exact uncopied_put hp hthere fun heq _ => by simp [heq, hf]
  | close q content hf => exact uncopied_put hp hthere fun heq _ => by simp [heq, hf]
  | clean q f hf => exact uncopied_put hp hthere fun _ hne => absurd rfl hne
  | start | checkCandidate => exact ⟨hp, hthere⟩
  | stop => simp [State.uncopied] at hp
  | onCreated q rest hpc hev =>
      refine ⟨?_, hthere⟩
      simp only [State.uncopied, List.mem_append, List.mem_singleton] at hp
      simp only [State.uncopied, hev, hpc, List.mem_append, List.mem_cons]
      exact .inl (hp.elim .inr .inl)
  | mkdir newfile dest hpc => exact ⟨by simpa [State.uncopied, hpc] using hp, hthere⟩
  | mkdirFails | copyMissing | unlinkFails | copyFails | copy =>
      exact ⟨uncopied_events (fun _ _ => by simp) hp, hthere⟩
  | unlink newfile dest f hpc hf =>
      refine ⟨uncopied_events (fun _ _ => by simp) hp, ?_⟩
      by_cases hq : p = newfile
      · rw [hq, hf]
        exact Option.some_ne_none f
      · simpa [State.put, hq] using hthere

/-! ## Every run -/

/-- Every file in the tree is the dispatcher's to deal with, a call copies whole files, and
what is to be copied is younger than a day. -/
structure InHand (cfg : Config) (x : Timed) : Prop where
  awaited : Awaited cfg x.state
  wf : Wf cfg x.state
  young : ∀ p ∈ x.state.uncopied, x.state.tree p ≠ none → x.now < x.ctime p + day

theorem timedStep_cases {x x' : Timed} {b : TimedAct} (h : timedStep cfg x b = some x') :
    (∃ seconds, b = .wait seconds ∧ x' = { x with now := x.now + seconds }) ∨
      ∃ a s', b = .act a ∧ x.ripe a = true ∧ Step cfg x.state a s' ∧ x' =
        { state := s'
          now := x.now
          ctime := fun p => if a.changed = some p then x.now else x.ctime p } := by
  cases b with
  | wait seconds =>
      cases h
      exact .inl ⟨seconds, rfl, rfl⟩
  | act a =>
      simp only [timedStep] at h
      split_ifs at h with hripe
      obtain ⟨s', hstep, rfl⟩ := Option.map_eq_some_iff.mp h
      exact .inr ⟨a, s', rfl, hripe, step_cases hstep, rfl⟩

theorem inHand_inductive (cfg : Config) :
    ((cleaned cfg).restrict fun x b => inTime cfg x b = true).Inductive (InHand cfg) where
  init x h := by
    have htree : x.state.tree = fun _ => none := h.1
    refine ⟨?_, wf_initial h, ?_⟩
    · intro p _ hthere
      exact absurd (congrFun htree p) hthere
    · intro p _ hthere
      exact absurd (congrFun htree p) hthere
  step x b x' _ hx h := by
    obtain ⟨hin, h⟩ := TSys.restrict_step.mp h
    rcases timedStep_cases h with ⟨seconds, rfl, rfl⟩ | ⟨a, s', rfl, -, hstep, rfl⟩
    · refine ⟨hx.awaited, hx.wf, ?_⟩
      intro p hp hthere
      have hyoung := List.all_eq_true.mp hin p hp
      simpa [Option.isNone_iff_eq_none, hthere] using hyoung
    · simp only [inTime, Bool.and_eq_true] at hin
      refine ⟨hx.awaited.step hin.1 hstep, hx.wf.step hin.2 hstep, ?_⟩
      intro p hp hthere
      by_cases hchanged : a.changed = some p
      · simp [hchanged, day]
      · obtain ⟨hbefore, hthere⟩ := uncopied_before hstep hp hthere hchanged
        simpa [hchanged] using hx.young p hbefore hthere

/-- A file that goes while its call is at the unlink is whole in a candidate. -/
theorem moved_of_copied {p dest : Path} {f : File} (hs : Wf cfg s) (hpc : s.pc = .copied p dest)
    (hf : s.tree p = some f) : Moved cfg s p f := by
  have hcall := hs.call
  unfold CallHolds at hcall
  rw [hpc] at hcall
  obtain ⟨⟨fs, hfs, hdest⟩, hwhole⟩ := hcall
  obtain ⟨hdone, hcopy⟩ := hwhole f hf
  exact ⟨fs, hfs, by rw [← hdest, hcopy, File.final_of_written hdone]⟩

/-- What `cleantmpdata` may delete has been copied, since it is a day old. -/
theorem copied_of_ripe {x : Timed} {p : Path} (hx : InHand cfg x) (hp : cfg.matching p = true)
    (hripe : x.ripe (.clean p) = true) (hthere : x.state.tree p ≠ none) :
    ∃ dest, x.state.pc = .copied p dest := by
  have hold : p ∉ x.state.uncopied := by
    intro hmem
    have hyoung := hx.young p hmem hthere
    have hday : (x.now - x.ctime p) / day = 1 := of_decide_eq_true hripe
    unfold day at hday hyoung
    omega
  simp only [State.uncopied, List.mem_append, not_or] at hold
  rcases hx.awaited p hp hthere with hev | hnew
  · exact absurd hev hold.1
  · cases hpc : x.state.pc with
    | idle => simp [hpc, Pc.newfile] at hnew
    | created newfile dest | moving newfile dest =>
        rw [hpc, Pc.newfile, Option.some.injEq] at hnew
        simp [hpc, hnew] at hold
    | copied newfile dest =>
        rw [hpc, Pc.newfile, Option.some.injEq] at hnew
        exact ⟨dest, by rw [hnew]⟩

/-- In the runs in which the dispatcher is up when a file is created, no move fails and no
restart comes while a file is still to be moved, only whole files are copied, and none is a
day old before it is: the dispatcher leaves no file behind when it is done, and no file goes
from the tree, by its move or by `cleantmpdata`, that is not whole in a candidate. -/
theorem none_left_behind (cfg : Config) (x : Timed)
    (hx : ((cleaned cfg).restrict fun x b => inTime cfg x b = true).Reachable x) :
    NoneLeft cfg x.state ∧ ∀ b x', ((cleaned cfg).restrict fun x b =>
      inTime cfg x b = true).step x b = some x' → GoesMoved cfg x.state x'.state := by
  have hin := (inHand_inductive cfg).invariant x hx
  refine ⟨?_, ?_⟩
  · intro _ hev hpc p hp
    by_contra hthere
    rcases hin.awaited p hp hthere with hmem | hcall
    · rw [hev] at hmem
      cases hmem
    · rw [hpc] at hcall
      cases hcall
  · intro b x' h p f hp hf hgone
    obtain ⟨-, h⟩ := TSys.restrict_step.mp h
    rcases timedStep_cases h with ⟨seconds, -, rfl⟩ | ⟨a, s', -, hripe, hstep, rfl⟩
    · rw [hf] at hgone
      cases hgone
    · rcases removes hstep hf hgone with ⟨-, dest, hpc⟩ | rfl
      · exact moved_of_copied hin.wf hpc hf
      · obtain ⟨dest, hpc⟩ := copied_of_ripe hin hp hripe (by simp [hf])
        exact moved_of_copied hin.wf hpc hf

/-- Nothing has been saved, at time 0. -/
def Timed.fresh : Timed where
  state := .fresh
  now := 0
  ctime := fun _ => 0

/-- A file is moved, the dispatcher restarted a day later, and nothing left. -/
def movedAndRestarted : List TimedAct :=
  List.map TimedAct.act (created ++ [.write sampleFile, .write sampleFile, .close sampleFile] ++
    moved ++ [.unlink]) ++ [.wait day, .act .stop, .act (.start ["/", "data2"])]

theorem none_left_behind_movedAndRestarted : ∃ x : Timed, x.state.up = true ∧
    x.state.copies ["/", "data1", "2019", "1012", "20", "a.fits.fz"] = some [1, 3] ∧
    NoneLeft tmpData x.state := by
  obtain ⟨x, hx, hshape⟩ := TSys.Reachable.of_exec
    (show ((cleaned tmpData).restrict fun x b => inTime tmpData x b = true).init Timed.fresh from
      State.fresh_initial)
    (show (((cleaned tmpData).restrict fun x b => inTime tmpData x b = true).exec Timed.fresh
      movedAndRestarted).any (fun x => x.state.up &&
        x.state.copies ["/", "data1", "2019", "1012", "20", "a.fits.fz"] = some [1, 3]) = true
      by decide +kernel)
  simp only [Bool.and_eq_true, decide_eq_true_eq] at hshape
  exact ⟨x, hshape.1, hshape.2, (none_left_behind tmpData x hx).1⟩

/-- The move to `/data1` fails, `/data2` is selected, and a day goes by. -/
def failedMove : List TimedAct :=
  List.map TimedAct.act (created ++ [.write sampleFile, .write sampleFile, .close sampleFile,
    .onCreated, .mkdirFails, .checkCandidate ["/", "data2"]]) ++ [.wait day]

/-- The file is still there, and `cleantmpdata` deletes it: no candidate has it. -/
theorem failed_move_left : ¬ ∀ x, (cleaned tmpData).Reachable x → NoneLeft tmpData x.state ∧
    ∀ b x', timedStep tmpData x b = some x' → GoesMoved tmpData x.state x'.state := by
  intro hall
  obtain ⟨x, hx, hshape⟩ := TSys.Reachable.of_exec
    (State.fresh_initial : (cleaned tmpData).init Timed.fresh)
    (show ((cleaned tmpData).exec Timed.fresh failedMove).any
      (fun x => (x.state.tree sampleFile).any (fun f => f.final = [1, 3]) &&
        (timedStep tmpData x (.act (.clean sampleFile))).any fun x' =>
          (x'.state.tree sampleFile).isNone && tmpData.candidates.all fun fs =>
            x.state.copies (fs ++ tmpData.relative sampleFile) = none) = true
      by decide +kernel)
  simp only [Bool.and_eq_true, Option.any_eq_true, decide_eq_true_eq, List.all_eq_true,
    Option.isNone_iff_eq_none] at hshape
  obtain ⟨⟨f, hf, -⟩, x', hstep, hgone, hnone⟩ := hshape
  obtain ⟨fs, hfs, hcopy⟩ :=
    (hall x hx).2 _ x' hstep sampleFile f (by decide +kernel) hf hgone
  rw [hnone fs hfs] at hcopy
  cases hcopy

end AutoExpo.HandOver
