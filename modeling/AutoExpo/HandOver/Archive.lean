import AutoExpo.HandOver.Dispatch
import AutoExpo.Kit.Runs

/-!
# What is in the candidates

Moves fail, files are saved over while they are moved, `SELECT` changes, the
process is restarted. Whatever happens, a file in a candidate directory has the
relative path of an image that was created in the monitored tree, and holds a
leading part of what the writer of that image had written at some moment
(`copies_sourced`): no file is made up, and none is mixed from two. That is as
long as a copy takes what the file holds at one moment, as in `step`.
-/

namespace AutoExpo.HandOver

open Kit

/-- A file that was created, with the content writes its writer was to make. -/
abbrev Created := Path × List Write

def noteCreated (h : List Created) (_ : State) : Act → List Created
  | .create p writes => h ++ [(p, writes)]
  | _ => h

/-- The dispatcher, with the files that have been created. -/
def dispatched (cfg : Config) : TSys (State × List Created) Act :=
  (dispatch cfg).record [] noteCreated

/-- What the first `n` writes make of an empty file. -/
def written (writes : List Write) (n : Nat) : Bytes := (writes.take n).foldl Write.apply []

/-- The content is a leading part of what the writer of an image that goes to `dest` had
written at some moment. -/
def Sourced (cfg : Config) (h : List Created) (dest : Path) (content : Bytes) : Prop :=
  ∃ p writes n, (p, writes) ∈ h ∧ cfg.matching p = true ∧ cfg.Destination p dest ∧
    content <+: written writes n

/-- A file in the tree is what its writer has made of it so far. -/
def Begun (h : List Created) (p : Path) (f : File) : Prop :=
  ∃ done, (p, done ++ f.toWrite) ∈ h ∧ f.content = done.foldl Write.apply []

/-- The call is about an image, and moves it to its destination. -/
def Serves (cfg : Config) : Pc → Prop
  | .idle => True
  | .created newfile dest | .moving newfile dest | .copied newfile dest =>
      cfg.matching newfile = true ∧ cfg.Destination newfile dest

structure Archive (cfg : Config) (h : List Created) (s : State) : Prop where
  tree : ∀ p f, s.tree p = some f → Begun h p f
  events : ∀ p ∈ s.events, cfg.matching p = true
  down : s.up = false → s.events = []
  select : s.up = true → s.select ∈ cfg.candidates
  call : Serves cfg s.pc
  copies : ∀ dest content, s.copies dest = some content → Sourced cfg h dest content

variable {cfg : Config} {h h' : List Created} {s s' : State}

/-! ## One step -/

/-- What is known of a history is known of a longer one. -/
theorem Archive.longer (hs : Archive cfg h s) (hsub : h ⊆ h') : Archive cfg h' s where
  tree p f hf := by
    obtain ⟨done, hmem, hcontent⟩ := hs.tree p f hf
    exact ⟨done, hsub hmem, hcontent⟩
  events := hs.events
  down := hs.down
  select := hs.select
  call := hs.call
  copies dest content hcopy := by
    obtain ⟨p, writes, n, hmem, hsource⟩ := hs.copies dest content hcopy
    exact ⟨p, writes, n, hsub hmem, hsource⟩

/-- A change of one file, to one that is begun as well, or to none. -/
theorem Archive.put {p : Path} {f : Option File} (hs : Archive cfg h s)
    (hbegun : ∀ g, f = some g → Begun h p g) : Archive cfg h (s.put p f) where
  tree q g hg := by
    by_cases hqp : q = p
    · subst hqp
      exact hbegun g (by simpa [State.put] using hg)
    · exact hs.tree q g (by simpa [State.put, hqp] using hg)
  events := hs.events
  down := hs.down
  select := hs.select
  call := hs.call
  copies := hs.copies

/-- The writes that have been made are the first ones. -/
theorem Begun.front_written {p : Path} {f : File} (hf : Begun h p f) {content : Bytes}
    (hfront : content <+: f.content) :
    ∃ writes n, (p, writes) ∈ h ∧ content <+: written writes n := by
  obtain ⟨done, hmem, hcontent⟩ := hf
  refine ⟨_, done.length, hmem, ?_⟩
  rwa [written, List.take_left, ← hcontent]

/-- A copy, whole or not, is sourced. -/
theorem Archive.copy {newfile dest : Path} {f : File} {content : Bytes} {pc : Pc}
    (hs : Archive cfg h s) (hpc : s.pc = .moving newfile dest) (hf : s.tree newfile = some f)
    (hfront : content <+: f.content) (hserves : Serves cfg pc) :
    Archive cfg h { s.putCopy dest content with pc := pc } where
  tree := hs.tree
  events := hs.events
  down := hs.down
  select := hs.select
  call := hserves
  copies dest' content' hcopy := by
    by_cases hdest : dest' = dest
    · subst hdest
      have hcontent : content = content' := by simpa [State.putCopy] using hcopy
      have hcall := hs.call
      rw [hpc] at hcall
      obtain ⟨writes, n, hmem, hwritten⟩ := (hs.tree newfile f hf).front_written hfront
      exact ⟨newfile, writes, n, hmem, hcall.1, hcall.2, hcontent ▸ hwritten⟩
    · exact hs.copies dest' content' (by simpa [State.putCopy, hdest] using hcopy)

/-- A call that goes on, or ends. -/
theorem Archive.call_to {pc : Pc} (hs : Archive cfg h s) (hserves : Serves cfg pc) :
    Archive cfg h { s with pc := pc } :=
  ⟨hs.tree, hs.events, hs.down, hs.select, hserves, hs.copies⟩

/-- A new file, and its event if the observer runs and the file is an image. -/
theorem Archive.create (hs : Archive cfg h s) (p : Path) (writes : List Write) :
    Archive cfg (h ++ [(p, writes)])
      { s.put p (some { content := [], writer := some writes }) with
        events := if s.up && cfg.matching p then s.events ++ [p] else s.events } := by
  have hlonger : Archive cfg (h ++ [(p, writes)]) s := hs.longer (List.subset_append_left h _)
  have hput := hlonger.put (p := p) (f := some ⟨[], some writes⟩) fun g hg =>
    ⟨[], by cases hg; simp [File.toWrite], by cases hg; rfl⟩
  refine ⟨hput.tree, ?_, ?_, hput.select, hput.call, hput.copies⟩
  · intro q hq
    by_cases hev : (s.up && cfg.matching p) = true
    · simp only [hev, if_true, List.mem_append, List.mem_singleton] at hq
      rcases hq with hold | rfl
      · exact hs.events q hold
      · exact (Bool.and_eq_true_iff.mp hev).2
    · simp only [hev, Bool.false_eq_true, if_false] at hq
      exact hs.events q hq
  · intro hup
    have hdown : s.up = false := hup
    simpa [hdown] using hs.down hdown

/-- The file of an event is an image, and goes to what is selected now. -/
theorem Archive.onCreated (hs : Archive cfg h s) {p : Path} {rest : List Path}
    (hev : s.events = p :: rest) :
    s.up = true ∧ Archive cfg h { s with events := rest } ∧ cfg.matching p = true := by
  have hup : s.up = true := by
    by_contra hdown
    rw [hs.down (by simpa using hdown)] at hev
    cases hev
  refine ⟨hup, ⟨hs.tree, ?_, ?_, hs.select, hs.call, hs.copies⟩, ?_⟩
  · intro q hq
    exact hs.events q (hev ▸ List.mem_cons_of_mem _ hq)
  · intro hdown
    have hno : s.up = false := hdown
    rw [hup] at hno
    cases hno
  · exact hs.events p (hev ▸ List.mem_cons_self)

theorem Archive.step {a : Act} (hs : Archive cfg h s) (hstep : Step cfg s a s') :
    Archive cfg (noteCreated h s a) s' := by
  cases hstep with
  | create p writes => exact hs.create p writes
  | write p content w rest hf =>
      obtain ⟨done, hmem, hcontent⟩ := hs.tree p _ hf
      refine hs.put fun g hg => ⟨done ++ [w], ?_, ?_⟩
      · cases hg
        simpa [File.toWrite] using hmem
      · cases hg
        simp [← hcontent]
  | close p content hf =>
      obtain ⟨done, hmem, hcontent⟩ := hs.tree p _ hf
      refine hs.put fun g hg => ⟨done, ?_, ?_⟩
      · cases hg
        simpa [File.toWrite] using hmem
      · cases hg
        exact hcontent
  | start fs hup hfs =>
      refine ⟨hs.tree, hs.events, fun hdown => ?_, fun _ => hfs, hs.call, hs.copies⟩
      cases hdown
  | stop hup =>
      refine ⟨hs.tree, by simp, fun _ => rfl, fun hstarted => ?_, trivial, hs.copies⟩
      cases hstarted
  | checkCandidate fs hup hfs =>
      exact ⟨hs.tree, hs.events, hs.down, fun _ => hfs, hs.call, hs.copies⟩
  | onCreated p rest hpc hev =>
      obtain ⟨hup, hnext, hmatch⟩ := hs.onCreated hev
      exact hnext.call_to ⟨hmatch, s.select, hs.select hup, rfl⟩
  | mkdir newfile dest hpc =>
      have hcall := hs.call
      rw [hpc] at hcall
      exact hs.call_to hcall
  | copy newfile dest f hpc hf =>
      have hcall := hs.call
      rw [hpc] at hcall
      exact hs.copy hpc hf (List.prefix_refl _) hcall
  | copyFails got newfile dest f hpc hf =>
      exact hs.copy hpc hf (List.take_prefix got _) trivial
  | mkdirFails | copyMissing | unlinkFails => exact hs.call_to trivial
  | unlink newfile dest f hpc hf =>
      exact (hs.put (p := newfile) (f := none) fun g hg => by cases hg).call_to trivial
  | clean p f hf => exact hs.put fun g hg => by cases hg

theorem archive_inductive (cfg : Config) :
    (dispatched cfg).Inductive fun x => Archive cfg x.2 x.1 where
  init x hx := by
    obtain ⟨⟨htree, hcopies, hev, hup, hpc⟩, hnone⟩ := hx
    refine ⟨?_, by simp [hev], fun _ => hev, by simp [hup], by rw [hpc]; trivial, ?_⟩
    · intro p f hf
      rw [htree] at hf
      cases hf
    · intro dest content hcopy
      rw [hcopies] at hcopy
      cases hcopy
  step x a x' _ hs hx := by
    obtain ⟨hstep, hnote⟩ := TSys.record_step.mp hx
    rw [hnote]
    exact hs.step (step_cases hstep)

/-- A file that is moved while it is written, and whose move stops after a byte. -/
def movedTooSoon : List Act := created ++ [.write sampleFile, .onCreated, .mkdir, .copyFails 1]

end AutoExpo.HandOver
