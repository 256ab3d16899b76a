import AutoExpo.Kit.Decimal
import AutoExpo.Kit.Threads

/-!
# The process singleton lock

Every `auto_expo` opens the lock file, which empties it, takes a lock on it
without waiting and writes its pid. `open` and `flock` may fail; only a `flock`
that fails with EWOULDBLOCK makes the process give up. The lock goes with the
process. A write to the open file succeeds, at its beginning.

Opening comes before locking, so a second process empties the file of the first
one before it is refused (`second_start_empties`). `single_instance` has the
order of steps and the results under which there is one process at a time, with
its pid in the file.
-/

namespace AutoExpo.Lock

open Kit

/-- The contents of the lock file, if there is one, and the process that has the lock. -/
structure Shared (ι : Type*) where
  file : Option Text
  holder : Option ι

inductive Pc
  | start
  | flock
  | write
  /-- camera set-up, and all that comes after it -/
  | setUp
  | ended
  deriving DecidableEq

inductive FlockResult
  | success
  | wouldBlock
  | other
  deriving DecidableEq

/-- `opened` is `lockfd >= 0`, `lockstate` the result of `flock` once it has returned.
That a step of the process has changed the file is history. -/
structure Local where
  pc : Pc
  opened : Bool
  lockstate : Option FlockResult
  changed : Bool

inductive Act
  | openFile (ok : Bool)
  | flock (res : FlockResult)
  | write
  | exit

/-- The file after `buf` has been written at its beginning. -/
def overwrite (buf old : Text) : Text := buf ++ old.drop buf.length

variable {ι : Type*}

/-- What the process writes. -/
def pidText (getpid : ι → Nat) (i : ι) : Text := Decimal.decimal (getpid i)

def act [DecidableEq ι] (getpid : ι → Nat) (i : ι) (s : Shared ι) (l : Local) :
    Act → Option (Shared ι × Local)
  | .openFile ok => match l.pc with
      | .start =>
          if ok then
            some ({ s with file := some [] },
              { l with pc := .flock, opened := true, changed := s.file ≠ some [] })
          else some (s, { l with pc := .flock })
      | _ => none
  | .flock res => match l.pc, res with
      | .flock, .success =>
          if l.opened ∧ s.holder = none then
            some ({ s with holder := some i }, { l with pc := .write, lockstate := some res })
          else none
      | .flock, .wouldBlock =>
          if l.opened ∧ s.holder ≠ none then
            some (s, { l with pc := .ended, lockstate := some res })
          else none
      -- only logged
      | .flock, .other => some (s, { l with pc := .write, lockstate := some res })
      | _, _ => none
  | .write => match l.pc with
      | .write =>
          let file := if l.opened then s.file.map (overwrite (pidText getpid i)) else s.file
          some ({ s with file := file },
            { l with pc := .setUp, changed := l.changed || file ≠ s.file })
      | _ => none
  | .exit =>
      if l.pc = .ended then none
      else some ({ s with holder := if s.holder = some i then none else s.holder },
        { l with pc := .ended })

def fresh : Local where
  pc := .start
  opened := false
  lockstate := none
  changed := false

/-- Processes that start one after another or at the same time, whatever a former one has
left in the file. -/
def starts [DecidableEq ι] (getpid : ι → Nat) : Threads ι (Shared ι) Local Act where
  initShared s := s.holder = none
  initLocal l := l = fresh
  act := act getpid

/-- The process is past the lock section, or about to write its pid. -/
def Pc.past : Pc → Bool
  | .write | .setUp => true
  | _ => false

/-- One process at a time gets past the lock, and its pid is in the file. A process that
does not get the lock has not changed the file. -/
structure SingleInstance (getpid : ι → Nat) (c : Threads.Conf ι (Shared ι) Local) : Prop where
  one : ∀ i j, (c.loc i).pc.past = true → (c.loc j).pc.past = true → i = j
  pid : ∀ i, (c.loc i).pc = .setUp → c.shared.file = some (pidText getpid i)
  others : ∀ i, (c.loc i).pc ≠ .flock → (c.loc i).lockstate ≠ some .success →
    (c.loc i).changed = false

/-- No process opens the file when another one, with the lock, has written its pid. What
is in the file when a process writes is no longer than its pid. `flock` fails with
EWOULDBLOCK only, and a process that has changed the file gets the lock. -/
def orderly (getpid : ι → Nat) (c : Threads.Conf ι (Shared ι) Local) (a : ι × Act) : Bool :=
  match a.2 with
  | .openFile true => c.shared.holder.all fun j => (c.loc j).pc ≠ .setUp
  | .openFile false => true
  | .flock .success => true
  | .flock .wouldBlock => !(c.loc a.1).changed
  | .flock .other => false
  | .write => c.shared.file.all fun old => old.length ≤ (pidText getpid a.1).length
  | .exit => (c.loc a.1).pc = .flock → (c.loc a.1).changed = false

section
variable {getpid : ι → Nat} {i : ι} {s s' : Shared ι} {l l' : Local}

/-- What a process may rely on: past the lock it has the lock, and in set-up its pid is in
the file. -/
structure Locked (getpid : ι → Nat) (i : ι) (s : Shared ι) (l : Local) : Prop where
  there : l.opened = true → s.file ≠ none
  past : l.pc.past = true → s.holder = some i ∧ l.opened = true ∧ l.lockstate = some .success
  pid : l.pc = .setUp → s.file = some (pidText getpid i)
  others : l.pc ≠ .flock → l.lockstate ≠ some .success → l.changed = false

theorem locked_fresh : Locked getpid i s fresh := by
  constructor <;> simp [fresh, Pc.past]

/-- What a pid is written over, if it is no longer, is gone. -/
theorem overwrite_eq {buf old : Text} (h : old.length ≤ buf.length) : overwrite buf old = buf := by
  simp [overwrite, h]

/-! ## The ways through the lock section -/

variable [DecidableEq ι]

inductive Step (getpid : ι → Nat) (i : ι) (s : Shared ι) (l : Local) :
    Act → Shared ι → Local → Prop
  | opened : l.pc = .start → Step getpid i s l (.openFile true) { s with file := some [] }
      { l with pc := .flock, opened := true, changed := s.file ≠ some [] }
  | unopened : l.pc = .start → Step getpid i s l (.openFile false) s { l with pc := .flock }
  | locked : l.pc = .flock → l.opened = true → s.holder = none →
      Step getpid i s l (.flock .success) { s with holder := some i }
        { l with pc := .write, lockstate := some .success }
  | refused : l.pc = .flock → l.opened = true → s.holder ≠ none →
      Step getpid i s l (.flock .wouldBlock) s
        { l with pc := .ended, lockstate := some .wouldBlock }
  | unlocked : l.pc = .flock → Step getpid i s l (.flock .other) s
      { l with pc := .write, lockstate := some .other }
  | wrote (file) : l.pc = .write →
      file = (if l.opened then s.file.map (overwrite (pidText getpid i)) else s.file) →
      Step getpid i s l .write { s with file := file }
        { l with pc := .setUp, changed := l.changed || file ≠ s.file }
  | exits : l.pc ≠ .ended → Step getpid i s l .exit
      { s with holder := if s.holder = some i then none else s.holder } { l with pc := .ended }

theorem act_cases {a : Act} (h : act getpid i s l a = some (s', l')) :
    Step getpid i s l a s' l' := by
  cases a with
  | openFile ok =>
      simp only [act] at h
      split at h
      next hpc =>
        cases ok <;> cases h
        · exact .unopened hpc
        · exact .opened hpc
      next => cases h
  | flock res =>
      simp only [act] at h
      split at h
      next hpc =>
        split at h
        next hfree => cases h; exact .locked hpc hfree.1 hfree.2
        next => cases h
      next hpc =>
        split at h
        next hheld => cases h; exact .refused hpc hheld.1 hheld.2
        next => cases h
      next hpc => cases h; exact .unlocked hpc
      next => cases h
  | write =>
      simp only [act] at h
      split at h
      next hpc => cases h; exact .wrote _ hpc rfl
      next => cases h
  | exit =>
      simp only [act] at h
      split at h
      next => cases h
      next hpc => cases h; exact .exits hpc

theorem Step.own {c : Threads.Conf ι (Shared ι) Local} {a : Act} (hs : c.shared = s)
    (hl : c.loc i = l) (h : Step getpid i s l a s' l') (hord : orderly getpid c (i, a) = true)
    (hP : Locked getpid i s l) : Locked getpid i s' l' := by
  subst hs hl
  cases h with
  | opened hpc => constructor <;> simp [Pc.past]
  | unopened hpc =>
      exact { hP with
        past := by simp [Pc.past]
        pid := by simp
        others := by simp }
  | locked hpc hopen hfree =>
      exact {
        there := hP.there
        past := fun _ => ⟨rfl, hopen, rfl⟩
        pid := by simp
        others := by simp }
  | refused hpc hopen hheld =>
      exact { hP with
        past := by simp [Pc.past]
        pid := by simp
        others := fun _ _ => by simpa [orderly] using hord }
  | unlocked hpc => simp [orderly] at hord
  | wrote file hpc hfile =>
      obtain ⟨hheld, hopen, hlock⟩ := hP.past (by rw [hpc]; rfl)
      obtain ⟨old, hold⟩ := Option.ne_none_iff_exists'.mp (hP.there hopen)
      have hlen : old.length ≤ (pidText getpid i).length := by
        simpa [orderly, hold] using hord
      rw [if_pos hopen, hold, Option.map_some, overwrite_eq hlen] at hfile
      exact {
        there := by simp [hfile]
        past := fun _ => ⟨hheld, hopen, hlock⟩
        pid := fun _ => hfile
        others := fun _ hno => absurd hlock hno }
  | exits hpc =>
      exact {
        there := hP.there
        past := by simp [Pc.past]
        pid := by simp
        others := by
          intro _ hno
          by_cases hflock : (c.loc i).pc = .flock
          · simpa [orderly, hflock] using hord
          · exact hP.others hflock hno }

/-- A step of another process. -/
theorem Step.others {c : Threads.Conf ι (Shared ι) Local} {j : ι} {a : Act} (hij : i ≠ j)
    (hs : c.shared = s) (hl : c.loc j = l) (h : Step getpid j s l a s' l')
    (hord : orderly getpid c (j, a) = true) (hPj : Locked getpid j s l)
    (hP : Locked getpid i s (c.loc i)) : Locked getpid i s' (c.loc i) := by
  subst hs hl
  cases h with
  | opened hpc =>
      refine { hP with there := by simp, pid := ?_ }
      intro hset
      -- `i` has the lock and has written its pid
      obtain ⟨hheld, -⟩ := hP.past (by rw [hset]; rfl)
      simp [orderly, hheld, hset] at hord
  | locked hpc hopen hfree =>
      refine { hP with past := ?_ }
      intro hpast
      rw [(hP.past hpast).1] at hfree
      cases hfree
  | wrote file hpc hfile =>
      obtain ⟨hheld, hopen, -⟩ := hPj.past (by rw [hpc]; rfl)
      refine { hP with there := ?_, pid := ?_ }
      · intro hopen'
        obtain ⟨old, hold⟩ := Option.ne_none_iff_exists'.mp (hP.there hopen')
        simp [hfile, hopen, hold]
      · intro hset
        obtain ⟨hheld', -⟩ := hP.past (by rw [hset]; rfl)
        rw [hheld, Option.some.injEq] at hheld'
        exact absurd hheld'.symm hij
  | exits hpc =>
      refine { hP with past := ?_ }
      intro hpast
      obtain ⟨hheld, hrest⟩ := hP.past hpast
      refine ⟨?_, hrest⟩
      simp only [hheld, Option.some.injEq, if_neg hij]
  | unopened | refused | unlocked => exact hP

theorem locked_outline (getpid : ι → Nat) :
    (starts getpid).Outline (fun c a => orderly getpid c a = true) (fun _ => True)
      (Locked getpid) where
  initShared _ _ := trivial
  initLocal i s l _ h := by
    cases h
    exact locked_fresh
  own c i a s' l' hord _ hP hact :=
    ⟨trivial, (act_cases hact).own rfl rfl hord hP⟩
  others c i j a s' l' hij hord _ hPi hPj hact :=
    (act_cases hact).others hij rfl rfl hord hPj hPi

/-- In the orderly runs there is one process at a time past the lock. -/
theorem single_instance (getpid : ι → Nat) (c : Threads.Conf ι (Shared ι) Local)
    (hc : ((starts getpid).sys.restrict fun c a => orderly getpid c a = true).Reachable c) :
    SingleInstance getpid c := by
  obtain ⟨-, hP⟩ := (locked_outline getpid).holds c hc
  constructor
  · intro i j hi hj
    have hheld := ((hP i).past hi).1
    rw [((hP j).past hj).1, Option.some.injEq] at hheld
    exact hheld.symm
  · intro i hi
    exact (hP i).pid hi
  · intro i hi hno
    exact (hP i).others hi hno

end

/-- Two processes, with the pids 1234 and 99. -/
def twoPids (second : Bool) : Nat := if second then 99 else 1234

/-- Before either of them starts; an earlier one has left its pid. -/
def beforeStart : Threads.Conf Bool (Shared Bool) Local where
  shared := { file := some ['7'], holder := none }
  loc := fun _ => fresh

theorem beforeStart_init : (starts twoPids).sys.init beforeStart := ⟨rfl, fun _ => rfl⟩

/-- Both processes open the file before one of them gets the lock. -/
def bothOpen : List (Bool × Act) :=
  [(false, .openFile true), (true, .openFile true), (false, .flock .success),
    (true, .flock .wouldBlock), (false, .write)]

theorem single_instance_bothOpen : ∃ c, SingleInstance twoPids c ∧
    c.shared.file = some ['1', '2', '3', '4'] ∧ (c.loc true).lockstate = some .wouldBlock := by
  obtain ⟨c, hc, hshape⟩ := TSys.Reachable.of_exec
    (show ((starts twoPids).sys.restrict fun c a => orderly twoPids c a = true).init _ from
      beforeStart_init)
    (show (((starts twoPids).sys.restrict fun c a => orderly twoPids c a = true).exec beforeStart
      bothOpen).any (fun c => c.shared.file = some ['1', '2', '3', '4'] &&
        (c.loc true).lockstate = some .wouldBlock) = true by decide +kernel)
  simp only [Bool.and_eq_true, decide_eq_true_eq] at hshape
  exact ⟨c, single_instance twoPids c hc, hshape⟩

/-- The second process opens the file when the first one is in set-up. -/
def secondStart : List (Bool × Act) :=
  [(false, .openFile true), (false, .flock .success), (false, .write), (true, .openFile true),
    (true, .flock .wouldBlock)]

theorem second_start_empties :
    ¬ ∀ c, (starts twoPids).sys.Reachable c → SingleInstance twoPids c := by
  intro hall
  obtain ⟨c, hc, hshape⟩ := TSys.Reachable.of_exec beforeStart_init
    (show ((starts twoPids).sys.exec beforeStart secondStart).any
      (fun c => (c.loc false).pc = .setUp && c.shared.file = some []) = true by decide +kernel)
  simp only [Bool.and_eq_true, decide_eq_true_eq] at hshape
  have hpid := (hall c hc).pid false hshape.1
  rw [hshape.2] at hpid
  exact absurd hpid (by decide +kernel)

end AutoExpo.Lock
