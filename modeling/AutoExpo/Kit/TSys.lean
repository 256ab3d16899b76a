import Mathlib.Logic.Basic
import Mathlib.Data.Option.Basic
import Mathlib.Tactic.Common

/-!
# Labelled transition systems

The systems verified on top of this module are threads that interleave over a
shared state. A system is a set of initial states and a *computing* step
function: the label carries every choice the environment makes in that step
(which thread moves, what a call answers), so a run is a list of labels and
can be replayed.

* `Inductive.invariant` packages the induction over runs once: what holds
  initially and is kept by every step holds in every reachable state.
* `restrict` is the same system with steps forbidden by a condition on the
  state before the step; a property that holds only of the runs whose steps meet
  a condition is an invariant of the restricted system.
* `Sim` is a simulation with stuttering along an abstraction function; it
  carries reachability, and so every invariant, from the abstract system to
  the concrete one.
-/

namespace Kit

/-- A labelled transition system. `step s a` is the state after `a`, or `none`
when `a` cannot be taken in `s`. -/
structure TSys (σ α : Type*) where
  init : σ → Prop
  step : σ → α → Option σ

namespace TSys

variable {σ α τ β : Type*} (T : TSys σ α)

/-- Replay a list of labels. -/
def exec : σ → List α → Option σ
  | s, [] => some s
  | s, a :: rest => (T.step s a).bind fun s' => exec s' rest

/-- The states of the runs of `T`. -/
inductive Reachable : σ → Prop
  | init {s} : T.init s → Reachable s
  | step {s a s'} : Reachable s → T.step s a = some s' → Reachable s'

@[simp] theorem exec_nil (s : σ) : T.exec s [] = some s := rfl

theorem exec_cons (s : σ) (a : α) (rest : List α) :
    T.exec s (a :: rest) = (T.step s a).bind fun s' => T.exec s' rest := rfl

/-- A nonempty run splits at its first step. -/
theorem exec_cons_some {s t : σ} {a : α} {rest : List α} :
    T.exec s (a :: rest) = some t ↔
      ∃ s', T.step s a = some s' ∧ T.exec s' rest = some t := by
  rw [exec_cons, Option.bind_eq_some_iff]

theorem exec_append (s : σ) (front back : List α) :
    T.exec s (front ++ back) = (T.exec s front).bind fun s' => T.exec s' back := by
  induction front generalizing s with
  | nil => rfl
  | cons a rest ih =>
      simp only [List.cons_append, exec_cons]
      cases h : T.step s a with
      | none => rfl
      | some s' => exact ih s'

theorem exec_append_some {s t : σ} {front back : List α} :
    T.exec s (front ++ back) = some t ↔
      ∃ s', T.exec s front = some s' ∧ T.exec s' back = some t := by
  rw [exec_append, Option.bind_eq_some_iff]

variable {T}

/-- What the steps labelled in `L` keep, a run of such steps keeps. -/
theorem exec_keeps_where {P : σ → Prop} {L : α → Prop}
    (keep : ∀ s a s', L a → P s → T.step s a = some s' → P s') {s t : σ} {ls : List α}
    (hrun : T.exec s ls = some t) (hls : ∀ a ∈ ls, L a) (hs : P s) : P t := by
  induction ls generalizing s with
  | nil =>
      rw [exec_nil, Option.some.injEq] at hrun
      exact hrun ▸ hs
  | cons a rest ih =>
      obtain ⟨s', hstep, hrest⟩ := T.exec_cons_some.mp hrun
      exact ih hrest (fun b hb => hls b (List.mem_cons_of_mem _ hb))
        (keep s a s' (hls a List.mem_cons_self) hs hstep)

/-- What every step keeps, every run keeps. -/
theorem exec_keeps {P : σ → Prop}
    (keep : ∀ s a s', P s → T.step s a = some s' → P s') {s t : σ} {ls : List α}
    (hrun : T.exec s ls = some t) (hs : P s) : P t :=
  exec_keeps_where (fun s a s' (_ : True) => keep s a s') hrun (fun _ _ => trivial) hs

theorem Reachable.exec {s t : σ} {ls : List α} (hs : T.Reachable s)
    (hrun : T.exec s ls = some t) : T.Reachable t :=
  exec_keeps (fun _ _ _ h hstep => .step h hstep) hrun hs

/-- A run that was replayed and checked at its end. -/
theorem exec_any {s : σ} {ls : List α} {p : σ → Bool}
    (hrun : (T.exec s ls).any p = true) : ∃ t, T.exec s ls = some t ∧ p t = true := by
  cases h : T.exec s ls with
  | none =>
      rw [h] at hrun
      exact absurd hrun (by simp)
  | some t => exact ⟨t, rfl, by simpa [h] using hrun⟩

/-- A run replayed from an initial state ends in a reachable state. -/
theorem Reachable.of_exec {s : σ} {ls : List α} {p : σ → Bool} (hs : T.init s)
    (hrun : (T.exec s ls).any p = true) : ∃ t, T.Reachable t ∧ p t = true := by
  obtain ⟨t, ht, hp⟩ := exec_any hrun
  exact ⟨t, (Reachable.init hs).exec ht, hp⟩

/-! ## Invariants -/

/-- `P` is an inductive invariant, relative to facts `Q` already known of the
state before the step. -/
structure InductiveOn (T : TSys σ α) (Q P : σ → Prop) : Prop where
  init : ∀ s, T.init s → P s
  step : ∀ s a s', Q s → P s → T.step s a = some s' → P s'

theorem InductiveOn.invariant {Q P : σ → Prop} (ind : T.InductiveOn Q P)
    (known : ∀ s, T.Reachable s → Q s) : ∀ s, T.Reachable s → P s := by
  intro s hs
  induction hs with
  | init h => exact ind.init _ h
  | step h hstep ih => exact ind.step _ _ _ (known _ h) ih hstep

/-- An inductive invariant. -/
abbrev Inductive (T : TSys σ α) (P : σ → Prop) : Prop := T.InductiveOn (fun _ => True) P

theorem Inductive.invariant {P : σ → Prop} (ind : T.Inductive P) :
    ∀ s, T.Reachable s → P s :=
  InductiveOn.invariant ind fun _ _ => trivial

/-! ## Runs whose steps meet a condition -/

/-- `T` with the steps forbidden that do not meet `C`. -/
def restrict (T : TSys σ α) (C : σ → α → Prop) [∀ s a, Decidable (C s a)] : TSys σ α where
  init := T.init
  step s a := if C s a then T.step s a else none

theorem restrict_step {C : σ → α → Prop} [∀ s a, Decidable (C s a)] {s s' : σ} {a : α} :
    (T.restrict C).step s a = some s' ↔ C s a ∧ T.step s a = some s' := by
  unfold restrict
  by_cases h : C s a <;> simp [h]

/-- Every run of the restricted system is a run of the system. -/
theorem Reachable.of_restrict {C : σ → α → Prop} [∀ s a, Decidable (C s a)] {s : σ}
    (hs : (T.restrict C).Reachable s) : T.Reachable s := by
  induction hs with
  | init h => exact .init h
  | step _ hstep ih => exact .step ih (restrict_step.mp hstep).2

/-! ## Simulation -/

/-- `U` moves from `t` to `t'` by the step `l`, or stays when there is none. -/
def Moves (U : TSys τ β) (t : τ) (l : Option β) (t' : τ) : Prop :=
  match l with
  | none => t' = t
  | some b => U.step t b = some t'

/-- A simulation of `T` by `U` along `abs`, with stuttering, in states that
satisfy `Q`. `lab` says which abstract step a concrete one is, if any. -/
structure Sim (T : TSys σ α) (U : TSys τ β) (Q : σ → Prop) where
  abs : σ → τ
  lab : σ → α → Option β
  init : ∀ s, T.init s → U.init (abs s)
  step : ∀ s a s', Q s → T.step s a = some s' → U.Moves (abs s) (lab s a) (abs s')

variable {U : TSys τ β} {Q : σ → Prop}

/-- Every run of the concrete system is explained by one of the abstract one. -/
theorem Sim.reachable (R : Sim T U Q) (known : ∀ s, T.Reachable s → Q s) {s : σ}
    (hs : T.Reachable s) : U.Reachable (R.abs s) := by
  induction hs with
  | init h => exact .init (R.init _ h)
  | @step s a s' h hstep ih =>
      have hsim := R.step s a s' (known s h) hstep
      cases hl : R.lab s a with
      | none =>
          simp only [hl, Moves] at hsim
          exact hsim ▸ ih
      | some b =>
          simp only [hl, Moves] at hsim
          exact .step ih hsim

/-- A simulation restricts to the runs that meet a condition when the abstract
condition follows from the concrete one. -/
def Sim.restrict (R : Sim T U Q) (C : σ → α → Prop) (D : τ → β → Prop)
    [∀ s a, Decidable (C s a)] [∀ s b, Decidable (D s b)]
    (cond : ∀ s a b, C s a → R.lab s a = some b → D (R.abs s) b) :
    Sim (T.restrict C) (U.restrict D) Q where
  abs := R.abs
  lab := R.lab
  init := R.init
  step s a s' hq hstep := by
    obtain ⟨hc, hstep⟩ := restrict_step.mp hstep
    have hsim := R.step s a s' hq hstep
    cases hl : R.lab s a with
    | none => simpa only [hl, Moves] using hsim
    | some b =>
        simp only [hl, Moves] at hsim ⊢
        exact restrict_step.mpr ⟨cond s a b hc hl, hsim⟩

end TSys

end Kit
