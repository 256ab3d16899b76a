import AutoExpo.Kit.TSys
import Mathlib.Logic.Function.Basic

/-!
# Threads over a shared state

Threads that run one program each, with locals of their own, over a state they
share. A step names the thread that takes it; the others keep their locals.

`Outline` is the rule the threads are reasoned with: an invariant of the
shared state and an assertion for each thread, which the thread's own steps
keep and the steps of the others do not disturb. `Outline.holds` carries the
induction over runs, of the runs whose steps meet a condition `C` if there is
one.
-/

namespace Kit

/-- A program `act` run by threads `ι`. -/
structure Threads (ι σ L α : Type*) where
  initShared : σ → Prop
  initLocal : L → Prop
  act : ι → σ → L → α → Option (σ × L)

namespace Threads

variable {ι σ L α : Type*}

/-- The shared state and the locals of every thread. -/
structure Conf (ι σ L : Type*) where
  shared : σ
  loc : ι → L

variable [DecidableEq ι]

def sys (T : Threads ι σ L α) : TSys (Conf ι σ L) (ι × α) where
  init c := T.initShared c.shared ∧ ∀ i, T.initLocal (c.loc i)
  step c a := (T.act a.1 c.shared (c.loc a.1) a.2).map fun r =>
    { shared := r.1, loc := Function.update c.loc a.1 r.2 }

theorem sys_step {T : Threads ι σ L α} {c c' : Conf ι σ L} {i : ι} {a : α} :
    T.sys.step c (i, a) = some c' ↔
      ∃ s' l', T.act i c.shared (c.loc i) a = some (s', l') ∧
        c' = { shared := s', loc := Function.update c.loc i l' } := by
  simp only [sys, Option.map_eq_some_iff, Prod.exists]
  refine ⟨?_, ?_⟩
  · rintro ⟨s', l', hact, rfl⟩
    exact ⟨s', l', hact, rfl⟩
  · rintro ⟨s', l', hact, rfl⟩
    exact ⟨s', l', hact, rfl⟩

/-- An invariant `G` of the shared state and an assertion `P` for each thread. -/
structure Outline (T : Threads ι σ L α) (C : Conf ι σ L → ι × α → Prop) (G : σ → Prop)
    (P : ι → σ → L → Prop) : Prop where
  initShared : ∀ s, T.initShared s → G s
  initLocal : ∀ i s l, T.initShared s → T.initLocal l → P i s l
  /-- the thread's own step -/
  own : ∀ c i a s' l', C c (i, a) → G c.shared → P i c.shared (c.loc i) →
    T.act i c.shared (c.loc i) a = some (s', l') → G s' ∧ P i s' l'
  /-- the step of another thread `j` -/
  others : ∀ c i j a s' l', i ≠ j → C c (j, a) → G c.shared → P i c.shared (c.loc i) →
    P j c.shared (c.loc j) → T.act j c.shared (c.loc j) a = some (s', l') →
    P i s' (c.loc i)

variable {T : Threads ι σ L α} {C : Conf ι σ L → ι × α → Prop} [∀ c a, Decidable (C c a)]
  {G : σ → Prop} {P : ι → σ → L → Prop}

theorem Outline.holds (h : T.Outline C G P) (c : Conf ι σ L)
    (hc : (T.sys.restrict C).Reachable c) :
    G c.shared ∧ ∀ i, P i c.shared (c.loc i) := by
  induction hc with
  | init hinit =>
      obtain ⟨hshared, hloc⟩ := hinit
      exact ⟨h.initShared _ hshared, fun i => h.initLocal i _ _ hshared (hloc i)⟩
  | @step c a c' _ hstep ih =>
      obtain ⟨hC, hstep⟩ := TSys.restrict_step.mp hstep
      obtain ⟨hG, hP⟩ := ih
      obtain ⟨i, a⟩ := a
      obtain ⟨s', l', hact, rfl⟩ := sys_step.mp hstep
      obtain ⟨hG', hown⟩ := h.own c i a s' l' hC hG (hP i) hact
      refine ⟨hG', ?_⟩
      intro j
      by_cases hj : j = i
      · subst hj
        simp only [Function.update_self]
        exact hown
      · simp only [Function.update_of_ne hj]
        exact h.others c j i a s' l' hj hC hG (hP j) (hP i) hact

end Threads

end Kit
