import AutoExpo.Kit.TSys
import Mathlib.Order.Monotone.Basic

/-!
# Runs as a whole

What is said of a run rather than of a state: what every step of it satisfies
(`Along`), what has happened in it (`record`), and whether it goes on for ever
(`Behaviour`).

* `along_iff` exchanges what is asked of every step for a condition on every
  step, under an invariant that the condition keeps.
* `record` carries a history variable, which no step reads.
* `finitely_many` is the rule for termination: what makes a measure smaller
  happens finitely often, as long as nothing makes it larger.
-/

namespace Kit.TSys

variable {σ α η : Type*} {T : TSys σ α}

/-! ## Every step of a run -/

/-- Every step of the run from `s` labelled `ls` satisfies `P`. -/
def Along (T : TSys σ α) (P : σ → α → σ → Prop) : σ → List α → Prop
  | _, [] => True
  | s, a :: rest => ∀ s', T.step s a = some s' → P s a s' ∧ T.Along P s' rest

/-- Where `P` and `Q` say the same of a step under an invariant that the steps with `Q`
keep, they say the same of a run. -/
theorem along_iff {P Q : σ → α → σ → Prop} {I : σ → Prop}
    (keep : ∀ s a s', I s → T.step s a = some s' → Q s a s' → I s')
    (same : ∀ s a s', I s → T.step s a = some s' → (P s a s' ↔ Q s a s')) {s : σ}
    {ls : List α} (hs : I s) : T.Along P s ls ↔ T.Along Q s ls := by
  induction ls generalizing s with
  | nil => exact Iff.rfl
  | cons a rest ih =>
      refine ⟨?_, ?_⟩
      · intro hall s' hstep
        obtain ⟨hp, hrest⟩ := hall s' hstep
        have hq := (same s a s' hs hstep).mp hp
        exact ⟨hq, (ih (keep s a s' hs hstep hq)).mp hrest⟩
      · intro hall s' hstep
        obtain ⟨hq, hrest⟩ := hall s' hstep
        exact ⟨(same s a s' hs hstep).mpr hq, (ih (keep s a s' hs hstep hq)).mpr hrest⟩

/-- What every step of a run satisfies, the last one satisfies. -/
theorem Along.last {P : σ → α → σ → Prop} {s t t' : σ} {front : List α} {a : α}
    (hall : T.Along P s (front ++ [a])) (hrun : T.exec s front = some t)
    (hstep : T.step t a = some t') : P t a t' := by
  induction front generalizing s with
  | nil =>
      rw [exec_nil, Option.some.injEq] at hrun
      subst hrun
      exact (hall t' hstep).1
  | cons b rest ih =>
      obtain ⟨s', hb, hrest⟩ := T.exec_cons_some.mp hrun
      exact ih (hall s' hb).2 hrest

/-! ## History -/

/-- `T` with a history variable: `note` is what a step adds to it, and no step reads it. -/
def record (T : TSys σ α) (start : η) (note : η → σ → α → η) : TSys (σ × η) α where
  init p := T.init p.1 ∧ p.2 = start
  step p a := (T.step p.1 a).map fun s' => (s', note p.2 p.1 a)

variable {start : η} {note : η → σ → α → η}

theorem record_step {p p' : σ × η} {a : α} :
    (T.record start note).step p a = some p' ↔
      T.step p.1 a = some p'.1 ∧ p'.2 = note p.2 p.1 a := by
  simp only [record, Option.map_eq_some_iff]
  refine ⟨?_, ?_⟩
  · rintro ⟨s', hstep, rfl⟩
    exact ⟨hstep, rfl⟩
  · rintro ⟨hstep, hnote⟩
    exact ⟨p'.1, hstep, Prod.ext rfl hnote.symm⟩

/-! ## Runs that go on for ever -/

/-- An infinite run. -/
structure Behaviour (T : TSys σ α) where
  state : ℕ → σ
  act : ℕ → α
  next : ∀ i, T.step (state i) (act i) = some (state (i + 1))

/-- A run without its history. -/
def Behaviour.forget (b : (T.record start note).Behaviour) : T.Behaviour where
  state i := (b.state i).1
  act := b.act
  next i := (record_step.mp (b.next i)).1

/-- The run that takes one step again and again. -/
def Behaviour.stay {s : σ} {a : α} (h : T.step s a = some s) : T.Behaviour where
  state _ := s
  act _ := a
  next _ := h

/-- A finite run, and the step that then leaves everything as it is, again and again. -/
def Behaviour.replay {s t : σ} {a : α} (ls : List α) (hrun : T.exec s ls = some t)
    (hstay : T.step t a = some t) : T.Behaviour where
  state i := (T.exec s (ls.take i)).getD t
  act i := ls.getD i a
  next i := by
    by_cases hi : i < ls.length
    · rw [← List.take_append_drop (i + 1) ls, exec_append_some] at hrun
      obtain ⟨u', hfront, -⟩ := hrun
      have hlast := hfront
      rw [List.take_succ_eq_append_getElem hi, exec_append_some] at hlast
      obtain ⟨u, hu, hlast⟩ := hlast
      obtain ⟨u'', hstep, hnil⟩ := T.exec_cons_some.mp hlast
      rw [exec_nil, Option.some.injEq] at hnil
      subst hnil
      simpa [hu, hfront, hi] using hstep
    · have hle : ls.length ≤ i := Nat.le_of_not_lt hi
      simpa [List.take_of_length_le hle, List.take_of_length_le (Nat.le_succ_of_le hle), hrun, hle]
        using hstay

theorem Behaviour.replay_end {s t : σ} {a : α} {ls : List α} (hrun : T.exec s ls = some t)
    (hstay : T.step t a = some t) {i : ℕ} (hi : ls.length ≤ i) :
    (Behaviour.replay ls hrun hstay).state i = t ∧ (Behaviour.replay ls hrun hstay).act i = a := by
  simp [replay, List.take_of_length_le hi, hrun, hi]

/-- What a run keeps from one state to the next, it keeps for ever. -/
theorem Behaviour.propagate (b : T.Behaviour) {P : σ → Prop}
    (keep : ∀ s a s', P s → T.step s a = some s' → P s') {i j : ℕ} (hij : i ≤ j)
    (hi : P (b.state i)) : P (b.state j) := by
  induction hij with
  | refl => exact hi
  | @step k _ ih => exact keep _ _ _ ih (b.next k)

/-- What makes a measure smaller happens finitely often, if nothing makes it larger. -/
theorem finitely_many {m : ℕ → ℕ} {D : ℕ → Prop} (hle : ∀ i, m (i + 1) ≤ m i)
    (hlt : ∀ i, D i → m (i + 1) < m i) : ∃ N, ∀ j, N ≤ j → ¬ D j := by
  have hanti : Antitone m := antitone_nat_of_succ_le hle
  have hfrom : ∀ k i, m i = k → ∃ N, ∀ j, N ≤ j → ¬ D j := by
    intro k
    induction k using Nat.strong_induction_on with
    | _ k ih =>
        intro i hi
        by_cases hd : ∃ j, i ≤ j ∧ D j
        · obtain ⟨j, hij, hd⟩ := hd
          have hsmaller : m (j + 1) < k := by
            rw [← hi]
            exact Nat.lt_of_lt_of_le (hlt j hd) (hanti hij)
          exact ih (m (j + 1)) hsmaller (j + 1) rfl
        · refine ⟨i, ?_⟩
          intro j hij hdj
          exact hd ⟨j, hij, hdj⟩
  exact hfrom (m 0) 0 rfl

end Kit.TSys
