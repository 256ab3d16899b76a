import AutoExpo.Watchdog.TraceError
import Mathlib.Data.List.Chain

/-!
# The cut-off of one camera

With one camera the counter of `traceError` is its own. It is to give up at an
error that ends a run of sixteen or more, each no more than 30 minutes after the
one before. The time between two errors is compared in whole minutes, so a pause
of up to 31 minutes does not end the run (`late_error_counted`).

The verdicts are those asked for exactly when sixteen errors in a row that are
less than 31 minutes apart are within 30 minutes of each other (`cut_off`).
-/

namespace AutoExpo.Watchdog

/-! ## Chains and runs -/

section
variable {τ : Type*} {linked linked' : τ → τ → Prop} [DecidableRel linked] [DecidableRel linked']

/-- The last chain, the newest element first. -/
theorem isChain_take_chain (l : List τ) :
    chain linked l ≤ l.length ∧
      (l.take (chain linked l)).IsChain fun now before => linked before now := by
  induction l with
  | nil => exact ⟨Nat.le_refl _, .nil⟩
  | cons t rest ih =>
      cases rest with
      | nil => exact ⟨Nat.le_refl _, .singleton t⟩
      | cons u rest =>
          obtain ⟨hlen, hchain⟩ := ih
          by_cases hlinked : linked u t
          · rw [chain, if_pos hlinked]
            refine ⟨Nat.succ_le_succ hlen, ?_⟩
            rw [List.take_succ_cons]
            refine hchain.cons ?_
            intro v hv
            rw [List.head?_take] at hv
            split at hv
            · cases hv
            · cases hv
              exact hlinked
          · rw [chain, if_neg hlinked]
            exact ⟨by simp, by simp⟩

theorem length_le_chain {l run : List τ} (hrun : run <+: l)
    (h : run.IsChain fun now before => linked before now) : run.length ≤ chain linked l := by
  induction l generalizing run with
  | nil =>
      rw [List.prefix_nil.mp hrun]
      exact Nat.zero_le _
  | cons t rest ih =>
      cases run with
      | nil => exact Nat.zero_le _
      | cons t' run =>
          obtain ⟨rfl, htail⟩ := List.cons_prefix_cons.mp hrun
          cases rest with
          | nil =>
              rw [List.prefix_nil.mp htail]
              exact Nat.le_refl 1
          | cons u rest =>
              cases run with
              | nil =>
                  rw [chain]
                  split
                  · exact Nat.succ_le_succ (Nat.zero_le _)
                  · exact Nat.le_refl 1
              | cons u' run =>
                  obtain ⟨rfl, -⟩ := List.cons_prefix_cons.mp htail
                  obtain ⟨hlinked, hrest⟩ := List.isChain_cons_cons.mp h
                  rw [chain, if_pos hlinked]
                  exact Nat.succ_le_succ (ih htail hrest)

/-- The length of the last chain, said by runs that end the list. -/
theorem le_chain_iff {l : List τ} {k : Nat} : k ≤ chain linked l ↔
    ∃ run, run <+: l ∧ run.length = k ∧ run.IsChain fun now before => linked before now := by
  refine ⟨?_, ?_⟩
  · intro hk
    obtain ⟨hlen, hchain⟩ := @isChain_take_chain _ linked _ l
    refine ⟨l.take k, List.take_prefix _ _, ?_, ?_⟩
    · rw [List.length_take, Nat.min_eq_left (Nat.le_trans hk hlen)]
    · have htake : (l.take (chain linked l)).take k = l.take k := by
        rw [List.take_take, Nat.min_eq_left hk]
      rw [← htake]
      exact hchain.take k
  · rintro ⟨run, hrun, rfl, hchain⟩
    exact length_le_chain hrun hchain

end

/-! ## Thirty minutes -/

/-- The error comes no more than 30 minutes after the one before it. -/
abbrev InTime (before now : Int) : Prop := now - before ≤ 30 * (60 * 10 ^ 9)

/-- Whole minutes leave up to 31 minutes. -/
theorem minutes_le {d : Int} : minutes d ≤ 30 ↔ d < 31 * (60 * 10 ^ 9) := by
  unfold minutes
  rcases Int.le_total 0 d with hd | hd
  · rw [Int.tdiv_eq_ediv_of_nonneg hd]
    omega
  · have hnonpos : d.tdiv (60 * 10 ^ 9) ≤ 0 := Int.tdiv_le_tdiv (by decide) hd
    omega

theorem InTime.continues {before now : Int} (h : InTime before now) : Continues before now := by
  rw [Continues, minutes_le]
  omega

/-! ## The verdicts -/

variable {ι : Type*}

/-- The call raises `th_expo_stop` and calls `alarm(20)`. -/
def GivesUp (before : List (Call ι)) (c : Call ι) : Prop :=
  ((after .start before).traceError c.time c.err).2 = true

/-- The call is an error that ends a run of at least sixteen, each in time after the one
before; the errors' times are listed from the last one back. -/
def EndsRun (before : List (Call ι)) (c : Call ι) : Prop :=
  c.err ≠ ASI_SUCCESS ∧ ∃ run, run <+: errorTimes (before ++ [c]) ∧ 16 ≤ run.length ∧
    run.IsChain fun now before => InTime before now

/-- Every call gives up just when it ends such a run. -/
def CutsOff (calls : List (Call ι)) : Prop :=
  ∀ before c, before ++ [c] <+: calls → (GivesUp before c ↔ EndsRun before c)

/-- Sixteen errors in a row that are less than 31 minutes apart are in time. -/
def SixteenInTime (calls : List (Call ι)) : Prop :=
  ∀ run, run <:+: errorTimes calls → run.length = 16 →
    (run.IsChain fun now before => now - before < 31 * (60 * 10 ^ 9)) →
      run.IsChain fun now before => InTime before now

theorem endsRun_iff {before : List (Call ι)} {c : Call ι} : EndsRun before c ↔
    c.err ≠ ASI_SUCCESS ∧ 16 ≤ chain InTime (errorTimes (before ++ [c])) := by
  rw [EndsRun]
  refine and_congr_right fun _ => ⟨?_, ?_⟩
  · rintro ⟨run, hrun, hlen, hchain⟩
    exact Nat.le_trans hlen (length_le_chain hrun hchain)
  · intro hle
    obtain ⟨run, hrun, hlen, hchain⟩ := le_chain_iff.mp hle
    exact ⟨run, hrun, Nat.le_of_eq hlen.symm, hchain⟩

/-- The errors of the first calls are the first errors. -/
theorem errorTimes_suffix {before calls : List (Call ι)} (h : before <+: calls) :
    errorTimes before <:+ errorTimes calls := by
  rw [errorTimes, errorTimes, List.reverse_suffix]
  exact (h.filter _).map _

/-- The first errors, if any, end with a call. -/
theorem exists_call {calls : List (Call ι)} {t : Int} {rest : List Int}
    (h : t :: rest <:+ errorTimes calls) : ∃ before c, before ++ [c] <+: calls ∧
      c.err ≠ ASI_SUCCESS ∧ errorTimes (before ++ [c]) = t :: rest := by
  induction calls using List.reverseRecOn with
  | nil => simp [errorTimes] at h
  | append_singleton calls c ih =>
      rw [errorTimes_concat] at h
      by_cases herr : c.err = ASI_SUCCESS
      · rw [if_pos herr] at h
        obtain ⟨before, c', hpre, herr', htimes⟩ := ih h
        exact ⟨before, c', hpre.trans (List.prefix_append _ _), herr', htimes⟩
      · rw [if_neg herr] at h
        rcases List.suffix_cons_iff.mp h with heq | hsuf
        · exact ⟨calls, c, List.prefix_refl _, herr, by rw [errorTimes_concat, if_neg herr, heq]⟩
        · obtain ⟨before, c', hpre, herr', htimes⟩ := ih hsuf
          exact ⟨before, c', hpre.trans (List.prefix_append _ _), herr', htimes⟩

/-- The verdicts on the calls of a camera are those asked for, if and only if sixteen errors
in a row that are less than 31 minutes apart are in time. -/
theorem cut_off (calls : List (Call ι)) : CutsOff calls ↔ SixteenInTime calls := by
  refine ⟨?_, ?_⟩
  · rintro hall run ⟨later, earlier, hsplit⟩ hlen hnear
    cases run with
    | nil => cases hlen
    | cons t run =>
        have hsuf : t :: (run ++ earlier) <:+ errorTimes calls :=
          ⟨later, by rw [← hsplit]; simp⟩
        obtain ⟨before, c, hpre, herr, htimes⟩ := exists_call hsuf
        have hrun : t :: run <+: errorTimes (before ++ [c]) := by
          rw [htimes]
          exact ⟨earlier, rfl⟩
        -- the call that ends the run gives up
        have hgives : GivesUp before c := by
          refine (traceError_after before c).mpr ⟨herr, ?_⟩
          rw [series, ← hlen]
          exact length_le_chain hrun (hnear.imp fun _ _ hlt => minutes_le.mpr hlt)
        obtain ⟨-, run', hrun', hlen', hchain⟩ := (hall before c hpre).mp hgives
        refine hchain.prefix (List.prefix_of_prefix_length_le hrun hrun' ?_)
        rw [hlen]
        exact hlen'
  · intro hin before c hpre
    rw [GivesUp, traceError_after, endsRun_iff]
    refine and_congr_right fun _ => ⟨?_, ?_⟩
    · intro hle
      obtain ⟨run, hrun, hlen, hchain⟩ := le_chain_iff.mp hle
      have hinfix : run <:+: errorTimes calls :=
        hrun.isInfix.trans (errorTimes_suffix hpre).isInfix
      have htime := hin run hinfix hlen (hchain.imp fun _ _ hle => minutes_le.mp hle)
      rw [← hlen]
      exact length_le_chain hrun htime
    · intro hle
      obtain ⟨run, hrun, hlen, hchain⟩ := le_chain_iff.mp hle
      rw [series, ← hlen]
      exact length_le_chain hrun (hchain.imp fun _ _ htime => htime.continues)

/-- Fifteen errors at once, and one 30 minutes and 30 seconds later. -/
def lateError : List (Call Unit) :=
  List.replicate 15 ⟨(), 0, 1⟩ ++ [⟨(), 1830 * 10 ^ 9, 1⟩]

theorem late_error_counted : ¬ ∀ calls : List (Call Unit),
    (calls.map Call.time).Pairwise (· ≤ ·) → CutsOff calls := by
  intro hall
  have hlast := hall lateError (by decide) _ _ (List.prefix_refl lateError)
  have hends := hlast.mp (show (ErrCount.traceError _ _ _).2 = true by decide)
  exact absurd (endsRun_iff.mp hends).2 (by decide)

end AutoExpo.Watchdog
