import AutoExpo.HandOver.Candidates
import AutoExpo.Kit.Calendar
import Mathlib.Data.Nat.ModEq

/-!
# Candidates and days

`checkCandidate` goes through the candidates by the day of the month. Within a
month the next day has the next candidate. From the end of a month to the first
of the next one the candidate is the same for some numbers of candidates
(`two_disks_end_of_month`): for those that divide the month's length less one
(`consecutive_days`).
-/

namespace AutoExpo.Candidates

open Kit
open Kit.Calendar (ofDays Date)

/-- A round on the date `d` days after 1 January 1970. -/
def roundOn (d : Int) (task : Dir → Task) : Round where
  today := (ofDays d).mday
  task := task

/-- The selected directory is the one at the day's place. -/
theorem select_roundOn {g : Globals} {d : Int} {task : Dir → Task} {left : Finset Dir}
    (hleft : g.actualCandidate (roundOn d task) = left) :
    g.select (roundOn d task) = nth left ((ofDays d).mday % left.card) := by
  rw [Globals.select, hleft]
  rfl

/-- One more never comes to the same place, with two candidates or more. -/
theorem succ_mod_ne {n m : Nat} (hn : 2 ≤ n) : (m + 1) % n ≠ m % n := by
  intro heq
  have hdvd : n ∣ m + 1 - m := (Nat.modEq_iff_dvd' (Nat.le_succ m)).mp heq.symm
  rw [Nat.add_sub_cancel_left] at hdvd
  have hle : n ≤ 1 := Nat.le_of_dvd Nat.one_pos hdvd
  omega

/-- The places of two consecutive days. -/
theorem mday_mod_eq (d : Int) {n : Nat} (hn : 2 ≤ n) :
    (ofDays (d + 1)).mday % n = (ofDays d).mday % n ↔
      (ofDays d).mday = (ofDays d).monthLen ∧ n ∣ (ofDays d).monthLen - 1 := by
  have hle := Calendar.mday_le_monthLen d
  obtain ⟨-, hpos, -⟩ := Calendar.ofDays_bounds d
  rw [Calendar.mday_succ]
  split
  next hday =>
    refine ⟨?_, ?_⟩
    · intro heq
      exact absurd heq (succ_mod_ne hn)
    · rintro ⟨hend, -⟩
      omega
  next hday =>
    have hend : (ofDays d).mday = (ofDays d).monthLen := by omega
    rw [← hend]
    simp only [true_and]
    -- the first day has the last one's place when the rounds in between are whole
    exact Nat.modEq_iff_dvd' hpos

/-- With the same two candidates or more left on two consecutive dates, the directories
differ, unless the first date ends its month and the number of candidates divides the
month's length less one. -/
theorem consecutive_days (g : Globals) (d : Int) (task task' : Dir → Task) (left : Finset Dir)
    (hday : g.actualCandidate (roundOn d task) = left)
    (hnext : g.actualCandidate (roundOn (d + 1) task') = left) (hleft : 2 ≤ left.card) :
    g.select (roundOn (d + 1) task') ≠ g.select (roundOn d task) ↔
      ¬ ((ofDays d).mday = (ofDays d).monthLen ∧ left.card ∣ (ofDays d).monthLen - 1) := by
  rw [select_roundOn hday, select_roundOn hnext, ← mday_mod_eq d hleft]
  refine not_congr ⟨?_, ?_⟩
  · exact nth_injective (Nat.mod_lt _ (by omega))
  · intro heq
    rw [heq]

/-- Every check passes on a disk with space. -/
def allFree (_ : Dir) : Task := .done ⟨some (2 ^ 40), true⟩

def twoDisks : Globals where
  fsCandidate := {"/data1", "/data2"}
  threshold := 2 ^ 38

theorem twoDisks_left (d : Int) :
    twoDisks.actualCandidate (roundOn d allFree) = twoDisks.fsCandidate := by
  apply Finset.filter_true_of_mem
  intro fs _
  show Task.removes twoDisks.threshold (.done ⟨some (2 ^ 40), true⟩) = false
  decide +kernel

/-- 12 and 13 October 2019. -/
theorem consecutive_days_october :
    twoDisks.select (roundOn 18182 allFree) ≠ twoDisks.select (roundOn 18181 allFree) :=
  (consecutive_days twoDisks 18181 allFree allFree twoDisks.fsCandidate (twoDisks_left _)
    (twoDisks_left _) (by decide +kernel)).mpr (by decide +kernel)

/-- 31 October and 1 November 2019: two candidates, and both days are odd. -/
theorem two_disks_end_of_month :
    ¬ ∀ (g : Globals) (d : Int) (task task' : Dir → Task) (left : Finset Dir),
      g.actualCandidate (roundOn d task) = left →
      g.actualCandidate (roundOn (d + 1) task') = left → 2 ≤ left.card →
        g.select (roundOn (d + 1) task') ≠ g.select (roundOn d task) := by
  intro hall
  have hdiffer := hall twoDisks 18200 allFree allFree twoDisks.fsCandidate (twoDisks_left _)
    (twoDisks_left _) (by decide +kernel)
  rw [select_roundOn (twoDisks_left _), select_roundOn (twoDisks_left _)] at hdiffer
  have hplace : (ofDays (18200 + 1)).mday % twoDisks.fsCandidate.card =
      (ofDays 18200).mday % twoDisks.fsCandidate.card := by decide +kernel
  rw [hplace] at hdiffer
  exact hdiffer rfl

end AutoExpo.Candidates
