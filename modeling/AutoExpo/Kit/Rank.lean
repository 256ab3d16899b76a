import Mathlib.Data.Finset.Sort

/-!
# Places in a sorted set

The elements of a finite set of a linear order, taken by their place when the
set is sorted. The element at a place is the one with as many smaller elements
in the set (`nth_eq_some`), so what is said of sorting can be said by counting.
-/

namespace Kit

variable {α : Type*} [LinearOrder α] {s : Finset α} {a : α} {k : ℕ}

/-- The element at place `k` of the sorted set, counted from 0. -/
def nth (s : Finset α) (k : ℕ) : Option α := s.sort[k]?

/-- The number of smaller elements in the set. -/
def rank (s : Finset α) (a : α) : ℕ := (s.filter (· < a)).card

/-- The elements below one of the sorted set are those at the places before it. -/
theorem filter_lt_getElem (hk : k < s.sort.length) :
    s.filter (· < s.sort[k]) = (s.sort.take k).toFinset := by
  have hsorted := s.sortedLT_sort
  ext b
  rw [Finset.mem_filter, List.mem_toFinset, List.mem_take_iff_getElem, ← Finset.mem_sort (· ≤ ·)]
  refine ⟨?_, ?_⟩
  · rintro ⟨hb, hlt⟩
    obtain ⟨i, hi, rfl⟩ := List.getElem_of_mem hb
    have hik := hsorted.getElem_lt_getElem_iff.mp hlt
    exact ⟨i, Nat.lt_min.mpr ⟨hik, hi⟩, rfl⟩
  · rintro ⟨i, hi, rfl⟩
    obtain ⟨hik, hlen⟩ := Nat.lt_min.mp hi
    exact ⟨List.getElem_mem hlen, hsorted.getElem_lt_getElem_iff.mpr hik⟩

theorem rank_getElem (hk : k < s.sort.length) : rank s s.sort[k] = k := by
  rw [rank, filter_lt_getElem hk, List.toFinset_card_of_nodup, List.length_take]
  · exact Nat.min_eq_left (Nat.le_of_lt hk)
  · exact (s.sort_nodup (· ≤ ·)).sublist (List.take_sublist k _)

/-- The element at a place is the one with as many smaller elements. -/
theorem nth_eq_some : nth s k = some a ↔ a ∈ s ∧ rank s a = k := by
  rw [nth, List.getElem?_eq_some_iff]
  refine ⟨?_, ?_⟩
  · rintro ⟨hk, rfl⟩
    exact ⟨(Finset.mem_sort (· ≤ ·)).mp (List.getElem_mem hk), rank_getElem hk⟩
  · rintro ⟨ha, rfl⟩
    obtain ⟨i, hi, rfl⟩ := List.getElem_of_mem ((Finset.mem_sort (· ≤ ·)).mpr ha)
    refine ⟨?_, ?_⟩
    · rw [rank_getElem hi]
      exact hi
    · simp only [rank_getElem hi]

theorem nth_eq_none : nth s k = none ↔ s.card ≤ k := by
  rw [nth, List.getElem?_eq_none_iff, Finset.length_sort]

/-- Different places have different elements. -/
theorem nth_injective {j : ℕ} (hj : j < s.card) (h : nth s j = nth s k) : j = k := by
  cases hjth : nth s j with
  | none => exact absurd (nth_eq_none.mp hjth) (Nat.not_le.mpr hj)
  | some a =>
      rw [← (nth_eq_some.mp hjth).2]
      exact (nth_eq_some.mp (h ▸ hjth)).2

end Kit
