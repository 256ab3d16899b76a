import AutoExpo.Kit.Relay

/-!
# When the ring is full

The producer of a relay gives up when the buffer whose turn it is is busy. With
no fill under way that buffer is queued; the others need not be, because a fill
that fails gives its buffer back and the position goes on.

`Spaced` is what holds until the producer gives up for the first time: the
tickets of the items filled increase, and nothing queued is older than a lap. So
a busy buffer means a full queue exactly when every take of the last lap has
been filled (`full_iff`).
-/

namespace Kit.Relay

variable {φ ι β : Type*} {R : Ring φ} {s s' : State φ (ι → β)} {a : Act φ ι β}

/-- The take that the next item filled will have. -/
def Producer.next (takes : Nat) : Producer φ → Nat
  | .taken _ t | .filling _ t => t
  | _ => takes

/-- The producer works on the last take. -/
def Producer.OnLast (R : Ring φ) (takes : Nat) : Producer φ → Prop
  | .taken _ t | .filling _ t => t + 1 = takes
  | .ready it => R.ticket it + 1 = takes
  | _ => True

structure Spaced (R : Ring φ) (s : State φ (ι → β)) : Prop where
  lap : ∀ it ∈ s.queue, s.takes ≤ R.ticket it + R.size
  prod : s.prod.OnLast R s.takes
  sorted : ((s.filled.map Prod.fst).map R.ticket).Pairwise (· < ·)
  next : ∀ p ∈ s.filled, R.ticket p.1 < s.prod.next s.takes

theorem Spaced.of_fresh (h : Fresh s) : Spaced R s := by
  obtain ⟨_, _, _, hqueue, hprod, _, _, _, _, hfilled, _⟩ := h
  constructor <;> simp [hqueue, hprod, hfilled, Producer.OnLast]

/-- The tickets with one buffer are a lap apart. -/
theorem lap_le {n t k : Nat} (hlt : t < k) (hmod : k % n = t % n) : t + n ≤ k := by
  apply Nat.le_of_not_lt
  intro hclose
  exact mod_ne_of_inLap hlt hclose hmod

theorem Spaced.take (hi : Inv R s) (hs : Spaced R s) (hfree : s.pos ∉ s.busy)
    (h : step R s .take = some s') : Spaced R s' := by
  simp only [step, if_neg hfree] at h
  split at h
  next hp =>
    cases h
    refine ⟨?_, rfl, hs.sorted, ?_⟩
    · intro it hit
      obtain ⟨hbuf, hlt⟩ := hi.queueStamped it hit
      have hlap := hs.lap it hit
      -- a lap old, its buffer would be the one taken
      have hne : s.takes ≠ R.ticket it + R.size := by
        intro heq
        apply hfree
        have hpos : s.pos = R.buf it := by rw [hi.pos, hbuf, heq, Nat.add_mod_right]
        rw [hpos, hi.busy]
        exact List.mem_append_left _ (List.mem_map_of_mem hit)
      show s.takes + 1 ≤ R.ticket it + R.size
      omega
    · simpa [hp, Producer.next] using hs.next
  next => cases h

theorem Spaced.endFill {ok : Bool} {px : ι → β} {it : φ} (hs : Spaced R s)
    (h : step R s (.endFill ok px it) = some s') : Spaced R s' := by
  simp only [step] at h
  split at h
  next b t hp =>
    have hlast : t + 1 = s.takes := by simpa [hp, Producer.OnLast] using hs.prod
    have hnext : ∀ p ∈ s.filled, R.ticket p.1 < t := by simpa [hp, Producer.next] using hs.next
    have hbelow : ∀ p ∈ s.filled, R.ticket p.1 < s.takes := by
      intro p hmem
      exact Nat.lt_trans (hnext p hmem) (by omega)
    split at h
    next hit =>
      obtain ⟨-, hticket⟩ := hit
      split at h
      next =>
        cases h
        refine ⟨hs.lap, ?_, ?_, ?_⟩
        · simpa [Producer.OnLast, hticket] using hlast
        · simp only [List.map_append, List.pairwise_append, List.map_cons, List.map_nil,
            List.pairwise_singleton, List.mem_singleton, true_and]
          refine ⟨hs.sorted, ?_⟩
          rintro u hu v rfl
          obtain ⟨it', hit', rfl⟩ := List.mem_map.mp hu
          obtain ⟨p, hmem, rfl⟩ := List.mem_map.mp hit'
          exact hticket ▸ hnext p hmem
        · intro p hmem
          rcases List.mem_append.mp hmem with hold | hnew
          · exact hbelow p hold
          · rw [List.mem_singleton.mp hnew]
            show R.ticket it < s.takes
            omega
      next =>
        cases h
        exact ⟨hs.lap, trivial, hs.sorted, hbelow⟩
    next => cases h
  next => cases h

theorem Spaced.put (hs : Spaced R s) (h : step R s .put = some s') : Spaced R s' := by
  simp only [step] at h
  split at h
  next it hp =>
    cases h
    have hlast : R.ticket it + 1 = s.takes := by simpa [hp, Producer.OnLast] using hs.prod
    refine ⟨?_, trivial, hs.sorted, ?_⟩
    · intro it' hit'
      rcases List.mem_append.mp hit' with hold | hnew
      · exact hs.lap it' hold
      · rw [List.mem_singleton.mp hnew]
        have hsize := R.size_pos
        show s.takes ≤ R.ticket it + R.size
        omega
    · simpa [hp, Producer.next] using hs.next
  next => cases h

/-- The other steps leave the tickets filled alone, and the queue no longer. -/
theorem Spaced.keep (hs : Spaced R s) (hqueue : s'.queue ⊆ s.queue) (htakes : s'.takes = s.takes)
    (hfilled : s'.filled = s.filled) (hlast : s'.prod.OnLast R s.takes)
    (hnext : s'.prod.next s.takes = s.prod.next s.takes) : Spaced R s' := by
  constructor
  · intro it hit
    rw [htakes]
    exact hs.lap it (hqueue hit)
  · rw [htakes]
    exact hlast
  · rw [hfilled]
    exact hs.sorted
  · rw [hfilled, htakes, hnext]
    exact hs.next

/-- A step that does not find its buffer busy. -/
theorem Spaced.step (hi : Inv R s) (hs : Spaced R s) (hfree : a = .take → s.pos ∉ s.busy)
    (h : Relay.step R s a = some s') : Spaced R s' := by
  have hlast := hs.prod
  cases a with
  | take => exact hs.take hi (hfree rfl) h
  | endFill ok px it => exact hs.endFill h
  | put => exact hs.put h
  | beginFill =>
      simp only [Relay.step] at h
      split at h
      next b t hp =>
        cases h
        rw [hp] at hlast
        exact hs.keep (List.Subset.refl _) rfl rfl hlast (by rw [hp]; rfl)
      next => cases h
  | write px =>
      simp only [Relay.step] at h
      split at h
      next b t hp =>
        cases h
        exact hs.keep (List.Subset.refl _) rfl rfl hlast rfl
      next => cases h
  | giveBack =>
      simp only [Relay.step] at h
      split at h
      next b hp =>
        cases h
        exact hs.keep (List.Subset.refl _) rfl rfl trivial (by rw [hp]; rfl)
      next => cases h
  | pop =>
      simp only [Relay.step] at h
      split at h
      next =>
        cases h
        exact hs
      next it rest hc hq =>
        rw [if_pos (hi.head_busy hq)] at h
        cases h
        exact hs.keep (hq ▸ List.subset_cons_self _ _) rfl rfl hlast rfl
      next => cases h
  | beginRead =>
      simp only [Relay.step] at h
      split at h
      next =>
        cases h
        exact hs.keep (List.Subset.refl _) rfl rfl hlast rfl
      next => cases h
  | endRead pick =>
      simp only [Relay.step] at h
      split at h
      next =>
        cases h
        exact hs.keep (List.Subset.refl _) rfl rfl hlast rfl
      next => cases h

/-! ## A busy buffer and a full queue -/

/-- Every buffer has its turn in a lap. -/
theorem exists_turn {n b : Nat} (base : Nat) (hb : b < n) :
    ∃ t, base ≤ t ∧ t < base + n ∧ t % n = b := by
  have hsplit := Nat.div_add_mod base n
  have hmod : base % n < n := Nat.mod_lt _ (Nat.zero_lt_of_lt hb)
  by_cases hle : base % n ≤ b
  · refine ⟨n * (base / n) + b, by omega, by omega, ?_⟩
    rw [Nat.mul_add_mod, Nat.mod_eq_of_lt hb]
  · refine ⟨n * (base / n + 1) + b, ?_, ?_, ?_⟩
    · rw [Nat.mul_add, Nat.mul_one]
      omega
    · rw [Nat.mul_add, Nat.mul_one]
      omega
    · rw [Nat.mul_add_mod, Nat.mod_eq_of_lt hb]

/-- The item in the buffer whose turn it is has had it for a lap. -/
theorem Spaced.oldest (hi : Inv R s) (hs : Spaced R s) (hidle : s.prod = .idle)
    (hbusy : s.pos ∈ s.busy) : ∃ it ∈ s.queue, s.takes = R.ticket it + R.size := by
  have hin : s.inUse R = s.queue.map R.buf := by simp [State.inUse, hidle, Producer.slot]
  rw [hi.busy, hin] at hbusy
  obtain ⟨it, hit, hbuf⟩ := List.mem_map.mp hbusy
  obtain ⟨hmod, hlt⟩ := hi.queueStamped it hit
  refine ⟨it, hit, Nat.le_antisymm (hs.lap it hit) (lap_le hlt ?_)⟩
  rw [← hi.pos, ← hbuf, hmod]

/-- With no fill under way and the buffer in turn busy, every buffer is queued, if and only
if every take of the last lap has been filled. -/
theorem full_iff (hi : Inv R s) (hs : Spaced R s) (hidle : s.prod = .idle)
    (hbusy : s.pos ∈ s.busy) :
    (∀ b < R.size, b ∈ s.queue.map R.buf) ↔
      ∀ t < s.takes, s.takes ≤ t + R.size → ∃ p ∈ s.filled, R.ticket p.1 = t := by
  have hfilled : s.filled.map Prod.fst = s.handed ++ s.queue := by
    rw [hi.filled, hi.queued, hidle]
    simp [Producer.done]
  refine ⟨?_, ?_⟩
  · intro hall t ht hlap
    obtain ⟨it, hit, hbuf⟩ := List.mem_map.mp (hall (t % R.size) (Nat.mod_lt _ R.size_pos))
    obtain ⟨hmod, hlt⟩ := hi.queueStamped it hit
    rw [hbuf] at hmod
    have hitlap := hs.lap it hit
    have hsame : R.ticket it = t := by
      rcases Nat.lt_trichotomy (R.ticket it) t with hlt' | heq | hlt'
      · have hlate := lap_le hlt' hmod
        omega
      · exact heq
      · have hlate := lap_le hlt' hmod.symm
        omega
    have hmem : it ∈ s.filled.map Prod.fst := hfilled ▸ List.mem_append_right _ hit
    obtain ⟨p, hp, rfl⟩ := List.mem_map.mp hmem
    exact ⟨p, hp, hsame⟩
  · intro hall b hb
    obtain ⟨old, hold, htakes⟩ := hs.oldest hi hidle hbusy
    obtain ⟨t, hlo, hhi, hmod⟩ := exists_turn (R.ticket old) hb
    obtain ⟨p, hp, hticket⟩ := hall t (by omega) (by omega)
    have hmem : p.1 ∈ s.handed ++ s.queue := hfilled ▸ List.mem_map_of_mem hp
    have hsorted := hs.sorted
    rw [hfilled, List.map_append, List.pairwise_append] at hsorted
    rcases List.mem_append.mp hmem with hhanded | hqueue
    · -- handed on before the oldest item queued, hence older
      have hlt := hsorted.2.2 _ (List.mem_map_of_mem hhanded) _ (List.mem_map_of_mem hold)
      omega
    · obtain ⟨hbuf, -⟩ := hi.queueStamped p.1 hqueue
      rw [hticket, hmod] at hbuf
      exact hbuf ▸ List.mem_map_of_mem hqueue

end Kit.Relay
