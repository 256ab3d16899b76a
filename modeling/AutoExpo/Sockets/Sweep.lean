import AutoExpo.Sockets.Lists

/-!
# The sweep, and the end of an iteration

A sweep visits the sockets that are there when it begins, each once, unless it is
closed before its turn (`Represents.timerSweep`). The end of an iteration frees the
sockets that are closed, and no others (`Represents.freeClosedSockets`).
-/

namespace AutoExpo.Sockets

open Kit NodeType

variable {ι : Type*} [DecidableEq ι] {t t' : SocketTable ι} {l l' : UsLoop ι} {s : ι}
  {todo : List ι} {ready : List (Poll ι)}

/-! ## The sweep -/

/-- An open socket in the memory. -/
theorem Shape.node (h : Shape t l) (hs : s ∈ t.places) :
    ∃ x front back, l.cell s = some x ∧ t.timer s = some x.timeout ∧
      t.places = front ++ s :: back ∧ x.next = back.head? := by
  obtain ⟨front, n, back, hlive, hfront, -⟩ := SocketTable.exists_split hs h.nodup_places
  have hlinked := h.linked
  rw [hlive] at hlinked
  obtain ⟨x, hx⟩ := hlinked.between
  have hvalue : x.timeout = n := hx.value
  refine ⟨x, front.map Prod.fst, back.map Prod.fst, hx.cell, ?_, ?_, ?_⟩
  · rw [SocketTable.timer_split hlive hfront, hvalue]
  · exact SocketTable.places_split hlive
  · exact hx.next.trans (first_eq_head? back)

theorem Sweeping.skip (h : Sweeping (s :: todo) t l) (hs : s ∉ t.places) : Sweeping todo t l := by
  have hfilter : (s :: todo).filter (· ∈ t.places) = todo.filter (· ∈ t.places) :=
    List.filter_cons_of_neg (by simpa using hs)
  refine ⟨?_, fun p hp => h.known p (List.mem_cons_of_mem s hp), ?_⟩
  · rw [← hfilter]
    exact h.suffix
  · rw [← hfilter]
    exact h.iterator

theorem Sweeping.iterator_eq_some (h : Sweeping (s :: todo) t l) :
    l.iterator = some s ↔ s ∈ t.places := by
  rw [h.iterator]
  constructor
  · intro hhead
    simpa using (List.mem_filter.mp (List.mem_of_mem_head? hhead)).2
  · intro hs
    rw [List.filter_cons_of_pos (by simpa using hs)]
    rfl

theorem Represents.skip (h : Represents (s :: todo) ready t l) (hs : s ∉ t.places) :
    Represents todo ready t l :=
  ⟨h.shape, h.sweeping.skip hs, h.pending⟩

/-- The iterator goes on to the next socket. -/
theorem Represents.advance (h : Represents (s :: todo) ready t l) (hs : s ∈ t.places)
    {x : UsSocket ι} (hx : l.cell s = some x) :
    Represents todo ready t { l with iterator := x.next } := by
  obtain ⟨x', front, back, hx', -, hplaces, hnext⟩ := h.shape.node hs
  cases hx.symm.trans hx'
  have hfilter : (s :: todo).filter (· ∈ t.places) = s :: todo.filter (· ∈ t.places) :=
    List.filter_cons_of_pos (by simpa using hs)
  have hsuffix := h.sweeping.suffix
  rw [hfilter] at hsuffix
  obtain ⟨before, hbefore⟩ := hsuffix
  have hback : todo.filter (· ∈ t.places) = back :=
    back_unique (hplaces ▸ h.shape.nodup_places) (hbefore.trans hplaces)
  refine ⟨h.shape.keep _ _, ⟨?_, fun p hp => h.sweeping.known p (List.mem_cons_of_mem s hp), ?_⟩,
    h.pending.keep (.refl t) rfl⟩
  · rw [hback, hplaces]
    exact (List.suffix_cons s back).trans (List.suffix_append front _)
  · rw [hback]
    exact hnext

/-- A turn of the sweep visits the next socket that has not been closed meanwhile. -/
theorem Represents.sweepTurn {onSocketTimeout : ι → List (SocketOp ι)}
    (h : Represents (s :: todo) ready t l) (hs : s ∈ t.places)
    (ht : t.visit onSocketTimeout s = some t') :
    ∃ l', l.sweepTurn onSocketTimeout s = some l' ∧ Represents todo ready t' l' := by
  obtain ⟨x, -, -, hx, htimer, -, -⟩ := h.shape.node hs
  have hisSome : (l.cell s).isSome = true := (h.shape.cell s).mpr (.inl hs)
  have hset : Represents (s :: todo) ready (t.setTimer s (x.timeout - 1))
      { l with cell := mapAt (fun x => { x with timeout := x.timeout - 1 }) l.cell (some s) } := by
    refine h.setTimer (.inl hs) fun y hy => ?_
    cases hx.symm.trans hy
    rfl
  have hself : mapAt (fun x : UsSocket ι => { x with timeout := x.timeout - 1 }) l.cell (some s) s =
      some { x with timeout := x.timeout - 1 } := by
    rw [mapAt_self, hx]
    rfl
  rw [SocketTable.visit, htimer] at ht
  rw [UsLoop.sweepTurn, hx, Option.bind_eq_bind, Option.bind_some, UsLoop.modify_eq _ hisSome,
    Option.bind_eq_bind, Option.bind_some]
  by_cases hfires : x.timeout = 1
  · rw [if_pos hfires]
    simp only [if_pos hfires] at ht
    obtain ⟨l₁, hops, h₁⟩ := hset.ops ht
    rw [hops, Option.bind_some]
    by_cases hstays : l₁.iterator = some s
    · have hs' := h₁.sweeping.iterator_eq_some.mp hstays
      obtain ⟨y, hy⟩ := Option.isSome_iff_exists.mp ((h₁.shape.cell s).mpr (.inl hs'))
      rw [if_pos hstays, hy]
      exact ⟨_, rfl, h₁.advance hs' hy⟩
    · rw [if_neg hstays]
      exact ⟨l₁, rfl, h₁.skip fun hs' => hstays (h₁.sweeping.iterator_eq_some.mpr hs')⟩
  · rw [if_neg hfires]
    simp only [if_neg hfires, Option.some.injEq] at ht
    subst ht
    have hs' : s ∈ (t.setTimer s (x.timeout - 1)).places := by
      rw [SocketTable.places_setTimer]
      exact hs
    have hnext := hset.advance (x := { x with timeout := x.timeout - 1 }) hs' hself
    exact ⟨_, rfl, hnext⟩

theorem SocketTable.timer_eq_none (hs : s ∉ t.places) : t.timer s = none := by
  refine List.lookup_eq_none_iff.mpr fun e he => bne_iff_ne.mpr ?_
  rintro rfl
  exact hs (List.mem_map_of_mem he)

theorem Represents.sweepFrom {onSocketTimeout : ι → List (SocketOp ι)}
    (h : Represents todo ready t l) (ht : t.visitAll onSocketTimeout todo = some t') :
    ∃ l', Represents [] ready t' l' ∧
      ∀ fuel, todo.length < fuel → l.sweepFrom onSocketTimeout fuel = some l' := by
  induction todo generalizing t l with
  | nil =>
      cases ht
      refine ⟨l, h, fun fuel hfuel => ?_⟩
      obtain ⟨fuel, rfl⟩ := Nat.exists_eq_add_of_lt hfuel
      simp [UsLoop.sweepFrom, h.sweeping.iterator]
  | cons s todo ih =>
      obtain ⟨t₁, hvisit, hrest⟩ := Option.bind_eq_some_iff.mp ht
      by_cases hs : s ∈ t.places
      · obtain ⟨l₁, hturn, h₁⟩ := h.sweepTurn hs hvisit
        obtain ⟨l', h', hall⟩ := ih h₁ hrest
        refine ⟨l', h', fun fuel hfuel => ?_⟩
        obtain _ | fuel := fuel
        · exact absurd hfuel (Nat.not_lt_zero _)
        · rw [UsLoop.sweepFrom, h.sweeping.iterator_eq_some.mpr hs]
          show (l.sweepTurn onSocketTimeout s).bind _ = _
          rw [hturn, Option.bind_some]
          exact hall fuel (Nat.lt_of_succ_lt_succ hfuel)
      · -- closed in this sweep, before its turn
        rw [SocketTable.visit, SocketTable.timer_eq_none hs] at hvisit
        cases hvisit
        obtain ⟨l', h', hall⟩ := ih (h.skip hs) hrest
        exact ⟨l', h', fun fuel hfuel => hall fuel (Nat.lt_of_succ_lt hfuel)⟩

/-- The sweep visits the sockets that are there when it begins, whatever the handlers do. -/
theorem Represents.timerSweep {onSocketTimeout : ι → List (SocketOp ι)}
    (h : Represents [] ready t l) (ht : t.sweep onSocketTimeout = some t') :
    ∃ l', Represents [] ready t' l' ∧
      ∀ fuel, t.places.length < fuel → l.timerSweep onSocketTimeout fuel = some l' := by
  have hfilter : t.places.filter (· ∈ t.places) = t.places :=
    List.filter_eq_self.mpr fun p hp => decide_eq_true hp
  refine Represents.sweepFrom (l := { l with iterator := l.head }) ⟨?_, ⟨?_, ?_, ?_⟩, ?_⟩ ht
  · exact h.shape.keep _ _
  · exact ⟨[], hfilter⟩
  · exact fun p hp => .inl hp
  · rw [hfilter, ← head_eq]
    exact h.shape.head
  · exact h.pending.keep (.refl t) rfl

/-! ## The end of an iteration -/

/-- The first closed socket is freed. -/
theorem Shape.pollFree {rest : List ι} (h : Shape { t with closed := s :: rest } l) :
    ∃ x, l.cell s = some x ∧
      Shape { t with closed := rest } { l.pollFree s with closedHead := x.next } := by
  obtain ⟨-, x, hx, -, hrest⟩ := h.closed
  have hnodup := h.nodup
  have hnotOpen : s ∉ t.places := fun hs => h.not_closed hs List.mem_cons_self
  have hnotRest : s ∉ rest := (List.nodup_cons.mp (List.nodup_append.mp hnodup).2.1).1
  have hother : ∀ p, p ≠ s → Function.update l.cell s none p = l.cell p := fun p hp =>
    Function.update_of_ne hp _ _
  refine ⟨x, hx, ?_, h.head, ?_, ?_, fun p => ?_, ?_⟩
  · refine h.linked.congr fun p hp => hother p ?_
    rintro rfl
    exact hnotOpen hp
  · refine hrest.congr fun p hp y hy => ⟨y, (hother p ?_).trans hy, rfl, rfl⟩
    rintro rfl
    exact hnotRest hp
  · exact hnodup.sublist ((List.sublist_cons_self s rest).append_left _)
  · show (Function.update l.cell s none p).isSome = true ↔ p ∈ t.places ∨ p ∈ rest
    by_cases hp : p = s
    · subst hp
      simp [hnotOpen, hnotRest]
    · rw [hother p hp, h.cell p]
      exact or_congr_right ⟨fun hmem => (List.mem_cons.mp hmem).resolve_left hp,
        List.mem_cons_of_mem s⟩
  · have hpolls : l.numPolls = t.live.length + (rest.length + 1) := h.numPolls
    show l.numPolls - 1 = t.live.length + rest.length
    omega

theorem Shape.freeFrom {closed : List ι} {head : Option ι}
    (h : Shape { t with closed := closed } { l with closedHead := head }) :
    ∃ l', Shape { t with closed := [] } { l' with closedHead := none } ∧
      l'.iterator = l.iterator ∧ l'.readyPolls = l.readyPolls ∧
      ∀ fuel, closed.length ≤ fuel → l.freeFrom fuel head = some l' := by
  induction closed generalizing l head with
  | nil =>
      have hhead : head = none := h.closed
      subst hhead
      refine ⟨l, h, rfl, rfl, fun fuel _ => ?_⟩
      cases fuel <;> rfl
  | cons s rest ih =>
      have hhead : head = some s := h.closed.1
      subst hhead
      obtain ⟨x, hx, hfreed⟩ := h.pollFree
      obtain ⟨l', h', hiterator, hready, hall⟩ := ih (l := l.pollFree s) hfreed
      refine ⟨l', h', hiterator, hready, fun fuel hfuel => ?_⟩
      obtain _ | fuel := fuel
      · exact absurd hfuel (Nat.not_succ_le_zero _)
      · have hx' : l.cell s = some x := hx
        rw [UsLoop.freeFrom, hx', Option.bind_eq_bind, Option.bind_some]
        exact hall fuel (Nat.le_of_succ_le_succ hfuel)

/-- All closed sockets are freed, and no others. -/
theorem Represents.freeClosedSockets (h : Represents [] [] t l) :
    ∃ l', Represents [] [] { t with closed := [] } l' ∧
      ∀ fuel, t.closed.length ≤ fuel → l.freeClosedSockets fuel = some l' := by
  have hshape : Shape { t with closed := t.closed } { l with closedHead := l.closedHead } := h.shape
  obtain ⟨l', h', hiterator, hready, hall⟩ := hshape.freeFrom
  refine ⟨{ l' with closedHead := none }, ⟨h', ⟨?_, ?_, ?_⟩, ⟨List.nodup_nil, ?_, ?_⟩⟩, ?_⟩
  · exact List.nil_suffix
  · exact fun s hs => absurd hs List.not_mem_nil
  · exact hiterator.trans h.sweeping.iterator
  · exact fun s hs => absurd hs List.not_mem_nil
  · exact hready.trans h.pending.readyPolls
  · intro fuel hfuel
    rw [UsLoop.freeClosedSockets, hall fuel hfuel]
    rfl

end AutoExpo.Sockets
