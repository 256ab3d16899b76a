import AutoExpo.Kit.Linked
import AutoExpo.Sockets.UsLoop

/-!
# The lists of the sockets

The memory of the loop holds the sockets of a table (`Shape`), and whatever a callback
does with sockets keeps it so (`Represents.ops`), in the middle of a sweep and while
polls are still to be dispatched.
-/

namespace AutoExpo.Sockets

open Kit NodeType

/-! ## What the memory holds -/

section
variable {ι : Type*}

theorem Prev.of_injective {p q : Option ι} (h : Prev.of p = Prev.of q) : p = q := by
  cases p <;> cases q <;> simp_all [Prev.of]

theorem Prev.of_ne_context (p : Option ι) : Prev.of p ≠ .context := by
  cases p <;> simp [Prev.of]

/-- The links of a socket. -/
def links : NodeType (UsSocket ι) ι (Prev ι) Nat where
  prev := UsSocket.prev
  next := UsSocket.next
  value := UsSocket.timeout
  setPrev p x := { x with prev := p }
  setNext n x := { x with next := n }
  back := Prev.of
  prev_setPrev _ _ := rfl
  next_setPrev _ _ := rfl
  value_setPrev _ _ := rfl
  prev_setNext _ _ := rfl
  next_setNext _ _ := rfl
  value_setNext _ _ := rfl

/-- The closed sockets, from `head` on. -/
def ClosedFrom (cell : ι → Option (UsSocket ι)) : Option ι → List ι → Prop
  | head, [] => head = none
  | head, s :: rest =>
      head = some s ∧ ∃ x, cell s = some x ∧ x.prev = .context ∧ ClosedFrom cell x.next rest

theorem ClosedFrom.congr {cell cell' : ι → Option (UsSocket ι)} {head : Option ι} {closed : List ι}
    (h : ClosedFrom cell head closed)
    (hcell : ∀ s ∈ closed, ∀ x, cell s = some x →
      ∃ y, cell' s = some y ∧ y.prev = x.prev ∧ y.next = x.next) :
    ClosedFrom cell' head closed := by
  induction closed generalizing head with
  | nil => exact h
  | cons s rest ih =>
      obtain ⟨hhead, x, hx, hprev, hrest⟩ := h
      obtain ⟨y, hy, hprev', hnext⟩ := hcell s List.mem_cons_self x hx
      refine ⟨hhead, y, hy, hprev'.trans hprev, ?_⟩
      rw [hnext]
      exact ih hrest fun s' hs' => hcell s' (List.mem_cons_of_mem _ hs')

/-- A closed socket says so. -/
theorem ClosedFrom.prev {cell : ι → Option (UsSocket ι)} {head : Option ι} {closed : List ι}
    (h : ClosedFrom cell head closed) {s : ι} (hs : s ∈ closed) :
    ∃ x, cell s = some x ∧ x.prev = .context := by
  induction closed generalizing head with
  | nil => cases hs
  | cons s' rest ih =>
      obtain ⟨-, x, hx, hprev, hrest⟩ := h
      rcases List.mem_cons.mp hs with rfl | hs
      · exact ⟨x, hx, hprev⟩
      · exact ih hrest hs

/-- The memory holds the sockets of the table, and no others. -/
structure Shape (t : SocketTable ι) (l : UsLoop ι) : Prop where
  linked : links.Linked l.cell none t.live none
  head : l.head = first t.live none
  closed : ClosedFrom l.cell l.closedHead t.closed
  nodup : (t.places ++ t.closed).Nodup
  cell : ∀ s, (l.cell s).isSome = true ↔ s ∈ t.places ∨ s ∈ t.closed
  numPolls : l.numPolls = t.live.length + t.closed.length

/-- The iterator and the ready polls are not part of the lists. -/
theorem Shape.keep {t : SocketTable ι} {l : UsLoop ι} (h : Shape t l) (iterator : Option ι)
    (readyPolls : List (Option (Poll ι))) :
    Shape t { l with iterator := iterator, readyPolls := readyPolls } :=
  ⟨h.linked, h.head, h.closed, h.nodup, h.cell, h.numPolls⟩

theorem Shape.nodup_places {t : SocketTable ι} {l : UsLoop ι} (h : Shape t l) : t.places.Nodup :=
  (List.nodup_append.mp h.nodup).1

theorem Shape.not_closed {t : SocketTable ι} {l : UsLoop ι} (h : Shape t l) {s : ι}
    (hs : s ∈ t.places) : s ∉ t.closed := fun hclosed =>
  (List.nodup_append.mp h.nodup).2.2 s hs s hclosed rfl

end

section
variable {ι : Type*} [DecidableEq ι] {t : SocketTable ι} {l : UsLoop ι} {s : ι}

theorem UsLoop.modify_eq (f : UsSocket ι → UsSocket ι) (hs : (l.cell s).isSome = true) :
    l.modify s f = some { l with cell := mapAt f l.cell (some s) } := by
  obtain ⟨x, hx⟩ := Option.isSome_iff_exists.mp hs
  simp [UsLoop.modify, mapAt, hx]

theorem UsLoop.setPrevOf_eq {n : Option ι} (p : Prev ι)
    (hn : ∀ m, n = some m → (l.cell m).isSome = true) :
    l.setPrevOf n p = some { l with cell := mapAt (links.setPrev p) l.cell n } := by
  cases n with
  | none => rfl
  | some m => exact modify_eq _ (hn m rfl)

theorem UsLoop.setNextOf_eq {p : Option ι} (n : Option ι)
    (hp : ∀ q, p = some q → (l.cell q).isSome = true) :
    l.setNextOf (.of p) n = some { l with
      cell := mapAt (links.setNext n) l.cell p
      head := if p = none then n else l.head } := by
  cases p with
  | none => rfl
  | some q => exact modify_eq _ (hp q rfl)

theorem Shape.socketIsClosed (h : Shape t l) (hs : s ∈ t.places ∨ s ∈ t.closed) :
    l.socketIsClosed s = some (decide (s ∉ t.places)) := by
  rw [UsLoop.socketIsClosed]
  by_cases hlive : s ∈ t.places
  · obtain ⟨front, n, back, hsplit, -, -⟩ := SocketTable.exists_split hlive h.nodup_places
    have hlinked := h.linked
    rw [hsplit] at hlinked
    obtain ⟨x, hx⟩ := hlinked.between
    have hprev : x.prev ≠ .context := fun hcontext =>
      Prev.of_ne_context _ (hx.prev.symm.trans hcontext)
    rw [hx.cell]
    simp [hlive, hprev]
  · obtain ⟨x, hx, hprev⟩ := h.closed.prev (hs.resolve_left hlive)
    rw [hx]
    simp [hlive, hprev]

/-- A socket is taken out of the list. -/
theorem Shape.contextUnlink (h : Shape t l) {front back : List (ι × Nat)} {n : Nat}
    (hlive : t.live = front ++ (s, n) :: back) :
    l.contextUnlink s = some { l with
      cell := links.hang l.cell (last none front) (first back none)
      head := first (front ++ back) none
      iterator := if l.iterator = some s then first back none else l.iterator } := by
  have hlinked := h.linked
  have hnodup := h.nodup_places
  rw [SocketTable.places] at hnodup
  rw [hlive] at hlinked hnodup
  obtain ⟨x, hx⟩ := hlinked.between
  have hnext : x.next = first back none := hx.next
  have hprev : x.prev = .of (last none front) := hx.prev
  have hiterator : (if l.iterator = some s then { l with iterator := x.next } else l) =
      { l with iterator := if l.iterator = some s then first back none else l.iterator } := by
    rw [hnext]
    split <;> rfl
  have hthere : ∀ p ∈ (front ++ (s, n) :: back).map Prod.fst, (l.cell p).isSome = true := by
    intro p hp
    obtain ⟨e, he, rfl⟩ := List.mem_map.mp hp
    obtain ⟨y, hy, -⟩ := hlinked.at_mem he
    exact Option.isSome_iff_exists.mpr ⟨y, hy⟩
  have hbefore : ∀ p, last none front = some p → (l.cell p).isSome = true := by
    intro p hp
    refine hthere p ?_
    rw [List.map_append]
    exact List.mem_append_left _ (mem_of_last hp)
  have hafter : ∀ p, first back none = some p → (l.cell p).isSome = true := by
    intro p hp
    refine hthere p ?_
    rw [List.map_append, List.map_cons]
    exact List.mem_append_right _ (List.mem_cons_of_mem _ (mem_of_first hp))
  have hhead : (if last none front = none then first back none else l.head) =
      first (front ++ back) none := by
    rw [h.head, hlive]
    cases front with
    | nil => rfl
    | cons e front => exact if_neg (last_ne_none e.1 front)
  rw [UsLoop.contextUnlink, hx.cell]
  simp only [Option.bind_eq_bind, Option.bind_some, hiterator]
  rw [hprev, hnext]
  by_cases hsame : last none front = first back none
  · -- the only socket of the list
    obtain ⟨rfl, rfl⟩ := alone_of_last_eq_first hnodup hsame
    exact if_pos rfl
  · have hout := UsLoop.setNextOf_eq
      (l := { l with iterator := if l.iterator = some s then first back none else l.iterator })
      (first back none) hbefore
    rw [if_neg fun heq => hsame (Prev.of_injective heq), hout, Option.bind_some]
    refine (UsLoop.setPrevOf_eq _ fun m hm => ?_).trans ?_
    · rw [isSome_mapAt]
      exact hafter m hm
    · rw [← hhead]
      rfl

/-! ## The sweep and the ready polls -/

/-- A sweep that has still to visit `todo`, as far as it is not closed. -/
structure Sweeping (todo : List ι) (t : SocketTable ι) (l : UsLoop ι) : Prop where
  suffix : todo.filter (· ∈ t.places) <:+ t.places
  known : ∀ s ∈ todo, s ∈ t.places ∨ s ∈ t.closed
  iterator : l.iterator = (todo.filter (· ∈ t.places)).head?

def SocketTable.seen (t : SocketTable ι) : Poll ι → Option (Poll ι)
  | .socket s => if s ∈ t.places then some (.socket s) else none
  | .sweepTimer => some .sweepTimer

/-- Of the ready polls, those of closed sockets are not seen any more. -/
structure Pending (ready : List (Poll ι)) (t : SocketTable ι) (l : UsLoop ι) : Prop where
  nodup : ready.Nodup
  known : ∀ s, .socket s ∈ ready → s ∈ t.places ∨ s ∈ t.closed
  readyPolls : l.readyPolls = ready.map t.seen

omit [DecidableEq ι] in
theorem first_eq_head? (live : List (ι × Nat)) : first live none = (live.map Prod.fst).head? := by
  cases live <;> rfl

variable {todo : List ι} {ready : List (Poll ι)} {t' : SocketTable ι} {l' : UsLoop ι}

omit [DecidableEq ι] in
theorem mem_remove {front back : List ι} (hnodup : (front ++ s :: back).Nodup) (p : ι) :
    p ∈ front ++ back ↔ p ≠ s ∧ p ∈ front ++ s :: back := by
  rw [List.nodup_append, List.nodup_cons] at hnodup
  obtain ⟨-, ⟨hnotBack, -⟩, hapart⟩ := hnodup
  rw [List.mem_append, List.mem_append, List.mem_cons]
  constructor
  · rintro (hp | hp)
    · exact ⟨hapart p hp s List.mem_cons_self, .inl hp⟩
    · refine ⟨?_, .inr (.inr hp)⟩
      rintro rfl
      exact hnotBack hp
  · rintro ⟨hne, hp | hp | hp⟩
    · exact .inl hp
    · exact absurd hp hne
    · exact .inr hp

theorem filter_remove {front back : List ι} (hnodup : (front ++ s :: back).Nodup) :
    (front ++ s :: back).filter (· ≠ s) = front ++ back := by
  have hne : ∀ p ∈ front ++ back, decide (p ≠ s) = true := fun p hp =>
    decide_eq_true ((mem_remove hnodup p).mp hp).1
  rw [List.filter_append, List.filter_cons_of_neg (by simp), ← List.filter_append]
  exact List.filter_eq_self.mpr hne

omit [DecidableEq ι] in
/-- What is behind an element is the same wherever the list is cut. -/
theorem back_unique {front back before rest : List ι} (hnodup : (front ++ s :: back).Nodup)
    (h : before ++ s :: rest = front ++ s :: back) : rest = back := by
  obtain ⟨hnotin, -⟩ := List.nodup_cons.mp (List.perm_middle.nodup_iff.mp hnodup)
  rw [List.mem_append, not_or] at hnotin
  obtain ⟨-, -, hback⟩ := (List.append_cons_inj_of_notMem hnotin.1 hnotin.2).mp h.symm
  exact hback.symm

/-- The iterator passes a socket that is closed. -/
theorem Sweeping.close (h : Sweeping todo t l) (hnodup : t.places.Nodup)
    {front back : List ι} (hplaces : t.places = front ++ s :: back)
    (hplaces' : t'.places = front ++ back) (hclosed : t'.closed = s :: t.closed)
    (hiterator : l'.iterator = if l.iterator = some s then back.head? else l.iterator) :
    Sweeping todo t' l' := by
  rw [hplaces] at hnodup
  have hmem : ∀ p, p ∈ t'.places ↔ p ≠ s ∧ p ∈ t.places := by
    rw [hplaces, hplaces']
    exact mem_remove hnodup
  have hfilter : todo.filter (· ∈ t'.places) =
      (todo.filter (· ∈ t.places)).filter (· ≠ s) := by
    rw [List.filter_filter]
    exact List.filter_congr fun p _ => by simp [hmem]
  refine ⟨?_, ?_, ?_⟩
  · rw [hfilter, hplaces', ← filter_remove hnodup, ← hplaces]
    exact h.suffix.filter _
  · intro p hp
    by_cases hps : p = s
    · exact .inr (hclosed ▸ hps ▸ List.mem_cons_self)
    · rcases h.known p hp with hlive | hclosed'
      · exact .inl ((hmem p).mpr ⟨hps, hlive⟩)
      · exact .inr (hclosed ▸ List.mem_cons_of_mem _ hclosed')
  · obtain ⟨before, hbefore⟩ := h.suffix
    rw [hiterator, h.iterator, hfilter]
    cases htodo : todo.filter (· ∈ t.places) with
    | nil => rfl
    | cons p rest =>
        by_cases hps : p = s
        · subst hps
          rw [htodo, hplaces] at hbefore
          obtain rfl := back_unique hnodup hbefore
          have hall : ∀ q ∈ rest, decide (q ≠ p) = true := by
            intro q hq
            refine decide_eq_true ?_
            rintro rfl
            rw [List.nodup_append, List.nodup_cons] at hnodup
            exact hnodup.2.1.1 hq
          rw [List.filter_cons_of_neg (by simp), List.head?_cons, if_pos rfl,
            List.filter_eq_self.mpr hall]
        · rw [List.filter_cons_of_pos (by simpa using hps), List.head?_cons, List.head?_cons,
            if_neg fun h => hps (Option.some.inj h)]

theorem SocketTable.seen_eq_some {p q : Poll ι} (h : t.seen p = some q) : q = p := by
  cases p with
  | sweepTimer => exact (Option.some.inj h).symm
  | socket s =>
      rw [seen] at h
      split at h
      · exact (Option.some.inj h).symm
      · cases h

/-- The ready poll of a socket that is closed is not seen any more. -/
theorem Pending.close (h : Pending ready t l) (hs : s ∈ t.places)
    (hplaces : ∀ p, p ∈ t'.places ↔ p ≠ s ∧ p ∈ t.places) (hclosed : t'.closed = s :: t.closed)
    (hready : l'.readyPolls = l.readyPolls.replace (some (.socket s)) none) :
    Pending ready t' l' := by
  have hseen : ∀ p, t'.seen p = if p = .socket s then none else t.seen p := by
    intro p
    cases p with
    | sweepTimer => rfl
    | socket p =>
        by_cases hp : p = s
        · simp [SocketTable.seen, hplaces, hp]
        · simp [SocketTable.seen, hplaces, hp]
  have hreplace : ∀ polls : List (Poll ι), polls.Nodup →
      (polls.map t.seen).replace (some (.socket s)) none = polls.map t'.seen := by
    intro polls hnodup
    induction polls with
    | nil => rfl
    | cons p rest ih =>
        rw [List.nodup_cons] at hnodup
        rw [List.map_cons, List.map_cons, hseen p]
        by_cases hp : p = .socket s
        · have hrest : rest.map t'.seen = rest.map t.seen :=
            List.map_congr_left fun q hq => by
              rw [hseen, if_neg]
              rintro rfl
              exact hnodup.1 (hp ▸ hq)
          have hhead : t.seen p = some (.socket s) := by
            rw [hp]
            exact if_pos hs
          rw [hhead, List.replace_cons_self, if_pos hp, hrest]
        · have hne : ((some (.socket s) : Option (Poll ι)) == t.seen p) = false :=
            beq_false_of_ne fun heq => hp (SocketTable.seen_eq_some heq.symm).symm
          rw [List.replace_cons, hne, if_neg hp]
          exact congrArg _ (ih hnodup.2)
  refine ⟨h.nodup, fun p hp => ?_, ?_⟩
  · by_cases hps : p = s
    · exact .inr (hclosed ▸ hps ▸ List.mem_cons_self)
    · rcases h.known p hp with hlive | hclosed'
      · exact .inl ((hplaces p).mpr ⟨hps, hlive⟩)
      · exact .inr (hclosed ▸ List.mem_cons_of_mem _ hclosed')
  · rw [hready, h.readyPolls]
    exact hreplace ready h.nodup

/-- What is open and what is closed stays as it is. -/
structure SameSockets (t t' : SocketTable ι) : Prop where
  places : t'.places = t.places
  closed : t'.closed = t.closed

omit [DecidableEq ι] in
theorem SameSockets.refl (t : SocketTable ι) : SameSockets t t := ⟨rfl, rfl⟩

theorem Sweeping.keep (h : Sweeping todo t l) (hsame : SameSockets t t')
    (hiterator : l'.iterator = l.iterator) : Sweeping todo t' l' := by
  refine ⟨?_, ?_, ?_⟩
  · rw [hsame.places]
    exact h.suffix
  · rw [hsame.places, hsame.closed]
    exact h.known
  · rw [hsame.places, hiterator]
    exact h.iterator

theorem Pending.keep (h : Pending ready t l) (hsame : SameSockets t t')
    (hready : l'.readyPolls = l.readyPolls) : Pending ready t' l' := by
  have hseen : t'.seen = t.seen := by
    funext p
    cases p with
    | socket s => simp only [SocketTable.seen, hsame.places]
    | sweepTimer => rfl
  refine ⟨h.nodup, ?_, ?_⟩
  · rw [hsame.places, hsame.closed]
    exact h.known
  · rw [hready, h.readyPolls, hseen]

/-- A socket that is opened in a sweep is not visited. -/
theorem Sweeping.link (h : Sweeping todo t l) (hnew : ¬(s ∈ t.places ∨ s ∈ t.closed))
    (hplaces : t'.places = s :: t.places) (hclosed : t'.closed = t.closed)
    (hiterator : l'.iterator = l.iterator) : Sweeping todo t' l' := by
  have hfilter : todo.filter (· ∈ t'.places) = todo.filter (· ∈ t.places) := by
    refine List.filter_congr fun p hp => ?_
    have hne : p ≠ s := by
      rintro rfl
      exact hnew (h.known p hp)
    simp [hplaces, hne]
  refine ⟨?_, fun p hp => ?_, ?_⟩
  · rw [hfilter, hplaces]
    exact h.suffix.trans (List.suffix_cons s t.places)
  · rw [hplaces, hclosed]
    exact (h.known p hp).imp_left (List.mem_cons_of_mem s)
  · rw [hfilter, hiterator]
    exact h.iterator

theorem Pending.link (h : Pending ready t l) (hnew : ¬(s ∈ t.places ∨ s ∈ t.closed))
    (hplaces : t'.places = s :: t.places) (hclosed : t'.closed = t.closed)
    (hready : l'.readyPolls = l.readyPolls) : Pending ready t' l' := by
  refine ⟨h.nodup, fun p hp => ?_, ?_⟩
  · rw [hplaces, hclosed]
    exact (h.known p hp).imp_left (List.mem_cons_of_mem s)
  · rw [hready, h.readyPolls]
    refine List.map_congr_left fun p hp => ?_
    cases p with
    | sweepTimer => rfl
    | socket p =>
        have hne : p ≠ s := by
          rintro rfl
          exact hnew (h.known p hp)
        simp [SocketTable.seen, hplaces, hne]

/-- The loop holds the table, has still to visit `todo`, and to dispatch `ready`. -/
structure Represents (todo : List ι) (ready : List (Poll ι)) (t : SocketTable ι) (l : UsLoop ι) :
    Prop where
  shape : Shape t l
  sweeping : Sweeping todo t l
  pending : Pending ready t l

/-! ## What callbacks do -/

theorem Represents.link (h : Represents todo ready t l) (hnew : ¬(s ∈ t.places ∨ s ∈ t.closed))
    (memory : UsSocket ι) :
    ∃ l', (l.createPoll s memory).contextLink s = some l' ∧
      Represents todo ready { t with live := (s, 0) :: t.live } l' := by
  obtain ⟨hnotLive, hnotClosed⟩ := not_or.mp hnew
  have hcreated : ((l.createPoll s memory).cell s).isSome = true := by
    simp [UsLoop.createPoll]
  have hmodify := UsLoop.modify_eq
    (fun x : UsSocket ι => { x with timeout := 0, next := l.head, prev := .null }) hcreated
  generalize hcell : mapAt
    (fun x : UsSocket ι => { x with timeout := 0, next := l.head, prev := .null })
    (l.createPoll s memory).cell (some s) = cell at hmodify
  have hself : cell s = some { prev := .null, next := l.head, timeout := 0 } := by
    rw [← hcell, mapAt_self]
    simp [UsLoop.createPoll]
  have hother : ∀ p, p ≠ s → cell p = l.cell p := by
    intro p hp
    rw [← hcell, mapAt_of_ne fun h => hp (Option.some.inj h).symm]
    exact Function.update_of_ne hp _ _
  have hlinked : links.Linked cell none t.live none := h.shape.linked.congr fun p hp =>
    hother p (by rintro rfl; exact hnotLive hp)
  have hhead : ∀ m, l.head = some m → m ∈ t.places := by
    intro m hm
    rw [h.shape.head] at hm
    exact mem_of_first hm
  have hclosed : ∀ p ∈ t.closed, mapAt (links.setPrev (.socket s)) cell l.head p = l.cell p := by
    intro p hp
    rw [mapAt_of_ne fun hm => h.shape.not_closed (hhead p hm) hp]
    exact hother p (by rintro rfl; exact hnotClosed hp)
  refine ⟨{ l with
    cell := mapAt (links.setPrev (.socket s)) cell l.head
    numPolls := l.numPolls + 1
    head := some s }, ?_, ?_, ?_, ?_⟩
  · have hthere : ∀ m, l.head = some m → (cell m).isSome = true := by
      intro m hm
      have hlive := hhead m hm
      rw [hother m (by rintro rfl; exact hnotLive hlive)]
      exact (h.shape.cell m).mpr (.inl hlive)
    have hprev := UsLoop.setPrevOf_eq
      (l := { l with cell := cell, numPolls := l.numPolls + 1 }) (.socket s) hthere
    rw [UsLoop.contextLink]
    refine (congrArg (Option.bind · _) hmodify).trans ?_
    exact congrArg (Option.bind · _) hprev
  · refine ⟨?_, rfl, ?_, ?_, fun p => ?_, ?_⟩
    · have hat : links.At cell none (s, 0) (first t.live none)
          { prev := .null, next := l.head, timeout := 0 } := ⟨hself, rfl, h.shape.head, rfl⟩
      rw [h.shape.head]
      exact hlinked.push h.shape.nodup_places hnotLive hat
    · exact h.shape.closed.congr fun p hp x hx => ⟨x, (hclosed p hp).trans hx, rfl, rfl⟩
    · refine List.nodup_cons.mpr ⟨?_, h.shape.nodup⟩
      exact fun hmem => hnew (List.mem_append.mp hmem)
    · rw [isSome_mapAt]
      by_cases hp : p = s
      · subst hp
        rw [hself]
        exact iff_of_true rfl (.inl List.mem_cons_self)
      · rw [hother p hp, h.shape.cell p]
        refine or_congr_left ⟨List.mem_cons_of_mem s, fun hmem => ?_⟩
        exact (List.mem_cons.mp hmem).resolve_left hp
    · show l.numPolls + 1 = (t.live.length + 1) + t.closed.length
      rw [h.shape.numPolls]
      omega
  · exact h.sweeping.link hnew rfl rfl rfl
  · exact h.pending.link hnew rfl rfl rfl

/-- A socket has been taken out of the list and put in front of the closed ones. -/
theorem Shape.close (h : Shape t l) {front back : List (ι × Nat)} {n : Nat} {x : UsSocket ι}
    (hlive : t.live = front ++ (s, n) :: back) (hself : l'.cell s = some x)
    (hprev : x.prev = .context) (hnext : x.next = l.closedHead)
    (hother : ∀ p, p ≠ s → l'.cell p = links.hang l.cell (last none front) (first back none) p)
    (hhead : l'.head = first (front ++ back) none) (hclosedHead : l'.closedHead = some s)
    (hpolls : l'.numPolls = l.numPolls) :
    Shape { live := front ++ back, closed := s :: t.closed } l' := by
  have hplaces := SocketTable.places_split hlive
  have hplaces' : (front ++ back).map Prod.fst = front.map Prod.fst ++ back.map Prod.fst :=
    List.map_append
  have hs : s ∈ t.places := by
    rw [hplaces]
    exact List.mem_append_right _ List.mem_cons_self
  have hnodup : (front.map Prod.fst ++ s :: back.map Prod.fst).Nodup :=
    hplaces ▸ h.nodup_places
  have hlinked := h.linked
  rw [hlive] at hlinked
  have hremoved := hlinked.remove (by rwa [List.map_append, List.map_cons])
  -- the closed sockets are no neighbours
  have hclosed : ∀ p ∈ t.closed, l'.cell p = l.cell p := by
    intro p hp
    have hapart : ∀ q ∈ t.places, some q ≠ some p := by
      rintro q hq hqp
      cases hqp
      exact h.not_closed hq hp
    have hne : p ≠ s := fun hps => hapart s hs (congrArg some hps.symm)
    rw [hother p hne, hang_of_ne]
    · intro hlast
      exact hapart p (hplaces ▸ List.mem_append_left _ (mem_of_last hlast)) rfl
    · intro hfirst
      have hmem := List.mem_cons_of_mem s (mem_of_first hfirst)
      exact hapart p (hplaces ▸ List.mem_append_right _ hmem) rfl
  refine ⟨?_, hhead, ⟨hclosedHead, x, hself, hprev, ?_⟩, ?_, fun p => ?_, ?_⟩
  · refine hremoved.congr fun p hp => hother p ?_
    rw [hplaces'] at hp
    exact ((mem_remove hnodup p).mp hp).1
  · rw [hnext]
    exact h.closed.congr fun p hp y hy => ⟨y, (hclosed p hp).trans hy, rfl, rfl⟩
  · have hall := h.nodup
    rw [hplaces, List.append_assoc, List.cons_append] at hall
    refine List.perm_middle.nodup_iff.mpr ?_
    rw [SocketTable.places, hplaces', List.append_assoc]
    exact List.perm_middle.nodup_iff.mp hall
  · have hisSome : (l'.cell p).isSome = (l.cell p).isSome := by
      by_cases hps : p = s
      · subst hps
        rw [hself, (h.cell p).mpr (.inl hs)]
        rfl
      · rw [hother p hps, isSome_hang]
    rw [hisSome, h.cell p, hplaces, SocketTable.places, hplaces']
    simp only [List.mem_append, List.mem_cons]
    tauto
  · rw [hpolls, h.numPolls, hlive]
    simp only [List.length_append, List.length_cons]
    omega

theorem Represents.close (h : Represents todo ready t l) (hs : s ∈ t.places) :
    ∃ l', l.socketClose s = some l' ∧ Represents todo ready
      { live := t.live.filter (·.1 ≠ s), closed := s :: t.closed } l' := by
  obtain ⟨front, n, back, hlive, hfront, hback⟩ :=
    SocketTable.exists_split hs h.shape.nodup_places
  have hplaces := SocketTable.places_split hlive
  have hplaces' : (front ++ back).map Prod.fst = front.map Prod.fst ++ back.map Prod.fst :=
    List.map_append
  have hnodup : (front.map Prod.fst ++ s :: back.map Prod.fst).Nodup :=
    hplaces ▸ h.shape.nodup_places
  generalize hcell : links.hang l.cell (last none front) (first back none) = cell
  have hthere : (cell s).isSome = true := by
    rw [← hcell, isSome_hang]
    exact (h.shape.cell s).mpr (.inl hs)
  obtain ⟨x, hx⟩ := Option.isSome_iff_exists.mp hthere
  generalize hmarked : mapAt (fun x : UsSocket ι => { x with prev := .context })
    (mapAt (fun x : UsSocket ι => { x with next := l.closedHead }) cell (some s)) (some s) = cell'
  have hself : cell' s = some { x with prev := .context, next := l.closedHead } := by
    rw [← hmarked, mapAt_self, mapAt_self, hx]
    rfl
  have hother : ∀ p, p ≠ s →
      cell' p = links.hang l.cell (last none front) (first back none) p := by
    intro p hp
    have hne : some s ≠ some p := fun hsp => hp (Option.some.inj hsp).symm
    rw [← hmarked, mapAt_of_ne hne, mapAt_of_ne hne, hcell]
  rw [SocketTable.filter_split hlive hfront hback]
  refine ⟨{ l with
    cell := cell'
    head := first (front ++ back) none
    iterator := if l.iterator = some s then first back none else l.iterator
    closedHead := some s
    readyPolls := l.readyPolls.replace (some (.socket s)) none }, ?_, ?_, ?_, ?_⟩
  · have hunlink := h.shape.contextUnlink hlive
    rw [hcell] at hunlink
    rw [UsLoop.socketClose, h.shape.socketIsClosed (.inl hs), Option.bind_some, hunlink]
    simp only [hs, not_true_eq_false, decide_false, Bool.false_eq_true, if_false,
      Option.bind_eq_bind, Option.bind_some]
    rw [UsLoop.modify_eq, Option.bind_some, UsLoop.modify_eq, ← hmarked]
    · rfl
    · rw [isSome_mapAt]
      exact hthere
    · exact hthere
  · exact h.shape.close hlive hself rfl rfl hother rfl rfl rfl
  · refine h.sweeping.close h.shape.nodup_places hplaces hplaces' rfl ?_
    rw [← first_eq_head?]
  · refine h.pending.close hs (fun p => ?_) rfl rfl
    rw [hplaces, ← mem_remove hnodup p, ← hplaces']
    rfl

omit [DecidableEq ι] in
theorem head_eq (t : SocketTable ι) : first t.live none = t.places.head? := first_eq_head? t.live

/-- A socket's timer is set. -/
theorem Represents.setTimer (h : Represents todo ready t l) (hs : s ∈ t.places ∨ s ∈ t.closed)
    {f : UsSocket ι → UsSocket ι} {n : Nat}
    (hf : ∀ x, l.cell s = some x → f x = { x with timeout := n }) :
    Represents todo ready (t.setTimer s n) { l with cell := mapAt f l.cell (some s) } := by
  have hplaces := SocketTable.places_setTimer s n t
  have hcell : mapAt f l.cell (some s) =
      mapAt (fun x : UsSocket ι => { x with timeout := n }) l.cell (some s) :=
    congrArg (Function.update l.cell s) (Option.map_congr hf)
  have hlinked : links.Linked (mapAt f l.cell (some s)) none (t.setTimer s n).live none := by
    rw [hcell]
    by_cases hlive : s ∈ t.places
    · obtain ⟨front, m, back, hsplit, hfront, hback⟩ :=
        SocketTable.exists_split hlive h.shape.nodup_places
      have hlinked := h.shape.linked
      have hnodup := h.shape.nodup_places
      rw [SocketTable.places] at hnodup
      rw [hsplit] at hlinked hnodup
      rw [SocketTable.setTimer_split hsplit hfront hback]
      exact hlinked.revalue hnodup (fun _ => rfl) (fun _ => rfl) fun _ => rfl
    · rw [SocketTable.setTimer_of_notMem hlive]
      refine h.shape.linked.frame (fun q hq hsq => hlive ?_) _
      cases hsq
      exact hq
  have hclosed : ClosedFrom (mapAt f l.cell (some s)) l.closedHead t.closed := by
    refine h.shape.closed.congr fun p _ x hx => ?_
    rw [hcell]
    by_cases hp : p = s
    · subst hp
      refine ⟨{ x with timeout := n }, ?_, rfl, rfl⟩
      rw [mapAt_self, hx]
      rfl
    · refine ⟨x, ?_, rfl, rfl⟩
      rw [mapAt_of_ne fun hsp => hp (Option.some.inj hsp).symm]
      exact hx
  refine ⟨⟨hlinked, ?_, hclosed, ?_, fun p => ?_, ?_⟩, h.sweeping.keep ⟨hplaces, rfl⟩ rfl,
    h.pending.keep ⟨hplaces, rfl⟩ rfl⟩
  · rw [head_eq, hplaces, ← head_eq]
    exact h.shape.head
  · rw [hplaces]
    exact h.shape.nodup
  · rw [isSome_mapAt, hplaces]
    exact h.shape.cell p
  · rw [SocketTable.setTimer, List.length_map]
    exact h.shape.numPolls

theorem Represents.timeout (h : Represents todo ready t l) (hs : s ∈ t.places ∨ s ∈ t.closed)
    (seconds : UInt16) :
    ∃ l', l.socketTimeout s seconds = some l' ∧
      Represents todo ready (t.setTimer s (timeoutSweeps seconds)) l' :=
  ⟨_, UsLoop.modify_eq _ ((h.shape.cell s).mpr hs), h.setTimer hs fun _ _ => rfl⟩

theorem Represents.op (h : Represents todo ready t l) {o : SocketOp ι} (ht : t.op o = some t') :
    ∃ l', l.op o = some l' ∧ Represents todo ready t' l' := by
  cases SocketTable.op_does ht with
  | link memory hnew => exact h.link hnew memory
  | close hs => exact h.close hs
  | again hs hclosed =>
      refine ⟨l, ?_, h⟩
      rw [UsLoop.op, UsLoop.socketClose, h.shape.socketIsClosed (.inr hclosed), Option.bind_some,
        decide_eq_true hs, if_pos rfl]
  | timeout seconds hs => exact h.timeout hs seconds

theorem Represents.ops (h : Represents todo ready t l) {os : List (SocketOp ι)}
    (ht : t.ops os = some t') : ∃ l', l.ops os = some l' ∧ Represents todo ready t' l' := by
  induction os generalizing t l with
  | nil =>
      cases ht
      exact ⟨l, rfl, h⟩
  | cons o os ih =>
      obtain ⟨t₁, ho, hos⟩ := Option.bind_eq_some_iff.mp ht
      obtain ⟨l₁, hl₁, h₁⟩ := h.op ho
      obtain ⟨l', hl', h'⟩ := ih h₁ hos
      refine ⟨l', ?_, h'⟩
      rw [UsLoop.ops, hl₁]
      exact hl'

end

end AutoExpo.Sockets
