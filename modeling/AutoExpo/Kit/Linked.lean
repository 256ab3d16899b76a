import Mathlib.Data.List.Basic
import Mathlib.Logic.Function.Basic
import Mathlib.Tactic.Common

/-!
# Doubly linked lists in a store

A store has a node at some of its places; a node knows the places before and
after it, and a value. `Linked` says which list the nodes between two places
make, read forwards and backwards alike.

* `linked_append` cuts a list in two, `congr` frames it.
* `setNext_last` and `setPrev_first` hang the end or the beginning of a list to
  another place: with both, a node is taken out or put in.
-/

namespace Kit

/-- What a list needs of its nodes. The place before may be written in a way of its own,
`back`. -/
structure NodeType (κ ι π ν : Type*) where
  prev : κ → π
  next : κ → Option ι
  value : κ → ν
  setPrev : π → κ → κ
  setNext : Option ι → κ → κ
  back : Option ι → π
  prev_setPrev : ∀ p x, prev (setPrev p x) = p
  next_setPrev : ∀ p x, next (setPrev p x) = next x
  value_setPrev : ∀ p x, value (setPrev p x) = value x
  prev_setNext : ∀ n x, prev (setNext n x) = prev x
  next_setNext : ∀ n x, next (setNext n x) = n
  value_setNext : ∀ n x, value (setNext n x) = value x

namespace NodeType

variable {κ ι π ν : Type*}

/-- The first place of a list that goes on at `after`. -/
def first : List (ι × ν) → Option ι → Option ι
  | [], after => after
  | e :: _, _ => some e.1

/-- The last place of a list that begins behind `before`. -/
def last : Option ι → List (ι × ν) → Option ι
  | before, [] => before
  | _, e :: rest => last (some e.1) rest

@[simp] theorem first_nil (after : Option ι) : first ([] : List (ι × ν)) after = after := rfl

@[simp] theorem first_cons (e : ι × ν) (rest : List (ι × ν)) (after : Option ι) :
    first (e :: rest) after = some e.1 := rfl

@[simp] theorem last_nil (before : Option ι) : last before ([] : List (ι × ν)) = before := rfl

@[simp] theorem last_cons (before : Option ι) (e : ι × ν) (rest : List (ι × ν)) :
    last before (e :: rest) = last (some e.1) rest := rfl

theorem first_append (l l' : List (ι × ν)) (after : Option ι) :
    first (l ++ l') after = first l (first l' after) := by
  cases l <;> rfl

theorem last_mem {before : Option ι} {l : List (ι × ν)} {p : ι} (h : last before l = some p) :
    before = some p ∨ p ∈ l.map Prod.fst := by
  induction l generalizing before with
  | nil => exact .inl h
  | cons e l ih =>
      right
      rcases ih h with hp | hp
      · cases hp
        exact List.mem_cons_self
      · exact List.mem_cons_of_mem _ hp

theorem last_ne_none (p : ι) (l : List (ι × ν)) : last (some p) l ≠ none := by
  induction l generalizing p with
  | nil => exact Option.some_ne_none p
  | cons e l ih => exact ih e.1

theorem first_mem {l : List (ι × ν)} {after : Option ι} {n : ι} (h : first l after = some n) :
    after = some n ∨ n ∈ l.map Prod.fst := by
  cases l with
  | nil => exact .inl h
  | cons e l =>
      cases h
      exact .inr List.mem_cons_self

theorem mem_of_last {l : List (ι × ν)} {p : ι} (h : last none l = some p) : p ∈ l.map Prod.fst :=
  (last_mem h).resolve_left (Option.some_ne_none p ∘ Eq.symm)

theorem mem_of_first {l : List (ι × ν)} {n : ι} (h : first l none = some n) :
    n ∈ l.map Prod.fst :=
  (first_mem h).resolve_left (Option.some_ne_none n ∘ Eq.symm)

variable (N : NodeType κ ι π ν)

/-- The node at a place. -/
structure At (cell : ι → Option κ) (before : Option ι) (e : ι × ν) (after : Option ι) (x : κ) :
    Prop where
  cell : cell e.1 = some x
  prev : N.prev x = N.back before
  next : N.next x = after
  value : N.value x = e.2

/-- The nodes between `before` and `after` make the list. -/
def Linked (cell : ι → Option κ) : Option ι → List (ι × ν) → Option ι → Prop
  | _, [], _ => True
  | before, e :: rest, after =>
      (∃ x, N.At cell before e (first rest after) x) ∧ Linked cell (some e.1) rest after

variable {N} {cell cell' : ι → Option κ} {before after : Option ι} {l l' : List (ι × ν)}

theorem Linked.congr (h : N.Linked cell before l after)
    (hcell : ∀ p ∈ l.map Prod.fst, cell' p = cell p) : N.Linked cell' before l after := by
  induction l generalizing before with
  | nil => trivial
  | cons e l ih =>
      obtain ⟨⟨x, hx⟩, hrest⟩ := h
      refine ⟨⟨x, ?_, hx.prev, hx.next, hx.value⟩, ?_⟩
      · rw [hcell e.1 List.mem_cons_self]
        exact hx.cell
      · exact ih hrest fun p hp => hcell p (List.mem_cons_of_mem _ hp)

theorem linked_append :
    N.Linked cell before (l ++ l') after ↔
      N.Linked cell before l (first l' after) ∧ N.Linked cell (last before l) l' after := by
  induction l generalizing before with
  | nil =>
      rw [List.nil_append]
      exact ⟨fun h => ⟨trivial, h⟩, And.right⟩
  | cons e l ih =>
      rw [List.cons_append, Linked, Linked, first_append, ih, and_assoc]
      rfl

/-- There is a node at every place of a list. -/
theorem Linked.at_mem (h : N.Linked cell before l after) {e : ι × ν} (he : e ∈ l) :
    ∃ x, cell e.1 = some x ∧ N.value x = e.2 := by
  induction l generalizing before with
  | nil => cases he
  | cons e' l ih =>
      obtain ⟨⟨x, hx⟩, hrest⟩ := h
      rcases List.mem_cons.mp he with rfl | he
      · exact ⟨x, hx.cell, hx.value⟩
      · exact ih hrest he

/-- The neighbours of a node. -/
theorem Linked.between {front back : List (ι × ν)} {e : ι × ν}
    (h : N.Linked cell before (front ++ e :: back) after) :
    ∃ x, N.At cell (last before front) e (first back after) x :=
  (linked_append.mp h).2.1

/-- A node that has the same place on both sides is alone. -/
theorem alone_of_last_eq_first {front back : List (ι × ν)} {e : ι × ν}
    (hnodup : ((front ++ e :: back).map Prod.fst).Nodup)
    (h : last none front = first back none) : front = [] ∧ back = [] := by
  rw [List.map_append, List.map_cons, List.nodup_append] at hnodup
  obtain ⟨-, -, hapart⟩ := hnodup
  cases back with
  | nil =>
      refine ⟨?_, rfl⟩
      cases front with
      | nil => rfl
      | cons e' front =>
          exfalso
          exact last_ne_none e'.1 front h
  | cons n back =>
      exfalso
      exact hapart n.1 (mem_of_last h) n.1 (List.mem_cons_of_mem _ List.mem_cons_self) rfl

variable [DecidableEq ι]

/-- The store with `f` of the node at a place, if there is a place. -/
def mapAt (f : κ → κ) (cell : ι → Option κ) : Option ι → ι → Option κ
  | none => cell
  | some p => Function.update cell p ((cell p).map f)

theorem mapAt_of_ne {f : κ → κ} {p : Option ι} {q : ι} (hq : p ≠ some q) :
    mapAt f cell p q = cell q := by
  cases p with
  | none => rfl
  | some p => exact Function.update_of_ne (fun h => hq (congrArg some h.symm)) _ _

theorem mapAt_self (f : κ → κ) (p : ι) : mapAt f cell (some p) p = (cell p).map f :=
  Function.update_self _ _ _

/-- A store has nodes where it had them. -/
theorem isSome_mapAt (f : κ → κ) (p : Option ι) (q : ι) :
    (mapAt f cell p q).isSome = (cell q).isSome := by
  by_cases hq : p = some q
  · rw [hq, mapAt_self, Option.isSome_map]
  · rw [mapAt_of_ne hq]

theorem Linked.frame (h : N.Linked cell before l after) {p : Option ι}
    (hp : ∀ q ∈ l.map Prod.fst, p ≠ some q) (f : κ → κ) :
    N.Linked (mapAt f cell p) before l after :=
  h.congr fun q hq => mapAt_of_ne (hp q hq)

/-- The last node gets another place after it. -/
theorem Linked.setNext_last (h : N.Linked cell before l after) (hnodup : (l.map Prod.fst).Nodup)
    (after' : Option ι) :
    N.Linked (mapAt (N.setNext after') cell (last none l)) before l after' := by
  induction l generalizing before with
  | nil => trivial
  | cons e l ih =>
      obtain ⟨⟨x, hx⟩, hrest⟩ := h
      rw [List.map_cons, List.nodup_cons] at hnodup
      cases l with
      | nil =>
          refine ⟨⟨N.setNext after' x, ?_, ?_, ?_, ?_⟩, trivial⟩
          · rw [last_cons, last_nil, mapAt_self, hx.cell]
            rfl
          · rw [N.prev_setNext, hx.prev]
          · exact N.next_setNext _ _
          · rw [N.value_setNext, hx.value]
      | cons e' l =>
          have hne : last none (e :: e' :: l) ≠ some e.1 := by
            intro hlast
            rcases last_mem (l := l) hlast with hp | hp
            · exact hnodup.1 (List.mem_cons.mpr (.inl (Option.some.inj hp).symm))
            · exact hnodup.1 (List.mem_cons_of_mem _ hp)
          refine ⟨⟨x, ?_, hx.prev, hx.next, hx.value⟩, ih hrest hnodup.2⟩
          rw [mapAt_of_ne hne]
          exact hx.cell

/-- The first node gets another place before it. -/
theorem Linked.setPrev_first (h : N.Linked cell before l after)
    (hnodup : (l.map Prod.fst).Nodup) (before' : Option ι) :
    N.Linked (mapAt (N.setPrev (N.back before')) cell (first l none)) before' l after := by
  cases l with
  | nil => trivial
  | cons e l =>
      obtain ⟨⟨x, hx⟩, hrest⟩ := h
      rw [List.map_cons, List.nodup_cons] at hnodup
      refine ⟨⟨N.setPrev (N.back before') x, ?_, ?_, ?_, ?_⟩, ?_⟩
      · rw [first_cons, mapAt_self, hx.cell]
        rfl
      · exact N.prev_setPrev _ _
      · rw [N.next_setPrev, hx.next]
      · rw [N.value_setPrev, hx.value]
      · refine hrest.frame (fun q hq hfirst => hnodup.1 ?_) _
        cases hfirst
        exact hq

/-- A node in front of the others. -/
theorem Linked.push (h : N.Linked cell before l after) (hnodup : (l.map Prod.fst).Nodup)
    {e : ι × ν} (hnew : e.1 ∉ l.map Prod.fst) {before' : Option ι} {x : κ}
    (hx : N.At cell before' e (first l after) x) :
    N.Linked (mapAt (N.setPrev (N.back (some e.1))) cell (first l none)) before' (e :: l)
      after := by
  refine ⟨⟨x, ?_, hx.prev, hx.next, hx.value⟩, h.setPrev_first hnodup _⟩
  rw [mapAt_of_ne]
  · exact hx.cell
  · intro hfirst
    exact hnew (mem_of_first hfirst)

variable (N) in
/-- Two places are hung to each other. -/
def hang (cell : ι → Option κ) (before after : Option ι) : ι → Option κ :=
  mapAt (N.setPrev (N.back before)) (mapAt (N.setNext after) cell before) after

theorem hang_of_ne {q : ι} (hbefore : before ≠ some q) (hafter : after ≠ some q) :
    N.hang cell before after q = cell q := by
  rw [hang, mapAt_of_ne hafter, mapAt_of_ne hbefore]

theorem isSome_hang (cell : ι → Option κ) (before after : Option ι) (q : ι) :
    (N.hang cell before after q).isSome = (cell q).isSome := by
  rw [hang, isSome_mapAt, isSome_mapAt]

/-- A node is taken out: its neighbours are hung to each other. -/
theorem Linked.remove {front back : List (ι × ν)} {e : ι × ν}
    (h : N.Linked cell none (front ++ e :: back) none)
    (hnodup : ((front ++ e :: back).map Prod.fst).Nodup) :
    N.Linked (N.hang cell (last none front) (first back none)) none (front ++ back) none := by
  obtain ⟨hfront, -, hback⟩ := linked_append.mp h
  rw [List.map_append, List.map_cons, List.nodup_append, List.nodup_cons] at hnodup
  obtain ⟨hnodupFront, ⟨-, hnodupBack⟩, hapart⟩ := hnodup
  rw [linked_append]
  refine ⟨(hfront.setNext_last hnodupFront _).frame ?_ _, ?_⟩
  · intro q hq hfirst
    exact hapart q hq q (List.mem_cons_of_mem _ (mem_of_first hfirst)) rfl
  · refine Linked.setPrev_first (hback.frame ?_ _) hnodupBack _
    intro q hq hlast
    exact hapart q (mem_of_last hlast) q (List.mem_cons_of_mem _ hq) rfl

/-- A node gets another value. -/
theorem Linked.revalue {front back : List (ι × ν)} {e : ι × ν} {f : κ → κ} {v : ν}
    (h : N.Linked cell before (front ++ e :: back) after)
    (hnodup : ((front ++ e :: back).map Prod.fst).Nodup)
    (hprev : ∀ x, N.prev (f x) = N.prev x) (hnext : ∀ x, N.next (f x) = N.next x)
    (hvalue : ∀ x, N.value (f x) = v) :
    N.Linked (mapAt f cell (some e.1)) before (front ++ (e.1, v) :: back) after := by
  obtain ⟨hfront, ⟨x, hx⟩, hback⟩ := linked_append.mp h
  rw [List.map_append, List.map_cons, List.nodup_append, List.nodup_cons] at hnodup
  obtain ⟨-, ⟨hnotBack, -⟩, hapart⟩ := hnodup
  rw [linked_append]
  refine ⟨hfront.frame ?_ _, ⟨f x, ?_, ?_, ?_, hvalue x⟩, hback.frame ?_ _⟩
  · intro q hq he
    cases he
    exact hapart e.1 hq e.1 List.mem_cons_self rfl
  · rw [mapAt_self, hx.cell]
    rfl
  · rw [hprev, hx.prev]
  · rw [hnext, hx.next]
  · intro q hq he
    cases he
    exact hnotBack hq

end NodeType

end Kit
