import AutoExpo.Http.Router
import Mathlib.Data.List.Induction

/-!
# Routes

What the tree of the router holds after a series of registrations, and which of
the routes fit a URL. To add a route changes the handler at its end and no other
(`handlerAt_add`), so at the end of each route is the last handler that has been
registered for it; the candidates of a request are the registered routes that
fit (`mem_candidates_ofList`), as long as no segment but the last is a wildcard:
a wildcard without a handler hides its later siblings.
-/

namespace AutoExpo.Http

/-! ## The patterns -/

/-- The handler at the end of a way down the tree. -/
def Nodes.handlerAt : Nodes → List Bytes → Nat
  | .nil, _ => 0
  | .cons .., [] => 0
  | .cons name h children rest, node :: route =>
      if name = node then if route = [] then h else children.handlerAt route
      else rest.handlerAt (node :: route)

@[simp]
theorem handlerAt_nil (t : Nodes) : t.handlerAt [] = 0 := by
  cases t with
  | nil => rfl
  | cons name handler children rest => rfl

theorem handlerAt_cons (name node : Bytes) (handler : Nat) (children rest : Nodes)
    (route : List Bytes) :
    (Nodes.cons name handler children rest).handlerAt (node :: route) =
      if name = node then if route = [] then handler else children.handlerAt route
      else rest.handlerAt (node :: route) := rfl

theorem handlerAt_fresh (handler : Nat) {route : List Bytes} (hne : route ≠ [])
    (route' : List Bytes) :
    (fresh handler route).handlerAt route' = if route' = route then handler else 0 := by
  induction route generalizing route' with
  | nil => exact absurd rfl hne
  | cons name route ih =>
      cases route' with
      | nil => rw [handlerAt_nil, if_neg (List.cons_ne_nil _ _).symm]
      | cons node route' =>
          by_cases hname : name = node
          · subst hname
            cases route with
            | nil =>
                rw [fresh, handlerAt_cons, if_pos rfl]
                simp [Nodes.handlerAt]
            | cons name' route =>
                rw [fresh, handlerAt_cons, if_pos rfl, ih (List.cons_ne_nil _ _)]
                by_cases hnil : route' = []
                · simp [hnil]
                · simp [hnil]
                exact List.cons_ne_nil _ _
          · have hother : node :: route' ≠ name :: route := fun h => hname (List.cons.inj h).1.symm
            rw [if_neg hother]
            cases route with
            | nil =>
                rw [fresh, handlerAt_cons, if_neg hname]
                rfl
            | cons name' route =>
                rw [fresh, handlerAt_cons, if_neg hname]
                · rfl
                · exact List.cons_ne_nil _ _

/-- To add a route changes the handler at the end of it, and no other. -/
theorem handlerAt_add (handler : Nat) (t : Nodes) {route : List Bytes} (hne : route ≠ [])
    (route' : List Bytes) :
    (t.add handler route).handlerAt route' =
      if route' = route then handler else t.handlerAt route' := by
  fun_induction Nodes.add handler t route generalizing route' with
  | case1 => exact absurd rfl hne
  | case2 route _ =>
      rw [handlerAt_fresh handler hne]
      rfl
  | case3 h children rest node =>
      cases route' with
      | nil => simp
      | cons node' route' =>
          rw [handlerAt_cons, handlerAt_cons]
          by_cases hname : node = node'
          · subst hname
            by_cases hnil : route' = []
            · simp [hnil]
            · simp [hnil]
          · simp [hname, Ne.symm hname]
  | case4 name h children rest node hname ih =>
      cases route' with
      | nil => simp
      | cons node' route' =>
          rw [handlerAt_cons, handlerAt_cons, ih (List.cons_ne_nil _ _)]
          by_cases hname' : name = node'
          · subst hname'
            simp [hname]
          · simp [hname']
  | case5 h children rest node route hroute ih =>
      cases route' with
      | nil => simp
      | cons node' route' =>
          rw [handlerAt_cons, handlerAt_cons, ih hroute]
          by_cases hname : node = node'
          · subst hname
            by_cases hnil : route' = []
            · subst hnil
              have hroute' : [] ≠ route := fun h => hroute h.symm
              simp [hroute']
            · simp [hnil]
          · simp [hname, Ne.symm hname]
  | case6 name h children rest node route hroute hname ih =>
      cases route' with
      | nil => simp
      | cons node' route' =>
          rw [handlerAt_cons, handlerAt_cons, ih (List.cons_ne_nil _ _)]
          by_cases hname' : name = node'
          · subst hname'
            simp [hname]
          · simp [hname']

/-- What a pattern makes of a URL in segments: its parameters, when it fits. Behind the first
segment an empty one ends the URL. -/
def matchRoute : (first : Bool) → (pattern segs : List Bytes) → Option (List Bytes)
  | first, [], segs => if first = false ∧ segs.headD [] = [] then some [] else none
  | first, name :: pattern, segs =>
      if first = false ∧ segs.headD [] = [] then none
      else if wildcard name then if pattern = [] then some [] else none
      else if parameter name ∧ segs.headD [] ≠ [] then
        (matchRoute false pattern segs.tail).map (segs.headD [] :: ·)
      else if name = segs.headD [] then matchRoute false pattern segs.tail
      else none

def Nodes.names : Nodes → List Bytes
  | .nil => []
  | .cons name _ _ rest => name :: rest.names

/-- Siblings have different names, and a wildcard below the methods has a handler. -/
def Nodes.Proper : (methods : Bool) → Nodes → Prop
  | _, .nil => True
  | methods, .cons name handler children rest =>
      name ∉ rest.names ∧ (wildcard name → methods = true ∨ handler ≠ 0) ∧
        children.Proper false ∧ rest.Proper methods

theorem head_mem_names {t : Nodes} {node : Bytes} {route : List Bytes}
    (h : t.handlerAt (node :: route) ≠ 0) : node ∈ t.names := by
  induction t with
  | nil => exact absurd rfl h
  | cons name handler children rest _ ih =>
      rw [handlerAt_cons] at h
      by_cases hname : name = node
      · rw [Nodes.names, hname]
        exact List.mem_cons_self
      · rw [if_neg hname] at h
        exact List.mem_cons_of_mem _ (ih h)

/-- The pattern gives `found` on top of `params`. -/
def Gives (first : Bool) (pattern segs params found : List Bytes) : Prop :=
  ∃ own, matchRoute first pattern segs = some own ∧ found = params ++ own

/-- A pattern with `handler` at its end. -/
def Fits (t : Nodes) (segs params : List Bytes) (handler : Nat) (found : List Bytes) : Prop :=
  handler ≠ 0 ∧ ∃ pattern, t.handlerAt pattern = handler ∧ Gives true pattern segs params found

/-- The rest of a pattern, under a node with the handler `h`. -/
def FitsBelow (h : Nat) (children : Nodes) (segs params : List Bytes) (handler : Nat)
    (found : List Bytes) : Prop :=
  handler ≠ 0 ∧ ∃ pattern, (if pattern = [] then h else children.handlerAt pattern) = handler ∧
    Gives false pattern segs params found

section
variable {segs params found : List Bytes}

/-- At the end of the URL the pattern ends too. -/
theorem gives_end (hend : segs.headD [] = []) (pattern : List Bytes) :
    Gives false pattern segs params found ↔ pattern = [] ∧ found = params := by
  cases pattern with
  | nil =>
      rw [Gives, matchRoute, if_pos ⟨rfl, hend⟩]
      refine ⟨?_, ?_⟩
      · rintro ⟨own, hown, rfl⟩
        cases hown
        exact ⟨rfl, List.append_nil params⟩
      · rintro ⟨-, rfl⟩
        exact ⟨[], rfl, (List.append_nil _).symm⟩
  | cons name pattern =>
      rw [Gives, matchRoute, if_pos ⟨rfl, hend⟩]
      refine ⟨?_, ?_⟩
      · rintro ⟨own, hown, -⟩
        cases hown
      · rintro ⟨hnil, -⟩
        cases hnil

theorem matchRoute_true (name : Bytes) (pattern : List Bytes) :
    matchRoute true (name :: pattern) segs =
      if wildcard name then if pattern = [] then some [] else none
      else if parameter name ∧ segs.headD [] ≠ [] then
        (matchRoute false pattern segs.tail).map (segs.headD [] :: ·)
      else if name = segs.headD [] then matchRoute false pattern segs.tail
      else none := by
  have hfirst : ¬ (true = false ∧ segs.headD [] = []) := fun h => nomatch h.1
  rw [matchRoute, if_neg hfirst]

/-- Where the URL goes on, the pattern goes on, as it would at the first segment. -/
theorem gives_more (hmore : segs.headD [] ≠ []) (pattern : List Bytes) :
    Gives false pattern segs params found ↔
      pattern ≠ [] ∧ Gives true pattern segs params found := by
  have hnot : ¬ (false = false ∧ segs.headD [] = []) := fun h => hmore h.2
  cases pattern with
  | nil =>
      rw [Gives, matchRoute, if_neg hnot]
      simp
  | cons name pattern =>
      rw [Gives, Gives, matchRoute, if_neg hnot, ← matchRoute_true]
      simp

theorem not_gives_nil : ¬ Gives true [] segs params found := by
  rintro ⟨own, hown, -⟩
  rw [matchRoute, if_neg (fun h => nomatch h.1)] at hown
  cases hown

theorem mem_reached {h handler : Nat} {children : Nodes}
    (ih : (handler, found) ∈ children.candidates segs params ↔
      Fits children segs params handler found) :
    (handler, found) ∈ reached h (children.candidates segs params) segs params ↔
      FitsBelow h children segs params handler found := by
  rw [reached, FitsBelow]
  by_cases hend : segs.headD [] = []
  · rw [if_pos hend]
    simp only [gives_end hend]
    refine ⟨?_, ?_⟩
    · intro hmem
      split at hmem
      next hh =>
        obtain ⟨rfl, rfl⟩ := Prod.mk.inj (List.mem_singleton.mp hmem)
        exact ⟨hh, [], if_pos rfl, rfl, rfl⟩
      next => cases hmem
    · rintro ⟨hne, pattern, hat, rfl, rfl⟩
      rw [if_pos rfl] at hat
      subst hat
      rw [if_pos hne]
      exact List.mem_singleton_self _
  · rw [if_neg hend, ih, Fits]
    simp only [gives_more hend]
    refine and_congr_right fun _ => exists_congr fun pattern => ?_
    cases pattern with
    | nil => simp [not_gives_nil]
    | cons name pattern => simp

theorem gives_wildcard {name : Bytes} (hwild : wildcard name) (pattern : List Bytes) :
    Gives true (name :: pattern) segs params found ↔ pattern = [] ∧ found = params := by
  rw [Gives, matchRoute_true, if_pos hwild]
  by_cases hnil : pattern = []
  · rw [if_pos hnil]
    simp [hnil]
  · rw [if_neg hnil]
    simp [hnil]

theorem gives_parameter {name : Bytes} (hwild : ¬ wildcard name)
    (hparam : parameter name ∧ segs.headD [] ≠ []) (pattern : List Bytes) :
    Gives true (name :: pattern) segs params found ↔
      Gives false pattern segs.tail (params ++ [segs.headD []]) found := by
  rw [Gives, matchRoute_true, if_neg hwild, if_pos hparam, Gives]
  cases matchRoute false pattern segs.tail with
  | none => simp
  | some own => simp

theorem gives_static {name : Bytes} (hwild : ¬ wildcard name)
    (hparam : ¬ (parameter name ∧ segs.headD [] ≠ [])) (pattern : List Bytes) :
    Gives true (name :: pattern) segs params found ↔
      name = segs.headD [] ∧ Gives false pattern segs.tail params found := by
  rw [Gives, matchRoute_true, if_neg hwild, if_neg hparam, Gives]
  by_cases hname : name = segs.headD []
  · rw [if_pos hname]
    exact (and_iff_right hname).symm
  · rw [if_neg hname]
    refine ⟨?_, fun h => absurd h.1 hname⟩
    rintro ⟨own, hown, -⟩
    cases hown

/-- A pattern goes down at the first node of its name. -/
theorem fits_cons {name : Bytes} {h handler : Nat} {children rest : Nodes}
    (hname : name ∉ rest.names) :
    Fits (.cons name h children rest) segs params handler found ↔
      (handler ≠ 0 ∧ ∃ pattern,
        (if pattern = [] then h else children.handlerAt pattern) = handler ∧
          Gives true (name :: pattern) segs params found) ∨
        Fits rest segs params handler found := by
  refine ⟨?_, ?_⟩
  · rintro ⟨hne, pattern, hat, hgives⟩
    cases pattern with
    | nil => exact absurd hgives not_gives_nil
    | cons node pattern =>
        rw [handlerAt_cons] at hat
        by_cases hnode : name = node
        · rw [if_pos hnode] at hat
          exact .inl ⟨hne, pattern, hat, hnode ▸ hgives⟩
        · rw [if_neg hnode] at hat
          exact .inr ⟨hne, node :: pattern, hat, hgives⟩
  · rintro (⟨hne, pattern, hat, hgives⟩ | ⟨hne, pattern, hat, hgives⟩)
    · refine ⟨hne, name :: pattern, ?_, hgives⟩
      rw [handlerAt_cons, if_pos rfl, hat]
    · cases pattern with
      | nil => exact absurd hgives not_gives_nil
      | cons node pattern =>
          have hnode : name ≠ node := by
            rintro rfl
            exact hname (head_mem_names (hat ▸ hne))
          refine ⟨hne, node :: pattern, ?_, hgives⟩
          rw [handlerAt_cons, if_neg hnode, hat]

/-- The candidates are the patterns of the tree that fit. -/
theorem mem_candidates {t : Nodes} (ht : t.Proper false) {handler : Nat} :
    (handler, found) ∈ t.candidates segs params ↔ Fits t segs params handler found := by
  induction t generalizing segs params with
  | nil =>
      simp only [Nodes.candidates, List.not_mem_nil, false_iff]
      rintro ⟨hne, pattern, hat, -⟩
      exact hne hat.symm
  | cons name h children rest ihchildren ihrest =>
      obtain ⟨hname, hhandler, hchildren, hrest⟩ := ht
      rw [fits_cons hname, ← ihrest hrest, Nodes.candidates]
      by_cases hwild : wildcard name
      · have hh : h ≠ 0 := (hhandler hwild).resolve_left (by decide)
        rw [if_pos hwild, if_pos hh]
        simp only [gives_wildcard hwild, List.mem_cons, Prod.mk.injEq]
        refine or_congr_left ⟨?_, ?_⟩
        · rintro ⟨rfl, rfl⟩
          exact ⟨hh, [], if_pos rfl, rfl, rfl⟩
        · rintro ⟨-, pattern, hat, rfl, rfl⟩
          rw [if_pos rfl] at hat
          exact ⟨hat.symm, rfl⟩
      rw [if_neg hwild]
      by_cases hparam : parameter name ∧ segs.headD [] ≠ []
      · simp only [gives_parameter hwild hparam]
        rw [if_pos hparam, List.mem_append, mem_reached (ihchildren hchildren)]
        rfl
      simp only [gives_static hwild hparam]
      rw [if_neg hparam]
      by_cases hseg : name = segs.headD []
      · rw [if_pos hseg, List.mem_append, mem_reached (ihchildren hchildren)]
        simp only [hseg, true_and]
        rfl
      · rw [if_neg hseg]
        refine ⟨.inr, ?_⟩
        rintro (⟨-, pattern, -, hname', -⟩ | hmem)
        · exact absurd hname' hseg
        · exact hmem

end

/-! ## Registered routes -/

/-- The tree, and how many handlers there are; the first is never called. -/
structure HttpRouter where
  tree : Nodes
  handlers : Nat

namespace HttpRouter

def empty : HttpRouter where
  tree := .nil
  handlers := 1

def add (router : HttpRouter) (method pattern : Bytes) : HttpRouter where
  tree := router.tree.add router.handlers (routeOf method pattern)
  handlers := router.handlers + 1

/-- A method and a pattern for each handler. -/
def ofList (routes : List (Bytes × Bytes)) : HttpRouter :=
  routes.foldl (fun router r => router.add r.1 r.2) empty

end HttpRouter

/-- No segment but the last begins with `*`, methods apart. -/
def Uncut : (methods : Bool) → (route : List Bytes) → Prop
  | _, [] => True
  | _, [_] => True
  | methods, name :: route => (wildcard name → methods = true) ∧ Uncut false route

theorem Uncut.tail {methods : Bool} {name : Bytes} {route : List Bytes}
    (h : Uncut methods (name :: route)) (hne : route ≠ []) :
    (wildcard name → methods = true) ∧ Uncut false route := by
  cases route with
  | nil => exact absurd rfl hne
  | cons node route => exact h

theorem fresh_cons (handler : Nat) (name : Bytes) {route : List Bytes} (hne : route ≠ []) :
    fresh handler (name :: route) = .cons name 0 (fresh handler route) .nil := by
  cases route with
  | nil => exact absurd rfl hne
  | cons node route => rfl

theorem names_fresh {handler : Nat} {route : List Bytes} {node : Bytes}
    (h : node ∈ (fresh handler route).names) : route.head? = some node := by
  cases route with
  | nil => cases h
  | cons name route =>
      have hnames : (fresh handler (name :: route)).names = [name] := by
        cases route with
        | nil => rfl
        | cons name' route => rfl
      rw [hnames, List.mem_singleton] at h
      rw [h, List.head?_cons]

/-- No name is new but the first of the route. -/
theorem names_add {handler : Nat} {t : Nodes} {route : List Bytes} {node : Bytes}
    (h : node ∈ (t.add handler route).names) : node ∈ t.names ∨ route.head? = some node := by
  fun_induction Nodes.add handler t route with
  | case1 => exact .inl h
  | case2 route hne => exact .inr (names_fresh h)
  | case3 => exact .inl h
  | case5 => exact .inl h
  | case4 name h' children rest node' hname ih =>
      rcases List.mem_cons.mp h with rfl | h
      · exact .inl List.mem_cons_self
      · exact (ih h).imp_left (List.mem_cons_of_mem name)
  | case6 name h' children rest node' route hroute hname ih =>
      rcases List.mem_cons.mp h with rfl | h
      · exact .inl List.mem_cons_self
      · exact (ih h).imp_left (List.mem_cons_of_mem name)

theorem proper_fresh {methods : Bool} {handler : Nat} (hne : handler ≠ 0) {route : List Bytes}
    (huncut : Uncut methods route) : (fresh handler route).Proper methods := by
  induction route generalizing methods with
  | nil => trivial
  | cons name route ih =>
      by_cases hroute : route = []
      · subst hroute
        exact ⟨List.not_mem_nil, fun _ => .inr hne, trivial, trivial⟩
      · obtain ⟨hname, hrest⟩ := huncut.tail hroute
        rw [fresh_cons handler name hroute]
        exact ⟨List.not_mem_nil, fun h => .inl (hname h), ih hrest, trivial⟩

/-- A name other than the route's first is not among its siblings when they are added to. -/
theorem not_mem_names_add {handler : Nat} {rest : Nodes} {name node : Bytes} {route : List Bytes}
    (h : name ∉ rest.names) (hname : name ≠ node) :
    name ∉ (rest.add handler (node :: route)).names := by
  intro hmem
  rcases names_add hmem with hmem | hhead
  · exact h hmem
  · exact hname (Option.some.inj hhead).symm

theorem proper_add {methods : Bool} {handler : Nat} (hne : handler ≠ 0) {t : Nodes}
    {route : List Bytes} (ht : t.Proper methods) (huncut : Uncut methods route) :
    (t.add handler route).Proper methods := by
  fun_induction Nodes.add handler t route generalizing methods with
  | case1 => exact ht
  | case2 => exact proper_fresh hne huncut
  | case3 => exact ⟨ht.1, fun _ => .inr hne, ht.2.2⟩
  | case4 name h children rest node hname ih =>
      obtain ⟨hsiblings, hwild, hchildren, hrest⟩ := ht
      exact ⟨not_mem_names_add hsiblings hname, hwild, hchildren, ih hrest huncut⟩
  | case5 h children rest node route hroute ih =>
      obtain ⟨hsiblings, hwild, hchildren, hrest⟩ := ht
      exact ⟨hsiblings, hwild, ih hchildren (huncut.tail hroute).2, hrest⟩
  | case6 name h children rest node route hroute hname ih =>
      obtain ⟨hsiblings, hwild, hchildren, hrest⟩ := ht
      exact ⟨not_mem_names_add hsiblings hname, hwild, hchildren, ih hrest huncut⟩

/-- The last of the routes that lead to `route` is number `k`. -/
def LastRoute (routes : List (Bytes × Bytes)) (route : List Bytes) (k : Nat) : Prop :=
  (∃ r, routes[k]? = some r ∧ routeOf r.1 r.2 = route) ∧
    ∀ k', k < k' → ∀ r, routes[k']? = some r → routeOf r.1 r.2 ≠ route

namespace HttpRouter

theorem ofList_concat (routes : List (Bytes × Bytes)) (r : Bytes × Bytes) :
    ofList (routes ++ [r]) = (ofList routes).add r.1 r.2 := by
  rw [ofList, List.foldl_append]
  rfl

theorem handlers_ofList (routes : List (Bytes × Bytes)) :
    (ofList routes).handlers = routes.length + 1 := by
  induction routes using List.reverseRecOn with
  | nil => rfl
  | append_singleton routes r ih =>
      rw [ofList_concat, List.length_append, List.length_singleton]
      exact congrArg (· + 1) ih

theorem routeOf_ne_nil (method pattern : Bytes) : routeOf method pattern ≠ [] :=
  List.cons_ne_nil _ _

theorem getElem?_concat {routes : List (Bytes × Bytes)} {r r' : Bytes × Bytes} {k : Nat} :
    (routes ++ [r])[k]? = some r' ↔ routes[k]? = some r' ∨ k = routes.length ∧ r = r' := by
  rcases Nat.lt_trichotomy k routes.length with hk | rfl | hk
  · simp [List.getElem?_append_left hk, Nat.ne_of_lt hk]
  · simp
  · have hlen : (routes ++ [r]).length ≤ k := by
      rw [List.length_append]
      exact hk
    simp [List.getElem?_eq_none hlen, List.getElem?_eq_none (Nat.le_of_lt hk), Nat.ne_of_gt hk]

/-- At the end of a route is the handler of the last registration for it. -/
theorem handlerAt_ofList (routes : List (Bytes × Bytes)) (route : List Bytes) (k : Nat) :
    (ofList routes).tree.handlerAt route = k + 1 ↔ LastRoute routes route k := by
  induction routes using List.reverseRecOn with
  | nil =>
      refine ⟨?_, ?_⟩
      · intro h
        cases h
      · rintro ⟨⟨r, hr, -⟩, -⟩
        cases hr
  | append_singleton routes r ih =>
      rw [ofList_concat, add, handlerAt_add _ _ (routeOf_ne_nil r.1 r.2), handlers_ofList]
      by_cases hroute : route = routeOf r.1 r.2
      · -- the new registration is the last
        rw [if_pos hroute, Nat.add_right_cancel_iff]
        refine ⟨?_, ?_⟩
        · rintro rfl
          refine ⟨⟨r, getElem?_concat.mpr (.inr ⟨rfl, rfl⟩), hroute.symm⟩, fun k' hk' r' hr' => ?_⟩
          rcases getElem?_concat.mp hr' with hr' | ⟨rfl, -⟩
          · exact absurd (List.getElem?_eq_some_iff.mp hr').1 (Nat.lt_asymm hk')
          · exact absurd hk' (Nat.lt_irrefl _)
        · rintro ⟨⟨r', hr', -⟩, hlater⟩
          rcases getElem?_concat.mp hr' with hr' | ⟨rfl, -⟩
          · have hlt := (List.getElem?_eq_some_iff.mp hr').1
            exact absurd hroute.symm (hlater _ hlt r (getElem?_concat.mpr (.inr ⟨rfl, rfl⟩)))
          · rfl
      · rw [if_neg hroute, ih]
        refine ⟨?_, ?_⟩
        · rintro ⟨⟨r', hr', hto⟩, hlater⟩
          refine ⟨⟨r', getElem?_concat.mpr (.inl hr'), hto⟩, fun k' hk' r'' hr'' => ?_⟩
          rcases getElem?_concat.mp hr'' with hr'' | ⟨-, rfl⟩
          · exact hlater k' hk' r'' hr''
          · exact Ne.symm hroute
        · rintro ⟨⟨r', hr', hto⟩, hlater⟩
          rcases getElem?_concat.mp hr' with hr' | ⟨-, rfl⟩
          · exact ⟨⟨r', hr', hto⟩, fun k' hk' r'' hr'' =>
              hlater k' hk' r'' (getElem?_concat.mpr (.inl hr''))⟩
          · exact absurd hto.symm hroute

theorem proper_ofList {routes : List (Bytes × Bytes)}
    (h : ∀ r ∈ routes, Uncut true (routeOf r.1 r.2)) : (ofList routes).tree.Proper true := by
  induction routes using List.reverseRecOn with
  | nil => trivial
  | append_singleton routes r ih =>
      rw [ofList_concat]
      refine proper_add ?_ (ih fun r' hr' => h r' (List.mem_append_left _ hr'))
        (h r (List.mem_append_right _ (List.mem_singleton_self r)))
      rw [handlers_ofList]
      exact Nat.succ_ne_zero _

/-- The nodes under a method are those of the first node of its name. -/
theorem mem_routeCandidates {t : Nodes} (ht : t.Proper true) (method url : Bytes)
    {handler : Nat} {found : List Bytes} :
    (handler, found) ∈ t.routeCandidates method url ↔
      handler ≠ 0 ∧ ∃ pattern, t.handlerAt (method :: pattern) = handler ∧
        Gives true pattern (urlSegments url) [] found := by
  induction t with
  | nil =>
      simp only [Nodes.routeCandidates, List.not_mem_nil, false_iff]
      rintro ⟨hne, pattern, hat, -⟩
      exact hne hat.symm
  | cons name h children rest _ ih =>
      obtain ⟨-, -, hchildren, hrest⟩ := ht
      rw [Nodes.routeCandidates]
      simp only [handlerAt_cons]
      by_cases hname : name = method
      · simp only [if_pos hname]
        rw [mem_candidates hchildren, Fits]
        refine and_congr_right fun hne => exists_congr fun pattern => ?_
        cases pattern with
        | nil => simp [not_gives_nil]
        | cons node pattern => simp
      · simp only [if_neg hname]
        exact ih hrest

/-- The candidates of a request are the routes that have been registered for its method and
fit its URL, where of several registrations for one route the last counts. -/
theorem mem_candidates_ofList {routes : List (Bytes × Bytes)}
    (h : ∀ r ∈ routes, Uncut true (routeOf r.1 r.2)) (method url : Bytes) (handler : Nat)
    (found : List Bytes) :
    (handler, found) ∈ (ofList routes).tree.routeCandidates method url ↔
      ∃ k pattern, handler = k + 1 ∧ LastRoute routes (method :: pattern) k ∧
        matchRoute true pattern (urlSegments url) = some found := by
  rw [mem_routeCandidates (proper_ofList h)]
  refine ⟨?_, ?_⟩
  · rintro ⟨hne, pattern, hat, own, hown, hfound⟩
    obtain ⟨k, rfl⟩ := Nat.exists_eq_succ_of_ne_zero hne
    rw [List.nil_append] at hfound
    exact ⟨k, pattern, rfl, (handlerAt_ofList routes _ k).mp hat, hfound ▸ hown⟩
  · rintro ⟨k, pattern, rfl, hlast, hown⟩
    exact ⟨Nat.succ_ne_zero k, pattern, (handlerAt_ofList routes _ k).mpr hlast, found, hown, rfl⟩

/-- `/a/:` and `/*`. -/
def twoRoutes : List (Bytes × Bytes) := [([103], [47, 97, 47, 58]), ([103], [47, 42])]

theorem two_routes_candidates :
    (2, []) ∈ (ofList twoRoutes).tree.routeCandidates [103] [47, 97, 47, 98] := by
  have huncut : ∀ r ∈ twoRoutes, Uncut true (routeOf r.1 r.2) := by
    have hfirst : routeOf [103] [47, 97, 47, 58] = [[103], [97], [58]] := by decide +kernel
    have hsecond : routeOf [103] [47, 42] = [[103], [42]] := by decide +kernel
    intro r hr
    simp only [twoRoutes, List.mem_cons, List.not_mem_nil, or_false] at hr
    rcases hr with rfl | rfl
    · rw [hfirst]
      exact ⟨fun _ => rfl, fun h => absurd h (by decide), trivial⟩
    · rw [hsecond]
      exact ⟨fun _ => rfl, trivial⟩
  have hlast : LastRoute twoRoutes [[103], [42]] 1 := by
    refine ⟨⟨([103], [47, 42]), rfl, by decide +kernel⟩, fun k hk r hr => ?_⟩
    have hlt := (List.getElem?_eq_some_iff.mp hr).1
    exact absurd hlt (Nat.not_lt.mpr hk)
  exact (mem_candidates_ofList huncut [103] [47, 97, 47, 98] 2 []).mpr
    ⟨1, [[42]], rfl, hlast, by decide +kernel⟩

end HttpRouter

end AutoExpo.Http
