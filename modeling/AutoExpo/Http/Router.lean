import AutoExpo.Http.Parser

/-!
# The HTTP router

`HttpRouter` of the web server: the tree of routes, and the search for a handler
along the segments of a URL. The router cuts the URL into segments only as far
as it gets, keeps them in a vector, and keeps the parameters of the route it is
on in a stack; both have room for 100. The search comes to trying the candidates
of the URL, cut into segments at once, in their order (`route_candidates`), and
never leaves the stack.
-/

namespace AutoExpo.Http

open Kit

def MAX_URL_SEGMENTS : Nat := 100

/-! ## The tree -/

/-- The nodes on one level: a name, a handler, which is 0 when there is none, the children,
and the nodes to its right. -/
inductive Nodes
  | nil
  | cons (name : Bytes) (handler : Nat) (children rest : Nodes)
  deriving DecidableEq

/-- The segments of a URL or a pattern: between two slashes, or behind the last one if
anything is there. -/
def segments (url : Bytes) : List Bytes :=
  if url = [] then []
  else url.takeWhile (· ≠ 47) :: segments ((url.dropWhile (· ≠ 47)).drop 1)
termination_by url.length
decreasing_by
  rename_i hne
  have hle := (List.dropWhile_suffix (fun b => decide (b ≠ 47)) (l := url)).length_le
  have hpos := List.length_pos_iff.mpr hne
  rw [List.length_drop]
  omega

/-- A slash at the front is stepped over. -/
def stepOver (pattern : Bytes) : Bytes :=
  match pattern with
  | 47 :: rest => rest
  | _ => pattern

/-- A pattern as a way down the tree; the default pattern has one empty segment. -/
def routeOf (method pattern : Bytes) : List Bytes :=
  method :: if stepOver pattern = [] then [[]] else segments (stepOver pattern)

/-- New nodes along `route`. -/
def fresh (handler : Nat) : List Bytes → Nodes
  | [] => .nil
  | [name] => .cons name handler .nil .nil
  | name :: route => .cons name 0 (fresh handler route) .nil

/-- The first node of a name is gone down, and only the last one's handler is touched. -/
def Nodes.add (handler : Nat) : Nodes → List Bytes → Nodes
  | t, [] => t
  | .nil, route => fresh handler route
  | .cons name h children rest, [node] =>
      if name = node then .cons name handler children rest
      else .cons name h children (rest.add handler [node])
  | .cons name h children rest, node :: route =>
      if name = node then .cons name h (children.add handler route) rest
      else .cons name h children (rest.add handler (node :: route))

/-! ## The search -/

/-- The router while it looks for a handler, with the user data. -/
structure RouterState (σ : Type*) where
  currentUrl : Bytes
  urlSegmentVector : Nat → Bytes
  /-- `urlSegmentTop + 1` -/
  urlSegmentCount : Nat
  params : List Bytes
  user : σ

section
variable {σ : Type*}

/-- The next segment goes to the vector. -/
def RouterState.cut (urlSegment : Nat) (s : RouterState σ) : RouterState σ :=
  { s with
    urlSegmentVector := fun i =>
      if i = urlSegment then s.currentUrl.takeWhile (· ≠ 47) else s.urlSegmentVector i
    urlSegmentCount := s.urlSegmentCount + 1
    currentUrl := (s.currentUrl.dropWhile (· ≠ 47)).drop 1 }

/-- Lazily parse or read from cache. -/
def getUrlSegment (urlSegment : Nat) (s : RouterState σ) : Bytes × RouterState σ :=
  if s.urlSegmentCount ≤ urlSegment then
    if s.currentUrl = [] ∨ 99 < urlSegment then ([], s)
    else ((s.cut urlSegment).urlSegmentVector urlSegment, s.cut urlSegment)
  else (s.urlSegmentVector urlSegment, s)

/-- There is none when the stack is full. -/
def push (param : Bytes) (s : RouterState σ) : Option (RouterState σ) :=
  if s.params.length < MAX_URL_SEGMENTS then some { s with params := s.params ++ [param] }
  else none

def pop (s : RouterState σ) : RouterState σ := { s with params := s.params.dropLast }

/-- A name that begins with `*`. -/
def wildcard (name : Bytes) : Bool := name.head? = some 42

/-- A name that begins with `:`. -/
def parameter (name : Bytes) : Bool := name.head? = some 58

variable (handlers : Nat → σ → List Bytes → σ × Bool)

/-- The handler consumes the request, or it does not. -/
def RouterState.handle (handler : Nat) (s : RouterState σ) : RouterState σ × Bool :=
  let r := handlers handler s.user s.params
  ({ s with user := r.1 }, r.2)

/-- `executeHandlers` of a node with `handler`, behind the first segment: the end of the URL,
or the `loop` over its children. -/
def executeHandlers (handler urlSegment : Nat)
    (loop : RouterState σ → Option (RouterState σ × Bool)) (s : RouterState σ) :
    Option (RouterState σ × Bool) :=
  let (segment, s) := getUrlSegment urlSegment s
  if segment = [] then
    if handler ≠ 0 then some (s.handle handlers handler) else some (s, false)
  else loop s

/-- The loop of `executeHandlers` over the children of a node. There is no result when the
parameters do not fit. -/
def tryChildren : Nodes → (urlSegment : Nat) → RouterState σ → Option (RouterState σ × Bool)
  | .nil, _, s => some (s, false)
  | .cons name handler children rest, urlSegment, s =>
      if wildcard name then
        if handler ≠ 0 then
          match s.handle handlers handler with
          | (s, true) => some (s, true)
          | (s, false) => tryChildren rest urlSegment s
        else some (s, false)
      else
        let (segment, s) := getUrlSegment urlSegment s
        if parameter name ∧ segment ≠ [] then do
          let s ← push segment s
          match ← executeHandlers handlers handler (urlSegment + 1)
              (tryChildren children (urlSegment + 1)) s with
          | (s, true) => some (s, true)
          | (s, false) => tryChildren rest urlSegment (pop s)
        else if name = segment then do
          match ← executeHandlers handlers handler (urlSegment + 1)
              (tryChildren children (urlSegment + 1)) s with
          | (s, true) => some (s, true)
          | (s, false) => tryChildren rest urlSegment s
        else tryChildren rest urlSegment s

/-- `setUrl` takes the first byte off, whatever it is. -/
def setUrl (url : Bytes) (user : σ) : RouterState σ where
  currentUrl := url.drop 1
  urlSegmentVector := fun _ => []
  urlSegmentCount := 0
  params := []
  user := user

/-- Goes to the first node of the method. -/
def route : Nodes → (method url : Bytes) → σ → Option (σ × Bool)
  | .nil, _, _, user => some (user, false)
  | .cons name _ children rest, method, url, user =>
      if name = method then
        (tryChildren handlers children 0 (setUrl url user)).map fun r => (r.1.user, r.2)
      else route rest method url user

end

/-! ## The candidates -/

/-- What is tried at a node with `handler` behind the first segment. -/
def reached (handler : Nat) (loop : List (Nat × List Bytes)) (segs params : List Bytes) :
    List (Nat × List Bytes) :=
  if segs.headD [] = [] then if handler ≠ 0 then [(handler, params)] else [] else loop

/-- The handlers to try, with their parameters, when `segs` is left of the URL. -/
def Nodes.candidates : Nodes → (segs params : List Bytes) → List (Nat × List Bytes)
  | .nil, _, _ => []
  | .cons name handler children rest, segs, params =>
      if wildcard name then
        if handler ≠ 0 then (handler, params) :: rest.candidates segs params else []
      else
        let segment := segs.headD []
        if parameter name ∧ segment ≠ [] then
          reached handler (children.candidates segs.tail (params ++ [segment])) segs.tail
            (params ++ [segment]) ++ rest.candidates segs params
        else if name = segment then
          reached handler (children.candidates segs.tail params) segs.tail params ++
            rest.candidates segs params
        else rest.candidates segs params

/-- The segments of a URL, as far as there is room for them. -/
def urlSegments (url : Bytes) : List Bytes := (segments (url.drop 1)).take MAX_URL_SEGMENTS

/-- The candidates of a request. -/
def Nodes.routeCandidates : Nodes → (method url : Bytes) → List (Nat × List Bytes)
  | .nil, _, _ => []
  | .cons name _ children rest, method, url =>
      if name = method then children.candidates (urlSegments url) []
      else rest.routeCandidates method url

/-- Tries one candidate after the other until one consumes the request. -/
def tryInOrder {σ : Type*} (handlers : Nat → σ → List Bytes → σ × Bool) :
    List (Nat × List Bytes) → σ → σ × Bool
  | [], user => (user, false)
  | (handler, params) :: rest, user =>
      match handlers handler user params with
      | (user, true) => (user, true)
      | (user, false) => tryInOrder handlers rest user

/-! ## The search against the candidates -/

section
variable {σ : Type*} {handlers : Nat → σ → List Bytes → σ × Bool} {segs : List Bytes}

/-- What has been cut off the URL, and what is left of it, is the URL. -/
structure Reads (segs : List Bytes) (s : RouterState σ) : Prop where
  room : s.urlSegmentCount ≤ MAX_URL_SEGMENTS
  whole : (List.range s.urlSegmentCount).map s.urlSegmentVector ++ segments s.currentUrl = segs

/-- The segments before `i` have been cut off, as far as there are any. -/
def Ready (i : Nat) (s : RouterState σ) : Prop :=
  i ≤ s.urlSegmentCount ∨ s.currentUrl = [] ∨ 99 < i

/-- `s'` comes after `s` in a search. -/
structure Extends (segs : List Bytes) (s s' : RouterState σ) : Prop where
  params : s'.params = s.params
  reads : Reads segs s'
  ready : ∀ i, Ready i s → Ready i s'

theorem Extends.trans {s s' s'' : RouterState σ} (h : Extends segs s s')
    (h' : Extends segs s' s'') : Extends segs s s'' where
  params := h'.params.trans h.params
  reads := h'.reads
  ready i hi := h'.ready i (h.ready i hi)

theorem segments_cons {url : Bytes} (h : url ≠ []) :
    segments url = url.takeWhile (· ≠ 47) :: segments ((url.dropWhile (· ≠ 47)).drop 1) := by
  rw [segments, if_neg h]

theorem segments_nil : segments [] = [] := by rw [segments, if_pos rfl]

/-- A segment that has been cut off is where it belongs. -/
theorem Reads.segment {s : RouterState σ} (hs : Reads segs s) {i : Nat}
    (hi : i < s.urlSegmentCount) :
    (segs.take MAX_URL_SEGMENTS).getD i [] = s.urlSegmentVector i := by
  have hroom := hs.room
  rw [← hs.whole, List.getD_eq_getElem?_getD, List.getElem?_take_of_lt (by omega),
    List.getElem?_append_left (by simpa using hi), List.getElem?_map, List.getElem?_range hi]
  rfl

/-- Where the URL ends, there is an empty segment. -/
theorem Reads.ended {s : RouterState σ} (hs : Reads segs s) {i : Nat}
    (hi : s.urlSegmentCount ≤ i) (hend : s.currentUrl = [] ∨ 99 < i) :
    (segs.take MAX_URL_SEGMENTS).getD i [] = [] := by
  have hlen : (segs.take MAX_URL_SEGMENTS).length ≤ i := by
    rcases hend with hend | hend
    · have hwhole := congrArg List.length hs.whole
      rw [hend, segments_nil, List.append_nil, List.length_map, List.length_range] at hwhole
      rw [List.length_take]
      omega
    · exact Nat.le_trans (List.length_take_le _ _) hend
  rw [List.getD_eq_getElem?_getD, List.getElem?_eq_none hlen]
  rfl

theorem Reads.cut {s : RouterState σ} (hs : Reads segs s) (hurl : s.currentUrl ≠ [])
    (hroom : s.urlSegmentCount + 1 ≤ MAX_URL_SEGMENTS) : Reads segs (s.cut s.urlSegmentCount) := by
  have hvector : (List.range s.urlSegmentCount).map (s.cut s.urlSegmentCount).urlSegmentVector =
      (List.range s.urlSegmentCount).map s.urlSegmentVector := by
    refine List.map_congr_left fun j hj => if_neg ?_
    exact Nat.ne_of_lt (List.mem_range.mp hj)
  have hnext : (s.cut s.urlSegmentCount).urlSegmentVector s.urlSegmentCount =
      s.currentUrl.takeWhile (· ≠ 47) := if_pos rfl
  refine ⟨hroom, ?_⟩
  show (List.range (s.urlSegmentCount + 1)).map (s.cut s.urlSegmentCount).urlSegmentVector ++
    segments ((s.currentUrl.dropWhile (· ≠ 47)).drop 1) = segs
  rw [List.range_succ, List.map_append, hvector, List.map_singleton, hnext, List.append_assoc,
    List.singleton_append, ← segments_cons hurl]
  exact hs.whole

theorem getUrlSegment_spec {i : Nat} {s : RouterState σ} (hs : Reads segs s) (hi : Ready i s) :
    (getUrlSegment i s).1 = (segs.take MAX_URL_SEGMENTS).getD i [] ∧
      (getUrlSegment i s).2.user = s.user ∧
      Extends segs s (getUrlSegment i s).2 ∧ Ready (i + 1) (getUrlSegment i s).2 := by
  rw [getUrlSegment]
  split
  next hcount =>
    split
    next hend =>
      refine ⟨(hs.ended hcount hend).symm, rfl, ⟨rfl, hs, fun _ h => h⟩, ?_⟩
      exact .inr (hend.imp_right fun h => Nat.lt_succ_of_lt h)
    next hmore =>
      obtain ⟨hurl, hle⟩ := not_or.mp hmore
      have hnext : i = s.urlSegmentCount := by
        rcases hi with hi | hi | hi
        · exact Nat.le_antisymm hi hcount
        · exact absurd hi hurl
        · exact absurd hi hle
      subst hnext
      have hreads := hs.cut hurl (Nat.succ_le_succ (Nat.not_lt.mp hle))
      refine ⟨(hreads.segment (Nat.lt_succ_self _)).symm, rfl, ⟨rfl, hreads, fun j hj => ?_⟩,
        .inl (Nat.le_refl _)⟩
      rcases hj with hj | hj | hj
      · exact .inl (Nat.le_succ_of_le hj)
      · exact absurd hj hurl
      · exact .inr (.inr hj)
  next hcount =>
    refine ⟨(hs.segment (Nat.lt_of_not_le hcount)).symm, rfl, ⟨rfl, hs, fun _ h => h⟩, ?_⟩
    exact .inl (Nat.lt_of_not_le hcount)

/-- The search from `s` does what trying `candidates` in order does; when none of them
consumes the request, it comes back with the parameters it had. -/
def Tries (handlers : Nat → σ → List Bytes → σ × Bool) (segs : List Bytes) (s : RouterState σ)
    (result : Option (RouterState σ × Bool)) (candidates : List (Nat × List Bytes)) : Prop :=
  ∃ s' consumed, result = some (s', consumed) ∧
    tryInOrder handlers candidates s.user = (s'.user, consumed) ∧
    (consumed = false → Extends segs s s')

theorem tryInOrder_append (l l' : List (Nat × List Bytes)) (user : σ) :
    tryInOrder handlers (l ++ l') user = match tryInOrder handlers l user with
      | (user, true) => (user, true)
      | (user, false) => tryInOrder handlers l' user := by
  induction l generalizing user with
  | nil => rfl
  | cons c l ih =>
      rw [List.cons_append, tryInOrder, tryInOrder]
      cases handlers c.1 user c.2 with
      | mk user' consumed =>
          cases consumed with
          | true => rfl
          | false => exact ih user'

/-- One search after another. -/
theorem Tries.append {s : RouterState σ} {result : Option (RouterState σ × Bool)}
    {l l' : List (Nat × List Bytes)} {next : RouterState σ → Option (RouterState σ × Bool)}
    (h : Tries handlers segs s result l)
    (hnext : ∀ s', Extends segs s s' → Tries handlers segs s' (next s') l') :
    Tries handlers segs s
      (do
        match ← result with
        | (s, true) => some (s, true)
        | (s, false) => next s) (l ++ l') := by
  obtain ⟨s', consumed, rfl, htry, hback⟩ := h
  cases consumed with
  | true =>
      refine ⟨s', true, rfl, ?_, fun h => nomatch h⟩
      rw [tryInOrder_append, htry]
  | false =>
      obtain ⟨s'', consumed, hresult, htry', hback'⟩ := hnext s' (hback rfl)
      refine ⟨s'', consumed, hresult, ?_, fun h => (hback rfl).trans (hback' h)⟩
      rw [tryInOrder_append, htry]
      exact htry'

theorem Tries.handle {s : RouterState σ} (hs : Reads segs s) (handler : Nat) :
    Tries handlers segs s (some (s.handle handlers handler)) [(handler, s.params)] := by
  refine ⟨(s.handle handlers handler).1, (s.handle handlers handler).2, rfl, ?_, fun _ => ?_⟩
  · rw [tryInOrder, RouterState.handle]
    cases handlers handler s.user s.params with
    | mk user consumed =>
        cases consumed with
        | true => rfl
        | false => rfl
  · exact ⟨rfl, ⟨hs.room, hs.whole⟩, fun _ h => h⟩

theorem Tries.nil {s : RouterState σ} (hs : Reads segs s) :
    Tries handlers segs s (some (s, false)) [] :=
  ⟨s, false, rfl, rfl, fun _ => ⟨rfl, hs, fun _ h => h⟩⟩

/-- A search from a state further on in the same place. -/
theorem Tries.of_extends {s s' : RouterState σ} {result : Option (RouterState σ × Bool)}
    {l : List (Nat × List Bytes)} (hs : Extends segs s s') (huser : s'.user = s.user)
    (h : Tries handlers segs s' result l) : Tries handlers segs s result l := by
  obtain ⟨s'', consumed, hresult, htry, hback⟩ := h
  exact ⟨s'', consumed, hresult, huser ▸ htry, fun h => hs.trans (hback h)⟩

/-- A search with one more parameter on the stack, which comes off again. -/
theorem Tries.scoped {s : RouterState σ} {param : Bytes}
    {result : Option (RouterState σ × Bool)} {l l' : List (Nat × List Bytes)}
    {next : RouterState σ → Option (RouterState σ × Bool)}
    (h : Tries handlers segs { s with params := s.params ++ [param] } result l)
    (hnext : ∀ s', Extends segs s s' → Tries handlers segs s' (next s') l') :
    Tries handlers segs s
      (do
        match ← result with
        | (s, true) => some (s, true)
        | (s, false) => next (pop s)) (l ++ l') := by
  obtain ⟨s', consumed, rfl, htry, hback⟩ := h
  cases consumed with
  | true =>
      refine ⟨s', true, rfl, ?_, fun h => nomatch h⟩
      rw [tryInOrder_append]
      simp only at htry
      rw [htry]
  | false =>
      have hpop : Extends segs s (pop s') := by
        have hback := hback rfl
        refine ⟨?_, ⟨hback.reads.room, hback.reads.whole⟩, fun i hi => hback.ready i hi⟩
        rw [pop, hback.params, List.dropLast_concat]
      obtain ⟨s'', consumed, hresult, htry', hback'⟩ := hnext (pop s') hpop
      refine ⟨s'', consumed, hresult, ?_, fun h => hpop.trans (hback' h)⟩
      rw [tryInOrder_append]
      simp only at htry
      rw [htry]
      exact htry'

theorem headD_drop (l : List Bytes) (i : Nat) : (l.drop i).headD [] = l.getD i [] := by
  rw [List.headD_eq_head?_getD, List.head?_drop, List.getD_eq_getElem?_getD]

theorem executeHandlers_tries {handler i : Nat} {s : RouterState σ} {l : List (Nat × List Bytes)}
    {loop : RouterState σ → Option (RouterState σ × Bool)} (hs : Reads segs s) (hi : Ready i s)
    (hloop : ∀ s', Extends segs s s' → Tries handlers segs s' (loop s') l) :
    Tries handlers segs s (executeHandlers handlers handler i loop s)
      (reached handler l ((segs.take MAX_URL_SEGMENTS).drop i) s.params) := by
  have hspec := getUrlSegment_spec hs hi
  rw [executeHandlers, reached, headD_drop]
  cases hget : getUrlSegment i s with
  | mk segment s' =>
      rw [hget] at hspec
      obtain ⟨hsegment, huser, hext, -⟩ := hspec
      refine .of_extends hext huser ?_
      rw [← hsegment]
      by_cases hend : segment = []
      · simp only [if_pos hend]
        by_cases hhandler : handler ≠ 0
        · rw [if_pos hhandler, if_pos hhandler, ← hext.params]
          exact .handle hext.reads handler
        · rw [if_neg hhandler, if_neg hhandler]
          exact .nil hext.reads
      · simp only [if_neg hend]
        exact hloop s' hext

theorem lt_of_getD_take {l : List Bytes} {n i : Nat} (h : (l.take n).getD i [] ≠ []) : i < n := by
  refine Nat.lt_of_not_le fun hle => h ?_
  have hlen : (l.take n).length ≤ i := Nat.le_trans (List.length_take_le _ _) hle
  rw [List.getD_eq_getElem?_getD, List.getElem?_eq_none hlen]
  rfl

/-- The search among the nodes `t` and under them, and the candidates. -/
theorem tryChildren_tries (t : Nodes) {i : Nat} {s : RouterState σ} (hs : Reads segs s)
    (hi : Ready i s) (hparams : s.params.length ≤ i) :
    Tries handlers segs s (tryChildren handlers t i s)
      (t.candidates ((segs.take MAX_URL_SEGMENTS).drop i) s.params) := by
  induction t generalizing i s with
  | nil => exact .nil hs
  | cons name handler children rest ihchildren ihrest =>
      -- the nodes to the right, wherever the search before them has come
      have hrest : ∀ s', Extends segs s s' → Tries handlers segs s' (tryChildren handlers rest i s')
          (rest.candidates ((segs.take MAX_URL_SEGMENTS).drop i) s.params) := by
        intro s' hs'
        rw [← hs'.params]
        exact ihrest hs'.reads (hs'.ready i hi) (hs'.params ▸ hparams)
      rw [tryChildren, Nodes.candidates]
      by_cases hwild : wildcard name
      · rw [if_pos hwild, if_pos hwild]
        by_cases hhandler : handler ≠ 0
        · rw [if_pos hhandler, if_pos hhandler]
          exact (Tries.handle hs handler).append hrest
        · rw [if_neg hhandler, if_neg hhandler]
          exact .nil hs
      rw [if_neg hwild, if_neg hwild, headD_drop]
      have hspec := getUrlSegment_spec hs hi
      cases hget : getUrlSegment i s with
      | mk segment s' =>
          rw [hget] at hspec
          obtain ⟨hsegment, huser, hext, hready⟩ := hspec
          have hsegment : segment = (segs.take MAX_URL_SEGMENTS).getD i [] := hsegment
          refine .of_extends hext huser ?_
          -- the level below, with the parameters there are then
          have hdown : ∀ s₁, Reads segs s₁ → Ready (i + 1) s₁ → s₁.params.length ≤ i + 1 →
              Tries handlers segs s₁
                (executeHandlers handlers handler (i + 1) (tryChildren handlers children (i + 1))
                  s₁)
                (reached handler (children.candidates ((segs.take MAX_URL_SEGMENTS).drop (i + 1))
                  s₁.params) ((segs.take MAX_URL_SEGMENTS).drop (i + 1)) s₁.params) := by
            intro s₁ hs₁ hi₁ hlen
            refine executeHandlers_tries hs₁ hi₁ fun s₂ hs₂ => ?_
            rw [← hs₂.params]
            exact ihchildren hs₂.reads (hs₂.ready _ hi₁) (hs₂.params ▸ hlen)
          have hrest' : ∀ s'', Extends segs s' s'' →
              Tries handlers segs s'' (tryChildren handlers rest i s'')
                (rest.candidates ((segs.take MAX_URL_SEGMENTS).drop i) s.params) :=
            fun s'' hs'' => hrest s'' (hext.trans hs'')
          have hlen : s'.params.length ≤ i := hext.params ▸ hparams
          rw [← hext.params] at hrest' ⊢
          simp only [← hsegment, List.tail_drop]
          by_cases hparam : parameter name ∧ segment ≠ []
          · have hroom : s'.params.length < MAX_URL_SEGMENTS := by
              have hne := hparam.2
              rw [hsegment] at hne
              exact Nat.lt_of_le_of_lt hlen (lt_of_getD_take hne)
            have hpushed : Reads segs { s' with params := s'.params ++ [segment] } :=
              ⟨hext.reads.room, hext.reads.whole⟩
            have hlen' : (s'.params ++ [segment]).length ≤ i + 1 := by
              rw [List.length_append, List.length_singleton]
              omega
            rw [if_pos hparam, if_pos hparam, push, if_pos hroom]
            exact (hdown _ hpushed hready hlen').scoped hrest'
          rw [if_neg hparam, if_neg hparam]
          by_cases hname : name = segment
          · rw [if_pos hname, if_pos hname]
            exact (hdown s' hext.reads hready (Nat.le_succ_of_le hlen)).append hrest'
          · rw [if_neg hname, if_neg hname]
            exact hrest' s' ⟨rfl, hext.reads, fun _ h => h⟩

/-- The search under the node of the request's method. -/
theorem route_method (handlers : Nat → σ → List Bytes → σ × Bool) (method : Bytes) (handler : Nat)
    (children rest : Nodes) (url : Bytes) (user : σ) :
    route handlers (.cons method handler children rest) method url user =
      some (tryInOrder handlers (children.candidates (urlSegments url) []) user) := by
  have hreads : Reads (segments (url.drop 1)) (setUrl url user) := ⟨Nat.zero_le _, rfl⟩
  have hsearch : Tries handlers _ _ _ _ :=
    tryChildren_tries children hreads (.inl (Nat.zero_le 0)) (Nat.zero_le 0)
  obtain ⟨s', consumed, hresult, htry, -⟩ := hsearch
  rw [route, if_pos rfl, hresult, urlSegments]
  exact congrArg some htry.symm

/-- The search for a handler never leaves the stack, and comes to trying the candidates of
the request in their order. -/
theorem route_candidates (handlers : Nat → σ → List Bytes → σ × Bool) (t : Nodes)
    (method url : Bytes) (user : σ) :
    route handlers t method url user =
      some (tryInOrder handlers (t.routeCandidates method url) user) := by
  induction t with
  | nil => rfl
  | cons name handler children rest _ ih =>
      rw [Nodes.routeCandidates]
      by_cases hname : name = method
      · rw [if_pos hname, hname]
        exact route_method handlers method handler children rest url user
      · rw [if_neg hname, route, if_neg hname]
        exact ih

end

end AutoExpo.Http
