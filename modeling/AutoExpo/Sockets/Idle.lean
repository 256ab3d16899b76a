import AutoExpo.Sockets.EventLoop

/-!
# Silent clients

The web server closes a socket whose timer runs out, and sets the timer of a socket
when it is opened. A client that is not heard of any more is closed at the sweep at
which its timer runs out, and no earlier, whatever the others do
(`silent_client_closed`).
-/

namespace AutoExpo.Sockets

/-- The timeout handler of `HttpContext`. -/
def onTimeout {ι : Type*} (s : ι) : List (SocketOp ι) := [.close s]

/-- Maximum delay allowed until an HTTP connection is terminated, in seconds. -/
def HTTP_IDLE_TIMEOUT_S : UInt16 := 10

/-- The open handler of `HttpContext`. -/
def onOpen {ι : Type*} (s : ι) : List (SocketOp ι) := [.timeout s HTTP_IDLE_TIMEOUT_S]

def SocketOp.place {ι : Type*} : SocketOp ι → ι
  | .link s _ => s
  | .close s => s
  | .timeout s _ => s

/-- What the callbacks of a received event do. -/
def Received.ops {ι : Type*} : Received ι → List (SocketOp ι)
  | .data onData => onData
  | .fin _ onEnd => onEnd
  | .failed => []
  | .wouldBlock => []

/-- Whether the socket is closed without a callback. -/
def Received.closes {ι : Type*} : Received ι → Bool
  | .data _ => false
  | .fin isShutDown _ => isShutDown
  | .failed => true
  | .wouldBlock => false

/-- What is ready neither closes `s` nor sets its timer, be it the poll of `s` or another; the
handlers of a sweep are the server's. -/
def ReadyPoll.LeavesAlone {ι : Type*} (s : ι) : ReadyPoll ι → Prop
  | .sweepTimer onSocketTimeout => onSocketTimeout = onTimeout
  | .listenSocket _ clients => ∀ c ∈ clients, c.place ≠ s ∧ ∀ o ∈ c.onOpen, o.place ≠ s
  | .socket p error writable readable =>
      (p = s → error = false ∧ (readable.map Received.closes).getD false = false) ∧
        (∀ o ∈ writable.getD [], o.place ≠ s) ∧
          ∀ o ∈ (readable.map Received.ops).getD [], o.place ≠ s

/-- The sweeps among what is ready. -/
def sweeps {ι : Type*} : List (ReadyPoll ι) → Nat
  | [] => 0
  | .sweepTimer _ :: rest => sweeps rest + 1
  | .listenSocket _ _ :: rest => sweeps rest
  | .socket _ _ _ _ :: rest => sweeps rest

variable {ι : Type*} [DecidableEq ι] {t t' : SocketTable ι} {s p : ι}

namespace SocketTable

theorem lookup_map_of_ne {live : List (ι × Nat)} (hp : p ≠ s) (n : Nat) :
    (live.map fun e => if e.1 = p then (p, n) else e).lookup s = live.lookup s := by
  induction live with
  | nil => rfl
  | cons e rest ih =>
      obtain ⟨q, m⟩ := e
      rw [List.map_cons]
      by_cases hq : q = p
      · subst hq
        rw [if_pos rfl, List.lookup_cons, List.lookup_cons, beq_false_of_ne hp.symm]
        exact ih
      · rw [if_neg hq, List.lookup_cons, List.lookup_cons, ih]

theorem lookup_filter_of_ne {live : List (ι × Nat)} (hp : p ≠ s) :
    (live.filter (·.1 ≠ p)).lookup s = live.lookup s := by
  induction live with
  | nil => rfl
  | cons e rest ih =>
      obtain ⟨q, m⟩ := e
      by_cases hq : q = p
      · subst hq
        rw [List.filter_cons_of_neg (by simp), List.lookup_cons, beq_false_of_ne hp.symm]
        exact ih
      · rw [List.filter_cons_of_pos (by simpa using hq), List.lookup_cons, List.lookup_cons, ih]

theorem mem_of_timer {n : Nat} (h : t.timer s = some n) : s ∈ t.places := by
  by_contra hs
  rw [timer_eq_none hs] at h
  cases h

theorem timer_setTimer {n m : Nat} (h : t.timer s = some m) :
    (t.setTimer s n).timer s = some n := by
  rw [timer] at h
  rw [timer, setTimer]
  generalize t.live = live at h
  induction live with
  | nil => cases h
  | cons e rest ih =>
      obtain ⟨q, k⟩ := e
      rw [List.map_cons]
      by_cases hq : q = s
      · subst hq
        rw [if_pos rfl]
        exact List.lookup_cons_self
      · rw [List.lookup_cons, beq_false_of_ne (Ne.symm hq)] at h
        rw [if_neg hq, List.lookup_cons, beq_false_of_ne (Ne.symm hq)]
        exact ih h

/-- What is done with other sockets does not change a timer. -/
theorem timer_op {o : SocketOp ι} (ho : o.place ≠ s) (ht : t.op o = some t') :
    t'.timer s = t.timer s := by
  cases op_does ht with
  | @link p memory hnew =>
      have hne : s ≠ p := Ne.symm ho
      rw [timer, List.lookup_cons, beq_false_of_ne hne]
      rfl
  | close hp => exact lookup_filter_of_ne ho
  | again => rfl
  | timeout seconds hp => exact lookup_map_of_ne ho _

theorem timer_ops {os : List (SocketOp ι)} (hos : ∀ o ∈ os, o.place ≠ s)
    (ht : t.ops os = some t') : t'.timer s = t.timer s := by
  induction os generalizing t with
  | nil =>
      cases ht
      rfl
  | cons o os ih =>
      obtain ⟨t₁, ho, ht⟩ := Option.bind_eq_some_iff.mp ht
      rw [ih (fun o' ho' => hos o' (List.mem_cons_of_mem o ho')) ht,
        timer_op (hos o List.mem_cons_self) ho]

/-- A timer that goes on; at its end the socket is closed. A timer that is not set stays so. -/
def countDown (n : Nat) : Option Nat := if n = 1 then none else some (n - 1)

theorem timer_visit_of_ne (hp : p ≠ s) (ht : t.visit onTimeout p = some t') :
    t'.timer s = t.timer s := by
  rw [visit] at ht
  cases htimer : t.timer p with
  | none =>
      rw [htimer] at ht
      cases ht
      rfl
  | some n =>
      have hset : (t.setTimer p (n - 1)).timer s = t.timer s := lookup_map_of_ne hp _
      rw [htimer] at ht
      simp only at ht
      split at ht
      next =>
        refine (timer_ops (fun o ho => ?_) ht).trans hset
        rw [List.mem_singleton.mp ho]
        exact hp
      next =>
        cases ht
        exact hset

theorem timer_visit (ht : t.visit onTimeout s = some t') :
    t'.timer s = (t.timer s).bind countDown := by
  rw [visit] at ht
  cases htimer : t.timer s with
  | none =>
      rw [htimer] at ht
      cases ht
      exact htimer
  | some n =>
      have hset : (t.setTimer s (n - 1)).timer s = some (n - 1) := timer_setTimer htimer
      rw [htimer] at ht
      simp only at ht
      rw [Option.bind_some, countDown]
      split at ht
      next hn =>
        rw [if_pos hn]
        obtain ⟨t₁, hclose, hnil⟩ := Option.bind_eq_some_iff.mp ht
        cases hnil
        cases op_does hclose with
        | close hs =>
            refine timer_eq_none fun hs' => ?_
            obtain ⟨e, he, hes⟩ := List.mem_map.mp hs'
            exact of_decide_eq_true (List.mem_filter.mp he).2 hes
        | again hs => exact absurd (mem_of_timer hset) hs
      next hn =>
        cases ht
        rw [if_neg hn]
        exact hset

theorem timer_visitAll_of_notMem {todo : List ι} (hs : s ∉ todo)
    (ht : t.visitAll onTimeout todo = some t') : t'.timer s = t.timer s := by
  induction todo generalizing t with
  | nil =>
      cases ht
      rfl
  | cons p rest ih =>
      rw [List.mem_cons, not_or] at hs
      obtain ⟨t₁, hvisit, ht⟩ := Option.bind_eq_some_iff.mp ht
      rw [ih hs.2 ht, timer_visit_of_ne (Ne.symm hs.1) hvisit]

theorem timer_visitAll {todo : List ι} (hnodup : todo.Nodup) (hs : s ∈ todo)
    (ht : t.visitAll onTimeout todo = some t') : t'.timer s = (t.timer s).bind countDown := by
  induction todo generalizing t with
  | nil => cases hs
  | cons p rest ih =>
      rw [List.nodup_cons] at hnodup
      obtain ⟨t₁, hvisit, ht⟩ := Option.bind_eq_some_iff.mp ht
      by_cases hp : p = s
      · subst hp
        rw [timer_visitAll_of_notMem hnodup.1 ht, timer_visit hvisit]
      · have hrest : s ∈ rest := (List.mem_cons.mp hs).resolve_left (Ne.symm hp)
        rw [ih hnodup.2 hrest ht, timer_visit_of_ne hp hvisit]

/-- A sweep lets each timer go on once. -/
theorem timer_sweep (hnodup : t.places.Nodup) (ht : t.sweep onTimeout = some t') :
    t'.timer s = (t.timer s).bind countDown := by
  by_cases hs : s ∈ t.places
  · exact timer_visitAll hnodup hs ht
  · rw [timer_visitAll_of_notMem hs ht, timer_eq_none hs]
    rfl

theorem timer_acceptAll {listen : ι} {clients : List (Client ι)}
    (hclients : ∀ c ∈ clients, c.place ≠ s ∧ ∀ o ∈ c.onOpen, o.place ≠ s)
    (ht : t.acceptAll listen clients = some t') : t'.timer s = t.timer s := by
  induction clients generalizing t with
  | nil =>
      cases ht
      rfl
  | cons c rest ih =>
      obtain ⟨hplace, hopen⟩ := hclients c List.mem_cons_self
      obtain ⟨t₁, hlink, ht⟩ := Option.bind_eq_some_iff.mp ht
      obtain ⟨t₂, hops, ht⟩ := Option.bind_eq_some_iff.mp ht
      have hsame : t₂.timer s = t.timer s := by
        rw [timer_ops hopen hops, timer_op (o := .link c.place c.memory) hplace hlink]
      split at ht
      next => rw [ih (fun c' hc' => hclients c' (List.mem_cons_of_mem c hc')) ht, hsame]
      next =>
        cases ht
        exact hsame

theorem timer_receive {readable : Option (Received ι)}
    (hp : p = s → (readable.map Received.closes).getD false = false)
    (hreadable : ∀ o ∈ (readable.map Received.ops).getD [], o.place ≠ s)
    (ht : t.receive p readable = some t') : t'.timer s = t.timer s := by
  match readable with
  | none =>
      cases ht
      rfl
  | some (.data onData) => exact timer_ops hreadable ht
  | some (.fin true onEnd) =>
      have hne : p ≠ s := fun h => Bool.noConfusion (hp h)
      exact timer_op (o := .close p) hne ht
  | some (.fin false onEnd) => exact timer_ops hreadable ht
  | some .failed =>
      have hne : p ≠ s := fun h => Bool.noConfusion (hp h)
      exact timer_op (o := .close p) hne ht
  | some .wouldBlock =>
      cases ht
      rfl

theorem timer_dispatchSocket {error : Bool} {writable : Option (List (SocketOp ι))}
    {readable : Option (Received ι)}
    (hp : p = s → error = false ∧ (readable.map Received.closes).getD false = false)
    (hwritable : ∀ o ∈ writable.getD [], o.place ≠ s)
    (hreadable : ∀ o ∈ (readable.map Received.ops).getD [], o.place ≠ s)
    (ht : t.dispatchSocket p error writable readable = some t') : t'.timer s = t.timer s := by
  cases error with
  | true =>
      have hne : p ≠ s := fun h => Bool.noConfusion (hp h).1
      exact timer_op (o := .close p) hne ht
  | false =>
      have hp' := fun h => (hp h).2
      cases writable with
      | none => exact timer_receive hp' hreadable ht
      | some onWritable =>
          obtain ⟨t₁, hops, ht⟩ := Option.bind_eq_some_iff.mp ht
          have hsame : t₁.timer s = t.timer s := timer_ops hwritable hops
          split at ht
          next => rw [timer_receive hp' hreadable ht, hsame]
          next =>
            cases ht
            exact hsame

/-- What is left of a timer after some sweeps. -/
def timeLeft (n sweeps : Nat) : Option Nat := if sweeps < n then some (n - sweeps) else none

theorem timeLeft_countDown {n k : Nat} : (timeLeft n k).bind countDown = timeLeft n (k + 1) := by
  by_cases hk : k < n
  · rw [timeLeft, timeLeft, if_pos hk, Option.bind_some, countDown]
    by_cases hlast : n - k = 1
    · rw [if_pos hlast, if_neg (by omega)]
    · rw [if_neg hlast, if_pos (by omega), Nat.sub_sub]
  · rw [timeLeft, timeLeft, if_neg hk, if_neg (by omega)]
    rfl

end SocketTable

open SocketTable

/-- While nobody does anything with a socket, its timer goes on with every sweep. -/
theorem Represents.timer_dispatchAll {l : UsLoop ι} {ready : List (ReadyPoll ι)} {n k : Nat}
    (h : Represents [] (ready.map ReadyPoll.poll) t l)
    (hsilent : ∀ r ∈ ready, r.LeavesAlone s) (ht : t.dispatchAll ready = some t')
    (hs : t.timer s = timeLeft n k) : t'.timer s = timeLeft n (k + sweeps ready) := by
  induction ready generalizing t l k with
  | nil =>
      cases ht
      exact hs
  | cons r rest ih =>
      have hrest : ∀ r' ∈ rest, r'.LeavesAlone s := fun r' hr' =>
        hsilent r' (List.mem_cons_of_mem r hr')
      obtain ⟨t₁, hdispatch, hrun⟩ := Option.bind_eq_some_iff.mp ht
      by_cases hseen : (t.seen r.poll).isSome = true
      · rw [if_pos hseen] at hdispatch
        obtain ⟨l₁, -, h₁, -⟩ := h.dispatch List.mem_cons_self hdispatch
        cases r with
        | sweepTimer onSocketTimeout =>
            obtain rfl : onSocketTimeout = onTimeout := hsilent _ List.mem_cons_self
            have hsweep := timer_sweep (s := s) h.shape.nodup_places hdispatch
            rw [hs, timeLeft_countDown] at hsweep
            rw [ih h₁.next hrest hrun hsweep, sweeps, Nat.add_right_comm]
            rfl
        | listenSocket p clients =>
            have hsame := timer_acceptAll (hsilent _ List.mem_cons_self) hdispatch
            exact ih h₁.next hrest hrun (hsame.trans hs)
        | socket p error writable readable =>
            obtain ⟨hp, hwritable, hreadable⟩ := hsilent _ List.mem_cons_self
            have hsame := timer_dispatchSocket hp hwritable hreadable hdispatch
            exact ih h₁.next hrest hrun (hsame.trans hs)
      · rw [if_neg hseen, Option.some.injEq] at hdispatch
        subst hdispatch
        cases r with
        | sweepTimer onSocketTimeout => exact absurd rfl hseen
        | listenSocket p clients => exact ih h.next hrest hrun hs
        | socket p error writable readable => exact ih h.next hrest hrun hs

theorem Represents.timer_iteration {l : UsLoop ι} {ready : List (ReadyPoll ι)} {n k : Nat}
    (h : Represents [] [] t l) (hsilent : ∀ r ∈ ready, r.LeavesAlone s)
    (ht : t.iteration ready = some t') (hs : t.timer s = timeLeft n k) :
    t'.timer s = timeLeft n (k + sweeps ready) := by
  rw [SocketTable.iteration] at ht
  split at ht
  next hready =>
    obtain ⟨t₁, hdispatch, rfl⟩ := Option.map_eq_some_iff.mp ht
    have htimer := (h.wait hready.1 hready.2).timer_dispatchAll hsilent hdispatch hs
    exact htimer
  next => cases ht

omit [DecidableEq ι] in
theorem sweeps_append (front back : List (ReadyPoll ι)) :
    sweeps (front ++ back) = sweeps front + sweeps back := by
  induction front with
  | nil => exact (Nat.zero_add _).symm
  | cons r rest ih =>
      cases r with
      | sweepTimer onSocketTimeout => rw [List.cons_append, sweeps, sweeps, ih, Nat.add_right_comm]
      | listenSocket p clients => exact ih
      | socket p error writable readable => exact ih

theorem timeLeft_eq_none {n k : Nat} (h : timeLeft n k = none) (m : Nat) :
    timeLeft n (k + m) = none := by
  rw [timeLeft] at h ⊢
  split at h
  next => cases h
  next hk => exact if_neg fun hm => hk (Nat.lt_of_le_of_lt (Nat.le_add_right k m) hm)

/-- Between the iterations nothing waits to be freed. -/
theorem loopRun_closed {iterations : List (List (ReadyPoll ι))} (hclosed : t.closed = [])
    (ht : t.loopRun iterations = some t') : t'.closed = [] := by
  induction iterations generalizing t with
  | nil =>
      cases ht
      exact hclosed
  | cons ready rest ih =>
      rw [SocketTable.loopRun] at ht
      split at ht
      next =>
        cases ht
        exact hclosed
      next =>
        obtain ⟨t₁, hiteration, hrun⟩ := Option.bind_eq_some_iff.mp ht
        refine ih ?_ hrun
        rw [SocketTable.iteration] at hiteration
        split at hiteration
        next =>
          obtain ⟨t₂, -, rfl⟩ := Option.map_eq_some_iff.mp hiteration
          rfl
        next => cases hiteration

theorem Represents.timer_loopRun {l : UsLoop ι} {iterations : List (List (ReadyPoll ι))}
    {n k : Nat} (h : Represents [] [] t l)
    (hsilent : ∀ ready ∈ iterations, ∀ r ∈ ready, r.LeavesAlone s)
    (ht : t.loopRun iterations = some t') (hs : t.timer s = timeLeft n k) :
    t'.timer s = timeLeft n (k + sweeps iterations.flatten) := by
  induction iterations generalizing t l k with
  | nil =>
      cases ht
      exact hs
  | cons ready rest ih =>
      rw [SocketTable.loopRun] at ht
      split at ht
      next hend =>
        -- there are no sockets any more
        rw [Option.some.injEq] at ht
        subst ht
        have hnone : t.timer s = none := by
          rw [SocketTable.timer, hend.1]
          rfl
        rw [hnone, timeLeft_eq_none (hs.symm.trans hnone)]
      next =>
        obtain ⟨t₁, hiteration, hrun⟩ := Option.bind_eq_some_iff.mp ht
        have hs₁ := h.timer_iteration (hsilent ready List.mem_cons_self) hiteration hs
        obtain ⟨l₁, -, h₁, -⟩ := h.iteration hiteration
        have hrest : ∀ ready' ∈ rest, ∀ r ∈ ready', r.LeavesAlone s := fun ready' hready' =>
          hsilent ready' (List.mem_cons_of_mem ready hready')
        rw [List.flatten_cons, sweeps_append, ← Nat.add_assoc]
        exact ih h₁ hrest hrun hs₁

/-- What becomes of a socket whose timer only the sweeps touch. -/
theorem Represents.untouched {l : UsLoop ι} {iterations : List (List (ReadyPoll ι))} {n : Nat}
    (h : Represents [] [] t l) (hclosed : t.closed = []) (hn : 0 < n) (hs : t.timer s = some n)
    (hsilent : ∀ ready ∈ iterations, ∀ r ∈ ready, r.LeavesAlone s)
    (hrun : t.loopRun iterations = some t') :
    ∃ l' bound, (∀ fuel, bound ≤ fuel → l.loopRun fuel iterations = some l') ∧
      if sweeps iterations.flatten < n then
        ∃ x, l'.cell s = some x ∧ x.timeout = n - sweeps iterations.flatten
      else l'.cell s = none := by
  obtain ⟨l', bound, h', hl'⟩ := h.loopRun hrun
  have hstart : t.timer s = timeLeft n 0 := by
    rw [hs, timeLeft, if_pos hn]
    rfl
  have htimer := h.timer_loopRun hsilent hrun hstart
  rw [Nat.zero_add, timeLeft] at htimer
  refine ⟨l', bound, hl', ?_⟩
  split
  next hleft =>
    rw [if_pos hleft] at htimer
    obtain ⟨x, -, -, hx, htimer', -, -⟩ := h'.shape.node (mem_of_timer htimer)
    exact ⟨x, hx, Option.some.inj (htimer'.symm.trans htimer)⟩
  next hleft =>
    rw [if_neg hleft] at htimer
    have hgone : ¬(s ∈ t'.places ∨ s ∈ t'.closed) := by
      rintro (hmem | hmem)
      · obtain ⟨x, -, -, -, htimer', -, -⟩ := h'.shape.node hmem
        rw [htimer] at htimer'
        cases htimer'
      · rw [loopRun_closed hclosed hrun] at hmem
        cases hmem
    rw [← h'.shape.cell, Option.not_isSome_iff_eq_none] at hgone
    exact hgone

/-- A client of a running server of which nothing is heard that closes its socket or sets its
timer: as long as there have been fewer sweeps than the timer counts, its socket is open, and
after that it is closed and freed, whatever the other sockets do. -/
theorem silent_client_closed (listen : ι) (memory : UsSocket ι)
    {front iterations : List (List (ReadyPoll ι))} {n : Nat} (hn : 0 < n)
    (hfront : (listening listen).loopRun front = some t) (hs : t.timer s = some n)
    (hsilent : ∀ ready ∈ iterations, ∀ r ∈ ready, r.LeavesAlone s)
    (hrun : t.loopRun iterations = some t') :
    ∃ l l' bound,
      (∀ fuel, bound ≤ fuel →
        (UsLoop.listening listen memory).bind (UsLoop.loopRun fuel front) = some l ∧
          l.loopRun fuel iterations = some l') ∧
      if sweeps iterations.flatten < n then
        ∃ x, l'.cell s = some x ∧ x.timeout = n - sweeps iterations.flatten
      else l'.cell s = none := by
  obtain ⟨l₀, hl₀, h₀⟩ := listening_represents listen memory
  obtain ⟨l, bound, h, hl⟩ := h₀.loopRun hfront
  obtain ⟨l', bound', hl', hend⟩ := h.untouched (loopRun_closed rfl hfront) hn hs hsilent hrun
  refine ⟨l, l', max bound bound', fun fuel hfuel => ⟨?_, ?_⟩, hend⟩
  · rw [hl₀, Option.bind_some]
    exact hl fuel (Nat.max_le.mp hfuel).1
  · exact hl' fuel (Nat.max_le.mp hfuel).2

/-- What a place may hold before. -/
def junk : UsSocket Nat := ⟨.socket 7, some 9, 5⟩

/-- Two clients are accepted; of the first one, only data is heard that does not change its
timer. -/
theorem silent_client_closed_first :
    ∃ l l' bound,
      (∀ fuel, bound ≤ fuel →
        (UsLoop.listening 0 junk).bind (UsLoop.loopRun fuel
          [[.listenSocket 0 [⟨1, junk, onOpen 1⟩, ⟨2, junk, onOpen 2⟩]]]) = some l ∧
        l.loopRun fuel [[.sweepTimer onTimeout],
          [.socket 2 false none (some (.data [.timeout 2 10])), .sweepTimer onTimeout],
          [.socket 1 false none (some (.data [])), .sweepTimer onTimeout]] =
            some l') ∧
      l'.cell 1 = none :=
  silent_client_closed 0 junk (s := 1) (n := 3) (t := ⟨[(2, 3), (1, 3), (0, 0)], []⟩)
    (by decide) (by decide) (by decide)
    (by simp [ReadyPoll.LeavesAlone, Received.ops, Received.closes, SocketOp.place])
    (by decide : SocketTable.loopRun _ _ = some ⟨[(2, 1), (0, 0)], []⟩)

end AutoExpo.Sockets
