import AutoExpo.Sockets.Sweep

/-!
# The event loop

`us_loop_run` over epoll: the ready polls of an iteration are dispatched in order, and
then the sockets closed meanwhile are freed. Callbacks may open and close any sockets.

Nothing is looked at that is not there, and no callback is called for a socket that is
closed (`loop_run_refines`).
-/

namespace AutoExpo.Sockets

open Kit NodeType

/-- A client that is accepted, and what `on_open` does. -/
structure Client (ι : Type*) where
  place : ι
  memory : UsSocket ι
  onOpen : List (SocketOp ι)

/-- What is received, and what the callbacks then do: `on_data`, or `on_end`, if the socket has
not been shut down. -/
inductive Received (ι : Type*)
  | data (onData : List (SocketOp ι))
  | fin (isShutDown : Bool) (onEnd : List (SocketOp ι))
  | failed
  | wouldBlock

/-- A ready poll, its events, and what the callbacks then do. The handlers of a sweep may do what
those of another do not. -/
inductive ReadyPoll (ι : Type*)
  | sweepTimer (onSocketTimeout : ι → List (SocketOp ι))
  | listenSocket (s : ι) (clients : List (Client ι))
  | socket (s : ι) (error : Bool) (writable : Option (List (SocketOp ι)))
      (readable : Option (Received ι))

def ReadyPoll.poll {ι : Type*} : ReadyPoll ι → Poll ι
  | .sweepTimer _ => .sweepTimer
  | .listenSocket s _ => .socket s
  | .socket s _ _ _ => .socket s

variable {ι : Type*} [DecidableEq ι]

namespace UsLoop

/-- The accept loop of a listening socket. -/
def acceptAll (listen : ι) : List (Client ι) → UsLoop ι → Option (UsLoop ι)
  | [], l => some l
  | c :: rest, l =>
      ((l.createPoll c.place c.memory).contextLink c.place).bind fun l =>
        (l.ops c.onOpen).bind fun l =>
          -- exit accept loop if listen socket was closed in on_open handler
          (l.socketIsClosed listen).bind fun closed =>
            if closed then some l else acceptAll listen rest l

def receive (s : ι) (readable : Option (Received ι)) (l : UsLoop ι) : Option (UsLoop ι) :=
  match readable with
  | none => some l
  | some (.data onData) => l.ops onData
  | some (.fin isShutDown onEnd) => if isShutDown then l.socketClose s else l.ops onEnd
  | some .failed => l.socketClose s
  | some .wouldBlock => some l

/-- `us_internal_dispatch_ready_poll` for a socket. -/
def dispatchSocket (s : ι) (error : Bool) (writable : Option (List (SocketOp ι)))
    (readable : Option (Received ι)) (l : UsLoop ι) : Option (UsLoop ι) :=
  if error then l.socketClose s
  else match writable with
    | none => l.receive s readable
    | some onWritable =>
        (l.ops onWritable).bind fun l =>
          (l.socketIsClosed s).bind fun closed =>
            if closed then some l else l.receive s readable

/-- `us_internal_dispatch_ready_poll`. The poll of a socket is looked at for its type and
events. -/
def dispatchReadyPoll (fuel : Nat) (r : ReadyPoll ι) (l : UsLoop ι) : Option (UsLoop ι) :=
  match r with
  | .sweepTimer onSocketTimeout => l.timerSweep onSocketTimeout fuel
  | .listenSocket s clients => (l.cell s).bind fun _ => l.acceptAll s clients
  | .socket s error writable readable =>
      (l.cell s).bind fun _ => l.dispatchSocket s error writable readable

/-- Any ready poll marked with nullptr will be ignored. -/
def dispatchAll (fuel : Nat) : List (ReadyPoll ι) → UsLoop ι → Option (UsLoop ι)
  | [], l => some l
  | r :: rest, l =>
      (if (l.readyPolls.headD none).isSome then l.dispatchReadyPoll fuel r else some l).bind
        fun l =>
          dispatchAll fuel rest { l with readyPolls := l.readyPolls.tail }

/-- An iteration of `us_loop_run`, where `epoll_wait` returns `ready`. -/
def iteration (fuel : Nat) (ready : List (ReadyPoll ι)) (l : UsLoop ι) : Option (UsLoop ι) :=
  let l := { l with readyPolls := ready.map fun r : ReadyPoll ι => some r.poll }
  (l.dispatchAll fuel ready).bind (freeClosedSockets fuel)

/-- `us_loop_run` -/
def loopRun (fuel : Nat) : List (List (ReadyPoll ι)) → UsLoop ι → Option (UsLoop ι)
  | [], l => some l
  | ready :: rest, l =>
      if l.numPolls = 0 then some l
      else (l.iteration fuel ready).bind (loopRun fuel rest)

def empty : UsLoop ι where
  cell _ := none
  numPolls := 0
  head := none
  iterator := none
  closedHead := none
  readyPolls := []

/-- A loop with one socket, which listens. -/
def listening (listen : ι) (memory : UsSocket ι) : Option (UsLoop ι) :=
  (empty.createPoll listen memory).contextLink listen

end UsLoop

/-! ## What the loop is for -/

namespace SocketTable

def acceptAll (listen : ι) : List (Client ι) → SocketTable ι → Option (SocketTable ι)
  | [], t => some t
  | c :: rest, t =>
      (t.op (.link c.place c.memory)).bind fun t =>
        (t.ops c.onOpen).bind fun t =>
          if listen ∈ t.places then acceptAll listen rest t else some t

def receive (s : ι) (readable : Option (Received ι)) (t : SocketTable ι) :
    Option (SocketTable ι) :=
  match readable with
  | none => some t
  | some (.data onData) => t.ops onData
  | some (.fin isShutDown onEnd) => if isShutDown then t.op (.close s) else t.ops onEnd
  | some .failed => t.op (.close s)
  | some .wouldBlock => some t

def dispatchSocket (s : ι) (error : Bool) (writable : Option (List (SocketOp ι)))
    (readable : Option (Received ι)) (t : SocketTable ι) : Option (SocketTable ι) :=
  if error then t.op (.close s)
  else match writable with
    | none => t.receive s readable
    | some onWritable =>
        (t.ops onWritable).bind fun t =>
          if s ∈ t.places then t.receive s readable else some t

def dispatch (r : ReadyPoll ι) (t : SocketTable ι) : Option (SocketTable ι) :=
  match r with
  | .sweepTimer onSocketTimeout => t.sweep onSocketTimeout
  | .listenSocket s clients => t.acceptAll s clients
  | .socket s error writable readable => t.dispatchSocket s error writable readable

/-- What is ready is dispatched, unless it has been closed meanwhile. -/
def dispatchAll : List (ReadyPoll ι) → SocketTable ι → Option (SocketTable ι)
  | [], t => some t
  | r :: rest, t =>
      (if (t.seen r.poll).isSome then t.dispatch r else some t).bind (dispatchAll rest)

/-- `none` if what is ready is not open, or is ready twice. -/
def iteration (ready : List (ReadyPoll ι)) (t : SocketTable ι) : Option (SocketTable ι) :=
  if (ready.map ReadyPoll.poll).Nodup ∧ ∀ p ∈ ready.map ReadyPoll.poll, (t.seen p).isSome then
    (t.dispatchAll ready).map fun t => { t with closed := [] }
  else none

/-- The loop ends when there are no sockets. -/
def loopRun : List (List (ReadyPoll ι)) → SocketTable ι → Option (SocketTable ι)
  | [], t => some t
  | ready :: rest, t =>
      if t.live = [] ∧ t.closed = [] then some t
      else (t.iteration ready).bind (loopRun rest)

def listening (listen : ι) : SocketTable ι where
  live := [(listen, 0)]
  closed := []

end SocketTable

/-! ## The loop keeps the table -/

variable {t t' : SocketTable ι} {l : UsLoop ι} {s : ι} {ready : List (Poll ι)}

/-- A socket that is there stays there until the end of the iteration. -/
def Known (s : ι) (t : SocketTable ι) : Prop := s ∈ t.places ∨ s ∈ t.closed

theorem Known.op (h : Known s t) {o : SocketOp ι} (ht : t.op o = some t') : Known s t' := by
  cases SocketTable.op_does ht with
  | link memory hnew => exact h.imp_left (List.mem_cons_of_mem _)
  | @close p hp =>
      by_cases hsp : s = p
      · exact .inr (hsp ▸ List.mem_cons_self)
      · refine h.imp (fun hs => ?_) (List.mem_cons_of_mem p)
        obtain ⟨e, he, rfl⟩ := List.mem_map.mp hs
        exact List.mem_map_of_mem (List.mem_filter.mpr ⟨he, decide_eq_true hsp⟩)
  | again => exact h
  | timeout seconds hs =>
      rw [Known, SocketTable.places_setTimer]
      exact h

theorem Known.ops (h : Known s t) {os : List (SocketOp ι)} (ht : t.ops os = some t') :
    Known s t' := by
  induction os generalizing t with
  | nil =>
      cases ht
      exact h
  | cons o os ih =>
      obtain ⟨t₁, ho, hos⟩ := Option.bind_eq_some_iff.mp ht
      exact ih (h.op ho) hos

theorem Represents.acceptAll (h : Represents [] ready t l) {listen : ι} (hlisten : Known listen t)
    {clients : List (Client ι)} (ht : t.acceptAll listen clients = some t') :
    ∃ l', l.acceptAll listen clients = some l' ∧ Represents [] ready t' l' := by
  induction clients generalizing t l with
  | nil =>
      cases ht
      exact ⟨l, rfl, h⟩
  | cons c rest ih =>
      obtain ⟨t₁, hlink, ht⟩ := Option.bind_eq_some_iff.mp ht
      obtain ⟨t₂, hopen, ht⟩ := Option.bind_eq_some_iff.mp ht
      obtain ⟨l₁, hl₁, h₁⟩ := h.op hlink
      obtain ⟨l₂, hl₂, h₂⟩ := h₁.ops hopen
      have hlisten₂ : Known listen t₂ := (hlisten.op hlink).ops hopen
      have hl₁' : (l.createPoll c.place c.memory).contextLink c.place = some l₁ := hl₁
      rw [UsLoop.acceptAll, hl₁', Option.bind_some, hl₂, Option.bind_some,
        h₂.shape.socketIsClosed hlisten₂, Option.bind_some]
      by_cases hopen' : listen ∈ t₂.places
      · rw [if_pos hopen'] at ht
        rw [if_neg (by simpa using hopen')]
        exact ih h₂ hlisten₂ ht
      · rw [if_neg hopen', Option.some.injEq] at ht
        subst ht
        rw [if_pos (by simpa using hopen')]
        exact ⟨l₂, rfl, h₂⟩

theorem Represents.receive (h : Represents [] ready t l) {readable : Option (Received ι)}
    (ht : t.receive s readable = some t') :
    ∃ l', l.receive s readable = some l' ∧ Represents [] ready t' l' := by
  match readable with
  | none =>
      cases ht
      exact ⟨l, rfl, h⟩
  | some (.data onData) => exact h.ops ht
  | some (.fin true onEnd) => exact h.op (o := .close s) ht
  | some (.fin false onEnd) => exact h.ops ht
  | some .failed => exact h.op (o := .close s) ht
  | some .wouldBlock =>
      cases ht
      exact ⟨l, rfl, h⟩

theorem Represents.dispatchSocket (h : Represents [] ready t l) (hs : Known s t) {error : Bool}
    {writable : Option (List (SocketOp ι))} {readable : Option (Received ι)}
    (ht : t.dispatchSocket s error writable readable = some t') :
    ∃ l', l.dispatchSocket s error writable readable = some l' ∧ Represents [] ready t' l' := by
  cases error with
  | true => exact h.op (o := .close s) ht
  | false =>
      cases writable with
      | none => exact h.receive ht
      | some onWritable =>
          obtain ⟨t₁, hops, ht⟩ := Option.bind_eq_some_iff.mp ht
          obtain ⟨l₁, hl₁, h₁⟩ := h.ops hops
          show ∃ l', (l.ops onWritable).bind _ = some l' ∧ _
          rw [hl₁, Option.bind_some, h₁.shape.socketIsClosed (hs.ops hops), Option.bind_some]
          by_cases hopen : s ∈ t₁.places
          · rw [if_pos hopen] at ht
            rw [if_neg (by simpa using hopen)]
            exact h₁.receive ht
          · rw [if_neg hopen, Option.some.injEq] at ht
            subst ht
            rw [if_pos (by simpa using hopen)]
            exact ⟨l₁, rfl, h₁⟩

/-- A ready poll is dispatched. The sweep needs as many turns as there are sockets. -/
theorem Represents.dispatch (h : Represents [] ready t l) {r : ReadyPoll ι}
    (hr : r.poll ∈ ready) (ht : t.dispatch r = some t') :
    ∃ l' bound, Represents [] ready t' l' ∧ ∀ fuel, bound ≤ fuel →
      l.dispatchReadyPoll fuel r = some l' := by
  cases r with
  | sweepTimer onSocketTimeout =>
      obtain ⟨l', h', hall⟩ := h.timerSweep ht
      exact ⟨l', t.places.length + 1, h', fun fuel hfuel => hall fuel hfuel⟩
  | listenSocket s clients =>
      have hs : Known s t := h.pending.known s hr
      obtain ⟨l', hl', h'⟩ := h.acceptAll hs ht
      obtain ⟨x, hx⟩ := Option.isSome_iff_exists.mp ((h.shape.cell s).mpr hs)
      refine ⟨l', 0, h', fun fuel _ => ?_⟩
      rw [UsLoop.dispatchReadyPoll, hx]
      exact hl'
  | socket s error writable readable =>
      have hs : Known s t := h.pending.known s hr
      obtain ⟨l', hl', h'⟩ := h.dispatchSocket hs ht
      obtain ⟨x, hx⟩ := Option.isSome_iff_exists.mp ((h.shape.cell s).mpr hs)
      refine ⟨l', 0, h', fun fuel _ => ?_⟩
      rw [UsLoop.dispatchReadyPoll, hx]
      exact hl'

theorem Represents.next {p : Poll ι} (h : Represents [] (p :: ready) t l) :
    Represents [] ready t { l with readyPolls := l.readyPolls.tail } := by
  refine ⟨h.shape.keep _ _, h.sweeping.keep (.refl t) rfl, ⟨?_, fun s hs => ?_, ?_⟩⟩
  · exact (List.nodup_cons.mp h.pending.nodup).2
  · exact h.pending.known s (List.mem_cons_of_mem p hs)
  · rw [h.pending.readyPolls]
    rfl

theorem Represents.dispatchAll {ready : List (ReadyPoll ι)}
    (h : Represents [] (ready.map ReadyPoll.poll) t l)
    (ht : t.dispatchAll ready = some t') :
    ∃ l' bound, Represents [] [] t' l' ∧ ∀ fuel, bound ≤ fuel →
      l.dispatchAll fuel ready = some l' := by
  induction ready generalizing t l with
  | nil =>
      cases ht
      exact ⟨l, 0, h, fun _ _ => rfl⟩
  | cons r rest ih =>
      have hhead : l.readyPolls.headD none = t.seen r.poll := by
        rw [h.pending.readyPolls]
        rfl
      obtain ⟨t₁, hdispatch, ht⟩ := Option.bind_eq_some_iff.mp ht
      by_cases hseen : (t.seen r.poll).isSome = true
      · rw [if_pos hseen] at hdispatch
        obtain ⟨l₁, bound₁, h₁, hl₁⟩ := h.dispatch List.mem_cons_self hdispatch
        obtain ⟨l', bound, h', hl'⟩ := ih h₁.next ht
        refine ⟨l', max bound₁ bound, h', fun fuel hfuel => ?_⟩
        rw [UsLoop.dispatchAll, hhead, if_pos hseen, hl₁ fuel (Nat.max_le.mp hfuel).1,
          Option.bind_some]
        exact hl' fuel (Nat.max_le.mp hfuel).2
      · rw [if_neg hseen, Option.some.injEq] at hdispatch
        subst hdispatch
        obtain ⟨l', bound, h', hl'⟩ := ih h.next ht
        refine ⟨l', bound, h', fun fuel hfuel => ?_⟩
        rw [UsLoop.dispatchAll, hhead, if_neg hseen, Option.bind_some]
        exact hl' fuel hfuel

/-- What `epoll_wait` returns. -/
theorem Represents.wait (h : Represents [] [] t l) {ready : List (ReadyPoll ι)}
    (hnodup : (ready.map ReadyPoll.poll).Nodup)
    (hopen : ∀ p ∈ ready.map ReadyPoll.poll, (t.seen p).isSome = true) :
    Represents [] (ready.map ReadyPoll.poll) t
      { l with readyPolls := ready.map fun r : ReadyPoll ι => some r.poll } := by
  have hseen : ∀ p ∈ ready.map ReadyPoll.poll, t.seen p = some p := by
    intro p hp
    obtain ⟨q, hq⟩ := Option.isSome_iff_exists.mp (hopen p hp)
    rw [hq, SocketTable.seen_eq_some hq]
  refine ⟨h.shape.keep _ _, h.sweeping.keep (.refl t) rfl, ⟨hnodup, fun s hs => ?_, ?_⟩⟩
  · have hs' := hseen _ hs
    rw [SocketTable.seen] at hs'
    split at hs'
    next hlive => exact .inl hlive
    next => cases hs'
  · show (ready.map fun r : ReadyPoll ι => some r.poll) = _
    rw [List.map_congr_left hseen, List.map_map]
    rfl

theorem Represents.iteration (h : Represents [] [] t l) {ready : List (ReadyPoll ι)}
    (ht : t.iteration ready = some t') :
    ∃ l' bound, Represents [] [] t' l' ∧ ∀ fuel, bound ≤ fuel →
      l.iteration fuel ready = some l' := by
  rw [SocketTable.iteration] at ht
  split at ht
  next hready =>
    obtain ⟨t₁, hdispatch, rfl⟩ := Option.map_eq_some_iff.mp ht
    obtain ⟨l₁, bound, h₁, hl₁⟩ := (h.wait hready.1 hready.2).dispatchAll hdispatch
    obtain ⟨l', h', hl'⟩ := h₁.freeClosedSockets
    refine ⟨l', max bound t₁.closed.length, h', fun fuel hfuel => ?_⟩
    rw [UsLoop.iteration, hl₁ fuel (Nat.max_le.mp hfuel).1, Option.bind_some]
    exact hl' fuel (Nat.max_le.mp hfuel).2
  next => cases ht

theorem Represents.numPolls_eq_zero {todo : List ι} (h : Represents todo ready t l) :
    l.numPolls = 0 ↔ t.live = [] ∧ t.closed = [] := by
  rw [h.shape.numPolls, Nat.add_eq_zero_iff, List.length_eq_zero_iff, List.length_eq_zero_iff]

theorem Represents.loopRun (h : Represents [] [] t l) {iterations : List (List (ReadyPoll ι))}
    (ht : t.loopRun iterations = some t') :
    ∃ l' bound, Represents [] [] t' l' ∧ ∀ fuel, bound ≤ fuel →
      l.loopRun fuel iterations = some l' := by
  induction iterations generalizing t l with
  | nil =>
      cases ht
      exact ⟨l, 0, h, fun _ _ => rfl⟩
  | cons ready rest ih =>
      rw [SocketTable.loopRun] at ht
      split at ht
      next hend =>
        cases ht
        refine ⟨l, 0, h, fun fuel _ => ?_⟩
        rw [UsLoop.loopRun, if_pos (h.numPolls_eq_zero.mpr hend)]
      next hend =>
        obtain ⟨t₁, hiteration, ht⟩ := Option.bind_eq_some_iff.mp ht
        obtain ⟨l₁, bound₁, h₁, hl₁⟩ := h.iteration hiteration
        obtain ⟨l', bound, h', hl'⟩ := ih h₁ ht
        refine ⟨l', max bound₁ bound, h', fun fuel hfuel => ?_⟩
        rw [UsLoop.loopRun, if_neg fun hzero => hend (h.numPolls_eq_zero.mp hzero),
          hl₁ fuel (Nat.max_le.mp hfuel).1, Option.bind_some]
        exact hl' fuel (Nat.max_le.mp hfuel).2

theorem listening_represents (listen : ι) (memory : UsSocket ι) :
    ∃ l, UsLoop.listening listen memory = some l ∧
      Represents [] [] (.listening listen) l := by
  have hempty : Represents [] [] { live := [], closed := [] } (UsLoop.empty (ι := ι)) := by
    refine ⟨⟨trivial, rfl, rfl, List.nodup_nil, fun s => ?_, rfl⟩, ⟨List.nil_suffix, ?_, rfl⟩,
      ⟨List.nodup_nil, ?_, rfl⟩⟩
    · simp [UsLoop.empty, SocketTable.places]
    · exact fun s hs => absurd hs List.not_mem_nil
    · exact fun s hs => absurd hs List.not_mem_nil
  exact hempty.op (o := .link listen memory) rfl

/-- In every run of the loop, whatever its callbacks and timeout handlers open, close and time
out, themselves or others, as long as they do not use what has been freed: the loop looks at
nothing that is not there, drops the events of sockets that are closed meanwhile, visits in a
sweep the sockets that are there, each once, frees what is closed, and ends when there are no
sockets. Its memory holds what is open then. -/
theorem loop_run_refines (listen : ι) (memory : UsSocket ι) {iterations : List (List (ReadyPoll ι))}
    (ht : (SocketTable.listening listen).loopRun iterations = some t) :
    ∃ l bound, Represents [] [] t l ∧ ∀ fuel, bound ≤ fuel →
      (UsLoop.listening listen memory).bind (UsLoop.loopRun fuel iterations) = some l := by
  obtain ⟨l₀, hl₀, h₀⟩ := listening_represents listen memory
  obtain ⟨l, bound, h, hl⟩ := h₀.loopRun ht
  refine ⟨l, bound, h, fun fuel hfuel => ?_⟩
  rw [hl₀, Option.bind_some]
  exact hl fuel hfuel

/-- Of three clients the newest times out, and its handler closes the next one, of which the
sweep has just come to hold the place; the next one is ready in vain. A place is used again. -/
def closingRun : List (List (ReadyPoll Nat)) :=
  [[.listenSocket 0 [⟨1, ⟨.context, some 2, 7⟩, [.timeout 1 10]⟩,
      ⟨2, ⟨.null, none, 0⟩, [.timeout 2 4]⟩, ⟨3, ⟨.null, none, 0⟩, [.timeout 3 4]⟩]],
   [.sweepTimer fun s => [.close s, .close 2],
    .socket 2 false none (some (.data [.timeout 1 0]))],
   [.listenSocket 0 [⟨3, ⟨.context, none, 0⟩, [.timeout 3 10]⟩]]]

theorem loop_run_refines_closingRun :
    ∃ l bound, Represents [] [] ⟨[(3, 3), (1, 2), (0, 0)], []⟩ l ∧ ∀ fuel, bound ≤ fuel →
      (UsLoop.listening 0 ⟨.null, none, 0⟩).bind (UsLoop.loopRun fuel closingRun) = some l :=
  loop_run_refines 0 _ (by decide)

end AutoExpo.Sockets
