import Mathlib.Logic.Function.Basic
import Mathlib.Data.List.Basic

/-!
# The sockets of the loop

uSockets, on which the web server runs, keeps the open sockets of a context in a list
that is threaded through the sockets themselves, with an iterator for the sweep of
their timers. A socket that is closed goes to a second list, and its memory is freed
at the end of the iteration of the loop.

`UsLoop` is the code: whatever looks at a socket that is not there is `none`.
`SocketTable` says what it is for.

The loop is uSockets' own, over epoll (`epoll_kqueue.c`). `uglybuild.sh` builds it over
libuv, which keeps the ready polls to itself; the lists and the sweep (`loop.c`,
`context.c`, `socket.c`) are the same there.
-/

namespace AutoExpo.Sockets

/-- What `prev` may be: the context's own address marks a closed socket. -/
inductive Prev (ι : Type*)
  | null
  | socket (s : ι)
  | context
  deriving DecidableEq

def Prev.of {ι : Type*} : Option ι → Prev ι
  | none => .null
  | some s => .socket s

/-- `timeout` counts sweeps. -/
structure UsSocket (ι : Type*) where
  prev : Prev ι
  next : Option ι
  timeout : Nat
  deriving DecidableEq

/-- `LIBUS_TIMEOUT_GRANULARITY`, in seconds. -/
def TIMEOUT_GRANULARITY : Nat := 4

/-- The sweeps of `us_socket_timeout`, rounded, for seconds that fit 16 bits. The quotient of
floats is exact. -/
def timeoutSweeps (seconds : UInt16) : Nat :=
  if seconds = 0 then 0
  else max 1 ((2 * seconds.toNat + TIMEOUT_GRANULARITY) / (2 * TIMEOUT_GRANULARITY))

/-- The `unsigned short` can hold them. -/
theorem timeoutSweeps_lt (seconds : UInt16) : timeoutSweeps seconds < 65536 := by
  have hseconds := seconds.toNat_lt
  rw [timeoutSweeps]
  simp only [TIMEOUT_GRANULARITY]
  split
  · decide
  · omega

inductive Poll (ι : Type*)
  | socket (s : ι)
  | sweepTimer
  deriving DecidableEq

/-- The loop, with its one context. `cell` is the memory of the sockets, and `readyPolls` is what
is left of the ready polls, from the current one on. -/
structure UsLoop (ι : Type*) where
  cell : ι → Option (UsSocket ι)
  numPolls : Nat
  head : Option ι
  iterator : Option ι
  closedHead : Option ι
  readyPolls : List (Option (Poll ι))

/-- What callbacks do with sockets. A socket that is opened is first put at some place, where the
memory is what it was before. -/
inductive SocketOp (ι : Type*)
  | link (s : ι) (memory : UsSocket ι)
  | close (s : ι)
  | timeout (s : ι) (seconds : UInt16)
  deriving DecidableEq

namespace UsLoop

variable {ι : Type*} [DecidableEq ι]

def modify (s : ι) (f : UsSocket ι → UsSocket ι) (l : UsLoop ι) : Option (UsLoop ι) :=
  (l.cell s).map fun x => { l with cell := Function.update l.cell s (some (f x)) }

/-- `us_create_poll` -/
def createPoll (s : ι) (memory : UsSocket ι) (l : UsLoop ι) : UsLoop ι :=
  { l with cell := Function.update l.cell s (some memory), numPolls := l.numPolls + 1 }

/-- `us_poll_free` -/
def pollFree (s : ι) (l : UsLoop ι) : UsLoop ι :=
  { l with cell := Function.update l.cell s none, numPolls := l.numPolls - 1 }

/-- What is before a socket goes on at `next`. -/
def setNextOf (prev : Prev ι) (next : Option ι) (l : UsLoop ι) : Option (UsLoop ι) :=
  match prev with
  | .null => some { l with head := next }
  | .socket p => l.modify p fun x => { x with next := next }
  | .context => none

def setPrevOf (next : Option ι) (prev : Prev ι) (l : UsLoop ι) : Option (UsLoop ι) :=
  match next with
  | none => some l
  | some n => l.modify n fun x => { x with prev := prev }

/-- `us_internal_socket_context_link` -/
def contextLink (s : ι) (l : UsLoop ι) : Option (UsLoop ι) := do
  let l ← l.modify s fun x => { x with timeout := 0, next := l.head, prev := .null }
  let l ← l.setPrevOf l.head (.socket s)
  some { l with head := some s }

/-- `us_internal_socket_context_unlink` -/
def contextUnlink (s : ι) (l : UsLoop ι) : Option (UsLoop ι) := do
  let x ← l.cell s
  -- the iterator of the sweep
  let l := if l.iterator = some s then { l with iterator := x.next } else l
  if x.prev = .of x.next then some { l with head := none }
  else
    let l ← l.setNextOf x.prev x.next
    l.setPrevOf x.next x.prev

/-- `us_internal_loop_update_pending_ready_polls`; a poll is ready but once. -/
def updatePendingReadyPolls (s : ι) (l : UsLoop ι) : UsLoop ι :=
  { l with readyPolls := l.readyPolls.replace (some (.socket s)) none }

def socketIsClosed (s : ι) (l : UsLoop ι) : Option Bool :=
  (l.cell s).map fun x => decide (x.prev = .context)

/-- `us_socket_close`; the context's `on_close` leaves the list alone. -/
def socketClose (s : ι) (l : UsLoop ι) : Option (UsLoop ι) :=
  (l.socketIsClosed s).bind fun closed =>
    if closed then some l
    else do
      let l ← l.contextUnlink s
      let l := l.updatePendingReadyPolls s
      let l ← l.modify s fun x => { x with next := l.closedHead }
      let l := { l with closedHead := some s }
      l.modify s fun x => { x with prev := .context }

/-- `us_socket_timeout` -/
def socketTimeout (s : ι) (seconds : UInt16) (l : UsLoop ι) : Option (UsLoop ι) :=
  l.modify s fun x => { x with timeout := timeoutSweeps seconds }

def op : SocketOp ι → UsLoop ι → Option (UsLoop ι)
  | .link s memory, l => (l.createPoll s memory).contextLink s
  | .close s, l => l.socketClose s
  | .timeout s seconds, l => l.socketTimeout s seconds

def ops : List (SocketOp ι) → UsLoop ι → Option (UsLoop ι)
  | [], l => some l
  | o :: rest, l => (l.op o).bind (ops rest)

/-- A turn of the sweep. A timer that is not set stays so. -/
def sweepTurn (onSocketTimeout : ι → List (SocketOp ι)) (s : ι) (l : UsLoop ι) :
    Option (UsLoop ι) := do
  let x ← l.cell s
  let l ← l.modify s fun x => { x with timeout := x.timeout - 1 }
  if x.timeout = 1 then
    let l ← l.ops (onSocketTimeout s)
    -- check for unlink / link
    if l.iterator = some s then
      let x ← l.cell s
      some { l with iterator := x.next }
    else some l
  else some { l with iterator := x.next }

def sweepFrom (onSocketTimeout : ι → List (SocketOp ι)) : Nat → UsLoop ι → Option (UsLoop ι)
  | 0, _ => none
  | fuel + 1, l =>
      match l.iterator with
      | none => some l
      | some s => (l.sweepTurn onSocketTimeout s).bind (sweepFrom onSocketTimeout fuel)

/-- `us_internal_timer_sweep` -/
def timerSweep (onSocketTimeout : ι → List (SocketOp ι)) (fuel : Nat) (l : UsLoop ι) :
    Option (UsLoop ι) :=
  { l with iterator := l.head }.sweepFrom onSocketTimeout fuel

def freeFrom : Nat → Option ι → UsLoop ι → Option (UsLoop ι)
  | _, none, l => some l
  | 0, some _, _ => none
  | fuel + 1, some s, l => do
      let x ← l.cell s
      (l.pollFree s).freeFrom fuel x.next

/-- `us_internal_free_closed_sockets` -/
def freeClosedSockets (fuel : Nat) (l : UsLoop ι) : Option (UsLoop ι) := do
  let l ← l.freeFrom fuel l.closedHead
  some { l with closedHead := none }

end UsLoop

/-! ## The plain list -/

/-- The sockets that are open, with their timers, the newest first, and those that wait to be
freed. -/
structure SocketTable (ι : Type*) where
  live : List (ι × Nat)
  closed : List ι
  deriving DecidableEq

namespace SocketTable

variable {ι : Type*} [DecidableEq ι]

omit [DecidableEq ι] in
def places (t : SocketTable ι) : List ι := t.live.map Prod.fst

def setTimer (s : ι) (n : Nat) (t : SocketTable ι) : SocketTable ι :=
  { t with live := t.live.map fun e => if e.1 = s then (s, n) else e }

def timer (s : ι) (t : SocketTable ι) : Option Nat := t.live.lookup s

/-- `none` if a place is used that has been freed, or taken again before it has been. -/
def op : SocketOp ι → SocketTable ι → Option (SocketTable ι)
  | .link s _, t =>
      if s ∈ t.places ∨ s ∈ t.closed then none else some { t with live := (s, 0) :: t.live }
  | .close s, t =>
      if s ∈ t.places then
        some { live := t.live.filter (·.1 ≠ s), closed := s :: t.closed }
      else if s ∈ t.closed then some t
      else none
  | .timeout s seconds, t =>
      if s ∈ t.places ∨ s ∈ t.closed then some (t.setTimer s (timeoutSweeps seconds)) else none

def ops : List (SocketOp ι) → SocketTable ι → Option (SocketTable ι)
  | [], t => some t
  | o :: rest, t => (t.op o).bind (ops rest)

/-- A socket's timer goes on, if the socket is still there. -/
def visit (onSocketTimeout : ι → List (SocketOp ι)) (s : ι) (t : SocketTable ι) :
    Option (SocketTable ι) :=
  match t.timer s with
  | none => some t
  | some n =>
      let t := t.setTimer s (n - 1)
      if n = 1 then t.ops (onSocketTimeout s) else some t

def visitAll (onSocketTimeout : ι → List (SocketOp ι)) : List ι → SocketTable ι →
    Option (SocketTable ι)
  | [], t => some t
  | s :: rest, t => (t.visit onSocketTimeout s).bind (visitAll onSocketTimeout rest)

/-- All sockets that are there are visited, each once. -/
def sweep (onSocketTimeout : ι → List (SocketOp ι)) (t : SocketTable ι) : Option (SocketTable ι) :=
  t.visitAll onSocketTimeout t.places

/-- What an operation can do. -/
inductive Does (t : SocketTable ι) : SocketOp ι → SocketTable ι → Prop
  | link {s : ι} (memory : UsSocket ι) (new : ¬(s ∈ t.places ∨ s ∈ t.closed)) :
      Does t (.link s memory) { t with live := (s, 0) :: t.live }
  | close {s : ι} (isOpen : s ∈ t.places) :
      Does t (.close s) { live := t.live.filter (·.1 ≠ s), closed := s :: t.closed }
  | again {s : ι} (notOpen : s ∉ t.places) (closed : s ∈ t.closed) : Does t (.close s) t
  | timeout {s : ι} (seconds : UInt16) (known : s ∈ t.places ∨ s ∈ t.closed) :
      Does t (.timeout s seconds) (t.setTimer s (timeoutSweeps seconds))

theorem op_does {t t' : SocketTable ι} {o : SocketOp ι} (ht : t.op o = some t') : t.Does o t' := by
  cases o with
  | link s memory =>
      simp only [op] at ht
      split at ht
      next => cases ht
      next hnew =>
        cases ht
        exact .link memory hnew
  | close s =>
      simp only [op] at ht
      split at ht
      next hs =>
        cases ht
        exact .close hs
      next hs =>
        split at ht
        next hclosed =>
          cases ht
          exact .again hs hclosed
        next => cases ht
  | timeout s seconds =>
      simp only [op] at ht
      split at ht
      next hs =>
        cases ht
        exact .timeout seconds hs
      next => cases ht

theorem places_setTimer (s : ι) (n : Nat) (t : SocketTable ι) :
    (t.setTimer s n).places = t.places := by
  rw [places, places, setTimer, List.map_map]
  refine List.map_congr_left fun e _ => ?_
  by_cases he : e.1 = s
  · simp [he]
  · simp [he]

omit [DecidableEq ι] in
/-- An open socket, and the others. -/
theorem exists_split {s : ι} {t : SocketTable ι} (hs : s ∈ t.places) (hnodup : t.places.Nodup) :
    ∃ front n back, t.live = front ++ (s, n) :: back ∧ s ∉ front.map Prod.fst ∧
      s ∉ back.map Prod.fst := by
  obtain ⟨⟨s', n⟩, he, rfl⟩ := List.mem_map.mp hs
  obtain ⟨front, back, hlive⟩ := List.append_of_mem he
  rw [places, hlive, List.map_append, List.map_cons, List.nodup_append, List.nodup_cons] at hnodup
  obtain ⟨-, ⟨hback, -⟩, hapart⟩ := hnodup
  exact ⟨front, n, back, hlive, fun hmem => hapart _ hmem _ List.mem_cons_self rfl, hback⟩

section
variable {s : ι} {n : Nat} {front back : List (ι × Nat)}

omit [DecidableEq ι] in
theorem places_split {t : SocketTable ι} (hlive : t.live = front ++ (s, n) :: back) :
    t.places = front.map Prod.fst ++ s :: back.map Prod.fst := by
  rw [places, hlive, List.map_append, List.map_cons]

theorem filter_split {t : SocketTable ι} (hlive : t.live = front ++ (s, n) :: back)
    (hfront : s ∉ front.map Prod.fst) (hback : s ∉ back.map Prod.fst) :
    t.live.filter (·.1 ≠ s) = front ++ back := by
  have hall : ∀ {part : List (ι × Nat)}, s ∉ part.map Prod.fst →
      part.filter (·.1 ≠ s) = part := by
    intro part hpart
    refine List.filter_eq_self.mpr fun e he => decide_eq_true ?_
    rintro rfl
    exact hpart (List.mem_map_of_mem he)
  rw [hlive, List.filter_append, List.filter_cons_of_neg (by simp), hall hfront, hall hback]

theorem setTimer_split {t : SocketTable ι} (hlive : t.live = front ++ (s, n) :: back)
    (hfront : s ∉ front.map Prod.fst) (hback : s ∉ back.map Prod.fst) (m : Nat) :
    (t.setTimer s m).live = front ++ (s, m) :: back := by
  have hall : ∀ {part : List (ι × Nat)}, s ∉ part.map Prod.fst →
      (part.map fun e => if e.1 = s then (s, m) else e) = part := by
    intro part hpart
    refine (List.map_congr_left fun e he => ?_).trans (List.map_id part)
    refine if_neg ?_
    rintro rfl
    exact hpart (List.mem_map_of_mem he)
  rw [setTimer, hlive, List.map_append, List.map_cons, hall hfront, hall hback, if_pos rfl]

theorem setTimer_of_notMem {t : SocketTable ι} (hs : s ∉ t.places) (m : Nat) :
    t.setTimer s m = t := by
  rw [setTimer]
  refine congrArg (fun live => { t with live := live }) ?_
  refine (List.map_congr_left fun e he => if_neg ?_).trans (List.map_id t.live)
  rintro rfl
  exact hs (List.mem_map_of_mem he)

theorem timer_split {t : SocketTable ι} (hlive : t.live = front ++ (s, n) :: back)
    (hfront : s ∉ front.map Prod.fst) : t.timer s = some n := by
  rw [timer, hlive]
  clear hlive
  induction front with
  | nil => exact List.lookup_cons_self
  | cons e front ih =>
      rw [List.map_cons, List.mem_cons, not_or] at hfront
      rw [List.cons_append, List.lookup_cons, beq_false_of_ne hfront.1]
      exact ih hfront.2

end

end SocketTable

end AutoExpo.Sockets
