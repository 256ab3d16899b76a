import AutoExpo.Http.AsyncSocket
import AutoExpo.Http.Messages
import AutoExpo.Http.Watched

/-!
# The clients of the HTTP thread

All connections of the thread, on one loop: data and hang-ups come in any order, and
the network takes of what is sent as much as it likes.

As long as no write is refused, and no callback leaves bytes corked, every connection
gets what it gets on its own, and its own responses only (`clients_apart`).
-/

namespace AutoExpo.Http

variable {ι : Type*} [DecidableEq ι]

namespace Loop

/-- Writes to a socket of the loop. -/
def sink (i : ι) : Sink (Loop ι) where
  write src l := ((l.write i src false).1.1, (l.write i src false).2)

theorem sink_write (i : ι) (src : Bytes) (l : Loop ι) :
    (sink i).write src l = ((l.write i src false).1.1, (l.write i src false).2) := rfl

/-- In a callback that has begun with `l₀`, and has sent `sent` after what was there before. -/
structure Writing (i : ι) (l₀ : Loop ι) (before : Bytes) (l : Loop ι) (sent : Bytes) : Prop where
  stays : Stays i l₀ l
  taken : l.taken i = before ++ sent

theorem Writing.write {i : ι} {l₀ : Loop ι} {before : Bytes} (src : Bytes) (l : Loop ι)
    (sent : Bytes) (h : Writing i l₀ before l sent) (hall : ((sink i).write src l).1 = src.length) :
    Writing i l₀ before ((sink i).write src l).2 (sent ++ src) := by
  obtain ⟨hstays, -, hresult⟩ := write_spec src h.stays.callback
  refine ⟨h.stays.trans hstays, ?_⟩
  rw [← List.append_assoc, ← h.taken]
  rcases hresult with ⟨-, htaken⟩ | ⟨hzero, htaken, -⟩
  · exact htaken
  · -- nothing was to be written
    have hnil : src = [] := List.eq_nil_of_length_eq_zero (hall.symm.trans hzero)
    subst hnil
    rw [List.append_nil]
    exact htaken

/-- In its callback the socket has corked no more than it has sent from `base` on. -/
structure Filling (i : ι) (l₀ : Loop ι) (base : Nat) (l : Loop ι) (sent : Bytes) : Prop where
  writing : Writing i l₀ [] l sent
  corked : l.corkBuffer.length + base ≤ sent.length

theorem Filling.write {i : ι} {l₀ : Loop ι} {base : Nat} (src : Bytes) (l : Loop ι) (sent : Bytes)
    (h : Filling i l₀ base l sent) (hfits : sent.length + src.length ≤ base + CORK_BUFFER_SIZE) :
    ((sink i).write src l).1 = src.length ∧
      Filling i l₀ base ((sink i).write src l).2 (sent ++ src) := by
  obtain ⟨-, hcork, hresult⟩ := write_spec src h.writing.stays.callback
  have hcorked := h.corked
  rcases hresult with ⟨hall, -⟩ | ⟨-, -, hover⟩
  · refine ⟨hall, h.writing.write src l sent hall, ?_⟩
    have hcork' : ((sink i).write src l).2.corkBuffer.length ≤
        l.corkBuffer.length + src.length := hcork
    rw [List.length_append]
    omega
  · omega

end Loop

/-! ## Events -/

/-- The loop, the connections, and whether a write has been refused, or a callback has left
bytes corked. -/
structure Clients (ι : Type*) where
  loop : Loop ι
  conn : ι → Connection (Socket Unit (List Request))
  refused : Bool
  leftover : Bool

/-- `room` is how much the network takes at the sends of the callback. -/
inductive Event (ι : Type*)
  | data (i : ι) (chunk : Bytes) (room : List Nat)
  | writable (i : ι) (room : List Nat)
  | hangUp (i : ι)

namespace Clients

def start : Clients ι where
  loop := { corkBuffer := [], corkedSocket := none, out := fun _ => ⟨[], [], false⟩, room := [] }
  conn := fun _ => opened (.fresh () [])
  refused := false
  leftover := false

/-- The loop when a callback of connection `i` begins. -/
def entered (i : ι) (room : List Nat) (c : Clients ι) : Loop ι :=
  { c.loop with room := room }.cork i

/-- The connection in its callback for data. -/
def callback (i : ι) (chunk : Bytes) (room : List Nat) (c : Clients ι) :
    Connection (Socket (Loop ι × Bool) (List Request)) :=
  ((c.conn i).map (·.put (c.entered i room, false))).receive
    (httpContext (th_http (Loop.sink i).watch)) chunk

/-- The end of a callback: a socket that its handlers have closed is not uncorked. -/
def finish (i : ι) (conn : Connection (Socket (Loop ι × Bool) (List Request))) (c : Clients ι) :
    Clients ι :=
  let loop := if conn.isClosed then conn.user.out.1.close i
    else (conn.user.out.1.uncork i [] false).2
  { loop := loop
    conn := Function.update c.conn i (conn.map (·.put ()))
    refused := c.refused || conn.user.out.2
    leftover := c.leftover || loop.corkBuffer ≠ [] }

def step (c : Clients ι) : Event ι → Clients ι
  | .data i chunk room =>
      if (c.conn i).isClosed then c else c.finish i (c.callback i chunk room)
  | .writable i room => { c with loop := { c.loop with room := room }.onWritable i }
  | .hangUp i =>
      { c with loop := c.loop.close i
               conn := Function.update c.conn i (.closed (c.conn i).user) }

theorem finish_conn (i : ι) (conn : Connection (Socket (Loop ι × Bool) (List Request)))
    (c : Clients ι) : (c.finish i conn).conn i = conn.map (·.put ()) :=
  Function.update_self _ _ _

theorem finish_conn_of_ne {i j : ι} (hj : j ≠ i)
    (conn : Connection (Socket (Loop ι × Bool) (List Request))) (c : Clients ι) :
    (c.finish i conn).conn j = c.conn j :=
  Function.update_of_ne hj _ _

def run (events : List (Event ι)) : Clients ι := events.foldl step start

/-- No write has been refused, and no callback has left bytes corked. -/
structure Clean (c : Clients ι) : Prop where
  refused : c.refused = false
  leftover : c.leftover = false

/-- What has gone wrong cannot be mended. -/
theorem Clean.of_step {c : Clients ι} {e : Event ι} (h : (c.step e).Clean) : c.Clean := by
  cases e with
  | data i chunk room =>
      rw [step] at h
      split at h
      next => exact h
      next => exact ⟨(Bool.or_eq_false_iff.mp h.refused).1, (Bool.or_eq_false_iff.mp h.leftover).1⟩
  | writable i room => exact ⟨h.refused, h.leftover⟩
  | hangUp i => exact ⟨h.refused, h.leftover⟩

theorem Clean.of_run {events : List (Event ι)} {c : Clients ι}
    (h : (events.foldl step c).Clean) : c.Clean := by
  induction events generalizing c with
  | nil => exact h
  | cons e events ih => exact (ih h).of_step

end Clients

/-! ## One connection -/

/-- What an event means to connection `i`, when it is on its own and all it writes is taken. -/
def Event.alone (i : ι) (conn : Connection (Socket Bytes (List Request))) :
    Event ι → Connection (Socket Bytes (List Request))
  | .data j chunk _ => if j = i then conn.receive (httpContext (th_http .whole)) chunk else conn
  | .writable _ _ => conn
  | .hangUp j => if j = i then .closed conn.user else conn

/-- The clients beside connections that are each on its own. -/
structure Apart (conns : ι → Connection (Socket Bytes (List Request))) (c : Clients ι) :
    Prop where
  same : ∀ i, c.conn i = (conns i).map (·.put ())
  held : ∀ i, c.loop.held i = (conns i).user.out
  quiet : ∀ i, (conns i).Keeps Quiet fun _ => True
  closed : ∀ i, (c.loop.out i).closed = (conns i).isClosed
  corkBuffer : c.loop.corkBuffer = []

omit [DecidableEq ι] in
theorem Apart.start : Apart (fun _ => opened (.fresh [] [])) (Clients.start (ι := ι)) where
  same _ := rfl
  held _ := rfl
  quiet _ := ⟨rfl, rfl⟩
  closed _ := rfl
  corkBuffer := rfl

variable {c : Clients ι} {conns : ι → Connection (Socket Bytes (List Request))}

/-- In its callback, a connection follows the one that is on its own. -/
theorem callback_follows {R : Loop ι → Bytes → Prop} {i : ι} {p : HttpParser}
    {s : Socket Bytes (List Request)} (chunk : Bytes) (room : List Nat)
    (hwrite : ∀ src l sent, R l sent → ((Loop.sink i).write src l).1 = src.length →
      R ((Loop.sink i).write src l).2 (sent ++ src))
    (hconn : c.conn i = .live p (s.put ())) (hquiet : Quiet s)
    (hR : R (c.entered i room) s.out) :
    Connection.Follows (fun s s' => Same R s s' ∧ Quiet s') (Same R) (Wrong (·.2 = true))
      (c.callback i chunk room)
      ((Connection.live p s).receive (httpContext (th_http .whole)) chunk) := by
  rw [Clients.callback, hconn]
  refine receive_follows (th_http_follows hwrite) (.live ⟨⟨rfl, rfl, rfl, rfl, hR⟩, hquiet⟩) chunk

/-- Two connections at the end of a callback that has gone well. -/
structure Ended (i : ι) (l₀ : Loop ι) (before : Bytes) (c : Clients ι)
    (conn : Connection (Socket Bytes (List Request))) : Prop where
  same : c.conn i = conn.map (·.put ())
  quiet : conn.Keeps Quiet fun _ => True
  taken : c.loop.taken i = before ++ conn.user.out
  closed : (c.loop.out i).closed = conn.isClosed
  uncorked : conn.isClosed = false → c.loop.corkBuffer = []
  others : ∀ j, j ≠ i → c.loop.out j = l₀.out j

omit [DecidableEq ι] in
theorem taken_of_nil {i : ι} {l : Loop ι} (h : l.corkBuffer = []) : l.taken i = l.held i := by
  rw [Loop.taken, h, List.append_nil]

/-- The end of a callback in which no write has been refused. -/
theorem finish_ended {i : ι} {l₀ : Loop ι} {before : Bytes}
    {conn : Connection (Socket (Loop ι × Bool) (List Request))}
    {conn' : Connection (Socket Bytes (List Request))}
    (h : Connection.Follows (fun s s' => Same (Loop.Writing i l₀ before) s s' ∧ Quiet s')
      (Same (Loop.Writing i l₀ before)) (Wrong (·.2 = true)) conn conn')
    (htaken : (c.finish i conn).refused = false) : Ended i l₀ before (c.finish i conn) conn' := by
  cases h with
  | wrong hwrong =>
      have hrefused : conn.user.out.2 = true := by
        cases conn with
        | live p s => exact hwrong.out
        | closed s => exact hwrong.out
      have hfinish : (c.refused || conn.user.out.2) = false := htaken
      rw [hrefused, Bool.or_true] at hfinish
      cases hfinish
  | @live p s s' h =>
      obtain ⟨hsame, hquiet⟩ := h
      obtain ⟨hstays, hnil, hheld⟩ := Loop.uncork_end hsame.related.stays.callback
      refine ⟨?_, hquiet, ?_, hstays.callback.isOpen, fun _ => hnil, ?_⟩
      · rw [Clients.finish_conn, Connection.map, Connection.map, hsame.put_eq]
      · exact (taken_of_nil hnil).trans (hheld.trans hsame.related.taken)
      · exact (hsame.related.stays.trans hstays).others
  | @closed s s' hsame =>
      refine ⟨?_, trivial, ?_, ?_, nofun, ?_⟩
      · rw [Clients.finish_conn, Connection.map, Connection.map, hsame.put_eq]
      · show (Loop.close i s.out.1).taken i = before ++ s'.out
        rw [← hsame.related.taken, Loop.taken, Loop.held, Loop.close_out]
        rfl
      · show ((Loop.close i s.out.1).out i).closed = true
        rw [Loop.close_out]
      · intro j hj
        exact (Loop.close_out_of_ne hj s.out.1).trans (hsame.related.stays.others j hj)

theorem Event.alone_data {i j : ι} (chunk : Bytes) (room : List Nat)
    (conn : Connection (Socket Bytes (List Request))) (hj : j ≠ i) :
    (Event.data i chunk room).alone j conn = conn :=
  if_neg (Ne.symm hj)

theorem Apart.data (h : Apart conns c) {i : ι} (hlive : (conns i).isClosed = false)
    (chunk : Bytes) (room : List Nat) (hclean : (c.finish i (c.callback i chunk room)).Clean) :
    Apart (fun j => (Event.data i chunk room).alone j (conns j))
      (c.finish i (c.callback i chunk room)) := by
  have hopen : (c.loop.out i).closed = false := (h.closed i).trans hlive
  have hnil : (c.finish i (c.callback i chunk room)).loop.corkBuffer = [] := by
    simpa [Clients.finish] using (Bool.or_eq_false_iff.mp hclean.leftover).2
  have hended : Ended i (c.entered i room) []
      (c.finish i (c.callback i chunk room)) ((Event.data i chunk room).alone i (conns i)) := by
    rw [Event.alone, if_pos rfl]
    cases hconn : conns i with
    | closed s =>
        rw [hconn] at hlive
        cases hlive
    | live p s =>
        have hquiet := h.quiet i
        have hheld := h.held i
        rw [hconn] at hquiet hheld
        have hconn' : c.conn i = .live p (s.put ()) := by
          rw [h.same, hconn]
          rfl
        refine finish_ended (callback_follows chunk room Loop.Writing.write hconn' hquiet ?_)
          hclean.refused
        refine ⟨⟨Loop.inCallback_of_nil hopen h.corkBuffer, fun _ _ => rfl⟩, ?_⟩
        exact (taken_of_nil h.corkBuffer).trans hheld
  refine ⟨fun j => ?_, fun j => ?_, fun j => ?_, fun j => ?_, hnil⟩
  · by_cases hj : j = i
    · rw [hj]
      exact hended.same
    · rw [Event.alone_data chunk room _ hj, ← h.same]
      exact Clients.finish_conn_of_ne hj _ c
  · by_cases hj : j = i
    · rw [hj, ← taken_of_nil hnil]
      exact hended.taken
    · rw [Event.alone_data chunk room _ hj, ← h.held, Loop.held, hended.others j hj]
      rfl
  · by_cases hj : j = i
    · rw [hj]
      exact hended.quiet
    · rw [Event.alone_data chunk room _ hj]
      exact h.quiet j
  · by_cases hj : j = i
    · rw [hj]
      exact hended.closed
    · rw [Event.alone_data chunk room _ hj, ← h.closed, hended.others j hj]
      rfl

theorem Apart.writable (h : Apart conns c) (i : ι) (room : List Nat) :
    Apart (fun j => (Event.writable i room).alone j (conns j)) (c.step (.writable i room)) := by
  have hadds := Loop.onWritable_spec i { c.loop with room := room }
  refine ⟨h.same, fun j => ?_, h.quiet, fun j => ?_, hadds.corkBuffer.trans h.corkBuffer⟩
  · rw [Event.alone, ← h.held j]
    by_cases hj : j = i
    · rw [hj]
      exact hadds.held.trans (List.append_nil _)
    · rw [Loop.held, Loop.held]
      exact congrArg (fun o : Out => o.wire ++ o.buffer) (hadds.others j hj)
  · rw [Event.alone, ← h.closed j]
    by_cases hj : j = i
    · rw [hj]
      exact hadds.closed
    · exact congrArg Out.closed (hadds.others j hj)

theorem Apart.hangUp (h : Apart conns c) (i : ι) :
    Apart (fun j => (Event.hangUp i).alone j (conns j)) (c.step (.hangUp i)) := by
  have hother : ∀ j, j ≠ i → (Event.hangUp i).alone j (conns j) = conns j := fun j hj =>
    if_neg (Ne.symm hj)
  have hself : (Event.hangUp i).alone i (conns i) = .closed (conns i).user := if_pos rfl
  refine ⟨fun j => ?_, fun j => ?_, fun j => ?_, fun j => ?_, h.corkBuffer⟩
  · by_cases hj : j = i
    · have hconn : (c.step (.hangUp i)).conn i = .closed (c.conn i).user :=
        Function.update_self _ _ _
      rw [hj, hself, hconn, h.same, Connection.user_map]
      rfl
    · rw [hother j hj, ← h.same]
      exact Function.update_of_ne hj _ _
  · by_cases hj : j = i
    · rw [hj, hself, Connection.user, ← h.held, Clients.step, Loop.held, Loop.close_out]
      rfl
    · rw [hother j hj, ← h.held, Clients.step, Loop.held, Loop.close_out_of_ne hj]
      rfl
  · by_cases hj : j = i
    · rw [hj, hself]
      trivial
    · rw [hother j hj]
      exact h.quiet j
  · by_cases hj : j = i
    · rw [hj, hself, Clients.step, Loop.close_out]
      rfl
    · rw [hother j hj, ← h.closed, Clients.step, Loop.close_out_of_ne hj]

/-- A closed socket has no callbacks. -/
theorem Event.alone_closed {conns : ι → Connection (Socket Bytes (List Request))} {i : ι}
    (h : (conns i).isClosed = true) (chunk : Bytes) (room : List Nat) :
    (fun j => (Event.data i chunk room).alone j (conns j)) = conns := by
  funext j
  rw [Event.alone]
  split
  next hj =>
    subst hj
    cases hconn : conns i with
    | live p s =>
        rw [hconn] at h
        cases h
    | closed s => rfl
  next => rfl

/-- Connections stay apart, as long as nothing goes wrong. -/
theorem Apart.step (h : Apart conns c) (e : Event ι) (hclean : (c.step e).Clean) :
    Apart (fun j => e.alone j (conns j)) (c.step e) := by
  cases e with
  | data i chunk room =>
      have hclosed : (c.conn i).isClosed = (conns i).isClosed := by
        rw [h.same, Connection.isClosed_map]
      by_cases hlive : (conns i).isClosed = true
      · rwa [Clients.step, hclosed, if_pos hlive, Event.alone_closed hlive]
      · rw [Clients.step, hclosed, if_neg hlive] at hclean ⊢
        exact h.data (eq_false_of_ne_true hlive) chunk room hclean
  | writable i room => exact h.writable i room
  | hangUp i => exact h.hangUp i

theorem Apart.run (h : Apart conns c) (events : List (Event ι))
    (hclean : (events.foldl Clients.step c).Clean) :
    Apart (fun j => events.foldl (Event.alone j) (conns j)) (events.foldl Clients.step c) := by
  induction events generalizing c conns with
  | nil => exact h
  | cons e events ih =>
      have hstep : (c.step e).Clean := Clients.Clean.of_run hclean
      exact ih (h.step e hstep) hclean

/-! ## Callbacks that fit -/

/-- In the callback, connection `i` is not closed, and sends no more than the cork buffer
holds. -/
def Event.Fits (i : ι) (conn : Connection (Socket Bytes (List Request))) : Event ι → Prop
  | .data j chunk _ => j = i → conn.isClosed = false →
      (conn.receive (httpContext (th_http .whole)) chunk).isClosed = false ∧
      (conn.receive (httpContext (th_http .whole)) chunk).user.out.length ≤
        conn.user.out.length + CORK_BUFFER_SIZE
  | .writable _ _ => True
  | .hangUp _ => True

/-- All callbacks of connection `i`, on its own. -/
def AllFit (i : ι) : Connection (Socket Bytes (List Request)) → List (Event ι) → Prop
  | _, [] => True
  | conn, e :: events => e.Fits i conn ∧ AllFit i (e.alone i conn) events

/-- A callback that fits is followed to its end. -/
theorem callback_fits {R : Loop ι → Bytes → Prop} {limit : Nat} {i : ι} {p : HttpParser}
    {s : Socket Bytes (List Request)} (chunk : Bytes) (room : List Nat)
    (hwrite : ∀ src l sent, R l sent → sent.length + src.length ≤ limit →
      ((Loop.sink i).write src l).1 = src.length ∧ R ((Loop.sink i).write src l).2 (sent ++ src))
    (hconn : c.conn i = .live p (s.put ())) (hquiet : Quiet s)
    (hR : R (c.entered i room) s.out) :
    Connection.Follows (fun s' s => Same R s s' ∧ Quiet s') (fun s' s => Same R s s')
      (Wrong (limit < ·.length))
      ((Connection.live p s).receive (httpContext (th_http .whole)) chunk)
      (c.callback i chunk room) := by
  rw [Clients.callback, hconn]
  exact receive_follows (whole_follows hwrite) (.live ⟨⟨rfl, rfl, rfl, rfl, hR⟩, hquiet⟩) chunk

theorem Apart.clean (h : Apart conns c) (hc : c.Clean) {e : Event ι}
    (hfits : ∀ i, e.Fits i (conns i)) : (c.step e).Clean := by
  cases e with
  | writable i room => exact ⟨hc.refused, hc.leftover⟩
  | hangUp i => exact ⟨hc.refused, hc.leftover⟩
  | data i chunk room =>
      have hclosed : (c.conn i).isClosed = (conns i).isClosed := by
        rw [h.same, Connection.isClosed_map]
      rw [Clients.step, hclosed]
      cases hconn : conns i with
      | closed s => exact hc
      | live p s =>
          have hopen := h.closed i
          have hquiet := h.quiet i
          have hheld := h.held i
          obtain ⟨hlive, hsize⟩ := hfits i rfl (congrArg Connection.isClosed hconn)
          rw [hconn] at hopen hquiet hheld hlive hsize
          have hconn' : c.conn i = .live p (s.put ()) := by
            rw [h.same, hconn]
            rfl
          have hstart : Loop.Filling i (c.entered i room) s.out.length
              (c.entered i room) s.out :=
            ⟨⟨⟨Loop.inCallback_of_nil hopen h.corkBuffer, fun _ _ => rfl⟩,
              (taken_of_nil h.corkBuffer).trans hheld⟩,
              by simp [Clients.entered, Loop.cork, h.corkBuffer]⟩
          have hfollows := callback_fits chunk room Loop.Filling.write hconn' hquiet hstart
          generalize (Connection.live p s).receive (httpContext (th_http .whole)) chunk = conn'
            at hfollows hlive hsize
          generalize c.callback i chunk room = conn at hfollows ⊢
          cases hfollows with
          | wrong hwrong =>
              cases conn' with
              | live p' s' => exact absurd hwrong.out (Nat.not_lt.mpr hsize)
              | closed s' => cases hlive
          | closed hsame => cases hlive
          | @live p' s' s₁ hlive' =>
              obtain ⟨hsame, -⟩ := hlive'
              obtain ⟨-, hnil, -⟩ := Loop.uncork_end hsame.related.writing.stays.callback
              refine ⟨?_, ?_⟩
              · show (c.refused || s₁.out.2) = false
                rw [hc.refused, hsame.taken, Bool.or_false]
              · show (c.leftover || decide ((Loop.uncork i [] false s₁.out.1).2.corkBuffer ≠ [])) =
                  false
                rw [hc.leftover, hnil]
                rfl

/-- Callbacks that fit, in any order: nothing goes wrong, whatever the network takes. -/
theorem Apart.run_clean (h : Apart conns c) (hc : c.Clean) {events : List (Event ι)}
    (hfits : ∀ i, AllFit i (conns i) events) : (events.foldl Clients.step c).Clean := by
  induction events generalizing c conns with
  | nil => exact hc
  | cons e events ih =>
      have hclean : (c.step e).Clean := h.clean hc fun i => (hfits i).1
      exact ih (h.step e hclean) hclean fun i => (hfits i).2

/-- A client that writes whole messages, of which the responses fit, and reads them when it
likes. -/
theorem allFit_messages {i : ι} {messages : List Message} (hall : ∀ m ∈ messages, m.WellFormed)
    (hsize : (messages.flatMap fun m => response m.call.reply).length ≤ CORK_BUFFER_SIZE)
    {s : Socket Bytes (List Request)} (hs : Quiet s) (room : List Nat) {events : List (Event ι)}
    (hrest : ∀ s', Quiet s' → AllFit i (.live ⟨[], 0⟩ s') events) :
    AllFit i (.live ⟨[], 0⟩ s) (.data i (messages.flatMap Message.render) room :: events) := by
  have hreceive := Message.receive_messages hall hs
  refine ⟨fun _ _ => ?_, ?_⟩
  · rw [hreceive, Connection.user, Message.out_foldl, List.length_append]
    exact ⟨rfl, Nat.add_le_add_left hsize _⟩
  · rw [Event.alone, if_pos rfl, hreceive]
    exact hrest _ (Message.quiet_foldl messages hs)

theorem allFit_other {i j : ι} (hj : j ≠ i) {conn : Connection (Socket Bytes (List Request))}
    (chunk : Bytes) (room : List Nat) {events : List (Event ι)} (hrest : AllFit i conn events) :
    AllFit i conn (.data j chunk room :: events) := by
  refine ⟨fun h => absurd h hj, ?_⟩
  rwa [Event.alone, if_neg hj]

/-- No write is refused, and nothing is left corked, when the callbacks of every connection,
on its own, neither close it nor send more than the cork buffer holds: in whatever order the
events come, and whatever the network takes. -/
theorem fitting_clients_clean {events : List (Event ι)}
    (hfits : ∀ i, AllFit i (opened (.fresh [] [])) events) : (Clients.run events).Clean :=
  Apart.start.run_clean ⟨rfl, rfl⟩ hfits

/-- One client pings while another starts exposures and hangs up, on a slow network. -/
def twoClients : List (Event Bool) :=
  [.data true (((threeMessages.drop 0).take 1).flatMap Message.render) [5],
   .data false (((threeMessages.drop 1).take 1).flatMap Message.render) [0, 3],
   .writable true [7],
   .data true (((threeMessages.drop 2).take 1).flatMap Message.render) [20, 20],
   .hangUp true,
   .writable false [1000]]

theorem twoClients_fit (i : Bool) : AllFit i (opened (.fresh [] [])) twoClients := by
  have hall := threeMessages_wellFormed
  have hone : ∀ n, ∀ m ∈ (threeMessages.drop n).take 1, m.WellFormed := fun n m hm =>
    hall m (List.mem_of_mem_drop (List.mem_of_mem_take hm))
  have hsize : ∀ n, n < 3 → (((threeMessages.drop n).take 1).flatMap fun m =>
      response m.call.reply).length ≤ CORK_BUFFER_SIZE := by
    decide +kernel
  cases i with
  | false =>
      refine allFit_other (by decide) _ _ ?_
      refine allFit_messages (hone 1) (hsize 1 (by decide)) ⟨rfl, rfl⟩ _ fun s _ => ?_
      exact ⟨trivial, allFit_other (by decide) _ _ ⟨trivial, trivial, trivial⟩⟩
  | true =>
      refine allFit_messages (hone 0) (hsize 0 (by decide)) ⟨rfl, rfl⟩ _ fun s hs => ?_
      refine allFit_other (by decide) _ _ ⟨trivial, ?_⟩
      refine allFit_messages (hone 2) (hsize 2 (by decide)) hs _ fun s' _ => ?_
      exact ⟨trivial, trivial, trivial⟩

theorem fitting_clients_clean_twoClients : (Clients.run twoClients).Clean :=
  fitting_clients_clean twoClients_fit

/-! ## Whatever the clients do -/

/-- What a connection that is on its own has served. -/
theorem alone_keeps {i : ι} {conn : Connection (Socket Bytes (List Request))}
    (h : conn.Keeps Idle fun s => ∃ calls, Served calls s) (events : List (Event ι)) :
    (events.foldl (Event.alone i) conn).Keeps Idle fun s => ∃ calls, Served calls s := by
  induction events generalizing conn with
  | nil => exact h
  | cons e events ih =>
      refine ih ?_
      cases e with
      | data j chunk room =>
          rw [Event.alone]
          split
          next => exact receive_keeps keeps_th_http h chunk
          next => exact h
      | writable j room => exact h
      | hangUp j =>
          rw [Event.alone]
          split
          next =>
            cases conn with
            | live p s => exact h.served
            | closed s => exact h
          next => exact h

theorem alone_served (i : ι) (events : List (Event ι)) :
    ∃ calls, Served calls (events.foldl (Event.alone i) (opened (.fresh [] []))).user := by
  have hfresh : (opened (.fresh [] [])).Keeps Idle fun s => ∃ calls, Served calls s :=
    ⟨⟨[], rfl, rfl, rfl⟩, ⟨rfl, rfl⟩⟩
  have hkeeps := alone_keeps (i := i) hfresh events
  generalize events.foldl (Event.alone i) (opened (.fresh [] [])) = conn at hkeeps
  cases conn with
  | live p s => exact hkeeps.served
  | closed s => exact hkeeps

/-- As long as no write is refused and no callback leaves bytes corked, whatever the clients
do, and in whatever order: every connection is as it would be on its own, its client gets what
it would get, and that is the responses to its own calls, in order. -/
theorem clients_apart (events : List (Event ι)) (hclean : (Clients.run events).Clean) (i : ι) :
    let conn := events.foldl (Event.alone i) (opened (.fresh [] []))
    (Clients.run events).conn i = conn.map (·.put ()) ∧
      (Clients.run events).loop.held i = conn.user.out ∧ ∃ calls, Served calls conn.user := by
  have hapart := Apart.start.run events hclean
  exact ⟨hapart.same i, hapart.held i, alone_served i events⟩

theorem clients_apart_twoClients :
    ∃ conn : Connection (Socket Bytes (List Request)),
      (Clients.run twoClients).loop.held true = conn.user.out ∧
      ∃ calls, Served calls conn.user :=
  ⟨_, (clients_apart twoClients (Apart.start.run_clean ⟨rfl, rfl⟩ twoClients_fit) true).2⟩

end AutoExpo.Http
