import AutoExpo.Http.Pieces
import AutoExpo.Http.Follows
import AutoExpo.Sockets.Idle

/-!
# Slow clients

What the parser of a connection does with the socket's timer: a request takes the timer
away, and its response sets it again. The front of a request, however it comes in, does
nothing, so a client that does not finish its request is closed as if it were silent
(`slow_client_closed`).
-/

namespace AutoExpo.Sockets

open Http

def HTTP_TIMEOUT_S : UInt16 := 10

variable {ι σ : Type*}

/-- The handlers of `HttpContext`, with what they do with their socket. A route's handler
responds at once; where the parser does not go on, the socket is closed. -/
def timed (s : ι) (H : Handlers σ) : Handlers (σ × List (SocketOp ι)) where
  request x req :=
    match H.request x.1 req with
    | (user, true) => ((user, x.2 ++ [.timeout s 0, .timeout s HTTP_TIMEOUT_S]), true)
    | (user, false) => ((user, x.2 ++ [.timeout s 0, .close s]), false)
  data x chunk fin :=
    match H.data x.1 chunk fin with
    | (user, goesOn) => ((user, x.2), goesOn)
  error x := (((H.error x.1).1, x.2 ++ [.close s]), false)

/-- What is ready: a piece of what the client sends, whose callback's uncork does not fail, or
something else. -/
inductive Heard (ι : Type*)
  | piece (chunk : Bytes)
  | other (r : ReadyPoll ι)

/-- What the client sends. -/
def sent : List (Heard ι) → Bytes
  | [] => []
  | .piece chunk :: rest => chunk ++ sent rest
  | .other _ :: rest => sent rest

/-- The connection after a callback; before it, nothing has been done with the socket. -/
def hear (s : ι) (H : Handlers σ) (connection : Connection (σ × List (SocketOp ι))) :
    Heard ι → Connection (σ × List (SocketOp ι))
  | .piece chunk => (connection.map fun x => (x.1, [])).receive (timed s H) chunk
  | .other _ => connection

/-- The ready polls, with what the callback for the client's data does. -/
def readyOf (s : ι) (H : Handlers σ) :
    Connection (σ × List (SocketOp ι)) → List (Heard ι) → List (ReadyPoll ι)
  | _, [] => []
  | connection, .piece chunk :: rest =>
      .socket s false none (some (.data (hear s H connection (.piece chunk)).user.2)) ::
        readyOf s H (hear s H connection (.piece chunk)) rest
  | connection, .other r :: rest => r :: readyOf s H connection rest

def iterationsOf (s : ι) (H : Handlers σ) :
    Connection (σ × List (SocketOp ι)) → List (List (Heard ι)) → List (List (ReadyPoll ι))
  | _, [] => []
  | connection, heard :: rest =>
      readyOf s H connection heard ::
        iterationsOf s H (heard.foldl (hear s H) connection) rest

variable {s : ι} {H : Handlers σ} {connection : Connection (σ × List (SocketOp ι))} {user : σ}

theorem bodiless_timed (hH : H.Bodiless) (s : ι) : (timed s H).Bodiless := by
  intro x chunk fin
  show (match H.data x.1 chunk fin with | (user, goesOn) => ((user, x.2), goesOn)) = (x, true)
  rw [hH]

/-- The front of a request that is not too long. -/
structure Unfinished (front : Bytes) : Prop where
  headers : getHeaders MAX_HEADERS true front = none
  short : front.length < MAX_FALLBACK_SIZE

theorem Unfinished.front {front more : Bytes} (h : Unfinished (front ++ more)) :
    Unfinished front := by
  constructor
  · by_contra hsome
    obtain ⟨r, hr⟩ := Option.ne_none_iff_exists'.mp hsome
    have hmore := h.headers
    rw [← headers_parse] at hr hmore
    rw [((Http.headers MAX_HEADERS true).stable more).mpr hr] at hmore
    cases hmore
  · have hlen := h.short
    rw [List.length_append] at hlen
    omega

/-- The connection has got `front`, and nothing has been done with the socket. -/
def Waits (connection : Connection (σ × List (SocketOp ι))) (front : Bytes) (user : σ) : Prop :=
  Refines connection (.waiting front 0 (user, []))

theorem Waits.live {front : Bytes} (h : Waits connection front user) :
    ∃ p, connection = .live p (user, []) := by
  cases h with
  | waiting => exact ⟨_, rfl⟩

theorem Waits.hear (hH : H.Bodiless) {front chunk : Bytes} (h : Waits connection front user)
    (hmore : Unfinished (front ++ chunk)) :
    Waits (hear s H connection (.piece chunk)) (front ++ chunk) user := by
  obtain ⟨p, rfl⟩ := h.live
  have hrefines := receive_refines (bodiless_timed hH s) h chunk
  rw [Kit.Reader.feed, settle_front _ hmore.headers, if_neg (Nat.not_le.mpr hmore.short)]
    at hrefines
  exact hrefines

theorem Waits.readyOf (hH : H.Bodiless) {front : Bytes} {heard : List (Heard ι)}
    (h : Waits connection front user) (hmore : Unfinished (front ++ sent heard))
    (hothers : ∀ r, .other r ∈ heard → r.LeavesAlone s) :
    (∀ r ∈ readyOf s H connection heard, r.LeavesAlone s) ∧
      Waits (heard.foldl (Sockets.hear s H) connection) (front ++ sent heard) user := by
  induction heard generalizing connection front with
  | nil =>
      refine ⟨fun r hr => absurd hr List.not_mem_nil, ?_⟩
      rw [sent, List.append_nil]
      exact h
  | cons e rest ih =>
      have hrest : ∀ r, .other r ∈ rest → r.LeavesAlone s := fun r hr =>
        hothers r (List.mem_cons_of_mem e hr)
      cases e with
      | piece chunk =>
          rw [sent, ← List.append_assoc] at hmore ⊢
          have hnext := h.hear (s := s) hH hmore.front
          obtain ⟨hall, hend⟩ := ih hnext hmore hrest
          refine ⟨fun r hr => ?_, hend⟩
          rcases List.mem_cons.mp hr with rfl | hr
          · -- nothing is done with the socket
            obtain ⟨p, hp⟩ := hnext.live
            rw [hp]
            exact ⟨fun _ => ⟨rfl, rfl⟩, fun o ho => absurd ho List.not_mem_nil,
              fun o ho => absurd ho List.not_mem_nil⟩
          · exact hall r hr
      | other r =>
          obtain ⟨hall, hend⟩ := ih h hmore hrest
          refine ⟨fun r' hr' => ?_, hend⟩
          rcases List.mem_cons.mp hr' with rfl | hr'
          · exact hothers _ List.mem_cons_self
          · exact hall r' hr'

theorem sent_append (heard more : List (Heard ι)) :
    sent (heard ++ more) = sent heard ++ sent more := by
  induction heard with
  | nil => rfl
  | cons e rest ih =>
      cases e with
      | piece chunk => rw [List.cons_append, sent, sent, ih, List.append_assoc]
      | other r => exact ih

theorem Waits.iterationsOf (hH : H.Bodiless) {front : Bytes} {heard : List (List (Heard ι))}
    (h : Waits connection front user) (hmore : Unfinished (front ++ sent heard.flatten))
    (hothers : ∀ r, .other r ∈ heard.flatten → r.LeavesAlone s) :
    ∀ ready ∈ iterationsOf s H connection heard, ∀ r ∈ ready, r.LeavesAlone s := by
  induction heard generalizing connection front with
  | nil => exact fun ready hready => absurd hready List.not_mem_nil
  | cons e rest ih =>
      rw [List.flatten_cons, sent_append, ← List.append_assoc] at hmore
      rw [List.flatten_cons] at hothers
      obtain ⟨hall, hnext⟩ := h.readyOf hH hmore.front fun r hr =>
        hothers r (List.mem_append_left _ hr)
      intro ready hready
      rcases List.mem_cons.mp hready with rfl | hready
      · exact hall
      · exact ih hnext hmore (fun r hr => hothers r (List.mem_append_right _ hr)) ready hready

theorem waits_opened (user : σ) : Waits (opened (user, ([] : List (SocketOp ι)))) [] user :=
  .waiting (SameFront.refl []) (by decide) rfl (.inl rfl)

/-- A client of a running server that has not been heard of before, and then sends the front of
a request, in whatever pieces and at whatever times: as long as there have been fewer sweeps
than its timer counted in the beginning, its socket is open, and after that it is closed and
freed, as if nothing had been sent. -/
theorem slow_client_closed [DecidableEq ι] (listen : ι) (memory : UsSocket ι)
    {front : List (List (ReadyPoll ι))} {t t' : SocketTable ι} {n : Nat} (hn : 0 < n)
    (hfront : (SocketTable.listening listen).loopRun front = some t)
    (hs : t.timer s = some n) (hH : H.Bodiless) {heard : List (List (Heard ι))}
    (hunfinished : Unfinished (sent heard.flatten))
    (hothers : ∀ r, .other r ∈ heard.flatten → r.LeavesAlone s)
    (hrun : t.loopRun (iterationsOf s H (opened (user, [])) heard) = some t') :
    let iterations := iterationsOf s H (opened (user, [])) heard
    ∃ l l' bound,
      (∀ fuel, bound ≤ fuel →
        (UsLoop.listening listen memory).bind (UsLoop.loopRun fuel front) = some l ∧
          l.loopRun fuel iterations = some l') ∧
      if sweeps iterations.flatten < n then
        ∃ x, l'.cell s = some x ∧ x.timeout = n - sweeps iterations.flatten
      else l'.cell s = none := by
  intro iterations
  have hsilent := (waits_opened user).iterationsOf hH hunfinished hothers
  obtain ⟨l₀, hl₀, h₀⟩ := listening_represents listen memory
  obtain ⟨l, bound, h, hl⟩ := h₀.loopRun hfront
  obtain ⟨l', bound', hl', hend⟩ := h.untouched (loopRun_closed rfl hfront) hn hs hsilent hrun
  refine ⟨l, l', max bound bound', fun fuel hfuel => ⟨?_, ?_⟩, hend⟩
  · rw [hl₀, Option.bind_some]
    exact hl fuel (Nat.max_le.mp hfuel).1
  · exact hl' fuel (Nat.max_le.mp hfuel).2

/-- A client that sends `GET /` letter by letter. -/
def dribbling : List (List (Heard Nat)) :=
  [[.piece [71], .other (.sweepTimer onTimeout)], [.piece [69, 84]],
   [.other (.sweepTimer onTimeout), .piece [32]], [.other (.sweepTimer onTimeout), .piece [47]]]

theorem slow_client_closed_dribbling :
    ∃ l l' bound,
      (∀ fuel, bound ≤ fuel →
        (UsLoop.listening 0 junk).bind (UsLoop.loopRun fuel
          [[.listenSocket 0 [⟨1, junk, onOpen 1⟩]]]) = some l ∧
        l.loopRun fuel (iterationsOf 1 counting (opened (0, [])) dribbling) = some l') ∧
      l'.cell 1 = none :=
  slow_client_closed 0 junk (s := 1) (n := 3) (t := ⟨[(1, 3), (0, 0)], []⟩) (by decide) (by decide)
    (by decide) (fun _ _ _ => rfl) ⟨by decide, by decide⟩
    (by simp [dribbling, ReadyPoll.LeavesAlone])
    (by decide +kernel : SocketTable.loopRun
      (iterationsOf 1 counting (opened (0, [])) dribbling) _ = some ⟨[(0, 0)], []⟩)

end AutoExpo.Sockets
