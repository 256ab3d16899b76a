import AutoExpo.Http.Pieces
import AutoExpo.Http.Routes
import AutoExpo.Http.StartExpo

/-!
# The HTTP thread

`HttpContext` and `HttpResponse` of the web server, with the three routes of
`main`. What a handler does to the cameras is a `Request`; here the requests are
only put on a list, in the order in which they are made.

A response goes to a `Sink`, which says of each write how much of it is taken. A
call is served if the body of its response is taken, and else it ends the program
(`onRequest_th_http`). Where all writes are taken, whatever bytes arrive, every
call that is served has one response, the requests are made in the order of the
calls, and the thread never gets to `std::terminate` (`served_in_order`).
-/

namespace AutoExpo.Http

open Kit Decimal

def bytes (l : Text) : Bytes := l.map fun c => UInt8.ofNat c.toNat

def text (l : Bytes) : Text := l.map fun b => Char.ofNat b.toNat

/-! ## Sinks -/

/-- Where the writes of a socket go: how much of a write is taken, and what is there then. -/
structure Sink (ο : Type*) where
  write : Bytes → ο → Nat × ο

namespace Sink

/-- Takes all of every write. -/
def whole : Sink Bytes where
  write src sent := (src.length, sent ++ src)

variable {ο : Type*} (W : Sink ο)

def writeAll (writes : List Bytes) (out : ο) : ο :=
  writes.foldl (fun out src => (W.write src out).2) out

end Sink

/-! ## Responses -/

/-- The bits of `state`, whether there is an `onAborted`, and the offset. -/
structure HttpResponseData where
  statusCalled : Bool
  endCalled : Bool
  responsePending : Bool
  onAborted : Bool
  offset : Nat
  deriving DecidableEq

/-- A socket with its user data, what its writes have come to, and whether
`std::terminate` has been called. -/
structure Socket (ο ω : Type*) where
  data : HttpResponseData
  out : ο
  terminated : Bool
  user : ω
  deriving DecidableEq

namespace Socket

variable {ο ω : Type*} (W : Sink ο)

def write (src : Bytes) (s : Socket ο ω) : Socket ο ω := { s with out := (W.write src s.out).2 }

def writeStatus (status : Bytes) (s : Socket ο ω) : Socket ο ω :=
  if s.data.statusCalled then s
  else
    { s with data := { s.data with statusCalled := true } }
      |>.write W (bytes ['H', 'T', 'T', 'P', '/', '1', '.', '1', ' '])
      |>.write W status
      |>.write W [CR, LF]

def HTTP_200_OK : Bytes := bytes ['2', '0', '0', ' ', 'O', 'K']

def writeHeader (key value : Bytes) (s : Socket ο ω) : Socket ο ω :=
  s.writeStatus W HTTP_200_OK
    |>.write W key
    |>.write W (bytes [':', ' '])
    |>.write W value
    |>.write W [CR, LF]

def writeMark (s : Socket ο ω) : Socket ο ω :=
  s.writeHeader W (bytes ['u', 'W', 'e', 'b', 'S', 'o', 'c', 'k', 'e', 't', 's'])
    (bytes ['v', '0', '.', '1', '6'])

def writeUnsigned (value : Nat) (s : Socket ο ω) : Socket ο ω := s.write W (bytes (decimal value))

def markDone (s : Socket ο ω) : Socket ο ω :=
  { s with data := { s.data with onAborted := false, responsePending := false } }

/-- The response is never in chunks. -/
def internalEnd (data : Bytes) (totalSize : Nat) (s : Socket ο ω) : Socket ο ω :=
  let s := s.writeStatus W HTTP_200_OK
  let totalSize := if totalSize = 0 then data.length else totalSize
  let s :=
    if s.data.endCalled then s
    else
      let s := s.writeMark W
        |>.write W (bytes ['C', 'o', 'n', 't', 'e', 'n', 't', '-', 'L', 'e', 'n', 'g', 't', 'h',
          ':', ' '])
        |>.writeUnsigned W totalSize
        |>.write W [CR, LF, CR, LF]
      { s with data := { s.data with endCalled := true } }
  let (written, out) := W.write data s.out
  let s := { s with out := out, data := { s.data with offset := s.data.offset + written } }
  if s.data.offset = totalSize then s.markDone else s

/-- `end` -/
def endWith (data : Bytes) (s : Socket ο ω) : Socket ο ω := s.internalEnd W data data.length

def hasResponded (s : Socket ο ω) : Bool := !s.data.responsePending

end Socket

/-! ## The context -/

/-- A route, and what its handler does with the parameters. It does not yield. -/
structure Route (ο ω : Type*) where
  method : Bytes
  pattern : Bytes
  handler : Socket ο ω → List Bytes → Socket ο ω

section
variable {ο ω : Type*} (app : List (Route ο ω))

def router : HttpRouter := .ofList (app.map fun r => (r.method, r.pattern))

def handlers (handlerIndex : Nat) (s : Socket ο ω) (params : List Bytes) : Socket ο ω × Bool :=
  match app[handlerIndex - 1]? with
  | some r => (r.handler s params, true)
  | none => (s, false)

/-- The first pass; there is always a result (`route_candidates`). -/
def routeBy (method : Bytes) (req : HttpRequest) (s : Socket ο ω) : Socket ο ω × Bool :=
  (route (handlers app) (router app).tree method req.getUrl s).getD (s, false)

def anyMethod : Bytes := bytes ['*']

/-- Routes the method and the URL in two passes. -/
def routeTwice (req : HttpRequest) (s : Socket ο ω) : Socket ο ω × Bool :=
  match routeBy app req.getMethod req s with
  | (s, true) => (s, true)
  | (s, false) => routeBy app anyMethod req s

def Socket.reset (s : Socket ο ω) : Socket ο ω := { s with data := { s.data with offset := 0 } }

/-- Mark pending request. -/
def Socket.markPending (s : Socket ο ω) : Socket ο ω :=
  { s with data := { s.data with
    statusCalled := false, endCalled := false, responsePending := true } }

/-- The request handler of `HttpContext`. To respond or to attach an abort handler is a duty
of the route's handler. -/
def onRequest (s : Socket ο ω) (req : HttpRequest) : Socket ο ω × Bool :=
  let s := s.reset
  if s.data.responsePending then (s, false)
  else
    match routeTwice app req s.markPending with
    | (s, false) => (s, false)
    | (s, true) =>
        if ¬ s.hasResponded ∧ ¬ s.data.onAborted then ({ s with terminated := true }, false)
        else (s, true)

/-- There are no data handlers, and an error closes the socket. -/
def httpContext : Handlers (Socket ο ω) where
  request := onRequest app
  data s _ _ := (s, true)
  error s := (s, false)

end

/-- A socket that has just been opened. -/
def Socket.fresh {ο ω : Type*} (out : ο) (user : ω) : Socket ο ω where
  data := { statusCalled := false, endCalled := false, responsePending := false,
            onAborted := false, offset := 0 }
  out := out
  terminated := false
  user := user

/-! ## The routes of `main` -/

def GET : Bytes := bytes ['g', 'e', 't']

def ping : Bytes := bytes ['p', 'i', 'n', 'g']

def start_expo : Bytes := bytes ['s', 't', 'a', 'r', 't', '_', 'e', 'x', 'p', 'o']

def stop_expo : Bytes := bytes ['s', 't', 'o', 'p', '_', 'e', 'x', 'p', 'o']

def expo_cnt : Bytes := bytes [':', 'e', 'x', 'p', 'o', '_', 'c', 'n', 't']

def pong : Bytes := bytes ['p', 'o', 'n', 'g']

def ok : Bytes := bytes ['o', 'k']

def slash : Bytes := bytes ['/']

/-- A request is made of the cameras. -/
def Socket.make {ο : Type*} (r : Request) (s : Socket ο (List Request)) :
    Socket ο (List Request) :=
  { s with user := s.user ++ [r] }

def th_http {ο : Type*} (W : Sink ο) : List (Route ο (List Request)) :=
  [{ method := GET, pattern := slash ++ ping, handler := fun s _ => s.endWith W pong },
   { method := GET, pattern := slash ++ start_expo ++ slash ++ expo_cnt,
     handler := fun s params => (s.make (startExpo (text (params.getD 0 [])))).endWith W ok },
   { method := GET, pattern := slash ++ stop_expo,
     handler := fun s _ => (s.make .stopExpo).endWith W ok }]

/-! ## Calls -/

inductive Call
  | ping
  | startExpo (param : Bytes)
  | stopExpo
  deriving DecidableEq

namespace Call

/-- What is made of the cameras. -/
def request : Call → Option Request
  | .ping => none
  | .startExpo param => some (Http.startExpo (text param))
  | .stopExpo => some .stopExpo

def reply : Call → Bytes
  | .ping => pong
  | .startExpo _ => ok
  | .stopExpo => ok

theorem reply_pos (call : Call) : 0 < call.reply.length := by
  cases call with
  | ping => decide
  | startExpo param => exact Nat.two_pos
  | stopExpo => decide

/-- The call of a method and a URL. What follows an empty segment is left out. -/
def ofUrl (method url : Bytes) : Option Call :=
  if method ≠ GET then none
  else match urlSegments url with
    | [] => none
    | name :: rest =>
        if name = Http.ping ∧ rest.headD [] = [] then some .ping
        else if name = start_expo ∧ rest.headD [] ≠ [] ∧ rest.tail.headD [] = [] then
          some (.startExpo (rest.headD []))
        else if name = stop_expo ∧ rest.headD [] = [] then some .stopExpo
        else none

end Call

/-- What goes before the body of a response, write by write. -/
def heading (length : Nat) : List Bytes :=
  [bytes ['H', 'T', 'T', 'P', '/', '1', '.', '1', ' '], Socket.HTTP_200_OK, [CR, LF],
   bytes ['u', 'W', 'e', 'b', 'S', 'o', 'c', 'k', 'e', 't', 's'], bytes [':', ' '],
   bytes ['v', '0', '.', '1', '6'], [CR, LF],
   bytes ['C', 'o', 'n', 't', 'e', 'n', 't', '-', 'L', 'e', 'n', 'g', 't', 'h', ':', ' '],
   bytes (decimal length), [CR, LF, CR, LF]]

/-- The whole of a response. -/
def response (data : Bytes) : Bytes := (heading data.length).flatten ++ data

/-- Writes a response; how much of its body is taken. -/
def Sink.respond {ο : Type*} (W : Sink ο) (data : Bytes) (out : ο) : Nat × ο :=
  W.write data (W.writeAll (heading data.length) out)

theorem Sink.writeAll_whole (writes : List Bytes) (sent : Bytes) :
    whole.writeAll writes sent = sent ++ writes.flatten := by
  induction writes generalizing sent with
  | nil => exact (List.append_nil sent).symm
  | cons src rest ih =>
      rw [writeAll, List.foldl_cons, ← writeAll, ih, List.flatten_cons, ← List.append_assoc]
      rfl

theorem Sink.respond_whole (data sent : Bytes) :
    whole.respond data sent = (data.length, sent ++ response data) := by
  rw [respond, writeAll_whole, response, ← List.append_assoc]
  rfl

namespace Socket

variable {ο ω : Type*} {W : Sink ο}

/-- The response that ends a request: it is done when all of the body has been taken. -/
theorem endWith_fresh {s : Socket ο ω} (data : Bytes) (hstatus : s.data.statusCalled = false)
    (hend : s.data.endCalled = false) (hoffset : s.data.offset = 0) :
    s.endWith W data =
      let written := (W.respond data s.out).1
      { s with
        out := (W.respond data s.out).2
        data :=
          if written = data.length then
            { statusCalled := true, endCalled := true, responsePending := false,
              onAborted := false, offset := written }
          else { s.data with statusCalled := true, endCalled := true, offset := written } } := by
  have hsize : (if data.length = 0 then data.length else data.length) = data.length := ite_self _
  simp only [endWith, internalEnd, writeStatus, writeMark, writeHeader, writeUnsigned, write,
    hstatus, hend, hoffset, hsize, Bool.false_eq_true, if_false, if_true, Nat.zero_add]
  by_cases hall : (W.respond data s.out).1 = data.length
  · rw [if_pos hall]
    exact if_pos hall
  · rw [if_neg hall]
    exact if_neg hall

end Socket

/-- The methods and patterns of the routes. -/
theorem router_th_http {ο : Type*} (W : Sink ο) :
    router (th_http W) = .ofList [(GET, slash ++ ping),
      (GET, slash ++ start_expo ++ slash ++ expo_cnt), (GET, slash ++ stop_expo)] := rfl

theorem tree_th_http {ο : Type*} (W : Sink ο) : (router (th_http W)).tree =
    .cons GET 0
      (.cons ping 1 .nil
        (.cons start_expo 0 (.cons expo_cnt 2 .nil .nil)
          (.cons stop_expo 3 .nil .nil))) .nil := by
  rw [router_th_http]
  decide +kernel

/-- The handler of a call, by its number, and its parameters. -/
def Call.candidate : Call → Nat × List Bytes
  | .ping => (1, [])
  | .startExpo param => (2, [param])
  | .stopExpo => (3, [])

/-- A request has one candidate, or none. -/
theorem candidates_th_http {ο : Type*} (W : Sink ο) (method url : Bytes) :
    (router (th_http W)).tree.routeCandidates method url =
      ((Call.ofUrl method url).map Call.candidate).toList := by
  rw [tree_th_http, Nodes.routeCandidates, Nodes.routeCandidates, Call.ofUrl]
  by_cases hmethod : method = GET
  · rw [if_pos hmethod.symm, if_neg (not_not_intro hmethod)]
    cases urlSegments url with
    | nil => decide +kernel
    | cons name rest =>
        have hping : wildcard ping = false ∧ parameter ping = false := by decide +kernel
        have hstart : wildcard start_expo = false ∧ parameter start_expo = false := by
          decide +kernel
        have hstop : wildcard stop_expo = false ∧ parameter stop_expo = false := by
          decide +kernel
        have hcnt : wildcard expo_cnt = false ∧ parameter expo_cnt = true := by decide +kernel
        simp only [Nodes.candidates, hping, hstart, hstop, hcnt, reached, Bool.false_eq_true,
          false_and, true_and, if_false, List.headD_cons, List.tail_cons, ne_eq,
          OfNat.ofNat_ne_zero, one_ne_zero, not_false_eq_true, not_true_eq_false, if_true,
          List.append_nil, List.nil_append]
        generalize rest.headD [] = param
        generalize rest.tail.headD [] = after
        have hnames : ping ≠ start_expo ∧ ping ≠ stop_expo ∧ start_expo ≠ stop_expo := by
          decide +kernel
        obtain ⟨hne1, hne2, hne3⟩ := hnames
        by_cases hend : param = []
        · by_cases h1 : name = ping
          · simp [hend, h1, hne1.symm, hne2.symm, Call.candidate]
          by_cases h2 : name = start_expo
          · simp [hend, h2, hne1, hne1.symm, hne3, hne3.symm]
          by_cases h3 : name = stop_expo
          · simp [hend, h3, hne2, hne2.symm, hne3, Call.candidate]
          · simp [hend, h1, h2, h3, Ne.symm h1, Ne.symm h2, Ne.symm h3]
        · by_cases h2 : name = start_expo
          · by_cases hafter : after = []
            · simp [hend, hafter, h2, hne1, hne3.symm, Call.candidate]
            · simp [hend, hafter, h2, hne1, hne3.symm]
          · simp [hend, h2, Ne.symm h2]
  · rw [if_neg (Ne.symm hmethod), if_pos hmethod]
    rfl

/-! ## One request -/

section
variable {ο : Type*} {W : Sink ο}

/-- Nothing is pending, and no abort handler is attached. -/
structure Quiet (s : Socket ο (List Request)) : Prop where
  done : s.data.responsePending = false
  alone : s.data.onAborted = false

/-- The socket after a call. -/
def Call.serve (W : Sink ο) (call : Call) (s : Socket ο (List Request)) :
    Socket ο (List Request) where
  data := { statusCalled := true, endCalled := true, responsePending := false,
            onAborted := false, offset := call.reply.length }
  out := (W.respond call.reply s.out).2
  terminated := s.terminated
  user := s.user ++ call.request.toList

/-- The socket after a call when the body of the response has not been taken. -/
def Call.fail (W : Sink ο) (call : Call) (s : Socket ο (List Request)) :
    Socket ο (List Request) where
  data := { statusCalled := true, endCalled := true, responsePending := true,
            onAborted := false, offset := (W.respond call.reply s.out).1 }
  out := (W.respond call.reply s.out).2
  terminated := true
  user := s.user ++ call.request.toList

theorem Call.serve_quiet (call : Call) (s : Socket ο (List Request)) : Quiet (call.serve W s) :=
  ⟨rfl, rfl⟩

theorem routeBy_th_http (method : Bytes) (req : HttpRequest) (s : Socket ο (List Request)) :
    routeBy (th_http W) method req s = match Call.ofUrl method req.getUrl with
      | some call => handlers (th_http W) call.candidate.1 s call.candidate.2
      | none => (s, false) := by
  have hroute : route (handlers (th_http W)) (router (th_http W)).tree method req.getUrl s =
      some (tryInOrder (handlers (th_http W))
        ((router (th_http W)).tree.routeCandidates method req.getUrl) s) := by
    rw [tree_th_http, Nodes.routeCandidates]
    by_cases hmethod : GET = method
    · rw [if_pos hmethod, hmethod]
      exact route_method _ method _ _ _ _ s
    · rw [if_neg hmethod, route, if_neg hmethod]
      rfl
  rw [routeBy, hroute, candidates_th_http]
  cases Call.ofUrl method req.getUrl with
  | none => rfl
  | some call =>
      cases call with
      | ping => rfl
      | startExpo param => rfl
      | stopExpo => rfl

/-- What the handler of a call does. -/
theorem handlers_th_http (call : Call) (s : Socket ο (List Request)) :
    handlers (th_http W) call.candidate.1 s call.candidate.2 =
      ({ s with user := s.user ++ call.request.toList }.endWith W call.reply, true) := by
  cases call with
  | ping =>
      rw [Call.request, Option.toList_none, List.append_nil]
      rfl
  | startExpo param => rfl
  | stopExpo => rfl

/-- A call is served, unless the body of its response is not taken: that is the end of the
program. What is no call closes the socket. -/
theorem onRequest_th_http {s : Socket ο (List Request)} (req : HttpRequest) (hs : Quiet s) :
    onRequest (th_http W) s req = match Call.ofUrl req.getMethod req.getUrl with
      | some call =>
          if (W.respond call.reply s.out).1 = call.reply.length then (call.serve W s, true)
          else (call.fail W s, false)
      | none => (s.reset.markPending, false) := by
  have hany : Call.ofUrl anyMethod req.getUrl = none := by
    rw [Call.ofUrl, if_pos (by decide +kernel)]
  have hidle : s.reset.data.responsePending = false := hs.done
  rw [onRequest]
  simp only [hidle, Bool.false_eq_true, if_false, routeTwice, routeBy_th_http, hany]
  cases Call.ofUrl req.getMethod req.getUrl with
  | none => rfl
  | some call =>
      simp only [handlers_th_http]
      rw [Socket.endWith_fresh call.reply rfl rfl rfl]
      by_cases hall : (W.respond call.reply s.out).1 = call.reply.length
      · simp only [Socket.markPending, Socket.reset, hall, if_true, Socket.hasResponded]
        simp [Call.serve]
      · simp only [Socket.markPending, Socket.reset, hall, if_false, Socket.hasResponded]
        simp [Call.fail, hs.alone]

end

/-! ## Runs -/

/-- The requests made of the cameras and the responses sent are those of `calls`, in order,
and `std::terminate` has not been called. -/
structure Served (calls : List Call) (s : Socket Bytes (List Request)) : Prop where
  requests : s.user = calls.filterMap Call.request
  responses : s.out = calls.flatMap fun call => response call.reply
  running : s.terminated = false

/-- Between two requests. -/
structure Idle (s : Socket Bytes (List Request)) : Prop where
  served : ∃ calls, Served calls s
  quiet : Quiet s

/-- Where all writes are taken, a call is served. -/
theorem onRequest_whole {s : Socket Bytes (List Request)} (req : HttpRequest) (hs : Quiet s) :
    onRequest (th_http .whole) s req = match Call.ofUrl req.getMethod req.getUrl with
      | some call => (call.serve .whole s, true)
      | none => (s.reset.markPending, false) := by
  rw [onRequest_th_http req hs]
  cases Call.ofUrl req.getMethod req.getUrl with
  | none => rfl
  | some call => exact if_pos (congrArg Prod.fst (Sink.respond_whole call.reply s.out))

theorem Call.serve_whole (call : Call) (s : Socket Bytes (List Request)) :
    (call.serve .whole s).out = s.out ++ response call.reply := by
  rw [Call.serve, Sink.respond_whole]

theorem Served.serve {calls : List Call} {s : Socket Bytes (List Request)}
    (h : Served calls s) (call : Call) : Served (calls ++ [call]) (call.serve .whole s) := by
  refine ⟨?_, ?_, h.running⟩
  · rw [Call.serve, h.requests, List.filterMap_append]
    cases hrequest : call.request with
    | none => simp [hrequest]
    | some r => simp [hrequest]
  · rw [Call.serve_whole, h.responses, List.flatMap_append, List.flatMap_singleton]

theorem keeps_th_http :
    (httpContext (th_http .whole)).Keeps Idle (fun s => ∃ calls, Served calls s) where
  served := by
    rintro s req s' ⟨⟨calls, hserved⟩, hquiet⟩ hrequest
    have hspec := (onRequest_whole req hquiet).symm.trans hrequest
    cases hcall : Call.ofUrl req.getMethod req.getUrl with
    | none =>
        rw [hcall] at hspec
        cases hspec
    | some call =>
        rw [hcall] at hspec
        cases hspec
        exact ⟨⟨_, hserved.serve call⟩, call.serve_quiet s⟩
  closed := by
    rintro s req s' ⟨⟨calls, hserved⟩, hquiet⟩ hrequest
    have hspec := (onRequest_whole req hquiet).symm.trans hrequest
    cases hcall : Call.ofUrl req.getMethod req.getUrl with
    | none =>
        rw [hcall] at hspec
        cases hspec
        exact ⟨calls, hserved.requests, hserved.responses, hserved.running⟩
    | some call =>
        rw [hcall] at hspec
        cases hspec
  data hs hdata := by
    cases hdata
    exact hs
  error hs herror := by
    cases herror
    exact hs
  weaken hs := hs.served

/-- Whatever bytes arrive, in whatever pieces, on a socket whose writes are all taken: the
requests made of the cameras and the responses sent are those of one list of calls, in
order, nothing is pending while the connection is open, and `std::terminate` is not
called. -/
theorem served_in_order (chunks : List Bytes) :
    (chunks.foldl (Connection.receive (httpContext (th_http .whole)))
      (opened (.fresh [] []))).Keeps Idle (fun s => ∃ calls, Served calls s) :=
  run_keeps keeps_th_http chunks ⟨⟨[], rfl, rfl, rfl⟩, ⟨rfl, rfl⟩⟩

end AutoExpo.Http
