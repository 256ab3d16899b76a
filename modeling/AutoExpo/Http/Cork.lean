import AutoExpo.Http.Clients

/-!
# The cork buffer

Two ways in which the cork buffer fails the clients. A socket that its handlers close
is not uncorked: what it has corked goes to the next client that is served
(`leftover_sent`). And a response whose body overflows the buffer, when the network
does not take what is corked, ends the program: this is decided by the sizes of the
responses (`overflow_terminates`).
-/

namespace AutoExpo.Http

variable {ι : Type*} [DecidableEq ι]

namespace Loop

/-- The socket is corked, and nothing of it is buffered. -/
structure Corked (i : ι) (l : Loop ι) : Prop where
  isOpen : (l.out i).closed = false
  buffer : (l.out i).buffer = []
  corked : l.corkedSocket = some i

/-- The socket is not corked any more. -/
structure Free (i : ι) (l : Loop ι) : Prop where
  isOpen : (l.out i).closed = false
  free : l.corkedSocket = none

variable {i : ι} {l : Loop ι}

omit [DecidableEq ι] in
theorem Corked.inCallback (h : Corked i l) : InCallback i l :=
  ⟨h.isOpen, fun _ => h.corked, fun hb => absurd h.buffer hb⟩

/-- What is corked is `bytes`. -/
def corking (bytes : Bytes) (l : Loop ι) : Loop ι := { l with corkBuffer := bytes }

omit [DecidableEq ι] in
theorem Corked.corking (h : Corked i l) (bytes : Bytes) : Corked i (l.corking bytes) :=
  ⟨h.isOpen, h.buffer, h.corked⟩

/-- A write that fits is corked. -/
theorem Corked.write (h : Corked i l) {src : Bytes}
    (hfits : l.corkBuffer.length + src.length ≤ CORK_BUFFER_SIZE) :
    (sink i).write src l = (src.length, l.corking (l.corkBuffer ++ src)) := by
  have hwrite : l.write i src false =
      ((src.length, false), l.corking (l.corkBuffer ++ src)) := by
    rw [Loop.write, h.isOpen, if_neg Bool.false_ne_true, drain_of_nil src false h.buffer]
    by_cases hsrc : src = []
    · simp only [hsrc, if_true, List.append_nil, List.length_nil]
      rfl
    · have hroom : src.length ≤ CORK_BUFFER_SIZE - l.corkBuffer.length := by omega
      simp only [hsrc, if_false]
      rw [if_pos h.corked, if_pos hroom]
      rfl
  rw [sink_write, hwrite]

/-- Writes that fit are corked, one after the other. -/
theorem Corked.writeAll (h : Corked i l) {writes : List Bytes}
    (hfits : l.corkBuffer.length + writes.flatten.length ≤ CORK_BUFFER_SIZE) :
    (sink i).writeAll writes l = l.corking (l.corkBuffer ++ writes.flatten) := by
  induction writes generalizing l with
  | nil =>
      rw [List.flatten_nil, List.append_nil]
      rfl
  | cons src rest ih =>
      rw [List.flatten_cons, List.length_append] at hfits
      have hroom : (l.corkBuffer ++ src).length + rest.flatten.length ≤ CORK_BUFFER_SIZE := by
        rw [List.length_append]
        omega
      rw [Sink.writeAll, List.foldl_cons, ← Sink.writeAll, h.write (by omega),
        ih (h.corking (l.corkBuffer ++ src)) hroom, List.flatten_cons, ← List.append_assoc]
      rfl

/-- Nothing is refused of a socket that is not corked. -/
theorem Free.writeUncorked (h : Free i l) (src : Bytes) :
    (l.writeUncorked i src false).1.1 = src.length ∧ Free i (l.writeUncorked i src false).2 := by
  obtain ⟨hall, hadds⟩ := writeUncorked_spec src h.isOpen
  exact ⟨hall, hadds.closed.trans h.isOpen, hadds.corkedSocket.trans h.free⟩

theorem Free.write (h : Free i l) (src : Bytes) :
    ((sink i).write src l).1 = src.length ∧ Free i ((sink i).write src l).2 := by
  have hsame : l.write i src false = l.writeUncorked i src false := by
    have hcork : ∀ l' : Loop ι, Adds i [] l l' → l'.corkedSocket ≠ some i := by
      intro l' hadds
      rw [hadds.corkedSocket, h.free]
      nofun
    have hdrain := drain_spec i src l
    rw [Loop.write, Loop.writeUncorked]
    cases hresult : l.drain i src false with
    | mk result l₁ =>
        rw [hresult] at hdrain
        cases result with
        | some result => rfl
        | none => simp only [hcork l₁ hdrain.1, if_false]
  have hwrite := h.writeUncorked src
  rw [← hsame] at hwrite
  exact hwrite

theorem Free.writeAll (h : Free i l) (writes : List Bytes) :
    Free i ((sink i).writeAll writes l) := by
  induction writes generalizing l with
  | nil => exact h
  | cons src rest ih => exact ih (h.write src).2

/-- With nothing buffered, a write fails if the network does not take all of it. -/
theorem writeUncorked_failed (src : Bytes) (hopen : (l.out i).closed = false)
    (hbuffer : (l.out i).buffer = []) :
    (l.writeUncorked i src false).1.2 = decide (l.room.headD 0 < src.length) := by
  rw [Loop.writeUncorked, hopen, if_neg Bool.false_ne_true, drain_of_nil src false hbuffer]
  by_cases hsrc : src = []
  · simp [hsrc]
  · by_cases hpart : l.room.headD 0 < src.length
    · have hmin : min (l.room.headD 0) src.length < src.length := by omega
      simp only [hsrc, writeThrough, usSocketWrite, hmin, if_true, if_false, Bool.false_eq_true,
        decide_eq_true hpart]
    · have hmin : ¬ min (l.room.headD 0) src.length < src.length := by omega
      simp only [hsrc, writeThrough, usSocketWrite, hmin, if_false, decide_eq_false hpart]

/-- The cork is taken off, and the write refused if the network does not take what is corked. -/
theorem Corked.uncork (h : Corked i l) (src : Bytes) :
    (l.uncork i src false).1.1 =
      (if l.room.headD 0 < l.corkBuffer.length then 0 else src.length) ∧
      Free i (l.uncork i src false).2 := by
  have hfree : Free i { l with corkedSocket := none } := ⟨h.isOpen, rfl⟩
  rw [Loop.uncork, if_pos h.corked]
  by_cases hnil : l.corkBuffer = []
  · simp only [hnil, if_true, List.length_nil, Nat.not_lt_zero, if_false]
    rw [hnil] at hfree
    exact hfree.writeUncorked src
  simp only [hnil, if_false]
  have hfailed := writeUncorked_failed (l := { l with corkedSocket := none }) l.corkBuffer
    h.isOpen h.buffer
  obtain ⟨-, hfree'⟩ := hfree.writeUncorked l.corkBuffer
  cases hresult : Loop.writeUncorked i l.corkBuffer false { l with corkedSocket := none } with
  | mk result l₁ =>
      obtain ⟨written, failed⟩ := result
      rw [hresult] at hfailed hfree'
      have hfree₁ : Free i { l₁ with corkBuffer := [] } := ⟨hfree'.isOpen, hfree'.free⟩
      by_cases hroom : l.room.headD 0 < l.corkBuffer.length
      · have htrue : failed = true := hfailed.trans (decide_eq_true hroom)
        simp only [htrue, hroom, if_true]
        exact ⟨trivial, hfree₁⟩
      · have hfalse : failed = false := hfailed.trans (decide_eq_false hroom)
        simp only [hfalse, hroom, Bool.false_eq_true, if_false]
        exact hfree₁.writeUncorked src

/-- A write that does not fit takes the cork off. -/
theorem Corked.write_over (h : Corked i l) {src : Bytes}
    (hfits : l.corkBuffer.length ≤ CORK_BUFFER_SIZE)
    (hover : CORK_BUFFER_SIZE < l.corkBuffer.length + src.length) :
    ((sink i).write src l).1 =
      (if l.room.headD 0 < l.corkBuffer.length then 0 else src.length) ∧
      Free i ((sink i).write src l).2 := by
  have hsrc : src ≠ [] := by
    rintro rfl
    exact absurd hover (Nat.not_lt.mpr hfits)
  have hroom : ¬ src.length ≤ CORK_BUFFER_SIZE - l.corkBuffer.length := by omega
  have hwrite : l.write i src false = l.uncork i src false := by
    rw [Loop.write, h.isOpen, if_neg Bool.false_ne_true, drain_of_nil src false h.buffer]
    simp only [hsrc, h.corked, hroom, if_true, if_false]
  have huncork := h.uncork src
  rw [← hwrite] at huncork
  exact huncork

/-- Writes that do not fit take the cork off. -/
theorem Corked.writeAll_over (h : Corked i l) {writes : List Bytes}
    (hfits : l.corkBuffer.length ≤ CORK_BUFFER_SIZE)
    (hover : CORK_BUFFER_SIZE < l.corkBuffer.length + writes.flatten.length) :
    Free i ((sink i).writeAll writes l) := by
  induction writes generalizing l with
  | nil =>
      rw [List.flatten_nil, List.length_nil] at hover
      omega
  | cons src rest ih =>
      rw [List.flatten_cons, List.length_append] at hover
      rw [Sink.writeAll, List.foldl_cons, ← Sink.writeAll]
      by_cases hsrc : l.corkBuffer.length + src.length ≤ CORK_BUFFER_SIZE
      · rw [h.write hsrc]
        have hlen : (l.corkBuffer ++ src).length = l.corkBuffer.length + src.length :=
          List.length_append
        exact ih (h.corking (l.corkBuffer ++ src)) (hlen.trans_le hsrc)
          (by rw [Loop.corking, hlen]; omega)
      · exact (h.write_over hfits (Nat.lt_of_not_le hsrc)).2.writeAll rest

end Loop

/-! ## What a closed socket leaves -/

/-- A connection after a chunk, on its own, with nothing sent before it. -/
def Connection.reply (conn : Connection (Socket Unit (List Request))) (chunk : Bytes) :
    Connection (Socket Bytes (List Request)) :=
  (conn.map (·.put [])).receive (httpContext (th_http .whole)) chunk

/-- What is answered to a chunk. -/
def Connection.answer (conn : Connection (Socket Unit (List Request))) (chunk : Bytes) : Bytes :=
  (conn.reply chunk).user.out

variable {c : Clients ι} {i : ι}

/-- Connection `i` is open and waits for a request, and nothing of it is buffered. -/
structure Awaits (i : ι) (c : Clients ι) : Prop where
  waiting : ∃ p s, c.conn i = .live p s ∧ Quiet s
  isOpen : (c.loop.out i).closed = false
  buffer : (c.loop.out i).buffer = []

/-- An answer that fits is corked, after what is corked already. -/
theorem callback_corked (h : Awaits i c) (chunk : Bytes) (room : List Nat)
    (hfits : c.loop.corkBuffer.length + ((c.conn i).answer chunk).length ≤ CORK_BUFFER_SIZE) :
    (c.callback i chunk room).isClosed = ((c.conn i).reply chunk).isClosed ∧
      (c.callback i chunk room).user.out = ((c.entered i room).corking
        (c.loop.corkBuffer ++ (c.conn i).answer chunk), false) := by
  obtain ⟨p, s, hconn, hquiet⟩ := h.waiting
  have hcorked : Loop.Corked i (c.entered i room) := ⟨h.isOpen, h.buffer, rfl⟩
  let R : Loop ι → Bytes → Prop := fun l sent =>
    l = (c.entered i room).corking (c.loop.corkBuffer ++ sent)
  have hwrite : ∀ (src : Bytes) (l : Loop ι) (sent : Bytes), R l sent →
      sent.length + src.length ≤ CORK_BUFFER_SIZE - c.loop.corkBuffer.length →
      ((Loop.sink i).write src l).1 = src.length ∧
        R ((Loop.sink i).write src l).2 (sent ++ src) := by
    rintro src l sent rfl hroom
    have hlen : (c.loop.corkBuffer ++ sent).length + src.length ≤ CORK_BUFFER_SIZE := by
      rw [List.length_append]
      omega
    rw [(hcorked.corking (c.loop.corkBuffer ++ sent)).write hlen]
    refine ⟨rfl, ?_⟩
    show Loop.corking (c.loop.corkBuffer ++ sent ++ src) _ = _
    rw [List.append_assoc]
    rfl
  let fresh : Socket Bytes (List Request) := s.put []
  have hfresh : c.conn i = .live p (fresh.put ()) := hconn
  have hstart : R (c.entered i room) fresh.out := by
    show c.entered i room = (c.entered i room).corking (c.loop.corkBuffer ++ [])
    rw [List.append_nil]
    rfl
  have hfollows := callback_fits chunk room hwrite hfresh ⟨hquiet.done, hquiet.alone⟩ hstart
  have hreply : (c.conn i).reply chunk =
      (Connection.live p fresh).receive (httpContext (th_http .whole)) chunk := by
    rw [hconn]
    rfl
  rw [Connection.answer] at hfits ⊢
  rw [← hreply] at hfollows
  generalize (c.conn i).reply chunk = conn' at hfollows hfits ⊢
  generalize c.callback i chunk room = conn at hfollows ⊢
  cases hfollows with
  | wrong hwrong =>
      have hlong : CORK_BUFFER_SIZE - c.loop.corkBuffer.length < conn'.user.out.length := by
        cases conn' with
        | live p' s' => exact hwrong.out
        | closed s' => exact hwrong.out
      omega
  | live h => exact ⟨rfl, Prod.ext h.1.related h.1.taken⟩
  | closed h => exact ⟨rfl, Prod.ext h.related h.taken⟩

omit [DecidableEq ι] in
theorem Apart.awaits {conns : ι → Connection (Socket Bytes (List Request))} (h : Apart conns c)
    (hlive : (c.conn i).isClosed = false) (hbuffer : (c.loop.out i).buffer = []) :
    Awaits i c := by
  have hconn := h.same i
  have hquiet := h.quiet i
  have hopen : (c.loop.out i).closed = false := by
    rw [h.closed, ← hlive, hconn, Connection.isClosed_map]
  refine ⟨?_, hopen, hbuffer⟩
  cases hown : conns i with
  | closed s =>
      rw [h.same, hown] at hlive
      cases hlive
  | live p s =>
      rw [hown] at hconn hquiet
      exact ⟨p, s.put (), hconn, ⟨hquiet.done, hquiet.alone⟩⟩

theorem Awaits.step (h : Awaits i c) (chunk : Bytes) (room : List Nat) :
    c.step (.data i chunk room) = c.finish i (c.callback i chunk room) := by
  obtain ⟨p, s, hconn, -⟩ := h.waiting
  rw [Clients.step, hconn]
  rfl

/-- A socket that its handlers close leaves its answer corked. -/
theorem step_closes (h : Awaits i c) (chunk : Bytes) (room : List Nat)
    (hfits : c.loop.corkBuffer.length + ((c.conn i).answer chunk).length ≤ CORK_BUFFER_SIZE)
    (hcloses : ((c.conn i).reply chunk).isClosed = true) :
    (c.step (.data i chunk room)).loop = ((c.entered i room).corking
      (c.loop.corkBuffer ++ (c.conn i).answer chunk)).close i := by
  obtain ⟨hclosed, hout⟩ := callback_corked h chunk room hfits
  rw [h.step, Clients.finish]
  simp only [hclosed, hcloses, if_true, hout]

/-- A socket that stays open sends what is corked, and then its answer. -/
theorem step_stays (h : Awaits i c) (chunk : Bytes) (room : List Nat)
    (hfits : c.loop.corkBuffer.length + ((c.conn i).answer chunk).length ≤ CORK_BUFFER_SIZE)
    (hstays : ((c.conn i).reply chunk).isClosed = false) :
    (c.step (.data i chunk room)).loop.held i =
        c.loop.held i ++ c.loop.corkBuffer ++ (c.conn i).answer chunk ∧
      ∀ j, j ≠ i → (c.step (.data i chunk room)).loop.out j = c.loop.out j := by
  obtain ⟨hclosed, hout⟩ := callback_corked h chunk room hfits
  have hcorked : Loop.Corked i (c.entered i room) := ⟨h.isOpen, h.buffer, rfl⟩
  obtain ⟨hend, -, hheld⟩ := Loop.uncork_end
    (hcorked.corking (c.loop.corkBuffer ++ (c.conn i).answer chunk)).inCallback
  have hloop : (c.step (.data i chunk room)).loop = (((c.entered i room).corking
      (c.loop.corkBuffer ++ (c.conn i).answer chunk)).uncork i [] false).2 := by
    rw [h.step, Clients.finish]
    simp only [hclosed, hstays, Bool.false_eq_true, if_false, hout]
  rw [hloop]
  refine ⟨?_, hend.others⟩
  rw [hheld, List.append_assoc]
  rfl

/-- In any run that has gone well: when a client makes calls and then a request that closes its
connection, its responses go to the next client that is served, before that client's own. -/
theorem leftover_sent {events : List (Event ι)} (hclean : (Clients.run events).Clean) {i j : ι}
    (hij : j ≠ i) {chunk chunk' : Bytes} (room room' : List Nat)
    (hi : ((Clients.run events).conn i).isClosed = false)
    (hj : ((Clients.run events).conn j).isClosed = false)
    (hbuffer : ((Clients.run events).loop.out i).buffer = [])
    (hbuffer' : ((Clients.run events).loop.out j).buffer = [])
    (hcloses : (((Clients.run events).conn i).reply chunk).isClosed = true)
    (hstays : (((Clients.run events).conn j).reply chunk').isClosed = false)
    (hfits : (((Clients.run events).conn i).answer chunk).length +
      (((Clients.run events).conn j).answer chunk').length ≤ CORK_BUFFER_SIZE) :
    (Clients.run (events ++ [.data i chunk room, .data j chunk' room'])).loop.held i =
        (Clients.run events).loop.held i ∧
      (Clients.run (events ++ [.data i chunk room, .data j chunk' room'])).loop.held j =
        (Clients.run events).loop.held j ++ ((Clients.run events).conn i).answer chunk ++
          ((Clients.run events).conn j).answer chunk' := by
  have hapart := Apart.start.run events hclean
  have hrun : Clients.run (events ++ [.data i chunk room, .data j chunk' room']) =
      ((Clients.run events).step (.data i chunk room)).step (.data j chunk' room') := by
    rw [Clients.run, List.foldl_append]
    rfl
  have hnil : (Clients.run events).loop.corkBuffer = [] := hapart.corkBuffer
  rw [hrun]
  have hri : Awaits i (Clients.run events) := hapart.awaits hi hbuffer
  have hrj : Awaits j (Clients.run events) := hapart.awaits hj hbuffer'
  generalize Clients.run events = c at *
  have hloop := step_closes hri chunk room (by rw [hnil, List.length_nil]; omega) hcloses
  have hconn : (c.step (.data i chunk room)).conn j = c.conn j := by
    rw [hri.step]
    exact Clients.finish_conn_of_ne hij _ c
  generalize c.step (.data i chunk room) = c₁ at hloop hconn ⊢
  have hout : c₁.loop.out j = c.loop.out j := by
    rw [hloop, Loop.close_out_of_ne hij]
    rfl
  have hcork : c₁.loop.corkBuffer = (c.conn i).answer chunk := by
    rw [hloop, hnil]
    rfl
  have hready₁ : Awaits j c₁ :=
    ⟨hconn ▸ hrj.waiting, hout ▸ hrj.isOpen, hout ▸ hrj.buffer⟩
  obtain ⟨hheld, hothers⟩ := step_stays hready₁ chunk' room' (by
    rw [hcork, hconn]
    exact hfits) (hconn ▸ hstays)
  refine ⟨?_, ?_⟩
  · rw [Loop.held, hothers i hij.symm, hloop, Loop.close_out]
    rfl
  · rw [hheld, hcork, hconn, Loop.held, hout]
    rfl

/-- A client that pings. -/
def pingMessage : Message := { request := none, headers := [] }

theorem pingMessage_wellFormed : pingMessage.WellFormed :=
  ⟨by decide, by decide, by decide, by decide +kernel⟩

/-- A request for a page that there is not. -/
def strayRequest : Bytes :=
  Header.line 32 (bytes ['G', 'E', 'T']) (bytes ['/', 'x'] ++ Message.version) ++ [CR, LF]

theorem reply_ping : (opened (Socket.fresh () [])).reply pingMessage.render =
    .live ⟨[], 0⟩ (Call.ping.serve .whole (.fresh [] [])) := by
  have hall : ∀ m ∈ [pingMessage], m.WellFormed := fun m hm =>
    List.mem_singleton.mp hm ▸ pingMessage_wellFormed
  have hquiet : Quiet (Socket.fresh [] [] : Socket Bytes (List Request)) := ⟨rfl, rfl⟩
  have hreceive := Message.receive_messages hall hquiet
  rw [List.flatMap_singleton] at hreceive
  exact hreceive

theorem reply_stray : (opened (Socket.fresh () [])).reply (pingMessage.render ++ strayRequest) =
    .closed (Call.ping.serve .whole (.fresh [] [])).reset.markPending := by
  have hbodiless : (httpContext (th_http .whole)).Bodiless := fun _ _ _ => rfl
  have hquiet : Quiet (Socket.fresh [] [] : Socket Bytes (List Request)) := ⟨rfl, rfl⟩
  have hstray : getHeaders MAX_HEADERS true strayRequest =
      some ([⟨GET, bytes ['/', 'x'] ++ Message.version⟩], []) := by
    decide +kernel
  have hrefines := consumeAll_refines hbodiless (pingMessage.render ++ strayRequest)
    (.fresh [] [])
  have hcall : Call.ofUrl (HttpRequest.getMethod ⟨[⟨GET, bytes ['/', 'x'] ++ Message.version⟩]⟩)
      (HttpRequest.getUrl ⟨[⟨GET, bytes ['/', 'x'] ++ Message.version⟩]⟩) = none := by
    decide +kernel
  have hrequest : (httpContext (th_http .whole)).request (Call.ping.serve .whole (.fresh [] []))
      ⟨[⟨GET, bytes ['/', 'x'] ++ Message.version⟩]⟩ =
        ((Call.ping.serve .whole (.fresh [] [])).reset.markPending, false) := by
    have hspec := onRequest_whole (s := Call.ping.serve .whole (.fresh [] []))
      ⟨[⟨GET, bytes ['/', 'x'] ++ Message.version⟩]⟩ (Call.serve_quiet _ _)
    rw [hcall] at hspec
    exact hspec
  rw [Message.settle_message pingMessage_wellFormed hquiet, Sink.respond_whole, if_pos rfl,
    show pingMessage.call = .ping from rfl, settle_request _ hstray, if_neg (by decide +kernel),
    hrequest] at hrefines
  have hclosed := hrefines.closed
  exact hclosed

/-- A client that has sent one ping gets two answers. -/
theorem leftover_sent_twoPings :
    (Clients.run [.data false (pingMessage.render ++ strayRequest) [],
        .data true pingMessage.render []]).loop.held true = response pong ++ response pong := by
  have hclean : (Clients.run ([] : List (Event Bool))).Clean := ⟨rfl, rfl⟩
  have hstray : (opened (Socket.fresh () [])).answer (pingMessage.render ++ strayRequest) =
      response pong := by
    rw [Connection.answer, reply_stray]
    exact Call.serve_whole .ping (.fresh [] [])
  have hping : (opened (Socket.fresh () [])).answer pingMessage.render = response pong := by
    rw [Connection.answer, reply_ping]
    exact Call.serve_whole .ping (.fresh [] [])
  have hfits : ((opened (Socket.fresh () [])).answer (pingMessage.render ++ strayRequest)).length +
      ((opened (Socket.fresh () [])).answer pingMessage.render).length ≤ CORK_BUFFER_SIZE := by
    rw [hstray, hping]
    decide +kernel
  have hleft := (leftover_sent hclean (Bool.noConfusion : true ≠ false) [] [] rfl rfl rfl rfl
    (congrArg Connection.isClosed reply_stray) (congrArg Connection.isClosed reply_ping) hfits).2
  have hconn : ∀ i : Bool, (Clients.run []).conn i = opened (Socket.fresh () []) := fun _ => rfl
  rw [hconn, hconn, hstray, hping] at hleft
  exact hleft

/-! ## Responses that do not fit -/

namespace Loop

variable {l : Loop ι}

/-- A response that fits is corked. -/
theorem Corked.respond (h : Corked i l) {data : Bytes}
    (hfits : l.corkBuffer.length + (response data).length ≤ CORK_BUFFER_SIZE) :
    (sink i).respond data l = (data.length, l.corking (l.corkBuffer ++ response data)) := by
  rw [response, List.length_append] at hfits
  have hlen : (l.corkBuffer ++ (heading data.length).flatten).length + data.length ≤
      CORK_BUFFER_SIZE := by
    rw [List.length_append]
    omega
  rw [Sink.respond, h.writeAll (by omega), (h.corking _).write hlen, response, ← List.append_assoc]
  rfl

/-- A response whose body does not fit: the body is refused if the network does not take what
is corked by then. -/
theorem Corked.respond_body (h : Corked i l) {data : Bytes}
    (hfits : l.corkBuffer.length + (heading data.length).flatten.length ≤ CORK_BUFFER_SIZE)
    (hover : CORK_BUFFER_SIZE < l.corkBuffer.length + (response data).length) :
    ((sink i).respond data l).1 =
      (if l.room.headD 0 < l.corkBuffer.length + (heading data.length).flatten.length then 0
        else data.length) ∧
      Free i ((sink i).respond data l).2 := by
  have hcorked := h.corking (l.corkBuffer ++ (heading data.length).flatten)
  have hlen : (l.corkBuffer ++ (heading data.length).flatten).length =
      l.corkBuffer.length + (heading data.length).flatten.length := List.length_append
  have hwrite := hcorked.write_over (hlen.trans_le hfits) (by
    rw [response, List.length_append] at hover
    show CORK_BUFFER_SIZE < (l.corkBuffer ++ (heading data.length).flatten).length + data.length
    omega)
  rw [Sink.respond, h.writeAll hfits, ← hlen]
  exact hwrite

/-- Nothing is refused of a socket that is not corked. -/
theorem Free.respond (h : Free i l) (data : Bytes) :
    ((sink i).respond data l).1 = data.length ∧ Free i ((sink i).respond data l).2 :=
  (h.writeAll (heading data.length)).write data

/-- A response of which the heading does not fit: its body is taken. -/
theorem Corked.respond_heading (h : Corked i l) {data : Bytes}
    (hfits : l.corkBuffer.length ≤ CORK_BUFFER_SIZE)
    (hover : CORK_BUFFER_SIZE < l.corkBuffer.length + (heading data.length).flatten.length) :
    ((sink i).respond data l).1 = data.length ∧ Free i ((sink i).respond data l).2 :=
  (h.writeAll_over hfits hover).write data

/-- Of a corked socket's responses, one is corked if it fits, its body may be refused if only the
heading fits, and is taken else. -/
theorem Corked.respond_cases (h : Corked i l) (data : Bytes)
    (hfits : l.corkBuffer.length ≤ CORK_BUFFER_SIZE) :
    (l.corkBuffer.length + (response data).length ≤ CORK_BUFFER_SIZE ∧
      (sink i).respond data l = (data.length, l.corking (l.corkBuffer ++ response data))) ∨
    CORK_BUFFER_SIZE < l.corkBuffer.length + (response data).length ∧
      ((l.room.headD 0 < l.corkBuffer.length + (heading data.length).flatten.length ∧
          l.corkBuffer.length + (heading data.length).flatten.length ≤ CORK_BUFFER_SIZE ∧
          ((sink i).respond data l).1 = 0) ∨
        (¬ (l.room.headD 0 < l.corkBuffer.length + (heading data.length).flatten.length ∧
            l.corkBuffer.length + (heading data.length).flatten.length ≤ CORK_BUFFER_SIZE) ∧
          ((sink i).respond data l).1 = data.length ∧ Free i ((sink i).respond data l).2)) := by
  rcases Nat.lt_or_ge CORK_BUFFER_SIZE (l.corkBuffer.length + (response data).length) with
    hover | hall
  · refine .inr ⟨hover, ?_⟩
    rcases Nat.lt_or_ge CORK_BUFFER_SIZE
      (l.corkBuffer.length + (heading data.length).flatten.length) with hlong | hheading
    · exact .inr ⟨fun hno => Nat.not_le.mpr hlong hno.2, h.respond_heading hfits hlong⟩
    · obtain ⟨hbody, hfree⟩ := h.respond_body hheading hover
      by_cases hroom : l.room.headD 0 < l.corkBuffer.length + (heading data.length).flatten.length
      · rw [if_pos hroom] at hbody
        exact .inl ⟨hroom, hheading, hbody⟩
      · rw [if_neg hroom] at hbody
        exact .inr ⟨fun hno => hroom hno.1, hbody, hfree⟩
  · exact .inl ⟨hall, h.respond hall⟩

end Loop

theorem respond_watch {ο : Type*} (W : Sink ο) (data : Bytes) (out : ο × Bool) :
    (W.watch.respond data out).1 = (W.respond data out.1).1 ∧
      (W.watch.respond data out).2.1 = (W.respond data out.1).2 := by
  have hfst : ∀ (writes : List Bytes) (out : ο × Bool),
      (W.watch.writeAll writes out).1 = W.writeAll writes out.1 := by
    intro writes
    induction writes with
    | nil => exact fun _ => rfl
    | cons src rest ih => exact fun out => ih _
  rw [Sink.respond, Sink.respond, watch_write, hfst]
  exact ⟨rfl, rfl⟩

/-- The first response that does not fit the cork buffer, of which `sent` bytes are filled, does
so in its body, and by then more is corked than `room`. -/
def Overflows (room sent : Nat) (messages : List Message) : Prop :=
  ∃ before m after, messages = before ++ m :: after ∧
    room < sent + (before.flatMap fun m => response m.call.reply).length +
      (heading m.call.reply.length).flatten.length ∧
    sent + (before.flatMap fun m => response m.call.reply).length +
      (heading m.call.reply.length).flatten.length ≤ CORK_BUFFER_SIZE ∧
    CORK_BUFFER_SIZE < sent + (before.flatMap fun m => response m.call.reply).length +
      (response m.call.reply).length

theorem overflows_cons {room sent : Nat} {m : Message} {messages : List Message} :
    Overflows room sent (m :: messages) ↔
      (room < sent + (heading m.call.reply.length).flatten.length ∧
        sent + (heading m.call.reply.length).flatten.length ≤ CORK_BUFFER_SIZE ∧
        CORK_BUFFER_SIZE < sent + (response m.call.reply).length) ∨
      Overflows room (sent + (response m.call.reply).length) messages := by
  refine ⟨?_, ?_⟩
  · rintro ⟨before, m', after, hmessages, hroom, hfits, hover⟩
    cases before with
    | nil =>
        obtain ⟨rfl, -⟩ := List.cons.inj hmessages
        exact .inl ⟨hroom, hfits, hover⟩
    | cons m₀ before =>
        obtain ⟨rfl, hrest⟩ := List.cons.inj hmessages
        rw [List.flatMap_cons, List.length_append] at hroom hfits hover
        exact .inr ⟨before, m', after, hrest, by omega, by omega, by omega⟩
  · rintro (hfirst | ⟨before, m', after, rfl, hroom, hfits, hover⟩)
    · exact ⟨[], m, messages, rfl, hfirst⟩
    · refine ⟨m :: before, m', after, rfl, ?_⟩
      rw [List.flatMap_cons, List.length_append]
      exact ⟨by omega, by omega, by omega⟩

/-- Once more has been sent than fits, there is no first response that does not. -/
theorem not_overflows {room sent : Nat} {messages : List Message}
    (h : CORK_BUFFER_SIZE < sent) : ¬ Overflows room sent messages := by
  rintro ⟨before, m, after, -, -, hfits, -⟩
  omega

/-- A socket that is not corked serves all messages. -/
theorem settle_free {messages : List Message} (hall : ∀ m ∈ messages, m.WellFormed)
    {s : Socket (Loop ι × Bool) (List Request)} (hs : Quiet s) (h : Loop.Free i s.out.1) :
    ∃ s', (reader (httpContext (th_http (Loop.sink i).watch))).settle
        (messages.flatMap Message.render) 0 s = .waiting [] 0 s' ∧
      s'.terminated = s.terminated := by
  induction messages generalizing s with
  | nil => exact ⟨s, settle_front s rfl, rfl⟩
  | cons m messages ih =>
      obtain ⟨hfst, hsnd⟩ := respond_watch (Loop.sink i) m.call.reply s.out
      obtain ⟨hbody, hfree⟩ := h.respond m.call.reply
      rw [List.flatMap_cons, Message.settle_message (hall m List.mem_cons_self) hs,
        if_pos (hfst.trans hbody)]
      exact ih (fun m' hm' => hall m' (List.mem_cons_of_mem _ hm')) (m.call.serve_quiet s)
        (hsnd ▸ hfree)

/-- The first response that does not fit decides about the program. -/
theorem settle_corked {messages : List Message} (hall : ∀ m ∈ messages, m.WellFormed)
    {s : Socket (Loop ι × Bool) (List Request)} (hs : Quiet s) (h : Loop.Corked i s.out.1)
    (hfits : s.out.1.corkBuffer.length ≤ CORK_BUFFER_SIZE) (hrunning : s.terminated = false) :
    ∃ s', ((reader (httpContext (th_http (Loop.sink i).watch))).settle
          (messages.flatMap Message.render) 0 s = .waiting [] 0 s' ∨
        (reader (httpContext (th_http (Loop.sink i).watch))).settle
          (messages.flatMap Message.render) 0 s = .stopped s') ∧
      (s'.terminated = true ↔
        Overflows (s.out.1.room.headD 0) s.out.1.corkBuffer.length messages) := by
  induction messages generalizing s with
  | nil =>
      refine ⟨s, .inl (settle_front s rfl), ?_⟩
      rw [hrunning]
      refine ⟨nofun, ?_⟩
      rintro ⟨before, m, after, hnil, -⟩
      exact absurd hnil (by simp)
  | cons m messages ih =>
      have hrest : ∀ m' ∈ messages, m'.WellFormed := fun m' hm' =>
        hall m' (List.mem_cons_of_mem _ hm')
      obtain ⟨hfst, hsnd⟩ := respond_watch (Loop.sink i) m.call.reply s.out
      rw [List.flatMap_cons, Message.settle_message (hall m List.mem_cons_self) hs, hfst,
        overflows_cons]
      rcases h.respond_cases m.call.reply hfits with
        ⟨hall', hrespond⟩ | ⟨hover, ⟨hroom, hheading, hbody⟩ | ⟨hpassed, hbody, hfree⟩⟩
      · -- it is corked
        rw [hrespond] at hsnd
        have hout : (m.call.serve (Loop.sink i).watch s).out.1 =
            s.out.1.corking (s.out.1.corkBuffer ++ response m.call.reply) := hsnd
        have hlen : (m.call.serve (Loop.sink i).watch s).out.1.corkBuffer.length =
            s.out.1.corkBuffer.length + (response m.call.reply).length := by
          rw [hout]
          exact List.length_append
        obtain ⟨s', hsettle, hterminated⟩ := ih hrest (m.call.serve_quiet s)
          (hout ▸ h.corking _) (hlen.trans_le hall') hrunning
        rw [hrespond, if_pos rfl]
        refine ⟨s', hsettle, ?_⟩
        rw [hterminated, hlen, hout]
        exact ⟨.inr, fun ho => ho.resolve_left fun hfirst => by omega⟩
      · -- its body is refused
        have hpos : 0 < m.call.reply.length := m.call.reply_pos
        rw [hbody, if_neg (Nat.ne_of_lt hpos)]
        exact ⟨_, .inr rfl, fun _ => .inl ⟨hroom, hheading, hover⟩, fun _ => rfl⟩
      · -- the cork is off
        have hfree' : Loop.Free i (m.call.serve (Loop.sink i).watch s).out.1 := by
          show Loop.Free i ((Loop.sink i).watch.respond m.call.reply s.out).2.1
          rw [hsnd]
          exact hfree
        rw [if_pos hbody]
        obtain ⟨s', hsettle, hterminated⟩ := settle_free hrest (m.call.serve_quiet s) hfree'
        refine ⟨s', .inl hsettle, ?_⟩
        rw [hterminated.trans hrunning]
        refine ⟨nofun, ?_⟩
        rintro (⟨hroom, hheading, -⟩ | ho)
        · exact absurd ⟨hroom, hheading⟩ hpassed
        · exact absurd ho (not_overflows hover)

theorem step_terminates {s : Socket Unit (List Request)} {messages : List Message}
    (hall : ∀ m ∈ messages, m.WellFormed) (h : Awaits i c) (hconn : c.conn i = .live ⟨[], 0⟩ s)
    (hs : Quiet s) (hrunning : s.terminated = false) (hnil : c.loop.corkBuffer = [])
    (room : List Nat) :
    ((c.step (.data i (messages.flatMap Message.render) room)).conn i).user.terminated = true ↔
      Overflows (room.headD 0) 0 messages := by
  let entered : Socket (Loop ι × Bool) (List Request) := s.put (c.entered i room, false)
  have hbodiless : (httpContext (th_http (Loop.sink i).watch)).Bodiless := fun _ _ _ => rfl
  have hrefines := consumeAll_refines hbodiless (messages.flatMap Message.render) entered
  have hquiet : Quiet entered := ⟨hs.done, hs.alone⟩
  have hcorked : Loop.Corked i entered.out.1 := ⟨h.isOpen, h.buffer, rfl⟩
  have hempty : entered.out.1.corkBuffer = [] := hnil
  have hroom : entered.out.1.corkBuffer.length ≤ CORK_BUFFER_SIZE := by
    rw [hempty]
    exact Nat.zero_le _
  obtain ⟨s', hsettle, hterminated⟩ := settle_corked hall hquiet hcorked hroom hrunning
  have hcallback : c.callback i (messages.flatMap Message.render) room =
      consumeAll (httpContext (th_http (Loop.sink i).watch)) [] (messages.flatMap Message.render)
        entered := by
    rw [Clients.callback, hconn]
    rfl
  have huser : (c.callback i (messages.flatMap Message.render) room).user = s' := by
    rw [hcallback]
    rcases hsettle with hsettle | hsettle
    · rw [hsettle] at hrefines
      rw [hrefines.between]
      rfl
    · rw [hsettle] at hrefines
      rw [hrefines.closed]
      rfl
  rw [h.step, Clients.finish_conn, Connection.user_map, huser]
  rw [hempty] at hterminated
  exact hterminated

/-- In any run that has gone well: a client that writes messages in one piece ends the program
exactly if the first response that does not fit the cork buffer does so in its body, and the
network does not take what is corked by then. -/
theorem overflow_terminates {events : List (Event ι)} (hclean : (Clients.run events).Clean)
    {messages : List Message} (hall : ∀ m ∈ messages, m.WellFormed)
    {s : Socket Unit (List Request)} (hconn : (Clients.run events).conn i = .live ⟨[], 0⟩ s)
    (hbuffer : ((Clients.run events).loop.out i).buffer = []) (room : List Nat) :
    ((Clients.run (events ++ [.data i (messages.flatMap Message.render) room])).conn
        i).user.terminated = true ↔ Overflows (room.headD 0) 0 messages := by
  have hapart := Apart.start.run events hclean
  have hlive : ((Clients.run events).conn i).isClosed = false := by
    rw [hconn]
    rfl
  have hawaits : Awaits i (Clients.run events) := hapart.awaits hlive hbuffer
  have hrun : Clients.run (events ++ [.data i (messages.flatMap Message.render) room]) =
      (Clients.run events).step (.data i (messages.flatMap Message.render) room) := by
    rw [Clients.run, List.foldl_append]
    rfl
  obtain ⟨p, s₁, hconn₁, hquiet⟩ := hawaits.waiting
  rw [hconn] at hconn₁
  obtain ⟨rfl, rfl⟩ := Connection.live.inj hconn₁
  rw [hrun]
  refine step_terminates hall hawaits hconn hquiet ?_ hapart.corkBuffer room
  -- on its own the connection has not ended the program
  obtain ⟨calls, hserved⟩ := alone_served i events
  have hsame := congrArg Connection.user (hapart.same i)
  rw [show events.foldl Clients.step Clients.start = Clients.run events from rfl, hconn,
    Connection.user_map] at hsame
  have hs : s = Socket.put () (events.foldl (Event.alone i) (opened (.fresh [] []))).user := hsame
  rw [hs]
  exact hserved.running

/-- 3 pings, 269 stops and one more ping, to a network that takes nothing. -/
def overflowing : List Message :=
  (List.replicate 3 pingMessage ++
      List.replicate 269 { request := some .stopExpo, headers := [] }) ++
    pingMessage :: []

theorem overflow_terminates_overflowing :
    ((Clients.run [.data false (overflowing.flatMap Message.render) []]).conn
      false).user.terminated = true := by
  have hclean : (Clients.run ([] : List (Event Bool))).Clean := ⟨rfl, rfl⟩
  have hstop : Message.WellFormed { request := some .stopExpo, headers := [] } :=
    ⟨by decide, by decide, by decide, by decide +kernel⟩
  have hall : ∀ m ∈ overflowing, m.WellFormed := by
    intro m hm
    simp only [overflowing, List.mem_append, List.mem_replicate, List.mem_singleton] at hm
    rcases hm with (⟨-, rfl⟩ | ⟨-, rfl⟩) | rfl
    · exact pingMessage_wellFormed
    · exact hstop
    · exact pingMessage_wellFormed
  refine (overflow_terminates (i := false) hclean hall rfl rfl []).mpr ⟨_, _, _, rfl, ?_⟩
  have hping : (response pingMessage.call.reply).length = 62 := by decide +kernel
  have hother : (response
      (Message.mk (some .stopExpo) []).call.reply).length = 60 := by decide +kernel
  have hheading : (heading pingMessage.call.reply.length).flatten.length = 58 := by
    decide +kernel
  rw [hheading, hping, List.flatMap_append, List.length_append, List.length_flatMap,
    List.length_flatMap, List.map_replicate, List.map_replicate, hping, hother,
    List.sum_replicate, List.sum_replicate]
  decide

end AutoExpo.Http
