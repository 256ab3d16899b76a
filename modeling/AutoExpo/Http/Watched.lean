import AutoExpo.Http.Follows
import AutoExpo.Http.Server

/-!
# Sockets whose writes may be refused

As long as no write is refused, a connection does what it does where all writes are
taken, and what the sink makes of its writes is what it makes of the bytes that are
sent there (`th_http_follows`).
-/

namespace AutoExpo.Http

/-- Remembers whether a write has not been taken whole. -/
def Sink.watch {ο : Type*} (W : Sink ο) : Sink (ο × Bool) where
  write src out :=
    let (written, out') := W.write src out.1
    (written, out', out.2 || written ≠ src.length)

/-- The same socket with other output. -/
def Socket.put {ο ο' ω : Type*} (out : ο') (s : Socket ο ω) : Socket ο' ω where
  data := s.data
  out := out
  terminated := s.terminated
  user := s.user

section
variable {ο : Type*} {W : Sink ο} {R : ο → Bytes → Prop}

/-- Sockets that differ in their output only. -/
structure Same (R : ο → Bytes → Prop) (s : Socket (ο × Bool) (List Request))
    (s' : Socket Bytes (List Request)) : Prop where
  data : s.data = s'.data
  terminated : s.terminated = s'.terminated
  user : s.user = s'.user
  taken : s.out.2 = false
  related : R s.out.1 s'.out

theorem watch_write (src : Bytes) (out : ο × Bool) :
    W.watch.write src out = ((W.write src out.1).1, (W.write src out.1).2,
      out.2 || decide ((W.write src out.1).1 ≠ src.length)) := rfl

theorem writeAll_watch_refused (writes : List Bytes) {out : ο × Bool} (h : out.2 = true) :
    (W.watch.writeAll writes out).2 = true := by
  induction writes generalizing out with
  | nil => exact h
  | cons src rest ih =>
      rw [Sink.writeAll, List.foldl_cons]
      refine ih ?_
      rw [watch_write, h, Bool.true_or]

theorem respond_watch_refused (data : Bytes) {out : ο × Bool} (h : out.2 = true) :
    (W.watch.respond data out).2.2 = true := by
  rw [Sink.respond, watch_write, writeAll_watch_refused _ h, Bool.true_or]

/-- Writes keep the relation, or one of them is refused. -/
theorem write_watch_related
    (hwrite : ∀ src out sent, R out sent → (W.write src out).1 = src.length →
      R (W.write src out).2 (sent ++ src))
    (src : Bytes) {out : ο × Bool} {sent : Bytes} (htaken : out.2 = false) (hR : R out.1 sent) :
    (W.watch.write src out).2.2 = true ∨ (W.watch.write src out).1 = src.length ∧
      (W.watch.write src out).2.2 = false ∧ R (W.watch.write src out).2.1 (sent ++ src) := by
  rw [watch_write, htaken]
  by_cases hall : (W.write src out.1).1 = src.length
  · exact .inr ⟨hall, by simp [hall], hwrite src out.1 sent hR hall⟩
  · exact .inl (by simp [hall])

theorem writeAll_watch_related
    (hwrite : ∀ src out sent, R out sent → (W.write src out).1 = src.length →
      R (W.write src out).2 (sent ++ src))
    (writes : List Bytes) {out : ο × Bool} {sent : Bytes} (htaken : out.2 = false)
    (hR : R out.1 sent) :
    (W.watch.writeAll writes out).2 = true ∨ (W.watch.writeAll writes out).2 = false ∧
      R (W.watch.writeAll writes out).1 (sent ++ writes.flatten) := by
  induction writes generalizing out sent with
  | nil => exact .inr ⟨htaken, by rwa [List.flatten_nil, List.append_nil]⟩
  | cons src rest ih =>
      rw [Sink.writeAll, List.foldl_cons, ← Sink.writeAll, List.flatten_cons, ← List.append_assoc]
      rcases write_watch_related hwrite src htaken hR with hrefused | ⟨-, htaken', hR'⟩
      · exact .inl (writeAll_watch_refused rest hrefused)
      · exact ih htaken' hR'

theorem respond_watch_related
    (hwrite : ∀ src out sent, R out sent → (W.write src out).1 = src.length →
      R (W.write src out).2 (sent ++ src))
    (data : Bytes) {out : ο × Bool} {sent : Bytes} (htaken : out.2 = false) (hR : R out.1 sent) :
    (W.watch.respond data out).2.2 = true ∨ (W.watch.respond data out).1 = data.length ∧
      (W.watch.respond data out).2.2 = false ∧
        R (W.watch.respond data out).2.1 (sent ++ response data) := by
  rw [response, ← List.append_assoc]
  rcases writeAll_watch_related hwrite (heading data.length) htaken hR with
    hrefused | ⟨htaken', hR'⟩
  · exact .inl (by rw [Sink.respond, watch_write, hrefused, Bool.true_or])
  · exact write_watch_related hwrite data htaken' hR'

theorem Same.quiet {s : Socket (ο × Bool) (List Request)} {s' : Socket Bytes (List Request)}
    (h : Same R s s') (hs' : Quiet s') : Quiet s :=
  ⟨h.data ▸ hs'.done, h.data ▸ hs'.alone⟩

theorem Same.put_eq {s : Socket (ο × Bool) (List Request)} {s' : Socket Bytes (List Request)}
    (h : Same R s s') : s.put () = s'.put () := by
  rw [Socket.put, Socket.put, h.data, h.terminated, h.user]

/-- `B` of the output, whatever is pending. -/
structure Wrong {ο : Type*} (B : ο → Prop) (s : Socket ο (List Request)) : Prop where
  out : B s.out
  alone : s.data.onAborted = false

/-- What no response mends, no request mends. -/
theorem Wrong.onRequest {ο : Type*} {W : Sink ο} {B : ο → Prop}
    (hB : ∀ data out, B out → B (W.respond data out).2) {s : Socket ο (List Request)}
    (req : HttpRequest) (h : Wrong B s) : Wrong B (onRequest (th_http W) s req).1 := by
  by_cases hpending : s.data.responsePending = true
  · have hrequest : Http.onRequest (th_http W) s req = (s.reset, false) := by
      rw [Http.onRequest]
      exact if_pos hpending
    rw [hrequest]
    exact ⟨h.out, h.alone⟩
  · rw [onRequest_th_http req ⟨eq_false_of_ne_true hpending, h.alone⟩]
    cases Call.ofUrl req.getMethod req.getUrl with
    | none => exact ⟨h.out, h.alone⟩
    | some call =>
        simp only
        split
        next => exact ⟨hB call.reply s.out h.out, rfl⟩
        next => exact ⟨hB call.reply s.out h.out, rfl⟩

theorem wrong_th_http {ο : Type*} {W : Sink ο} {B : ο → Prop}
    (hB : ∀ data out, B out → B (W.respond data out).2) :
    (httpContext (th_http W)).Keeps (Wrong B) (Wrong B) where
  served {s req s'} h hrequest := by
    have hwrong := h.onRequest hB req
    rwa [show onRequest (th_http W) s req = (s', true) from hrequest] at hwrong
  closed {s req s'} h hrequest := by
    have hwrong := h.onRequest hB req
    rwa [show onRequest (th_http W) s req = (s', false) from hrequest] at hwrong
  data h hdata := by
    cases hdata
    exact h
  error h herror := by
    cases herror
    exact h
  weaken h := h

/-- A socket whose writes are watched follows one whose writes are all taken. -/
theorem th_http_follows
    (hwrite : ∀ src out sent, R out sent → (W.write src out).1 = src.length →
      R (W.write src out).2 (sent ++ src)) :
    (httpContext (th_http W.watch)).Follows (httpContext (th_http .whole))
      (fun s s' => Same R s s' ∧ Quiet s') (Same R) (Wrong (·.2 = true)) where
  request := by
    rintro s s' req ⟨hsame, hquiet⟩
    show Alike _ _ _ (onRequest (th_http W.watch) s req) (onRequest (th_http .whole) s' req)
    rw [onRequest_whole req hquiet, onRequest_th_http req (hsame.quiet hquiet)]
    cases Call.ofUrl req.getMethod req.getUrl with
    | none =>
        refine .stops ⟨?_, hsame.terminated, hsame.user, hsame.taken, hsame.related⟩
        simp only [Socket.markPending, Socket.reset, hsame.data]
    | some call =>
        simp only
        rcases respond_watch_related hwrite call.reply hsame.taken hsame.related with
          hrefused | ⟨hall, htaken, hR⟩
        · split
          next => exact .wrong ⟨hrefused, rfl⟩
          next => exact .wrong ⟨hrefused, rfl⟩
        · rw [if_pos hall]
          refine .goesOn ⟨⟨rfl, hsame.terminated, ?_, htaken, ?_⟩, call.serve_quiet s'⟩
          · simp only [Call.serve, hsame.user]
          · rw [call.serve_whole]
            exact hR
  data _ _ h := .goesOn h
  error h := .stops h
  wrong := wrong_th_http fun data _ => respond_watch_refused data
  weaken h := h.1

/-! ## Writes that fit -/

theorem writeAll_watch_fits {limit : Nat}
    (hwrite : ∀ src out sent, R out sent → sent.length + src.length ≤ limit →
      (W.write src out).1 = src.length ∧ R (W.write src out).2 (sent ++ src))
    (writes : List Bytes) {out : ο × Bool} {sent : Bytes} (htaken : out.2 = false)
    (hR : R out.1 sent) (hfits : sent.length + writes.flatten.length ≤ limit) :
    (W.watch.writeAll writes out).2 = false ∧
      R (W.watch.writeAll writes out).1 (sent ++ writes.flatten) := by
  induction writes generalizing out sent with
  | nil => exact ⟨htaken, by rwa [List.flatten_nil, List.append_nil]⟩
  | cons src rest ih =>
      rw [List.flatten_cons, List.length_append] at hfits
      obtain ⟨hall, hR'⟩ := hwrite src out.1 sent hR (by omega)
      rw [Sink.writeAll, List.foldl_cons, ← Sink.writeAll, List.flatten_cons, ← List.append_assoc]
      refine ih ?_ hR' ?_
      · rw [watch_write, htaken]
        simp [hall]
      · rw [List.length_append]
        omega

/-- Where everything is taken that fits into `limit`, a socket whose writes are all taken is
followed until it has sent more. -/
theorem whole_follows {limit : Nat}
    (hwrite : ∀ src out sent, R out sent → sent.length + src.length ≤ limit →
      (W.write src out).1 = src.length ∧ R (W.write src out).2 (sent ++ src)) :
    (httpContext (th_http .whole)).Follows (httpContext (th_http W.watch))
      (fun s' s => Same R s s' ∧ Quiet s') (fun s' s => Same R s s')
      (Wrong (limit < ·.length)) where
  request := by
    rintro s' s req ⟨hsame, hquiet⟩
    show Alike _ _ _ (onRequest (th_http .whole) s' req) (onRequest (th_http W.watch) s req)
    rw [onRequest_whole req hquiet, onRequest_th_http req (hsame.quiet hquiet)]
    cases Call.ofUrl req.getMethod req.getUrl with
    | none =>
        refine .stops ⟨?_, hsame.terminated, hsame.user, hsame.taken, hsame.related⟩
        simp only [Socket.markPending, Socket.reset, hsame.data]
    | some call =>
        have hout := call.serve_whole s'
        by_cases hlong : limit < (s'.out ++ response call.reply).length
        · refine .wrong ⟨?_, rfl⟩
          rwa [hout]
        · have hsize : s'.out.length + ((heading call.reply.length).flatten.length +
              call.reply.length) ≤ limit := by
            rw [response, List.length_append, List.length_append] at hlong
            omega
          obtain ⟨htaken, hR⟩ := writeAll_watch_fits hwrite (heading call.reply.length)
            hsame.taken hsame.related (by omega)
          obtain ⟨hall, hR'⟩ := hwrite call.reply _ _ hR (by rw [List.length_append]; omega)
          have hbody : (W.watch.respond call.reply s.out).1 = call.reply.length := hall
          simp only [hbody, if_true]
          refine .goesOn ⟨⟨rfl, hsame.terminated, ?_, ?_, ?_⟩, call.serve_quiet s'⟩
          · simp only [Call.serve, hsame.user]
          · rw [Call.serve, Sink.respond, watch_write, htaken]
            simp [hall]
          · rw [hout, response, ← List.append_assoc]
            exact hR'
  data _ _ h := .goesOn h
  error h := .stops h
  wrong := wrong_th_http fun data sent hlong => by
    rw [Sink.respond_whole, List.length_append]
    exact Nat.lt_add_right _ hlong
  weaken h := h.1

end

end AutoExpo.Http
