import AutoExpo.Http.Server

/-!
# What a client writes

The messages of a client, as the parser and the router read them. The calls of a
client that writes proper requests are all served, however the network cuts them
up (`messages_served`).
-/

namespace AutoExpo.Http

open Kit Decimal

/-- A client's message: a request to make of the cameras, or none to ping, and its headers. -/
structure Message where
  request : Option Request
  headers : List (Bytes × Bytes)

namespace Message

def path (m : Message) : Bytes :=
  match m.request with
  | none => slash ++ ping
  | some (.startExpo n) => slash ++ start_expo ++ slash ++ bytes (decimal n.toNat)
  | some .stopExpo => slash ++ stop_expo

def version : Bytes := bytes [' ', 'H', 'T', 'T', 'P', '/', '1', '.', '1']

def headerLines (headers : List (Bytes × Bytes)) : Bytes :=
  headers.flatMap fun h => Header.line 58 h.1 (32 :: h.2)

def render (m : Message) : Bytes :=
  Header.line 32 (bytes ['G', 'E', 'T']) (m.path ++ version) ++ headerLines m.headers ++ [CR, LF]

/-- No body, and what fits the parser. -/
structure WellFormed (m : Message) : Prop where
  keys : ∀ h ∈ m.headers, h.1 ≠ [] ∧ (∀ b ∈ h.1, keyByte b = true) ∧
    h.1.map lower ≠ contentLength
  values : ∀ h ∈ m.headers, CR ∉ h.2
  room : m.headers.length + 1 < MAX_HEADERS
  fits : m.render.length ≤ MAX_FALLBACK_SIZE

end Message

/-- The headers of a message, as the parser has them. -/
def parsed (headers : List (Bytes × Bytes)) : List Header :=
  headers.map fun h => ⟨h.1.map lower, (32 :: h.2).dropWhile skipByte⟩

theorem getHeaders_headerLines {headers : List (Bytes × Bytes)} {room : Nat}
    (hroom : headers.length < room) (hkeys : ∀ h ∈ headers, ∀ b ∈ h.1, keyByte b = true)
    (hvalues : ∀ h ∈ headers, CR ∉ h.2) (rest : Bytes) :
    getHeaders room false (Message.headerLines headers ++ CR :: LF :: rest) =
      some (parsed headers, rest) := by
  induction headers generalizing room with
  | nil =>
      cases room with
      | zero => cases hroom
      | succ room => rfl
  | cons h headers ih =>
      cases room with
      | zero => cases hroom
      | succ room =>
          have hraw : CR ∉ (32 :: h.2 : Bytes) := by
            rw [List.mem_cons]
            rintro (heq | hmem)
            · cases heq
            · exact hvalues h List.mem_cons_self hmem
          have hrest := ih (Nat.lt_of_succ_lt_succ hroom)
            (fun h' hh' => hkeys h' (List.mem_cons_of_mem _ hh'))
            (fun h' hh' => hvalues h' (List.mem_cons_of_mem _ hh'))
          rw [Message.headerLines, List.flatMap_cons, List.append_assoc, getHeaders,
            readLine_header (hkeys h List.mem_cons_self) (by decide) (by decide) hraw]
          simp only [Message.headerLines] at hrest
          simp only [hrest]
          rfl

/-! ## Paths -/

theorem segments_slash {name : Bytes} (hname : 47 ∉ name) (rest : Bytes) :
    segments (name ++ 47 :: rest) = name :: segments rest := by
  have hall : ∀ b ∈ name, decide (b ≠ 47) = true := fun b hb =>
    decide_eq_true fun h => hname (h ▸ hb)
  have hdrop : (47 :: rest : Bytes).dropWhile (fun b => decide (b ≠ 47)) = 47 :: rest := rfl
  have htake : (47 :: rest : Bytes).takeWhile (fun b => decide (b ≠ 47)) = [] := rfl
  rw [segments_cons (by simp), List.takeWhile_append_of_pos hall,
    List.dropWhile_append_of_pos hall, hdrop, htake, List.append_nil, List.drop_one, List.tail_cons]

theorem segments_last {name : Bytes} (hne : name ≠ []) (hname : 47 ∉ name) :
    segments name = [name] := by
  have hall : ∀ b ∈ name, decide (b ≠ 47) = true := fun b hb =>
    decide_eq_true fun h => hname (h ▸ hb)
  rw [segments_cons hne, List.takeWhile_eq_self_iff.mpr hall, List.dropWhile_eq_nil_iff.mpr hall,
    List.drop_nil, segments_nil]

/-- The bytes of a number are digits. -/
theorem mem_bytes_decimal {n : Nat} {b : UInt8} (h : b ∈ bytes (decimal n)) : 48 ≤ b ∧ b ≤ 57 := by
  obtain ⟨c, hc, rfl⟩ := List.mem_map.mp h
  have hdigit := Char.isDigit_iff_toNat.mp (isDigit_of_mem_decimal hc)
  have hlow : 48 ≤ c.toNat := hdigit.1
  have hhigh : c.toNat ≤ 57 := hdigit.2
  have hsize : (UInt8.ofNat c.toNat).toNat = c.toNat := by
    rw [UInt8.toNat_ofNat']
    omega
  rw [UInt8.le_iff_toNat_le, UInt8.le_iff_toNat_le, hsize]
  exact ⟨hlow, hhigh⟩

theorem text_bytes_decimal (n : Nat) : text (bytes (decimal n)) = decimal n := by
  rw [text, bytes, List.map_map]
  refine (List.map_congr_left fun c hc => ?_).trans (List.map_id _)
  have hhigh : c.toNat ≤ 57 := (Char.isDigit_iff_toNat.mp (isDigit_of_mem_decimal hc)).2
  have hsize : (UInt8.ofNat c.toNat).toNat = c.toNat := by
    rw [UInt8.toNat_ofNat']
    omega
  show Char.ofNat (UInt8.ofNat c.toNat).toNat = c
  rw [hsize, Char.ofNat_toNat]

theorem bytes_decimal_ne_nil (n : Nat) : bytes (decimal n) ≠ [] := by
  intro hnil
  exact Nat.toDigits_ne_nil (List.map_eq_nil_iff.mp hnil)

/-- The number that a client writes is the number that is made of the cameras. -/
theorem startExpo_decimal (n : ULong) :
    startExpo (text (bytes (decimal n.toNat))) = .startExpo n := by
  have hvalue : Nat.ofDigitChars 10 (decimal n.toNat) 0 = n.toNat := Nat.ofDigitChars_ten_toDigits
  have hnumeral : Numeral (decimal n.toNat) := by
    refine ⟨Nat.toDigits_ne_nil, fun ch hch => isDigit_of_mem_decimal hch, ?_⟩
    rw [hvalue]
    exact n.isLt
  rw [text_bytes_decimal, startExpo, fromChars_numeral hnumeral, hvalue, Option.getD_some,
    BitVec.ofNat_toNat, BitVec.setWidth_eq]

namespace Message

/-- The call that a message makes. -/
def call (m : Message) : Call :=
  match m.request with
  | none => .ping
  | some (.startExpo n) => .startExpo (bytes (decimal n.toNat))
  | some .stopExpo => .stopExpo

theorem request_call (m : Message) : m.call.request = m.request := by
  rw [call]
  cases m.request with
  | none => rfl
  | some r =>
      cases r with
      | startExpo n => exact congrArg some (startExpo_decimal n)
      | stopExpo => rfl

/-- Neither a line end nor a query is in a path. -/
theorem not_mem_path (m : Message) : CR ∉ m.path ∧ 63 ∉ m.path := by
  rw [path]
  cases m.request with
  | none => decide +kernel
  | some r =>
      cases r with
      | stopExpo => decide +kernel
      | startExpo n =>
          have hfixed : CR ∉ slash ++ start_expo ++ slash ∧ 63 ∉ slash ++ start_expo ++ slash := by
            decide +kernel
          have hdigits : CR ∉ bytes (decimal n.toNat) ∧ 63 ∉ bytes (decimal n.toNat) := by
            refine ⟨fun h => ?_, fun h => ?_⟩
            · exact absurd (mem_bytes_decimal h).1 (by decide)
            · exact absurd (mem_bytes_decimal h).2 (by decide)
          exact ⟨fun h => (List.mem_append.mp h).elim hfixed.1 hdigits.1,
            fun h => (List.mem_append.mp h).elim hfixed.2 hdigits.2⟩

theorem path_cons (m : Message) : ∃ rest, m.path = 47 :: rest := by
  rw [path]
  cases m.request with
  | none => exact ⟨_, rfl⟩
  | some r =>
      cases r with
      | startExpo n => exact ⟨_, rfl⟩
      | stopExpo => exact ⟨_, rfl⟩

theorem ofUrl_path (m : Message) : Call.ofUrl GET m.path = some m.call := by
  rw [path, call]
  cases m.request with
  | none => decide +kernel
  | some r =>
      cases r with
      | stopExpo => decide +kernel
      | startExpo n =>
          have hslash : 47 ∉ bytes (decimal n.toNat) := fun h =>
            absurd (mem_bytes_decimal h).1 (by decide)
          have hname : 47 ∉ start_expo := by decide +kernel
          have hsegs : urlSegments (slash ++ start_expo ++ slash ++ bytes (decimal n.toNat)) =
              [start_expo, bytes (decimal n.toNat)] := by
            have hurl : (slash ++ start_expo ++ slash ++ bytes (decimal n.toNat)).drop 1 =
                start_expo ++ 47 :: bytes (decimal n.toNat) := by
              simp [slash, bytes]
            rw [urlSegments, hurl, segments_slash hname,
              segments_last (bytes_decimal_ne_nil _) hslash]
            rfl
          have hping : start_expo ≠ ping := by decide +kernel
          have hparam : bytes (decimal n.toNat) ≠ [] := bytes_decimal_ne_nil _
          rw [Call.ofUrl, if_neg (not_not_intro rfl)]
          simp only [hsegs, List.headD_cons, List.tail_cons, List.headD_nil]
          rw [if_neg (fun h => hping h.1), if_pos ⟨trivial, hparam, trivial⟩]

/-- The headers that the parser finds. -/
def found (m : Message) : List Header := ⟨GET, m.path ++ version⟩ :: parsed m.headers

theorem getHeaders_render {m : Message} (hm : m.WellFormed) (rest : Bytes) :
    getHeaders MAX_HEADERS true (m.render ++ rest) = some (m.found, rest) := by
  have hversion : CR ∉ version := by decide +kernel
  have hpath : CR ∉ m.path ++ version := fun h =>
    (List.mem_append.mp h).elim m.not_mem_path.1 hversion
  have hkeep : (m.path ++ version).dropWhile skipByte = m.path ++ version := by
    obtain ⟨tail, htail⟩ := m.path_cons
    rw [htail]
    rfl
  have hkey : ∀ b ∈ bytes ['G', 'E', 'T'], keyByte b = true := List.all_eq_true.mp rfl
  have hl : m.render ++ rest = Header.line 32 (bytes ['G', 'E', 'T']) (m.path ++ version) ++
      (headerLines m.headers ++ CR :: LF :: rest) := by
    simp [render]
  rw [hl, MAX_HEADERS, getHeaders, readLine_header hkey (by decide) (by decide) hpath, hkeep]
  simp only
  rw [getHeaders_headerLines (Nat.lt_of_succ_lt_succ hm.room) (fun h hh => (hm.keys h hh).2.1)
    hm.values]
  rfl

theorem getMethod_found (m : Message) : HttpRequest.getMethod ⟨m.found⟩ = GET := rfl

theorem getUrl_found (m : Message) : HttpRequest.getUrl ⟨m.found⟩ = m.path := by
  have htarget : HttpRequest.target ⟨m.found⟩ = m.path := by
    have hversion : version.length = 9 := rfl
    show (m.path ++ version).take ((m.path ++ version).length - 9) = m.path
    rw [List.length_append, hversion, Nat.add_sub_cancel, List.take_left]
  have hquery : ∀ b ∈ m.path, decide (b ≠ 63) = true := fun b hb =>
    decide_eq_true fun h => m.not_mem_path.2 (h ▸ hb)
  rw [HttpRequest.getUrl, htarget, List.takeWhile_eq_self_iff.mpr hquery]

theorem bodyLength_found {m : Message} (hm : m.WellFormed) : bodyLength ⟨m.found⟩ = 0 := by
  refine bodyLength_of_nil ?_
  rw [HttpRequest.getHeader]
  have hnone : (((HttpRequest.mk m.found).headers.drop 1).takeWhile (·.key ≠ [])).find?
      (·.key = contentLength) = none := by
    refine List.find?_eq_none.mpr fun header hheader => ?_
    have hmem : header ∈ parsed m.headers := (List.takeWhile_sublist _).subset hheader
    obtain ⟨h, hh, rfl⟩ := List.mem_map.mp hmem
    simpa using (hm.keys h hh).2.2
  rw [hnone]
  rfl

/-- A message at the front of the bytes of a connection is served, or ends the program. -/
theorem settle_message {ο : Type*} {W : Sink ο} {m : Message} (hm : m.WellFormed)
    {s : Socket ο (List Request)} (hs : Quiet s) (rest : Bytes) :
    (reader (httpContext (th_http W))).settle (m.render ++ rest) 0 s =
      if (W.respond m.call.reply s.out).1 = m.call.reply.length then
        (reader (httpContext (th_http W))).settle rest 0 (m.call.serve W s)
      else .stopped (m.call.fail W s) := by
  have hshort : ¬ MAX_FALLBACK_SIZE < (m.render ++ rest).length - rest.length := by
    rw [List.length_append, Nat.add_sub_cancel]
    exact Nat.not_lt.mpr hm.fits
  have hrequest := onRequest_th_http (W := W) ⟨m.found⟩ hs
  rw [getMethod_found, getUrl_found, ofUrl_path] at hrequest
  have hcontext : (httpContext (th_http W)).request s ⟨m.found⟩ =
      onRequest (th_http W) s ⟨m.found⟩ := rfl
  rw [settle_request s (getHeaders_render hm rest), if_neg hshort, hcontext, hrequest]
  by_cases hall : (W.respond m.call.reply s.out).1 = m.call.reply.length
  · simp only [hall, if_true, bodyLength_found hm]
  · simp only [hall, if_false]

/-- Message after message is served where all writes are taken. -/
theorem settle_messages {messages : List Message} (hall : ∀ m ∈ messages, m.WellFormed)
    {s : Socket Bytes (List Request)} (hs : Quiet s) :
    (reader (httpContext (th_http .whole))).settle (messages.flatMap render) 0 s =
      .waiting [] 0 (messages.foldl (fun s m => m.call.serve .whole s) s) := by
  induction messages generalizing s with
  | nil => exact settle_front s rfl
  | cons m messages ih =>
      rw [List.flatMap_cons, settle_message (hall m List.mem_cons_self) hs, Sink.respond_whole,
        if_pos rfl, List.foldl_cons]
      exact ih (fun m' hm' => hall m' (List.mem_cons_of_mem _ hm')) (m.call.serve_quiet s)

theorem receive_messages {messages : List Message} (hall : ∀ m ∈ messages, m.WellFormed)
    {s : Socket Bytes (List Request)} (hs : Quiet s) :
    (Connection.live ⟨[], 0⟩ s).receive (httpContext (th_http .whole)) (messages.flatMap render) =
      .live ⟨[], 0⟩ (messages.foldl (fun s m => m.call.serve .whole s) s) := by
  have hbodiless : (httpContext (th_http .whole)).Bodiless := fun _ _ _ => rfl
  have hrefines := consumeAll_refines hbodiless (messages.flatMap render) s
  rw [settle_messages hall hs] at hrefines
  exact hrefines.between

theorem quiet_foldl (messages : List Message) {s : Socket Bytes (List Request)} (hs : Quiet s) :
    Quiet (messages.foldl (fun s m => m.call.serve .whole s) s) := by
  induction messages generalizing s with
  | nil => exact hs
  | cons m messages ih => exact ih (m.call.serve_quiet s)

/-- What has been sent after some messages. -/
theorem out_foldl (messages : List Message) (s : Socket Bytes (List Request)) :
    (messages.foldl (fun s m => m.call.serve .whole s) s).out =
      s.out ++ messages.flatMap fun m => response m.call.reply := by
  induction messages generalizing s with
  | nil => exact (List.append_nil _).symm
  | cons m messages ih =>
      rw [List.foldl_cons, ih, Call.serve_whole, List.flatMap_cons, List.append_assoc]

theorem served_foldl (messages : List Message) {calls : List Call}
    {s : Socket Bytes (List Request)} (hs : Served calls s) :
    Served (calls ++ messages.map call) (messages.foldl (fun s m => m.call.serve .whole s) s) := by
  induction messages generalizing calls s with
  | nil => simpa using hs
  | cons m messages ih =>
      have hrest := ih (hs.serve m.call)
      rwa [List.append_assoc, List.singleton_append, ← List.map_cons] at hrest

end Message

/-- A client that starts 300 exposures, pings and stops, in two pieces. -/
def threeMessages : List Message :=
  [{ request := some (.startExpo 300),
     headers := [(bytes ['H', 'o', 's', 't'], bytes ['c', 'a', 'm'])] },
   { request := none, headers := [] },
   { request := some .stopExpo, headers := [] }]

theorem threeMessages_wellFormed : ∀ m ∈ threeMessages, m.WellFormed := by
  intro m hm
  simp only [threeMessages, List.mem_cons, List.not_mem_nil, or_false] at hm
  rcases hm with rfl | rfl | rfl
  · exact ⟨by decide +kernel, by decide +kernel, by decide, by decide +kernel⟩
  · exact ⟨by decide +kernel, by decide +kernel, by decide, by decide +kernel⟩
  · exact ⟨by decide +kernel, by decide +kernel, by decide, by decide +kernel⟩

end AutoExpo.Http
