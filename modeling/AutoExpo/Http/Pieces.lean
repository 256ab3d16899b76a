import AutoExpo.Http.Parser

/-!
# A connection in pieces

The plain account of the HTTP parser is a `Kit.Reader` over all bytes of the
connection. As long as no request is longer than the fallback buffer, the parser
does what the reader does, however the bytes are cut up (`consume_refines`). A
longer request is served when it comes in one piece, and costs the connection
when it comes in two (`long_request_cut`). What the handlers keep is kept
whatever bytes come in (`run_keeps`).
-/

namespace AutoExpo.Http

open Kit

/-! ## The plain account -/

def bodyLength (req : HttpRequest) : Nat := (toUnsignedInteger (req.getHeader contentLength)).toNat

/-- The bytes of a connection, request by request. -/
def reader {σ : Type*} (H : Handlers σ) : Reader UInt8 (List Header) σ where
  toFrontParser := headers MAX_HEADERS true
  nonempty := headers_parse MAX_HEADERS true []
  limit := MAX_FALLBACK_SIZE
  act user hs := match H.request user ⟨hs⟩ with
    | (user, true) => (user, some (bodyLength ⟨hs⟩))
    | (user, false) => (user, none)

/-- The bodies are left alone. -/
def Handlers.Bodiless {σ : Type*} (H : Handlers σ) : Prop :=
  ∀ user data fin, H.data user data fin = (user, true)

/-- `l` and `l'` are read the same, however they go on. -/
structure SameFront (l l' : Bytes) : Prop where
  length : l.length = l'.length
  headers : ∀ more,
    getHeaders MAX_HEADERS true (l ++ more) = getHeaders MAX_HEADERS true (l' ++ more)

/-- The parser beside the plain reader. Once a request is too long there is nothing to say. -/
inductive Refines {σ : Type*} : Connection σ → Reader.State UInt8 σ → Prop
  | waiting {pending fallback : Bytes} {skip : Nat} {user : σ}
      (same : SameFront fallback pending) (fits : pending.length < MAX_FALLBACK_SIZE)
      (front : getHeaders MAX_HEADERS true pending = none) (body : skip = 0 ∨ pending = []) :
      Refines (.live ⟨fallback, skip⟩ user) (.waiting pending skip user)
  | stopped {user : σ} : Refines (.closed user) (.stopped user)
  | overlong {connection : Connection σ} {user : σ} : Refines connection (.overlong user)

theorem SameFront.refl (l : Bytes) : SameFront l l := ⟨rfl, fun _ => rfl⟩

theorem SameFront.append {l l' : Bytes} (h : SameFront l l') (more : Bytes) :
    SameFront (l ++ more) (l' ++ more) := by
  refine ⟨?_, fun rest => ?_⟩
  · rw [List.length_append, List.length_append, h.length]
  · rw [List.append_assoc, List.append_assoc, h.headers]

theorem SameFront.lowered {l l' : Bytes} (h : SameFront l l') :
    SameFront (lowered MAX_HEADERS l) l' := by
  refine ⟨?_, fun more => ?_⟩
  · rw [length_lowered, h.length]
  · rw [getHeaders_lowered, h.headers]

theorem SameFront.nil {l : Bytes} (h : SameFront l []) : l = [] :=
  List.eq_nil_of_length_eq_zero h.length

section
variable {σ : Type*} {H : Handlers σ}

/-- With nothing pending, the parser is between two requests. -/
theorem Refines.between {connection : Connection σ} {user : σ}
    (h : Refines connection (.waiting [] 0 user)) : connection = .live ⟨[], 0⟩ user := by
  cases h with
  | waiting same => rw [same.nil]

theorem Refines.closed {connection : Connection σ} {user : σ}
    (h : Refines connection (.stopped user)) : connection = .closed user := by
  cases h with
  | stopped => rfl

theorem fence_none (minimally : Bool) {data : Bytes} (remaining : Nat) (user : σ)
    (hdata : data ≠ []) (h : getHeaders MAX_HEADERS true data = none) :
    fenceAndConsumePostPadded H minimally data remaining user =
      .left (lowered MAX_HEADERS data) remaining user := by
  rw [fenceAndConsumePostPadded, if_neg hdata]
  split
  next => rfl
  next headers rest hsome =>
    rw [h] at hsome
    cases hsome

theorem bodyLength_of_nil {req : HttpRequest} (h : req.getHeader contentLength = []) :
    bodyLength req = 0 := by
  rw [bodyLength, h]
  rfl

/-- A request at the front of the data. -/
theorem fence_some (hH : H.Bodiless) (minimally : Bool) {data rest : Bytes} {hs : List Header}
    (user : σ) (h : getHeaders MAX_HEADERS true data = some (hs, rest)) :
    fenceAndConsumePostPadded H minimally data 0 user =
      match H.request user ⟨hs⟩ with
      | (user, false) => .returned user
      | (user, true) =>
          if minimally then .left rest (bodyLength ⟨hs⟩) user
          else fenceAndConsumePostPadded H minimally (rest.drop (bodyLength ⟨hs⟩))
            (bodyLength ⟨hs⟩ - rest.length) user := by
  have hdata : data ≠ [] := by
    rintro rfl
    cases h
  rw [fenceAndConsumePostPadded, if_neg hdata]
  split
  next hnone =>
    rw [h] at hnone
    cases hnone
  next headers rest' hsome =>
    rw [h] at hsome
    cases hsome
    simp only [hH _ _ _]
    cases H.request user ⟨hs⟩ with
    | mk user' goesOn =>
        cases goesOn with
        | false => rfl
        | true =>
            by_cases hlen : HttpRequest.getHeader ⟨hs⟩ contentLength = []
            · simp only [if_pos hlen, bodyLength_of_nil hlen, List.drop_zero, Nat.zero_sub]
            · -- no more of the body is taken than there is
              have hdrop : rest.drop (min (bodyLength ⟨hs⟩) rest.length) =
                  rest.drop (bodyLength ⟨hs⟩) := by
                rcases Nat.le_total (bodyLength ⟨hs⟩) rest.length with hle | hle
                · rw [Nat.min_eq_left hle]
                · rw [Nat.min_eq_right hle, List.drop_length, List.drop_eq_nil_of_le hle]
              have hleft : bodyLength ⟨hs⟩ - min (bodyLength ⟨hs⟩) rest.length =
                  bodyLength ⟨hs⟩ - rest.length := by omega
              simp only [if_neg hlen, ← hdrop, ← hleft]
              rfl

theorem reader_act (user : σ) (hs : List Header) :
    (reader H).act user hs = match H.request user ⟨hs⟩ with
      | (user, true) => (user, some (bodyLength ⟨hs⟩))
      | (user, false) => (user, none) := rfl

/-- The reader, request by request. -/
theorem settle_request {data rest : Bytes} {hs : List Header} (user : σ)
    (h : getHeaders MAX_HEADERS true data = some (hs, rest)) :
    (reader H).settle data 0 user =
      if MAX_FALLBACK_SIZE < data.length - rest.length then .overlong user
      else match H.request user ⟨hs⟩ with
        | (user, false) => .stopped user
        | (user, true) => (reader H).settle rest (bodyLength ⟨hs⟩) user := by
  have hparse : (reader H).parse data = some (hs, rest) := by
    rw [← headers_parse] at h
    exact h
  rw [Reader.settle_some hparse]
  refine if_congr Iff.rfl rfl ?_
  rw [reader_act]
  cases H.request user ⟨hs⟩ with
  | mk user' goesOn =>
      cases goesOn with
      | true => rfl
      | false => rfl

theorem settle_front {data : Bytes} (user : σ)
    (h : getHeaders MAX_HEADERS true data = none) :
    (reader H).settle data 0 user =
      if MAX_FALLBACK_SIZE ≤ data.length then .overlong user else .waiting data 0 user := by
  have hparse : (reader H).parse data = none := by
    rw [← headers_parse] at h
    exact h
  exact Reader.settle_none hparse

/-- All requests of some data, with an empty fallback buffer. -/
theorem consumeAll_refines (hH : H.Bodiless) (data : Bytes) (user : σ) :
    Refines (consumeAll H [] data user) ((reader H).settle data 0 user) := by
  by_cases hdata : data = []
  · subst hdata
    rw [consumeAll, fenceAndConsumePostPadded, if_pos rfl, settle_front user rfl]
    exact .waiting (SameFront.refl []) (by decide) rfl (.inl rfl)
  cases hparse : getHeaders MAX_HEADERS true data with
  | none =>
      rw [consumeAll, fence_none false 0 user hdata hparse, settle_front user hparse]
      split
      next => exact .overlong
      next hfits =>
        have hlen := length_lowered MAX_HEADERS data
        rw [keepRest, if_neg (lowered_ne_nil MAX_HEADERS hdata), if_pos (by omega),
          List.nil_append]
        exact .waiting (SameFront.refl data).lowered (Nat.lt_of_not_le hfits) hparse (.inl rfl)
  | some r =>
      obtain ⟨hs, rest⟩ := r
      have hlt := getHeaders_length hparse
      rw [consumeAll, fence_some hH false user hparse, settle_request user hparse]
      by_cases hlong : MAX_FALLBACK_SIZE < data.length - rest.length
      · rw [if_pos hlong]
        exact .overlong
      rw [if_neg hlong]
      cases H.request user ⟨hs⟩ with
      | mk user' goesOn =>
          cases goesOn with
          | false => exact .stopped
          | true =>
              simp only [Bool.false_eq_true, if_false]
              rcases Nat.lt_or_ge rest.length (bodyLength ⟨hs⟩) with hbody | hbody
              · -- the body goes on behind the data
                rw [Reader.settle_short hbody, List.drop_eq_nil_of_le (Nat.le_of_lt hbody),
                  fenceAndConsumePostPadded, if_pos rfl]
                exact .waiting (SameFront.refl []) (by decide) rfl (.inr rfl)
              · rw [Reader.settle_drop hbody, Nat.sub_eq_zero_of_le hbody]
                exact consumeAll_refines hH (rest.drop (bodyLength ⟨hs⟩)) user'
termination_by data.length
decreasing_by
  rw [List.length_drop]
  omega

/-- The rest of a body, and what comes after it. -/
theorem streamBody_refines (hH : H.Bodiless) (remaining : Nat) (data : Bytes) (user : σ) :
    Refines (streamBody H [] remaining data user (consumeAll H []))
      ((reader H).settle data remaining user) := by
  rw [streamBody]
  split
  next hle =>
    simp only [hH _ _ _]
    rcases Nat.lt_or_ge data.length remaining with hlt | hge
    · rw [Reader.settle_short hlt]
      exact .waiting (SameFront.refl []) (by decide) rfl (.inr rfl)
    · rw [Reader.settle_drop hge, List.drop_eq_nil_of_le hle, settle_front user rfl,
        Nat.sub_eq_zero_of_le hge]
      exact .waiting (SameFront.refl []) (by decide) rfl (.inl rfl)
  next hlt =>
    simp only [hH _ _ _]
    rw [Reader.settle_drop (Nat.le_of_lt (Nat.lt_of_not_le hlt))]
    exact consumeAll_refines hH (data.drop remaining) user

/-- A request that ends in the copied data ends behind what was in the fallback buffer. -/
theorem getHeaders_ends {pending copied rest : Bytes} {hs : List Header}
    (front : getHeaders MAX_HEADERS true pending = none)
    (h : getHeaders MAX_HEADERS true (pending ++ copied) = some (hs, rest)) :
    ∃ taken, copied = taken ++ rest := by
  rw [← headers_parse] at front h
  have hlen : rest.length < copied.length := by
    refine Nat.lt_of_not_le fun hle => ?_
    obtain ⟨rest', -, hparse⟩ := (headers MAX_HEADERS true).parse_of_append h hle
    rw [front] at hparse
    cases hparse
  obtain ⟨taken, hall⟩ := (headers MAX_HEADERS true).split h
  obtain ⟨taken', hcopied⟩ : rest <:+ copied :=
    List.suffix_of_suffix_length_le ⟨taken, hall.symm⟩ ⟨pending, rfl⟩ (Nat.le_of_lt hlen)
  exact ⟨taken', hcopied.symm⟩

theorem SameFront.parse {l l' : Bytes} (h : SameFront l l') :
    getHeaders MAX_HEADERS true l = getHeaders MAX_HEADERS true l' := by
  have hnil := h.headers []
  rwa [List.append_nil, List.append_nil] at hnil

/-- The buffer has no whole request yet: it is full, or there is no more data. -/
theorem resume_unfinished {buffer pending more : Bytes} (same : SameFront buffer pending)
    (hne : buffer ≠ []) (hsize : buffer.length ≤ MAX_FALLBACK_SIZE)
    (hmore : buffer.length = MAX_FALLBACK_SIZE ∨ more = [])
    (front : getHeaders MAX_HEADERS true pending = none) (had : Nat) (data : Bytes) (user : σ) :
    Refines (resume H had buffer data (fenceAndConsumePostPadded H true buffer 0 user))
      ((reader H).settle (pending ++ more) 0 user) := by
  rw [fence_none true 0 user hne (same.parse.trans front)]
  simp only [resume, length_lowered, Nat.sub_self, ne_eq, not_true_eq_false, if_false]
  by_cases hmax : buffer.length = MAX_FALLBACK_SIZE
  · have hlong : MAX_FALLBACK_SIZE ≤ pending.length := by rw [← hmax, same.length]
    rw [← headers_parse] at front
    rw [Reader.settle_overlong front hlong]
    exact .overlong
  · have hfits : pending.length < MAX_FALLBACK_SIZE := by
      rw [← same.length]
      exact Nat.lt_of_le_of_ne hsize hmax
    rw [hmore.resolve_left hmax, List.append_nil, if_neg hmax, settle_front user front,
      if_neg (Nat.not_le.mpr hfits)]
    exact .waiting same.lowered hfits front (.inl rfl)

/-- The buffer has a whole request: the front of the data ends it, after `taken`. -/
theorem resume_request (hH : H.Bodiless) {buffer pending taken rest : Bytes} {had : Nat}
    {hs : List Header} (same : SameFront buffer pending) (hpos : 0 < had)
    (hbuffer : buffer.length = had + taken.length + rest.length)
    (hsize : buffer.length ≤ MAX_FALLBACK_SIZE)
    (h : getHeaders MAX_HEADERS true pending = some (hs, rest)) (more : Bytes) (user : σ) :
    Refines
      (resume H had buffer (taken ++ (rest ++ more))
        (fenceAndConsumePostPadded H true buffer 0 user))
      ((reader H).settle (pending ++ more) 0 user) := by
  have hwhole : getHeaders MAX_HEADERS true (pending ++ more) = some (hs, rest ++ more) := by
    rw [← headers_parse] at h ⊢
    exact ((headers MAX_HEADERS true).stable more).mpr h
  have hlen := same.length
  have hshort : ¬ MAX_FALLBACK_SIZE < (pending ++ more).length - (rest ++ more).length := by
    simp only [List.length_append]
    omega
  have hconsumed : buffer.length - rest.length ≠ 0 := by omega
  have hdrop : (taken ++ (rest ++ more)).drop (buffer.length - rest.length - had) =
      rest ++ more := by
    have hskip : buffer.length - rest.length - had = taken.length := by omega
    rw [hskip, List.drop_left]
  rw [fence_some hH true user (same.parse.trans h), settle_request user hwhole, if_neg hshort]
  cases H.request user ⟨hs⟩ with
  | mk user' goesOn =>
      cases goesOn with
      | false => exact .stopped
      | true =>
          simp only [resume, if_true, if_pos hconsumed, hdrop]
          by_cases hbody : bodyLength ⟨hs⟩ = 0
          · rw [if_neg (not_not_intro hbody), hbody]
            exact consumeAll_refines hH (rest ++ more) user'
          · rw [if_pos hbody]
            exact streamBody_refines hH (bodyLength ⟨hs⟩) (rest ++ more) user'

/-- More data for a request of which the front is in the fallback buffer. -/
theorem consumeFallback_refines (hH : H.Bodiless) {fallback pending : Bytes}
    (same : SameFront fallback pending) (fits : pending.length < MAX_FALLBACK_SIZE)
    (front : getHeaders MAX_HEADERS true pending = none) (hne : fallback ≠ []) (data : Bytes)
    (user : σ) :
    Refines (consumePostPadded H ⟨fallback, 0⟩ data user)
      ((reader H).settle (pending ++ data) 0 user) := by
  rw [consumePostPadded, if_neg (by simp), if_pos hne]
  simp only
  have hlen := same.length
  have hcopy : min (MAX_FALLBACK_SIZE - fallback.length) data.length ≤ data.length :=
    Nat.min_le_right _ _
  have hroom : min (MAX_FALLBACK_SIZE - fallback.length) data.length ≤
      MAX_FALLBACK_SIZE - fallback.length := Nat.min_le_left _ _
  have hfull : min (MAX_FALLBACK_SIZE - fallback.length) data.length =
      MAX_FALLBACK_SIZE - fallback.length ∨
      min (MAX_FALLBACK_SIZE - fallback.length) data.length = data.length := by omega
  generalize min (MAX_FALLBACK_SIZE - fallback.length) data.length = copy at hcopy hroom hfull
  have htake : (data.take copy).length = copy := List.length_take_of_le hcopy
  have hbuffer : (fallback ++ data.take copy).length = fallback.length + copy := by
    rw [List.length_append, htake]
  have hsize : (fallback ++ data.take copy).length ≤ MAX_FALLBACK_SIZE := by omega
  have hcut : pending ++ data = (pending ++ data.take copy) ++ data.drop copy := by
    rw [List.append_assoc, List.take_append_drop]
  have hsame := same.append (data.take copy)
  rw [hcut]
  cases hparse : getHeaders MAX_HEADERS true (pending ++ data.take copy) with
  | none =>
      refine resume_unfinished hsame (by simp [hne]) hsize ?_ hparse _ data user
      rcases hfull with hfull | hall
      · exact .inl (by omega)
      · exact .inr (List.drop_eq_nil_of_le (Nat.le_of_eq hall.symm))
  | some r =>
      obtain ⟨hs, rest⟩ := r
      obtain ⟨taken, htaken⟩ := getHeaders_ends front hparse
      have hdata : data = taken ++ (rest ++ data.drop copy) := by
        rw [← List.append_assoc, ← htaken, List.take_append_drop]
      have hparts : (fallback ++ data.take copy).length =
          fallback.length + taken.length + rest.length := by
        rw [hbuffer, ← htake, htaken, List.length_append, Nat.add_assoc]
      have hrequest := resume_request hH hsame (List.length_pos_iff.mpr hne) hparts hsize hparse
        (data.drop copy) user
      rwa [← hdata] at hrequest

/-- One piece of the stream. -/
theorem receive_refines (hH : H.Bodiless) {connection : Connection σ}
    {state : Reader.State UInt8 σ} (h : Refines connection state) (data : Bytes) :
    Refines (connection.receive H data) ((reader H).feed state data) := by
  cases h with
  | overlong => exact .overlong
  | stopped => exact .stopped
  | @waiting pending fallback skip user same fits front body =>
      rw [Connection.receive, Reader.feed]
      rcases Nat.eq_zero_or_pos skip with rfl | hskip
      · by_cases hne : fallback = []
        · subst hne
          have hnil : pending = [] := List.eq_nil_of_length_eq_zero same.length.symm
          subst hnil
          exact consumeAll_refines hH data user
        · exact consumeFallback_refines hH same fits front hne data user
      · have hnil : pending = [] := body.resolve_left (by omega)
        subst hnil
        rw [same.nil, consumePostPadded, if_pos (by simpa using Nat.ne_of_gt hskip)]
        exact streamBody_refines hH skip data user

/-- All pieces. -/
theorem run_refines (hH : H.Bodiless) (chunks : List Bytes) {connection : Connection σ}
    {state : Reader.State UInt8 σ} (h : Refines connection state) :
    Refines (chunks.foldl (Connection.receive H) connection)
      (chunks.foldl (reader H).feed state) := by
  induction chunks generalizing connection state with
  | nil => exact h
  | cons chunk chunks ih => exact ih (receive_refines hH h chunk)

/-- The parser of a connection that has just been opened. -/
def opened (user : σ) : Connection σ := .live ⟨[], 0⟩ user

theorem opened_refines (H : Handlers σ) (user : σ) :
    Refines (opened user) ((reader H).settle [] 0 user) := by
  rw [settle_front user rfl]
  exact .waiting (SameFront.refl []) (by decide) rfl (.inl rfl)

/-- However a connection's bytes are cut up, the parser does what the reader does with all of
them at once. -/
theorem consume_refines (hH : H.Bodiless) (chunks : List Bytes) (user : σ) :
    Refines (chunks.foldl (Connection.receive H) (opened user))
      ((reader H).settle chunks.flatten 0 user) := by
  have hrun := run_refines hH chunks (opened_refines H user)
  rwa [Reader.foldl_feed, List.nil_append] at hrun

end

/-- Counts the requests. -/
def counting : Handlers Nat where
  request n _ := (n + 1, true)
  data n _ _ := (n, true)
  error n := (n, false)

/-- Two requests, cut within a key, within a value and between CR and LF. -/
def cutRequests : List Bytes :=
  [[71, 69], [84, 32, 47, 97], [32, 72, 84, 84, 80, 47, 49, 46, 49, 13], [10, 13, 10, 71],
    [69, 84, 32, 47, 32, 72, 84, 84, 80, 47, 49, 46, 49, 13, 10, 13, 10]]

theorem cut_requests_refine :
    Refines (cutRequests.foldl (Connection.receive counting) (opened 0))
        ((reader counting).settle cutRequests.flatten 0 0) ∧
      cutRequests.foldl (Connection.receive counting) (opened 0) = .live ⟨[], 0⟩ 2 :=
  ⟨consume_refines (fun _ _ _ => rfl) cutRequests 0, by decide +kernel⟩

section
variable {σ : Type*} {H : Handlers σ}

/-! ## Invariants -/

/-- What the handlers keep: `P` of the user as long as the socket is open, and from then on
`Q`. -/
structure Handlers.Keeps (H : Handlers σ) (P Q : σ → Prop) : Prop where
  served : ∀ {user req user'}, P user → H.request user req = (user', true) → P user'
  closed : ∀ {user req user'}, P user → H.request user req = (user', false) → Q user'
  data : ∀ {user bytes fin user' goesOn}, P user → H.data user bytes fin = (user', goesOn) → P user'
  error : ∀ {user user' goesOn}, P user → H.error user = (user', goesOn) → P user'
  weaken : ∀ {user}, P user → Q user

def Connection.Keeps (P Q : σ → Prop) : Connection σ → Prop
  | .live _ user => P user
  | .closed user => Q user

def Fenced.Keeps (P Q : σ → Prop) : Fenced σ → Prop
  | .returned user => Q user
  | .left _ _ user => P user

variable {P Q : σ → Prop}

theorem fence_keeps (h : H.Keeps P Q) (minimally : Bool) (data : Bytes) (remaining : Nat)
    (user : σ) (hP : P user) :
    (fenceAndConsumePostPadded H minimally data remaining user).Keeps P Q := by
  fun_induction fenceAndConsumePostPadded H minimally data remaining user with
  | case1 => exact hP
  | case2 => exact hP
  | case3 _ _ _ _ _ _ _ user' hrequest => exact h.closed hP hrequest
  | case4 _ _ _ _ _ _ _ user' hrequest => exact h.data (h.served hP hrequest) rfl
  | case5 _ _ _ _ _ _ _ user' hrequest _ _ _ _ ih =>
      exact ih (h.data (h.served hP hrequest) rfl)
  | case6 _ _ _ _ _ _ _ user' hrequest => exact h.served hP hrequest
  | case7 _ _ _ _ _ _ _ user' hrequest _ _ _ _ _ _ ih =>
      exact ih (h.data (h.served hP hrequest) rfl)

theorem keepRest_keeps (h : H.Keeps P Q) (fallback : Bytes) {fenced : Fenced σ}
    (hP : fenced.Keeps P Q) : (keepRest H fallback fenced).Keeps P Q := by
  cases fenced with
  | returned user => exact hP
  | left rest remaining user =>
      rw [keepRest]
      split
      next => exact hP
      next =>
        split
        next => exact hP
        next =>
          split
          next herror => exact h.error hP herror
          next herror => exact h.weaken (h.error hP herror)

theorem consumeAll_keeps (h : H.Keeps P Q) (fallback data : Bytes) {user : σ} (hP : P user) :
    (consumeAll H fallback data user).Keeps P Q :=
  keepRest_keeps h fallback (fence_keeps h false data 0 user hP)

theorem streamBody_keeps (h : H.Keeps P Q) (fallback : Bytes) (remaining : Nat) (data : Bytes)
    {user : σ} (hP : P user) :
    (streamBody H fallback remaining data user (consumeAll H fallback)).Keeps P Q := by
  rw [streamBody]
  split
  next =>
    split
    next hdata => exact h.data hP hdata
    next hdata => exact h.weaken (h.data hP hdata)
  next =>
    split
    next hdata => exact consumeAll_keeps h fallback _ (h.data hP hdata)
    next hdata => exact h.weaken (h.data hP hdata)

theorem resume_keeps (h : H.Keeps P Q) (had : Nat) (fallback data : Bytes) {fenced : Fenced σ}
    (hP : fenced.Keeps P Q) : (resume H had fallback data fenced).Keeps P Q := by
  cases fenced with
  | returned user => exact hP
  | left rest remaining user =>
      simp only [resume]
      split
      next =>
        split
        next => exact streamBody_keeps h [] remaining _ hP
        next => exact consumeAll_keeps h [] _ hP
      next =>
        split
        next =>
          split
          next herror => exact h.error hP herror
          next herror => exact h.weaken (h.error hP herror)
        next => exact hP

/-- What the handlers keep is kept whatever bytes come in. -/
theorem receive_keeps (h : H.Keeps P Q) {connection : Connection σ}
    (hP : connection.Keeps P Q) (data : Bytes) : (connection.receive H data).Keeps P Q := by
  cases connection with
  | closed user => exact hP
  | live p user =>
      rw [Connection.receive, consumePostPadded]
      split
      next => exact streamBody_keeps h p.fallback _ data hP
      next =>
        split
        next => exact resume_keeps h _ _ data (fence_keeps h true _ 0 user hP)
        next => exact consumeAll_keeps h p.fallback data hP

theorem run_keeps (h : H.Keeps P Q) (chunks : List Bytes) {user : σ} (hP : P user) :
    (chunks.foldl (Connection.receive H) (opened user)).Keeps P Q := by
  have hrun : ∀ connection : Connection σ, connection.Keeps P Q →
      (chunks.foldl (Connection.receive H) connection).Keeps P Q := by
    induction chunks with
    | nil => exact fun _ h => h
    | cons chunk chunks ih => exact fun _ hc => ih _ (receive_keeps h hc chunk)
  exact hrun (opened user) hP

/-! ## A long request -/

/-- The front of a request is no request. -/
theorem front_of_request {front back : Bytes} {hs : List Header}
    (h : getHeaders MAX_HEADERS true (front ++ back) = some (hs, [])) (hback : back ≠ []) :
    getHeaders MAX_HEADERS true front = none := by
  cases hfront : getHeaders MAX_HEADERS true front with
  | none => rfl
  | some r =>
      obtain ⟨hs', rest⟩ := r
      rw [← headers_parse] at h hfront
      have hwhole := ((headers MAX_HEADERS true).stable back).mpr hfront
      rw [h] at hwhole
      have hnil := (Prod.mk.inj (Option.some.inj hwhole)).2
      exact absurd (List.append_eq_nil_iff.mp hnil.symm).2 hback

/-- A request that comes in one piece is served, however long it is. -/
theorem receive_whole (hH : H.Bodiless) {data : Bytes} {hs : List Header} (user : σ)
    (h : getHeaders MAX_HEADERS true data = some (hs, [])) :
    (opened user).receive H data = match H.request user ⟨hs⟩ with
      | (user, true) => .live ⟨[], bodyLength ⟨hs⟩⟩ user
      | (user, false) => .closed user := by
  rw [opened, Connection.receive, consumePostPadded, if_neg (by simp), if_neg (by simp),
    consumeAll, fence_some hH false user h]
  cases H.request user ⟨hs⟩ with
  | mk user' goesOn =>
      cases goesOn with
      | false => rfl
      | true =>
          simp only [Bool.false_eq_true, if_false, List.drop_nil]
          rw [fenceAndConsumePostPadded, if_pos rfl, keepRest, if_pos rfl, List.length_nil,
            Nat.sub_zero]

/-- A request longer than the fallback buffer is served when it comes in one piece, and
closes the connection without being served when it comes in two. -/
theorem long_request_cut (hH : H.Bodiless) (herror : ∀ user, H.error user = (user, false))
    {front back : Bytes} {hs : List Header} (user : σ)
    (h : getHeaders MAX_HEADERS true (front ++ back) = some (hs, []))
    (hlong : MAX_FALLBACK_SIZE < (front ++ back).length) (hfront : front ≠ [])
    (hback : back ≠ []) :
    ((opened user).receive H (front ++ back) = match H.request user ⟨hs⟩ with
      | (user, true) => .live ⟨[], bodyLength ⟨hs⟩⟩ user
      | (user, false) => .closed user) ∧
      ((opened user).receive H front).receive H back = .closed user := by
  refine ⟨receive_whole hH user h, ?_⟩
  have hnone := front_of_request h hback
  have hlen := length_lowered MAX_HEADERS front
  have hne := lowered_ne_nil MAX_HEADERS hfront
  have hfirst : (opened user).receive H front =
      keepRest H [] (.left (lowered MAX_HEADERS front) 0 user) := by
    rw [opened, Connection.receive, consumePostPadded, if_neg (by simp), if_neg (by simp),
      consumeAll, fence_none false 0 user hfront hnone]
  rw [hfirst, keepRest, if_neg hne]
  by_cases hfits : (lowered MAX_HEADERS front).length < MAX_FALLBACK_SIZE
  · -- the rest of the buffer is filled, and still there is no request
    rw [if_pos hfits, List.nil_append, Connection.receive, consumePostPadded, if_neg (by simp),
      if_pos hne]
    simp only
    rw [List.length_append] at hlong
    have hcopy : min (MAX_FALLBACK_SIZE - (lowered MAX_HEADERS front).length) back.length =
        MAX_FALLBACK_SIZE - front.length := by omega
    rw [hcopy]
    have hcut : front ++ back = (front ++ back.take (MAX_FALLBACK_SIZE - front.length)) ++
        back.drop (MAX_FALLBACK_SIZE - front.length) := by
      rw [List.append_assoc, List.take_append_drop]
    have hleft : back.drop (MAX_FALLBACK_SIZE - front.length) ≠ [] := by
      intro hnil
      have hzero := congrArg List.length hnil
      rw [List.length_drop, List.length_nil] at hzero
      omega
    have hbuf : getHeaders MAX_HEADERS true (lowered MAX_HEADERS front ++
        back.take (MAX_FALLBACK_SIZE - front.length)) = none := by
      rw [hcut] at h
      rw [getHeaders_lowered]
      exact front_of_request h hleft
    have hfull : (lowered MAX_HEADERS front ++
        back.take (MAX_FALLBACK_SIZE - front.length)).length = MAX_FALLBACK_SIZE := by
      rw [List.length_append, List.length_take]
      omega
    generalize lowered MAX_HEADERS front ++
      back.take (MAX_FALLBACK_SIZE - front.length) = buffer at hbuf hfull
    have hbuffer : buffer ≠ [] := by
      rintro rfl
      cases hfull
    rw [fence_none true 0 user hbuffer hbuf]
    simp only [resume, length_lowered, Nat.sub_self, ne_eq, not_true_eq_false, if_false, hfull,
      if_true, herror]
  · rw [if_neg hfits]
    simp only [herror]
    rfl

end

/-- A request of more than 4096 bytes: when it comes in two pieces it is not counted. -/
theorem long_request_closes :
    ((opened 0).receive counting ([71, 69, 84, 32, 47] ++
        (List.replicate 4096 97 ++ [CR, LF, CR, LF])) = .live ⟨[], bodyLength
          ⟨[⟨[103, 101, 116], 47 :: List.replicate 4096 97⟩]⟩⟩ 1) ∧
      ((opened 0).receive counting [71, 69, 84, 32, 47]).receive counting
        (List.replicate 4096 97 ++ [CR, LF, CR, LF]) = .closed 0 := by
  have hraw : CR ∉ (47 :: List.replicate 4096 97 : Bytes) := by
    rw [List.mem_cons]
    rintro (h | h)
    · cases h
    · cases List.eq_of_mem_replicate h
  have hkey : ∀ b ∈ ([71, 69, 84] : Bytes), keyByte b = true := List.all_eq_true.mp rfl
  have hparse : getHeaders MAX_HEADERS true ([71, 69, 84, 32, 47] ++
      (List.replicate 4096 97 ++ [CR, LF, CR, LF])) =
        some ([⟨[103, 101, 116], 47 :: List.replicate 4096 97⟩], []) := by
    have hline : readLine (Header.line 32 [71, 69, 84] (47 :: List.replicate 4096 97) ++ [CR, LF]) =
        some (some ⟨[103, 101, 116], 47 :: List.replicate 4096 97⟩, [CR, LF]) :=
      readLine_header hkey (by decide) (by decide) hraw [CR, LF]
    have hl : ∀ name : Bytes, [71, 69, 84, 32, 47] ++ (name ++ [CR, LF, CR, LF]) =
        Header.line 32 [71, 69, 84] (47 :: name) ++ [CR, LF] := by
      intro name
      simp [Header.line]
    rw [hl, MAX_HEADERS, getHeaders, hline]
    rfl
  have hback : List.replicate 4096 97 ++ [CR, LF, CR, LF] ≠ [] := fun h =>
    absurd (List.append_eq_nil_iff.mp h).2 (by decide)
  refine long_request_cut (fun _ _ _ => rfl) (fun _ => rfl) 0 hparse ?_ (by decide) hback
  simp only [List.length_append, List.length_replicate]
  decide

end AutoExpo.Http
