import AutoExpo.Kit.Reader
import Mathlib.Data.List.TakeWhile

/-!
# The HTTP parser

`HttpParser` of the web server: the headers of a request, the body it leaves out,
and the fallback buffer for a request that arrives in pieces. The parser works in
the receive buffer and turns the keys it walks over into lower case there, so
what it puts aside is not what came in: but it is read the same, however it goes
on (`getHeaders_lowered`).
-/

namespace AutoExpo.Http

open Kit

abbrev Bytes := List UInt8

def CR : UInt8 := 13

def LF : UInt8 := 10

def MAX_HEADERS : Nat := 50

def MAX_FALLBACK_SIZE : Nat := 1024 * 4

/-! ## Headers -/

/-- A byte of a key: not `:` and over 32 as a signed `char`. -/
def keyByte (b : UInt8) : Bool := decide (b ≠ 58 ∧ 32 < b ∧ b < 128)

/-- A byte between key and value: `:` or under 33 as a signed `char`, and not CR. -/
def skipByte (b : UInt8) : Bool := decide ((b = 58 ∨ b < 33 ∨ 128 ≤ b) ∧ b ≠ CR)

def lower (b : UInt8) : UInt8 := b ||| 32

structure Header where
  key : Bytes
  value : Bytes
  deriving DecidableEq

/-- One turn of the loop of `getHeaders`: a header, or none at a blank line, and what comes
after the line. The byte behind the data is a CR with no LF after it. -/
def readLine (l : Bytes) : Option (Option Header × Bytes) :=
  match l.dropWhile keyByte with
  | [] => none
  | stop :: rest =>
      if stop = CR then
        match rest with
        | [] => none
        | b :: rest => if b = LF then some (none, rest) else none
      else
        let preliminaryValue := rest.dropWhile skipByte
        match preliminaryValue.dropWhile (· ≠ CR) with
        | _ :: b :: after =>
            if b = LF then
              some (some { key := (l.takeWhile keyByte).map lower,
                           value := preliminaryValue.takeWhile (· ≠ CR) }, after)
            else none
        | _ => none

/-- The headers up to the blank line, which cannot be the first line, and what comes after
it. There is `room` for headers. -/
def getHeaders : (room : Nat) → (first : Bool) → Bytes → Option (List Header × Bytes)
  | 0, _, _ => none
  | room + 1, first, l =>
      match readLine l with
      | none => none
      | some (none, rest) => if first then none else some ([], rest)
      | some (some header, rest) =>
          (getHeaders room false rest).map fun r => (header :: r.1, r.2)

/-- `l`, with its key in lower case. -/
def lowerKey (l : Bytes) : Bytes := (l.takeWhile keyByte).map lower ++ l.dropWhile keyByte

/-- The data as a call of `getHeaders` that fails leaves it. -/
def lowered : (room : Nat) → Bytes → Bytes
  | 0, l => l
  | room + 1, l =>
      match readLine l with
      | some (some _, rest) => (lowerKey l).take (l.length - rest.length) ++ lowered room rest
      | _ => lowerKey l

/-! ## The headers as a parser -/

/-- `readLine`, put together from parsers. -/
def line : FrontParser UInt8 (Option Header) :=
  (FrontParser.upTo keyByte).bind fun key =>
    if key.2 = CR then
      FrontParser.one.bind fun b => if b = LF then .pure none else .fail
    else
      (FrontParser.upTo (· ≠ CR)).bind fun value =>
        FrontParser.one.bind fun b =>
          if b = LF then .pure (some ⟨key.1.map lower, value.1.dropWhile skipByte⟩) else .fail

theorem skipByte_ne_CR (b : UInt8) (h : skipByte b = true) : decide (b ≠ CR) = true :=
  decide_eq_true (of_decide_eq_true h).2

theorem line_parse (l : Bytes) : line.parse l = readLine l := by
  rw [line, FrontParser.parse_bind, readLine]
  simp only [FrontParser.upTo]
  cases l.dropWhile keyByte with
  | nil => rfl
  | cons stop rest =>
      simp only [Option.bind_some]
      by_cases hstop : stop = CR
      · rw [if_pos hstop, if_pos hstop, FrontParser.parse_bind]
        cases rest with
        | nil => rfl
        | cons b rest =>
            simp only [FrontParser.one, Option.bind_some]
            split
            next => rfl
            next => rfl
      · rw [if_neg hstop, if_neg hstop, FrontParser.parse_bind]
        -- what is skipped holds no CR, so it comes off the value
        rw [dropWhile_dropWhile_of_imp skipByte_ne_CR, takeWhile_dropWhile_of_imp skipByte_ne_CR]
        simp only
        cases rest.dropWhile (fun b => decide (b ≠ CR)) with
        | nil => rfl
        | cons cr after =>
            simp only [Option.bind_some, FrontParser.parse_bind]
            cases after with
            | nil => rfl
            | cons b after =>
                simp only [FrontParser.one, Option.bind_some]
                split
                next => rfl
                next => rfl

/-- `getHeaders`, put together from parsers. -/
def headers : (room : Nat) → (first : Bool) → FrontParser UInt8 (List Header)
  | 0, _ => .fail
  | room + 1, first =>
      line.bind fun
        | none => if first then .fail else .pure []
        | some header => (headers room false).bind fun rest => .pure (header :: rest)

theorem headers_parse (room : Nat) (first : Bool) (l : Bytes) :
    (headers room first).parse l = getHeaders room first l := by
  induction room generalizing first l with
  | zero => rfl
  | succ room ih =>
      rw [headers, FrontParser.parse_bind, line_parse, getHeaders]
      cases readLine l with
      | none => rfl
      | some r =>
          obtain ⟨header, rest⟩ := r
          cases header with
          | none =>
              simp only [Option.bind_some]
              split
              next => rfl
              next => rfl
          | some header =>
              simp only [Option.bind_some, FrontParser.parse_bind, ih]
              cases getHeaders room false rest with
              | none => rfl
              | some r => rfl

theorem getHeaders_length {room : Nat} {first : Bool} {l rest : Bytes} {hs : List Header}
    (h : getHeaders room first l = some (hs, rest)) : rest.length < l.length := by
  rw [← headers_parse] at h
  refine (headers room first).length_lt ?_ h
  cases room with
  | zero => rfl
  | succ room => rfl

/-! ## Lower case in the buffer -/

theorem lower_lower (b : UInt8) : lower (lower b) = lower b := by
  rw [lower, lower, UInt8.or_assoc, UInt8.or_self]

theorem keyByte_lower {b : UInt8} (h : keyByte b = true) : keyByte (lower b) = true := by
  have hall : ∀ n : Fin 256, keyByte (UInt8.ofFin n) = true →
      keyByte (lower (UInt8.ofFin n)) = true := by decide +kernel
  exact hall b.toFin h

theorem length_lowerKey (l : Bytes) : (lowerKey l).length = l.length := by
  have hlen := congrArg List.length (List.takeWhile_append_dropWhile (p := keyByte) (l := l))
  rw [List.length_append] at hlen
  rw [lowerKey, List.length_append, List.length_map, hlen]

/-- A key in lower case is read as the same key. -/
theorem readLine_lowerKey (l more : Bytes) :
    readLine (lowerKey l ++ more) = readLine (l ++ more) := by
  have hkey : ∀ b ∈ l.takeWhile keyByte, keyByte b = true := fun b => List.mem_takeWhile_imp
  have hlow : ∀ b ∈ (l.takeWhile keyByte).map lower, keyByte b = true := by
    intro b hb
    obtain ⟨a, ha, rfl⟩ := List.mem_map.mp hb
    exact keyByte_lower (hkey a ha)
  have hidem : ((l.takeWhile keyByte).map lower).map lower = (l.takeWhile keyByte).map lower := by
    rw [List.map_map]
    exact List.map_congr_left fun b _ => lower_lower b
  have hl : l ++ more = l.takeWhile keyByte ++ (l.dropWhile keyByte ++ more) := by
    rw [← List.append_assoc, List.takeWhile_append_dropWhile]
  rw [hl, lowerKey, List.append_assoc, readLine, readLine,
    List.dropWhile_append_of_pos hlow, List.dropWhile_append_of_pos hkey,
    List.takeWhile_append_of_pos hlow, List.takeWhile_append_of_pos hkey,
    List.map_append, List.map_append, hidem]

/-- A line in lower case, and its front alone. -/
theorem readLine_split {l rest : Bytes} {header : Option Header}
    (h : readLine l = some (header, rest)) :
    lowerKey l = (lowerKey l).take (l.length - rest.length) ++ rest ∧
      ∀ more, readLine ((lowerKey l).take (l.length - rest.length) ++ more) =
        some (header, more) := by
  have hlow : line.parse (lowerKey l) = some (header, rest) := by
    have hread := readLine_lowerKey l []
    rw [List.append_nil, List.append_nil] at hread
    rw [line_parse, hread, h]
  obtain ⟨front, hfront⟩ := line.split hlow
  have htake : (lowerKey l).take (l.length - rest.length) = front := by
    rw [← length_lowerKey, hfront, List.length_append, Nat.add_sub_cancel, List.take_left]
  rw [htake]
  refine ⟨hfront, fun more => ?_⟩
  rw [hfront] at hlow
  rw [← line_parse, line.parse_front hlow more]

theorem length_lowered (room : Nat) (l : Bytes) : (lowered room l).length = l.length := by
  induction room generalizing l with
  | zero => rfl
  | succ room ih =>
      rw [lowered]
      split
      next header rest hline =>
        have hsplit := congrArg List.length (readLine_split hline).1
        rw [List.length_append, length_lowerKey] at hsplit
        rw [List.length_append, ih]
        exact hsplit.symm
      next => exact length_lowerKey l

theorem lowered_ne_nil (room : Nat) {l : Bytes} (h : l ≠ []) : lowered room l ≠ [] := by
  intro hnil
  have hlen := length_lowered room l
  rw [hnil, List.length_nil] at hlen
  exact h (List.eq_nil_of_length_eq_zero hlen.symm)

/-- What a failed call leaves is read as what was there, however it goes on. -/
theorem getHeaders_lowered (room : Nat) (first : Bool) (l more : Bytes) :
    getHeaders room first (lowered room l ++ more) = getHeaders room first (l ++ more) := by
  induction room generalizing first l with
  | zero => rfl
  | succ room ih =>
      rw [lowered]
      split
      next header rest hline =>
        have hfront := (readLine_split hline).2 (lowered room rest ++ more)
        have hwhole : readLine (l ++ more) = some (some header, rest ++ more) := by
          rw [← line_parse] at hline ⊢
          exact (line.stable more).mpr hline
        rw [List.append_assoc, getHeaders, getHeaders, hfront, hwhole]
        simp only [ih]
      next => rw [getHeaders, getHeaders, readLine_lowerKey]

/-! ## Written headers -/

/-- A header as it is written: the key, what is between key and value, and the value. -/
def Header.line (separator : UInt8) (key raw : Bytes) : Bytes :=
  key ++ separator :: raw ++ [CR, LF]

theorem readLine_header {key raw : Bytes} {separator : UInt8} (hkey : ∀ b ∈ key, keyByte b = true)
    (hseparator : ¬ keyByte separator = true) (hCR : separator ≠ CR) (hraw : CR ∉ raw)
    (rest : Bytes) :
    readLine (Header.line separator key raw ++ rest) =
      some (some ⟨key.map lower, raw.dropWhile skipByte⟩, rest) := by
  have hvalue : ∀ b ∈ raw, decide (b ≠ CR) = true := fun b hb =>
    decide_eq_true fun h => hraw (h ▸ hb)
  have hdrop : (CR :: LF :: rest).dropWhile (fun b => decide (b ≠ CR)) = CR :: LF :: rest := rfl
  have htake : (CR :: LF :: rest).takeWhile (fun b => decide (b ≠ CR)) = [] := rfl
  have hl : Header.line separator key raw ++ rest =
      key ++ separator :: (raw ++ CR :: LF :: rest) := by
    simp [Header.line]
  rw [hl, readLine, List.dropWhile_append_of_pos hkey, List.takeWhile_append_of_pos hkey,
    List.dropWhile_cons_of_neg hseparator, List.takeWhile_cons_of_neg hseparator]
  simp only [if_neg hCR]
  rw [dropWhile_dropWhile_of_imp skipByte_ne_CR, takeWhile_dropWhile_of_imp skipByte_ne_CR,
    List.dropWhile_append_of_pos hvalue, List.takeWhile_append_of_pos hvalue, hdrop, htake]
  simp only [if_true, List.append_nil]

/-! ## Requests -/

structure HttpRequest where
  headers : List Header
  deriving DecidableEq

namespace HttpRequest

/-- Looks from the second header on, and no further than a header with an empty key. -/
def getHeader (req : HttpRequest) (lowerCasedHeader : Bytes) : Bytes :=
  (((req.headers.drop 1).takeWhile (·.key ≠ [])).find? (·.key = lowerCasedHeader)).elim []
    (·.value)

/-- The value of the first header without its last nine bytes, `" HTTP/1.1"` of a proper
request. -/
def target (req : HttpRequest) : Bytes :=
  let value := (req.headers.head?.elim [] (·.value))
  value.take (value.length - 9)

def getUrl (req : HttpRequest) : Bytes := req.target.takeWhile (· ≠ 63)

def getMethod (req : HttpRequest) : Bytes := req.headers.head?.elim [] (·.key)

end HttpRequest

def toUnsignedInteger (str : Bytes) : UInt32 :=
  str.foldl (fun value c => value * 10 + (c.toUInt32 - 48)) 0

def contentLength : Bytes :=
  [99, 111, 110, 116, 101, 110, 116, 45, 108, 101, 110, 103, 116, 104]

/-! ## The parser -/

/-- What the parser calls; the flag tells whether it goes on with the socket it had. -/
structure Handlers (σ : Type*) where
  request : σ → HttpRequest → σ × Bool
  data : σ → Bytes → Bool → σ × Bool
  error : σ → σ × Bool

structure HttpParser where
  fallback : Bytes
  remainingStreamingBytes : Nat
  deriving DecidableEq

/-- The parser of a connection and its user, or the user alone once the socket is closed. -/
inductive Connection (σ : Type*)
  | live (parser : HttpParser) (user : σ)
  | closed (user : σ)
  deriving DecidableEq

/-- What `fenceAndConsumePostPadded` comes back with: not the socket it was given, or what is
left of the data and of the body of the last request. -/
inductive Fenced (σ : Type*)
  | returned (user : σ)
  | left (data : Bytes) (remainingStreamingBytes : Nat) (user : σ)
  deriving DecidableEq

section
variable {σ : Type*} (H : Handlers σ)

/-- The requests in the data, or only the first of them when it consumes `minimally`. What a
data handler returns here is not looked at. -/
def fenceAndConsumePostPadded (minimally : Bool) (data : Bytes) (remaining : Nat) (user : σ) :
    Fenced σ :=
  if data = [] then .left data remaining user
  else
    match _h : getHeaders MAX_HEADERS true data with
    | none => .left (lowered MAX_HEADERS data) remaining user
    | some (headers, rest) =>
        match H.request user ⟨headers⟩ with
        | (user, false) => .returned user
        | (user, true) =>
            let contentLengthString := HttpRequest.getHeader ⟨headers⟩ contentLength
            if contentLengthString = [] then
              let user := (H.data user [] true).1
              if minimally then .left rest remaining user
              else fenceAndConsumePostPadded minimally rest remaining user
            else
              let remaining := (toUnsignedInteger contentLengthString).toNat
              if minimally then .left rest remaining user
              else
                let emittable := min remaining rest.length
                let user := (H.data user (rest.take emittable) (emittable = remaining)).1
                fenceAndConsumePostPadded minimally (rest.drop emittable)
                  (remaining - emittable) user
termination_by data.length
decreasing_by
  · exact getHeaders_length _h
  · have hlt := getHeaders_length _h
    rw [List.length_drop]
    omega

/-- The rest of a body goes to the data handler; what comes after it is for `next`. -/
def streamBody (fallback : Bytes) (remaining : Nat) (data : Bytes) (user : σ)
    (next : Bytes → σ → Connection σ) : Connection σ :=
  if data.length ≤ remaining then
    match H.data user data (remaining = data.length) with
    | (user, true) => .live ⟨fallback, remaining - data.length⟩ user
    | (user, false) => .closed user
  else
    match H.data user (data.take remaining) true with
    | (user, true) => next (data.drop remaining) user
    | (user, false) => .closed user

/-- What is left of the data goes to the fallback buffer. -/
def keepRest (fallback : Bytes) : Fenced σ → Connection σ
  | .returned user => .closed user
  | .left rest remaining user =>
      if rest = [] then .live ⟨fallback, remaining⟩ user
      else if rest.length < MAX_FALLBACK_SIZE then .live ⟨fallback ++ rest, remaining⟩ user
      else match H.error user with
        | (user, true) => .live ⟨fallback, remaining⟩ user
        | (user, false) => .closed user

def consumeAll (fallback data : Bytes) (user : σ) : Connection σ :=
  keepRest H fallback (fenceAndConsumePostPadded H false data 0 user)

/-- What comes after the search for one request in `fallback`, of which `had` bytes were there
before and the others are a copy of the front of `data`. -/
def resume (had : Nat) (fallback data : Bytes) : Fenced σ → Connection σ
  | .returned user => .closed user
  | .left rest remaining user =>
      let consumed := fallback.length - rest.length
      if consumed ≠ 0 then
        let data := data.drop (consumed - had)
        if remaining ≠ 0 then streamBody H [] remaining data user (consumeAll H [])
        else consumeAll H [] data user
      else if fallback.length = MAX_FALLBACK_SIZE then
        match H.error user with
        | (user, true) => .live ⟨rest, remaining⟩ user
        | (user, false) => .closed user
      else .live ⟨rest, remaining⟩ user

def consumePostPadded (p : HttpParser) (data : Bytes) (user : σ) : Connection σ :=
  if p.remainingStreamingBytes ≠ 0 then
    streamBody H p.fallback p.remainingStreamingBytes data user (consumeAll H p.fallback)
  else if p.fallback ≠ [] then
    let maxCopyDistance := min (MAX_FALLBACK_SIZE - p.fallback.length) data.length
    let fallback := p.fallback ++ data.take maxCopyDistance
    resume H p.fallback.length fallback data (fenceAndConsumePostPadded H true fallback 0 user)
  else consumeAll H p.fallback data user

/-- More data on the connection; a closed socket gets none. -/
def Connection.receive : Connection σ → Bytes → Connection σ
  | .live p user, data => consumePostPadded H p data user
  | .closed user, _ => .closed user

end

end AutoExpo.Http
