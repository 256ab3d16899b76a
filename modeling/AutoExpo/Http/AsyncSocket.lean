import AutoExpo.Http.Parser
import Mathlib.Logic.Function.Basic

/-!
# What a socket writes

`AsyncSocket` of the web server: a write goes to the cork buffer, which all the
sockets of the loop share, to the network, or to the socket's own buffer. The
network may take any part of what it is given.

A write in a callback of the loop is taken whole, or not at all (`write_spec`): not at
all if it overflows the cork buffer and the network does not take all that is corked.
A socket that is uncorked at the end of its callback leaves nothing corked
(`uncork_end`). `nextLength` and the message flags are hints and left out, as are
timeouts.
-/

namespace AutoExpo.Http

/-- Good 16k for SSL perf. -/
def CORK_BUFFER_SIZE : Nat := 16 * 1024

/-- The socket's own buffer, and what the network has taken. -/
structure Out where
  buffer : Bytes
  wire : Bytes
  closed : Bool
  deriving DecidableEq

/-- The loop's data and its sockets. `room` is how much the network takes at the sends to
come. -/
structure Loop (ι : Type*) where
  corkBuffer : Bytes
  corkedSocket : Option ι
  out : ι → Out
  room : List Nat

namespace Loop

variable {ι : Type*}

section
variable [DecidableEq ι] (i : ι)

def setOut (o : Out) (l : Loop ι) : Loop ι := { l with out := Function.update l.out i o }

def setBuffer (buffer : Bytes) (l : Loop ι) : Loop ι :=
  l.setOut i { l.out i with buffer := buffer }

/-- `us_socket_write` -/
def usSocketWrite (data : Bytes) (l : Loop ι) : Nat × Loop ι :=
  let written := min (l.room.headD 0) data.length
  (written, { l with room := l.room.tail }.setOut i
    { l.out i with wire := (l.out i).wire ++ data.take written })

/-- The first part of `write`, which writes off as much of the socket's buffer as it can; the
result of the `write`, if that is all it does. -/
def drain (src : Bytes) (optionally : Bool) (l : Loop ι) : Option (Nat × Bool) × Loop ι :=
  let buffer := (l.out i).buffer
  if buffer = [] then (none, l)
  else
    let (written, l) := l.usSocketWrite i buffer
    if written < buffer.length then
      if optionally then (some (0, true), l.setBuffer i (buffer.drop written))
      else (some (src.length, true), l.setBuffer i (buffer.drop written ++ src))
    else (none, l.setBuffer i [])

/-- The part of `write` for a socket that is not corked. -/
def writeThrough (src : Bytes) (optionally : Bool) (l : Loop ι) : (Nat × Bool) × Loop ι :=
  let (written, l) := l.usSocketWrite i src
  if written < src.length then
    if optionally then ((written, true), l)
    else ((src.length, true), l.setBuffer i ((l.out i).buffer ++ src.drop written))
  else ((src.length, false), l)

/-- `write`, where the socket is not corked. -/
def writeUncorked (src : Bytes) (optionally : Bool) (l : Loop ι) : (Nat × Bool) × Loop ι :=
  if (l.out i).closed then ((src.length, false), l)
  else match l.drain i src optionally with
    | (some result, l) => (result, l)
    | (none, l) => if src = [] then ((0, false), l) else l.writeThrough i src optionally

def uncork (src : Bytes) (optionally : Bool) (l : Loop ι) : (Nat × Bool) × Loop ι :=
  if l.corkedSocket = some i then
    let l := { l with corkedSocket := none }
    if l.corkBuffer = [] then l.writeUncorked i src optionally
    else match l.writeUncorked i l.corkBuffer false with
      | ((_, failed), l) =>
          let l := { l with corkBuffer := [] }
          if failed then ((0, true), l) else l.writeUncorked i src optionally
  else ((0, false), l)

def write (src : Bytes) (optionally : Bool) (l : Loop ι) : (Nat × Bool) × Loop ι :=
  if (l.out i).closed then ((src.length, false), l)
  else match l.drain i src optionally with
    | (some result, l) => (result, l)
    | (none, l) =>
        if src = [] then ((0, false), l)
        else if l.corkedSocket = some i then
          if src.length ≤ CORK_BUFFER_SIZE - l.corkBuffer.length then
            ((src.length, false), { l with corkBuffer := l.corkBuffer ++ src })
          else l.uncork i src optionally
        else l.writeThrough i src optionally

def close (l : Loop ι) : Loop ι := l.setOut i { l.out i with closed := true }

def cork (l : Loop ι) : Loop ι := { l with corkedSocket := some i }

/-- The callback for a socket that takes writes again. -/
def onWritable (l : Loop ι) : Loop ι := (l.write i [] true).2

end

/-! ## Where the bytes go -/

/-- What has been taken from the socket, the cork buffer apart. -/
def held (i : ι) (l : Loop ι) : Bytes := (l.out i).wire ++ (l.out i).buffer

/-- The socket takes `src`, and the rest of the loop is left alone. -/
structure Adds (i : ι) (src : Bytes) (l l' : Loop ι) : Prop where
  held : l'.held i = l.held i ++ src
  corkBuffer : l'.corkBuffer = l.corkBuffer
  corkedSocket : l'.corkedSocket = l.corkedSocket
  closed : (l'.out i).closed = (l.out i).closed
  others : ∀ j, j ≠ i → l'.out j = l.out j

variable {i : ι} {l l' l'' : Loop ι} {src src' : Bytes}

theorem Adds.trans (h : Adds i src l l') (h' : Adds i src' l' l'') :
    Adds i (src ++ src') l l'' where
  held := by rw [h'.held, h.held, List.append_assoc]
  corkBuffer := h'.corkBuffer.trans h.corkBuffer
  corkedSocket := h'.corkedSocket.trans h.corkedSocket
  closed := h'.closed.trans h.closed
  others j hj := (h'.others j hj).trans (h.others j hj)

theorem Adds.refl (l : Loop ι) : Adds i [] l l where
  held := (List.append_nil _).symm
  corkBuffer := rfl
  corkedSocket := rfl
  closed := rfl
  others _ _ := rfl

variable [DecidableEq ι]

/-- A send, and what the buffer then becomes. -/
theorem adds_send {data buffer : Bytes} {room : List Nat}
    (h : (l.out i).wire ++ data ++ buffer = l.held i ++ src) :
    Adds i src l (({ l with room := room }.setOut i
      { l.out i with wire := (l.out i).wire ++ data }).setBuffer i buffer) where
  held := by simpa [Loop.held, setOut, setBuffer] using h
  corkBuffer := rfl
  corkedSocket := rfl
  closed := by simp [setOut, setBuffer]
  others j hj := by simp [setOut, setBuffer, hj]

theorem setBuffer_buffer (buffer : Bytes) (l : Loop ι) :
    ((l.setBuffer i buffer).out i).buffer = buffer := by
  simp [setBuffer, setOut]

theorem close_out (i : ι) (l : Loop ι) : (l.close i).out i = { l.out i with closed := true } :=
  Function.update_self _ _ _

theorem close_out_of_ne {j : ι} (hj : j ≠ i) (l : Loop ι) : (l.close i).out j = l.out j :=
  Function.update_of_ne hj _ _

/-- What `drain` does: it has the whole of a write taken, or empties the buffer. -/
theorem drain_spec (i : ι) (src : Bytes) (l : Loop ι) :
    match l.drain i src false with
    | (some result, l') => result.1 = src.length ∧ Adds i src l l' ∧ (l'.out i).buffer ≠ []
    | (none, l') => Adds i [] l l' ∧ (l'.out i).buffer = [] := by
  rw [drain]
  by_cases hbuffer : (l.out i).buffer = []
  · simp only [hbuffer, if_true]
    exact ⟨Adds.refl l, trivial⟩
  · simp only [hbuffer, if_false, usSocketWrite]
    by_cases hpart : min (l.room.headD 0) (l.out i).buffer.length < (l.out i).buffer.length
    · simp only [hpart, if_true, Bool.false_eq_true, if_false]
      refine ⟨trivial, adds_send ?_, ?_⟩
      · rw [List.append_assoc, ← List.append_assoc (List.take _ _), List.take_append_drop, held,
          List.append_assoc]
      · rw [setBuffer_buffer]
        intro hnil
        have hdrop := List.drop_eq_nil_iff.mp (List.append_eq_nil_iff.mp hnil).1
        exact absurd hpart (Nat.not_lt.mpr hdrop)
    · simp only [hpart, if_false]
      have hall := Nat.le_of_not_lt hpart
      refine ⟨adds_send ?_, setBuffer_buffer [] _⟩
      rw [List.take_of_length_le hall, held, List.append_nil]

theorem setBuffer_self {buffer : Bytes} (h : (l.out i).buffer = buffer) :
    l.setBuffer i buffer = l := by
  subst h
  simp [setBuffer, setOut]

/-- With nothing buffered, what the network does not take is buffered. -/
theorem writeThrough_spec (src : Bytes) (hbuffer : (l.out i).buffer = []) :
    (l.writeThrough i src false).1.1 = src.length ∧
      Adds i src l (l.writeThrough i src false).2 := by
  rw [writeThrough]
  simp only [usSocketWrite]
  by_cases hpart : min (l.room.headD 0) src.length < src.length
  · simp only [hpart, if_true, Bool.false_eq_true, if_false]
    refine ⟨trivial, adds_send ?_⟩
    simp [setOut, hbuffer, held]
  · simp only [hpart, if_false]
    have hall := List.take_of_length_le (Nat.le_of_not_lt hpart)
    have hsend : Adds i src l (({ l with room := l.room.tail }.setOut i
        { l.out i with wire := (l.out i).wire ++ src }).setBuffer i []) :=
      adds_send (by simp [held, hbuffer])
    rw [setBuffer_self (by simp [setOut, hbuffer])] at hsend
    rw [hall]
    exact ⟨trivial, hsend⟩

/-- A write to a socket that is not corked takes everything. -/
theorem writeUncorked_spec (src : Bytes) (hopen : (l.out i).closed = false) :
    (l.writeUncorked i src false).1.1 = src.length ∧
      Adds i src l (l.writeUncorked i src false).2 := by
  have hdrain := drain_spec i src l
  rw [writeUncorked, hopen, if_neg Bool.false_ne_true]
  cases hresult : l.drain i src false with
  | mk result l₁ =>
      rw [hresult] at hdrain
      cases result with
      | some result => exact ⟨hdrain.1, hdrain.2.1⟩
      | none =>
          obtain ⟨hadds, hbuffer⟩ := hdrain
          by_cases hsrc : src = []
          · simp only [hsrc, if_true]
            exact ⟨rfl, hadds⟩
          · simp only [hsrc, if_false]
            obtain ⟨hall, hthrough⟩ := writeThrough_spec src hbuffer
            exact ⟨hall, hadds.trans hthrough⟩

/-! ## Callbacks -/

/-- What has been taken from the socket in its callback. -/
def taken (i : ι) (l : Loop ι) : Bytes := l.held i ++ l.corkBuffer

/-- The socket's callback is running: what is corked is its own, and comes after what is
buffered, of which there is none then. -/
structure InCallback (i : ι) (l : Loop ι) : Prop where
  isOpen : (l.out i).closed = false
  corked : l.corkBuffer ≠ [] → l.corkedSocket = some i
  buffered : (l.out i).buffer ≠ [] → l.corkBuffer = []

/-- The socket is left as it is in its callback, and the other sockets altogether. -/
structure Stays (i : ι) (l l' : Loop ι) : Prop where
  callback : InCallback i l'
  others : ∀ j, j ≠ i → l'.out j = l.out j

omit [DecidableEq ι] in
/-- With nothing corked, whatever is buffered. -/
theorem inCallback_of_nil (hopen : (l.out i).closed = false) (hnil : l.corkBuffer = []) :
    InCallback i l :=
  ⟨hopen, fun h => absurd hnil h, fun _ => hnil⟩

omit [DecidableEq ι] in
/-- Bytes that are taken with nothing corked. -/
theorem Adds.stays (h : Adds i src l l') (hopen : (l.out i).closed = false)
    (hnil : l.corkBuffer = []) :
    Stays i l l' ∧ l'.corkBuffer = [] ∧ l'.taken i = l.held i ++ src := by
  have hnil' : l'.corkBuffer = [] := h.corkBuffer.trans hnil
  refine ⟨⟨inCallback_of_nil (h.closed.trans hopen) hnil', h.others⟩, hnil', ?_⟩
  rw [taken, h.held, hnil', List.append_nil]

/-- To take the cork off sends or buffers what is corked; then the write is made, or, where
the network has not taken all that was corked, it is not. -/
theorem uncork_spec (src : Bytes) (h : InCallback i l) (hcork : l.corkedSocket = some i) :
    Stays i l (l.uncork i src false).2 ∧ (l.uncork i src false).2.corkBuffer = [] ∧
      ((l.uncork i src false).1.1 = src.length ∧
          (l.uncork i src false).2.taken i = l.taken i ++ src ∨
        (l.uncork i src false).1.1 = 0 ∧ (l.uncork i src false).2.taken i = l.taken i) := by
  rw [uncork, if_pos hcork]
  by_cases hnil : l.corkBuffer = []
  · simp only [hnil, if_true]
    obtain ⟨hall, hadds⟩ :=
      writeUncorked_spec (l := { l with corkedSocket := none }) src h.isOpen
    rw [hnil] at hall hadds
    obtain ⟨hstays, hnil', htaken⟩ := hadds.stays h.isOpen rfl
    refine ⟨⟨hstays.callback, hstays.others⟩, hnil', .inl ⟨hall, ?_⟩⟩
    rw [htaken, taken, hnil, List.append_nil]
    rfl
  · simp only [hnil, if_false]
    obtain ⟨-, hadds⟩ :=
      writeUncorked_spec (l := { l with corkedSocket := none }) l.corkBuffer h.isOpen
    cases hresult : Loop.writeUncorked i l.corkBuffer false { l with corkedSocket := none } with
    | mk result l₁ =>
        rw [hresult] at hadds
        obtain ⟨written, failed⟩ := result
        have hopen : (l₁.out i).closed = false := hadds.closed.trans h.isOpen
        have hheld : l₁.held i = l.taken i := hadds.held
        cases failed with
        | true =>
            simp only [if_true]
            refine ⟨⟨inCallback_of_nil hopen rfl, hadds.others⟩, trivial, .inr ⟨trivial, ?_⟩⟩
            rw [← hheld]
            exact List.append_nil _
        | false =>
            simp only [Bool.false_eq_true, if_false]
            obtain ⟨hall, hadds'⟩ :=
              writeUncorked_spec (l := { l₁ with corkBuffer := [] }) src hopen
            obtain ⟨hstays, hnil', htaken⟩ := hadds'.stays hopen rfl
            refine ⟨⟨hstays.callback, fun j hj => ?_⟩, hnil', .inl ⟨hall, ?_⟩⟩
            · exact (hstays.others j hj).trans (hadds.others j hj)
            · rw [htaken, ← hheld]
              rfl

theorem drain_of_nil (src : Bytes) (optionally : Bool) (h : (l.out i).buffer = []) :
    l.drain i src optionally = (none, l) := by
  simp only [drain, h, if_true]

omit [DecidableEq ι] in
theorem Stays.trans (h : Stays i l l') (h' : Stays i l' l'') : Stays i l l'' :=
  ⟨h'.callback, fun j hj => (h'.others j hj).trans (h.others j hj)⟩

/-- A write in the callback of the socket: all of it is taken, after what was taken before,
or, if it overflows the cork buffer, nothing may be. -/
theorem write_spec (src : Bytes) (h : InCallback i l) :
    Stays i l (l.write i src false).2 ∧
      (l.write i src false).2.corkBuffer.length ≤ l.corkBuffer.length + src.length ∧
      ((l.write i src false).1.1 = src.length ∧
          (l.write i src false).2.taken i = l.taken i ++ src ∨
        (l.write i src false).1.1 = 0 ∧ (l.write i src false).2.taken i = l.taken i ∧
          CORK_BUFFER_SIZE < l.corkBuffer.length + src.length) := by
  have hdrain := drain_spec i src l
  rw [write, h.isOpen, if_neg Bool.false_ne_true]
  cases hresult : l.drain i src false with
  | mk result l₁ =>
      rw [hresult] at hdrain
      cases result with
      | some result =>
          obtain ⟨hall, hadds, -⟩ := hdrain
          have hnil : l.corkBuffer = [] := by
            refine h.buffered fun hbuffer => ?_
            rw [drain_of_nil src false hbuffer] at hresult
            cases hresult
          obtain ⟨hstays, hnil', htaken⟩ := hadds.stays h.isOpen hnil
          refine ⟨hstays, by simp [hnil'], .inl ⟨hall, ?_⟩⟩
          rw [htaken, taken, hnil, List.append_nil]
      | none =>
          obtain ⟨hadds, hbuffer⟩ := hdrain
          have hstays : Stays i l l₁ := by
            refine ⟨⟨hadds.closed.trans h.isOpen, ?_, fun hb => absurd hbuffer hb⟩, hadds.others⟩
            rw [hadds.corkBuffer, hadds.corkedSocket]
            exact h.corked
          have htaken : l₁.taken i = l.taken i := by
            rw [taken, hadds.held, hadds.corkBuffer, List.append_nil, taken]
          rw [← htaken, ← hadds.corkBuffer]
          by_cases hsrc : src = []
          · simp only [hsrc, if_true]
            exact ⟨hstays, Nat.le_add_right _ _, .inl ⟨rfl, (List.append_nil _).symm⟩⟩
          simp only [hsrc, if_false]
          by_cases hcork : l₁.corkedSocket = some i
          · rw [if_pos hcork]
            by_cases hfits : src.length ≤ CORK_BUFFER_SIZE - l₁.corkBuffer.length
            · rw [if_pos hfits]
              refine ⟨hstays.trans ⟨⟨hstays.callback.isOpen, fun _ => hcork, ?_⟩, fun _ _ => rfl⟩,
                by rw [List.length_append], .inl ⟨rfl, ?_⟩⟩
              · exact fun hb => absurd hbuffer hb
              · rw [taken, taken, List.append_assoc]
                rfl
            · rw [if_neg hfits]
              obtain ⟨hstays', hnil', hresult⟩ := uncork_spec src hstays.callback hcork
              refine ⟨hstays.trans hstays', by simp [hnil'], ?_⟩
              rcases hresult with hall | ⟨hzero, hsame⟩
              · exact .inl hall
              · exact .inr ⟨hzero, hsame, by omega⟩
          · rw [if_neg hcork]
            have hnil : l₁.corkBuffer = [] := by
              by_contra hne
              exact hcork (hstays.callback.corked hne)
            obtain ⟨hall, hthrough⟩ := writeThrough_spec src hbuffer
            obtain ⟨hstays', hnil', htaken'⟩ := hthrough.stays hstays.callback.isOpen hnil
            refine ⟨hstays.trans hstays', by simp [hnil'], .inl ⟨hall, ?_⟩⟩
            rw [htaken', taken, hnil, List.append_nil]

/-- At the end of a callback nothing is corked. -/
theorem uncork_end (h : InCallback i l) :
    Stays i l (l.uncork i [] false).2 ∧ (l.uncork i [] false).2.corkBuffer = [] ∧
      (l.uncork i [] false).2.held i = l.taken i := by
  have hheld : ∀ l' : Loop ι, l'.corkBuffer = [] → l'.held i = l'.taken i := by
    intro l' hnil
    rw [taken, hnil, List.append_nil]
  by_cases hcork : l.corkedSocket = some i
  · obtain ⟨hstays, hnil, hresult⟩ := uncork_spec [] h hcork
    refine ⟨hstays, hnil, ?_⟩
    rw [hheld _ hnil]
    rcases hresult with ⟨-, htaken⟩ | ⟨-, htaken⟩
    · rw [htaken, List.append_nil]
    · exact htaken
  · have hnil : l.corkBuffer = [] := by
      by_contra hne
      exact hcork (h.corked hne)
    rw [uncork, if_neg hcork]
    exact ⟨⟨h, fun _ _ => rfl⟩, hnil, hheld l hnil⟩

/-- The callback for a socket that takes writes again sends what is buffered. -/
theorem onWritable_spec (i : ι) (l : Loop ι) : Adds i [] l (l.onWritable i) := by
  rw [onWritable, write]
  by_cases hclosed : (l.out i).closed = true
  · rw [if_pos hclosed]
    exact Adds.refl l
  rw [if_neg hclosed]
  have hdrain : Adds i [] l (l.drain i [] true).2 := by
    rw [drain]
    by_cases hbuffer : (l.out i).buffer = []
    · simp only [hbuffer, if_true]
      exact Adds.refl l
    · simp only [hbuffer, if_false, usSocketWrite, if_true]
      by_cases hpart : min (l.room.headD 0) (l.out i).buffer.length < (l.out i).buffer.length
      · simp only [hpart, if_true]
        refine adds_send ?_
        rw [List.append_assoc, List.take_append_drop, held, List.append_nil]
      · simp only [hpart, if_false]
        refine adds_send ?_
        rw [List.take_of_length_le (Nat.le_of_not_lt hpart), held, List.append_nil]
  cases hresult : l.drain i [] true with
  | mk result l₁ =>
      rw [hresult] at hdrain
      cases result with
      | some result => exact hdrain
      | none => simpa using hdrain

end Loop

end AutoExpo.Http
