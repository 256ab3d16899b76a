import AutoExpo.Http.Pieces

/-!
# Two connections side by side

Handlers that follow other handlers, until something goes wrong, have their
connection follow that of the others, whatever bytes arrive (`receive_follows`).
-/

namespace AutoExpo.Http

variable {σ τ : Type*}

namespace Connection

def user : Connection σ → σ
  | .live _ user => user
  | .closed user => user

def isClosed : Connection σ → Bool
  | .live _ _ => false
  | .closed _ => true

def map (f : σ → τ) : Connection σ → Connection τ
  | .live p user => .live p (f user)
  | .closed user => .closed (f user)

theorem user_map (f : σ → τ) (connection : Connection σ) :
    (connection.map f).user = f connection.user := by
  cases connection with
  | live p user => rfl
  | closed user => rfl

theorem isClosed_map (f : σ → τ) (connection : Connection σ) :
    (connection.map f).isClosed = connection.isClosed := by
  cases connection with
  | live p user => rfl
  | closed user => rfl

end Connection

/-! ## Following -/

/-- The same answer, with `P` of the users if the socket is kept and `Q` if not; or `Wrong`. -/
inductive Alike (P Q : σ → τ → Prop) (Wrong : σ → Prop) : σ × Bool → τ × Bool → Prop
  | wrong {user : σ} {goesOn : Bool} {result : τ × Bool} (h : Wrong user) :
      Alike P Q Wrong (user, goesOn) result
  | goesOn {user : σ} {user' : τ} (h : P user user') : Alike P Q Wrong (user, true) (user', true)
  | stops {user : σ} {user' : τ} (h : Q user user') : Alike P Q Wrong (user, false) (user', false)

/-- `H` does what `H'` does until it goes wrong, and that is for good. -/
structure Handlers.Follows (H : Handlers σ) (H' : Handlers τ) (P Q : σ → τ → Prop)
    (Wrong : σ → Prop) : Prop where
  request : ∀ {user user'} (req), P user user' →
    Alike P Q Wrong (H.request user req) (H'.request user' req)
  data : ∀ {user user'} (bytes fin), P user user' →
    Alike P P Wrong (H.data user bytes fin) (H'.data user' bytes fin)
  error : ∀ {user user'}, P user user' → Alike P P Wrong (H.error user) (H'.error user')
  wrong : H.Keeps Wrong Wrong
  weaken : ∀ {user user'}, P user user' → Q user user'

inductive Fenced.Follows (P Q : σ → τ → Prop) (Wrong : σ → Prop) : Fenced σ → Fenced τ → Prop
  | wrong {fenced : Fenced σ} {fenced' : Fenced τ} (h : fenced.Keeps Wrong Wrong) :
      Follows P Q Wrong fenced fenced'
  | returned {user : σ} {user' : τ} (h : Q user user') :
      Follows P Q Wrong (.returned user) (.returned user')
  | left {rest : Bytes} {remaining : Nat} {user : σ} {user' : τ} (h : P user user') :
      Follows P Q Wrong (.left rest remaining user) (.left rest remaining user')

inductive Connection.Follows (P Q : σ → τ → Prop) (Wrong : σ → Prop) :
    Connection σ → Connection τ → Prop
  | wrong {connection : Connection σ} {connection' : Connection τ}
      (h : connection.Keeps Wrong Wrong) : Follows P Q Wrong connection connection'
  | live {p : HttpParser} {user : σ} {user' : τ} (h : P user user') :
      Follows P Q Wrong (.live p user) (.live p user')
  | closed {user : σ} {user' : τ} (h : Q user user') :
      Follows P Q Wrong (.closed user) (.closed user')

variable {H : Handlers σ} {H' : Handlers τ} {P Q : σ → τ → Prop} {Wrong : σ → Prop}

/-- A request at the front of the data, whatever is done about its body. -/
theorem fence_request (H : Handlers σ) (minimally : Bool) {data rest : Bytes} {hs : List Header}
    (remaining : Nat) (user : σ) (h : getHeaders MAX_HEADERS true data = some (hs, rest)) :
    fenceAndConsumePostPadded H minimally data remaining user =
      match H.request user ⟨hs⟩ with
      | (user, false) => .returned user
      | (user, true) =>
          let length := HttpRequest.getHeader ⟨hs⟩ contentLength
          if length = [] then
            let user := (H.data user [] true).1
            if minimally then .left rest remaining user
            else fenceAndConsumePostPadded H minimally rest remaining user
          else
            let remaining := (toUnsignedInteger length).toNat
            if minimally then .left rest remaining user
            else
              let emittable := min remaining rest.length
              let user := (H.data user (rest.take emittable) (emittable = remaining)).1
              fenceAndConsumePostPadded H minimally (rest.drop emittable)
                (remaining - emittable) user := by
  have hdata : data ≠ [] := by
    rintro rfl
    cases h
  rw [fenceAndConsumePostPadded, if_neg hdata]
  split
  next hnone =>
    rw [h] at hnone
    cases hnone
  next headers rest' hsome =>
    rw [h] at hsome
    cases hsome
    rfl

theorem Alike.of_true {user : σ} {result : τ × Bool} (h : Alike P Q Wrong (user, true) result) :
    Wrong user ∨ ∃ user', result = (user', true) ∧ P user user' := by
  cases h with
  | wrong hwrong => exact .inl hwrong
  | goesOn hP => exact .inr ⟨_, rfl, hP⟩

theorem Alike.of_false {user : σ} {result : τ × Bool} (h : Alike P Q Wrong (user, false) result) :
    Wrong user ∨ ∃ user', result = (user', false) ∧ Q user user' := by
  cases h with
  | wrong hwrong => exact .inl hwrong
  | stops hQ => exact .inr ⟨_, rfl, hQ⟩

/-- The users, when what is answered does not matter. -/
theorem Alike.users {result : σ × Bool} {result' : τ × Bool} (h : Alike P P Wrong result result') :
    Wrong result.1 ∨ P result.1 result'.1 := by
  cases h with
  | wrong hwrong => exact .inl hwrong
  | goesOn hP => exact .inr hP
  | stops hP => exact .inr hP

theorem fence_follows (h : H.Follows H' P Q Wrong) (minimally : Bool) (data : Bytes)
    (remaining : Nat) {user : σ} {user' : τ} (hP : P user user') :
    Fenced.Follows P Q Wrong (fenceAndConsumePostPadded H minimally data remaining user)
      (fenceAndConsumePostPadded H' minimally data remaining user') := by
  fun_induction fenceAndConsumePostPadded H minimally data remaining user generalizing user' with
  | case1 remaining user =>
      rw [fenceAndConsumePostPadded, if_pos rfl]
      exact .left hP
  | case2 data remaining user hdata hnone =>
      rw [fence_none minimally remaining user' hdata hnone]
      exact .left hP
  | case3 data remaining user hdata hs rest hsome user₁ hrequest =>
      rw [fence_request H' minimally remaining user' hsome]
      rcases (hrequest ▸ h.request ⟨hs⟩ hP).of_false with hwrong | ⟨user₁', hrequest', hQ⟩
      · exact .wrong hwrong
      · rw [hrequest']
        exact .returned hQ
  | case4 data remaining user hdata hs rest hsome user₁ hrequest length hlength user₂ =>
      rename_i hminimally
      rw [fence_request H' minimally remaining user' hsome]
      rcases (hrequest ▸ h.request ⟨hs⟩ hP).of_true with hwrong | ⟨user₁', hrequest', hP₁⟩
      · exact .wrong (h.wrong.data hwrong rfl)
      · rw [hrequest']
        simp only
        rw [if_pos hlength, if_pos hminimally]
        rcases (h.data [] true hP₁).users with hwrong | hP₂
        · exact .wrong hwrong
        · exact .left hP₂
  | case5 data remaining user hdata hs rest hsome user₁ hrequest length hlength user₂ hall =>
      rename_i ih
      rw [fence_request H' minimally remaining user' hsome]
      rcases (hrequest ▸ h.request ⟨hs⟩ hP).of_true with hwrong | ⟨user₁', hrequest', hP₁⟩
      · exact .wrong (fence_keeps h.wrong minimally rest remaining _ (h.wrong.data hwrong rfl))
      · rw [hrequest']
        simp only
        rw [if_pos hlength, if_neg hall]
        rcases (h.data [] true hP₁).users with hwrong | hP₂
        · exact .wrong (fence_keeps h.wrong minimally rest remaining _ hwrong)
        · exact ih hP₂
  | case6 data remaining user hdata hs rest hsome user₁ hrequest length hlength remaining₁ =>
      rename_i hminimally
      rw [fence_request H' minimally remaining user' hsome]
      rcases (hrequest ▸ h.request ⟨hs⟩ hP).of_true with hwrong | ⟨user₁', hrequest', hP₁⟩
      · exact .wrong hwrong
      · rw [hrequest']
        simp only
        rw [if_neg hlength, if_pos hminimally]
        exact .left hP₁
  | case7 data remaining user hdata hs rest hsome user₁ hrequest length hlength remaining₁ hall
      emittable user₂ =>
      rename_i ih
      rw [fence_request H' minimally remaining user' hsome]
      rcases (hrequest ▸ h.request ⟨hs⟩ hP).of_true with hwrong | ⟨user₁', hrequest', hP₁⟩
      · exact .wrong (fence_keeps h.wrong minimally _ _ _ (h.wrong.data hwrong rfl))
      · rw [hrequest']
        simp only
        rw [if_neg hlength, if_neg hall]
        rcases (h.data (rest.take emittable) (emittable = remaining₁) hP₁).users with hwrong | hP₂
        · exact .wrong (fence_keeps h.wrong minimally _ _ _ hwrong)
        · exact ih hP₂

/-- A handler has the last word on whether the connection stays open. -/
theorem closing_follows (weaken : ∀ {user user'}, P user user' → Q user user') {p : HttpParser}
    {result : σ × Bool} {result' : τ × Bool} : Alike P P Wrong result result' →
    Connection.Follows P Q Wrong
      (match result with
        | (user, true) => .live p user
        | (user, false) => .closed user)
      (match result' with
        | (user, true) => .live p user
        | (user, false) => .closed user) := by
  intro h
  cases h with
  | @wrong _ goesOn _ hwrong =>
      cases goesOn with
      | true => exact .wrong hwrong
      | false => exact .wrong hwrong
  | goesOn hP => exact .live hP
  | stops hP => exact .closed (weaken hP)

theorem keepRest_follows (h : H.Follows H' P Q Wrong) (fallback : Bytes) {fenced : Fenced σ}
    {fenced' : Fenced τ} (hfenced : Fenced.Follows P Q Wrong fenced fenced') :
    Connection.Follows P Q Wrong (keepRest H fallback fenced) (keepRest H' fallback fenced') := by
  cases hfenced with
  | wrong hwrong => exact .wrong (keepRest_keeps h.wrong fallback hwrong)
  | returned hQ => exact .closed hQ
  | left hP =>
      rw [keepRest, keepRest]
      split
      next => exact .live hP
      next =>
        split
        next => exact .live hP
        next => exact closing_follows h.weaken (h.error hP)

theorem consumeAll_follows (h : H.Follows H' P Q Wrong) (fallback data : Bytes) {user : σ}
    {user' : τ} (hP : P user user') :
    Connection.Follows P Q Wrong (consumeAll H fallback data user)
      (consumeAll H' fallback data user') :=
  keepRest_follows h fallback (fence_follows h false data 0 hP)

theorem streamBody_follows (h : H.Follows H' P Q Wrong) (fallback : Bytes) (remaining : Nat)
    (data : Bytes) {user : σ} {user' : τ} (hP : P user user') :
    Connection.Follows P Q Wrong
      (streamBody H fallback remaining data user (consumeAll H fallback))
      (streamBody H' fallback remaining data user' (consumeAll H' fallback)) := by
  rw [streamBody, streamBody]
  split
  next => exact closing_follows h.weaken (h.data data (remaining = data.length) hP)
  next =>
    have hdata := h.data (data.take remaining) true hP
    generalize H.data user (data.take remaining) true = result at hdata ⊢
    generalize H'.data user' (data.take remaining) true = result' at hdata ⊢
    cases hdata with
    | @wrong _ goesOn _ hwrong =>
        cases goesOn with
        | true => exact .wrong (consumeAll_keeps h.wrong fallback _ hwrong)
        | false => exact .wrong hwrong
    | goesOn hP => exact consumeAll_follows h fallback _ hP
    | stops hP => exact .closed (h.weaken hP)

theorem resume_follows (h : H.Follows H' P Q Wrong) (had : Nat) (fallback data : Bytes)
    {fenced : Fenced σ} {fenced' : Fenced τ} (hfenced : Fenced.Follows P Q Wrong fenced fenced') :
    Connection.Follows P Q Wrong (resume H had fallback data fenced)
      (resume H' had fallback data fenced') := by
  cases hfenced with
  | wrong hwrong => exact .wrong (resume_keeps h.wrong had fallback data hwrong)
  | returned hQ => exact .closed hQ
  | @left rest remaining user user' hP =>
      simp only [resume]
      split
      next =>
        split
        next => exact streamBody_follows h [] remaining _ hP
        next => exact consumeAll_follows h [] _ hP
      next =>
        split
        next => exact closing_follows h.weaken (h.error hP)
        next => exact .live hP

/-- One connection follows the other, whatever bytes come in. -/
theorem receive_follows (h : H.Follows H' P Q Wrong) {connection : Connection σ}
    {connection' : Connection τ} (hconn : Connection.Follows P Q Wrong connection connection')
    (data : Bytes) :
    Connection.Follows P Q Wrong (connection.receive H data) (connection'.receive H' data) := by
  cases hconn with
  | wrong hwrong => exact .wrong (receive_keeps h.wrong hwrong data)
  | closed hQ => exact .closed hQ
  | @live p user user' hP =>
      rw [Connection.receive, Connection.receive, consumePostPadded, consumePostPadded]
      split
      next => exact streamBody_follows h p.fallback _ data hP
      next =>
        split
        next => exact resume_follows h _ _ data (fence_follows h true _ 0 hP)
        next => exact consumeAll_follows h p.fallback data hP

end AutoExpo.Http
