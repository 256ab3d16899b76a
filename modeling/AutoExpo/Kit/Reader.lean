import Mathlib.Data.List.Basic
import Mathlib.Tactic.Common

/-!
# Reading items off a stream

A `FrontParser` takes one item off the front of a list and does not look at what
follows the item. A `Reader` applies one again and again to a stream that
arrives in pieces: each item changes the state of a user and may be followed by
a body, which is left out; what is not an item yet waits for more, up to a
limit.

* The parsers are closed under `pure` and `bind`; `upTo` and `one` are the ones
  to begin with.
* `settle_append`: what has been read, and then more, is read as one piece. So
  the pieces do not matter (`foldl_feed`).
-/

namespace Kit

/-! ## Spans -/

section
variable {β : Type*} {p q : β → Bool}

theorem dropWhile_dropWhile_of_imp (h : ∀ b, q b = true → p b = true) (l : List β) :
    (l.dropWhile q).dropWhile p = l.dropWhile p := by
  induction l with
  | nil => rfl
  | cons b l ih =>
      cases hq : q b with
      | true => rw [List.dropWhile_cons_of_pos hq, List.dropWhile_cons_of_pos (h b hq), ih]
      | false => rw [List.dropWhile_cons_of_neg (by simp [hq])]

theorem takeWhile_dropWhile_of_imp (h : ∀ b, q b = true → p b = true) (l : List β) :
    (l.dropWhile q).takeWhile p = (l.takeWhile p).dropWhile q := by
  induction l with
  | nil => rfl
  | cons b l ih =>
      cases hq : q b with
      | true =>
          rw [List.dropWhile_cons_of_pos hq, List.takeWhile_cons_of_pos (h b hq),
            List.dropWhile_cons_of_pos hq, ih]
      | false =>
          have hstop : ¬ q b = true := by simp [hq]
          rw [List.dropWhile_cons_of_neg hstop]
          cases hp : p b with
          | true => rw [List.takeWhile_cons_of_pos hp, List.dropWhile_cons_of_neg hstop]
          | false => rw [List.takeWhile_cons_of_neg (by simp [hp]), List.dropWhile_nil]

end

/-! ## Parsers -/

structure FrontParser (β α : Type*) where
  parse : List β → Option (α × List β)
  /-- what is left is the end of what was there -/
  split : ∀ {l x rest}, parse l = some (x, rest) → ∃ front, l = front ++ rest
  /-- what follows is not looked at -/
  stable : ∀ {l x rest} (more : List β),
    parse (l ++ more) = some (x, rest ++ more) ↔ parse l = some (x, rest)

namespace FrontParser

variable {β α γ : Type*}

theorem length_le (p : FrontParser β α) {l rest : List β} {x : α}
    (h : p.parse l = some (x, rest)) : rest.length ≤ l.length := by
  obtain ⟨front, rfl⟩ := p.split h
  simp

/-- An item that ends within the first part is an item of the first part. -/
theorem parse_of_append (p : FrontParser β α) {l more rest : List β} {x : α}
    (h : p.parse (l ++ more) = some (x, rest)) (hlen : more.length ≤ rest.length) :
    ∃ rest', rest = rest' ++ more ∧ p.parse l = some (x, rest') := by
  obtain ⟨front, hfront⟩ := p.split h
  obtain ⟨rest', hrest⟩ : more <:+ rest :=
    List.suffix_of_suffix_length_le ⟨l, rfl⟩ ⟨front, hfront.symm⟩ hlen
  subst hrest
  exact ⟨rest', rfl, (p.stable more).mp h⟩

/-- Only the front of the item is looked at. -/
theorem parse_front (p : FrontParser β α) {front rest : List β} {x : α}
    (h : p.parse (front ++ rest) = some (x, rest)) (more : List β) :
    p.parse (front ++ more) = some (x, more) := by
  have hfront : p.parse front = some (x, []) := (p.stable rest).mp h
  exact (p.stable more).mpr hfront

theorem length_lt (p : FrontParser β α) (hnil : p.parse [] = none) {l rest : List β} {x : α}
    (h : p.parse l = some (x, rest)) : rest.length < l.length := by
  obtain ⟨front, rfl⟩ := p.split h
  cases front with
  | cons b front =>
      rw [List.length_append, List.length_cons]
      omega
  | nil =>
      have hempty := p.parse_front h []
      rw [List.append_nil, hnil] at hempty
      cases hempty

/-- Takes nothing. -/
def pure (x : α) : FrontParser β α where
  parse l := some (x, l)
  split h := by
    cases h
    exact ⟨[], rfl⟩
  stable more := by simp

def fail : FrontParser β α where
  parse _ := none
  split h := by cases h
  stable _ := by simp

/-- Takes one element. -/
def one : FrontParser β β where
  parse
    | [] => none
    | b :: rest => some (b, rest)
  split {l x rest} h := by
    cases l with
    | nil => cases h
    | cons b l =>
        cases h
        exact ⟨[x], rfl⟩
  stable {l x rest} more := by
    cases l with
    | nil =>
        cases more with
        | nil => simp
        | cons b more =>
            simp only [List.nil_append, reduceCtorEq, iff_false, Option.some.injEq,
              Prod.mk.injEq, not_and]
            -- what is left would be longer than what was there
            intro _ hlen
            have hlen := congrArg List.length hlen
            simp only [List.length_append, List.length_cons] at hlen
            omega
    | cons b l => simp

/-- Takes the longest front on which `p` holds, and the element after it. -/
def upTo (p : β → Bool) : FrontParser β (List β × β) where
  parse l := match l.dropWhile p with
    | [] => none
    | b :: rest => some ((l.takeWhile p, b), rest)
  split {l x rest} h := by
    split at h
    next => cases h
    next b tail hdrop =>
      cases h
      refine ⟨l.takeWhile p ++ [b], ?_⟩
      rw [List.append_assoc, List.singleton_append, ← hdrop, List.takeWhile_append_dropWhile]
  stable {l x rest} more := by
    rw [List.dropWhile_append, List.takeWhile_append]
    cases hdrop : l.dropWhile p with
    | nil =>
        simp only [List.isEmpty_nil, if_true, reduceCtorEq, iff_false]
        split
        next => simp
        next b tail hmore =>
          intro h
          -- what is left is shorter than `more`
          have hlen := congrArg List.length (Prod.mk.inj (Option.some.inj h)).2
          have hle := (List.dropWhile_suffix p (l := more)).length_le
          rw [hmore] at hle
          simp only [List.length_append, List.length_cons] at hlen hle
          omega
    | cons b tail =>
        have hne : (l.takeWhile p).length ≠ l.length := by
          intro heq
          have hlen := congrArg List.length (List.takeWhile_append_dropWhile (p := p) (l := l))
          rw [hdrop, List.length_append, List.length_cons] at hlen
          omega
        simp [hne]

def bind (p : FrontParser β α) (q : α → FrontParser β γ) : FrontParser β γ where
  parse l := (p.parse l).bind fun r => (q r.1).parse r.2
  split {l x rest} h := by
    obtain ⟨⟨y, mid⟩, hp, hq⟩ := Option.bind_eq_some_iff.mp h
    obtain ⟨front, rfl⟩ := p.split hp
    obtain ⟨front', hmid⟩ := (q y).split hq
    exact ⟨front ++ front', by rw [List.append_assoc, ← hmid]⟩
  stable {l x rest} more := by
    simp only [Option.bind_eq_some_iff, Prod.exists]
    refine exists_congr fun y => ⟨?_, ?_⟩
    · rintro ⟨mid, hp, hq⟩
      have hlen := (q y).length_le hq
      rw [List.length_append] at hlen
      obtain ⟨mid', rfl, hp'⟩ := p.parse_of_append hp (by omega)
      exact ⟨mid', hp', ((q y).stable more).mp hq⟩
    · rintro ⟨mid, hp, hq⟩
      exact ⟨mid ++ more, (p.stable more).mpr hp, ((q y).stable more).mpr hq⟩

theorem parse_bind (p : FrontParser β α) (q : α → FrontParser β γ) (l : List β) :
    (p.bind q).parse l = (p.parse l).bind fun r => (q r.1).parse r.2 := rfl

end FrontParser

/-! ## Readers -/

/-- What an item does to the user, and how many elements of a body follow it; none when the
reader stops at the item. An item is no longer than `limit`. -/
structure Reader (β α σ : Type*) extends FrontParser β α where
  nonempty : parse [] = none
  limit : Nat
  act : σ → α → σ × Option Nat

namespace Reader

variable {β α σ : Type*}

/-- `waiting` has the front of the next item, or is to leave out `skip` elements more of a
body. -/
inductive State (β σ : Type*)
  | waiting (pending : List β) (skip : Nat) (user : σ)
  | stopped (user : σ)
  | overlong (user : σ)

theorem progress (R : Reader β α σ) {l rest : List β} {x : α}
    (h : R.parse l = some (x, rest)) : rest.length < l.length :=
  R.toFrontParser.length_lt R.nonempty h

variable (R : Reader β α σ)

/-- Reads the items of a list that begins with `skip` elements of a body. -/
def settle (pending : List β) (skip : Nat) (user : σ) : State β σ :=
  if pending.length < skip then .waiting [] (skip - pending.length) user
  else
    match _h : R.parse (pending.drop skip) with
    | none =>
        if R.limit ≤ (pending.drop skip).length then .overlong user
        else .waiting (pending.drop skip) 0 user
    | some (x, rest) =>
        if R.limit < (pending.drop skip).length - rest.length then .overlong user
        else match R.act user x with
          | (user, none) => .stopped user
          | (user, some body) => settle rest body user
termination_by pending.length
decreasing_by
  have hlt := R.progress _h
  rw [List.length_drop] at hlt
  omega

/-- Reads more of the stream. -/
def feed : State β σ → List β → State β σ
  | .waiting pending skip user, more => R.settle (pending ++ more) skip user
  | .stopped user, _ => .stopped user
  | .overlong user, _ => .overlong user

variable {R}

theorem settle_short {pending : List β} {skip : Nat} {user : σ} (h : pending.length < skip) :
    R.settle pending skip user = .waiting [] (skip - pending.length) user := by
  rw [settle, if_pos h]

/-- A body is left out before anything is read. -/
theorem settle_drop {pending : List β} {skip : Nat} {user : σ} (h : skip ≤ pending.length) :
    R.settle pending skip user = R.settle (pending.drop skip) 0 user := by
  rw [settle, settle, if_neg (Nat.not_lt.mpr h), if_neg (Nat.not_lt_zero _), List.drop_zero]

theorem settle_none {pending : List β} {user : σ} (h : R.parse pending = none) :
    R.settle pending 0 user =
      if R.limit ≤ pending.length then .overlong user else .waiting pending 0 user := by
  rw [settle, if_neg (Nat.not_lt_zero _)]
  split
  next => simp only [List.drop_zero]
  next x rest hsome =>
    rw [List.drop_zero, h] at hsome
    cases hsome

theorem settle_some {pending rest : List β} {user : σ} {x : α}
    (h : R.parse pending = some (x, rest)) :
    R.settle pending 0 user =
      if R.limit < pending.length - rest.length then .overlong user
      else match R.act user x with
        | (user, none) => .stopped user
        | (user, some body) => R.settle rest body user := by
  rw [settle, if_neg (Nat.not_lt_zero _)]
  split
  next hnone =>
    rw [List.drop_zero, h] at hnone
    cases hnone
  next x' rest' hsome =>
    rw [List.drop_zero, h] at hsome
    cases hsome
    simp only [List.drop_zero]

/-- Too long a front of an item is too long however it goes on. -/
theorem settle_overlong {pending more : List β} {user : σ} (h : R.parse pending = none)
    (hlong : R.limit ≤ pending.length) :
    R.settle (pending ++ more) 0 user = .overlong user := by
  cases hwhole : R.parse (pending ++ more) with
  | none =>
      rw [settle_none hwhole, if_pos]
      rw [List.length_append]
      omega
  | some r =>
      obtain ⟨x, rest⟩ := r
      -- the item does not end within the front
      have hrest : rest.length < more.length := by
        refine Nat.lt_of_not_le fun hle => ?_
        obtain ⟨rest', -, hfront⟩ := R.parse_of_append hwhole hle
        rw [h] at hfront
        cases hfront
      rw [settle_some hwhole, if_pos]
      rw [List.length_append]
      omega

/-- What has been read, and then more, is as if it had been read at once. -/
theorem settle_append (pending more : List β) (skip : Nat) (user : σ) :
    R.feed (R.settle pending skip user) more = R.settle (pending ++ more) skip user := by
  by_cases hshort : pending.length < skip
  · rw [settle_short hshort, feed, List.nil_append]
    rcases Nat.lt_or_ge more.length (skip - pending.length) with hmore | hmore
    · have hlen : (pending ++ more).length < skip := by
        rw [List.length_append]
        omega
      rw [settle_short hmore, settle_short hlen, List.length_append, Nat.sub_sub]
    · have hlen : skip ≤ (pending ++ more).length := by
        rw [List.length_append]
        omega
      rw [settle_drop hmore, settle_drop hlen, List.drop_append,
        List.drop_eq_nil_of_le (Nat.le_of_lt hshort), List.nil_append]
  · have hskip : skip ≤ pending.length := Nat.not_lt.mp hshort
    have hall : skip ≤ (pending ++ more).length := by
      rw [List.length_append]
      omega
    rw [settle_drop hskip, settle_drop hall, List.drop_append_of_le_length hskip]
    cases hparse : R.parse (pending.drop skip) with
    | some r =>
        obtain ⟨x, rest⟩ := r
        have hwhole := (R.stable more).mpr hparse
        have hle := R.toFrontParser.length_le hparse
        have hdiff : (pending.drop skip ++ more).length - (rest ++ more).length =
            (pending.drop skip).length - rest.length := by
          simp only [List.length_append]
          omega
        rw [settle_some hparse, settle_some hwhole, hdiff]
        split
        next => rfl
        next =>
          cases hact : R.act user x with
          | mk user' body =>
              cases body with
              | none => rfl
              | some body =>
                  have hlt := R.progress hparse
                  exact settle_append rest more body user'
    | none =>
        rw [settle_none hparse]
        split
        next hlong => rw [feed, settle_overlong hparse hlong]
        next => rw [feed]
termination_by pending.length
decreasing_by
  rw [List.length_drop] at hlt
  omega

/-- A stream in pieces is read as if it were one piece. -/
theorem foldl_feed (chunks : List (List β)) (pending : List β) (skip : Nat) (user : σ) :
    chunks.foldl R.feed (R.settle pending skip user) =
      R.settle (pending ++ chunks.flatten) skip user := by
  induction chunks generalizing pending with
  | nil => simp
  | cons chunk chunks ih =>
      rw [List.foldl_cons, settle_append, ih, List.flatten_cons, List.append_assoc]

end Reader

end Kit
