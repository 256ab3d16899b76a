import Mathlib.Data.Finset.Basic
import Mathlib.Data.List.Nodup
import Mathlib.Data.Nat.ModEq
import AutoExpo.Kit.TSys

/-!
# A relay of ring buffers between a producer and a consumer

A producer takes the buffers of a ring of `size` in cyclic order, fills one at
a time and queues it; a consumer takes the oldest queued buffer off the queue
and reads it. A buffer is *busy* from the moment the producer takes it until
the consumer takes it off the queue, and the producer gives up (overflow) when
the buffer whose turn it is is busy.

The discipline keeps the buffers that are queued or being filled apart
(`relay_inv`). It says nothing of the buffer being *read*, which is no longer
busy. That one is safe exactly as long as the producer does not come round to
it, and `InLap` is the pace that rules it out: with it every item is read as it
was filled (`intact`).

Items are opaque: `Ring` says how to see the buffer of an item and its ticket,
the number of the take that gave it its buffer. Buffer contents are functions
from offsets, so that a read that overlaps writes can tear at every offset.
-/

namespace Kit.Relay

/-- A ring of buffers, and what an item records of it. -/
structure Ring (φ : Type*) where
  size : Nat
  size_pos : 0 < size
  buf : φ → Nat
  ticket : φ → Nat

/-- Where the producer stands; the numbers are its buffer and the ticket. -/
inductive Producer (φ : Type*)
  | idle
  | taken (buf ticket : Nat)
  | filling (buf ticket : Nat)
  | failed (buf : Nat)
  | ready (it : φ)

/-- Where the consumer stands. A read keeps the contents its buffer has had
since the read began. -/
inductive Consumer (φ π : Type*)
  | idle
  | holding (it : φ)
  | reading (it : φ) (seen : List π)

/-- A state of the relay. The last four fields are its history: items queued
and taken off the queue, and items with the contents they were filled with and
read as. -/
structure State (φ π : Type*) where
  pos : Nat
  takes : Nat
  busy : Finset Nat
  queue : List φ
  mem : Nat → π
  prod : Producer φ
  cons : Consumer φ π
  fault : Bool
  queued : List φ
  handed : List φ
  filled : List (φ × π)
  read : List (φ × π)

inductive Act (φ ι β : Type*)
  | take
  | beginFill
  | write (px : ι → β)
  | endFill (ok : Bool) (px : ι → β) (it : φ)
  | giveBack
  | put
  | pop
  | beginRead
  | endRead (pick : ι → Nat)

section
variable {φ ι β : Type*}

/-- The buffer the producer has taken, until it queues it or gives it back. -/
def Producer.slot (R : Ring φ) : Producer φ → Option Nat
  | .idle => none
  | .taken b _ | .filling b _ | .failed b => some b
  | .ready it => some (R.buf it)

/-- The filled item the producer has not queued yet. -/
def Producer.done : Producer φ → Option φ
  | .ready it => some it
  | _ => none

/-- The item the consumer has taken off the queue and not finished with. -/
def Consumer.item {π : Type*} : Consumer φ π → Option φ
  | .idle => none
  | .holding it | .reading it _ => some it

/-- Contents `px` arrive in buffer `b`; a read of `b` that is under way may see
them. -/
def State.store (R : Ring φ) (s : State φ (ι → β)) (b : Nat) (px : ι → β) :
    State φ (ι → β) :=
  { s with
    mem := fun b' => if b' = b then px else s.mem b'
    cons := match s.cons with
      | .reading it seen => .reading it (if R.buf it = b then seen ++ [px] else seen)
      | c => c }

/-- What a read returns: at each offset, the byte of one of the contents seen. -/
def tear (seen : List (ι → β)) (last : ι → β) (pick : ι → Nat) : ι → β :=
  fun i => seen.getD (pick i) last i

def step (R : Ring φ) (s : State φ (ι → β)) : Act φ ι β → Option (State φ (ι → β))
  | .take => match s.prod with
      | .idle =>
          let s' := { s with pos := (s.pos + 1) % R.size, takes := s.takes + 1 }
          if s.pos ∈ s.busy then some s'
          else some { s' with busy := insert s.pos s.busy, prod := .taken s.pos s.takes }
      | _ => none
  | .beginFill => match s.prod with
      | .taken b t => some { s with prod := .filling b t }
      | _ => none
  | .write px => match s.prod with
      | .filling b _ => some (s.store R b px)
      | _ => none
  | .endFill ok px it => match s.prod with
      | .filling b t =>
          if R.buf it = b ∧ R.ticket it = t then
            let s' := s.store R b px
            if ok then some { s' with prod := .ready it, filled := s.filled ++ [(it, px)] }
            else some { s' with prod := .failed b }
          else none
      | _ => none
  | .giveBack => match s.prod with
      | .failed b => some { s with busy := s.busy.erase b, prod := .idle }
      | _ => none
  | .put => match s.prod with
      | .ready it =>
          some { s with queue := s.queue ++ [it], queued := s.queued ++ [it], prod := .idle }
      | _ => none
  | .pop => match s.cons, s.queue with
      | .idle, [] => some s
      | .idle, it :: rest =>
          if R.buf it ∈ s.busy then
            some { s with
              busy := s.busy.erase (R.buf it), queue := rest, cons := .holding it,
              handed := s.handed ++ [it] }
          else some { s with fault := true }
      | _, _ => none
  | .beginRead => match s.cons with
      | .holding it => some { s with cons := .reading it [s.mem (R.buf it)] }
      | _ => none
  | .endRead pick => match s.cons with
      | .reading it seen =>
          some { s with
            cons := .idle
            read := s.read ++ [(it, tear seen (s.mem (R.buf it)) pick)] }
      | _ => none

/-- Nothing taken, nothing queued, whatever the buffers contain. -/
def Fresh (s : State φ (ι → β)) : Prop :=
  s.pos = 0 ∧ s.takes = 0 ∧ s.busy = ∅ ∧ s.queue = [] ∧ s.prod = .idle ∧ s.cons = .idle ∧
    s.fault = false ∧ s.queued = [] ∧ s.handed = [] ∧ s.filled = [] ∧ s.read = []

def relay (R : Ring φ) : TSys (State φ (ι → β)) (Act φ ι β) where
  init := Fresh
  step := step R

end

/-! ## What the discipline keeps -/

section
variable {φ ι β : Type*} {R : Ring φ} {s s' : State φ (ι → β)} {a : Act φ ι β}

/-- The buffers in the queue, in order, then the one the producer has. -/
def State.inUse (R : Ring φ) (s : State φ (ι → β)) : List Nat :=
  s.queue.map R.buf ++ (s.prod.slot R).toList

/-- The item's buffer is the one its take gave it. -/
def Stamped (R : Ring φ) (takes : Nat) (it : φ) : Prop :=
  R.buf it = R.ticket it % R.size ∧ R.ticket it < takes

theorem Stamped.succ {it : φ} {n : Nat} (h : Stamped R n it) : Stamped R (n + 1) it :=
  ⟨h.1, Nat.lt_succ_of_lt h.2⟩

theorem Stamped.buf_lt {it : φ} {n : Nat} (h : Stamped R n it) : R.buf it < R.size :=
  h.1 ▸ Nat.mod_lt _ R.size_pos

def Producer.Stamped (R : Ring φ) (takes : Nat) : Producer φ → Prop
  | .idle => True
  | .taken b t | .filling b t => b = t % R.size ∧ t < takes
  | .failed b => b < R.size
  | .ready it => Relay.Stamped R takes it

@[simp] theorem store_item (b : Nat) (px : ι → β) :
    (s.store R b px).cons.item = s.cons.item := by
  cases h : s.cons <;> simp [State.store, Consumer.item, h]

@[simp] theorem store_takes (b : Nat) (px : ι → β) : (s.store R b px).takes = s.takes := rfl
@[simp] theorem store_queue (b : Nat) (px : ι → β) : (s.store R b px).queue = s.queue := rfl
@[simp] theorem store_prod (b : Nat) (px : ι → β) : (s.store R b px).prod = s.prod := rfl
@[simp] theorem store_filled (b : Nat) (px : ι → β) : (s.store R b px).filled = s.filled := rfl
@[simp] theorem store_read (b : Nat) (px : ι → β) : (s.store R b px).read = s.read := rfl
@[simp] theorem store_mem (b : Nat) (px : ι → β) : (s.store R b px).mem b = px := by
  simp [State.store]

/-- The relay's bookkeeping. -/
structure Inv (R : Ring φ) (s : State φ (ι → β)) : Prop where
  pos : s.pos = s.takes % R.size
  busy : ∀ b, b ∈ s.busy ↔ b ∈ s.inUse R
  nodup : (s.inUse R).Nodup
  queued : s.queued = s.handed ++ s.queue
  filled : s.filled.map Prod.fst = s.queued ++ s.prod.done.toList
  queueStamped : ∀ it ∈ s.queue, Stamped R s.takes it
  consStamped : ∀ it ∈ s.cons.item, Stamped R s.takes it
  prodStamped : s.prod.Stamped R s.takes
  fault : s.fault = false

theorem Inv.of_fresh (h : Fresh s) : Inv R s := by
  obtain ⟨hpos, htakes, hbusy, hqueue, hprod, hcons, hfault, hqueued, hhanded, hfilled, -⟩ := h
  have hin : s.inUse R = [] := by simp [State.inUse, Producer.slot, hqueue, hprod]
  exact {
    pos := by simp [hpos, htakes]
    busy := by simp [hbusy, hin]
    nodup := by simp [hin]
    queued := by simp [hqueued, hhanded, hqueue]
    filled := by simp [hfilled, hqueued, hprod, Producer.done]
    queueStamped := by simp [hqueue]
    consStamped := by simp [hcons, Consumer.item]
    prodStamped := by rw [hprod]; trivial
    fault := hfault }

theorem Inv.take (hs : Inv R s) (h : step R s .take = some s') : Inv R s' := by
  simp only [step] at h
  split at h
  next hp =>
    have hpos : (s.pos + 1) % R.size = (s.takes + 1) % R.size := by
      rw [hs.pos, Nat.mod_add_mod]
    have hqueue : ∀ it ∈ s.queue, Stamped R (s.takes + 1) it := by
      intro it hit
      exact (hs.queueStamped it hit).succ
    have hcons : ∀ it ∈ s.cons.item, Stamped R (s.takes + 1) it := by
      intro it hit
      exact (hs.consStamped it hit).succ
    have hin : s.inUse R = s.queue.map R.buf := by
      simp [State.inUse, hp, Producer.slot]
    split at h
    next hbusy =>
      -- overflow: the position has moved on, nothing is taken
      cases h
      exact { hs with
        pos := hpos, queueStamped := hqueue, consStamped := hcons
        prodStamped := by simp only [hp, Producer.Stamped] }
    next hbusy =>
      cases h
      have hfree : s.pos ∉ s.queue.map R.buf := by
        rwa [hs.busy, hin] at hbusy
      exact { hs with
        pos := hpos, queueStamped := hqueue, consStamped := hcons
        busy := by
          intro b
          rw [Finset.mem_insert, hs.busy, hin]
          simp only [State.inUse, Producer.slot, Option.toList_some, List.mem_append,
            List.mem_singleton]
          exact or_comm
        nodup := by
          have hnd : (s.queue.map R.buf).Nodup := hin ▸ hs.nodup
          simpa [State.inUse, Producer.slot] using hnd.concat hfree
        filled := by simpa [Producer.done, hp] using hs.filled
        prodStamped := ⟨hs.pos, Nat.lt_succ_self _⟩ }
  next => cases h

theorem Inv.beginFill (hs : Inv R s) (h : step R s .beginFill = some s') : Inv R s' := by
  simp only [step] at h
  split at h
  next b t hp =>
    cases h
    exact { hs with
      busy := by simpa [State.inUse, Producer.slot, hp] using hs.busy
      nodup := by simpa [State.inUse, Producer.slot, hp] using hs.nodup
      filled := by simpa [Producer.done, hp] using hs.filled
      prodStamped := by simpa [Producer.Stamped, hp] using hs.prodStamped }
  next => cases h

/-- Contents arriving in a buffer change nothing the bookkeeping reads. -/
theorem Inv.store (hs : Inv R s) (b : Nat) (px : ι → β) : Inv R (s.store R b px) :=
  { hs with consStamped := by simpa using hs.consStamped }

theorem Inv.write {px : ι → β} (hs : Inv R s) (h : step R s (.write px) = some s') :
    Inv R s' := by
  simp only [step] at h
  split at h
  next b t hp =>
    cases h
    exact hs.store b px
  next => cases h

theorem Inv.endFill {ok : Bool} {px : ι → β} {it : φ} (hs : Inv R s)
    (h : step R s (.endFill ok px it) = some s') : Inv R s' := by
  simp only [step] at h
  split at h
  next b t hp =>
    split at h
    next hit =>
      obtain ⟨hbuf, hticket⟩ := hit
      have hstamped : b = t % R.size ∧ t < s.takes := by
        simpa [Producer.Stamped, hp] using hs.prodStamped
      have hst := hs.store b px
      split at h
      next =>
        cases h
        exact { hst with
          busy := by simpa [State.inUse, State.store, Producer.slot, hp, hbuf] using hs.busy
          nodup := by simpa [State.inUse, State.store, Producer.slot, hp, hbuf] using hs.nodup
          filled := by
            have hf := hs.filled
            simp only [hp, Producer.done, Option.toList_none, List.append_nil] at hf
            simp [Producer.done, State.store, hf]
          prodStamped := by
            simpa [Producer.Stamped, Relay.Stamped, State.store, hbuf, hticket] using hstamped }
      next =>
        cases h
        exact { hst with
          busy := by simpa [State.inUse, State.store, Producer.slot, hp] using hs.busy
          nodup := by simpa [State.inUse, State.store, Producer.slot, hp] using hs.nodup
          filled := by simpa [Producer.done, State.store, hp] using hs.filled
          prodStamped := hstamped.1 ▸ Nat.mod_lt _ R.size_pos }
    next => cases h
  next => cases h

theorem Inv.giveBack (hs : Inv R s) (h : step R s .giveBack = some s') : Inv R s' := by
  simp only [step] at h
  split at h
  next b hp =>
    cases h
    have hin : s.inUse R = s.queue.map R.buf ++ [b] := by
      simp [State.inUse, hp, Producer.slot]
    have hnd := hs.nodup
    rw [hin, List.nodup_append] at hnd
    obtain ⟨hqueue, _, hdisj⟩ := hnd
    exact { hs with
      busy := by
        intro b'
        rw [Finset.mem_erase, hs.busy, hin]
        simp only [State.inUse, Producer.slot, Option.toList_none, List.append_nil,
          List.mem_append, List.mem_singleton]
        refine ⟨?_, ?_⟩
        · rintro ⟨hne, hmem | rfl⟩
          · exact hmem
          · exact absurd rfl hne
        · intro hmem
          exact ⟨hdisj b' hmem b (List.mem_singleton.mpr rfl), .inl hmem⟩
      nodup := by simpa [State.inUse, Producer.slot] using hqueue
      filled := by simpa [Producer.done, hp] using hs.filled
      prodStamped := trivial }
  next => cases h

theorem Inv.put (hs : Inv R s) (h : step R s .put = some s') : Inv R s' := by
  simp only [step] at h
  split at h
  next it hp =>
    cases h
    have hstamped : Relay.Stamped R s.takes it := by
      simpa [Producer.Stamped, hp] using hs.prodStamped
    exact { hs with
      busy := by simpa [State.inUse, Producer.slot, hp] using hs.busy
      nodup := by simpa [State.inUse, Producer.slot, hp] using hs.nodup
      queued := by simp [hs.queued]
      filled := by simpa [Producer.done, hp] using hs.filled
      queueStamped := by
        intro it' hit'
        rcases List.mem_append.mp hit' with hold | hnew
        · exact hs.queueStamped it' hold
        · exact (List.mem_singleton.mp hnew) ▸ hstamped
      prodStamped := trivial }
  next => cases h

/-- The oldest queued buffer is always busy, so taking it off never faults. -/
theorem Inv.head_busy {it : φ} {rest : List φ} (hs : Inv R s) (hq : s.queue = it :: rest) :
    R.buf it ∈ s.busy := by
  rw [hs.busy]
  simp [State.inUse, hq]

theorem Inv.pop (hs : Inv R s) (h : step R s .pop = some s') : Inv R s' := by
  simp only [step] at h
  split at h
  next =>
    cases h
    exact hs
  next it rest hc hq =>
    -- the oldest queued buffer is busy: no fault
    rw [if_pos (hs.head_busy hq)] at h
    cases h
    have hin : s.inUse R = R.buf it :: (rest.map R.buf ++ (s.prod.slot R).toList) := by
      simp [State.inUse, hq]
    have hnd := hs.nodup
    rw [hin, List.nodup_cons] at hnd
    exact { hs with
      busy := by
        intro b
        rw [Finset.mem_erase, hs.busy, hin, List.mem_cons]
        refine ⟨?_, ?_⟩
        · rintro ⟨hne, rfl | hmem⟩
          · exact absurd rfl hne
          · exact hmem
        · intro hmem
          have hne : b ≠ R.buf it := by
            rintro rfl
            exact hnd.1 hmem
          exact ⟨hne, .inr hmem⟩
      nodup := hnd.2
      queued := by simp [hs.queued, hq]
      queueStamped := by
        intro it' hit'
        exact hs.queueStamped it' (hq ▸ List.mem_cons_of_mem _ hit')
      consStamped := by
        intro it' hit'
        simp only [Consumer.item, Option.mem_some_iff] at hit'
        exact hit' ▸ hs.queueStamped it (hq ▸ List.mem_cons_self) }
  next => cases h

theorem Inv.beginRead (hs : Inv R s) (h : step R s .beginRead = some s') : Inv R s' := by
  simp only [step] at h
  split at h
  next it hc =>
    cases h
    exact { hs with consStamped := by simpa [Consumer.item, hc] using hs.consStamped }
  next => cases h

theorem Inv.endRead {pick : ι → Nat} (hs : Inv R s)
    (h : step R s (.endRead pick) = some s') : Inv R s' := by
  simp only [step] at h
  split at h
  next it seen hc =>
    cases h
    exact { hs with consStamped := by simp [Consumer.item] }
  next => cases h

theorem relay_inductive : (relay (ι := ι) (β := β) R).Inductive (Inv R) where
  init _ h := .of_fresh h
  step s a s' _ hs h := by
    cases a with
    | take => exact hs.take h
    | beginFill => exact hs.beginFill h
    | write px => exact hs.write h
    | endFill ok px it => exact hs.endFill h
    | giveBack => exact hs.giveBack h
    | put => exact hs.put h
    | pop => exact hs.pop h
    | beginRead => exact hs.beginRead h
    | endRead pick => exact hs.endRead h

/-- The bookkeeping holds on every run. -/
theorem relay_inv (hs : (relay R).Reachable s) : Inv R s :=
  relay_inductive.invariant s hs

/-- What has been taken off the queue has been read, in that order, or is in hand. -/
def State.Accounted (s : State φ (ι → β)) : Prop :=
  s.handed = s.read.map Prod.fst ++ s.cons.item.toList

theorem Accounted.pop (hs : s.Accounted) (h : step R s .pop = some s') : s'.Accounted := by
  simp only [step] at h
  split at h
  next =>
    cases h
    exact hs
  next it rest hc hq =>
    rw [State.Accounted, hc] at hs
    split at h <;> cases h
    · simp [State.Accounted, hs, Consumer.item]
    · simp [State.Accounted, hs, hc]
  next => cases h

theorem Accounted.beginRead (hs : s.Accounted) (h : step R s .beginRead = some s') :
    s'.Accounted := by
  simp only [step] at h
  split at h
  next it hc =>
    cases h
    simpa [State.Accounted, Consumer.item, hc] using hs
  next => cases h

theorem Accounted.endRead {pick : ι → Nat} (hs : s.Accounted)
    (h : step R s (.endRead pick) = some s') : s'.Accounted := by
  simp only [step] at h
  split at h
  next it seen hc =>
    cases h
    simpa [State.Accounted, Consumer.item, hc] using hs
  next => cases h

/-- The producer takes nothing off the queue and leaves the consumer its item. -/
theorem Accounted.produce (hs : s.Accounted) (hhanded : s'.handed = s.handed)
    (hread : s'.read = s.read) (hitem : s'.cons.item = s.cons.item) : s'.Accounted := by
  rw [State.Accounted, hhanded, hread, hitem]
  exact hs

theorem accounted_inductive : (relay (ι := ι) (β := β) R).Inductive State.Accounted where
  init s h := by
    obtain ⟨_, _, _, _, _, hcons, _, _, hhanded, _, hread⟩ := h
    simp [State.Accounted, hcons, hhanded, hread, Consumer.item]
  step s a s' _ hs h := by
    cases a with
    | pop => exact Accounted.pop hs h
    | beginRead => exact Accounted.beginRead hs h
    | endRead pick => exact Accounted.endRead hs h
    | beginFill | write px | giveBack | put =>
        simp only [relay, step] at h
        split at h
        next =>
          cases h
          exact Accounted.produce hs rfl rfl (by simp)
        next => cases h
    | take =>
        simp only [relay, step] at h
        split at h
        next => split at h <;> cases h <;> exact Accounted.produce hs rfl rfl rfl
        next => cases h
    | endFill ok px it =>
        simp only [relay, step] at h
        split at h
        next =>
          split at h
          next => cases ok <;> cases h <;> exact Accounted.produce hs rfl rfl (store_item _ _)
          next => cases h
        next => cases h

/-- Nothing is lost between the queue and the reads. -/
theorem relay_accounted (hs : (relay R).Reachable s) : s.Accounted :=
  accounted_inductive.invariant s hs

/-! ## The pace that keeps reads intact -/

/-- The producer stays within a lap of the consumer: it takes a buffer only
while fewer than `size` takes have been made since the one that gave its buffer
to the item the consumer still has. -/
def inLap (R : Ring φ) (s : State φ (ι → β)) : Act φ ι β → Bool
  | .take => s.cons.item.all fun it => s.takes < R.ticket it + R.size
  | _ => true

/-- The items filled and not yet read, oldest first. -/
def State.chain (s : State φ (ι → β)) : List φ :=
  s.cons.item.toList ++ s.queue ++ s.prod.done.toList

/-- An item with what its buffer contains. -/
def carry (R : Ring φ) (mem : Nat → ι → β) (it : φ) : φ × (ι → β) :=
  (it, mem (R.buf it))

/-- Every filled item is read already, as it was filled, or still in its
buffer, as it was filled; and the buffer being read is nobody else's. -/
structure Intact (R : Ring φ) (s : State φ (ι → β)) : Prop where
  nodup : (s.cons.item.toList.map R.buf ++ s.inUse R).Nodup
  carried : s.filled = s.read ++ s.chain.map (carry R s.mem)
  seen : ∀ it seen, s.cons = .reading it seen → ∀ px ∈ seen, px = s.mem (R.buf it)

theorem Intact.of_fresh (h : Fresh s) : Intact R s := by
  obtain ⟨-, -, -, hqueue, hprod, hcons, -, -, -, hfilled, hread⟩ := h
  exact {
    nodup := by simp [State.inUse, Producer.slot, Consumer.item, hqueue, hprod, hcons]
    carried := by
      simp [State.chain, Producer.done, Consumer.item, hqueue, hprod, hcons, hfilled, hread]
    seen := by simp [hcons] }

/-- An item that moves on keeps its place in the chain, and its buffer. -/
theorem Intact.keep (hs : Intact R s)
    (hheld : s'.cons.item.toList.map R.buf ++ s'.inUse R =
      s.cons.item.toList.map R.buf ++ s.inUse R)
    (hchain : s'.chain = s.chain) (hmem : s'.mem = s.mem) (hfilled : s'.filled = s.filled)
    (hread : s'.read = s.read)
    (hseen : ∀ it seen, s'.cons = .reading it seen → ∀ px ∈ seen, px = s'.mem (R.buf it)) :
    Intact R s' where
  nodup := by
    rw [hheld]
    exact hs.nodup
  carried := by
    rw [hfilled, hread, hchain, hmem]
    exact hs.carried
  seen := hseen

/-- Two takes less than a lap apart give different buffers. -/
theorem mod_ne_of_inLap {n t k : Nat} (hlo : t < k) (hhi : k < t + n) : k % n ≠ t % n := by
  intro heq
  have hdvd : n ∣ k - t := (Nat.modEq_iff_dvd' (Nat.le_of_lt hlo)).mp heq.symm
  have hle : n ≤ k - t := Nat.le_of_dvd (Nat.sub_pos_of_lt hlo) hdvd
  omega

theorem Intact.take (hi : Inv R s) (hs : Intact R s) (hlap : inLap R s (.take : Act φ ι β))
    (h : step R s .take = some s') : Intact R s' := by
  simp only [step] at h
  split at h
  next hp =>
    split at h
    next hbusy =>
      cases h
      exact { hs with }
    next hbusy =>
      cases h
      have hin : s.inUse R = s.queue.map R.buf := by
        simp [State.inUse, hp, Producer.slot]
      have hfree : s.pos ∉ s.cons.item.toList.map R.buf ++ s.queue.map R.buf := by
        rw [List.mem_append]
        rintro (hcons | hqueue)
        · -- the item in hand: its take is less than a lap old
          obtain ⟨it, hit, hbuf⟩ := List.mem_map.mp hcons
          rw [Option.mem_toList] at hit
          obtain ⟨hmod, hlt⟩ := hi.consStamped it hit
          have hclose : s.takes < R.ticket it + R.size := by
            simp only [inLap, Option.all_eq_true, decide_eq_true_eq] at hlap
            exact hlap it hit
          exact mod_ne_of_inLap hlt hclose (by rw [← hi.pos, ← hbuf, hmod])
        · rw [hi.busy, hin] at hbusy
          exact hbusy hqueue
      exact {
        nodup := by
          have hnd := hs.nodup
          rw [hin] at hnd
          simpa [State.inUse, Producer.slot, ← List.append_assoc] using hnd.concat hfree
        carried := by simpa [State.chain, carry, Producer.done, hp] using hs.carried
        seen := hs.seen }
  next => cases h

/-- While the producer fills `b`, nothing filled earlier is kept in `b`. -/
theorem Intact.filling_ne {b t : Nat} (hs : Intact R s) (hp : s.prod = .filling b t) :
    ∀ it ∈ s.chain, R.buf it ≠ b := by
  intro it hit heq
  have hnd := hs.nodup
  simp only [State.inUse, hp, Producer.slot, Option.toList_some, ← List.append_assoc] at hnd
  have hnot := (List.nodup_append.mp hnd).2.2 b ?_ b (List.mem_singleton.mpr rfl)
  · exact hnot rfl
  · simp only [State.chain, hp, Producer.done, Option.toList_none, List.append_nil] at hit
    rw [← List.map_append]
    exact heq ▸ List.mem_map_of_mem hit

/-- What is kept in other buffers survives a write. -/
theorem store_carry {b : Nat} {px : ι → β} {l : List φ} (h : ∀ it ∈ l, R.buf it ≠ b) :
    l.map (carry R (s.store R b px).mem) = l.map (carry R s.mem) := by
  apply List.map_congr_left
  intro it hit
  simp [carry, State.store, h it hit]

theorem Intact.store {b t : Nat} (hs : Intact R s) (hp : s.prod = .filling b t)
    (px : ι → β) : Intact R (s.store R b px) := by
  have hne := hs.filling_ne hp
  exact {
    nodup := by simpa [State.inUse] using hs.nodup
    carried := by
      have hchain : (s.store R b px).chain = s.chain := by
        simp only [State.chain, store_item, store_queue, store_prod]
      rw [hchain, store_carry hne]
      exact hs.carried
    seen := by
      intro it seen hc
      cases hcons : s.cons with
      | idle => simp [State.store, hcons] at hc
      | holding it' => simp [State.store, hcons] at hc
      | reading it' seen' =>
          have hit' : R.buf it' ≠ b :=
            hne it' (by simp [State.chain, hcons, Consumer.item])
          simp only [State.store, hcons, if_neg hit', Consumer.reading.injEq] at hc
          obtain ⟨rfl, rfl⟩ := hc
          intro px' hpx'
          rw [hs.seen it' seen' hcons px' hpx']
          simp [State.store, hit'] }

theorem Intact.endFill {ok : Bool} {px : ι → β} {it : φ} (hs : Intact R s)
    (h : step R s (.endFill ok px it) = some s') : Intact R s' := by
  simp only [step] at h
  split at h
  next b t hp =>
    have hst := hs.store hp px
    have hnd := hst.nodup
    have hcar := hst.carried
    split at h
    next hit =>
      obtain ⟨hbuf, _⟩ := hit
      split at h
      next =>
        cases h
        exact {
          nodup := by simpa [State.inUse, Producer.slot, hp, hbuf] using hnd
          carried := by
            simp only [store_filled, store_read, State.chain, store_prod, hp, Producer.done,
              Option.toList_none, List.append_nil] at hcar
            simp [State.chain, Producer.done, hcar, carry, hbuf]
          seen := hst.seen }
      next =>
        cases h
        exact {
          nodup := by simpa [State.inUse, Producer.slot, hp] using hnd
          carried := by simpa [State.chain, Producer.done, hp] using hcar
          seen := hst.seen }
    next => cases h
  next => cases h

/-- A read that saw one content only returns it. -/
theorem tear_eq {seen : List (ι → β)} {px : ι → β} {pick : ι → Nat}
    (h : ∀ px' ∈ seen, px' = px) : tear seen px pick = px := by
  funext i
  have hmem : seen.getD (pick i) px = px := by
    rw [List.getD_eq_getElem?_getD]
    cases hget : seen[pick i]? with
    | none => rfl
    | some px' => exact h px' (List.mem_of_getElem? hget)
  rw [tear, hmem]

theorem Intact.endRead {pick : ι → Nat} (hs : Intact R s)
    (h : step R s (.endRead pick) = some s') : Intact R s' := by
  simp only [step] at h
  split at h
  next it seen hc =>
    cases h
    have hnd := hs.nodup
    have hcar := hs.carried
    simp only [State.chain, hc, Consumer.item, Option.toList_some, List.cons_append,
      List.map_cons] at hcar
    exact {
      nodup := by
        simp only [hc, Consumer.item, Option.toList_some, List.map_cons, List.map_nil,
          List.singleton_append, List.nodup_cons] at hnd
        simpa [State.inUse, Consumer.item] using hnd.2
      carried := by
        rw [tear_eq (hs.seen it seen hc)]
        simp only [State.chain, Consumer.item, Option.toList_none, List.nil_append, hcar]
        simp [carry]
      seen := by simp }
  next => cases h

theorem Intact.beginFill (hs : Intact R s) (h : step R s .beginFill = some s') :
    Intact R s' := by
  simp only [step] at h
  split at h
  next b t hp =>
    cases h
    refine hs.keep ?_ ?_ rfl rfl rfl hs.seen
    · simp [State.inUse, Producer.slot, hp]
    · simp [State.chain, Producer.done, hp]
  next => cases h

theorem Intact.write {px : ι → β} (hs : Intact R s) (h : step R s (.write px) = some s') :
    Intact R s' := by
  simp only [step] at h
  split at h
  next b t hp =>
    cases h
    exact hs.store hp px
  next => cases h

theorem Intact.giveBack (hs : Intact R s) (h : step R s .giveBack = some s') :
    Intact R s' := by
  simp only [step] at h
  split at h
  next b hp =>
    cases h
    have hnd := hs.nodup
    simp only [State.inUse, hp, Producer.slot, ← List.append_assoc] at hnd
    exact {
      nodup := by simpa [State.inUse, Producer.slot] using (List.nodup_append.mp hnd).1
      carried := by simpa [State.chain, carry, Producer.done, hp] using hs.carried
      seen := hs.seen }
  next => cases h

/-- The filled item goes from the producer to the end of the queue: the chain is the
same. -/
theorem Intact.put (hs : Intact R s) (h : step R s .put = some s') : Intact R s' := by
  simp only [step] at h
  split at h
  next it hp =>
    cases h
    refine hs.keep ?_ ?_ rfl rfl rfl hs.seen
    · simp [State.inUse, Producer.slot, hp]
    · simp [State.chain, Producer.done, hp]
  next => cases h

/-- The oldest queued item goes to the consumer: the chain is the same. -/
theorem Intact.pop (hi : Inv R s) (hs : Intact R s) (h : step R s .pop = some s') :
    Intact R s' := by
  simp only [step] at h
  split at h
  next =>
    cases h
    exact hs
  next it rest hc hq =>
    rw [if_pos (hi.head_busy hq)] at h
    cases h
    refine hs.keep ?_ ?_ rfl rfl rfl ?_
    · simp [State.inUse, Consumer.item, hc, hq]
    · simp [State.chain, Consumer.item, hc, hq]
    · intro it' seen hc'
      cases hc'
  next => cases h

theorem Intact.beginRead (hs : Intact R s) (h : step R s .beginRead = some s') :
    Intact R s' := by
  simp only [step] at h
  split at h
  next it hc =>
    cases h
    refine hs.keep ?_ ?_ rfl rfl rfl ?_
    · simp [State.inUse, Consumer.item, hc]
    · simp [State.chain, Consumer.item, hc]
    · intro it' seen hc'
      obtain ⟨rfl, rfl⟩ := Consumer.reading.inj hc'
      simp
  next => cases h

theorem intact_inductive :
    ((relay (ι := ι) (β := β) R).restrict fun s a => inLap R s a = true).InductiveOn
      (Inv R) (Intact R) where
  init _ h := .of_fresh h
  step s a s' hi hs h := by
    obtain ⟨hlap, h⟩ := TSys.restrict_step.mp h
    cases a with
    | take => exact hs.take hi hlap h
    | beginFill => exact hs.beginFill h
    | write px => exact hs.write h
    | endFill ok px it => exact hs.endFill h
    | giveBack => exact hs.giveBack h
    | put => exact hs.put h
    | pop => exact hs.pop hi h
    | beginRead => exact hs.beginRead h
    | endRead pick => exact hs.endRead h

/-- On the runs that stay within a lap, every item is read as it was filled. -/
theorem intact
    (hs : ((relay (ι := ι) (β := β) R).restrict fun s a => inLap R s a = true).Reachable s) :
    Intact R s :=
  intact_inductive.invariant (fun _ h => relay_inv h.of_restrict) s hs

end

end Kit.Relay
