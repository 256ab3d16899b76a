import AutoExpo.Camera.State
import AutoExpo.Kit.Decimal
import AutoExpo.Main.SigHandler
import Mathlib.Data.List.TakeWhile

/-!
# The HTTP requests

`/start_expo/:expo_cnt` and `/stop_expo` as the stores they make to the counters
of the cameras, one camera after another. The path parameter goes through
`std::from_chars` into a variable that is 0, and the result of the call is not
looked at: what is no number sets the target 0, which is to expose for ever
(`any_text_exposes`), and what follows a number is left out. The request does
what it says exactly on the decimal numerals (`start_expo_numeral`).
-/

namespace AutoExpo.Http

open Kit
open Interrupt (CamManager)

/-! ## The stores of a request -/

/-- `loop_cnt` and `expo_cnt` of every camera. -/
structure Counters where
  loopCnt : Int → ULong
  expoCnt : Int → ULong

inductive Store
  | loopCnt (c : Int) (v : ULong)
  | expoCnt (c : Int) (v : ULong)
  deriving DecidableEq

def Counters.setLoopCnt (k : Counters) (c : Int) (v : ULong) : Counters :=
  { k with loopCnt := fun d => if d = c then v else k.loopCnt d }

def Counters.setExpoCnt (k : Counters) (c : Int) (v : ULong) : Counters :=
  { k with expoCnt := fun d => if d = c then v else k.expoCnt d }

def Store.exec (k : Counters) : Store → Counters
  | .loopCnt c v => k.setLoopCnt c v
  | .expoCnt c v => k.setExpoCnt c v

def resetExpoCount (loopCnt : ULong) (c : Int) : List Store := [.loopCnt c loopCnt, .expoCnt c 0]

def stopExpoCount (c : Int) : List Store := [.expoCnt c (ULONG_MAX - 1), .loopCnt c 1]

inductive Request
  | startExpo (expoCnt : ULong)
  | stopExpo
  deriving DecidableEq

def Request.stores (cams : CamManager) : Request → List Store
  | .startExpo expoCnt => cams.ids.flatMap (resetExpoCount expoCnt)
  | .stopExpo => cams.ids.flatMap stopExpoCount

/-! ## The path parameter -/

/-- `std::from_chars` into an `unsigned long`: the value of the leading digits, or none
when there are none or it is out of range. -/
def fromChars (s : Text) : Option ULong :=
  let digits := s.takeWhile Char.isDigit
  if digits = [] then none
  else if Nat.ofDigitChars 10 digits 0 < 2 ^ 64 then
    some (BitVec.ofNat 64 (Nat.ofDigitChars 10 digits 0))
  else none

/-- What the handler makes of its parameter: `expo_cnt` is 0 before the call, and after a
call that fails. -/
def startExpo (s : Text) : Request := .startExpo ((fromChars s).getD 0)

/-- The request, served without a break. -/
def serve (cams : CamManager) (k : Counters) (r : Request) : Counters :=
  (r.stores cams).foldl Store.exec k

/-- A number that fits in an `unsigned long`, and nothing else. -/
structure Numeral (s : Text) : Prop where
  nonempty : s ≠ []
  digits : ∀ ch ∈ s, ch.isDigit = true
  fits : Nat.ofDigitChars 10 s 0 < 2 ^ 64

/-- The parameter `s` is read as a number or refused. -/
def ReadOrRefused (cams : CamManager) (s : Text) (k k' : Counters) : Prop :=
  (Numeral s → ∀ c ∈ cams.ids,
    k'.loopCnt c = BitVec.ofNat 64 (Nat.ofDigitChars 10 s 0) ∧ k'.expoCnt c = 0) ∧
  (¬ Numeral s → ∀ c ∈ cams.ids, k'.loopCnt c = k.loopCnt c ∧ k'.expoCnt c = k.expoCnt c)

theorem fromChars_numeral {s : Text} (h : Numeral s) :
    fromChars s = some (BitVec.ofNat 64 (Nat.ofDigitChars 10 s 0)) := by
  have hall : s.takeWhile Char.isDigit = s := List.takeWhile_eq_self_iff.mpr h.digits
  rw [fromChars, hall]
  simp only [h.nonempty, if_false, h.fits, if_true]

theorem reset_exec (k : Counters) (n : ULong) (ids : List Int) (c : Int) :
    let k' := (ids.flatMap (resetExpoCount n)).foldl Store.exec k
    k'.loopCnt c = (if c ∈ ids then n else k.loopCnt c) ∧
      k'.expoCnt c = if c ∈ ids then 0 else k.expoCnt c := by
  induction ids generalizing k with
  | nil => simp
  | cons d rest ih =>
      have hrest := ih ((k.setLoopCnt d n).setExpoCnt d 0)
      simp only [List.flatMap_cons, resetExpoCount, List.cons_append, List.nil_append,
        List.foldl_cons, Store.exec, List.mem_cons] at hrest ⊢
      rw [hrest.1, hrest.2]
      by_cases hd : c = d
      · simp [hd, Counters.setLoopCnt, Counters.setExpoCnt]
      · simp [hd, Counters.setLoopCnt, Counters.setExpoCnt]

/-- Whatever the parameter, every camera gets a target. -/
theorem serve_startExpo (cams : CamManager) (k : Counters) (s : Text) :
    ∀ c ∈ cams.ids, (serve cams k (startExpo s)).loopCnt c = (fromChars s).getD 0 ∧
      (serve cams k (startExpo s)).expoCnt c = 0 := by
  intro c hc
  have hexec := reset_exec k ((fromChars s).getD 0) cams.ids c
  simp only [if_pos hc] at hexec
  exact hexec

/-- A parameter is read as a number or refused, whatever the counters of the cameras, if
and only if it is a numeral. -/
theorem start_expo_numeral (cams : CamManager) (s : Text) :
    (∀ k, ReadOrRefused cams s k (serve cams k (startExpo s))) ↔ Numeral s := by
  refine ⟨?_, ?_⟩
  · intro hall
    by_contra hno
    obtain ⟨c, hc⟩ := List.exists_mem_of_ne_nil _ cams.nonempty
    -- the counter is reset, and a camera may have counted one
    let k : Counters := { loopCnt := fun _ => 0, expoCnt := fun _ => 1 }
    have hkept := ((hall k).2 hno c hc).2
    rw [(serve_startExpo cams k s c hc).2] at hkept
    exact absurd (show (0 : ULong) = 1 from hkept) (by decide)
  · intro hnum k
    refine ⟨?_, ?_⟩
    · intro _ c hc
      have hserved := serve_startExpo cams k s c hc
      rwa [fromChars_numeral hnum] at hserved
    · intro hno
      exact absurd hnum hno

def twoCameras : CamManager where
  ids := [1, 2]
  sorted := by decide
  nonempty := by decide

/-- Two cameras, idle at the target 5; a parameter without digits sets them exposing for
ever. -/
theorem any_text_exposes :
    ¬ ∀ (cams : CamManager) (s : Text) (k : Counters),
      ReadOrRefused cams s k (serve cams k (startExpo s)) := by
  intro hall
  let k : Counters := { loopCnt := fun _ => 5, expoCnt := fun _ => 5 }
  have hno : ¬ Numeral ['a', 'b', 'c'] := by
    intro hnum
    exact absurd (hnum.digits 'a' List.mem_cons_self) (by decide)
  have hkept := ((hall twoCameras ['a', 'b', 'c'] k).2 hno 1 List.mem_cons_self).1
  exact absurd hkept (by decide +kernel)

end AutoExpo.Http
