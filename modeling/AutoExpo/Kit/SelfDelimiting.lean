import Mathlib.Data.List.Basic
import Mathlib.Tactic.Common

/-!
# Self-delimiting texts

Items that are written one after the other, with nothing between them, can be
told apart if the text of each one says where it ends.

* `marked`, `before` and `sized` are the ways to such a text: a mark at the end
  of a word, the same front for all, a heading that tells the length of a body.
* `prefix_iff`: what can be read off the front of a text is the front of what
  has been written.
-/

namespace Kit

variable {α β : Type*} {code : α → List β}

/-- No text is empty, and none is the front of two different items, whatever follows. -/
structure SelfDelimiting (code : α → List β) : Prop where
  ne_nil : ∀ a, code a ≠ []
  split : ∀ {a b : α} {l l' : List β}, code a ++ l = code b ++ l' → a = b ∧ l = l'

namespace SelfDelimiting

/-- The first mark ends the word. -/
theorem word_split {mark : β} {w w' l l' : List β} (hw : mark ∉ w) (hw' : mark ∉ w')
    (h : w ++ mark :: l = w' ++ mark :: l') : w = w' ∧ l = l' := by
  induction w generalizing w' with
  | nil =>
      cases w' with
      | nil => exact ⟨rfl, (List.cons.inj h).2⟩
      | cons b w' => exact absurd ((List.cons.inj h).1 ▸ List.mem_cons_self) hw'
  | cons b w ih =>
      cases w' with
      | nil => exact absurd ((List.cons.inj h).1 ▸ List.mem_cons_self) hw
      | cons b' w' =>
          rw [List.mem_cons, not_or] at hw hw'
          obtain ⟨rfl, htail⟩ := List.cons.inj h
          obtain ⟨rfl, hrest⟩ := ih hw.2 hw'.2 htail
          exact ⟨rfl, hrest⟩

/-- A word, and a mark that is not in it. -/
theorem marked {word : α → List β} (hword : Function.Injective word) {mark : β}
    (hmark : ∀ a, mark ∉ word a) (tail : List β) :
    SelfDelimiting fun a => word a ++ mark :: tail where
  ne_nil a := by simp
  split {a b l l'} h := by
    rw [List.append_assoc, List.append_assoc, List.cons_append, List.cons_append] at h
    obtain ⟨hsame, hrest⟩ := word_split (hmark a) (hmark b) h
    exact ⟨hword hsame, List.append_cancel_left hrest⟩

theorem before (h : SelfDelimiting code) (front : List β) :
    SelfDelimiting fun a => front ++ code a where
  ne_nil a hnil := h.ne_nil a (List.append_eq_nil_iff.mp hnil).2
  split heq := by
    rw [List.append_assoc, List.append_assoc, List.append_cancel_left_eq] at heq
    exact h.split heq

/-- A body, after a heading that tells its length. -/
theorem sized {heading : Nat → List β} (h : SelfDelimiting heading) :
    SelfDelimiting fun body : List β => heading body.length ++ body where
  ne_nil body hnil := h.ne_nil _ (List.append_eq_nil_iff.mp hnil).1
  split heq := by
    rw [List.append_assoc, List.append_assoc] at heq
    obtain ⟨hlen, heq⟩ := h.split heq
    exact List.append_inj heq hlen

/-- What can be read off the front of a text is the front of what has been written. -/
theorem prefix_iff (h : SelfDelimiting code) {l l' : List α} :
    l.flatMap code <+: l'.flatMap code ↔ l <+: l' := by
  induction l generalizing l' with
  | nil => simp
  | cons a l ih =>
      cases l' with
      | nil => simp [h.ne_nil a]
      | cons b l' =>
          rw [List.flatMap_cons, List.flatMap_cons, List.cons_prefix_cons, ← ih]
          refine ⟨?_, ?_⟩
          · rintro ⟨rest, hrest⟩
            rw [List.append_assoc] at hrest
            obtain ⟨hab, hrest⟩ := h.split hrest
            exact ⟨hab, rest, hrest⟩
          · rintro ⟨rfl, hrest⟩
            exact (List.prefix_append_right_inj _).mpr hrest

end SelfDelimiting

end Kit
