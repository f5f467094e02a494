import Mathlib.Data.Finset.Basic
import Mathlib.Data.List.Basic

/-! # Lists in the order of arrival

A list without repetitions whose newest entry comes first. Entries that leave
it do not come back, so what arrived no later than a given entry only shrinks.
-/

namespace Arrivals

universe u

variable {α : Type u} [DecidableEq α]

def upTo (a : α) (l : List α) : List α := l.dropWhile fun x => x ≠ a

theorem upTo_cons_self (a : α) (l : List α) : upTo a (a :: l) = a :: l := by
  simp [upTo]

theorem upTo_cons_of_ne {a x : α} (h : x ≠ a) (l : List α) : upTo a (x :: l) = upTo a l := by
  simp [upTo, h]

theorem upTo_sublist (a : α) (l : List α) : (upTo a l).Sublist l := List.dropWhile_sublist _

theorem upTo_erase_sublist {a e : α} (h : e ≠ a) (l : List α) :
    (upTo a (l.erase e)).Sublist (upTo a l) := by
  induction l with
  | nil => exact List.Sublist.refl _
  | cons x l ih =>
    by_cases hx : x = a
    · subst hx
      rw [List.erase_cons_tail (by simpa using h.symm), upTo_cons_self, upTo_cons_self]
      exact List.erase_sublist.cons_cons x
    · rw [upTo_cons_of_ne hx]
      by_cases he : x = e
      · rw [he, List.erase_cons_head]
      · rw [List.erase_cons_tail (by simpa using he), upTo_cons_of_ne hx]
        exact ih

theorem exists_newest {l : List α} {s : Finset α} (hs : s.Nonempty) (h : ∀ a ∈ s, a ∈ l) :
    ∃ a ∈ s, ∀ b ∈ s, b ∈ upTo a l := by
  induction l with
  | nil =>
    obtain ⟨a, ha⟩ := hs
    cases h a ha
  | cons x l ih =>
    by_cases hx : x ∈ s
    · exact ⟨x, hx, fun b hb => by rw [upTo_cons_self]; exact h b hb⟩
    · have hNe (a : α) (ha : a ∈ s) : x ≠ a := by
        rintro rfl
        exact hx ha
      obtain ⟨a, ha, hAll⟩ := ih fun b hb =>
        (List.mem_cons.mp (h b hb)).resolve_left (hNe b hb).symm
      exact ⟨a, ha, fun b hb => by rw [upTo_cons_of_ne (hNe a ha)]; exact hAll b hb⟩

end Arrivals
