import Mathlib.Data.List.Chain

/-! # Alternating histories

A history is the list of the values a two-valued state took, one entry for
each announced change, the first entry being the state before any of them. It
alternates when no two neighbouring entries agree: nothing is announced twice.
-/

namespace Alternation

def Alternates (start : Bool) (history : List Bool) : Prop :=
  (start :: history).IsChain (· ≠ ·)

instance (start : Bool) (history : List Bool) : Decidable (Alternates start history) :=
  inferInstanceAs (Decidable ((start :: history).IsChain (· ≠ ·)))

def current (start : Bool) (history : List Bool) : Bool :=
  history.getLast?.getD start

@[simp] theorem current_nil (start : Bool) : current start [] = start := rfl

@[simp] theorem current_concat (start : Bool) (history : List Bool) (b : Bool) :
    current start (history ++ [b]) = b := by
  simp [current]

theorem alternates_nil (start : Bool) : Alternates start [] := List.isChain_singleton start

theorem alternates_concat {start : Bool} {history : List Bool} {b : Bool} :
    Alternates start (history ++ [b]) ↔ Alternates start history ∧ current start history ≠ b := by
  rw [Alternates, ← List.cons_append, List.isChain_append]
  simp only [List.isChain_singleton, true_and, List.head?_cons, Option.mem_def,
    Option.some.injEq, forall_eq', Alternates, current]
  rw [List.getLast?_cons]
  simp

theorem Alternates.concat {start : Bool} {history : List Bool} {b : Bool}
    (h : Alternates start history) (hNew : current start history = !b) :
    Alternates start (history ++ [b]) :=
  alternates_concat.mpr ⟨h, by rw [hNew]; cases b <;> decide⟩

/-- The history alternates, and its last entry says whether the fact holds. -/
structure Records (history : List Bool) (fact : Prop) : Prop where
  alternates : Alternates false history
  current : Alternation.current false history = true ↔ fact

namespace Records

variable {history : List Bool} {fact next : Prop}

theorem nil (h : ¬ fact) : Records [] fact :=
  ⟨alternates_nil false, iff_of_false Bool.false_ne_true h⟩

theorem congr (h : Records history fact) (hNext : fact ↔ next) : Records history next :=
  ⟨h.alternates, h.current.trans hNext⟩

theorem concat (h : Records history fact) {b : Bool} (hBefore : fact ↔ b = false)
    (hAfter : next ↔ b = true) : Records (history ++ [b]) next := by
  refine ⟨h.alternates.concat ?_, by rw [current_concat, hAfter]⟩
  rw [Bool.eq_iff_iff, h.current, hBefore, Bool.not_eq_true']

end Records

end Alternation
