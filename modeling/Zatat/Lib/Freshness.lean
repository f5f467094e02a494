import Mathlib.Data.List.Basic
import Mathlib.Logic.Function.Basic

/-! # A replica of one value under loss

A sender says from time to time what its value is, each time under a number from a
counter that only grows. A live message is numbered after the change it reports; a
snapshot is numbered before the value is read. Messages may arrive out of the order of
their numbers, and any of them may be lost. A receiver stores what it took over last
and the number of that message, the mark.

Everything that is numbered after the last change carries the current value. So does
the copy whenever its mark is that new, whatever was lost.
-/

namespace Freshness

open Function

universe u

variable {V : Type u} {changed : Option Nat} {n : Nat} {copy : V × Nat} {τ ρ κ : Type}

def After (changed : Option Nat) (n : Nat) : Prop := ∀ k, changed = some k → k < n

theorem After.mono {n' : Nat} (h : After changed n) (hLe : n ≤ n') :
    After changed n' := fun k hk => Nat.lt_of_lt_of_le (h k hk) hLe

theorem after_succ {seq : Nat} (h : ∀ k, changed = some k → k ≤ seq) :
    After changed (seq + 1) := fun k hk => Nat.lt_succ_of_le (h k hk)

/-- What a receiver makes of a message: it takes the value over, or it leaves its copy
because the message is stale or says what is stored already. -/
inductive Handles (n : Nat) (v : V) (copy : V × Nat) : V × Nat → Prop where
  | taken (h : copy.2 < n) : Handles n v copy (v, n)
  | stale (h : n ≤ copy.2) : Handles n v copy copy
  | same (h : copy.1 = v) : Handles n v copy copy

def take (copy : V × Nat) (n : Nat) (v : V) : V × Nat := if copy.2 < n then (v, n) else copy

theorem handles_take (copy : V × Nat) (n : Nat) (v : V) : Handles n v copy (take copy n v) := by
  rw [take]
  split
  · rename_i hNewer
    exact .taken hNewer
  · rename_i hStale
    exact .stale (Nat.le_of_not_lt hStale)

theorem Handles.mark_le {v : V} {copy' : V × Nat} (h : Handles n v copy copy') :
    copy.2 ≤ copy'.2 := by
  cases h with
  | taken hNewer => exact Nat.le_of_lt hNewer
  | stale | same => exact Nat.le_refl _

theorem le_take (copy : V × Nat) (n : Nat) (v : V) : n ≤ (take copy n v).2 := by
  rw [take]
  split
  · exact Nat.le_refl n
  · rename_i hStale
    exact Nat.le_of_not_lt hStale

theorem take_of_le (h : n ≤ copy.2) (v : V) : take copy n v = copy :=
  if_neg (Nat.not_lt.mpr h)

theorem foldl_same {α : Type} (view : τ → α) {body : τ → ρ → τ}
    (hBody : ∀ t r, view (body t r) = view t) (l : List ρ) (t : τ) :
    view (l.foldl body t) = view t :=
  l.foldlRecOn (motive := fun t' => view t' = view t) body rfl
    fun t' hSame r _ => (hBody t' r).trans hSame

/-- Several messages under one number: of those about one key the first counts, since the
others are stale by then. -/
theorem foldl_take {κ τ ρ : Type} [DecidableEq κ] (view : τ → κ → V × Nat) (key : ρ → κ)
    (val : ρ → V) {body : τ → ρ → τ} {n : Nat} (hBody : ∀ t r, view (body t r) =
      update (view t) (key r) (take (view t (key r)) n (val r))) (l : List ρ) (t : τ) (k : κ) :
    view (l.foldl body t) k =
      ((l.find? fun r => key r = k).map fun r => take (view t k) n (val r)).getD (view t k) := by
  induction l generalizing t with
  | nil => rfl
  | cons r l ih =>
    rw [List.foldl_cons, ih, hBody]
    by_cases hk : key r = k
    · subst hk
      rw [List.find?_cons_of_pos (by simp), update_self]
      cases l.find? fun r' => key r' = key r with
      | none => rfl
      | some r' => exact take_of_le (le_take ..) _
    · rw [List.find?_cons_of_neg (by simpa using hk), update_of_ne (Ne.symm hk)]

theorem foldl_take_const {κ τ : Type} [DecidableEq κ] (view : τ → κ → V × Nat) {body : τ → κ → τ}
    {n : Nat} {v : V} (hBody : ∀ t k, view (body t k) = update (view t) k (take (view t k) n v))
    (l : List κ) (t : τ) (k : κ) :
    view (l.foldl body t) k = if k ∈ l then take (view t k) n v else view t k := by
  rw [foldl_take view id (fun _ => v) hBody l t k]
  cases hFind : l.find? fun r => id r = k with
  | none =>
    rw [if_neg fun hMem => List.find?_eq_none.mp hFind k hMem (decide_eq_true rfl)]
    rfl
  | some r =>
    obtain ⟨hKey, -⟩ := List.find?_eq_some_iff_append.mp hFind
    obtain rfl : r = k := of_decide_eq_true hKey
    rw [if_pos (List.mem_of_find?_eq_some hFind)]
    rfl

/-- `said` is everything the sender has said or is about to say, and under which number. -/
structure Sound (initial : V) (seq : Nat) (changed : Option Nat) (state : V)
    (said : Nat → V → Prop) (copy : V × Nat) : Prop where
  changed_le : ∀ k, changed = some k → k ≤ seq
  unchanged : changed = none → state = initial
  current : ∀ n v, said n v → After changed n → v = state
  copied : copy = (initial, 0) ∨ said copy.2 copy.1

namespace Sound

variable {initial state : V} {seq : Nat} {changed : Option Nat} {said : Nat → V → Prop}
  {copy : V × Nat} {n : Nat} {v : V} {copy' : V × Nat}

variable (h : Sound initial seq changed state said copy)

include h

theorem eq_of_after (hAfter : After changed copy.2) : copy.1 = state := by
  rcases h.copied with hInitial | hSaid
  · cases hChanged : changed with
    | none =>
      rw [h.unchanged hChanged, hInitial]
    | some k =>
      have hLt := hAfter k hChanged
      rw [hInitial] at hLt
      exact absurd hLt (Nat.not_lt_zero k)
  · exact h.current _ _ hSaid hAfter

theorem mutate (hBounded : ∀ n v, said n v → n ≤ seq) (state' : V) :
    Sound initial seq (some seq) state' said copy where
  changed_le k hk := by
    cases hk
    exact Nat.le_refl seq
  unchanged hk := by cases hk
  current n v hSaid hAfter := absurd (hAfter seq rfl) (Nat.not_lt.mpr (hBounded n v hSaid))
  copied := h.copied

theorem say {seq' : Nat} (hSeq : seq ≤ seq') {said' : Nat → V → Prop}
    (hKept : ∀ n v, said n v → said' n v) (hNew : ∀ n v, said' n v → said n v ∨ v = state) :
    Sound initial seq' changed state said' copy where
  changed_le k hk := Nat.le_trans (h.changed_le k hk) hSeq
  unchanged := h.unchanged
  current n v hSaid hAfter := (hNew n v hSaid).elim (fun hOld => h.current n v hOld hAfter) id
  copied := h.copied.imp_right (hKept _ _)

theorem handle (hSaid : said n v) (hHandles : Handles n v copy copy') :
    Sound initial seq changed state said copy' := by
  cases hHandles with
  | taken => exact ⟨h.changed_le, h.unchanged, h.current, .inr hSaid⟩
  | stale | same => exact h

theorem eq_of_handles (hSaid : said n v) (hAfter : After changed n)
    (hHandles : Handles n v copy copy') : copy'.1 = state := by
  have hValue := h.current n v hSaid hAfter
  cases hHandles with
  | taken => exact hValue
  | stale hStale => exact h.eq_of_after (hAfter.mono hStale)
  | same hSame => exact hSame.trans hValue

end Sound

end Freshness
