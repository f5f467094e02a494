import Mathlib.Data.List.Basic

/-! # Texts joined by a separator

Cutting a text at the first separator undoes joining two parts by it, provided
the first part has no separator of its own. So of two joined texts the parts can
be compared one by one.
-/

namespace Delimited

open List

universe u

variable {α : Type u} [DecidableEq α] (sep : α)

def splitOnce : List α → Option (List α × List α)
  | [] => none
  | x :: text =>
    if x = sep then some ([], text)
    else (splitOnce text).map fun parts => (x :: parts.1, parts.2)

variable {sep}

theorem splitOnce_join {first : List α} (h : sep ∉ first) (rest : List α) :
    splitOnce sep (first ++ sep :: rest) = some (first, rest) := by
  induction first with
  | nil => rw [nil_append, splitOnce, if_pos rfl]
  | cons x first ih =>
    rw [mem_cons, not_or] at h
    rw [cons_append, splitOnce, if_neg (Ne.symm h.1), ih h.2, Option.map_some]

theorem splitOnce_eq_some {text first rest : List α} :
    splitOnce sep text = some (first, rest) ↔ text = first ++ sep :: rest ∧ sep ∉ first := by
  constructor
  · intro h
    induction text generalizing first with
    | nil => cases h
    | cons x text ih =>
      rw [splitOnce] at h
      split at h
      · rename_i hSep
        cases h
        exact ⟨by rw [hSep, nil_append], not_mem_nil⟩
      · rename_i hOther
        obtain ⟨⟨first', rest'⟩, hSplit, hParts⟩ := Option.map_eq_some_iff.mp h
        cases hParts
        obtain ⟨hText, hNone⟩ := ih hSplit
        rw [mem_cons, not_or]
        exact ⟨by rw [hText, cons_append], Ne.symm hOther, hNone⟩
  · rintro ⟨rfl, hNone⟩
    exact splitOnce_join hNone rest

theorem join_inj {first first' rest rest' : List α} (h : sep ∉ first) (h' : sep ∉ first') :
    first ++ sep :: rest = first' ++ sep :: rest' ↔ first = first' ∧ rest = rest' := by
  constructor
  · intro hJoin
    have hSplit := splitOnce_join h rest
    rw [hJoin, splitOnce_join h' rest', Option.some.injEq, Prod.mk.injEq] at hSplit
    exact ⟨hSplit.1.symm, hSplit.2.symm⟩
  · rintro ⟨rfl, rfl⟩
    rfl

omit [DecidableEq α] in
theorem infix_intercalate {parts : List (List α)} {part : List α} (h : part ∈ parts)
    (between : List α) : part <:+: List.intercalate between parts := by
  induction parts with
  | nil => cases h
  | cons first parts ih =>
    cases parts with
    | nil =>
      obtain rfl := mem_singleton.mp h
      refine ⟨[], [], ?_⟩
      rw [intercalate_singleton, nil_append, append_nil]
    | cons second parts =>
      rw [intercalate_cons_cons]
      rcases mem_cons.mp h with rfl | hMem
      · exact ((prefix_append _ _).trans (prefix_append _ _)).isInfix
      · exact (ih hMem).trans (suffix_append _ _).isInfix

end Delimited
