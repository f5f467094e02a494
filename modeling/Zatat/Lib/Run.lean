import Mathlib.Data.List.Basic

/-! # Runs of a labelled transition system

A system is a partial function from a state and a label to the next state; a
label that is not enabled gives `none`. A run is a list of labels. The two
predicates below say what holds of every state a run passes through and of
every step it takes, and one rule connects them through an invariant.
-/

namespace Transition

universe u v

variable {σ : Type u} {α : Type v} (step : σ → α → Option σ)

/-- The state a run ends in, if each of its labels is enabled in turn. -/
def exec : σ → List α → Option σ
  | s, [] => some s
  | s, a :: run => (step s a).bind fun s' => exec s' run

/-- `P` holds in every state the run passes through. -/
def Always (P : σ → Prop) : σ → List α → Prop
  | s, [] => P s
  | s, a :: run => P s ∧ ∀ s' ∈ step s a, Always P s' run

/-- `C` holds of every step the run takes, with the state before the step. -/
def EachStep (C : σ → α → Prop) : σ → List α → Prop
  | _, [] => True
  | s, a :: run => ∀ s' ∈ step s a, C s a ∧ EachStep C s' run

instance decidableEachStep (C : σ → α → Prop) [∀ s a, Decidable (C s a)] :
    (s : σ) → (run : List α) → Decidable (EachStep step C s run)
  | _, [] => inferInstanceAs (Decidable True)
  | s, a :: run =>
    match h : step s a with
    | none => .isTrue (by intro s' hs'; rw [h] at hs'; cases hs')
    | some s₁ =>
      letI := decidableEachStep C s₁ run
      decidable_of_iff (C s a ∧ EachStep step C s₁ run)
        ⟨fun hc s' hs' => by rw [h] at hs'; cases hs'; exact hc, fun hc => hc s₁ h⟩

instance decidableAlways (P : σ → Prop) [DecidablePred P] :
    (s : σ) → (run : List α) → Decidable (Always step P s run)
  | s, [] => inferInstanceAs (Decidable (P s))
  | s, a :: run =>
    match h : step s a with
    | none => decidable_of_iff (P s)
        ⟨fun hp => ⟨hp, by intro s' hs'; rw [h] at hs'; cases hs'⟩, And.left⟩
    | some s₁ =>
      letI := decidableAlways P s₁ run
      decidable_of_iff (P s ∧ Always step P s₁ run)
        ⟨fun hp => ⟨hp.1, fun s' hs' => by rw [h] at hs'; cases hs'; exact hp.2⟩,
          fun hp => ⟨hp.1, hp.2 s₁ h⟩⟩

variable {step}

theorem exec_append (s : σ) (run rest : List α) :
    exec step s (run ++ rest) = (exec step s run).bind fun s' => exec step s' rest := by
  induction run generalizing s with
  | nil => rfl
  | cons a run ih =>
    cases h : step s a with
    | none => simp [exec, h]
    | some s' => simp [exec, h, ih]

variable {I P : σ → Prop} {C : σ → α → Prop} {s : σ} {run : List α}

theorem Always.head (h : Always step P s run) : P s := by
  cases run with
  | nil => exact h
  | cons a run => exact h.1

theorem Always.of_exec {t : σ} {run : List α} (h : Always step P s run)
    (hRun : exec step s run = some t) : P t := by
  induction run generalizing s with
  | nil => cases hRun; exact h
  | cons a run ih =>
    obtain ⟨s', hStep, hRest⟩ := Option.bind_eq_some_iff.mp hRun
    exact ih (h.2 s' hStep) hRest

theorem Always.mono {Q : σ → Prop} (hPQ : ∀ s, P s → Q s) {s : σ} {run : List α}
    (h : Always step P s run) : Always step Q s run := by
  induction run generalizing s with
  | nil => exact hPQ s h
  | cons a run ih => exact ⟨hPQ s h.1, fun s' hs' => ih (h.2 s' hs')⟩

theorem EachStep.mono {D : σ → α → Prop} (hCD : ∀ s a, C s a → D s a) {s : σ} {run : List α}
    (h : EachStep step C s run) : EachStep step D s run := by
  induction run generalizing s with
  | nil => trivial
  | cons a run ih => exact fun s' hs' => ⟨hCD s a (h s' hs').1, ih (h s' hs').2⟩

theorem EachStep.of_forall_mem (h : ∀ a ∈ run, ∀ s, C s a) (s : σ) : EachStep step C s run := by
  induction run generalizing s with
  | nil => trivial
  | cons a run ih =>
    exact fun s' _ => ⟨h a List.mem_cons_self s,
      ih (fun b hb => h b (List.mem_cons_of_mem a hb)) s'⟩

theorem EachStep.and_always (h : EachStep step C s run) (hAlways : Always step P s run) :
    EachStep step (fun s a => P s ∧ C s a) s run := by
  induction run generalizing s with
  | nil => trivial
  | cons a run ih =>
    exact fun s' hs' => ⟨⟨hAlways.1, (h s' hs').1⟩, ih (h s' hs').2 (hAlways.2 s' hs')⟩

/-- An invariant kept by every step that meets `C` holds along every run whose
steps all meet `C`. -/
theorem always_of_step (hStep : ∀ s a s', I s → C s a → step s a = some s' → I s') {s : σ}
    (hInit : I s) {run : List α} (hRun : EachStep step C s run) : Always step I s run := by
  induction run generalizing s with
  | nil => exact hInit
  | cons a run ih =>
    refine ⟨hInit, fun s' hs' => ?_⟩
    obtain ⟨hC, hRest⟩ := hRun s' hs'
    exact ih (hStep s a s' hInit hC hs') hRest

theorem always_of_invariant (hStep : ∀ s a s', I s → step s a = some s' → I s') {s : σ}
    (hInit : I s) (run : List α) : Always step I s run := by
  induction run generalizing s with
  | nil => exact hInit
  | cons a run ih => exact ⟨hInit, fun s' hs' => ih (hStep s a s' hInit hs')⟩

/-- When a step that breaks `C` always leaves a state outside `P`, the runs that
stay inside `P` are exactly the runs whose steps all meet `C`; `G` is what is known
of every step anyway. -/
theorem always_iff_eachStep_within {G C : σ → α → Prop} (hIP : ∀ s, I s → P s)
    (hStep : ∀ s a s', I s → G s a → C s a → step s a = some s' → I s')
    (hBreak : ∀ s a s', I s → G s a → ¬ C s a → step s a = some s' → ¬ P s') {s : σ} (hInit : I s)
    {run : List α} (hRun : EachStep step G s run) :
    Always step P s run ↔ EachStep step C s run := by
  induction run generalizing s with
  | nil => exact ⟨fun _ => trivial, fun _ => hIP s hInit⟩
  | cons a run ih =>
    constructor
    · intro h s' hs'
      obtain ⟨hG, hRest⟩ := hRun s' hs'
      have hC : C s a := by
        by_contra hC
        exact hBreak s a s' hInit hG hC hs' (h.2 s' hs').head
      exact ⟨hC, (ih (hStep s a s' hInit hG hC hs') hRest).mp (h.2 s' hs')⟩
    · intro h
      refine ⟨hIP s hInit, fun s' hs' => ?_⟩
      obtain ⟨hG, hRest⟩ := hRun s' hs'
      obtain ⟨hC, hLater⟩ := h s' hs'
      exact (ih (hStep s a s' hInit hG hC hs') hRest).mpr hLater

theorem always_iff_eachStep (hIP : ∀ s, I s → P s)
    (hStep : ∀ s a s', I s → C s a → step s a = some s' → I s')
    (hBreak : ∀ s a s', I s → ¬ C s a → step s a = some s' → ¬ P s') {s : σ} (hInit : I s)
    (run : List α) : Always step P s run ↔ EachStep step C s run :=
  always_iff_eachStep_within hIP (fun s a s' h _ => hStep s a s' h)
    (fun s a s' h _ => hBreak s a s' h) hInit (.of_forall_mem (fun _ _ _ => trivial) s)

end Transition
