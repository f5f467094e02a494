import Mathlib.Data.List.AList
import Mathlib.Data.List.Nodup

/-! # Finite maps that can be walked through

A concurrent or a hashed map is an association list without repeated keys.
Its order is not specified by the programs that use it, so every statement
about a walk through the entries holds for each order.
-/

namespace FiniteMap

open AList Option

universe u v w

abbrev Map (α : Type u) (β : Type v) := AList (fun _ : α => β)

/-- A set kept as the keys of a map; it cannot hold a value twice. -/
abbrev KeySet (α : Type u) := Map α Unit

variable {α : Type u} {β : Type v} {γ : Type w} {ρ : Type u} {δ : Type v} {f : ρ → List δ}
  {p : δ → Bool}

theorem mem_entries_iff [DecidableEq α] {m : Map α β} {e : Sigma fun _ : α => β} :
    e ∈ m.entries ↔ m.lookup e.1 = some e.2 :=
  (mem_lookup_iff (s := m)).symm

theorem mem_iff_lookup [DecidableEq α] {m : Map α β} {a : α} :
    a ∈ m ↔ ∃ b, m.lookup a = some b := by
  rw [← lookup_isSome, isSome_iff_exists]

theorem lookup_insert_if [DecidableEq α] (m : Map α β) (a x : α) (b : β) :
    (m.insert a b).lookup x = if x = a then some b else m.lookup x := by
  split
  · rename_i h
    rw [h, lookup_insert]
  · rename_i h
    exact lookup_insert_ne h

theorem lookup_erase_if [DecidableEq α] (m : Map α β) (a x : α) :
    (m.erase a).lookup x = if x = a then none else m.lookup x := by
  split
  · rename_i h
    rw [h, lookup_erase]
  · rename_i h
    exact lookup_erase_ne h

theorem lookup_insert_cases [DecidableEq α] {m : Map α β} {a x : α} {b c : β}
    (h : (m.insert a b).lookup x = some c) : x = a ∧ b = c ∨ x ≠ a ∧ m.lookup x = some c := by
  rw [lookup_insert_if] at h
  split at h
  · exact .inl ⟨by assumption, Option.some.inj h⟩
  · exact .inr ⟨by assumption, h⟩

theorem lookup_erase_some [DecidableEq α] {m : Map α β} {a x : α} {b : β}
    (h : (m.erase a).lookup x = some b) : x ≠ a ∧ m.lookup x = some b := by
  rw [lookup_erase_if] at h
  exact ite_none_left_eq_some.mp h

theorem any_entries_iff [DecidableEq α] {m : Map α β} {p : (Sigma fun _ : α => β) → Bool} :
    m.entries.any p = true ↔ ∃ a b, m.lookup a = some b ∧ p ⟨a, b⟩ = true := by
  rw [List.any_eq_true]
  constructor
  · rintro ⟨e, hMem, hp⟩
    exact ⟨e.1, e.2, mem_entries_iff.mp hMem, hp⟩
  · rintro ⟨a, b, hLookup, hp⟩
    exact ⟨⟨a, b⟩, mem_entries_iff.mpr hLookup, hp⟩

theorem entries_eq_nil_iff [DecidableEq α] {m : Map α β} :
    m.entries = [] ↔ ∀ a, m.lookup a = none := by
  constructor
  · intro h a
    rw [lookup, h, List.dlookup_nil]
  · intro h
    apply List.eq_nil_iff_forall_not_mem.mpr
    intro e hMem
    rw [mem_entries_iff, h] at hMem
    cases hMem

/-! ## Keeping and rewriting entries in one walk -/

theorem keys_filterMap_sublist (f : α → β → Option γ) (l : List (Sigma fun _ : α => β)) :
    (l.filterMap fun e => (f e.1 e.2).map (Sigma.mk (β := fun _ : α => γ) e.1)).keys.Sublist
      l.keys := by
  induction l with
  | nil => exact List.Sublist.refl _
  | cons e l ih =>
    rw [List.filterMap_cons, List.keys_cons]
    cases f e.1 e.2 with
    | none => exact ih.cons _
    | some c => exact ih.cons_cons _

/-- Rewrites the value of each entry, dropping those sent to `none`. -/
def filterMapVal (f : α → β → Option γ) (m : Map α β) : Map α γ where
  entries := m.entries.filterMap fun e => (f e.1 e.2).map (Sigma.mk (β := fun _ : α => γ) e.1)
  nodupKeys := by exact (keys_filterMap_sublist f m.entries).nodup m.nodupKeys

theorem lookup_filterMapVal [DecidableEq α] (f : α → β → Option γ) (m : Map α β) (a : α) :
    (filterMapVal f m).lookup a = (m.lookup a).bind (f a) := by
  apply Option.ext
  intro c
  rw [← mem_def, mem_lookup_iff]
  change _ ∈ m.entries.filterMap _ ↔ _
  rw [List.mem_filterMap, bind_eq_some_iff]
  constructor
  · rintro ⟨e, hMem, hMap⟩
    obtain ⟨c', hf, hEq⟩ := map_eq_some_iff.mp hMap
    cases hEq
    exact ⟨e.2, mem_entries_iff.mp hMem, hf⟩
  · rintro ⟨b, hLookup, hf⟩
    exact ⟨⟨a, b⟩, mem_entries_iff.mpr hLookup, by simp [hf]⟩

def retain (p : α → β → Bool) (m : Map α β) : Map α β :=
  filterMapVal (fun a b => if p a b then some b else none) m

theorem lookup_retain [DecidableEq α] (p : α → β → Bool) (m : Map α β) (a : α) :
    (retain p m).lookup a = (m.lookup a).filter (p a) := by
  rw [retain, lookup_filterMapVal]
  cases m.lookup a <;> rfl

theorem entries_retain (p : α → β → Bool) (m : Map α β) :
    (retain p m).entries = m.entries.filter fun e => p e.1 e.2 := by
  change m.entries.filterMap _ = _
  rw [← List.filterMap_eq_filter]
  apply List.filterMap_congr
  intro e _
  cases h : p e.1 e.2 <;> simp [Option.guard, h]

def collect [DecidableEq α] (l : List (α × β)) : Map α β :=
  l.foldl (fun m p => m.insert p.1 p.2) ∅

theorem mem_foldl_insert [DecidableEq α] (l : List (α × β)) (m : Map α β) (a : α) :
    a ∈ l.foldl (fun m p => m.insert p.1 p.2) m ↔ a ∈ m ∨ a ∈ l.map Prod.fst := by
  induction l generalizing m with
  | nil => simp
  | cons p l ih =>
    rw [List.foldl_cons, ih, mem_insert, List.map_cons, List.mem_cons]
    tauto

theorem mem_collect [DecidableEq α] (l : List (α × β)) (a : α) :
    a ∈ collect l ↔ a ∈ l.map Prod.fst := by
  rw [collect, mem_foldl_insert]
  simp

theorem perm_cons_erase [DecidableEq α] {m : Map α β} {a : α} {b : β}
    (h : m.lookup a = some b) : m.entries.Perm (⟨a, b⟩ :: (m.erase a).entries) := by
  have hFresh : a ∉ m.erase a := by simp
  rw [← entries_insert_of_notMem hFresh]
  apply (List.perm_ext_iff_of_nodup m.nodupKeys.nodup ((m.erase a).insert a b).nodupKeys.nodup).mpr
  intro e
  rw [mem_entries_iff, mem_entries_iff, lookup_insert_if, lookup_erase_if]
  split
  · rename_i hEq
    rw [hEq, h]
  · rfl

theorem count_keys [DecidableEq α] (m : Map α β) (a : α) :
    m.keys.count a = if a ∈ m then 1 else 0 := by
  rw [List.Nodup.count m.keys_nodup]
  exact if_congr mem_keys.symm rfl rfl

theorem map_snd_filter_key [DecidableEq α] (m : Map α β) (a : α) :
    (m.entries.filter fun e => e.1 = a).map (fun e => e.2) = (m.lookup a).toList := by
  have hAll (l : List (Sigma fun _ : α => β)) :
      (l.filter fun e => e.1 = a).map (fun e => e.2) = l.lookupAll a := by
    induction l with
    | nil => rfl
    | cons e l ih =>
      obtain ⟨key, value⟩ := e
      by_cases hKey : key = a
      · subst hKey
        rw [List.filter_cons_of_pos (by simp), List.map_cons, ih, List.lookupAll_cons_eq]
      · rw [List.filter_cons_of_neg (by simpa using hKey), ih,
          List.lookupAll_cons_ne _ _ fun h => hKey h.symm]
  rw [hAll, List.lookupAll_eq_dlookup a m.nodupKeys]
  rfl

/-! ## Counting in a walk -/

theorem countP_entries_of_lookup [DecidableEq α] {m m' : Map α β} {drop : α → Bool}
    (h : ∀ a, m'.lookup a = if drop a then none else m.lookup a)
    (p : (Sigma fun _ : α => β) → Bool) :
    m'.entries.countP p = m.entries.countP fun e => p e && !drop e.1 := by
  have hPerm : m'.entries.Perm (m.entries.filter fun e => !drop e.1) := by
    refine (List.perm_ext_iff_of_nodup m'.nodupKeys.nodup (m.nodupKeys.nodup.filter _)).mpr
      fun e => ?_
    rw [mem_entries_iff, h, List.mem_filter, mem_entries_iff]
    cases drop e.1 <;> simp
  rw [hPerm.countP_eq, List.countP_filter]

theorem countP_flatMap_eq_zero {l : List ρ} (h : ∀ r ∈ l, ∀ x ∈ f r, ¬ p x = true) :
    (l.flatMap f).countP p = 0 := by
  apply List.countP_eq_zero.mpr
  intro x hx
  obtain ⟨r, hr, hxr⟩ := List.mem_flatMap.mp hx
  exact h r hr x hxr

theorem countP_flatMap_ite {q : ρ → Bool} {k : Nat} (l : List ρ)
    (h : ∀ x, (f x).countP p = if q x then k else 0) : (l.flatMap f).countP p = l.countP q * k := by
  induction l with
  | nil => simp
  | cons x l ih =>
    rw [List.flatMap_cons, List.countP_append, ih, h, List.countP_cons, Nat.add_mul, Nat.add_comm]
    split <;> simp

theorem countP_flatMap_entries [DecidableEq α] {δ : Type w} (m : Map α β) (a : α)
    {f : (Sigma fun _ : α => β) → List δ} {p : δ → Bool}
    (h : ∀ e, ∀ x ∈ f e, p x = true → e.1 = a) :
    (m.entries.flatMap f).countP p =
      match m.lookup a with
      | some b => (f ⟨a, b⟩).countP p
      | none => 0 := by
  have hRest (l : List (Sigma fun _ : α => β)) (hKeys : ∀ e ∈ l, e.1 ≠ a) :
      (l.flatMap f).countP p = 0 :=
    countP_flatMap_eq_zero fun e he x hx hp => hKeys e he (h e x hx hp)
  cases hLookup : m.lookup a with
  | none =>
    apply hRest
    rintro e he rfl
    rw [mem_entries_iff, hLookup] at he
    cases he
  | some b =>
    rw [((perm_cons_erase hLookup).flatMap_right f).countP_eq, List.flatMap_cons,
      List.countP_append, hRest, Nat.add_zero]
    rintro e he rfl
    rw [mem_entries_iff, lookup_erase] at he
    cases he

end FiniteMap
