import Mathlib.Order.Lattice
import Mathlib.Data.List.Sort
import Mathlib.Tactic.Tauto

/-! # Maps kept in the order of their keys

The invariant is part of the value: the keys of a map increase strictly, so two
maps that were filled in different orders list the same keys in the same way.
-/

universe u v w

structure SortedMap (α : Type u) (β : Type v) [LinearOrder α] where
  entries : List (α × β)
  sorted : entries.Pairwise fun x y => x.1 < y.1

namespace SortedMap

variable {α : Type u} {β : Type v} [LinearOrder α]

def empty : SortedMap α β := ⟨[], List.Pairwise.nil⟩

def keys (m : SortedMap α β) : List α := m.entries.map Prod.fst

@[simp] theorem keys_empty : (empty : SortedMap α β).keys = [] := rfl

def containsKey (m : SortedMap α β) (k : α) : Bool := decide (k ∈ m.keys)

/-- Inserts an entry at its place, keeping the value of a key that is present. -/
def insertEntry (k : α) (v : β) : List (α × β) → List (α × β)
  | [] => [(k, v)]
  | e :: l =>
    if k < e.1 then (k, v) :: e :: l
    else if k = e.1 then e :: l
    else e :: insertEntry k v l

theorem mem_keys_insertEntry (k x : α) (v : β) (l : List (α × β)) :
    x ∈ (insertEntry k v l).map Prod.fst ↔ x = k ∨ x ∈ l.map Prod.fst := by
  induction l with
  | nil => simp [insertEntry]
  | cons e l ih =>
    rw [insertEntry]
    split
    · simp
    · split
      · rename_i hEq
        rw [List.map_cons, List.mem_cons, hEq]
        tauto
      · rw [List.map_cons, List.mem_cons, ih, List.map_cons, List.mem_cons]
        tauto

theorem insertEntry_sorted (k : α) (v : β) {l : List (α × β)}
    (h : l.Pairwise fun x y => x.1 < y.1) : (insertEntry k v l).Pairwise fun x y => x.1 < y.1 := by
  induction l with
  | nil => simp [insertEntry]
  | cons e l ih =>
    obtain ⟨hHead, hTail⟩ := List.pairwise_cons.mp h
    rw [insertEntry]
    split
    · rename_i hLt
      refine List.pairwise_cons.mpr ⟨?_, h⟩
      intro y hy
      rcases List.mem_cons.mp hy with rfl | hy
      · exact hLt
      · exact hLt.trans (hHead y hy)
    · rename_i hNotLt
      split
      · exact h
      · rename_i hNe
        refine List.pairwise_cons.mpr ⟨?_, ih hTail⟩
        intro y hy
        have hKey := (mem_keys_insertEntry k y.1 v l).mp (List.mem_map_of_mem hy)
        rcases hKey with hKey | hKey
        · rw [hKey]
          exact lt_of_le_of_ne (not_lt.mp hNotLt) (Ne.symm hNe)
        · obtain ⟨z, hz, hzy⟩ := List.mem_map.mp hKey
          rw [← hzy]
          exact hHead z hz

def orInsert (m : SortedMap α β) (k : α) (v : β) : SortedMap α β :=
  ⟨insertEntry k v m.entries, insertEntry_sorted k v m.sorted⟩

theorem mem_keys_orInsert (m : SortedMap α β) (k x : α) (v : β) :
    x ∈ (m.orInsert k v).keys ↔ x = k ∨ x ∈ m.keys :=
  mem_keys_insertEntry k x v m.entries

theorem keys_sorted (m : SortedMap α β) : m.keys.Pairwise (· < ·) := List.pairwise_map.mpr m.sorted

theorem keys_eq_of_mem_iff {γ : Type w} {m : SortedMap α β} {m' : SortedMap α γ}
    (h : ∀ x, x ∈ m.keys ↔ x ∈ m'.keys) : m.keys = m'.keys :=
  m.keys_sorted.eq_of_mem_iff m'.keys_sorted h

/-! ## Lookups -/

def lookup (m : SortedMap α β) (k : α) : Option β :=
  (m.entries.find? fun e => e.1 = k).map Prod.snd

theorem mem_keys_iff_lookup {m : SortedMap α β} {k : α} : k ∈ m.keys ↔ (m.lookup k).isSome := by
  rw [lookup, Option.isSome_map, List.find?_isSome, keys, List.mem_map]
  simp only [decide_eq_true_eq]

theorem find?_insertEntry (k x : α) (v : β) {l : List (α × β)}
    (h : l.Pairwise fun x y => x.1 < y.1) :
    ((insertEntry k v l).find? fun e => e.1 = x).map Prod.snd =
      ((l.find? fun e => e.1 = x).map Prod.snd).or (if k = x then some v else none) := by
  induction l with
  | nil => by_cases hx : k = x <;> simp [insertEntry, hx]
  | cons e l ih =>
    obtain ⟨hHead, hTail⟩ := List.pairwise_cons.mp h
    rw [insertEntry]
    split
    · rename_i hLt
      by_cases hx : k = x
      · -- every key of the list is greater
        have hNone : (e :: l).find? (fun e => e.1 = x) = none := by
          rw [List.find?_eq_none]
          intro y hy hEq
          have hKey : y.1 = k := (of_decide_eq_true hEq).trans hx.symm
          rcases List.mem_cons.mp hy with rfl | hy
          · exact hLt.ne' hKey
          · exact (hLt.trans (hHead y hy)).ne' hKey
        simp [hNone, hx]
      · simp [hx]
    · split
      · rename_i hEq
        by_cases hx : k = x <;> simp [hx, ← hEq]
      · by_cases he : e.1 = x
        · simp [he]
        · rw [List.find?_cons_of_neg (by simpa using he),
            List.find?_cons_of_neg (by simpa using he)]
          exact ih hTail

theorem lookup_orInsert (m : SortedMap α β) (k x : α) (v : β) :
    (m.orInsert k v).lookup x = (m.lookup x).or (if k = x then some v else none) :=
  find?_insertEntry k x v m.sorted

theorem mem_entries_iff {m : SortedMap α β} {k : α} {v : β} :
    (k, v) ∈ m.entries ↔ m.lookup k = some v := by
  constructor
  · intro hMem
    have hKey : k ∈ m.keys := List.mem_map_of_mem hMem
    obtain ⟨w, hw⟩ := Option.isSome_iff_exists.mp (mem_keys_iff_lookup.mp hKey)
    obtain ⟨e, hFind, rfl⟩ := Option.map_eq_some_iff.mp hw
    have hKeys : e.1 = k := by simpa using List.find?_some hFind
    have hEq : e = (k, v) :=
      List.inj_on_of_nodup_map m.keys_sorted.nodup (List.mem_of_find?_eq_some hFind) hMem hKeys
    rw [hw, hEq]
  · intro hLookup
    obtain ⟨e, hFind, rfl⟩ := Option.map_eq_some_iff.mp hLookup
    have hKeys : e.1 = k := by simpa using List.find?_some hFind
    rw [← hKeys]
    exact List.mem_of_find?_eq_some hFind

theorem ext_lookup {m m' : SortedMap α β} (h : ∀ x, m.lookup x = m'.lookup x) : m = m' := by
  have hEntries : m.entries = m'.entries := by
    refine m.sorted.eq_of_mem_iff m'.sorted fun e => ?_
    rw [← Prod.eta e, mem_entries_iff, mem_entries_iff, h]
  cases m
  cases m'
  cases hEntries
  rfl

theorem orInsert_of_mem (m : SortedMap α β) {k : α} (h : k ∈ m.keys) (v : β) :
    m.orInsert k v = m := by
  apply ext_lookup
  intro x
  rw [lookup_orInsert]
  by_cases hx : k = x
  · obtain ⟨w, hw⟩ := Option.isSome_iff_exists.mp (mem_keys_iff_lookup.mp h)
    rw [← hx, hw, Option.some_or]
  · rw [if_neg hx, Option.or_none]

/-! ## Many entries at once -/

section

variable {γ : Type w} (key : γ → α) (val : γ → β)

def insertAll (m : SortedMap α β) (l : List γ) : SortedMap α β :=
  l.foldl (fun m e => m.orInsert (key e) (val e)) m

theorem lookup_insertAll (m : SortedMap α β) (l : List γ) (x : α) :
    (m.insertAll key val l).lookup x = (m.lookup x).or ((l.find? fun e => key e = x).map val) := by
  rw [insertAll]
  induction l generalizing m with
  | nil => simp
  | cons e l ih =>
    rw [List.foldl_cons, ih, lookup_orInsert, Option.or_assoc, List.find?_cons]
    congr 1
    by_cases hx : key e = x <;> simp [hx]

theorem mem_keys_insertAll (m : SortedMap α β) (l : List γ) (x : α) :
    x ∈ (m.insertAll key val l).keys ↔ x ∈ m.keys ∨ ∃ e ∈ l, key e = x := by
  rw [mem_keys_iff_lookup, lookup_insertAll, Option.isSome_or, Bool.or_eq_true, Option.isSome_map,
    List.find?_isSome, mem_keys_iff_lookup]
  simp only [decide_eq_true_eq]

theorem insertAll_insertAll (m : SortedMap α β) (l : List γ) :
    (m.insertAll key val l).insertAll key val l = m.insertAll key val l := by
  apply ext_lookup
  intro x
  rw [lookup_insertAll, lookup_insertAll, Option.or_assoc, Option.or_self]

end

end SortedMap
