import Mathlib.Data.List.Sort
import Mathlib.Order.Defs.LinearOrder

/-! # Sorting by a key

Insertion sort keeps what has the same key in its order. So the order of a list whose keys
are distinct does not matter, whatever is sorted behind it.
-/

namespace StableSort

universe u v

variable {α : Type u} {κ : Type v} [LinearOrder κ] (key : α → κ)

theorem orderedInsert_comm {a b : α} (h : key a ≠ key b) (l : List α) :
    (l.orderedInsert (fun x y => key x ≤ key y) a).orderedInsert (fun x y => key x ≤ key y) b =
      (l.orderedInsert (fun x y => key x ≤ key y) b).orderedInsert
        (fun x y => key x ≤ key y) a := by
  have hOne : key a ≤ key b ↔ ¬ key b ≤ key a :=
    ⟨fun hab hba => h (le_antisymm hab hba), fun hba => (lt_of_not_ge hba).le⟩
  induction l with
  | nil => by_cases hba : key b ≤ key a <;> simp [hOne, hba]
  | cons c l ih =>
    by_cases ha : key a ≤ key c
    · by_cases hb : key b ≤ key c
      · by_cases hba : key b ≤ key a <;> simp [ha, hb, hOne, hba]
      · have hba : ¬ key b ≤ key a := fun hba => hb (hba.trans ha)
        simp [ha, hb, hba]
    · by_cases hb : key b ≤ key c
      · have hab : ¬ key a ≤ key b := fun hab => ha (hab.trans hb)
        simp [ha, hb, hab]
      · simp [ha, hb, ih]

theorem insertionSort_append_of_perm {l l' : List α} (hPerm : l.Perm l')
    (hDistinct : (l.map key).Nodup) (last : List α) :
    (l ++ last).insertionSort (fun x y => key x ≤ key y) =
      (l' ++ last).insertionSort fun x y => key x ≤ key y := by
  unfold List.insertionSort
  rw [List.foldr_append, List.foldr_append]
  refine hPerm.foldr_eq' (fun x hx y hy z => ?_) _
  by_cases hKey : key x = key y
  · rw [List.inj_on_of_nodup_map hDistinct hx hy hKey]
  · exact orderedInsert_comm key hKey z

end StableSort
