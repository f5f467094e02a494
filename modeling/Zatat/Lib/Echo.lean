import Mathlib.Data.List.Basic

/-! # Copies of a register over a bus with echoes

Several sites hold a copy each of one value. A site writes its own copy at once and
queues the write for a bus, which hands all writes to all sites in one order; a site
skips its own writes when they come back. A copy that always holds the newest write
its site has seen, in the order of the bus with the site's own returning writes last,
ends up with the last write on the bus.
-/

namespace Echo

open List

universe u v

section

variable {α : Type u} {l : List α} {n : Nat} {x : α}

theorem lt_length_of_next (hNext : l[n]? = some x) : n + 1 ≤ l.length :=
  (List.getElem?_eq_some_iff.mp hNext).1

theorem take_succ_of_next (hNext : l[n]? = some x) : l.take (n + 1) = l.take n ++ [x] := by
  rw [take_add_one, hNext]
  rfl

theorem drop_of_next (hNext : l[n]? = some x) : l.drop n = x :: l.drop (n + 1) := by
  obtain ⟨hLt, rfl⟩ := List.getElem?_eq_some_iff.mp hNext
  exact drop_eq_getElem_cons hLt

end

variable {ι : Type u} {π : Type v} [DecidableEq ι]

def pending (i : ι) (bus : List (ι × π)) (handled : Nat) (waiting : List π) : List π :=
  ((bus.drop handled).filter fun e => e.1 = i).map Prod.snd ++ waiting

def seen (i : ι) (bus : List (ι × π)) (handled : Nat) (waiting : List π) : List π :=
  (bus.take handled).map Prod.snd ++ pending i bus handled waiting

structure Follows (initial : π) (i : ι) (bus : List (ι × π)) (handled : Nat) (waiting : List π)
    (value : π) : Prop where
  handled_le : handled ≤ bus.length
  last : value = (seen i bus handled waiting).getLastD initial

variable {initial value : π} {i j : ι} {bus : List (ι × π)} {handled : Nat} {waiting : List π}
  {v : π}

theorem follows_init (initial : π) (i : ι) : Follows initial i [] 0 [] initial :=
  ⟨Nat.le_refl 0, rfl⟩

theorem seen_write (i : ι) (bus : List (ι × π)) (handled : Nat) (waiting : List π) (v : π) :
    seen i bus handled (waiting ++ [v]) = seen i bus handled waiting ++ [v] := by
  rw [seen, seen, pending, pending, append_assoc, append_assoc]

theorem Follows.write (h : Follows initial i bus handled waiting value) (v : π) :
    Follows initial i bus handled (waiting ++ [v]) v where
  handled_le := h.handled_le
  last := by rw [seen_write, getLastD_concat]

theorem Follows.ship_own (h : Follows initial i bus handled (v :: waiting) value) :
    Follows initial i (bus ++ [(i, v)]) handled waiting value where
  handled_le := by
    rw [length_append]
    exact Nat.le_add_right_of_le h.handled_le
  last := by
    have hSeen : seen i (bus ++ [(i, v)]) handled waiting = seen i bus handled (v :: waiting) := by
      rw [seen, seen, pending, pending, take_append_of_le_length h.handled_le,
        drop_append_of_le_length h.handled_le]
      simp
    rw [hSeen]
    exact h.last

theorem Follows.ship_other (h : Follows initial i bus handled waiting value) (hj : j ≠ i) (v : π) :
    Follows initial i (bus ++ [(j, v)]) handled waiting value where
  handled_le := by
    rw [length_append]
    exact Nat.le_add_right_of_le h.handled_le
  last := by
    have hSeen : seen i (bus ++ [(j, v)]) handled waiting = seen i bus handled waiting := by
      rw [seen, seen, pending, pending, take_append_of_le_length h.handled_le,
        drop_append_of_le_length h.handled_le]
      simp [hj]
    rw [hSeen]
    exact h.last

theorem pending_echo (hNext : bus[handled]? = some (i, v)) :
    pending i bus handled waiting = v :: pending i bus (handled + 1) waiting := by
  rw [pending, drop_of_next hNext, filter_cons_of_pos (by simp)]
  rfl

theorem pending_other (hNext : bus[handled]? = some (j, v)) (hj : j ≠ i) :
    pending i bus handled waiting = pending i bus (handled + 1) waiting := by
  rw [pending, drop_of_next hNext, filter_cons_of_neg (by simpa using hj)]
  rfl

theorem Follows.echo (h : Follows initial i bus handled waiting value)
    (hNext : bus[handled]? = some (i, v)) : Follows initial i bus (handled + 1) waiting value where
  handled_le := lt_length_of_next hNext
  last := by
    have hSeen : seen i bus (handled + 1) waiting = seen i bus handled waiting := by
      rw [seen, seen, pending_echo hNext, take_succ_of_next hNext, map_append, append_assoc]
      rfl
    rw [hSeen]
    exact h.last

theorem Follows.receive (hNext : bus[handled]? = some (j, v)) (hj : j ≠ i)
    (hPending : pending i bus handled waiting = []) :
    Follows initial i bus (handled + 1) waiting v where
  handled_le := lt_length_of_next hNext
  last := by
    rw [seen, ← pending_other hNext hj, hPending, append_nil, take_succ_of_next hNext,
      map_append, map_singleton, getLastD_concat]

theorem Follows.settled (h : Follows initial i bus bus.length [] value) :
    value = (bus.map Prod.snd).getLastD initial := by
  have hSeen : seen i bus bus.length [] = bus.map Prod.snd := by
    rw [seen, pending, take_length, drop_length]
    exact append_nil _
  rw [← hSeen]
  exact h.last

end Echo
