import Mathlib.Data.Fintype.BigOperators
import Mathlib.Data.List.Nodup
import Mathlib.Order.Basic
import Mathlib.Tactic.Tauto

/-! # Who speaks for the last to leave

Parties leave one after the other and announce it over a bus that has one order
for everybody. A party that leaves after it heard of all the others speaks at
once. Otherwise it withholds, and its announcement says so; when it later hears
of the last of the others, and that one withheld too, the lower of the two ranks
speaks.
-/

namespace LastOut

open Function List

universe u v

/-- The announcements on the bus, how many of them each party has taken, and how
many it had taken when it left. -/
structure Progress (ι : Type u) where
  order : List ι
  taken : ι → Nat
  left : ι → Option Nat

variable {ι : Type u} [DecidableEq ι]

def Alone (heard : List ι) (i : ι) : Prop := ∀ j, j ≠ i → j ∈ heard

def lastOther (heard : List ι) (i : ι) : Option ι := (heard.filter fun j => j ≠ i).getLast?

theorem lastOther_concat_of_ne (heard : List ι) {i j : ι} (h : j ≠ i) :
    lastOther (heard ++ [j]) i = some j := by
  rw [lastOther, filter_append, filter_singleton, decide_eq_true h]
  exact List.getLast?_concat

theorem lastOther_concat_self (heard : List ι) (i : ι) :
    lastOther (heard ++ [i]) i = lastOther heard i := by
  rw [lastOther, filter_append, filter_singleton, decide_eq_false (not_not_intro rfl)]
  simp [lastOther]

theorem mem_of_lastOther {heard : List ι} {i j : ι} (h : lastOther heard i = some j) :
    j ∈ heard := (mem_filter.mp (mem_of_getLast? h)).1

omit [DecidableEq ι] in
theorem alone_concat_self (heard : List ι) (i : ι) : Alone (heard ++ [i]) i ↔ Alone heard i := by
  refine forall_congr' fun j => forall_congr' fun hj => ?_
  rw [mem_append, mem_singleton]
  exact or_iff_left hj

namespace Progress

variable (p : Progress ι)

def received (i : ι) : List ι := p.order.take (p.taken i)

def Direct (i : ι) : Prop := ∃ k, p.left i = some k ∧ Alone (p.order.take k) i

def Withheld (i : ι) : Prop := ∃ k, p.left i = some k ∧ ¬ Alone (p.order.take k) i

section Speaking

variable {κ : Type v} [LT κ] (rank : ι → κ)

/-- The party heard of the last of the others after it left. -/
def Claims (i : ι) : Prop :=
  (p.left i).isSome = true ∧ Alone (p.received i) i ∧
    ∃ j, lastOther (p.received i) i = some j ∧ p.Withheld j ∧ rank i < rank j

def Speaks (i : ι) : Prop := p.Direct i ∨ p.Claims rank i

end Speaking

/-! ## Steps -/

def leave (i : ι) : Progress ι := { p with left := update p.left i (some (p.taken i)) }

def announce (i : ι) : Progress ι := { p with order := p.order ++ [i] }

def take (i : ι) : Progress ι :=
  { p with taken := update p.taken i (p.taken i + 1) }

/-- Nobody announces twice or before leaving, and nobody has heard of an
announcement that comes later than its own before it left. -/
structure Valid : Prop where
  nodup : p.order.Nodup
  announced : ∀ i ∈ p.order, (p.left i).isSome = true
  bound : ∀ i, p.taken i ≤ p.order.length
  before : ∀ i k, p.left i = some k → k ≤ p.order.idxOf i ∧ k ≤ p.taken i

variable {p}

theorem Valid.leave (h : p.Valid) {i : ι} (hHere : p.left i = none) : (p.leave i).Valid where
  nodup := h.nodup
  announced j hj := by
    rw [Progress.leave]
    dsimp only
    rw [update_apply]
    split
    · rfl
    · exact h.announced j hj
  bound := h.bound
  before j k hk := by
    rw [Progress.leave] at hk
    dsimp only at hk
    rw [update_apply] at hk
    split at hk
    · rename_i hj
      cases hk
      have hNew : i ∉ p.order := by
        intro hMem
        have hLeft := h.announced i hMem
        rw [hHere] at hLeft
        cases hLeft
      rw [hj]
      refine ⟨?_, le_rfl⟩
      change p.taken i ≤ p.order.idxOf i
      rw [idxOf_eq_length hNew]
      exact h.bound i
    · exact h.before j k hk

theorem Valid.announce (h : p.Valid) {i : ι} (hLeft : (p.left i).isSome = true)
    (hNew : i ∉ p.order) : (p.announce i).Valid where
  nodup := by
    rw [Progress.announce]
    exact nodup_append.mpr ⟨h.nodup, nodup_singleton i, by
      rintro j hj k hk rfl
      rw [mem_singleton] at hk
      exact hNew (hk ▸ hj)⟩
  announced j hj := by
    rcases mem_append.mp hj with hj | hj
    · exact h.announced j hj
    · rw [mem_singleton] at hj
      rw [hj]
      exact hLeft
  bound j := by
    refine (h.bound j).trans ?_
    rw [Progress.announce]
    simp
  before j k hk := by
    refine ⟨(h.before j k hk).1.trans ?_, (h.before j k hk).2⟩
    rw [Progress.announce]
    dsimp only
    by_cases hj : j ∈ p.order
    · rw [idxOf_append_of_mem hj]
    · rw [idxOf_append_of_notMem hj, idxOf_eq_length hj]
      exact Nat.le_add_right _ _

theorem Valid.take (h : p.Valid) {i : ι} (hMore : p.taken i < p.order.length) :
    (p.take i).Valid where
  nodup := h.nodup
  announced := h.announced
  bound j := by
    rw [Progress.take]
    dsimp only
    rw [update_apply]
    split
    · exact hMore
    · exact h.bound j
  before j k hk := by
    refine ⟨(h.before j k hk).1, (h.before j k hk).2.trans ?_⟩
    rw [Progress.take]
    dsimp only
    rw [update_apply]
    split
    · rename_i hj
      rw [hj]
      exact Nat.le_succ _
    · exact le_rfl

/-! ## Who speaks after a step -/

section Steps

variable {κ : Type v} [LT κ] (rank : ι → κ) {i j o : ι}

theorem withheld_leave_of_ne (hj : j ≠ i) : (p.leave i).Withheld j ↔ p.Withheld j := by
  rw [Withheld, Withheld, Progress.leave]
  dsimp only
  rw [update_of_ne hj]

theorem speaks_leave_self : (p.leave i).Speaks rank i ↔ Alone (p.received i) i := by
  have hLeft : (p.leave i).left i = some (p.taken i) := update_self ..
  constructor
  · rintro (⟨k, hk, hAlone⟩ | hClaims)
    · rw [hLeft] at hk
      cases hk
      exact hAlone
    · exact hClaims.2.1
  · intro hAlone
    exact Or.inl ⟨p.taken i, hLeft, hAlone⟩

theorem speaks_leave_of_ne (h : p.Valid) (hHere : p.left i = none) (hj : j ≠ i) :
    (p.leave i).Speaks rank j ↔ p.Speaks rank j := by
  have hLeft : (p.leave i).left j = p.left j := update_of_ne hj ..
  have hOther (k : ι) (hk : lastOther (p.received j) j = some k) : k ≠ i := by
    rintro rfl
    have hMem : k ∈ p.order := mem_of_mem_take (mem_of_lastOther hk)
    have hAnnounced := h.announced k hMem
    rw [hHere] at hAnnounced
    cases hAnnounced
  rw [Speaks, Speaks, Direct, Direct, Claims, Claims, hLeft]
  refine or_congr Iff.rfl (and_congr Iff.rfl (and_congr Iff.rfl ?_))
  refine exists_congr fun k => and_congr_right fun hk => ?_
  rw [withheld_leave_of_ne (hOther k hk)]

theorem received_announce (h : p.Valid) (i j : ι) : (p.announce i).received j = p.received j :=
  take_append_of_le_length (h.bound j)

theorem take_announce (h : p.Valid) {k : Nat} (hk : p.left j = some k) (i : ι) :
    (p.announce i).order.take k = p.order.take k :=
  take_append_of_le_length ((h.before j k hk).2.trans (h.bound j))

theorem withheld_announce (h : p.Valid) (i j : ι) : (p.announce i).Withheld j ↔ p.Withheld j := by
  refine exists_congr fun k => and_congr_right fun hk => ?_
  rw [take_announce h hk]

theorem speaks_announce (h : p.Valid) (i j : ι) :
    (p.announce i).Speaks rank j ↔ p.Speaks rank j := by
  rw [Speaks, Speaks, Claims, Claims, received_announce h]
  refine or_congr ?_ (and_congr Iff.rfl (and_congr Iff.rfl ?_))
  · refine exists_congr fun k => and_congr_right fun hk => ?_
    rw [take_announce h hk]
  · refine exists_congr fun k => and_congr_right fun _ => ?_
    rw [withheld_announce h]

theorem received_take_of_ne (hj : j ≠ i) : (p.take i).received j = p.received j := by
  rw [received, received, Progress.take]
  dsimp only
  rw [update_of_ne hj]

theorem received_take_self (ho : p.order[p.taken i]? = some o) :
    (p.take i).received i = p.received i ++ [o] := by
  rw [received, received, Progress.take]
  dsimp only
  rw [update_self, take_add_one, ho]
  rfl

theorem notMem_received (h : p.Valid) (ho : p.order[p.taken i]? = some o) : o ∉ p.received i := by
  intro hMem
  obtain ⟨k, hk, hGet⟩ := mem_take_iff_getElem.mp hMem
  obtain ⟨hLt, hEq⟩ := List.getElem?_eq_some_iff.mp ho
  have hSame := (List.Nodup.getElem_inj_iff h.nodup).mp (hGet.trans hEq.symm)
  omega

theorem speaks_take_of_ne (hj : j ≠ i) : (p.take i).Speaks rank j ↔ p.Speaks rank j := by
  rw [Speaks, Speaks, Claims, Claims, received_take_of_ne hj]
  rfl

theorem speaks_take_own (ho : p.order[p.taken i]? = some i) :
    (p.take i).Speaks rank i ↔ p.Speaks rank i := by
  rw [Speaks, Speaks, Claims, Claims, received_take_self ho, alone_concat_self,
    lastOther_concat_self]
  rfl

theorem not_speaks_of_next (h : p.Valid) (ho : p.order[p.taken i]? = some o) (hOther : o ≠ i) :
    ¬ p.Speaks rank i := by
  have hNew := notMem_received h ho
  rintro (⟨k, hk, hAlone⟩ | hClaims)
  · exact hNew (take_subset_take_left p.order (h.before i k hk).2 (hAlone o hOther))
  · exact hNew (hClaims.2.1 o hOther)

theorem speaks_take_other (h : p.Valid) (ho : p.order[p.taken i]? = some o) (hOther : o ≠ i) :
    (p.take i).Speaks rank i ↔
      (p.left i).isSome = true ∧ Alone (p.received i ++ [o]) i ∧ p.Withheld o ∧
        rank i < rank o := by
  have hDirect : ¬ (p.take i).Direct i := by
    intro hDirect
    exact not_speaks_of_next rank h ho hOther (Or.inl hDirect)
  rw [Speaks, Claims, received_take_self ho, lastOther_concat_of_ne _ hOther, or_iff_right hDirect]
  constructor
  · rintro ⟨hLeft, hAlone, j, hj, hSpeaks⟩
    cases hj
    exact ⟨hLeft, hAlone, hSpeaks⟩
  · rintro ⟨hLeft, hAlone, hSpeaks⟩
    exact ⟨hLeft, hAlone, o, rfl, hSpeaks⟩

end Steps

/-! ## When everybody has left and heard of everybody -/

section Complete

variable {pre : List ι} {l : ι} (h : p.Valid) (hOrder : p.order = pre ++ [l])
  (hAll : ∀ i, i ∈ p.order) (hHeard : ∀ i, p.taken i = p.order.length)
include h hOrder

theorem last_notMem : l ∉ pre := by
  have hNodup := h.nodup
  rw [hOrder] at hNodup
  intro hMem
  exact (nodup_append.mp hNodup).2.2 l hMem l (mem_singleton_self l) rfl

include hAll

omit [DecidableEq ι] h in
theorem mem_pre_of_ne {i : ι} (hi : i ≠ l) : i ∈ pre := by
  have hMem := hAll i
  rw [hOrder, mem_append, mem_singleton] at hMem
  exact hMem.resolve_right hi

theorem withheld_of_ne {i : ι} (hi : i ≠ l) : p.Withheld i := by
  obtain ⟨k, hk⟩ := Option.isSome_iff_exists.mp (h.announced i (hAll i))
  refine ⟨k, hk, fun hAlone => ?_⟩
  have hPre := mem_pre_of_ne hOrder hAll hi
  have hIdx : p.order.idxOf i < pre.length := by
    rw [hOrder, idxOf_append_of_mem hPre]
    exact idxOf_lt_length_of_mem hPre
  have hLast := hAlone l (Ne.symm hi)
  rw [hOrder, take_append_of_le_length ((h.before i k hk).1.trans hIdx.le)] at hLast
  exact last_notMem h hOrder (mem_of_mem_take hLast)

theorem direct_last_iff : p.Direct l ↔ p.left l = some pre.length := by
  constructor
  · rintro ⟨k, hk, hAlone⟩
    have hIdx : p.order.idxOf l = pre.length := by
      rw [hOrder, idxOf_append_of_notMem (last_notMem h hOrder), idxOf_cons_self, Nat.add_zero]
    have hLe : k ≤ pre.length := hIdx ▸ (h.before l k hk).1
    have hSubset : pre ⊆ p.order.take k := by
      intro j hj
      apply hAlone
      rintro rfl
      exact last_notMem h hOrder hj
    have hNodup : pre.Nodup := by
      have hNodup := h.nodup
      rw [hOrder] at hNodup
      exact (nodup_append.mp hNodup).1
    have hLength := (hNodup.subperm hSubset).length_le
    rw [length_take] at hLength
    have hEq : k = pre.length := by omega
    rw [hk, hEq]
  · intro hk
    refine ⟨pre.length, hk, fun j hj => ?_⟩
    rw [hOrder, take_left]
    exact mem_pre_of_ne hOrder hAll hj

include hHeard

omit [DecidableEq ι] h hAll in
theorem received_eq (i : ι) : p.received i = pre ++ [l] := by
  rw [received, hHeard, take_length, hOrder]

omit [DecidableEq ι] h in
theorem alone_received (i : ι) : Alone (p.received i) i := by
  intro j _
  rw [received_eq hOrder hHeard, ← hOrder]
  exact hAll j

variable {κ : Type v} [LinearOrder κ] (rank : ι → κ)

theorem speaks_iff_of_ne {i : ι} (hi : i ≠ l) :
    p.Speaks rank i ↔ p.Withheld l ∧ rank i < rank l := by
  have hDirect : ¬ p.Direct i := by
    rintro ⟨k, hk, hAlone⟩
    obtain ⟨k', hk', hNot⟩ := withheld_of_ne h hOrder hAll hi
    rw [hk] at hk'
    cases hk'
    exact hNot hAlone
  have hLastOther : lastOther (p.received i) i = some l := by
    rw [received_eq hOrder hHeard, lastOther_concat_of_ne _ (Ne.symm hi)]
  constructor
  · rintro (hSpeaks | ⟨-, -, j, hj, hSpeaks⟩)
    · exact absurd hSpeaks hDirect
    · rw [hLastOther] at hj
      cases hj
      exact hSpeaks
  · intro hSpeaks
    exact Or.inr ⟨h.announced i (hAll i), alone_received hOrder hAll hHeard i, l, hLastOther,
      hSpeaks⟩

theorem speaks_last_iff : p.Speaks rank l ↔
      p.left l = some pre.length ∨ ∃ q, pre.getLast? = some q ∧ rank l < rank q := by
  have hNew := last_notMem h hOrder
  have hLastOther : lastOther (p.received l) l = pre.getLast? := by
    rw [received_eq hOrder hHeard, lastOther_concat_self, lastOther, filter_eq_self.mpr]
    intro j hj
    rw [decide_eq_true_eq]
    rintro rfl
    exact hNew hj
  rw [Speaks, direct_last_iff h hOrder hAll]
  refine or_congr_right ?_
  constructor
  · rintro ⟨-, -, q, hq, -, hLower⟩
    exact ⟨q, hLastOther ▸ hq, hLower⟩
  · rintro ⟨q, hq, hLower⟩
    have hqNe : q ≠ l := by
      rintro rfl
      exact hNew (mem_of_getLast? hq)
    exact ⟨h.announced l (hAll l), alone_received hOrder hAll hHeard l, q, hLastOther ▸ hq,
      withheld_of_ne h hOrder hAll hqNe, hLower⟩

end Complete

/-- The last announcement is that of a party that left after hearing of all the
others, or that has the lowest rank, or the lowest but one if the lowest
announced just before it. -/
def Settles {κ : Type v} [LT κ] (rank : ι → κ) (p : Progress ι) : Prop :=
  ∃ pre l, p.order = pre ++ [l] ∧
    (p.left l = some pre.length ∨ (∀ i, i ≠ l → rank l < rank i) ∨
      ∃ q, pre.getLast? = some q ∧ rank q < rank l ∧ ∀ i, i ≠ q → i ≠ l → rank l < rank i)

omit [DecidableEq ι] in
theorem settles_iff {κ : Type v} [LT κ] {rank : ι → κ} {pre : List ι} {l : ι}
    (hOrder : p.order = pre ++ [l]) :
    p.Settles rank ↔ p.left l = some pre.length ∨ (∀ i, i ≠ l → rank l < rank i) ∨
      ∃ q, pre.getLast? = some q ∧ rank q < rank l ∧ ∀ i, i ≠ q → i ≠ l → rank l < rank i := by
  constructor
  · rintro ⟨pre', l', hOrder', hCase⟩
    obtain ⟨rfl, hl⟩ := append_inj' (hOrder.symm.trans hOrder') rfl
    cases hl
    exact hCase
  · intro hCase
    exact ⟨pre, l, hOrder, hCase⟩

theorem existsUnique_speaks_iff {κ : Type v} [LinearOrder κ] [Nonempty ι] {rank : ι → κ}
    (hRank : Injective rank) (h : p.Valid) (hAll : ∀ i, i ∈ p.order)
    (hHeard : ∀ i, p.taken i = p.order.length) : (∃! i, p.Speaks rank i) ↔ p.Settles rank := by
  have hNonempty : p.order ≠ [] := ne_nil_of_mem (hAll (Classical.arbitrary ι))
  obtain ⟨pre, l, hOrder⟩ : ∃ pre l, p.order = pre ++ [l] :=
    ⟨_, _, (dropLast_append_getLast hNonempty).symm⟩
  have hOther {i : ι} (hi : i ≠ l) := speaks_iff_of_ne h hOrder hAll hHeard rank hi
  have hLast := speaks_last_iff h hOrder hAll hHeard rank
  have hNotLower {i : ι} (hi : i ≠ l) (hNot : ¬ rank i < rank l) : rank l < rank i :=
    lt_of_le_of_ne (not_lt.mp hNot) fun hEq => hi (hRank hEq).symm
  rw [settles_iff hOrder]
  by_cases hDirect : p.left l = some pre.length
  · refine iff_of_true ⟨l, hLast.mpr (Or.inl hDirect), fun i hi => ?_⟩ (Or.inl hDirect)
    by_contra hNe
    obtain ⟨k, hk, hNot⟩ := ((hOther hNe).mp hi).1
    obtain ⟨k', hk', hAlone⟩ := (direct_last_iff h hOrder hAll).mpr hDirect
    rw [hk] at hk'
    cases hk'
    exact hNot hAlone
  · obtain ⟨k, hk⟩ := Option.isSome_iff_exists.mp (h.announced l (hAll l))
    have hWithheld : ¬ Alone (p.order.take k) l := fun hAlone =>
      hDirect ((direct_last_iff h hOrder hAll).mp ⟨k, hk, hAlone⟩)
    have hLower {i : ι} (hi : i ≠ l) : p.Speaks rank i ↔ rank i < rank l :=
      (hOther hi).trans (and_iff_right ⟨k, hk, hWithheld⟩)
    rw [or_iff_right hDirect] at hLast ⊢
    obtain ⟨q, hq⟩ : ∃ q, pre.getLast? = some q := by
      rw [← Option.isSome_iff_exists, List.getLast?_isSome]
      rintro rfl
      exact hWithheld fun j hj => absurd (mem_pre_of_ne hOrder hAll hj) not_mem_nil
    have hqNe : q ≠ l := by
      rintro rfl
      exact last_notMem h hOrder (mem_of_getLast? hq)
    have hLast' : p.Speaks rank l ↔ rank l < rank q := by
      rw [hLast, hq]
      simp
    rw [hq]
    constructor
    · rintro ⟨i, hi, hUnique⟩
      by_cases hil : i = l
      · refine Or.inl fun j hj => hNotLower hj fun hjl => hj ?_
        exact (hUnique j ((hLower hj).mpr hjl)).trans hil
      · have hqLower : rank q < rank l := by
          by_contra hNot
          exact hil (hUnique l (hLast'.mpr (hNotLower hqNe hNot))).symm
        have hqi := hUnique q ((hLower hqNe).mpr hqLower)
        refine Or.inr ⟨q, rfl, hqLower, fun j hjq hjl => hNotLower hjl fun hjLower => hjq ?_⟩
        exact (hUnique j ((hLower hjl).mpr hjLower)).trans hqi.symm
    · rintro (hLowest | ⟨q', hq', hqLower, hRest⟩)
      · refine ⟨l, hLast'.mpr (hLowest q hqNe), fun j hj => ?_⟩
        by_contra hjl
        exact lt_asymm ((hLower hjl).mp hj) (hLowest j hjl)
      · cases hq'
        refine ⟨q, (hLower hqNe).mpr hqLower, fun j hj => ?_⟩
        by_contra hjq
        by_cases hjl : j = l
        · rw [hjl] at hj
          exact lt_asymm (hLast'.mp hj) hqLower
        · exact lt_asymm ((hLower hjl).mp hj) (hRest j hjq hjl)

end Progress

omit [DecidableEq ι] in
theorem sum_eq_one_iff_existsUnique [Fintype ι] {count : ι → Nat} {speaks : ι → Prop}
    (hOnce : ∀ i, speaks i → count i = 1) (hNever : ∀ i, ¬ speaks i → count i = 0) :
    ∑ i, count i = 1 ↔ ∃! i, speaks i := by
  classical
  have hCount : count = fun i => if speaks i then 1 else 0 := by
    funext i
    split
    · rename_i hSpeaks
      exact hOnce i hSpeaks
    · rename_i hSilent
      exact hNever i hSilent
  rw [hCount, ← Finset.card_filter, Finset.card_eq_one_iff_existsUnique]
  simp

end LastOut
