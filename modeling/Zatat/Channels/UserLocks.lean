import Mathlib.Data.Finset.Card
import Mathlib.Logic.Function.Basic
import Zatat.Lib.Map
import Zatat.Lib.Run

/-! # The transition locks of users

`with_user_transition` finds or makes a mutex for the user, runs its closure
under it and afterwards drops the mutex from the map unless somebody else has a
reference to it. References are taken under the lock of the map's shard, but
they are given up outside it. Callers are values of an arbitrary type; a call
for another user from within a closure is a caller of its own.
-/

namespace Zatat.UserLocks

open Function FiniteMap Transition Finset Option

variable {ι : Type*}

/-- A mutex behind its reference: the number of references and who holds it. -/
structure UserMutex (ι : Type*) where
  strongCount : Nat
  holder : Option ι

inductive Stage where
  | cloned
  | locked
  | running
  | returned
  | unlocked
deriving DecidableEq, Repr

def Stage.guarded : Stage → Bool
  | .locked | .running | .returned => true
  | .cloned | .unlocked => false

inductive Progress where
  | idle
  | inside (appId userId : String) (mutex : Nat) (stage : Stage)
  | dropped (appId userId : String)
deriving DecidableEq, Repr

structure State (ι : Type*) where
  userLocks : String → Map String Nat
  mutexes : Nat → UserMutex ι
  fresh : Nat
  progress : ι → Progress

inductive Label (ι : Type*) where
  | enter (caller : ι) (appId userId : String)
  | lock (caller : ι)
  | start (caller : ι)
  | finish (caller : ι)
  | unlock (caller : ι)
  | dropClone (caller : ι)
  | removeIf (caller : ι)

namespace State

def new : State ι := ⟨fun _ => ∅, fun _ => ⟨0, none⟩, 0, fun _ => .idle⟩

def setLock (σ : State ι) (appId : String) (locks : Map String Nat) : State ι :=
  { σ with userLocks := update σ.userLocks appId locks }

def setMutex (σ : State ι) (arc : Nat) (m : UserMutex ι) : State ι :=
  { σ with mutexes := update σ.mutexes arc m }

def setProgress [DecidableEq ι] (σ : State ι) (caller : ι) (p : Progress) : State ι :=
  { σ with progress := update σ.progress caller p }

def lockOf (σ : State ι) (appId userId : String) : Option Nat := (σ.userLocks appId).lookup userId

end State

/-- At most one closure runs for each user, the callers of a user refer to one mutex,
and between calls no mutex is left. -/
structure Exclusive (σ : State ι) : Prop where
  oneRuns : ∀ i j appId userId a b, σ.progress i = .inside appId userId a .running →
    σ.progress j = .inside appId userId b .running → i = j
  oneMutex : ∀ i j appId userId a b s t, σ.progress i = .inside appId userId a s →
    σ.progress j = .inside appId userId b t → a = b
  nothingLeft : (∀ i, σ.progress i = .idle) → ∀ appId, (σ.userLocks appId).entries = []

/-! ## The steps -/

def orDefault (σ : State ι) (appId userId : String) : Nat × State ι :=
  match σ.lockOf appId userId with
  | some arc => (arc, σ)
  | none =>
    (σ.fresh,
      { (σ.setLock appId ((σ.userLocks appId).insert userId σ.fresh)).setMutex σ.fresh
          ⟨1, none⟩ with
        fresh := σ.fresh + 1 })

/-- The reference is cloned under the shard lock that `or_default` holds. -/
def enter [DecidableEq ι] (σ : State ι) (caller : ι) (appId userId : String) : State ι :=
  let (arc, σ) := orDefault σ appId userId
  (σ.setMutex arc ⟨(σ.mutexes arc).strongCount + 1, (σ.mutexes arc).holder⟩).setProgress caller
    (.inside appId userId arc .cloned)

def removeIf (σ : State ι) (appId userId : String) : State ι :=
  match σ.lockOf appId userId with
  | some arc =>
    if (σ.mutexes arc).strongCount = 1 then σ.setLock appId ((σ.userLocks appId).erase userId)
    else σ
  | none => σ

def step [DecidableEq ι] (σ : State ι) : Label ι → Option (State ι)
  | .enter caller appId userId =>
    match σ.progress caller with
    | .idle => some (enter σ caller appId userId)
    | _ => none
  | .lock caller =>
    match σ.progress caller with
    | .inside appId userId arc .cloned =>
      if (σ.mutexes arc).holder = none then
        some ((σ.setMutex arc ⟨(σ.mutexes arc).strongCount, some caller⟩).setProgress caller
          (.inside appId userId arc .locked))
      else none
    | _ => none
  | .start caller =>
    match σ.progress caller with
    | .inside appId userId arc .locked =>
      some (σ.setProgress caller (.inside appId userId arc .running))
    | _ => none
  | .finish caller =>
    match σ.progress caller with
    | .inside appId userId arc .running =>
      some (σ.setProgress caller (.inside appId userId arc .returned))
    | _ => none
  | .unlock caller =>
    match σ.progress caller with
    | .inside appId userId arc .returned =>
      some ((σ.setMutex arc ⟨(σ.mutexes arc).strongCount, none⟩).setProgress caller
        (.inside appId userId arc .unlocked))
    | _ => none
  | .dropClone caller =>
    match σ.progress caller with
    | .inside appId userId arc .unlocked =>
      some ((σ.setMutex arc ⟨(σ.mutexes arc).strongCount - 1, (σ.mutexes arc).holder⟩).setProgress
        caller (.dropped appId userId))
    | _ => none
  | .removeIf caller =>
    match σ.progress caller with
    | .dropped appId userId => some ((removeIf σ appId userId).setProgress caller .idle)
    | _ => none

/-! ## The invariant -/

def Progress.Concerns (appId userId : String) : Progress → Prop
  | .idle => False
  | .inside a u _ _ => a = appId ∧ u = userId
  | .dropped a u => a = appId ∧ u = userId

def Progress.refers : Progress → Bool
  | .inside _ _ _ _ => true
  | _ => false

def Progress.guards : Progress → Bool
  | .inside _ _ _ stage => stage.guarded
  | _ => false

theorem Progress.refers_iff {p : Progress} :
    p.refers = true ↔ ∃ a u arc stage, p = .inside a u arc stage := by
  cases p with
  | inside a u arc stage => exact iff_of_true rfl ⟨a, u, arc, stage, rfl⟩
  | idle =>
    refine iff_of_false Bool.false_ne_true ?_
    rintro ⟨a, u, arc, stage, h⟩
    cases h
  | dropped a u =>
    refine iff_of_false Bool.false_ne_true ?_
    rintro ⟨a, u, arc, stage, h⟩
    cases h

theorem Progress.refers_of_guards {p : Progress} (h : p.guards = true) : p.refers = true := by
  cases p with
  | inside a u arc stage => rfl
  | idle | dropped => cases h

/-- What holds of one user's entry of the map. Whoever has a reference has it to the
mutex in the map, whose count is one more than the callers that refer to it. -/
structure Entry (σ : State ι) (a u : String) : Prop where
  mapped : ∀ i arc stage, σ.progress i = .inside a u arc stage → σ.lockOf a u = some arc
  counted : ∀ arc, σ.lockOf a u = some arc → ∃ callers : Finset ι,
    (∀ i, i ∈ callers ↔ ∃ stage, σ.progress i = .inside a u arc stage) ∧
      (σ.mutexes arc).strongCount = callers.card + 1
  holder : ∀ arc, σ.lockOf a u = some arc → ∀ i, (σ.mutexes arc).holder = some i ↔
    ∃ stage, σ.progress i = .inside a u arc stage ∧ stage.guarded = true

structure Sound (σ : State ι) : Prop where
  entries : ∀ a u, Entry σ a u
  allocated : ∀ a u arc, σ.lockOf a u = some arc → arc < σ.fresh
  apart : ∀ a u a' u' arc, σ.lockOf a u = some arc → σ.lockOf a' u' = some arc → a = a' ∧ u = u'

/-- A mutex in the map is there for a call in progress. -/
structure Invariant (σ : State ι) : Prop extends Sound σ where
  inUse : ∀ a u arc, σ.lockOf a u = some arc → ∃ i, (σ.progress i).Concerns a u

theorem Invariant.new : Invariant (State.new : State ι) where
  entries _ _ := by
    refine ⟨fun _ _ _ h => ?_, fun _ h => ?_, fun _ h => ?_⟩ <;> cases h
  allocated _ _ _ h := by cases h
  apart _ _ _ _ _ h := by cases h
  inUse _ _ _ h := by cases h

theorem Invariant.exclusive {σ : State ι} (h : Invariant σ) : Exclusive σ where
  oneRuns i j a u arc arc' hi hj := by
    have hArc := (h.entries a u).mapped i arc _ hi
    have hEq : arc = arc' := Option.some.inj (hArc.symm.trans ((h.entries a u).mapped j arc' _ hj))
    subst hEq
    have hHolder := ((h.entries a u).holder arc hArc i).mpr ⟨_, hi, rfl⟩
    rw [((h.entries a u).holder arc hArc j).mpr ⟨_, hj, rfl⟩] at hHolder
    exact (Option.some.inj hHolder).symm
  oneMutex i j a u arc arc' s t hi hj :=
    Option.some.inj (((h.entries a u).mapped i arc s hi).symm.trans
      ((h.entries a u).mapped j arc' t hj))
  nothingLeft hIdle a := by
    rw [entries_eq_nil_iff]
    intro u
    cases hLock : (σ.userLocks a).lookup u with
    | none => rfl
    | some arc =>
      obtain ⟨i, hi⟩ := h.inUse a u arc hLock
      rw [hIdle i] at hi
      cases hi

theorem Progress.Concerns.of_inside {p : Progress} {a u : String} {arc : Nat} {stage : Stage}
    (h : p = .inside a u arc stage) : p.Concerns a u := by
  rw [h]
  exact ⟨rfl, rfl⟩

theorem Entry.frame {σ τ : State ι} {a u : String} (h : Entry σ a u)
    (hLock : τ.lockOf a u = σ.lockOf a u)
    (hMutex : ∀ arc, σ.lockOf a u = some arc → τ.mutexes arc = σ.mutexes arc)
    (hInside : ∀ j arc stage,
      τ.progress j = .inside a u arc stage ↔ σ.progress j = .inside a u arc stage) :
    Entry τ a u := by
  refine ⟨fun j arc stage hj => ?_, fun arc hArc => ?_, fun arc hArc j => ?_⟩
  · rw [hLock]
    exact h.mapped j arc stage ((hInside j arc stage).mp hj)
  · rw [hLock] at hArc
    obtain ⟨callers, hCallers, hCard⟩ := h.counted arc hArc
    refine ⟨callers, fun j => ?_, by rw [hMutex arc hArc, hCard]⟩
    simp only [hCallers, hInside]
  · rw [hLock] at hArc
    simp only [hMutex arc hArc, h.holder arc hArc, hInside]

/-! ## One step of one caller -/

section

variable [DecidableEq ι] {σ : State ι} {i : ι} {a u : String} {arc : Nat}

@[simp] theorem progress_setProgress (σ : State ι) (i j : ι) (p : Progress) :
    (σ.setProgress i p).progress j = if j = i then p else σ.progress j :=
  update_apply ..

omit [DecidableEq ι] in
@[simp] theorem mutexes_setMutex (σ : State ι) (arc b : Nat) (m : UserMutex ι) :
    (σ.setMutex arc m).mutexes b = if b = arc then m else σ.mutexes b :=
  update_apply ..

omit [DecidableEq ι] in
theorem lockOf_setLock (σ : State ι) (a a' u' : String) (locks : Map String Nat) :
    (σ.setLock a locks).lockOf a' u' = if a' = a then locks.lookup u' else σ.lockOf a' u' := by
  rw [State.lockOf, State.setLock]
  dsimp only
  rw [update_apply]
  split <;> rfl

theorem mem_referring {callers : Finset ι} {i j : ι} {refers : Bool} :
    (j ∈ if refers then insert i callers else callers.erase i) ↔
      if j = i then refers = true else j ∈ callers := by
  cases refers <;> by_cases hj : j = i <;> simp [hj]

theorem card_referring (callers : Finset ι) (i : ι) (refers : Bool) :
    (if refers then insert i callers else callers.erase i).card + (decide (i ∈ callers)).toNat =
      callers.card + refers.toNat := by
  by_cases hMem : i ∈ callers
  · have hPos := card_pos.mpr ⟨i, hMem⟩
    rw [decide_eq_true hMem]
    cases refers with
    | true => rw [if_pos rfl, insert_eq_of_mem hMem]
    | false =>
      rw [if_neg Bool.false_ne_true, card_erase_of_mem hMem, Bool.toNat_true, Bool.toNat_false]
      omega
  · rw [decide_eq_false hMem]
    cases refers with
    | true => rw [if_pos rfl, card_insert_of_notMem hMem, Bool.toNat_false, Bool.toNat_true]
    | false => rw [if_neg Bool.false_ne_true, erase_eq_of_notMem hMem]

/-- A caller of the user takes up the progress `p`, and its mutex becomes `m`: the count
changes with the caller's own reference, and the holder with its own guard. -/
theorem Sound.move (h : Sound σ) {m : UserMutex ι} {p : Progress}
    (hUse : ∀ a' u' b, σ.lockOf a' u' = some b → ¬ (a' = a ∧ u' = u) →
      ∃ j, (σ.progress j).Concerns a' u') (hArc : σ.lockOf a u = some arc)
    (hBefore : ∀ a' u', (σ.progress i).Concerns a' u' → a' = a ∧ u' = u)
    (hAfter : ∀ a' u', p.Concerns a' u' ↔ a' = a ∧ u' = u)
    (hMutex : ∀ b stage, p = .inside a u b stage → b = arc)
    (hCount : m.strongCount + (σ.progress i).refers.toNat =
      (σ.mutexes arc).strongCount + p.refers.toNat) (hHolder : m.holder = some i ↔ p.guards = true)
    (hOthers : ∀ j, j ≠ i → (m.holder = some j ↔ (σ.mutexes arc).holder = some j)) :
    Invariant ((σ.setMutex arc m).setProgress i p) := by
  refine ⟨⟨fun a' u' => ?_, h.allocated, h.apart⟩, fun a' u' b hb => ?_⟩
  swap
  · by_cases hOwn : a' = a ∧ u' = u
    · exact ⟨i, by rwa [progress_setProgress, if_pos rfl, hAfter]⟩
    · obtain ⟨j, hj⟩ := hUse a' u' b hb hOwn
      refine ⟨j, ?_⟩
      rw [progress_setProgress, if_neg]
      · exact hj
      · rintro rfl
        exact hOwn (hBefore a' u' hj)
  by_cases hOwn : a' = a ∧ u' = u
  · obtain ⟨rfl, rfl⟩ := hOwn
    have hEntry := h.entries a' u'
    obtain ⟨callers, hCallers, hCard⟩ := hEntry.counted arc hArc
    have hWas : decide (i ∈ callers) = (σ.progress i).refers := by
      rw [Bool.eq_iff_iff, decide_eq_true_iff, hCallers, Progress.refers_iff]
      refine ⟨fun ⟨stage, hi⟩ => ⟨_, _, _, _, hi⟩, ?_⟩
      rintro ⟨b, v, arc', stage, hi⟩
      obtain ⟨rfl, rfl⟩ := hBefore b v (hi ▸ ⟨rfl, rfl⟩)
      exact ⟨stage, Option.some.inj (hArc.symm.trans (hEntry.mapped i arc' stage hi)) ▸ hi⟩
    have hNow : (∃ stage, p = .inside a' u' arc stage) ↔ p.refers = true := by
      rw [Progress.refers_iff]
      refine ⟨fun ⟨stage, hp⟩ => ⟨_, _, _, _, hp⟩, ?_⟩
      rintro ⟨b, v, arc', stage, hp⟩
      obtain ⟨rfl, rfl⟩ := (hAfter b v).mp (hp ▸ ⟨rfl, rfl⟩)
      exact ⟨stage, hMutex arc' stage hp ▸ hp⟩
    refine ⟨fun j b t hj => ?_, fun b hb => ?_, fun b hb j => ?_⟩
    · rw [progress_setProgress] at hj
      split at hj
      · rw [hMutex b t hj]
        exact hArc
      · exact hEntry.mapped j b t hj
    · cases hArc.symm.trans hb
      refine ⟨if p.refers then insert i callers else callers.erase i, fun j => ?_, ?_⟩
      · rw [mem_referring, progress_setProgress]
        split
        · exact hNow.symm
        · exact hCallers j
      · change ((σ.setMutex arc m).mutexes arc).strongCount = _
        have hReferring := card_referring callers i p.refers
        rw [hCard, ← hWas] at hCount
        rw [mutexes_setMutex, if_pos rfl]
        omega
    · cases hArc.symm.trans hb
      change ((σ.setMutex arc m).mutexes arc).holder = some j ↔ _
      rw [mutexes_setMutex, if_pos rfl, progress_setProgress]
      split
      · rename_i hEq
        rw [hEq, hHolder]
        constructor
        · intro hGuards
          obtain ⟨stage, hp⟩ := hNow.mpr (Progress.refers_of_guards hGuards)
          rw [hp] at hGuards
          exact ⟨stage, hp, hGuards⟩
        · rintro ⟨stage, hp, hGuard⟩
          rw [hp]
          exact hGuard
      · rename_i hNe
        rw [hOthers j hNe]
        exact hEntry.holder arc hArc j
  -- the entries of the other users do not see the step
  · refine (h.entries a' u').frame rfl (fun b hb => ?_) fun j b stage => ?_
    · change (σ.setMutex arc m).mutexes b = _
      rw [mutexes_setMutex, if_neg]
      rintro rfl
      exact hOwn (h.apart a' u' a u b hb hArc)
    · rw [progress_setProgress]
      split
      · rename_i hEq
        rw [hEq]
        exact iff_of_false (fun hp => hOwn ((hAfter a' u').mp (.of_inside hp)))
          fun hi => hOwn (hBefore a' u' (.of_inside hi))
      · rfl

theorem concerns_inside {stage : Stage} (a' u' : String) :
    (Progress.inside a u arc stage).Concerns a' u' ↔ a' = a ∧ u' = u := by
  rw [Progress.Concerns, eq_comm, @eq_comm _ u]

theorem concerns_dropped (a' u' : String) :
    (Progress.dropped a u).Concerns a' u' ↔ a' = a ∧ u' = u := by
  rw [Progress.Concerns, eq_comm, @eq_comm _ u]

section

variable (h : Invariant σ)

include h

theorem Invariant.advance {stage stage' : Stage} {m : UserMutex ι}
    (hi : σ.progress i = .inside a u arc stage)
    (hCount : m.strongCount = (σ.mutexes arc).strongCount)
    (hHolder : m.holder = some i ↔ stage'.guarded = true)
    (hOthers : ∀ j, j ≠ i → (m.holder = some j ↔ (σ.mutexes arc).holder = some j)) :
    Invariant ((σ.setMutex arc m).setProgress i (.inside a u arc stage')) := by
  refine h.toSound.move (fun a' u' b hb _ => h.inUse a' u' b hb)
    ((h.entries a u).mapped i arc stage hi) (fun a' u' hc => ?_) concerns_inside
    (fun b t hp => ?_) ?_ hHolder hOthers
  · rw [hi] at hc
    exact (concerns_inside a' u').mp hc
  · cases hp
    rfl
  · rw [hi, hCount]
    rfl

omit [DecidableEq ι] in
theorem Invariant.held {stage : Stage} (hi : σ.progress i = .inside a u arc stage)
    (hGuarded : stage.guarded = true) : (σ.mutexes arc).holder = some i :=
  ((h.entries a u).holder arc ((h.entries a u).mapped i arc _ hi) i).mpr ⟨_, hi, hGuarded⟩

theorem Invariant.proceed {stage stage' : Stage} (hi : σ.progress i = .inside a u arc stage)
    (hGuarded : stage.guarded = true) (hStays : stage'.guarded = true) :
    Invariant (σ.setProgress i (.inside a u arc stage')) := by
  have hNext : Invariant ((σ.setMutex arc (σ.mutexes arc)).setProgress i
      (.inside a u arc stage')) :=
    h.advance hi rfl (iff_of_true (h.held hi hGuarded) hStays) fun _ _ => Iff.rfl
  rwa [State.setMutex, update_eq_self] at hNext

theorem Invariant.lock (hi : σ.progress i = .inside a u arc .cloned)
    (hFree : (σ.mutexes arc).holder = none) :
    Invariant ((σ.setMutex arc ⟨(σ.mutexes arc).strongCount, some i⟩).setProgress i
      (.inside a u arc .locked)) := by
  refine h.advance hi rfl (iff_of_true rfl rfl) fun j hj => ?_
  rw [hFree]
  exact iff_of_false (fun hEq => hj (Option.some.inj hEq).symm) (some_ne_none j).symm

theorem Invariant.unlock (hi : σ.progress i = .inside a u arc .returned) :
    Invariant ((σ.setMutex arc ⟨(σ.mutexes arc).strongCount, none⟩).setProgress i
      (.inside a u arc .unlocked)) := by
  refine h.advance hi rfl (iff_of_false (some_ne_none i).symm Bool.false_ne_true)
    fun j hj => ?_
  rw [h.held hi rfl]
  exact iff_of_false (some_ne_none j).symm fun hEq => hj (Option.some.inj hEq).symm

theorem Invariant.dropClone (hi : σ.progress i = .inside a u arc .unlocked) :
    Invariant ((σ.setMutex arc ⟨(σ.mutexes arc).strongCount - 1,
      (σ.mutexes arc).holder⟩).setProgress i (.dropped a u)) := by
  have hArc := (h.entries a u).mapped i arc _ hi
  refine h.toSound.move (fun a' u' b hb _ => h.inUse a' u' b hb) hArc (fun a' u' hc => ?_)
    concerns_dropped (fun b t hp => ?_) ?_ (iff_of_false (fun hHeld => ?_) Bool.false_ne_true)
    fun _ _ => Iff.rfl
  · rw [hi] at hc
    exact (concerns_inside a' u').mp hc
  · cases hp
  · obtain ⟨callers, -, hCard⟩ := (h.entries a u).counted arc hArc
    rw [hi, hCard]
    rfl
  · obtain ⟨stage, hp, hGuard⟩ := ((h.entries a u).holder arc hArc i).mp hHeld
    rw [hi] at hp
    cases hp
    cases hGuard

omit [DecidableEq ι] in
theorem Invariant.orDefault (a u : String) :
    Sound (orDefault σ a u).2 ∧ (∀ j, (orDefault σ a u).2.progress j = σ.progress j) ∧
      (orDefault σ a u).2.lockOf a u = some (orDefault σ a u).1 ∧
      ∀ a' u', ¬ (a' = a ∧ u' = u) → (orDefault σ a u).2.lockOf a' u' = σ.lockOf a' u' := by
  rw [UserLocks.orDefault]
  cases hLock : σ.lockOf a u with
  | some arc => exact ⟨h.toSound, fun _ => rfl, hLock, fun _ _ _ => rfl⟩
  | none =>
    dsimp only
    have hOwn : (σ.setLock a ((σ.userLocks a).insert u σ.fresh)).lockOf a u = some σ.fresh := by
      rw [lockOf_setLock, if_pos rfl, AList.lookup_insert]
    have hOther (a' u' : String) (hNe : ¬ (a' = a ∧ u' = u)) :
        (σ.setLock a ((σ.userLocks a).insert u σ.fresh)).lockOf a' u' = σ.lockOf a' u' := by
      rw [lockOf_setLock]
      split
      · rename_i ha
        rw [ha, AList.lookup_insert_ne fun hu => hNe ⟨ha, hu⟩, State.lockOf]
      · rfl
    refine ⟨⟨fun a' u' => ?_, fun a' u' b hb => ?_, fun a' u' a'' u'' b hb hb' => ?_⟩,
      fun _ => rfl, hOwn, hOther⟩
    · by_cases hKey : a' = a ∧ u' = u
      · obtain ⟨rfl, rfl⟩ := hKey
        have hAlone (j : ι) (b : Nat) (stage : Stage) : σ.progress j ≠ .inside a' u' b stage := by
          intro hj
          cases hLock.symm.trans ((h.entries a' u').mapped j b stage hj)
        refine ⟨fun j b stage hj => absurd hj (hAlone j b stage), fun b hb => ⟨∅, fun j => ?_, ?_⟩,
          fun b hb j => ?_⟩
        · refine iff_of_false (notMem_empty j) ?_
          rintro ⟨stage, hj⟩
          exact hAlone j b stage hj
        · cases hOwn.symm.trans hb
          change ((State.setMutex _ σ.fresh _).mutexes σ.fresh).strongCount = _
          rw [mutexes_setMutex, if_pos rfl, card_empty]
        · cases hOwn.symm.trans hb
          change ((State.setMutex _ σ.fresh _).mutexes σ.fresh).holder = some j ↔ _
          rw [mutexes_setMutex, if_pos rfl]
          refine iff_of_false (some_ne_none j).symm ?_
          rintro ⟨stage, hj, -⟩
          exact hAlone j _ stage hj
      · refine (h.entries a' u').frame (hOther a' u' hKey) (fun b hb => ?_)
          fun _ _ _ => Iff.rfl
        change (State.setMutex _ σ.fresh _).mutexes b = _
        rw [mutexes_setMutex, if_neg (Nat.ne_of_lt (h.allocated a' u' b hb))]
        rfl
    · by_cases hKey : a' = a ∧ u' = u
      · obtain ⟨rfl, rfl⟩ := hKey
        cases hOwn.symm.trans hb
        exact Nat.lt_succ_self _
      · exact Nat.lt_succ_of_lt (h.allocated a' u' b ((hOther a' u' hKey).symm.trans hb))
    · by_cases hKey : a' = a ∧ u' = u <;> by_cases hKey' : a'' = a ∧ u'' = u
      · exact ⟨hKey.1.trans hKey'.1.symm, hKey.2.trans hKey'.2.symm⟩
      · obtain ⟨rfl, rfl⟩ := hKey
        cases hOwn.symm.trans hb
        have hOld := h.allocated a'' u'' _ ((hOther a'' u'' hKey').symm.trans hb')
        exact absurd hOld (Nat.lt_irrefl _)
      · obtain ⟨rfl, rfl⟩ := hKey'
        cases hOwn.symm.trans hb'
        have hOld := h.allocated a' u' _ ((hOther a' u' hKey).symm.trans hb)
        exact absurd hOld (Nat.lt_irrefl _)
      · exact h.apart a' u' a'' u'' b ((hOther a' u' hKey).symm.trans hb)
          ((hOther a'' u'' hKey').symm.trans hb')

theorem Invariant.enter (hi : σ.progress i = .idle) (a u : String) : Invariant (enter σ i a u) := by
  obtain ⟨hSound, hProgress, hArc, hOther⟩ := h.orDefault a u
  have hIdle := (hProgress i).trans hi
  refine hSound.move (fun a' u' b hb hKey => ?_) hArc (fun a' u' hc => ?_) concerns_inside
    (fun b t hp => ?_) ?_ (iff_of_false (fun hHeld => ?_) Bool.false_ne_true) fun _ _ => Iff.rfl
  · obtain ⟨j, hj⟩ := h.inUse a' u' b ((hOther a' u' hKey).symm.trans hb)
    exact ⟨j, (hProgress j).symm ▸ hj⟩
  · rw [hIdle] at hc
    cases hc
  · cases hp
    rfl
  · rw [hIdle]
    rfl
  · obtain ⟨stage, hp, -⟩ := ((hSound.entries a u).holder _ hArc i).mp hHeld
    rw [hIdle] at hp
    cases hp

end

omit [DecidableEq ι] in
theorem removeIf_same (σ : State ι) (a u : String) :
    (removeIf σ a u).mutexes = σ.mutexes ∧ (removeIf σ a u).progress = σ.progress ∧
      (removeIf σ a u).fresh = σ.fresh := by
  rw [removeIf]
  split
  · split <;> exact ⟨rfl, rfl, rfl⟩
  · exact ⟨rfl, rfl, rfl⟩

omit [DecidableEq ι] in
theorem lockOf_removeIf (σ : State ι) (a u a' u' : String) : (removeIf σ a u).lockOf a' u' =
      if a' = a ∧ u' = u then (σ.lockOf a u).filter fun arc => (σ.mutexes arc).strongCount ≠ 1
      else σ.lockOf a' u' := by
  by_cases hKey : a' = a ∧ u' = u
  · obtain ⟨rfl, rfl⟩ := hKey
    rw [if_pos ⟨rfl, rfl⟩, removeIf]
    cases hLock : σ.lockOf a' u' with
    | none => exact hLock
    | some arc =>
      dsimp only
      rw [filter_some]
      split
      · rename_i hOne
        rw [lockOf_setLock, if_pos rfl, AList.lookup_erase]
        simp [hOne]
      · rename_i hMore
        rw [hLock]
        simp [hMore]
  · rw [if_neg hKey, removeIf]
    split
    · split
      · rw [lockOf_setLock]
        split
        · rename_i ha
          rw [ha, AList.lookup_erase_ne fun hu => hKey ⟨ha, hu⟩, State.lockOf]
        · rfl
      · rfl
    · rfl

omit [DecidableEq ι] in
theorem Sound.removeIf (h : Sound σ) (a u : String) :
    (∀ arc, (removeIf σ a u).lockOf a u = some arc → ∃ j stage,
      σ.progress j = .inside a u arc stage) ∧
    ((removeIf σ a u).lockOf a u = none → ∀ j arc stage, σ.progress j ≠ .inside a u arc stage) := by
  rw [lockOf_removeIf, if_pos ⟨rfl, rfl⟩]
  constructor
  · intro arc hArc
    obtain ⟨hLock, hMore⟩ := filter_eq_some_iff.mp hArc
    obtain ⟨callers, hCallers, hCard⟩ := (h.entries a u).counted arc hLock
    have hPos : 0 < callers.card := by
      have hNe := of_decide_eq_true hMore
      omega
    obtain ⟨j, hj⟩ := card_pos.mp hPos
    exact ⟨j, (hCallers j).mp hj⟩
  · intro hNone j arc stage hj
    have hLock := (h.entries a u).mapped j arc stage hj
    obtain ⟨callers, hCallers, hCard⟩ := (h.entries a u).counted arc hLock
    rw [hLock, filter_some] at hNone
    have hPos := card_pos.mpr ⟨j, (hCallers j).mpr ⟨stage, hj⟩⟩
    have hMore : (σ.mutexes arc).strongCount ≠ 1 := by omega
    rw [if_pos (decide_eq_true hMore)] at hNone
    cases hNone

theorem Invariant.remove (h : Invariant σ) (hi : σ.progress i = .dropped a u) :
    Invariant ((removeIf σ a u).setProgress i .idle) := by
  obtain ⟨hMutexes, hProgress, hFresh⟩ := removeIf_same σ a u
  obtain ⟨hStays, hGone⟩ := h.toSound.removeIf a u
  have hInside (j : ι) (a' u' : String) (b : Nat) (stage : Stage) :
      ((removeIf σ a u).setProgress i .idle).progress j = .inside a' u' b stage ↔
        σ.progress j = .inside a' u' b stage := by
    rw [progress_setProgress, hProgress]
    split
    · rename_i hEq
      rw [hEq, hi]
      constructor <;> rintro ⟨⟩
    · rfl
  have hFrom {a' u' : String} {b : Nat} (hb : (removeIf σ a u).lockOf a' u' = some b) :
      σ.lockOf a' u' = some b := by
    rw [lockOf_removeIf] at hb
    split at hb
    · rename_i hKey
      rw [hKey.1, hKey.2]
      exact (filter_eq_some_iff.mp hb).1
    · exact hb
  refine ⟨⟨fun a' u' => ?_, fun a' u' b hb => ?_, fun a' u' a'' u'' b hb hb' =>
    h.apart a' u' a'' u'' b (hFrom hb) (hFrom hb')⟩, fun a' u' b hb => ?_⟩
  · cases hLock : (removeIf σ a u).lockOf a' u' with
    | some b =>
      refine (h.entries a' u').frame (hLock.trans (hFrom hLock).symm) (fun arc _ => ?_)
        fun j arc stage => hInside j a' u' arc stage
      exact congrFun hMutexes arc
    | none =>
      have hNobody (j : ι) (arc : Nat) (stage : Stage) :
          σ.progress j ≠ .inside a' u' arc stage := by
        by_cases hKey : a' = a ∧ u' = u
        · obtain ⟨rfl, rfl⟩ := hKey
          exact hGone hLock j arc stage
        · rw [lockOf_removeIf, if_neg hKey] at hLock
          intro hj
          cases hLock.symm.trans ((h.entries a' u').mapped j arc stage hj)
      refine ⟨fun j arc stage hj => ?_, fun arc hArc => ?_, fun arc hArc => ?_⟩
      · exact absurd ((hInside j a' u' arc stage).mp hj) (hNobody j arc stage)
      · cases hLock.symm.trans hArc
      · cases hLock.symm.trans hArc
  · change b < (removeIf σ a u).fresh
    rw [hFresh]
    exact h.allocated a' u' b (hFrom hb)
  · by_cases hKey : a' = a ∧ u' = u
    · obtain ⟨rfl, rfl⟩ := hKey
      obtain ⟨j, stage, hj⟩ := hStays b hb
      exact ⟨j, .of_inside ((hInside j a' u' b stage).mpr hj)⟩
    · obtain ⟨j, hj⟩ := h.inUse a' u' b (hFrom hb)
      refine ⟨j, ?_⟩
      rw [progress_setProgress, if_neg, hProgress]
      · exact hj
      · rintro rfl
        rw [hi] at hj
        exact hKey ((concerns_dropped a' u').mp hj)

theorem Invariant.step (h : Invariant σ) {label : Label ι} {τ : State ι}
    (hStep : step σ label = some τ) : Invariant τ := by
  cases label with
  | enter i a u =>
    rw [UserLocks.step] at hStep
    split at hStep <;> cases hStep
    rename_i hi
    exact h.enter hi a u
  | lock i =>
    rw [UserLocks.step] at hStep
    split at hStep
    · rename_i hi
      obtain ⟨hFree, hEq⟩ := ite_none_right_eq_some.mp hStep
      cases hEq
      exact h.lock hi hFree
    · cases hStep
  | start i =>
    rw [UserLocks.step] at hStep
    split at hStep <;> cases hStep
    rename_i hi
    exact h.proceed hi rfl rfl
  | finish i =>
    rw [UserLocks.step] at hStep
    split at hStep <;> cases hStep
    rename_i hi
    exact h.proceed hi rfl rfl
  | unlock i =>
    rw [UserLocks.step] at hStep
    split at hStep <;> cases hStep
    rename_i hi
    exact h.unlock hi
  | dropClone i =>
    rw [UserLocks.step] at hStep
    split at hStep <;> cases hStep
    rename_i hi
    exact h.dropClone hi
  | removeIf i =>
    rw [UserLocks.step] at hStep
    split at hStep <;> cases hStep
    rename_i hi
    exact h.remove hi

/-- Every interleaving of any number of callers for any users keeps their closures
apart and leaves no mutex behind. -/
theorem transitions_exclusive (run : List (Label ι)) :
    Always step Exclusive (State.new : State ι) run :=
  (always_of_invariant (fun _ _ _ h hStep => h.step hStep) Invariant.new run).mono
    fun _ h => h.exclusive

end

end Zatat.UserLocks
