import Mathlib.Algebra.GroupWithZero.Nat
import Mathlib.Data.Finset.Card
import Mathlib.Logic.Function.Basic
import Zatat.Core.Application
import Zatat.Lib.Arrivals
import Zatat.Lib.Map
import Zatat.Lib.Run

/-! # The connection quota under concurrent registrations

`register_connection` inserts the connection, counts the map and takes the
connection out again if there are too many. The count adds up the lengths of
the shards, each read at its own moment. Socket ids are generated, so no id is
registered twice; an id may be unregistered at any time.
-/

namespace Zatat.Quota

open Function FiniteMap Transition Arrivals AList List

inductive Registration where
  | absent
  | counting (next sum : Nat)
  | over
  | refused
  | registered
deriving DecidableEq, Repr

structure State where
  connections : KeySet String
  registrations : String → Registration
  unregistered : String → Bool

inductive Label where
  | insert (socketId : String)
  | readShard (socketId : String)
  | finish (socketId : String)
  | rollBack (socketId : String)
  | unregister (socketId : String)

def Label.socketId : Label → String
  | .insert s | .readShard s | .finish s | .rollBack s | .unregister s => s

namespace State

def new : State := ⟨∅, fun _ => .absent, fun _ => false⟩

def setRegistration (σ : State) (socketId : String) (r : Registration) : State :=
  { σ with registrations := update σ.registrations socketId r }

def setConnections (σ : State) (connections : KeySet String) : State :=
  { σ with connections := connections }

/-- The registration returned `Ok` and the socket was not unregistered since it began. -/
def Accepted (σ : State) (socketId : String) : Prop :=
  σ.registrations socketId = .registered ∧ σ.unregistered socketId = false

end State

def Registration.inserted : Registration → Bool
  | .counting _ _ | .over | .registered => true
  | .absent | .refused => false

def Registration.inProgress : Registration → Bool
  | .counting _ _ | .over => true
  | .absent | .refused | .registered => false

section

variable (app : Application) (shards : Nat) (shardOf : String → Nat)

def shardLen (connections : KeySet String) (shard : Nat) : Nat :=
  connections.keys.countP fun s => shardOf s = shard

def step (σ : State) : Label → Option State
  | .insert s =>
    match σ.registrations s with
    | .absent =>
      some ((σ.setConnections (σ.connections.insert s ())).setRegistration s (.counting 0 0))
    | _ => none
  | .readShard s =>
    match σ.registrations s with
    | .counting next sum =>
      if app.maxConnections.isSome ∧ next < shards then
        some (σ.setRegistration s
          (.counting (next + 1) (sum + shardLen shardOf σ.connections next)))
      else none
    | _ => none
  | .finish s =>
    match σ.registrations s with
    | .counting next sum =>
      match app.maxConnections with
      | none => some (σ.setRegistration s .registered)
      | some max =>
        if next < shards then none
        -- the length is cast to 32 bits
        else if sum % 2 ^ 32 > max then some (σ.setRegistration s .over)
        else some (σ.setRegistration s .registered)
    | _ => none
  | .rollBack s =>
    match σ.registrations s with
    | .over => some ((σ.setConnections (σ.connections.erase s)).setRegistration s .refused)
    | _ => none
  | .unregister s =>
    some { σ.setConnections (σ.connections.erase s) with
      unregistered := update σ.unregistered s
        (σ.unregistered s || decide (σ.registrations s ≠ .absent)) }

end

/-- The accepted sockets are in the map and no more than the application may have, and
between registrations the map holds nothing else. -/
structure WithinQuota (app : Application) (σ : State) : Prop where
  bounded : ∀ max, app.maxConnections = some max →
    ∀ sockets : Finset String, (∀ s ∈ sockets, σ.Accepted s) → sockets.card ≤ max
  inMap : ∀ s, σ.Accepted s → s ∈ σ.connections
  nothingElse : (∀ s, (σ.registrations s).inProgress = false) →
    ∀ s, s ∈ σ.connections ↔ σ.Accepted s

/-! ## The invariant -/

/-- A socket that is being counted, or was accepted, has seen at least the sockets that
arrived before it and are still there. -/
structure Invariant (app : Application) (shards : Nat) (shardOf : String → Nat)
    (ids : Finset String) (σ : State) : Prop where
  mapped : ∀ s, s ∈ σ.connections ↔
    (σ.registrations s).inserted = true ∧ σ.unregistered s = false
  fresh : ∀ s, σ.registrations s = .absent → σ.unregistered s = false
  known : ∀ s ∈ σ.connections, s ∈ ids
  counted : ∀ s next sum, σ.registrations s = .counting next sum → next ≤ shards ∧
    sum ≤ (ids.filter fun t => shardOf t < next).card ∧
    (s ∈ σ.connections → (upTo s σ.connections.keys).countP (fun t => shardOf t < next) ≤ sum)
  quota : ∀ s max, app.maxConnections = some max → σ.registrations s = .registered →
    s ∈ σ.connections → (upTo s σ.connections.keys).length ≤ max

section

variable {app : Application} {shards : Nat} {shardOf : String → Nat} {ids : Finset String}
  {σ : State} {connections : KeySet String} {s t : String} {τ : State} {next sum : Nat}

theorem Invariant.new : Invariant app shards shardOf ids State.new where
  mapped s := by
    refine iff_of_false (fun h => ?_) fun h => Bool.false_ne_true h.1
    exact notMem_empty s h
  fresh _ _ := rfl
  known s h := absurd h (notMem_empty s)
  counted _ _ _ h := by cases h
  quota _ _ _ h := by cases h

theorem Invariant.withinQuota (h : Invariant app shards shardOf ids σ) : WithinQuota app σ := by
  have hIn (s : String) (hs : σ.Accepted s) : s ∈ σ.connections :=
    (h.mapped s).mpr ⟨by rw [hs.1]; rfl, hs.2⟩
  refine ⟨fun max hMax sockets hAccepted => ?_, hIn, fun hNone s => ⟨fun hs => ?_, hIn s⟩⟩
  · rcases sockets.eq_empty_or_nonempty with rfl | hNonempty
    · exact Nat.zero_le max
    · obtain ⟨s, hs, hOlder⟩ := exists_newest hNonempty fun t ht =>
        mem_keys.mp (hIn t (hAccepted t ht))
      have hSub : sockets ⊆ (upTo s σ.connections.keys).toFinset := fun t ht =>
        mem_toFinset.mpr (hOlder t ht)
      calc sockets.card ≤ (upTo s σ.connections.keys).toFinset.card := Finset.card_le_card hSub
        _ ≤ (upTo s σ.connections.keys).length := toFinset_card_le _
        _ ≤ max := h.quota s max hMax (hAccepted s hs).1 (hIn s (hAccepted s hs))
  · obtain ⟨hInserted, hStill⟩ := (h.mapped s).mp hs
    refine ⟨?_, hStill⟩
    have hDone := hNone s
    cases hr : σ.registrations s with
    | registered => rfl
    | absent | refused => rw [hr] at hInserted; cases hInserted
    | _ => rw [hr] at hDone; cases hDone

@[simp] theorem registrations_setRegistration (σ : State) (s t : String) (r : Registration) :
    (σ.setRegistration s r).registrations t = if t = s then r else σ.registrations t :=
  update_apply ..

theorem upTo_keys_erase (h : t ∈ connections.erase s) : t ∈ connections ∧
      (upTo t (connections.erase s).keys).Sublist (upTo t connections.keys) := by
  obtain ⟨hNe, hMem⟩ := mem_erase.mp h
  refine ⟨hMem, ?_⟩
  rw [keys_erase]
  exact upTo_erase_sublist (Ne.symm hNe) _

theorem upTo_keys_insert (hNew : s ∉ connections) (hNe : t ≠ s) :
    upTo t (connections.insert s ()).keys = upTo t connections.keys := by
  rw [keys_insert, erase_of_not_mem fun h => hNew (mem_keys.mpr h), upTo_cons_of_ne hNe.symm]

theorem countP_lt_succ_le (f : String → Nat) (k : Nat) (l : List String) :
    l.countP (fun t => f t < k + 1) ≤ l.countP (fun t => f t < k) + l.countP fun t => f t = k := by
  induction l with
  | nil => exact Nat.le_refl 0
  | cons x l ih =>
    simp only [countP_cons, decide_eq_true_eq]
    split_ifs <;> omega

variable (h : Invariant app shards shardOf ids σ)

include h

theorem Invariant.setRegistration {r : Registration} (hBefore : (σ.registrations s).inserted = true)
    (hAfter : r.inserted = true) (hCounted : ∀ next sum, r = .counting next sum → next ≤ shards ∧
      sum ≤ (ids.filter fun t => shardOf t < next).card ∧
      (s ∈ σ.connections → (upTo s σ.connections.keys).countP (fun t => shardOf t < next) ≤ sum))
    (hQuota : ∀ max, app.maxConnections = some max → r = .registered →
      s ∈ σ.connections → (upTo s σ.connections.keys).length ≤ max) :
    Invariant app shards shardOf ids (σ.setRegistration s r) where
  mapped t := by
    rw [registrations_setRegistration]
    split
    · rename_i hEq
      have hMapped := h.mapped s
      rw [hBefore] at hMapped
      rw [hEq, hAfter]
      exact hMapped
    · exact h.mapped t
  fresh t ht := by
    rw [registrations_setRegistration] at ht
    split at ht
    · rw [ht] at hAfter
      cases hAfter
    · exact h.fresh t ht
  known := h.known
  counted t next sum ht := by
    rw [registrations_setRegistration] at ht
    split at ht
    · rename_i hEq
      rw [hEq]
      exact hCounted next sum ht
    · exact h.counted t next sum ht
  quota t max hMax ht := by
    rw [registrations_setRegistration] at ht
    split at ht
    · rename_i hEq
      rw [hEq]
      exact hQuota max hMax ht
    · exact h.quota t max hMax ht

theorem Invariant.insert (hAbsent : σ.registrations s = .absent) (hId : s ∈ ids) :
    Invariant app shards shardOf ids
      ((σ.setConnections (σ.connections.insert s ())).setRegistration s (.counting 0 0)) := by
  have hNew : s ∉ σ.connections := by
    rw [h.mapped, hAbsent]
    exact fun hBoth => Bool.false_ne_true hBoth.1
  refine ⟨fun t => ?_, fun t ht => ?_, fun t ht => ?_, fun t next sum ht => ?_,
    fun t max hMax ht hMem => ?_⟩
  · rw [registrations_setRegistration]
    change t ∈ σ.connections.insert s () ↔ _ ∧ σ.unregistered t = false
    rw [mem_insert]
    split
    · rename_i hEq
      exact iff_of_true (.inl hEq) ⟨rfl, hEq ▸ h.fresh s hAbsent⟩
    · rename_i hNe
      rw [or_iff_right hNe]
      exact h.mapped t
  · rw [registrations_setRegistration] at ht
    split at ht
    · cases ht
    · exact h.fresh t ht
  · rcases mem_insert _ |>.mp ht with rfl | hOld
    · exact hId
    · exact h.known t hOld
  · rw [registrations_setRegistration] at ht
    split at ht
    · cases ht
      exact ⟨Nat.zero_le _, Nat.zero_le _, fun _ => by simp⟩
    · rename_i hNe
      obtain ⟨hNext, hSum, hSeen⟩ := h.counted t next sum ht
      refine ⟨hNext, hSum, fun hMem => ?_⟩
      change (upTo t (σ.connections.insert s ()).keys).countP _ ≤ sum
      rw [upTo_keys_insert hNew hNe]
      exact hSeen ((mem_insert _ |>.mp hMem).resolve_left hNe)
  · rw [registrations_setRegistration] at ht
    split at ht
    · cases ht
    · rename_i hNe
      change (upTo t (σ.connections.insert s ()).keys).length ≤ max
      rw [upTo_keys_insert hNew hNe]
      exact h.quota t max hMax ht ((mem_insert _ |>.mp hMem).resolve_left hNe)

theorem Invariant.erase (hMap : τ.connections = σ.connections.erase s)
    (hOthers : ∀ t, t ≠ s → τ.registrations t = σ.registrations t ∧
      τ.unregistered t = σ.unregistered t)
    (hGone : (τ.registrations s).inserted = false ∨ τ.unregistered s = true)
    (hFresh : τ.registrations s = .absent → τ.unregistered s = false)
    (hCounting : ∀ next sum, τ.registrations s = .counting next sum →
      σ.registrations s = .counting next sum) : Invariant app shards shardOf ids τ := by
  refine ⟨fun t => ?_, fun t ht => ?_, fun t ht => ?_, fun t next sum ht => ?_,
    fun t max hMax ht hMem => ?_⟩
  · rw [hMap, mem_erase]
    by_cases hEq : t = s
    · subst hEq
      refine iff_of_false (fun hBoth => hBoth.1 rfl) fun hBoth => ?_
      rcases hGone with hOut | hUnregistered
      · exact Bool.false_ne_true (hOut.symm.trans hBoth.1)
      · exact Bool.false_ne_true (hBoth.2.symm.trans hUnregistered)
    · rw [and_iff_right hEq, (hOthers t hEq).1, (hOthers t hEq).2]
      exact h.mapped t
  · by_cases hEq : t = s
    · subst hEq
      exact hFresh ht
    · rw [(hOthers t hEq).1] at ht
      rw [(hOthers t hEq).2]
      exact h.fresh t ht
  · rw [hMap] at ht
    exact h.known t (mem_erase.mp ht).2
  · have hOld : σ.registrations t = .counting next sum := by
      by_cases hEq : t = s
      · subst hEq
        exact hCounting next sum ht
      · rw [← (hOthers t hEq).1, ht]
    obtain ⟨hNext, hSum, hSeen⟩ := h.counted t next sum hOld
    refine ⟨hNext, hSum, fun hMem => ?_⟩
    rw [hMap] at hMem ⊢
    obtain ⟨hBefore, hSub⟩ := upTo_keys_erase hMem
    exact (hSub.countP_le).trans (hSeen hBefore)
  · rw [hMap] at hMem ⊢
    obtain ⟨hBefore, hSub⟩ := upTo_keys_erase hMem
    have hNe : t ≠ s := (mem_erase.mp hMem).1
    rw [(hOthers t hNe).1] at ht
    exact hSub.length_le.trans (h.quota t max hMax ht hBefore)

theorem Invariant.readShard (hs : σ.registrations s = .counting next sum) (hNext : next < shards) :
    Invariant app shards shardOf ids (σ.setRegistration s
      (.counting (next + 1) (sum + shardLen shardOf σ.connections next))) := by
  obtain ⟨-, hSum, hSeen⟩ := h.counted s next sum hs
  refine h.setRegistration (by rw [hs]; rfl) rfl (fun k n hr => ?_) fun max _ hr => ?_
  swap
  · cases hr
  cases hr
  refine ⟨hNext, ?_, fun hMem => ?_⟩
  · have hShard : shardLen shardOf σ.connections next ≤
        (ids.filter fun t => shardOf t = next).card := by
      rw [shardLen, countP_eq_length_filter,
        ← toFinset_card_of_nodup (σ.connections.keys_nodup.filter _)]
      refine Finset.card_le_card fun t ht => ?_
      rw [mem_toFinset, mem_filter] at ht
      exact Finset.mem_filter.mpr ⟨h.known t (mem_keys.mpr ht.1), of_decide_eq_true ht.2⟩
    have hSplit : (ids.filter fun t => shardOf t < next + 1) =
        (ids.filter fun t => shardOf t < next) ∪ ids.filter fun t => shardOf t = next := by
      ext t
      simp only [Finset.mem_filter, Finset.mem_union]
      constructor
      · rintro ⟨hId, hLt⟩
        rcases Nat.lt_succ_iff_lt_or_eq.mp hLt with hLess | hEq
        · exact .inl ⟨hId, hLess⟩
        · exact .inr ⟨hId, hEq⟩
      · rintro (⟨hId, hLess⟩ | ⟨hId, hEq⟩)
        · exact ⟨hId, Nat.lt_succ_of_lt hLess⟩
        · exact ⟨hId, hEq ▸ Nat.lt_succ_self _⟩
    rw [hSplit, Finset.card_union_of_disjoint]
    · exact Nat.add_le_add hSum hShard
    · refine Finset.disjoint_filter.mpr fun t _ hLess hEq => ?_
      exact Nat.lt_irrefl next (hEq ▸ hLess)
  · have hOlder : (upTo s σ.connections.keys).countP (fun t => shardOf t = next) ≤
        shardLen shardOf σ.connections next := (upTo_sublist s _).countP_le
    refine le_trans ?_ (Nat.add_le_add (hSeen hMem) hOlder)
    exact countP_lt_succ_le shardOf next _

theorem Invariant.finish (hFew : ids.card < 2 ^ 32) (hShards : ∀ s, shardOf s < shards) {max : Nat}
    (hs : σ.registrations s = .counting next sum) (hMax : app.maxConnections = some max)
    (hNext : ¬ next < shards) (hWithin : ¬ sum % 2 ^ 32 > max) :
    Invariant app shards shardOf ids (σ.setRegistration s .registered) := by
  obtain ⟨hLe, hSum, hSeen⟩ := h.counted s next sum hs
  have hDone : next = shards := Nat.le_antisymm hLe (Nat.not_lt.mp hNext)
  have hSmall : sum < 2 ^ 32 :=
    (hSum.trans (Finset.card_le_card (Finset.filter_subset _ _))).trans_lt hFew
  rw [Nat.mod_eq_of_lt hSmall, Nat.not_lt] at hWithin
  refine h.setRegistration (by rw [hs]; rfl) rfl (fun k n hr => ?_) fun max' hMax' _ hMem => ?_
  · cases hr
  · cases hMax.symm.trans hMax'
    have hAll : (upTo s σ.connections.keys).countP (fun t => shardOf t < next) =
        (upTo s σ.connections.keys).length := by
      rw [countP_eq_length]
      exact fun t _ => decide_eq_true (hDone ▸ hShards t)
    rw [← hAll]
    exact (hSeen hMem).trans hWithin

theorem Invariant.step (hFew : ids.card < 2 ^ 32) (hShards : ∀ s, shardOf s < shards)
    {label : Label} (hId : label.socketId ∈ ids)
    (hStep : step app shards shardOf σ label = some τ) : Invariant app shards shardOf ids τ := by
  cases label with
  | insert s =>
    rw [Quota.step] at hStep
    split at hStep <;> cases hStep
    rename_i hAbsent
    exact h.insert hAbsent hId
  | readShard s =>
    rw [Quota.step] at hStep
    split at hStep
    · rename_i next sum hs
      obtain ⟨hNext, hEq⟩ := Option.ite_none_right_eq_some.mp hStep
      cases hEq
      exact h.readShard hs hNext.2
    · cases hStep
  | finish s =>
    rw [Quota.step] at hStep
    split at hStep
    · rename_i next sum hs
      have hInserted : (σ.registrations s).inserted = true := by rw [hs]; rfl
      split at hStep
      · rename_i hNone
        cases hStep
        refine h.setRegistration hInserted rfl (fun _ _ hr => by cases hr) fun max hMax => ?_
        cases hNone.symm.trans hMax
      · rename_i max hMax
        obtain ⟨hNext, hRest⟩ := Option.ite_none_left_eq_some.mp hStep
        split at hRest
        · cases hRest
          exact h.setRegistration hInserted rfl (fun _ _ hr => by cases hr)
            fun _ _ hr => by cases hr
        · rename_i hWithin
          cases hRest
          exact h.finish hFew hShards hs hMax hNext hWithin
    · cases hStep
  | rollBack s =>
    rw [Quota.step] at hStep
    split at hStep <;> cases hStep
    refine h.erase rfl (fun t hNe => ⟨?_, rfl⟩) (.inl ?_) (fun hr => ?_) fun next sum hr => ?_
    · rw [registrations_setRegistration, if_neg hNe]
      rfl
    · rw [registrations_setRegistration, if_pos rfl]
      rfl
    · rw [registrations_setRegistration, if_pos rfl] at hr
      cases hr
    · rw [registrations_setRegistration, if_pos rfl] at hr
      cases hr
  | unregister s =>
    cases hStep
    have hFlag (b : Bool) : update σ.unregistered s b s = b := update_self ..
    refine h.erase rfl (fun t hNe => ⟨rfl, update_of_ne hNe ..⟩) ?_ (fun hr => ?_)
      fun next sum hr => hr
    · change _ ∨ update σ.unregistered s _ s = true
      rw [hFlag]
      by_cases hAbsent : σ.registrations s = .absent
      · exact .inl (by change (σ.registrations s).inserted = false; rw [hAbsent]; rfl)
      · exact .inr (by simp [hAbsent])
    · change σ.registrations s = .absent at hr
      change update σ.unregistered s _ s = false
      rw [hFlag, h.fresh s hr, hr]
      rfl

end

/-- The quota holds at every moment of every interleaving of registrations and
unregistrations. -/
theorem quota_never_exceeded (app : Application) (shards : Nat) (shardOf : String → Nat)
    (hShards : ∀ s, shardOf s < shards) (ids : Finset String) (hFew : ids.card < 2 ^ 32)
    (run : List Label) (hIds : ∀ label ∈ run, label.socketId ∈ ids) :
    Always (step app shards shardOf) (WithinQuota app) State.new run := by
  have hRun : EachStep (step app shards shardOf) (fun _ label => label.socketId ∈ ids)
      State.new run := .of_forall_mem (fun label hLabel _ => hIds label hLabel) _
  have hInvariant : Always (step app shards shardOf) (Invariant app shards shardOf ids)
      State.new run :=
    always_of_step (fun _ _ _ h hId hStep => h.step hFew hShards hId hStep) Invariant.new hRun
  exact hInvariant.mono fun _ h => h.withinQuota

def smallApp : Application := { exampleApp with maxConnections := some 1 }

theorem quota_never_exceeded_overlapping :
    Always (step smallApp 2 fun s => if s = "1.1" then 0 else 1) (WithinQuota smallApp) State.new
      [.insert "1.1", .readShard "1.1", .insert "2.2", .readShard "2.2", .readShard "2.2",
        .readShard "1.1", .finish "2.2", .rollBack "2.2", .finish "1.1", .rollBack "1.1"] :=
  quota_never_exceeded smallApp 2 (fun s => if s = "1.1" then 0 else 1)
    (fun s => by split <;> decide) {"1.1", "2.2"} (by decide) _ (by decide)

end Zatat.Quota
