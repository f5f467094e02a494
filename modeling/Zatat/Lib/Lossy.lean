import Mathlib.Logic.Function.Basic
import Zatat.Lib.Echo
import Zatat.Lib.Freshness

/-! # Live messages and snapshots over a lossy queue

One writer holds a value for each key. A change of a value is numbered and queued as a
live message before the same key changes again. Beside this a heartbeat takes a number,
reads every key at a moment of its own and queues what it read as one snapshot. The
queue keeps its order; whatever is next in it is handled by the reader or lost.
-/

namespace Lossy

open Freshness Function List

universe u v

variable {κ : Type u} {V : Type v}

inductive Phase (V : Type v) where
  | idle
  | changed (v : V)
  | numbered (n : Nat) (v : V)
deriving DecidableEq

inductive Message (κ : Type u) (V : Type v) where
  | live (k : κ) (n : Nat) (v : V)
  | snapshot (n : Nat) (said : κ → V)
  /-- Anything that is not about these values. -/
  | other

@[ext]
structure State (κ : Type u) (V : Type v) where
  seq : Nat
  value : κ → V
  changed : κ → Option Nat
  live : κ → Phase V
  beat : Option (Nat × (κ → Option V))
  queue : List (Message κ V)
  taken : Nat
  copy : κ → V × Nat

section

variable [DecidableEq κ]

def Receives : Message κ V → (κ → V × Nat) → (κ → V × Nat) → Prop
  | .live k n v, copy, copy' => copy' = update copy k (take (copy k) n v)
  | .snapshot n said, copy, copy' => ∀ k, Handles n (said k) (copy k) (copy' k)
  | .other, copy, copy' => copy' = copy

inductive Step (initial : V) : State κ V → State κ V → Prop where
  | change (s : State κ V) (k : κ) (v : V) (hIdle : s.live k = .idle) :
    Step initial s { s with
      value := update s.value k v
      changed := update s.changed k (some s.seq)
      live := update s.live k (.changed v) }
  | number (s : State κ V) (k : κ) (v : V) (hChanged : s.live k = .changed v) :
    Step initial s { s with
      seq := s.seq + 1
      live := update s.live k (.numbered (s.seq + 1) v) }
  | queue (s : State κ V) (k : κ) (n : Nat) (v : V) (hNumbered : s.live k = .numbered n v) :
    Step initial s { s with
      live := update s.live k .idle
      queue := s.queue ++ [.live k n v] }
  | beatNumber (s : State κ V) (hBeat : s.beat = none) :
    Step initial s { s with seq := s.seq + 1, beat := some (s.seq + 1, fun _ => none) }
  | beatRead (s : State κ V) (k : κ) (n : Nat) (seen : κ → Option V)
      (hBeat : s.beat = some (n, seen)) (hUnread : seen k = none) :
    Step initial s { s with beat := some (n, update seen k (some (s.value k))) }
  | beatQueue (s : State κ V) (n : Nat) (seen : κ → Option V) (hBeat : s.beat = some (n, seen))
      (hRead : ∀ k, seen k = none → s.value k = initial) :
    Step initial s { s with
      beat := none
      queue := s.queue ++ [.snapshot n fun k => (seen k).getD initial] }
  /-- Numbers are taken for something else. -/
  | skip (s : State κ V) (k : Nat) : Step initial s { s with seq := s.seq + k }
  | other (s : State κ V) (k : Nat) :
    Step initial s { s with seq := s.seq + k, queue := s.queue ++ [.other] }
  | deliver (s : State κ V) (m : Message κ V) (copy' : κ → V × Nat)
      (hNext : s.queue[s.taken]? = some m) (hReceives : Receives m s.copy copy') :
    Step initial s { s with taken := s.taken + 1, copy := copy' }

theorem Step.congr {initial : V} {s s' t : State κ V} (h : Step initial s t) (hEq : s' = t) :
    Step initial s s' := hEq ▸ h

end

def Lose (s s' : State κ V) : Prop :=
  s.taken < s.queue.length ∧ s' = { s with taken := s.taken + 1 }

/-! ## What is said is current -/

def Says : Message κ V → κ → Nat → V → Prop
  | .live k' n' v', k, n, v => k' = k ∧ n' = n ∧ v' = v
  | .snapshot n' said, k, n, v => n' = n ∧ said k = v
  | .other, _, _, _ => False

inductive Said (s : State κ V) (k : κ) (n : Nat) (v : V) : Prop where
  | numbered (h : s.live k = .numbered n v)
  | seen (seen : κ → Option V) (hBeat : s.beat = some (n, seen)) (h : seen k = some v)
  | queued (m : Message κ V) (hMem : m ∈ s.queue) (h : Says m k n v)

structure Inv (initial : V) (s : State κ V) : Prop where
  beat_le : ∀ n seen, s.beat = some (n, seen) → n ≤ s.seq
  said_le : ∀ k n v, Said s k n v → n ≤ s.seq
  changed_eq : ∀ k v, s.live k = .changed v → v = s.value k
  sound : ∀ k, Sound initial s.seq (s.changed k) (s.value k) (Said s k) (s.copy k)

variable {initial : V} {s s' : State κ V}

theorem Inv.say (h : Inv initial s) (hSeq : s.seq ≤ s'.seq) (hValue : s'.value = s.value)
    (hChanged : s'.changed = s.changed) (hCopy : s'.copy = s.copy)
    (hBeat : ∀ n seen, s'.beat = some (n, seen) → n ≤ s'.seq)
    (hPending : ∀ k v, s'.live k = .changed v → s.live k = .changed v)
    (hKept : ∀ k n v, Said s k n v → Said s' k n v)
    (hNew : ∀ k n v, Said s' k n v → Said s k n v ∨ n ≤ s'.seq ∧ v = s.value k) :
    Inv initial s' where
  beat_le := hBeat
  said_le k n v hSaid :=
    (hNew k n v hSaid).elim (fun hOld => Nat.le_trans (h.said_le k n v hOld) hSeq) And.left
  changed_eq k v hLive := by
    rw [hValue]
    exact h.changed_eq k v (hPending k v hLive)
  sound k := by
    rw [hValue, hChanged, hCopy]
    exact (h.sound k).say hSeq (hKept k) fun n v hSaid => (hNew k n v hSaid).imp_right And.right

/-! ## Each step -/

theorem said_congr {k : κ} {n : Nat} {v : V}
    (hLive : s'.live k = .numbered n v ↔ s.live k = .numbered n v) (hBeat : s'.beat = s.beat)
    (hQueue : s'.queue = s.queue) : Said s' k n v ↔ Said s k n v := by
  constructor
  · rintro (h | ⟨seen, h, hSeen⟩ | ⟨m, h, hSays⟩)
    · exact .numbered (hLive.mp h)
    · exact .seen seen (hBeat ▸ h) hSeen
    · exact .queued m (hQueue ▸ h) hSays
  · rintro (h | ⟨seen, h, hSeen⟩ | ⟨m, h, hSays⟩)
    · exact .numbered (hLive.mpr h)
    · exact .seen seen (hBeat ▸ h) hSeen
    · exact .queued m (hQueue ▸ h) hSays

theorem Inv.beatNumber (h : Inv initial s) (hBeat : s.beat = none) :
    Inv initial { s with seq := s.seq + 1, beat := some (s.seq + 1, fun _ => none) } := by
  refine h.say (Nat.le_succ _) rfl rfl rfl ?_ (fun _ _ => id) ?_ ?_
  · intro n seen hNow
    cases hNow
    exact Nat.le_refl _
  · rintro k n v (hLive | ⟨seen, hOld, -⟩ | ⟨m, hMem, hSays⟩)
    · exact .numbered hLive
    · rw [hBeat] at hOld
      cases hOld
    · exact .queued m hMem hSays
  · rintro k n v (hLive | ⟨seen, hNow, hSeen⟩ | ⟨m, hMem, hSays⟩)
    · exact .inl (.numbered hLive)
    · cases hNow
      cases hSeen
    · exact .inl (.queued m hMem hSays)

theorem Inv.beatQueue (h : Inv initial s) {n : Nat} {seen : κ → Option V}
    (hBeat : s.beat = some (n, seen)) (hRead : ∀ k, seen k = none → s.value k = initial) :
    Inv initial { s with
      beat := none
      queue := s.queue ++ [.snapshot n fun k => (seen k).getD initial] } := by
  refine h.say (Nat.le_refl _) rfl rfl rfl nofun (fun _ _ => id) ?_ ?_
  · rintro k n' v (hLive | ⟨seen', hOld, hSeen⟩ | ⟨m, hMem, hSays⟩)
    · exact .numbered hLive
    · rw [hBeat] at hOld
      cases hOld
      refine .queued _ (mem_append_right _ (mem_singleton_self _)) ⟨rfl, ?_⟩
      exact congrArg (Option.getD · initial) hSeen
    · exact .queued m (mem_append_left _ hMem) hSays
  · rintro k n' v (hLive | ⟨seen', hNow, hSeen⟩ | ⟨m, hMem, hSays⟩)
    · exact .inl (.numbered hLive)
    · cases hNow
    · rcases mem_append.mp hMem with hOld | hLast
      · exact .inl (.queued m hOld hSays)
      · rw [mem_singleton.mp hLast] at hSays
        obtain ⟨rfl, hValue⟩ := hSays
        dsimp only at hValue
        cases hSeen : seen k with
        | none =>
          rw [hSeen, Option.getD_none] at hValue
          exact .inr ⟨h.beat_le _ _ hBeat, hValue.symm.trans (hRead k hSeen).symm⟩
        | some w =>
          rw [hSeen, Option.getD_some] at hValue
          exact .inl (.seen seen hBeat (hSeen.trans (congrArg some hValue)))

theorem Inv.skip (h : Inv initial s) (m : Nat) : Inv initial { s with seq := s.seq + m } := by
  have hSaid (k : κ) (n : Nat) (v : V) :
      Said { s with seq := s.seq + m } k n v ↔ Said s k n v := said_congr Iff.rfl rfl rfl
  exact h.say (Nat.le_add_right ..) rfl rfl rfl
    (fun n seen hBeat => Nat.le_add_right_of_le (h.beat_le n seen hBeat)) (fun _ _ => id)
    (fun k n v => (hSaid k n v).mpr) (fun k n v hNow => .inl ((hSaid k n v).mp hNow))

theorem Inv.other (h : Inv initial s) (m : Nat) :
    Inv initial { s with seq := s.seq + m, queue := s.queue ++ [.other] } := by
  refine h.say (Nat.le_add_right ..) rfl rfl rfl
    (fun n seen hBeat => Nat.le_add_right_of_le (h.beat_le n seen hBeat)) (fun _ _ => id) ?_ ?_
  · rintro k n v (hLive | ⟨seen, hBeat, hSeen⟩ | ⟨m, hMem, hSays⟩)
    · exact .numbered hLive
    · exact .seen seen hBeat hSeen
    · exact .queued m (mem_append_left _ hMem) hSays
  · rintro k n v (hLive | ⟨seen, hBeat, hSeen⟩ | ⟨m, hMem, hSays⟩)
    · exact .inl (.numbered hLive)
    · exact .inl (.seen seen hBeat hSeen)
    · rcases mem_append.mp hMem with hOld | hLast
      · exact .inl (.queued m hOld hSays)
      · rw [mem_singleton.mp hLast] at hSays
        exact hSays.elim

theorem Inv.lose (h : Inv initial s) (hLose : Lose s s') : Inv initial s' := by
  obtain ⟨-, rfl⟩ := hLose
  have hSaid (k : κ) (n : Nat) (v : V) :
      Said { s with taken := s.taken + 1 } k n v ↔ Said s k n v := said_congr Iff.rfl rfl rfl
  exact h.say (Nat.le_refl _) rfl rfl rfl h.beat_le (fun _ _ => id)
    (fun k n v => (hSaid k n v).mpr) (fun k n v hNow => .inl ((hSaid k n v).mp hNow))

section

variable [DecidableEq κ] {m : Message κ V} {copy copy' : κ → V × Nat} {k : κ} {v : V} {n : Nat}

theorem Receives.handles (h : Receives m copy copy') (k : κ) :
    copy' k = copy k ∨ ∃ n v, Says m k n v ∧ Handles n v (copy k) (copy' k) := by
  cases m with
  | live k' n v =>
    rw [show copy' = _ from h]
    by_cases hk : k = k'
    · subst hk
      rw [update_self]
      exact .inr ⟨n, v, ⟨rfl, rfl, rfl⟩, handles_take ..⟩
    · exact .inl (update_of_ne hk ..)
  | snapshot n said => exact .inr ⟨n, said k, ⟨rfl, rfl⟩, h k⟩
  | other => exact .inl (congrFun h k)

theorem Receives.mark_le (h : Receives m copy copy') (k : κ) : (copy k).2 ≤ (copy' k).2 := by
  rcases h.handles k with hSame | ⟨n, v, -, hHandles⟩
  · exact Nat.le_of_eq (congrArg Prod.snd hSame.symm)
  · exact hHandles.mark_le

theorem update_eq {β : Type v} {f : κ → β} {a b : β} {k' : κ} (h : update f k a k' = b) :
    k' = k ∧ a = b ∨ k' ≠ k ∧ f k' = b := by
  by_cases hk : k' = k
  · rw [hk, update_self] at h
    exact .inl ⟨hk, h⟩
  · rw [update_of_ne hk] at h
    exact .inr ⟨hk, h⟩

variable (h : Inv initial s)

include h

theorem Inv.change (v : V) (hIdle : s.live k = .idle) :
    Inv initial { s with
      value := update s.value k v
      changed := update s.changed k (some s.seq)
      live := update s.live k (.changed v) } := by
  have hSaid (k' : κ) (n : Nat) (w : V) : Said { s with
      value := update s.value k v
      changed := update s.changed k (some s.seq)
      live := update s.live k (.changed v) } k' n w ↔ Said s k' n w := by
    refine said_congr ?_ rfl rfl
    by_cases hk : k' = k
    · subst hk
      dsimp only
      rw [update_self, hIdle]
      exact ⟨nofun, nofun⟩
    · dsimp only
      rw [update_of_ne hk]
  refine ⟨h.beat_le, fun k' n w hNow => h.said_le k' n w ((hSaid k' n w).mp hNow), ?_, ?_⟩
  · intro k' w hLive
    obtain ⟨rfl, ⟨⟩⟩ | ⟨hk, hOld⟩ := update_eq hLive
    · dsimp only
      rw [update_self]
    · exact (h.changed_eq k' w hOld).trans (update_of_ne hk ..).symm
  · intro k'
    have hSound : Sound initial s.seq (update s.changed k (some s.seq) k') (update s.value k v k')
        (Said s k') (s.copy k') := by
      by_cases hk : k' = k
      · subst hk
        rw [update_self, update_self]
        exact (h.sound k').mutate (h.said_le k') v
      · rw [update_of_ne hk, update_of_ne hk]
        exact h.sound k'
    exact hSound.say (Nat.le_refl _) (fun n w => (hSaid k' n w).mpr)
      fun n w hNow => .inl ((hSaid k' n w).mp hNow)

theorem Inv.number (hChanged : s.live k = .changed v) :
    Inv initial { s with
      seq := s.seq + 1
      live := update s.live k (.numbered (s.seq + 1) v) } := by
  refine h.say (Nat.le_succ _) rfl rfl rfl
    (fun n seen hBeat => Nat.le_succ_of_le (h.beat_le n seen hBeat)) ?_ ?_ ?_
  · intro k' w hLive
    obtain ⟨-, ⟨⟩⟩ | ⟨-, hOld⟩ := update_eq hLive
    exact hOld
  · rintro k' n w (hLive | ⟨seen, hBeat, hSeen⟩ | ⟨m, hMem, hSays⟩)
    · have hk : k' ≠ k := by
        rintro rfl
        rw [hChanged] at hLive
        cases hLive
      exact .numbered ((update_of_ne hk ..).trans hLive)
    · exact .seen seen hBeat hSeen
    · exact .queued m hMem hSays
  · rintro k' n w (hLive | ⟨seen, hBeat, hSeen⟩ | ⟨m, hMem, hSays⟩)
    · obtain ⟨rfl, ⟨⟩⟩ | ⟨-, hOld⟩ := update_eq hLive
      · exact .inr ⟨Nat.le_refl _, h.changed_eq _ _ hChanged⟩
      · exact .inl (.numbered hOld)
    · exact .inl (.seen seen hBeat hSeen)
    · exact .inl (.queued m hMem hSays)

theorem Inv.queue (hNumbered : s.live k = .numbered n v) :
    Inv initial { s with
      live := update s.live k .idle
      queue := s.queue ++ [.live k n v] } := by
  refine h.say (Nat.le_refl _) rfl rfl rfl h.beat_le ?_ ?_ ?_
  · intro k' w hLive
    obtain ⟨-, ⟨⟩⟩ | ⟨-, hOld⟩ := update_eq hLive
    exact hOld
  · rintro k' n' w (hLive | ⟨seen, hBeat, hSeen⟩ | ⟨m, hMem, hSays⟩)
    · by_cases hk : k' = k
      · subst hk
        rw [hNumbered] at hLive
        cases hLive
        exact .queued _ (mem_append_right _ (mem_singleton_self _)) ⟨rfl, rfl, rfl⟩
      · exact .numbered ((update_of_ne hk ..).trans hLive)
    · exact .seen seen hBeat hSeen
    · exact .queued m (mem_append_left _ hMem) hSays
  · rintro k' n' w (hLive | ⟨seen, hBeat, hSeen⟩ | ⟨m, hMem, hSays⟩)
    · obtain ⟨-, ⟨⟩⟩ | ⟨-, hOld⟩ := update_eq hLive
      exact .inl (.numbered hOld)
    · exact .inl (.seen seen hBeat hSeen)
    · rcases mem_append.mp hMem with hOld | hLast
      · exact .inl (.queued m hOld hSays)
      · rw [mem_singleton.mp hLast] at hSays
        obtain ⟨rfl, rfl, rfl⟩ := hSays
        exact .inl (.numbered hNumbered)

theorem Inv.beatRead {seen : κ → Option V} (hBeat : s.beat = some (n, seen))
    (hUnread : seen k = none) :
    Inv initial { s with beat := some (n, update seen k (some (s.value k))) } := by
  refine h.say (Nat.le_refl _) rfl rfl rfl ?_ (fun _ _ => id) ?_ ?_
  · intro n' seen' hNow
    cases hNow
    exact h.beat_le n seen hBeat
  · rintro k' n' v (hLive | ⟨seen', hOld, hSeen⟩ | ⟨m, hMem, hSays⟩)
    · exact .numbered hLive
    · rw [hBeat] at hOld
      cases hOld
      have hk : k' ≠ k := by
        rintro rfl
        rw [hUnread] at hSeen
        cases hSeen
      exact .seen _ rfl ((update_of_ne hk ..).trans hSeen)
    · exact .queued m hMem hSays
  · rintro k' n' v (hLive | ⟨seen', hNow, hSeen⟩ | ⟨m, hMem, hSays⟩)
    · exact .inl (.numbered hLive)
    · cases hNow
      obtain ⟨rfl, ⟨⟩⟩ | ⟨-, hOld⟩ := update_eq hSeen
      · exact .inr ⟨h.beat_le _ _ hBeat, rfl⟩
      · exact .inl (.seen seen hBeat hOld)
    · exact .inl (.queued m hMem hSays)

theorem Inv.deliver (hNext : s.queue[s.taken]? = some m) (hReceives : Receives m s.copy copy') :
    Inv initial { s with taken := s.taken + 1, copy := copy' } := by
  have hSaid (k : κ) (n : Nat) (v : V) :
      Said { s with taken := s.taken + 1, copy := copy' } k n v ↔ Said s k n v :=
    said_congr Iff.rfl rfl rfl
  refine ⟨h.beat_le, fun k n v hNow => h.said_le k n v ((hSaid k n v).mp hNow), h.changed_eq, ?_⟩
  intro k
  have hSound : Sound initial s.seq (s.changed k) (s.value k) (Said s k) (copy' k) := by
    rcases hReceives.handles k with hSame | ⟨n, v, hSays, hHandles⟩
    · rw [hSame]
      exact h.sound k
    · exact (h.sound k).handle (.queued m (mem_of_getElem? hNext) hSays) hHandles
  exact hSound.say (Nat.le_refl _) (fun n v => (hSaid k n v).mpr)
    fun n v hNow => .inl ((hSaid k n v).mp hNow)

theorem Inv.step (hStep : Step initial s s') : Inv initial s' := by
  cases hStep with
  | change k v hIdle => exact h.change v hIdle
  | number k v hChanged => exact h.number hChanged
  | queue k n v hNumbered => exact h.queue hNumbered
  | beatNumber hBeat => exact h.beatNumber hBeat
  | beatRead k n seen hBeat hUnread => exact h.beatRead hBeat hUnread
  | beatQueue n seen hBeat hRead => exact h.beatQueue hBeat hRead
  | skip k => exact h.skip k
  | other k => exact h.other k
  | deliver m copy' hNext hReceives => exact h.deliver hNext hReceives

theorem Inv.eq_of_snapshot {said : κ → V} (hNext : s.queue[s.taken]? = some (.snapshot n said))
    (hReceives : Receives (.snapshot n said) s.copy copy') (hAfter : After (s.changed k) n) :
    (copy' k).1 = s.value k :=
  (h.sound k).eq_of_handles (.queued _ (mem_of_getElem? hNext) ⟨rfl, rfl⟩) hAfter (hReceives k)

end

/-! ## The order of the queue -/

/-- What is queued behind a snapshot that is newer than a change is newer than it, too. -/
def Precedes (changed : κ → Option Nat) (m m' : Message κ V) : Prop :=
  ∀ n said, m = .snapshot n said → ∀ k n' v, Says m' k n' v → After (changed k) n →
    After (changed k) n'

structure Ordered (s : State κ V) : Prop where
  numbered : ∀ k n v, s.live k = .numbered n v → After (s.changed k) n
  snapshot_le : ∀ n said, .snapshot n said ∈ s.queue → n ≤ s.seq
  snapshot_lt : ∀ n said, .snapshot n said ∈ s.queue →
    ∀ n' seen, s.beat = some (n', seen) → n < n'
  ordered : s.queue.Pairwise (Precedes s.changed)

theorem Ordered.keep (h : Ordered s) (hQueue : s'.queue = s.queue)
    (hChanged : s'.changed = s.changed) (hSeq : s.seq ≤ s'.seq)
    (hNumbered : ∀ k n v, s'.live k = .numbered n v → After (s.changed k) n)
    (hBeat : ∀ n seen, s'.beat = some (n, seen) →
      (∃ seen', s.beat = some (n, seen')) ∨ s.seq < n) : Ordered s' where
  numbered k n v hLive := by
    rw [hChanged]
    exact hNumbered k n v hLive
  snapshot_le n said hMem := by
    rw [hQueue] at hMem
    exact Nat.le_trans (h.snapshot_le n said hMem) hSeq
  snapshot_lt n said hMem n' seen hNow := by
    rw [hQueue] at hMem
    rcases hBeat n' seen hNow with ⟨seen', hOld⟩ | hLt
    · exact h.snapshot_lt n said hMem n' seen' hOld
    · exact Nat.lt_of_le_of_lt (h.snapshot_le n said hMem) hLt
  ordered := by
    rw [hQueue, hChanged]
    exact h.ordered

theorem Ordered.append (h : Ordered s) {m : Message κ V} (hQueue : s'.queue = s.queue ++ [m])
    (hChanged : s'.changed = s.changed) (hSeq : s.seq ≤ s'.seq)
    (hNumbered : ∀ k n v, s'.live k = .numbered n v → s.live k = .numbered n v)
    (hBeat : ∀ n seen, s'.beat = some (n, seen) → s.beat = some (n, seen))
    (hNewer : ∀ n said, .snapshot n said ∈ s.queue → ∀ k n' v, Says m k n' v →
      After (s.changed k) n → After (s.changed k) n')
    (hSnapshot : ∀ n said, m = .snapshot n said → n ≤ s.seq ∧ s'.beat = none) : Ordered s' where
  numbered k n v hLive := by
    rw [hChanged]
    exact h.numbered k n v (hNumbered k n v hLive)
  snapshot_le n said hMem := by
    rw [hQueue, mem_append, mem_singleton] at hMem
    refine Nat.le_trans ?_ hSeq
    exact hMem.elim (h.snapshot_le n said) fun hLast => (hSnapshot n said hLast.symm).1
  snapshot_lt n said hMem n' seen hNow := by
    rw [hQueue, mem_append, mem_singleton] at hMem
    rcases hMem with hOld | hLast
    · exact h.snapshot_lt n said hOld n' seen (hBeat n' seen hNow)
    · rw [(hSnapshot n said hLast.symm).2] at hNow
      cases hNow
  ordered := by
    rw [hQueue, hChanged, pairwise_append]
    refine ⟨h.ordered, pairwise_singleton .., ?_⟩
    rintro m₀ hMem m' hLast n said rfl k n' v hSays
    rw [mem_singleton.mp hLast] at hSays
    exact hNewer n said hMem k n' v hSays

theorem Ordered.beatQueue (hOrdered : Ordered s) (h : Inv initial s) {n : Nat}
    {seen : κ → Option V} (hBeat : s.beat = some (n, seen)) (said : κ → V) :
    Ordered { s with beat := none, queue := s.queue ++ [.snapshot n said] } := by
  refine hOrdered.append rfl rfl (Nat.le_refl _) (fun _ _ _ => id) nofun ?_ ?_
  · rintro n₀ said₀ hMem k n' v ⟨rfl, -⟩ hAfter
    exact hAfter.mono (Nat.le_of_lt (hOrdered.snapshot_lt n₀ said₀ hMem n seen hBeat))
  · rintro n' said' hEq
    cases hEq
    exact ⟨h.beat_le n seen hBeat, rfl⟩

section

variable [DecidableEq κ]

theorem ne_of_after {changed : κ → Option Nat} {n seq : Nat} {k k' : κ} (hLe : n ≤ seq)
    (h : After (update changed k (some seq) k') n) : k' ≠ k := by
  rintro rfl
  rw [update_self] at h
  exact Nat.not_lt.mpr hLe (h seq rfl)

theorem Ordered.change (h : Ordered s) (k : κ) (v : V) :
    Ordered { s with
      value := update s.value k v
      changed := update s.changed k (some s.seq)
      live := update s.live k (.changed v) } := by
  refine ⟨?_, h.snapshot_le, h.snapshot_lt, ?_⟩
  · intro k' n w hLive
    obtain ⟨-, ⟨⟩⟩ | ⟨hk, hOld⟩ := update_eq hLive
    dsimp only
    rw [update_of_ne hk]
    exact h.numbered k' n w hOld
  · refine h.ordered.imp_of_mem fun {m m'} hMem _ hOld => ?_
    rintro n said rfl k' n' w hSays hNow
    have hk := ne_of_after (h.snapshot_le n said hMem) hNow
    dsimp only at hNow ⊢
    rw [update_of_ne hk] at hNow ⊢
    exact hOld n said rfl k' n' w hSays hNow

theorem Ordered.number (hOrdered : Ordered s) (h : Inv initial s) (k : κ) (v : V) :
    Ordered { s with
      seq := s.seq + 1
      live := update s.live k (.numbered (s.seq + 1) v) } := by
  refine hOrdered.keep rfl rfl (Nat.le_succ _) ?_ fun n seen hBeat => .inl ⟨seen, hBeat⟩
  intro k' n w hLive
  obtain ⟨rfl, ⟨⟩⟩ | ⟨-, hOld⟩ := update_eq hLive
  · exact after_succ (h.sound k').changed_le
  · exact hOrdered.numbered k' n w hOld

theorem Ordered.queue (h : Ordered s) {k : κ} {n : Nat} {v : V}
    (hNumbered : s.live k = .numbered n v) :
    Ordered { s with
      live := update s.live k .idle
      queue := s.queue ++ [.live k n v] } := by
  refine h.append rfl rfl (Nat.le_refl _) ?_ (fun _ _ => id) ?_ nofun
  · intro k' n' w hLive
    obtain ⟨-, ⟨⟩⟩ | ⟨-, hOld⟩ := update_eq hLive
    exact hOld
  · rintro n₀ said - k' n' w ⟨rfl, rfl, rfl⟩ -
    exact h.numbered _ _ _ hNumbered

theorem Ordered.step (hOrdered : Ordered s) (h : Inv initial s) (hStep : Step initial s s') :
    Ordered s' := by
  cases hStep with
  | change k v hIdle => exact hOrdered.change k v
  | number k v hChanged => exact hOrdered.number h k v
  | queue k n v hNumbered => exact hOrdered.queue hNumbered
  | beatNumber hBeat =>
    refine hOrdered.keep rfl rfl (Nat.le_succ _) hOrdered.numbered fun n seen hNow => .inr ?_
    cases hNow
    exact Nat.lt_succ_self _
  | beatRead k n seen hBeat hUnread =>
    refine hOrdered.keep rfl rfl (Nat.le_refl _) hOrdered.numbered fun n' seen' hNow => ?_
    cases hNow
    exact .inl ⟨seen, hBeat⟩
  | beatQueue n seen hBeat hRead => exact hOrdered.beatQueue h hBeat _
  | skip k =>
    exact hOrdered.keep rfl rfl (Nat.le_add_right ..) hOrdered.numbered
      fun n seen hBeat => .inl ⟨seen, hBeat⟩
  | other k =>
    exact hOrdered.append rfl rfl (Nat.le_add_right ..) (fun _ _ _ => id) (fun _ _ => id)
      (fun _ _ _ _ _ _ hSays => hSays.elim) nofun
  | deliver m copy' hNext hReceives =>
    exact ⟨hOrdered.numbered, hOrdered.snapshot_le, hOrdered.snapshot_lt, hOrdered.ordered⟩

end

theorem Ordered.lose (h : Ordered s) (hLose : Lose s s') : Ordered s' := by
  obtain ⟨-, rfl⟩ := hLose
  exact ⟨h.numbered, h.snapshot_le, h.snapshot_lt, h.ordered⟩

/-! ## After a snapshot -/

/-- A snapshot under number `n` was handled: every key that did not change since is
current, and nothing that is still to come undoes this. -/
structure Since (n : Nat) (s : State κ V) : Prop where
  le_seq : n ≤ s.seq
  lt_beat : ∀ n' seen, s.beat = some (n', seen) → n < n'
  current : ∀ k, After (s.changed k) n → (s.copy k).1 = s.value k
  later : ∀ m ∈ s.queue.drop s.taken, ∀ k n' v, Says m k n' v → After (s.changed k) n →
    After (s.changed k) n'

theorem Since.keep {n : Nat} (h : Since n s) (hSeq : s.seq ≤ s'.seq) (hValue : s'.value = s.value)
    (hChanged : s'.changed = s.changed) (hCopy : s'.copy = s.copy)
    (hBeat : ∀ n' seen, s'.beat = some (n', seen) →
      (∃ seen', s.beat = some (n', seen')) ∨ s.seq < n')
    (hQueue : ∀ m ∈ s'.queue.drop s'.taken, m ∈ s.queue.drop s.taken ∨
      ∀ k n' v, Says m k n' v → After (s.changed k) n → After (s.changed k) n') : Since n s' where
  le_seq := Nat.le_trans h.le_seq hSeq
  lt_beat n' seen hNow := by
    rcases hBeat n' seen hNow with ⟨seen', hOld⟩ | hLt
    · exact h.lt_beat n' seen' hOld
    · exact Nat.lt_of_le_of_lt h.le_seq hLt
  current := by
    rw [hChanged, hCopy, hValue]
    exact h.current
  later m hMem := by
    rw [hChanged]
    exact (hQueue m hMem).elim (h.later m) id

theorem mem_drop_append {α : Type u} {l : List α} {i : Nat} {a b : α}
    (h : a ∈ (l ++ [b]).drop i) : a ∈ l.drop i ∨ a = b := by
  rw [drop_append, mem_append] at h
  exact h.imp_right fun hLast => mem_singleton.mp (mem_of_mem_drop hLast)

theorem Since.lose {n : Nat} (h : Since n s) (hLose : Lose s s') : Since n s' := by
  obtain ⟨-, rfl⟩ := hLose
  refine h.keep (Nat.le_refl _) rfl rfl rfl (fun _ seen hBeat => .inl ⟨seen, hBeat⟩) ?_
  intro m hMem
  rw [← drop_drop] at hMem
  exact .inl (mem_of_mem_drop hMem)

section

variable [DecidableEq κ] {n : Nat} {copy' : κ → V × Nat}

theorem Since.of_deliver (hOrdered : Ordered s) (h : Inv initial s) {said : κ → V}
    (hNext : s.queue[s.taken]? = some (.snapshot n said))
    (hReceives : Receives (.snapshot n said) s.copy copy') :
    Since n { s with taken := s.taken + 1, copy := copy' } where
  le_seq := hOrdered.snapshot_le n said (mem_of_getElem? hNext)
  lt_beat := hOrdered.snapshot_lt n said (mem_of_getElem? hNext)
  current k hAfter := h.eq_of_snapshot hNext hReceives hAfter
  later m hMem := by
    have hTail := hOrdered.ordered.sublist (drop_sublist s.taken s.queue)
    rw [Echo.drop_of_next hNext, pairwise_cons] at hTail
    exact hTail.1 m hMem n said rfl

theorem Since.change (h : Since n s) (k : κ) (v : V) :
    Since n { s with
      value := update s.value k v
      changed := update s.changed k (some s.seq)
      live := update s.live k (.changed v) } := by
  refine ⟨h.le_seq, h.lt_beat, ?_, ?_⟩
  · intro k' hNow
    have hk := ne_of_after h.le_seq hNow
    dsimp only at hNow ⊢
    rw [update_of_ne hk] at hNow ⊢
    exact h.current k' hNow
  · intro m hMem k' n' w hSays hNow
    have hk := ne_of_after h.le_seq hNow
    dsimp only at hNow ⊢
    rw [update_of_ne hk] at hNow ⊢
    exact h.later m hMem k' n' w hSays hNow

theorem Since.deliver (hSince : Since n s) (h : Inv initial s) {m : Message κ V}
    (hNext : s.queue[s.taken]? = some m) (hReceives : Receives m s.copy copy') :
    Since n { s with taken := s.taken + 1, copy := copy' } where
  le_seq := hSince.le_seq
  lt_beat := hSince.lt_beat
  current k hAfter := by
    have hCurrent := hSince.current k hAfter
    rcases hReceives.handles k with hSame | ⟨n', v, hSays, hHandles⟩
    · exact (congrArg Prod.fst hSame).trans hCurrent
    · have hNewer : After (s.changed k) n' := by
        refine hSince.later m ?_ k n' v hSays hAfter
        rw [Echo.drop_of_next hNext]
        exact mem_cons_self
      exact (h.sound k).eq_of_handles (.queued m (mem_of_getElem? hNext) hSays) hNewer hHandles
  later m' hMem := by
    refine hSince.later m' ?_
    rw [Echo.drop_of_next hNext]
    exact mem_cons_of_mem _ hMem

theorem Since.step (hSince : Since n s) (h : Inv initial s) (hOrdered : Ordered s)
    (hStep : Step initial s s') : Since n s' := by
  have hSameBeat : ∀ n' seen, s.beat = some (n', seen) →
      (∃ seen', s.beat = some (n', seen')) ∨ s.seq < n' := fun _ seen hBeat => .inl ⟨seen, hBeat⟩
  cases hStep with
  | change k v hIdle => exact hSince.change k v
  | number k v hChanged =>
    exact hSince.keep (Nat.le_succ _) rfl rfl rfl hSameBeat fun _ hMem => .inl hMem
  | queue k n' v hNumbered =>
    refine hSince.keep (Nat.le_refl _) rfl rfl rfl hSameBeat fun m hMem => ?_
    rcases mem_drop_append hMem with hOld | rfl
    · exact .inl hOld
    · refine .inr ?_
      rintro k' n'' w ⟨rfl, rfl, rfl⟩ -
      exact hOrdered.numbered _ _ _ hNumbered
  | beatNumber hBeat =>
    refine hSince.keep (Nat.le_succ _) rfl rfl rfl (fun n' seen hNow => .inr ?_)
      fun _ hMem => .inl hMem
    cases hNow
    exact Nat.lt_succ_self _
  | beatRead k n' seen hBeat hUnread =>
    refine hSince.keep (Nat.le_refl _) rfl rfl rfl (fun n'' seen' hNow => .inl ?_)
      fun _ hMem => .inl hMem
    cases hNow
    exact ⟨seen, hBeat⟩
  | beatQueue n' seen hBeat hRead =>
    refine hSince.keep (Nat.le_refl _) rfl rfl rfl nofun fun m hMem => ?_
    rcases mem_drop_append hMem with hOld | rfl
    · exact .inl hOld
    · refine .inr ?_
      rintro k n'' v ⟨rfl, -⟩ hAfter
      exact hAfter.mono (Nat.le_of_lt (hSince.lt_beat n' seen hBeat))
  | skip k => exact hSince.keep (Nat.le_add_right ..) rfl rfl rfl hSameBeat fun _ hMem => .inl hMem
  | other k =>
    refine hSince.keep (Nat.le_add_right ..) rfl rfl rfl hSameBeat fun m hMem => ?_
    rcases mem_drop_append hMem with hOld | rfl
    · exact .inl hOld
    · exact .inr fun _ _ _ hSays => hSays.elim
  | deliver m copy' hNext hReceives => exact hSince.deliver h hNext hReceives

end

/-! ## Without loss -/

/-- Every live message that was handled is covered by the mark, and every change that is
not being announced has its live message. -/
structure Heard (s : State κ V) : Prop where
  taken_le : s.taken ≤ s.queue.length
  heard : ∀ k n v, .live k n v ∈ s.queue.take s.taken → n ≤ (s.copy k).2
  announced : ∀ k j, s.live k = .idle → s.changed k = some j →
    ∃ n v, .live k n v ∈ s.queue ∧ j < n

theorem Heard.say (h : Heard s) (hTaken : s'.taken = s.taken) (hCopy : s'.copy = s.copy)
    {new : List (Message κ V)} (hQueue : s'.queue = s.queue ++ new)
    (hAnnounced : ∀ k j, s'.live k = .idle → s'.changed k = some j →
      (s.live k = .idle ∧ s.changed k = some j) ∨ ∃ n v, .live k n v ∈ new ∧ j < n) : Heard s' where
  taken_le := by
    rw [hTaken, hQueue, length_append]
    exact Nat.le_add_right_of_le h.taken_le
  heard k n v hMem := by
    rw [hTaken, hQueue, take_append_of_le_length h.taken_le] at hMem
    rw [hCopy]
    exact h.heard k n v hMem
  announced k j hIdle hChanged := by
    rw [hQueue]
    rcases hAnnounced k j hIdle hChanged with ⟨hWas, hBefore⟩ | ⟨n, v, hMem, hLt⟩
    · obtain ⟨n, v, hMem, hLt⟩ := h.announced k j hWas hBefore
      exact ⟨n, v, mem_append_left _ hMem, hLt⟩
    · exact ⟨n, v, mem_append_right _ hMem, hLt⟩

theorem Heard.eq_of_all_taken (hHeard : Heard s) (h : Inv initial s) {k : κ}
    (hIdle : s.live k = .idle) (hTaken : s.taken = s.queue.length) : (s.copy k).1 = s.value k := by
  refine (h.sound k).eq_of_after fun j hj => ?_
  obtain ⟨n, v, hMem, hLt⟩ := hHeard.announced k j hIdle hj
  refine Nat.lt_of_lt_of_le hLt (hHeard.heard k n v ?_)
  rw [hTaken, take_length]
  exact hMem

section

variable [DecidableEq κ]

theorem Heard.advance (h : Heard s) (k : κ) (phase : Phase V) (hBusy : phase ≠ .idle)
    (hTaken : s'.taken = s.taken) (hCopy : s'.copy = s.copy) (hQueue : s'.queue = s.queue)
    (hLive : s'.live = update s.live k phase)
    (hChanged : ∀ k', k' ≠ k → s'.changed k' = s.changed k') : Heard s' := by
  refine h.say hTaken hCopy (hQueue.trans (append_nil _).symm) ?_
  intro k' j hIdle hNow
  rw [hLive] at hIdle
  obtain ⟨-, hPhase⟩ | ⟨hk, hOld⟩ := update_eq hIdle
  · exact absurd hPhase hBusy
  · rw [hChanged k' hk] at hNow
    exact .inl ⟨hOld, hNow⟩

theorem Heard.queue (h : Heard s) (hOrdered : Ordered s) {k : κ} {n : Nat} {v : V}
    (hNumbered : s.live k = .numbered n v) :
    Heard { s with
      live := update s.live k .idle
      queue := s.queue ++ [.live k n v] } := by
  refine h.say rfl rfl rfl ?_
  intro k' j hLive hChanged
  dsimp only at hLive
  by_cases hk : k' = k
  · subst hk
    exact .inr ⟨n, v, mem_singleton_self _, hOrdered.numbered k' n v hNumbered j hChanged⟩
  · rw [update_of_ne hk] at hLive
    exact .inl ⟨hLive, hChanged⟩

theorem Heard.deliver (h : Heard s) {m : Message κ V} {copy' : κ → V × Nat}
    (hNext : s.queue[s.taken]? = some m) (hReceives : Receives m s.copy copy') :
    Heard { s with taken := s.taken + 1, copy := copy' } where
  taken_le := (List.getElem?_eq_some_iff.mp hNext).1
  heard k n v hMem := by
    dsimp only at hMem ⊢
    rw [take_add_one, hNext, mem_append] at hMem
    rcases hMem with hOld | hLast
    · exact Nat.le_trans (h.heard k n v hOld) (hReceives.mark_le k)
    · obtain rfl := mem_singleton.mp hLast
      rw [show copy' = _ from hReceives, update_self]
      exact le_take ..
  announced := h.announced

theorem Heard.step (hHeard : Heard s) (hOrdered : Ordered s) (hStep : Step initial s s') :
    Heard s' := by
  have hGrow {new : List (Message κ V)} (hTaken : s'.taken = s.taken) (hCopy : s'.copy = s.copy)
      (hQueue : s'.queue = s.queue ++ new) (hLive : s'.live = s.live)
      (hChanged : s'.changed = s.changed) : Heard s' := by
    refine hHeard.say hTaken hCopy hQueue ?_
    rw [hLive, hChanged]
    exact fun k j hIdle hNow => .inl ⟨hIdle, hNow⟩
  cases hStep with
  | change k v hIdle =>
    exact hHeard.advance k (.changed v) (by simp) rfl rfl rfl rfl
      fun k' hk => update_of_ne hk ..
  | number k v hChanged =>
    exact hHeard.advance k (.numbered (s.seq + 1) v) (by simp) rfl rfl rfl rfl
      fun _ _ => rfl
  | queue k n v hNumbered => exact hHeard.queue hOrdered hNumbered
  | beatNumber | beatRead => exact hGrow rfl rfl (append_nil _).symm rfl rfl
  | beatQueue n seen hBeat hRead => exact hGrow rfl rfl rfl rfl rfl
  | skip k => exact hGrow rfl rfl (append_nil _).symm rfl rfl
  | other k => exact hGrow rfl rfl rfl rfl rfl
  | deliver m copy' hNext hReceives => exact hHeard.deliver hNext hReceives

end

/-! ## The start -/

structure Fresh (initial : V) (s : State κ V) : Prop where
  value : ∀ k, s.value k = initial
  changed : ∀ k, s.changed k = none
  live : ∀ k, s.live k = .idle
  beat : s.beat = none
  queue : s.queue = []
  taken : s.taken = 0
  copy : ∀ k, s.copy k = (initial, 0)

theorem Fresh.inv (h : Fresh initial s) : Inv initial s := by
  have hSilent (k : κ) (n : Nat) (v : V) : ¬ Said s k n v := by
    rintro (hLive | ⟨seen, hBeat, -⟩ | ⟨m, hMem, -⟩)
    · rw [h.live] at hLive
      cases hLive
    · rw [h.beat] at hBeat
      cases hBeat
    · rw [h.queue] at hMem
      cases hMem
  refine ⟨fun n seen hBeat => ?_, fun k n v hSaid => absurd hSaid (hSilent k n v),
    fun k v hLive => ?_, fun k => ⟨fun j hj => ?_, fun _ => h.value k,
      fun n v hSaid => absurd hSaid (hSilent k n v), .inl (h.copy k)⟩⟩
  · rw [h.beat] at hBeat
    cases hBeat
  · rw [h.live] at hLive
    cases hLive
  · rw [h.changed] at hj
    cases hj

theorem Fresh.ordered (h : Fresh initial s) : Ordered s := by
  refine ⟨fun k n v hLive => ?_, fun n said hMem => ?_, fun n said hMem => ?_, ?_⟩
  · rw [h.live] at hLive
    cases hLive
  · rw [h.queue] at hMem
    cases hMem
  · rw [h.queue] at hMem
    cases hMem
  · rw [h.queue]
    exact .nil

theorem Fresh.heard (h : Fresh initial s) : Heard s := by
  refine ⟨?_, fun k n v hMem => ?_, fun k j _ hj => ?_⟩
  · rw [h.taken]
    exact Nat.zero_le _
  · rw [h.queue, take_nil] at hMem
    cases hMem
  · rw [h.changed] at hj
    cases hj

end Lossy
