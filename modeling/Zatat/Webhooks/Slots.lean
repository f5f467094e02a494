import Mathlib.Data.List.Count
import Zatat.Lib.Run
import Zatat.Webhooks.Deliver

/-! # The slots and counters that deliveries share

The drain loop takes a slot and starts a delivery with it. The deliveries run side by side;
what each of them does in one step is one operation on the semaphore or on a counter. They
give back whatever they took, however they end.
-/

namespace Zatat.Webhooks

open List Bool

def maxInFlightDeliveries : Nat := 256

/-- Where a delivery is in `deliver`, and after it. -/
inductive Phase where
  /-- At the head of the loop, where it needs a slot. -/
  | starting
  | sending
  /-- The answer is there and the slot not dropped yet. -/
  | answered (outcome : Outcome)
  | slotDropped (outcome : Outcome)
  /-- It counted itself as waiting and found too many before it. -/
  | tooMany
  | sleeping
  | loopLeft
  | returned
  | finished
  deriving DecidableEq

/-- A delivery: `slot` is the permit it holds, and it is `counted` from the time that it takes a
place among those waiting to retry until it gives the place back. -/
structure Delivery where
  phase : Phase
  slot : Bool
  counted : Bool
  deriving DecidableEq

/-- The semaphore and the counters. The counters are integers, so that one that was decreased
too often would not look like an empty one. -/
structure Shared where
  permits : Nat
  pending : Int
  inFlight : Int
  deriving DecidableEq

/-- The next operation of a delivery. A delivery that needs a slot waits for one. -/
def Delivery.advance (d : Delivery) (shared : Shared) (outcome : Outcome) (windowOver : Bool) :
    Option (Shared × Delivery) :=
  match d.phase with
  | .starting =>
    if d.slot then some (shared, { d with phase := .sending })
    else if 0 < shared.permits then
      some ({ shared with permits := shared.permits - 1 },
        { d with phase := .sending, slot := true })
    else none
  | .sending => some (shared, { d with phase := .answered outcome })
  | .answered outcome =>
    some ({ shared with permits := shared.permits + 1 },
      { d with phase := .slotDropped outcome, slot := false })
  | .slotDropped outcome =>
    if outcome = .success ∨ windowOver then some (shared, { d with phase := .loopLeft })
    else if d.counted then some (shared, { d with phase := .sleeping })
    else
      some ({ shared with pending := shared.pending + 1 },
        if shared.pending ≥ maxPendingRetries then { d with phase := .tooMany }
        else { d with phase := .sleeping, counted := true })
  | .tooMany =>
    some ({ shared with pending := shared.pending - 1 }, { d with phase := .loopLeft })
  | .sleeping => some (shared, { d with phase := .starting })
  | .loopLeft =>
    if d.counted then
      some ({ shared with pending := shared.pending - 1 },
        { d with phase := .returned, counted := false })
    else some (shared, { d with phase := .returned })
  | .returned =>
    some ({ shared with inFlight := shared.inFlight - 1 }, { d with phase := .finished })
  | .finished => none

/-- The drain loop between two deliveries, with a slot for the next one, and with the next one
counted but not spawned. -/
inductive Drain where
  | idle
  | holding
  | started
  deriving DecidableEq

structure Deliveries where
  shared : Shared
  drain : Drain
  spawned : List Delivery
  deriving DecidableEq

inductive Operation where
  | drain
  | delivery (i : Nat) (outcome : Outcome) (windowOver : Bool)

namespace Deliveries

def initial : Deliveries := ⟨⟨maxInFlightDeliveries, 0, 0⟩, .idle, []⟩

/-- The next operation of the drain loop, which has something to deliver. -/
def drainNext (s : Deliveries) : Option Deliveries :=
  match s.drain with
  | .idle =>
    if 0 < s.shared.permits then
      some { s with
        shared := { s.shared with permits := s.shared.permits - 1 }
        drain := .holding }
    else none
  | .holding =>
    some { s with
      shared := { s.shared with inFlight := s.shared.inFlight + 1 }
      drain := .started }
  | .started =>
    some { s with
      drain := .idle
      spawned := s.spawned ++ [⟨.starting, true, false⟩] }

def step (s : Deliveries) : Operation → Option Deliveries
  | .drain => s.drainNext
  | .delivery i outcome windowOver =>
    (s.spawned[i]?).bind fun d =>
      (d.advance s.shared outcome windowOver).map fun (shared, d) =>
        { s with
          shared := shared
          spawned := s.spawned.set i d }

end Deliveries

/-! ## What one delivery holds -/

namespace Delivery

def outstanding (d : Delivery) : Bool := d.phase = .sending

def unfinished (d : Delivery) : Bool := d.phase ≠ .finished

def rollsBack (d : Delivery) : Bool := d.phase = .tooMany

/-- It sleeps, or has slept and waits for a slot. -/
def awaitsRetry (d : Delivery) : Bool := d.phase = .sleeping || d.phase = .starting && d.counted

/-- What a delivery may hold in its phase. -/
structure Coherent (d : Delivery) : Prop where
  slot : match d.phase with
    | .starting => d.slot = !d.counted
    | .sending | .answered _ => d.slot = true
    | _ => d.slot = false
  counted : match d.phase with
    | .tooMany | .returned | .finished => d.counted = false
    | .sleeping => d.counted = true
    | _ => True

/-- What a delivery takes from the semaphore and the counters it holds afterwards. -/
structure Balanced (shared shared' : Shared) (d d' : Delivery) : Prop where
  coherent : d'.Coherent
  permits : shared'.permits + d'.slot.toNat = shared.permits + d.slot.toNat
  pending : shared'.pending + (d.counted.toNat + d.rollsBack.toNat) =
    shared.pending + (d'.counted.toNat + d'.rollsBack.toNat)
  inFlight : shared'.inFlight + d.unfinished.toNat = shared.inFlight + d'.unfinished.toNat
  place : d.counted = false → d'.counted = true → shared.pending < maxPendingRetries

theorem advance_balanced {d d' : Delivery} {shared shared' : Shared} {outcome : Outcome}
    {windowOver : Bool} (hCoherent : d.Coherent)
    (h : d.advance shared outcome windowOver = some (shared', d')) :
    Balanced shared shared' d d' := by
  obtain ⟨phase, slot, counted⟩ := d
  obtain ⟨hSlot, hCounted⟩ := hCoherent
  have hKept (h : counted = false) (h' : counted = true) : shared.pending < maxPendingRetries :=
    absurd (h.symm.trans h') false_ne_true
  cases phase with
  | starting =>
    rw [advance] at h
    dsimp only at h hSlot
    split at h
    · rename_i hHas
      cases h
      exact ⟨⟨hHas, trivial⟩, rfl, rfl, rfl, hKept⟩
    · rename_i hHas
      split at h
      · rename_i hFree
        cases h
        refine ⟨⟨rfl, trivial⟩, ?_, rfl, rfl, hKept⟩
        rw [eq_false_iff.mpr hHas]
        exact Nat.sub_add_cancel hFree
      · cases h
  | sending =>
    cases h
    exact ⟨⟨hSlot, trivial⟩, rfl, rfl, rfl, hKept⟩
  | answered outcome =>
    cases h
    refine ⟨⟨rfl, trivial⟩, ?_, rfl, rfl, hKept⟩
    rw [show slot = true from hSlot]
    rfl
  | slotDropped outcome =>
    rw [advance] at h
    dsimp only at h
    split at h
    · cases h
      exact ⟨⟨hSlot, trivial⟩, rfl, rfl, rfl, hKept⟩
    · split at h
      · rename_i hHas
        cases h
        exact ⟨⟨hSlot, hHas⟩, rfl, rfl, rfl, hKept⟩
      · rename_i hHas
        rw [eq_false_iff.mpr hHas] at h ⊢
        cases h
        split
        · exact ⟨⟨hSlot, rfl⟩, rfl, by simp [rollsBack], rfl, nofun⟩
        · rename_i hRoom
          exact ⟨⟨hSlot, rfl⟩, rfl, by simp [rollsBack], rfl, fun _ _ => Int.not_le.mp hRoom⟩
  | tooMany =>
    cases h
    refine ⟨⟨hSlot, trivial⟩, rfl, ?_, rfl, hKept⟩
    change shared.pending - 1 + (counted.toNat + 1 : Int) =
      shared.pending + (counted.toNat + 0 : Int)
    omega
  | sleeping =>
    cases h
    refine ⟨⟨?_, trivial⟩, rfl, rfl, rfl, hKept⟩
    exact hSlot.trans (by rw [show counted = true from hCounted]; rfl)
  | loopLeft =>
    rw [advance] at h
    dsimp only at h
    split at h
    · rename_i hHas
      cases h
      refine ⟨⟨hSlot, rfl⟩, rfl, ?_, rfl, nofun⟩
      simp [rollsBack, hHas]
    · rename_i hHas
      cases h
      exact ⟨⟨hSlot, eq_false_iff.mpr hHas⟩, rfl, rfl, rfl, hKept⟩
  | returned =>
    cases h
    refine ⟨⟨hSlot, hCounted⟩, rfl, rfl, ?_, hKept⟩
    simp [unfinished]
  | finished => cases h

end Delivery

/-! ## What all of them hold -/

def Drain.holds : Drain → Nat
  | .idle => 0
  | .holding | .started => 1

def Drain.starts : Drain → Nat
  | .idle | .holding => 0
  | .started => 1

namespace Deliveries

structure Accounted (s : Deliveries) : Prop where
  coherent : ∀ d ∈ s.spawned, d.Coherent
  permits : s.shared.permits + (s.spawned.countP Delivery.slot + s.drain.holds) =
    maxInFlightDeliveries
  pending : s.shared.pending =
    s.spawned.countP Delivery.counted + s.spawned.countP Delivery.rollsBack
  inFlight : s.shared.inFlight = s.spawned.countP Delivery.unfinished + s.drain.starts
  waiting : s.spawned.countP Delivery.counted ≤ maxPendingRetries

variable {i : Nat} {d : Delivery} {s : Deliveries}

theorem countP_set_add {l : List Delivery} (h : l[i]? = some d) (d' : Delivery)
    (p : Delivery → Bool) : (l.set i d').countP p + (p d).toNat = l.countP p + (p d').toNat := by
  induction l generalizing i with
  | nil => cases h
  | cons e l ih =>
    cases i with
    | zero =>
      cases h
      cases hp : p d <;> cases hp' : p d' <;> simp [hp, hp']
    | succ i =>
      have hRest := ih h
      cases hp : p e <;> simp [hp] <;> omega

theorem drain_accounted {s' : Deliveries} (hInv : s.Accounted) (h : s.drainNext = some s') :
    s'.Accounted := by
  obtain ⟨shared, drain, spawned⟩ := s
  obtain ⟨hCoherent, hPermits, hPending, hInFlight, hWaiting⟩ := hInv
  cases drain with
  | idle =>
    rw [drainNext] at h
    dsimp only at h
    split at h
    · rename_i hFree
      cases h
      refine ⟨hCoherent, ?_, hPending, hInFlight, hWaiting⟩
      dsimp only [Drain.holds] at hPermits ⊢
      omega
    · cases h
  | holding =>
    cases h
    refine ⟨hCoherent, hPermits, hPending, ?_, hWaiting⟩
    dsimp only [Drain.starts] at hInFlight ⊢
    omega
  | started =>
    cases h
    have hNew : Delivery.Coherent ⟨.starting, true, false⟩ := ⟨rfl, trivial⟩
    constructor
    · intro d hd
      rcases mem_append.mp hd with hOld | hLast
      · exact hCoherent d hOld
      · rw [mem_singleton.mp hLast]
        exact hNew
    · rw [countP_append]
      exact hPermits
    · rw [countP_append, countP_append]
      exact hPending
    · rw [countP_append]
      exact hInFlight
    · rw [countP_append]
      exact hWaiting

theorem delivery_accounted (hInv : s.Accounted) {d' : Delivery} (hAt : s.spawned[i]? = some d)
    {shared : Shared} (hBalanced : d.Balanced s.shared shared d') :
    Accounted { s with
      shared := shared
      spawned := s.spawned.set i d' } := by
  have hCount := countP_set_add hAt d'
  have hSlot := hCount Delivery.slot
  have hCounted := hCount Delivery.counted
  have hRolls := hCount Delivery.rollsBack
  have hUnfinished := hCount Delivery.unfinished
  constructor
  · intro e he
    rcases mem_or_eq_of_mem_set he with hOld | rfl
    · exact hInv.coherent e hOld
    · exact hBalanced.coherent
  · have hBefore := hInv.permits
    have hTaken := hBalanced.permits
    dsimp only
    omega
  · have hBefore := hInv.pending
    have hTaken := hBalanced.pending
    dsimp only
    omega
  · have hBefore := hInv.inFlight
    have hTaken := hBalanced.inFlight
    dsimp only
    omega
  · have hBefore := hInv.waiting
    have hPending := hInv.pending
    have hPlace := hBalanced.place
    dsimp only
    cases hOld : d.counted with
    | true =>
      have hOne := toNat_le d'.counted
      simp only [hOld, toNat_true] at hCounted
      omega
    | false =>
      cases hNew : d'.counted with
      | true =>
        have hRoom := hPlace hOld hNew
        simp only [hOld, hNew, toNat_true, toNat_false] at hCounted
        omega
      | false =>
        simp only [hOld, hNew, toNat_false] at hCounted
        omega

theorem step_accounted (s : Deliveries) (operation : Operation) (s' : Deliveries)
    (hInv : s.Accounted) (h : s.step operation = some s') : s'.Accounted := by
  cases operation with
  | drain => exact drain_accounted hInv h
  | delivery i outcome windowOver =>
    obtain ⟨d, hAt, hMap⟩ := Option.bind_eq_some_iff.mp h
    obtain ⟨⟨shared, d'⟩, hAdvance, rfl⟩ := Option.map_eq_some_iff.mp hMap
    have hCoherent := hInv.coherent d (mem_of_getElem? hAt)
    exact delivery_accounted hInv hAt (Delivery.advance_balanced hCoherent hAdvance)

/-! ## Slots and places are conserved -/

structure Conserved (s : Deliveries) : Prop where
  outstanding : s.spawned.countP Delivery.outstanding ≤ maxInFlightDeliveries
  waiting : s.spawned.countP Delivery.counted ≤ maxPendingRetries
  /-- The counter is ahead of it only by those that are about to give their place back. -/
  pending : s.shared.pending =
    s.spawned.countP Delivery.counted + s.spawned.countP Delivery.rollsBack
  noSlot : ∀ d ∈ s.spawned, d.awaitsRetry = true → d.slot = false
  inFlight : s.shared.inFlight = s.spawned.countP Delivery.unfinished + s.drain.starts
  released : s.drain = .idle → (∀ d ∈ s.spawned, d.phase = .finished) →
    s.shared = ⟨maxInFlightDeliveries, 0, 0⟩

theorem Accounted.noSlot (hInv : s.Accounted) (hd : d ∈ s.spawned) (h : d.awaitsRetry = true) :
    d.slot = false := by
  obtain ⟨phase, slot, counted⟩ := d
  have hSlot := (hInv.coherent _ hd).slot
  cases phase with
  | starting =>
    rw [show counted = true from h] at hSlot
    exact hSlot
  | sleeping => exact hSlot
  | _ => cases h

theorem Accounted.outstanding_le (hInv : s.Accounted) :
    s.spawned.countP Delivery.outstanding ≤ maxInFlightDeliveries := by
  have hSlots : s.spawned.countP Delivery.outstanding ≤ s.spawned.countP Delivery.slot := by
    apply countP_mono_left
    intro d hd hOut
    have hSlot := (hInv.coherent d hd).slot
    rw [of_decide_eq_true hOut] at hSlot
    exact hSlot
  have hPermits := hInv.permits
  omega

theorem Accounted.released (hInv : s.Accounted) (hIdle : s.drain = .idle)
    (hAll : ∀ d ∈ s.spawned, d.phase = .finished) : s.shared = ⟨maxInFlightDeliveries, 0, 0⟩ := by
  have hNone (p : Delivery → Bool) (hp : ∀ d, d.Coherent → d.phase = .finished → p d = false) :
      s.spawned.countP p = 0 := by
    apply countP_eq_zero.mpr
    intro d hd
    rw [hp d (hInv.coherent d hd) (hAll d hd)]
    exact false_ne_true
  have hSlot := hNone Delivery.slot fun d hd hPhase => by
    have hFree := hd.slot
    rw [hPhase] at hFree
    exact hFree
  have hCounted := hNone Delivery.counted fun d hd hPhase => by
    have hGiven := hd.counted
    rw [hPhase] at hGiven
    exact hGiven
  have hRolls := hNone Delivery.rollsBack fun d _ hPhase => by simp [Delivery.rollsBack, hPhase]
  have hUnfinished := hNone Delivery.unfinished fun d _ hPhase => by
    simp [Delivery.unfinished, hPhase]
  have hPermits := hInv.permits
  have hPending := hInv.pending
  have hInFlight := hInv.inFlight
  rw [hSlot, hIdle] at hPermits
  rw [hCounted, hRolls] at hPending
  rw [hUnfinished, hIdle] at hInFlight
  obtain ⟨⟨permits, pending, inFlight⟩, drain, spawned⟩ := s
  cases hPermits
  cases hPending
  cases hInFlight
  rfl

theorem slots_conserved (run : List Operation) : Transition.Always step Conserved initial run := by
  have hInitial : initial.Accounted := ⟨nofun, rfl, rfl, rfl, Nat.zero_le _⟩
  refine (Transition.always_of_invariant step_accounted hInitial run).mono fun s hInv => ?_
  exact ⟨hInv.outstanding_le, hInv.waiting, hInv.pending, fun d => hInv.noSlot, hInv.inFlight,
    hInv.released⟩

end Deliveries

end Zatat.Webhooks
