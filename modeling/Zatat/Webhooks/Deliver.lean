import Mathlib.Data.List.Basic
import Zatat.Core.Application

/-! # Webhook events and the delivery of one to one target

A request that fails is sent again after a pause that doubles up to a minute, until the
window is over. No turn of the loop is counted: it ends because the pauses add up.
-/

namespace Zatat

inductive WebhookEvent where
  | ChannelOccupied (channel : String)
  | ChannelVacated (channel : String)
  | MemberAdded (channel userId : String)
  | MemberRemoved (channel userId : String)
  | ClientEvent (channel event data : String) (socketId userId : Option String)
  | CacheMiss (channel : String)
  | SubscriptionCount (channel : String) (count : Nat)
deriving DecidableEq, Repr

namespace WebhookEvent

def channel : WebhookEvent → String
  | ChannelOccupied channel | ChannelVacated channel | MemberAdded channel _
  | MemberRemoved channel _ | ClientEvent channel _ _ _ _ | CacheMiss channel
  | SubscriptionCount channel _ => channel

/-- The heap footprint of an event; `sizeOf` is the size of the type itself. -/
def approxSize (sizeOf : Nat) (event : WebhookEvent) : Nat :=
  let payload := match event with
    | MemberAdded _ userId | MemberRemoved _ userId => userId.utf8ByteSize
    | ClientEvent _ event data socketId userId =>
      event.utf8ByteSize + data.utf8ByteSize + socketId.elim 0 String.utf8ByteSize +
        userId.elim 0 String.utf8ByteSize
    | _ => 0
  sizeOf + event.channel.utf8ByteSize + payload

end WebhookEvent

namespace Webhooks

def retryWindow : Duration := Duration.fromSecs 300

def initialRetryBackoff : Duration := Duration.fromSecs 1

def maxRetryBackoff : Duration := Duration.fromSecs 60

def maxPendingRetries : Nat := 10000

inductive Outcome where
  | success
  | otherStatus
  | transportError
  deriving DecidableEq

/-- What one turn of the loop meets: how long it waits for a slot and for the answer, what the
answer is, how many deliveries it finds waiting to retry and by how much its timer is late. -/
structure Turn where
  slotWait : Duration
  request : Duration
  outcome : Outcome
  pending : Nat
  late : Duration

/-- What a delivery does: requests, and pauses with the time since it started. -/
inductive Action where
  | request (outcome : Outcome)
  | sleep (elapsed backoff : Duration)
  deriving DecidableEq

/-- The loop of `deliver` from its turn `i` on. -/
def deliverLoop (turns : Nat → Turn) : (fuel i : Nat) → (elapsed backoff : Duration) →
    (countedAsPending : Bool) → Option (Bool × List Action)
  | 0, _, _, _, _ => none
  | fuel + 1, i, elapsed, backoff, countedAsPending =>
    let turn := turns i
    -- the first turn has the slot that it was started with
    let slotWait := if i = 0 then 0 else turn.slotWait
    let elapsed := elapsed + slotWait + turn.request
    let sent := Action.request turn.outcome
    if turn.outcome = .success then some (true, [sent])
    else if elapsed + backoff > retryWindow then some (false, [sent])
    else if countedAsPending = false ∧ turn.pending ≥ maxPendingRetries then some (false, [sent])
    else
      (deliverLoop turns fuel (i + 1) (elapsed + backoff + turn.late)
        (min (backoff * 2) maxRetryBackoff) true).map fun (delivered, actions) =>
          (delivered, sent :: .sleep elapsed backoff :: actions)

def deliver (turns : Nat → Turn) (fuel : Nat) : Option (Bool × List Action) :=
  deliverLoop turns fuel 0 0 initialRetryBackoff false

/-- 1, 2, 4, 8, 16, 32 and then 60 seconds. -/
def backoffAt (i : Nat) : Duration := Duration.fromSecs ([1, 2, 4, 8, 16, 32].getD i 60)

def slept : Nat → Duration
  | 0 => 0
  | n + 1 => slept n + backoffAt n

/-- Requests from turn `i` on with the pauses between them, which start at these times. -/
def attempts (turns : Nat → Turn) : Nat → List Duration → List Action
  | i, [] => [.request (turns i).outcome]
  | i, elapsed :: pauses =>
    .request (turns i).outcome :: .sleep elapsed (backoffAt i) :: attempts turns (i + 1) pauses

/-- From turn `i` on the loop ends after these pauses, at the first request that succeeds if
one does, and each pause lies within the window. -/
structure EndsAfter (turns : Nat → Turn) (i : Nat) (delivered : Bool) (pauses : List Duration) :
    Prop where
  few : i + pauses.length < 10
  failed : ∀ j < pauses.length, (turns (i + j)).outcome ≠ .success
  last : delivered = true ↔ (turns (i + pauses.length)).outcome = .success
  within : ∀ j (h : j < pauses.length), pauses[j] + backoffAt (i + j) ≤ retryWindow

theorem backoffAt_succ : ∀ i < 9, min (backoffAt i * 2) maxRetryBackoff = backoffAt (i + 1) := by
  decide

theorem slept_le : ∀ n < 10, slept n ≤ Duration.fromSecs 243 := by decide

variable {elapsed : Duration} {turns : Nat → Turn} {i : Nat} {delivered : Bool}

theorem nine_pauses (h : slept 9 ≤ elapsed) : elapsed + backoffAt 9 > retryWindow :=
  Nat.lt_of_lt_of_le (by decide) (Nat.add_le_add_right h (backoffAt 9))

theorem EndsAfter.stop (h : i < 10) (hLast : delivered = true ↔ (turns i).outcome = .success) :
    EndsAfter turns i delivered [] :=
  ⟨h, nofun, hLast, nofun⟩

theorem EndsAfter.cons {pauses : List Duration} (h : EndsAfter turns (i + 1) delivered pauses)
    (hFailed : (turns i).outcome ≠ .success) (hWithin : elapsed + backoffAt i ≤ retryWindow) :
    EndsAfter turns i delivered (elapsed :: pauses) := by
  have hShift (j : Nat) : i + (j + 1) = i + 1 + j := by omega
  constructor
  · rw [List.length_cons, hShift]
    exact h.few
  · rintro (_ | j) hj
    · exact hFailed
    · rw [hShift]
      exact h.failed j (Nat.lt_of_succ_lt_succ hj)
  · rw [List.length_cons, hShift]
    exact h.last
  · rintro (_ | j) hj
    · exact hWithin
    · rw [hShift]
      exact h.within j (Nat.lt_of_succ_lt_succ hj)

theorem deliverLoop_turn (turns : Nat → Turn) (i : Nat) (elapsed backoff : Duration)
    (countedAsPending : Bool) :
    (∃ delivered, (delivered = true ↔ (turns i).outcome = .success) ∧ ∀ fuel,
      deliverLoop turns (fuel + 1) i elapsed backoff countedAsPending =
        some (delivered, [.request (turns i).outcome])) ∨
    (turns i).outcome ≠ .success ∧ ∃ now later, elapsed ≤ now ∧ now + backoff ≤ later ∧
      now + backoff ≤ retryWindow ∧ ∀ fuel,
      deliverLoop turns (fuel + 1) i elapsed backoff countedAsPending =
        (deliverLoop turns fuel (i + 1) later (min (backoff * 2) maxRetryBackoff) true).map
          fun (delivered, actions) =>
            (delivered, .request (turns i).outcome :: .sleep now backoff :: actions) := by
  by_cases hSuccess : (turns i).outcome = .success
  · exact .inl ⟨true, by simp [hSuccess], fun _ => if_pos hSuccess⟩
  have hFailed : false = true ↔ (turns i).outcome = .success := by simp [hSuccess]
  by_cases hOver : elapsed + (if i = 0 then 0 else (turns i).slotWait) + (turns i).request +
      backoff > retryWindow
  · exact .inl ⟨false, hFailed, fun _ => (if_neg hSuccess).trans (if_pos hOver)⟩
  by_cases hMany : countedAsPending = false ∧ (turns i).pending ≥ maxPendingRetries
  · exact .inl ⟨false, hFailed, fun _ =>
      (if_neg hSuccess).trans ((if_neg hOver).trans (if_pos hMany))⟩
  refine .inr ⟨hSuccess, _, _, ?_, Nat.le_add_right _ _, Nat.le_of_not_lt hOver, fun _ =>
    (if_neg hSuccess).trans ((if_neg hOver).trans (if_neg hMany))⟩
  exact Nat.le_trans (Nat.le_add_right elapsed _) (Nat.le_add_right _ _)

/-- The pauses so far have passed, so that the loop is at most in its tenth turn. -/
theorem deliverLoop_ends (turns : Nat → Turn) (n : Nat) (hi : i + n = 9)
    (hElapsed : slept i ≤ elapsed) (countedAsPending : Bool) :
    ∃ delivered pauses, EndsAfter turns i delivered pauses ∧ ∀ fuel ≥ n,
      deliverLoop turns (fuel + 1) i elapsed (backoffAt i) countedAsPending =
        some (delivered, attempts turns i pauses) := by
  induction n generalizing i elapsed countedAsPending with
  | zero =>
    obtain rfl : i = 9 := hi
    obtain ⟨delivered, hLast, hEnds⟩ | ⟨_, now, _, hNow, _, hWithin, _⟩ :=
      deliverLoop_turn turns 9 elapsed (backoffAt 9) countedAsPending
    · exact ⟨delivered, [], .stop (by decide) hLast, fun fuel _ => hEnds fuel⟩
    · exact absurd hWithin (Nat.not_le_of_gt (nine_pauses (Nat.le_trans hElapsed hNow)))
  | succ n ih =>
    obtain ⟨delivered, hLast, hEnds⟩ | ⟨hFailed, now, later, hNow, hLater, hWithin, hGoes⟩ :=
      deliverLoop_turn turns i elapsed (backoffAt i) countedAsPending
    · exact ⟨delivered, [], .stop (by omega) hLast, fun fuel _ => hEnds fuel⟩
    have hSlept : slept (i + 1) ≤ later := by
      rw [slept]
      exact Nat.le_trans (Nat.add_le_add_right (Nat.le_trans hElapsed hNow) _) hLater
    obtain ⟨delivered, pauses, hRest, hLoop⟩ := ih (by omega) hSlept true
    refine ⟨delivered, now :: pauses, hRest.cons hFailed hWithin, ?_⟩
    rintro (_ | fuel) hFuel
    · exact absurd hFuel (Nat.not_succ_le_zero n)
    · rw [hGoes, backoffAt_succ i (by omega), hLoop fuel (Nat.le_of_succ_le_succ hFuel)]
      rfl

/-- What a delivery does, whatever it meets: it ends, and the pauses between its requests are
few, short and within the window. -/
structure Bounded (turns : Nat → Turn) (delivered : Bool) (pauses : List Duration) : Prop extends
    EndsAfter turns 0 delivered pauses where
  total : slept pauses.length ≤ Duration.fromSecs 243
  ends : ∀ fuel ≥ 10, deliver turns fuel = some (delivered, attempts turns 0 pauses)

theorem delivery_bounded (turns : Nat → Turn) :
    ∃ delivered pauses, Bounded turns delivered pauses := by
  obtain ⟨delivered, pauses, hEnds, hLoop⟩ := deliverLoop_ends turns 9 rfl (Nat.le_refl 0) false
  have hFew : pauses.length < 10 := Nat.zero_add pauses.length ▸ hEnds.few
  refine ⟨delivered, pauses, hEnds, slept_le _ hFew, ?_⟩
  rintro (_ | fuel) hFuel
  · exact absurd hFuel (Nat.not_succ_le_zero 9)
  · exact hLoop fuel (Nat.le_of_succ_le_succ hFuel)

end Webhooks

end Zatat
