import Zatat.Lib.StagingLedger
import Zatat.Webhooks.Deliver

/-! # The staging of envelopes and of webhook events

`spawn_publish` and `enqueue` put what leaves the process into a bounded queue,
in block mode through a staging channel with a byte budget. The two differ in
what they carry, how they measure it, and in what a closed queue counts as.
-/

namespace Zatat

open Transition Staging

def EventDispatcher.staging (overflow : Overflow) (limit : Nat) : Config (List UInt8) where
  overflow := overflow
  size := List.length
  limit := limit
  capacity := 32768
  countsClosed := false

def WebhookDispatcher.staging (overflow : Overflow) (sizeOfEvent limit : Nat) :
    Config (String × WebhookEvent) where
  overflow := overflow
  size := fun item => item.2.approxSize sizeOfEvent
  limit := limit
  capacity := 65536
  countsClosed := true

section

variable {ι : Type} [DecidableEq ι]

/-- In both dispatchers everything is accounted for throughout a run exactly when the
forwarder never leaves its loop. -/
theorem block_staging_accounted (limit sizeOfEvent : Nat) : (∀ run : List (Label ι (List UInt8)),
      Always (step (EventDispatcher.staging .block limit))
          (Accounted (EventDispatcher.staging .block limit)) State.new run ↔
        EachStep (step (EventDispatcher.staging .block limit)) (fun _ label => label ≠ .stop)
          State.new run) ∧ ∀ run : List (Label ι (String × WebhookEvent)),
        Always (step (WebhookDispatcher.staging .block sizeOfEvent limit))
            (Accounted (WebhookDispatcher.staging .block sizeOfEvent limit)) State.new run ↔
          EachStep (step (WebhookDispatcher.staging .block sizeOfEvent limit))
            (fun _ label => label ≠ .stop) State.new run :=
  ⟨always_accounted_iff _ rfl, always_accounted_iff _ rfl⟩

end

def forwardedRun : List (Label Unit (List UInt8)) := [.issue () [123, 125], .send (), .receive]

theorem block_staging_accounted_forwarded :
    Always (step (EventDispatcher.staging .block 4)) (Accounted (EventDispatcher.staging .block 4))
      State.new (forwardedRun ++ [.forward, .settle, .take 1]) :=
  ((block_staging_accounted 4 0).1 _).mpr (EachStep.of_forall_mem
    (fun label hMem _ hStop => by
      rw [hStop] at hMem
      simp [forwardedRun] at hMem) _)

/-- The queue is closed when the forwarder sends: the envelope is neither counted as dropped
nor held nor in the queue. -/
theorem failed_send_uncounted : ∃ τ, exec (step (EventDispatcher.staging .block 4)) State.new
        (forwardedRun ++ [.close, .forward, .settle, .stop]) = some τ ∧
      τ.issued = [⟨(), 0, [123, 125]⟩] ∧ τ.drops = 0 ∧ τ.bytes = 0 ∧
      ¬ τ.Settled ⟨(), 0, [123, 125]⟩ ∧ ¬ Always (step (EventDispatcher.staging .block 4))
        (Accounted (EventDispatcher.staging .block 4)) State.new
        (forwardedRun ++ [.close, .forward, .settle, .stop]) := by
  have hLost (τ : State Unit (List UInt8)) (hRun : exec (step (EventDispatcher.staging .block 4))
      State.new (forwardedRun ++ [.close, .forward, .settle, .stop]) = some τ) :
      ¬ τ.Settled ⟨(), 0, [123, 125]⟩ := by
    cases hRun
    rintro (⟨hDropped, -⟩ | ⟨-, hHeld, -⟩ | ⟨-, -, hEntered⟩)
    · cases hDropped
    · rcases hHeld with ⟨_, _, hReserved | hRefused⟩ | hStaged | hUnsent
      · cases hReserved
      · cases hRefused
      · cases hStaged
      · cases hUnsent
    · cases hEntered
  refine ⟨_, rfl, rfl, rfl, rfl, hLost _ rfl, fun hAlways => ?_⟩
  exact hLost _ rfl ((hAlways.of_exec rfl).settled _ (List.mem_singleton.mpr rfl))

end Zatat
