import Zatat.Outbound.Drain

/-! # What the pending counters tell

Whatever the reader has seen so far puts everything that was accepted before the
call a stage further: in the queue or through it, off the queue, handed over.
Each read of zero moves it one stage on, unless it is just between two counters.
-/

namespace Zatat.Drain

open Transition Staging List Option

variable {ι : Type} [DecidableEq ι]

/-! ## Each side on its own -/

def Publisher.inHand : Publisher ι → List (Envelope ι)
  | .idle => []
  | .received batch => batch
  | .handing rest => rest

def Publisher.Counted (publishing : Nat) : Publisher ι → Prop
  | .idle => True
  | .received batch => batch ≠ []
  | .handing _ => 0 < publishing

structure PublishPipe (cfg : Config) (p : Publishes ι) : Prop where
  running : Running cfg.publish p.queue
  text : ∀ envelope ∈ p.queue.accepted, envelope.message ≠ []
  taken : p.queue.entered = p.handed ++ p.publisher.inHand ++ p.queue.queue
  counted : p.publisher.Counted p.publishing

/-- What is accepted, entered, taken and handed stays so. -/
structure Publishes.Advances (p p' : Publishes ι) : Prop where
  accepted : p.queue.accepted ⊆ p'.queue.accepted
  entered : p.queue.entered ⊆ p'.queue.entered
  taken : p.handed ++ p.publisher.inHand ⊆ p'.handed ++ p'.publisher.inHand
  handed : p.handed ⊆ p'.handed

omit [DecidableEq ι] in
theorem feeds_iff {α : Type} {label : Staging.Label ι α} (h : feeds label = true) :
    label ≠ .close ∧ ∀ n, label ≠ .take n := by
  refine ⟨?_, fun n => ?_⟩
  · rintro rfl
    cases h
  · rintro rfl
    cases h

theorem take_eq {α : Type} {cfg : Staging.Config α} {σ τ : Staging.State ι α} {n : Nat}
    (h : Staging.step cfg σ (.take n) = some τ) :
    (0 < n ∧ n ≤ σ.queue.length) ∧ τ = { σ with queue := σ.queue.drop n } := by
  cases acts_of_step h with
  | take hSome => exact ⟨hSome, rfl⟩

/-- What producers and the forwarder do to the queue: nothing leaves it, and what enters it
is in it. -/
structure Fed {α : Type} (cfg : Staging.Config α) (σ τ : Staging.State ι α) : Prop where
  running : Running cfg τ
  accepted : σ.accepted ⊆ τ.accepted
  entered : σ.entered ⊆ τ.entered
  taken : ∀ front, σ.entered = front ++ σ.queue → τ.entered = front ++ τ.queue

theorem fed_of_step {α : Type} {cfg : Staging.Config α} {σ τ : Staging.State ι α}
    {label : Staging.Label ι α} (h : Running cfg σ) (hFeeds : feeds label = true)
    (hStep : Staging.step cfg σ label = some τ) : Fed cfg σ τ := by
  obtain ⟨hOpen, hTake⟩ := feeds_iff hFeeds
  have hEnters := h.enters hStep hOpen hTake
  refine ⟨h.step hOpen hStep, ?_, ?_, fun front hTaken => ?_⟩
  · rcases h.accepts hStep with hSame | ⟨_, _, _, hNew⟩
    · exact hSame.symm ▸ List.Subset.refl _
    · exact hNew.symm ▸ subset_append_left ..
  · rcases hEnters with ⟨hSame, -⟩ | ⟨item, hNew, -, -⟩
    · exact hSame.symm ▸ List.Subset.refl _
    · exact hNew.symm ▸ subset_append_left ..
  · rcases hEnters with ⟨hSame, hQueued⟩ | ⟨item, hNew, hQueued, -⟩
    · rw [hSame, hQueued]
      exact hTaken
    · rw [hNew, hQueued, hTaken, append_assoc]

theorem publishPipe_step {cfg : Config} {p p' : Publishes ι} {label : PublishLabel ι}
    (h : PublishPipe cfg p) (hStep : publishStep cfg p label = some p') :
    PublishPipe cfg p' ∧ p.Advances p' := by
  cases label with
  | feed own =>
    rw [publishStep] at hStep
    split at hStep
    · rename_i hOwn
      obtain ⟨queue, hQueue, rfl⟩ := map_eq_some_iff.mp hStep
      obtain ⟨hFeeds, hText⟩ := Bool.and_eq_true_iff.mp hOwn
      have hFed := fed_of_step h.running hFeeds hQueue
      refine ⟨⟨hFed.running, fun envelope hMem => ?_, hFed.taken _ h.taken, h.counted⟩,
        hFed.accepted, hFed.entered, List.Subset.refl _, List.Subset.refl _⟩
      rcases h.running.accepts hQueue with hSame | ⟨_, message, rfl, hNew⟩
      · exact h.text envelope (hSame ▸ hMem)
      · change envelope ∈ queue.accepted at hMem
        rw [hNew] at hMem
        rcases mem_append.mp hMem with hOld | hLast
        · exact h.text envelope hOld
        · cases mem_singleton.mp hLast
          rintro (rfl : message = [])
          cases hText
    · cases hStep
  | recvMany n =>
    rw [publishStep] at hStep
    split at hStep
    · rename_i hIdle
      obtain ⟨-, hTaken⟩ := ite_none_right_eq_some.mp hStep
      obtain ⟨queue, hQueue, rfl⟩ := map_eq_some_iff.mp hTaken
      have hRunning := h.running.step (by rintro ⟨⟩) hQueue
      obtain ⟨⟨hPos, hLen⟩, rfl⟩ := take_eq hQueue
      have hTaken := h.taken
      rw [hIdle] at hTaken
      refine ⟨⟨hRunning, h.text, ?_, ?_⟩, List.Subset.refl _, List.Subset.refl _, ?_,
        List.Subset.refl _⟩
      · change p.queue.entered = p.handed ++ p.queue.queue.take n ++ p.queue.queue.drop n
        rw [hTaken, append_assoc _ (List.take ..), take_append_drop]
        exact congrArg (· ++ _) (append_nil _)
      · intro hNil
        have hLength := congrArg List.length hNil
        rw [length_take, Nat.min_eq_left hLen] at hLength
        exact Nat.ne_of_gt hPos hLength
      · rw [hIdle]
        change p.handed ++ [] ⊆ _
        rw [append_nil]
        exact subset_append_left ..
    · cases hStep
  | storeBatch =>
    rw [publishStep] at hStep
    split at hStep <;> cases hStep
    rename_i batch hReceived
    have hTaken := h.taken
    have hCounted := h.counted
    rw [hReceived] at hTaken hCounted
    refine ⟨⟨h.running, h.text, hTaken, length_pos_of_ne_nil hCounted⟩,
      List.Subset.refl _, List.Subset.refl _, ?_, List.Subset.refl _⟩
    rw [hReceived]
    exact List.Subset.refl _
  | handOver =>
    rw [publishStep] at hStep
    split at hStep <;> cases hStep
    rename_i envelope rest hHanding
    have hTaken := h.taken
    have hCounted := h.counted
    rw [hHanding] at hTaken hCounted
    have hSame : p.handed ++ [envelope] ++ rest = p.handed ++ envelope :: rest := by
      rw [append_assoc, singleton_append]
    refine ⟨⟨h.running, h.text, ?_, hCounted⟩, List.Subset.refl _, List.Subset.refl _, ?_,
      subset_append_left ..⟩
    · change p.queue.entered = p.handed ++ [envelope] ++ rest ++ p.queue.queue
      rw [hSame]
      exact hTaken
    · rw [hHanding]
      change p.handed ++ envelope :: rest ⊆ p.handed ++ [envelope] ++ rest
      rw [hSame]
      exact List.Subset.refl _
  | storeZero =>
    rw [publishStep] at hStep
    split at hStep <;> cases hStep
    rename_i hHanding
    have hTaken := h.taken
    rw [hHanding] at hTaken
    refine ⟨⟨h.running, h.text, hTaken, trivial⟩, List.Subset.refl _, List.Subset.refl _, ?_,
      List.Subset.refl _⟩
    rw [hHanding]
    exact List.Subset.refl _

def WebhookLoop.inHand : WebhookLoop ι → List (Event ι)
  | .idle => []
  | .received event | .delivering event _ => [event]

def WebhookLoop.Counted (dequeued : Nat) : WebhookLoop ι → Prop
  | .delivering _ _ => 0 < dequeued
  | _ => True

structure WebhookPipe (cfg : Config) (w : Webhooks ι) : Prop where
  running : Running cfg.webhook w.queue
  taken : w.queue.entered = w.dispatched ++ w.loop.inHand ++ w.queue.queue
  counted : w.loop.Counted w.dequeued
  flight : w.inFlight = w.deliveries.length + w.ending

structure Webhooks.Advances (w w' : Webhooks ι) : Prop where
  accepted : w.queue.accepted ⊆ w'.queue.accepted
  taken : w.dispatched ++ w.loop.inHand ⊆ w'.dispatched ++ w'.loop.inHand
  dispatched : w.dispatched ⊆ w'.dispatched
  finished : ∀ event, w.Finished event → w'.Finished event

/-- What comes into the queue was neither accepted before, nor with the forwarder unless it
is the forwarder that moves. -/
def Webhooks.Enters (w w' : Webhooks ι) (label : WebhookLabel ι) : Prop :=
  ∀ event ∈ w'.queue.entered, event ∈ w.queue.entered ∨ event ∉ w.queue.accepted ∨
    label = .feed .forward ∧ event ∈ w.queue.forwarder.unsent

theorem WebhookPipe.not_dispatched {cfg : Config} {w : Webhooks ι} (h : WebhookPipe cfg w)
    {event : Event ι} (hHand : event ∈ w.loop.inHand) : event ∉ w.dispatched := by
  have hNodup := h.running.flow.pipeline_nodup.sublist (Flow.entered_sublist w.queue)
  rw [h.taken, append_assoc] at hNodup
  exact fun hMem => disjoint_of_nodup_append hNodup hMem (mem_append_left _ hHand)

omit [DecidableEq ι] in
theorem Webhooks.enters_of_same {w w' : Webhooks ι} (hQueue : w'.queue.entered = w.queue.entered)
    (label : WebhookLabel ι) : w.Enters w' label := fun _ hMem => .inl (hQueue ▸ hMem)

/-- What is known of the webhook side after each of its steps. -/
structure WebhookMoves (cfg : Config) (w w' : Webhooks ι) (label : WebhookLabel ι) : Prop where
  pipe : WebhookPipe cfg w'
  advances : w.Advances w'
  enters : w.Enters w' label

section

variable {cfg : Config} {w w' : Webhooks ι} (h : WebhookPipe cfg w)
include h

theorem WebhookPipe.feed {own : Staging.Label ι (String × WebhookEvent)}
    (hStep : webhookStep cfg w (.feed own) = some w') : WebhookMoves cfg w w' (.feed own) := by
  obtain ⟨hFeeds, hFed⟩ := ite_none_right_eq_some.mp hStep
  obtain ⟨queue, hQueue, rfl⟩ := map_eq_some_iff.mp hFed
  obtain ⟨hOpen, hTake⟩ := feeds_iff hFeeds
  have hFed := fed_of_step h.running hFeeds hQueue
  refine ⟨⟨hFed.running, hFed.taken _ h.taken, h.counted, h.flight⟩,
    ⟨hFed.accepted, List.Subset.refl _, List.Subset.refl _, fun _ => id⟩, fun event hMem => ?_⟩
  change event ∈ queue.entered at hMem
  rcases h.running.enters hQueue hOpen hTake with ⟨hSame, -⟩ | ⟨item, hNew, -, hWhence⟩
  · exact .inl (hSame ▸ hMem)
  · rw [hNew] at hMem
    rcases mem_append.mp hMem with hOld | hLast
    · exact .inl hOld
    · cases mem_singleton.mp hLast
      rcases hWhence with hFresh | ⟨rfl, hUnsent⟩
      · exact .inr (.inl fun hAccepted =>
          hFresh (h.running.flow.logged.sublist.subset hAccepted))
      · exact .inr (.inr ⟨rfl, hUnsent⟩)

theorem WebhookPipe.recv (hStep : webhookStep cfg w .recv = some w') :
    WebhookMoves cfg w w' .recv := by
  rw [webhookStep] at hStep
  split at hStep
  · rename_i event rest hIdle hHead
    obtain ⟨queue, hQueue, rfl⟩ := map_eq_some_iff.mp hStep
    have hRunning := h.running.step (by rintro ⟨⟩) hQueue
    obtain ⟨-, rfl⟩ := take_eq hQueue
    have hTaken := h.taken
    rw [hIdle, hHead] at hTaken
    refine ⟨⟨hRunning, ?_, trivial, h.flight⟩,
      ⟨List.Subset.refl _, ?_, List.Subset.refl _, fun _ => id⟩, Webhooks.enters_of_same rfl _⟩
    · change w.queue.entered = w.dispatched ++ [event] ++ w.queue.queue.drop 1
      rw [hTaken, hHead, append_assoc, append_assoc]
      rfl
    · rw [hIdle]
      change w.dispatched ++ [] ⊆ _
      rw [append_nil]
      exact subset_append_left ..
  · cases hStep

theorem WebhookPipe.storeDequeued {targets : List String}
    (hStep : webhookStep cfg w (.storeDequeued targets) = some w') :
    WebhookMoves cfg w w' (.storeDequeued targets) := by
  rw [webhookStep] at hStep
  split at hStep <;> cases hStep
  rename_i event hReceived
  have hTaken := h.taken
  rw [hReceived] at hTaken
  refine ⟨⟨h.running, hTaken, Nat.one_pos, h.flight⟩,
    ⟨List.Subset.refl _, ?_, List.Subset.refl _, fun _ => id⟩, Webhooks.enters_of_same rfl _⟩
  rw [hReceived]
  exact List.Subset.refl _

theorem WebhookPipe.startDelivery (hStep : webhookStep cfg w .startDelivery = some w') :
    WebhookMoves cfg w w' .startDelivery := by
  rw [webhookStep] at hStep
  split at hStep <;> cases hStep
  rename_i event target rest hDelivering
  have hTaken := h.taken
  have hCounted := h.counted
  rw [hDelivering] at hTaken hCounted
  have hHand : event ∈ w.loop.inHand := by
    rw [hDelivering]
    exact mem_singleton.mpr rfl
  refine ⟨⟨h.running, hTaken, hCounted, ?_⟩, ⟨List.Subset.refl _, ?_, List.Subset.refl _,
    fun other hFinished => ?_⟩, Webhooks.enters_of_same rfl _⟩
  · change w.inFlight + 1 = (w.deliveries ++ [(event, target)]).length + w.ending
    rw [h.flight, length_append, length_singleton]
    omega
  · rw [hDelivering]
    exact List.Subset.refl _
  · refine ⟨hFinished.1, fun t hMem => ?_⟩
    rcases mem_append.mp hMem with hOld | hLast
    · exact hFinished.2 t hOld
    · cases mem_singleton.mp hLast
      exact h.not_dispatched hHand hFinished.1

theorem WebhookPipe.clearDequeued (hStep : webhookStep cfg w .clearDequeued = some w') :
    WebhookMoves cfg w w' .clearDequeued := by
  rw [webhookStep] at hStep
  split at hStep <;> cases hStep
  rename_i event hDelivering
  have hTaken := h.taken
  rw [hDelivering] at hTaken
  refine ⟨⟨h.running, ?_, trivial, h.flight⟩, ⟨List.Subset.refl _, ?_, subset_append_left ..,
    fun other hFinished => ?_⟩, Webhooks.enters_of_same rfl _⟩
  · change w.queue.entered = w.dispatched ++ [event] ++ [] ++ w.queue.queue
    rw [append_nil]
    exact hTaken
  · rw [hDelivering]
    exact subset_append_left ..
  · exact ⟨mem_append_left _ hFinished.1, hFinished.2⟩

theorem WebhookPipe.finishDelivery {i : Nat}
    (hStep : webhookStep cfg w (.finishDelivery i) = some w') :
    WebhookMoves cfg w w' (.finishDelivery i) := by
  obtain ⟨hLess, hEq⟩ := ite_none_right_eq_some.mp hStep
  cases hEq
  refine ⟨⟨h.running, h.taken, h.counted, ?_⟩, ⟨List.Subset.refl _, List.Subset.refl _,
    List.Subset.refl _, fun other hFinished => ?_⟩, Webhooks.enters_of_same rfl _⟩
  · change w.inFlight = (w.deliveries.eraseIdx i).length + (w.ending + 1)
    rw [h.flight, length_eraseIdx_of_lt hLess]
    omega
  · exact ⟨hFinished.1, fun t hMem => hFinished.2 t (mem_of_mem_eraseIdx hMem)⟩

theorem WebhookPipe.decrement (hStep : webhookStep cfg w .decrement = some w') :
    WebhookMoves cfg w w' .decrement := by
  obtain ⟨hSome, hEq⟩ := ite_none_right_eq_some.mp hStep
  cases hEq
  refine ⟨⟨h.running, h.taken, h.counted, ?_⟩, ⟨List.Subset.refl _, List.Subset.refl _,
    List.Subset.refl _, fun _ => id⟩, Webhooks.enters_of_same rfl _⟩
  change w.inFlight - 1 = w.deliveries.length + (w.ending - 1)
  rw [h.flight]
  omega

theorem WebhookPipe.step {label : WebhookLabel ι} (hStep : webhookStep cfg w label = some w') :
    WebhookMoves cfg w w' label := by
  cases label with
  | feed => exact h.feed hStep
  | recv => exact h.recv hStep
  | storeDequeued => exact h.storeDequeued hStep
  | startDelivery => exact h.startDelivery hStep
  | clearDequeued => exact h.clearDequeued hStep
  | finishDelivery => exact h.finishDelivery hStep
  | decrement => exact h.decrement hStep

end

/-! ## What a read says -/

theorem stagedFlag_eq_zero {overflow : Overflow} {bytes : Nat} (h : stagedFlag overflow bytes = 0)
    (hBlock : overflow = .block) : bytes = 0 := by
  rw [hBlock, stagedFlag] at h
  split at h
  · cases h
  · exact Nat.eq_zero_of_not_pos ‹_›

section

variable {cfg : Config} {p : Publishes ι} {w : Webhooks ι}

theorem PublishPipe.entered_of_staged (h : PublishPipe cfg p)
    (hFlag : stagedFlag cfg.publishOverflow p.queue.bytes = 0) :
    p.queue.accepted ⊆ p.queue.entered := by
  intro envelope hMem
  refine h.running.entered_of_accepted (fun e he => ?_) (stagedFlag_eq_zero hFlag) hMem
  exact length_pos_of_ne_nil (h.text e he)

theorem PublishPipe.taken_of_depth (h : PublishPipe cfg p) (hDepth : p.queue.queue.length = 0) :
    p.queue.entered ⊆ p.handed ++ p.publisher.inHand := by
  rw [h.taken, length_eq_zero_iff.mp hDepth, append_nil]
  exact List.Subset.refl _

theorem PublishPipe.handed_of_publishing (h : PublishPipe cfg p) (hPublishing : p.publishing = 0)
    {envelope : Envelope ι} (hTaken : envelope ∈ p.handed ++ p.publisher.inHand)
    (hCaught : ∀ batch, p.publisher = .received batch → envelope ∉ batch) :
    envelope ∈ p.handed := by
  rcases mem_append.mp hTaken with hHanded | hHand
  · exact hHanded
  · have hCounted := h.counted
    cases hPublisher : p.publisher with
    | idle =>
      rw [hPublisher] at hHand
      cases hHand
    | received batch =>
      rw [hPublisher] at hHand
      exact absurd hHand (hCaught batch hPublisher)
    | handing rest =>
      rw [hPublisher] at hCounted
      exact absurd hPublishing (Nat.ne_of_gt hCounted)

variable (h : WebhookPipe cfg w)

include h

theorem WebhookPipe.entered_of_staged (hSize : 0 < cfg.sizeOfEvent)
    (hFlag : stagedFlag cfg.webhookOverflow w.queue.bytes = 0) :
    w.queue.accepted ⊆ w.queue.entered := by
  intro event hMem
  refine h.running.entered_of_accepted (fun e _ => ?_) (stagedFlag_eq_zero hFlag) hMem
  exact Nat.lt_of_lt_of_le hSize (Nat.le_trans (Nat.le_add_right ..) (Nat.le_add_right ..))

theorem WebhookPipe.taken_of_depth (hDepth : w.queue.queue.length = 0) :
    w.queue.entered ⊆ w.dispatched ++ w.loop.inHand := by
  rw [h.taken, length_eq_zero_iff.mp hDepth, append_nil]
  exact List.Subset.refl _

theorem WebhookPipe.dispatched_of_dequeued (hDequeued : w.dequeued = 0) {event : Event ι}
    (hTaken : event ∈ w.dispatched ++ w.loop.inHand)
    (hCaught : ∀ other, w.loop = .received other → event ≠ other) : event ∈ w.dispatched := by
  rcases mem_append.mp hTaken with hDispatched | hHand
  · exact hDispatched
  · have hCounted := h.counted
    cases hLoop : w.loop with
    | idle =>
      rw [hLoop] at hHand
      cases hHand
    | received other =>
      rw [hLoop] at hHand
      exact absurd (mem_singleton.mp hHand) (hCaught other hLoop)
    | delivering other targets =>
      rw [hLoop] at hCounted
      exact absurd hDequeued (Nat.ne_of_gt hCounted)

theorem WebhookPipe.finished_of_inFlight (hFlight : w.inFlight = 0) {event : Event ι}
    (hDispatched : event ∈ w.dispatched) : w.Finished event := by
  have hNone : w.deliveries = [] := by
    have hLength := h.flight
    rw [hFlight] at hLength
    exact length_eq_zero_iff.mp (by omega)
  refine ⟨hDispatched, fun target hMem => ?_⟩
  rw [hNone] at hMem
  cases hMem

end

/-! ## The reader -/

/-- How far everything accepted before a call of `pending_publishes` has come. -/
def PublishPhase.Sound (p : Publishes ι) (before : List (Envelope ι)) (sum : Nat) :
    PublishPhase → Prop
  | .started => before ⊆ p.queue.accepted
  | .staged => sum = 0 → before ⊆ p.queue.entered
  | .queued => sum = 0 → before ⊆ p.handed ++ p.publisher.inHand

def WebhookPhase.Sound (w : Webhooks ι) (before : List (Event ι)) (sum : Nat) :
    WebhookPhase → Prop
  | .started => before ⊆ w.queue.accepted
  | .queued => before ⊆ w.queue.accepted ∧ (sum = 0 →
      ∀ event ∈ before, event ∈ w.queue.entered → event ∈ w.dispatched ++ w.loop.inHand)
  | .staged => sum = 0 → before ⊆ w.dispatched ++ w.loop.inHand
  | .dequeued => sum = 0 → before ⊆ w.dispatched

def Reader.Sound (p : Publishes ι) (w : Webhooks ι) : Reader ι → Prop
  | .idle => True
  | .publishes phase before sum => phase.Sound p before sum
  | .between published n => n = 0 → published ⊆ p.handed
  | .webhooks published n phase before sum =>
    (n = 0 → published ⊆ p.handed) ∧ phase.Sound w before sum
  | .checked published n delivered m =>
    (n = 0 → published ⊆ p.handed) ∧ (m = 0 → ∀ event ∈ delivered, w.Finished event)

structure Invariant (cfg : Config) (σ : State ι) : Prop where
  publishes : PublishPipe cfg σ.publishes
  webhooks : WebhookPipe cfg σ.webhooks
  reader : σ.reader.Sound σ.publishes σ.webhooks

theorem invariant_new (cfg : Config) : Invariant cfg (State.new : State ι) where
  publishes := ⟨Running.new _, fun _ hMem => (not_mem_nil hMem).elim, rfl, trivial⟩
  webhooks := ⟨Running.new _, rfl, trivial, rfl⟩
  reader := trivial

omit [DecidableEq ι] in
theorem Reader.Sound.honest {σ : State ι} (h : σ.reader.Sound σ.publishes σ.webhooks) :
    Honest σ := by
  have hPublishes : ∀ before, σ.reader.publishesReturned = some (before, 0) →
      before ⊆ σ.publishes.handed := by
    intro before hReturned
    cases hReader : σ.reader with
    | idle | publishes =>
      rw [hReader] at hReturned
      cases hReturned
    | between published n =>
      rw [hReader] at hReturned h
      cases hReturned
      exact h rfl
    | webhooks | checked =>
      rw [hReader] at hReturned h
      cases hReturned
      exact h.1 rfl
  have hWebhooks : ∀ before, σ.reader.webhooksReturned = some (before, 0) →
      ∀ event ∈ before, σ.webhooks.Finished event := by
    intro before hReturned
    cases hReader : σ.reader with
    | checked published n delivered m =>
      rw [hReader] at hReturned h
      cases hReturned
      exact h.2 rfl
    | _ =>
      rw [hReader] at hReturned
      cases hReturned
  refine ⟨hPublishes, hWebhooks, fun published delivered hChecked => ⟨?_, ?_⟩⟩
  · exact hPublishes published (by rw [hChecked]; rfl)
  · exact hWebhooks delivered (by rw [hChecked]; rfl)

omit [DecidableEq ι] in
theorem Reader.Sound.publish {p p' : Publishes ι} {w : Webhooks ι} {reader : Reader ι}
    (h : reader.Sound p w) (hAdvances : p.Advances p') : reader.Sound p' w := by
  cases reader with
  | idle => trivial
  | publishes phase before sum =>
    cases phase with
    | started => exact List.Subset.trans h hAdvances.accepted
    | staged => exact fun hZero => List.Subset.trans (h hZero) hAdvances.entered
    | queued => exact fun hZero => List.Subset.trans (h hZero) hAdvances.taken
  | between published n => exact fun hZero => List.Subset.trans (h hZero) hAdvances.handed
  | webhooks | checked =>
    exact ⟨fun hZero => List.Subset.trans (h.1 hZero) hAdvances.handed, h.2⟩

omit [DecidableEq ι] in
theorem Reader.Sound.webhook {p : Publishes ι} {w w' : Webhooks ι} {reader : Reader ι}
    (h : reader.Sound p w) (hAdvances : w.Advances w')
    (hEnters : ∀ published n before sum, reader = .webhooks published n .queued before sum →
      before ⊆ w.queue.accepted → ∀ event ∈ before, event ∈ w'.queue.entered →
        event ∈ w.queue.entered) : reader.Sound p w' := by
  cases reader with
  | idle => trivial
  | publishes | between => exact h
  | webhooks published n phase before sum =>
    refine ⟨h.1, ?_⟩
    have hPhase := h.2
    cases phase with
    | started => exact List.Subset.trans hPhase hAdvances.accepted
    | queued =>
      refine ⟨List.Subset.trans hPhase.1 hAdvances.accepted, fun hZero event hMem hIn => ?_⟩
      have hBefore := hEnters published n before sum rfl hPhase.1 event hMem hIn
      exact hAdvances.taken (hPhase.2 hZero event hMem hBefore)
    | staged => exact fun hZero => List.Subset.trans (hPhase hZero) hAdvances.taken
    | dequeued => exact fun hZero => List.Subset.trans (hPhase hZero) hAdvances.dispatched
  | checked published n delivered m =>
    exact ⟨h.1, fun hZero event hMem => hAdvances.finished event (h.2 hZero event hMem)⟩

/-! ## Whole runs -/

section

variable {cfg : Config} {σ τ : State ι}

theorem sound_read (hSize : 0 < cfg.sizeOfEvent) (h : Invariant cfg σ) {label : ReadLabel}
    (hCatches : Catches σ (.read label)) {reader : Reader ι}
    (hStep : readStep cfg σ.publishes σ.webhooks σ.reader label = some reader) :
    reader.Sound σ.publishes σ.webhooks := by
  have hSound := h.reader
  rw [readStep.eq_def] at hStep
  split at hStep <;> cases hStep
  · exact List.Subset.refl _
  · rename_i before sum hReader
    rw [hReader] at hSound
    intro hZero
    have hFlag := Nat.eq_zero_of_add_eq_zero_left hZero
    exact List.Subset.trans hSound (h.publishes.entered_of_staged hFlag)
  · rename_i before sum hReader
    rw [hReader] at hSound
    intro hZero
    obtain ⟨hSum, hDepth⟩ := Nat.eq_zero_of_add_eq_zero hZero
    exact List.Subset.trans (hSound hSum) (h.publishes.taken_of_depth hDepth)
  · rename_i before sum hReader
    rw [hReader] at hSound
    intro hZero envelope hMem
    obtain ⟨hSum, hPublishing⟩ := Nat.eq_zero_of_add_eq_zero hZero
    refine h.publishes.handed_of_publishing hPublishing (hSound hSum hMem) ?_
    exact fun batch hReceived hIn => hCatches before sum batch hReader hReceived envelope hIn hMem
  · rename_i published n hReader
    rw [hReader] at hSound
    exact ⟨hSound, List.Subset.refl _⟩
  · rename_i published n before sum hReader
    rw [hReader] at hSound
    refine ⟨hSound.1, hSound.2, fun hZero event _ hIn => ?_⟩
    exact h.webhooks.taken_of_depth (Nat.eq_zero_of_add_eq_zero_left hZero) hIn
  · rename_i published n before sum hReader
    rw [hReader] at hSound
    refine ⟨hSound.1, fun hZero event hMem => ?_⟩
    obtain ⟨hSum, hFlag⟩ := Nat.eq_zero_of_add_eq_zero hZero
    have hEntered := h.webhooks.entered_of_staged hSize hFlag (hSound.2.1 hMem)
    exact hSound.2.2 hSum event hMem hEntered
  · rename_i published n before sum hReader
    rw [hReader] at hSound
    refine ⟨hSound.1, fun hZero event hMem => ?_⟩
    obtain ⟨hSum, hDequeued⟩ := Nat.eq_zero_of_add_eq_zero hZero
    refine h.webhooks.dispatched_of_dequeued hDequeued (hSound.2 hSum hMem) ?_
    rintro other hReceived rfl
    exact hCatches published n before sum event hReader hReceived hMem
  · rename_i published n before sum hReader
    rw [hReader] at hSound
    refine ⟨hSound.1, fun hZero event hMem => ?_⟩
    obtain ⟨hSum, hFlight⟩ := Nat.eq_zero_of_add_eq_zero hZero
    exact h.webhooks.finished_of_inFlight hFlight (hSound.2 hSum hMem)
  · trivial

theorem invariant_step (hSize : 0 < cfg.sizeOfEvent) (h : Invariant cfg σ) {label : Label ι}
    (hCatches : Catches σ label) (hStep : step cfg σ label = some τ) : Invariant cfg τ := by
  cases label with
  | publish own =>
    obtain ⟨publishes, hOwn, rfl⟩ := map_eq_some_iff.mp hStep
    obtain ⟨hPipe, hAdvances⟩ := publishPipe_step h.publishes hOwn
    exact ⟨hPipe, h.webhooks, h.reader.publish hAdvances⟩
  | webhook own =>
    obtain ⟨webhooks, hOwn, rfl⟩ := map_eq_some_iff.mp hStep
    obtain ⟨hPipe, hAdvances, hEnters⟩ := h.webhooks.step hOwn
    refine ⟨h.publishes, hPipe, h.reader.webhook hAdvances ?_⟩
    intro published n before sum hReader hBefore event hMem hIn
    rcases hEnters event hIn with hOld | hFresh | ⟨rfl, hUnsent⟩
    · exact hOld
    · exact absurd (hBefore hMem) hFresh
    · exact absurd hMem (hCatches published n before sum hReader event hUnsent)
  | read own =>
    obtain ⟨reader, hOwn, rfl⟩ := map_eq_some_iff.mp hStep
    exact ⟨h.publishes, h.webhooks, sound_read hSize h hCatches hOwn⟩

end

/-- When nothing slips past the reader, a counter that returns zero says that everything
accepted before the call has left the process. -/
theorem drain_honest (cfg : Config) (hSize : 0 < cfg.sizeOfEvent) (run : List (Label ι))
    (hCatches : EachStep (step cfg) Catches State.new run) :
    Always (step cfg) Honest State.new run := by
  have hInvariant : Always (step cfg) (Invariant cfg) State.new run :=
    always_of_step (fun _ _ _ h hCatch hStep => invariant_step hSize h hCatch hStep)
      (invariant_new cfg) hCatches
  exact hInvariant.mono fun _ h => h.reader.honest

/-! ## Three runs -/

def readPublishes : List (Label Unit) :=
  [.read .beginPublishes, .read .loadStaged, .read .loadDepth, .read .loadPublishing]

/-- An event counts as a hundred bytes, and what its strings take. -/
def bestEffort : Config := ⟨.bestEffort, 4096, .bestEffort, 4096, 100⟩

def block : Config := ⟨.block, 4096, .block, 4096, 100⟩

def stagedEvent : List (Label Unit) :=
  [.webhook (.feed (.issue () ("app", .CacheMiss "cache-room"))), .webhook (.feed (.send ())),
    .webhook (.feed .receive)]

/-- An envelope and an event go all the way before the reader comes. -/
def handedOverRun : List (Label Unit) :=
  [.publish (.feed (.issue () [123, 125])), .publish (.feed (.send ())), .publish (.feed .receive),
    .publish (.feed .forward), .publish (.feed .settle), .publish (.recvMany 1),
    .publish .storeBatch, .publish .handOver, .publish .storeZero] ++ stagedEvent ++
  [.webhook (.feed .forward), .webhook (.feed .settle), .webhook .recv,
    .webhook (.storeDequeued ["hook"]), .webhook .startDelivery, .webhook .clearDequeued,
    .webhook (.finishDelivery 0), .webhook .decrement] ++ readPublishes ++
  [.read .beginWebhooks, .read .loadWebhookDepth, .read .loadWebhookStaged, .read .loadDequeued,
    .read .loadInFlight]

theorem drain_honest_handedOver :
    (exec (step block) State.new handedOverRun).map State.reader =
      some (.checked [⟨(), 0, [123, 125]⟩] 0 [⟨(), 0, "app", .CacheMiss "cache-room"⟩] 0) ∧
    Always (step block) Honest State.new handedOverRun := by
  refine ⟨rfl, drain_honest _ (by decide) _ ?_⟩
  -- nothing is in a hand that is not counted at any step of this run
  iterate 29
    intro _ hStep
    cases hStep
    refine ⟨by first | trivial | nofun, ?_⟩
  trivial

/-- In the first run the publisher has taken the envelope off the queue and not yet stored the
size of its batch. In the second the forwarder moves the event into the queue after its depth
is read, and gives its bytes back before they are. -/
theorem counters_miss_accepted : ¬ Always (step bestEffort) Honest State.new
        ([.publish (.feed (.issue () [123, 125])), .publish (.recvMany 1)] ++ readPublishes) ∧
      ¬ Always (step block) Honest State.new (stagedEvent ++ readPublishes ++
          [.read .beginWebhooks, .read .loadWebhookDepth, .webhook (.feed .forward),
            .webhook (.feed .settle), .read .loadWebhookStaged, .read .loadDequeued,
            .read .loadInFlight]) := by
  refine ⟨fun h => ?_, fun h => ?_⟩
  · have hHanded := (h.of_exec rfl).publishes [⟨(), 0, [123, 125]⟩] rfl _
      (List.mem_singleton.mpr rfl)
    cases hHanded
  · have hFinished := (h.of_exec rfl).webhooks [⟨(), 0, "app", .CacheMiss "cache-room"⟩] rfl _
      (List.mem_singleton.mpr rfl)
    cases hFinished.1

end Zatat.Drain
