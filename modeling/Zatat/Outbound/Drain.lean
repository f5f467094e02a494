import Zatat.Outbound.Staging

/-! # Waiting for the outbound queues to drain

`drain_outbound` polls `pending_publishes` and the webhooks' `pending`, each of
which reads several counters at different moments, while the producers, the
forwarders, the publisher task and the webhook loop go on. Every load and store
of a counter and every send and receive is a step of its own. That a queue closes,
after which sends to it fail, is left out here.
-/

namespace Zatat.Drain

open Staging

abbrev Envelope (ι : Type) := Item ι (List UInt8)

abbrev Event (ι : Type) := Item ι (String × WebhookEvent)

structure Config where
  publishOverflow : Overflow
  publishLimit : Nat
  webhookOverflow : Overflow
  webhookLimit : Nat
  sizeOfEvent : Nat

def Config.publish (cfg : Config) : Staging.Config (List UInt8) :=
  EventDispatcher.staging cfg.publishOverflow cfg.publishLimit

def Config.webhook (cfg : Config) : Staging.Config (String × WebhookEvent) :=
  WebhookDispatcher.staging cfg.webhookOverflow cfg.sizeOfEvent cfg.webhookLimit

def feeds {ι α : Type} : Staging.Label ι α → Bool
  | .take _ | .close => false
  | _ => true

/-! ## Envelopes -/

/-- `run_publisher`: a batch taken off the queue, and what is left of it to hand over once
its size is stored. -/
inductive Publisher (ι : Type) where
  | idle
  | received (batch : List (Envelope ι))
  | handing (rest : List (Envelope ι))

structure Publishes (ι : Type) where
  queue : Staging.State ι (List UInt8)
  publisher : Publisher ι
  publishing : Nat
  handed : List (Envelope ι)

inductive PublishLabel (ι : Type) where
  | feed (label : Staging.Label ι (List UInt8))
  | recvMany (n : Nat)
  | storeBatch
  | handOver
  | storeZero

/-- The text of an envelope is never empty. -/
def hasText {ι : Type} : Staging.Label ι (List UInt8) → Bool
  | .issue _ [] => false
  | _ => true

/-! ## Webhook events -/

/-- The webhook loop: an event taken off the queue, and the targets left to deliver it to
once the flag is set. -/
inductive WebhookLoop (ι : Type) where
  | idle
  | received (event : Event ι)
  | delivering (event : Event ι) (targets : List String)

structure Webhooks (ι : Type) where
  queue : Staging.State ι (String × WebhookEvent)
  loop : WebhookLoop ι
  dequeued : Nat
  inFlight : Nat
  dispatched : List (Event ι)
  deliveries : List (Event ι × String)
  /-- Deliveries that have finished and are still counted. -/
  ending : Nat

inductive WebhookLabel (ι : Type) where
  | feed (label : Staging.Label ι (String × WebhookEvent))
  | recv
  | storeDequeued (targets : List String)
  | startDelivery
  | clearDequeued
  | finishDelivery (i : Nat)
  | decrement

/-! ## The reader -/

inductive PublishPhase where
  | started
  | staged
  | queued

inductive WebhookPhase where
  | started
  | queued
  | staged
  | dequeued

/-- `drain_outbound`: for each call what was accepted before it began, and the sum so far. -/
inductive Reader (ι : Type) where
  | idle
  | publishes (phase : PublishPhase) (before : List (Envelope ι)) (sum : Nat)
  | between (published : List (Envelope ι)) (publishes : Nat)
  | webhooks (published : List (Envelope ι)) (publishes : Nat) (phase : WebhookPhase)
      (before : List (Event ι)) (sum : Nat)
  | checked (published : List (Envelope ι)) (publishes : Nat) (delivered : List (Event ι))
      (webhooks : Nat)

inductive ReadLabel where
  | beginPublishes
  | loadStaged
  | loadDepth
  | loadPublishing
  | beginWebhooks
  | loadWebhookDepth
  | loadWebhookStaged
  | loadDequeued
  | loadInFlight
  | again

structure State (ι : Type) where
  publishes : Publishes ι
  webhooks : Webhooks ι
  reader : Reader ι

inductive Label (ι : Type) where
  | publish (label : PublishLabel ι)
  | webhook (label : WebhookLabel ι)
  | read (label : ReadLabel)

variable {ι : Type} [DecidableEq ι]

def State.new : State ι where
  publishes := ⟨Staging.State.new, .idle, 0, []⟩
  webhooks := ⟨Staging.State.new, .idle, 0, 0, [], [], 0⟩
  reader := .idle

section

variable (cfg : Config)

def publishStep (σ : Publishes ι) : PublishLabel ι → Option (Publishes ι)
  | .feed label =>
    if feeds label && hasText label then
      (Staging.step cfg.publish σ.queue label).map fun queue => { σ with queue }
    else none
  | .recvMany n =>
    match σ.publisher with
    | .idle =>
      if n ≤ 64 then
        (Staging.step cfg.publish σ.queue (.take n)).map fun queue =>
          { σ with queue, publisher := .received (σ.queue.queue.take n) }
      else none
    | _ => none
  | .storeBatch =>
    match σ.publisher with
    | .received batch => some { σ with publishing := batch.length, publisher := .handing batch }
    | _ => none
  | .handOver =>
    match σ.publisher with
    | .handing (envelope :: rest) =>
      some { σ with handed := σ.handed ++ [envelope], publisher := .handing rest }
    | _ => none
  | .storeZero =>
    match σ.publisher with
    | .handing [] => some { σ with publishing := 0, publisher := .idle }
    | _ => none

def webhookStep (σ : Webhooks ι) : WebhookLabel ι → Option (Webhooks ι)
  | .feed label =>
    if feeds label then
      (Staging.step cfg.webhook σ.queue label).map fun queue => { σ with queue }
    else none
  | .recv =>
    match σ.loop, σ.queue.queue with
    | .idle, event :: _ =>
      (Staging.step cfg.webhook σ.queue (.take 1)).map fun queue =>
        { σ with queue, loop := .received event }
    | _, _ => none
  | .storeDequeued targets =>
    match σ.loop with
    | .received event => some { σ with dequeued := 1, loop := .delivering event targets }
    | _ => none
  | .startDelivery =>
    match σ.loop with
    | .delivering event (target :: rest) =>
      some { σ with
        inFlight := σ.inFlight + 1
        deliveries := σ.deliveries ++ [(event, target)]
        loop := .delivering event rest }
    | _ => none
  | .clearDequeued =>
    match σ.loop with
    | .delivering event [] =>
      some { σ with dequeued := 0, dispatched := σ.dispatched ++ [event], loop := .idle }
    | _ => none
  | .finishDelivery i =>
    if i < σ.deliveries.length then
      some { σ with deliveries := σ.deliveries.eraseIdx i, ending := σ.ending + 1 }
    else none
  | .decrement =>
    if 0 < σ.ending then
      some { σ with inFlight := σ.inFlight - 1, ending := σ.ending - 1 }
    else none

def stagedFlag (overflow : Overflow) (bytes : Nat) : Nat :=
  match overflow with
  | .bestEffort => 0
  | .block => if 0 < bytes then 1 else 0

def readStep (p : Publishes ι) (w : Webhooks ι) : Reader ι → ReadLabel → Option (Reader ι)
  | .idle, .beginPublishes => some (.publishes .started p.queue.accepted 0)
  | .publishes .started before sum, .loadStaged =>
    some (.publishes .staged before (sum + stagedFlag cfg.publishOverflow p.queue.bytes))
  | .publishes .staged before sum, .loadDepth =>
    some (.publishes .queued before (sum + p.queue.queue.length))
  | .publishes .queued before sum, .loadPublishing =>
    some (.between before (sum + p.publishing))
  | .between published n, .beginWebhooks =>
    some (.webhooks published n .started w.queue.accepted 0)
  | .webhooks published n .started before sum, .loadWebhookDepth =>
    some (.webhooks published n .queued before (sum + w.queue.queue.length))
  | .webhooks published n .queued before sum, .loadWebhookStaged =>
    some (.webhooks published n .staged before
      (sum + stagedFlag cfg.webhookOverflow w.queue.bytes))
  | .webhooks published n .staged before sum, .loadDequeued =>
    some (.webhooks published n .dequeued before (sum + w.dequeued))
  | .webhooks published n .dequeued before sum, .loadInFlight =>
    some (.checked published n before (sum + w.inFlight))
  | .checked _ _ _ _, .again => some .idle
  | _, _ => none

def step (σ : State ι) : Label ι → Option (State ι)
  | .publish label =>
    (publishStep cfg σ.publishes label).map fun publishes => { σ with publishes }
  | .webhook label => (webhookStep cfg σ.webhooks label).map fun webhooks => { σ with webhooks }
  | .read label =>
    (readStep cfg σ.publishes σ.webhooks σ.reader label).map fun reader => { σ with reader }

end

/-! ## What is to hold -/

/-- What the last call of `pending_publishes` returned, with what was accepted before it. -/
def Reader.publishesReturned : Reader ι → Option (List (Envelope ι) × Nat)
  | .between published n | .webhooks published n _ _ _ | .checked published n _ _ =>
    some (published, n)
  | _ => none

def Reader.webhooksReturned : Reader ι → Option (List (Event ι) × Nat)
  | .checked _ _ delivered n => some (delivered, n)
  | _ => none

def Webhooks.Finished (w : Webhooks ι) (event : Event ι) : Prop :=
  event ∈ w.dispatched ∧ ∀ target, (event, target) ∉ w.deliveries

structure Honest (σ : State ι) : Prop where
  publishes : ∀ before, σ.reader.publishesReturned = some (before, 0) →
    ∀ envelope ∈ before, envelope ∈ σ.publishes.handed
  webhooks : ∀ before, σ.reader.webhooksReturned = some (before, 0) →
    ∀ event ∈ before, σ.webhooks.Finished event
  drained : ∀ published delivered, σ.reader = .checked published 0 delivered 0 →
    (∀ envelope ∈ published, envelope ∈ σ.publishes.handed) ∧
      ∀ event ∈ delivered, σ.webhooks.Finished event

/-- No envelope or event accepted before the call slips past the reader: a consumer does not
hold it uncounted when its counter is read, and the webhook forwarder does not move it into
the queue between the reads of the queue and of the staged bytes. -/
def Catches (σ : State ι) : Label ι → Prop
  | .read .loadPublishing => ∀ before sum batch, σ.reader = .publishes .queued before sum →
    σ.publishes.publisher = .received batch → ∀ envelope ∈ batch, envelope ∉ before
  | .webhook (.feed .forward) => ∀ published n before sum,
    σ.reader = .webhooks published n .queued before sum →
      ∀ event ∈ σ.webhooks.queue.forwarder.unsent, event ∉ before
  | .read .loadDequeued => ∀ published n before sum event,
    σ.reader = .webhooks published n .staged before sum →
      σ.webhooks.loop = .received event → event ∉ before
  | _ => True

end Zatat.Drain
