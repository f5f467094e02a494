import Mathlib.Algebra.GroupWithZero.Nat
import Mathlib.Logic.Function.Basic

/-! # A bounded queue behind a staging channel with a byte budget

Producers either try the bounded queue at once, or reserve bytes of a shared
budget and send to an unbounded staging channel, which one forwarder moves into
the queue in order, giving the bytes back after each send. A counter that is
read and written by many tasks changes in one step; what a task does between
two such steps is its own. The queue's receiver may go away at any time; the
forwarder notices at its next send, leaves its loop and takes the staging
channel with it.
-/

namespace Staging

universe u v

inductive Overflow where
  | bestEffort
  | block
deriving DecidableEq, Repr

structure Config (α : Type v) where
  overflow : Overflow
  size : α → Nat
  limit : Nat
  capacity : Nat
  /-- A direct send counts as dropped when the queue is closed. -/
  countsClosed : Bool

structure Item (ι : Type u) (α : Type v) where
  producer : ι
  number : Nat
  message : α

inductive Producer (ι : Type u) (α : Type v) where
  | idle
  | reserved (item : Item ι α) (amount : Nat)
  /-- The send failed; the bytes are still to be given back. -/
  | refused (item : Item ι α) (amount : Nat)

inductive Forwarder (ι : Type u) (α : Type v) where
  | waiting
  | holding (item : Item ι α) (amount : Nat)
  | sent (item : Item ι α) (amount : Nat)
  | failed (item : Item ι α) (amount : Nat)
  | leaving (item : Item ι α)
  | stopped

/-- The counters and channels, and what has happened to the messages so far. -/
structure State (ι : Type u) (α : Type v) where
  bytes : Nat
  drops : Nat
  producers : ι → Producer ι α
  staging : List (Item ι α)
  forwarder : Forwarder ι α
  queue : List (Item ι α)
  queueOpen : Bool
  issued : List (Item ι α)
  dropped : List (Item ι α)
  accepted : List (Item ι α)
  entered : List (Item ι α)
  reserved : List (Item ι α × Nat)
  released : List (Item ι α × Nat)

inductive Label (ι : Type u) (α : Type v) where
  | issue (producer : ι) (message : α)
  | send (producer : ι)
  | release (producer : ι)
  | receive
  | forward
  | settle
  | stop
  /-- The consumer of the queue takes what is in front. -/
  | take (n : Nat)
  | close

variable {ι : Type u} {α : Type v} [DecidableEq ι]

def ofProducer (p : ι) (items : List (Item ι α)) : List (Item ι α) :=
  items.filter fun i => i.producer = p

namespace State

def new : State ι α where
  bytes := 0
  drops := 0
  producers _ := .idle
  staging := []
  forwarder := .waiting
  queue := []
  queueOpen := true
  issued := []
  dropped := []
  accepted := []
  entered := []
  reserved := []
  released := []

def setProducer (σ : State ι α) (p : ι) (producer : Producer ι α) : State ι α :=
  { σ with producers := Function.update σ.producers p producer }

def nextItem (σ : State ι α) (p : ι) (message : α) : Item ι α :=
  ⟨p, (ofProducer p σ.issued).length, message⟩

def drop (σ : State ι α) (item : Item ι α) : State ι α :=
  { σ with drops := σ.drops + 1, issued := σ.issued ++ [item], dropped := σ.dropped ++ [item] }

def enter (σ : State ι α) (item : Item ι α) : State ι α :=
  { σ with queue := σ.queue ++ [item], entered := σ.entered ++ [item] }

def giveBack (σ : State ι α) (item : Item ι α) (amount : Nat) : State ι α :=
  { σ with bytes := σ.bytes - amount, released := σ.released ++ [(item, amount)] }

end State

section

variable (cfg : Config α)

/-- A full queue drops and counts; a closed one counts or not. -/
def trySend (σ : State ι α) (item : Item ι α) : State ι α :=
  if σ.queueOpen then
    if σ.queue.length < cfg.capacity then
      { σ.enter item with issued := σ.issued ++ [item], accepted := σ.accepted ++ [item] }
    else σ.drop item
  else if cfg.countsClosed then σ.drop item
  else { σ with issued := σ.issued ++ [item] }

def reserve (σ : State ι α) (item : Item ι α) : State ι α :=
  let amount := cfg.size item.message
  if σ.bytes + amount ≤ cfg.limit then
    { σ.setProducer item.producer (.reserved item amount) with
      bytes := σ.bytes + amount
      issued := σ.issued ++ [item]
      accepted := σ.accepted ++ [item]
      reserved := σ.reserved ++ [(item, amount)] }
  else σ.drop item

def issue (σ : State ι α) (p : ι) (message : α) : State ι α :=
  match cfg.overflow with
  | .bestEffort => trySend cfg σ (σ.nextItem p message)
  | .block => reserve cfg σ (σ.nextItem p message)

/-- The staging channel is open as long as the forwarder holds its receiving end. -/
def send (σ : State ι α) (p : ι) (item : Item ι α) (amount : Nat) : State ι α :=
  match σ.forwarder with
  | .stopped => σ.setProducer p (.refused item amount)
  | _ => { σ.setProducer p .idle with staging := σ.staging ++ [item] }

/-- The send waits for a free slot, and fails when the queue is closed. -/
def forward (σ : State ι α) (item : Item ι α) (amount : Nat) : Option (State ι α) :=
  if σ.queueOpen then
    if σ.queue.length < cfg.capacity then
      some { σ.enter item with forwarder := .sent item amount }
    else none
  else some { σ with forwarder := .failed item amount }

def step (σ : State ι α) : Label ι α → Option (State ι α)
  | .issue p message =>
    match σ.producers p with
    | .idle => some (issue cfg σ p message)
    | _ => none
  | .send p =>
    match σ.producers p with
    | .reserved item amount => some (send σ p item amount)
    | _ => none
  | .release p =>
    match σ.producers p with
    | .refused item amount => some ((σ.giveBack item amount).setProducer p .idle)
    | _ => none
  | .receive =>
    match σ.forwarder, σ.staging with
    | .waiting, item :: rest =>
      some { σ with forwarder := .holding item (cfg.size item.message), staging := rest }
    | _, _ => none
  | .forward =>
    match σ.forwarder with
    | .holding item amount => forward cfg σ item amount
    | _ => none
  | .settle =>
    match σ.forwarder with
    | .sent item amount => some { σ.giveBack item amount with forwarder := .waiting }
    | .failed item amount => some { σ.giveBack item amount with forwarder := .leaving item }
    | _ => none
  | .stop =>
    match σ.forwarder with
    | .leaving _ => some { σ with forwarder := .stopped, staging := [] }
    | _ => none
  | .take n =>
    if 0 < n ∧ n ≤ σ.queue.length then some { σ with queue := σ.queue.drop n } else none
  | .close => some { σ with queueOpen := false, queue := [] }

end

/-! ## What is to hold -/

def Forwarder.unsent : Forwarder ι α → List (Item ι α)
  | .holding item _ | .failed item _ | .leaving item => [item]
  | _ => []

/-- Reserved by a producer, staged, or in the forwarder. -/
def State.Held (σ : State ι α) (item : Item ι α) : Prop :=
  (∃ p amount, σ.producers p = .reserved item amount ∨ σ.producers p = .refused item amount) ∨
    item ∈ σ.staging ∨ item ∈ σ.forwarder.unsent

/-- Dropped and counted, held, or in or through the queue: exactly one of them. -/
def State.Settled (σ : State ι α) (item : Item ι α) : Prop :=
  (item ∈ σ.dropped ∧ ¬ σ.Held item ∧ item ∉ σ.entered) ∨
    (item ∉ σ.dropped ∧ σ.Held item ∧ item ∉ σ.entered) ∨
    (item ∉ σ.dropped ∧ ¬ σ.Held item ∧ item ∈ σ.entered)

/-- The next step of a task is to give bytes back. -/
def State.GivesBack (σ : State ι α) (amount : Nat) : Prop :=
  (∃ p item, σ.producers p = .refused item amount) ∨
    ∃ item, σ.forwarder = .sent item amount ∨ σ.forwarder = .failed item amount

structure Accounted (cfg : Config α) (σ : State ι α) : Prop where
  once : (σ.reserved.map Prod.fst).Nodup
  /-- What was given back was reserved, in the same amount, and the counter is the rest. -/
  bytes : ∃ rest, σ.reserved.Perm (σ.released ++ rest) ∧ σ.bytes = (rest.map Prod.snd).sum
  bounded : σ.bytes ≤ cfg.limit
  covered : ∀ amount, σ.GivesBack amount → amount ≤ σ.bytes
  counted : σ.drops = σ.dropped.length
  settled : ∀ item ∈ σ.issued, σ.Settled item
  ordered : σ.accepted.Sublist σ.issued ∧
    ∀ p, ofProducer p σ.entered <+: ofProducer p σ.accepted
  nodup : σ.entered.Nodup

end Staging
