import Zatat.Lib.Run
import Zatat.Protocol.Outbound

/-! # The task of a connection

Whoever holds the handle of a connection puts frames into its queue and never waits. The
task of the connection writes them to the socket one by one, answers the client's frames
and leaves its loop when it has to. Of the branches that are ready any may be taken. A
frame that finds the queue full is refused, and a signal then waits for the task.
-/

namespace Zatat

open List

def outboundCapacity : Nat := 4096

inductive TaskPlace where
  | waiting
  | writing (item : Outbound)
  | answering (frame : Frame) (last : Bool)
  | left

namespace TaskPlace

def atSelect : TaskPlace → Bool
  | .waiting => true
  | .writing _ => true
  | _ => false

def inHand : TaskPlace → List Outbound
  | .writing item => [item]
  | _ => []

end TaskPlace

/-- What a frame of the client leads to. -/
inductive TaskAnswer where
  | stop
  | nothing
  | reply (frame : Frame) (last : Bool)

/-- With records of what was offered to the queue, refused by it, and taken from it and
written. -/
structure ConnectionTask where
  queue : List Outbound
  kick : Bool
  draining : Bool
  place : TaskPlace
  closed : Bool
  sink : List Outbound
  offered : List Outbound
  refused : List Outbound
  written : List Outbound

inductive TaskLabel where
  | trySend (item : Outbound)
  | shutdown
  | goAway
  | kicked
  | recv
  | sent (ok : Bool)
  | inbound (answer : TaskAnswer)
  | dropped

namespace ConnectionTask

def opened : ConnectionTask := ⟨[], false, false, .waiting, false, [], [], [], []⟩

def trySend (t : ConnectionTask) (item : Outbound) : Bool × ConnectionTask :=
  if t.closed then (false, t)
  else
    let t := { t with offered := t.offered ++ [item] }
    if t.queue.length < outboundCapacity then (true, { t with queue := t.queue ++ [item] })
    else (false, { t with kick := true, refused := t.refused ++ [item] })

def leave (t : ConnectionTask) (last : List Outbound) : ConnectionTask :=
  { t with sink := t.sink ++ last, place := .left }

def sendClose (t : ConnectionTask) (code : Nat) (reason : String) : ConnectionTask :=
  t.leave [.text (.errorWithMessage code reason), .close code reason]

def take (t : ConnectionTask) (queue : List Outbound) : Outbound → ConnectionTask
  | .close code reason =>
    sendClose { t with queue := queue, written := t.written ++ [.close code reason] } code reason
  | item => { t with queue := queue, place := .writing item }

def answer (t : ConnectionTask) : TaskAnswer → ConnectionTask
  | .stop => t.leave []
  | .nothing => t
  | .reply frame last => { t with place := .answering frame last }

def step (t : ConnectionTask) : TaskLabel → Option ConnectionTask
  | .trySend item => some (t.trySend item).2
  | .shutdown => some { t with draining := true }
  | .goAway =>
    if t.draining && t.place.atSelect then some (t.leave [.close 1001 "server going away"])
    else none
  | .kicked =>
    if t.kick && t.place.atSelect then
      some (sendClose { t with kick := false } 4301 "slow subscriber")
    else none
  | .recv =>
    match t.place, t.queue with
    | .waiting, item :: queue => some (t.take queue item)
    | _, _ => none
  | .sent ok =>
    match t.place with
    | .writing item =>
      if ok then
        some { t with
          place := .waiting
          sink := t.sink ++ [item]
          written := t.written ++ [item] }
      else some (t.leave [])
    | .answering frame last =>
      if ok then
        some { t with
          place := if last then .left else .waiting
          sink := t.sink ++ [.text frame] }
      else some (t.leave [])
    | _ => none
  | .inbound answer =>
    match t.place with
    | .waiting => some (t.answer answer)
    | _ => none
  | .dropped =>
    match t.place with
    | .left => some { t with closed := true }
    | _ => none

/-- What was offered is written in order. As long as the task is in its loop, nothing is
missing unless the signal to close is given. -/
structure Gapless (t : ConnectionTask) : Prop where
  bounded : t.queue.length ≤ outboundCapacity
  delivered : t.written.Sublist t.sink
  inOrder : (t.written ++ t.place.inHand ++ t.queue).Sublist t.offered
  complete : t.place ≠ .left → t.refused = [] →
    t.offered = t.written ++ t.place.inHand ++ t.queue
  signalled : t.place ≠ .left → (t.kick = true ↔ t.refused ≠ [])

namespace Gapless

variable {t t' : ConnectionTask}

theorem of_left (hLeft : t.place = .left) (hBounded : t.queue.length ≤ outboundCapacity)
    (hDelivered : t.written.Sublist t.sink) (hInOrder : (t.written ++ t.queue).Sublist t.offered) :
    Gapless t where
  bounded := hBounded
  delivered := hDelivered
  inOrder := by simpa [hLeft, TaskPlace.inHand] using hInOrder
  complete hLoop := absurd hLeft hLoop
  signalled hLoop := absurd hLeft hLoop

theorem leave (h : Gapless t) (last : List Outbound) (kick : Bool) :
    Gapless (ConnectionTask.leave { t with kick := kick } last) := by
  refine of_left rfl h.bounded ?_ ?_
  · exact h.delivered.trans (sublist_append_left ..)
  · exact ((sublist_append_left ..).append_right t.queue).trans h.inOrder

/-- An item moves on through queue, hand and socket. -/
theorem move (h : Gapless t) (hLoop : t.place ≠ .left)
    (hSame : t'.offered = t.offered ∧ t'.refused = t.refused ∧ t'.kick = t.kick)
    (hBounded : t'.queue.length ≤ outboundCapacity) (hDelivered : t'.written.Sublist t'.sink)
    (hAll : t'.written ++ t'.place.inHand ++ t'.queue = t.written ++ t.place.inHand ++ t.queue) :
    Gapless t' := by
  obtain ⟨hOffered, hRefused, hKick⟩ := hSame
  refine ⟨hBounded, hDelivered, ?_, fun _ hNone => ?_, fun _ => ?_⟩
  · rw [hAll, hOffered]
    exact h.inOrder
  · rw [hAll, hOffered]
    exact h.complete hLoop (hRefused ▸ hNone)
  · rw [hKick, hRefused]
    exact h.signalled hLoop

theorem trySend (h : Gapless t) (item : Outbound) : Gapless (t.trySend item).2 := by
  rw [ConnectionTask.trySend]
  split
  · exact h
  dsimp only
  split
  · rename_i hRoom
    refine ⟨?_, h.delivered, ?_, fun hLoop hNone => ?_, h.signalled⟩
    · rw [length_append]
      exact hRoom
    · rw [← append_assoc]
      exact h.inOrder.append_right [item]
    · rw [← append_assoc, ← h.complete hLoop hNone]
  · refine ⟨h.bounded, h.delivered, h.inOrder.trans (sublist_append_left ..), ?_, ?_⟩
    · simp
    · simp

theorem take (h : Gapless t) (hPlace : t.place = .waiting) {item : Outbound}
    {queue : List Outbound} (hQueue : t.queue = item :: queue) : Gapless (t.take queue item) := by
  have hBounded : queue.length ≤ outboundCapacity := by
    have hAll := h.bounded
    rw [hQueue, length_cons] at hAll
    omega
  cases item with
  | close code reason =>
    refine of_left rfl hBounded (h.delivered.append (sublist_cons_self ..)) ?_
    simpa [ConnectionTask.take, sendClose, ConnectionTask.leave, hPlace, hQueue, TaskPlace.inHand]
      using h.inOrder
  | text | ping =>
    refine h.move (by simp [hPlace]) ⟨rfl, rfl, rfl⟩ hBounded h.delivered ?_
    simp [ConnectionTask.take, hPlace, hQueue, TaskPlace.inHand]

theorem step (h : Gapless t) {label : TaskLabel} (hStep : t.step label = some t') :
    Gapless t' := by
  unfold ConnectionTask.step at hStep
  cases label with
  | trySend item =>
    cases hStep
    exact h.trySend item
  | shutdown =>
    cases hStep
    exact ⟨h.bounded, h.delivered, h.inOrder, h.complete, h.signalled⟩
  | goAway | kicked =>
    dsimp only at hStep
    split at hStep
    · cases hStep
      exact h.leave ..
    · cases hStep
  | recv =>
    dsimp only at hStep
    split at hStep
    · rename_i hPlace hQueue
      cases hStep
      exact h.take hPlace hQueue
    · cases hStep
  | sent ok =>
    dsimp only at hStep
    split at hStep
    · rename_i item hPlace
      split at hStep
      · cases hStep
        refine h.move (by simp [hPlace]) ⟨rfl, rfl, rfl⟩ h.bounded
          (h.delivered.append_right [item]) ?_
        simp [hPlace, TaskPlace.inHand]
      · cases hStep
        exact h.leave ..
    · rename_i frame last hPlace
      split at hStep
      · cases hStep
        refine h.move (by simp [hPlace]) ⟨rfl, rfl, rfl⟩ h.bounded
          (h.delivered.trans (sublist_append_left ..)) ?_
        cases last <;> simp [hPlace, TaskPlace.inHand]
      · cases hStep
        exact h.leave ..
    · cases hStep
  | inbound answer =>
    dsimp only at hStep
    split at hStep
    · rename_i hPlace
      cases hStep
      cases answer with
      | stop => exact h.leave ..
      | nothing => exact h
      | reply frame last =>
        refine h.move (by simp [hPlace]) ⟨rfl, rfl, rfl⟩ h.bounded h.delivered ?_
        simp [answer, hPlace, TaskPlace.inHand]
    · cases hStep
  | dropped =>
    dsimp only at hStep
    split at hStep
    · cases hStep
      exact ⟨h.bounded, h.delivered, h.inOrder, h.complete, h.signalled⟩
    · cases hStep

end Gapless

/-- In every order of offers and of the task's own steps. A task that waits with nothing left
to write and no signal to close has written everything that was ever offered. -/
theorem no_silent_gap (run : List TaskLabel) : Transition.Always step (fun t => Gapless t ∧
      (t.place = .waiting → t.queue = [] → t.kick = false → t.written = t.offered))
      opened run := by
  refine (Transition.always_of_invariant (fun _ _ _ h hStep => h.step hStep) ?_ run).mono
    fun t h => ⟨h, fun hPlace hQueue hKick => ?_⟩
  · constructor <;> simp [opened, outboundCapacity, TaskPlace.inHand]
  · have hLoop : t.place ≠ .left := by simp [hPlace]
    have hNone : t.refused = [] := by
      by_contra hSome
      simp [(h.signalled hLoop).mpr hSome] at hKick
    simpa [hPlace, hQueue, TaskPlace.inHand] using (h.complete hLoop hNone).symm

end ConnectionTask

end Zatat
