import Mathlib.Data.List.Basic

/-! # A replica kept by numbered updates and numbered snapshots

A sender changes its state by updates and tells a receiver about it in two ways.
Each update is sent under a number taken after the state changed; from time to
time the whole state is sent under a number taken before it was captured. The
receiver ignores what is not newer than the last number it applied. Taking a
number, capturing and sending are separate steps, so messages can be sent in
another order than they are numbered.

`InSync` relates the sender, the messages on their way and the receiver; there
is a lemma for each step. What makes it work is one relation: a copy of the
state explains the sender's state to a reader who has applied everything up to a
number, if the update that is still to come completes it.
-/

namespace Replica

open List

universe u v

variable {S : Type u} {U : Type v} (apply : U → S → S)

inductive Content (S : Type u) (U : Type v) where
  | update (change : U)
  | snapshot (state : S)

structure Message (S : Type u) (U : Type v) where
  seq : Nat
  content : Content S U

inductive Live (U : Type v) where
  | idle
  | mutated (change : U)
  | numbered (change : U) (seq : Nat)

inductive Beat (S : Type u) where
  | idle
  | numbered (seq : Nat)
  | captured (seq : Nat) (state : S)

def Content.applyTo (stored : S) : Content S U → S
  | .update change => apply change stored
  | .snapshot state => state

def receive (copy : S × Nat) (m : Message S U) : S × Nat :=
  if copy.2 < m.seq then (m.content.applyTo apply copy.1, m.seq) else copy

/-- What the receiver will store when everything on its way has arrived. -/
def received (queue : List (Message S U)) (copy : S × Nat) : S × Nat :=
  queue.foldl (receive apply) copy

/-- The copy becomes the state once the update in progress reaches a reader who
has applied everything up to `mark`. -/
def Explains (live : Live U) (copy : S × Nat) (state : S) : Prop :=
  match live with
  | .idle => copy.1 = state
  | .mutated change => apply change copy.1 = state
  | .numbered change seq =>
    if copy.2 < seq then apply change copy.1 = state else copy.1 = state

def Live.Bounded (live : Live U) (seq : Nat) : Prop :=
  match live with
  | .numbered _ n => 0 < n ∧ n ≤ seq
  | _ => True

def Live.Absorbed (live : Live U) (state : S) : Prop :=
  match live with
  | .idle => True
  | .mutated change => apply change state = state
  | .numbered change _ => apply change state = state

def Beat.Bounded (beat : Beat S) (seq : Nat) : Prop :=
  match beat with
  | .idle => True
  | .numbered n => 0 < n ∧ n ≤ seq
  | .captured n _ => 0 < n ∧ n ≤ seq

structure InSync (state : S) (seq : Nat) (live : Live U) (beat : Beat S)
    (queue : List (Message S U)) (copy : S × Nat) : Prop where
  explains : Explains apply live (received apply queue copy) state
  captured : ∀ n X, beat = .captured n X → (received apply queue copy).2 < n →
    Explains apply live (X, n) state
  absorbed : live.Absorbed apply state
  markBounded : (received apply queue copy).2 ≤ seq
  liveBounded : live.Bounded seq
  beatBounded : beat.Bounded seq
  positive : ∀ m ∈ queue, 0 < m.seq

variable {apply}

@[simp] theorem received_concat (queue : List (Message S U)) (m : Message S U) (copy : S × Nat) :
    received apply (queue ++ [m]) copy = receive apply (received apply queue copy) m := by
  rw [received, foldl_append]
  rfl

theorem received_cons (m : Message S U) (queue : List (Message S U)) (copy : S × Nat) :
    received apply (m :: queue) copy = received apply queue (receive apply copy m) := rfl

theorem Live.Bounded.mono {live : Live U} {seq seq' : Nat} (h : live.Bounded seq)
    (hLe : seq ≤ seq') : live.Bounded seq' := by
  cases live with
  | idle | mutated => trivial
  | numbered change n => exact ⟨h.1, Nat.le_trans h.2 hLe⟩

theorem Beat.Bounded.mono {beat : Beat S} {seq seq' : Nat} (h : beat.Bounded seq)
    (hLe : seq ≤ seq') : beat.Bounded seq' := by
  cases beat with
  | idle => trivial
  | numbered | captured => exact ⟨h.1, Nat.le_trans h.2 hLe⟩

namespace InSync

variable {state : S} {seq : Nat} {live : Live U} {beat : Beat S} {queue : List (Message S U)}
  {copy : S × Nat} {change : U} {k : Nat}

theorem init (state : S) : InSync apply state 0 .idle .idle [] (state, 0) where
  explains := rfl
  captured n X h := by cases h
  absorbed := trivial
  markBounded := Nat.le_refl _
  liveBounded := trivial
  beatBounded := trivial
  positive m hm := by cases hm

theorem eq_of_idle (h : InSync apply state seq .idle beat [] copy) : copy.1 = state :=
  h.explains

theorem mutate (h : InSync apply state seq .idle beat queue copy)
    (hIdem : apply change (apply change state) = apply change state) :
    InSync apply (apply change state) seq (.mutated change) beat queue copy where
  explains := congrArg (apply change) h.explains
  captured n X hBeat hMark := congrArg (apply change) (h.captured n X hBeat hMark)
  absorbed := hIdem
  markBounded := h.markBounded
  liveBounded := trivial
  beatBounded := h.beatBounded
  positive := h.positive

theorem number (h : InSync apply state seq (.mutated change) beat queue copy) :
    InSync apply state (seq + 1) (.numbered change (seq + 1)) beat queue copy where
  explains := by
    have hMark := h.markBounded
    rw [Explains, if_pos (by omega)]
    exact h.explains
  captured n X hBeat hMark := by
    have hBound := h.beatBounded
    rw [hBeat] at hBound
    rw [Explains, if_pos (Nat.lt_succ_of_le hBound.2)]
    exact h.captured n X hBeat hMark
  absorbed := h.absorbed
  markBounded := Nat.le_trans h.markBounded (Nat.le_succ seq)
  liveBounded := ⟨Nat.succ_pos seq, Nat.le_refl _⟩
  beatBounded := h.beatBounded.mono (Nat.le_succ seq)
  positive := h.positive

theorem enqueue {a : Nat} (h : InSync apply state seq (.numbered change a) beat queue copy) :
    InSync apply state seq .idle beat (queue ++ [⟨a, .update change⟩]) copy := by
  have hExplains := h.explains
  rw [Explains] at hExplains
  refine ⟨?_, ?_, trivial, ?_, trivial, h.beatBounded, ?_⟩
  · rw [received_concat, receive, Explains]
    split
    · rename_i hNewer
      rw [if_pos hNewer] at hExplains
      exact hExplains
    · rename_i hOlder
      rw [if_neg hOlder] at hExplains
      exact hExplains
  · intro n X hBeat hMark
    rw [received_concat, receive] at hMark
    -- in both cases the snapshot is numbered after the update, so it contains it
    have hAfter : (received apply queue copy).2 < n ∧ ¬ n < a := by
      split at hMark
      · rename_i hNewer
        dsimp only at hNewer hMark
        omega
      · rename_i hOlder
        dsimp only at hOlder
        omega
    have hCaptured := h.captured n X hBeat hAfter.1
    rw [Explains, if_neg hAfter.2] at hCaptured
    exact hCaptured
  · rw [received_concat, receive]
    split
    · exact h.liveBounded.2
    · exact h.markBounded
  · intro m hm
    rcases mem_append.mp hm with hm | hm
    · exact h.positive m hm
    · cases mem_singleton.mp hm
      exact h.liveBounded.1

theorem skip (h : InSync apply state seq live beat queue copy) :
    InSync apply state (seq + 1) live beat queue copy where
  explains := h.explains
  captured := h.captured
  absorbed := h.absorbed
  markBounded := Nat.le_trans h.markBounded (Nat.le_succ seq)
  liveBounded := h.liveBounded.mono (Nat.le_succ seq)
  beatBounded := h.beatBounded.mono (Nat.le_succ seq)
  positive := h.positive

theorem beatNumber (h : InSync apply state seq live .idle queue copy) :
    InSync apply state (seq + 1) live (.numbered (seq + 1)) queue copy where
  explains := h.explains
  captured n X hBeat := by cases hBeat
  absorbed := h.absorbed
  markBounded := Nat.le_trans h.markBounded (Nat.le_succ seq)
  liveBounded := h.liveBounded.mono (Nat.le_succ seq)
  beatBounded := ⟨Nat.succ_pos seq, Nat.le_refl _⟩
  positive := h.positive

theorem explains_self (h : InSync apply state seq live beat queue copy) (n : Nat) :
    Explains apply live (state, n) state := by
  have hAbsorbed := h.absorbed
  cases live with
  | idle => rfl
  | mutated change => exact hAbsorbed
  | numbered change a =>
    rw [Explains]
    split
    · exact hAbsorbed
    · rfl

theorem capture (h : InSync apply state seq live (.numbered k) queue copy) :
    InSync apply state seq live (.captured k state) queue copy where
  explains := h.explains
  captured n X hBeat _ := by
    cases hBeat
    exact h.explains_self k
  absorbed := h.absorbed
  markBounded := h.markBounded
  liveBounded := h.liveBounded
  beatBounded := h.beatBounded
  positive := h.positive

theorem publish {X : S} (h : InSync apply state seq live (.captured k X) queue copy) :
    InSync apply state seq live .idle (queue ++ [⟨k, .snapshot X⟩]) copy := by
  refine ⟨?_, ?_, h.absorbed, ?_, h.liveBounded, trivial, ?_⟩
  · rw [received_concat, receive]
    split
    · rename_i hNewer
      exact h.captured k X rfl hNewer
    · exact h.explains
  · intro n Y hBeat
    cases hBeat
  · rw [received_concat, receive]
    split
    · exact h.beatBounded.2
    · exact h.markBounded
  · intro m hm
    rcases mem_append.mp hm with hm | hm
    · exact h.positive m hm
    · cases mem_singleton.mp hm
      exact h.beatBounded.1

theorem discard (h : InSync apply state seq live beat queue copy) :
    InSync apply state seq live .idle queue copy where
  explains := h.explains
  captured n X hBeat := by cases hBeat
  absorbed := h.absorbed
  markBounded := h.markBounded
  liveBounded := h.liveBounded
  beatBounded := trivial
  positive := h.positive

theorem deliver {m : Message S U} (h : InSync apply state seq live beat (m :: queue) copy) :
    InSync apply state seq live beat queue (receive apply copy m) where
  explains := h.explains
  captured := h.captured
  absorbed := h.absorbed
  markBounded := h.markBounded
  liveBounded := h.liveBounded
  beatBounded := h.beatBounded
  positive m' hm' := h.positive m' (mem_cons_of_mem _ hm')

end InSync

/-! ## Updates that change something

`eff change state` says that the update changes the state. A snapshot can contain
an update whose own message is still to come and will not be stale; that message
then changes nothing. Such snapshots excluded, every update the receiver applies
changes its copy.
-/

section Effective

variable (apply) (eff : U → S → Prop)

def Content.Effective (stored : S) : Content S U → Prop
  | .update change => eff change stored
  | .snapshot _ => True

/-- The update in progress will change the copy it reaches, unless it is stale there. -/
def Live.Effective (live : Live U) (copy : S × Nat) : Prop :=
  match live with
  | .idle => True
  | .mutated change => eff change copy.1
  | .numbered change seq => copy.2 < seq → eff change copy.1

/-- Every message on its way changes the copy it reaches, unless it is stale there. -/
def AllEffective : List (Message S U) → S × Nat → Prop
  | [], _ => True
  | m :: queue, copy => (copy.2 < m.seq → m.content.Effective eff copy.1) ∧
    AllEffective queue (receive apply copy m)

structure Decisive (live : Live U) (queue : List (Message S U)) (copy : S × Nat) : Prop where
  next : live.Effective eff (received apply queue copy)
  queued : AllEffective apply eff queue copy

variable {apply eff} {queue : List (Message S U)} {m : Message S U}

theorem allEffective_concat {copy : S × Nat} :
    AllEffective apply eff (queue ++ [m]) copy ↔ AllEffective apply eff queue copy ∧
      ((received apply queue copy).2 < m.seq →
        m.content.Effective eff (received apply queue copy).1) := by
  induction queue generalizing copy with
  | nil => simp [AllEffective, received]
  | cons m' queue ih =>
    rw [cons_append, AllEffective, AllEffective, ih, received_cons, and_assoc]

theorem seq_le_received (hm : m ∈ queue) (copy : S × Nat) :
    m.seq ≤ (received apply queue copy).2 := by
  have hMono (queue : List (Message S U)) (copy : S × Nat) :
      copy.2 ≤ (received apply queue copy).2 := by
    induction queue generalizing copy with
    | nil => exact Nat.le_refl _
    | cons m queue ih =>
      refine Nat.le_trans ?_ (ih (receive apply copy m))
      rw [receive]
      split
      · rename_i hNewer
        exact Nat.le_of_lt hNewer
      · exact Nat.le_refl _
  induction queue generalizing copy with
  | nil => cases hm
  | cons m' queue ih =>
    rcases mem_cons.mp hm with rfl | hm
    · refine Nat.le_trans ?_ (hMono queue (receive apply copy m))
      rw [receive]
      split
      · exact Nat.le_refl _
      · rename_i hStale
        exact Nat.le_of_not_lt hStale
    · exact ih hm (receive apply copy m')

namespace Decisive

variable {state : S} {seq : Nat} {live : Live U} {beat : Beat S} {queue : List (Message S U)}
  {copy : S × Nat} {change : U}

theorem init (copy : S × Nat) : Decisive apply eff .idle [] copy := ⟨trivial, trivial⟩

theorem mutate (h : Decisive apply eff .idle queue copy)
    (hSync : InSync apply state seq .idle beat queue copy) (hEff : eff change state) :
    Decisive apply eff (.mutated change) queue copy := by
  refine ⟨?_, h.queued⟩
  have hState : (received apply queue copy).1 = state := hSync.explains
  rw [Live.Effective, hState]
  exact hEff

theorem number (h : Decisive apply eff (.mutated change) queue copy) (a : Nat) :
    Decisive apply eff (.numbered change a) queue copy :=
  ⟨fun _ => h.next, h.queued⟩

theorem enqueue {a : Nat} (h : Decisive apply eff (.numbered change a) queue copy) :
    Decisive apply eff .idle (queue ++ [⟨a, .update change⟩]) copy :=
  ⟨trivial, allEffective_concat.mpr ⟨h.queued, h.next⟩⟩

theorem publish (h : Decisive apply eff live queue copy) {k : Nat} {X : S}
    (hBehind : (received apply queue copy).2 < k → live.Effective eff (X, k)) :
    Decisive apply eff live (queue ++ [⟨k, .snapshot X⟩]) copy := by
  refine ⟨?_, allEffective_concat.mpr ⟨h.queued, fun _ => trivial⟩⟩
  rw [received_concat, receive]
  split
  · rename_i hNewer
    exact hBehind hNewer
  · exact h.next

theorem deliver {m : Message S U} (h : Decisive apply eff live (m :: queue) copy) :
    Decisive apply eff live queue (receive apply copy m) :=
  ⟨h.next, h.queued.2⟩

end Decisive

end Effective

end Replica
