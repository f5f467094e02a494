import Zatat.Lib.Run

/-! # Pings and the close of a silent connection

A sweep every 15 seconds pings a connection that has been silent for longer than its ping
interval, and closes one that was pinged and has been silent for 30 seconds more. The time is
counted from the last frame and not from the ping: that a ping leaves 30 seconds for its
answer follows from the distance of the sweeps.
-/

namespace Zatat

open List

def pongGraceSeconds : Int := 30

def connectionMaintenance : Int := 15

/-- When the last frame of a connection came in, in whole seconds, and whether it has been
pinged since. -/
structure KeepAlive where
  lastSeenAt : Int
  hasBeenPinged : Bool

namespace KeepAlive

def touch (_conn : KeepAlive) (now : Int) : KeepAlive := ⟨now, false⟩

def markPinged (conn : KeepAlive) : KeepAlive := { conn with hasBeenPinged := true }

def isInactive (conn : KeepAlive) (pingInterval : Nat) (now : Int) : Bool :=
  now - conn.lastSeenAt > pingInterval

def isStale (conn : KeepAlive) (pingInterval : Nat) (now : Int) : Bool :=
  conn.hasBeenPinged && now - conn.lastSeenAt > pingInterval + pongGraceSeconds

end KeepAlive

/-- What happened to a connection: a frame came in, or a sweep queued a ping or the close. -/
inductive Happened where
  | frame (at_ : Int)
  | ping (at_ : Int)
  | close (at_ : Int)
  deriving DecidableEq

/-- A tracked connection, with the time, the time of the next sweep and what has happened, the
latest first. It is `kicked` when a message found its queue full: its task then closes it, long
before another sweep. -/
structure Tracked where
  conn : KeepAlive
  now : Int
  nextSweep : Int
  kicked : Bool
  history : List Happened

inductive Occurrence where
  | frame (at_ : Int)
  | sweep (queueFull : Bool)

namespace Tracked

def opened (at_ nextSweep : Int) : Tracked := ⟨⟨at_, false⟩, at_, nextSweep, false, []⟩

def trySend (s : Tracked) (queueFull : Bool) (message : Happened) : Tracked :=
  if queueFull then { s with kicked := true }
  else { s with history := message :: s.history }

/-- What `connection_maintenance` does with one connection. -/
def sweep (pingInterval : Nat) (now : Int) (s : Tracked) (queueFull : Bool) : Tracked :=
  if s.conn.isStale pingInterval now then s.trySend queueFull (.close now)
  else if s.conn.isInactive pingInterval now then
    let s := s.trySend queueFull (.ping now)
    { s with conn := s.conn.markPinged }
  else s

def step (pingInterval : Nat) (s : Tracked) : Occurrence → Option Tracked
  | .frame at_ =>
    if s.kicked = false ∧ s.now ≤ at_ ∧ at_ ≤ s.nextSweep then
      some { s with
        conn := s.conn.touch at_
        now := at_
        history := .frame at_ :: s.history }
    else none
  | .sweep queueFull =>
    if s.kicked then none
    else some { s.sweep pingInterval s.nextSweep queueFull with
      now := s.nextSweep
      nextSweep := s.nextSweep + connectionMaintenance }

end Tracked

/-! ## Pings and closes in their time -/

/-- The last frame came before a ping that was queued at this time. -/
def PingedSince (history : List Happened) (pinged : Int) : Prop :=
  ∃ since earlier, history = since ++ .ping pinged :: earlier ∧ ∀ at_, .frame at_ ∉ since

/-- A ping follows more than the ping interval without a frame; the close follows a ping that
was queued 30 seconds before and not followed by a frame. -/
def Justified (pingInterval : Nat) (openedAt : Int) : List Happened → Prop
  | [] => True
  | .frame _ :: earlier => Justified pingInterval openedAt earlier
  | .ping now :: earlier =>
    (openedAt + pingInterval < now ∧ ∀ at_, .frame at_ ∈ earlier → at_ + pingInterval < now) ∧
      Justified pingInterval openedAt earlier
  | .close now :: earlier =>
    (∃ pinged, PingedSince earlier pinged ∧ pinged + 30 ≤ now) ∧
      Justified pingInterval openedAt earlier

def ClosedBy (history : List Happened) (time : Int) : Prop :=
  ∃ pinged closed, List.Sublist [.close closed, .ping pinged] history ∧ closed ≤ time

structure Prunes (pingInterval : Nat) (openedAt : Int) (s : Tracked) : Prop where
  justified : Justified pingInterval openedAt s.history
  fires : s.kicked = false → ∀ last, openedAt ≤ last →
    (∀ at_, .frame at_ ∈ s.history → at_ ≤ last) → last + pingInterval + 45 < s.nextSweep →
    ClosedBy s.history (last + pingInterval + 45)

namespace Tracked

/-- What is known of a connection that is not kicked. A sweep follows soon after the last frame,
so that the first ping after it comes in time. -/
structure Timely (pingInterval : Nat) (openedAt : Int) (s : Tracked) : Prop where
  clock : s.conn.lastSeenAt ≤ s.now ∧ s.now ≤ s.nextSweep ∧ s.nextSweep ≤ s.now + 15
  opened : openedAt ≤ s.conn.lastSeenAt
  seen : ∀ at_, .frame at_ ∈ s.history → at_ ≤ s.conn.lastSeenAt
  heard : s.conn.lastSeenAt = openedAt ∨ .frame s.conn.lastSeenAt ∈ s.history
  due : s.conn.hasBeenPinged = false → s.nextSweep ≤ s.conn.lastSeenAt + pingInterval + 15
  pinged : s.conn.hasBeenPinged = true → ∃ pinged, PingedSince s.history pinged ∧
    pinged ≤ s.conn.lastSeenAt + pingInterval + 15 ∧ ∃ k : Nat, s.nextSweep = pinged + 15 * (k + 1)
  closed : s.conn.lastSeenAt + pingInterval + 45 < s.nextSweep →
    ClosedBy s.history (s.conn.lastSeenAt + pingInterval + 45)

end Tracked

variable {history : List Happened} {pinged time : Int}

theorem PingedSince.cons (h : PingedSince history pinged) {message : Happened}
    (hMessage : ∀ at_, .frame at_ ≠ message) : PingedSince (message :: history) pinged := by
  obtain ⟨since, earlier, rfl, hNone⟩ := h
  refine ⟨message :: since, earlier, rfl, fun at_ hMem => ?_⟩
  rcases mem_cons.mp hMem with hSame | hOld
  · exact hMessage at_ hSame
  · exact hNone at_ hOld

theorem ClosedBy.cons (h : ClosedBy history time) (message : Happened) :
    ClosedBy (message :: history) time := by
  obtain ⟨pinged, closed, hSublist, hTime⟩ := h
  exact ⟨pinged, closed, hSublist.cons message, hTime⟩

theorem PingedSince.closedBy (h : PingedSince history pinged) {now : Int} (hTime : now ≤ time) :
    ClosedBy (.close now :: history) time := by
  obtain ⟨since, earlier, rfl, _⟩ := h
  refine ⟨pinged, now, .cons_cons _ (singleton_sublist.mpr ?_), hTime⟩
  exact mem_append_right since mem_cons_self

namespace Tracked

variable {pingInterval : Nat} {openedAt : Int} {s s' : Tracked}

theorem Timely.frame (h : s.Timely pingInterval openedAt) {at_ : Int} (hNow : s.now ≤ at_)
    (hNext : at_ ≤ s.nextSweep) :
    Timely pingInterval openedAt { s with
      conn := s.conn.touch at_
      now := at_
      history := .frame at_ :: s.history } := by
  obtain ⟨hSeen, _, hSoon⟩ := h.clock
  have hOpened := h.opened
  constructor
  · exact ⟨Int.le_refl at_, hNext, by dsimp only; omega⟩
  · dsimp only [KeepAlive.touch]
    omega
  · intro other hOther
    rcases mem_cons.mp hOther with hSame | hOld
    · cases hSame
      exact Int.le_refl at_
    · have hBefore := h.seen other hOld
      dsimp only [KeepAlive.touch]
      omega
  · exact .inr mem_cons_self
  · intro _
    dsimp only [KeepAlive.touch]
    omega
  · nofun
  · intro hLate
    dsimp only [KeepAlive.touch] at hLate
    omega

theorem sweep_cases (pingInterval : Nat) (now : Int) (s : Tracked) (queueFull : Bool) :
    (now - s.conn.lastSeenAt ≤ pingInterval ∧ s.sweep pingInterval now queueFull = s) ∨
    ((s.sweep pingInterval now queueFull).kicked = true ∧
      (s.sweep pingInterval now queueFull).history = s.history) ∨
    (now - s.conn.lastSeenAt > pingInterval ∧
      (s.conn.hasBeenPinged = true → now - s.conn.lastSeenAt ≤ pingInterval + 30) ∧
      s.sweep pingInterval now queueFull = { s with
        conn := s.conn.markPinged
        history := .ping now :: s.history }) ∨
    (s.conn.hasBeenPinged = true ∧ now - s.conn.lastSeenAt > pingInterval + 30 ∧
      s.sweep pingInterval now queueFull = { s with history := .close now :: s.history }) := by
  rw [sweep]
  split
  · rename_i hStale
    obtain ⟨hPinged, hIdle⟩ := Bool.and_eq_true_iff.mp hStale
    cases queueFull with
    | true => exact .inr (.inl ⟨rfl, rfl⟩)
    | false => exact .inr (.inr (.inr ⟨hPinged, of_decide_eq_true hIdle, rfl⟩))
  · rename_i hStale
    split
    · rename_i hInactive
      cases queueFull with
      | true => exact .inr (.inl ⟨rfl, rfl⟩)
      | false =>
        refine .inr (.inr (.inl ⟨of_decide_eq_true hInactive, fun hPinged => ?_, rfl⟩))
        exact Int.not_lt.mp fun hIdle =>
          hStale (Bool.and_eq_true_iff.mpr ⟨hPinged, decide_eq_true hIdle⟩)
    · rename_i hActive
      exact .inl ⟨Int.not_lt.mp fun hIdle => hActive (decide_eq_true hIdle), rfl⟩

theorem Timely.quiet (h : s.Timely pingInterval openedAt)
    (hIdle : s.nextSweep - s.conn.lastSeenAt ≤ pingInterval) :
    Timely pingInterval openedAt { s with
      now := s.nextSweep
      nextSweep := s.nextSweep + 15 } := by
  obtain ⟨hSeen, hNow, _⟩ := h.clock
  refine ⟨?_, h.opened, h.seen, h.heard, ?_, ?_, ?_⟩
  · dsimp only
    omega
  · intro _
    dsimp only
    omega
  · intro hPinged
    obtain ⟨pinged, hSince, hSoon, k, hk⟩ := h.pinged hPinged
    exact ⟨pinged, hSince, hSoon, k + 1, by dsimp only; omega⟩
  · intro hLate
    dsimp only at hLate
    omega

theorem Timely.ping (h : s.Timely pingInterval openedAt)
    (hPong : s.conn.hasBeenPinged = true → s.nextSweep - s.conn.lastSeenAt ≤ pingInterval + 30) :
    Timely pingInterval openedAt { s with
      conn := s.conn.markPinged
      now := s.nextSweep
      nextSweep := s.nextSweep + 15
      history := .ping s.nextSweep :: s.history } := by
  obtain ⟨hSeen, hNow, _⟩ := h.clock
  have hDue := h.due
  refine ⟨?_, h.opened, ?_, ?_, nofun, fun _ => ?_, fun hLate => ?_⟩
  · dsimp only [KeepAlive.markPinged]
    omega
  · intro at_ hMem
    exact h.seen at_ ((mem_cons.mp hMem).resolve_left nofun)
  · exact h.heard.imp_right (mem_cons_of_mem _)
  · dsimp only [KeepAlive.markPinged]
    cases hPinged : s.conn.hasBeenPinged with
    | true =>
      obtain ⟨pinged, hSince, hSoon, k, hk⟩ := h.pinged hPinged
      exact ⟨pinged, hSince.cons nofun, hSoon, k + 1, by omega⟩
    | false => exact ⟨s.nextSweep, ⟨[], s.history, rfl, nofun⟩, hDue hPinged, 0, by omega⟩
  · dsimp only [KeepAlive.markPinged] at hLate
    cases hPinged : s.conn.hasBeenPinged with
    | true =>
      have hIdle := hPong hPinged
      omega
    | false =>
      have hNext := hDue hPinged
      omega

theorem Timely.close (h : s.Timely pingInterval openedAt) (hPinged : s.conn.hasBeenPinged = true) :
    Timely pingInterval openedAt { s with
      now := s.nextSweep
      nextSweep := s.nextSweep + 15
      history := .close s.nextSweep :: s.history } := by
  obtain ⟨hSeen, hNow, _⟩ := h.clock
  obtain ⟨pinged, hSince, hSoon, k, hk⟩ := h.pinged hPinged
  refine ⟨?_, h.opened, ?_, ?_, ?_, fun _ => ?_, fun hLate => ?_⟩
  · dsimp only
    omega
  · intro at_ hMem
    exact h.seen at_ ((mem_cons.mp hMem).resolve_left nofun)
  · exact h.heard.imp_right (mem_cons_of_mem _)
  · exact fun hNot => absurd (hNot.symm.trans hPinged) Bool.false_ne_true
  · exact ⟨pinged, hSince.cons nofun, hSoon, k + 1, by dsimp only; omega⟩
  · rcases Int.lt_or_le (s.conn.lastSeenAt + pingInterval + 45) s.nextSweep with hBefore | hNow
    · exact (h.closed hBefore).cons _
    · exact hSince.closedBy hNow

structure Invariant (pingInterval : Nat) (openedAt : Int) (s : Tracked) : Prop where
  justified : Justified pingInterval openedAt s.history
  timely : s.kicked = false → s.Timely pingInterval openedAt

theorem step_invariant (s : Tracked) (occurrence : Occurrence) (s' : Tracked)
    (hInv : s.Invariant pingInterval openedAt) (h : s.step pingInterval occurrence = some s') :
    s'.Invariant pingInterval openedAt := by
  cases occurrence with
  | frame at_ =>
    obtain ⟨⟨hKicked, hNow, hNext⟩, hStep⟩ := Option.ite_none_right_eq_some.mp h
    cases hStep
    exact ⟨hInv.justified, fun _ => (hInv.timely hKicked).frame hNow hNext⟩
  | sweep queueFull =>
    obtain ⟨hNot, hStep⟩ := Option.ite_none_left_eq_some.mp h
    cases hStep
    have hTimely := hInv.timely (Bool.eq_false_iff.mpr hNot)
    obtain ⟨hIdle, hSweep⟩ | ⟨hKicked, hSame⟩ | ⟨hIdle, hPong, hSweep⟩ | ⟨hPinged, hIdle, hSweep⟩ :=
      s.sweep_cases pingInterval s.nextSweep queueFull
    · rw [hSweep]
      exact ⟨hInv.justified, fun _ => hTimely.quiet hIdle⟩
    · refine ⟨hSame ▸ hInv.justified, fun hNone => ?_⟩
      exact absurd (hNone.symm.trans hKicked) Bool.false_ne_true
    · rw [hSweep]
      refine ⟨⟨⟨?_, fun at_ hMem => ?_⟩, hInv.justified⟩, fun _ => hTimely.ping hPong⟩
      · have hOpened := hTimely.opened
        omega
      · have hBefore := hTimely.seen at_ hMem
        omega
    · rw [hSweep]
      obtain ⟨pinged, hSince, hSoon, k, hk⟩ := hTimely.pinged hPinged
      exact ⟨⟨⟨pinged, hSince, by omega⟩, hInv.justified⟩, fun _ => hTimely.close hPinged⟩

theorem Invariant.prunes (h : s.Invariant pingInterval openedAt) :
    Prunes pingInterval openedAt s := by
  refine ⟨h.justified, fun hKicked last hOpened hFrames hLate => ?_⟩
  have hTimely := h.timely hKicked
  have hSeen : s.conn.lastSeenAt ≤ last := by
    rcases hTimely.heard with hNone | hMem
    · rw [hNone]
      exact hOpened
    · exact hFrames _ hMem
  obtain ⟨pinged, closed, hSublist, hTime⟩ := hTimely.closed (by omega)
  exact ⟨pinged, closed, hSublist, by omega⟩

theorem pruner_fires (pingInterval : Nat) {openedAt firstSweep : Int}
    (hFirst : openedAt ≤ firstSweep) (hSoon : firstSweep ≤ openedAt + 15) (run : List Occurrence) :
    Transition.Always (step pingInterval) (Prunes pingInterval openedAt)
      (opened openedAt firstSweep) run := by
  have hTimely : Timely pingInterval openedAt (opened openedAt firstSweep) := by
    refine ⟨⟨Int.le_refl _, hFirst, hSoon⟩, Int.le_refl _, nofun, .inl rfl, fun _ => ?_, nofun, ?_⟩
    · dsimp only [opened]
      omega
    · intro hLate
      dsimp only [opened] at hLate
      omega
  have hInitial : Invariant pingInterval openedAt (opened openedAt firstSweep) :=
    ⟨trivial, fun _ => hTimely⟩
  exact (Transition.always_of_invariant step_invariant hInitial run).mono fun _ h => h.prunes

/-- Silent from the start, with a ping interval of 30 seconds: pinged at 40 and 55, closed at 70,
within the 75 seconds. -/
theorem silent_connection_closed :
    (Transition.exec (step 30) (opened 0 10) (replicate 5 (.sweep false))).map Tracked.history =
      some [.close 70, .ping 55, .ping 40] ∧
    Transition.Always (step 30) (Prunes 30 0) (opened 0 10) (replicate 5 (.sweep false)) :=
  ⟨by decide, pruner_fires 30 (by decide) (by decide) _⟩

end Tracked

end Zatat
