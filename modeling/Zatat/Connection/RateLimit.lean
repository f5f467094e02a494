import Mathlib.Data.List.Induction
import Mathlib.Data.List.TakeWhile
import Zatat.Core.Application

/-! # The rate limiter

The times of accepted calls are kept in a queue. A call first drops those from the front
that are older than the window, if the window reaches back to a representable time, and is
refused when the queue is still full.
-/

namespace Zatat

open List

structure RateLimiter where
  maxAttempts : UInt32
  window : Duration
  timestamps : List Instant

/-- `Instant::checked_sub`: nothing lies before the first instant. -/
def checkedSub (now : Instant) (window : Duration) : Option Instant :=
  if window ≤ now then some (now - window) else none

namespace RateLimiter

def new (maxAttempts windowSeconds : UInt32) : RateLimiter :=
  ⟨maxAttempts, Duration.fromSecs windowSeconds.toNat, []⟩

def pruned (limiter : RateLimiter) (now : Instant) : List Instant :=
  match checkedSub now limiter.window with
  | some cutoff => limiter.timestamps.dropWhile (· < cutoff)
  | none => limiter.timestamps

def check (limiter : RateLimiter) (now : Instant) : Bool × RateLimiter :=
  let ts := limiter.pruned now
  if UInt32.ofNat ts.length ≥ limiter.maxAttempts then (false, { limiter with timestamps := ts })
  else (true, { limiter with timestamps := ts ++ [now] })

/-- The limiter after calls at the given times, and the times of those it accepted. -/
def serve (limiter : RateLimiter) (times : List Instant) : RateLimiter × List Instant :=
  times.foldl (fun s now => ((s.1.check now).2, if (s.1.check now).1 then s.2 ++ [now] else s.2))
    (limiter, [])

def countWithin (first last : Int) (times : List Instant) : Nat :=
  times.countP fun t : Nat => first ≤ (t : Int) ∧ (t : Int) ≤ last

/-- The limiter decides as a sliding window does, over any sequence of calls. -/
structure ExactWindow (max : UInt32) (window : Duration) (times : List Instant) : Prop where
  decides : ∀ before now, before ++ [now] <+: times →
    ((((serve ⟨max, window, []⟩ before).1.check now).1 = true) ↔
      countWithin (now - window) now (serve ⟨max, window, []⟩ before).2 < max.toNat)
  bounded : ∀ first : Int,
    countWithin first (first + window) (serve ⟨max, window, []⟩ times).2 ≤ max.toNat
  queue : ∀ before, before <+: times →
    (serve ⟨max, window, []⟩ before).1.timestamps.Pairwise (· ≤ ·) ∧
      (serve ⟨max, window, []⟩ before).1.timestamps.length ≤ max.toNat

theorem dropWhile_lt_eq_filter {l : List Instant} (h : l.Pairwise (· ≤ ·)) (cutoff : Instant) :
    l.dropWhile (· < cutoff) = l.filter (cutoff ≤ ·) := by
  induction l with
  | nil => rfl
  | cons t l ih =>
    obtain ⟨hFirst, hRest⟩ := pairwise_cons.mp h
    by_cases hOld : t < cutoff
    · simp [hOld, ih hRest]
    · have hAll : ∀ x ∈ l, cutoff ≤ x := fun x hx => (not_lt.mp hOld).trans (hFirst x hx)
      have hKept : l.filter (cutoff ≤ ·) = l := filter_eq_self.mpr (by simpa using hAll)
      simp [hOld, not_lt.mp hOld, hKept]

/-- What holds after calls up to the time `last`: the queue has the accepted times that the
window of that time reaches. -/
structure Keeps (max : UInt32) (window : Duration) (last : Instant)
    (s : RateLimiter × List Instant) : Prop where
  attempts : s.1.maxAttempts = max
  reach : s.1.window = window
  timestamps : s.1.timestamps = s.2.filter (last - window ≤ ·)
  sorted : s.2.Pairwise (· ≤ ·)
  past : ∀ t ∈ s.2, t ≤ last
  few : s.1.timestamps.length ≤ max.toNat
  bounded : ∀ first : Int, countWithin first (first + window) s.2 ≤ max.toNat

section

variable {max : UInt32} {window last now : Nat} {s : RateLimiter × List Instant}

theorem Keeps.pruned_eq (h : Keeps max window last s) (hNow : last ≤ now) :
    s.1.pruned now = s.2.filter (now - window ≤ ·) := by
  have hLater : s.1.timestamps.filter (now - window ≤ ·) = s.2.filter (now - window ≤ ·) := by
    rw [h.timestamps, filter_filter]
    refine filter_congr fun (t : Nat) _ => ?_
    have hBoth : now - window ≤ t → last - window ≤ t := by omega
    simpa using hBoth
  rw [← hLater, pruned, checkedSub, h.reach]
  split_ifs with hReach
  · refine dropWhile_lt_eq_filter ?_ _
    rw [h.timestamps]
    exact h.sorted.filter _
  · have hAll : now - window = 0 := Nat.sub_eq_zero_of_le (not_le.mp hReach).le
    exact (filter_eq_self.mpr (by simp [hAll])).symm

theorem countWithin_eq_length (h : ∀ t ∈ s.2, t ≤ now) :
    countWithin (now - window) now s.2 = (s.2.filter (now - window ≤ ·)).length := by
  rw [countWithin, countP_eq_length_filter]
  refine congrArg List.length (filter_congr fun (t : Nat) ht => ?_)
  have hPast : t ≤ now := h t ht
  simp only [decide_eq_decide]
  omega

theorem Keeps.length_pruned (h : Keeps max window last s) :
    (s.1.pruned now).length ≤ max.toNat := by
  refine le_trans ?_ h.few
  rw [pruned]
  split
  · exact length_dropWhile_le ..
  · exact le_rfl

theorem Keeps.check_iff (h : Keeps max window last s) (hNow : last ≤ now) :
    (s.1.check now).1 = true ↔ countWithin (now - window) now s.2 < max.toNat := by
  have hSmall : (UInt32.ofNat (s.1.pruned now).length).toNat = (s.1.pruned now).length :=
    UInt32.toNat_ofNat_of_lt' (h.length_pruned.trans_lt max.toNat_lt)
  rw [countWithin_eq_length fun t ht => (h.past t ht).trans hNow, ← h.pruned_eq hNow, check,
    h.attempts]
  simp only [ge_iff_le, UInt32.le_iff_toNat_le, hSmall]
  split_ifs with hFull
  · simpa using hFull
  · simpa using hFull

theorem Keeps.step (h : Keeps max window last s) (hNow : last ≤ now) : Keeps max window now
      ((s.1.check now).2, if (s.1.check now).1 then s.2 ++ [now] else s.2) := by
  have hPast : ∀ t ∈ s.2, t ≤ now := fun t ht => (h.past t ht).trans hNow
  have hPruned := h.pruned_eq hNow
  have hIff := h.check_iff hNow
  rw [countWithin_eq_length hPast, ← hPruned] at hIff
  cases hCheck : (s.1.check now).1 with
  | false =>
    have hState : (s.1.check now).2 = { s.1 with timestamps := s.1.pruned now } := by
      rw [check] at hCheck ⊢
      split at hCheck
      · rw [if_pos ‹_›]
      · cases hCheck
    rw [hState, if_neg Bool.false_ne_true]
    exact ⟨h.attempts, h.reach, hPruned, h.sorted, hPast, h.length_pruned, h.bounded⟩
  | true =>
    have hRoom := hIff.mp hCheck
    have hState : (s.1.check now).2 = { s.1 with timestamps := s.1.pruned now ++ [now] } := by
      rw [check] at hCheck ⊢
      split at hCheck
      · cases hCheck
      · rw [if_neg ‹_›]
    have hLast : (s.2 ++ [now]).filter (now - window ≤ ·) = s.1.pruned now ++ [now] := by
      rw [filter_append, ← hPruned]
      simp
    rw [hState, if_pos rfl]
    refine ⟨h.attempts, h.reach, hLast.symm, ?_, ?_, ?_, fun first => ?_⟩
    · exact pairwise_append.mpr ⟨h.sorted, pairwise_singleton .., by simpa using hPast⟩
    · simpa [or_imp, forall_and] using hPast
    · rw [length_append]
      exact hRoom
    · rw [countWithin, countP_append, countP_singleton]
      split
      -- The interval has the new time in it, so it has none that was pruned.
      · rename_i hIn
        have hPart : countWithin first (first + window) s.2 ≤ (s.1.pruned now).length := by
          rw [hPruned, countWithin, ← countP_eq_length_filter]
          refine countP_mono_left fun (t : Nat) _ ht => ?_
          simp only [decide_eq_true_eq] at hIn ht ⊢
          omega
        exact Nat.succ_le_of_lt (hPart.trans_lt hRoom)
      · exact h.bounded first

theorem keeps_serve (max : UInt32) (window : Duration) {times : List Instant}
    (hTimes : times.Pairwise (· ≤ ·)) : ∃ last, (∀ now, (∀ t ∈ times, t ≤ now) → last ≤ now) ∧
      Keeps max window last (serve ⟨max, window, []⟩ times) := by
  induction times using List.reverseRec with
  | nil =>
    exact ⟨0, fun _ _ => Nat.zero_le _, rfl, rfl, rfl, .nil, nofun, Nat.zero_le _,
      fun _ => Nat.zero_le _⟩
  | append_singleton times next ih =>
    obtain ⟨hBefore, -, hNext⟩ := pairwise_append.mp hTimes
    obtain ⟨last, hLast, hKeeps⟩ := ih hBefore
    refine ⟨next, fun now hNow => hNow next (mem_append_right _ mem_cons_self), ?_⟩
    rw [serve, foldl_append]
    exact hKeeps.step (hLast next fun t ht => hNext t ht next mem_cons_self)

end

theorem rate_limiter_exact (max : UInt32) (window : Duration) (times : List Instant)
    (hTimes : times.Pairwise (· ≤ ·)) : ExactWindow max window times := by
  refine ⟨fun before now hBefore => ?_, fun first => ?_, fun before hBefore => ?_⟩
  · obtain ⟨hSorted, -, hNow⟩ := List.pairwise_append.mp (hTimes.sublist hBefore.sublist)
    obtain ⟨last, hLast, hKeeps⟩ := keeps_serve max window hSorted
    exact hKeeps.check_iff (hLast now fun t ht => hNow t ht now List.mem_cons_self)
  · obtain ⟨last, -, hKeeps⟩ := keeps_serve max window hTimes
    exact hKeeps.bounded first
  · obtain ⟨last, -, hKeeps⟩ := keeps_serve max window (hTimes.sublist hBefore.sublist)
    refine ⟨?_, hKeeps.few⟩
    rw [hKeeps.timestamps]
    exact hKeeps.sorted.filter _

/-- One call each ten seconds: the second is refused, the third is on the edge of the
window. -/
theorem one_in_ten_exact :
    ExactWindow 1 (Duration.fromSecs 10) ([0, 5, 10, 11].map Duration.fromSecs) ∧
      (serve (new 1 10) ([0, 5, 10, 11].map Duration.fromSecs)).2 =
        [0, 11].map Duration.fromSecs :=
  ⟨rate_limiter_exact 1 _ _ (by decide), by decide⟩

end RateLimiter

end Zatat
