import Zatat.Channels.Refcount
import Zatat.Lib.Run

/-! # Leaves that run side by side

`unsubscribe` takes the socket out of the member map, then subtracts from its user's count,
then takes the entry out if the count is zero. Each of these is one operation on one shard,
and without the transition lock other leaves run in between.
-/

namespace Zatat

open Function FiniteMap Transition Option

namespace Channel

def entryOf (ch : Channel) (u : String) : Option Nat :=
  ch.userRefcounts.bind fun refs => refs.lookup u

/-- `get_mut`, the subtraction and the test for zero. -/
def decrementUser (ch : Channel) (userId : String) : Bool × Channel :=
  match ch.entryOf userId with
  | none => (false, ch)
  | some n =>
    (n - 1 == 0,
      { ch with userRefcounts := ch.userRefcounts.map fun refs => refs.insert userId (n - 1) })

def removeUserIfZero (ch : Channel) (userId : String) : Bool × Channel :=
  if ch.entryOf userId = some 0 then
    (true, { ch with userRefcounts := ch.userRefcounts.map fun refs => refs.erase userId })
  else (false, ch)

end Channel

namespace Leaves

/-- How far the call for a socket has come. -/
inductive Progress where
  | ready
  | removed (member : Member)
  | reachedZero (member : Member) (userId : String)
  | leaving (member : Option Member) (userRemoved : Option String)
  | returned (outcome : UnsubscribeOutcome)

structure State where
  channel : Channel
  progress : String → Progress

inductive Label where
  | removeMember (socketId : String)
  | decrement (socketId : String)
  | removeIfZero (socketId : String)
  | finish (socketId : String) (memberCount : Nat)

def State.set (σ : State) (ch : Channel) (socketId : String) (p : Progress) : State :=
  ⟨ch, update σ.progress socketId p⟩

def step (σ : State) : Label → Option State
  | .removeMember s =>
    match σ.progress s with
    | .ready =>
      match σ.channel.members.lookup s with
      | some member =>
        some (σ.set { σ.channel with members := σ.channel.members.erase s } s (.removed member))
      | none => some (σ.set σ.channel s (.leaving none none))
    | _ => none
  | .decrement s =>
    match σ.progress s with
    | .removed member =>
      match member.user with
      | some u =>
        some (σ.set (σ.channel.decrementUser u).2 s
          (if (σ.channel.decrementUser u).1 then .reachedZero member u
          else .leaving (some member) none))
      | none => some (σ.set σ.channel s (.leaving (some member) none))
    | _ => none
  | .removeIfZero s =>
    match σ.progress s with
    | .reachedZero member u =>
      some (σ.set (σ.channel.removeUserIfZero u).2 s
        (.leaving (some member) (if (σ.channel.removeUserIfZero u).1 then some u else none)))
    | _ => none
  -- `len` adds up the shards one after the other, so any number may come out
  | .finish s memberCount =>
    match σ.progress s with
    | .leaving member userRemoved =>
      some (σ.set σ.channel s
        (.returned ⟨member.isSome, userRemoved, memberCount, member.bind Member.presence⟩))
    | _ => none

def start (ch : Channel) : State := ⟨ch, fun _ => .ready⟩

def Progress.isReturned : Progress → Bool
  | .returned _ => true
  | _ => false

def Progress.underWay : Progress → Bool
  | .ready | .returned _ => false
  | _ => true

def State.Reports (σ : State) (s u : String) : Prop :=
  ∃ outcome, σ.progress s = .returned outcome ∧ outcome.userRemoved = some u

/-- The sockets of the calls are gone, and each of the calls has told what came of it. -/
structure ReportedOnce (ch : Channel) (τ : State) : Prop where
  members : ∀ s, τ.channel.members.lookup s =
    if (τ.progress s).isReturned then none else ch.members.lookup s
  removed : ∀ u, ch.HasMember u → ¬ τ.channel.HasMember u → ∃! s, τ.Reports s u
  others : ∀ s u, τ.Reports s u → ch.HasMember u ∧ ¬ τ.channel.HasMember u
  counted : τ.channel.Counted

end Leaves

/-! ## The entry of a user -/

namespace Channel

variable (ch : Channel) (u : String)

theorem decrementUser_same : (ch.decrementUser u).2.kind = ch.kind ∧
    (ch.decrementUser u).2.members = ch.members ∧
      (ch.decrementUser u).2.userRefcounts.isSome = ch.userRefcounts.isSome := by
  rw [decrementUser]
  split
  · exact ⟨rfl, rfl, rfl⟩
  · exact ⟨rfl, rfl, isSome_map⟩

theorem removeUserIfZero_same : (ch.removeUserIfZero u).2.kind = ch.kind ∧
    (ch.removeUserIfZero u).2.members = ch.members ∧
      (ch.removeUserIfZero u).2.userRefcounts.isSome = ch.userRefcounts.isSome := by
  rw [removeUserIfZero]
  split
  · exact ⟨rfl, rfl, isSome_map⟩
  · exact ⟨rfl, rfl, rfl⟩

theorem decrementUser_of_entry {n : Nat} (h : ch.entryOf u = some n) :
    (ch.decrementUser u).1 = (n - 1 == 0) ∧
      ∀ x, (ch.decrementUser u).2.entryOf x = if x = u then some (n - 1) else ch.entryOf x := by
  rw [decrementUser, h]
  obtain ⟨refs, hRefs, -⟩ := bind_eq_some_iff.mp h
  refine ⟨rfl, fun x => ?_⟩
  rw [entryOf, entryOf, hRefs]
  exact lookup_insert_if ..

theorem removeUserIfZero_of_entry (h : ch.entryOf u = some 0) : (ch.removeUserIfZero u).1 = true ∧
      ∀ x, (ch.removeUserIfZero u).2.entryOf x = if x = u then none else ch.entryOf x := by
  rw [removeUserIfZero, if_pos h]
  obtain ⟨refs, hRefs, -⟩ := bind_eq_some_iff.mp h
  refine ⟨rfl, fun x => ?_⟩
  rw [entryOf, entryOf, hRefs]
  exact lookup_erase_if ..

/-- The steps of one call without a break between them are `unsubscribe`. -/
theorem unsubscribe_eq_steps {ch : Channel} {s : String} {m : Member}
    (h : ch.members.lookup s = some m) :
    ch.unsubscribe s =
      let erased := { ch with members := ch.members.erase s }
      let left := match m.user with
        | some u =>
          let counted := erased.decrementUser u
          if counted.1 then counted.2.removeUserIfZero u else (false, counted.2)
        | none => (false, erased)
      (⟨true, if left.1 then m.user else none, left.2.len, m.presence⟩, left.2) := by
  rw [unsubscribe_of_lookup h, Member.user]
  cases m.presence with
  | none => cases hRefs : ch.userRefcounts <;> simp [leaveRefs, len]
  | some pm =>
    cases ch.userRefcounts with
    | none => simp [leaveRefs, decrementUser, entryOf, len]
    | some refs =>
      cases hLookup : refs.lookup pm.userId with
      | none => simp [leaveRefs, decrementUser, decrementRef, entryOf, hLookup, len]
      | some n =>
        by_cases hZero : n - 1 = 0
        · have hErase : (refs.insert pm.userId 0).erase pm.userId = refs.erase pm.userId :=
            AList.ext (List.kerase_cons_eq rfl)
          simp [leaveRefs, decrementUser, decrementRef, removeUserIfZero, entryOf, hLookup, len,
            hZero, hErase]
        · simp [leaveRefs, decrementUser, decrementRef, entryOf, hLookup, len, hZero]

end Channel

/-! ## What the calls under way hold -/

namespace Leaves

namespace Progress

def gone : Progress → Bool
  | .ready => false
  | .removed _ | .reachedZero _ _ => true
  | .leaving member _ => member.isSome
  | .returned outcome => outcome.wasMember

def settled : Progress → Bool
  | .removed _ => false
  | p => p.gone

/-- The user whose entry the call has found to be zero and is to take out. -/
def atZero : Progress → Option String
  | .reachedZero _ u => some u
  | _ => none

/-- The user whose removal the call reports, or is to report. -/
def closes : Progress → Option String
  | .reachedZero _ u => some u
  | .leaving _ userRemoved => userRemoved
  | .returned outcome => outcome.userRemoved
  | _ => none

/-- What the call has found in the member map. -/
def Holds : Progress → Option Member → Prop
  | .ready, _ => True
  | .removed m, found | .reachedZero m _, found => found = some m
  | .leaving m _, found => found = m
  | .returned outcome, found => outcome.wasMember = found.isSome

theorem closes_of_atZero {p : Progress} {u : String} (h : p.atZero = some u) :
    p.closes = some u := by
  cases p with
  | reachedZero member userId => exact h
  | _ => cases h

end Progress

/-- The connections of a user that are still counted. -/
def remaining (ch : Channel) (progress : String → Progress) (u : String) : Nat :=
  ch.members.entries.countP fun e => e.2.user = some u && !(progress e.1).settled

/-- The entries count the connections that no call has subtracted; a zero entry is about to
be taken out, and by one call only. -/
structure Books (ch : Channel) (entry : String → Option Nat) (progress : String → Progress) :
    Prop where
  counts : ∀ u, (entry u).getD 0 = remaining ch progress u
  zero : ∀ u, entry u = some 0 ↔ ∃ s, (progress s).atZero = some u
  closed : ∀ u, (∃ s, (progress s).closes = some u) ↔ ch.HasMember u ∧ remaining ch progress u = 0
  once : ∀ s t u, (progress s).closes = some u → (progress t).closes = some u → s = t

variable {ch : Channel} {σ τ : State} {progress : String → Progress}
  {entry : String → Option Nat} {s u : String} {m : Member} {p : Progress}

theorem comp_set {β : Type} (f : Progress → β) (h : f p = f (progress s)) (t : String) :
    f (update progress s p t) = f (progress t) := by
  rw [update_apply]
  split
  · rename_i hEq
    rw [hEq, h]
  · rfl

theorem exists_set {f : Progress → Option String} (hNone : f (progress s) = none) (x : String) :
    (∃ t, f (update progress s p t) = some x) ↔ f p = some x ∨ ∃ t, f (progress t) = some x := by
  rw [exists_update_iff progress fun _ p => f p = some x]
  refine or_congr_right ⟨fun ⟨t, _, ht⟩ => ⟨t, ht⟩, fun ⟨t, ht⟩ => ⟨t, ?_, ht⟩⟩
  rintro rfl
  rw [hNone] at ht
  cases ht

theorem remaining_congr (h : p.settled = (progress s).settled) :
    remaining ch (update progress s p) = remaining ch progress := by
  funext u
  rw [remaining, remaining]
  simp only [comp_set Progress.settled h]

theorem remaining_settle (hMember : ch.members.lookup s = some m)
    (hProgress : progress s = .removed m) (hAfter : p.settled = true) (u : String) :
    remaining ch progress u =
      remaining ch (update progress s p) u + if m.user = some u then 1 else 0 := by
  have hPerm := perm_cons_erase hMember
  have hRest : (ch.members.erase s).entries.countP
        (fun e => e.2.user = some u && !(progress e.1).settled) =
      (ch.members.erase s).entries.countP
        (fun e => e.2.user = some u && !(update progress s p e.1).settled) := by
    refine List.countP_congr fun e he => ?_
    rw [update_of_ne (lookup_erase_some (mem_entries_iff.mp he)).1]
  rw [remaining, remaining, hPerm.countP_eq, hPerm.countP_eq, List.countP_cons, List.countP_cons,
    update_self, hProgress, hAfter, hRest]
  simp [Progress.settled]

theorem Books.quiet (h : Books ch entry progress)
    (hRemaining : remaining ch (update progress s p) = remaining ch progress)
    (hZero : p.atZero = (progress s).atZero) (hCloses : p.closes = (progress s).closes) :
    Books ch entry (update progress s p) := by
  refine ⟨?_, ?_, ?_, ?_⟩
  · rw [hRemaining]
    exact h.counts
  · simp only [comp_set Progress.atZero hZero]
    exact h.zero
  · rw [hRemaining]
    simp only [comp_set Progress.closes hCloses]
    exact h.closed
  · simp only [comp_set Progress.closes hCloses]
    exact h.once

/-- The call that subtracts the last connection is the one to take the entry out. -/
theorem Books.settle (h : Books ch entry progress) (hMember : ch.members.lookup s = some m)
    (hUser : m.user = some u) (hProgress : progress s = .removed m) :
    ∃ n, entry u = some n ∧ Books ch (fun x => if x = u then some (n - 1) else entry x)
      (update progress s (if n - 1 == 0 then .reachedZero m u else .leaving (some m) none)) := by
  have hThere : ch.HasMember u := ⟨s, m, hMember, hUser⟩
  have hSettle {p : Progress} (hp : p.settled = true) := remaining_settle hMember hProgress hp
  have hPositive : 0 < remaining ch progress u := by
    rw [hSettle (p := .leaving (some m) none) rfl u, if_pos hUser]
    exact Nat.succ_pos _
  obtain ⟨n, hEntry, hCount⟩ : ∃ n, entry u = some n ∧ n = remaining ch progress u := by
    rw [← h.counts u] at hPositive ⊢
    cases hEntry : entry u with
    | none =>
      rw [hEntry] at hPositive
      cases hPositive
    | some n => exact ⟨n, rfl, rfl⟩
  refine ⟨n, hEntry, ?_⟩
  generalize hp : (if n - 1 == 0 then Progress.reachedZero m u else .leaving (some m) none) = p
  have hSettled : p.settled = true := by
    rw [← hp]
    split <;> rfl
  have hSame : p.atZero = p.closes := by
    rw [← hp]
    split <;> rfl
  have hCloses (x : String) : p.closes = some x ↔ x = u ∧ n = 1 := by
    rw [← hp]
    split
    · rename_i hOne
      have hOne : n - 1 = 0 := beq_iff_eq.mp hOne
      have hOne : n = 1 := by omega
      simp only [Progress.closes, Option.some.injEq, hOne, and_true, eq_comm]
    · rename_i hMore
      refine iff_of_false nofun fun hBoth => hMore ?_
      rw [hBoth.2]
      rfl
  have hOthers (t : String) : (progress t).closes ≠ some u := by
    intro ht
    have hNone := ((h.closed u).mp ⟨t, ht⟩).2
    omega
  refine ⟨fun x => ?_, fun x => ?_, fun x => ?_, fun t t' x ht ht' => ?_⟩
  · have hx := hSettle hSettled x
    rw [hUser] at hx
    split
    · rename_i hxu
      subst hxu
      rw [if_pos rfl] at hx
      rw [getD_some]
      omega
    · rename_i hxu
      rw [if_neg fun hEq => hxu (Option.some.inj hEq).symm] at hx
      exact (h.counts x).trans hx
  · rw [exists_set (by rw [hProgress]; rfl), hSame, hCloses, ← h.zero x]
    split
    · rename_i hxu
      rw [hxu, hEntry, Option.some.injEq, Option.some.injEq, eq_self, true_and]
      omega
    · rename_i hxu
      exact (or_iff_right fun hBoth => hxu hBoth.1).symm
  · have hx := hSettle hSettled x
    rw [exists_set (by rw [hProgress]; rfl), hCloses, h.closed x]
    by_cases hxu : x = u
    · subst hxu
      rw [if_pos hUser] at hx
      simp only [hThere, true_and]
      omega
    · rw [if_neg fun hEq => hxu (Option.some.inj (hEq.symm.trans hUser))] at hx
      rw [hx, Nat.add_zero]
      exact or_iff_right fun hBoth => hxu hBoth.1
  · by_cases hxu : x = u
    · have hSelf {t : String} (ht : (update progress s p t).closes = some x) : t = s := by
        by_contra hts
        rw [update_of_ne hts] at ht
        exact hOthers t (hxu ▸ ht)
      exact (hSelf ht).trans (hSelf ht').symm
    · have hOld {t : String} (ht : (update progress s p t).closes = some x) :
          (progress t).closes = some x := by
        rw [update_apply] at ht
        split at ht
        · exact absurd ((hCloses x).mp ht).1 hxu
        · exact ht
      exact h.once t t' x (hOld ht) (hOld ht')

theorem Books.takeOut (h : Books ch entry progress) (hProgress : progress s = .reachedZero m u) :
    entry u = some 0 ∧ Books ch (fun x => if x = u then none else entry x)
      (update progress s (.leaving (some m) (some u))) := by
  have hZero : entry u = some 0 := (h.zero u).mpr ⟨s, by rw [hProgress]; rfl⟩
  have hCloses : (Progress.leaving (some m) (some u)).closes = (progress s).closes := by
    rw [hProgress]
    rfl
  have hRemaining : remaining ch (update progress s (.leaving (some m) (some u))) =
      remaining ch progress := remaining_congr (by rw [hProgress]; rfl)
  refine ⟨hZero, fun x => ?_, fun x => ?_, ?_, ?_⟩
  · rw [hRemaining, ← h.counts x]
    split
    · rename_i hx
      rw [hx, hZero]
      rfl
    · rfl
  · rw [exists_update_iff progress fun _ p => p.atZero = some x]
    split
    · rename_i hx
      refine iff_of_false nofun ?_
      rintro (hp | ⟨t, hts, ht⟩)
      · cases hp
      · rw [hx] at ht
        exact hts (h.once t s u (Progress.closes_of_atZero ht) (by rw [hProgress]; rfl))
    · rename_i hx
      rw [h.zero x, or_iff_right nofun]
      refine exists_congr fun t => (and_iff_right_of_imp ?_).symm
      rintro ht rfl
      rw [hProgress] at ht
      exact hx (Option.some.inj ht).symm
  · rw [hRemaining]
    simp only [comp_set Progress.closes hCloses]
    exact h.closed
  · simp only [comp_set Progress.closes hCloses]
    exact h.once

/-! ## Every interleaving -/

structure Invariant (ch : Channel) (σ : State) : Prop where
  kind : σ.channel.kind = ch.kind
  refs : σ.channel.userRefcounts.isSome = ch.userRefcounts.isSome
  members : ∀ s, σ.channel.members.lookup s =
    if (σ.progress s).gone then none else ch.members.lookup s
  held : ∀ s, (σ.progress s).Holds (ch.members.lookup s)
  books : Books ch σ.channel.entryOf σ.progress

theorem invariant_start (hCounted : ch.Counted)
    (hUsers : ∀ u, ch.HasMember u → ch.kind.isPresence = true) : Invariant ch (start ch) := by
  have hRemaining (u : String) : remaining ch (start ch).progress u = ch.connectionsOf u := by
    rw [remaining, Channel.connectionsOf]
    exact List.countP_congr fun e _ => by simp [start, Progress.settled, Progress.gone]
  have hEntry (u : String) : (ch.entryOf u).getD 0 = ch.connectionsOf u ∧
      ch.entryOf u ≠ some 0 := by
    rw [Channel.entryOf]
    cases hRefs : ch.userRefcounts with
    | none =>
      refine ⟨Eq.symm (Nat.eq_zero_of_not_pos fun hPos => ?_), (some_ne_none 0).symm⟩
      have hKind := hUsers u (Channel.connectionsOf_pos.mp hPos)
      rw [← hCounted.kind, hRefs] at hKind
      cases hKind
    | some refs =>
      refine ⟨hCounted.refs refs hRefs u, fun hZero => ?_⟩
      exact Nat.lt_irrefl 0 (hCounted.positive refs hRefs u 0 hZero)
  refine ⟨rfl, rfl, fun s => rfl, fun s => trivial, fun u => ?_, fun u => ?_, fun u => ?_, ?_⟩
  · rw [hRemaining]
    exact (hEntry u).1
  · refine iff_of_false (hEntry u).2 ?_
    rintro ⟨s, ⟨⟩⟩
  · rw [hRemaining, ← Channel.connectionsOf_pos]
    refine iff_of_false ?_ fun hBoth => hBoth.1.ne' hBoth.2
    rintro ⟨s, ⟨⟩⟩
  · rintro s t u ⟨⟩

theorem Invariant.set (h : Invariant ch σ) {after : Channel}
    (hSame : after.kind = σ.channel.kind ∧ after.members = σ.channel.members ∧
      after.userRefcounts.isSome = σ.channel.userRefcounts.isSome)
    (hGone : p.gone = (σ.progress s).gone) (hHolds : p.Holds (ch.members.lookup s))
    (hBooks : Books ch after.entryOf (update σ.progress s p)) : Invariant ch (σ.set after s p) := by
  obtain ⟨hKind, hMembers, hRefs⟩ := hSame
  refine ⟨hKind.trans h.kind, hRefs.trans h.refs, fun t => ?_, ?_, hBooks⟩
  · refine (congrArg (AList.lookup t) hMembers).trans ((h.members t).trans ?_)
    exact if_congr (Bool.eq_iff_iff.mp (comp_set Progress.gone hGone t).symm) rfl rfl
  · exact (forall_update_iff σ.progress fun t p => p.Holds (ch.members.lookup t)).mpr
      ⟨hHolds, fun t _ => h.held t⟩

theorem invariant_step (h : Invariant ch σ) {label : Label} (hStep : step σ label = some τ) :
    Invariant ch τ := by
  cases label with
  | removeMember s =>
    rw [step] at hStep
    split at hStep
    · rename_i hProgress
      have hQuiet {p : Progress} (hSettled : p.settled = false) (hZero : p.atZero = none)
          (hCloses : p.closes = none) :
          Books ch σ.channel.entryOf (update σ.progress s p) :=
        h.books.quiet (remaining_congr (by rw [hProgress]; exact hSettled))
          (by rw [hProgress]; exact hZero) (by rw [hProgress]; exact hCloses)
      have hLookup : σ.channel.members.lookup s = ch.members.lookup s := by
        rw [h.members s, hProgress]
        rfl
      split at hStep
      · rename_i m hMember
        cases hStep
        refine ⟨h.kind, h.refs, ?_, ?_, hQuiet rfl rfl rfl⟩
        · refine (forall_update_iff σ.progress fun t p =>
            (σ.channel.members.erase s).lookup t =
              if p.gone then none else ch.members.lookup t).mpr ⟨AList.lookup_erase .., ?_⟩
          intro t hts
          exact (AList.lookup_erase_ne hts).trans (h.members t)
        · exact (forall_update_iff σ.progress fun t p => p.Holds (ch.members.lookup t)).mpr
            ⟨hLookup.symm.trans hMember, fun t _ => h.held t⟩
      · rename_i hMember
        cases hStep
        exact h.set ⟨rfl, rfl, rfl⟩ (by rw [hProgress]; rfl) (hLookup.symm.trans hMember)
          (hQuiet rfl rfl rfl)
    · cases hStep
  | decrement s =>
    rw [step] at hStep
    split at hStep
    · rename_i m hProgress
      have hMember := h.held s
      rw [hProgress] at hMember
      split at hStep
      · rename_i u hUser
        cases hStep
        obtain ⟨n, hEntry, hBooks⟩ := h.books.settle hMember hUser hProgress
        obtain ⟨hFirst, hEntries⟩ := σ.channel.decrementUser_of_entry u hEntry
        rw [hFirst]
        refine h.set (σ.channel.decrementUser_same u) ?_ ?_ (by rw [funext hEntries]; exact hBooks)
        · rw [hProgress]
          split <;> rfl
        · split <;> exact hMember
      · rename_i hUser
        cases hStep
        refine h.set ⟨rfl, rfl, rfl⟩ (by rw [hProgress]; rfl) hMember (h.books.quiet ?_ ?_ ?_)
        · funext u
          rw [remaining_settle (p := .leaving (some m) none) hMember hProgress rfl u, hUser]
          rfl
        · rw [hProgress]
          rfl
        · rw [hProgress]
          rfl
    · cases hStep
  | removeIfZero s =>
    rw [step] at hStep
    split at hStep
    · rename_i m u hProgress
      cases hStep
      have hMember := h.held s
      rw [hProgress] at hMember
      obtain ⟨hZero, hBooks⟩ := h.books.takeOut hProgress
      obtain ⟨hFirst, hEntries⟩ := σ.channel.removeUserIfZero_of_entry u hZero
      rw [hFirst]
      refine h.set (σ.channel.removeUserIfZero_same u) (by rw [hProgress]; rfl) hMember ?_
      rw [funext hEntries]
      exact hBooks
    · cases hStep
  | finish s memberCount =>
    rw [step] at hStep
    split at hStep
    · rename_i member userRemoved hProgress
      cases hStep
      have hMember := h.held s
      rw [hProgress] at hMember
      refine h.set ⟨rfl, rfl, rfl⟩ (by rw [hProgress]; rfl) (congrArg Option.isSome hMember).symm
        (h.books.quiet ?_ ?_ ?_)
      · exact remaining_congr (by rw [hProgress]; rfl)
      · rw [hProgress]
        rfl
      · rw [hProgress]
        rfl
    · cases hStep

/-- However the steps of the leaves interleave, each user who lost its last socket is reported
by one of them and nobody else is, and the counts are exact again. -/
theorem concurrent_leaves_report_once (ch : Channel) (hCounted : ch.Counted)
    (hUsers : ∀ u, ch.HasMember u → ch.kind.isPresence = true) (run : List Label) (τ : State)
    (hRun : exec step (start ch) run = some τ)
    (hDone : ∀ s, (τ.progress s).underWay = false) : ReportedOnce ch τ := by
  have h : Invariant ch τ :=
    (always_of_invariant (fun _ _ _ h => invariant_step h) (invariant_start hCounted hUsers)
      run).of_exec hRun
  have hProgress (s : String) : τ.progress s = .ready ∨
      ∃ outcome, τ.progress s = .returned outcome := by
    have hs := hDone s
    cases hp : τ.progress s with
    | ready => exact .inl rfl
    | returned outcome => exact .inr ⟨outcome, rfl⟩
    | _ =>
      rw [hp] at hs
      cases hs
  have hReports (s u : String) : τ.Reports s u ↔ (τ.progress s).closes = some u := by
    rcases hProgress s with hp | ⟨outcome, hp⟩
    · rw [State.Reports, hp]
      exact iff_of_false nofun nofun
    · rw [State.Reports, hp]
      exact ⟨fun ⟨_, hEq, hUser⟩ => by cases hEq; exact hUser, fun hUser => ⟨outcome, rfl, hUser⟩⟩
  have hRemaining (u : String) : remaining ch τ.progress u = τ.channel.connectionsOf u := by
    rw [remaining, Channel.connectionsOf, countP_entries_of_lookup h.members]
    refine List.countP_congr fun e _ => ?_
    rcases hProgress e.1 with hp | ⟨outcome, hp⟩
    · rw [hp]
      rfl
    · rw [hp]
      rfl
  have hLost (u : String) : remaining ch τ.progress u = 0 ↔ ¬ τ.channel.HasMember u := by
    rw [hRemaining, ← Channel.connectionsOf_pos, Nat.pos_iff_ne_zero, not_not]
  refine ⟨fun s => ?_, fun u hBefore hAfter => ?_, fun s u hReport => ?_, ?_⟩
  · have hHeld := h.held s
    rw [h.members s]
    rcases hProgress s with hp | ⟨outcome, hp⟩
    · rw [hp]
      rfl
    · rw [hp] at hHeld ⊢
      rw [Progress.gone, hHeld]
      cases ch.members.lookup s <;> rfl
  · obtain ⟨s, hs⟩ := (h.books.closed u).mpr ⟨hBefore, (hLost u).mpr hAfter⟩
    refine ⟨s, (hReports s u).mpr hs, fun t ht => ?_⟩
    exact h.books.once t s u ((hReports t u).mp ht) hs
  · obtain ⟨hBefore, hNone⟩ := (h.books.closed u).mp ⟨s, (hReports s u).mp hReport⟩
    exact ⟨hBefore, (hLost u).mp hNone⟩
  · have hKind : τ.channel.kind.isPresence = τ.channel.userRefcounts.isSome := by
      rw [h.kind, h.refs, hCounted.kind]
    cases hRefs : τ.channel.userRefcounts with
    | none =>
      rw [hRefs] at hKind
      exact Channel.counted_of_none hRefs hKind
    | some refs =>
      have hEntry (u : String) : τ.channel.entryOf u = refs.lookup u := by
        rw [Channel.entryOf, hRefs]
        rfl
      rw [hRefs] at hKind
      refine Channel.counted_of_some hRefs hKind (fun u => ?_) fun u n hn => ?_
      · rw [← hEntry, h.books.counts, hRemaining]
      · refine Nat.pos_of_ne_zero fun hZero => ?_
        rw [hZero, ← hEntry, h.books.zero] at hn
        obtain ⟨s, hs⟩ := hn
        rcases hProgress s with hp | ⟨outcome, hp⟩ <;> rw [hp] at hs <;> cases hs

def pairChannel : Channel :=
  let member : PresenceMember := ⟨"u1", none⟩
  (((Channel.withCacheTtl "presence-x" none).subscribe "1.1" (some member)).2.subscribe "1.2"
    (some member)).2

/-- Both sockets are taken out before either is subtracted. -/
def pairRun : List Label :=
  [.removeMember "1.1", .removeMember "1.2", .decrement "1.2", .decrement "1.1",
    .removeIfZero "1.1", .finish "1.2" 0, .finish "1.1" 0]

theorem pair_reported_once : ∃ τ, exec step (start pairChannel) pairRun = some τ ∧
    τ.progress "1.1" = .returned ⟨true, some "u1", 0, some ⟨"u1", none⟩⟩ ∧
    τ.progress "1.2" = .returned ⟨true, none, 0, some ⟨"u1", none⟩⟩ ∧
    ReportedOnce pairChannel τ := by
  have hExact : pairChannel.Exact :=
    ((Channel.withCacheTtl_exact ..).subscribe _ rfl).subscribe _ rfl
  refine ⟨_, rfl, rfl, rfl, concurrent_leaves_report_once _ hExact.toCounted
    (fun _ hMember => hExact.isPresence_of_hasMember hMember) pairRun _ rfl fun s => ?_⟩
  by_cases hFirst : s = "1.1"
  · rw [hFirst]
    rfl
  · by_cases hSecond : s = "1.2"
    · rw [hSecond]
      rfl
    · simp [State.set, start, update_of_ne hFirst, update_of_ne hSecond,
        Progress.underWay]

end Leaves

end Zatat
