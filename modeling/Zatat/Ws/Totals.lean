import Zatat.Channels.Incarnations
import Zatat.Lib.Run
import Zatat.Ws.View

/-! # Subscription counts under concurrent changes

A join or a leave changes the members, reads what the peers count and broadcasts the
total, all under the lock of the channel's object. A peer's count is stored, then the
total is read and broadcast without the lock; after a peer's snapshot it is read and
broadcast under it. The total is right once all is done if what an operation broadcasts
is not out of date, or another operation will broadcast after it. Webhooks and messages
to the peers read nothing of this and are left out.
-/

namespace Zatat

open FiniteMap Incarnations AList Channel Option Bool

structure CountedChannel where
  app : Application
  channel : String
  emits : app.emitSubscriptionCount = true
  notPresence : (ChannelKind.fromName channel).isPresence = false

namespace PeerChannelCounts

def stored (counts : PeerChannelCounts) (appId channel : String) : Nat :=
  ((counts.nodesOf appId channel).entries.map fun e => e.2.count).sum

def allFresh (counts : PeerChannelCounts) (now : Instant) (appId channel : String) : Bool :=
  (counts.nodesOf appId channel).entries.all fun e => !e.2.expired now

theorem sum_of_allFresh {counts : PeerChannelCounts} {now : Instant} {appId channel : String}
    (h : counts.allFresh now appId channel = true) :
    counts.sum now appId channel = counts.stored appId channel := by
  rw [sum, stored, List.filter_eq_self.mpr (List.all_eq_true.mp h)]

end PeerChannelCounts

theorem Channel.not_mem_of_isEmpty {ch : Channel} (h : ch.isEmpty = true) (s : String) :
    s ∉ ch.members := by
  rw [Channel.isEmpty, List.isEmpty_iff, entries_eq_nil_iff] at h
  rw [mem_iff_lookup]
  rintro ⟨member, hMember⟩
  rw [h s] at hMember
  cases hMember

def Frame.total (channel : String) : Frame → Option Nat
  | .subscriptionCount c n => if c = channel then some n else none
  | _ => none

def lastTotal (sent : List Sent) (appId channel socketId : String) : Option Nat :=
  ((framesTo sent appId socketId).filterMap (Frame.total channel)).getLast?

namespace Totals

open Transition

inductive Operation where
  | join
  | leave
  | count
  | snapshot
deriving DecidableEq

def Operation.locks : Operation → Bool
  | .count => false
  | _ => true

inductive Progress where
  /-- A leave that has found the object. -/
  | found (socketId : String) (arc : Nat)
  /-- A join or leave that has changed the members and holds the lock. -/
  | changed (op : Operation) (arc localCount : Nat)
  /-- Counts of a peer are stored, the channel is to be looked up. -/
  | applied (op : Operation)
  | toRead (op : Operation) (arc : Nat)
  | toSend (op : Operation) (arc localCount peerSum : Nat)
  /-- A leave that has released the lock. -/
  | left

def Progress.locked : Progress → Option Nat
  | .changed _ arc _ => some arc
  | .toSend op arc _ _ => if op.locks then some arc else none
  | _ => none

def Progress.object : Progress → Option Nat
  | .found _ arc => some arc
  | .changed _ arc _ => some arc
  | .toRead _ arc => some arc
  | .toSend _ arc _ _ => some arc
  | .applied _ => none
  | .left => none

theorem Progress.object_of_locked {p : Progress} {arc : Nat} (h : p.locked = some arc) :
    p.object = some arc := by
  cases p with
  | changed op a n => exact h
  | toSend op a n m => exact (ite_none_right_eq_some.mp h).2
  | _ => cases h

/-- What a peer's snapshot says of the channel. A count that is not newer is only touched;
an omitted channel is dropped if that is newer. -/
inductive Reported where
  | newer (count : Nat)
  | stale
  | dropped

/-- `entry` is the join that holds the map entry of the channel. -/
structure State where
  inc : Incarnations
  counts : PeerChannelCounts
  sent : List Sent
  progress : Map String Progress
  entry : Option String

inductive Label where
  | join (task socketId : String)
  | find (task socketId : String)
  | remove (task : String)
  | setCount (task : String) (now : Instant) (nodeId : String) (count : Nat)
  | applySnapshot (task : String) (now : Instant) (nodeId : String) (reported : Reported)
  | lookUp (task : String)
  | read (task : String) (now : Instant)
  | send (task : String)
  | removeUnused (task : String) (now : Instant)

section

variable (site : CountedChannel)

def new : State := ⟨Incarnations.new site.channel, .new, [], ∅, none⟩

namespace State

def setProgress (σ : State) (task : String) (p : Progress) : State :=
  { σ with progress := σ.progress.insert task p }

def finish (σ : State) (task : String) : State := { σ with progress := σ.progress.erase task }

def stored (σ : State) : Nat := σ.counts.stored site.app.id site.channel

def lastTotal (σ : State) (socketId : String) : Option Nat :=
  Zatat.lastTotal σ.sent site.app.id site.channel socketId

end State

/-- The membership change of a join: it holds the map entry and the lock from here on. A
socket that is a member already changes and announces nothing. -/
def subscribe (σ : State) (task socketId : String) (arc : Nat) : Option State :=
  if σ.entry = none ∧ σ.inc.holderAt arc = none then
    let (r, ch) := (σ.inc.channelAt arc).subscribe socketId none
    if r.wasNew then
      some ({ σ with inc := σ.inc.setObject arc ⟨ch, some task⟩, entry := some task }.setProgress
        task (.changed .join arc r.memberCount))
    else some σ
  else none

def join (σ : State) (task socketId : String) : Option State :=
  let (arc, inc) := σ.inc.entryOrNew site.app site.channel
  subscribe { σ with inc := inc } task socketId arc

def find (σ : State) (task socketId : String) : Option State :=
  if σ.entry = none then
    match σ.inc.current with
    | some arc => some (σ.setProgress task (.found socketId arc))
    | none => some σ
  else none

/-- The membership change of a leave; a socket that is no member announces nothing. -/
def remove (σ : State) (task socketId : String) (arc : Nat) : Option State :=
  if σ.inc.holderAt arc = none then
    let (outcome, ch) := (σ.inc.channelAt arc).unsubscribe socketId
    if outcome.wasMember then
      some ({ σ with inc := σ.inc.setObject arc ⟨ch, some task⟩ }.setProgress
        task (.changed .leave arc outcome.memberCount))
    else some (σ.setProgress task .left)
  else none

def setCount (σ : State) (task : String) (now : Instant) (nodeId : String) (count : Nat) :
    State :=
  { σ with counts := σ.counts.set now site.app.id site.channel nodeId count }.setProgress task
    (.applied .count)

def applySnapshot (σ : State) (task : String) (now : Instant) (nodeId : String)
    (reported : Reported) : State :=
  let counts := match reported with
    | .newer count => σ.counts.set now site.app.id site.channel nodeId count
    | .stale => σ.counts.touch now site.app.id site.channel nodeId
    | .dropped => σ.counts.remove site.app.id site.channel nodeId
  { σ with counts := counts }.setProgress task (.applied .snapshot)

/-- `find_channel`: it waits for a join that holds the map entry. -/
def lookUp (σ : State) (task : String) (op : Operation) : Option State :=
  if σ.entry = none then
    match σ.inc.current with
    | some arc => some (σ.setProgress task (.toRead op arc))
    | none => some (σ.finish task)
  else none

/-- The read of the local length and of the peers' sum, under the lock for a snapshot. -/
def readTotal (σ : State) (task : String) (now : Instant) (op : Operation) (arc : Nat) :
    Option State :=
  let ch := σ.inc.channelAt arc
  let σ' := σ.setProgress task
    (.toSend op arc ch.len (σ.counts.sum now site.app.id site.channel))
  if op.locks then
    if σ.inc.holderAt arc = none then
      some { σ' with inc := σ.inc.setObject arc ⟨ch, some task⟩ }
    else none
  else some σ'

/-- The broadcast, and the release of what the operation holds. -/
def send (σ : State) (task : String) (op : Operation) (arc localCount peerSum : Nat) : State :=
  let ch := σ.inc.channelAt arc
  let σ' : State := { σ with
    inc := if op.locks then σ.inc.setObject arc ⟨ch, none⟩ else σ.inc
    entry := if op = .join then none else σ.entry
    sent := σ.sent ++ (ch.recipients none).map fun s =>
      ⟨site.app.id, s, .text (.subscriptionCount site.channel (localCount + peerSum))⟩ }
  if op = .leave then σ'.setProgress task .left else σ'.finish task

def step (σ : State) : Label → Option State
  | .join task socketId => if task ∈ σ.progress then none else join site σ task socketId
  | .find task socketId => if task ∈ σ.progress then none else find σ task socketId
  | .remove task =>
    match σ.progress.lookup task with
    | some (.found socketId arc) => remove σ task socketId arc
    | _ => none
  | .setCount task now nodeId count =>
    if task ∈ σ.progress then none else some (setCount site σ task now nodeId count)
  | .applySnapshot task now nodeId reported =>
    if task ∈ σ.progress then none else some (applySnapshot site σ task now nodeId reported)
  | .lookUp task =>
    match σ.progress.lookup task with
    | some (.applied op) => lookUp σ task op
    | _ => none
  | .read task now =>
    match σ.progress.lookup task with
    | some (.changed op arc localCount) => some (σ.setProgress task
        (.toSend op arc localCount (σ.counts.sum now site.app.id site.channel)))
    | some (.toRead op arc) => readTotal site σ task now op arc
    | _ => none
  | .send task =>
    match σ.progress.lookup task with
    | some (.toSend op arc localCount peerSum) => some (send site σ task op arc localCount peerSum)
    | _ => none
  | .removeUnused task now =>
    match σ.progress.lookup task with
    | some .left =>
      if σ.entry = none then some ({ σ with inc := σ.inc.removeUnused now }.finish task) else none
    | _ => none

/-! ## Property and condition -/

/-- Once all have finished, the last total told to every member is the true one. -/
def TotalsExact (σ : State) : Prop :=
  σ.progress.entries = [] → ∀ arc, σ.inc.current = some arc →
    ∀ s ∈ (σ.inc.channelAt arc).members,
      σ.lastTotal site s = some ((σ.inc.channelAt arc).len + σ.stored site)

/-- What the task has read is what the object and the store hold, or it is still to read. -/
def willTell (σ : State) (arc : Nat) : Progress → Bool
  | .changed _ a _ => a = arc
  | .applied _ => true
  | .toRead _ a => a = arc
  | .toSend _ a localCount peerSum =>
    a = arc && decide (localCount = (σ.inc.channelAt arc).len) && decide (peerSum = σ.stored site)
  | .found _ _ => false
  | .left => false

/-- The broadcast reaches nobody, or what was read still holds, or another operation
under way has yet to read it or has read it as it is now. -/
def timelySend (σ : State) (task : String) : Bool :=
  match σ.progress.lookup task with
  | some (.toSend op arc localCount peerSum) =>
    (σ.inc.channelAt arc).isEmpty || willTell site σ arc (.toSend op arc localCount peerSum) ||
      (σ.progress.erase task).entries.any fun e => willTell site σ arc e.2
  | _ => true

def Timely (σ : State) : Label → Prop
  | .read _ now => σ.counts.allFresh now site.app.id site.channel = true
  | .send task => timelySend site σ task = true
  | _ => True

instance (σ : State) : (label : Label) → Decidable (Timely site σ label)
  | .read _ now => inferInstanceAs (Decidable (σ.counts.allFresh now _ _ = true))
  | .send task => inferInstanceAs (Decidable (timelySend site σ task = true))
  | .join _ _ | .find _ _ | .remove _ | .setCount _ _ _ _ | .applySnapshot _ _ _ _ | .lookUp _
  | .removeUnused _ _ => inferInstanceAs (Decidable True)

/-! ## Objects and locks -/

/-- Objects out of the map are empty, and a task that holds a lock is its holder; its
count of the members is the object's. -/
structure Held (σ : State) : Prop where
  detached : ∀ i, σ.inc.current ≠ some i → (σ.inc.channelAt i).isEmpty = true
  allocated : ∀ i, σ.inc.current = some i → i < σ.inc.fresh
  known : ∀ task p arc, σ.progress.lookup task = some p → p.object = some arc → arc < σ.inc.fresh
  held : ∀ task p arc, σ.progress.lookup task = some p → p.locked = some arc →
    σ.inc.holderAt arc = some task
  counted : ∀ task op arc n, σ.progress.lookup task = some (.changed op arc n) →
    n = (σ.inc.channelAt arc).len

structure Progress.Fits (inc : Incarnations) (task : String) (p : Progress) : Prop where
  known : ∀ arc, p.object = some arc → arc < inc.fresh
  held : ∀ arc, p.locked = some arc → inc.holderAt arc = some task
  counted : ∀ op arc n, p = .changed op arc n → n = (inc.channelAt arc).len

variable {σ τ : State} {task socketId : String} {arc : Nat} {now : Instant} {p : Progress}
  {op : Operation} {n m : Nat}

theorem Held.fits (h : Held σ) (hp : σ.progress.lookup task = some p) : p.Fits σ.inc task :=
  ⟨fun arc => h.known task p arc hp, fun arc => h.held task p arc hp,
    fun op arc n hEq => h.counted task op arc n (hEq ▸ hp)⟩

theorem Held.of_fits (hDetached : ∀ i, σ.inc.current ≠ some i → (σ.inc.channelAt i).isEmpty = true)
    (hAllocated : ∀ i, σ.inc.current = some i → i < σ.inc.fresh)
    (hFits : ∀ t p, σ.progress.lookup t = some p → p.Fits σ.inc t) : Held σ :=
  ⟨hDetached, hAllocated, fun t p arc hp => (hFits t p hp).known arc,
    fun t p arc hp => (hFits t p hp).held arc,
    fun t op arc n hp => (hFits t _ hp).counted op arc n rfl⟩

theorem Progress.Fits.setObject {inc : Incarnations} (h : p.Fits inc task)
    (hOther : p.locked ≠ some arc) (object : ChannelObject) :
    p.Fits (inc.setObject arc object) task where
  known := h.known
  held a ha := by
    rw [holderAt_setObject, if_neg]
    · exact h.held a ha
    · rintro rfl
      exact hOther ha
  counted op a n hEq := by
    rw [channelAt_setObject, if_neg]
    · exact h.counted op a n hEq
    · rintro rfl
      exact hOther (hEq ▸ rfl)

theorem Held.withProgress (h : Held σ) {progress : Map String Progress}
    (hOthers : ∀ t, t ≠ task → progress.lookup t = σ.progress.lookup t)
    (hOwn : ∀ p, progress.lookup task = some p → p.Fits σ.inc task) :
    Held { σ with progress := progress } := by
  refine .of_fits h.detached h.allocated fun t p hp => ?_
  by_cases ht : t = task
  · subst ht
    exact hOwn p hp
  · exact h.fits ((hOthers t ht).symm.trans hp)

theorem Held.withRest (h : Held σ) (counts : PeerChannelCounts) (sent : List Sent)
    (entry : Option String) : Held { σ with counts := counts, sent := sent, entry := entry } :=
  ⟨h.detached, h.allocated, h.known, h.held, h.counted⟩

theorem Held.unlocked (h : Held σ) (hFree : σ.inc.holderAt arc = none) (t : String)
    (p : Progress) (hp : σ.progress.lookup t = some p) : p.locked ≠ some arc :=
  fun hArc => nomatch hFree.symm.trans (h.held t p arc hp hArc)

theorem Held.setObject (h : Held σ) (object : ChannelObject)
    (hUnlocked : ∀ t p, σ.progress.lookup t = some p → p.locked ≠ some arc)
    (hDetached : σ.inc.current ≠ some arc → object.channel.isEmpty = true) :
    Held { σ with inc := σ.inc.setObject arc object } := by
  refine .of_fits (fun i hi => ?_) h.allocated
    fun t p hp => (h.fits hp).setObject (hUnlocked t p hp) object
  change ((σ.inc.setObject arc object).channelAt i).isEmpty = true
  rw [channelAt_setObject]
  split
  · rename_i hArc
    exact hDetached (hArc ▸ hi)
  · exact h.detached i hi

theorem Held.setProgress (h : Held σ) (hFits : p.Fits σ.inc task) :
    Held (σ.setProgress task p) := by
  refine h.withProgress (fun _ ht => lookup_insert_ne ht) fun p' hp' => ?_
  cases (lookup_insert _).symm.trans hp'
  exact hFits

theorem Held.finish (h : Held σ) (task : String) : Held (σ.finish task) :=
  h.withProgress (fun _ ht => lookup_erase_ne ht)
    fun _ hp => nomatch (lookup_erase ..).symm.trans hp

theorem Held.change (h : Held σ) {ch : Channel} (hCurrent : σ.inc.current = some arc)
    (hFree : σ.inc.holderAt arc = none) (op : Operation) (entry : Option String) :
    Held ({ σ with inc := σ.inc.setObject arc ⟨ch, some task⟩, entry := entry }.setProgress task
      (.changed op arc ch.len)) := by
  have hSet := h.setObject ⟨ch, some task⟩ (h.unlocked hFree) (absurd hCurrent)
  refine (hSet.withRest σ.counts σ.sent entry).setProgress ⟨?_, ?_, ?_⟩
  · rintro a ⟨⟩
    exact h.allocated arc hCurrent
  · rintro a ⟨⟩
    exact (holderAt_setObject ..).trans (if_pos rfl)
  · rintro op' a n ⟨⟩
    change ch.len = ((σ.inc.setObject arc ⟨ch, some task⟩).channelAt arc).len
    rw [channelAt_setObject, if_pos rfl]

theorem Held.entryOrNew (h : Held σ) :
    Held { σ with inc := (σ.inc.entryOrNew site.app site.channel).2 } := by
  unfold Incarnations.entryOrNew
  cases hCurrent : σ.inc.current with
  | some arc => exact h
  | none =>
    refine .of_fits (fun i _ => ?_) ?_ fun t p hp => ?_
    · change ((σ.inc.setObject σ.inc.fresh _).channelAt i).isEmpty = true
      rw [channelAt_setObject]
      split
      · rfl
      · exact h.detached i (by rw [hCurrent]; exact nofun)
    · rintro i ⟨⟩
      exact Nat.lt_succ_self _
    · have hOther : p.locked ≠ some σ.inc.fresh := fun hArc =>
        (h.known t p _ hp (Progress.object_of_locked hArc)).false
      obtain ⟨hKnown, hHeld, hCounted⟩ := (h.fits hp).setObject hOther _
      exact ⟨fun arc hArc => Nat.lt_succ_of_lt (hKnown arc hArc), hHeld, hCounted⟩

theorem Held.removeUnused (h : Held σ) (now : Instant) :
    Held { σ with inc := σ.inc.removeUnused now } := by
  unfold Incarnations.removeUnused
  cases hCurrent : σ.inc.current with
  | none => exact h
  | some arc =>
    dsimp only
    split
    · rename_i hRemovable
      rw [AppChannels.removable, and_eq_true] at hRemovable
      refine ⟨?_, nofun, h.known, h.held, h.counted⟩
      intro i _
      by_cases hi : i = arc
      · rw [hi]
        exact hRemovable.1
      · apply h.detached i
        rw [hCurrent]
        exact fun hSome => hi (Option.some.inj hSome).symm
    · exact h

/-! ## What the members were told -/

/-- The members were told the total, or an operation under way will tell them. -/
def Told (σ : State) : Prop :=
  ∀ arc, σ.inc.current = some arc →
    (∀ s ∈ (σ.inc.channelAt arc).members,
      σ.lastTotal site s = some ((σ.inc.channelAt arc).len + σ.stored site)) ∨
    ∃ task p, σ.progress.lookup task = some p ∧ willTell site σ arc p = true

theorem told_of_own (hOwn : σ.progress.lookup task = some p)
    (h : ∀ arc, σ.inc.current = some arc → willTell site σ arc p = true) : Told site σ :=
  fun arc hArc => Or.inr ⟨task, p, hOwn, h arc hArc⟩

section

variable {site}

theorem Told.withProgress (h : Told site σ) {progress : Map String Progress}
    (hOthers : ∀ t, t ≠ task → progress.lookup t = σ.progress.lookup t)
    (hOwn : ∀ arc p, σ.progress.lookup task = some p → willTell site σ arc p = true →
      ∃ p', progress.lookup task = some p' ∧ willTell site σ arc p' = true) :
    Told site { σ with progress := progress } := by
  refine fun arc hArc => (h arc hArc).imp_right ?_
  rintro ⟨t, p, hp, hTell⟩
  by_cases ht : t = task
  · subst ht
    exact ⟨t, hOwn arc p hp hTell⟩
  · exact ⟨t, p, (hOthers t ht).trans hp, hTell⟩

theorem Told.setProgress (h : Told site σ)
    (hOwn : ∀ arc p₀, σ.progress.lookup task = some p₀ → willTell site σ arc p₀ = true →
      willTell site σ arc p = true) : Told site (σ.setProgress task p) :=
  h.withProgress (fun _ ht => lookup_insert_ne ht)
    fun arc p₀ hp₀ hWill => ⟨p, lookup_insert _, hOwn arc p₀ hp₀ hWill⟩

theorem Told.setHolder (h : Told site σ) (arc : Nat) (holder : Option String) :
    Told site { σ with inc := σ.inc.setObject arc ⟨σ.inc.channelAt arc, holder⟩ } := by
  intro a ha
  have hSame : (σ.inc.setObject arc ⟨σ.inc.channelAt arc, holder⟩).channelAt a =
      σ.inc.channelAt a := by
    rw [channelAt_setObject]
    split
    · rename_i hi
      rw [hi]
    · rfl
  refine (h a ha).imp (fun hInformed => ?_) ?_
  · dsimp only
    rw [hSame]
    exact hInformed
  · rintro ⟨t, p, hp, hWill⟩
    refine ⟨t, p, hp, ?_⟩
    cases p with
    | toSend op b n m =>
      rw [willTell] at hWill ⊢
      dsimp only
      rw [hSame]
      exact hWill
    | _ => exact hWill

theorem Told.finish (h : Told site σ)
    (hOwn : ∀ arc p₀, σ.progress.lookup task = some p₀ → willTell site σ arc p₀ = false) :
    Told site (σ.finish task) :=
  h.withProgress (fun _ ht => lookup_erase_ne ht)
    fun arc p₀ hp₀ hWill => nomatch (hOwn arc p₀ hp₀).symm.trans hWill

end

def broadcast (ch : Channel) (total : Nat) : List Sent :=
  (ch.recipients none).map fun s =>
    ⟨site.app.id, s, .text (.subscriptionCount site.channel total)⟩

theorem lastTotal_broadcast (sent : List Sent) (ch : Channel) (total : Nat) (s : String) :
    lastTotal (sent ++ broadcast site ch total) site.app.id site.channel s =
      if s ∈ ch.members then some total else lastTotal sent site.app.id site.channel s := by
  rw [lastTotal, broadcast, framesTo_append, framesTo_text (recipients_nodup _ none),
    List.filterMap_append]
  simp only [mem_recipients]
  by_cases hs : s ∈ ch.members
  · simp [hs, Frame.total]
  · simp [hs, lastTotal]

theorem told_broadcast (hHeld : Held σ) (h : Told site σ)
    (hOwn : σ.progress.lookup task = some (.toSend op arc n m))
    (hTimely : timelySend site σ task = true) {progress : Map String Progress}
    (hOthers : ∀ t, t ≠ task → progress.lookup t = σ.progress.lookup t) :
    Told site { σ with
      sent := σ.sent ++ broadcast site (σ.inc.channelAt arc) (n + m), progress := progress } := by
  intro a ha
  by_cases hArc : a = arc
  · -- the broadcast reaches the members
    subst hArc
    simp only [timelySend, hOwn, or_eq_true] at hTimely
    rcases hTimely with (hEmpty | hCurrent) | hAnother
    · exact Or.inl fun s hs => absurd hs (not_mem_of_isEmpty hEmpty s)
    · left
      intro s hs
      simp only [willTell, and_eq_true, decide_eq_true_eq] at hCurrent
      rw [State.lastTotal, lastTotal_broadcast, if_pos hs, hCurrent.1.2, hCurrent.2]
      rfl
    · obtain ⟨t, p, hp, hWill⟩ := any_entries_iff.mp hAnother
      obtain ⟨ht, hp⟩ := lookup_erase_some hp
      exact Or.inr ⟨t, p, (hOthers t ht).trans hp, hWill⟩
  · -- the object is out of the map, and empty
    have hEmpty := not_mem_of_isEmpty
      (hHeld.detached arc (ha ▸ fun hEq => hArc (Option.some.inj hEq)))
    rcases h a ha with hInformed | ⟨t, p, hp, hWill⟩
    · left
      intro s hs
      rw [State.lastTotal, lastTotal_broadcast, if_neg (hEmpty s)]
      exact hInformed s hs
    · have ht : t ≠ task := by
        rintro rfl
        cases hOwn.symm.trans hp
        simp only [willTell, and_eq_true, decide_eq_true_eq] at hWill
        exact hArc hWill.1.1.symm
      exact Or.inr ⟨t, p, (hOthers t ht).trans hp, hWill⟩

/-! ## Every step -/

theorem lookup_setProgress_self (σ : State) (task : String) (p : Progress) :
    (σ.setProgress task p).progress.lookup task = some p := lookup_insert _

structure Invariant (σ : State) : Prop where
  held : Held σ
  told : Told site σ

theorem told_entryOrNew (h : Told site σ) :
    Told site { σ with inc := (σ.inc.entryOrNew site.app site.channel).2 } := by
  unfold Incarnations.entryOrNew
  cases hCurrent : σ.inc.current with
  | some arc => exact h
  | none =>
    rintro arc ⟨⟩
    left
    intro s hs
    change s ∈ ((σ.inc.setObject σ.inc.fresh _).channelAt σ.inc.fresh).members at hs
    rw [channelAt_setObject, if_pos rfl] at hs
    exact absurd hs (not_mem_of_isEmpty rfl s)

section

variable (h : Invariant site σ)

include h

theorem invariant_subscribe (hCurrent : σ.inc.current = some arc)
    (hStep : subscribe σ task socketId arc = some τ) : Invariant site τ := by
  unfold subscribe at hStep
  obtain ⟨⟨-, hFree⟩, hStep⟩ := ite_none_right_eq_some.mp hStep
  unfold Channel.subscribe at hStep
  cases hMember : (σ.inc.channelAt arc).contains socketId with
  | true =>
    simp only [hMember, if_true, false_eq_true, if_false, Option.some.injEq] at hStep
    exact hStep ▸ h
  | false =>
    simp only [hMember, if_true, false_eq_true, if_false, Option.some.injEq] at hStep
    subst hStep
    exact ⟨h.held.change hCurrent hFree .join (some task),
      told_of_own site (lookup_setProgress_self ..) fun a ha =>
        decide_eq_true (Option.some.inj (hCurrent.symm.trans ha))⟩

theorem invariant_join (hStep : join site σ task socketId = some τ) : Invariant site τ :=
  invariant_subscribe site ⟨h.held.entryOrNew site, told_entryOrNew site h.told⟩
    (σ.inc.entryOrNew_current site.app site.channel) hStep

theorem invariant_remove (hOwn : σ.progress.lookup task = some (.found socketId arc))
    (hStep : remove σ task socketId arc = some τ) : Invariant site τ := by
  unfold remove at hStep
  obtain ⟨hFree, hStep⟩ := ite_none_right_eq_some.mp hStep
  unfold Channel.unsubscribe at hStep
  cases hMember : (σ.inc.channelAt arc).members.lookup socketId with
  | none =>
    simp only [hMember, false_eq_true, if_false, Option.some.injEq] at hStep
    subst hStep
    refine ⟨h.held.setProgress ⟨nofun, nofun, nofun⟩, h.told.setProgress ?_⟩
    intro a p₀ hp₀ hWill
    cases hOwn.symm.trans hp₀
    cases hWill
  | some member =>
    simp only [hMember, if_true, Option.some.injEq] at hStep
    subst hStep
    have hCurrent : σ.inc.current = some arc := by
      by_contra hNot
      exact not_mem_of_isEmpty (h.held.detached arc hNot) socketId
        (mem_iff_lookup.mpr ⟨member, hMember⟩)
    exact ⟨h.held.change hCurrent hFree .leave σ.entry,
      told_of_own site (lookup_setProgress_self ..) fun a ha =>
        decide_eq_true (Option.some.inj (hCurrent.symm.trans ha))⟩

theorem invariant_applied (counts : PeerChannelCounts) (op : Operation) :
    Invariant site ({ σ with counts := counts }.setProgress task (.applied op)) where
  held := (h.held.withRest counts σ.sent σ.entry).setProgress ⟨nofun, nofun, nofun⟩
  told := told_of_own site (lookup_setProgress_self ..) fun _ _ => rfl

theorem invariant_lookUp (hStep : lookUp σ task op = some τ) : Invariant site τ := by
  unfold lookUp at hStep
  obtain ⟨-, hStep⟩ := ite_none_right_eq_some.mp hStep
  cases hCurrent : σ.inc.current with
  | none =>
    simp only [hCurrent, Option.some.injEq] at hStep
    subst hStep
    exact ⟨h.held.finish task, fun arc hArc => nomatch hCurrent.symm.trans hArc⟩
  | some arc =>
    simp only [hCurrent, Option.some.injEq] at hStep
    subst hStep
    refine ⟨h.held.setProgress ⟨?_, nofun, nofun⟩, told_of_own site (lookup_setProgress_self ..) ?_⟩
    · rintro a ⟨⟩
      exact h.held.allocated arc hCurrent
    · exact fun a ha => decide_eq_true (Option.some.inj (hCurrent.symm.trans ha))

theorem invariant_find (hFresh : task ∉ σ.progress) (hStep : find σ task socketId = some τ) :
    Invariant site τ := by
  unfold find at hStep
  obtain ⟨-, hStep⟩ := ite_none_right_eq_some.mp hStep
  cases hCurrent : σ.inc.current with
  | none =>
    simp only [hCurrent, Option.some.injEq] at hStep
    exact hStep ▸ h
  | some arc =>
    simp only [hCurrent, Option.some.injEq] at hStep
    subst hStep
    refine ⟨h.held.setProgress ⟨?_, nofun, nofun⟩, h.told.setProgress ?_⟩
    · rintro a ⟨⟩
      exact h.held.allocated arc hCurrent
    · exact fun a p₀ hp₀ => absurd (mem_iff_lookup.mpr ⟨p₀, hp₀⟩) hFresh

theorem Invariant.setTotal (hKnown : arc < σ.inc.fresh)
    (hHolder : op.locks = true → σ.inc.holderAt arc = some task)
    (hLen : n = (σ.inc.channelAt arc).len)
    (hOwn : ∀ a p₀, σ.progress.lookup task = some p₀ → willTell site σ a p₀ = true → arc = a) :
    Invariant site (σ.setProgress task (.toSend op arc n (σ.stored site))) := by
  refine ⟨h.held.setProgress ⟨?_, ?_, nofun⟩, h.told.setProgress ?_⟩
  · rintro a ⟨⟩
    exact hKnown
  · intro a ha
    obtain ⟨hLocks, ⟨⟩⟩ := ite_none_right_eq_some.mp ha
    exact hHolder hLocks
  · intro a p₀ hp₀ hWill
    obtain rfl := hOwn a p₀ hp₀ hWill
    simp [willTell, hLen]

theorem invariant_readSum (hOwn : σ.progress.lookup task = some (.changed op arc n))
    (hFresh : σ.counts.allFresh now site.app.id site.channel = true) :
    Invariant site (σ.setProgress task
      (.toSend op arc n (σ.counts.sum now site.app.id site.channel))) := by
  rw [PeerChannelCounts.sum_of_allFresh hFresh]
  refine h.setTotal site (h.held.known task _ arc hOwn rfl)
    (fun _ => h.held.held task _ arc hOwn rfl) (h.held.counted task op arc n hOwn) ?_
  intro a p₀ hp₀ hWill
  cases hOwn.symm.trans hp₀
  exact of_decide_eq_true hWill

theorem invariant_readTotal (hOwn : σ.progress.lookup task = some (.toRead op arc))
    (hFresh : σ.counts.allFresh now site.app.id site.channel = true)
    (hStep : readTotal site σ task now op arc = some τ) : Invariant site τ := by
  have hKnown : arc < σ.inc.fresh := h.held.known task _ arc hOwn rfl
  have hTells (σ' : State) (a : Nat) (p₀ : Progress) (hp₀ : σ.progress.lookup task = some p₀)
      (hWill : willTell site σ' a p₀ = true) : arc = a := by
    cases hOwn.symm.trans hp₀
    exact of_decide_eq_true hWill
  unfold readTotal at hStep
  rw [PeerChannelCounts.sum_of_allFresh hFresh] at hStep
  cases hLocks : op.locks with
  | false =>
    simp only [hLocks, false_eq_true, if_false, Option.some.injEq] at hStep
    subst hStep
    exact h.setTotal site hKnown (fun hTrue => nomatch hLocks.symm.trans hTrue) rfl (hTells σ)
  | true =>
    simp only [hLocks, if_true] at hStep
    obtain ⟨hFree, ⟨⟩⟩ := ite_none_right_eq_some.mp hStep
    have hLocked : Invariant site
        { σ with inc := σ.inc.setObject arc ⟨σ.inc.channelAt arc, some task⟩ } :=
      ⟨h.held.setObject _ (h.held.unlocked hFree) (h.held.detached arc),
        h.told.setHolder arc (some task)⟩
    refine hLocked.setTotal site hKnown (fun _ => ?_) ?_ (hTells _)
    · exact (holderAt_setObject ..).trans (if_pos rfl)
    · dsimp only
      rw [channelAt_setObject, if_pos rfl]

theorem invariant_send (hOwn : σ.progress.lookup task = some (.toSend op arc n m))
    (hTimely : timelySend site σ task = true) :
    Invariant site (send site σ task op arc n m) := by
  have hDone {progress : Map String Progress}
      (hOthers : ∀ t, t ≠ task → progress.lookup t = σ.progress.lookup t)
      (hLeft : ∀ p, progress.lookup task = some p → p = .left) :
      Invariant site { σ with
        inc := if op.locks then σ.inc.setObject arc ⟨σ.inc.channelAt arc, none⟩ else σ.inc
        entry := if op = .join then none else σ.entry
        sent := σ.sent ++ broadcast site (σ.inc.channelAt arc) (n + m)
        progress := progress } := by
    have hTold := told_broadcast site h.held h.told hOwn hTimely hOthers
    have hHeld := h.held.withProgress hOthers fun p hp => by
      rw [hLeft p hp]
      exact ⟨nofun, nofun, nofun⟩
    by_cases hLocks : op.locks = true
    · rw [if_pos hLocks]
      refine ⟨(hHeld.setObject ⟨_, none⟩ ?_ (h.held.detached arc)).withRest ..,
        hTold.setHolder arc none⟩
      intro t p hp hArc
      by_cases ht : t = task
      · subst ht
        cases hLeft p hp
        cases hArc
      · have hOther := h.held.held t p arc ((hOthers t ht).symm.trans hp) hArc
        exact ht (Option.some.inj (hOther.symm.trans (h.held.held task _ arc hOwn (if_pos hLocks))))
    · rw [if_neg hLocks]
      exact ⟨hHeld.withRest .., hTold⟩
  unfold send
  dsimp only
  split
  · refine hDone (fun _ ht => lookup_insert_ne ht) fun p hp => ?_
    cases (lookup_insert _).symm.trans hp
    rfl
  · exact hDone (fun _ ht => lookup_erase_ne ht)
      fun p hp => nomatch (lookup_erase ..).symm.trans hp

theorem invariant_removeUnused (hOwn : σ.progress.lookup task = some .left) :
    Invariant site ({ σ with inc := σ.inc.removeUnused now }.finish task) := by
  have hTold : Told site { σ with inc := σ.inc.removeUnused now } := by
    intro arc hArc
    change (σ.inc.removeUnused now).current = some arc at hArc
    have hSame : σ.inc.removeUnused now = σ.inc := by
      unfold Incarnations.removeUnused at hArc ⊢
      cases hCurrent : σ.inc.current with
      | none => rfl
      | some i =>
        simp only [hCurrent] at hArc
        dsimp only
        split at hArc
        · cases hArc
        · rename_i hKept
          rw [if_neg hKept]
    rw [hSame] at hArc ⊢
    exact h.told arc hArc
  refine ⟨(h.held.removeUnused now).finish task, hTold.finish ?_⟩
  intro arc p₀ hp₀
  cases hOwn.symm.trans hp₀
  rfl

theorem invariant_step {label : Label} {τ : State} (hTimely : Timely site σ label)
    (hStep : step site σ label = some τ) : Invariant site τ := by
  cases label with
  | join task socketId =>
    exact invariant_join site h (ite_none_left_eq_some.mp hStep).2
  | find task socketId =>
    obtain ⟨hFresh, hFind⟩ := ite_none_left_eq_some.mp hStep
    exact invariant_find site h hFresh hFind
  | remove task =>
    simp only [step] at hStep
    split at hStep
    · exact invariant_remove site h ‹_› hStep
    · cases hStep
  | setCount task now nodeId count =>
    obtain ⟨-, ⟨⟩⟩ := ite_none_left_eq_some.mp hStep
    exact invariant_applied site h _ .count
  | applySnapshot task now nodeId reported =>
    obtain ⟨-, ⟨⟩⟩ := ite_none_left_eq_some.mp hStep
    exact invariant_applied site h _ .snapshot
  | lookUp task =>
    simp only [step] at hStep
    split at hStep
    · exact invariant_lookUp site h hStep
    · cases hStep
  | read task now =>
    simp only [step] at hStep
    split at hStep
    · cases hStep
      exact invariant_readSum site h ‹_› hTimely
    · exact invariant_readTotal site h ‹_› hTimely hStep
    · cases hStep
  | send task =>
    simp only [step] at hStep
    split at hStep <;> cases hStep
    exact invariant_send site h ‹_› hTimely
  | removeUnused task now =>
    simp only [step] at hStep
    split at hStep
    · obtain ⟨-, ⟨⟩⟩ := ite_none_right_eq_some.mp hStep
      exact invariant_removeUnused site h ‹_›
    · cases hStep

theorem Invariant.totalsExact : TotalsExact site σ := by
  intro hRest arc hArc
  rcases h.told arc hArc with hInformed | ⟨task, p, hp, -⟩
  · exact hInformed
  · exact nomatch (entries_eq_nil_iff.mp hRest task).symm.trans hp

end

/-- Where broadcasts are timely, once all operations have finished, the last count told to
every member of the channel is the number of its members here plus the counts stored for the
peers. -/
theorem last_total_exact (run : List Label)
    (hTimely : EachStep (step site) (Timely site) (new site) run) :
    Always (step site) (TotalsExact site) (new site) run := by
  have hInit : Invariant site (new site) :=
    ⟨⟨fun _ _ => rfl, nofun, nofun, nofun, nofun⟩, nofun⟩
  exact (always_of_step (fun _ _ _ h => invariant_step site h) hInit hTimely).mono
    fun _ => Invariant.totalsExact site

end

/-! ## A peer's count overtaken by a join -/

def room : CountedChannel where
  app := { exampleApp with emitSubscriptionCount := true }
  channel := "room"
  emits := rfl
  notPresence := by decide

/-- One member; then a peer's count is stored and the total read, and a second socket joins
and reads before the first total is sent. -/
def overlap : List Label :=
  [.join "a" "1.1", .read "a" 0, .send "a", .setCount "b" 1 "peer" 3, .lookUp "b", .read "b" 1,
    .join "c" "2.2", .read "c" 1]

theorem overlap_timely_exact :
    EachStep (step room) (Timely room) (new room) (overlap ++ [.send "b", .send "c"]) ∧
      Always (step room) (TotalsExact room) (new room) (overlap ++ [.send "b", .send "c"]) :=
  have hTimely : EachStep (step room) (Timely room) (new room)
      (overlap ++ [.send "b", .send "c"]) := by decide
  ⟨hTimely, last_total_exact room _ hTimely⟩

theorem overlap_late_wrong :
    ¬ Always (step room) (TotalsExact room) (new room) (overlap ++ [.send "c", .send "b"]) := by
  intro h
  have hRun : (exec (step room) (new room) (overlap ++ [.send "c", .send "b"])).map
      (fun σ => (decide (σ.progress.entries = []), σ.inc.current,
        (decide ("1.1" ∈ (σ.inc.channelAt 0).members), (σ.inc.channelAt 0).len,
          σ.stored room, σ.lastTotal room "1.1"))) =
      some (true, some 0, (true, 2, 3, some 4)) := by decide
  obtain ⟨σ, hExec, hEnd⟩ := Option.map_eq_some_iff.mp hRun
  simp only [Prod.mk.injEq, decide_eq_true_eq] at hEnd
  obtain ⟨hRest, hCurrent, hMember, hLen, hStored, hLast⟩ := hEnd
  have hExact := h.of_exec hExec hRest 0 hCurrent "1.1" hMember
  rw [hLast, hLen, hStored] at hExact
  exact absurd hExact (by decide)

end Totals

end Zatat
