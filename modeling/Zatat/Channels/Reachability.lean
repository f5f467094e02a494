import Zatat.Channels.Incarnations
import Zatat.Channels.Membership
import Zatat.Lib.Run

/-! # Subscribers stay reachable while channels come and go

Sockets join and leave, publishers look up cache channels and store payloads,
and the collector removes unused cache channels, all on one node. A join holds
the map entry and is one step. A leave is three: find the object and clone its
reference, remove the member, and remove the channel from the map if it is
unused. A rejected join makes the same removal.
-/

namespace Zatat

open Function FiniteMap Channel Incarnations Option AList AppChannels

namespace Channel

theorem mem_subscribe {ch : Channel} {s t : String} {presence : Option PresenceMember} :
    t ∈ (ch.subscribe s presence).2.members ↔ t = s ∨ t ∈ ch.members := by
  rw [← lookup_isSome, lookup_subscribe]
  split
  · rename_i hEq
    exact iff_of_true rfl (.inl hEq)
  · rename_i hNe
    rw [lookup_isSome]
    exact (or_iff_right hNe).symm

theorem mem_unsubscribe {ch : Channel} {s t : String} :
    t ∈ (ch.unsubscribe s).2.members ↔ t ≠ s ∧ t ∈ ch.members := by
  rw [unsubscribe_members, mem_erase]

end Channel

namespace Reachability

open Transition

abbrev Key := String × String

inductive Progress where
  | idle
  | found (key : Key) (arc : Nat)
  | left (key : Key)
  | rejected (key : Key)

structure State where
  slots : Key → Incarnations
  progress : String → Progress
  /-- `subscribe_with` returned `Some` and no leave has started since. -/
  subscribed : Key → String → Bool
  publishers : String → Option (Key × Nat)
  collected : List Key

inductive Label where
  | subscribe (app : Application) (name socketId : String) (presence : Option PresenceMember)
      (admits : Bool)
  | find (key : Key) (socketId : String)
  | remove (socketId : String)
  | removeUnused (now : Instant) (socketId : String)
  | getOrCreateCacheChannel (app : Application) (name task : String)
  | setCachedPayload (now : Instant) (payload : EventPayload) (task : String)
  | collect (key : Key)
  | removeCollected (now : Instant) (key : Key)

namespace State

def new : State where
  slots key := Incarnations.new key.2
  progress _ := .idle
  subscribed _ _ := false
  publishers _ := none
  collected := []

def setSlot (σ : State) (key : Key) (inc : Incarnations) : State :=
  { σ with slots := update σ.slots key inc }

def setProgress (σ : State) (socketId : String) (p : Progress) : State :=
  { σ with progress := update σ.progress socketId p }

def setSubscribed (σ : State) (key : Key) (socketId : String) (value : Bool) : State :=
  { σ with
    subscribed := update σ.subscribed key
      (update (σ.subscribed key) socketId value) }

def findChannel (σ : State) (key : Key) : Option Channel :=
  (σ.slots key).current.map (σ.slots key).channelAt

def removeIf (σ : State) (now : Instant) (key : Key) : State :=
  σ.setSlot key ((σ.slots key).removeUnused now)

end State

def subscribe (σ : State) (app : Application) (name socketId : String)
    (presence : Option PresenceMember) (admits : Bool) : State :=
  let (arc, inc) := (σ.slots (app.id, name)).entryOrNew app name
  if admits then
    let ch := ((inc.channelAt arc).subscribe socketId presence).2
    (σ.setSlot (app.id, name) (inc.setObject arc ⟨ch, none⟩)).setSubscribed (app.id, name)
      socketId true
  else (σ.setSlot (app.id, name) inc).setProgress socketId (.rejected (app.id, name))

/-- The leave starts here; without a channel in the map it is over at once. -/
def find (σ : State) (key : Key) (socketId : String) : State :=
  let σ := σ.setSubscribed key socketId false
  match (σ.slots key).current with
  | some arc => σ.setProgress socketId (.found key arc)
  | none => σ

def remove (σ : State) (key : Key) (arc : Nat) (socketId : String) : State :=
  let ch := (((σ.slots key).channelAt arc).unsubscribe socketId).2
  (σ.setSlot key ((σ.slots key).setObject arc ⟨ch, none⟩)).setProgress socketId (.left key)

def getOrCreateCacheChannel (σ : State) (app : Application) (name task : String) : State :=
  let key := (app.id, name)
  if (ChannelKind.fromName name).isCache then
    let (arc, inc) := (σ.slots key).entryOrNew app name
    { σ.setSlot key inc with publishers := update σ.publishers task (some (key, arc)) }
  else
    { σ with
      publishers := update σ.publishers task
        ((σ.slots key).current.map fun arc => (key, arc)) }

def setCachedPayload (σ : State) (now : Instant) (payload : EventPayload) (task : String)
    (key : Key) (arc : Nat) : State :=
  let ch := ((σ.slots key).channelAt arc).setCachedPayload now payload
  { σ.setSlot key ((σ.slots key).setObject arc ⟨ch, none⟩) with
    publishers := update σ.publishers task none }

def step (σ : State) : Label → Option State
  | .subscribe app name socketId presence admits =>
    match σ.progress socketId with
    | .idle => some (subscribe σ app name socketId presence admits)
    | _ => none
  | .find key socketId =>
    match σ.progress socketId with
    | .idle => some (find σ key socketId)
    | _ => none
  | .remove socketId =>
    match σ.progress socketId with
    | .found key arc => some (remove σ key arc socketId)
    | _ => none
  | .removeUnused now socketId =>
    match σ.progress socketId with
    | .left key | .rejected key => some ((σ.removeIf now key).setProgress socketId .idle)
    | _ => none
  | .getOrCreateCacheChannel app name task =>
    match σ.publishers task with
    | none => some (getOrCreateCacheChannel σ app name task)
    | some _ => none
  | .setCachedPayload now payload task =>
    match σ.publishers task with
    | some (key, arc) => some (setCachedPayload σ now payload task key arc)
    | none => none
  | .collect key =>
    if (σ.findChannel key).any fun ch => ch.kind.isCache then
      some { σ with collected := key :: σ.collected }
    else none
  | .removeCollected now key =>
    if key ∈ σ.collected then
      some { σ.removeIf now key with collected := σ.collected.erase key }
    else none

def State.Quiescent (σ : State) : Prop :=
  (∀ s, σ.progress s = .idle) ∧ (∀ task, σ.publishers task = none) ∧ σ.collected = []

structure NeverStrands (σ : State) : Prop where
  reachable : ∀ key s, σ.subscribed key s = true →
    ∃ ch, σ.findChannel key = some ch ∧ s ∈ ch.members
  single : ∀ key s arc arc', s ∈ ((σ.slots key).channelAt arc).members →
    s ∈ ((σ.slots key).channelAt arc').members → arc = arc'
  swept : σ.Quiescent → ∀ key ch, σ.findChannel key = some ch → ch.kind.isCache = false →
    ∃ s, s ∈ ch.members

/-! ## One name -/

/-- The objects of one name: only the one in the map has members, a subscriber is one of
them, and an empty one that is not kept for its payload will be swept. -/
structure Sound (inc : Incarnations) (name : String) (subscribed : String → Bool)
    (sweeping : Prop) : Prop where
  kind : ∀ arc, (inc.channelAt arc).kind = ChannelKind.fromName name
  attached : ∀ arc s, s ∈ (inc.channelAt arc).members → inc.current = some arc
  member : ∀ s, subscribed s = true →
    ∃ arc, inc.current = some arc ∧ s ∈ (inc.channelAt arc).members
  sweep : ∀ arc, inc.current = some arc → (ChannelKind.fromName name).isCache = false →
    (inc.channelAt arc).isEmpty = true → sweeping

namespace Sound

variable {inc : Incarnations} {name : String} {subscribed : String → Bool} {sweeping : Prop}

theorem new (name : String) (sweeping : Prop) :
    Sound (Incarnations.new name) name (fun _ => false) sweeping where
  kind _ := rfl
  attached arc s hMem := absurd hMem (notMem_empty s)
  member s hSub := by cases hSub
  sweep arc hCurrent := by cases hCurrent

variable (h : Sound inc name subscribed sweeping)

include h

theorem mono {subscribed' : String → Bool} {sweeping' : Prop}
    (hSub : ∀ s, subscribed' s = true → subscribed s = true) (hSweep : sweeping → sweeping') :
    Sound inc name subscribed' sweeping' where
  kind := h.kind
  attached := h.attached
  member s hSub' := h.member s (hSub s hSub')
  sweep arc hCurrent hKind hEmpty := hSweep (h.sweep arc hCurrent hKind hEmpty)

theorem entryOrNew (app : Application) :
    Sound (inc.entryOrNew app name).2 name subscribed True := by
  rw [Incarnations.entryOrNew]
  cases hCurrent : inc.current with
  | some arc => exact h.mono (fun _ => id) fun _ => trivial
  | none =>
    have hNobody (arc : Nat) (s : String) : s ∉ (inc.channelAt arc).members := fun hMem => by
      have hAttached := h.attached arc s hMem
      rw [hCurrent] at hAttached
      cases hAttached
    have hChannel (arc : Nat) : (inc.setObject inc.fresh
        ⟨Channel.withCacheTtl name (cacheTtlOf app), none⟩).channelAt arc =
        if arc = inc.fresh then Channel.withCacheTtl name (cacheTtlOf app)
        else inc.channelAt arc := channelAt_setObject ..
    refine ⟨fun arc => ?_, fun arc s hMem => ?_, fun s hSub => ?_, fun _ _ _ _ => trivial⟩
    · refine (congrArg Channel.kind (hChannel arc)).trans ?_
      split
      · rfl
      · exact h.kind arc
    · change s ∈ ((inc.setObject _ _).channelAt arc).members at hMem
      rw [hChannel] at hMem
      split at hMem
      · exact absurd hMem (notMem_empty s)
      · exact absurd hMem (hNobody arc s)
    · obtain ⟨arc, hArc, -⟩ := h.member s hSub
      rw [hCurrent] at hArc
      cases hArc

theorem subscribe {arc : Nat} (hCurrent : inc.current = some arc) (s : String)
    (presence : Option PresenceMember) (sweeping' : Prop) :
    Sound (inc.setObject arc ⟨((inc.channelAt arc).subscribe s presence).2, none⟩) name
      (update subscribed s true) sweeping' := by
  refine ⟨fun i => ?_, fun i t hMem => ?_, fun t hSub => ⟨arc, hCurrent, ?_⟩,
    fun i hi _ hEmpty => ?_⟩
  · rw [channelAt_setObject]
    split
    · exact (subscribe_kind ..).trans (h.kind arc)
    · exact h.kind i
  · rw [channelAt_setObject] at hMem
    split at hMem
    · rename_i hi
      rw [hi]
      exact hCurrent
    · exact h.attached i t hMem
  · rw [channelAt_setObject, if_pos rfl]
    refine Channel.mem_subscribe.mpr ?_
    by_cases ht : t = s
    · exact .inl ht
    · rw [update_of_ne ht] at hSub
      obtain ⟨i, hi, hMem⟩ := h.member t hSub
      cases hCurrent.symm.trans hi
      exact .inr hMem
  · cases hCurrent.symm.trans hi
    rw [channelAt_setObject, if_pos rfl] at hEmpty
    have hJoined : s ∈ ((inc.channelAt arc).subscribe s presence).2.members :=
      Channel.mem_subscribe.mpr (.inl rfl)
    rw [isEmpty_eq_false_of_mem hJoined] at hEmpty
    cases hEmpty

theorem unsubscribe (arc : Nat) {s : String} (hNot : subscribed s = false) :
    Sound (inc.setObject arc ⟨((inc.channelAt arc).unsubscribe s).2, none⟩) name subscribed
      True := by
  have hMembers (i : Nat) (t : String) :
      t ∈ ((inc.setObject arc ⟨((inc.channelAt arc).unsubscribe s).2, none⟩).channelAt i).members ↔
        (i = arc → t ≠ s) ∧ t ∈ (inc.channelAt i).members := by
    rw [channelAt_setObject]
    split
    · rename_i hi
      rw [mem_unsubscribe, hi]
      exact ⟨fun hBoth => ⟨fun _ => hBoth.1, hBoth.2⟩, fun hBoth => ⟨hBoth.1 rfl, hBoth.2⟩⟩
    · rename_i hi
      exact (and_iff_right fun hEq => absurd hEq hi).symm
  refine ⟨fun i => ?_, fun i t hMem => ?_, fun t hSub => ?_, fun _ _ _ _ => trivial⟩
  · rw [channelAt_setObject]
    split
    · exact (unsubscribe_kind ..).trans (h.kind arc)
    · exact h.kind i
  · exact h.attached i t ((hMembers i t).mp hMem).2
  · obtain ⟨i, hi, hMem⟩ := h.member t hSub
    refine ⟨i, hi, (hMembers i t).mpr ⟨fun _ ht => ?_, hMem⟩⟩
    rw [ht, hNot] at hSub
    cases hSub

theorem removeUnused (now : Instant) (sweeping' : Prop) :
    Sound (inc.removeUnused now) name subscribed sweeping' := by
  rw [Incarnations.removeUnused]
  cases hCurrent : inc.current with
  | none =>
    refine ⟨h.kind, h.attached, h.member, fun arc hArc => ?_⟩
    rw [hCurrent] at hArc
    cases hArc
  | some arc =>
    dsimp only
    split
    · rename_i hRemovable
      rw [removable, Bool.and_eq_true] at hRemovable
      have hNobody (i : Nat) (s : String) : s ∉ (inc.channelAt i).members := fun hMem => by
        cases hCurrent.symm.trans (h.attached i s hMem)
        rw [isEmpty_eq_false_of_mem hMem] at hRemovable
        cases hRemovable.1
      refine ⟨h.kind, fun i s hMem => absurd hMem (hNobody i s), fun s hSub => ?_,
        fun i hi => by cases hi⟩
      obtain ⟨i, -, hMem⟩ := h.member s hSub
      exact absurd hMem (hNobody i s)
    · rename_i hKept
      refine ⟨h.kind, h.attached, h.member, fun i hi hKind hEmpty => ?_⟩
      cases hCurrent.symm.trans hi
      rw [removable, hEmpty, Channel.cachedPayloadAt, h.kind, hKind] at hKept
      exact absurd rfl hKept

theorem setCachedPayload (arc : Nat) (now : Instant) (payload : EventPayload) :
    Sound (inc.setObject arc ⟨(inc.channelAt arc).setCachedPayload now payload, none⟩) name
      subscribed sweeping := by
  have hMembers (i : Nat) : ((inc.setObject arc
      ⟨(inc.channelAt arc).setCachedPayload now payload, none⟩).channelAt i).members =
      (inc.channelAt i).members := by
    rw [channelAt_setObject]
    split
    · rename_i hi
      rw [hi]
      exact setCachedPayload_members ..
    · rfl
  refine ⟨fun i => ?_, fun i s hMem => ?_, fun s hSub => ?_, fun i hi hKind hEmpty => ?_⟩
  · rw [channelAt_setObject]
    split
    · exact (setCachedPayload_kind ..).trans (h.kind arc)
    · exact h.kind i
  · rw [hMembers] at hMem
    exact h.attached i s hMem
  · obtain ⟨i, hi, hMem⟩ := h.member s hSub
    exact ⟨i, hi, (hMembers i).symm ▸ hMem⟩
  · rw [Channel.isEmpty, hMembers] at hEmpty
    exact h.sweep i hi hKind hEmpty

end Sound

/-! ## All names -/

def Progress.sweeps : Progress → Option Key
  | .left key | .rejected key => some key
  | _ => none

def State.Sweeping (σ : State) (key : Key) : Prop := ∃ s, (σ.progress s).sweeps = some key

structure Invariant (σ : State) : Prop where
  sound : ∀ key, Sound (σ.slots key) key.2 (σ.subscribed key) (σ.Sweeping key)
  leaving : ∀ s key arc, σ.progress s = .found key arc → σ.subscribed key s = false

theorem invariant_new : Invariant State.new where
  sound key := Sound.new key.2 _
  leaving s key arc hFound := by cases hFound

namespace Invariant

variable {σ : State} {σ' : State} {s : String} {p : Progress} {k key : Key}

theorem neverStrands (h : Invariant σ) : NeverStrands σ := by
  refine ⟨fun key s hSub => ?_, fun key s arc arc' hMem hMem' => ?_,
    fun hQuiet key ch hFind hKind => ?_⟩
  · obtain ⟨arc, hCurrent, hMem⟩ := (h.sound key).member s hSub
    exact ⟨_, map_eq_some_iff.mpr ⟨arc, hCurrent, rfl⟩, hMem⟩
  · have hCurrent := (h.sound key).attached arc s hMem
    exact Option.some.inj (hCurrent.symm.trans ((h.sound key).attached arc' s hMem'))
  · obtain ⟨arc, hCurrent, rfl⟩ := map_eq_some_iff.mp hFind
    rw [(h.sound key).kind] at hKind
    cases hEmpty : ((σ.slots key).channelAt arc).isEmpty with
    | true =>
      obtain ⟨s, hSweeps⟩ := (h.sound key).sweep arc hCurrent hKind hEmpty
      rw [hQuiet.1 s] at hSweeps
      cases hSweeps
    | false =>
      obtain ⟨e, he⟩ := List.exists_mem_of_ne_nil _ (List.isEmpty_eq_false_iff.mp hEmpty)
      exact ⟨e.1, mem_iff_lookup.mpr ⟨e.2, mem_entries_iff.mp he⟩⟩

/-- What one operation has to show: its own name stays sound, and no task forgets to sweep
another. -/
theorem change (h : Invariant σ) (key : Key) (hSlots : ∀ k, k ≠ key → σ'.slots k = σ.slots k)
    (hSub : ∀ k, k ≠ key → σ'.subscribed k = σ.subscribed k)
    (hSweep : ∀ k, k ≠ key → σ.Sweeping k → σ'.Sweeping k)
    (hKey : Sound (σ'.slots key) key.2 (σ'.subscribed key) (σ'.Sweeping key))
    (hLeaving : ∀ s k arc, σ'.progress s = .found k arc → σ'.subscribed k s = false) :
    Invariant σ' := by
  refine ⟨fun k => ?_, hLeaving⟩
  by_cases hk : k = key
  · rw [hk]
    exact hKey
  · rw [hSlots k hk, hSub k hk]
    exact (h.sound k).mono (fun _ => id) (hSweep k hk)

theorem sweeping_setProgress (hBefore : (σ.progress s).sweeps ≠ some k) (hSweep : σ.Sweeping k) :
    (σ.setProgress s p).Sweeping k := by
  obtain ⟨t, ht⟩ := hSweep
  have hNe : t ≠ s := by
    rintro rfl
    exact hBefore ht
  exact ⟨t, (congrArg Progress.sweeps (update_of_ne hNe ..)).trans ht⟩

theorem sweeping_moved (hBefore : (σ.progress s).sweeps = none) (hSweep : σ.Sweeping k) :
    (σ.setProgress s p).Sweeping k := by
  refine sweeping_setProgress ?_ hSweep
  rw [hBefore]
  exact (some_ne_none k).symm

theorem sweeping_self (s : String) (h : p.sweeps = some key) : (σ.setProgress s p).Sweeping key :=
  ⟨s, (congrArg Progress.sweeps (update_self ..)).trans h⟩

variable (h : Invariant σ)

include h

theorem leaving_setProgress (hNot : ∀ k arc, p ≠ .found k arc) (t : String) (k : Key) (arc : Nat)
    (hFound : (σ.setProgress s p).progress t = .found k arc) : σ.subscribed k t = false := by
  by_cases ht : t = s
  · rw [ht] at hFound
    exact absurd ((update_self ..).symm.trans hFound) (hNot k arc)
  · exact h.leaving t k arc ((update_of_ne ht ..).symm.trans hFound)

theorem subscribe (hIdle : σ.progress s = .idle) (app : Application) (name : String)
    (presence : Option PresenceMember) (admits : Bool) :
    Invariant (subscribe σ app name s presence admits) := by
  have hEntry := (h.sound (app.id, name)).entryOrNew app
  have hCurrent := (σ.slots (app.id, name)).entryOrNew_current app name
  rw [Reachability.subscribe]
  cases admits with
  | true =>
    refine h.change (app.id, name) (fun k hk => update_of_ne hk ..)
      (fun k hk => update_of_ne hk ..) (fun _ _ => id) ?_ fun t k arc hFound => ?_
    · have hJoined := hEntry.subscribe hCurrent s presence (σ.Sweeping (app.id, name))
      change Sound (update σ.slots (app.id, name) _ (app.id, name)) name
        (update σ.subscribed (app.id, name) _ (app.id, name)) (σ.Sweeping (app.id, name))
      rw [update_self, update_self]
      exact hJoined
    · have hBefore := h.leaving t k arc hFound
      have hNe : t ≠ s := by
        rintro rfl
        cases hIdle.symm.trans hFound
      change update σ.subscribed (app.id, name) _ k t = false
      rw [update_apply]
      split
      · rename_i hk
        rw [update_of_ne hNe, ← hk]
        exact hBefore
      · exact hBefore
  | false =>
    refine h.change (app.id, name) (fun k hk => update_of_ne hk ..) (fun _ _ => rfl)
      (fun _ _ => sweeping_moved (congrArg Progress.sweeps hIdle)) ?_
      (h.leaving_setProgress fun _ _ hEq => by cases hEq)
    change Sound (update σ.slots (app.id, name) _ (app.id, name)) name _ _
    rw [update_self]
    exact hEntry.mono (fun _ => id) fun _ => sweeping_self s rfl

theorem find (hIdle : σ.progress s = .idle) (key : Key) : Invariant (find σ key s) := by
  have hForgets (t : String) (k : Key) :
      (σ.setSubscribed key s false).subscribed k t = true → σ.subscribed k t = true := by
    change update σ.subscribed key _ k t = true → _
    rw [update_apply]
    split
    · rename_i hk
      rw [update_apply, hk]
      split
      · exact fun hFalse => Bool.noConfusion hFalse
      · exact id
    · exact id
  have hForgot : Invariant (σ.setSubscribed key s false) := by
    refine ⟨fun k => (h.sound k).mono (fun t => hForgets t k) id, fun t k arc hFound => ?_⟩
    cases hSub : (σ.setSubscribed key s false).subscribed k t with
    | false => rfl
    | true => exact (h.leaving t k arc hFound).symm.trans (hForgets t k hSub) |>.symm
  rw [Reachability.find]
  split
  · have hMoves : ((σ.setSubscribed key s false).progress s).sweeps = none :=
      congrArg Progress.sweeps hIdle
    refine hForgot.change key (fun _ _ => rfl) (fun _ _ => rfl)
      (fun _ _ => sweeping_moved hMoves) ((hForgot.sound key).mono (fun _ => id)
        (sweeping_moved hMoves)) fun t k i hFound => ?_
    by_cases ht : t = s
    · rw [ht] at hFound ⊢
      cases (update_self ..).symm.trans hFound
      change update σ.subscribed key _ key s = false
      rw [update_self, update_self]
    · exact hForgot.leaving t k i ((update_of_ne ht ..).symm.trans hFound)
  · exact hForgot

theorem remove {arc : Nat} (hFound : σ.progress s = .found key arc) :
    Invariant (remove σ key arc s) := by
  rw [Reachability.remove]
  refine h.change key (fun k hk => update_of_ne hk ..) (fun _ _ => rfl)
    (fun _ _ => sweeping_moved (congrArg Progress.sweeps hFound)) ?_
    (h.leaving_setProgress fun _ _ hEq => by cases hEq)
  have hLeft := (h.sound key).unsubscribe arc (h.leaving s key arc hFound)
  change Sound (update σ.slots key _ key) key.2 _ _
  rw [update_self]
  exact hLeft.mono (fun _ => id) fun _ => sweeping_self s rfl

theorem removeIf (now : Instant) (key : Key) : Invariant (σ.removeIf now key) := by
  refine h.change key (fun k hk => update_of_ne hk ..) (fun _ _ => rfl) (fun _ _ => id) ?_ h.leaving
  change Sound (update σ.slots key _ key) key.2 _ _
  rw [update_self]
  exact (h.sound key).removeUnused now _

theorem removeUnused (now : Instant) (hSweeps : (σ.progress s).sweeps = some key) :
    Invariant ((σ.removeIf now key).setProgress s .idle) := by
  refine h.change key (fun k hk => update_of_ne hk ..) (fun _ _ => rfl)
    (fun k hk hSweep => sweeping_setProgress ?_ hSweep) ?_
    (h.leaving_setProgress fun _ _ hEq => by cases hEq)
  · intro hEq
    exact hk (Option.some.inj (hEq.symm.trans hSweeps))
  · change Sound (update σ.slots key _ key) key.2 _ _
    rw [update_self]
    exact (h.sound key).removeUnused now _

theorem getOrCreateCacheChannel (app : Application) (name task : String) :
    Invariant (getOrCreateCacheChannel σ app name task) := by
  rw [Reachability.getOrCreateCacheChannel]
  dsimp only
  split
  · rename_i hCache
    refine h.change (app.id, name) (fun k hk => update_of_ne hk ..) (fun _ _ => rfl)
      (fun _ _ => id) ?_ h.leaving
    have hEntry := (h.sound (app.id, name)).entryOrNew app
    change Sound (update σ.slots (app.id, name) _ (app.id, name)) name _ _
    rw [update_self]
    refine ⟨hEntry.kind, hEntry.attached, hEntry.member, fun arc _ hKind => ?_⟩
    rw [hCache] at hKind
    cases hKind
  · exact ⟨h.sound, h.leaving⟩

theorem setCachedPayload (now : Instant) (payload : EventPayload) (task : String) (key : Key)
    (arc : Nat) : Invariant (setCachedPayload σ now payload task key arc) := by
  refine h.change key (fun k hk => update_of_ne hk ..) (fun _ _ => rfl) (fun _ _ => id) ?_ h.leaving
  change Sound (update σ.slots key _ key) key.2 _ _
  rw [update_self]
  exact (h.sound key).setCachedPayload arc now payload

theorem step {label : Label} (hStep : step σ label = some σ') : Invariant σ' := by
  cases label with
  | subscribe app name s presence admits =>
    rw [Reachability.step] at hStep
    split at hStep <;> cases hStep
    rename_i hIdle
    exact h.subscribe hIdle app name presence admits
  | find key s =>
    rw [Reachability.step] at hStep
    split at hStep <;> cases hStep
    rename_i hIdle
    exact h.find hIdle key
  | remove s =>
    rw [Reachability.step] at hStep
    split at hStep <;> cases hStep
    rename_i hFound
    exact h.remove hFound
  | removeUnused now s =>
    rw [Reachability.step] at hStep
    split at hStep
    · rename_i hLeft
      cases hStep
      exact h.removeUnused now (congrArg Progress.sweeps hLeft)
    · rename_i hRejected
      cases hStep
      exact h.removeUnused now (congrArg Progress.sweeps hRejected)
    · cases hStep
  | getOrCreateCacheChannel app name task =>
    rw [Reachability.step] at hStep
    split at hStep <;> cases hStep
    exact h.getOrCreateCacheChannel app name task
  | setCachedPayload now payload task =>
    rw [Reachability.step] at hStep
    split at hStep <;> cases hStep
    exact h.setCachedPayload now payload task _ _
  | collect key =>
    obtain ⟨-, hEq⟩ := ite_none_right_eq_some.mp hStep
    cases hEq
    exact ⟨h.sound, h.leaving⟩
  | removeCollected now key =>
    obtain ⟨-, hEq⟩ := ite_none_right_eq_some.mp hStep
    cases hEq
    exact ⟨(h.removeIf now key).sound, (h.removeIf now key).leaving⟩

end Invariant

/-- In every interleaving, each subscriber is a member of the channel the map holds, no
socket is a member of two objects of one name, and no unused channel is left behind. -/
theorem churn_strands_nobody (run : List Label) : Always step NeverStrands State.new run := by
  have hInvariant : Always step Invariant State.new run :=
    always_of_invariant (fun _ _ _ h hStep => h.step hStep) invariant_new run
  exact hInvariant.mono fun _ h => h.neverStrands

end Reachability

end Zatat
