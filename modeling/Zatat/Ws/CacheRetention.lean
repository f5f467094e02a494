import Zatat.Ws.Footprint

/-! # A published event stays in the cache

A publication to a cache channel first takes the channel's object from the map,
making it if need be, and then broadcasts on that object, which stores the payload.
Between the two, other operations may remove the object from the map. The objects of
the name are numbered by how often the channel was removed from the map before.
-/

namespace Zatat.CacheRetention

open FiniteMap Transition AppChannels Channel ChannelKind Option

/-- A publication between its two steps, with the object it took. -/
structure Publication where
  arc : Nat
  payload : EventPayload

structure State where
  slot : AppChannels
  generation : Nat
  removed : Nat → Channel
  publishing : Map Nat Publication
  stored : List EventPayload

inductive Label where
  | take (publisher : Nat) (event data : String)
  | store (publisher : Nat) (now : Instant)
  | join (now : Instant) (name socketId : String) (presence : Option PresenceMember)
      (admits : Channel → Bool)
  | leave (now : Instant) (name socketId : String)
  /-- The `remove_if` that ends a leave or a rejected join. -/
  | removeIf (now : Instant) (name : String)
  | collect (now : Instant)

def start (c : String) (slot : AppChannels) : State :=
  ⟨slot, 0, fun _ => Channel.withCacheTtl c none, ∅, []⟩

section

variable (app : Application) (c : String)

def State.current (σ : State) : Option Nat :=
  if (σ.slot.findChannel c).isSome then some σ.generation else none

def State.advance (σ : State) (slot : AppChannels) (last : Channel → Channel) : State :=
  match σ.slot.findChannel c, slot.findChannel c with
  | some ch, none => { σ with
      slot := slot
      generation := σ.generation + 1
      removed := Function.update σ.removed σ.generation (last ch) }
  | _, _ => { σ with slot := slot }

/-- `Channel::broadcast` on the object the publication took. -/
def State.broadcast (σ : State) (now : Instant) (p : Publication) : State :=
  if σ.current c = some p.arc then
    match σ.slot.findChannel c with
    | some ch => { σ with slot := σ.slot.setChannel c (ch.setCachedPayload now p.payload) }
    | none => σ
  else { σ with
    removed := Function.update σ.removed p.arc ((σ.removed p.arc).setCachedPayload now p.payload) }

def step (σ : State) : Label → Option State
  | .take publisher event data =>
    match σ.publishing.lookup publisher with
    | some _ => none
    | none => some { σ with
        slot := (σ.slot.getOrCreateCacheChannel app c).2
        publishing := σ.publishing.insert publisher ⟨σ.generation, ⟨event, data, c⟩⟩ }
  | .store publisher now =>
    (σ.publishing.lookup publisher).map fun p => { σ.broadcast c now p with
      publishing := σ.publishing.erase publisher
      stored := σ.stored ++ [p.payload] }
  | .join now name s presence admits =>
    some (σ.advance c (σ.slot.subscribeWith now app name s presence admits).2 id)
  | .leave now name s =>
    some (σ.advance c (σ.slot.unsubscribeWith now name s).2 fun ch =>
      if name = c then (ch.unsubscribe s).2 else ch)
  | .removeIf now name => some (σ.advance c (σ.slot.removeUnused now name) id)
  | .collect now => some (σ.advance c (σ.slot.gcEmptyCacheChannels now) id)

def Label.now : Label → Option Instant
  | .take _ _ _ => none
  | .store _ _ => none
  | .join now _ _ _ _ => some now
  | .leave now _ _ => some now
  | .removeIf now _ => some now
  | .collect now => some now

/-- No stored payload has expired when a step looks at it. -/
def NotExpired (σ : State) (label : Label) : Prop :=
  ∀ now ∈ label.now, ∀ ch ∈ σ.slot.findChannel c, ∀ e ∈ ch.cachedPayload,
    e.live ch.cacheTtl now = true

/-- Every completed publication is found in the map, or one that was stored later. -/
def Retained (σ : State) : Prop :=
  ∀ (k : Nat) (p : EventPayload), σ.stored[k]? = some p → ∃ ch e, ∃ k' : Nat,
    σ.slot.findChannel c = some ch ∧
      ch.cachedPayload = some e ∧ k ≤ k' ∧ σ.stored[k']? = some e.payload

/-- The object that a publication stores into is the one in the map, or the map's
object holds the same event already. -/
def StoresInMap (σ : State) : Label → Prop
  | .store publisher _ => ∀ p ∈ σ.publishing.lookup publisher,
    σ.current c = some p.arc ∨ σ.slot.storedPayload c = some p.payload
  | _ => True

instance decidableNotExpired (σ : State) (label : Label) : Decidable (NotExpired c σ label) :=
  inferInstanceAs (Decidable (∀ now ∈ label.now, ∀ ch ∈ σ.slot.findChannel c,
    ∀ e ∈ ch.cachedPayload, e.live ch.cacheTtl now = true))

instance decidableStoresInMap (σ : State) : (label : Label) → Decidable (StoresInMap c σ label)
  | .store publisher _ => inferInstanceAs (Decidable (∀ p ∈ σ.publishing.lookup publisher,
      σ.current c = some p.arc ∨ σ.slot.storedPayload c = some p.payload))
  | .take _ _ _ => .isTrue trivial
  | .join _ _ _ _ _ => .isTrue trivial
  | .leave _ _ _ => .isTrue trivial
  | .removeIf _ _ => .isTrue trivial
  | .collect _ => .isTrue trivial

end

variable {app : Application} {c : String} {σ : State}

theorem broadcast_of_current {ch : Channel} (hFind : σ.slot.findChannel c = some ch)
    {p : Publication} (hArc : p.arc = σ.generation) (now : Instant) :
    (σ.broadcast c now p).slot = σ.slot.setChannel c (ch.setCachedPayload now p.payload) := by
  have hCurrent : σ.current c = some p.arc := by
    rw [State.current, hFind, hArc]
    rfl
  rw [State.broadcast, if_pos hCurrent, hFind]

/-- A publication whose two steps follow each other is `broadcast_locally_with_app`. -/
theorem take_store (hCache : (fromName c).isCache = true) (node : Node)
    (hSlot : σ.slot = node.apps app.id) {publisher : Nat}
    (hFree : σ.publishing.lookup publisher = none) (now : Instant) (event data : String)
    (except : Option String) :
    ∃ σ', exec (step app c) σ [.take publisher event data, .store publisher now] = some σ' ∧
      σ'.slot = (node.broadcastLocallyWithApp now app c event data except).apps app.id ∧
      σ'.stored = σ.stored ++ [⟨event, data, c⟩] := by
  have hOrdinary : ¬ startsWith c "#server-to-user-" = true := by
    intro hUser
    rw [fromName_user hUser] at hCache
    cases hCache
  have hTaken : (σ.slot.getOrCreateCacheChannel app c).2.findChannel c =
      some (σ.slot.entryOrNew app c) := by
    rw [findChannel_getOrCreateCacheChannel, AppChannels.getOrCreateCacheChannel, if_pos hCache]
  have hTake : step app c σ (.take publisher event data) = some { σ with
      slot := (σ.slot.getOrCreateCacheChannel app c).2
      publishing := σ.publishing.insert publisher ⟨σ.generation, ⟨event, data, c⟩⟩ } := by
    rw [step, hFree]
  refine ⟨_, by rw [exec, hTake, bind_some, exec, step, AList.lookup_insert]; rfl, ?_, rfl⟩
  refine (broadcast_of_current hTaken rfl now).trans ?_
  dsimp only
  rw [Node.broadcastLocallyWithApp, if_neg hOrdinary, AppChannels.getOrCreateCacheChannel,
    if_pos hCache, AppChannels.getOrCreateCacheChannel, if_pos hCache]
  dsimp only [Node.setServer, Node.setApp]
  rw [Function.update_self, hSlot]

theorem retained_iff_last :
    Retained c σ ↔ ∀ p, σ.stored.getLast? = some p → σ.slot.storedPayload c = some p := by
  constructor
  · intro h p hLast
    have hk : σ.stored[σ.stored.length - 1]? = some p := by
      rw [← List.getLast?_eq_getElem?]
      exact hLast
    obtain ⟨ch, e, k', hFind, hCached, hLe, hk'⟩ := h _ p hk
    have hSame : k' = σ.stored.length - 1 := by
      have hLt := (List.getElem?_eq_some_iff.mp hk').1
      omega
    rw [hSame, hk] at hk'
    rw [AppChannels.storedPayload, hFind, bind_some, hCached, hk']
    rfl
  · intro h k p hk
    have hLt := (List.getElem?_eq_some_iff.mp hk).1
    obtain ⟨q, hLast⟩ : ∃ q, σ.stored.getLast? = some q :=
      ⟨_, List.getLast?_eq_some_getLast (List.ne_nil_of_length_pos (Nat.zero_lt_of_lt hLt))⟩
    obtain ⟨ch, hFind, hMap⟩ := bind_eq_some_iff.mp (h q hLast)
    obtain ⟨e, hCached, rfl⟩ := map_eq_some_iff.mp hMap
    refine ⟨ch, e, σ.stored.length - 1, hFind, hCached, Nat.le_sub_one_of_lt hLt, ?_⟩
    rw [← List.getLast?_eq_getElem?]
    exact hLast

/-! ## What the operations on the map leave in place -/

def KindAt (c : String) (slot : AppChannels) : Prop :=
  ∀ ch, slot.findChannel c = some ch → ch.kind = ChannelKind.fromName c

def Holds (now : Instant) (c : String) (p : EventPayload) (slot : AppChannels) : Prop :=
  ∃ ch e, slot.findChannel c = some ch ∧ ch.kind.isCache = true ∧ ch.cachedPayload = some e ∧
    e.payload = p ∧ e.live ch.cacheTtl now = true

section

variable {slot : AppChannels} {now : Instant} {p : EventPayload} {ch ch' : Channel} {name : String}

theorem entryOrNew_of_find (h : slot.findChannel c = some ch) : slot.entryOrNew app c = ch := by
  rw [AppChannels.findChannel] at h
  rw [AppChannels.entryOrNew, h]
  rfl

theorem Holds.storedPayload (h : Holds now c p slot) : slot.storedPayload c = some p := by
  obtain ⟨ch, e, hFind, -, hCached, rfl, -⟩ := h
  rw [AppChannels.storedPayload, hFind, bind_some, hCached]
  rfl

theorem not_removable {e : CachedPayload} (hKind : ch.kind.isCache = true)
    (hCached : ch.cachedPayload = some e) (hLive : e.live ch.cacheTtl now = true) :
    AppChannels.removable now ch = false := by
  have hAt : ch.cachedPayloadAt now = some e.payload := by
    rw [cachedPayloadAt, if_pos hKind, hCached, filter_some, if_pos hLive]
    rfl
  rw [AppChannels.removable, hAt]
  exact Bool.and_false _

theorem Holds.setChannel (h : Holds now c p slot)
    (hSame : ∀ ch, c = name → slot.findChannel c = some ch → ch'.kind = ch.kind ∧
      ch'.cachedPayload = ch.cachedPayload ∧ ch'.cacheTtl = ch.cacheTtl) :
    Holds now c p (slot.setChannel name ch') := by
  obtain ⟨ch, e, hFind, hKind, hCached, hPayload, hLive⟩ := h
  by_cases hc : c = name
  · obtain ⟨hKind', hCached', hTtl⟩ := hSame ch hc hFind
    refine ⟨ch', e, ?_, by rw [hKind', hKind], by rw [hCached', hCached], hPayload,
      by rw [hTtl, hLive]⟩
    rw [findChannel_setChannel, if_pos hc]
  · refine ⟨ch, e, ?_, hKind, hCached, hPayload, hLive⟩
    rw [findChannel_setChannel, if_neg hc]
    exact hFind

theorem Holds.removeUnused (h : Holds now c p slot) (name : String) :
    Holds now c p (slot.removeUnused now name) := by
  obtain ⟨ch, e, hFind, hKind, hCached, hPayload, hLive⟩ := h
  refine ⟨ch, e, ?_, hKind, hCached, hPayload, hLive⟩
  rw [findChannel_removeUnused]
  split
  · rename_i hc
    rw [← hc, hFind, filter_some, not_removable hKind hCached hLive]
    rfl
  · exact hFind

theorem findChannel_gc (slot : AppChannels) (now : Instant) (c : String) :
    (slot.gcEmptyCacheChannels now).findChannel c =
      (slot.findChannel c).filter fun ch => !(ch.kind.isCache && AppChannels.removable now ch) :=
  lookup_retain ..

theorem Holds.gcEmptyCacheChannels (h : Holds now c p slot) :
    Holds now c p (slot.gcEmptyCacheChannels now) := by
  obtain ⟨ch, e, hFind, hKind, hCached, hPayload, hLive⟩ := h
  refine ⟨ch, e, ?_, hKind, hCached, hPayload, hLive⟩
  rw [findChannel_gc, hFind, filter_some, not_removable hKind hCached hLive, Bool.and_false]
  rfl

theorem Holds.entryOrNew (h : Holds now c p slot) (name : String) :
    Holds now c p (slot.setChannel name (slot.entryOrNew app name)) := by
  refine h.setChannel fun ch hc hFind => ?_
  rw [hc] at hFind
  rw [entryOrNew_of_find hFind]
  exact ⟨rfl, rfl, rfl⟩

theorem Holds.subscribeWith (h : Holds now c p slot) (name s : String)
    (presence : Option PresenceMember) (admits : Channel → Bool) :
    Holds now c p (slot.subscribeWith now app name s presence admits).2 := by
  rw [AppChannels.subscribeWith]
  dsimp only
  split
  · refine h.setChannel fun ch hc hFind => ?_
    rw [hc] at hFind
    rw [entryOrNew_of_find hFind]
    exact ⟨subscribe_kind .., subscribe_cache ..⟩
  · exact (h.entryOrNew name).removeUnused name

theorem Holds.unsubscribeWith (h : Holds now c p slot) (name s : String) :
    Holds now c p (slot.unsubscribeWith now name s).2 := by
  rw [AppChannels.unsubscribeWith]
  cases hLookup : slot.channels.lookup name with
  | none => exact h
  | some left =>
    refine (h.setChannel fun ch hc hFind => ?_).removeUnused name
    have hEq : left = ch := by
      rw [hc, AppChannels.findChannel, hLookup] at hFind
      exact Option.some.inj hFind
    rw [hEq]
    exact ⟨unsubscribe_kind .., unsubscribe_cache ..⟩

variable (h : KindAt c slot)

include h

theorem KindAt.setChannel (hKind : c = name → ch'.kind = fromName c) :
    KindAt c (slot.setChannel name ch') := by
  intro ch hFind
  rw [findChannel_setChannel] at hFind
  split at hFind
  · rename_i hc
    cases hFind
    exact hKind hc
  · exact h ch hFind

theorem KindAt.removeUnused (name : String) : KindAt c (slot.removeUnused now name) := by
  intro ch hFind
  rw [findChannel_removeUnused] at hFind
  split at hFind
  · rename_i hc
    rw [← hc] at hFind
    exact h ch (filter_eq_some_iff.mp hFind).1
  · exact h ch hFind

theorem KindAt.gcEmptyCacheChannels : KindAt c (slot.gcEmptyCacheChannels now) := by
  intro ch hFind
  rw [findChannel_gc] at hFind
  exact h ch (filter_eq_some_iff.mp hFind).1

theorem KindAt.kind_entryOrNew (app : Application) :
    (slot.entryOrNew app c).kind = fromName c := by
  rcases slot.label_entryOrNew app c with hNew | ⟨ch, hFind, hSame⟩
  · exact congrArg Prod.snd hNew
  · exact (congrArg Prod.snd hSame).trans (h ch hFind)

theorem KindAt.entryOrNew (app : Application) (name : String) :
    KindAt c (slot.setChannel name (slot.entryOrNew app name)) := by
  refine h.setChannel fun hc => ?_
  rw [← hc]
  exact h.kind_entryOrNew app

theorem KindAt.subscribeWith (name s : String) (presence : Option PresenceMember)
    (admits : Channel → Bool) : KindAt c (slot.subscribeWith now app name s presence admits).2 := by
  rw [AppChannels.subscribeWith]
  dsimp only
  split
  · refine h.setChannel fun hc => ?_
    rw [subscribe_kind, ← hc]
    exact h.kind_entryOrNew app
  · exact (h.entryOrNew app name).removeUnused name

theorem KindAt.unsubscribeWith (name s : String) :
    KindAt c (slot.unsubscribeWith now name s).2 := by
  rw [AppChannels.unsubscribeWith]
  cases hLookup : slot.channels.lookup name with
  | none => exact h
  | some left =>
    refine (h.setChannel fun hc => ?_).removeUnused name
    rw [unsubscribe_kind]
    exact h left (by rw [hc]; exact hLookup)

end

/-! ## The invariant -/

structure Inv (c : String) (σ : State) : Prop where
  kind : KindAt c σ.slot
  last : ∀ p, σ.stored.getLast? = some p → σ.slot.storedPayload c = some p

theorem advance_slot (σ : State) (slot : AppChannels) (last : Channel → Channel) :
    (σ.advance c slot last).slot = slot ∧ (σ.advance c slot last).stored = σ.stored := by
  rw [State.advance]
  split <;> exact ⟨rfl, rfl⟩

variable {σ σ' : State} {slot : AppChannels} {label : Label}

theorem Inv.advance (hCache : (fromName c).isCache = true) (h : Inv c σ) {now : Instant}
    (last : Channel → Channel)
    (hLive : ∀ ch ∈ σ.slot.findChannel c, ∀ e ∈ ch.cachedPayload, e.live ch.cacheTtl now = true)
    (hKind : KindAt c slot) (hHolds : ∀ p, Holds now c p σ.slot → Holds now c p slot) :
    Inv c (σ.advance c slot last) := by
  obtain ⟨hSlot, hStored⟩ := advance_slot (c := c) σ slot last
  refine ⟨by rw [hSlot]; exact hKind, fun p hLast => ?_⟩
  rw [hStored] at hLast
  rw [hSlot]
  obtain ⟨ch, hFind, hMap⟩ := bind_eq_some_iff.mp (h.last p hLast)
  obtain ⟨e, hCached, hPayload⟩ := map_eq_some_iff.mp hMap
  have hKindCh : ch.kind.isCache = true := by
    rw [h.kind ch hFind]
    exact hCache
  exact (hHolds p ⟨ch, e, hFind, hKindCh, hCached, hPayload,
    hLive ch hFind e hCached⟩).storedPayload

theorem broadcast_spec (hCache : (fromName c).isCache = true) (hKind : KindAt c σ.slot)
    (now : Instant) (p : Publication) :
    KindAt c (σ.broadcast c now p).slot ∧ (σ.broadcast c now p).slot.storedPayload c =
      if σ.current c = some p.arc then some p.payload else σ.slot.storedPayload c := by
  split
  · rename_i hCurrent
    rw [State.current] at hCurrent
    cases hFind : σ.slot.findChannel c with
    | none =>
      rw [hFind] at hCurrent
      cases hCurrent
    | some ch =>
      rw [hFind] at hCurrent
      have hKindCh := hKind ch hFind
      rw [broadcast_of_current hFind (Option.some.inj hCurrent).symm now]
      refine ⟨hKind.setChannel fun _ => (setCachedPayload_kind ..).trans hKindCh, ?_⟩
      rw [AppChannels.storedPayload, findChannel_setChannel, if_pos rfl,
        setCachedPayload, hKindCh, if_pos hCache]
      rfl
  · rename_i hDetached
    rw [State.broadcast, if_neg hDetached]
    exact ⟨hKind, rfl⟩

theorem storedPayload_take (slot : AppChannels) (app : Application) (c : String) :
    (slot.getOrCreateCacheChannel app c).2.storedPayload c = slot.storedPayload c := by
  rw [AppChannels.getOrCreateCacheChannel]
  split
  · rw [AppChannels.storedPayload, findChannel_setChannel, if_pos rfl, bind_some]
    exact storedPayload_entryOrNew ..
  · rfl

theorem KindAt.take (h : KindAt c slot) (app : Application) :
    KindAt c (slot.getOrCreateCacheChannel app c).2 := by
  rw [AppChannels.getOrCreateCacheChannel]
  split
  · exact h.entryOrNew app c
  · exact h

theorem inv_step (hCache : (fromName c).isCache = true) (h : Inv c σ)
    (hLive : NotExpired c σ label) (hMap : StoresInMap c σ label)
    (hStep : step app c σ label = some σ') : Inv c σ' := by
  cases label with
  | take publisher event data =>
    rw [step] at hStep
    split at hStep <;> cases hStep
    refine ⟨h.kind.take app, fun p hLast => ?_⟩
    dsimp only
    rw [storedPayload_take]
    exact h.last p hLast
  | store publisher now =>
    obtain ⟨p, hLookup, rfl⟩ := map_eq_some_iff.mp hStep
    obtain ⟨hKind, hStored⟩ := broadcast_spec hCache h.kind now p
    refine ⟨hKind, fun q hLast => ?_⟩
    dsimp only at hLast ⊢
    rw [List.getLast?_concat, some_inj] at hLast
    rw [hStored, ← hLast]
    split
    · rfl
    · rename_i hDetached
      exact (hMap p hLookup).resolve_left hDetached
  | join now name s presence admits =>
    cases hStep
    exact h.advance hCache id (hLive now rfl) (h.kind.subscribeWith name s presence admits)
      fun p hp => hp.subscribeWith name s presence admits
  | leave now name s =>
    cases hStep
    exact h.advance hCache _ (hLive now rfl) (h.kind.unsubscribeWith name s)
      fun p hp => hp.unsubscribeWith name s
  | removeIf now name =>
    cases hStep
    exact h.advance hCache id (hLive now rfl) (h.kind.removeUnused name)
      fun p hp => hp.removeUnused name
  | collect now =>
    cases hStep
    exact h.advance hCache id (hLive now rfl) h.kind.gcEmptyCacheChannels
      fun p hp => hp.gcEmptyCacheChannels

theorem not_retained_of_detached (hCache : (fromName c).isCache = true) (h : Inv c σ)
    (hMap : ¬ StoresInMap c σ label) (hStep : step app c σ label = some σ') : ¬ Retained c σ' := by
  cases label with
  | store publisher now =>
    obtain ⟨p, hLookup, rfl⟩ := map_eq_some_iff.mp hStep
    have hDetached : ¬ (σ.current c = some p.arc ∨ σ.slot.storedPayload c = some p.payload) := by
      intro hAttached
      refine hMap fun q hq => ?_
      rw [hLookup] at hq
      cases hq
      exact hAttached
    rw [not_or] at hDetached
    intro hRetained
    have hLast := retained_iff_last.mp hRetained p.payload (List.getLast?_concat ..)
    dsimp only at hLast
    rw [(broadcast_spec hCache h.kind now p).2, if_neg hDetached.1] at hLast
    exact hDetached.2 hLast
  | _ => exact absurd trivial hMap

/-- Without expiry, the runs in which every completed publication stays in the map are
those in which each stores into the object that is in the map. -/
theorem retained_iff_storesInMap (app : Application) {c : String}
    (hCache : (ChannelKind.fromName c).isCache = true) {slot : AppChannels}
    (hKind : KindAt c slot) {run : List Label}
    (hLive : EachStep (step app c) (NotExpired c) (start c slot) run) :
    Always (step app c) (Retained c) (start c slot) run ↔
      EachStep (step app c) (StoresInMap c) (start c slot) run :=
  always_iff_eachStep_within (fun _ h => retained_iff_last.mpr h.last)
    (fun _ _ _ h hLive hMap hStep => inv_step hCache h hLive hMap hStep)
    (fun _ _ _ h _ hMap hStep => not_retained_of_detached hCache h hMap hStep)
    ⟨hKind, fun p hLast => by cases hLast⟩ hLive

def collectedRun : List Label := [.take 0 "news" "a", .collect 0, .store 0 0]

theorem collectedRun_loses : ∃ σ, EachStep (step exampleApp "cache-room") (NotExpired "cache-room")
      (start "cache-room" AppChannels.empty) collectedRun ∧
    exec (step exampleApp "cache-room") (start "cache-room" AppChannels.empty) collectedRun =
      some σ ∧
    σ.stored = [⟨"news", "a", "cache-room"⟩] ∧ σ.slot.findChannel "cache-room" = none := by
  have hResult : (exec (step exampleApp "cache-room") (start "cache-room" AppChannels.empty)
      collectedRun).map (fun σ => (σ.stored, (σ.slot.findChannel "cache-room").isNone)) =
      some ([⟨"news", "a", "cache-room"⟩], true) := by decide
  obtain ⟨σ, hRun, hFacts⟩ := Option.map_eq_some_iff.mp hResult
  simp only [Prod.mk.injEq, Option.isNone_iff_eq_none] at hFacts
  exact ⟨σ, by decide, hRun, hFacts.1, hFacts.2⟩

def keptRun : List Label :=
  [.take 0 "news" "a", .store 0 0, .collect 1, .join 2 "cache-room" "1.1" none (fun _ => true),
    .leave 3 "cache-room" "1.1"]

theorem keptRun_retained : EachStep (step exampleApp "cache-room") (StoresInMap "cache-room")
      (start "cache-room" AppChannels.empty) keptRun ∧
    Always (step exampleApp "cache-room") (Retained "cache-room")
      (start "cache-room" AppChannels.empty) keptRun :=
  ⟨by decide, (retained_iff_storesInMap exampleApp (by decide) (fun _ h => by cases h)
    (by decide)).mpr (by decide)⟩

end Zatat.CacheRetention
