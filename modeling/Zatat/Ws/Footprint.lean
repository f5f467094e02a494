import Zatat.Scaling.OtherPeers

/-! # What an operation may touch

A footprint bounds an operation: the items it hands to connections, the messages
it puts on the bus, the payloads it stores, the memberships it changes and the
applications whose connections and users it changes. Frames and messages of the
protocol itself, which carry no event, are within every footprint.
-/

namespace Zatat

open FiniteMap EventDispatcher List Option Channel

structure Footprint where
  sends : Sent → Prop
  publishes : String → ScalingPayload → Prop
  stores : String → String → EventPayload → Prop
  moves : String → String → String → Prop
  binds : String → Prop
  sends_protocol : ∀ x : Sent, x.item.isProtocol = true → sends x
  publishes_protocol : ∀ a payload, payload.isProtocol = true → publishes a payload

def Footprint.all : Footprint where
  sends _ := True
  publishes _ _ := True
  stores _ _ _ := True
  moves _ _ _ := True
  binds _ := True
  sends_protocol _ _ := trivial
  publishes_protocol _ _ _ := trivial

namespace Server

/-- Between the two states both logs grew by entries within the footprint. -/
structure Emits (f : Footprint) (srv srv' : Server) : Prop where
  config : srv'.config = srv.config
  sent : ∃ new, srv'.sent = srv.sent ++ new ∧ ∀ x ∈ new, f.sends x
  published : ∃ new, srv'.payloads = srv.payloads ++ new ∧ ∀ x ∈ new, f.publishes x.1 x.2

variable {f : Footprint}

namespace Emits

theorem of_same {srv srv' : Server} (hConfig : srv'.config = srv.config)
    (hSent : srv'.sent = srv.sent) (hPublished : srv'.payloads = srv.payloads) :
    Emits f srv srv' where
  config := hConfig
  sent := ⟨[], by rw [hSent, append_nil], fun _ h => absurd h not_mem_nil⟩
  published := ⟨[], by rw [hPublished, append_nil], fun _ h => absurd h not_mem_nil⟩

theorem refl (srv : Server) : Emits f srv srv := of_same rfl rfl rfl

theorem trans {srv srv' srv'' : Server} (h : Emits f srv srv') (h' : Emits f srv' srv'') :
    Emits f srv srv'' := by
  obtain ⟨sent, hSent, hSends⟩ := h.sent
  obtain ⟨sent', hSent', hSends'⟩ := h'.sent
  obtain ⟨pub, hPub, hPublishes⟩ := h.published
  obtain ⟨pub', hPub', hPublishes'⟩ := h'.published
  refine ⟨h'.config.trans h.config, ⟨sent ++ sent', ?_, ?_⟩, ⟨pub ++ pub', ?_, ?_⟩⟩
  · rw [hSent', hSent, append_assoc]
  · intro x hx
    exact (mem_append.mp hx).elim (hSends x) (hSends' x)
  · rw [hPub', hPub, append_assoc]
  · intro x hx
    exact (mem_append.mp hx).elim (hPublishes x) (hPublishes' x)

end Emits

variable (srv : Server) (now : Instant) (app : Application) (member : ExpiredMember)
  (appId origin channel : String) (sockets : List String) (ch : Channel) (found : Option Channel)
  {item : Outbound} {d : EventDispatcher} {payload : ScalingPayload}

/-! ## The primitive effects -/

theorem emits_sendAll (hItem : ∀ s, f.sends ⟨appId, s, item⟩) :
    Emits f srv (srv.sendAll appId sockets item) where
  config := rfl
  sent := by
    refine ⟨_, rfl, fun x hx => ?_⟩
    obtain ⟨s, -, rfl⟩ := mem_map.mp hx
    exact hItem s
  published := (Emits.refl srv).published

theorem emits_protocol (hItem : item.isProtocol = true) :
    Emits f srv (srv.sendAll appId sockets item) :=
  emits_sendAll srv appId sockets fun _ => f.sends_protocol _ hItem

theorem emits_dispatcher {srv : Server} (hPublished : d.published = srv.dispatcher.published) :
    Emits f srv { srv with dispatcher := d } :=
  .of_same rfl rfl (by rw [payloads, payloads, hPublished])

theorem emits_spawnPublish (hPublished : d.published = srv.dispatcher.published) (app : Application)
    (seq : Nat) (hPayload : f.publishes app.id payload) : Emits f srv
      { srv with dispatcher := d.spawnPublish (envelope app seq payload) } := by
  cases hScaling : d.scalingEnabled with
  | false =>
    refine emits_dispatcher ?_
    rw [spawnPublish, hScaling]
    exact hPublished
  | true =>
    obtain ⟨n, hn⟩ := published_spawnPublish d hScaling app seq payload
    refine ⟨rfl, (Emits.refl srv).sent, ⟨[(app.id, payload)], ?_, ?_⟩⟩
    · rw [payloads, payloads, hn, hPublished, map_append]
      rfl
    · intro x hx
      rw [mem_singleton.mp hx]
      exact hPayload

theorem emits_publish_protocol (seq : Nat) (hPayload : payload.isProtocol = true) :
    Emits f srv { srv with
      dispatcher := srv.dispatcher.spawnPublish (envelope app seq payload) } :=
  emits_spawnPublish srv rfl app seq (f.publishes_protocol _ _ hPayload)

theorem emits_enqueueWebhook (event : WebhookEvent) :
    Emits f srv (srv.enqueueWebhook appId event) :=
  .of_same rfl rfl rfl

theorem emits_withPresenceCache (cache : PresenceCache) :
    Emits f srv (srv.withPresenceCache cache) :=
  emits_dispatcher rfl

theorem emits_kept : Kept now app (Emits f) where
  refl := .refl
  trans := .trans
  send srv sockets _ hItem := emits_protocol srv app.id sockets hItem
  enqueue srv event := emits_enqueueWebhook srv app.id event
  publish srv seq _ hPayload := emits_publish_protocol srv app seq hPayload
  takeSeq _ := emits_dispatcher rfl
  note _ _ _ := emits_dispatcher rfl

theorem emits_keptBy : KeptBy now app origin (Emits f) where
  toKept := emits_kept now app
  claim _ _ _ := emits_dispatcher (congrArg Prod.fst (queue_claimWithheld ..))
  accept _ _ _ := emits_dispatcher (congrArg Prod.fst (queue_acceptSeq ..).1)
  addLive srv _ _ _ := emits_withPresenceCache srv _
  removeLive srv _ _ := emits_withPresenceCache srv _
  insertSnapshot srv _ _ := emits_withPresenceCache srv _
  touch srv _ := emits_withPresenceCache srv _
  setCount _ _ _ := emits_dispatcher rfl
  touchCount _ _ := emits_dispatcher rfl
  removeCount _ _ := emits_dispatcher rfl
  addSession _ _ := emits_dispatcher rfl
  removeSession _ _ := emits_dispatcher rfl
  touchSessions _ := emits_dispatcher rfl

/-! ## Periodic tasks -/

theorem emits_announceExpired : Emits f srv (srv.announceExpired now app member ch).2.2 := by
  rw [announceExpired]
  split
  · exact .refl srv
  · exact emits_protocol _ _ _ rfl

theorem emits_reportExpired (gone empty : Bool) :
    Emits f srv (srv.reportExpired now app member gone empty) := by
  unfold reportExpired
  split
  · dsimp only
    split
    · exact (emits_enqueueWebhook ..).trans (emits_enqueueWebhook ..)
    · exact emits_enqueueWebhook ..
  · exact .refl srv

end Server

/-! ## The channels of a node -/

namespace AppChannels

def storedPayload (slot : AppChannels) (c : String) : Option EventPayload :=
  (slot.findChannel c).bind fun ch => ch.cachedPayload.map CachedPayload.payload

def users (slot : AppChannels) :
    KeySet String × Map String (List String) × Map String (KeySet String) :=
  (slot.connections, slot.userIndex, slot.watchers)

/-- Between the two states nothing was stored, moved or bound beyond the footprint,
and new channels have the name they are stored under and the kind it stands for. -/
structure Keeps (f : Footprint) (a : String) (slot slot' : AppChannels) : Prop where
  stored : ∀ c p, slot'.storedPayload c = some p → slot.storedPayload c = some p ∨ f.stores a c p
  members : ∀ c s, f.moves a c s ∨ slot'.memberOf c s = slot.memberOf c s
  users : f.binds a ∨ slot'.users = slot.users
  labels : ∀ c ch', slot'.findChannel c = some ch' → ch'.label = (c, ChannelKind.fromName c) ∨
    ∃ ch, slot.findChannel c = some ch ∧ ch'.label = ch.label

variable {f : Footprint} {a : String}

namespace Keeps

theorem of_channels {slot slot' : AppChannels} (h : slot'.channels = slot.channels)
    (hUsers : f.binds a ∨ slot'.users = slot.users) : Keeps f a slot slot' where
  stored c p hp := by
    rw [storedPayload, findChannel, h] at hp
    exact .inl hp
  members c s := by
    refine .inr ?_
    rw [memberOf, findChannel, h]
    rfl
  users := hUsers
  labels c ch hFind := by
    rw [findChannel, h] at hFind
    exact .inr ⟨ch, hFind, rfl⟩

theorem refl (slot : AppChannels) : Keeps f a slot slot := of_channels rfl (.inr rfl)

theorem trans {slot slot' slot'' : AppChannels} (h : Keeps f a slot slot')
    (h' : Keeps f a slot' slot'') : Keeps f a slot slot'' where
  stored c p hp := (h'.stored c p hp).elim (h.stored c p) .inr
  members c s := by
    rcases h.members c s with hMoves | hSame
    · exact .inl hMoves
    · rcases h'.members c s with hMoves | hSame'
      · exact .inl hMoves
      · exact .inr (hSame'.trans hSame)
  users := by
    rcases h.users with hBinds | hSame
    · exact .inl hBinds
    · rcases h'.users with hBinds | hSame'
      · exact .inl hBinds
      · exact .inr (hSame'.trans hSame)
  labels c ch'' hFind := by
    rcases h'.labels c ch'' hFind with hLabel | ⟨ch', hFind', hLabel⟩
    · exact .inl hLabel
    · rcases h.labels c ch' hFind' with hLabel' | ⟨ch, hFind, hLabel'⟩
      · exact .inl (hLabel.trans hLabel')
      · exact .inr ⟨ch, hFind, hLabel.trans hLabel'⟩

end Keeps

variable (slot : AppChannels) (now : Instant) (app : Application) (name : String)

theorem storedPayload_entryOrNew :
    (slot.entryOrNew app name).cachedPayload.map CachedPayload.payload =
      slot.storedPayload name := by
  rw [entryOrNew, storedPayload, findChannel]
  cases slot.channels.lookup name <;> rfl

theorem keeps_setChannel {name : String} {ch : Channel}
    (hStored : ∀ p, ch.cachedPayload.map CachedPayload.payload = some p →
      slot.storedPayload name = some p ∨ f.stores a name p)
    (hMembers : ∀ s, f.moves a name s ∨ ch.members.lookup s = slot.memberOf name s)
    (hLabel : ch.label = (name, ChannelKind.fromName name) ∨
      ∃ old, slot.findChannel name = some old ∧ ch.label = old.label) :
    Keeps f a slot (slot.setChannel name ch) where
  stored c p hp := by
    rw [storedPayload, findChannel_setChannel] at hp
    split at hp
    · rename_i hc
      rw [hc]
      exact hStored p hp
    · exact .inl hp
  members c s := by
    rw [memberOf_setChannel]
    split
    · rename_i hc
      rw [hc]
      exact hMembers s
    · exact .inr rfl
  users := .inr rfl
  labels c ch' hFind := by
    rw [findChannel_setChannel] at hFind
    split at hFind
    · rename_i hc
      cases hFind
      rw [hc]
      exact hLabel
    · exact .inr ⟨ch', hFind, rfl⟩

theorem label_entryOrNew : (slot.entryOrNew app name).label = (name, ChannelKind.fromName name) ∨
      ∃ ch, slot.findChannel name = some ch ∧ (slot.entryOrNew app name).label = ch.label := by
  rw [entryOrNew, findChannel]
  cases slot.channels.lookup name with
  | none => exact .inl rfl
  | some ch => exact .inr ⟨ch, rfl, rfl⟩

theorem keeps_entryOrNew : Keeps f a slot (slot.setChannel name (slot.entryOrNew app name)) := by
  refine keeps_setChannel slot (fun p hp => .inl ?_) (fun s => .inr ?_) (label_entryOrNew ..)
  · rw [storedPayload_entryOrNew] at hp
    exact hp
  · exact lookup_entryOrNew ..

theorem findChannel_getOrCreateCacheChannel :
    (slot.getOrCreateCacheChannel app name).2.findChannel name =
      (slot.getOrCreateCacheChannel app name).1 := by
  rw [getOrCreateCacheChannel]
  split
  · rw [findChannel_setChannel, if_pos rfl]
  · rfl

theorem keeps_getOrCreateCacheChannel :
    Keeps f a slot (slot.getOrCreateCacheChannel app name).2 := by
  rw [getOrCreateCacheChannel]
  split
  · exact keeps_entryOrNew ..
  · exact .refl _

theorem keeps_setCachedPayload {slot : AppChannels} {name : String} {ch : Channel}
    (hFind : slot.findChannel name = some ch) (now : Instant) {payload : EventPayload}
    (hStores : f.stores a name payload) :
    Keeps f a slot (slot.setChannel name (ch.setCachedPayload now payload)) := by
  refine keeps_setChannel slot (fun p hp => ?_) (fun s => .inr ?_)
    (.inr ⟨ch, hFind, setCachedPayload_label ..⟩)
  · rw [setCachedPayload] at hp
    split at hp
    · cases hp
      exact .inr hStores
    · rw [storedPayload, hFind]
      exact .inl hp
  · rw [setCachedPayload_members]
    exact (memberOf_of_find hFind s).symm

theorem keeps_removeUnused : Keeps f a slot (slot.removeUnused now name) where
  stored c p hp := by
    rw [storedPayload, findChannel_removeUnused] at hp
    split at hp
    · rename_i hc
      obtain ⟨ch, hFind, hPayload⟩ := bind_eq_some_iff.mp hp
      rw [filter_eq_some_iff] at hFind
      rw [hc, storedPayload, hFind.1]
      exact .inl hPayload
    · exact .inl hp
  members c s := .inr (memberOf_removeUnused ..)
  users := by
    refine .inr ?_
    rw [removeUnused]
    split
    · split <;> rfl
    · rfl
  labels c ch' hFind := by
    rw [findChannel_removeUnused] at hFind
    split at hFind
    · rename_i hc
      rw [hc]
      exact .inr ⟨ch', (filter_eq_some_iff.mp hFind).1, rfl⟩
    · exact .inr ⟨ch', hFind, rfl⟩

theorem keeps_gcEmptyCacheChannels : Keeps f a slot (slot.gcEmptyCacheChannels now) := by
  have hFind (c : String) : (slot.gcEmptyCacheChannels now).findChannel c =
      (slot.findChannel c).filter fun ch => !(ch.kind.isCache && removable now ch) :=
    lookup_retain ..
  refine ⟨fun c p hp => .inl ?_, fun c s => .inr ?_, .inr rfl, fun c ch' hKept => ?_⟩
  · rw [storedPayload, hFind] at hp
    obtain ⟨ch, hKept, hPayload⟩ := bind_eq_some_iff.mp hp
    rw [filter_eq_some_iff] at hKept
    rw [storedPayload, hKept.1]
    exact hPayload
  · rw [memberOf, memberOf, hFind]
    cases slot.findChannel c with
    | none => rfl
    | some ch =>
      rw [filter_some]
      split
      · rfl
      · rename_i hGone
        rw [Bool.not_eq_true', Bool.not_eq_false, Bool.and_eq_true, removable,
          Bool.and_eq_true] at hGone
        exact (lookup_of_isEmpty hGone.2.1 s).symm
  · rw [hFind] at hKept
    exact .inr ⟨ch', (filter_eq_some_iff.mp hKept).1, rfl⟩

end AppChannels

namespace Node

def storedPayload (node : Node) (a c : String) : Option EventPayload :=
  (node.apps a).storedPayload c

structure Within (f : Footprint) (node after : Node) : Prop where
  server : Server.Emits f node.toServer after.toServer
  slots : ∀ a, AppChannels.Keeps f a (node.apps a) (after.apps a)

variable {f : Footprint}

namespace Within

variable {node after : Node}

theorem of_apps (hApps : after.apps = node.apps) (h : Server.Emits f node.toServer after.toServer) :
    Within f node after :=
  ⟨h, fun a => by rw [hApps]; exact .refl _⟩

theorem ite {c : Prop} [Decidable c] {after' : Node} (h : Within f node after)
    (h' : Within f node after') : Within f node (if c then after else after') := by
  split
  · exact h
  · exact h'

theorem of_server {srv : Server} (h : Server.Emits f node.toServer srv) :
    Within f node (node.setServer srv) :=
  of_apps rfl h

theorem refl (node : Node) : Within f node node := of_apps rfl (.refl _)

theorem trans {node' node'' : Node} (h : Within f node node') (h' : Within f node' node'') :
    Within f node node'' :=
  ⟨h.server.trans h'.server, fun a => (h.slots a).trans (h'.slots a)⟩

theorem foldl {τ ρ : Type} (view : τ → Node) {body : τ → ρ → τ}
    (hBody : ∀ t r, Within f (view t) (view (body t r))) (records : List ρ) (t : τ) :
    Within f (view t) (view (records.foldl body t)) :=
  records.foldlRecOn (motive := fun t' => Within f (view t) (view t')) body (refl _)
    fun t' h r _ => h.trans (hBody t' r)

theorem of_slot {a : String} {slot : AppChannels} (h : AppChannels.Keeps f a (node.apps a) slot) :
    Within f node (node.setApp a slot) where
  server := .refl _
  slots b := by
    rw [setApp]
    dsimp only
    rw [Function.update_apply]
    split
    · rename_i hb
      rw [hb]
      exact h
    · exact .refl _

theorem stored (h : Within f node after) {a c : String} {p : EventPayload}
    (hp : after.storedPayload a c = some p) : node.storedPayload a c = some p ∨ f.stores a c p :=
  (h.slots a).stored c p hp

theorem members (h : Within f node after) (a c s : String) :
    f.moves a c s ∨ after.memberOf a c s = node.memberOf a c s :=
  (h.slots a).members c s

end Within

/-! ## Names and kinds -/

def KindsByName (node : Node) : Prop :=
  ∀ a c ch, node.findChannel a c = some ch → ch.kind = ChannelKind.fromName c

def NamesByKey (node : Node) : Prop :=
  ∀ a c ch, node.findChannel a c = some ch → ch.name = c

variable {node after : Node}

theorem Within.kindsByName (h : Within f node after) (hKinds : node.KindsByName) :
    after.KindsByName := by
  intro a c ch hFind
  rcases (h.slots a).labels c ch hFind with hNew | ⟨old, hOld, hSame⟩
  · exact congrArg Prod.snd hNew
  · exact (congrArg Prod.snd hSame).trans (hKinds a c old hOld)

theorem Within.namesByKey (h : Within f node after) (hNames : node.NamesByKey) :
    after.NamesByKey := by
  intro a c ch hFind
  rcases (h.slots a).labels c ch hFind with hNew | ⟨old, hOld, hSame⟩
  · exact congrArg Prod.fst hNew
  · exact (congrArg Prod.fst hSame).trans (hNames a c old hOld)

end Node

end Zatat
