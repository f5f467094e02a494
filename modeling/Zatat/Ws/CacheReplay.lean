import Zatat.Channels.Refcount
import Zatat.Lib.Run
import Zatat.Ws.View

/-! # Publishing to and joining a cache channel

A publish hands the payload to the current members and then stores it; a join
inserts the member and then replays what is stored. Neither waits for the other:
publishing takes no transition lock. The channel stays in the map and its stored
payload does not expire.
-/

namespace Zatat.CacheReplay

open FiniteMap Transition Channel List

structure State where
  server : Server
  channel : Channel
  /-- The publishes between handing out their payload and storing it, in the order
  in which they handed it out, each with its publisher. -/
  publishing : List (Nat × EventPayload)
  /-- The sockets that are inserted and still have to read the stored payload. -/
  joining : KeySet String

inductive Label where
  | send (publisher : Nat) (event data : String)
  | store (publisher : Nat) (now : Instant)
  | insert (socketId : String) (presence : Option PresenceMember)
  | replay (socketId : String) (now : Instant)

def State.new (name nodeId : String) (scaling : Bool) (config : String → Option Application) :
    State :=
  ⟨Server.new nodeId scaling config, Channel.withCacheTtl name none, [], ∅⟩

def storedPayload (σ : State) : Option EventPayload :=
  σ.channel.cachedPayload.map CachedPayload.payload

def replayFrame (name : String) : Option EventPayload → Frame
  | some payload => .event payload
  | none => .cacheMiss name

def step (app : Application) (name : String) (σ : State) : Label → Option State
  | .send i event data =>
    if i ∈ σ.publishing.map Prod.fst then none
    else some { σ with
      server := σ.server.broadcastProtocol app.id σ.channel (.event ⟨event, data, name⟩) none
      publishing := σ.publishing ++ [(i, ⟨event, data, name⟩)] }
  | .store i now =>
    (σ.publishing.find? fun p => p.1 == i).map fun p => { σ with
      channel := σ.channel.setCachedPayload now p.2
      publishing := σ.publishing.eraseP fun p => p.1 == i }
  | .insert s presence =>
    if s ∈ σ.joining then none
    else some { σ with
      channel := (σ.channel.subscribe s presence).2
      joining := σ.joining.insert s () }
  | .replay s now =>
    if s ∈ σ.joining then some { σ with
      server := σ.server.sendAll app.id [s]
        (.text (replayFrame name (σ.channel.cachedPayloadAt now)))
      joining := σ.joining.erase s }
    else none

def payloadOf (channel : String) : Frame → Option EventPayload
  | .event payload => if payload.channel = channel then some payload else none
  | _ => none

def lastPayload (channel : String) (frames : List Frame) : Option EventPayload :=
  (frames.filterMap (payloadOf channel)).getLast?

/-- Every member last received what is stored. -/
def NothingHidden (app : Application) (name : String) (σ : State) : Prop :=
  ∀ s ∈ σ.channel.members,
    lastPayload name (framesTo σ.server.sent app.id s) = storedPayload σ

def Quiescent (σ : State) : Prop := σ.publishing = [] ∧ ∀ s, s ∉ σ.joining

/-- Payloads are stored in the order in which they were handed out, and what is
stored is read only when no payload still has to be stored. -/
def InTurn (σ : State) : Label → Prop
  | .store i _ => ∀ p ∈ σ.publishing.head?, p.1 = i
  | .replay _ _ => σ.publishing = []
  | _ => True

instance (σ : State) (label : Label) : Decidable (InTurn σ label) := by
  unfold InTurn
  split <;> infer_instance

/-! ## The invariant -/

def latest (σ : State) : Option EventPayload :=
  (σ.publishing.getLast?.map Prod.snd).or (storedPayload σ)

theorem lastPayload_append (channel : String) (frames : List Frame) (frame : Frame) :
    lastPayload channel (frames ++ [frame]) =
      (payloadOf channel frame).or (lastPayload channel frames) := by
  rw [lastPayload, filterMap_append]
  cases hFrame : payloadOf channel frame with
  | none => simp [hFrame, lastPayload]
  | some payload => simp [hFrame]

structure Inv (app : Application) (name : String) (σ : State) : Prop where
  kind : σ.channel.kind.isCache = true
  noTtl : σ.channel.cacheTtl = none
  channels : ∀ p ∈ σ.publishing, p.2.channel = name
  storedChannel : ∀ payload, storedPayload σ = some payload → payload.channel = name
  members : ∀ s ∈ σ.channel.members, s ∉ σ.joining →
    lastPayload name (framesTo σ.server.sent app.id s) = latest σ
  untouched : latest σ = none →
    ∀ s, lastPayload name (framesTo σ.server.sent app.id s) = none

variable {app : Application} {name : String} {σ : State}

theorem inv_new (hKind : (ChannelKind.fromName name).isCache = true) (nodeId : String)
    (scaling : Bool) (config : String → Option Application) :
    Inv app name (State.new name nodeId scaling config) where
  kind := hKind
  noTtl := rfl
  channels p hp := by cases hp
  storedChannel payload h := by cases h
  members s hs := by cases hs
  untouched _ _ := rfl

theorem Inv.send (h : Inv app name σ) (i : Nat) (event data : String) :
    Inv app name { σ with
      server := σ.server.broadcastProtocol app.id σ.channel (.event ⟨event, data, name⟩) none
      publishing := σ.publishing ++ [(i, ⟨event, data, name⟩)] } := by
  have hLatest : latest { σ with
      server := σ.server.broadcastProtocol app.id σ.channel (.event ⟨event, data, name⟩) none
      publishing := σ.publishing ++ [(i, ⟨event, data, name⟩)] } = some ⟨event, data, name⟩ := by
    simp [latest]
  refine ⟨h.kind, h.noTtl, ?_, h.storedChannel, ?_, ?_⟩
  · intro p hp
    rcases mem_append.mp hp with hp | hp
    · exact h.channels p hp
    · rw [mem_singleton.mp hp]
  · intro s hs _
    rw [hLatest]
    dsimp only at hs ⊢
    rw [framesTo_broadcastProtocol, if_pos ⟨rfl, hs, by simp⟩, lastPayload_append]
    simp [payloadOf]
  · intro hNone
    rw [hLatest] at hNone
    cases hNone

theorem storedPayload_setCachedPayload {ch : Channel} (hKind : ch.kind.isCache = true)
    (now : Instant) (payload : EventPayload) :
    (ch.setCachedPayload now payload).cachedPayload.map CachedPayload.payload = some payload := by
  rw [setCachedPayload, if_pos hKind]
  rfl

theorem Inv.store (h : Inv app name σ) {i : Nat} {payload : EventPayload}
    {rest : List (Nat × EventPayload)} (hFirst : σ.publishing = (i, payload) :: rest)
    (now : Instant) :
    Inv app name { σ with
      channel := σ.channel.setCachedPayload now payload
      publishing := rest } := by
  have hStored := storedPayload_setCachedPayload h.kind now payload
  have hLatest : latest { σ with
      channel := σ.channel.setCachedPayload now payload
      publishing := rest } = latest σ := by
    rw [latest, latest, storedPayload, hStored, hFirst]
    cases rest with
    | nil => rfl
    | cons p rest => simp [List.getLast?_cons]
  refine ⟨?_, ?_, ?_, ?_, ?_, ?_⟩
  · rw [setCachedPayload_kind]
    exact h.kind
  · dsimp only
    rw [setCachedPayload, if_pos h.kind]
    exact h.noTtl
  · intro p hp
    exact h.channels p (by rw [hFirst]; exact mem_cons_of_mem _ hp)
  · intro payload' hPayload
    rw [storedPayload, hStored] at hPayload
    cases hPayload
    exact h.channels (i, payload) (by rw [hFirst]; exact mem_cons_self)
  · intro s hs hJoined
    dsimp only at hs
    rw [setCachedPayload_members] at hs
    rw [hLatest]
    exact h.members s hs hJoined
  · intro hNone
    rw [hLatest] at hNone
    exact h.untouched hNone

theorem Inv.insert (h : Inv app name σ) (s : String) (presence : Option PresenceMember) :
    Inv app name { σ with
      channel := (σ.channel.subscribe s presence).2
      joining := σ.joining.insert s () } := by
  obtain ⟨hCached, hTtl⟩ := subscribe_cache σ.channel s presence
  have hLatest : latest { σ with
      channel := (σ.channel.subscribe s presence).2
      joining := σ.joining.insert s () } = latest σ := by
    rw [latest, latest, storedPayload, storedPayload, hCached]
  refine ⟨?_, hTtl.trans h.noTtl, h.channels, ?_, ?_, ?_⟩
  · rw [subscribe_kind]
    exact h.kind
  · rw [storedPayload, hCached]
    exact h.storedChannel
  · intro t ht hJoined
    dsimp only at ht hJoined
    rw [AList.mem_insert, not_or] at hJoined
    rw [hLatest]
    refine h.members t ?_ hJoined.2
    by_cases hMem : s ∈ σ.channel.members
    · rwa [subscribe_of_mem hMem] at ht
    · rw [subscribe_members hMem, AList.mem_insert] at ht
      exact ht.resolve_left hJoined.1
  · intro hNone
    rw [hLatest] at hNone
    exact h.untouched hNone

theorem Inv.replay (h : Inv app name σ) (hNone : σ.publishing = []) (s : String) (now : Instant) :
    Inv app name { σ with
      server := σ.server.sendAll app.id [s]
        (.text (replayFrame name (σ.channel.cachedPayloadAt now)))
      joining := σ.joining.erase s } := by
  have hLatest : latest σ = storedPayload σ := by
    rw [latest, hNone]
    rfl
  have hRead : σ.channel.cachedPayloadAt now = storedPayload σ := by
    rw [cachedPayloadAt, if_pos h.kind, storedPayload, h.noTtl]
    cases σ.channel.cachedPayload <;> rfl
  have hFrame (t : String) : lastPayload name (framesTo (σ.server.sendAll app.id [s]
        (.text (replayFrame name (σ.channel.cachedPayloadAt now)))).sent app.id t) =
      if t = s then (storedPayload σ).or (lastPayload name (framesTo σ.server.sent app.id t))
      else lastPayload name (framesTo σ.server.sent app.id t) := by
    rw [framesTo_reply, hRead]
    by_cases ht : t = s
    · rw [if_pos ⟨rfl, ht⟩, if_pos ht, lastPayload_append]
      cases hStored : storedPayload σ with
      | none => rfl
      | some payload => simp [replayFrame, payloadOf, h.storedChannel payload hStored]
    · rw [if_neg (fun hAll => ht hAll.2), if_neg ht, append_nil]
  refine ⟨h.kind, h.noTtl, h.channels, h.storedChannel, ?_, ?_⟩
  · intro t ht hJoined
    refine (hFrame t).trans ?_
    split
    · cases hStored : storedPayload σ with
      | none =>
        rw [Option.none_or, h.untouched (hLatest.trans hStored) t]
        exact (hLatest.trans hStored).symm
      | some payload => exact (hLatest.trans hStored).symm
    · rename_i hOther
      refine h.members t ht fun hIn => hJoined ?_
      exact AList.mem_erase.mpr ⟨hOther, hIn⟩
  · intro hNothing t
    have hStored : storedPayload σ = none := hLatest.symm.trans hNothing
    refine (hFrame t).trans ?_
    rw [hStored, Option.none_or, ite_self]
    exact h.untouched hNothing t

theorem inv_step (σ : State) (label : Label) (τ : State) (h : Inv app name σ)
    (hTurn : InTurn σ label) (hStep : step app name σ label = some τ) : Inv app name τ := by
  cases label with
  | send i event data =>
    rw [step] at hStep
    split at hStep <;> cases hStep
    exact h.send i event data
  | store i now =>
    rw [step] at hStep
    cases hPublishing : σ.publishing with
    | nil =>
      rw [hPublishing] at hStep
      cases hStep
    | cons p rest =>
      have hFirst : p.1 = i := hTurn p (by rw [hPublishing]; rfl)
      have hHead : (p.1 == i) = true := beq_iff_eq.mpr hFirst
      have hFind : (p :: rest).find? (fun p => p.1 == i) = some p := by
        rw [List.find?_cons, hHead]
      have hErase : (p :: rest).eraseP (fun p => p.1 == i) = rest := by
        rw [eraseP_cons, hHead]
        rfl
      rw [hPublishing, hFind, hErase] at hStep
      cases hStep
      exact h.store hPublishing now
  | insert s presence =>
    rw [step] at hStep
    split at hStep <;> cases hStep
    exact h.insert s presence
  | replay s now =>
    rw [step] at hStep
    split at hStep <;> cases hStep
    exact h.replay hTurn s now

/-- When payloads are stored and read in turn, every member last received what is
stored once all publishes and joins have finished. -/
theorem nothingHidden_of_inTurn (app : Application) (name nodeId : String) (scaling : Bool)
    (config : String → Option Application)
    (hKind : (ChannelKind.fromName name).isCache = true) (run : List Label)
    (hTurn : EachStep (step app name) InTurn (State.new name nodeId scaling config) run) :
    Always (step app name) (fun σ => Quiescent σ → NothingHidden app name σ)
      (State.new name nodeId scaling config) run := by
  refine (always_of_step inv_step (inv_new hKind nodeId scaling config) hTurn).mono
    fun σ h hQuiet s hs => ?_
  refine (h.members s hs (hQuiet.2 s)).trans ?_
  rw [latest, hQuiet.1]
  rfl

def turnsRun : List Label :=
  [.send 0 "e" "1", .insert "1.1" none, .store 0 0, .replay "1.1" 0, .insert "1.2" none,
    .send 1 "e" "2", .send 2 "e" "3", .store 1 0, .store 2 0, .replay "1.2" 0]

theorem nothingHidden_turnsRun :
    Always (step exampleApp "cache-news") (fun σ => Quiescent σ → NothingHidden exampleApp
      "cache-news" σ) (State.new "cache-news" "node-a" true fun _ => some exampleApp) turnsRun :=
  nothingHidden_of_inTurn exampleApp "cache-news" "node-a" true (fun _ => some exampleApp)
    (by decide) turnsRun (by decide)

/-- The payload is handed out before the member is inserted and stored after the
member has read. -/
def betweenRun : List Label :=
  [.send 0 "e" "1", .insert "1.1" none, .replay "1.1" 0, .store 0 0]

theorem betweenRun_result :
    (exec (step exampleApp "cache-news")
      (State.new "cache-news" "node-a" true fun _ => some exampleApp) betweenRun).map (fun σ =>
        (σ.publishing.isEmpty, σ.joining.entries.isEmpty,
        σ.channel.contains "1.1", storedPayload σ,
        lastPayload "cache-news" (framesTo σ.server.sent "app" "1.1"))) =
      some (true, true, true, some ⟨"e", "1", "cache-news"⟩, none) := by decide

/-- The member never receives the event that the channel keeps as its last one. -/
theorem betweenRun_hides_event : ∃ σ, exec (step exampleApp "cache-news")
        (State.new "cache-news" "node-a" true fun _ => some exampleApp) betweenRun = some σ ∧
      Quiescent σ ∧ "1.1" ∈ σ.channel.members ∧ storedPayload σ = some ⟨"e", "1", "cache-news"⟩ ∧
      lastPayload "cache-news" (framesTo σ.server.sent "app" "1.1") = none ∧
      ¬ NothingHidden exampleApp "cache-news" σ := by
  obtain ⟨σ, hRun, hResult⟩ := Option.map_eq_some_iff.mp betweenRun_result
  simp only [Prod.mk.injEq, List.isEmpty_iff] at hResult
  obtain ⟨hPublishing, hJoining, hMember, hStored, hLast⟩ := hResult
  have hMem : "1.1" ∈ σ.channel.members := of_decide_eq_true hMember
  refine ⟨σ, hRun, ⟨hPublishing, fun s => ?_⟩, hMem, hStored, hLast, fun hAll => ?_⟩
  · rw [← AList.lookup_eq_none]
    exact entries_eq_nil_iff.mp hJoining s
  · have hEq := hLast.symm.trans ((hAll "1.1" hMem).trans hStored)
    cases hEq

end Zatat.CacheReplay
