import Zatat.Ws.Operations

/-! # Live updates that look their channel up first

`apply_remote_member_added` and `apply_remote_member_removed` look the channel up
in the map and then, under the lock of the object they found, update the cache
and announce. Local joins and leaves can happen in between, so the object may be
made, removed from the map or replaced after the lookup. The objects of the name
are numbered by how often the channel was removed from the map before.
-/

namespace Zatat.Lookup

open FiniteMap Transition Option AppChannels

/-- An update between its two steps, with the object its lookup found. -/
structure Task where
  origin : String
  update : PresenceUpdate
  found : Option Nat

structure State where
  node : Node
  generation : Nat
  removed : Nat → Channel
  tasks : Map Nat Task

inductive Label where
  | join (now : Instant) (socketId : String) (pm : PresenceMember)
  | leave (now : Instant) (socketId : String)
  | lookUpAdded (task : Nat) (origin userId : String) (userInfo : Option Value)
  | lookUpRemoved (task : Nat) (origin userId : String) (webhookWithheld vacatedWithheld : Bool)
  | apply (task : Nat) (now : Instant)

def State.new (name nodeId : String) (scaling : Bool) (config : String → Option Application) :
    State :=
  ⟨Node.new nodeId scaling config, 0, fun _ => Channel.withCacheTtl name none, ∅⟩

section

variable (app : Application) (name : String)

def State.current (σ : State) : Option Nat :=
  if (σ.node.findChannel app.id name).isSome then some σ.generation else none

def State.object (σ : State) (arc : Nat) : Option Channel :=
  if arc = σ.generation then σ.node.findChannel app.id name else some (σ.removed arc)

def State.advance (σ : State) (node : Node) (last : Channel → Channel) : State :=
  match σ.node.findChannel app.id name, node.findChannel app.id name with
  | some ch, none => { σ with
      node := node
      generation := σ.generation + 1
      removed := Function.update σ.removed σ.generation (last ch) }
  | _, _ => { σ with node := node }

def State.lookUp (σ : State) (task : Nat) (origin : String) (update : PresenceUpdate) :
    Option State :=
  match σ.tasks.lookup task with
  | none => some { σ with tasks := σ.tasks.insert task ⟨origin, update, σ.current app name⟩ }
  | some _ => none

def step (σ : State) : Label → Option State
  | .join now s pm =>
    some (σ.advance app name (σ.node.handleSubscribe now app s name (some pm)) id)
  | .leave now s =>
    some (σ.advance app name (σ.node.leaveChannel now app s name) fun ch => (ch.unsubscribe s).2)
  | .lookUpAdded task origin u info => σ.lookUp app name task origin (.added u info)
  | .lookUpRemoved task origin u w w' => σ.lookUp app name task origin (.removed u w w')
  | .apply task now =>
    match σ.tasks.lookup task with
    | none => none
    | some t => some { σ with
        node := σ.node.setServer (σ.node.applyUpdate now app t.origin name
          (t.found.bind (σ.object app name)) t.update)
        tasks := σ.tasks.erase task }

/-- Whatever the update does to the roster, the user is present before and after, or
is absent before and after. -/
def Unchanging (node : Node) (origin : String) : PresenceUpdate → Prop
  | .added u _ => node.Present app.id name u
  | .removed u _ _ => node.HasUser app.id name u ∨
    (∃ n, n ≠ origin ∧ node.presenceCache.Lists app.id name n u) ∨
    ¬ node.presenceCache.Lists app.id name origin u
  | .roster _ => False

/-- An update is applied under the object the map holds, or reaches nobody, or
changes nobody's presence. -/
def AppliesToCurrent (σ : State) : Label → Prop
  | .apply task _ => ∀ t, σ.tasks.lookup task = some t →
    t.found = σ.current app name ∨ (∀ s, σ.node.memberOf app.id name s = none) ∨
      Unchanging app name σ.node t.origin t.update
  | _ => True

def ReadsFresh (σ : State) : Label → Prop
  | .join now _ _ => σ.node.FreshRosters now app.id name
  | .leave now _ => σ.node.FreshRosters now app.id name
  | .apply _ now => σ.node.FreshRosters now app.id name
  | _ => True

/-- Each subscriber of the channel sees the local users and the users of every
stored roster, and nobody else. -/
def ViewsExact (σ : State) : Prop :=
  ∀ s, (σ.node.memberOf app.id name s).isSome = true →
    ∀ u, u ∈ viewOf name (framesTo σ.node.sent app.id s) ↔
      σ.node.HasUser app.id name u ∨ ∃ n, σ.node.presenceCache.Lists app.id name n u

structure Inv (σ : State) : Prop where
  faithful : σ.node.Faithful fun _ _ _ => False
  removed : ∀ arc, arc < σ.generation → (σ.removed arc).isEmpty = true
  found : ∀ task t arc, σ.tasks.lookup task = some t → t.found = some arc →
    arc < σ.generation ∨ σ.current app name = some arc

variable {app name} {σ : State} {node : Node} {now : Instant} {s origin : String} {ch : Channel}
  {update : PresenceUpdate} {task : Nat} {t : Task}

theorem current_eq_some {arc : Nat} : σ.current app name = some arc ↔
      arc = σ.generation ∧ (σ.node.findChannel app.id name).isSome = true := by
  rw [State.current]
  split
  · rename_i hSome
    rw [Option.some.injEq, eq_comm, and_iff_left hSome]
  · rename_i hNone
    exact iff_of_false (by simp) fun hAll => hNone hAll.2

theorem object_of_current {found : Option Nat} (h : found = σ.current app name) :
    found.bind (σ.object app name) = σ.node.findChannel app.id name := by
  rw [h, State.current]
  split
  · rw [bind_some, State.object, if_pos rfl]
  · rename_i hNone
    rw [bind_none, not_isSome_iff_eq_none.mp hNone]

theorem inv_new (nodeId : String) (scaling : Bool) (config : String → Option Application) :
    Inv app name (State.new name nodeId scaling config) where
  faithful := Node.new_faithful nodeId scaling config _
  removed arc hLt := by cases hLt
  found task t arc hTask := by cases hTask

theorem Inv.advance (h : Inv app name σ) {last : Channel → Channel}
    (hFaithful : node.Faithful fun _ _ _ => False)
    (hEmpty : ∀ ch, σ.node.findChannel app.id name = some ch →
      node.findChannel app.id name = none → (last ch).isEmpty = true) :
    Inv app name (σ.advance app name node last) := by
  rw [State.advance]
  split
  · rename_i ch hBefore hAfter
    refine ⟨hFaithful, fun arc hLt => ?_, fun task t arc hTask hFound => ?_⟩
    · dsimp only at hLt ⊢
      rw [Function.update_apply]
      split
      · exact hEmpty ch hBefore hAfter
      · exact h.removed arc (by omega)
    · refine Or.inl ?_
      dsimp only
      rcases h.found task t arc hTask hFound with hLt | hCurrent
      · omega
      · have hArc := (current_eq_some.mp hCurrent).1
        omega
  · rename_i hKept
    refine ⟨hFaithful, h.removed, fun task t arc hTask hFound => ?_⟩
    refine (h.found task t arc hTask hFound).imp_right fun hCurrent => ?_
    obtain ⟨hArc, hSome⟩ := current_eq_some.mp hCurrent
    refine current_eq_some.mpr ⟨hArc, ?_⟩
    obtain ⟨ch, hFind⟩ := isSome_iff_exists.mp hSome
    cases hAfter : node.findChannel app.id name with
    | none => exact absurd hAfter (hKept ch hFind)
    | some ch' => rfl

theorem isEmpty_of_handleSubscribe {presence : Option PresenceMember}
    (hBefore : node.findChannel app.id name = some ch)
    (hAfter : (node.handleSubscribe now app s name presence).findChannel app.id name = none) :
    ch.isEmpty = true := by
  cases hAdmit : (node.admission now app name presence).admitted with
  | false =>
    have hLookup : (node.apps app.id).channels.lookup name = some ch := hBefore
    have hEntry : (node.apps app.id).entryOrNew app name = ch := by
      rw [entryOrNew, hLookup, getD_some]
    rw [Node.handleSubscribe_rejected _ _ _ _ _ _ hAdmit, hEntry] at hAfter
    exact isEmpty_of_removed ((node.findChannel_setApp ..).symm.trans hAfter)
  | true =>
    have hMember := node.memberOf_handleSubscribe now app s name presence app.id name s
    rw [if_pos ⟨⟨rfl, rfl, rfl⟩, hAdmit⟩, Node.memberOf, memberOf] at hMember
    have hNone : ((node.handleSubscribe now app s name presence).apps app.id).findChannel name =
        none := hAfter
    rw [hNone] at hMember
    cases hMember

theorem isEmpty_of_leaveChannel (hBefore : node.findChannel app.id name = some ch)
    (hAfter : (node.leaveChannel now app s name).findChannel app.id name = none) :
    (ch.unsubscribe s).2.isEmpty = true := by
  rw [Node.leaveChannel_some _ _ _ _ _ hBefore] at hAfter
  exact isEmpty_of_removed ((node.findChannel_setApp ..).symm.trans hAfter)

theorem present_of_unchanging (h : Unchanging app name node origin update) (now : Instant)
    (v : String) : (node.HasUser app.id name v ∨
      ∃ n, (update.cache now app.id origin name node.presenceCache).Lists app.id name n v) ↔
      node.Present app.id name v := by
  cases update with
  | added u info =>
    simp only [PresenceUpdate.cache, PresenceCache.lists_addLive, true_and]
    constructor
    · rintro (hUser | ⟨n, ⟨-, rfl⟩ | hLists⟩)
      · exact Or.inl hUser
      · exact h
      · exact Or.inr ⟨n, hLists⟩
    · rintro (hUser | ⟨n, hLists⟩)
      · exact Or.inl hUser
      · exact Or.inr ⟨n, Or.inr hLists⟩
  | removed u w w' =>
    simp only [PresenceUpdate.cache, PresenceCache.lists_removeLive, true_and]
    constructor
    · rintro (hUser | ⟨n, -, hLists⟩)
      · exact Or.inl hUser
      · exact Or.inr ⟨n, hLists⟩
    · rintro (hUser | ⟨n, hLists⟩)
      · exact Or.inl hUser
      · by_cases hThis : n = origin ∧ v = u
        · obtain ⟨rfl, rfl⟩ := hThis
          rcases h with hUser | ⟨n', hn', hOther⟩ | hNot
          · exact Or.inl hUser
          · exact Or.inr ⟨n', fun hAll => hn' hAll.1, hOther⟩
          · exact absurd hLists hNot
        · exact Or.inr ⟨n, hThis, hLists⟩
  | roster members => exact h.elim

theorem not_reaches_of_stale (h : Inv app name σ) (hTask : σ.tasks.lookup task = some t)
    (hStale : t.found ≠ σ.current app name) (s : String) :
    Server.reaches (t.found.bind (σ.object app name)) s = false := by
  cases hFound : t.found with
  | none => rfl
  | some arc =>
    rcases h.found task t arc hTask hFound with hLt | hCurrent
    · rw [bind_some, State.object, if_neg (by omega), Server.reaches,
        decide_eq_false_iff_not, ← AList.lookup_eq_none]
      exact Channel.lookup_of_isEmpty (h.removed arc hLt) s
    · exact absurd (hFound.trans hCurrent.symm) hStale

theorem Inv.apply (h : Inv app name σ) (hTask : σ.tasks.lookup task = some t)
    (hFresh : σ.node.FreshRosters now app.id name)
    (hCurrent : t.found = σ.current app name ∨ (∀ s, σ.node.memberOf app.id name s = none) ∨
      Unchanging app name σ.node t.origin t.update) :
    (σ.node.setServer (σ.node.applyUpdate now app t.origin name (t.found.bind (σ.object app name))
      t.update)).Faithful fun _ _ _ => False := by
  by_cases hSame : t.found = σ.current app name
  · rw [object_of_current hSame]
    refine h.faithful.applyUpdate rfl rfl now app t.origin name t.update ?_
    cases t.update with
    | added u info => trivial
    | removed u w w' =>
      rintro - ⟨n, hn, hLists⟩
      exact ⟨n, hn, hFresh.listsLive hLists⟩
    | roster members => trivial
  · refine ⟨h.faithful.wellFormed, fun a c s v hKind hMember => ?_⟩
    have hBefore := h.faithful.shows a c s v hKind hMember
    have hHeard := σ.node.heard_applyUpdate now app t.origin name (t.found.bind (σ.object app name))
      t.update a s c v
    rw [not_reaches_of_stale h hTask hSame s, if_neg (by simp), Hearing.hear_nil] at hHeard
    refine (congrArg (fun x : Hearing => Shows x.current _ _) hHeard).mpr (hBefore.congr ?_)
    have hCache : (σ.node.setServer (σ.node.applyUpdate now app t.origin name
        (t.found.bind (σ.object app name)) t.update)).presenceCache =
        t.update.cache now app.id t.origin name σ.node.presenceCache :=
      congrArg EventDispatcher.PeerKnowledge.presenceCache (Server.known_applyUpdate ..)
    rw [Node.Present, hCache]
    by_cases hHere : a = app.id ∧ c = name
    · obtain ⟨rfl, rfl⟩ := hHere
      rcases hCurrent with hEq | hNobody | hUnchanging
      · exact absurd hEq hSame
      · have hMember' : (σ.node.memberOf app.id c s).isSome = true := hMember
        rw [hNobody s] at hMember'
        cases hMember'
      · exact present_of_unchanging hUnchanging now v
    · refine or_congr_right (exists_congr fun n => ?_)
      exact t.update.lists_cache now app.id t.origin name σ.node.presenceCache
        (fun hAll => hHere ⟨hAll.1, hAll.2.1⟩) v

theorem Inv.lookUp {τ : State} (h : Inv app name σ)
    (hStep : σ.lookUp app name task origin update = some τ) : Inv app name τ := by
  rw [State.lookUp] at hStep
  split at hStep <;> cases hStep
  refine ⟨h.faithful, h.removed, fun task' t arc hTask hFound => ?_⟩
  dsimp only at hTask
  rcases lookup_insert_cases hTask with ⟨-, rfl⟩ | ⟨-, hTask⟩
  · exact Or.inr hFound
  · exact h.found task' t arc hTask hFound

theorem inv_step (hKind : (ChannelKind.fromName name).isPresence = true) (σ : State)
    (label : Label) (τ : State) (h : Inv app name σ)
    (hCond : ReadsFresh app name σ label ∧ AppliesToCurrent app name σ label)
    (hStep : step app name σ label = some τ) : Inv app name τ := by
  obtain ⟨hFresh, hCurrent⟩ := hCond
  cases label with
  | join now s pm =>
    cases hStep
    refine h.advance (h.faithful.handleSubscribe now app s name hKind.symm ?_)
      fun ch hBefore hAfter => isEmpty_of_handleSubscribe hBefore hAfter
    exact fun _ n u hLists => Or.inl ⟨n, Node.FreshRosters.listsLive hFresh hLists⟩
  | leave now s =>
    cases hStep
    refine h.advance (h.faithful.leaveChannel now app s name ?_)
      fun ch hBefore hAfter => isEmpty_of_leaveChannel hBefore hAfter
    exact fun u _ ⟨n, hLists⟩ => ⟨n, Node.FreshRosters.listsLive hFresh hLists⟩
  | lookUpAdded | lookUpRemoved => exact h.lookUp hStep
  | apply task now =>
    rw [step] at hStep
    cases hTask : σ.tasks.lookup task with
    | none =>
      rw [hTask] at hStep
      cases hStep
    | some t =>
      rw [hTask] at hStep
      cases hStep
      refine ⟨h.apply hTask hFresh (hCurrent t hTask), h.removed,
        fun task' t' arc hTask' hFound => ?_⟩
      exact h.found task' t' arc (lookup_erase_some hTask').2 hFound

end

/-- If each update is applied under the object the map holds, or reaches nobody, or
changes nobody's presence, the views are exact once no update is in progress. -/
theorem viewsExact_of_appliesToCurrent (app : Application) (name nodeId : String) (scaling : Bool)
    (config : String → Option Application)
    (hKind : (ChannelKind.fromName name).isPresence = true) (run : List Label)
    (hRun : EachStep (step app name)
      (fun σ label => ReadsFresh app name σ label ∧ AppliesToCurrent app name σ label)
      (State.new name nodeId scaling config) run) :
    Always (step app name) (fun σ => (∀ task, σ.tasks.lookup task = none) → ViewsExact app name σ)
      (State.new name nodeId scaling config) run := by
  refine (always_of_step (inv_step hKind) (inv_new nodeId scaling config) hRun).mono
    fun σ h _ s hMember u => ?_
  exact h.faithful.viewsExact (fun _ _ _ hFalse => hFalse) app.id name s hKind hMember u

instance (app : Application) (name : String) (σ : State) (label : Label) :
    Decidable (ReadsFresh app name σ label) := by
  unfold ReadsFresh
  split <;> infer_instance

def FindsCurrent (app : Application) (name : String) (σ : State) : Label → Prop
  | .apply task _ => ∀ t ∈ σ.tasks.lookup task, t.found = σ.current app name
  | _ => True

instance (app : Application) (name : String) (σ : State) (label : Label) :
    Decidable (FindsCurrent app name σ label) := by
  unfold FindsCurrent
  split <;> infer_instance

theorem FindsCurrent.appliesToCurrent {app : Application} {name : String} {σ : State}
    {label : Label} (h : FindsCurrent app name σ label) : AppliesToCurrent app name σ label := by
  cases label with
  | apply task now => exact fun t hTask => Or.inl (h t hTask)
  | _ => trivial

def timelyRun : List Label :=
  [.join 0 "1.1" ⟨"bob", none⟩, .lookUpAdded 0 "node-b" "alice" none,
    .join 0 "1.2" ⟨"carol", none⟩, .apply 0 0, .lookUpRemoved 1 "node-b" "alice" false false,
    .leave 0 "1.1", .apply 1 0]

theorem viewsExact_timelyRun : Always (step exampleApp "presence-room")
      (fun σ => (∀ task, σ.tasks.lookup task = none) → ViewsExact exampleApp "presence-room" σ)
      (State.new "presence-room" "node-a" true fun _ => some exampleApp) timelyRun :=
  viewsExact_of_appliesToCurrent exampleApp "presence-room" "node-a" true (fun _ => some exampleApp)
    (by decide) timelyRun
    (EachStep.mono (fun _ _ h => ⟨h.1, FindsCurrent.appliesToCurrent h.2⟩)
      (by decide : EachStep (step exampleApp "presence-room")
        (fun σ label => ReadsFresh exampleApp "presence-room" σ label ∧
          FindsCurrent exampleApp "presence-room" σ label)
        (State.new "presence-room" "node-a" true fun _ => some exampleApp) timelyRun))

/-- The lookup finds no channel; the first join makes one; then the update is
applied. -/
def firstJoinRun : List Label :=
  [.lookUpAdded 0 "node-b" "alice" none, .join 0 "1.1" ⟨"bob", none⟩, .apply 0 0]

theorem firstJoinRun_result : (exec (step exampleApp "presence-room")
      (State.new "presence-room" "node-a" true fun _ => some exampleApp) firstJoinRun).map (fun σ =>
        ((σ.node.memberOf "app" "presence-room" "1.1").isSome,
          viewOf "presence-room" (framesTo σ.node.sent "app" "1.1"),
          σ.node.presenceCache.announcedUserIds "app" "presence-room",
          σ.tasks.entries.isEmpty)) =
      some (true, {"bob"}, ["alice"], true) := by decide

theorem firstJoinRun_hides_user : ∃ σ, exec (step exampleApp "presence-room")
        (State.new "presence-room" "node-a" true fun _ => some exampleApp) firstJoinRun = some σ ∧
      EachStep (step exampleApp "presence-room") (ReadsFresh exampleApp "presence-room")
        (State.new "presence-room" "node-a" true fun _ => some exampleApp) firstJoinRun ∧
      (∀ task, σ.tasks.lookup task = none) ∧
      viewOf "presence-room" (framesTo σ.node.sent "app" "1.1") = {"bob"} ∧
      (∃ n, σ.node.presenceCache.Lists "app" "presence-room" n "alice") ∧
      ¬ ViewsExact exampleApp "presence-room" σ := by
  obtain ⟨σ, hRun, hResult⟩ := Option.map_eq_some_iff.mp firstJoinRun_result
  simp only [Prod.mk.injEq, List.isEmpty_iff] at hResult
  obtain ⟨hMember, hView, hListed, hTasks⟩ := hResult
  have hAlice : ∃ n, σ.node.presenceCache.Lists "app" "presence-room" n "alice" := by
    rw [← PresenceCache.mem_announcedUserIds, hListed]
    decide
  refine ⟨σ, hRun, by decide, entries_eq_nil_iff.mp hTasks, hView, hAlice, fun hExact => ?_⟩
  have hShown := (hExact "1.1" hMember "alice").mpr (Or.inr hAlice)
  have hHidden : "alice" ∉ ({"bob"} : Finset String) := by decide
  exact hHidden (hView ▸ hShown)

end Zatat.Lookup
