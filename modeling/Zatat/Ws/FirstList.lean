import Zatat.Ws.Watching

/-! # First lists and concurrent sign-ins

A sign-in runs under the lock of its user: it binds the socket, adds the user to the
watchers of its watchlist, reads who of it is online, sends the list, and, if the user
was offline, reads the user's own watchers and sends them the event. The last disconnect
of a user runs under the same lock. Users have different locks, so the state of a watched
user can change and be announced between the read and the list that tells it. A watcher
has the truth once all is done if that does not happen.
-/

namespace Zatat

open Function FiniteMap Transition AList AppChannels Option List

namespace FirstList

inductive Progress where
  | bound (userId : String) (watchlist : Option (List String)) (wasOnline : Bool)
  | watching (userId : String) (list : List String) (wasOnline : Bool)
  | listing (userId : String) (list online : List String) (wasOnline : Bool)
  /-- To read the watchers: the user came (`true`) or went. -/
  | announcing (userId : String) (came : Bool)
  | fanning (userId : String) (came : Bool) (watchers : List String)
  /-- A disconnect that is to drop the user's watches. -/
  | clearing (userId : String)
  /-- A disconnect that has released the lock. -/
  | closing

namespace Progress

def user : Progress → Option String
  | .bound userId _ _ => some userId
  | .watching userId _ _ => some userId
  | .listing userId _ _ _ => some userId
  | .announcing userId _ => some userId
  | .fanning userId _ _ => some userId
  | .clearing userId => some userId
  | .closing => none

def announces : Progress → Option (String × Bool)
  | .bound userId _ wasOnline => if wasOnline then none else some (userId, true)
  | .watching userId _ wasOnline => if wasOnline then none else some (userId, true)
  | .listing userId _ _ wasOnline => if wasOnline then none else some (userId, true)
  | .announcing userId came => some (userId, came)
  | .fanning userId came _ => some (userId, came)
  | .clearing _ => none
  | .closing => none

def reaches (watcher : String) : Progress → Prop
  | .fanning _ _ watchers => watcher ∈ watchers
  | _ => True

def attending : Progress → Option Watcher
  | .bound userId _ _ => some ⟨some userId, [], 0⟩
  | .watching userId list _ => some ⟨some userId, list, 0⟩
  | .listing userId list _ _ => some ⟨some userId, list, 0⟩
  | _ => none

def leaving : Progress → Prop
  | .announcing _ came => came = false
  | .fanning _ came _ => came = false
  | .clearing _ => True
  | .closing => True
  | _ => False

theorem user_of_announces {p : Progress} {x : String} {b : Bool}
    (h : p.announces = some (x, b)) : p.user = some x := by
  cases p with
  | bound _ _ wasOnline | watching _ _ wasOnline | listing _ _ _ wasOnline =>
    cases wasOnline <;> cases h
    rfl
  | announcing | fanning =>
    cases h
    rfl
  | clearing | closing => cases h

end Progress

structure State where
  node : Node
  /-- The open connections: what each is signed in as, and the list it was sent. -/
  watchers : Map String Watcher
  progress : Map String Progress

inductive Label where
  | connect (socketId : String)
  | signIn (socketId userId : String) (watchlist : Option (List String))
  | watch (socketId : String)
  | readOnline (socketId : String)
  | sendList (socketId : String)
  | readWatchers (socketId : String)
  | sendEvent (socketId : String)
  | disconnect (socketId : String)
  | clear (socketId : String)
  | unregister (socketId : String)

namespace State

def setProgress (σ : State) (socketId : String) (p : Progress) : State :=
  { σ with progress := σ.progress.insert socketId p }

def finish (σ : State) (socketId : String) : State :=
  { σ with progress := σ.progress.erase socketId }

def locked (σ : State) (userId : String) : Bool :=
  σ.progress.entries.any fun e => e.2.user = some userId

end State

section

variable (app : Application) (remote : String → Bool)

def start (nodeId : String) (scaling : Bool) (config : String → Option Application) : State :=
  ⟨Node.new nodeId scaling config, ∅, ∅⟩

def State.slot (σ : State) : AppChannels := σ.node.apps app.id

def State.setSlot (σ : State) (slot : AppChannels) : State :=
  { σ with node := σ.node.setApp app.id slot }

/-- `is_user_online` here, or the peers list the user, which no step here changes. -/
def State.online (σ : State) (userId : String) : Bool :=
  (σ.slot app).isUserOnline userId || remote userId

def connect (σ : State) (socketId : String) : State :=
  let (accepted, slot) := (σ.slot app).registerConnection app socketId
  { σ.setSlot app slot with
    watchers := if accepted then σ.watchers.insert socketId ⟨none, [], σ.node.sent.length⟩
      else σ.watchers }

/-- The lock is taken, and the user's state read before the socket is bound. -/
def bind (σ : State) (socketId userId : String) (watchlist : Option (List String)) : State :=
  let bound := σ.setSlot app ((σ.slot app).bindUser userId socketId).2
  { bound with
    watchers := σ.watchers.insert socketId ⟨some userId, [], σ.node.sent.length⟩
    progress := σ.progress.insert socketId (.bound userId watchlist (σ.online app remote userId)) }

/-- After the list: the event if the user was offline before. -/
def proceed (σ : State) (socketId userId : String) (wasOnline : Bool) : State :=
  if wasOnline then σ.finish socketId else σ.setProgress socketId (.announcing userId true)

def watch (σ : State) (socketId userId : String) (watchlist : Option (List String))
    (wasOnline : Bool) : State :=
  match watchlist with
  | none => proceed σ socketId userId wasOnline
  | some list => (σ.setSlot app ((σ.slot app).addWatchers list userId)).setProgress socketId
      (.watching userId list wasOnline)

/-- The list is enqueued; the connection counts as told from here on. -/
def deliverList (σ : State) (socketId userId : String) (list online : List String) : State :=
  { σ with
    node := σ.node.setServer (σ.node.sendAll app.id [socketId]
      (.text (.watchlistEvents "online" online)))
    watchers := σ.watchers.insert socketId ⟨some userId, list, σ.node.sent.length⟩ }

def eventName (came : Bool) : String := if came then "online" else "offline"

def deliverEvent (σ : State) (userId : String) (came : Bool) (watchers : List String) : State :=
  { σ with
    node := σ.node.setServer (σ.node.sendAll app.id
      (watchers.flatMap (σ.slot app).connectionsForUser)
      (.text (.watchlistEvents (eventName came) [userId]))) }

def afterUnbind (lastSocket : Bool) (userId : String) : Progress :=
  if lastSocket then if remote userId then .clearing userId else .announcing userId false
  else .closing

/-- `cleanup_connection` up to the unbinding. -/
def unbind (σ : State) (socketId userId : String) : State :=
  let unbound := (σ.slot app).unbindUser userId socketId
  { (σ.setSlot app unbound.2).setProgress socketId (afterUnbind remote unbound.1 userId) with
    watchers := σ.watchers.erase socketId }

def step (σ : State) : Label → Option State
  | .connect socketId =>
    if socketId ∈ σ.watchers ∨ socketId ∈ σ.progress then none else some (connect app σ socketId)
  | .signIn socketId userId watchlist =>
    if socketId ∈ σ.progress ∨ σ.locked userId = true then none
    else (σ.watchers.lookup socketId).bind fun w =>
      if w.userId = none then some (bind app remote σ socketId userId watchlist) else none
  | .watch socketId =>
    match σ.progress.lookup socketId with
    | some (.bound userId watchlist wasOnline) =>
      some (watch app σ socketId userId watchlist wasOnline)
    | _ => none
  | .readOnline socketId =>
    match σ.progress.lookup socketId with
    | some (.watching userId list wasOnline) => some (σ.setProgress socketId
        (.listing userId list (list.filter fun u => σ.online app remote u) wasOnline))
    | _ => none
  | .sendList socketId =>
    match σ.progress.lookup socketId with
    | some (.listing userId list online wasOnline) =>
      some (proceed (deliverList app σ socketId userId list online) socketId userId wasOnline)
    | _ => none
  | .readWatchers socketId =>
    match σ.progress.lookup socketId with
    | some (.announcing userId came) => some (σ.setProgress socketId
        (.fanning userId came ((σ.slot app).watchersOf userId)))
    | _ => none
  | .sendEvent socketId =>
    match σ.progress.lookup socketId with
    | some (.fanning userId came watchers) =>
      let told := deliverEvent app σ userId came watchers
      some (if came then told.finish socketId else told.setProgress socketId (.clearing userId))
    | _ => none
  | .disconnect socketId =>
    if socketId ∈ σ.progress then none
    else (σ.watchers.lookup socketId).bind fun w =>
      match w.userId with
      | none => some { σ.setProgress socketId .closing with
          watchers := σ.watchers.erase socketId }
      | some userId =>
        if σ.locked userId then none else some (unbind app remote σ socketId userId)
  | .clear socketId =>
    match σ.progress.lookup socketId with
    | some (.clearing userId) =>
      some ((σ.setSlot app ((σ.slot app).removeAllWatchesFor userId)).setProgress socketId .closing)
    | _ => none
  | .unregister socketId =>
    match σ.progress.lookup socketId with
    | some .closing =>
      some ((σ.setSlot app ((σ.slot app).unregisterConnection socketId)).finish socketId)
    | _ => none

/-! ## Property and condition -/

/-- Once all have finished, what a connection was last told of each user on its list,
where the list tells of all of them, is so. -/
def Truthful (σ : State) : Prop :=
  σ.progress.entries = [] → ∀ s w, σ.watchers.lookup s = some w → ∀ x ∈ w.watchlist,
    σ.node.toldSince app.id s w.since x = σ.online app remote x

/-- Each user on the list is in the state that was read, or the operation that changed
it has yet to send its event. -/
def listTimely (σ : State) (socketId : String) : Bool :=
  match σ.progress.lookup socketId with
  | some (.listing _ list online _) => list.all fun x =>
      decide (x ∈ online) == σ.online app remote x ||
        σ.progress.entries.any fun e => (e.2.announces.map Prod.fst) = some x
  | _ => true

def Timely (σ : State) : Label → Prop
  | .sendList socketId => listTimely app remote σ socketId = true
  | _ => True

instance (σ : State) : (label : Label) → Decidable (Timely app remote σ label)
  | .sendList socketId => inferInstanceAs (Decidable (listTimely app remote σ socketId = true))
  | .connect _ | .signIn _ _ _ | .watch _ | .readOnline _ | .readWatchers _ | .sendEvent _
  | .disconnect _ | .clear _ | .unregister _ => inferInstanceAs (Decidable True)

/-! ## The invariant -/

def Pending (σ : State) (x watcher : String) : Prop :=
  ∃ t p b, σ.progress.lookup t = some p ∧ p.announces = some (x, b) ∧ p.reaches watcher

/-- Events say what is so, and reach whoever was told, or is about to be told, otherwise. -/
structure Invariant (σ : State) : Prop where
  value : ∀ t p x b, σ.progress.lookup t = some p → p.announces = some (x, b) →
    b = σ.online app remote x
  attends : ∀ s w, σ.watchers.lookup s = some w → w.Attends (σ.slot app) s
  busy : ∀ s p w, σ.progress.lookup s = some p → p.attending = some w →
    w.Attends (σ.slot app) s
  gone : ∀ s p, σ.progress.lookup s = some p → p.leaving → σ.watchers.lookup s = none
  since : ∀ s w, σ.watchers.lookup s = some w → w.since ≤ σ.node.sent.length
  told : ∀ s w, σ.watchers.lookup s = some w → ∀ x ∈ w.watchlist, ∀ user, w.userId = some user →
    σ.node.toldSince app.id s w.since x = σ.online app remote x ∨ Pending σ x user
  read : ∀ s u list online wasOnline,
    σ.progress.lookup s = some (.listing u list online wasOnline) → ∀ x ∈ list,
    decide (x ∈ online) = σ.online app remote x ∨
      ∀ t p b, σ.progress.lookup t = some p → p.announces = some (x, b) → p.reaches u

theorem Invariant.truthful {σ : State} (h : Invariant app remote σ) : Truthful app remote σ := by
  intro hRest s w hw x hx
  obtain ⟨user, hUser, -⟩ := (h.attends s w hw).watches x hx
  rcases h.told s w hw x hx user hUser with hTold | ⟨t, p, b, hp, -⟩
  · exact hTold
  · exact nomatch (entries_eq_nil_iff.mp hRest t).symm.trans hp

theorem slot_setSlot (σ : State) (slot : AppChannels) : (σ.setSlot app slot).slot app = slot :=
  update_self ..

theorem locked_eq_false {σ : State} {userId : String} (h : ¬ σ.locked userId = true) {t : String}
    {p : Progress} (hp : σ.progress.lookup t = some p) : p.user ≠ some userId := by
  intro hUser
  exact h (any_entries_iff.mpr ⟨t, p, hp, decide_eq_true hUser⟩)

/-- What a task may take up in this state. -/
structure Fits (σ : State) (task : String) (p : Progress) : Prop where
  reaches : ∀ x b, p.announces = some (x, b) →
    ∀ watcher ∈ (σ.slot app).watchersOf x, p.reaches watcher
  read : ∀ u list online wasOnline, p = .listing u list online wasOnline → ∀ x ∈ list,
    decide (x ∈ online) = σ.online app remote x
  attends : ∀ w, p.attending = some w → w.Attends (σ.slot app) task
  gone : p.leaving → σ.watchers.lookup task = none

/-! ## The steps -/

section

variable {app remote} {σ : State} {socketId userId : String} {p p₀ : Progress}
  {wasOnline came : Bool} {slot : AppChannels} {w : Watcher} {list : List String} {τ : State}

theorem online_setSlot (σ : State) (slot : AppChannels) (u : String) :
    (σ.setSlot app slot).online app remote u = (slot.isUserOnline u || remote u) := by
  rw [State.online, slot_setSlot]

section

variable (h : Invariant app remote σ)

include h

/-- One task goes on. Where it does not go on to announce what it had to, everybody it
was to reach has been told. -/
theorem Invariant.withProgress {progress : Map String Progress}
    (hOthers : ∀ t, t ≠ socketId → progress.lookup t = σ.progress.lookup t)
    (hFits : ∀ p, progress.lookup socketId = some p → Fits app remote σ socketId p)
    (hValue : ∀ e, (progress.lookup socketId).bind Progress.announces = some e →
      (σ.progress.lookup socketId).bind Progress.announces = some e)
    (hTold : ∀ p x b, σ.progress.lookup socketId = some p → p.announces = some (x, b) →
      (progress.lookup socketId).bind Progress.announces = some (x, b) ∨
      ∀ s w, σ.watchers.lookup s = some w → ∀ user, w.userId = some user → p.reaches user →
        σ.node.toldSince app.id s w.since x = σ.online app remote x) :
    Invariant app remote { σ with progress := progress } where
  value t p x b hp hEvent := by
    by_cases ht : t = socketId
    · subst ht
      obtain ⟨p', hp', hEvent'⟩ := bind_eq_some_iff.mp
        (hValue _ (bind_eq_some_iff.mpr ⟨p, hp, hEvent⟩))
      exact h.value t p' x b hp' hEvent'
    · exact h.value t p x b ((hOthers t ht).symm.trans hp) hEvent
  attends := h.attends
  busy s p w hp hw := by
    by_cases hs : s = socketId
    · subst hs
      exact (hFits p hp).attends w hw
    · exact h.busy s p w ((hOthers s hs).symm.trans hp) hw
  gone s p hp hLeaving := by
    by_cases hs : s = socketId
    · subst hs
      exact (hFits p hp).gone hLeaving
    · exact h.gone s p ((hOthers s hs).symm.trans hp) hLeaving
  since := h.since
  told s w hw x hx user hUser := by
    rcases h.told s w hw x hx user hUser with hSame | ⟨t, p, b, hp, hEvent, hReaches⟩
    · exact Or.inl hSame
    by_cases ht : t = socketId
    · subst ht
      rcases hTold p x b hp hEvent with hStill | hTold
      · obtain ⟨p', hp', hEvent'⟩ := bind_eq_some_iff.mp hStill
        obtain ⟨user', hUser', hWatches⟩ := (h.attends s w hw).watches x hx
        cases hUser.symm.trans hUser'
        exact Or.inr ⟨t, p', b, hp', hEvent', (hFits p' hp').reaches x b hEvent' user hWatches⟩
      · exact Or.inl (hTold s w hw user hUser hReaches)
    · exact Or.inr ⟨t, p, b, (hOthers t ht).trans hp, hEvent, hReaches⟩
  read s u list online wasOnline hs x hx := by
    by_cases hst : s = socketId
    · subst hst
      exact Or.inl ((hFits _ hs).read u list online wasOnline rfl x hx)
    have hs := (hOthers s hst).symm.trans hs
    refine (h.read s u list online wasOnline hs x hx).imp_right fun hReach t p b hp hEvent => ?_
    by_cases ht : t = socketId
    · subst ht
      obtain ⟨user, ⟨⟩, hWatches⟩ := (h.busy s _ _ hs rfl).watches x hx
      exact (hFits p hp).reaches x b hEvent u hWatches
    · exact hReach t p b ((hOthers t ht).symm.trans hp) hEvent

theorem Invariant.setProgress
    (hAnnounces : (σ.progress.lookup socketId).bind Progress.announces = p.announces)
    (hFits : Fits app remote σ socketId p) : Invariant app remote (σ.setProgress socketId p) := by
  have hSelf : (σ.progress.insert socketId p).lookup socketId = some p := lookup_insert _
  refine h.withProgress (fun t ht => lookup_insert_ne ht) (fun p' hp' => ?_)
    (fun e he => ?_) fun p' x b hp' hEvent => .inl ?_
  · cases hSelf.symm.trans hp'
    exact hFits
  · rw [hAnnounces]
    rw [hSelf] at he
    exact he
  · rw [hSelf, bind_some, ← hAnnounces, hp']
    exact hEvent

theorem Invariant.finish (hOwn : σ.progress.lookup socketId = some p₀)
    (hAnnounces : p₀.announces = none) : Invariant app remote (σ.finish socketId) := by
  have hSelf : (σ.progress.erase socketId).lookup socketId = none := lookup_erase ..
  refine h.withProgress (fun t ht => lookup_erase_ne ht)
    (fun p hp => nomatch hSelf.symm.trans hp) (fun e he => ?_) fun p x b hp hEvent => ?_
  · rw [hSelf] at he
    cases he
  · cases hOwn.symm.trans hp
    cases hAnnounces.symm.trans hEvent

theorem Invariant.proceed (hOwn : σ.progress.lookup socketId = some p₀)
    (hAnnounces : p₀.announces = if wasOnline then none else some (userId, true)) :
    Invariant app remote (proceed σ socketId userId wasOnline) := by
  cases wasOnline with
  | true => exact h.finish hOwn hAnnounces
  | false =>
    refine h.setProgress ?_ ⟨fun _ _ _ _ _ => trivial, nofun, nofun, nofun⟩
    rw [hOwn]
    exact hAnnounces

theorem Invariant.setSlot (hOnline : slot.isUserOnline = (σ.slot app).isUserOnline)
    (hAttends : ∀ s w, σ.watchers.lookup s = some w → w.Attends slot s)
    (hBusy : ∀ s p w, σ.progress.lookup s = some p → p.attending = some w → w.Attends slot s) :
    Invariant app remote (σ.setSlot app slot) := by
  have hSame : (σ.setSlot app slot).online app remote = σ.online app remote := by
    funext u
    rw [State.online, slot_setSlot, hOnline, State.online]
  refine ⟨?_, ?_, ?_, h.gone, h.since, ?_, ?_⟩
  · rw [hSame]
    exact h.value
  · rw [slot_setSlot]
    exact hAttends
  · rw [slot_setSlot]
    exact hBusy
  · rw [hSame]
    exact h.told
  · rw [hSame]
    exact h.read

theorem Invariant.addRecord (hStays : ∀ p, σ.progress.lookup socketId = some p → ¬ p.leaving)
    (hNil : w.watchlist = []) (hSince : w.since = σ.node.sent.length)
    (hAttends : w.Attends (σ.slot app) socketId) :
    Invariant app remote { σ with watchers := σ.watchers.insert socketId w } := by
  refine ⟨h.value, ?_, h.busy, ?_, ?_, ?_, h.read⟩
  · intro s w' hw'
    rcases lookup_insert_cases hw' with ⟨rfl, rfl⟩ | ⟨-, hw'⟩
    · exact hAttends
    · exact h.attends s w' hw'
  · intro s p hp hLeaving
    rw [lookup_insert_if, if_neg]
    · exact h.gone s p hp hLeaving
    · rintro rfl
      exact hStays p hp hLeaving
  · intro s w' hw'
    rcases lookup_insert_cases hw' with ⟨-, rfl⟩ | ⟨-, hw'⟩
    · exact hSince.le
    · exact h.since s w' hw'
  · intro s w' hw' x hx
    rcases lookup_insert_cases hw' with ⟨-, rfl⟩ | ⟨-, hw'⟩
    · rw [hNil] at hx
      cases hx
    · exact h.told s w' hw' x hx

theorem Invariant.dropRecord (socketId : String) :
    Invariant app remote { σ with watchers := σ.watchers.erase socketId } := by
  have hBefore {s : String} {w : Watcher} (hw : (σ.watchers.erase socketId).lookup s = some w) :
      σ.watchers.lookup s = some w := by
    rw [lookup_erase_if] at hw
    exact (ite_none_left_eq_some.mp hw).2
  refine ⟨h.value, fun s w hw => h.attends s w (hBefore hw), h.busy, fun s p hp hLeaving => ?_,
    fun s w hw => h.since s w (hBefore hw), fun s w hw => h.told s w (hBefore hw), h.read⟩
  rw [lookup_erase_if, h.gone s p hp hLeaving, ite_self]

/-- The state of one user changes, whose lock was free; the task that changed it has to
announce the change. -/
theorem Invariant.change (hIdle : socketId ∉ σ.progress) (hFree : ¬ σ.locked userId = true)
    (hOnline : ∀ x, x ≠ userId → slot.isUserOnline x = (σ.slot app).isUserOnline x)
    (hAttends : ∀ s w, σ.watchers.lookup s = some w → w.Attends slot s)
    (hBusy : ∀ s p w, σ.progress.lookup s = some p → p.attending = some w → w.Attends slot s)
    (hFits : Fits app remote (σ.setSlot app slot) socketId p)
    (hNews : p.announces = some (userId, slot.isUserOnline userId || remote userId) ∨
      p.announces = none ∧ (slot.isUserOnline userId || remote userId) =
        σ.online app remote userId) :
    Invariant app remote ((σ.setSlot app slot).setProgress socketId p) := by
  have hSlot : ((σ.setSlot app slot).setProgress socketId p).slot app = slot := slot_setSlot ..
  have hSame {x : String} (hx : x ≠ userId) :
      (σ.setSlot app slot).online app remote x = σ.online app remote x := by
    rw [online_setSlot, hOnline x hx, State.online]
  have hNe {t x : String} {q : Progress} {b : Bool} (hq : σ.progress.lookup t = some q)
      (hEvent : q.announces = some (x, b)) : x ≠ userId := by
    rintro rfl
    exact locked_eq_false hFree hq (Progress.user_of_announces hEvent)
  have hReaches {x user : String} {b : Bool} (hEvent : p.announces = some (x, b))
      (hWatches : user ∈ slot.watchersOf x) : p.reaches user := by
    refine hFits.reaches x b hEvent user ?_
    rw [slot_setSlot]
    exact hWatches
  have hChange (x : String) : (σ.setSlot app slot).online app remote x = σ.online app remote x ∨
      x = userId ∧ ∃ b, p.announces = some (x, b) := by
    by_cases hx : x = userId
    · subst hx
      rw [online_setSlot]
      exact hNews.symm.imp And.right fun hEvent => ⟨rfl, _, hEvent⟩
    · exact Or.inl (hSame hx)
  refine ⟨?_, ?_, ?_, ?_, h.since, ?_, ?_⟩
  · intro t q x b hq hEvent
    rcases lookup_insert_cases hq with ⟨rfl, rfl⟩ | ⟨-, hq⟩
    · rcases hNews with hNow | ⟨hNone, -⟩
      · cases hNow.symm.trans hEvent
        exact (online_setSlot ..).symm
      · cases hNone.symm.trans hEvent
    · exact (h.value t q x b hq hEvent).trans (hSame (hNe hq hEvent)).symm
  · rw [hSlot]
    exact hAttends
  · intro s q w hq hw
    rw [hSlot]
    rcases lookup_insert_cases hq with ⟨rfl, rfl⟩ | ⟨-, hq⟩
    · exact slot_setSlot app σ slot ▸ hFits.attends w hw
    · exact hBusy s q w hq hw
  · intro s q hq hLeaving
    rcases lookup_insert_cases hq with ⟨rfl, rfl⟩ | ⟨-, hq⟩
    · exact hFits.gone hLeaving
    · exact h.gone s q hq hLeaving
  · intro s w hw x hx user hUser
    rcases hChange x with hSame | ⟨-, b, hEvent⟩
    · refine (h.told s w hw x hx user hUser).imp (fun hTold => hTold.trans hSame.symm) ?_
      rintro ⟨t, q, b, hq, hEvent, hReached⟩
      have ht : t ≠ socketId := by
        rintro rfl
        exact hIdle (mem_iff_lookup.mpr ⟨q, hq⟩)
      exact ⟨t, q, b, (lookup_insert_ne ht).trans hq, hEvent, hReached⟩
    · obtain ⟨user', hUser', hWatches⟩ := (hAttends s w hw).watches x hx
      cases hUser.symm.trans hUser'
      exact Or.inr ⟨socketId, p, b, lookup_insert _, hEvent, hReaches hEvent hWatches⟩
  · intro s u list online wasOnline hs x hx
    rcases lookup_insert_cases hs with ⟨rfl, hEq⟩ | ⟨-, hs⟩
    · exact Or.inl (hFits.read u list online wasOnline hEq x hx)
    obtain ⟨user, ⟨⟩, hWatches⟩ := (hBusy s _ _ hs rfl).watches x hx
    have hReach (hOld : ∀ t q b, σ.progress.lookup t = some q → q.announces = some (x, b) →
        q.reaches u) (t : String) (q : Progress) (b : Bool)
        (hq : (σ.progress.insert socketId p).lookup t = some q)
        (hEvent : q.announces = some (x, b)) : q.reaches u := by
      rcases lookup_insert_cases hq with ⟨-, rfl⟩ | ⟨-, hq⟩
      · exact hReaches hEvent hWatches
      · exact hOld t q b hq hEvent
    rcases hChange x with hSame | ⟨rfl, -⟩
    · exact (h.read s u list online wasOnline hs x hx).imp (fun hRead => hRead.trans hSame.symm)
        hReach
    · exact Or.inr (hReach fun t q b hq hEvent => absurd rfl (hNe hq hEvent))

end

theorem attends_addWatchers {s : String} (h : w.Attends slot s) (list : List String)
    (user : String) : w.Attends (slot.addWatchers list user) s where
  connected := (slot.addWatchers_same list user).2.symm ▸ h.connected
  signedIn u hu := by
    rw [socketsOf_congr (slot.addWatchers_same list user).1]
    exact h.signedIn u hu
  watches u hu := by
    obtain ⟨watcher, hWatcher, hWatches⟩ := h.watches u hu
    exact ⟨watcher, hWatcher, (mem_watchersOf_addWatchers ..).mpr (.inl hWatches)⟩

section

variable (h : Invariant app remote σ)

include h

theorem invariant_watch {watchlist : Option (List String)}
    (hOwn : σ.progress.lookup socketId = some (.bound userId watchlist wasOnline)) :
    Invariant app remote (watch app σ socketId userId watchlist wasOnline) := by
  cases watchlist with
  | none => exact h.proceed hOwn rfl
  | some list =>
    have hSlot : Invariant app remote
        (σ.setSlot app ((σ.slot app).addWatchers list userId)) := by
      refine h.setSlot (isUserOnline_congr ((σ.slot app).addWatchers_same list userId).1) ?_ ?_
      · exact fun s w hw => attends_addWatchers (h.attends s w hw) list userId
      · exact fun s p w hp hw => attends_addWatchers (h.busy s p w hp hw) list userId
    refine hSlot.setProgress (congrArg (Option.bind · _) hOwn)
      ⟨fun _ _ _ _ _ => trivial, nofun, ?_, nofun⟩
    rintro w ⟨⟩
    obtain ⟨hConnected, hSignedIn, -⟩ := hSlot.busy socketId _ _ hOwn rfl
    refine ⟨hConnected, hSignedIn, fun u hu => ⟨userId, rfl, ?_⟩⟩
    rw [slot_setSlot]
    exact (mem_watchersOf_addWatchers ..).mpr (.inr ⟨hu, rfl⟩)

theorem invariant_readOnline
    (hOwn : σ.progress.lookup socketId = some (.watching userId list wasOnline)) :
    Invariant app remote (σ.setProgress socketId
      (.listing userId list (list.filter fun u => σ.online app remote u) wasOnline)) := by
  refine h.setProgress (congrArg (Option.bind · _) hOwn) ⟨fun _ _ _ _ _ => trivial, ?_, ?_, nofun⟩
  · rintro u list' online wasOnline' ⟨⟩ x hx
    rw [Bool.eq_iff_iff, decide_eq_true_eq, mem_filter]
    exact and_iff_right hx
  · rintro w ⟨⟩
    exact h.busy socketId _ _ hOwn rfl

theorem invariant_readWatchers
    (hOwn : σ.progress.lookup socketId = some (.announcing userId came)) :
    Invariant app remote (σ.setProgress socketId
      (.fanning userId came ((σ.slot app).watchersOf userId))) := by
  refine h.setProgress (congrArg (Option.bind · _) hOwn) ⟨?_, nofun, nofun, ?_⟩
  · rintro x b ⟨⟩ watcher hWatcher
    exact hWatcher
  · exact fun hLeaving => h.gone socketId _ hOwn hLeaving

theorem invariant_clear (hOwn : σ.progress.lookup socketId = some (.clearing userId)) :
    Invariant app remote ((σ.setSlot app
      ((σ.slot app).removeAllWatchesFor userId)).setProgress socketId .closing) := by
  have hSlot : Invariant app remote
      (σ.setSlot app ((σ.slot app).removeAllWatchesFor userId)) := by
    refine h.setSlot (isUserOnline_congr ((σ.slot app).removeAllWatchesFor_same userId).1) ?_ ?_
    · exact fun s w hw => (h.attends s w hw).removeAllWatchesFor userId
    · exact fun s p w hp hw => (h.busy s p w hp hw).removeAllWatchesFor userId
  exact hSlot.setProgress (congrArg (Option.bind · _) hOwn)
    ⟨nofun, nofun, nofun, fun _ => h.gone socketId _ hOwn trivial⟩

theorem invariant_unregister (hOwn : σ.progress.lookup socketId = some .closing) :
    Invariant app remote ((σ.setSlot app
      ((σ.slot app).unregisterConnection socketId)).finish socketId) := by
  have hSlot : Invariant app remote
      (σ.setSlot app ((σ.slot app).unregisterConnection socketId)) := by
    refine h.setSlot rfl (fun s w hw => ?_) (fun s p w hp hw => ?_)
    · refine (h.attends s w hw).unregisterConnection ?_
      rintro rfl
      exact nomatch (h.gone s _ hOwn trivial).symm.trans hw
    · refine (h.busy s p w hp hw).unregisterConnection ?_
      rintro rfl
      cases hOwn.symm.trans hp
      cases hw
  exact hSlot.finish hOwn rfl

theorem invariant_connect (hNew : socketId ∉ σ.watchers) (hIdle : socketId ∉ σ.progress) :
    Invariant app remote (connect app σ socketId) := by
  have hSpec := (σ.slot app).registerConnection_spec app socketId
  have hSlot : Invariant app remote
      (σ.setSlot app ((σ.slot app).registerConnection app socketId).2) := by
    refine h.setSlot (isUserOnline_congr hSpec.1) (fun s w hw => ?_) (fun s p w hp hw => ?_)
    · refine (h.attends s w hw).registerConnection ?_
      rintro rfl
      exact hNew (mem_iff_lookup.mpr ⟨w, hw⟩)
    · refine (h.busy s p w hp hw).registerConnection ?_
      rintro rfl
      exact hIdle (mem_iff_lookup.mpr ⟨p, hp⟩)
  unfold connect
  cases hAccepted : ((σ.slot app).registerConnection app socketId).1 with
  | true =>
    simp only [hAccepted, if_true]
    refine hSlot.addRecord (w := ⟨none, [], σ.node.sent.length⟩)
      (fun p hp => (hIdle (mem_iff_lookup.mpr ⟨p, hp⟩)).elim) rfl rfl ?_
    rw [slot_setSlot]
    exact ⟨hSpec.2.2 hAccepted, nofun, nofun⟩
  | false =>
    simp only [hAccepted, Bool.false_eq_true, if_false]
    exact hSlot

theorem invariant_bind (hIdle : socketId ∉ σ.progress) (hFree : ¬ σ.locked userId = true)
    (hRecord : σ.watchers.lookup socketId = some w) (watchlist : Option (List String)) :
    Invariant app remote (bind app remote σ socketId userId watchlist) := by
  have hLocal : ((σ.slot app).bindUser userId socketId).2.isUserOnline =
      update (σ.slot app).isUserOnline userId true :=
    (σ.slot app).isUserOnline_signedIn socketId userId none
  have hNew (since : Nat) : Watcher.Attends ((σ.setSlot app
      ((σ.slot app).bindUser userId socketId).2).slot app) socketId ⟨some userId, [], since⟩ := by
    rw [slot_setSlot]
    exact Watcher.attends_slotSignedIn (h.attends socketId w hRecord).connected userId none since
  have hChanged : Invariant app remote ((σ.setSlot app
      ((σ.slot app).bindUser userId socketId).2).setProgress socketId
        (.bound userId watchlist (σ.online app remote userId))) := by
    refine h.change hIdle hFree (fun x hx => ?_)
      (fun s w hw => (h.attends s w hw).slotSignedIn socketId userId none)
      (fun s p w hp hw => (h.busy s p w hp hw).slotSignedIn socketId userId none)
      ⟨fun _ _ _ _ _ => trivial, nofun, ?_, nofun⟩ ?_
    · rw [hLocal, update_of_ne hx]
    · rintro w ⟨⟩
      exact hNew 0
    · rw [hLocal, update_self, Progress.announces]
      cases σ.online app remote userId with
      | true => exact Or.inr ⟨rfl, rfl⟩
      | false => exact Or.inl rfl
  refine hChanged.addRecord (fun p hp => ?_) rfl rfl (hNew _)
  cases (lookup_insert _).symm.trans hp
  exact id

theorem invariant_unbind (hIdle : socketId ∉ σ.progress) (hFree : ¬ σ.locked userId = true) :
    Invariant app remote (unbind app remote σ socketId userId) := by
  have hLocal := (σ.slot app).isUserOnline_unbindUser userId socketId
  have hRecords := lookup_erase_if σ.watchers socketId
  refine (h.dropRecord socketId).change hIdle hFree (fun x hx => ?_) (fun s w hw => ?_)
    (fun s p w hp hw => (h.busy s p w hp hw).unbindUser ?_ userId) ?_ ?_
  · refine (congrFun hLocal x).trans ?_
    split
    · exact update_of_ne hx ..
    · rfl
  · obtain ⟨hs, hw⟩ := ite_none_left_eq_some.mp ((hRecords s).symm.trans hw)
    exact (h.attends s w hw).unbindUser hs userId
  · rintro rfl
    exact hIdle (mem_iff_lookup.mpr ⟨p, hp⟩)
  · unfold afterUnbind
    split
    · split
      · exact ⟨nofun, nofun, nofun, fun _ => lookup_erase ..⟩
      · exact ⟨fun _ _ _ _ _ => trivial, nofun, nofun, fun _ => lookup_erase ..⟩
    · exact ⟨nofun, nofun, nofun, fun _ => lookup_erase ..⟩
  · have hUser := congrFun hLocal userId
    cases hLast : ((σ.slot app).unbindUser userId socketId).1 with
    | false =>
      rw [hLast, if_neg Bool.false_ne_true] at hUser
      exact Or.inr ⟨rfl, congrArg (· || remote userId) hUser⟩
    | true =>
      rw [hLast, if_pos rfl, update_self] at hUser
      unfold afterUnbind
      rw [if_pos rfl, State.online]
      cases hRemote : remote userId with
      | true => exact Or.inr ⟨rfl, (Bool.or_true _).trans (Bool.or_true _).symm⟩
      | false => exact Or.inl (congrArg (fun b => some (userId, b || false)) hUser.symm)

theorem invariant_leave (hIdle : socketId ∉ σ.progress) :
    Invariant app remote { σ.setProgress socketId .closing with
      watchers := σ.watchers.erase socketId } := by
  have hNone : σ.progress.lookup socketId = none := by
    rw [lookup_eq_none]
    exact hIdle
  exact (h.dropRecord socketId).setProgress (congrArg (Option.bind · _) hNone)
    ⟨nofun, nofun, nofun, fun _ => lookup_erase ..⟩

end
theorem tells_list (online : List String) (x : String) :
    ((Frame.watchlistEvents "online" online).tells x).getD false = decide (x ∈ online) := by
  rw [Frame.tells]
  by_cases hx : x ∈ online
  · simp [hx]
  · simp [hx]

theorem invariant_deliverList (h : Invariant app remote σ) {online : List String}
    (hOwn : σ.progress.lookup socketId = some (.listing userId list online wasOnline))
    (hTimely : listTimely app remote σ socketId = true) :
    Invariant app remote (deliverList app σ socketId userId list online) := by
  have hSent (since : Nat) (hSince : since ≤ σ.node.sent.length) (s x : String) :
      (deliverList app σ socketId userId list online).node.toldSince app.id s since x =
        if s = socketId then ((Frame.watchlistEvents "online" online).tells x).getD
          (σ.node.toldSince app.id s since x)
        else σ.node.toldSince app.id s since x := by
    refine (Node.toldSince_sendAll σ.node hSince ..).trans (if_congr ?_ rfl rfl)
    rw [mem_singleton]
    exact and_iff_right rfl
  have hGrows : σ.node.sent.length ≤
      (deliverList app σ socketId userId list online).node.sent.length :=
    (prefix_append ..).length_le
  have hBusy := h.busy socketId _ _ hOwn rfl
  refine ⟨h.value, ?_, h.busy, ?_, ?_, ?_, h.read⟩
  · intro s w hw
    rcases lookup_insert_cases hw with ⟨rfl, rfl⟩ | ⟨-, hw⟩
    · exact ⟨hBusy.connected, hBusy.signedIn, hBusy.watches⟩
    · exact h.attends s w hw
  · intro s p hp hLeaving
    have hs : s ≠ socketId := by
      rintro rfl
      cases hOwn.symm.trans hp
      cases hLeaving
    exact (lookup_insert_ne hs).trans (h.gone s p hp hLeaving)
  · intro s w hw
    rcases lookup_insert_cases hw with ⟨-, rfl⟩ | ⟨-, hw⟩
    · exact hGrows
    · exact (h.since s w hw).trans hGrows
  · intro s w hw x hx user hUser
    rcases lookup_insert_cases hw with ⟨rfl, rfl⟩ | ⟨hs, hw⟩
    · cases hUser
      have hNothing : σ.node.toldSince app.id s σ.node.sent.length x = false := by
        rw [Node.toldSince, drop_length]
        rfl
      rw [hSent _ (Nat.le_refl _), if_pos rfl, hNothing, tells_list]
      unfold listTimely at hTimely
      rw [hOwn] at hTimely
      have hx' := all_eq_true.mp hTimely x hx
      rw [Bool.or_eq_true, beq_iff_eq] at hx'
      rcases hx' with hSame | hAnnounced
      · exact Or.inl hSame
      · obtain ⟨t, p, hp, hEvent⟩ := any_entries_iff.mp hAnnounced
        obtain ⟨⟨y, b⟩, hAnnounces, rfl⟩ := map_eq_some_iff.mp (of_decide_eq_true hEvent)
        refine (h.read s userId list online wasOnline hOwn y hx).imp_right fun hReach => ?_
        exact ⟨t, p, b, hp, hAnnounces, hReach t p b hp hAnnounces⟩
    · rw [hSent _ (h.since s w hw), if_neg hs]
      exact h.told s w hw x hx user hUser

theorem toldSince_deliverEvent {since : Nat} (hSince : since ≤ σ.node.sent.length)
    (watchers : List String) (s x : String) :
    (deliverEvent app σ userId came watchers).node.toldSince app.id s since x =
      if x = userId ∧ s ∈ watchers.flatMap (σ.slot app).connectionsForUser then came
      else σ.node.toldSince app.id s since x := by
  refine (Node.toldSince_sendAll σ.node hSince ..).trans ?_
  by_cases hx : x = userId
  · have hEvent : (Frame.watchlistEvents (eventName came) [userId]).tells x = some came := by
      cases came <;> simp [Frame.tells, eventName, hx]
    rw [hEvent]
    exact if_congr (and_congr_left' (iff_of_true rfl hx)) rfl rfl
  · have hEvent : (Frame.watchlistEvents (eventName came) [userId]).tells x = none := by
      simp [Frame.tells, hx]
    rw [hEvent, getD_none, ite_self, if_neg fun h => hx h.1]

section

variable (h : Invariant app remote σ) {watchers : List String}
  (hOwn : σ.progress.lookup socketId = some (.fanning userId came watchers))

include h hOwn

theorem invariant_deliverEvent :
    Invariant app remote (deliverEvent app σ userId came watchers) := by
  refine ⟨h.value, h.attends, h.busy, h.gone, fun s w hw => ?_, fun s w hw x hx user hUser => ?_,
    h.read⟩
  · exact (h.since s w hw).trans (prefix_append ..).length_le
  · rw [toldSince_deliverEvent (h.since s w hw)]
    split
    · rename_i hTold
      exact Or.inl (hTold.1.symm ▸ h.value socketId _ userId came hOwn rfl)
    · exact h.told s w hw x hx user hUser

theorem invariant_sendEvent {progress : Map String Progress}
    (hOthers : ∀ t, t ≠ socketId → progress.lookup t = σ.progress.lookup t)
    (hDone : ∀ p, progress.lookup socketId = some p → p = .clearing userId ∧ came = false) :
    Invariant app remote { deliverEvent app σ userId came watchers with progress := progress } := by
  refine (invariant_deliverEvent h hOwn).withProgress hOthers (fun p hp => ?_) (fun e he => ?_)
    fun p x b hp hEvent => .inr fun s w hw user hUser hWatcher => ?_
  · obtain ⟨rfl, hCame⟩ := hDone p hp
    exact ⟨nofun, nofun, nofun, fun _ => h.gone socketId _ hOwn hCame⟩
  · obtain ⟨p, hp, he⟩ := bind_eq_some_iff.mp he
    obtain ⟨rfl, -⟩ := hDone p hp
    cases he
  · cases hOwn.symm.trans hp
    cases hEvent
    obtain ⟨hConnected, hSignedIn, -⟩ := h.attends s w hw
    have hMem : s ∈ watchers.flatMap (σ.slot app).connectionsForUser :=
      mem_flatMap.mpr ⟨user, hWatcher,
        mem_filter.mpr ⟨hSignedIn user hUser, decide_eq_true hConnected⟩⟩
    rw [toldSince_deliverEvent (h.since s w hw), if_pos ⟨rfl, hMem⟩]
    exact h.value socketId _ _ came hOwn rfl

end

theorem invariant_step {label : Label} (h : Invariant app remote σ)
    (hTimely : Timely app remote σ label) (hStep : step app remote σ label = some τ) :
    Invariant app remote τ := by
  cases label with
  | connect socketId =>
    obtain ⟨hNew, ⟨⟩⟩ := ite_none_left_eq_some.mp hStep
    exact invariant_connect h (fun hMem => hNew (Or.inl hMem)) fun hMem => hNew (Or.inr hMem)
  | signIn socketId userId watchlist =>
    obtain ⟨hFree, hStep⟩ := ite_none_left_eq_some.mp hStep
    obtain ⟨w, hRecord, hStep⟩ := bind_eq_some_iff.mp hStep
    obtain ⟨-, ⟨⟩⟩ := ite_none_right_eq_some.mp hStep
    exact invariant_bind h (fun hMem => hFree (Or.inl hMem)) (fun hLocked => hFree (Or.inr hLocked))
      hRecord watchlist
  | watch socketId =>
    simp only [step] at hStep
    split at hStep <;> cases hStep
    exact invariant_watch h ‹_›
  | readOnline socketId =>
    simp only [step] at hStep
    split at hStep <;> cases hStep
    exact invariant_readOnline h ‹_›
  | sendList socketId =>
    simp only [step] at hStep
    split at hStep <;> cases hStep
    rename_i hOwn
    exact (invariant_deliverList h hOwn hTimely).proceed hOwn rfl
  | readWatchers socketId =>
    simp only [step] at hStep
    split at hStep <;> cases hStep
    exact invariant_readWatchers h ‹_›
  | sendEvent socketId =>
    simp only [step] at hStep
    split at hStep <;> cases hStep
    rename_i userId came watchers hOwn
    cases came with
    | true =>
      exact invariant_sendEvent h hOwn (fun t ht => lookup_erase_ne ht)
        fun p hp => nomatch (lookup_erase ..).symm.trans hp
    | false =>
      refine invariant_sendEvent h hOwn (fun t ht => lookup_insert_ne ht) fun p hp => ?_
      cases (lookup_insert _).symm.trans hp
      exact ⟨rfl, rfl⟩
  | disconnect socketId =>
    obtain ⟨hIdle, hStep⟩ := ite_none_left_eq_some.mp hStep
    obtain ⟨w, hRecord, hStep⟩ := bind_eq_some_iff.mp hStep
    split at hStep
    · cases hStep
      exact invariant_leave h hIdle
    · obtain ⟨hFree, ⟨⟩⟩ := ite_none_left_eq_some.mp hStep
      exact invariant_unbind h hIdle hFree
  | clear socketId =>
    simp only [step] at hStep
    split at hStep <;> cases hStep
    exact invariant_clear h ‹_›
  | unregister socketId =>
    simp only [step] at hStep
    split at hStep <;> cases hStep
    exact invariant_unregister h ‹_›

end

/-- Where lists are timely, once every sign-in and every disconnect has finished, the last
frame that tells a watcher of a user on its list, the list itself counting for all of them,
says whether the user is online. -/
theorem first_list_truthful (nodeId : String) (scaling : Bool)
    (config : String → Option Application) (run : List Label)
    (hTimely : EachStep (step app remote) (Timely app remote) (start nodeId scaling config) run) :
    Always (step app remote) (Truthful app remote) (start nodeId scaling config) run := by
  have hInit : Invariant app remote (start nodeId scaling config) :=
    ⟨nofun, nofun, nofun, nofun, nofun, nofun, nofun⟩
  exact (always_of_step (fun _ _ _ => invariant_step) hInit hTimely).mono
    fun _ => Invariant.truthful app remote

end

/-! ## A list overtaken by an event -/

def nobody (_ : String) : Bool := false

/-- `alice` is online; `walter` signs in to watch her and reads that, and her last socket
goes, up to the event. -/
def overlap : List Label :=
  [.connect "1.1", .connect "2.2", .signIn "2.2" "alice" none, .watch "2.2",
    .readWatchers "2.2", .sendEvent "2.2", .signIn "1.1" "walter" (some ["alice"]),
    .watch "1.1", .readOnline "1.1", .disconnect "2.2", .readWatchers "2.2"]

def settle : List Label :=
  [.clear "2.2", .unregister "2.2", .readWatchers "1.1", .sendEvent "1.1"]

theorem overlap_timely_truthful :
    EachStep (step exampleApp nobody) (Timely exampleApp nobody) (start "n1" true exampleTable)
      (overlap ++ [.sendList "1.1", .sendEvent "2.2"] ++ settle) ∧
    Always (step exampleApp nobody) (Truthful exampleApp nobody) (start "n1" true exampleTable)
      (overlap ++ [.sendList "1.1", .sendEvent "2.2"] ++ settle) :=
  have hTimely : EachStep (step exampleApp nobody) (Timely exampleApp nobody)
      (start "n1" true exampleTable)
      (overlap ++ [.sendList "1.1", .sendEvent "2.2"] ++ settle) := by
    decide
  ⟨hTimely, first_list_truthful exampleApp nobody "n1" true exampleTable _ hTimely⟩

theorem overlap_overtaken_untrue :
    ¬ Always (step exampleApp nobody) (Truthful exampleApp nobody) (start "n1" true exampleTable)
      (overlap ++ [.sendEvent "2.2", .sendList "1.1"] ++ settle) := by
  intro h
  have hRun : (exec (step exampleApp nobody) (start "n1" true exampleTable)
      (overlap ++ [.sendEvent "2.2", .sendList "1.1"] ++ settle)).bind
      (fun σ => (σ.watchers.lookup "1.1").map fun w =>
        (decide (σ.progress.entries = []), decide ("alice" ∈ w.watchlist),
          σ.node.toldSince exampleApp.id "1.1" w.since "alice",
          σ.online exampleApp nobody "alice")) =
      some (true, true, true, false) := by decide
  obtain ⟨σ, hExec, hEnd⟩ := Option.bind_eq_some_iff.mp hRun
  obtain ⟨w, hRecord, hFacts⟩ := Option.map_eq_some_iff.mp hEnd
  simp only [Prod.mk.injEq, decide_eq_true_eq] at hFacts
  obtain ⟨hRest, hListed, hTold, hOnline⟩ := hFacts
  have hTrue := h.of_exec hExec hRest "1.1" w hRecord "alice" hListed
  rw [hTold, hOnline] at hTrue
  cases hTrue

end FirstList

end Zatat
