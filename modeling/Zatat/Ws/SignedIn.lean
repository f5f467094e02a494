import Zatat.Ws.Watching

/-! # Who is signed in and who watches

The user index lists exactly the open connections that are signed in, and every user in
a watch set is online. Neither index keeps an empty entry.
-/

namespace Zatat

open FiniteMap AppChannels List Inbound

namespace AppChannels

structure Tidy (slot : AppChannels) : Prop where
  sockets : ∀ u list, slot.userIndex.lookup u = some list → list ≠ []
  watchers : ∀ u set, slot.watchers.lookup u = some set →
    set.entries ≠ [] ∧ ∀ watcher ∈ set, slot.isUserOnline watcher = true

theorem tidy_empty : Tidy empty where
  sockets _ _ h := by cases h
  watchers _ _ h := by cases h

variable {slot : AppChannels}

theorem Tidy.of_same {slot' : AppChannels} (h : Tidy slot)
    (hIndex : slot'.userIndex = slot.userIndex) (hWatchers : slot'.watchers = slot.watchers) :
    Tidy slot' where
  sockets u list hList := h.sockets u list (hIndex ▸ hList)
  watchers u set hSet := by
    rw [isUserOnline_congr hIndex]
    exact h.watchers u set (hWatchers ▸ hSet)

theorem isUserOnline_iff (slot : AppChannels) (u : String) :
    slot.isUserOnline u = true ↔ ∃ s, s ∈ slot.socketsOf u := by
  rw [isUserOnline_eq, Bool.not_eq_true', isEmpty_eq_false_iff_exists_mem]

theorem isUserOnline_bound (slot : AppChannels) (userId socketId : String) :
    (slot.bindUser userId socketId).2.isUserOnline userId = true :=
  (isUserOnline_iff ..).mpr ⟨socketId, (mem_socketsOf_bindUser ..).mpr (.inr ⟨rfl, rfl⟩)⟩

theorem Tidy.bindUser (h : Tidy slot) (userId socketId : String) :
    Tidy (slot.bindUser userId socketId).2 where
  sockets u list hList := by
    rw [AppChannels.bindUser] at hList
    dsimp only at hList
    rcases lookup_insert_cases hList with ⟨-, rfl⟩ | ⟨-, hList⟩
    · split
      · rename_i hMem
        exact ne_nil_of_mem hMem
      · exact append_ne_nil_of_right_ne_nil _ (cons_ne_nil _ _)
    · exact h.sockets u list hList
  watchers u set hSet := by
    refine ⟨(h.watchers u set hSet).1, fun watcher hWatcher => ?_⟩
    obtain ⟨s, hs⟩ := (isUserOnline_iff ..).mp ((h.watchers u set hSet).2 watcher hWatcher)
    exact (isUserOnline_iff ..).mpr ⟨s, (mem_socketsOf_bindUser ..).mpr (.inl hs)⟩

theorem Tidy.addWatcher (h : Tidy slot) (watched : String) {watcher : String}
    (hOnline : slot.isUserOnline watcher = true) : Tidy (slot.addWatcher watched watcher) where
  sockets := h.sockets
  watchers u set hSet := by
    rw [AppChannels.addWatcher] at hSet
    dsimp only at hSet
    rcases lookup_insert_cases hSet with ⟨-, rfl⟩ | ⟨-, hSet⟩
    · refine ⟨cons_ne_nil _ _, fun other hOther => ?_⟩
      rcases (AList.mem_insert _).mp hOther with rfl | hOther
      · exact hOnline
      · cases hOld : slot.watchers.lookup watched with
        | none =>
          rw [hOld] at hOther
          exact absurd hOther (AList.notMem_empty other)
        | some old =>
          rw [hOld] at hOther
          exact (h.watchers watched old hOld).2 other hOther
    · exact h.watchers u set hSet

theorem Tidy.addWatchers (h : Tidy slot) {userId : String}
    (hOnline : slot.isUserOnline userId = true) (watchlist : List String) :
    Tidy (slot.addWatchers watchlist userId) := by
  induction watchlist generalizing slot with
  | nil => exact h
  | cons watched watchlist ih => exact ih (h.addWatcher watched hOnline) hOnline

theorem Tidy.signedIn (h : Tidy slot) (socketId userId : String)
    (watchlist : Option (List String)) : Tidy (slot.signedIn socketId userId watchlist) := by
  cases watchlist with
  | none => exact h.bindUser userId socketId
  | some list =>
    exact (h.bindUser userId socketId).addWatchers (isUserOnline_bound slot userId socketId) list

theorem sockets_unbindUser (h : Tidy slot) (userId socketId u : String) (list : List String)
    (hList : (slot.unbindUser userId socketId).2.userIndex.lookup u = some list) : list ≠ [] := by
  rw [unbindUser] at hList
  cases hEntry : slot.userIndex.lookup userId with
  | none =>
    rw [hEntry] at hList
    exact h.sockets u list hList
  | some entry =>
    rw [hEntry] at hList
    dsimp only at hList
    split at hList
    · exact h.sockets u list (lookup_erase_some hList).2
    · rename_i hRest
      rcases lookup_insert_cases hList with ⟨-, rfl⟩ | ⟨-, hList⟩
      · exact fun hNil => hRest (isEmpty_iff.mpr hNil)
      · exact h.sockets u list hList

theorem Tidy.signedOut (h : Tidy slot) (socketId userId : String) :
    Tidy (slot.signedOut socketId userId) := by
  have hOnline := slot.isUserOnline_unbindUser userId socketId
  rw [AppChannels.signedOut]
  split
  · rename_i hLast
    rw [if_pos hLast] at hOnline
    have hSet (u : String) (set : KeySet String)
        (hSet : ((slot.unbindUser userId socketId).2.removeAllWatchesFor userId).watchers.lookup u =
          some set) :
        set.entries ≠ [] ∧ ∃ old, slot.watchers.lookup u = some old ∧ set = old.erase userId := by
      rw [removeAllWatchesFor, hOnline, Function.update_self, if_neg Bool.false_ne_true] at hSet
      dsimp only at hSet
      rw [lookup_filterMapVal, watchers_unbindUser] at hSet
      obtain ⟨old, hOld, hKept⟩ := Option.bind_eq_some_iff.mp hSet
      obtain ⟨hNonempty, hEq⟩ := Option.ite_none_left_eq_some.mp hKept
      cases hEq
      exact ⟨fun hNil => hNonempty (isEmpty_iff.mpr hNil), old, hOld, rfl⟩
    refine ⟨fun u list hList => ?_, fun u set hLookup => ?_⟩
    · rw [(removeAllWatchesFor_same ..).1] at hList
      exact sockets_unbindUser h userId socketId u list hList
    · obtain ⟨hNonempty, old, hOld, rfl⟩ := hSet u set hLookup
      refine ⟨hNonempty, fun watcher hWatcher => ?_⟩
      obtain ⟨hNe, hMem⟩ := AList.mem_erase.mp hWatcher
      rw [isUserOnline_congr (removeAllWatchesFor_same ..).1, hOnline, Function.update_of_ne hNe]
      exact (h.watchers u old hOld).2 watcher hMem
  · rename_i hOthers
    rw [if_neg hOthers] at hOnline
    refine ⟨sockets_unbindUser h userId socketId, fun u set hSet => ?_⟩
    rw [watchers_unbindUser] at hSet
    rw [hOnline]
    exact h.watchers u set hSet

/-! ## What the flags say -/

theorem bindUser_flag_iff (slot : AppChannels) (userId socketId : String) :
    (slot.bindUser userId socketId).1 = true ↔ slot.isUserOnline userId = false ∧
      (slot.bindUser userId socketId).2.isUserOnline userId = true := by
  have hFlag : (slot.bindUser userId socketId).1 = (slot.socketsOf userId).isEmpty := rfl
  rw [hFlag, isUserOnline_eq, Bool.not_eq_false']
  exact ⟨fun hFirst => ⟨hFirst, isUserOnline_bound slot userId socketId⟩, fun h => h.1⟩

theorem Tidy.unbindUser_flag_iff (h : Tidy slot) (userId socketId : String) :
    (slot.unbindUser userId socketId).1 = true ↔ slot.isUserOnline userId = true ∧
      (slot.unbindUser userId socketId).2.isUserOnline userId = false := by
  have hOnline := slot.isUserOnline_unbindUser userId socketId
  cases hFlag : (slot.unbindUser userId socketId).1 with
  | false =>
    rw [hFlag, if_neg Bool.false_ne_true] at hOnline
    rw [hOnline]
    refine ⟨fun hFalse => absurd hFalse Bool.false_ne_true, ?_⟩
    rintro ⟨hTrue, hFalse⟩
    exact absurd (hFalse.symm.trans hTrue) Bool.false_ne_true
  | true =>
    rw [hFlag, if_pos rfl] at hOnline
    rw [hOnline, Function.update_self]
    refine ⟨fun _ => ⟨?_, rfl⟩, fun _ => rfl⟩
    cases hEntry : slot.userIndex.lookup userId with
    | none =>
      rw [unbindUser, hEntry] at hFlag
      cases hFlag
    | some entry =>
      rw [isUserOnline, hEntry]
      cases entry with
      | nil => exact absurd rfl (h.sockets userId [] hEntry)
      | cons => rfl

end AppChannels

namespace Serving

open Transition

variable {prims : Primitives}

structure Signed (σ : ServerState) : Prop where
  listed : ∀ s conn u, σ.connections.lookup s = some conn → conn.userId = some u →
    s ∈ (σ.node.apps conn.app.id).socketsOf u
  tidy : ∀ a, (σ.node.apps a).Tidy

theorem signed_new (nodeId : String) (scaling : Bool) (table : AppTable) :
    Signed (new nodeId scaling table) where
  listed s conn u hConn := by cases hConn
  tidy _ := tidy_empty

section

variable {σ σ' : ServerState} {socketId : String} {conn : Connection}

theorem Signed.of_users (h : Signed σ)
    (hUsers : ∀ a, (σ'.node.apps a).users = (σ.node.apps a).users)
    (hConnections : σ'.connections = σ.connections) : Signed σ' where
  listed s conn u hConn hUser := by
    rw [hConnections] at hConn
    rw [socketsOf_congr (congrArg (fun users => users.2.1) (hUsers _))]
    exact h.listed s conn u hConn hUser
  tidy a := (h.tidy a).of_same (congrArg (fun users => users.2.1) (hUsers a))
    (congrArg (fun users => users.2.2) (hUsers a))

theorem signed_connect (h : Signed σ) (app : Application) : Signed (connect σ app socketId) := by
  have hSlot (a : String) : ((connect σ app socketId).node.apps a).userIndex =
        (σ.node.apps a).userIndex ∧
      ((connect σ app socketId).node.apps a).watchers = (σ.node.apps a).watchers := by
    rw [node_connect, Node.apps_setApp]
    split
    · rename_i ha
      rw [ha]
      exact ⟨((σ.node.apps app.id).registerConnection_spec app socketId).1,
        (σ.node.apps app.id).watchers_registerConnection app socketId⟩
    · exact ⟨rfl, rfl⟩
  refine ⟨fun s conn u hConn hUser => ?_,
    fun a => (h.tidy a).of_same (hSlot a).1 (hSlot a).2⟩
  rw [socketsOf_congr (hSlot _).1]
  rcases lookup_connect hConn with hOld | ⟨-, rfl, -⟩
  · exact h.listed s conn u hOld hUser
  · cases hUser

theorem signed_frame (hRecorded : Recorded σ) (h : Signed σ) (now : Instant) (text : String)
    (hConn : σ.connections.lookup socketId = some conn) :
    Signed ⟨(handleInbound prims σ.node now conn text).1,
      σ.connections.insert socketId (handleInbound prims σ.node now conn text).2⟩ := by
  have hApp := (tracks_handleInbound prims σ.node now conn text).app_eq
  have hUsers := frameUsers_handleInbound prims hRecorded now conn text
  have hSocket := hRecorded.socketId _ _ hConn
  refine ⟨fun s conn' u hConn' hUser => (hUsers.sockets ..).mpr ?_, fun a => ?_⟩
  · rcases lookup_insert_cases hConn' with ⟨hs, rfl⟩ | ⟨-, hConn'⟩
    · rw [hApp, hs]
      cases hBefore : conn.userId with
      | none => exact .inr ⟨rfl, rfl, hUser, hSocket.symm⟩
      | some u' =>
        cases (hUsers.kept u' hBefore).symm.trans hUser
        exact .inl (h.listed socketId conn u hConn hBefore)
    · exact .inl (h.listed s conn' u hConn' hUser)
  · dsimp only
    rcases users_handleInbound prims σ.node now conn text with
      ⟨hWithin, -⟩ | ⟨u₀, watchlist, -, -, hApps⟩
    · exact (h.tidy a).of_same (congrArg (fun users => users.2.1) (hWithin.users_eq a))
        (congrArg (fun users => users.2.2) (hWithin.users_eq a))
    · rw [hApps]
      split
      · exact (h.tidy a).signedIn conn.socketId u₀ watchlist
      · exact h.tidy a

theorem signed_disconnect (hRecorded : Recorded σ) (h : Signed σ) (now : Instant)
    (hConn : σ.connections.lookup socketId = some conn) :
    Signed ⟨cleanupConnection σ.node now conn, σ.connections.erase socketId⟩ := by
  have hSocket := hRecorded.socketId _ _ hConn
  refine ⟨fun s conn' u hConn' hUser => ?_, fun a => ?_⟩
  · obtain ⟨hs, hConn'⟩ := lookup_erase_some hConn'
    refine (mem_socketsOf_cleanupConnection ..).mpr ⟨h.listed s conn' u hConn' hUser, ?_⟩
    rintro ⟨-, -, hOwn⟩
    exact hs (hOwn.trans hSocket)
  · obtain ⟨left, hWithin, hApps⟩ := users_cleanupConnection σ.node now conn
    have hLeft : (left.apps a).Tidy :=
      (h.tidy a).of_same (congrArg (fun users => users.2.1) (hWithin.users_eq a))
        (congrArg (fun users => users.2.2) (hWithin.users_eq a))
    dsimp only
    rw [hApps]
    split
    · cases conn.userId with
      | none => exact hLeft.of_same rfl rfl
      | some u => exact (hLeft.signedOut conn.socketId u).of_same rfl rfl
    · exact hLeft

theorem signed_step (hRecorded : Recorded σ) (h : Signed σ) {action : Action}
    (hStep : step prims σ action = some σ') : Signed σ' :=
  step_of hStep (fun _ app _ _ _ => signed_connect h app)
    (fun now _ text _ hConn => signed_frame hRecorded h now text hConn)
    (fun now _ _ hConn => signed_disconnect hRecorded h now hConn) fun hApart =>
      h.of_users (unbound_step hApart hStep)

end

def SignedInAs (σ : ServerState) (a u s : String) : Prop :=
  ∃ conn, σ.connections.lookup s = some conn ∧ conn.app.id = a ∧ conn.userId = some u

structure UsersExact (σ : ServerState) (a : String) : Prop where
  listed : ∀ u s, s ∈ (σ.node.apps a).socketsOf u ↔ SignedInAs σ a u s
  once : ∀ u, ((σ.node.apps a).socketsOf u).Nodup
  nonempty : ∀ u list, (σ.node.apps a).userIndex.lookup u = some list → list ≠ []
  single : ∀ u u' s, s ∈ (σ.node.apps a).socketsOf u → s ∈ (σ.node.apps a).socketsOf u' → u = u'
  online : ∀ u, (σ.node.apps a).isUserOnline u = true ↔ ∃ s, SignedInAs σ a u s
  watching : ∀ u set, (σ.node.apps a).watchers.lookup u = some set →
    set.entries ≠ [] ∧ ∀ watcher ∈ set, (σ.node.apps a).isUserOnline watcher = true
  first : ∀ u s, ((σ.node.apps a).bindUser u s).1 = true ↔
    (σ.node.apps a).isUserOnline u = false ∧
      ((σ.node.apps a).bindUser u s).2.isUserOnline u = true
  last : ∀ u s, ((σ.node.apps a).unbindUser u s).1 = true ↔
    (σ.node.apps a).isUserOnline u = true ∧
      ((σ.node.apps a).unbindUser u s).2.isUserOnline u = false

/-- In every state a server reaches, the user index and the watch sets are exact. -/
theorem users_exact (prims : Primitives) (nodeId : String) (scaling : Bool) (table : AppTable)
    (run : List Action) :
    Always (step prims) (fun σ => ∀ a, UsersExact σ a) (new nodeId scaling table) run := by
  have hAlways : Always (step prims) (fun σ => (Recorded σ ∧ Indexed σ) ∧ Signed σ)
      (new nodeId scaling table) run :=
    always_of_invariant
      (fun _ _ _ h hStep =>
        ⟨⟨recorded_step h.1.1 hStep, indexed_step h.1.1 h.1.2 hStep⟩,
          signed_step h.1.1 h.2 hStep⟩)
      ⟨⟨recorded_new nodeId scaling table, indexed_new nodeId scaling table⟩,
        signed_new nodeId scaling table⟩ run
  refine hAlways.mono fun σ hσ a => ?_
  obtain ⟨⟨-, hIndexed⟩, hSigned⟩ := hσ
  have hListed (u s : String) : s ∈ (σ.node.apps a).socketsOf u ↔ SignedInAs σ a u s := by
    refine ⟨hIndexed.bound a u s, ?_⟩
    rintro ⟨conn, hConn, rfl, hUser⟩
    exact hSigned.listed s conn u hConn hUser
  exact {
    listed := hListed
    once := hIndexed.once a
    nonempty := (hSigned.tidy a).sockets
    single := fun u u' s hs hs' => by
      obtain ⟨conn, hConn, -, hUser⟩ := hIndexed.bound a u s hs
      obtain ⟨conn', hConn', -, hUser'⟩ := hIndexed.bound a u' s hs'
      rw [hConn] at hConn'
      cases hConn'
      exact Option.some.inj (hUser.symm.trans hUser')
    online := fun u =>
      ((σ.node.apps a).isUserOnline_iff u).trans (exists_congr fun s => hListed u s)
    watching := (hSigned.tidy a).watchers
    first := (σ.node.apps a).bindUser_flag_iff
    last := (hSigned.tidy a).unbindUser_flag_iff }

end Serving

end Zatat
