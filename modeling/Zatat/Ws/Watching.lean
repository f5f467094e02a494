import Zatat.Ws.Watchlists

/-! # Watchers, sign-ins and disconnects

A sign-in binds the socket, sends it the users of its watchlist that are online now and
tells the watchers of the user; the last socket of a user to go tells them again. Every
watcher but the one that signs in or goes still follows its watchlist afterwards.
-/

namespace Zatat

open Function FiniteMap AppChannels List PeerUserSessions EventDispatcher.PeerKnowledge

namespace AppChannels

variable (slot : AppChannels) (socketId userId : String) (watchlist : Option (List String))

theorem mem_watchersOf_addWatchers (watchlist : List String) (userId u watcher : String) :
    watcher ∈ (slot.addWatchers watchlist userId).watchersOf u ↔
      watcher ∈ slot.watchersOf u ∨ (u ∈ watchlist ∧ watcher = userId) := by
  induction watchlist generalizing slot with
  | nil => simp [addWatchers]
  | cons watched watchlist ih =>
    have hAdd : watcher ∈ (slot.addWatcher watched userId).watchersOf u ↔
        watcher ∈ slot.watchersOf u ∨ (u = watched ∧ watcher = userId) := by
      rw [mem_watchersOf, mem_watchersOf, addWatcher]
      dsimp only
      rw [lookup_insert_if]
      split
      · rename_i hu
        rw [hu]
        cases slot.watchers.lookup watched with
        | none => simp [AList.mem_insert, -AList.insert_empty]
        | some set => simp [or_comm]
      · rename_i hu
        simp [hu]
    refine (ih (slot.addWatcher watched userId)).trans ?_
    rw [hAdd, mem_cons, or_and_right, or_assoc]

theorem mem_watchersOf_removeAllWatchesFor {slot : AppChannels} {userId u watcher : String}
    (hNe : watcher ≠ userId) (h : watcher ∈ slot.watchersOf u) :
    watcher ∈ (slot.removeAllWatchesFor userId).watchersOf u := by
  rw [removeAllWatchesFor]
  split
  · exact h
  · obtain ⟨set, hSet, hWatcher⟩ := (mem_watchersOf ..).mp h
    have hLeft : watcher ∈ set.erase userId := AList.mem_erase.mpr ⟨hNe, hWatcher⟩
    rw [mem_watchersOf]
    dsimp only
    rw [lookup_filterMapVal, hSet, Option.bind_some]
    refine ⟨set.erase userId, if_neg fun hEmpty => ?_, hLeft⟩
    obtain ⟨_, hLookup⟩ := mem_iff_lookup.mp hLeft
    rw [entries_eq_nil_iff.mp (isEmpty_iff.mp hEmpty)] at hLookup
    cases hLookup

theorem mem_watchersOf_signedIn (u watcher : String) :
    watcher ∈ (slot.signedIn socketId userId watchlist).watchersOf u ↔
      watcher ∈ slot.watchersOf u ∨ (u ∈ watchlist.getD [] ∧ watcher = userId) := by
  cases watchlist with
  | none => exact ⟨.inl, fun h => h.resolve_right fun h => nomatch h.1⟩
  | some list => exact mem_watchersOf_addWatchers ..

theorem isUserOnline_signedIn : (slot.signedIn socketId userId watchlist).isUserOnline =
      update slot.isUserOnline userId true := by
  funext u
  rw [isUserOnline_eq, socketsOf_signedIn, socketsOf_bindUser, update_apply]
  split
  · split
    · rename_i hMem
      rw [isEmpty_eq_false_iff.mpr (ne_nil_of_mem hMem)]
      rfl
    · simp
  · exact (isUserOnline_eq ..).symm

theorem watchers_registerConnection (app : Application) (socketId : String) :
    (slot.registerConnection app socketId).2.watchers = slot.watchers := by
  rw [registerConnection]
  split_ifs <;> rfl

theorem eq_of_last {slot : AppChannels} {userId socketId : String}
    (h : (slot.unbindUser userId socketId).1 = true) :
    ∀ t ∈ slot.socketsOf userId, t = socketId := by
  have hOffline := congrFun (slot.isUserOnline_unbindUser userId socketId) userId
  rw [if_pos h, update_self, isUserOnline_eq, socketsOf_unbindUser, if_pos rfl,
    Bool.not_eq_false', List.isEmpty_iff, filter_eq_nil_iff] at hOffline
  intro t ht
  by_contra hNe
  exact hOffline t ht (decide_eq_true hNe)

end AppChannels

namespace Watcher

variable {app : Application} {node : Node} {s : String} {w : Watcher} {slot : AppChannels}
  {socketId u : String} {list : List String}

theorem Follows.setApp (h : w.Follows app node s) (hAttends : w.Attends slot s)
    (hOnline : slot.isUserOnline = (node.apps app.id).isUserOnline) :
    w.Follows app (node.setApp app.id slot) s := by
  have hSlot : (node.setApp app.id slot).apps app.id = slot := update_self ..
  refine ⟨hSlot.symm ▸ hAttends, h.informed.since, fun u hu => (h.informed.told u hu).trans ?_⟩
  rw [Node.onlineSomewhere, Node.onlineSomewhere, hSlot, hOnline]
  rfl

theorem Attends.registerConnection (h : w.Attends slot s) (hOther : s ≠ socketId) :
    w.Attends (slot.registerConnection app socketId).2 s := by
  obtain ⟨hIndex, hKept, -⟩ := slot.registerConnection_spec app socketId
  refine ⟨hKept s hOther h.connected, fun user hUser => ?_, fun u hu => ?_⟩
  · rw [socketsOf_congr hIndex]
    exact h.signedIn user hUser
  · rw [AppChannels.watchersOf, watchers_registerConnection]
    exact h.watches u hu

theorem Follows.registerConnection (h : w.Follows app node s) (hOther : s ≠ socketId) :
    w.Follows app (node.setApp app.id
      ((node.apps app.id).registerConnection app socketId).2) s := by
  obtain ⟨hIndex, -⟩ := (node.apps app.id).registerConnection_spec app socketId
  exact h.setApp (h.attends.registerConnection hOther) (isUserOnline_congr hIndex)

theorem Follows.publishUserOnline (h : w.Follows app node s) (userId : String) :
    w.Follows app (node.publishUserOnline app userId) s :=
  h.congr rfl rfl (congrArg peerUserSessions (EventDispatcher.known_spawnPublish ..))

theorem Follows.publishUserOffline (h : w.Follows app node s) (userId : String) :
    w.Follows app (node.publishUserOffline app userId) s :=
  h.congr rfl rfl (congrArg peerUserSessions (EventDispatcher.known_spawnPublish ..))

theorem onlineSomewhere_eq {now : Instant} (h : Vouched node now app.id u none) :
    node.onlineSomewhere app.id u = node.onlineNow now app u := by
  rw [Node.onlineSomewhere, Node.onlineNow, Bool.eq_iff_iff, Bool.or_eq_true, Bool.or_eq_true]
  constructor
  · rintro (hHere | hListed)
    · exact .inl hHere
    · exact h hListed
  · exact fun hOnline => hOnline.imp_right listed_of_present

theorem Attends.slotSignedIn (h : w.Attends slot s) (socketId userId : String)
    (watchlist : Option (List String)) : w.Attends (slot.signedIn socketId userId watchlist) s where
  connected := by
    rw [connections_signedIn]
    exact h.connected
  signedIn user hUser := by
    rw [socketsOf_signedIn]
    exact (mem_socketsOf_bindUser ..).mpr (.inl (h.signedIn user hUser))
  watches u hu := by
    obtain ⟨user, hUser, hWatches⟩ := h.watches u hu
    exact ⟨user, hUser, (mem_watchersOf_signedIn ..).mpr (.inl hWatches)⟩

theorem attends_slotSignedIn (hConnected : socketId ∈ slot.connections) (userId : String)
    (watchlist : Option (List String)) (since : Nat) :
    Attends (slot.signedIn socketId userId watchlist) socketId
      ⟨some userId, watchlist.getD [], since⟩ where
  connected := by
    rw [connections_signedIn]
    exact hConnected
  signedIn user hUser := by
    rw [socketsOf_signedIn, ← Option.some.inj hUser]
    exact (mem_socketsOf_bindUser ..).mpr (.inr ⟨rfl, rfl⟩)
  watches u hu := ⟨userId, rfl, (mem_watchersOf_signedIn ..).mpr (.inr ⟨hu, rfl⟩)⟩

theorem tells_filter (hu : u ∈ list) (p : String → Bool) :
    ((Frame.watchlistEvents "online" (list.filter p)).tells u).getD false = p u := by
  rw [Frame.tells]
  cases hp : p u with
  | true => rw [if_pos (mem_filter.mpr ⟨hu, hp⟩), Option.getD_some, decide_eq_true rfl]
  | false => rw [if_neg fun hMem => Bool.eq_false_iff.mp hp (mem_filter.mp hMem).2,
      Option.getD_none]

theorem toldSince_watch (node : Node) (now : Instant) (app : Application) (socketId userId : String)
    (hu : u ∈ list) :
    (node.watch now app socketId userId list).toldSince app.id socketId node.sent.length u =
      (node.watch now app socketId userId list).onlineNow now app u := by
  refine (Node.toldSince_sendAll (node.setApp app.id ((node.apps app.id).addWatchers list userId))
    (Nat.le_refl node.sent.length) app.id [socketId] _ app.id socketId u).trans ?_
  have hNothing : (node.setApp app.id ((node.apps app.id).addWatchers list userId)).toldSince
      app.id socketId node.sent.length u = false := by
    have hNew : node.sent.drop node.sent.length = [] := drop_length
    exact congrArg (fun sent => lastTold (framesTo sent app.id socketId) u) hNew
  rw [if_pos ⟨rfl, mem_singleton_self _⟩, hNothing]
  exact tells_filter hu _

/-- A sign-in up to the event about the user: the socket is bound and its list is sent. -/
def listed (node : Node) (now : Instant) (app : Application) (socketId userId : String)
    (watchlist : Option (List String)) : Node :=
  let node := node.setApp app.id ((node.apps app.id).bindUser userId socketId).2
  match watchlist with
  | none => node
  | some list => node.watch now app socketId userId list

section

variable {now : Instant} {socketId userId : String} {watchlist : Option (List String)}

theorem apps_listed : (listed node now app socketId userId watchlist).apps app.id =
    (node.apps app.id).signedIn socketId userId watchlist := by
  cases watchlist with
  | none => exact update_self ..
  | some list =>
    exact (update_self ..).trans
      (congrArg (fun slot : AppChannels => slot.addWatchers list userId) (update_self ..))

theorem onlineSomewhere_listed :
    (listed node now app socketId userId watchlist).onlineSomewhere app.id =
      update (node.onlineSomewhere app.id) userId true := by
  have hSessions : (listed node now app socketId userId watchlist).dispatcher =
      node.dispatcher := by
    cases watchlist <;> rfl
  funext u
  rw [Node.onlineSomewhere, apps_listed, isUserOnline_signedIn, hSessions,
    update_apply, update_apply]
  split
  · exact Bool.true_or _
  · rfl

theorem Follows.of_listed (online : String → Bool)
    (hInformed : w.Informed (listed node now app socketId userId watchlist) app.id s online)
    (hAttends : w.Attends ((node.apps app.id).signedIn socketId userId watchlist) s)
    (hKnown : node.onlineNow now app userId = true → online userId = true)
    (hTruth : update (node.onlineSomewhere app.id) userId true = update online userId true) :
    w.Follows app (node.signIn now app socketId userId watchlist) s := by
  have hTold := Follows.announce (listed node now app socketId userId watchlist) online hInformed
    (apps_listed.symm ▸ hAttends) userId "online" (node.onlineNow now app userId) true hKnown
    (fun _ => rfl) (onlineSomewhere_listed.trans hTruth)
  have hSignIn : node.signIn now app socketId userId watchlist =
      if ((node.apps app.id).bindUser userId socketId).1 then
        (if node.onlineNow now app userId then listed node now app socketId userId watchlist
          else (listed node now app socketId userId watchlist).emitLocalWatchlistEvent app.id
            userId "online").publishUserOnline app userId
      else if node.onlineNow now app userId then listed node now app socketId userId watchlist
        else (listed node now app socketId userId watchlist).emitLocalWatchlistEvent app.id
          userId "online" := rfl
  rw [hSignIn]
  split
  · exact hTold.publishUserOnline userId
  · exact hTold

theorem Follows.signIn (h : w.Follows app node s) (hOther : s ≠ socketId) :
    w.Follows app (node.signIn now app socketId userId watchlist) s := by
  refine Follows.of_listed (node.onlineSomewhere app.id) ?_
    (h.attends.slotSignedIn socketId userId watchlist) ?_ rfl
  · cases watchlist with
    | none => exact ⟨h.informed.since, h.informed.told⟩
    | some list =>
      refine ⟨h.informed.since.trans (length_append ▸ Nat.le_add_right ..), fun u hu => ?_⟩
      refine (Node.toldSince_sendAll _ h.informed.since app.id [socketId] _ app.id s u).trans ?_
      rw [if_neg fun hTo => hOther (mem_singleton.mp hTo.2)]
      exact h.informed.told u hu
  · intro hOnline
    rw [Node.onlineNow, Bool.or_eq_true] at hOnline
    rw [Node.onlineSomewhere, Bool.or_eq_true]
    exact hOnline.imp_right listed_of_present

theorem follows_signIn (hConnected : socketId ∈ (node.apps app.id).connections)
    (hVouched : ∀ u ∈ watchlist.getD [], u ≠ userId → Vouched node now app.id u none) :
    Follows app (node.signIn now app socketId userId watchlist) socketId
      ⟨some userId, watchlist.getD [], node.sent.length⟩ := by
  refine Follows.of_listed (update (node.onlineSomewhere app.id) userId true)
    ?_ (attends_slotSignedIn hConnected userId watchlist _) (fun _ => update_self ..)
    (update_idem ..).symm
  cases watchlist with
  | none => exact ⟨Nat.le_refl _, fun u hu => nomatch hu⟩
  | some list =>
    refine ⟨length_append ▸ Nat.le_add_right .., fun u (hu : u ∈ list) => ?_⟩
    have hSlot := @apps_listed app node now socketId userId (some list)
    rw [listed] at hSlot
    refine (toldSince_watch _ now app socketId userId hu).trans ?_
    rw [Node.onlineNow, hSlot, isUserOnline_signedIn, update_apply, update_apply]
    split
    · exact Bool.true_or _
    · rename_i hNe
      exact (onlineSomewhere_eq (hVouched u hu hNe)).symm

end


variable {slot : AppChannels} {socketId : String} {now : Instant}

theorem Attends.unbindUser (h : w.Attends slot s) (hOther : s ≠ socketId) (userId : String) :
    w.Attends (slot.unbindUser userId socketId).2 s where
  connected := by
    rw [connections_unbindUser]
    exact h.connected
  signedIn user hUser := (mem_socketsOf_unbindUser ..).mpr
    ⟨h.signedIn user hUser, fun hEq => hOther hEq.2⟩
  watches u hu := by
    rw [AppChannels.watchersOf, watchers_unbindUser]
    exact h.watches u hu

theorem Attends.removeAllWatchesFor (h : w.Attends slot s) (userId : String) :
    w.Attends (slot.removeAllWatchesFor userId) s := by
  obtain ⟨hIndex, hConnections⟩ := slot.removeAllWatchesFor_same userId
  refine ⟨hConnections ▸ h.connected, fun user hUser => ?_, fun u hu => ?_⟩
  · rw [socketsOf_congr hIndex]
    exact h.signedIn user hUser
  · obtain ⟨user, hUser, hWatches⟩ := h.watches u hu
    refine ⟨user, hUser, ?_⟩
    by_cases hSame : user = userId
    · have hOnline : slot.isUserOnline userId = true := by
        rw [isUserOnline_eq, ← hSame,
          isEmpty_eq_false_iff.mpr (ne_nil_of_mem (h.signedIn user hUser))]
        rfl
      rw [AppChannels.removeAllWatchesFor, if_pos hOnline]
      exact hWatches
    · exact mem_watchersOf_removeAllWatchesFor hSame hWatches

theorem Attends.unregisterConnection (h : w.Attends slot s) (hOther : s ≠ socketId) :
    w.Attends (slot.unregisterConnection socketId) s :=
  ⟨AList.mem_erase.mpr ⟨hOther, h.connected⟩, h.signedIn, h.watches⟩

/-- Without a further socket of the user here, the user is listed by a peer that counts
if it is listed at all. -/
def LeaverVouched (node : Node) (now : Instant) (appId socketId userId : String) : Prop :=
  (∀ t ∈ (node.apps appId).socketsOf userId, t = socketId) →
    node.dispatcher.peerUserSessions.listedExcluding appId userId none = true →
      node.dispatcher.peerUserSessions.isPresentExcluding now appId userId none = true

instance decidableLeaverVouched (node : Node) (now : Instant) (appId socketId userId : String) :
    Decidable (LeaverVouched node now appId socketId userId) :=
  inferInstanceAs (Decidable (_ → _ → _))

theorem Follows.signOut (h : w.Follows app node s) {userId : String} (hOther : s ≠ socketId)
    (hVouched : LeaverVouched node now app.id socketId userId) :
    w.Follows app (node.signOut now app socketId userId) s := by
  let left := node.setApp app.id ((node.apps app.id).unbindUser userId socketId).2
  have hSlot : left.apps app.id = ((node.apps app.id).unbindUser userId socketId).2 :=
    update_self ..
  have hAttends := h.attends.unbindUser hOther userId
  have hOnline := (node.apps app.id).isUserOnline_unbindUser userId socketId
  rw [Node.signOut]
  dsimp only
  split
  · rename_i hLast
    rw [if_pos hLast] at hOnline
    have hTold : w.Follows app (if node.dispatcher.peerUserSessions.isPresentExcluding now app.id
        userId none then left else left.emitLocalWatchlistEvent app.id userId "offline") s := by
      refine Follows.announce left (node.onlineSomewhere app.id)
        ⟨h.informed.since, h.informed.told⟩ (hSlot.symm ▸ hAttends) userId "offline" _
        (node.dispatcher.peerUserSessions.listedExcluding app.id userId none) ?_ ?_ ?_
      · intro hPresent
        rw [Node.onlineSomewhere, listed_of_present hPresent, Bool.or_true]
      · intro hGone
        refine Eq.symm (Bool.eq_false_iff.mpr fun hListed => Bool.eq_false_iff.mp hGone ?_)
        exact hVouched (eq_of_last hLast) hListed
      · funext u
        rw [Node.onlineSomewhere, hSlot, hOnline, update_apply, update_apply]
        split
        · rename_i hu
          rw [hu, Bool.false_or]
          rfl
        · rfl
    refine (hTold.publishUserOffline userId).setApp
      ((hTold.publishUserOffline userId).attends.removeAllWatchesFor userId) ?_
    funext u
    rw [isUserOnline_eq, isUserOnline_eq, socketsOf_congr (removeAllWatchesFor_same ..).1]
    rfl
  · rename_i hMore
    rw [if_neg hMore] at hOnline
    exact h.setApp hAttends hOnline

theorem Follows.cleanupConnection (h : w.Follows app node s) {conn : Connection}
    (hOther : s ≠ conn.socketId) (hConn : conn.app = app) (hLeft : conn.subscriptions = ∅)
    (hVouched : ∀ userId, conn.userId = some userId →
      LeaverVouched node now app.id conn.socketId userId) :
    w.Follows app (Inbound.cleanupConnection node now conn) s := by
  have hUnregister {node : Node} (h : w.Follows app node s) : w.Follows app
      (node.setApp app.id ((node.apps app.id).unregisterConnection conn.socketId)) s :=
    h.setApp (h.attends.unregisterConnection hOther) rfl
  have hWalk (f : Node → String → Node) : conn.subscriptions.keys.foldl f node = node := by
    rw [hLeft]
    rfl
  rw [Inbound.cleanupConnection, hWalk, hConn]
  cases hUser : conn.userId with
  | none => exact hUnregister h
  | some userId => exact hUnregister (h.signOut hOther (hVouched userId hUser))

end Watcher

end Zatat
