import Zatat.Channels.Manager

/-! # Connections, signed-in users and who watches whom -/

namespace Zatat

open FiniteMap List

namespace AppChannels

variable (slot : AppChannels) (userId socketId u : String)

/-- `register_connection`; the flag is false when the quota refuses the connection. -/
def registerConnection (slot : AppChannels) (app : Application) (socketId : String) :
    Bool × AppChannels :=
  let connections := slot.connections.insert socketId ()
  let overQuota := match app.maxConnections with
    | some max => decide (connections.entries.length % 2 ^ 32 > max)
    | none => false
  if overQuota then (false, { slot with connections := connections.erase socketId })
  else (true, { slot with connections := connections })

theorem channels_registerConnection (app : Application) (socketId : String) :
    (slot.registerConnection app socketId).2.channels = slot.channels := by
  unfold registerConnection
  dsimp only
  split_ifs <;> rfl

def unregisterConnection (slot : AppChannels) (socketId : String) : AppChannels :=
  { slot with connections := slot.connections.erase socketId }

def socketsOf (slot : AppChannels) (userId : String) : List String :=
  (slot.userIndex.lookup userId).getD []

/-- Binds a socket to a user; the flag says whether it is the user's first here. -/
def bindUser (slot : AppChannels) (userId socketId : String) : Bool × AppChannels :=
  let entry := slot.socketsOf userId
  (entry.isEmpty,
    { slot with
      userIndex := slot.userIndex.insert userId
        (if socketId ∈ entry then entry else entry ++ [socketId]) })

/-- Unbinds a socket from a user; the flag says whether it was the user's last here. -/
def unbindUser (slot : AppChannels) (userId socketId : String) : Bool × AppChannels :=
  match slot.userIndex.lookup userId with
  | none => (false, slot)
  | some entry =>
    let entry := entry.filter fun s => s ≠ socketId
    if entry.isEmpty then (true, { slot with userIndex := slot.userIndex.erase userId })
    else (false, { slot with userIndex := slot.userIndex.insert userId entry })

def addWatcher (slot : AppChannels) (watched watcher : String) : AppChannels :=
  { slot with
    watchers := slot.watchers.insert watched
      (((slot.watchers.lookup watched).getD ∅).insert watcher ()) }

/-- Drops the watcher from every watch set, unless that user is online again. -/
def removeAllWatchesFor (slot : AppChannels) (watcher : String) : AppChannels :=
  if slot.isUserOnline watcher then slot
  else { slot with
    watchers := filterMapVal (fun _ watchers =>
      let watchers := watchers.erase watcher
      if watchers.entries.isEmpty then none else some watchers) slot.watchers }

/-! ## The sockets of a user -/

theorem socketsOf_bindUser : (slot.bindUser userId socketId).2.socketsOf u = if u = userId then
        if socketId ∈ slot.socketsOf userId then slot.socketsOf userId
        else slot.socketsOf userId ++ [socketId] else slot.socketsOf u := by
  rw [socketsOf, bindUser]
  dsimp only
  rw [lookup_insert_if]
  split <;> rfl

theorem socketsOf_unbindUser : (slot.unbindUser userId socketId).2.socketsOf u =
      if u = userId then (slot.socketsOf userId).filter fun s => s ≠ socketId
      else slot.socketsOf u := by
  rw [unbindUser, socketsOf, socketsOf, socketsOf]
  cases hLookup : slot.userIndex.lookup userId with
  | none =>
    dsimp only
    split
    · rename_i hu
      rw [hu, hLookup]
      rfl
    · rfl
  | some entry =>
    dsimp only
    split
    · rename_i hEmpty
      dsimp only
      rw [lookup_erase_if]
      split
      · rw [Option.getD_none, Option.getD_some, isEmpty_iff.mp hEmpty]
      · rfl
    · dsimp only
      rw [lookup_insert_if]
      split <;> rfl

theorem mem_socketsOf_bindUser (s : String) : s ∈ (slot.bindUser userId socketId).2.socketsOf u ↔
      s ∈ slot.socketsOf u ∨ (u = userId ∧ s = socketId) := by
  rw [socketsOf_bindUser]
  split
  · rename_i hu
    subst hu
    split
    · rename_i hMem
      refine ⟨.inl, ?_⟩
      rintro (hs | ⟨-, rfl⟩)
      · exact hs
      · exact hMem
    · rw [mem_append, mem_singleton]
      exact or_congr_right (by simp)
  · rename_i hu
    exact ⟨.inl, fun h => h.resolve_right fun h => hu h.1⟩

theorem nodup_socketsOf_bindUser {slot : AppChannels} {u : String}
    (h : (slot.socketsOf u).Nodup) (userId socketId : String) :
    ((slot.bindUser userId socketId).2.socketsOf u).Nodup := by
  rw [socketsOf_bindUser]
  split
  · rename_i hu
    subst hu
    split
    · exact h
    · rename_i hFresh
      refine nodup_append.mpr ⟨h, nodup_singleton _, ?_⟩
      rintro s hs t ht rfl
      rw [mem_singleton.mp ht] at hs
      exact hFresh hs
  · exact h

theorem nodup_socketsOf_unbindUser {slot : AppChannels} {u : String}
    (h : (slot.socketsOf u).Nodup) (userId socketId : String) :
    ((slot.unbindUser userId socketId).2.socketsOf u).Nodup := by
  rw [socketsOf_unbindUser]
  split
  · rename_i hu
    subst hu
    exact h.filter _
  · exact h

theorem mem_socketsOf_unbindUser (s : String) :
    s ∈ (slot.unbindUser userId socketId).2.socketsOf u ↔
      s ∈ slot.socketsOf u ∧ ¬ (u = userId ∧ s = socketId) := by
  rw [socketsOf_unbindUser]
  split
  · rename_i hu
    subst hu
    rw [mem_filter]
    simp
  · rename_i hu
    exact ⟨fun hs => ⟨hs, fun h => hu h.1⟩, fun hs => hs.1⟩

theorem channels_unbindUser : (slot.unbindUser userId socketId).2.channels = slot.channels := by
  rw [unbindUser]
  split
  · rfl
  · dsimp only
    split <;> rfl

theorem watchers_unbindUser : (slot.unbindUser userId socketId).2.watchers = slot.watchers := by
  rw [unbindUser]
  split
  · rfl
  · dsimp only
    split <;> rfl

end AppChannels

end Zatat
