import Zatat.Channels.Membership
import Zatat.Channels.Users

/-! # The sockets of a channel and the users who are online

What each operation of the channel manager does to the length of every channel, and
what binding and unbinding a socket does to who is online.
-/

namespace Zatat

open Function FiniteMap Channel

namespace AppChannels

variable (slot : AppChannels) (now : Instant) (app : Application) (userId name socketId c : String)

def lenOf (slot : AppChannels) (c : String) : Nat :=
  ((slot.findChannel c).map Channel.len).getD 0

theorem lenOf_setChannel (ch : Channel) (c : String) :
    (slot.setChannel name ch).lenOf c = if c = name then ch.len else slot.lenOf c := by
  rw [lenOf, findChannel_setChannel]
  split <;> rfl

theorem lenOf_removeUnused : (slot.removeUnused now name).lenOf c = slot.lenOf c := by
  rw [lenOf, findChannel_removeUnused]
  split
  · rename_i hc
    rw [hc, lenOf]
    cases slot.findChannel name with
    | none => rfl
    | some ch =>
      rw [Option.filter_some]
      cases hRemove : removable now ch with
      | false => rfl
      | true =>
        rw [removable, Bool.and_eq_true] at hRemove
        exact (Channel.isEmpty_iff_len.mp hRemove.1).symm
  · rfl

theorem len_entryOrNew : (slot.entryOrNew app name).len = slot.lenOf name := by
  rw [entryOrNew, lenOf, findChannel]
  cases slot.channels.lookup name <;> rfl

theorem lenOf_getOrCreateCacheChannel :
    (slot.getOrCreateCacheChannel app name).2.lenOf c = slot.lenOf c := by
  rw [getOrCreateCacheChannel]
  split
  · rw [lenOf_setChannel, len_entryOrNew]
    split
    · rename_i hc
      rw [hc]
    · rfl
  · rfl

theorem lenOf_gcEmptyCacheChannels : (slot.gcEmptyCacheChannels now).lenOf c = slot.lenOf c := by
  rw [lenOf, gcEmptyCacheChannels, findChannel, lookup_retain, lenOf, findChannel]
  cases slot.channels.lookup c with
  | none => rfl
  | some ch =>
    rw [Option.filter_some]
    cases hRemove : ch.kind.isCache && removable now ch with
    | false => rfl
    | true =>
      rw [removable, Bool.and_eq_true, Bool.and_eq_true] at hRemove
      exact (Channel.isEmpty_iff_len.mp hRemove.2.1).symm

theorem lenOf_subscribeWith (presence : Option PresenceMember) (admits : Channel → Bool)
    (c : String) :
    (slot.subscribeWith now app name socketId presence admits).2.lenOf c =
      match (slot.subscribeWith now app name socketId presence admits).1 with
      | some (r, _, _) => if r.wasNew = true ∧ c = name then r.memberCount else slot.lenOf c
      | none => slot.lenOf c := by
  rw [subscribeWith]
  dsimp only
  split
  · dsimp only
    rw [lenOf_setChannel, ← subscribe_memberCount]
    by_cases hNew : socketId ∈ (slot.entryOrNew app name).members
    · rw [subscribe_of_mem hNew]
      simp only [Bool.false_eq_true, false_and, if_false]
      split
      · rename_i hc
        rw [hc]
        exact slot.len_entryOrNew app name
      · rfl
    · rw [(subscribe_wasNew ..).mpr hNew]
      simp
  · dsimp only
    rw [lenOf_removeUnused, lenOf_setChannel, len_entryOrNew]
    split
    · rename_i hc
      rw [hc]
    · rfl

theorem lenOf_unsubscribeWith : (slot.unsubscribeWith now name socketId).2.lenOf c =
      match (slot.unsubscribeWith now name socketId).1 with
      | some (r, _) => if r.wasMember = true ∧ c = name then r.memberCount else slot.lenOf c
      | none => slot.lenOf c := by
  rw [unsubscribeWith]
  cases hLookup : slot.channels.lookup name with
  | none => rfl
  | some ch =>
    dsimp only
    rw [lenOf_removeUnused, lenOf_setChannel, ← unsubscribe_memberCount]
    cases hMember : ch.members.lookup socketId with
    | none =>
      rw [unsubscribe_of_notMem hMember]
      simp only [Bool.false_eq_true, false_and, if_false]
      split
      · rename_i hc
        rw [hc, lenOf, findChannel, hLookup]
        rfl
      · rfl
    | some m =>
      have hIn : socketId ∈ ch.members := mem_iff_lookup.mpr ⟨m, hMember⟩
      rw [(unsubscribe_wasMember ..).mpr hIn]
      simp

theorem userIndex_removeUnused : (slot.removeUnused now name).userIndex = slot.userIndex := by
  rw [removeUnused]
  split
  · split <;> rfl
  · rfl

theorem isUserOnline_congr {slot slot' : AppChannels} (h : slot'.userIndex = slot.userIndex) :
    slot'.isUserOnline = slot.isUserOnline := by
  funext u
  rw [isUserOnline, h, isUserOnline]

theorem isUserOnline_eq (u : String) : slot.isUserOnline u = !(slot.socketsOf u).isEmpty := by
  rw [isUserOnline, socketsOf]
  cases slot.userIndex.lookup u <;> rfl

theorem isUserOnline_bindUser : (slot.bindUser userId socketId).2.isUserOnline =
      if (slot.bindUser userId socketId).1 = true then
        update slot.isUserOnline userId true else slot.isUserOnline := by
  funext u
  rw [isUserOnline_eq, socketsOf_bindUser]
  have hFlag : (slot.bindUser userId socketId).1 = (slot.socketsOf userId).isEmpty := rfl
  rw [hFlag]
  by_cases hu : u = userId
  · subst hu
    rw [if_pos rfl]
    cases hSockets : slot.socketsOf u with
    | nil => simp
    | cons s sockets =>
      have hOnline : slot.isUserOnline u = true := by
        rw [isUserOnline_eq, hSockets]
        rfl
      rw [List.isEmpty_cons, if_neg Bool.false_ne_true, hOnline]
      split <;> rfl
  · rw [if_neg hu, ← isUserOnline_eq]
    split
    · rw [update_of_ne hu]
    · rfl

theorem isUserOnline_unbindUser : (slot.unbindUser userId socketId).2.isUserOnline =
      if (slot.unbindUser userId socketId).1 = true then
        update slot.isUserOnline userId false else slot.isUserOnline := by
  cases hLookup : slot.userIndex.lookup userId with
  | none =>
    have hSame : slot.unbindUser userId socketId = (false, slot) := by rw [unbindUser, hLookup]
    rw [hSame, if_neg Bool.false_ne_true]
  | some entry =>
    have hSockets : slot.socketsOf userId = entry := by
      rw [socketsOf, hLookup]
      rfl
    have hFlag : (slot.unbindUser userId socketId).1 =
        (entry.filter fun s => s ≠ socketId).isEmpty := by
      rw [unbindUser, hLookup]
      dsimp only
      split
      · rename_i hEmpty
        exact hEmpty.symm
      · rename_i hRest
        exact (Bool.not_eq_true _ ▸ hRest).symm
    funext u
    rw [isUserOnline_eq, socketsOf_unbindUser, hFlag]
    by_cases hu : u = userId
    · subst hu
      rw [if_pos rfl, hSockets]
      cases hRest : entry.filter fun s => s ≠ socketId with
      | nil => simp
      | cons s rest =>
        have hOnline : slot.isUserOnline u = true := by
          rw [isUserOnline_eq, hSockets]
          cases entry with
          | nil => cases hRest
          | cons => rfl
        rw [List.isEmpty_cons, if_neg Bool.false_ne_true, hOnline]
        rfl
    · rw [if_neg hu, ← isUserOnline_eq]
      split
      · rw [update_of_ne hu]
      · rfl

end AppChannels

end Zatat
