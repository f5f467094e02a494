import Mathlib.Tactic.Tauto
import Zatat.Channels.Manager
import Zatat.Channels.Refcount

/-! # Membership through the channel manager

Creating a channel, or removing one that nobody uses, changes nobody's
membership. What a join or a leave does is said by `memberOf`, the membership of
one socket, whether or not the channel is stored.
-/

namespace Zatat

open FiniteMap Option

namespace Channel

theorem claimCacheMissNotification_same (ch : Channel) (now : Instant) :
    (ch.claimCacheMissNotification now).2.members = ch.members ∧
      (ch.claimCacheMissNotification now).2.label = ch.label ∧
      (ch.claimCacheMissNotification now).2.userRefcounts = ch.userRefcounts := by
  rw [claimCacheMissNotification]
  split
  · split <;> exact ⟨rfl, rfl, rfl⟩
  · exact ⟨rfl, rfl, rfl⟩

theorem Exact.claimCacheMissNotification {ch : Channel} (h : ch.Exact) (now : Instant) :
    (ch.claimCacheMissNotification now).2.Exact := by
  rw [Channel.claimCacheMissNotification]
  split
  · split
    · exact h
    · exact ⟨⟨h.kind, h.refs, h.positive⟩, h.present⟩
  · exact ⟨⟨h.kind, h.refs, h.positive⟩, h.present⟩

theorem lookup_of_isEmpty {ch : Channel} (h : ch.isEmpty = true) (s : String) :
    ch.members.lookup s = none :=
  entries_eq_nil_iff.mp (List.isEmpty_iff.mp h) s

theorem lookup_subscribe (ch : Channel) (s : String) (presence : Option PresenceMember)
    (t : String) : (ch.subscribe s presence).2.members.lookup t =
      if t = s then some ((ch.members.lookup s).getD ⟨presence⟩) else ch.members.lookup t := by
  by_cases hMem : s ∈ ch.members
  · obtain ⟨m, hLookup⟩ := mem_iff_lookup.mp hMem
    rw [subscribe_of_mem hMem, hLookup, getD_some]
    split
    · rename_i hEq
      rw [hEq, hLookup]
    · rfl
  · rw [subscribe_members hMem, lookup_insert_if, AList.lookup_eq_none.mpr hMem, getD_none]

/-! ## What lasts -/

/-- A property of a channel and the name it is stored under that a new channel has and
that joining, leaving and claiming a cache miss keep. -/
structure Lasting (P : String → Channel → Prop) : Prop where
  new : ∀ name cacheTtl, P name (withCacheTtl name cacheTtl)
  subscribe : ∀ {name ch} (s : String) {presence : Option PresenceMember}, P name ch →
    presence.isSome = (ChannelKind.fromName name).isPresence → P name (ch.subscribe s presence).2
  unsubscribe : ∀ {name ch} (s : String), P name ch → P name (ch.unsubscribe s).2
  claimCacheMissNotification : ∀ {name ch} (now : Instant), P name ch →
    P name (ch.claimCacheMissNotification now).2

/-- The counts are exact, and the kind is the one the name stands for. -/
def Regular (name : String) (ch : Channel) : Prop :=
  ch.Exact ∧ ch.kind = ChannelKind.fromName name

theorem lasting_regular : Lasting Regular where
  new name cacheTtl := ⟨withCacheTtl_exact name cacheTtl, rfl⟩
  subscribe s _ h hPresence :=
    ⟨h.1.subscribe s (by rw [hPresence, h.2]), (subscribe_kind ..).trans h.2⟩
  unsubscribe s h := ⟨h.1.unsubscribe s, (unsubscribe_kind ..).trans h.2⟩
  claimCacheMissNotification {_ ch} now h :=
    ⟨h.1.claimCacheMissNotification now,
      (congrArg Prod.snd (ch.claimCacheMissNotification_same now).2.1).trans h.2⟩

end Channel

namespace AppChannels

def memberOf (slot : AppChannels) (c s : String) : Option Member :=
  (slot.findChannel c).bind fun ch => ch.members.lookup s

def HasUser (slot : AppChannels) (c u : String) : Prop :=
  ∃ s m, slot.memberOf c s = some m ∧ m.user = some u

structure WellFormed (slot : AppChannels) : Prop where
  exact : ∀ c ch, slot.findChannel c = some ch → ch.Exact
  kind : ∀ c ch, slot.findChannel c = some ch → ch.kind = ChannelKind.fromName c

variable {slot : AppChannels} {c : String} {ch : Channel}

theorem memberOf_of_find (h : slot.findChannel c = some ch) (s : String) :
    slot.memberOf c s = ch.members.lookup s := by
  rw [memberOf, h, bind_some]

theorem hasUser_of_find (h : slot.findChannel c = some ch) (u : String) :
    slot.HasUser c u ↔ ch.HasMember u := by
  simp only [HasUser, memberOf_of_find h, Channel.HasMember]

theorem not_hasUser_of_none (h : slot.findChannel c = none) (u : String) : ¬ slot.HasUser c u := by
  rintro ⟨s, m, hMember, -⟩
  rw [memberOf, h] at hMember
  cases hMember

/-! ## One channel replaced or removed -/

theorem findChannel_setChannel (slot : AppChannels) (name : String) (ch : Channel) (c : String) :
    (slot.setChannel name ch).findChannel c = if c = name then some ch else slot.findChannel c :=
  lookup_insert_if ..

theorem findChannel_removeUnused (slot : AppChannels) (now : Instant) (name c : String) :
    (slot.removeUnused now name).findChannel c =
      if c = name then (slot.findChannel name).filter fun ch => !removable now ch
      else slot.findChannel c := by
  rw [removeUnused, findChannel, findChannel]
  cases hLookup : slot.channels.lookup name with
  | none =>
    dsimp only
    split
    · rename_i hc
      rw [hc, hLookup]
      rfl
    · rfl
  | some ch =>
    dsimp only
    cases hRemove : removable now ch with
    | false =>
      simp only [Bool.false_eq_true, if_false, filter_some, hRemove, Bool.not_false, if_true]
      split
      · rename_i hc
        rw [hc, hLookup]
      · rfl
    | true =>
      simp only [if_true, lookup_erase_if, filter_some, hRemove, Bool.not_true,
        Bool.false_eq_true, if_false]
      rfl

theorem memberOf_setChannel (slot : AppChannels) (name : String) (ch : Channel) (c s : String) :
    (slot.setChannel name ch).memberOf c s =
      if c = name then ch.members.lookup s else slot.memberOf c s := by
  rw [memberOf, findChannel_setChannel]
  split <;> rfl

theorem memberOf_removeUnused (slot : AppChannels) (now : Instant) (name c s : String) :
    (slot.removeUnused now name).memberOf c s = slot.memberOf c s := by
  rw [memberOf, findChannel_removeUnused]
  split
  · rename_i hc
    rw [hc, memberOf]
    cases slot.findChannel name with
    | none => rfl
    | some ch =>
      rw [filter_some, bind_some]
      cases hRemove : removable now ch with
      | false => rfl
      | true =>
        rw [removable, Bool.and_eq_true] at hRemove
        exact (Channel.lookup_of_isEmpty hRemove.1 s).symm
  · rfl

theorem isEmpty_of_removed {now : Instant} {name : String}
    (h : ((slot.setChannel name ch).removeUnused now name).findChannel name = none) :
    ch.isEmpty = true := by
  rw [findChannel_removeUnused, if_pos rfl, findChannel_setChannel, if_pos rfl, filter_some] at h
  cases hRemove : removable now ch with
  | false =>
    rw [hRemove] at h
    cases h
  | true =>
    rw [removable, Bool.and_eq_true] at hRemove
    exact hRemove.1

/-! ## What holds of the stored channels -/

def Stores (P : String → Channel → Prop) (slot : AppChannels) : Prop :=
  ∀ c ch, slot.findChannel c = some ch → P c ch

section

variable {P : String → Channel → Prop} {slot : AppChannels} {name : String} {ch : Channel}

theorem Stores.setChannel (h : slot.Stores P) (hCh : P name ch) :
    (slot.setChannel name ch).Stores P := by
  intro c ch' hFind
  rw [findChannel_setChannel] at hFind
  split at hFind
  · rename_i hc
    cases hFind
    exact hc ▸ hCh
  · exact h c ch' hFind

theorem Stores.removeUnused (h : slot.Stores P) (now : Instant) (name : String) :
    (slot.removeUnused now name).Stores P := by
  intro c ch hFind
  rw [findChannel_removeUnused] at hFind
  split at hFind
  · rename_i hc
    rw [hc]
    exact h name ch (filter_eq_some_iff.mp hFind).1
  · exact h c ch hFind

theorem Stores.entryOrNew (hP : Channel.Lasting P) (h : slot.Stores P) (app : Application)
    (name : String) : P name (slot.entryOrNew app name) := by
  rw [AppChannels.entryOrNew]
  cases hFind : slot.channels.lookup name with
  | none => exact hP.new ..
  | some ch => exact h name ch hFind

theorem wellFormed_iff_stores : slot.WellFormed ↔ slot.Stores Channel.Regular :=
  ⟨fun h c ch hFind => ⟨h.exact c ch hFind, h.kind c ch hFind⟩,
    fun h => ⟨fun c ch hFind => (h c ch hFind).1, fun c ch hFind => (h c ch hFind).2⟩⟩

theorem WellFormed.setChannel (h : slot.WellFormed) (hExact : ch.Exact)
    (hKind : ch.kind = ChannelKind.fromName name) : (slot.setChannel name ch).WellFormed :=
  wellFormed_iff_stores.mpr ((wellFormed_iff_stores.mp h).setChannel ⟨hExact, hKind⟩)

theorem WellFormed.entryOrNew (h : slot.WellFormed) (app : Application) (name : String) :
    (slot.entryOrNew app name).Exact ∧
      (slot.entryOrNew app name).kind = ChannelKind.fromName name :=
  (wellFormed_iff_stores.mp h).entryOrNew Channel.lasting_regular app name

end

/-! ## The channel a join finds or creates -/

theorem lookup_entryOrNew (slot : AppChannels) (app : Application) (name s : String) :
    (slot.entryOrNew app name).members.lookup s = slot.memberOf name s := by
  rw [entryOrNew, memberOf, findChannel]
  cases slot.channels.lookup name <;> rfl

theorem hasMember_entryOrNew (slot : AppChannels) (app : Application) (name u : String) :
    (slot.entryOrNew app name).HasMember u ↔ slot.HasUser name u := by
  simp only [Channel.HasMember, lookup_entryOrNew, HasUser]

end AppChannels

end Zatat
