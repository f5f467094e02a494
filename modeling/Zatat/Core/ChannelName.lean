import Mathlib.Data.String.Basic
import Mathlib.Tactic.SplitIfs

/-! # Channel names and the kind a name stands for -/

namespace Zatat

inductive ChannelKind where
  | Public
  | Private
  | Presence
  | Cache
  | PrivateCache
  | PresenceCache
  | PrivateEncrypted
  | PrivateEncryptedCache
deriving DecidableEq, Repr

def startsWith (name start : String) : Bool := start.toList.isPrefixOf name.toList

namespace ChannelKind

def fromName (name : String) : ChannelKind :=
  if startsWith name "private-encrypted-cache-" then PrivateEncryptedCache
  else if startsWith name "private-encrypted-" then PrivateEncrypted
  else if startsWith name "presence-cache-" then PresenceCache
  else if startsWith name "private-cache-" then PrivateCache
  else if startsWith name "cache-" then Cache
  else if startsWith name "presence-" then Presence
  else if startsWith name "private-" then Private
  else Public

def isPrivate : ChannelKind → Bool
  | Private | Presence | PrivateCache | PresenceCache | PrivateEncrypted
  | PrivateEncryptedCache => true
  | _ => false

def isPresence : ChannelKind → Bool
  | Presence | PresenceCache => true
  | _ => false

def isCache : ChannelKind → Bool
  | Cache | PrivateCache | PresenceCache | PrivateEncryptedCache => true
  | _ => false

def isEncrypted : ChannelKind → Bool
  | PrivateEncrypted | PrivateEncryptedCache => true
  | _ => false

/-! ## Kinds and the beginnings of names -/

theorem startsWith_trans {name start start' : String} (h : startsWith start start' = true)
    (hName : startsWith name start = true) : startsWith name start' = true :=
  List.isPrefixOf_iff_prefix.mpr
    ((List.isPrefixOf_iff_prefix.mp h).trans (List.isPrefixOf_iff_prefix.mp hName))

theorem startsWith_disjoint {start start' : String} (h : startsWith start start' = false)
    (h' : startsWith start' start = false) {name : String}
    (hName : startsWith name start = true) : startsWith name start' = false := by
  rw [← Bool.not_eq_true]
  intro hName'
  rcases List.prefix_or_prefix_of_prefix (List.isPrefixOf_iff_prefix.mp hName)
    (List.isPrefixOf_iff_prefix.mp hName') with hPre | hPre
  · exact Bool.false_ne_true (h'.symm.trans (List.isPrefixOf_iff_prefix.mpr hPre))
  · exact Bool.false_ne_true (h.symm.trans (List.isPrefixOf_iff_prefix.mpr hPre))

theorem isPrivate_fromName (name : String) :
    (fromName name).isPrivate = (startsWith name "private-" || startsWith name "presence-") := by
  rw [fromName]
  split_ifs with hEncryptedCache hEncrypted hPresenceCache hPrivateCache hCache hPresence hPrivate
  · rw [startsWith_trans (by decide) hEncryptedCache]
    rfl
  · rw [startsWith_trans (by decide) hEncrypted]
    rfl
  · have hPresence : startsWith name "presence-" = true :=
      startsWith_trans (by decide) hPresenceCache
    rw [hPresence, Bool.or_true]
    rfl
  · rw [startsWith_trans (by decide) hPrivateCache]
    rfl
  · rw [startsWith_disjoint (by decide) (by decide) hCache,
      startsWith_disjoint (by decide) (by decide) hCache]
    rfl
  · rw [hPresence, Bool.or_true]
    rfl
  · rw [hPrivate]
    rfl
  · rw [Bool.not_eq_true] at hPresence hPrivate
    rw [hPresence, hPrivate]
    rfl

theorem isPresence_fromName (name : String) :
    (fromName name).isPresence = startsWith name "presence-" := by
  rw [fromName]
  split_ifs with hEncryptedCache hEncrypted hPresenceCache hPrivateCache hCache hPresence hPrivate
  · rw [startsWith_disjoint (by decide) (by decide) hEncryptedCache]
    rfl
  · rw [startsWith_disjoint (by decide) (by decide) hEncrypted]
    rfl
  · rw [startsWith_trans (by decide) hPresenceCache]
    rfl
  · rw [startsWith_disjoint (by decide) (by decide) hPrivateCache]
    rfl
  · rw [startsWith_disjoint (by decide) (by decide) hCache]
    rfl
  · rw [hPresence]
    rfl
  · rw [startsWith_disjoint (by decide) (by decide) hPrivate]
    rfl
  · rw [Bool.not_eq_true] at hPresence
    rw [hPresence]
    rfl

theorem isEncrypted_fromName (name : String) :
    (fromName name).isEncrypted = startsWith name "private-encrypted-" := by
  rw [fromName]
  split_ifs with hEncryptedCache hEncrypted hPresenceCache hPrivateCache hCache hPresence hPrivate
  · rw [startsWith_trans (by decide) hEncryptedCache]
    rfl
  · rw [hEncrypted]
    rfl
  all_goals
    rw [Bool.not_eq_true] at hEncrypted
    rw [hEncrypted]
    rfl

theorem fromName_user {name : String} (h : startsWith name "#server-to-user-" = true) :
    fromName name = Public := by
  have hOther (start : String) (hStart : startsWith "#server-to-user-" start = false)
      (hStart' : startsWith start "#server-to-user-" = false) :
      ¬ startsWith name start = true := by
    rw [startsWith_disjoint hStart hStart' h]
    exact Bool.false_ne_true
  rw [fromName, if_neg (hOther _ (by decide) (by decide)),
    if_neg (hOther _ (by decide) (by decide)),
    if_neg (hOther _ (by decide) (by decide)), if_neg (hOther _ (by decide) (by decide)),
    if_neg (hOther _ (by decide) (by decide)), if_neg (hOther _ (by decide) (by decide)),
    if_neg (hOther _ (by decide) (by decide))]

example : fromName "presence-cache-room" = PresenceCache := by decide

end ChannelKind

def maxChannelNameLen : Nat := 164

def maxEventNameLen : Nat := 200

/-- The source tests bytes; those of a character outside ASCII fail all the
alternatives, as the character does here. -/
def isChannelNameChar (c : Char) : Bool :=
  (decide ('A' ≤ c) && decide (c ≤ 'Z')) || (decide ('a' ≤ c) && decide (c ≤ 'z')) ||
    (decide ('0' ≤ c) && decide (c ≤ '9')) || ['_', '-', '=', '@', ',', '.', ';'].contains c

def isValidChannelName (name : String) : Bool :=
  if name.isEmpty || decide (name.utf8ByteSize > maxChannelNameLen) then false
  else name.toList.all isChannelNameChar

theorem isChannelNameChar_of_mem {name : String} (h : isValidChannelName name = true) {c : Char}
    (hc : c ∈ name.toList) : isChannelNameChar c = true := by
  rw [isValidChannelName] at h
  split at h
  · cases h
  · exact List.all_eq_true.mp h c hc

theorem ne_empty_of_isValidChannelName {name : String} (h : isValidChannelName name = true) :
    name.toList ≠ [] := by
  intro hNil
  rw [String.toList_eq_nil_iff.mp hNil] at h
  cases h

example : isValidChannelName "presence-room,x;y=z@w" = true := by decide

example : isValidChannelName "#server-to-user-x" = false := by decide

end Zatat
