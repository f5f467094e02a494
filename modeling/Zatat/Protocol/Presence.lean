import Mathlib.Data.String.Basic
import Zatat.Lib.SortedMap

/-! # Presence members and the roster a subscriber is sent -/

namespace Zatat

/-- A JSON value; a number is kept as the text it is printed as. -/
inductive Value where
  | null
  | bool (value : Bool)
  | number (text : String)
  | string (text : String)
  | array (items : List Value)
  | object (fields : List (String × Value))
deriving Repr, Inhabited

structure PresenceMember where
  userId : String
  userInfo : Option Value
deriving Repr

structure PresenceData where
  count : Nat
  ids : List String
  hash : SortedMap String Value

namespace PresenceData

def empty : PresenceData := ⟨0, [], SortedMap.empty⟩

/-- The loop of `from_members`; a member without presence data ends it. -/
def collectMembers : SortedMap String Value → List (Option PresenceMember) →
    Option (SortedMap String Value)
  | seen, [] => some seen
  | _, none :: _ => none
  | seen, some m :: members =>
    collectMembers (seen.orInsert m.userId (m.userInfo.getD .null)) members

def fromMembers (members : List (Option PresenceMember)) : PresenceData :=
  match collectMembers SortedMap.empty members with
  | none => empty
  | some seen => ⟨seen.keys.length, seen.keys, seen⟩

/-- The ids increase and are the keys of `hash`, and `count` is their number. -/
structure Canonical (data : PresenceData) : Prop where
  increasing : data.ids.Pairwise (· < ·)
  keys : data.ids = data.hash.keys
  count : data.count = data.ids.length

def ofHash (hash : SortedMap String Value) : PresenceData := ⟨hash.keys.length, hash.keys, hash⟩

theorem canonical_ofHash (hash : SortedMap String Value) : (ofHash hash).Canonical :=
  ⟨hash.keys_sorted, rfl, rfl⟩

theorem collectMembers_map_some (seen : SortedMap String Value) (members : List PresenceMember) :
    collectMembers seen (members.map some) =
      some (seen.insertAll PresenceMember.userId (fun m => m.userInfo.getD .null) members) := by
  induction members generalizing seen with
  | nil => rfl
  | cons m members ih => exact ih _

theorem fromMembers_map_some (members : List PresenceMember) : fromMembers (members.map some) =
      ofHash (SortedMap.empty.insertAll PresenceMember.userId (fun m => m.userInfo.getD .null)
        members) := by
  rw [fromMembers, collectMembers_map_some]
  rfl

variable {members : List (Option PresenceMember)}

theorem exists_map_some (h : ∀ m ∈ members, m.isSome) :
    ∃ l : List PresenceMember, members = l.map some := by
  induction members with
  | nil => exact ⟨[], rfl⟩
  | cons head members ih =>
    obtain ⟨m, rfl⟩ := Option.isSome_iff_exists.mp (h head List.mem_cons_self)
    obtain ⟨l, rfl⟩ := ih fun x hx => h x (List.mem_cons_of_mem _ hx)
    exact ⟨m :: l, rfl⟩

theorem mem_fromMembers_ids (h : ∀ m ∈ members, m.isSome) (u : String) :
    u ∈ (fromMembers members).ids ↔ ∃ m, some m ∈ members ∧ m.userId = u := by
  obtain ⟨l, rfl⟩ := exists_map_some h
  rw [fromMembers_map_some, ofHash, SortedMap.mem_keys_insertAll]
  simp

theorem fromMembers_ids_eq_keys (members : List (Option PresenceMember)) :
    (fromMembers members).ids = (fromMembers members).hash.keys := by
  rw [fromMembers]
  cases collectMembers SortedMap.empty members <;> rfl

end PresenceData

end Zatat
