import Mathlib.Logic.Function.Basic
import Zatat.Channels.Manager
import Zatat.Channels.Refcount

/-! # The channel objects behind one name

The map of an application holds shared references. A channel can be removed
from the map while tasks still hold its object, and a later join then makes
another object for the same name; each object has its own transition lock.
-/

namespace Zatat

open Function

/-- A channel behind its reference, with the task that holds its lock. -/
structure ChannelObject where
  channel : Channel
  holder : Option String

/-- The objects made for one name, in the order they were made, and the one
the map refers to. -/
structure Incarnations where
  objects : Nat → ChannelObject
  fresh : Nat
  current : Option Nat

namespace Incarnations

def new (name : String) : Incarnations :=
  ⟨fun _ => ⟨Channel.withCacheTtl name none, none⟩, 0, none⟩

def channelAt (inc : Incarnations) (arc : Nat) : Channel := (inc.objects arc).channel

def holderAt (inc : Incarnations) (arc : Nat) : Option String := (inc.objects arc).holder

def setObject (inc : Incarnations) (arc : Nat) (object : ChannelObject) : Incarnations :=
  { inc with objects := update inc.objects arc object }

def entryOrNew (inc : Incarnations) (app : Application) (name : String) : Nat × Incarnations :=
  match inc.current with
  | some arc => (arc, inc)
  | none =>
    (inc.fresh,
      { inc.setObject inc.fresh ⟨Channel.withCacheTtl name (AppChannels.cacheTtlOf app), none⟩ with
        fresh := inc.fresh + 1
        current := some inc.fresh })

/-- `remove_if` on the map entry; it takes no transition lock. -/
def removeUnused (inc : Incarnations) (now : Instant) : Incarnations :=
  match inc.current with
  | some arc =>
    if AppChannels.removable now (inc.channelAt arc) then { inc with current := none } else inc
  | none => inc

/-- The user has a member socket in the channel the map holds. -/
def Present (inc : Incarnations) (userId : String) : Prop :=
  ∃ arc, inc.current = some arc ∧ (inc.channelAt arc).HasMember userId

def Occupied (inc : Incarnations) : Prop :=
  ∃ arc, inc.current = some arc ∧ (inc.channelAt arc).isEmpty = false

variable (inc : Incarnations) (arc i : Nat) (object : ChannelObject)

@[simp] theorem channelAt_setObject : (inc.setObject arc object).channelAt i =
      if i = arc then object.channel else inc.channelAt i := by
  rw [channelAt, setObject]
  dsimp only
  rw [update_apply]
  split <;> rfl

@[simp] theorem holderAt_setObject :
    (inc.setObject arc object).holderAt i = if i = arc then object.holder else inc.holderAt i := by
  rw [holderAt, setObject]
  dsimp only
  rw [update_apply]
  split <;> rfl

@[simp] theorem current_setObject : (inc.setObject arc object).current = inc.current := rfl

@[simp] theorem fresh_setObject : (inc.setObject arc object).fresh = inc.fresh := rfl

theorem setObject_self : inc.setObject arc ⟨inc.channelAt arc, inc.holderAt arc⟩ = inc := by
  have hSame : update inc.objects arc ⟨inc.channelAt arc, inc.holderAt arc⟩ =
      inc.objects := update_eq_self arc inc.objects
  rw [setObject, hSame]

theorem entryOrNew_current (app : Application) (name : String) :
    (inc.entryOrNew app name).2.current = some (inc.entryOrNew app name).1 := by
  rw [entryOrNew]
  split
  · assumption
  · rfl

end Incarnations

end Zatat
