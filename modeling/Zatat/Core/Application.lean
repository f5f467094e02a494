/-! # Time, and the settings of one application

An instant is a number of nanoseconds since some fixed moment of the process.
`duration_since` saturates at zero, as truncated subtraction does. Of the settings
only those that the modelled functions read are here; the live table of a node
maps an application id to its current settings.
-/

namespace Zatat

abbrev Instant := Nat

abbrev Duration := Nat

def Duration.fromSecs (secs : Nat) : Duration := secs * 1000000000

/-- `now.duration_since(at)`, also `at.elapsed()` when read at `now`. -/
def durationSince (now at_ : Instant) : Duration := now - at_

def snapshotTtl : Duration := Duration.fromSecs 15

def withheldWindow : Duration := Duration.fromSecs 60

def cacheMissWebhookInterval : Duration := Duration.fromSecs 60

theorem durationSince_self (now : Instant) : durationSince now now = 0 := Nat.sub_self now

theorem durationSince_mono {now later : Instant} (h : now ≤ later) (at_ : Instant) :
    durationSince now at_ ≤ durationSince later at_ := Nat.sub_le_sub_right h at_

theorem durationSince_lt_withheldWindow {start now noted : Instant}
    (hNow : now < start + withheldWindow) (hNoted : start ≤ noted) :
    durationSince now noted < withheldWindow := by
  have hElapsed (s n t d : Nat) (h : n < s + d) (hd : 0 < d) (ht : s ≤ t) : n - t < d := by omega
  exact hElapsed start now noted withheldWindow hNow (by decide) hNoted

inductive AcceptClientEventsFrom where
  | All
  | Members
  | None
deriving DecidableEq, Repr

structure Application where
  id : String
  key : String
  secret : String
  maxConnections : Option Nat
  acceptClientEventsFrom : AcceptClientEventsFrom
  emitSubscriptionCount : Bool
  encryptionMasterKey : Option String
  cacheTtlSeconds : Option Nat
  maxPresenceMembersPerChannel : Nat
  maxPresenceMemberSizeBytes : Nat
  maxChannelsPerConnection : Nat
deriving DecidableEq, Repr

def exampleApp : Application where
  id := "app"
  key := "key"
  secret := "secret"
  maxConnections := none
  acceptClientEventsFrom := .Members
  emitSubscriptionCount := false
  encryptionMasterKey := none
  cacheTtlSeconds := none
  maxPresenceMembersPerChannel := 100
  maxPresenceMemberSizeBytes := 2048
  maxChannelsPerConnection := 100

def exampleTable (id : String) : Option Application :=
  if id = exampleApp.id then some exampleApp else none

theorem exampleTable_ids (id : String) (app : Application) (h : exampleTable id = some app) :
    app.id = id := by
  rw [exampleTable] at h
  split at h <;> cases h
  rename_i hId
  exact hId.symm

end Zatat
