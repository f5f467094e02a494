import Mathlib.Tactic.SplitIfs
import Zatat.Core.Application
import Zatat.Scaling.PeerState
import Zatat.Scaling.PresenceCache

/-! # The dispatcher's own state: sequences, withheld reports, leadership

The outbound queue is the list of everything handed to it; the publisher sends
it to the bus in this order.
-/

namespace Zatat

open FiniteMap

abbrev WithheldKey := String × String × Option String

structure EventDispatcher where
  nodeId : String
  scalingEnabled : Bool
  presenceCache : PresenceCache
  peerChannelCounts : PeerChannelCounts
  peerUserSessions : PeerUserSessions
  peersSeen : Map String Instant
  metricsInflight : Map String (List (String × List ChannelMetric × Nat))
  withheld : Map WithheldKey Instant
  seq : Nat
  peerSeqs : Map (String × String × String) (Nat × Instant)
  published : List ScalingEnvelope

namespace EventDispatcher

def new (nodeId : String) (scalingEnabled : Bool) : EventDispatcher where
  nodeId := nodeId
  scalingEnabled := scalingEnabled
  presenceCache := PresenceCache.new
  peerChannelCounts := PeerChannelCounts.new
  peerUserSessions := PeerUserSessions.new
  peersSeen := ∅
  metricsInflight := ∅
  withheld := ∅
  seq := 0
  peerSeqs := ∅
  published := []

/-- The source's counter is a `u64`; that it wraps around after `2 ^ 64` envelopes is left out. -/
def nextSeq (d : EventDispatcher) : Nat × EventDispatcher :=
  (d.seq + 1, { d with seq := d.seq + 1 })

def acceptSeq (d : EventDispatcher) (now : Instant) (node : String) (app : Application)
    (key : String) (seq : Nat) : Bool × EventDispatcher :=
  if seq = 0 then (true, d)
  else
    let applied := ((d.peerSeqs.lookup (node, app.id, key)).getD (0, now)).1
    if seq ≤ applied then (false, d)
    else (true, { d with peerSeqs := d.peerSeqs.insert (node, app.id, key) (seq, now) })

def gcPeerSequences (d : EventDispatcher) (now : Instant) : EventDispatcher :=
  { d with
    peerSeqs := retain (fun _ e => decide (durationSince now e.2 < snapshotTtl * 4)) d.peerSeqs }

def noteWithheld (d : EventDispatcher) (now : Instant) (app : Application) (channel : String)
    (userId : Option String) : EventDispatcher :=
  { d with
    withheld := (retain (fun _ at_ => decide (durationSince now at_ < withheldWindow))
      d.withheld).insert (app.id, channel, userId) now }

def claimWithheld (d : EventDispatcher) (now : Instant) (app : Application) (channel : String)
    (userId : Option String) : Bool × EventDispatcher :=
  match d.withheld.lookup (app.id, channel, userId) with
  | some at_ =>
    (decide (durationSince now at_ < withheldWindow),
      { d with withheld := d.withheld.erase (app.id, channel, userId) })
  | none => (false, d)

def isFleetLeader (d : EventDispatcher) (now : Instant) : Bool :=
  d.peersSeen.entries.all fun e =>
    decide (durationSince now e.2 > snapshotTtl) || decide (e.1 > d.nodeId)

/-- Puts an envelope on the queue; one without a sequence number gets the next. -/
def spawnPublish (d : EventDispatcher) (env : ScalingEnvelope) : EventDispatcher :=
  if d.scalingEnabled then
    if env.seq = 0 then
      { d with
        seq := d.seq + 1
        published := d.published ++ [{ env with seq := d.seq + 1 }] }
    else { d with published := d.published ++ [env] }
  else d

def envelope (app : Application) (seq : Nat) (payload : ScalingPayload) : ScalingEnvelope :=
  ⟨scalingVersion, seq, ⟨app.id, app.key⟩, payload⟩

def publishMemberAdded (d : EventDispatcher) (app : Application) (channel userId : String)
    (userInfo : Option Value) : EventDispatcher :=
  d.spawnPublish (envelope app 0 (.MemberAdded d.nodeId channel userId userInfo))

def publishMemberRemoved (d : EventDispatcher) (app : Application) (channel userId : String)
    (webhookWithheld vacatedWithheld : Bool) : EventDispatcher :=
  d.spawnPublish (envelope app 0
    (.MemberRemoved d.nodeId channel userId webhookWithheld vacatedWithheld))

def publishSubscriptionCount (d : EventDispatcher) (app : Application) (channel : String)
    (count : Nat) (vacatedWithheld : Bool) : EventDispatcher :=
  d.spawnPublish (envelope app 0 (.SubscriptionCount d.nodeId channel count vacatedWithheld))

def publishPresenceSnapshot (d : EventDispatcher) (app : Application) (channel : String)
    (members : List PresenceSnapshotMember) (seq : Nat) : EventDispatcher :=
  d.spawnPublish (envelope app seq (.PresenceSnapshot d.nodeId channel members))

def publishChannelCountSnapshot (d : EventDispatcher) (app : Application)
    (counts : List ChannelCount) (seq : Nat) : EventDispatcher :=
  d.spawnPublish (envelope app seq (.ChannelCountSnapshot d.nodeId counts))

def publishUserSessionSnapshot (d : EventDispatcher) (app : Application)
    (userIds : List String) (seq : Nat) : EventDispatcher :=
  d.spawnPublish (envelope app seq (.UserSessionSnapshot d.nodeId userIds))

variable (d : EventDispatcher) (now : Instant) (node : String) (app : Application) (key : String)

/-- The highest sequence number applied for one piece of a peer's state. -/
def applied (d : EventDispatcher) (node appId key : String) : Nat :=
  match d.peerSeqs.lookup (node, appId, key) with
  | some e => e.1
  | none => 0

theorem applied_eq (appId key : String) :
    ((d.peerSeqs.lookup (node, appId, key)).getD (0, now)).1 = d.applied node appId key := by
  rw [applied]
  cases d.peerSeqs.lookup (node, appId, key) <;> rfl

theorem acceptSeq_fst {seq : Nat} (hSeq : 0 < seq) :
    (d.acceptSeq now node app key seq).1 = decide (d.applied node app.id key < seq) := by
  rw [acceptSeq, if_neg (Nat.ne_of_gt hSeq)]
  dsimp only
  rw [applied_eq]
  split
  · rename_i hStale
    exact (decide_eq_false (Nat.not_lt.mpr hStale)).symm
  · rename_i hNewer
    exact (decide_eq_true (Nat.not_le.mp hNewer)).symm

theorem applied_acceptSeq {seq : Nat} (hSeq : 0 < seq) (n a k : String) :
    (d.acceptSeq now node app key seq).2.applied n a k =
      if n = node ∧ a = app.id ∧ k = key ∧ d.applied node app.id key < seq then seq
      else d.applied n a k := by
  rw [acceptSeq, if_neg (Nat.ne_of_gt hSeq)]
  dsimp only
  rw [applied_eq]
  split
  · rename_i hStale
    rw [if_neg (fun h => absurd h.2.2.2 (Nat.not_lt.mpr hStale))]
  · rename_i hNewer
    rw [applied]
    dsimp only
    rw [lookup_insert_if]
    by_cases hKey : n = node ∧ a = app.id ∧ k = key
    · rw [if_pos (by rw [hKey.1, hKey.2.1, hKey.2.2]),
        if_pos ⟨hKey.1, hKey.2.1, hKey.2.2, Nat.not_le.mp hNewer⟩]
    · rw [if_neg (by simpa using hKey), if_neg (fun h => hKey ⟨h.1, h.2.1, h.2.2.1⟩), applied]

/-- The part of the dispatcher that describes its peers, which publishing and
withholding leave alone. -/
structure PeerKnowledge where
  nodeId : String
  scalingEnabled : Bool
  presenceCache : PresenceCache
  peerChannelCounts : PeerChannelCounts
  peerUserSessions : PeerUserSessions
  peersSeen : Map String Instant
  peerSeqs : Map (String × String × String) (Nat × Instant)

def known (d : EventDispatcher) : PeerKnowledge :=
  ⟨d.nodeId, d.scalingEnabled, d.presenceCache, d.peerChannelCounts, d.peerUserSessions,
    d.peersSeen, d.peerSeqs⟩

@[simp] theorem known_spawnPublish (env : ScalingEnvelope) :
    (d.spawnPublish env).known = d.known := by
  rw [spawnPublish]
  split_ifs <;> rfl

theorem known_acceptSeq (seq : Nat) : (d.acceptSeq now node app key seq).2.known =
      { d.known with peerSeqs := (d.acceptSeq now node app key seq).2.peerSeqs } := by
  rw [acceptSeq]
  split
  · rfl
  · dsimp only
    split <;> rfl

theorem known_claimWithheld (channel : String) (userId : Option String) :
    (d.claimWithheld now app channel userId).2.known = d.known := by
  rw [claimWithheld]
  split <;> rfl

variable {d}

theorem spawnPublish_of_pos (hScaling : d.scalingEnabled = true) {env : ScalingEnvelope}
    (hSeq : 0 < env.seq) :
    d.spawnPublish env = { d with published := d.published ++ [env] } := by
  rw [spawnPublish, if_pos hScaling, if_neg (Nat.ne_of_gt hSeq)]

theorem spawnPublish_unnumbered (hScaling : d.scalingEnabled = true) (app : Application)
    (payload : ScalingPayload) : d.spawnPublish (envelope app 0 payload) =
      { d with
        seq := d.seq + 1
        published := d.published ++ [envelope app (d.seq + 1) payload] } := by
  rw [spawnPublish, if_pos hScaling]
  rfl

theorem published_spawnPublish (d : EventDispatcher) (h : d.scalingEnabled = true)
    (app : Application) (seq : Nat) (payload : ScalingPayload) :
    ∃ n, (d.spawnPublish (envelope app seq payload)).published =
      d.published ++ [envelope app n payload] := by
  rcases Nat.eq_zero_or_pos seq with rfl | hSeq
  · exact ⟨d.seq + 1, by rw [spawnPublish_unnumbered h]⟩
  · exact ⟨seq, by rw [spawnPublish_of_pos h hSeq]⟩

end EventDispatcher

end Zatat
