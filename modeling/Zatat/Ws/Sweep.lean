import Zatat.Ws.JoinLeave
import Zatat.Ws.Tasks

/-! # One record of a sweep

A sweep drops the rosters past their time to live and then walks through the
users they held. A record is announced when the user is neither local nor in a
live roster and the channel is stored.
-/

namespace Zatat

open FiniteMap Option Server

namespace Node

variable {node : Node} {now : Instant} {m : ExpiredMember} {app : Application} {ch : Channel}

def vanishedFrom (node : Node) (now : Instant) (m : ExpiredMember) :
    Option (Application × Channel) :=
  (node.config m.appId).bind fun app =>
    ((node.findChannel app.id m.channel).filter fun ch =>
      !((node.presenceCache.remoteMembersFor now m.appId m.channel).any
        (fun r => r.userId == m.userId) || ch.hasUserId m.userId)).map fun ch => (app, ch)

theorem vanishedFrom_eq_some : node.vanishedFrom now m = some (app, ch) ↔
      node.config m.appId = some app ∧ node.findChannel app.id m.channel = some ch ∧
        (∀ n, ¬ node.presenceCache.ListsLive now m.appId m.channel n m.userId) ∧
        ch.hasUserId m.userId = false := by
  have hLive : (node.presenceCache.remoteMembersFor now m.appId m.channel).any
      (fun r => r.userId == m.userId) = false ↔
      ∀ n, ¬ node.presenceCache.ListsLive now m.appId m.channel n m.userId := by
    rw [← not_exists, ← PresenceCache.mem_remoteMembersFor, ← Bool.not_eq_true, List.any_eq_true,
      List.mem_map]
    simp only [beq_iff_eq]
  simp only [vanishedFrom, bind_eq_some_iff, map_eq_some_iff,
    filter_eq_some_iff, Bool.not_eq_true', Bool.or_eq_false_iff, Prod.mk.injEq, hLive]
  constructor
  · rintro ⟨app', hApp, ch', ⟨hFind, hNone, hLocal⟩, rfl, rfl⟩
    exact ⟨hApp, hFind, hNone, hLocal⟩
  · rintro ⟨hApp, hFind, hNone, hLocal⟩
    exact ⟨app, hApp, ch, ⟨hFind, hNone, hLocal⟩, rfl, rfl⟩

def deserted (node : Node) (now : Instant) (m : ExpiredMember) (ch : Channel) : Bool :=
  ch.isEmpty && (node.presenceCache.remoteMembersFor now m.appId m.channel).isEmpty

theorem gcMember_none (h : node.vanishedFrom now m = none) : gcMember now node m = node := by
  rw [gcMember]
  cases hApp : node.config m.appId with
  | none => rfl
  | some app =>
    dsimp only
    cases hFind : node.findChannel app.id m.channel with
    | none => rfl
    | some ch =>
      dsimp only
      rw [vanishedFrom, hApp, bind_some, hFind, filter_some] at h
      have hStill : ((node.presenceCache.remoteMembersFor now m.appId m.channel).any
          (fun r => r.userId == m.userId) || ch.hasUserId m.userId) = true := by
        by_contra hNot
        rw [Bool.not_eq_true] at hNot
        rw [hNot] at h
        cases h
      rw [announceExpired, hStill]
      rfl

theorem gcMember_some (h : node.vanishedFrom now m = some (app, ch)) :
    gcMember now node m = node.setServer
      ((node.broadcastProtocol app.id ch (.memberRemoved m.channel m.userId) none).reportExpired
        now app m true (node.deserted now m ch)) := by
  rw [vanishedFrom] at h
  obtain ⟨app', hApp, hRest⟩ := bind_eq_some_iff.mp h
  obtain ⟨ch', hFilter, hPair⟩ := map_eq_some_iff.mp hRest
  obtain ⟨hFind, hGone⟩ := filter_eq_some_iff.mp hFilter
  cases hPair
  rw [Bool.not_eq_true'] at hGone
  rw [gcMember, hApp]
  dsimp only
  rw [hFind]
  dsimp only
  rw [announceExpired, hGone]
  rfl

end Node

theorem Server.reportExpired_same (srv : Server) (now : Instant) (app : Application)
    (m : ExpiredMember) (gone empty : Bool) :
    (srv.reportExpired now app m gone empty).known = srv.known ∧
      (srv.reportExpired now app m gone empty).sent = srv.sent ∧
      (srv.reportExpired now app m gone empty).config = srv.config := by
  rw [reportExpired]
  split
  · dsimp only
    split <;> exact ⟨rfl, rfl, rfl⟩
  · exact ⟨rfl, rfl, rfl⟩

namespace Node

theorem gcMember_same (now : Instant) (node : Node) (m : ExpiredMember) :
    (gcMember now node m).known = node.known ∧ (gcMember now node m).config = node.config ∧
      (gcMember now node m).apps = node.apps := by
  cases h : node.vanishedFrom now m with
  | none =>
    rw [gcMember_none h]
    exact ⟨rfl, rfl, rfl⟩
  | some found =>
    obtain ⟨app, ch⟩ := found
    rw [gcMember_some h]
    exact ⟨(reportExpired_same ..).1, (reportExpired_same ..).2.2, rfl⟩

theorem heard_gcMember {node : Node} {now : Instant} {m : ExpiredMember} {app : Application}
    {ch : Channel} (h : node.vanishedFrom now m = some (app, ch)) (a s c v : String) :
    heard c v (framesTo (gcMember now node m).sent a s) = (heard c v (framesTo node.sent a s)).hear
        (if (app.id = a ∧ m.channel = c ∧ s ∈ ch.members) ∧ m.userId = v then [false] else []) := by
  have hSent : (gcMember now node m).sent =
      (node.broadcastProtocol app.id ch (.memberRemoved m.channel m.userId) none).sent := by
    rw [gcMember_some h]
    exact (reportExpired_same ..).2.1
  rw [hSent, framesTo_broadcastProtocol]
  simpa using heard_append_change (Q := fun _ => True) (A := app.id = a) (R := s ∈ ch.members)
    rfl rfl

end Node

end Zatat
