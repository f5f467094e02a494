import Zatat.Ws.Operations
import Zatat.Ws.Pass

/-! # How often one pass announces a departure

A pass judges every record against caches all expired entries are gone from,
so a departure is announced once for each expired entry that tells of it. The
counts below say so, and a pass announces everything at most once exactly when
no departure is told of by two expired entries.
-/

namespace Zatat

open FiniteMap Transition Sent PresenceCache List

def Sent.tellsRemoved (a s c u : String) (x : Sent) : Bool :=
  match x.item with
  | .text (.memberRemoved channel userId) =>
    decide (x.app = a ∧ x.socket = s ∧ channel = c ∧ userId = u)
  | _ => false

def Sent.tellsOffline (a s u : String) (x : Sent) : Bool :=
  match x.item with
  | .text (.watchlistEvents name userIds) =>
    decide (x.app = a ∧ x.socket = s ∧ name = "offline" ∧ u ∈ userIds)
  | _ => false

namespace Node

/-- Between the two states no departure was announced twice to the same receiver. -/
structure AnnouncesOnce (node after : Node) : Prop where
  memberRemoved : ∀ a s c u, (node.sentSince after).countP (Sent.tellsRemoved a s c u) ≤ 1
  memberEvent : ∀ a c u, (node.webhooksSince after).count (a, .MemberRemoved c u) ≤ 1
  vacatedEvent : ∀ a c, (node.webhooksSince after).count (a, .ChannelVacated c) ≤ 1
  offline : ∀ a s u, (node.sentSince after).countP (Sent.tellsOffline a s u) ≤ 1

theorem sentSince_presenceCacheGc (node : Node) (now : Instant) :
    node.sentSince (node.presenceCacheGc now) = node.passFrames now := by
  rw [sentSince, presenceCacheGc_eq]
  exact drop_left

theorem webhooksSince_presenceCacheGc (node : Node) (now : Instant) :
    node.webhooksSince (node.presenceCacheGc now) = node.passEvents now := by
  rw [webhooksSince, presenceCacheGc_eq]
  exact drop_left

variable {node : Node} {now : Instant} {x : Sent}

/-! ## Frames -/

theorem item_of_mem_memberFrames {m : ExpiredMember}
    (hTable : ∀ id app, node.config id = some app → app.id = id)
    (hx : x ∈ memberFrames now node m) :
    x.app = m.appId ∧ x.item = .text (.memberRemoved m.channel m.userId) := by
  rw [memberFrames] at hx
  split at hx
  · rename_i app ch hFound
    obtain ⟨s, -, rfl⟩ := mem_map.mp hx
    exact ⟨hTable m.appId app (vanishedFrom_eq_some.mp hFound).1, rfl⟩
  · cases hx

theorem item_of_mem_countFrames {r : ExpiredCount} (hx : x ∈ countFrames now node r) :
    ∃ n, x.item = .text (.subscriptionCount r.channel n) := by
  rw [countFrames] at hx
  split at hx
  · cases hx
  · split at hx
    · cases hx
    · split at hx
      · cases hx
      · obtain ⟨s, -, rfl⟩ := mem_map.mp hx
        exact ⟨_, rfl⟩

theorem item_of_mem_sessionFrames {r : ExpiredSession}
    (hTable : ∀ id app, node.config id = some app → app.id = id)
    (hx : x ∈ sessionFrames now node r) :
    x.app = r.appId ∧ x.item = .text (.watchlistEvents "offline" [r.userId]) := by
  rw [sessionFrames] at hx
  split at hx
  · cases hx
  · rename_i app hApp
    split at hx
    · obtain ⟨s, -, rfl⟩ := mem_map.mp hx
      exact ⟨hTable r.appId app hApp, rfl⟩
    · cases hx

section Counting

variable {node : Node} {now : Instant}
  (hTable : ∀ id app, node.config id = some app → app.id = id)
include hTable

theorem countP_tellsRemoved (a s c u : String) :
    (node.passFrames now).countP (tellsRemoved a s c u) =
      (node.presenceCache.expiredUsers now a c).count u *
        (memberFrames now node ⟨a, c, u⟩).countP (tellsRemoved a s c u) := by
  have hMembers (m : ExpiredMember) : (memberFrames now node m).countP (tellsRemoved a s c u) =
        if (decide (m.appId = a ∧ m.channel = c) && (m.userId == u)) then
          (memberFrames now node ⟨a, c, u⟩).countP (tellsRemoved a s c u)
        else 0 := by
    split
    · rename_i hSame
      simp only [Bool.and_eq_true, decide_eq_true_eq, beq_iff_eq] at hSame
      obtain ⟨⟨rfl, rfl⟩, rfl⟩ := hSame
      rfl
    · rename_i hOther
      apply countP_eq_zero.mpr
      intro x hx hTells
      obtain ⟨hApp, hItem⟩ := item_of_mem_memberFrames hTable hx
      rw [tellsRemoved, hItem] at hTells
      simp only [decide_eq_true_eq] at hTells
      apply hOther
      simp [← hApp, hTells]
  have hCounts : ((node.dispatcher.peerChannelCounts.gcExpired now).1.flatMap
      (countFrames now node)).countP (tellsRemoved a s c u) = 0 := by
    apply countP_flatMap_eq_zero
    intro r _ x hxr
    obtain ⟨n, hItem⟩ := item_of_mem_countFrames hxr
    rw [tellsRemoved, hItem]
    exact Bool.false_ne_true
  have hSessions : ((node.dispatcher.peerUserSessions.gcExpired now).1.flatMap
      (sessionFrames now node)).countP (tellsRemoved a s c u) = 0 := by
    apply countP_flatMap_eq_zero
    intro r _ x hxr
    rw [tellsRemoved, (item_of_mem_sessionFrames hTable hxr).2]
    exact Bool.false_ne_true
  rw [passFrames, countP_append, countP_append, hCounts, hSessions, Nat.add_zero,
    countP_flatMap_ite _ hMembers,
    countP_gcExpired node.presenceCache now a c (fun v => v == u), List.count]

theorem countP_tellsOffline (a s u : String) : (node.passFrames now).countP (tellsOffline a s u) =
      (node.dispatcher.peerUserSessions.expiredUsers now a).count u *
        (sessionFrames now node ⟨a, "", u⟩).countP (Sent.tellsOffline a s u) := by
  have hMembers : ((node.presenceCache.gcExpired now).1.flatMap
      (memberFrames now node)).countP (tellsOffline a s u) = 0 := by
    apply countP_flatMap_eq_zero
    intro r _ x hxr
    rw [tellsOffline, (item_of_mem_memberFrames hTable hxr).2]
    exact Bool.false_ne_true
  have hCounts : ((node.dispatcher.peerChannelCounts.gcExpired now).1.flatMap
      (countFrames now node)).countP (tellsOffline a s u) = 0 := by
    apply countP_flatMap_eq_zero
    intro r _ x hxr
    obtain ⟨n, hItem⟩ := item_of_mem_countFrames hxr
    rw [tellsOffline, hItem]
    exact Bool.false_ne_true
  have hSessions (r : ExpiredSession) : (sessionFrames now node r).countP (tellsOffline a s u) =
        if (decide (r.appId = a) && (r.userId == u)) then
          (sessionFrames now node ⟨a, "", u⟩).countP (Sent.tellsOffline a s u)
        else 0 := by
    split
    · rename_i hSame
      simp only [Bool.and_eq_true, decide_eq_true_eq, beq_iff_eq] at hSame
      obtain ⟨rfl, rfl⟩ := hSame
      rfl
    · rename_i hOther
      apply countP_eq_zero.mpr
      intro x hx hTells
      obtain ⟨hApp, hItem⟩ := item_of_mem_sessionFrames hTable hx
      rw [tellsOffline, hItem] at hTells
      simp only [decide_eq_true_eq, mem_singleton] at hTells
      apply hOther
      simp [← hApp, hTells]
  rw [passFrames, countP_append, countP_append, hMembers, hCounts, Nat.add_zero,
    Nat.zero_add, countP_flatMap_ite _ hSessions,
    PeerUserSessions.countP_gcExpired _ now a (fun v => v == u), List.count]

end Counting

theorem countP_memberFrames {node : Node} {now : Instant} {a c u : String} {app : Application}
    {ch : Channel} (hFound : node.vanishedFrom now ⟨a, c, u⟩ = some (app, ch)) (hId : app.id = a)
    (s : String) : (memberFrames now node ⟨a, c, u⟩).countP (tellsRemoved a s c u) =
      if s ∈ ch.members then 1 else 0 := by
  have hTells : tellsRemoved a s c u ∘
      (fun s' => (⟨app.id, s', .text (.memberRemoved c u)⟩ : Sent)) = fun s' => s' == s := by
    funext s'
    simp only [Function.comp_apply, tellsRemoved, hId, true_and, and_true, Bool.beq_eq_decide_eq]
  have hAll : ch.recipients none = ch.members.keys := by
    rw [Channel.recipients]
    exact filter_eq_self.mpr (by simp)
  rw [memberFrames, hFound]
  dsimp only
  rw [countP_map, hTells, hAll, ← count_keys, List.count]

theorem countP_sessionFrames {node : Node} {now : Instant} {a u : String} {app : Application}
    (hApp : node.config a = some app) (hId : app.id = a) (s : String) :
    (sessionFrames now node ⟨a, "", u⟩).countP (Sent.tellsOffline a s u) =
      if node.signedOut now app a u then ((node.apps a).watcherConnections u).count s else 0 := by
  have hTells : tellsOffline a s u ∘
      (fun s' => (⟨app.id, s', .text (.watchlistEvents "offline" [u])⟩ : Sent)) =
        fun s' => s' == s := by
    funext s'
    simp only [Function.comp_apply, tellsOffline, hId, true_and, mem_singleton,
      and_true, Bool.beq_eq_decide_eq]
  rw [sessionFrames]
  dsimp only
  rw [hApp]
  dsimp only
  split
  · rw [countP_map, hTells, hId, List.count]
  · rfl

/-! ## Webhooks -/

/-- A record of the user tells the leader that nobody is left in the channel. -/
def lastMember (node : Node) (now : Instant) (a c u : String) : Bool :=
  match node.vanishedFrom now ⟨a, c, u⟩ with
  | some (_, ch) => node.deserted now ⟨a, c, u⟩ ch
  | none => false

/-- A count a peer had reported tells the leader that nobody is left in the channel. -/
def lastSubscribers (node : Node) (now : Instant) (a c : String) (count : Nat) : Bool :=
  match node.config a with
  | some app => decide (count > 0) && node.unoccupied now app a c
  | none => false

section Events

variable {node : Node} {now : Instant}
  (hTable : ∀ id app, node.config id = some app → app.id = id)
include hTable

theorem memberEvents_eq (m : ExpiredMember) : memberEvents now node m =
      (if (node.vanishedFrom now m).isSome && node.dispatcher.isFleetLeader now then
        [(m.appId, .MemberRemoved m.channel m.userId)] else []) ++
      if node.lastMember now m.appId m.channel m.userId && node.dispatcher.isFleetLeader now then
        [(m.appId, .ChannelVacated m.channel)] else [] := by
  rw [memberEvents, lastMember]
  cases hFound : node.vanishedFrom now m with
  | none => rfl
  | some found =>
    have hId := hTable m.appId found.1 (vanishedFrom_eq_some.mp hFound).1
    cases node.dispatcher.isFleetLeader now with
    | false => simp
    | true => simp [hId]

theorem count_memberEvents_removed (m : ExpiredMember) (a c u : String) :
    (memberEvents now node m).count (a, .MemberRemoved c u) =
      if (decide (m.appId = a ∧ m.channel = c) && (m.userId == u)) then
        if (node.vanishedFrom now ⟨a, c, u⟩).isSome && node.dispatcher.isFleetLeader now then 1
        else 0 else 0 := by
  obtain ⟨appId, channel, userId⟩ := m
  have hVacated (b : Bool) :
      (if b then [(appId, WebhookEvent.ChannelVacated channel)] else []).count
      (a, .MemberRemoved c u) = 0 := by
    cases b <;> simp
  rw [memberEvents_eq hTable, count_append, hVacated, Nat.add_zero]
  by_cases hSame : (appId = a ∧ channel = c) ∧ userId = u
  · obtain ⟨⟨rfl, rfl⟩, rfl⟩ := hSame
    simp [apply_ite (List.count _)]
  · have hOther : ¬ (decide (appId = a ∧ channel = c) && (userId == u)) = true := by
      simp only [Bool.and_eq_true, decide_eq_true_eq, beq_iff_eq]
      exact hSame
    rw [if_neg hOther]
    split
    · simpa [count_singleton, and_assoc] using hSame
    · rfl

theorem count_memberEvents_vacated (m : ExpiredMember) (a c : String) :
    (memberEvents now node m).count (a, .ChannelVacated c) =
      if (decide (m.appId = a ∧ m.channel = c) &&
        (node.lastMember now a c m.userId && node.dispatcher.isFleetLeader now)) then 1 else 0 := by
  obtain ⟨appId, channel, userId⟩ := m
  have hRemoved (b : Bool) : (if b then [(appId, WebhookEvent.MemberRemoved channel userId)]
      else []).count (a, .ChannelVacated c) = 0 := by
    cases b <;> simp
  rw [memberEvents_eq hTable, count_append, hRemoved, Nat.zero_add]
  by_cases hSame : appId = a ∧ channel = c
  · obtain ⟨rfl, rfl⟩ := hSame
    simp [apply_ite (List.count _)]
  · rw [decide_eq_false hSame, Bool.false_and, if_neg Bool.false_ne_true]
    split
    · simpa [count_singleton] using hSame
    · rfl

theorem count_countEvents_vacated (r : ExpiredCount) (a c : String) :
    (countEvents now node r).count (a, .ChannelVacated c) =
      if (decide (r.appId = a ∧ r.channel = c) &&
        (node.lastSubscribers now a c r.staleCount && node.dispatcher.isFleetLeader now)) then 1
      else 0 := by
  obtain ⟨appId, channel, nodeId, staleCount⟩ := r
  rw [countEvents]
  cases hApp : node.config appId with
  | none =>
    rw [if_neg]
    · rfl
    · simp only [Bool.and_eq_true, decide_eq_true_eq]
      rintro ⟨⟨rfl, rfl⟩, hLast, -⟩
      rw [lastSubscribers, hApp] at hLast
      cases hLast
  | some app =>
    have hId : app.id = appId := hTable appId app hApp
    dsimp only
    rw [hId]
    by_cases hSame : appId = a ∧ channel = c
    · obtain ⟨rfl, rfl⟩ := hSame
      rw [lastSubscribers, hApp, decide_eq_true (⟨rfl, rfl⟩ : appId = appId ∧ channel = channel),
        Bool.true_and]
      dsimp only
      split
      · exact count_singleton_self
      · rfl
    · rw [decide_eq_false hSame, Bool.false_and, if_neg Bool.false_ne_true]
      apply count_eq_zero.mpr
      intro hMem
      apply hSame
      split at hMem
      · simp only [mem_singleton, Prod.mk.injEq, WebhookEvent.ChannelVacated.injEq] at hMem
        exact ⟨hMem.1.symm, hMem.2.symm⟩
      · cases hMem

theorem count_memberRemoved (a c u : String) : (node.passEvents now).count (a, .MemberRemoved c u) =
      (node.presenceCache.expiredUsers now a c).count u *
        if (node.vanishedFrom now ⟨a, c, u⟩).isSome && node.dispatcher.isFleetLeader now then 1
        else 0 := by
  have hCounts : ((node.dispatcher.peerChannelCounts.gcExpired now).1.flatMap
      (countEvents now node)).countP (fun x => x == (a, .MemberRemoved c u)) = 0 := by
    apply countP_flatMap_eq_zero
    intro r _ x hx hEq
    rw [beq_iff_eq] at hEq
    subst hEq
    rw [countEvents] at hx
    split at hx
    · cases hx
    · split at hx
      · cases mem_singleton.mp hx
      · cases hx
  rw [passEvents, List.count, countP_append, hCounts, Nat.add_zero,
    countP_flatMap_ite _ fun m => count_memberEvents_removed hTable m a c u,
    countP_gcExpired node.presenceCache now a c (fun v => v == u), List.count]

theorem count_channelVacated (a c : String) : (node.passEvents now).count (a, .ChannelVacated c) =
      if node.dispatcher.isFleetLeader now then
        (node.presenceCache.expiredUsers now a c).countP (node.lastMember now a c) +
          (node.dispatcher.peerChannelCounts.expiredCounts now a c).countP
            (node.lastSubscribers now a c) else 0 := by
  rw [passEvents, List.count, countP_append,
    countP_flatMap_ite _ fun m => count_memberEvents_vacated hTable m a c,
    countP_flatMap_ite _ fun r => count_countEvents_vacated hTable r a c,
    countP_gcExpired node.presenceCache now a c
      (fun u => node.lastMember now a c u && node.dispatcher.isFleetLeader now),
    PeerChannelCounts.countP_gcExpired _ now a c
      (fun n => node.lastSubscribers now a c n && node.dispatcher.isFleetLeader now),
    Nat.mul_one, Nat.mul_one]
  cases node.dispatcher.isFleetLeader now with
  | false => simp
  | true => simp only [Bool.and_true, if_true]

end Events

/-! ## When a pass announces nothing twice -/

variable {node : Node} {now : Instant}

/-- No departure a pass announces is told of by two expired entries. -/
structure SingleHolders (node : Node) (now : Instant) : Prop where
  members : ∀ a c u app ch, node.config a = some app → node.findChannel a c = some ch →
    (∀ n, ¬ node.presenceCache.ListsLive now a c n u) → ch.hasUserId u = false →
    (ch.isEmpty = false ∨ node.dispatcher.isFleetLeader now = true) →
    (node.presenceCache.expiredUsers now a c).count u ≤ 1
  channels : node.dispatcher.isFleetLeader now = true → ∀ a c,
    (node.presenceCache.expiredUsers now a c).countP (node.lastMember now a c) +
      (node.dispatcher.peerChannelCounts.expiredCounts now a c).countP
        (node.lastSubscribers now a c) ≤ 1
  sessions : ∀ a u s app, node.config a = some app →
    node.signedOut now app a u = true →
    (node.dispatcher.peerUserSessions.expiredUsers now a).count u *
      ((node.apps a).watcherConnections u).count s ≤ 1

theorem SingleHolders.memberRemoved (h : node.SingleHolders now)
    (hTable : ∀ id app, node.config id = some app → app.id = id) (a s c u : String) :
    (node.passFrames now).countP (tellsRemoved a s c u) ≤ 1 := by
  rw [countP_tellsRemoved hTable]
  cases hFound : node.vanishedFrom now ⟨a, c, u⟩ with
  | none =>
    rw [memberFrames, hFound]
    exact Nat.zero_le 1
  | some found =>
    obtain ⟨app, ch⟩ := found
    obtain ⟨hApp, hFind, hRemote, hLocal⟩ := vanishedFrom_eq_some.mp hFound
    have hId := hTable a app hApp
    rw [countP_memberFrames hFound hId]
    split
    · rename_i hMember
      rw [Nat.mul_one]
      refine h.members a c u app ch hApp (hId ▸ hFind) hRemote hLocal (.inl ?_)
      rw [Channel.isEmpty, isEmpty_eq_false_iff]
      intro hNil
      obtain ⟨member, hLookup⟩ := mem_iff_lookup.mp hMember
      rw [entries_eq_nil_iff.mp hNil] at hLookup
      cases hLookup
    · exact Nat.zero_le 1

theorem SingleHolders.memberEvent (h : node.SingleHolders now)
    (hTable : ∀ id app, node.config id = some app → app.id = id) (a c u : String) :
    (node.passEvents now).count (a, .MemberRemoved c u) ≤ 1 := by
  rw [count_memberRemoved hTable]
  split
  · rename_i hReports
    rw [Bool.and_eq_true] at hReports
    obtain ⟨⟨app, ch⟩, hFound⟩ := Option.isSome_iff_exists.mp hReports.1
    obtain ⟨hApp, hFind, hRemote, hLocal⟩ := vanishedFrom_eq_some.mp hFound
    rw [Nat.mul_one]
    exact h.members a c u app ch hApp (hTable a app hApp ▸ hFind) hRemote hLocal (.inr hReports.2)
  · exact Nat.zero_le 1

theorem SingleHolders.offline (h : node.SingleHolders now)
    (hTable : ∀ id app, node.config id = some app → app.id = id) (a s u : String) :
    (node.passFrames now).countP (tellsOffline a s u) ≤ 1 := by
  rw [countP_tellsOffline hTable]
  cases hApp : node.config a with
  | none =>
    rw [sessionFrames, hApp]
    exact Nat.zero_le 1
  | some app =>
    rw [countP_sessionFrames hApp (hTable a app hApp)]
    split
    · rename_i hOut
      exact h.sessions a u s app hApp hOut
    · exact Nat.zero_le 1

/-- A pass announces every departure at most once exactly when no two expired
entries tell of the same one. -/
theorem announcesOnce_iff_singleHolders (node : Node) (now : Instant)
    (hTable : ∀ id app, node.config id = some app → app.id = id) :
    node.AnnouncesOnce (node.presenceCacheGc now) ↔ node.SingleHolders now := by
  constructor
  · intro hOnce
    refine ⟨?_, ?_, ?_⟩
    · intro a c u app ch hApp hFind hRemote hLocal hHeard
      have hId := hTable a app hApp
      have hFound : node.vanishedFrom now ⟨a, c, u⟩ = some (app, ch) :=
        vanishedFrom_eq_some.mpr ⟨hApp, hId.symm ▸ hFind, hRemote, hLocal⟩
      rcases hHeard with hMembers | hLeader
      · rw [Channel.isEmpty, List.isEmpty_eq_false_iff] at hMembers
        obtain ⟨e, he⟩ := List.exists_mem_of_ne_nil _ hMembers
        have hMember : e.1 ∈ ch.members := mem_iff_lookup.mpr ⟨e.2, mem_entries_iff.mp he⟩
        have hCount := hOnce.memberRemoved a e.1 c u
        rwa [sentSince_presenceCacheGc, countP_tellsRemoved hTable,
          countP_memberFrames hFound hId, if_pos hMember, Nat.mul_one] at hCount
      · have hCount := hOnce.memberEvent a c u
        rwa [webhooksSince_presenceCacheGc, count_memberRemoved hTable, hFound, hLeader,
          Option.isSome_some, Bool.and_self, if_pos rfl, Nat.mul_one] at hCount
    · intro hLeader a c
      have hCount := hOnce.vacatedEvent a c
      rwa [webhooksSince_presenceCacheGc, count_channelVacated hTable, if_pos hLeader] at hCount
    · intro a u s app hApp hOut
      have hCount := hOnce.offline a s u
      rwa [sentSince_presenceCacheGc, countP_tellsOffline hTable,
        countP_sessionFrames hApp (hTable a app hApp), if_pos hOut] at hCount
  · intro h
    refine ⟨?_, ?_, ?_, ?_⟩
    · rw [sentSince_presenceCacheGc]
      exact h.memberRemoved hTable
    · rw [webhooksSince_presenceCacheGc]
      exact h.memberEvent hTable
    · intro a c
      rw [webhooksSince_presenceCacheGc, count_channelVacated hTable]
      split
      · rename_i hLeader
        exact h.channels hLeader a c
      · exact Nat.zero_le 1
    · rw [sentSince_presenceCacheGc]
      exact h.offline hTable

theorem singleHolders_of_nodup (hTable : ∀ id app, node.config id = some app → app.id = id)
    (hMembers : (node.presenceCache.gcExpired now).1.Nodup)
    (hVacated : ∀ a c, (a, .ChannelVacated c) ∉ node.passEvents now)
    (hSessions : (node.dispatcher.peerUserSessions.gcExpired now).1 = []) :
    node.SingleHolders now := by
  refine ⟨?_, ?_, ?_⟩
  · intro a c u _ _ _ _ _ _ _
    rw [List.count, ← countP_gcExpired]
    refine Nat.le_trans (countP_mono_left ?_) (nodup_iff_count_le_one.mp hMembers ⟨a, c, u⟩)
    rintro ⟨a', c', u'⟩ _ hSame
    simpa [and_assoc] using hSame
  · intro hLeader a c
    have hNone := count_eq_zero.mpr (hVacated a c)
    rw [count_channelVacated hTable, if_pos hLeader] at hNone
    omega
  · intro a u s _ _ _
    rw [List.count, ← PeerUserSessions.countP_gcExpired, hSessions, countP_nil, Nat.zero_mul]
    exact Nat.zero_le 1

theorem table_of_exec {run : List Op}
    (h : exec perform (Node.new "node-a" true exampleTable) run = some node) (id : String)
    (app : Application) (hApp : node.config id = some app) : app.id = id := by
  have hSame : node.config = exampleTable :=
    (always_of_invariant (I := fun n : Node => n.config = exampleTable)
      (fun _ _ _ hConfig hStep => (config_perform hStep).trans hConfig) rfl run).of_exec h
  rw [hSame] at hApp
  exact exampleTable_ids id app hApp

/-- Two peers list a user each and fall silent together. -/
def twoRosters (first second : String) : List Op :=
  [.incoming 0 2 1 ⟨"app", "key"⟩ "node-b" "presence-room" (.roster [⟨first, none⟩]),
    .incoming 0 2 1 ⟨"app", "key"⟩ "node-c" "presence-room" (.roster [⟨second, none⟩]),
    .join (Duration.fromSecs 1) exampleApp "1.1" "presence-room" (some ⟨"bob", none⟩)]

def soleHolderRun : List Op := twoRosters "carol" "alice"

theorem soleHolderRun_announcesOnce :
    ∃ node, exec perform (Node.new "node-a" true exampleTable) soleHolderRun = some node ∧
      node.webhooksSince (node.presenceCacheGc (Duration.fromSecs 16)) =
        [("app", .MemberRemoved "presence-room" "alice"),
          ("app", .MemberRemoved "presence-room" "carol")] ∧
      node.AnnouncesOnce (node.presenceCacheGc (Duration.fromSecs 16)) := by
  have hResult : (exec perform (Node.new "node-a" true exampleTable) soleHolderRun).map (fun node =>
      (decide (node.presenceCache.gcExpired (Duration.fromSecs 16)).1.Nodup,
        (node.dispatcher.peerUserSessions.gcExpired (Duration.fromSecs 16)).1.isEmpty,
        node.webhooksSince (node.presenceCacheGc (Duration.fromSecs 16)))) =
      some (true, true, [("app", .MemberRemoved "presence-room" "alice"),
        ("app", .MemberRemoved "presence-room" "carol")]) := by
    decide
  obtain ⟨node, hRun, hValues⟩ := Option.map_eq_some_iff.mp hResult
  simp only [Prod.mk.injEq, decide_eq_true_eq, List.isEmpty_iff] at hValues
  obtain ⟨hMembers, hSessions, hEvents⟩ := hValues
  refine ⟨node, hRun, hEvents, ?_⟩
  have hTable := table_of_exec hRun
  refine (announcesOnce_iff_singleHolders node _ hTable).mpr
    (singleHolders_of_nodup hTable hMembers (fun a c => ?_) hSessions)
  rw [← webhooksSince_presenceCacheGc, hEvents]
  simp

def sharedUserRun : List Op := twoRosters "alice" "alice"

/-- The subscriber is told twice that the user left, and two webhooks say so. -/
theorem sharedUserRun_announces_twice :
    ∃ node, exec perform (Node.new "node-a" true exampleTable) sharedUserRun = some node ∧
      (node.sentSince (node.presenceCacheGc (Duration.fromSecs 16))).countP
        (Sent.tellsRemoved "app" "1.1" "presence-room" "alice") = 2 ∧
      (node.webhooksSince (node.presenceCacheGc (Duration.fromSecs 16))).count
        ("app", .MemberRemoved "presence-room" "alice") = 2 ∧
      ¬ node.AnnouncesOnce (node.presenceCacheGc (Duration.fromSecs 16)) := by
  have hResult : (exec perform (Node.new "node-a" true exampleTable) sharedUserRun).map (fun node =>
      ((node.sentSince (node.presenceCacheGc (Duration.fromSecs 16))).countP
          (Sent.tellsRemoved "app" "1.1" "presence-room" "alice"),
        (node.webhooksSince (node.presenceCacheGc (Duration.fromSecs 16))).count
          ("app", .MemberRemoved "presence-room" "alice"))) = some (2, 2) := by
    decide
  obtain ⟨node, hRun, hValues⟩ := Option.map_eq_some_iff.mp hResult
  simp only [Prod.mk.injEq] at hValues
  refine ⟨node, hRun, hValues.1, hValues.2, ?_⟩
  intro hOnce
  have hCount := hOnce.memberRemoved "app" "1.1" "presence-room" "alice"
  rw [hValues.1] at hCount
  exact absurd hCount (by decide)

end Node

end Zatat
