import Mathlib.Algebra.GroupWithZero.Nat
import Zatat.Config.Reload
import Zatat.Lib.Run

/-! # Upgrades and reloads of the table

An upgrade looks its application up and checks the origin; later it registers its
connection. A reload swaps the table; later it closes the connections it revokes. Any
number of both are under way at once. A connection stays within its identity if, when it
registers, the live table still allows it or a reload that will close it is under way.
-/

namespace Zatat.Upgrading

open FiniteMap Transition Option

structure Upgrade where
  app : AppEntry
  origin : Option String

structure Tracked where
  app : AppEntry
  origin : Option String
  closing : Bool

/-- A reload between its swap and its application, by the tables it read. -/
structure Reload where
  previous : AppIndex
  next : AppIndex

structure State where
  apps : AppIndex
  upgrades : Map String Upgrade
  reloads : Map Nat Reload
  connections : Map String Tracked

inductive Label where
  | upgrade (socketId appKey : String) (protocol origin : Option String)
  | register (socketId : String)
  | swap (reload : Nat) (apps : List AppEntry)
  | apply (reload : Nat)
  | disconnect (socketId : String)

def new (apps : AppIndex) : State := ⟨apps, ∅, ∅, ∅⟩

def supportsProtocol : Option String → Bool
  | none => true
  | some protocol => protocol = "5" || protocol = "6" || protocol = "7"

def Tracked.close (tracked : Tracked) : Tracked := { tracked with closing := true }

def closeWhere (p : Tracked → Bool) (connections : Map String Tracked) : Map String Tracked :=
  filterMapVal (fun _ tracked => some (if p tracked then tracked.close else tracked)) connections

section

variable (globs : Globset) {p : AppIndex → String → AppEntry → Bool}
  {connections : Map String Tracked} {socketId appId : String} {t : Tracked} {reload : Nat}
  {σ τ : State} {app : AppEntry} {origin : Option String}

/-- The loops of `apply_apps_reload`; the second reads the live settings. -/
def applyAppsReload (apps : AppIndex) (reload : AppsReload) (connections : Map String Tracked) :
    Map String Tracked :=
  let connections := reload.revoked.foldl
    (fun connections appId => closeWhere (fun t => t.app.id = appId) connections) connections
  reload.originsChanged.foldl
    (fun connections appId =>
      match apps.byId.lookup appId with
      | none => connections
      | some app =>
        closeWhere (fun t => t.app.id = appId && !app.allows globs t.origin) connections)
    connections

/-- `ws_upgrade` up to the decision to run the connection; a refusal leaves nothing. -/
def wsUpgrade (σ : State) (socketId appKey : String) (protocol origin : Option String) : State :=
  match σ.apps.byKey.lookup appKey with
  | none => σ
  | some app =>
    if supportsProtocol protocol && app.allows globs origin then
      { σ with upgrades := σ.upgrades.insert socketId ⟨app, origin⟩ }
    else σ

def overQuota (app : AppEntry) (registered : Map String Tracked) : Bool :=
  match app.maxConnections with
  | some max => (registered.entries.filter fun e => e.2.app.id = app.id).length % 2 ^ 32 > max
  | none => false

/-- The registration of `run_connection`; over the quota the connection is refused. -/
def register (σ : State) (socketId : String) (upgrade : Upgrade) : State :=
  let registered := σ.connections.insert socketId ⟨upgrade.app, upgrade.origin, false⟩
  { σ with
    upgrades := σ.upgrades.erase socketId
    connections := if overQuota upgrade.app registered then σ.connections else registered }

def step (σ : State) : Label → Option State
  | .upgrade socketId appKey protocol origin =>
    if socketId ∈ σ.upgrades ∨ socketId ∈ σ.connections then none
    else some (wsUpgrade globs σ socketId appKey protocol origin)
  | .register socketId => (σ.upgrades.lookup socketId).map (register σ socketId)
  | .swap reload apps =>
    if reload ∈ σ.reloads then none
    else match buildAppIndex globs apps with
      | .error _ => some σ
      | .ok next => some { σ with
          apps := next
          reloads := σ.reloads.insert reload ⟨σ.apps, next⟩ }
  | .apply reload =>
    (σ.reloads.lookup reload).map fun pending =>
      { σ with
        reloads := σ.reloads.erase reload
        connections := applyAppsReload globs σ.apps
          (pending.previous.reloadFrom pending.next) σ.connections }
  | .disconnect socketId =>
    some { σ with
      upgrades := σ.upgrades.erase socketId
      connections := σ.connections.erase socketId }

/-! ## Property and condition -/

def Valid (apps : AppIndex) (app : AppEntry) (origin : Option String) : Prop :=
  ∃ live, apps.byId.lookup app.id = some live ∧ live.key = app.key ∧
    live.allows globs origin = true

def AtRest (σ : State) : Prop := σ.upgrades.entries = [] ∧ σ.reloads.entries = []

/-- Once all have finished, every connection that was not told to close is valid. -/
def Sound (σ : State) : Prop :=
  AtRest σ → ∀ socketId tracked, σ.connections.lookup socketId = some tracked →
    tracked.closing = false → Valid globs σ.apps tracked.app tracked.origin

/-- A reload under way did `p` to an application of the table before it. -/
def underWay (p : AppIndex → String → AppEntry → Bool) (σ : State) (appId : String) : Bool :=
  σ.reloads.entries.any fun e =>
    match e.2.previous.byId.lookup appId with
    | none => false
    | some old => p e.2.next appId old

def beingRevoked (σ : State) (appId : String) : Bool := underWay AppIndex.revokes σ appId

def originsBeingChanged (σ : State) (appId : String) : Bool :=
  underWay AppIndex.changesOrigins σ appId

/-- The live table allows the connection, or a reload under way will look at it. -/
def covered (σ : State) (app : AppEntry) (origin : Option String) : Bool :=
  beingRevoked σ app.id ||
    match σ.apps.byId.lookup app.id with
    | none => false
    | some live => decide (live.key = app.key) &&
        (live.allows globs origin || originsBeingChanged σ app.id)

def upgradeCovered (σ : State) (socketId : String) : Bool :=
  match σ.upgrades.lookup socketId with
  | none => true
  | some upgrade => covered globs σ upgrade.app upgrade.origin

def RegistersCovered (σ : State) : Label → Prop
  | .register socketId => upgradeCovered globs σ socketId = true
  | _ => True

instance (σ : State) : (label : Label) → Decidable (RegistersCovered globs σ label)
  | .register socketId => inferInstanceAs (Decidable (upgradeCovered globs σ socketId = true))
  | .upgrade _ _ _ _ => inferInstanceAs (Decidable True)
  | .swap _ _ => inferInstanceAs (Decidable True)
  | .apply _ => inferInstanceAs (Decidable True)
  | .disconnect _ => inferInstanceAs (Decidable True)

/-! ## What stays open -/

theorem lookup_closeWhere (p : Tracked → Bool) (connections : Map String Tracked)
    (socketId : String) : (closeWhere p connections).lookup socketId =
      (connections.lookup socketId).map fun t => if p t then t.close else t := by
  rw [closeWhere, lookup_filterMapVal]
  cases connections.lookup socketId <;> rfl

theorem open_closeWhere {p : Tracked → Bool}
    (h : (closeWhere p connections).lookup socketId = some t) (hOpen : t.closing = false) :
    connections.lookup socketId = some t ∧ p t = false := by
  rw [lookup_closeWhere] at h
  obtain ⟨t₀, hLookup, rfl⟩ := map_eq_some_iff.mp h
  cases hp : p t₀ with
  | true => simp [hp, Tracked.close] at hOpen
  | false =>
    simp only [hp, Bool.false_eq_true, if_false]
    exact ⟨hLookup, trivial⟩

theorem open_foldl {body : Map String Tracked → String → Map String Tracked}
    {Q : String → Tracked → Prop}
    (hBody : ∀ m id, (body m id).lookup socketId = some t → m.lookup socketId = some t ∧
      Q id t) (ids : List String) (m : Map String Tracked)
    (h : (ids.foldl body m).lookup socketId = some t) :
    m.lookup socketId = some t ∧ ∀ id ∈ ids, Q id t := by
  induction ids generalizing m with
  | nil => exact ⟨h, nofun⟩
  | cons id ids ih =>
    obtain ⟨hRound, hLater⟩ := ih (body m id) h
    obtain ⟨hBefore, hQ⟩ := hBody m id hRound
    exact ⟨hBefore, List.forall_mem_cons.mpr ⟨hQ, hLater⟩⟩

theorem open_applyAppsReload {apps : AppIndex} {reload : AppsReload}
    (h : (applyAppsReload globs apps reload connections).lookup socketId = some t)
    (hOpen : t.closing = false) : connections.lookup socketId = some t ∧ t.app.id ∉ reload.revoked ∧
      (t.app.id ∈ reload.originsChanged → ∀ live, apps.byId.lookup t.app.id = some live →
        live.allows globs t.origin = true) := by
  obtain ⟨hMiddle, hOrigins⟩ := open_foldl
    (Q := fun id t => ∀ live, apps.byId.lookup id = some live → t.app.id = id →
      live.allows globs t.origin = true)
    (by
      intro m id hRound
      cases hLive : apps.byId.lookup id with
      | none =>
        simp only [hLive] at hRound
        exact ⟨hRound, nofun⟩
      | some app =>
        simp only [hLive] at hRound
        obtain ⟨hBefore, hKept⟩ := open_closeWhere hRound hOpen
        refine ⟨hBefore, ?_⟩
        rintro live ⟨⟩ hId
        simpa [hId] using hKept)
    reload.originsChanged _ h
  obtain ⟨hBefore, hRevoked⟩ := open_foldl (Q := fun id t => t.app.id ≠ id)
    (by
      intro m id hRound
      obtain ⟨hBefore, hKept⟩ := open_closeWhere hRound hOpen
      exact ⟨hBefore, of_decide_eq_false hKept⟩)
    reload.revoked connections hMiddle
  exact ⟨hBefore, fun hMem => hRevoked _ hMem rfl,
    fun hMem live hLive => hOrigins _ hMem live hLive rfl⟩

/-! ## Covered connections -/

theorem underWay_iff : underWay p σ appId = true ↔
      ∃ reload pending old, σ.reloads.lookup reload = some pending ∧
        pending.previous.byId.lookup appId = some old ∧ p pending.next appId old = true := by
  rw [underWay, any_entries_iff]
  constructor
  · rintro ⟨reload, pending, hLookup, hp⟩
    cases hOld : pending.previous.byId.lookup appId with
    | none => simp only [hOld, Bool.false_eq_true] at hp
    | some old =>
      simp only [hOld] at hp
      exact ⟨reload, pending, old, hLookup, hOld, hp⟩
  · rintro ⟨reload, pending, old, hLookup, hOld, hp⟩
    refine ⟨reload, pending, hLookup, ?_⟩
    simp only [hOld]
    exact hp

theorem underWay_mono (hReloads : ∀ reload pending, σ.reloads.lookup reload = some pending →
      τ.reloads.lookup reload = some pending) (h : underWay p σ appId = true) :
    underWay p τ appId = true := by
  obtain ⟨reload, pending, old, hLookup, hOld⟩ := underWay_iff.mp h
  exact underWay_iff.mpr ⟨reload, pending, old, hReloads reload pending hLookup, hOld⟩

theorem covered_iff : covered globs σ app origin = true ↔
      beingRevoked σ app.id = true ∨ ∃ live, σ.apps.byId.lookup app.id = some live ∧
        live.key = app.key ∧
        (live.allows globs origin = true ∨ originsBeingChanged σ app.id = true) := by
  rw [covered, Bool.or_eq_true]
  cases σ.apps.byId.lookup app.id with
  | none | some => simp

def Covers (σ : State) : Prop :=
  ∀ socketId t, σ.connections.lookup socketId = some t → t.closing = false →
    covered globs σ t.app t.origin = true

theorem Covers.sound (h : Covers globs σ) : Sound globs σ := by
  rintro ⟨-, hReloads⟩ socketId t hLookup hOpen
  have hNone : ∀ p appId, underWay p σ appId = false := by
    intro p appId
    rw [underWay, hReloads, List.any_nil]
  rcases (covered_iff globs).mp (h socketId t hLookup hOpen) with
    hRevoked | ⟨live, hLive, hKey, hAllows | hChanged⟩
  · exact absurd hRevoked (by rw [beingRevoked, hNone]; exact Bool.false_ne_true)
  · exact ⟨live, hLive, hKey, hAllows⟩
  · exact absurd hChanged (by rw [originsBeingChanged, hNone]; exact Bool.false_ne_true)

/-- The new table keeps an identity as it was, or the reload that brought it says what it
did to it. -/
theorem covered_swap {next : AppIndex} (hFresh : reload ∉ σ.reloads)
    (h : covered globs σ app origin = true) :
    covered globs
      { σ with apps := next, reloads := σ.reloads.insert reload ⟨σ.apps, next⟩ } app origin =
      true := by
  have hKept : ∀ r pending, σ.reloads.lookup r = some pending →
      (σ.reloads.insert reload ⟨σ.apps, next⟩).lookup r = some pending := by
    intro r pending hLookup
    rw [lookup_insert_if, if_neg]
    · exact hLookup
    · rintro rfl
      exact hFresh (mem_iff_lookup.mpr ⟨pending, hLookup⟩)
  have hNew : ∀ {p : AppIndex → String → AppEntry → Bool} {live},
      σ.apps.byId.lookup app.id = some live → p next app.id live = true →
      underWay p { σ with apps := next, reloads := σ.reloads.insert reload ⟨σ.apps, next⟩ }
        app.id = true := by
    intro p live hLive hp
    exact underWay_iff.mpr ⟨reload, _, live, AList.lookup_insert _, hLive, hp⟩
  rw [covered_iff] at h ⊢
  rcases h with hRevoked | ⟨live, hLive, hKey, hOrigin⟩
  · exact Or.inl (underWay_mono hKept hRevoked)
  · by_cases hRevokes : next.revokes app.id live = true
    · exact Or.inl (hNew hLive hRevokes)
    · right
      unfold AppIndex.revokes at hRevokes
      cases hNext : next.byId.lookup app.id with
      | none => simp [hNext] at hRevokes
      | some new =>
        have hSame : new.key = live.key := by simpa [hNext] using hRevokes
        refine ⟨new, rfl, hSame.trans hKey, ?_⟩
        by_cases hList : new.allowedOriginsRaw = live.allowedOriginsRaw
        · rcases hOrigin with hAllows | hChanged
          · exact Or.inl ((AppEntry.allows_congr globs hList origin).trans hAllows)
          · exact Or.inr (underWay_mono hKept hChanged)
        · right
          refine hNew hLive ?_
          simp [AppIndex.changesOrigins, hNext, hSame, hList]

theorem covers_apply {pending : Reload} (h : Covers globs σ)
    (hPending : σ.reloads.lookup reload = some pending) :
    Covers globs { σ with
      reloads := σ.reloads.erase reload
      connections := applyAppsReload globs σ.apps
        (pending.previous.reloadFrom pending.next) σ.connections } := by
  intro socketId t hLookup hOpen
  obtain ⟨hBefore, hRevoked, hOrigins⟩ := open_applyAppsReload globs hLookup hOpen
  -- what covered the connection was not this reload, or its origin was just looked at
  have hOther : ∀ {p : AppIndex → String → AppEntry → Bool}, underWay p σ t.app.id = true →
      (∃ old, pending.previous.byId.lookup t.app.id = some old ∧
        p pending.next t.app.id old = true) ∨
      underWay p { σ with
        reloads := σ.reloads.erase reload
        connections := applyAppsReload globs σ.apps
          (pending.previous.reloadFrom pending.next) σ.connections } t.app.id = true := by
    intro p hp
    obtain ⟨r, other, old, hOtherLookup, hOld⟩ := underWay_iff.mp hp
    by_cases hr : r = reload
    · left
      rw [hr, hPending] at hOtherLookup
      cases hOtherLookup
      exact ⟨old, hOld⟩
    · right
      exact underWay_iff.mpr ⟨r, other, old, by rw [lookup_erase_if, if_neg hr, hOtherLookup], hOld⟩
  rw [covered_iff]
  rcases (covered_iff globs).mp (h socketId t hBefore hOpen) with
    hBeing | ⟨live, hLive, hKey, hOrigin⟩
  · rcases hOther hBeing with hThis | hOther
    · exact absurd (AppIndex.mem_walk.mpr hThis) hRevoked
    · exact Or.inl hOther
  · refine Or.inr ⟨live, hLive, hKey, ?_⟩
    rcases hOrigin with hAllows | hChanged
    · exact Or.inl hAllows
    · rcases hOther hChanged with hThis | hOther
      · exact Or.inl (hOrigins (AppIndex.mem_walk.mpr hThis) live hLive)
      · exact Or.inr hOther

theorem connections_wsUpgrade (σ : State) (socketId appKey : String)
    (protocol origin : Option String) :
    ∃ upgrades, wsUpgrade globs σ socketId appKey protocol origin =
      { σ with upgrades := upgrades } := by
  unfold wsUpgrade
  cases σ.apps.byKey.lookup appKey with
  | none => exact ⟨σ.upgrades, rfl⟩
  | some app =>
    dsimp only
    split
    · exact ⟨_, rfl⟩
    · exact ⟨σ.upgrades, rfl⟩

theorem lookup_register {upgrade : Upgrade} {other : String}
    (h : (register σ socketId upgrade).connections.lookup other = some t) :
    σ.connections.lookup other = some t ∨ t = ⟨upgrade.app, upgrade.origin, false⟩ := by
  unfold register at h
  dsimp only at h
  split at h
  · exact Or.inl h
  · exact (lookup_insert_cases h).symm.imp And.right fun h => h.2.symm

theorem covers_step {label : Label} (h : Covers globs σ)
    (hCovered : RegistersCovered globs σ label) (hStep : step globs σ label = some τ) :
    Covers globs τ := by
  cases label with
  | upgrade socketId appKey protocol origin =>
    obtain ⟨-, ⟨⟩⟩ := ite_none_left_eq_some.mp hStep
    obtain ⟨upgrades, hEq⟩ := connections_wsUpgrade globs σ socketId appKey protocol origin
    rw [hEq]
    exact h
  | register socketId =>
    obtain ⟨upgrade, hUpgrade, rfl⟩ := map_eq_some_iff.mp hStep
    intro other t hLookup hOpen
    rcases lookup_register hLookup with hBefore | rfl
    · exact h other t hBefore hOpen
    · have hThis : upgradeCovered globs σ socketId = true := hCovered
      rw [upgradeCovered, hUpgrade] at hThis
      exact hThis
  | swap reload apps =>
    obtain ⟨hFresh, hSwap⟩ := ite_none_left_eq_some.mp hStep
    cases hBuild : buildAppIndex globs apps with
    | error err =>
      simp only [hBuild, Option.some.injEq] at hSwap
      exact hSwap ▸ h
    | ok next =>
      simp only [hBuild, Option.some.injEq] at hSwap
      subst hSwap
      exact fun socketId t hLookup hOpen =>
        covered_swap globs hFresh (h socketId t hLookup hOpen)
  | apply reload =>
    obtain ⟨pending, hPending, rfl⟩ := map_eq_some_iff.mp hStep
    exact covers_apply globs h hPending
  | disconnect socketId =>
    cases hStep
    intro other t hLookup hOpen
    exact h other t (lookup_erase_some hLookup).2 hOpen

/-- Where each connection registers covered, once every upgrade and every reload has finished,
each connection that was not told to close belongs to an application that the live table has
under the key it was opened with, and its origin is allowed there. -/
theorem no_connection_outlives_identity (apps : AppIndex) (run : List Label)
    (hCovered : EachStep (step globs) (RegistersCovered globs) (new apps) run) :
    Always (step globs) (Sound globs) (new apps) run := by
  have hInit : Covers globs (new apps) := nofun
  exact (always_of_step (fun _ _ _ => covers_step globs) hInit hCovered).mono
    fun _ => Covers.sound globs

end

/-! ## A reload that ends before the connection registers -/

def shop : AppEntry := ⟨"1", "shop-key", none, ["*"]⟩

def narrowed : AppEntry := { shop with allowedOriginsRaw := ["shop.test"] }

def shopTable : AppIndex :=
  match buildAppIndex sameHost [shop] with
  | .ok index => index
  | .error _ => AppIndex.empty

/-- The application is removed while one upgrade registers in time and closes, and its
origins change while another registers that stays. -/
def coveredRun : List Label :=
  [.upgrade "1.1" "shop-key" (some "7") none, .register "1.1",
    .upgrade "2.2" "shop-key" none (some "https://shop.test"), .swap 0 [narrowed],
    .register "2.2", .apply 0, .upgrade "3.3" "shop-key" none none, .swap 1 [],
    .register "3.3", .apply 1]

theorem coveredRun_sound : EachStep (step sameHost) (RegistersCovered sameHost)
      (new shopTable) coveredRun ∧
    Always (step sameHost) (Sound sameHost) (new shopTable) coveredRun :=
  have hCovered : EachStep (step sameHost) (RegistersCovered sameHost)
      (new shopTable) coveredRun := by decide
  ⟨hCovered, no_connection_outlives_identity sameHost shopTable coveredRun hCovered⟩

/-- The application is gone and its connections closed before this one registers. -/
def outlivingRun : List Label :=
  [.upgrade "1.1" "shop-key" (some "7") none, .swap 0 [], .apply 0, .register "1.1"]

theorem outlivingRun_open :
    ¬ Always (step sameHost) (Sound sameHost) (new shopTable) outlivingRun := by
  intro h
  have hRun : (exec (step sameHost) (new shopTable) outlivingRun).map
      (fun σ => (decide (σ.upgrades.entries = [] ∧ σ.reloads.entries = []),
        (σ.connections.lookup "1.1").map fun t => (t.app, t.closing),
        σ.apps.byId.lookup "1")) = some (true, some (shop, false), none) := by decide
  obtain ⟨σ, hExec, hEnd⟩ := Option.map_eq_some_iff.mp hRun
  simp only [Prod.mk.injEq, decide_eq_true_eq] at hEnd
  obtain ⟨hRest, hConnection, hGone⟩ := hEnd
  obtain ⟨t, hLookup, hTracked⟩ := Option.map_eq_some_iff.mp hConnection
  simp only [Prod.mk.injEq] at hTracked
  obtain ⟨live, hLive, -⟩ := h.of_exec hExec hRest "1.1" t hLookup hTracked.2
  rw [hTracked.1] at hLive
  exact nomatch hGone.symm.trans hLive

end Zatat.Upgrading
