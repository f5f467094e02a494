import Zatat.Lib.Map

/-! # The live table of applications and its reload

The table is swapped as a whole. A reload says which applications of the previous table
are gone or have another key, and which allow other origins now. The globs of the origins
are a library's.
-/

namespace Zatat

open FiniteMap

structure AppEntry where
  id : String
  key : String
  maxConnections : Option Nat
  allowedOriginsRaw : List String
deriving DecidableEq, Repr

/-- Which patterns are globs, which of them combine, and which hosts a combination matches. -/
structure Globset where
  glob : String → Except String Unit
  build : List String → Except String Unit
  isMatch : List String → String → Bool

inductive ApplicationError where
  | InvalidOriginPattern (pattern error : String)
deriving DecidableEq, Repr

inductive ConfigError where
  | Application (error : ApplicationError)
  | DuplicateAppKey (key : String)
  | DuplicateAppId (id : String)
deriving DecidableEq, Repr

structure AppIndex where
  byId : Map String AppEntry
  byKey : Map String AppEntry
  ids : ∀ id app, byId.lookup id = some app → app.id = id
  keys : ∀ key app, byKey.lookup key = some app → app.key = key ∧ byId.lookup app.id = some app

structure AppsReload where
  revoked : List String
  originsChanged : List String
deriving DecidableEq, Repr

/-- `build_origin_globset`, up to the set it returns. -/
def buildOriginGlobset (globs : Globset) (patterns : List String) :
    Except ApplicationError Unit := do
  let patterns := patterns.filter (· ≠ "*")
  patterns.forM fun p => (globs.glob p).mapError (.InvalidOriginPattern p)
  (globs.build patterns).mapError (.InvalidOriginPattern "<combined>")

namespace AppIndex

def empty : AppIndex where
  byId := ∅
  byKey := ∅
  ids _ _ h := by cases h
  keys _ _ h := by cases h

def insertApp (index : AppIndex) (app : AppEntry) : Except ConfigError AppIndex :=
  if hId : app.id ∈ index.byId then .error (.DuplicateAppId app.id)
  else if app.key ∈ index.byKey then .error (.DuplicateAppKey app.key)
  else .ok {
    byId := index.byId.insert app.id app
    byKey := index.byKey.insert app.key app
    ids := by
      intro id found hFound
      rcases lookup_insert_cases hFound with ⟨hEq, rfl⟩ | ⟨-, hFound⟩
      · exact hEq.symm
      · exact index.ids id found hFound
    keys := by
      intro key found hFound
      rcases lookup_insert_cases hFound with ⟨hEq, rfl⟩ | ⟨-, hFound⟩
      · exact ⟨hEq.symm, AList.lookup_insert _⟩
      · obtain ⟨hKey, hById⟩ := index.keys key found hFound
        refine ⟨hKey, ?_⟩
        rw [lookup_insert_if, if_neg]
        · exact hById
        · intro hEq
          exact hId (mem_iff_lookup.mpr ⟨found, hEq ▸ hById⟩) }

def build (globs : Globset) : AppIndex → List AppEntry → Except ConfigError AppIndex
  | index, [] => .ok index
  | index, app :: apps => do
    (buildOriginGlobset globs app.allowedOriginsRaw).mapError .Application
    let index ← index.insertApp app
    index.build globs apps

def revokes (next : AppIndex) (id : String) (old : AppEntry) : Bool :=
  match next.byId.lookup id with
  | none => true
  | some new => decide (new.key ≠ old.key)

def changesOrigins (next : AppIndex) (id : String) (old : AppEntry) : Bool :=
  match next.byId.lookup id with
  | none => false
  | some new =>
    decide (new.key = old.key) && decide (new.allowedOriginsRaw ≠ old.allowedOriginsRaw)

/-- What `reload_apps_with` returns, in one walk through the previous table. -/
def reloadFrom (previous next : AppIndex) : AppsReload where
  revoked := (previous.byId.entries.filter fun e => next.revokes e.1 e.2).map fun e => e.1
  originsChanged :=
    (previous.byId.entries.filter fun e => next.changesOrigins e.1 e.2).map fun e => e.1

theorem mem_walk {m : Map String AppEntry} {p : String → AppEntry → Bool} {id : String} :
    id ∈ (m.entries.filter fun e => p e.1 e.2).map (fun e => e.1) ↔
      ∃ old, m.lookup id = some old ∧ p id old = true := by
  rw [List.mem_map]
  constructor
  · rintro ⟨e, hMem, rfl⟩
    obtain ⟨hEntry, hp⟩ := List.mem_filter.mp hMem
    exact ⟨e.2, mem_entries_iff.mp hEntry, hp⟩
  · rintro ⟨old, hLookup, hp⟩
    exact ⟨⟨id, old⟩, List.mem_filter.mpr ⟨mem_entries_iff.mpr hLookup, hp⟩, rfl⟩

end AppIndex

def buildAppIndex (globs : Globset) (apps : List AppEntry) : Except ConfigError AppIndex :=
  AppIndex.empty.build globs apps

/-- A library whose patterns are plain host names. -/
def sameHost : Globset := ⟨fun _ => .ok (), fun _ => .ok (), fun globs host => host ∈ globs⟩

namespace AppIndex

/-- The table finds these applications, and no others, by their ids and by their keys. -/
structure Indexes (index : AppIndex) (apps : List AppEntry) : Prop where
  byId : ∀ app, index.byId.lookup app.id = some app ↔ app ∈ apps
  byKey : ∀ app, index.byKey.lookup app.key = some app ↔ app ∈ apps

theorem lookup_insert_iff {m : Map String AppEntry} {name : AppEntry → String}
    {apps : List AppEntry} (h : ∀ app, m.lookup (name app) = some app ↔ app ∈ apps)
    {new : AppEntry} (hNew : name new ∉ m) (app : AppEntry) :
    (m.insert (name new) new).lookup (name app) = some app ↔ app ∈ new :: apps := by
  rw [lookup_insert_if, List.mem_cons]
  split
  · rename_i hSame
    have hOther : app ∉ apps := fun hMem =>
      hNew (mem_iff_lookup.mpr ⟨app, hSame ▸ (h app).mpr hMem⟩)
    simp [hOther, eq_comm]
  · rename_i hOther
    rw [h, or_iff_right]
    rintro rfl
    exact hOther rfl

theorem Indexes.build {globs : Globset} {index built : AppIndex} {apps rest : List AppEntry}
    (h : Indexes index apps) (hBuild : index.build globs rest = .ok built) :
    Indexes built (rest.reverse ++ apps) := by
  induction rest generalizing index apps with
  | nil =>
    cases hBuild
    exact h
  | cons app rest ih =>
    rw [List.reverse_cons, List.append_assoc]
    rw [AppIndex.build] at hBuild
    cases hGlobs : buildOriginGlobset globs app.allowedOriginsRaw with
    | error =>
      rw [hGlobs] at hBuild
      cases hBuild
    | ok =>
      rw [hGlobs, insertApp] at hBuild
      split_ifs at hBuild with hId hKey
      · cases hBuild
      · cases hBuild
      · exact ih ⟨lookup_insert_iff h.byId hId, lookup_insert_iff h.byKey hKey⟩ hBuild

theorem indexes_of_build (globs : Globset) {apps : List AppEntry} {index : AppIndex}
    (h : buildAppIndex globs apps = .ok index) : Indexes index apps := by
  have hNone : Indexes empty [] := ⟨by simp [empty], by simp [empty]⟩
  have hAll := hNone.build h
  rw [List.append_nil] at hAll
  exact ⟨by simpa using hAll.byId, by simpa using hAll.byKey⟩

theorem pair_indexed :
    ∃ index, buildAppIndex sameHost [⟨"1", "k", none, ["*"]⟩, ⟨"2", "l", none, ["h"]⟩] =
      .ok index ∧ Indexes index [⟨"1", "k", none, ["*"]⟩, ⟨"2", "l", none, ["h"]⟩] :=
  ⟨_, rfl, indexes_of_build sameHost rfl⟩

end AppIndex

/-! ## Origins -/

/-- `split_once`: what stands before and after the first occurrence. -/
def splitAtPattern (pattern : List Char) : List Char → Option (List Char × List Char)
  | [] => if pattern.isEmpty then some ([], []) else none
  | x :: xs =>
    if pattern.isPrefixOf (x :: xs) then some ([], (x :: xs).drop pattern.length)
    else (splitAtPattern pattern xs).map fun halves => (x :: halves.1, halves.2)

def urlHostOrSelf (raw : String) : String :=
  match splitAtPattern "://".toList raw.toList with
  | none => raw
  | some (_, rest) =>
    match rest.takeWhile (· ≠ '/') with
    | '[' :: address => String.ofList (address.takeWhile (· ≠ ']'))
    | authority => String.ofList (authority.takeWhile (· ≠ ':'))

example : urlHostOrSelf "https://app.example:8443/x" = "app.example" := by decide

section

variable (globs : Globset)

def AppEntry.originIsAllowed (app : AppEntry) (host : String) : Bool :=
  app.allowedOriginsRaw.any (· == "*") ||
    globs.isMatch (app.allowedOriginsRaw.filter (· ≠ "*")) host

/-- A connection without an origin is allowed. -/
def AppEntry.allows (app : AppEntry) : Option String → Bool
  | some origin => app.originIsAllowed globs (urlHostOrSelf origin)
  | none => true

theorem AppEntry.allows_congr {app app' : AppEntry}
    (h : app'.allowedOriginsRaw = app.allowedOriginsRaw) (origin : Option String) :
    app'.allows globs origin = app.allows globs origin := by
  cases origin with
  | none => rfl
  | some origin => rw [allows, originIsAllowed, h]; rfl

end

end Zatat
