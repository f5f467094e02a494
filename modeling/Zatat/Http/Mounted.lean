import Zatat.Http.Sign

/-! # The path that the server is mounted under

`start` nests the routes under `server.path`, and nesting hands the handlers the path
without it. `verify_request` takes `server.path` off once more, which leaves the path as it
is only if the API's own path does not begin with it.
-/

namespace Zatat.Http

/-- The prefix of `start`: `server.path` without slashes at its end. -/
def mount (serverPath : String) : List Char := serverPath.toList.rdropWhile (· == '/')

/-- The path that the handlers see. Nesting is taken to remove the prefix. -/
def handlerPath (serverPath url : String) : String :=
  String.ofList (url.toList.drop (mount serverPath).length)

/-- The path that `verify_request` checks the signature over. -/
def verifiedPath (serverPath url : String) : String :=
  stripPathPrefix (handlerPath serverPath url) serverPath

def apiRoutes : List (List (Option String)) :=
  [[some "apps", none, some "events"],
   [some "apps", none, some "batch_events"],
   [some "apps", none, some "channels"],
   [some "apps", none, some "channels", none],
   [some "apps", none, some "channels", none, some "users"],
   [some "apps", none, some "connections"],
   [some "apps", none, some "users", none, some "events"],
   [some "apps", none, some "users", none],
   [some "apps", none, some "users", none, some "terminate_connections"]]

def matchesSegment (pattern : Option String) (segment : String) : Bool :=
  !segment.isEmpty && !segment.toList.contains '/' && pattern.all (· == segment)

def ApiPath (path : String) : Prop :=
  ∃ route ∈ apiRoutes, ∃ segments,
    List.Forall₂ (fun pattern segment => matchesSegment pattern segment = true) route segments ∧
      path.toList = segments.flatMap fun segment => '/' :: segment.toList

def LiesUnder (start : List Char) (path : String) : Prop :=
  start ≠ [] ∧ (path.toList = start ∨ start ++ ['/'] <+: path.toList)

theorem ApiPath.ne_slash {path : String} (h : ApiPath path) : path ≠ "/" := by
  rintro rfl
  obtain ⟨route, hRoute, segments, hMatches, hPath⟩ := h
  cases hMatches with
  | nil => exact absurd hPath (by decide)
  | @cons pattern segment route segments hSegment _ =>
    rw [List.flatMap_cons, List.cons_append] at hPath
    have hEmpty := (List.append_eq_nil_iff.mp (List.cons.inj hPath).2.symm).1
    rw [matchesSegment, Bool.and_eq_true, Bool.and_eq_true, String.toList_eq_nil_iff.mp hEmpty]
      at hSegment
    exact absurd hSegment.1.1 (by decide)

theorem liesUnder_iff {start rest : List Char} {path : String} (hStart : start ≠ [])
    (hPath : start ++ rest = path.toList) :
    LiesUnder start path ↔ rest = [] ∨ rest.head? = some '/' := by
  rw [LiesUnder, ← hPath, and_iff_right hStart, List.append_right_eq_self,
    List.prefix_append_right_inj]
  cases rest with
  | nil => simp
  | cons c rest => simp [eq_comm]

theorem stripPathPrefix_eq_self_iff {path : String} (hPath : path ≠ "/") (serverPath : String) :
    stripPathPrefix path serverPath = path ↔ ¬ LiesUnder (mount serverPath) path := by
  have hEmpty : serverPath.isEmpty = true → mount serverPath = [] := by
    intro h
    rw [String.isEmpty_iff.mp h]
    rfl
  rw [stripPathPrefix]
  split
  · rename_i h
    exact iff_of_true rfl fun hUnder => hUnder.1 (hEmpty h)
  rw [← mount]
  dsimp only
  split
  · rename_i h
    exact iff_of_true rfl fun hUnder => hUnder.1 (List.isEmpty_iff.mp h)
  rename_i hSome
  have hStart : mount serverPath ≠ [] := fun h => hSome (List.isEmpty_iff.mpr h)
  split
  · rename_i rest hRest
    have hParts := List.append_eq_of_isPrefixOf?_eq_some hRest
    rw [liesUnder_iff hStart hParts]
    split
    · rename_i hAll
      rw [List.isEmpty_iff.mp hAll]
      simp [hPath.symm]
    · rename_i hMore
      rw [List.isEmpty_iff] at hMore
      split
      · rename_i hSlash
        refine iff_of_false (fun hSame => hStart ?_) (by simp [beq_iff_eq.mp hSlash])
        rw [← hSame, String.toList_ofList] at hParts
        exact List.append_left_eq_self.mp hParts
      · rename_i hOther
        rw [beq_iff_eq] at hOther
        simp [hMore, hOther]
  · rename_i hRest
    refine iff_of_true rfl fun hUnder => ?_
    obtain ⟨rest, hParts⟩ : mount serverPath <+: path.toList :=
      hUnder.2.elim (fun h => h ▸ List.prefix_rfl) (List.prefix_append _ _).trans
    rw [List.isPrefixOf?_eq_some_iff_append_eq.mpr hParts] at hRest
    cases hRest

/-- The path is signed as the API has it exactly if it does not lie under the prefix; then
the request is judged as if there were no prefix. -/
theorem signed_path_iff (serverPath path : String) (hPath : ApiPath path) :
    (verifiedPath serverPath (String.ofList (mount serverPath) ++ path) = path ∧
      ∀ hmacHex bodyMd5Hex app now method query body,
        verifyRequest hmacHex bodyMd5Hex app now method
            ⟨handlerPath serverPath (String.ofList (mount serverPath) ++ path), query⟩ serverPath
            body = verifyRequest hmacHex bodyMd5Hex app now method ⟨path, query⟩ "" body) ↔
      ¬ LiesUnder (mount serverPath) path := by
  have hSeen : handlerPath serverPath (String.ofList (mount serverPath) ++ path) = path := by
    rw [handlerPath, String.toList_append, String.toList_ofList, List.drop_left,
      String.ofList_toList]
  rw [verifiedPath, hSeen, ← stripPathPrefix_eq_self_iff hPath.ne_slash]
  constructor
  · exact And.left
  · intro hStrip
    refine ⟨hStrip, fun hmacHex bodyMd5Hex app now method query body => ?_⟩
    rw [verifyRequest, verifyRequest, hStrip]
    rfl

theorem eventsPath_api : ApiPath "/apps/1/events" :=
  ⟨_, List.mem_cons_self, ["apps", "1", "events"], by simp [matchesSegment], by decide⟩

theorem realtime_path_signed :
    verifiedPath "/realtime//" "/realtime/apps/1/events" = "/apps/1/events" :=
  ((signed_path_iff "/realtime//" "/apps/1/events" eventsPath_api).mpr
    fun hUnder => absurd hUnder.2 (by decide)).1

/-- Under `/apps` the signature is checked over what follows the API's own first segment. -/
theorem apps_path_cut : ApiPath "/apps/1/events" ∧
    verifiedPath "/apps" "/apps/apps/1/events" = "/1/events" ∧
    verifyHttp (fun _ message => message) (fun _ => "") "POST"
      (verifiedPath "/apps" "/apps/apps/1/events") [] []
      (signHttp (fun _ message => message) (fun _ => "") "POST" "/apps/1/events" [] [] "secret")
      "secret" = false :=
  ⟨eventsPath_api, by decide, by decide⟩

end Zatat.Http
